import Mathlib.Data.List.TakeWhile
import Mips32.Listing

/-!
# Names of listing files

The listing of a source file has its path but for the extension of the last component
(`exists_isCut_pathFor`). A name that has the extension of listings already, behind something that
is not only dots, stays what it is, and no other name does (`pathFor_eq_self_iff`). So the path of a
listing leads to itself, unless its source is named by dots alone (`pathFor_pathFor`).

What an extension is, is told without the search for it (`IsStem`).
-/

namespace Mips32.Listing

/-- The extension of listing files. -/
def extension : Text :=
  ".obj".text

/-- A path is its last component behind what ends in a slash, and the path of the listing differs in
the last component alone. -/
theorem exists_front (path : Text) :
    ∃ front : Text, (front = [] ∨ front.getLast? = some (.char '/')) ∧
      path = front ++ baseName path ∧
      pathFor path = front ++ (stem (baseName path) ++ extension) := by
  have hsplit : path = (path.reverse.dropWhile (· != .char '/')).reverse ++ baseName path := by
    rw [baseName, ← List.reverse_append, List.takeWhile_append_dropWhile, List.reverse_reverse]
  refine ⟨_, ?_, hsplit, ?_⟩
  · cases hrest : path.reverse.dropWhile (· != .char '/') with
    | nil => exact .inl rfl
    | cons c r =>
      have hhead := List.head?_dropWhile_not (· != .char '/') path.reverse
      rw [hrest] at hhead
      right
      simpa using hhead
  · generalize (path.reverse.dropWhile (· != .char '/')).reverse = front at hsplit
    have hlength : path.length - (baseName path).length = front.length := by
      have := congrArg List.length hsplit
      rw [List.length_append] at this
      omega
    have htake : path.take front.length = front :=
      (congrArg (List.take front.length) hsplit).trans List.take_left
    rw [pathFor, hlength, htake, List.append_assoc]
    rfl

theorem slash_not_mem_baseName (path : Text) : .char '/' ∉ baseName path := by
  rw [baseName, List.mem_reverse]
  intro h
  have := List.all_eq_true.1 List.all_takeWhile _ h
  simp at this

theorem mem_baseName {path : Text} {c : CodePoint} (h : c ∈ baseName path) : c ∈ path := by
  rw [baseName, List.mem_reverse] at h
  exact List.mem_reverse.1 ((List.takeWhile_prefix _).subset h)

theorem mem_stem {name : Text} {c : CodePoint} (h : c ∈ stem name) : c ∈ name := by
  unfold stem at h
  split at h
  · exact h
  · split at h
    · exact h
    · have hcut := ((List.drop_sublist _ _).trans (List.dropWhile_sublist _)).subset
        (List.mem_reverse.1 h)
      exact List.mem_reverse.1 hcut

/-- The path of a listing has the characters of the path of the source file and of the extension. -/
theorem mem_pathFor {path : Text} {c : CodePoint} (h : c ∈ pathFor path) :
    c ∈ path ∨ c ∈ ".obj".text := by
  rw [pathFor, List.mem_append, List.mem_append] at h
  rcases h with (h | h) | h
  · exact .inl (List.mem_of_mem_take h)
  · exact .inl (mem_baseName (mem_stem h))
  · exact .inr h

/-! ## Stems -/

/-- Only the last extension of a name goes, and only if something but dots stands before it. -/
theorem stem_append {ext : Text} (hext : .char '.' ∉ ext) (front : Text) :
    stem (front ++ .char '.' :: ext) =
      if front.all (· == .char '.') then front ++ .char '.' :: ext else front := by
  have hchars : ∀ c ∈ ext.reverse, (c != '.') = true := fun c hc =>
    bne_iff_ne.2 fun h => hext (h ▸ List.mem_reverse.1 hc)
  have hreverse : (front ++ .char '.' :: ext).reverse.dropWhile (· != .char '.') =
      .char '.' :: front.reverse := by
    rw [List.reverse_append, List.reverse_cons, List.append_assoc,
      List.dropWhile_append_of_pos hchars]
    rfl
  unfold stem
  rw [hreverse, List.drop_one, List.tail_cons]
  cases hfront : front.reverse with
  | nil =>
    obtain rfl := List.reverse_eq_nil_iff.1 hfront
    rfl
  | cons c r =>
    simp only
    rw [← hfront, List.all_reverse, List.reverse_reverse]

theorem stem_append_extension (front : Text) :
    stem (front ++ extension) = if front.all (· == .char '.') then front ++ extension else front :=
  have hext : .char '.' ∉ "obj".text := by decide
  stem_append hext front

/-- A name and what is left of it without its extension. The extension begins at the last dot with
something but dots before it; a name with no such dot has none. -/
inductive IsStem : Text → Text → Prop
  | extension {front ext : Text} (hfront : ∃ c ∈ front, c ≠ '.') (hext : .char '.' ∉ ext) :
      IsStem (front ++ .char '.' :: ext) front
  | whole {name : Text}
      (h : ∀ front ext : Text, name = front ++ .char '.' :: ext → ∀ c ∈ front, c = '.') :
      IsStem name name

theorem not_all_dots_iff {name : Text} :
    name.all (· == .char '.') = false ↔ ∃ c ∈ name, c ≠ '.' := by
  simp

/-- With nothing but dots before the last dot, no dot has anything else before it. -/
theorem isStem_of_dots {front ext : Text} (hfront : ∀ c ∈ front, c = '.') (hext : .char '.' ∉ ext) :
    IsStem (front ++ .char '.' :: ext) (front ++ .char '.' :: ext) := by
  refine .whole fun front' ext' heq c hc => ?_
  rcases List.append_eq_append_iff.1 heq with ⟨between, rfl, hbetween⟩ | ⟨between, rfl, -⟩
  · cases between with
    | nil => exact hfront c (by simpa using hc)
    | cons d between =>
      -- The dot behind `front'` would be one in `ext`.
      obtain ⟨-, rfl⟩ := List.cons.inj hbetween
      exact absurd (by simp) hext
  · exact hfront c (List.mem_append_left _ hc)

theorem isStem_of_not_mem {name : Text} (h : .char '.' ∉ name) : IsStem name name := by
  refine .whole fun front ext heq => ?_
  rw [heq] at h
  exact absurd (by simp) h

theorem stem_of_not_mem {name : Text} (h : .char '.' ∉ name) : stem name = name := by
  have hnil : name.reverse.dropWhile (· != .char '.') = [] :=
    List.dropWhile_eq_nil_iff.2 fun c hc =>
      bne_iff_ne.2 fun heq => h (heq ▸ List.mem_reverse.1 hc)
  unfold stem
  rw [hnil]
  rfl

theorem isStem_stem (name : Text) : IsStem name (stem name) := by
  by_cases hdot : .char '.' ∈ name
  · -- The last dot is the first one from behind.
    obtain ⟨behind, before, hreverse, hext⟩ :=
      List.eq_append_cons_of_mem (List.mem_reverse.2 hdot)
    obtain rfl : before.reverse ++ .char '.' :: behind.reverse = name := by
      rw [← List.reverse_reverse name, hreverse]
      simp
    rw [← List.mem_reverse] at hext
    rw [stem_append hext]
    split
    case isTrue hall =>
      exact isStem_of_dots (fun c hc => beq_iff_eq.1 (List.all_eq_true.1 hall c hc)) hext
    case isFalse hall => exact .extension (not_all_dots_iff.1 (Bool.eq_false_iff.2 hall)) hext
  · rw [stem_of_not_mem hdot]
    exact isStem_of_not_mem hdot

/-- A stem has something but dots in it if the name has. -/
theorem IsStem.exists_ne_dot {name kept : Text} (h : IsStem name kept)
    (hname : ∃ c ∈ name, c ≠ '.') : ∃ c ∈ kept, c ≠ '.' := by
  cases h with
  | extension hfront => exact hfront
  | whole => exact hname

/-! ## Paths that stay what they are -/

/-- The listing of a file has the path of the file exactly if that ends in the extension of
listings, with something but dots before it in the last component. -/
theorem pathFor_eq_self_iff {path : Text} : pathFor path = path ↔
    ∃ front, baseName path = front ++ extension ∧ ∃ c ∈ front, c ≠ '.' := by
  obtain ⟨before, -, hpath, hfor⟩ := exists_front path
  have hname : pathFor path = path ↔ stem (baseName path) ++ extension = baseName path := by
    rw [hfor]
    exact ⟨fun h => List.append_cancel_left (h.trans hpath),
      fun h => (congrArg (before ++ ·) h).trans hpath.symm⟩
  rw [hname]
  constructor
  · intro h
    refine ⟨stem (baseName path), h.symm,
      not_all_dots_iff.1 (Bool.eq_false_iff.2 fun hall => ?_)⟩
    have hstem := stem_append_extension (stem (baseName path))
    rw [h, if_pos hall] at hstem
    -- The name would be longer than itself.
    have hlength := congrArg List.length h
    rw [hstem, List.length_append] at hlength
    have hpos : extension.length = 4 := rfl
    omega
  · rintro ⟨front, hfront, hdot⟩
    rw [hfront, stem_append_extension, not_all_dots_iff.2 hdot]
    rfl

/-! ## Paths in parts -/

/-- A path is cut behind its last slash. -/
structure IsCut (path front name : Text) : Prop where
  eq_append : path = front ++ name
  front : front = [] ∨ front.getLast? = some (.char '/')
  slash_not_mem : .char '/' ∉ name

/-- A path can be cut there in one way. -/
theorem IsCut.baseName_eq {path front name : Text} (h : IsCut path front name) :
    baseName path = name := by
  obtain ⟨rfl, hfront, hslash⟩ := h
  have hname : ∀ c ∈ name.reverse, (c != '/') = true := fun c hc =>
    bne_iff_ne.2 fun heq => hslash (heq ▸ List.mem_reverse.1 hc)
  have hstop : front.reverse.takeWhile (· != .char '/') = [] := by
    rcases hfront with rfl | hlast
    · rfl
    · obtain ⟨dirs, rfl⟩ := List.getLast?_eq_some_iff.1 hlast
      rw [List.reverse_append]
      rfl
  rw [baseName, List.reverse_append, List.takeWhile_append_of_pos hname, hstop, List.append_nil,
    List.reverse_reverse]

theorem slash_not_mem_stem {name : Text} (h : .char '/' ∉ name) :
    .char '/' ∉ stem name ++ extension := by
  intro hc
  rcases List.mem_append.1 hc with hc | hc
  · exact h (mem_stem hc)
  · exact absurd hc (by decide)

/-- The path of a listing is cut where the path of its source is, and the last component is the stem
with another extension. -/
theorem exists_isCut_pathFor (path : Text) : ∃ front name kept, IsCut path front name ∧
    IsStem name kept ∧ IsCut (pathFor path) front (kept ++ extension) := by
  obtain ⟨front, hfront, hpath, hfor⟩ := exists_front path
  have hslash := slash_not_mem_baseName path
  exact ⟨front, baseName path, stem (baseName path), ⟨hpath, hfront, hslash⟩, isStem_stem _,
    ⟨hfor, hfront, slash_not_mem_stem hslash⟩⟩

/-- The path of a listing is that of its own listing, unless the source is named by dots alone. -/
theorem pathFor_pathFor {path front name : Text} (h : IsCut path front name)
    (hname : ∃ c ∈ name, c ≠ '.') : pathFor (pathFor path) = pathFor path := by
  obtain ⟨front', name', kept, hcut, hstem, hcut'⟩ := exists_isCut_pathFor path
  obtain rfl : name' = name := hcut.baseName_eq.symm.trans h.baseName_eq
  exact pathFor_eq_self_iff.2 ⟨kept, hcut'.baseName_eq, hstem.exists_ne_dot hname⟩

end Mips32.Listing
