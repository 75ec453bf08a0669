import Mips32.FileSystem
import Mips32.Proofs.Outcome

/-!
# What is read of a file that was written

Reading walks a path to its end, while writing takes the last name by itself, since nothing needs to
be there yet. `walk_names_of_target` says that both come to the same place. Writing leaves every
directory a directory, so every path leads where it led before: at the place of the file what is
read is what was written (`read_write`), unless a device is there, which keeps nothing of it, and at
any other place it is what was there before (`read_write_of_ne`).

Paths that differ in their last names alone share the directory that the names in front lead to
(`names_append`, `step_cases`).
-/

namespace Mips32.FileSystem

variable {fs fs' : FileSystem}

/-! ## Walking -/

theorem walk_append (fs : FileSystem) (place : Place) (ns ms : List Name) :
    fs.walk place (ns ++ ms) = fs.walk place ns >>= fun q => fs.walk q ms := by
  induction ns generalizing place with
  | nil => rfl
  | cons n ns ih =>
    rw [List.cons_append, walk, walk]
    cases fs.step place n with
    | error e => rfl
    | ok q => exact ih q

theorem requireDirectory_eq_ok_iff {place : Place} {u : Unit} :
    fs.requireDirectory place = .ok u ↔ fs.node? place = some .directory := by
  unfold requireDirectory
  split <;> simp_all

/-- A step looks at the directory that it starts from, and at nothing else. -/
theorem step_mono (hdir : ∀ p, fs.node? p = some .directory → fs'.node? p = some .directory)
    {p q : Place} {name : Name} (h : fs.step p name = .ok q) : fs'.step p name = .ok q := by
  obtain ⟨u, hu, hq⟩ := bind_eq_ok.1 h
  have hdirectory := hdir p (requireDirectory_eq_ok_iff.1 hu)
  exact bind_eq_ok.2 ⟨u, requireDirectory_eq_ok_iff.2 hdirectory, hq⟩

/-- Where all directories stay, a path leads where it led before. -/
theorem walk_mono (hdir : ∀ p, fs.node? p = some .directory → fs'.node? p = some .directory)
    {p q : Place} {ns : List Name} (h : fs.walk p ns = .ok q) : fs'.walk p ns = .ok q := by
  induction ns generalizing p with
  | nil => exact h
  | cons n ns ih =>
    obtain ⟨p', hstep, hrest⟩ := bind_eq_ok.1 h
    exact bind_eq_ok.2 ⟨p', step_mono hdir hstep, ih hrest⟩

/-- Where one name leads: nowhere else, up, or into the directory. -/
theorem step_cases {p q : Place} {name : Name} (h : fs.step p name = .ok q) :
    fs.node? p = some .directory ∧ ((name = [] ∨ name = [dot]) ∧ q = p ∨
      name = [dot, dot] ∧ q = p.dropLast ∨ q = p ++ [name]) := by
  obtain ⟨u, hdirectory, h⟩ := bind_eq_ok.1 h
  refine ⟨requireDirectory_eq_ok_iff.1 hdirectory, ?_⟩
  split at h
  case isTrue hstay => exact .inl ⟨hstay, (Except.ok.inj h).symm⟩
  case isFalse =>
    split at h
    case isTrue hup => exact .inr (.inl ⟨hup, (Except.ok.inj h).symm⟩)
    case isFalse =>
      split at h
      case isTrue => cases h
      case isFalse => exact .inr (.inr (Except.ok.inj h).symm)

/-! ## Names -/

/-- A text without slashes is one name. -/
theorem names_of_not_mem {n : Name} (h : slash ∉ n) : names n = [n] := by
  induction n with
  | nil => rfl
  | cons c r ih =>
    obtain ⟨hc, hr⟩ := not_or.1 (fun hmem => h (List.mem_cons.2 hmem))
    rw [names, if_neg (Ne.symm hc), ih hr]

theorem names_ne_nil (s : Path) : names s ≠ [] := by
  cases s with
  | nil => nofun
  | cons c r =>
    rw [names]
    split
    · nofun
    · split <;> nofun

/-- A slash separates the names in front of it from those behind it. -/
theorem names_append (s t : Path) : names (s ++ slash :: t) = names s ++ names t := by
  induction s with
  | nil => rfl
  | cons c r ih =>
    rw [List.cons_append, names, names, ih]
    by_cases hc : c = slash
    · rw [if_pos hc, if_pos hc, List.cons_append]
    · rw [if_neg hc, if_neg hc]
      cases hr : names r with
      | nil => exact absurd hr (names_ne_nil r)
      | cons n ns => rfl

/-- Only the last name of a path is one without slashes behind a slash or at the front. -/
theorem names_concat {front : Path} (hfront : front = [] ∨ front.getLast? = some slash) :
    ∃ dirs, ∀ n : Name, slash ∉ n → names (front ++ n) = dirs ++ [n] := by
  rcases hfront with rfl | hlast
  · exact ⟨[], fun n hn => names_of_not_mem hn⟩
  · obtain ⟨s, rfl⟩ := List.getLast?_eq_some_iff.1 hlast
    refine ⟨names s, fun n hn => ?_⟩
    rw [List.append_assoc, List.singleton_append, names_append, names_of_not_mem hn]

/-- Paths that differ in their last names alone start at one place. -/
theorem origin_concat (fs : FileSystem) (front : Path) {n m : Name} (hn : slash ∉ n)
    (hm : slash ∉ m) :
    fs.origin (front ++ n) = fs.origin (front ++ m) := by
  cases front with
  | cons c r => rfl
  | nil =>
    have hhead : ∀ {t : Path}, slash ∉ t → t.head? ≠ some slash := fun ht h =>
      ht (List.mem_of_head? h)
    rw [origin, origin, List.nil_append, List.nil_append, if_neg (hhead hn), if_neg (hhead hm)]

/-- In one directory a name leads to the place of a proper name only if it is that name. -/
theorem eq_of_walk_concat {p place : Place} {dirs : List Name} {n m : Name}
    (hn : fs.walk p (dirs ++ [n]) = .ok place) (hm : fs.walk p (dirs ++ [m]) = .ok place)
    (hproper : 2 < m.length) : n = m := by
  rw [walk_append] at hn hm
  obtain ⟨d, hd, hn⟩ := bind_eq_ok.1 hn
  obtain ⟨d', hd', hm⟩ := bind_eq_ok.1 hm
  obtain rfl := Except.ok.inj (hd.symm.trans hd')
  obtain ⟨q, hstepn, hq⟩ := bind_eq_ok.1 hn
  obtain ⟨q', hstepm, hq'⟩ := bind_eq_ok.1 hm
  obtain rfl : q = place := Except.ok.inj hq
  obtain rfl : q' = q := Except.ok.inj hq'
  have hplace : q' = d ++ [m] := by
    obtain ⟨-, ⟨rfl | rfl, -⟩ | ⟨rfl, -⟩ | h⟩ := step_cases hstepm
    · simp at hproper
    · simp at hproper
    · simp at hproper
    · exact h
  subst hplace
  obtain ⟨-, ⟨-, h⟩ | ⟨-, h⟩ | h⟩ := step_cases hstepn
  · -- The directory itself is not below itself.
    simp at h
  · have hlength := congrArg List.length h
    simp at hlength
    omega
  · simpa using h.symm

/-! ## The place of a file -/

/-- A path that names a file for writing leads to the place of the file. -/
theorem walk_names_of_target {path : Path} {place : Place} (h : fs.target path = .ok place) :
    checkPath path = .ok () ∧ fs.walk (fs.origin path) (names path) = .ok place := by
  obtain ⟨⟨⟩, hcheck, h⟩ := bind_eq_ok.1 h
  obtain ⟨directory, hwalk, h⟩ := bind_eq_ok.1 h
  obtain ⟨⟨⟩, -, h⟩ := bind_eq_ok.1 h
  generalize hkept : ((names path).reverse.dropWhile (·.isEmpty)).reverse = kept at hwalk h
  split at h
  case h_1 => cases h
  case h_2 name hlast =>
    split at h
    case isTrue => cases h
    case isFalse hname =>
      -- No empty name was dropped at the end, so the names are those in front and the last.
      have hprefix : kept <+: names path := by
        rw [← hkept, ← List.reverse_suffix, List.reverse_reverse]
        exact List.dropWhile_suffix _
      have hall : kept = names path :=
        hprefix.eq_of_length_le (Nat.le_of_not_lt fun hlt => hname (.inl hlt))
      obtain ⟨front, rfl⟩ := List.getLast?_eq_some_iff.1 hlast
      rw [List.dropLast_concat] at hwalk
      refine ⟨hcheck, ?_⟩
      rw [← hall, walk_append, hwalk]
      show (fs.step directory name >>= fun q => .ok q) = .ok place
      rw [h]
      rfl

/-! ## Files that can be read and written -/

/-- The path leads to a device, which keeps nothing of what is written. -/
def LeadsToDevice (fs : FileSystem) (path : Path) : Prop :=
  ∃ place hasRoom, fs.target path = .ok place ∧ fs.node? place = some (.device hasRoom)

/-- What writing comes to: a device keeps nothing, and at any other place that holds no directory
there is a file with the octets then. -/
theorem write_cases {path : Path} {octets : List UInt8} (h : fs.write path octets = .ok fs') :
    ∃ place, fs.target path = .ok place ∧ fs.node? place ≠ some .directory ∧
      ((∃ hasRoom, fs.node? place = some (.device hasRoom)) ∧ fs' = fs ∨
        (¬∃ hasRoom, fs.node? place = some (.device hasRoom)) ∧
          fs' = { fs with nodes := put place (.file octets) fs.nodes }) := by
  obtain ⟨place, htarget, h⟩ := bind_eq_ok.1 h
  refine ⟨place, htarget, ?_⟩
  split at h
  case h_1 => cases h
  case h_2 hasRoom hnode =>
    split at h
    case isTrue => exact ⟨by simp [hnode], .inl ⟨⟨hasRoom, hnode⟩, (Except.ok.inj h).symm⟩⟩
    case isFalse => cases h
  case h_3 hdirectory hdevice =>
    refine ⟨hdirectory, .inr ⟨?_, (Except.ok.inj h).symm⟩⟩
    rintro ⟨hasRoom, hnode⟩
    exact hdevice hasRoom hnode

/-- A device keeps nothing. -/
theorem write_of_device {path : Path} {octets : List UInt8} (h : fs.write path octets = .ok fs')
    (hdevice : fs.LeadsToDevice path) : fs' = fs := by
  obtain ⟨place, hasRoom, htarget, hnode⟩ := hdevice
  obtain ⟨place', htarget', -, ⟨-, heq⟩ | ⟨hno, -⟩⟩ := write_cases h
  · exact heq
  · obtain rfl := Except.ok.inj (htarget.symm.trans htarget')
    exact absurd ⟨hasRoom, hnode⟩ hno

/-- Where no device is, what was written is in the file. -/
theorem node?_write {path : Path} {octets : List UInt8} (h : fs.write path octets = .ok fs')
    (hdevice : ¬fs.LeadsToDevice path) :
    ∃ place, fs.target path = .ok place ∧ fs'.node? place = some (.file octets) := by
  obtain ⟨place, htarget, hdirectory, ⟨⟨hasRoom, hnode⟩, -⟩ | ⟨-, rfl⟩⟩ := write_cases h
  · exact absurd ⟨place, hasRoom, htarget, hnode⟩ hdevice
  · have hplace : place ≠ [] := by
      rintro rfl
      exact hdirectory (if_pos rfl)
    exact ⟨place, htarget, by rw [node?, if_neg hplace, lookup_put_self]⟩

theorem working_write {path : Path} {octets : List UInt8} (h : fs.write path octets = .ok fs') :
    fs'.working = fs.working := by
  obtain ⟨place, -, -, ⟨-, rfl⟩ | ⟨-, rfl⟩⟩ := write_cases h
  · rfl
  · rfl

/-- After writing, every path leads where it led before. -/
theorem walk_write {path : Path} {octets : List UInt8} (h : fs.write path octets = .ok fs')
    {other : Path} {place : Place} (hwalk : fs.walk (fs.origin other) (names other) = .ok place) :
    fs'.walk (fs'.origin other) (names other) = .ok place := by
  have horigin : fs'.origin other = fs.origin other := by rw [origin, origin, working_write h]
  rw [horigin]
  refine walk_mono (fun p hp => ?_) hwalk
  obtain ⟨written, htarget, hdirectory, -⟩ := write_cases h
  have hne : p ≠ written := by
    rintro rfl
    exact hdirectory hp
  rw [node?_write_of_ne h htarget hne, hp]

/-- What was written to a path that leads to no device is read back. -/
theorem read_write {path : Path} {octets : List UInt8} (h : fs.write path octets = .ok fs')
    (hdevice : ¬fs.LeadsToDevice path) : fs'.read path = .ok octets := by
  obtain ⟨place, htarget, hfile⟩ := node?_write h hdevice
  obtain ⟨hcheck, hwalk⟩ := walk_names_of_target htarget
  refine bind_eq_ok.2 ⟨(), hcheck, bind_eq_ok.2 ⟨place, walk_write h hwalk, ?_⟩⟩
  rw [hfile]

/-- What is read at another place than the one that was written is what was read before. -/
theorem read_write_of_ne {path other : Path} {octets bytes : List UInt8} {place : Place}
    (h : fs.write path octets = .ok fs') (htarget : fs.target path = .ok place)
    (hread : fs.read other = .ok bytes)
    (hne : fs.walk (fs.origin other) (names other) ≠ .ok place) : fs'.read other = .ok bytes := by
  obtain ⟨u, hcheck, hread⟩ := bind_eq_ok.1 hread
  obtain ⟨there, hwalk, hread⟩ := bind_eq_ok.1 hread
  have hthere : there ≠ place := by
    rintro rfl
    exact hne hwalk
  refine bind_eq_ok.2 ⟨u, hcheck, bind_eq_ok.2 ⟨there, walk_write h hwalk, ?_⟩⟩
  rw [node?_write_of_ne h htarget hthere]
  exact hread

end Mips32.FileSystem
