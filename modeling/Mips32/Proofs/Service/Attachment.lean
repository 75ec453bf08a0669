import Mips32.Proofs.Service.Resources

/-!
# Names of listings that are handed out

A listing is handed out under the name that it would have beside its source, the source being the
file that the request names, without its directory. `namesListing_pathFor` says what becomes of a
path, and so what name a listing is saved under: it has the extension of listings and leads to no
other directory, whatever a request has for a file name and whichever framework hands it out.
-/

namespace Mips32

/-- A path and that of its listing: the directory is kept, what is left of the last component
without its extension gets that of listings, and the listing is its own listing unless the last
component consists of dots. -/
structure Listing.NamesListing (path target : Text) : Prop where
  parts : ∃ front name kept, IsCut path front name ∧ IsStem name kept ∧
    IsCut target front (kept ++ ".obj".text)
  stable : ∀ front name, IsCut path front name → (∃ c ∈ name, c ≠ '.') → pathFor target = target

namespace Service

/-! ## Names -/

/-- A name for a file in the directory where it is saved, with the extension of listings. -/
structure IsListingName (name : Text) : Prop where
  slash_not_mem : .char '/' ∉ name
  ne_nil : name ≠ []
  ne_dot : name ≠ [.char '.']
  ne_dots : name ≠ [.char '.', .char '.']
  extension : ".obj".text <:+ name

/-- The listing of a file without a directory has none either. -/
theorem isListingName_pathFor {name : Text} (h : .char '/' ∉ name) :
    IsListingName (Listing.pathFor name) := by
  obtain ⟨front, _, kept, ⟨rfl, hfront, -⟩, -, hcut⟩ := Listing.exists_isCut_pathFor name
  obtain rfl : front = [] := hfront.resolve_right fun hlast =>
    h (List.mem_append_left _ (List.mem_of_getLast? hlast))
  have hlength : 4 ≤ (kept ++ Listing.extension).length := by
    rw [List.length_append]
    exact Nat.le_add_left _ _
  rw [hcut.eq_append, List.nil_append]
  refine ⟨hcut.slash_not_mem, ?_, ?_, ?_, List.suffix_append _ _⟩ <;>
  · intro heq
    rw [heq] at hlength
    exact absurd hlength (by decide)

theorem isListingName_attachmentName (data : Json) : IsListingName (attachmentName data) := by
  unfold attachmentName
  generalize (data.member? "filename".text).getD .null = given
  refine isListingName_pathFor ?_
  have hname : .char '/' ∉ if given.isVacuous then [] else Listing.baseName given.plain := by
    split
    case isTrue => nofun
    case isFalse => exact Listing.slash_not_mem_baseName _
  generalize (if given.isVacuous then [] else Listing.baseName given.plain) = name at hname
  split
  case isTrue => decide
  case isFalse => exact hname

/-! ## Requests that succeed -/

section

variable {Posted : Type} {F : Framework Posted} {configured : Json} {p : Posted}

/-- A listing that is handed out has its name in the answer. -/
theorem disposition_of_handleExportListing {response : Response}
    (h : handleExportListing F configured p = .ok response) (hstatus : response.status = 200) :
    ∃ data, F.json p = .ok (some data) ∧
      response.disposition = some (disposition (attachmentName data)) := by
  cases reached F configured p with
  | raised raised hraised => cases h.symm.trans (handle_of_raised configured hraised).2
  | refused message hrefused =>
    obtain rfl := Except.ok.inj (h.symm.trans (handle_of_refused hrefused).2)
    cases hstatus
  | overlong hreads hcount =>
    obtain rfl := Except.ok.inj (h.symm.trans (handle_of_overlong hreads hcount).2)
    cases hstatus
  | @reported data source base report hreads hreport =>
    refine ⟨data, hreads.json_eq, ?_⟩
    by_cases hfaults : report.faults = []
    · rw [handleExportListing_of_listed hreads hreport hfaults] at h
      split at h
      case h_1 =>
        obtain rfl := Except.ok.inj h
        cases hstatus
      case h_2 =>
        obtain rfl := Except.ok.inj h
        rfl
    · rw [handleExportListing_of_faulty hreads hreport hfaults] at h
      obtain rfl := Except.ok.inj h
      cases hstatus

end

/-- The path of a listing is that of its source but for the extension. Whatever a request has for a
file name, the name of its listing is one of its own kind, and it is the name under which a request
that succeeds has the listing handed out. -/
theorem namesListing_pathFor (path : Text) : Listing.NamesListing path (Listing.pathFor path) ∧
    (∀ data, IsListingName (attachmentName data)) ∧
      ∀ (Posted : Type) (F : Framework Posted) (configured : Json) (p : Posted)
        (response : Response),
        handleExportListing F configured p = .ok response → response.status = 200 →
          ∃ data, F.json p = .ok (some data) ∧
            response.disposition = some ("attachment; filename=".text ++ attachmentName data) := by
  refine ⟨⟨Listing.exists_isCut_pathFor path, fun _ _ => Listing.pathFor_pathFor⟩,
    isListingName_attachmentName, ?_⟩
  intro Posted F configured p response h hstatus
  exact disposition_of_handleExportListing h hstatus

/-- An object with a source text and the name of a hidden file, in a directory whose name has an
extension. A surrogate is part of the name. -/
def hiddenData : Json :=
  .record [("assembly", .str "L: j L".text),
    ("filename", .str ("../x.tar/..".text ++ .ofNat 0xD800 :: ".s".text))]

/-- A framework that receives nothing but the object. -/
def hiddenFramework : Framework Unit where
  json _ := .ok (some hiddenData)
  headerFault _ := none

/-- Neither the directory nor the dots in front count for the extension. -/
theorem namesListing_hidden :
    Listing.NamesListing "../x.tar/..n.s".text "../x.tar/..n.obj".text ∧
      ∃ response, handleExportListing hiddenFramework (.int 0) () = .ok response ∧
        response.status = 200 ∧ IsListingName ("..".text ++ .ofNat 0xD800 :: ".obj".text) ∧
        response.disposition =
          some ("attachment; filename=..".text ++ .ofNat 0xD800 :: ".obj".text) := by
  have hpath : Listing.pathFor "../x.tar/..n.s".text = "../x.tar/..n.obj".text := by rfl
  have hname : attachmentName hiddenData = "..".text ++ .ofNat 0xD800 :: ".obj".text := by rfl
  obtain ⟨hlisting, hsafe, hattachment⟩ := namesListing_pathFor "../x.tar/..n.s".text
  have hreads : Reads hiddenFramework (.int 0) () hiddenData "L: j L".text 0 := ⟨rfl, rfl⟩
  have hreport : Report.ofText 0 "L: j L".text =
      .ok (.ofImage 0 ⟨[("L".text, 0)], [0x08000000]⟩) := by rfl
  have hresponse := handleExportListing_of_listed hreads hreport rfl
  obtain ⟨data, hdata, hdisposition⟩ :=
    hattachment Unit hiddenFramework (.int 0) () _ hresponse rfl
  obtain rfl : hiddenData = data := Option.some.inj (Except.ok.inj hdata)
  refine ⟨hpath ▸ hlisting, _, hresponse, rfl, hname ▸ hsafe hiddenData, ?_⟩
  rw [hdisposition, hname]
  rfl

end Service

end Mips32
