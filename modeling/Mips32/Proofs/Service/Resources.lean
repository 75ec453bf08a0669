import Mips32.Proofs.Listing
import Mips32.Proofs.Outcome
import Mips32.Service.Respond

/-!
# Two resources for one request

A source text can be sent to the resource that reports on it or to the one that hands out its
listing. `Consistent` compares the two answers to one request: they refuse the same requests in the
same words, the faults in a report are what the listing is refused for, the listing of a report is
the one that is handed out, and both fail together. `consistent_handle` says that the answers
compare like that in every framework, whatever is sent and whatever base address is configured. Of
the framework it takes that printable characters make a header, and that it does not give the
request up. A file name that a request may give the listing is asked to be in printable characters,
as a newline in it would fail on the one side alone.

Each resource reads its request in four steps, any of which can end it. `Reached` names how far a
request gets, and `reached` that there is no other way; for each of the ways the answers of the two
resources are known.
-/

namespace Mips32.Service

section

variable {Posted : Type} (F : Framework Posted) (configured : Json) (p : Posted)

/-! ## How far a request gets -/

/-- Why a request is refused, with the message: no source text is in it, or the base address for it
is none. -/
inductive Refused : Text → Prop
  | assembly (h : readRequest F p = .ok none) : Refused "Missing 'assembly' key in request.".text
  | base {data : Json} {source : Text} {error : Address.Error}
      (h : readRequest F p = .ok (some (data, source)))
      (hbase : baseAddress configured data = .error error) :
      Refused ("Invalid 'base_address': ".text ++ error.message)

/-- The source text of a request, with the object around it and the base address for it. -/
structure Reads (data : Json) (source : Text) (base : Int) : Prop where
  request : readRequest F p = .ok (some (data, source))
  base : baseAddress configured data = .ok base

/-- How far a request gets. -/
inductive Reached : Prop
  | raised (e : Raised) (h : F.json p = .error e)
  | refused (message : Text) (h : Refused F configured p message)
  | overlong {data : Json} {source : Text} {base : Int} {count : Nat}
      (h : Reads F configured p data source base)
      (hcount : Report.ofText base source = .error count)
  | reported {data : Json} {source : Text} {base : Int} {report : Report}
      (h : Reads F configured p data source base) (hreport : Report.ofText base source = .ok report)

theorem readRequest_of_error {e : Raised} (h : F.json p = .error e) :
    readRequest F p = .error e := by
  rw [readRequest, h]
  rfl

theorem reached : Reached F configured p := by
  cases hjson : F.json p with
  | error e => exact .raised e hjson
  | ok sent =>
    have hread : readRequest F p = .ok (sent.bind fun data =>
        ((data.member? "assembly".text).bind Json.str?).map fun source => (data, source)) := by
      rw [readRequest, hjson]
      rfl
    generalize (sent.bind _) = found at hread
    cases found with
    | none => exact .refused _ (.assembly hread)
    | some found =>
      obtain ⟨data, source⟩ := found
      cases hbase : baseAddress configured data with
      | error error => exact .refused _ (.base hread hbase)
      | ok base =>
        cases hreport : Report.ofText base source with
        | error count => exact .overlong ⟨hread, hbase⟩ hreport
        | ok report => exact .reported ⟨hread, hbase⟩ hreport

variable {F configured p}

theorem Reads.json_eq {data : Json} {source : Text} {base : Int}
    (h : Reads F configured p data source base) : F.json p = .ok (some data) := by
  obtain ⟨sent, hjson, hsent⟩ := bind_eq_ok.1 h.request
  obtain ⟨data', rfl, hdata⟩ := Option.bind_eq_some_iff.1 (Except.ok.inj hsent)
  obtain ⟨source', -, hpair⟩ := Option.map_eq_some_iff.1 hdata
  cases hpair
  exact hjson

theorem Reads.not_refused {data : Json} {source : Text} {base : Int}
    (h : Reads F configured p data source base) : ¬∃ message, Refused F configured p message := by
  rintro ⟨message, h' | ⟨h', hbase⟩⟩
  · cases h.request.symm.trans h'
  · cases h.request.symm.trans h'
    cases h.base.symm.trans hbase

/-! ## The answers of the resources -/

theorem handle_of_raised (configured : Json) {e : Raised} (h : F.json p = .error e) :
    handleAssemble F configured p = .error e ∧ handleExportListing F configured p = .error e := by
  constructor
  · rw [handleAssemble, readRequest_of_error F p h]
    rfl
  · rw [handleExportListing, readRequest_of_error F p h]
    rfl

theorem handle_of_refused {message : Text} (h : Refused F configured p message) :
    handleAssemble F configured p = .ok (refuse 400 message) ∧
      handleExportListing F configured p = .ok (refuse 400 message) := by
  unfold handleAssemble handleExportListing
  cases h with
  | assembly h =>
    rw [h]
    exact ⟨rfl, rfl⟩
  | base h hbase =>
    rw [h]
    simp only [bind, Except.bind, hbase]
    exact ⟨rfl, rfl⟩

variable {data : Json} {source : Text} {base : Int} {report : Report}

/-- A numeral that is too long fails both, each in its own words. -/
theorem handle_of_overlong (h : Reads F configured p data source base) {count : Nat}
    (hcount : Report.ofText base source = .error count) :
    handleAssemble F configured p = .ok (refuse 500
        ("Internal server error during assembly: ".text ++ Numeral.tooManyDigitsMessage count)) ∧
      handleExportListing F configured p = .ok (refuse 500
        ("Internal server error during export: ".text ++ Numeral.tooManyDigitsMessage count)) := by
  unfold handleAssemble handleExportListing
  rw [h.request]
  simp only [bind, Except.bind, h.base, hcount]
  exact ⟨rfl, rfl⟩

theorem handleAssemble_of_report (h : Reads F configured p data source base)
    (hreport : Report.ofText base source = .ok report) :
    handleAssemble F configured p = .ok (answer 200 (jsonOfReport report)) := by
  rw [handleAssemble, h.request]
  simp only [bind, Except.bind, h.base, hreport]
  rfl

theorem handleExportListing_of_faulty (h : Reads F configured p data source base)
    (hreport : Report.ofText base source = .ok report) (hfaults : report.faults ≠ []) :
    handleExportListing F configured p =
      .ok (answer 400 (.record [("errors", jsonOfFaults report)])) := by
  rw [handleExportListing, h.request]
  simp only [bind, Except.bind, h.base, hreport, if_pos hfaults]
  rfl

/-- A listing is handed out if its name makes a header. -/
theorem handleExportListing_of_listed (h : Reads F configured p data source base)
    (hreport : Report.ofText base source = .ok report) (hfaults : report.faults = []) :
    handleExportListing F configured p =
      match F.headerFault (disposition (attachmentName data)) with
      | some message => .ok (refuse 500 ("Internal server error during export: ".text ++ message))
      | none =>
        .ok ⟨200, plainType, some (disposition (attachmentName data)), .text report.listing⟩ := by
  rw [handleExportListing, h.request]
  simp only [bind, Except.bind, h.base, hreport, hfaults, ne_eq, not_true_eq_false, if_false]
  cases F.headerFault (disposition (attachmentName data)) <;> rfl

end

/-! ## Answers that go together -/

section

variable {Posted : Type}

/-- A request that gives no file name, or one in printable ASCII characters. -/
def NamesPrintable (F : Framework Posted) (p : Posted) : Prop :=
  ∀ data given, F.json p = .ok (some data) → data.member? "filename".text = some given →
    ∃ name : Text, given = .str name ∧ ∀ c ∈ name, CodePoint.char ' ' ≤ c ∧ c ≤ CodePoint.char '~'

/-- The member of an answer in JSON. -/
def Response.member? (x : Response) (name : Text) : Option Json :=
  match x.body with
  | .json value => value.member? name
  | _ => none

/-- The answer with a report on a request and the answer with the listing. -/
structure Consistent (F : Framework Posted) (configured : Json) (p : Posted)
    (report listing : Response) : Prop where
  refused : report.status = 400 ↔
    listing.status = 400 ∧ ∃ message, Refused F configured p message
  refusal : report.status = 400 → ∃ value, report.body = .json value ∧ listing.body = .json value
  faulty : ∀ errors, errors ≠ [] →
    (report.status = 200 ∧ report.member? "errors".text = some (.arr errors) ↔
      (listing.status = 400 ∧ ¬∃ message, Refused F configured p message) ∧
        listing.body = .json (.record [("errors", .arr errors)]))
  listed : report.status = 200 ∧ report.member? "errors".text = some (.arr []) ↔
    (listing.status = 200 ∧ listing.mediaType = plainType) ∧
      ∃ text, report.member? "listing".text = some (.str text) ∧ listing.body = .text text
  failed : report.status = 500 ↔ listing.status = 500

variable {F : Framework Posted} {configured : Json} {p : Posted} {a e : Response}

theorem consistent_of_refused {message : Text} (h : Refused F configured p message)
    (ha : a = refuse 400 message) (he : e = refuse 400 message) :
    Consistent F configured p a e := by
  subst ha he
  have hrefused : ∃ message, Refused F configured p message := ⟨message, h⟩
  exact {
    refused := iff_of_true rfl ⟨rfl, hrefused⟩
    refusal := fun _ => ⟨_, rfl, rfl⟩
    faulty := fun _ _ => iff_of_false (fun h => by cases h.1) fun h => h.1.2 hrefused
    listed := iff_of_false (fun h => by cases h.1) fun h => by cases h.1.1
    failed := iff_of_false nofun nofun }

theorem consistent_of_failed (ha : a.status = 500) (he : e.status = 500) :
    Consistent F configured p a e where
  refused := by simp [ha, he]
  refusal := by simp [ha]
  faulty := by simp [ha, he]
  listed := by simp [ha, he]
  failed := by simp [ha, he]

theorem member?_errors (status : Nat) (report : Report) :
    (answer status (jsonOfReport report)).member? "errors".text = some (jsonOfFaults report) :=
  rfl

theorem member?_listing (status : Nat) (report : Report) :
    (answer status (jsonOfReport report)).member? "listing".text = some (.str report.listing) :=
  rfl

theorem consistent_of_faulty {report : Report} (h : ¬∃ message, Refused F configured p message)
    (hfaults : report.faults ≠ []) (ha : a = answer 200 (jsonOfReport report))
    (he : e = answer 400 (.record [("errors", jsonOfFaults report)])) :
    Consistent F configured p a e := by
  subst ha he
  refine ⟨iff_of_false nofun fun h' => h h'.2, nofun, fun errors _ => ?faulty,
    iff_of_false ?listed fun h' => (by cases h'.1.1), iff_of_false nofun nofun⟩
  case faulty =>
    rw [member?_errors]
    constructor
    · rintro ⟨-, herrors⟩
      cases herrors
      exact ⟨⟨rfl, h⟩, rfl⟩
    · rintro ⟨-, hbody⟩
      cases hbody
      exact ⟨rfl, rfl⟩
  case listed =>
    rintro ⟨-, herrors⟩
    rw [member?_errors, jsonOfFaults, Option.some.injEq, Json.arr.injEq, List.map_eq_nil_iff]
      at herrors
    exact hfaults herrors

theorem consistent_of_listed {report : Report} (hfaults : report.faults = [])
    (ha : a = answer 200 (jsonOfReport report)) (hstatus : e.status = 200)
    (htype : e.mediaType = plainType) (hbody : e.body = .text report.listing) :
    Consistent F configured p a e := by
  subst ha
  have herrors : (answer 200 (jsonOfReport report)).member? "errors".text = some (.arr []) := by
    rw [member?_errors, jsonOfFaults, hfaults]
    rfl
  refine ⟨iff_of_false nofun ?refused, nofun, fun errors hne => iff_of_false ?faulty ?other,
    iff_of_true ⟨rfl, herrors⟩ ⟨⟨hstatus, htype⟩, _, member?_listing 200 report, hbody⟩,
    iff_of_false nofun ?failed⟩
  case refused =>
    rintro ⟨h, -⟩
    cases hstatus.symm.trans h
  case faulty =>
    rintro ⟨-, h⟩
    cases herrors.symm.trans h
    exact hne rfl
  case other =>
    rintro ⟨⟨h, -⟩, -⟩
    cases hstatus.symm.trans h
  case failed =>
    intro h
    cases hstatus.symm.trans h

/-! ## Names of listings -/

/-- A file name in printable characters gives a listing a name in printable characters. -/
theorem printable_disposition {data : Json}
    (h : ∀ given, data.member? "filename".text = some given →
      ∃ name : Text, given = .str name ∧
        ∀ c ∈ name, CodePoint.char ' ' ≤ c ∧ c ≤ CodePoint.char '~') :
    ∀ c ∈ disposition (attachmentName data), CodePoint.char ' ' ≤ c ∧ c ≤ CodePoint.char '~' := by
  have hgiven : ((data.member? "filename".text).getD .null).isVacuous = true ∨
      ∀ c ∈ ((data.member? "filename".text).getD .null).plain,
        CodePoint.char ' ' ≤ c ∧ c ≤ CodePoint.char '~' := by
    cases hmember : data.member? "filename".text with
    | none => exact .inl rfl
    | some given =>
      obtain ⟨name, rfl, hname⟩ := h given hmember
      exact .inr hname
  refine List.forall_mem_append.2 ⟨by decide, ?_⟩
  unfold attachmentName
  generalize (data.member? "filename".text).getD .null = given at hgiven
  have hbase : ∀ c ∈ if given.isVacuous then [] else Listing.baseName given.plain,
      CodePoint.char ' ' ≤ c ∧ c ≤ CodePoint.char '~' := by
    split
    case isTrue => nofun
    case isFalse hthere =>
      exact fun c hc => hgiven.resolve_left hthere c (Listing.mem_baseName hc)
  intro c hc
  simp only at hc
  rcases Listing.mem_pathFor hc with hc | hc
  · generalize (if given.isVacuous then [] else Listing.baseName given.plain) = name at hbase hc
    split at hc
    case isTrue =>
      exact (by decide : ∀ c ∈ "program.asm".text,
        CodePoint.char ' ' ≤ c ∧ c ≤ CodePoint.char '~') c hc
    case isFalse => exact hbase c hc
  · exact (by decide : ∀ c ∈ ".obj".text,
      CodePoint.char ' ' ≤ c ∧ c ≤ CodePoint.char '~') c hc

/-! ## Whole answers -/

/-- In a framework that takes printable headers the two answers to a request that it does not give
up compare, whatever the request and the configured base address are. -/
theorem consistent_handle (hheaders : F.TakesPrintable) (configured : Json)
    (hreceives : F.Receives p) (hname : NamesPrintable F p) :
    Consistent F configured p (Framework.send (handleAssemble F configured p))
      (Framework.send (handleExportListing F configured p)) := by
  cases reached F configured p with
  | raised raised h =>
    obtain ⟨hassemble, hexport⟩ := handle_of_raised configured h
    rw [hassemble, hexport]
    cases raised with
    | abort status => exact absurd h (hreceives status)
    | internal => exact consistent_of_failed rfl rfl
  | refused message h =>
    obtain ⟨hassemble, hexport⟩ := handle_of_refused h
    rw [hassemble, hexport]
    exact consistent_of_refused h rfl rfl
  | overlong h hcount =>
    obtain ⟨hassemble, hexport⟩ := handle_of_overlong h hcount
    rw [hassemble, hexport]
    exact consistent_of_failed rfl rfl
  | @reported data source base report h hreport =>
    rw [handleAssemble_of_report h hreport]
    by_cases hfaults : report.faults = []
    · have hfits := hheaders _ (printable_disposition (hname data · h.json_eq))
      rw [handleExportListing_of_listed h hreport hfaults, hfits]
      exact consistent_of_listed hfaults rfl rfl rfl rfl
    · rw [handleExportListing_of_faulty h hreport hfaults]
      exact consistent_of_faulty h.not_refused hfaults rfl rfl

end

/-! ## Calls in a framework -/

variable {depth : Nat} {configured : Json} {r : Request}

theorem json_http (depth : Nat) (p : Payload) : (http depth).json p = p.json depth :=
  rfl

theorem takesPrintable_http (depth : Nat) : (http depth).TakesPrintable := by
  intro value hvalue
  have hfits : fitsHeader value = true := by
    have hreturn : CodePoint.char '\r' ∉ value := fun hc => absurd (hvalue _ hc).1 (by decide)
    have hfeed : CodePoint.char '\n' ∉ value := fun hc => absurd (hvalue _ hc).1 (by decide)
    simp [fitsHeader, hreturn, hfeed]
  exact if_pos hfits

/-- A request with the body that it names is not given up. -/
theorem receives_http {p : Payload} (h : p.isCutShort = false) : (http depth).Receives p := by
  intro status hjson
  rw [json_http, Payload.json, h] at hjson
  split at hjson
  · cases hjson
  · split at hjson
    · cases ‹false = true›
    · split at hjson
      · cases hjson
      · split at hjson <;> cases hjson

/-- A request as a call of the resource at a path. -/
def Request.post (r : Request) (path : Text) : Request :=
  { r with method := "POST".text, target := { r.target with path := path } }

/-- A request for a host that can be named, which opens no two-way connection. -/
structure Request.Arrives (r : Request) : Prop where
  host : r.hasHostName = true
  plain : r.opensSocket = false

/-- A call of a resource that takes it is answered by the resource. -/
theorem toResponse_respond_post {path : Text} (resource : Resource) (hr : r.Arrives)
    (hpath : Destination.of (r.post path) "POST".text = .resource resource)
    (haccepts : resource.accepts "POST".text = true) :
    (respond depth configured (r.post path)).toResponse =
      resource.respond depth configured (r.post path) := by
  have hmethod : Text.capitalised (r.post path).method = "POST".text := rfl
  have hhost : (r.post path).hasHostName = true := hr.host
  have hplain : (r.post path).opensSocket = false := hr.plain
  show route depth configured (r.post path) = _
  rw [route, hhost]
  simp only [hmethod, hpath, haccepts, hplain]
  rfl

theorem toResponse_respond_assemble (hr : r.Arrives) :
    (respond depth configured (r.post "/api/assemble".text)).toResponse =
      Framework.send (handleAssemble (http depth) configured r.toPayload) :=
  toResponse_respond_post .assemble hr rfl rfl

theorem toResponse_respond_exportListing (hr : r.Arrives) :
    (respond depth configured (r.post "/api/export/listing".text)).toResponse =
      Framework.send (handleExportListing (http depth) configured r.toPayload) :=
  toResponse_respond_post .exportListing hr rfl rfl

/-- An object with a file name, and with labels that only their surrogates tell apart. -/
def pairBody : Text :=
  "\x7b\"assembly\": \"\\ud800:\\n\\ud801:\", \"filename\": \"a.s\"\x7d".text

/-- A request with the object. -/
def pairRequest : Request where
  contentType := some "application/json; charset=utf-8".text
  headers := []
  body := Text.Utf8.encode pairBody
  method := "GET".text
  target := ⟨"http".text, "localhost".text, []⟩

/-- The source text in the request. -/
def pairSource : Text :=
  [.ofNat 0xD800, .char ':', .char '\n', .ofNat 0xD801, .char ':']

theorem json_pairRequest :
    ∃ data, (http 2).json pairRequest.toPayload = .ok (some data) ∧
      data.member? "assembly".text = some (.str pairSource) ∧
      data.member? "filename".text = some (.str "a.s".text) := by
  have hassembly : (((http 2).json pairRequest.toPayload).toOption.join.bind
      (·.member? "assembly".text)).bind Json.str? = some pairSource := by decide +kernel
  have hfile : (((http 2).json pairRequest.toPayload).toOption.join.bind
      (·.member? "filename".text)).bind Json.str? = some "a.s".text := by decide +kernel
  cases hjson : (http 2).json pairRequest.toPayload with
  | error raised =>
    rw [hjson] at hassembly
    cases hassembly
  | ok found =>
    rw [hjson] at hassembly hfile
    cases found with
    | none => cases hassembly
    | some data =>
      obtain ⟨value, hvalue, hsource⟩ := Option.bind_eq_some_iff.1 hassembly
      obtain ⟨given, hgiven, hname⟩ := Option.bind_eq_some_iff.1 hfile
      rw [Json.str?_eq_some_iff] at hsource hname
      exact ⟨data, rfl, hsource ▸ hvalue, hname ▸ hgiven⟩

/-- The two labels are no fault, and the answers to the two calls compare. -/
theorem consistent_pair :
    (http 2).TakesPrintable ∧ (http 2).Receives pairRequest.toPayload ∧
      NamesPrintable (http 2) pairRequest.toPayload ∧ pairRequest.Arrives ∧
      (∃ data, (http 2).json pairRequest.toPayload = .ok (some data) ∧
        data.member? "assembly".text = some (.str pairSource)) ∧
      (∃ report, Report.ofText 0 pairSource = .ok report ∧ report.faults = []) ∧
      Consistent (http 2) (.int 0) pairRequest.toPayload
        (respond 2 (.int 0) (pairRequest.post "/api/assemble".text)).toResponse
        (respond 2 (.int 0) (pairRequest.post "/api/export/listing".text)).toResponse := by
  obtain ⟨data, hjson, hsource, hfile⟩ := json_pairRequest
  have hheaders := takesPrintable_http 2
  have hreceives : (http 2).Receives pairRequest.toPayload := receives_http (by decide +kernel)
  have hname : NamesPrintable (http 2) pairRequest.toPayload := by
    intro data' given hdata hgiven
    obtain rfl := Option.some.inj (Except.ok.inj (hjson.symm.trans hdata))
    rw [hfile, Option.some.injEq] at hgiven
    exact ⟨"a.s".text, hgiven.symm, by decide⟩
  have harrives : pairRequest.Arrives := ⟨by decide +kernel, by decide +kernel⟩
  refine ⟨hheaders, hreceives, hname, harrives, ⟨data, hjson, hsource⟩, ⟨_, rfl, rfl⟩, ?_⟩
  rw [toResponse_respond_assemble harrives, toResponse_respond_exportListing harrives]
  exact consistent_handle hheaders (.int 0) hreceives hname

end Mips32.Service
