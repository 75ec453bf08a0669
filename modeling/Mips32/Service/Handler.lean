import Mips32.Report
import Mips32.Service.Framework

/-!
# The resources of the service

Two resources assemble a source text: one answers with the report as JSON, the other with the
listing as a file to be saved. They differ in a faulty program, which the report shows and for which
there is no listing. Two more say that the service is there. No state is kept between requests.
-/

namespace Mips32.Service

/-! ## Answers -/

/-- An answer in JSON. -/
def answer (status : Nat) (value : Json) : Response :=
  ⟨status, jsonType, none, .json value⟩

/-- An answer that names one error by its message alone. -/
def refuse (status : Nat) (message : Text) : Response :=
  answer status (.record [("errors", .arr [.record [("message", .str message)]])])

/-! ## Reports as JSON -/

/-- A diagnostic with its members. -/
def jsonOfDiagnostic (d : Diagnostic) : Json :=
  .record [("line", .int d.line), ("message", .str d.fault.message), ("text", .str d.text),
    ("type", .str d.fault.kind.name)]

/-- A word in a report with its members. -/
def jsonOfEntry (e : Report.Entry) : Json :=
  .record [("address", .str e.address), ("hex", .str e.hex), ("bin", .str e.bin),
    ("dec", .str e.dec)]

/-- The faults of a report. -/
def jsonOfFaults (r : Report) : Json :=
  .arr (r.faults.map jsonOfDiagnostic)

/-- A report with its members. Symbols are an object. -/
def jsonOfReport (r : Report) : Json :=
  .record [("machine_code", .arr (r.entries.map jsonOfEntry)),
    ("symbols", .obj (r.symbols.map fun (name, address) => (name, .str address))),
    ("listing", .str r.listing), ("errors", jsonOfFaults r)]

/-! ## Reading requests -/

section

variable {Posted : Type} (F : Framework Posted) (configured : Json)

/-- The object that a request sends and the source text in it, if there is one. -/
def readRequest (p : Posted) : Except Raised (Option (Json × Text)) := do
  let sent ← F.json p
  return sent.bind fun data =>
    ((data.member? "assembly".text).bind Json.str?).map fun source => (data, source)

/-- The base address of a request, or else the configured one. -/
def baseAddress (data : Json) : Except Address.Error Int :=
  Address.ofJson ((data.member? "base_address".text).getD configured)

/-- The answer to a request without a source text. -/
def refuseMissing : Response :=
  refuse 400 "Missing 'assembly' key in request.".text

/-- The answer to a request with a base address that is none. -/
def refuseBase (e : Address.Error) : Response :=
  refuse 400 ("Invalid 'base_address': ".text ++ e.message)

/-! ## Assembling -/

/-- Answers with the report. -/
def handleAssemble (p : Posted) : Except Raised Response := do
  match ← readRequest F p with
  | none => return refuseMissing
  | some (data, source) =>
    match baseAddress configured data with
    | .error e => return refuseBase e
    | .ok base =>
      match Report.ofText base source with
      | .error count =>
        return refuse 500 ("Internal server error during assembly: ".text ++
          Numeral.tooManyDigitsMessage count)
      | .ok report => return answer 200 (jsonOfReport report)

/-- The name of the listing for a file name in a request. -/
def attachmentName (data : Json) : Text :=
  let given := (data.member? "filename".text).getD .null
  let name := if given.isVacuous then [] else Listing.baseName given.plain
  Listing.pathFor (if name = [] then "program.asm".text else name)

/-- The header that names a file to be saved. -/
def disposition (name : Text) : Text :=
  "attachment; filename=".text ++ name

/-- Answers with the listing. A faulty program has none, and its faults are the answer. -/
def handleExportListing (p : Posted) : Except Raised Response := do
  match ← readRequest F p with
  | none => return refuseMissing
  | some (data, source) =>
    match baseAddress configured data with
    | .error e => return refuseBase e
    | .ok base =>
      match Report.ofText base source with
      | .error count =>
        return refuse 500 ("Internal server error during export: ".text ++
          Numeral.tooManyDigitsMessage count)
      | .ok report =>
        if report.faults ≠ [] then
          return answer 400 (.record [("errors", jsonOfFaults report)])
        else
          let header := disposition (attachmentName data)
          match F.headerFault header with
          | some message =>
            return refuse 500 ("Internal server error during export: ".text ++ message)
          | none => return ⟨200, plainType, some header, .text report.listing⟩

end

/-! ## Calls -/

/-- Says in HTML that the service is there. -/
def handleIndex : Response :=
  ⟨200, htmlType, none, .text "MIPS Assembler Backend is running!".text⟩

/-- Answers a call. -/
def handlePing : Response :=
  answer 200 (.record [("message", .str "pong".text)])

end Mips32.Service
