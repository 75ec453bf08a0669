import Mips32.Json.Basic

/-!
# Frameworks

The service is written for a framework that receives its requests and sends its responses. What the
service asks of it is a parameter of the service: the value in the body of a request, and whether a
text can be the value of a header. Neither depends on the resource that a request is for.

A resource makes a response or ends by an exception, and an exception that nothing catches is
answered by a page of the framework.
-/

namespace Mips32.Service

/-- What a response carries. -/
inductive Body where
  | json (value : Json)
  | text (text : Text)
  | empty

/-- A response. -/
structure Response where
  status : Nat
  mediaType : Text
  disposition : Option Text
  body : Body

def jsonType : Text := "application/json".text
def htmlType : Text := "text/html".text
def plainType : Text := "text/plain".text

/-- A page without text. -/
def page (status : Nat) : Response :=
  ⟨status, htmlType, none, .empty⟩

/-- An exception out of the reach of a resource. -/
inductive Raised where
  /-- The framework gives a request up with a status. -/
  | abort (status : Nat)
  /-- Anything else that went wrong. -/
  | internal
  deriving DecidableEq, Repr

/-- The page for an exception. -/
def Raised.page : Raised → Response
  | .abort status => Service.page status
  | .internal => Service.page 500

/-- What a framework does for the service, where `Posted` is what a request holds beside its method
and its target. -/
structure Framework (Posted : Type) where
  /-- The value in the body, or nothing if the body does not count as JSON or is none. -/
  json : Posted → Except Raised (Option Json)
  /-- What is said about a text that cannot be the value of a header. -/
  headerFault : Text → Option Text

namespace Framework

variable {Posted : Type}

/-- The response that is sent for what a resource ends with. -/
def send : Except Raised Response → Response
  | .ok response => response
  | .error raised => raised.page

/-- A framework that takes every header in printable ASCII characters. -/
def TakesPrintable (F : Framework Posted) : Prop :=
  ∀ value : Text, (∀ c ∈ value, CodePoint.char ' ' ≤ c ∧ c ≤ CodePoint.char '~') →
    F.headerFault value = none

/-- A request that the framework does not give up for its body. -/
def Receives (F : Framework Posted) (p : Posted) : Prop :=
  ∀ status, F.json p ≠ .error (.abort status)

end Framework

end Mips32.Service
