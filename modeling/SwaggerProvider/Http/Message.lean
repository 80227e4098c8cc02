import SwaggerProvider.Error
import SwaggerProvider.Table
import SwaggerProvider.Text.Basic
import SwaggerProvider.Text.Utf8
import SwaggerProvider.Url.Parse

/-!
Requests and what comes of them. The names of header fields count without regard to case; they are
kept in small letters, and a field that is set again keeps its place.
-/

set_option autoImplicit false

namespace SwaggerProvider.Http

inductive Method where
  | get
  | post
  | put
  | delete
  deriving DecidableEq

def Method.text : Method → String
  | .get => "GET"
  | .post => "POST"
  | .put => "PUT"
  | .delete => "DELETE"

abbrev Fields := Table String

namespace Fields

def isNameChar (c : Char) : Bool :=
  Text.isAsciiAlnum c ||
    ['!', '#', '$', '%', '&', '\'', '*', '+', '-', '.', '^', '_', '\x60', '|', '~'].contains c

def isName (name : String) : Bool := !name.isEmpty && name.toList.all isNameChar

/-- Control characters other than the tab have no place in a value. -/
def isValue (value : String) : Bool :=
  value.toList.all fun c => c == '\t' || (0x20 ≤ c.toNat && c.toNat ≠ 0x7F)

def lowerName (name : String) : String := name.map Text.lowerAscii

def set (fields : Fields) (name value : String) : Except Error Fields :=
  if !isName name then .error (.runtimeConfig (.headerName name))
  else if !isValue value then .error (.runtimeConfig (.headerValue name))
  else .ok (fields.insert (lowerName name) value)

def setAll (fields : Fields) : List (String × String) → Except Error Fields
  | [] => .ok fields
  | (name, value) :: rest => do setAll (← fields.set name value) rest

end Fields

structure Request where
  method : Method
  url : Url
  fields : Fields
  body : Option String
  deriving DecidableEq

/-- A body that breaks off is not there. -/
structure Response where
  status : Nat
  fields : Fields
  body : Option (List UInt8)
  deriving DecidableEq

/-- What comes of a request. The host may stop the provider while the response is awaited; it may
still come then, too late for who has given up. -/
inductive Outcome where
  | response (response : Response)
  | noResponse
  | stopped
  | late (response : Response)
  deriving DecidableEq

namespace Outcome

def response? : Outcome → Option Response
  | .response r | .late r => some r
  | .noResponse | .stopped => none

def stops : Outcome → Bool
  | .stopped | .late _ => true
  | .response _ | .noResponse => false

end Outcome

structure Reply where
  outcome : Outcome
  took : Duration
  deriving DecidableEq

def isSuccess (status : Nat) : Bool := 200 ≤ status && status ≤ 299

end SwaggerProvider.Http
