import SwaggerProvider.Error
import SwaggerProvider.Text.Word

/-!
Endpoints that the host may put in the place of an API's host: a host name or IPv4 address, with a
port or without one.
-/

set_option autoImplicit false

namespace SwaggerProvider.Endpoint

/-- From 1 to 63 letters, digits and hyphens, with no hyphen at either end. -/
def isLabel (cs : List Char) : Bool :=
  !cs.isEmpty && cs.length ≤ 63 && cs.all (fun c => Text.isAsciiAlnum c || c == '-') &&
  cs.head? != some '-' && cs.getLast? != some '-'

def isName (cs : List Char) : Bool := (Text.pieces '.' cs).all isLabel

def isPort (cs : List Char) : Bool :=
  !cs.isEmpty && cs.length ≤ 5 && cs.all Text.isDigit

def isValid (cs : List Char) : Bool :=
  match Text.cut? ':' cs with
  | some (name, port) => isName name && isPort port
  | none => isName cs

def check (endpoint : String) : Except Error Unit :=
  let cs := endpoint.toList
  if Text.holds "://".toList cs then .error (.runtimeConfig (.endpointScheme endpoint))
  else if isValid cs then .ok ()
  else .error (.runtimeConfig (.endpointHost endpoint))

end SwaggerProvider.Endpoint
