import SwaggerProvider.Text.Basic

/-!
URLs put together from a scheme, a host, a base path and a path. Exactly one slash stands between
two parts that are there.
-/

set_option autoImplicit false

namespace SwaggerProvider.Url

def isSlash (c : Char) : Bool := c == '/'

def slashed (part : List Char) : List Char := if part.isEmpty then [] else '/' :: part

def join (scheme host base path : String) : String :=
  let host := Text.trimEndBy isSlash host.toList
  let base := Text.trimBy isSlash base.toList
  let path := Text.trimStartBy isSlash path.toList
  String.ofList (scheme.toList ++ "://".toList ++ host ++ slashed base ++ slashed path)

/-- A base path starts with a slash and ends without one; without segments it is empty. -/
def normaliseBase (base : String) : String :=
  let trimmed := Text.trimBy isSlash (Text.trimBy Text.isBlank base.toList)
  if trimmed.isEmpty then "" else String.ofList ('/' :: trimmed)

end SwaggerProvider.Url
