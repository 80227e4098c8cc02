import SwaggerProvider.Text.Basic
import SwaggerProvider.Text.Word

/-!
Hosts with a region in them, such as `api.${region}.example.com`. The word in braces is the
keyword of the template; a dot or a hyphen stands on either side of it.
-/

set_option autoImplicit false

namespace SwaggerProvider.RegionHost

def isSeparator (c : Char) : Bool := c == '.' || c == '-'

def placeholder? : List Char → Option (List Char)
  | '$' :: '{' :: rest =>
    let word := rest.takeWhile Text.isWord
    match word, rest.drop word.length with
    | _ :: _, '}' :: after :: _ => if isSeparator after then some word else none
    | _, _ => none
  | _ => none

def lastKeyword : List Char → Option (List Char)
  | [] => none
  | c :: rest =>
    match lastKeyword rest with
    | some word => some word
    | none => if isSeparator c then placeholder? rest else none

def keyword? (host : String) : Option String :=
  let cs := host.toList
  if cs.contains '\n' then none else (lastKeyword cs).map String.ofList

/-- Writes a region in the place of every placeholder of the keyword. -/
def resolve (template keyword region : String) : String :=
  String.ofList
    (Text.replaceAll (['$', '{'] ++ keyword.toList ++ ['}']) region.toList template.toList)

end SwaggerProvider.RegionHost
