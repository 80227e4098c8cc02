import SwaggerProvider.Error
import SwaggerProvider.Text.Word

/-!
Paths of a document. An instance path ends in a parameter; the path before that parameter is its
root path. The last literal segment of a path names its resource, together with a version segment
such as `v1` directly above it.
-/

set_option autoImplicit false

namespace SwaggerProvider.Path

/-- The path without its closing brace, backwards; a slash after the brace does not count. -/
def beforeBrace (cs : List Char) : Option (List Char) :=
  match cs.reverse with
  | '/' :: '}' :: front => some front
  | '}' :: front => some front
  | _ => none

/-- An instance path has no line break and ends in braces around at least one character. -/
def isInstance (path : String) : Bool :=
  let cs := path.toList
  !cs.contains '\n' &&
    match beforeBrace cs with
    | some (_ :: front) => front.contains '{'
    | _ => false

def isDelimiter (c : Char) : Bool := c == '/' || c == '{' || c == '}'

def root? (path : String) : Option String :=
  match beforeBrace path.toList with
  | none => none
  | some front =>
    if (front.takeWhile fun c => !isDelimiter c).isEmpty then none
    else match front.dropWhile fun c => !isDelimiter c with
      | '{' :: '/' :: root =>
        if root.contains '\n' then none else some (String.ofList root.reverse)
      | _ => none

/-- The declared root path of an instance path, which may end in a slash. -/
def findRoot (instancePath : String) (known : List String) : Except Error String :=
  match root? instancePath with
  | none => .error (.resourceCompilation instancePath .notInstancePath)
  | some root =>
    if known.contains root then .ok root
    else if known.contains (root ++ "/") then .ok (root ++ "/")
    else .error (.resourceCompilation instancePath (.rootUndefined root))

structure Name where
  base : String
  version : Option String
  deriving DecidableEq

/-- The name under which the resource is known; a preferred name stands in for the base. -/
def Name.render (name : Name) (preferred : Option String) : String :=
  let base := preferred.getD name.base
  match name.version with
  | some version => base ++ "_v" ++ version
  | none => base

def segments (path : String) : List (List Char) :=
  (Text.pieces '/' path.toList).filter fun segment => !segment.isEmpty

def isParameter (segment : List Char) : Bool :=
  segment.head? == some '{' && segment.getLast? == some '}'

def version? : List Char → Option String
  | 'v' :: digits =>
    if !digits.isEmpty && digits.all Text.isDigit then some (String.ofList digits) else none
  | _ => none

def nameFrom : List (List Char) → Option Name
  | [] => none
  | segment :: above =>
    if isParameter segment then nameFrom above
    else some ⟨String.ofList segment, above.head?.bind version?⟩

def name (path : String) : Except Error Name :=
  match nameFrom (segments path).reverse with
  | some name => .ok name
  | none => .error (.resourceCompilation path .noName)

def resourceName (path : String) : Except Error String :=
  (name path).map fun n => n.render none

end SwaggerProvider.Path
