import SwaggerProvider.Json.Reader
import SwaggerProvider.Json.Printer
import SwaggerProvider.Swagger.Decode
import SwaggerProvider.Swagger.Reference
import SwaggerProvider.Url.Parse
import SwaggerProvider.Yaml.Printer

/-!
From a location to a document: reading the file or the URL, telling JSON from YAML, checking the
version, expanding references and decoding.
-/

set_option autoImplicit false

namespace SwaggerProvider.Swagger

/-- The value of a text; one that begins with a brace is JSON and any other YAML. -/
def readValue (content : String) : Option Json :=
  if (Text.trimStartBy Text.isBlank content.toList).head? == some '{' then Json.read content
  else (Yaml.read content).map Yaml.Value.toJson

namespace Version3

def text? (value : Json) (name : String) : Bool := ((value.member? name).bind Json.string?).isSome

def isOptional (p : Json → Bool) (value : Json) (name : String) : Bool :=
  (value.member? name).all fun member => member.isNull || p member

def isInfo (value : Json) : Bool :=
  text? value "title" && text? value "version" &&
  isOptional (fun v => v.string?.isSome) value "description" &&
  isOptional (fun v => v.string?.isSome) value "termsOfService" &&
  isOptional Json.isObject value "contact" &&
  isOptional (fun v => text? v "name") value "license"

/-- Entries of a list are objects with one text that may not be left out. -/
def isListOf (name : String) (value : Json) : Bool :=
  (value.items?).any fun items => items.all fun item => text? item name

def arePaths (value : Json) : Bool :=
  value.members?.any fun members =>
    members.all fun e => !Text.startsWith ['/'] e.1.toList || e.2.isObject

def fits (value : Json) : Bool :=
  text? value "openapi" && (value.member? "info").any isInfo &&
  (value.member? "paths").any arePaths &&
  isOptional (isListOf "url") value "servers" && isOptional (isListOf "name") value "tags" &&
  isOptional Json.isObject value "components" &&
  isOptional (fun v => v.items?.isSome) value "security"

def refusal (location : String) (value version : Json) : Error :=
  match fits value, version.string? with
  | true, some text => .documentValidation (.version3 text)
  | _, _ => .documentLoad location (.malformedVersion3 version.text)

end Version3

def supportedVersion : String := "2.0"

/-- The version of a document; written without quotes it is a number. -/
def version? (value : Json) : Option String :=
  match value.member? "swagger" with
  | some (.string s) => some s
  | some (.number n) => some n.text
  | _ => none

def checkVersion (value : Json) : Except Error Unit :=
  match version? value with
  | none => .error (.documentValidation .missingVersion)
  | some version =>
    if version = supportedVersion then .ok ()
    else .error (.documentValidation (.unsupportedVersion version))

def normaliseVersion : Json → Json
  | .object members => .object (Table.insert members "swagger" (.string supportedVersion))
  | other => other

def parse (content location : String) : Except Error Document :=
  match readValue content with
  | none => .error (.documentLoad location .malformed)
  | some value =>
    match value.member? "openapi" with
    | some version => .error (Version3.refusal location value version)
    | none => do
      checkVersion value
      match Reference.expand (normaliseVersion value) with
      | .error fault => .error (.documentLoad location fault)
      | .ok expanded =>
        match Document.decode expanded with
        | some document => .ok document
        | none => .error (.documentLoad location .unfit)

def isUrl (location : String) : Bool :=
  Text.startsWith "http://".toList location.toList ||
  Text.startsWith "https://".toList location.toList

/-- A tilde that stands alone as the first segment is the home directory. -/
def expandHome (home : Option String) (path : String) : String :=
  match path.toList, home with
  | ['~'], some home => home
  | '~' :: '/' :: rest, some home => home ++ String.ofList ('/' :: rest)
  | _, _ => path

/-- What is found at the place of a file. Nothing is there, or it cannot be read, for a reason. -/
inductive FileText where
  | absent (detail : String)
  | unreadable (detail : String)
  | content (text : String)

def FileText.read : FileText → Except String String
  | .absent detail | .unreadable detail => .error detail
  | .content text => .ok text

inductive Fetched where
  | timedOut (seconds : Nat)
  | unreachable
  | answered (status : Nat) (statusLine : String) (length : Option Nat) (body : Option String)

def Fetched.content (url : Url) : Fetched → Except LoadFault String
  | .timedOut seconds => .error (.timedOut seconds)
  | .unreachable => .error (.network (.noResponse url.anonymous.text))
  | .answered status line length body =>
    if status < 200 ∨ 299 < status then .error (.httpStatus line)
    else match length.filter (maxDocumentSize < ·), body with
      | some bytes, _ => .error (.tooLarge bytes)
      | none, some text => .ok text
      | none, none => .error (.bodyUnread (.brokenBody url.anonymous.text))

structure Access (m : Type → Type) where
  home : Option String
  fileText : String → m FileText
  fetch : Url → Bool → m Fetched

def contentAt {m : Type → Type} [Monad m] (access : Access m) (location : String)
    (insecure : Bool) : m (Except LoadFault String) := do
  if (Text.trim location).isEmpty then return .error .emptyLocation
  else if isUrl location then
    match Url.parse location with
    | .error _ => return .error (.network .unsendable)
    | .ok url => return (← access.fetch url insecure).content url
  else return (← access.fileText (expandHome access.home location)).read.mapError .unreadable

def load {m : Type → Type} [Monad m] (access : Access m) (location : String) (insecure : Bool) :
    m (Except Error Document) := do
  match ← contentAt access location insecure with
  | .ok content => return parse content location
  | .error fault => return .error (.documentLoad location fault)

end SwaggerProvider.Swagger
