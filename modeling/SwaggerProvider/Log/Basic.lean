import SwaggerProvider.Text.Basic

/-!
Log events and what keeps secrets out of them: header values are shown only as present or empty,
query values are struck out, and bodies are cut at a configured length.
-/

set_option autoImplicit false

namespace SwaggerProvider.Log

inductive Level where
  | trace
  | debug
  | info
  | warn
  deriving DecidableEq

def Level.text : Level → String
  | .trace => "TRACE"
  | .debug => "DEBUG"
  | .info => "INFO"
  | .warn => "WARN"

structure Event where
  level : Level
  text : String
  deriving DecidableEq

def Event.line (e : Event) : String := e.level.text ++ " " ++ e.text

def warnings (events : List Event) : List String :=
  events.filterMap fun e => if e.level = .warn then some e.text else none

def redacted : String := "<redacted>"

def headerMark (value : String) : String := if value.isEmpty then "<empty>" else "<present>"

def redactPair (pair : List Char) : List Char :=
  match Text.cut? '=' pair with
  | some (name, _) => name ++ '=' :: redacted.toList
  | none => pair

def redactQuery (url : String) : String :=
  match Text.cut? '?' url.toList with
  | none => url
  | some (base, query) =>
    String.ofList (base ++ '?' :: Text.join ['&'] ((Text.pieces '&' query).map redactPair))

def defaultBodyLength : Nat := 1000

/-- The number of bytes of a body that the log shows, from the value of its setting. -/
def bodyLength (setting : Option String) : Nat :=
  match setting.bind fun value => Text.unsigned? (Nat.pow 2 64 - 1) value.toList with
  | some n => n
  | none => defaultBodyLength

/-- The longest beginning of a text that takes at most `bytes` bytes. -/
def cutBytes : Nat → List Char → List Char
  | _, [] => []
  | bytes, c :: rest =>
    if c.utf8Size ≤ bytes then c :: cutBytes (bytes - c.utf8Size) rest else []

def bodyLine (label body : String) (limit : Nat) : String :=
  if body.utf8ByteSize > limit then
    s!"{label}: {String.ofList (cutBytes limit body.toList)} (truncated at {limit} chars)"
  else s!"{label}: {body}"

end SwaggerProvider.Log
