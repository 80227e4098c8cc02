import SwaggerProvider.Yaml.ScalarText

/-!
The tokens of a YAML text. Indentation becomes tokens that open and close block collections. A key
need not be marked: when a colon shows that what came before it on the line was a key, the marking
token is put in at the place that was remembered for it.
-/

set_option autoImplicit false

namespace SwaggerProvider.Yaml

inductive Style where
  | plain
  | quoted
  | literal
  | folded
  deriving DecidableEq

inductive Token where
  | version (major minor : Nat)
  | handle (name start : String)
  | documentStart
  | documentEnd
  | blockSequenceStart
  | blockMappingStart
  | blockEnd
  | flowSequenceStart
  | flowSequenceEnd
  | flowMappingStart
  | flowMappingEnd
  | blockEntry
  | flowEntry
  | key
  | value
  | alias (name : String)
  | anchor (name : String)
  | tag (handle suffix : String)
  | scalar (style : Style) (text : String)
  deriving DecidableEq

/-- A place where an unmarked key may have begun: after how many tokens and where in the text. A
required one has to be a key, because it opens a line of a block mapping. -/
structure KeyPlace where
  tokens : Nat
  required : Bool
  place : Cursor

/-- The tokens so far, the last one first, and what decides about the next one. The indentation is
-1 outside all block collections. `outer` has one entry for each open flow collection. -/
structure Lexer where
  here : Cursor
  tokens : List Token
  count : Nat
  indent : Int
  indents : List Int
  keyAllowed : Bool
  keyPlace : Option KeyPlace
  outer : List (Option KeyPlace)

namespace Lexer

def start (cs : List Char) : Lexer := ⟨.start cs, [], 0, -1, [], true, none, []⟩

def inFlow (lx : Lexer) : Bool := !lx.outer.isEmpty

def push (lx : Lexer) (token : Token) : Lexer :=
  { lx with tokens := token :: lx.tokens, count := lx.count + 1 }

def put (lx : Lexer) (position : Nat) (token : Token) : Lexer :=
  let later := lx.count - position
  { lx with
    tokens := lx.tokens.take later ++ token :: lx.tokens.drop later
    count := lx.count + 1 }

def openBlock (lx : Lexer) (column position : Nat) (token : Token) : Lexer :=
  if !lx.inFlow && lx.indent < column then
    { lx.put position token with indent := column, indents := lx.indent :: lx.indents }
  else lx

def closeBlocks (column : Int) : List Int → Lexer → Lexer
  | [], lx => lx
  | indent :: rest, lx =>
    if column < lx.indent then
      closeBlocks column rest { lx.push .blockEnd with indent := indent, indents := rest }
    else lx

def unindent (lx : Lexer) (column : Int) : Lexer :=
  if lx.inFlow then lx else closeBlocks column lx.indents lx

/-- Gives up the remembered place of the present level, unless it is required. -/
def dropKey (lx : Lexer) : Option Lexer :=
  if lx.keyPlace.any KeyPlace.required then none else some { lx with keyPlace := none }

def saveKey (lx : Lexer) : Option Lexer :=
  if lx.keyAllowed then
    let required := !lx.inFlow && lx.indent == lx.here.column
    (dropKey lx).map fun lx => { lx with keyPlace := some ⟨lx.count, required, lx.here⟩ }
  else some lx

def isStale (here : Cursor) (key : KeyPlace) : Bool :=
  key.place.line < here.line || key.place.index + 1024 < here.index

def freshKey (here : Cursor) : Option KeyPlace → Option (Option KeyPlace)
  | none => some none
  | some key =>
    if isStale here key then if key.required then none else some none else some (some key)

def dropStale (lx : Lexer) : Option Lexer := do
  let keyPlace ← freshKey lx.here lx.keyPlace
  let outer ← lx.outer.mapM (freshKey lx.here)
  some { lx with keyPlace, outer }

/-- Past blanks, comments and breaks to the next token. Tabs count as blanks where no key may
begin. After a break a key may begin, except inside flow collections. -/
def skipGap : Nat → Lexer → Lexer
  | 0, lx => lx
  | fuel + 1, lx =>
    let tabs := lx.inFlow || !lx.keyAllowed
    let here := (lx.here.skipWhile fun c => c == ' ' || (tabs && c == '\t')).skipComment
    if here.atBreak then
      skipGap fuel { lx with here := here.nextLine, keyAllowed := lx.keyAllowed || !lx.inFlow }
    else { lx with here }

def take (lx : Lexer) (n : Nat) (token : Token) : Lexer :=
  { lx.push token with here := lx.here.advance n }

def isNameChar (c : Char) : Bool :=
  ('0' ≤ c && c ≤ '9') || ('a' ≤ c && c ≤ 'z') || ('A' ≤ c && c ≤ 'Z') || c == '_' || c == '-'

def readName (here : Cursor) : Option (String × Cursor) :=
  let (name, after) := here.readWhile isNameChar
  if name.isEmpty then none else some (String.ofList name, after)

/-- The name of an anchor or alias; only some signs may follow it directly. -/
def readAnchor (here : Cursor) : Option (String × Cursor) := do
  let (name, after) ← readName here
  let closed := after.rest.head?.any fun c =>
    ['?', ':', ',', ']', '}', '%', '@', '\x60'].contains c
  if after.atWordEnd || closed then some (name, after) else none

/-- A handle begins with an exclamation mark and may end in a second one. -/
def readHandle (here : Cursor) : Option (List Char × Cursor) :=
  if here.sees '!' then
    let (name, after) := here.next.readWhile isNameChar
    if after.sees '!' then some ('!' :: name ++ ['!'], after.next) else some ('!' :: name, after)
  else none

def isUriChar (c : Char) : Bool :=
  isNameChar c || [';', '/', '?', ':', '@', '&', '=', '+', '$', '.', '!', '~', '*', '\'', '(',
    ')'].contains c

def readByte (here : Cursor) : Option (Nat × Cursor) :=
  match here.rest with
  | '%' :: a :: b :: _ => do
    let high ← Text.hexValue? a
    let low ← Text.hexValue? b
    some (16 * high + low, here.advance 3)
  | _ => none

def readContinuations : Nat → Nat → Cursor → Option (Nat × Cursor)
  | 0, code, here => some (code, here)
  | n + 1, code, here => do
    let (byte, after) ← readByte here
    if byte / 64 = 2 then readContinuations n (64 * code + byte % 64) after else none

def readEscaped (here : Cursor) : Option (Char × Cursor) := do
  let (byte, after) ← readByte here
  let (more, code) ←
    if byte < 0x80 then some (0, byte)
    else if byte / 32 = 6 then some (1, byte % 32)
    else if byte / 16 = 14 then some (2, byte % 16)
    else if byte / 8 = 30 then some (3, byte % 8)
    else none
  let (code, after) ← readContinuations more code after
  some (Char.ofNat code, after)

def readUri (flowChars : Bool) : Nat → List Char → Cursor → Option (List Char × Cursor)
  | 0, _, _ => none
  | fuel + 1, text, here =>
    match here.rest with
    | c :: _ =>
      if c == '%' then do
        let (e, after) ← readEscaped here
        readUri flowChars fuel (text ++ [e]) after
      else if isUriChar c || (flowChars && [',', '[', ']'].contains c) then
        readUri flowChars fuel (text ++ [c]) here.next
      else some (text, here)
    | [] => some (text, here)

def uri (flowChars : Bool) (head : List Char) (here : Cursor) : Option (List Char × Cursor) :=
  readUri flowChars (here.rest.length + 1) head here

/-- A tag as its handle and the rest. The tag `!` has no handle. -/
def readTag (here : Cursor) : Option (Token × Cursor) := do
  if here.next.sees '<' then
    let (suffix, after) ← uri true [] (here.advance 2)
    if suffix.isEmpty || !after.sees '>' then none
    else some (.tag "" (String.ofList suffix), after.next)
  else
    let (handle, after) ← readHandle here
    if 2 ≤ handle.length ∧ handle.getLast? = some '!' then
      let (suffix, after) ← uri false [] after
      if suffix.isEmpty then none
      else some (.tag (String.ofList handle) (String.ofList suffix), after)
    else
      let (suffix, after) ← uri false (handle.drop 1) after
      some (if suffix.isEmpty then .tag "" "!" else .tag "!" (String.ofList suffix), after)

def readNumber (here : Cursor) : Option (Nat × Cursor) := do
  let (digits, after) := here.readWhile fun c => '0' ≤ c && c ≤ '9'
  if digits.length ≤ 9 then (Text.natural? digits).map fun n => (n, after) else none

def readVersion (here : Cursor) : Option (Token × Cursor) := do
  let (major, after) ← readNumber here.skipSpaces
  if after.sees '.' then
    let (minor, after) ← readNumber after.next
    some (.version major minor, after)
  else none

def readHandleDirective (here : Cursor) : Option (Token × Cursor) := do
  let (handle, after) ← readHandle here.skipSpaces
  if handle ≠ ['!'] ∧ handle.getLast? ≠ some '!' then none
  else if after.rest.head?.any isSpace then
    let (start, after) ← uri true [] after.skipSpaces
    if start.isEmpty || !after.atWordEnd then none
    else some (.handle (String.ofList handle) (String.ofList start), after)
  else none

def readDirective (here : Cursor) : Option (Token × Cursor) := do
  let (name, after) ← readName here
  if !after.atWordEnd then none
  else
    let (token, after) ←
      match name with
      | "YAML" => readVersion after
      | "TAG" => readHandleDirective after
      | _ => none
    let after ← after.finishLine
    some (token, after)

def outermost (lx : Lexer) : Option Lexer :=
  (lx.unindent (-1)).dropKey.map fun lx => { lx with keyAllowed := false }

def openFlow (lx : Lexer) (token : Token) : Option Lexer := do
  let lx ← lx.saveKey
  some { lx.take 1 token with
    outer := lx.keyPlace :: lx.outer, keyPlace := none, keyAllowed := true }

def closeFlow (lx : Lexer) (token : Token) : Option Lexer := do
  let lx ← lx.dropKey
  let lx := match lx.outer with
    | keyPlace :: outer => { lx with keyPlace, outer }
    | [] => lx
  some { lx.take 1 token with keyAllowed := false }

def enterBlock (lx : Lexer) (token : Token) : Option Lexer :=
  if lx.inFlow then some lx
  else if lx.keyAllowed then some (lx.openBlock lx.here.column lx.count token)
  else none

def blockEntry (lx : Lexer) : Option Lexer := do
  let lx ← (← lx.enterBlock .blockSequenceStart).dropKey
  some { lx.take 1 .blockEntry with keyAllowed := true }

def markedKey (lx : Lexer) : Option Lexer := do
  let lx ← (← lx.enterBlock .blockMappingStart).dropKey
  some { lx.take 1 .key with keyAllowed := !lx.inFlow }

def value (lx : Lexer) : Option Lexer :=
  match lx.keyPlace with
  | some key =>
    let lx := (lx.put key.tokens .key).openBlock key.place.column key.tokens .blockMappingStart
    some { lx.take 1 .value with keyPlace := none, keyAllowed := false }
  | none => do
    let lx ← lx.enterBlock .blockMappingStart
    some { lx.take 1 .value with keyAllowed := !lx.inFlow }

def content (lx : Lexer) (read : Cursor → Option (Token × Cursor)) : Option Lexer := do
  let lx ← lx.saveKey
  let (token, here) ← read lx.here
  some { lx.push token with here, keyAllowed := false }

def blockScalar (lx : Lexer) (literal : Bool) : Option Lexer := do
  let lx ← lx.dropKey
  let (text, here) ← readBlock literal lx.indent lx.here.next
  some { lx.push (.scalar (if literal then .literal else .folded) (String.ofList text)) with
    here, keyAllowed := true }

def quotedScalar (double : Bool) (here : Cursor) : Option (Token × Cursor) :=
  (readQuoted double (here.rest.length + 1) [] here.next).map fun (text, after) =>
    (.scalar .quoted (String.ofList text), after)

def plainScalar (lx : Lexer) : Option Lexer := do
  let lx ← lx.saveKey
  let (text, broken, here) ←
    readPlain lx.inFlow (lx.indent + 1) (lx.here.rest.length + 1) [] .none lx.here
  some { lx.push (.scalar .plain (String.ofList text)) with here, keyAllowed := broken }

def isIndicator (c : Char) : Bool :=
  ['-', '?', ':', ',', '[', ']', '{', '}', '#', '&', '*', '!', '|', '>', '\'', '"', '%', '@',
    '\x60'].contains c

def startsPlain (lx : Lexer) (c : Char) (rest : List Char) : Bool :=
  (!isGap c && !isIndicator c) || (c == '-' && !rest.head?.any isSpace) ||
  (!lx.inFlow && (c == '?' || c == ':') && !endsWord rest)

def directive (lx : Lexer) : Option Lexer := do
  let lx ← lx.outermost
  let (token, here) ← readDirective lx.here.next
  some { lx.push token with here }

def readToken (lx : Lexer) (c : Char) (rest : List Char) : Option Lexer :=
  let word := lx.inFlow || endsWord rest
  if lx.here.column == 0 && c == '%' then lx.directive
  else if lx.here.atDocumentStart then lx.outermost.map fun lx => lx.take 3 .documentStart
  else if lx.here.atDocumentEnd then lx.outermost.map fun lx => lx.take 3 .documentEnd
  else if c == '[' then lx.openFlow .flowSequenceStart
  else if c == '{' then lx.openFlow .flowMappingStart
  else if c == ']' then lx.closeFlow .flowSequenceEnd
  else if c == '}' then lx.closeFlow .flowMappingEnd
  else if c == ',' then
    lx.dropKey.map fun lx => { lx.take 1 .flowEntry with keyAllowed := true }
  else if c == '-' && endsWord rest then lx.blockEntry
  else if c == '?' && word then lx.markedKey
  else if c == ':' && word then lx.value
  else if c == '*' then
    lx.content fun here => (readAnchor here.next).map fun (name, after) => (.alias name, after)
  else if c == '&' then
    lx.content fun here => (readAnchor here.next).map fun (name, after) => (.anchor name, after)
  else if c == '!' then
    lx.content fun here => (readTag here).bind fun (token, after) =>
      if after.atWordEnd || (lx.inFlow && after.sees ',') then some (token, after) else none
  else if c == '|' && !lx.inFlow then lx.blockScalar true
  else if c == '>' && !lx.inFlow then lx.blockScalar false
  else if c == '\'' then lx.content (quotedScalar false)
  else if c == '"' then lx.content (quotedScalar true)
  else if lx.startsPlain c rest then lx.plainScalar
  else none

def run : Nat → Lexer → Option Lexer
  | 0, _ => none
  | fuel + 1, lx => do
    let lx ← (skipGap (lx.here.rest.length + 1) lx).dropStale
    let lx := lx.unindent lx.here.column
    match lx.here.rest with
    | [] => (lx.unindent (-1)).dropKey
    | c :: rest => run fuel (← lx.readToken c rest)

end Lexer

def tokens? (text : String) : Option (List Token) :=
  let cs := match text.toList with
    | c :: rest => if c.toNat = 0xFEFF then rest else c :: rest
    | [] => []
  if cs.all isAllowed then
    (Lexer.run (cs.length + 1) (.start cs)).map fun lx => lx.tokens.reverse
  else none

end SwaggerProvider.Yaml
