import SwaggerProvider.Yaml.Cursor

/-!
The texts of scalars: plain, quoted and block scalars. Inside plain and quoted scalars a single
break becomes a blank and each further break a line feed.
-/

set_option autoImplicit false

namespace SwaggerProvider.Yaml

/-- What stands between two words: blanks, or breaks with the blanks around them. -/
structure Gap where
  broken : Bool
  blanks : List Char
  first : List Char
  more : List Char

namespace Gap

def none : Gap := ⟨false, [], [], []⟩

def joined : Gap := ⟨true, [], [], []⟩

def text (gap : Gap) : List Char :=
  if !gap.broken then gap.blanks
  else if gap.first.head? == some '\n' then if gap.more.isEmpty then [' '] else gap.more
  else gap.first ++ gap.more

def read (margin : Int) : Nat → Gap → Cursor → Option (Gap × Cursor)
  | 0, _, _ => Option.none
  | fuel + 1, gap, here =>
    match here.rest with
    | [] => some (gap, here)
    | c :: _ =>
      if isSpace c then
        if !gap.broken then read margin fuel { gap with blanks := gap.blanks ++ [c] } here.next
        else if c == '\t' && (here.column : Int) < margin then Option.none
        else read margin fuel gap here.next
      else if isBreak c then
        if gap.broken then
          read margin fuel { gap with more := gap.more ++ here.breakText } here.nextLine
        else read margin fuel ⟨true, [], here.breakText, []⟩ here.nextLine
      else some (gap, here)

end Gap

def isFlowIndicator (c : Char) : Bool := [',', '[', ']', '{', '}'].contains c

/-- The characters up to the end of a word of a plain scalar. Inside flow collections indicators
end it too, and a colon directly before one is refused. -/
def plainRun (flow : Bool) : List Char → Option (List Char)
  | [] => some []
  | c :: rest =>
    if isGap c then some []
    else if flow && c == ':' && rest.head?.any (fun d => d == '?' || isFlowIndicator d) then none
    else if (c == ':' && endsWord rest) || (flow && isFlowIndicator c) then some []
    else (plainRun flow rest).map (c :: ·)

def readPlain (flow : Bool) (margin : Int) : Nat → List Char → Gap → Cursor →
    Option (List Char × Bool × Cursor)
  | 0, _, _, _ => none
  | fuel + 1, text, gap, here =>
    if here.atDocumentMark || here.sees '#' then some (text, gap.broken, here)
    else do
      let run ← plainRun flow here.rest
      if run.isEmpty then some (text, gap.broken, here)
      else
        let text := text ++ gap.text ++ run
        let after := here.advance run.length
        if after.atEnd || !after.atWordEnd then some (text, false, after)
        else
          let (gap, after) ← Gap.read margin (after.rest.length + 1) .none after
          if !flow && (after.column : Int) < margin then some (text, gap.broken, after)
          else readPlain flow margin fuel text gap after

def readCode (digits : Nat) (here : Cursor) : Option (Char × Cursor) := do
  let code ← (here.rest.take digits).mapM Text.hexValue?
  let value := code.foldl (fun n d => 16 * n + d) 0
  if code.length = digits ∧ value ≤ 0x10FFFF ∧ !(0xD800 ≤ value ∧ value ≤ 0xDFFF) then
    some (Char.ofNat value, here.advance digits)
  else none

def simpleEscape? : Char → Option Nat
  | '0' => some 0
  | 'a' => some 7
  | 'b' => some 8
  | 't' | '\t' => some 9
  | 'n' => some 10
  | 'v' => some 11
  | 'f' => some 12
  | 'r' => some 13
  | 'e' => some 0x1B
  | ' ' => some 0x20
  | '"' => some 0x22
  | '/' => some 0x2F
  | '\\' => some 0x5C
  | 'N' => some 0x85
  | '_' => some 0xA0
  | 'L' => some 0x2028
  | 'P' => some 0x2029
  | _ => none

def readEscape (here : Cursor) : Option (Char × Cursor) :=
  match here.rest with
  | 'x' :: _ => readCode 2 here.next
  | 'u' :: _ => readCode 4 here.next
  | 'U' :: _ => readCode 8 here.next
  | c :: _ => (simpleEscape? c).map fun code => (Char.ofNat code, here.next)
  | [] => none

def quotedRun (double : Bool) : Nat → List Char → Cursor → Option (List Char × Bool × Cursor)
  | 0, _, _ => none
  | fuel + 1, text, here =>
    match here.rest with
    | [] => some (text, false, here)
    | c :: rest =>
      if isGap c then some (text, false, here)
      else if double then
        if c == '"' then some (text, false, here)
        else if c == '\\' then
          if here.next.atBreak then some (text, true, here.next.nextLine)
          else do
            let (e, after) ← readEscape here.next
            quotedRun double fuel (text ++ [e]) after
        else quotedRun double fuel (text ++ [c]) here.next
      else if c == '\'' then
        if rest.head? == some '\'' then quotedRun double fuel (text ++ [c]) (here.advance 2)
        else some (text, false, here)
      else quotedRun double fuel (text ++ [c]) here.next

def readQuoted (double : Bool) : Nat → List Char → Cursor → Option (List Char × Cursor)
  | 0, _, _ => none
  | fuel + 1, text, here =>
    if here.atDocumentMark || here.atEnd then none
    else do
      let (run, joined, after) ← quotedRun double (here.rest.length + 1) [] here
      if after.sees (if double then '"' else '\'') then some (text ++ run, after.next)
      else
        let (gap, after) ←
          Gap.read 0 (after.rest.length + 1) (if joined then .joined else .none) after
        readQuoted double fuel (text ++ run ++ gap.text) after

inductive Chomping where
  | strip
  | clip
  | keep
  deriving DecidableEq

structure BlockHeader where
  chomping : Chomping
  indent : Option Nat

def chomping? : Char → Option Chomping
  | '+' => some .keep
  | '-' => some .strip
  | _ => none

/-- An indentation indicator is one digit from 1 to 9; zero is refused. -/
def readIndicator (here : Cursor) : Option (Option Nat × Cursor) :=
  match here.rest with
  | c :: _ =>
    if c == '0' then none
    else if '1' ≤ c && c ≤ '9' then some (some (c.toNat - 48), here.next)
    else some (none, here)
  | [] => some (none, here)

def readHeader (here : Cursor) : Option (BlockHeader × Cursor) := do
  let (header, after) ← (match here.rest.head?.bind chomping? with
    | some chomping => do
      let (indent, after) ← readIndicator here.next
      some (⟨chomping, indent⟩, after)
    | none => do
      let (indent, after) ← readIndicator here
      match indent.isSome, after.rest.head?.bind chomping? with
      | true, some chomping => some (⟨chomping, indent⟩, after.next)
      | _, _ => some (⟨.clip, indent⟩, after) : Option (BlockHeader × Cursor))
  let after ← after.finishLine
  some (header, after)

/-- Reads empty lines and the indentation of the line behind them; without a known indentation it
finds the largest one on the way. -/
def readIndentation (indent : Option Nat) : Nat → Nat → List Char → Cursor →
    Option (Nat × List Char × Cursor)
  | 0, _, _, _ => none
  | fuel + 1, largest, breaks, here =>
    let blanks := (here.rest.takeWhile (· == ' ')).length
    let wanted := match indent with
      | some n => min blanks (n - here.column)
      | none => blanks
    let here := here.advance wanted
    let largest := max largest here.column
    let inside := match indent with
      | some n => here.column < n
      | none => true
    if inside && here.sees '\t' then none
    else if here.atBreak then
      readIndentation indent fuel largest (breaks ++ here.breakText) here.nextLine
    else some (largest, breaks, here)

/-- Reads the lines of a block scalar. Of a folded one, a break between two lines that both start
with a word becomes a blank. -/
def readLines (literal : Bool) (indent : Nat) (chomping : Chomping) :
    Nat → List Char → List Char → List Char → Bool → Cursor → Option (List Char × Cursor)
  | 0, _, _, _, _, _ => none
  | fuel + 1, text, lineBreak, emptyLines, blankBefore, here =>
    if here.column == indent && !here.atEnd then do
      let blank := here.rest.head?.any isSpace
      let folds := !literal && lineBreak.head? == some '\n' && !blankBefore && !blank
      let between := if folds then if emptyLines.isEmpty then [' '] else [] else lineBreak
      let (line, after) := here.readWhile fun c => !isBreak c
      let (_, breaks, next) ←
        readIndentation (some indent) (after.rest.length + 1) 0 [] after.nextLine
      readLines literal indent chomping fuel (text ++ between ++ emptyLines ++ line)
        after.breakText breaks blank next
    else
      some (text ++ (if chomping == .strip then [] else lineBreak) ++
        (if chomping == .keep then emptyLines else []), here)

def readBlock (literal : Bool) (margin : Int) (here : Cursor) : Option (List Char × Cursor) := do
  let (header, first) ← readHeader here
  let given := header.indent.map fun n => (max margin 0).toNat + n
  let (largest, breaks, start) ←
    readIndentation given (first.rest.length + 1) 0 [] first
  let indent := given.getD (max (max largest (margin + 1).toNat) 1)
  readLines literal indent header.chomping (start.rest.length + 1) [] [] breaks false start

end SwaggerProvider.Yaml
