import SwaggerProvider.Text.Basic

/-!
Places in a YAML text. A place knows what follows it, how many characters precede it, and its line
and column.
-/

set_option autoImplicit false

namespace SwaggerProvider.Yaml

/-- Line feed, carriage return, next line, line separator and paragraph separator. -/
def isBreak (c : Char) : Bool :=
  c == '\n' || c == '\r' || c.toNat == 0x85 || c.toNat == 0x2028 || c.toNat == 0x2029

def isSpace (c : Char) : Bool := c == ' ' || c == '\t'

def isGap (c : Char) : Bool := isSpace c || isBreak c

/-- Whether a word ends here: at a blank, at a break or at the end of the text. -/
def endsWord (cs : List Char) : Bool :=
  match cs with
  | [] => true
  | c :: _ => isGap c

def isAllowed (c : Char) : Bool :=
  let n := c.toNat
  n == 9 || n == 10 || n == 13 || (0x20 ≤ n && n ≤ 0x7E) || n == 0x85 ||
  (0xA0 ≤ n && n ≤ 0xD7FF) || (0xE000 ≤ n && n ≤ 0xFFFD && n != 0xFEFF) || 0x10000 ≤ n

structure Cursor where
  rest : List Char
  index : Nat
  line : Nat
  column : Nat

namespace Cursor

def start (cs : List Char) : Cursor := ⟨cs, 0, 0, 0⟩

def advance (here : Cursor) (n : Nat) : Cursor :=
  ⟨here.rest.drop n, here.index + n, here.line, here.column + n⟩

def next (here : Cursor) : Cursor := here.advance 1

def nextLine (here : Cursor) : Cursor :=
  match here.rest with
  | '\r' :: '\n' :: rest => ⟨rest, here.index + 2, here.line + 1, 0⟩
  | _ :: rest => ⟨rest, here.index + 1, here.line + 1, 0⟩
  | [] => here

def skipWhile (p : Char → Bool) (here : Cursor) : Cursor :=
  here.advance (here.rest.takeWhile p).length

def readWhile (p : Char → Bool) (here : Cursor) : List Char × Cursor :=
  (here.rest.takeWhile p, here.skipWhile p)

def skipSpaces (here : Cursor) : Cursor := here.skipWhile isSpace

def atEnd (here : Cursor) : Bool := here.rest.isEmpty

def atWordEnd (here : Cursor) : Bool := endsWord here.rest

def atBreak (here : Cursor) : Bool := here.rest.head?.any isBreak

def sees (here : Cursor) (c : Char) : Bool := here.rest.head? == some c

/-- What the break at this place adds to the text of a scalar: most breaks count as a line feed. -/
def breakText (here : Cursor) : List Char :=
  match here.rest with
  | c :: _ =>
    if c.toNat == 0x2028 || c.toNat == 0x2029 then [c] else if isBreak c then ['\n'] else []
  | [] => []

/-- A line that begins with a mark of three characters which stands as a word. -/
def atMark (here : Cursor) (mark : List Char) : Bool :=
  here.column == 0 && match Text.after? mark here.rest with
    | some rest => endsWord rest
    | none => false

def atDocumentStart (here : Cursor) : Bool := here.atMark ['-', '-', '-']

def atDocumentEnd (here : Cursor) : Bool := here.atMark ['.', '.', '.']

def atDocumentMark (here : Cursor) : Bool := here.atDocumentStart || here.atDocumentEnd

def skipComment (here : Cursor) : Cursor :=
  if here.sees '#' then here.skipWhile fun c => !isBreak c else here

/-- Past the blanks and the comment at the end of a line; none when anything else is there. -/
def finishLine (here : Cursor) : Option Cursor :=
  let here := here.skipSpaces.skipComment
  if here.atEnd then some here else if here.atBreak then some here.nextLine else none

end Cursor

end SwaggerProvider.Yaml
