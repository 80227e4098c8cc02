import SwaggerProvider.Path.Basic

/-!
Parents of a path. A parent is a literal segment, with the segments that belong to it, followed by
a parameter; a path such as `/v1/cdns/{id}/v1/firewalls/{fw}` has the parent `/v1/cdns/{id}`. The
parameter at the very end of a path is the resource's own.
-/

set_option autoImplicit false

namespace SwaggerProvider.Path

/-- A parent on the way to a path, with the whole path up to it. -/
structure Parent where
  name : String
  root : String
  instancePath : String
  parameter : String
  deriving DecidableEq

structure Chain where
  parents : List Parent
  tail : String
  deriving DecidableEq

namespace Chain

def isSubResource (chain : Chain) : Bool := !chain.parents.isEmpty

def join (chain : Chain) : String :=
  (match chain.parents.getLast? with
    | some parent => parent.instancePath
    | none => "") ++ chain.tail

end Chain

def isSegmentChar (c : Char) : Bool := Text.isWord c || c == '-'

def run? (p : Char → Bool) (cs : List Char) : Option (List Char × List Char) :=
  let run := cs.takeWhile p
  if run.isEmpty then none else some (run, cs.drop run.length)

def segment? (p : Char → Bool) (cs : List Char) : Option (List Char × List Char) :=
  match run? p cs with
  | some (run, '/' :: rest) => some (run, rest)
  | _ => none

def parameter? : List Char → Option (List Char × List Char)
  | '{' :: rest =>
    match run? (fun c => !isDelimiter c) rest with
    | some (parameter, '}' :: tail) => some (parameter, tail)
    | _ => none
  | _ => none

/-- What a parent consists of: its segments, its parameter and the rest of the path. -/
abbrev Step := List Char × List Char × List Char

def literalStep (front cs : List Char) : Option Step :=
  match segment? isSegmentChar cs with
  | some (literal, rest) =>
    (parameter? rest).map fun (parameter, tail) => (front ++ literal, parameter, tail)
  | none => none

def versionSegment? : List Char → Option (List Char × List Char)
  | 'v' :: rest => (segment? Text.isDigit rest).map fun (digits, tail) => ('v' :: digits, tail)
  | _ => none

/-- A version segment before the literal belongs to the parent. -/
def versionedStep (front cs : List Char) : Option Step :=
  match versionSegment? cs with
  | some (version, rest) =>
    match literalStep (front ++ version ++ ['/']) rest with
    | some step => some step
    | none => literalStep front cs
  | none => literalStep front cs

/-- One more segment of word characters may stand in front, if the parent needs it. -/
def step? : List Char → Option Step
  | '/' :: cs =>
    match versionedStep ['/'] cs with
    | some step => some step
    | none =>
      match segment? Text.isWord cs with
      | some (first, rest) => versionedStep ('/' :: first ++ ['/']) rest
      | none => none
  | _ => none

/-- Collects parents from left to right; `done` is the path so far and `kept` what of it no parent
has taken. -/
def chainFrom : Nat → List Char → List Parent → List Char → List Char → Except Error Chain
  | 0, _, parents, kept, rest => .ok ⟨parents.reverse, String.ofList (kept ++ rest)⟩
  | _ + 1, _, parents, kept, [] => .ok ⟨parents.reverse, String.ofList kept⟩
  | fuel + 1, done, parents, kept, c :: rest =>
    match step? (c :: rest) with
    | none => chainFrom fuel (done ++ [c]) parents (kept ++ [c]) rest
    | some (segment, parameter, tail) =>
      if tail.all (· == '/') then .ok ⟨parents.reverse, String.ofList (kept ++ c :: rest)⟩
      else
        match resourceName (String.ofList segment) with
        | .error e => .error e
        | .ok name =>
          let root := done ++ segment
          let instancePath := root ++ ['/', '{'] ++ parameter ++ ['}']
          chainFrom fuel instancePath
            (⟨name, String.ofList root, String.ofList instancePath,
              String.ofList parameter⟩ :: parents) [] tail

def chain (path : String) : Except Error Chain :=
  chainFrom (path.toList.length + 1) [] [] [] path.toList

end SwaggerProvider.Path
