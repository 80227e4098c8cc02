import SwaggerProvider.Path.Basic
import SwaggerProvider.Url.Percent

/-!
Path templates: text with parameters in braces. Filling a template writes an identifier, percent
encoded, in the place of each parameter and keeps all other text.
-/

set_option autoImplicit false

namespace SwaggerProvider.Path

inductive Piece where
  | literal (c : Char)
  | parameter (name : List Char)
  deriving DecidableEq

def literals (cs : List Char) : List Piece := cs.map .literal

/-- Splits a text into pieces. The second argument holds what follows an opening brace that may
still turn out to be text, backwards. -/
def piecesFrom : List Char → Option (List Char) → List Piece
  | [], none => []
  | [], some held => literals ('{' :: held.reverse)
  | c :: rest, none =>
    if c = '{' then piecesFrom rest (some []) else .literal c :: piecesFrom rest none
  | c :: rest, some held =>
    if c = '{' then literals ('{' :: held.reverse) ++ piecesFrom rest (some [])
    else if c = '/' then literals ('{' :: held.reverse) ++ .literal c :: piecesFrom rest none
    else if c = '}' then
      if held.isEmpty then .literal '{' :: .literal c :: piecesFrom rest none
      else .parameter held.reverse :: piecesFrom rest none
    else piecesFrom rest (some (c :: held))

def templatePieces (template : String) : List Piece := piecesFrom template.toList none

def Piece.isParameter : Piece → Bool
  | .parameter _ => true
  | .literal _ => false

def parameterCount (template : String) : Nat :=
  ((templatePieces template).filter Piece.isParameter).length

def fillPieces : List Piece → List String → List Char
  | [], _ => []
  | .literal c :: rest, ids => c :: fillPieces rest ids
  | .parameter _ :: rest, [] => fillPieces rest []
  | .parameter _ :: rest, id :: ids => Url.encodeChars id.toList ++ fillPieces rest ids

/-- Fills a template that has exactly as many parameters as there are identifiers. -/
def fill (template : String) (ids : List String) : Except Error String :=
  let expected := parameterCount template
  if expected = ids.length then .ok (String.ofList (fillPieces (templatePieces template) ids))
  else .error (.runtimeConfig (.identifierCount template expected ids.length))

end SwaggerProvider.Path
