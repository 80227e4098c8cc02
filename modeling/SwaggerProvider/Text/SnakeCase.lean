import SwaggerProvider.Text.Case

/-!
Names in the form the host's configuration language wants: lowercase words with underscores
between them. A word starts at a capital that follows a small letter, so acronyms stay together.
-/

set_option autoImplicit false

namespace SwaggerProvider.Text

/-- The flag says whether the character before was a small letter. -/
def snakeChars (afterSmall : Bool) : List Char → List Char
  | [] => []
  | c :: rest =>
    if c = '-' then '_' :: snakeChars false rest
    else if isUpper c then
      (if afterSmall then ['_'] else []) ++ toLower c ++ snakeChars false rest
    else c :: snakeChars (isLower c) rest

def snakeCase (s : String) : String := String.ofList (snakeChars false s.toList)

end SwaggerProvider.Text
