/-!
# Splitting texts

Cutting a text at a separator. There is always one piece more than there are separators.
-/

namespace WebAudit.Text

/-- The pieces of a text between separators. -/
def splitAt (separator : Char) : List Char → List (List Char)
  | [] => [[]]
  | c :: r =>
    if c == separator then [] :: splitAt separator r
    else
      match splitAt separator r with
      | p :: ps => (c :: p) :: ps
      | [] => [[c]]

end WebAudit.Text
