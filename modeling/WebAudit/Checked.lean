/-!
# Checking parts

Results of checking the parts of a value: what is wrong with any part is kept, in the order of the
parts.
-/

namespace WebAudit

/-- A part, or all that is wrong with it. -/
abbrev Checked (π α : Type) := Except (List π) α

/-- Two parts together, with what is wrong with either. -/
def both {π α β : Type} (a : Checked π α) (b : Checked π β) : Checked π (α × β) :=
  match a, b with
  | .ok x, .ok y => .ok (x, y)
  | .error p, .ok _ => .error p
  | .ok _, .error q => .error q
  | .error p, .error q => .error (p ++ q)

end WebAudit
