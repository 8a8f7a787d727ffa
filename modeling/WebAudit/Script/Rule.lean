/-!
# Grammar rules

A rule reads from a cursor: it fails, or it gives a value and the cursor after what it read. Rules
are plain functions, so going back to an earlier place costs nothing: the earlier cursor is still
there. `loop` is the only repetition, and it stops because it counts down from the length of the
text that is left.
-/

namespace WebAudit.Script

/-- A place in a script: the text that is left and the offset of its first character. -/
structure Cursor where
  rest : List Char
  pos : Nat

namespace Cursor

/-- The cursor `n` characters further on. -/
def advance (c : Cursor) (n : Nat) : Cursor :=
  ⟨c.rest.drop n, c.pos + n⟩

theorem advance_rest_length (c : Cursor) (n : Nat) :
    (c.advance n).rest.length = c.rest.length - n := by
  simp [advance]

end Cursor

/-- A rule of the grammar. -/
def Rule (α : Type) : Type :=
  Cursor → Option (α × Cursor)

namespace Rule

variable {α β : Type}

/-- The rule that reads nothing and never fits. -/
def fail : Rule α :=
  fun _ => none

/-- The first rule, or the second from the same place where the first fails. -/
def orElse (p : Rule α) (q : Unit → Rule α) : Rule α :=
  fun c => match p c with
    | none => q () c
    | some r => some r

instance : Monad Rule where
  pure a := fun c => some (a, c)
  bind p f := fun c => match p c with
    | none => none
    | some (a, c') => f a c'

instance : Alternative Rule where
  failure := fail
  orElse := orElse

/-- The current place. -/
def cursor : Rule Cursor :=
  fun c => some (c, c)

/-- The offset of the current place. -/
def position : Rule Nat :=
  fun c => some (c.pos, c)

/-- The text that is left. -/
def ahead : Rule (List Char) :=
  fun c => some (c.rest, c)

/-- Goes on from another place. -/
def moveTo (c : Cursor) : Rule Unit :=
  fun _ => some ((), c)

/-- Steps over `n` characters. -/
def step (n : Nat) : Rule Unit :=
  fun c => some ((), c.advance n)

/-- Reads with `p` if it fits; where it does not, nothing is read. -/
def attempt (p : Rule α) : Rule (Option α) :=
  fun c => match p c with
    | none => some (none, c)
    | some (a, c') => some (some a, c')

/-- Fails unless the condition holds. -/
def require (b : Bool) : Rule Unit :=
  fun c => if b then some ((), c) else none

/-- Whether `p` fits here; nothing is read. -/
def fits (p : Rule α) : Rule Bool :=
  fun c => some ((p c).isSome, c)

/-- `loop` with the number of rounds still allowed. -/
def loopWith (body : α → Rule (Option α)) : Nat → α → Rule α
  | 0, a => pure a
  | n + 1, a => fun c =>
    match body a c with
    | none => none
    | some (none, _) => some (a, c)
    | some (some a', c') => loopWith body n a' c'

/-- Repeats `body` until it has nothing more to add. A round that adds something reads something. -/
def loop (body : α → Rule (Option α)) (a : α) : Rule α :=
  fun c => loopWith body (c.rest.length + 1) a c

/-- Zero or more times `p`, as long as it fits. -/
def many (p : Rule α) : Rule (List α) := do
  let found ← loop (fun acc => do
    match ← attempt p with
    | none => pure none
    | some a => pure (some (a :: acc))) []
  pure found.reverse

end Rule

end WebAudit.Script
