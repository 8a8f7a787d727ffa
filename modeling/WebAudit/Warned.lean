/-!
# Results with warnings

A result together with the number of warnings raised on the way to it, whether the result is good or
bad.
-/

namespace WebAudit

/-- A result with the number of warnings raised on the way. -/
structure Warned (α : Type) where
  value : α
  warnings : Nat
deriving DecidableEq, Repr

namespace Warned

/-- A result with its value changed. -/
def map {α β : Type} (f : α → β) (w : Warned α) : Warned β :=
  ⟨f w.value, w.warnings⟩

/-- A result after some more warnings. -/
def after {α : Type} (n : Nat) (w : Warned α) : Warned α :=
  ⟨w.value, n + w.warnings⟩

/-- Goes on with a good result. A bad one is the end. -/
def andThen {ε α β : Type} (w : Warned (Except ε α)) (next : α → Warned (Except ε β)) :
    Warned (Except ε β) :=
  match w.value with
  | .ok a => (next a).after w.warnings
  | .error e => ⟨.error e, w.warnings⟩

theorem value_andThen_of_ok {ε α β : Type} {w : Warned (Except ε α)} {a : α} (h : w.value = .ok a)
    (next : α → Warned (Except ε β)) : (w.andThen next).value = (next a).value := by
  simp only [andThen, h, after]

end Warned

end WebAudit
