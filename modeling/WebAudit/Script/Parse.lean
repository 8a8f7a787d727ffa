import WebAudit.Script.Grammar.Statement

/-!
# Reading scripts

`parse?` reads a whole script to its syntax tree, or rejects it. The system of rules is built in
rounds: in round zero every rule fails, and in each later round a rule may use those of the round
before. A rule calls another one only after reading something or a bounded number of times in a row,
so a number of rounds proportional to the length of the text reaches every reading.
-/

namespace WebAudit.Script

namespace Rules

/-- One more round of the grammar. -/
def next (r : Rules) : Rules where
  dialect := r.dialect
  expression := r.expressionRule
  binary := r.binaryRule
  unary := r.unaryRule
  place := r.placeRule
  construction := r.constructionRule
  statement := r.statementRule
  block := r.blockRule
  type := r.typeRule
  element := r.elementRule

/-- The grammar after a number of rounds. -/
def rounds (d : Dialect) (n : Nat) : Rules :=
  n.repeat next (bottom d)

end Rules

/-- The syntax tree of a script, if the whole text is one. -/
def parse? (d : Dialect) (text : List Char) : Option Node :=
  match (Rules.rounds d (4 * text.length + 16)).script ⟨text, 0⟩ with
  | some (n, _) => some n
  | none => none

end WebAudit.Script
