import WebAudit.Decimal.Shortest
import WebAudit.Scan.Summary

/-!
# Gates

A gate lets a scan pass if its safety score reaches a threshold and, where that is asked for, if
there are no risky features.
-/

namespace WebAudit.Scan

/-- A threshold: a whole number or a floating point number. -/
inductive Threshold where
  | whole (n : Int)
  | float (x : Double)
deriving DecidableEq, Repr

/-- The text of a threshold. -/
def Threshold.text : Threshold → String
  | .whole n => toString n
  | .float x => x.text

/-- Whether a score reaches a threshold. -/
def Threshold.reachedBy (t : Threshold) (score : Int) : Bool :=
  match t with
  | .whole n => n ≤ score
  | .float x => x.leInt score

/-- A gate. -/
structure Gate where
  minScore : Threshold := .float (Double.ofInt 0)
  failOnRisky : Bool := true
deriving DecidableEq, Repr

/-- Puts a text into an ascending list, unless it is there. -/
def insertText (s : String) : List String → List String
  | [] => [s]
  | t :: ts => if s < t then s :: t :: ts else if s == t then t :: ts else t :: insertText s ts

/-- The texts of a list in ascending order, each once. -/
def sortTexts (ss : List String) : List String :=
  ss.foldr insertText []

/-- Whether a gate refuses because of risky features. -/
def Gate.blocksRisky (g : Gate) (risky : Int) : Bool :=
  g.failOnRisky && 0 < risky

/-- Whether a score and a number of risky features pass. -/
def Gate.passes (g : Gate) (score risky : Int) : Bool :=
  g.minScore.reachedBy score && !g.blocksRisky risky

/-- What a gate says of a score and the risky features. -/
def Gate.message (g : Gate) (score risky : Int) (riskyIds : List String) : String :=
  if g.passes score risky then
    s!"✅ PASSED: Safety score {score}% (threshold: {g.minScore.text}%)"
  else
    s!"❌ FAILED: Safety score {score}%"
      ++ (if g.minScore.reachedBy score then "" else s!" below threshold {g.minScore.text}%")
      ++ (if g.blocksRisky risky then
        "\n⚠️ Risky features found: " ++ ", ".intercalate (sortTexts riskyIds)
      else "")

/-- Whether a scan passes, and what the gate says of it. -/
def Gate.check (g : Gate) (s : Summary) : Bool × String :=
  (g.passes s.score s.risky, g.message s.score s.risky s.riskyIds)

end WebAudit.Scan
