import WebAudit.Text.Blank

/-!
# Search patterns

Patterns over the characters of a line: sequences of parts, each of which is a run of characters of
a class or one of several words. A run takes as many characters as it can and gives some back if
what follows does not fit. Letters fit in either case.
-/

namespace WebAudit.Upgrade

/-- A part of a pattern. -/
inductive Part where
  /-- At least `least` and at most `most` characters of a class. -/
  | run (fits : Char → Bool) (least : Nat) (most : Option Nat)
  /-- One of several words, the first that fits. -/
  | oneOf (words : List (List Char))

/-- A pattern. -/
abbrev Pattern := List Part

/-! ## Characters -/

/-- The lower case of a letter, as far as ASCII letters are concerned: the Kelvin sign, the long s
and the two letters i with and without a dot stand for the letters they look like. -/
def foldChar (c : Char) : Char :=
  if 'A' ≤ c && c ≤ 'Z' then Char.ofNat (c.toNat + 32)
  else if c == '\u212a' then 'k'
  else if c == '\u017f' then 's'
  else if c == '\u0130' || c == '\u0131' then 'i'
  else c

/-- Whether a character is a letter in either case. -/
def sameLetter (a c : Char) : Bool :=
  foldChar c == foldChar a

/-- One character. -/
def Part.char (a : Char) : Part :=
  .run (sameLetter a) 1 (some 1)

/-- The characters of a word, one after the other. -/
def word (s : String) : Pattern :=
  s.toList.map Part.char

/-- Any number of blanks. -/
def blanks : Part :=
  .run Text.isBlank 0 none

/-! ## Matching -/

/-- Tries runs of `n` characters and fewer, down to `least`. -/
def tryRuns (rest : List Char → Option Nat) (cs : List Char) (least : Nat) : Nat → Option Nat
  | 0 => if least == 0 then rest cs else none
  | n + 1 =>
    if n + 1 < least then none
    else
      match rest (cs.drop (n + 1)) with
      | some k => some (n + 1 + k)
      | none => tryRuns rest cs least n

/-- Tries words in turn. -/
def tryWords (rest : List Char → Option Nat) (cs : List Char) : List (List Char) → Option Nat
  | [] => none
  | w :: ws =>
    let start := (cs.take w.length).map foldChar
    match (if start == w.map foldChar then rest (cs.drop w.length) else none) with
    | some k => some (w.length + k)
    | none => tryWords rest cs ws

/-- The number of characters at the start of a text that a run can take. -/
def runLength (fits : Char → Bool) (most : Option Nat) (cs : List Char) : Nat :=
  let n := (cs.takeWhile fits).length
  match most with
  | some m => min n m
  | none => n

/-- The length of the match of a pattern at the start of a text. -/
def matchLength? : Pattern → List Char → Option Nat
  | [], _ => some 0
  | .run fits least most :: ps, cs => tryRuns (matchLength? ps) cs least (runLength fits most cs)
  | .oneOf words :: ps, cs => tryWords (matchLength? ps) cs words

/-- All matches of a pattern in a text, from left to right and without overlap: each with how many
characters stand before it. -/
def findAll (p : Pattern) (before : Nat) (cs : List Char) : List (Nat × List Char) :=
  match cs with
  | [] => []
  | c :: r =>
    match matchLength? p (c :: r) with
    | some (n + 1) => (before, (c :: r).take (n + 1)) :: findAll p (before + (n + 1)) (r.drop n)
    | _ => findAll p (before + 1) r
termination_by cs.length
decreasing_by all_goals simp only [List.length_drop, List.length_cons]; omega

end WebAudit.Upgrade
