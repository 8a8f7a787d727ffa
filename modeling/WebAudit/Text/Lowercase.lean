import WebAudit.Text.LowercaseTable

/-!
# Lower case

The lower case of a text. Every character is mapped on its own, with two exceptions: a dotted
capital I becomes two characters, and a sigma takes its final form after a letter and before none.
-/

namespace WebAudit.Text

/-- Whether a code point lies in one of the ranges. -/
def inRanges (rs : List (Nat × Nat)) (n : Nat) : Bool :=
  rs.any (fun r => r.1 ≤ n && n ≤ r.2)

/-- The lower case of an ASCII character; other characters stay as they are. -/
def asciiLower (c : Char) : Char :=
  if 'A' ≤ c && c ≤ 'Z' then Char.ofNat (c.toNat + 32) else c

/-- The lower case of a character on its own. -/
def lowerChar (c : Char) : Char :=
  if c.toNat < 0x80 then asciiLower c
  else
    let n := c.toNat
    match lowercaseRuns.find? (fun (a, b, s, _) => a ≤ n && n ≤ b && (n - a) % s == 0) with
    | some (_, _, _, d) => Char.ofNat (n + d).toNat
    | none => c

def isCased (c : Char) : Bool :=
  inRanges casedRanges c.toNat

def isCaseIgnorable (c : Char) : Bool :=
  inRanges caseIgnorableRanges c.toNat

/-- Whether the nearest character that counts has case. -/
def nextIsCased (cs : List Char) : Bool :=
  (cs.find? (fun c => !isCaseIgnorable c)).any isCased

/-- The lower case of a text whose characters before it are given in reverse. -/
def lowerFrom (before : List Char) : List Char → List Char
  | [] => []
  | c :: rest =>
    let low : List Char :=
      if c == '\u03a3' then [if nextIsCased before && !nextIsCased rest then '\u03c2' else '\u03c3']
      else if c == '\u0130' then ['i', '\u0307']
      else [lowerChar c]
    low ++ lowerFrom (c :: before) rest

/-- The lower case of a text. -/
def lower (s : String) : String :=
  String.ofList (lowerFrom [] s.toList)

end WebAudit.Text
