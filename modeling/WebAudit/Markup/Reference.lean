/-!
# Character references

Decoding of `&#109;`, `&#x6d;` and `&sol;` in attribute values. Named references are decoded where
they stand for blanks, slashes or ASCII letters: those are the characters that can make a difference
to the kind of an element. Other names are left as they are written.
-/

namespace WebAudit.Markup

/-- Code points in the range of old control characters, from `0x80`, and what they stand for. -/
def controlSubstitutes : List Nat :=
  [0x20AC, 0x81, 0x201A, 0x192, 0x201E, 0x2026, 0x2020, 0x2021, 0x2C6, 0x2030, 0x160, 0x2039,
    0x152, 0x8D, 0x17D, 0x8F, 0x90, 0x2018, 0x2019, 0x201C, 0x201D, 0x2022, 0x2013, 0x2014, 0x2DC,
    0x2122, 0x161, 0x203A, 0x153, 0x9D, 0x17E, 0x178]

/-- Whether a code point stands for nothing. -/
def isDropped (n : Nat) : Bool :=
  (0x01 ≤ n && n ≤ 0x08) || n == 0x0B || (0x0E ≤ n && n ≤ 0x1F) || n == 0x7F
    || (0xFDD0 ≤ n && n ≤ 0xFDEF) || 0xFFFE ≤ n % 0x10000

/-- What a numeric reference stands for. -/
def numericReference (n : Nat) : List Char :=
  if n == 0 || (0xD800 ≤ n && n ≤ 0xDFFF) || 0x10FFFF < n then ['\ufffd']
  else if 0x80 ≤ n && n ≤ 0x9F then [Char.ofNat (controlSubstitutes.getD (n - 0x80) 0)]
  else if isDropped n then []
  else [Char.ofNat n]

/-- Named references to blanks, slashes and letters. -/
def namedReferences : List (String × List Char) :=
  [("Tab;", ['\t']), ("NewLine;", ['\n']), ("nbsp;", ['\u00a0']), ("nbsp", ['\u00a0']),
    ("NonBreakingSpace;", ['\u00a0']), ("ensp;", ['\u2002']), ("emsp;", ['\u2003']),
    ("emsp13;", ['\u2004']), ("emsp14;", ['\u2005']), ("numsp;", ['\u2007']),
    ("puncsp;", ['\u2008']), ("thinsp;", ['\u2009']), ("ThinSpace;", ['\u2009']),
    ("hairsp;", ['\u200a']), ("VeryThinSpace;", ['\u200a']), ("MediumSpace;", ['\u205f']),
    ("ThickSpace;", ['\u205f', '\u200a']), ("sol;", ['/']), ("fjlig;", ['f', 'j'])]

/-- A character that can be part of the name of a reference. -/
def isReferencePart (c : Char) : Bool :=
  !(c == '\t' || c == '\n' || c == '\x0c' || c == ' ' || c == '<' || c == '&' || c == '#'
    || c == ';')

/-- The value of a digit in some base. -/
def digitValue? (base : Nat) (c : Char) : Option Nat :=
  let v := if '0' ≤ c && c ≤ '9' then c.toNat - 48
    else if 'a' ≤ c && c ≤ 'f' then c.toNat - 87
    else if 'A' ≤ c && c ≤ 'F' then c.toNat - 55
    else 16
  if v < base then some v else none

/-- A number at the start of a text: its value and its length. -/
def number (base : Nat) : Nat → List Char → Nat × Nat
  | n, c :: r =>
    match digitValue? base c with
    | some v => let (m, k) := number base (n * base + v) r; (m, k + 1)
    | none => (n, 0)
  | n, [] => (n, 0)

/-- One, if the text starts with a semicolon. -/
def semicolonLength (cs : List Char) : Nat :=
  if cs.head? == some ';' then 1 else 0

/-- The longest named reference that starts a text, and its length. -/
def namedReference? (cs : List Char) : Option (List Char × Nat) :=
  let run := (cs.take 32).takeWhile isReferencePart
  let whole := cs.take (run.length + semicolonLength (cs.drop run.length))
  match namedReferences.find? (fun e => e.1.toList == whole) with
  | some e => some (e.2, whole.length)
  | none =>
    match namedReferences.find? (fun e => e.1.toList.isPrefixOf run) with
    | some e => some (e.2, e.1.length)
    | none => none

/-- What the reference after an ampersand stands for, and its length. -/
def reference? (r : List Char) : Option (List Char × Nat) :=
  match r with
  | '#' :: 'x' :: ds => numeric 16 2 ds
  | '#' :: 'X' :: ds => numeric 16 2 ds
  | '#' :: ds => numeric 10 1 ds
  | _ => namedReference? r
where
  numeric (base start : Nat) (ds : List Char) : Option (List Char × Nat) :=
    let (n, k) := number base 0 ds
    if k == 0 then none
    else some (numericReference n, start + k + semicolonLength (ds.drop k))

/-- A text with its character references decoded. -/
def decode (cs : List Char) : List Char :=
  match cs with
  | [] => []
  | '&' :: r =>
    match reference? r with
    | some (v, n) => v ++ decode (r.drop n)
    | none => '&' :: decode r
  | c :: r => c :: decode r
termination_by cs.length
decreasing_by all_goals simp only [List.length_drop, List.length_cons]; omega

end WebAudit.Markup
