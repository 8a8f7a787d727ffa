import WebAudit.Json.Reader
import WebAudit.Text.Utf8

/-!
# JSON files

Reading JSON from the bytes of a text file. Bytes that are no text and numbers that are too long are
told apart from text that is no JSON.
-/

namespace WebAudit.Json

/-- Why the bytes of a file cannot be read at all. -/
inductive Unreadable where
  /-- The bytes are no text. -/
  | notText
  /-- The text is JSON but for a number that is too long. -/
  | tooManyDigits (e : Error)
deriving DecidableEq, Repr

/-- The JSON value in the bytes of a text file. -/
def ofBytes (bytes : List UInt8) : Except Unreadable (Except Error Json) :=
  match Text.decode? bytes with
  | none => .error .notText
  | some cs =>
    match parse (String.ofList (Text.unifyLineEnds cs)) with
    | .ok v => .ok (.ok v)
    | .error e => if e.isDigitLimit then .error (.tooManyDigits e) else .ok (.error e)

end WebAudit.Json
