import WebAudit.Text.Digit
import WebAudit.Text.Quoted

/-!
# Flags

A command line is a list of words. A word that starts with a dash names a flag, whole or by a
beginning that fits one flag only, and may have a value attached to it; all other words are plain.
`wordsOf` tells the words apart, and `unfold` takes apart a word in which short flags are written
together.
-/

namespace WebAudit.Command

/-! ## Flags and what they do -/

/-- Why the value of a flag is refused. -/
inductive Unfit where
  | notFloat
  | notInt
  | notAmong (choices : List String)
deriving DecidableEq, Repr

/-- What a flag does to the settings of type `σ`. -/
inductive Effect (σ : Type) where
  /-- Shows how the command is used. -/
  | help
  /-- Shows the version. -/
  | version
  /-- Changes the settings according to the name by which it was called. -/
  | switch (set : String → σ → σ)
  /-- Changes the settings according to a value. -/
  | value (set : String → σ → Except Unfit σ)

/-- A flag with its names, the first of which may be short. -/
structure Flag (σ : Type) where
  names : List String
  effect : Effect σ

/-- Whether a flag takes a value. -/
def Flag.takesValue {σ : Type} (f : Flag σ) : Bool :=
  match f.effect with
  | .value _ => true
  | _ => false

/-- A flag as messages name it. -/
def Flag.label {σ : Type} (f : Flag σ) : String :=
  "/".intercalate f.names

/-! ## Refusals -/

/-- Why a command line is refused. -/
inductive Refusal where
  | ambiguous (word : String) (candidates : List String)
  /-- A flag that has no value and needs one. -/
  | noValue (label : String)
  /-- A flag that has a value and takes none. -/
  | extraValue (label value : String)
  | unfit (label value : String) (u : Unfit)
  | noCommand
  | unrecognized (words : List String)
deriving DecidableEq, Repr

/-- Why a value is refused, in words. -/
def Unfit.message (value : String) : Unfit → String
  | .notFloat => "invalid float value: " ++ Text.quoted value
  | .notInt => "invalid int value: " ++ Text.quoted value
  | .notAmong choices =>
    "invalid choice: " ++ Text.quoted value ++ " (choose from "
      ++ ", ".intercalate (choices.map Text.quoted) ++ ")"

/-- Why a command line is refused, in words. -/
def Refusal.message : Refusal → String
  | .ambiguous word candidates =>
    "ambiguous option: " ++ word ++ " could match " ++ ", ".intercalate candidates
  | .noValue label => "argument " ++ label ++ ": expected one argument"
  | .extraValue label value =>
    "argument " ++ label ++ ": ignored explicit argument " ++ Text.quoted value
  | .unfit label value u => "argument " ++ label ++ ": " ++ u.message value
  | .noCommand => "the following arguments are required: command"
  | .unrecognized words => "unrecognized arguments: " ++ " ".intercalate words

/-! ## Words -/

/-- A value attached to a flag. -/
structure Attached where
  text : List Char
  /-- Whether an equals sign stands before it. -/
  afterEquals : Bool
deriving DecidableEq, Repr

/-- A word of a command line. -/
inductive Word (σ : Type) where
  | plain (text : String)
  /-- The two dashes after which all words are plain. -/
  | dashes
  | flag (f : Flag σ) (name : String) (value : Option Attached)
  | unknown (text : String)

/-- A word as it was written, if it is not a flag that is known. -/
def Word.text {σ : Type} : Word σ → String
  | plain text => text
  | dashes => "--"
  | flag _ name _ => name
  | unknown text => text

/-- Whether a word is no flag. -/
def Word.isPlain {σ : Type} : Word σ → Bool
  | plain _ => true
  | dashes => true
  | _ => false

/-- Every name with its flag. -/
def named {σ : Type} (flags : List (Flag σ)) : List (String × Flag σ) :=
  flags.flatMap fun f => f.names.map fun n => (n, f)

/-- The flag of a name. -/
def find? {σ : Type} (flags : List (Flag σ)) (name : String) : Option (Flag σ) :=
  (named flags).lookup name

/-- A word cut at its first equals sign, with the value after it. -/
def cutValue (cs : List Char) : List Char × Option Attached :=
  match cs.dropWhile (· != '=') with
  | _ :: value => (cs.takeWhile (· != '='), some ⟨value, true⟩)
  | [] => (cs, none)

/-- The flags that a word may mean, with their names: long ones that start as the word does, or the
short one at its start. -/
def candidates {σ : Type} (flags : List (Flag σ)) (cs : List Char) :
    List (String × Flag σ × Option Attached) :=
  match cs with
  | '-' :: '-' :: _ =>
    let (name, value) := cutValue cs
    (named flags).filterMap fun (n, f) =>
      if name.isPrefixOf n.toList then some (n, f, value) else none
  | a :: b :: value =>
    (named flags).filterMap fun (n, f) =>
      if n.toList == [a, b] then some (n, f, some ⟨value, false⟩) else none
  | _ => []

/-- Whether a text is a negative number without exponent. -/
def isNegativeNumber (cs : List Char) : Bool :=
  match cs with
  | '-' :: r =>
    let r := if r.getLast? == some '\n' then r.dropLast else r
    let whole := r.takeWhile Text.isDecimal
    match r.dropWhile Text.isDecimal with
    | [] => !whole.isEmpty
    | '.' :: part => !part.isEmpty && part.all Text.isDecimal
    | _ => false
  | _ => false

/-- The word that a text is. -/
def wordOf {σ : Type} (flags : List (Flag σ)) (s : String) : Except Refusal (Word σ) :=
  let cs := s.toList
  if cs.head? != some '-' || s == "-" then .ok (.plain s)
  else
    match find? flags s with
    | some f => .ok (.flag f s none)
    | none =>
      let (name, value) := cutValue cs
      match value, find? flags (String.ofList name) with
      | some v, some f => .ok (.flag f (String.ofList name) (some v))
      | _, _ =>
        match candidates flags cs with
        | [(n, f, v)] => .ok (.flag f n v)
        | [] =>
          .ok (if isNegativeNumber cs || cs.contains ' ' then .plain s else .unknown s)
        | found => .error (.ambiguous s (found.map (·.1)))

/-- The words of a command line. -/
def wordsOf {σ : Type} (flags : List (Flag σ)) : List String → Except Refusal (List (Word σ))
  | [] => .ok []
  | s :: rest =>
    if s == "--" then .ok (.dashes :: rest.map .plain)
    else do
      let w ← wordOf flags s
      let ws ← wordsOf flags rest
      return w :: ws

/-! ## Flags written together -/

/-- How a word with flags written together ends. -/
inductive Ending (σ : Type) where
  | complete
  /-- The last flag has this value. -/
  | value (f : Flag σ) (text : String)
  /-- The last flag takes its value from the next word. -/
  | wantsValue (f : Flag σ)
  /-- What is left names no flag. -/
  | unknown (text : String)

/-- The flags without value in a word, with their names, and how the word ends. -/
structure Unfolded (σ : Type) where
  flags : List (Flag σ × String)
  ending : Ending σ

/-- An unfolded word with one more flag at its start. -/
def Unfolded.cons {σ : Type} (f : Flag σ) (name : String) (u : Unfolded σ) : Unfolded σ :=
  { u with flags := (f, name) :: u.flags }

/-- A flag without attached value. -/
def bare {σ : Type} (f : Flag σ) (name : String) : Unfolded σ :=
  if f.takesValue then ⟨[], .wantsValue f⟩ else ⟨[(f, name)], .complete⟩

/-- Unfolds a flag with an attached text, which is its value or has more short flags. -/
def unfoldAttached {σ : Type} (flags : List (Flag σ)) (f : Flag σ) (name : String)
    (afterEquals : Bool) : List Char → Except Refusal (Unfolded σ)
  | [] => if f.takesValue then .ok ⟨[], .value f ""⟩ else .error (.extraValue f.label "")
  | c :: r =>
    let text := String.ofList (c :: r)
    if f.takesValue then .ok ⟨[], .value f text⟩
    else if name.toList.take 2 == ['-', '-'] || afterEquals || c == '-' then
      .error (.extraValue f.label text)
    else
      let name' := String.ofList ['-', c]
      match find? flags name' with
      | none => .ok ⟨[(f, name)], .unknown ("-" ++ text)⟩
      | some g =>
        match r with
        | [] => .ok ((bare g name').cons f name)
        | '=' :: r' => (unfoldAttached flags g name' true r').map (·.cons f name)
        | d :: r' => (unfoldAttached flags g name' false (d :: r')).map (·.cons f name)

/-- Unfolds a word that names a flag. -/
def unfold {σ : Type} (flags : List (Flag σ)) (f : Flag σ) (name : String)
    (value : Option Attached) : Except Refusal (Unfolded σ) :=
  match value with
  | none => .ok (bare f name)
  | some v => unfoldAttached flags f name v.afterEquals v.text

end WebAudit.Command
