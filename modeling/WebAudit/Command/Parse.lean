import WebAudit.Command.Flag

/-!
# Reading command lines

`Grammar.read` goes through the words of a command from left to right. Flags change the settings; the
first run of plain words is given to the command, and everything else is left over. `commandAt`
looks for the word that names a command.
-/

namespace WebAudit.Command

/-- Why no command is run. -/
inductive Stop where
  /-- The use of a program is shown instead. -/
  | help (program : String)
  /-- The version is shown instead. -/
  | version
  | refused (program : String) (r : Refusal)
deriving DecidableEq, Repr

/-- What a command takes. -/
structure Grammar (σ : Type) where
  program : String
  flags : List (Flag σ)
  /-- What plain words do, if the command takes any. -/
  plain : Option (List String → σ → σ)

namespace Grammar

/-- Lets a flag without value take effect. -/
def fire {σ : Type} (g : Grammar σ) (settings : σ) (f : Flag σ) (name : String) : Except Stop σ :=
  match f.effect with
  | .help => .error (.help g.program)
  | .version => .error .version
  | .switch set => .ok (set name settings)
  | .value _ => .ok settings

/-- Lets flags without value take effect, one after the other. -/
def fireAll {σ : Type} (g : Grammar σ) (settings : σ) : List (Flag σ × String) → Except Stop σ
  | [] => .ok settings
  | (f, name) :: rest => do fireAll g (← g.fire settings f name) rest

/-- Gives a value to a flag. -/
def give {σ : Type} (g : Grammar σ) (settings : σ) (f : Flag σ) (value : String) :
    Except Stop σ :=
  match f.effect with
  | .value set =>
    match set value settings with
    | .ok s => .ok s
    | .error u => .error (.refused g.program (.unfit f.label value u))
  | _ => .ok settings

/-- Settings and the words that are left over. -/
structure Result (σ : Type) where
  settings : σ
  leftOver : List String

/-- A result with words left over before it. -/
def Result.leaving {σ : Type} (words : List String) (r : Result σ) : Result σ :=
  { r with leftOver := words ++ r.leftOver }

/-- Plain words as a command gets them: without the first two dashes. -/
def plainTexts {σ : Type} (ws : List (Word σ)) : List String :=
  (ws.map Word.text).erase "--"

/-- Goes through words. `given` says whether the command has got its plain words. Every step takes at
least one word away. -/
def readWords {σ : Type} (g : Grammar σ) (given : Bool) (settings : σ) (words : List (Word σ)) :
    Except Stop (Result σ) :=
  match words with
  | [] => .ok ⟨settings, []⟩
  | .unknown text :: rest => do
    return (← readWords g given settings rest).leaving [text]
  | .flag f name value :: rest =>
    match unfold g.flags f name value with
    | .error r => .error (.refused g.program r)
    | .ok u =>
      match u.ending with
      | .complete => do readWords g given (← g.fireAll settings u.flags) rest
      | .value v text => do
        readWords g given (← g.give (← g.fireAll settings u.flags) v text) rest
      | .unknown text => do
        return (← readWords g given (← g.fireAll settings u.flags) rest).leaving [text]
      | .wantsValue v =>
        match rest with
        | .plain text :: rest' => do
          readWords g given (← g.give (← g.fireAll settings u.flags) v text) rest'
        | _ => .error (.refused g.program (.noValue v.label))
  | w :: rest =>
    let run := w :: rest.takeWhile Word.isPlain
    let rest' := rest.dropWhile Word.isPlain
    match g.plain, given with
    | some set, false => readWords g true (set (plainTexts run) settings) rest'
    | _, _ => do
      return (← readWords g given settings rest').leaving (run.map Word.text)
termination_by words.length
decreasing_by
  all_goals simp_wf
  all_goals grind [List.dropWhile_suffix, List.IsSuffix.length_le]

/-- Reads the words of a command into settings. -/
def read {σ : Type} (g : Grammar σ) (settings : σ) (words : List String) :
    Except Stop (Result σ) :=
  match wordsOf g.flags words with
  | .error r => .error (.refused g.program r)
  | .ok ws => g.readWords false settings ws

end Grammar

/-! ## The name of the command -/

/-- A command by its name, with the words before it that are left over and the words after it. -/
structure Call where
  name : String
  leftOver : List String
  words : List String

/-- The first plain word of a command line and what follows it. Two dashes at the very end are no
command. -/
def commandAt {σ : Type} (g : Grammar σ) (settings : σ) :
    List (Word σ) → List String → Except Stop Call
  | w :: ws, s :: ss =>
    match w with
    | .unknown text => do
      let c ← commandAt g settings ws ss
      return { c with leftOver := text :: c.leftOver }
    | .flag f name value =>
      match unfold g.flags f name value with
      | .error r => .error (.refused g.program r)
      | .ok u => do
        let _ ← g.fireAll settings u.flags
        let c ← commandAt g settings ws ss
        return match u.ending with
          | .unknown text => { c with leftOver := text :: c.leftOver }
          | _ => c
    | .dashes =>
      if ss.isEmpty then .error (.refused g.program .noCommand) else .ok ⟨s, [], ss⟩
    | .plain _ => .ok ⟨s, [], ss⟩
  | _, _ => .error (.refused g.program .noCommand)

/-- The command that a command line calls. -/
def callOf {σ : Type} (g : Grammar σ) (settings : σ) (words : List String) : Except Stop Call :=
  match wordsOf g.flags words with
  | .error r => .error (.refused g.program r)
  | .ok ws => commandAt g settings ws words

end WebAudit.Command
