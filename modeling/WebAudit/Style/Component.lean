import WebAudit.Style.Token

/-!
# Components of style sheets

Tokens with their brackets matched. A closing bracket closes the innermost open one if it is of the
same kind, and is an error on its own if it is not; brackets still open at the end are closed there.
Comments are dropped. `components` keeps the open brackets on a stack and takes each token once.
-/

namespace WebAudit.Style

open Text (Position)

/-- A component: a token, a block in brackets, or a function with its arguments. -/
inductive Component where
  | token (place : Position) (t : Token)
  | block (place : Position) (b : Bracket) (content : List Component)
  | function (place : Position) (name : List Char) (arguments : List Component)

namespace Component

def place : Component → Position
  | token p _ => p
  | block p _ _ => p
  | function p _ _ => p

/-- Whether it is a blank. -/
def isSpace : Component → Bool
  | token _ (.space _) => true
  | _ => false

/-- Whether it is this delimiter. -/
def isLiteral (s : List Char) : Component → Bool
  | token _ (.literal t) => t == s
  | _ => false

/-- The content of a block in braces. -/
def curly? : Component → Option (List Component)
  | block _ .curly content => some content
  | _ => none

mutual

/-- How many components there are, inner ones included. -/
def size : Component → Nat
  | token _ _ => 1
  | block _ _ cs => sizeList cs + 1
  | function _ _ cs => sizeList cs + 1

/-- How many components a list has, inner ones included. -/
def sizeList : List Component → Nat
  | [] => 0
  | c :: cs => c.size + sizeList cs

end

theorem size_pos (c : Component) : 0 < c.size := by
  cases c <;> simp [size]

theorem sizeList_append (cs ds : List Component) :
    sizeList (cs ++ ds) = sizeList cs + sizeList ds := by
  induction cs with
  | nil => simp [sizeList]
  | cons c cs ih => simp [sizeList, ih, Nat.add_assoc]

theorem sizeList_curly? {c : Component} {content : List Component} (h : c.curly? = some content) :
    sizeList content + 1 = c.size := by
  cases c with
  | token p t => simp [curly?] at h
  | block p b cs => cases b <;> simp_all [curly?, size]
  | function p n cs => simp [curly?] at h

end Component

/-! ## Matching brackets -/

/-- What opened a bracket. -/
inductive Opener where
  | bracket (b : Bracket)
  | function (name : List Char)
deriving DecidableEq, Repr

/-- The bracket that closes it. -/
def Opener.closer : Opener → Bracket
  | bracket b => b
  | function _ => .round

/-- An open bracket with the components before it, latest first. -/
structure Frame where
  place : Position
  opener : Opener
  before : List Component

/-- The components read so far, latest first, inside the open brackets. -/
structure Nesting where
  current : List Component
  frames : List Frame

/-- Closes the innermost open bracket. -/
def Frame.close (f : Frame) (content : List Component) : List Component :=
  (match f.opener with
    | .bracket b => Component.block f.place b content.reverse
    | .function n => Component.function f.place n content.reverse) :: f.before

/-- Takes one more token. -/
def Nesting.add (s : Nesting) (t : Placed) : Nesting :=
  match t.token with
  | .comment => s
  | .opening b => ⟨[], ⟨t.place, .bracket b, s.current⟩ :: s.frames⟩
  | .function n => ⟨[], ⟨t.place, .function n, s.current⟩ :: s.frames⟩
  | .closing b =>
    match s.frames with
    | f :: fs =>
      if f.opener.closer == b then ⟨f.close s.current, fs⟩
      else { s with current := .token t.place t.token :: s.current }
    | [] => { s with current := .token t.place t.token :: s.current }
  | _ => { s with current := .token t.place t.token :: s.current }

/-- All components, the brackets still open closed at the end. -/
def closeAll (current : List Component) : List Frame → List Component
  | [] => current.reverse
  | f :: fs => closeAll (f.close current) fs

/-- The components of a style sheet. -/
def components (text : List Char) : List Component :=
  let s := (tokens text).foldl Nesting.add ⟨[], []⟩
  closeAll s.current s.frames

end WebAudit.Style
