import WebAudit.Checked
import WebAudit.Config.Basic

/-!
# Validating configurations

Reading a configuration from a JSON value of any shape. Every setting that cannot be used is
reported as a problem with its place, in the order of the settings; unknown settings are passed
over. Values that clearly mean yes or no are taken for truth values.
-/

namespace WebAudit.Config

/-! ## Problems -/

/-- What is wrong with a value. -/
inductive ProblemKind where
  | boolParsing
  | boolType
  | stringType
  | listType
  | rulesType
deriving DecidableEq, Repr

/-- The name of a kind of problem. -/
def ProblemKind.name : ProblemKind → String
  | .boolParsing => "bool_parsing"
  | .boolType => "bool_type"
  | .stringType => "string_type"
  | .listType => "list_type"
  | .rulesType => "model_type"

/-- A kind of problem in words. -/
def ProblemKind.message : ProblemKind → String
  | .boolParsing => "Input should be a valid boolean, unable to interpret input"
  | .boolType => "Input should be a valid boolean"
  | .stringType => "Input should be a valid string"
  | .listType => "Input should be a valid list"
  | .rulesType => "Input should be a valid dictionary or instance of RulesConfig"

/-- A problem and the keys and indices that lead to it. -/
structure Problem where
  place : List String
  kind : ProblemKind
deriving DecidableEq, Repr

/-- A problem in words, after its place. -/
def Problem.message (p : Problem) : String :=
  ".".intercalate p.place ++ ": " ++ p.kind.message

/-- Why a value is no configuration. -/
inductive ConfigError where
  /-- The value has no settings at all. -/
  | noSettings
  | invalid (problems : List Problem)
deriving DecidableEq, Repr

/-- The error in words. -/
def ConfigError.message : ConfigError → String
  | .noSettings => "Invalid baseline configuration: not a mapping"
  | .invalid ps => "Invalid baseline configuration: " ++ "; ".intercalate (ps.map Problem.message)

/-! ## Values -/

/-- A value that is wrong. -/
def wrong {α : Type} (place : List String) (kind : ProblemKind) : Checked Problem α :=
  .error [⟨place, kind⟩]

/-- The truth value that a word stands for, in any case. -/
def boolOfWord? (s : String) : Option Bool :=
  let w := String.ofList (s.toList.map Char.toLower)
  if ["0", "f", "n", "no", "off", "false"].contains w then some false
  else if ["1", "t", "y", "yes", "on", "true"].contains w then some true
  else none

/-- The truth value that a whole number stands for. -/
def boolOfInt? (n : Int) : Option Bool :=
  if n == 0 then some false else if n == 1 then some true else none

/-- A truth value, or a word or number that stands for one. -/
def truthValue (v : Json) : Except ProblemKind Bool :=
  match v with
  | .bool b => .ok b
  | .str s => (boolOfWord? s).elim (.error .boolParsing) .ok
  | .int n =>
    if -(Nat.pow 2 63 : Int) ≤ n && n < Nat.pow 2 63 then (boolOfInt? n).elim (.error .boolParsing) .ok
    else .error .boolType
  | .float x =>
    match x.toInt? with
    | some n =>
      if -(Nat.pow 2 63 : Int) < n && n < Nat.pow 2 63 then (boolOfInt? n).elim (.error .boolParsing) .ok
      else .error .boolType
    | none => .error .boolType
  | _ => .error .boolType

/-- A truth value at a place. -/
def boolOfJson (place : List String) (v : Json) : Checked Problem Bool :=
  match truthValue v with
  | .ok b => .ok b
  | .error k => wrong place k

/-- The texts of a list, from an index on. -/
def strings (place : List String) (index : Nat) : List Json → Checked Problem (List String)
  | [] => .ok []
  | v :: vs =>
    let head := match v with
      | .str s => .ok s
      | _ => wrong (place ++ [toString index]) .stringType
    (both head (strings place (index + 1) vs)).map fun p => p.1 :: p.2

/-- A list of texts. -/
def stringList (place : List String) (v : Json) : Checked Problem (List String) :=
  match v with
  | .arr vs => strings place 0 vs
  | _ => wrong place .listType

/-- A setting that may be absent. -/
def optional {α : Type} (v : Option Json) (read : Json → Checked Problem α) : Checked Problem (Option α) :=
  match v with
  | some v => (read v).map some
  | none => .ok none

/-- The value under the first of two keys that is present, with that key. -/
def eitherKey (fs : Json.Fields) (a b : String) : Option (String × Json) :=
  match Json.Fields.get? fs a with
  | some v => some (a, v)
  | none => (Json.Fields.get? fs b).map fun v => (b, v)

/-- A rule under one of its two keys. -/
def rule (fs : Json.Fields) (a b : String) : Checked Problem (Option Bool) :=
  match eitherKey fs a b with
  | some (k, v) => (boolOfJson ["rules", k] v).map some
  | none => .ok none

/-- The rules. -/
def rulesOfJson (v : Json) : Checked Problem Rules :=
  match v with
  | .obj fs =>
    (both (rule fs "allowLow" "allow_low") (rule fs "blockFalse" "block_false")).map
      fun p => ⟨.ofOption false p.1, .ofOption true p.2⟩
  | _ => wrong ["rules"] .rulesType

/-- The browsers, or null. -/
def browsersOfJson (v : Json) : Checked Problem (Option (List String)) :=
  match v with
  | .null => .ok none
  | v => (stringList ["browsers"] v).map some

/-! ## Settings -/

/-- Whether a value can be a key. -/
def isKey : Json → Bool
  | .arr _ => false
  | .obj _ => false
  | _ => true

/-- The two values of a pair: a list of two, a text of two characters, or the keys of an object with
two fields. -/
def pair? : Json → Option (Json × Json)
  | .arr [a, b] => some (a, b)
  | .str s =>
    match s.toList with
    | [a, b] => some (.str a.toString, .str b.toString)
    | _ => none
  | .obj [(a, _), (b, _)] => some (.str a, .str b)
  | _ => none

/-- The fields that a list of pairs gives. The last value under a key wins; keys that are no texts
are dropped. -/
def fieldsOfPairs? (fs : Json.Fields) : List Json → Option Json.Fields
  | [] => some fs
  | p :: ps =>
    match pair? p with
    | some (.str k, v) => fieldsOfPairs? (Json.Fields.set fs k v) ps
    | some (k, _) => if isKey k then fieldsOfPairs? fs ps else none
    | none => none

/-- The settings in a value: an object, or a list of pairs. -/
def settings? : Json → Option Json.Fields
  | .obj fs => some fs
  | .arr ps => fieldsOfPairs? [] ps
  | .str "" => some []
  | _ => none

/-- The configuration in the fields of an object. -/
def ofFields (fs : Json.Fields) : Checked Problem Config :=
  (both (optional (Json.Fields.get? fs "rules") rulesOfJson)
    (both (optional (Json.Fields.get? fs "ignore") (stringList ["ignore"]))
      (optional (Json.Fields.get? fs "browsers") browsersOfJson))).map
    fun p => ⟨.ofOption {} p.1, .ofOption [] p.2.1, .ofOption none p.2.2⟩

/-- The configuration in a JSON value. -/
def validate (v : Json) : Except ConfigError Config :=
  match settings? v with
  | none => .error .noSettings
  | some fs =>
    match ofFields fs with
    | .ok c => .ok c
    | .error ps => .error (.invalid ps)

/-! ## Overrides -/

/-- A configuration with an override in any JSON value. An override that cannot be used changes
nothing and raises a warning; null is no override. -/
def mergeJson (override : Json) (base : Config) : Config × Nat :=
  match override with
  | .null => (base, 0)
  | v =>
    match validate v with
    | .ok c => (c.overlaying base, 0)
    | .error _ => (base, 1)

/-- What a configuration can be overridden with. -/
inductive Override where
  | json (v : Json)
  | config (c : Config)

/-- A configuration with an override, and the number of warnings. -/
def merge : Override → Config → Config × Nat
  | .json v, base => mergeJson v base
  | .config c, base => (c.overlaying base, 0)

end WebAudit.Config
