import WebAudit.Json.Basic

/-!
# Configurations

A configuration says which features are ignored and which statuses count as risky. Each setting has
a value and a note on whether it was supplied. Configurations are merged by these notes and not by
the values: what the overlay supplies wins over the base.
-/

namespace WebAudit

/-- A setting: its value, and whether it was supplied. -/
structure Setting (α : Type) where
  value : α
  supplied : Bool
deriving DecidableEq, Repr

namespace Setting

variable {α : Type}

/-- A setting that is left to its default. -/
def unset (default : α) : Setting α :=
  ⟨default, false⟩

/-- A setting that is supplied. -/
def given (value : α) : Setting α :=
  ⟨value, true⟩

/-- A setting that is supplied if there is a value for it. -/
def ofOption (default : α) : Option α → Setting α
  | some value => given value
  | none => unset default

/-- The setting of an overlay if it is supplied there, and else that of the base. -/
def overlaying (overlay base : Setting α) : Setting α :=
  if overlay.supplied then overlay else base

end Setting

/-- The rules for statuses. -/
structure Rules where
  /-- Whether features that are new in all browsers are accepted; by default not. -/
  allowLow : Setting Bool := .unset false
  /-- Whether features that are not in all browsers are refused; by default so. -/
  blockFalse : Setting Bool := .unset true
deriving DecidableEq, Repr

/-- A configuration. -/
structure Config where
  rules : Setting Rules := .unset {}
  /-- The features that are not looked at. -/
  ignore : Setting (List String) := .unset []
  /-- The browsers that matter; reserved. -/
  browsers : Setting (Option (List String)) := .unset none
deriving DecidableEq, Repr

namespace Config

/-- The configuration that supplies nothing. -/
def default : Config :=
  {}

/-! ## Values -/

/-- Whether features that are new in all browsers are accepted. -/
def allowsLow (c : Config) : Bool :=
  c.rules.value.allowLow.value

/-- Whether features that are not in all browsers are refused. -/
def blocksFalse (c : Config) : Bool :=
  c.rules.value.blockFalse.value

/-- The ignored features. -/
def ignored (c : Config) : List String :=
  c.ignore.value

/-- The browsers that matter, if any are named. -/
def browserList (c : Config) : Option (List String) :=
  c.browsers.value

/-- All settings with their values. -/
def toJson (c : Config) : Json :=
  .obj [("rules", .obj [("allowLow", .bool c.allowsLow), ("blockFalse", .bool c.blocksFalse)]),
    ("ignore", .arr (c.ignored.map Json.str)),
    ("browsers", (c.browserList.map fun bs => Json.arr (bs.map Json.str)).getD .null)]

/-! ## Merging -/

end Config

/-- The rules of an overlay, and those of the base where it has none. -/
def Rules.overlaying (overlay base : Rules) : Rules where
  allowLow := overlay.allowLow.overlaying base.allowLow
  blockFalse := overlay.blockFalse.overlaying base.blockFalse

namespace Config

/-- The settings of an overlay, and those of the base where it has none. The rules are merged one by
one, and as a whole count as supplied. -/
def overlaying (overlay base : Config) : Config where
  rules := .given (if overlay.rules.supplied then
      overlay.rules.value.overlaying base.rules.value
    else base.rules.value)
  ignore := overlay.ignore.overlaying base.ignore
  browsers := overlay.browsers.overlaying base.browsers

end Config

end WebAudit
