import WebAudit.Proofs.ConfigProblems
import WebAudit.Proofs.Remerging

/-!
# Laws of merging

Layers of settings come to the same whichever way they are grouped. This holds for single settings,
hence for the rules flag by flag, and for whole configurations as long as rules that were not
supplied have no flag that was. A layer counts once, and one with a flaw in a single setting not at
all.
-/

namespace WebAudit

/-! ## Single settings -/

namespace Setting

variable {α : Type}

theorem overlaying_of_supplied {s : Setting α} (h : s.supplied = true) (base : Setting α) :
    s.overlaying base = s := if_pos h

theorem overlaying_of_not_supplied {s : Setting α} (h : s.supplied = false) (base : Setting α) :
    s.overlaying base = base := by
  rw [overlaying, h]
  rfl

theorem overlaying_assoc (c b a : Setting α) :
    (c.overlaying b).overlaying a = c.overlaying (b.overlaying a) := by
  cases h : c.supplied with
  | true => rw [overlaying_of_supplied h, overlaying_of_supplied h, overlaying_of_supplied h]
  | false => rw [overlaying_of_not_supplied h, overlaying_of_not_supplied h]

theorem overlaying_overlaying_self (c a : Setting α) :
    c.overlaying (c.overlaying a) = c.overlaying a := by
  cases h : c.supplied with
  | true => rw [overlaying_of_supplied h, overlaying_of_supplied h]
  | false => rw [overlaying_of_not_supplied h]

end Setting

/-! ## Rules -/

namespace Rules

theorem overlaying_assoc (c b a : Rules) :
    (c.overlaying b).overlaying a = c.overlaying (b.overlaying a) := by
  simp only [overlaying, Setting.overlaying_assoc]

theorem overlaying_overlaying_self (c a : Rules) : c.overlaying (c.overlaying a) = c.overlaying a := by
  simp only [overlaying, Setting.overlaying_overlaying_self]

end Rules

/-! ## Configurations -/

namespace Config

/-- The rules that a configuration supplies. -/
def suppliedRules (c : Config) : Rules :=
  if c.rules.supplied then c.rules.value else {}

theorem Settled.suppliedRules {c : Config} (h : c.Settled) : c.suppliedRules = c.rules.value := by
  unfold Config.suppliedRules
  cases hs : c.rules.supplied with
  | true => rfl
  | false => exact (h.rules hs).symm

/-- Whether or not rules are supplied, it is those that are supplied that are merged. -/
theorem rules_overlaying (c a : Config) :
    (c.overlaying a).rules = .given (c.suppliedRules.overlaying a.rules.value) := by
  unfold overlaying Config.suppliedRules
  cases c.rules.supplied with
  | true => rfl
  | false => rfl

/-- **Layers can be grouped either way.** The layer in the middle has to be settled: what it does not
supply is not looked at when it is the base. -/
theorem overlaying_assoc {b : Config} (hb : b.Settled) (c a : Config) :
    (c.overlaying b).overlaying a = c.overlaying (b.overlaying a) := by
  have hrules : ((c.overlaying b).overlaying a).rules = (c.overlaying (b.overlaying a)).rules := by
    rw [rules_overlaying, rules_overlaying c, rules_overlaying b, hb.suppliedRules]
    -- merged rules always count as supplied
    have hmerged : (c.overlaying b).suppliedRules = c.suppliedRules.overlaying b.rules.value := by
      rw [Config.suppliedRules, rules_overlaying]
      rfl
    rw [hmerged, Rules.overlaying_assoc]
    rfl
  have hignore : ((c.overlaying b).overlaying a).ignore = (c.overlaying (b.overlaying a)).ignore :=
    Setting.overlaying_assoc c.ignore b.ignore a.ignore
  have hbrowsers : ((c.overlaying b).overlaying a).browsers
      = (c.overlaying (b.overlaying a)).browsers :=
    Setting.overlaying_assoc c.browsers b.browsers a.browsers
  rw [Config.mk.injEq]
  exact ⟨hrules, hignore, hbrowsers⟩

/-- A layer laid on twice counts once. -/
theorem overlaying_overlaying_self (c a : Config) : c.overlaying (c.overlaying a) = c.overlaying a := by
  have hrules : (c.overlaying (c.overlaying a)).rules = (c.overlaying a).rules := by
    rw [rules_overlaying, rules_overlaying]
    exact congrArg Setting.given (Rules.overlaying_overlaying_self c.suppliedRules a.rules.value)
  have hignore : (c.overlaying (c.overlaying a)).ignore = (c.overlaying a).ignore :=
    Setting.overlaying_overlaying_self c.ignore a.ignore
  have hbrowsers : (c.overlaying (c.overlaying a)).browsers = (c.overlaying a).browsers :=
    Setting.overlaying_overlaying_self c.browsers a.browsers
  rw [Config.mk.injEq]
  exact ⟨hrules, hignore, hbrowsers⟩

/-- The default as a layer changes no value. -/
theorem sameValues_default_overlaying (a : Config) : (default.overlaying a).SameValues a :=
  ⟨rfl, rfl, rfl, rfl⟩

/-- The rules of a settled layer and, flag by flag, those of the base. -/
theorem Settled.rules_overlaying {c : Config} (h : c.Settled) (a : Config) :
    (c.overlaying a).rules.value = c.rules.value.overlaying a.rules.value := by
  rw [Config.rules_overlaying, h.suppliedRules]
  rfl

/-- An override with a flaw in any setting is left out as a whole. -/
theorem merge_of_flaw {v : Json} {fs : Json.Fields} {p : Problem} (hv : settings? v = some fs)
    (hp : Flaw fs p) (base : Config) : merge (.json v) base = (base, 1) := by
  obtain ⟨ps, hps, -⟩ := validate_of_flaw hv hp
  cases v with
  | null => cases hv
  | _ => simp only [merge, mergeJson, hps]

/-- Merging configurations is associative and takes a layer once, down to what counts as supplied. The
default changes no value. Every setting, and every flag of the rules, comes from the layer that
supplies it and else from the base. An override in which any setting has a flaw changes nothing, and
raises one warning. -/
theorem merging_by_layers {b c : Config} (hb : b.Obtained) (hc : c.Obtained) (a : Config) :
    let join (x y : Config) : Config := (merge (.config x) y).1
    merge (.config (join c b)) a = merge (.config c) (join b a)
      ∧ merge (.config c) (join c a) = merge (.config c) a
      ∧ (join default a).SameValues a
      ∧ ((join c a).rules.value.allowLow = if c.rules.value.allowLow.supplied then
          c.rules.value.allowLow else a.rules.value.allowLow)
      ∧ ((join c a).rules.value.blockFalse = if c.rules.value.blockFalse.supplied then
          c.rules.value.blockFalse else a.rules.value.blockFalse)
      ∧ ((join c a).ignore = if c.ignore.supplied then c.ignore else a.ignore)
      ∧ ((join c a).browsers = if c.browsers.supplied then c.browsers else a.browsers)
      ∧ (∀ v, (∃ ps, validate v = .error (.invalid ps))
          ↔ ∃ fs p, settings? v = some fs ∧ Flaw fs p)
      ∧ ∀ v fs p, settings? v = some fs → Flaw fs p → merge (.json v) a = (a, 1) := by
  intro join
  have hrules : (join c a).rules.value = c.rules.value.overlaying a.rules.value :=
    hc.settled.rules_overlaying a
  refine ⟨?_, ?_, sameValues_default_overlaying a, ?_, ?_, rfl, rfl, fun v => ⟨?_, ?_⟩, ?_⟩
  · exact congrArg (·, 0) (overlaying_assoc hb.settled c a)
  · exact congrArg (·, 0) (overlaying_overlaying_self c a)
  · rw [hrules]
    rfl
  · rw [hrules]
    rfl
  · rintro ⟨ps, hps⟩
    exact exists_flaw_of_validate hps
  · rintro ⟨fs, p, hfs, hp⟩
    obtain ⟨ps, hps, -⟩ := validate_of_flaw hfs hp
    exact ⟨ps, hps⟩
  · intro v fs p hfs hp
    exact merge_of_flaw hfs hp a

/-- Three layers, each with a flag or a list of its own, and an override with one word that stands for
no truth value. -/
theorem merging_by_layers_of_three :
    let c : Config := { rules := .given { allowLow := .given true } }
    let b : Config := { rules := .given { blockFalse := .given false }, browsers := .given none }
    let a : Config := { ignore := .given ["grid"], browsers := .given (some ["safari"]) }
    let flawed : Json.Fields := [("ignore", .arr []), ("rules", .obj [("allow_low", .str "maybe")])]
    let m := (merge (.config c) (merge (.config b) a).1).1
    m = (merge (.config (merge (.config c) b).1) a).1
      ∧ m.allowsLow = true ∧ m.blocksFalse = false ∧ m.ignored = ["grid"] ∧ m.browserList = none
      ∧ merge (.json (.obj flawed)) a = (a, 1) := by
  intro c b a flawed m
  have hvalid : validate (.obj [("rules", .obj [("allowLow", .bool true)])]) = .ok c := rfl
  have hvalid' : validate (.obj [("rules", .obj [("block_false", .str "No")]), ("browsers", .null)])
      = .ok b := by decide +kernel
  obtain ⟨hassoc, -, -, -, -, -, -, -, hflawed⟩ :=
    merging_by_layers (.validated hvalid') (.validated hvalid) a
  have hword : truthValue (.str "maybe") = .error .boolParsing := by decide +kernel
  have hflaw : Flaw flawed ⟨["rules", "allow_low"], .boolParsing⟩ := .rule rfl (.head _) rfl hword
  exact ⟨(congrArg Prod.fst hassoc).symm, rfl, rfl, rfl, rfl,
    hflawed (.obj flawed) flawed _ rfl hflaw⟩

end Config

end WebAudit
