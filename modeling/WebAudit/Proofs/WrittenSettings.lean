import WebAudit.Proofs.Settings

/-!
# Settings written out

The written form of a configuration has every setting with its value and says nothing about what was
supplied. Read back, all of it counts as supplied (`Config.validate_toJson`), and so as an override it
replaces the base in every part (`Config.merge_toJson`), where the configuration itself would leave to the
base what it does not supply. What the written form keeps is just the values (`Config.toJson_eq_iff`).
-/

namespace WebAudit.Config

/-- The configuration with the same values, all of them supplied. -/
def spelledOut (c : Config) : Config where
  rules := .given ⟨.given c.allowsLow, .given c.blocksFalse⟩
  ignore := .given c.ignored
  browsers := .given c.browserList

theorem sameValues_spelledOut (c : Config) : c.spelledOut.SameValues c :=
  ⟨rfl, rfl, rfl, rfl⟩

/-! ## Reading what was written -/

theorem strings_map_str (place : List String) (index : Nat) (ss : List String) :
    strings place index (ss.map Json.str) = .ok ss := by
  induction ss generalizing index with
  | nil => rfl
  | cons s ss ih =>
    rw [List.map_cons, strings, ih]
    rfl

theorem stringList_map_str (place ss : List String) :
    stringList place (.arr (ss.map Json.str)) = .ok ss :=
  strings_map_str place 0 ss

/-- Browsers that are not named are written as null, and null is read as none named. -/
theorem browsersOfJson_written (browsers : Option (List String)) :
    browsersOfJson ((browsers.map fun bs => Json.arr (bs.map Json.str)).getD .null) = .ok browsers := by
  cases browsers with
  | none => rfl
  | some bs =>
    show (stringList ["browsers"] (.arr (bs.map Json.str))).map some = .ok (some bs)
    rw [stringList_map_str]
    rfl

/-- **Reading the written form gives all values back, as supplied ones.** -/
theorem validate_toJson (c : Config) : validate c.toJson = .ok c.spelledOut := by
  have hrules : rulesOfJson (.obj [("allowLow", .bool c.allowsLow), ("blockFalse", .bool c.blocksFalse)])
      = .ok ⟨.given c.allowsLow, .given c.blocksFalse⟩ := rfl
  have hignore : stringList ["ignore"] (.arr (c.ignored.map Json.str)) = .ok c.ignored :=
    stringList_map_str ["ignore"] c.ignored
  have hbrowsers := browsersOfJson_written c.browserList
  have hparts : ∀ rules ignore browsers,
      ofFields [("rules", rules), ("ignore", ignore), ("browsers", browsers)]
        = (both ((rulesOfJson rules).map some)
            (both ((stringList ["ignore"] ignore).map some) ((browsersOfJson browsers).map some))).map
          fun p => ⟨.ofOption {} p.1, .ofOption [] p.2.1, .ofOption none p.2.2⟩ := fun _ _ _ => rfl
  rw [toJson, validate, settings?]
  simp only [hparts, hrules, hignore, hbrowsers]
  rfl

/-! ## The written form as an override -/

/-- What supplies everything leaves nothing to the base. -/
theorem spelledOut_overlaying (c base : Config) : c.spelledOut.overlaying base = c.spelledOut := rfl

theorem merge_toJson (c base : Config) : merge (.json c.toJson) base = (c.spelledOut, 0) := by
  have hmerge : mergeJson c.toJson base = (c.spelledOut.overlaying base, 0) := by
    have hvalid := validate_toJson c
    rw [toJson] at hvalid ⊢
    simp only [mergeJson, hvalid]
  rw [merge, hmerge, spelledOut_overlaying]

/-! ## What is written -/

theorem SameValues.toJson_eq {a b : Config} (h : a.SameValues b) : a.toJson = b.toJson := by
  rw [toJson, toJson, h.allowsLow, h.blocksFalse, h.ignored, h.browserList]

/-- **Two configurations are written alike if and only if they agree in all values.** -/
theorem toJson_eq_iff (a b : Config) : a.toJson = b.toJson ↔ a.SameValues b := by
  constructor
  · intro h
    have hread : validate a.toJson = .ok b.spelledOut := by rw [h, validate_toJson]
    have hsame : a.spelledOut = b.spelledOut := Except.ok.inj ((validate_toJson a).symm.trans hread)
    have ha : b.spelledOut.SameValues a := hsame ▸ sameValues_spelledOut a
    have hb : b.spelledOut.SameValues b := sameValues_spelledOut b
    exact ⟨ha.allowsLow.symm.trans hb.allowsLow, ha.blocksFalse.symm.trans hb.blocksFalse,
      ha.ignored.symm.trans hb.ignored, ha.browserList.symm.trans hb.browserList⟩
  · exact SameValues.toJson_eq

/-- **The written form of a configuration stands for its values.** Whatever way the configuration was come
by, the written form is valid and is read as a configuration with the same values, all of them supplied. As
an override it gives these values over every base, without a warning. Another configuration is written in
the same way just if it has the same values, so what was read back is written as before. -/
theorem written_form_restores_values (c : Config) :
    ∃ c', validate c.toJson = .ok c'
      ∧ c'.SameValues c
      ∧ (∀ base, merge (.json c.toJson) base = (c', 0))
      ∧ (c'.rules.supplied = true ∧ c'.rules.value.allowLow.supplied = true
        ∧ c'.rules.value.blockFalse.supplied = true ∧ c'.ignore.supplied = true
        ∧ c'.browsers.supplied = true)
      ∧ ∀ d : Config, d.toJson = c.toJson ↔ d.SameValues c :=
  ⟨c.spelledOut, validate_toJson c, sameValues_spelledOut c, merge_toJson c,
    ⟨rfl, rfl, rfl, rfl, rfl⟩, fun d => toJson_eq_iff d c⟩

/-- The default leaves a base as it is, but its written form replaces it. -/
example :
    let base : Config := { rules := .given { allowLow := .given true }, browsers := .given (some ["safari"]) }
    (merge (.config default) base).1 = base
      ∧ (merge (.json default.toJson) base).1.allowsLow = false
      ∧ (merge (.json default.toJson) base).1.browserList = none := by
  decide

end WebAudit.Config
