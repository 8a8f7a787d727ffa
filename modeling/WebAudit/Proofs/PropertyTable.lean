import WebAudit.Style.Detect

/-!
# Which line of the property table decides

The first line of the table that fits a property and a value decides. A line *covers* another one of the
same property if its keyword is contained in the other's: it then fits wherever the other one does
(`covers_iff`). A line that comes after one that covers it decides nothing, whatever the value, and the
table is the same without it (`find?_of_covered`). If no line comes after one that covers it, the line
with the more specific keyword always wins (`eq_of_find?_of_covers`).

In the table of properties that is so for all properties but `display`, whose line for `grid` comes
before its line for `subgrid`.
-/

namespace WebAudit.Style

open scoped List

namespace PropertyRule

/-- The keyword that a rule looks for in a value; the empty one if any value will do. -/
def sought (r : PropertyRule) : List Char :=
  (r.keyword.getD "").toList

/-- One rule covers another: it is for the same property, and its keyword is contained in the other's. -/
def Covers (r s : PropertyRule) : Prop :=
  r.property = s.property ∧ r.sought <:+: s.sought

instance (r s : PropertyRule) : Decidable (r.Covers s) :=
  decidable_of_iff (r.property = s.property ∧ Text.occursIn r.sought s.sought = true)
    (and_congr_right fun _ => Text.occursIn_iff _ _)

theorem fits_iff {r : PropertyRule} {property value : String} :
    r.fits property value = true ↔ r.property = property ∧ r.sought <:+: value.toList := by
  rw [fits, Bool.and_eq_true, beq_iff_eq]
  refine and_congr_right fun _ => ?_
  cases h : r.keyword with
  | none => simp [sought, h]
  | some k => simp [sought, h, Text.occursIn_iff]

/-- **One rule covers another just if it fits wherever the other one does.** -/
theorem covers_iff {r s : PropertyRule} :
    r.Covers s ↔ ∀ property value, s.fits property value = true → r.fits property value = true := by
  constructor
  · rintro ⟨hproperty, hsought⟩ property value h
    obtain ⟨hs, hvalue⟩ := fits_iff.mp h
    exact fits_iff.mpr ⟨hproperty.trans hs, hsought.trans hvalue⟩
  · intro h
    have hfits := h s.property (String.ofList s.sought) (fits_iff.mpr ⟨rfl, by simp⟩)
    rw [fits_iff, String.toList_ofList] at hfits
    exact hfits

end PropertyRule

variable {rules : List PropertyRule} {r s : PropertyRule} {property value : String}

/-- **A rule behind one that covers it decides nothing.** -/
theorem find?_of_covered {before : List PropertyRule} (hr : r ∈ before) (h : r.Covers s)
    (after : List PropertyRule) (property value : String) :
    (before ++ s :: after).find? (·.fits property value)
      = (before ++ after).find? (·.fits property value) := by
  rw [List.find?_append, List.find?_append]
  by_cases hs : s.fits property value = true
  · -- the covering rule fits too, so the search ends before it comes to `s`
    have hsome : (before.find? (·.fits property value)).isSome = true :=
      List.find?_isSome.mpr ⟨r, hr, PropertyRule.covers_iff.mp h property value hs⟩
    obtain ⟨t, ht⟩ := Option.isSome_iff_exists.mp hsome
    rw [ht, Option.some_or, Option.some_or]
  · rw [List.find?_cons_of_neg (p := fun t : PropertyRule => t.fits property value) hs]

/-- **Where no rule stands behind one that covers it, the more specific rule wins.** -/
theorem eq_of_find?_of_covers
    (horder : rules.Pairwise fun t u => t.property = property → t.Covers u → t = u)
    (hs : s ∈ rules) (hfits : s.fits property value = true)
    (hr : rules.find? (·.fits property value) = some r) (h : r.Covers s) : r = s := by
  obtain ⟨hrfits, before, after, rfl, hbefore⟩ := List.find?_eq_some_iff_append.mp hr
  have hproperty : r.property = property := (PropertyRule.fits_iff.mp hrfits).1
  rcases List.mem_append.mp hs with hmem | hmem
  · exact absurd hfits (by simpa using hbefore s hmem)
  · rcases List.mem_cons.mp hmem with rfl | hmem
    · rfl
    · have hlater := (List.pairwise_append.mp horder).2.1
      exact (List.pairwise_cons.mp hlater).1 s hmem hproperty h

/-- So a rule that all rules of its property cover decides wherever it fits. -/
theorem find?_of_covered_by_all
    (horder : rules.Pairwise fun t u => t.property = property → t.Covers u → t = u)
    (hs : s ∈ rules) (hfits : s.fits property value = true)
    (hall : ∀ t ∈ rules, t.property = property → t.Covers s) :
    rules.find? (·.fits property value) = some s := by
  have hsome : (rules.find? (·.fits property value)).isSome = true :=
    List.find?_isSome.mpr ⟨s, hs, hfits⟩
  obtain ⟨r, hr⟩ := Option.isSome_iff_exists.mp hsome
  have hrfits : r.fits property value = true := by simpa using List.find?_some hr
  have hproperty : r.property = property := (PropertyRule.fits_iff.mp hrfits).1
  have hcovers : r.Covers s := hall r (List.mem_of_find?_eq_some hr) hproperty
  rw [hr, eq_of_find?_of_covers horder hs hfits hr hcovers]

/-! ## The table of properties -/

/-- The line for `display` with `grid`, the first of the table. -/
def displayGrid : PropertyRule :=
  ⟨"display", some "grid", "css-display"⟩

/-- The line for `display` with `subgrid`, the second one. -/
def displaySubgrid : PropertyRule :=
  ⟨"display", some "subgrid", "css-subgrid"⟩

/-- Behind a rule of another property than `display` stands none that it covers. -/
theorem pairwise_propertyRules : propertyRules.Pairwise fun t u =>
    t.property ≠ "display" → t.Covers u → t = u := by
  decide

theorem find?_display (h : "grid".toList <:+: value.toList) :
    propertyRules.find? (·.fits "display" value) = some displayGrid := by
  have hfits : displayGrid.fits "display" value = true := PropertyRule.fits_iff.mpr ⟨rfl, h⟩
  exact List.find?_cons_of_pos hfits

/-- **The more specific keyword wins for every property but `display`.** A value with `subgrid` belongs
to the feature of subgrids for the two properties of grid tracks, and to that of grids for `display`. The
line of `display` for `subgrid` never decides: without it the table gives the same answers. -/
theorem specific_keyword_wins_but_for_display (property value : String) :
    let p := Text.lower property
    let v := Text.lower value
    (p ≠ "display" → ∀ s ∈ propertyRules, s.fits p v = true →
        ∀ r, propertyRules.find? (·.fits p v) = some r → r.Covers s → r = s)
      ∧ ("subgrid".toList <:+: v.toList →
        (p = "grid-template-columns" ∨ p = "grid-template-rows" →
            propertyFeature? property value = some "css-subgrid")
          ∧ (p = "display" → propertyFeature? property value = some "css-display"))
      ∧ displaySubgrid ∈ propertyRules
      ∧ propertyFeature? property value
        = ((propertyRules.erase displaySubgrid).find? (·.fits p v)).map (·.featureId) := by
  intro p v
  have horder (hp : p ≠ "display") :
      propertyRules.Pairwise fun t u => t.property = p → t.Covers u → t = u :=
    pairwise_propertyRules.imp fun h ht => h fun hdisplay => hp (ht.symm.trans hdisplay)
  refine ⟨?_, fun hv => ⟨?_, ?_⟩, ?_, ?_⟩
  · intro hp s hs hfits r hr
    exact eq_of_find?_of_covers (horder hp) hs hfits hr
  · have decides (s : PropertyRule) (hs : s ∈ propertyRules) (hp : s.property = p)
        (hdisplay : s.property ≠ "display") (hsought : s.sought = "subgrid".toList)
        (hall : ∀ t ∈ propertyRules, t.property = s.property → t.Covers s) :
        propertyFeature? property value = some s.featureId := by
      have hfits : s.fits p v = true := by
        rw [PropertyRule.fits_iff, hsought]
        exact ⟨hp, hv⟩
      have hfind := find?_of_covered_by_all (horder (hp ▸ hdisplay)) hs hfits (hp ▸ hall)
      rw [propertyFeature?, hfind, Option.map_some]
    rintro (hp | hp)
    · exact decides ⟨"grid-template-columns", some "subgrid", "css-subgrid"⟩ (by decide) hp.symm
        (by decide) (by decide) (by decide)
    · exact decides ⟨"grid-template-rows", some "subgrid", "css-subgrid"⟩ (by decide) hp.symm
        (by decide) (by decide) (by decide)
  · intro hp
    have hgrid : "grid".toList <:+: "subgrid".toList := ⟨"sub".toList, [], by decide⟩
    have hfind := find?_display (hgrid.trans hv)
    rw [propertyFeature?, show Text.lower property = "display" from hp, hfind]
    rfl
  · decide
  · have hcovers : displayGrid.Covers displaySubgrid := by decide
    exact congrArg (Option.map (·.featureId))
      (find?_of_covered (List.mem_singleton_self displayGrid) hcovers _ p v)

/-- Two properties with the same value, in other letter cases than the table has. -/
theorem specific_keyword_wins_but_for_display_in_capitals :
    propertyFeature? "Grid-Template-Rows" "SUBGRID" = some "css-subgrid"
      ∧ propertyFeature? "Display" "SUBGRID" = some "css-display" := by
  have hv : "subgrid".toList <:+: (Text.lower "SUBGRID").toList := ⟨[], [], by decide⟩
  have hrows := ((specific_keyword_wins_but_for_display "Grid-Template-Rows" "SUBGRID").2.1 hv).1
  have hdisplay := ((specific_keyword_wins_but_for_display "Display" "SUBGRID").2.1 hv).2
  exact ⟨hrows (.inr (by decide)), hdisplay (by decide)⟩

end WebAudit.Style
