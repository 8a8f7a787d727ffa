import WebAudit.Config.Load
import WebAudit.Proofs.Outcome

/-!
# Settings that were not supplied

Merging asks which settings were supplied and never what their values are, so a value that differs
from the default without being marked as supplied would be lost. `Config.Settled` says that there is
no such value. Every way to come by a configuration keeps it (`Config.Obtained.settled`), and a
configuration that has it can be merged over the default without a change
(`Config.Settled.sameValues_overlaying_default`).
-/

namespace WebAudit

/-! ## Single settings -/

/-- A setting that was not supplied has its default value. -/
def Setting.Settled {α : Type} (default : α) (s : Setting α) : Prop :=
  s.supplied = false → s.value = default

namespace Setting

variable {α : Type} {d : α} {s base : Setting α}

theorem settled_unset (d : α) : (unset d).Settled d := fun _ => rfl

theorem settled_given (d v : α) : (given v).Settled d := fun h => by cases h

theorem settled_ofOption (d : α) (o : Option α) : (ofOption d o).Settled d := by
  cases o with
  | none => exact settled_unset d
  | some v => exact settled_given d v

theorem Settled.overlaying (hs : s.Settled d) (hb : base.Settled d) :
    (s.overlaying base).Settled d := by
  unfold Setting.overlaying
  split
  · exact hs
  · exact hb

/-- Over a default that was not supplied, a settled setting keeps its value. -/
theorem Settled.value_overlaying_unset (hs : s.Settled d) :
    (s.overlaying (unset d)).value = s.value := by
  unfold Setting.overlaying
  cases h : s.supplied with
  | true => rfl
  | false => exact (hs h).symm

end Setting

/-! ## Rules and configurations -/

/-- Rules that were not supplied have their default. -/
structure Rules.Settled (r : Rules) : Prop where
  allowLow : r.allowLow.Settled false
  blockFalse : r.blockFalse.Settled true

theorem Rules.settled_default : Rules.Settled {} :=
  ⟨Setting.settled_unset _, Setting.settled_unset _⟩

theorem Rules.Settled.overlaying {r base : Rules} (hr : r.Settled) (hb : base.Settled) :
    (r.overlaying base).Settled :=
  ⟨hr.allowLow.overlaying hb.allowLow, hr.blockFalse.overlaying hb.blockFalse⟩

namespace Config

/-- Settings that were not supplied have their default, also one level down in the rules. -/
structure Settled (c : Config) : Prop where
  rules : c.rules.Settled {}
  flags : c.rules.value.Settled
  ignore : c.ignore.Settled []
  browsers : c.browsers.Settled none

/-- Two configurations that agree in all values, whatever was supplied. -/
structure SameValues (a b : Config) : Prop where
  allowsLow : a.allowsLow = b.allowsLow
  blocksFalse : a.blocksFalse = b.blocksFalse
  ignored : a.ignored = b.ignored
  browserList : a.browserList = b.browserList

theorem settled_default : Config.default.Settled :=
  ⟨Setting.settled_unset _, Rules.settled_default, Setting.settled_unset _, Setting.settled_unset _⟩

theorem Settled.overlaying {c base : Config} (hc : c.Settled) (hb : base.Settled) :
    (c.overlaying base).Settled where
  rules := Setting.settled_given _ _
  flags := by
    show (if c.rules.supplied then c.rules.value.overlaying base.rules.value
      else base.rules.value).Settled
    split
    · exact hc.flags.overlaying hb.flags
    · exact hb.flags
  ignore := hc.ignore.overlaying hb.ignore
  browsers := hc.browsers.overlaying hb.browsers

/-- **Merging a settled configuration over the default changes none of its values.** -/
theorem Settled.sameValues_overlaying_default {c : Config} (h : c.Settled) :
    (c.overlaying default).SameValues c := by
  have hrules : (c.overlaying default).rules.value = if c.rules.supplied then
      c.rules.value.overlaying {} else {} := rfl
  have hflags : (c.overlaying default).allowsLow = c.allowsLow
      ∧ (c.overlaying default).blocksFalse = c.blocksFalse := by
    unfold allowsLow blocksFalse
    rw [hrules]
    cases hs : c.rules.supplied with
    | true =>
      exact ⟨h.flags.allowLow.value_overlaying_unset, h.flags.blockFalse.value_overlaying_unset⟩
    | false =>
      rw [h.rules hs]
      exact ⟨rfl, rfl⟩
  exact ⟨hflags.1, hflags.2, h.ignore.value_overlaying_unset, h.browsers.value_overlaying_unset⟩

/-! ## Validated configurations -/

theorem both_eq_ok {π α β : Type} {a : Checked π α} {b : Checked π β} {p : α × β}
    (h : both a b = .ok p) : a = .ok p.1 ∧ b = .ok p.2 := by
  unfold both at h
  split at h <;> cases h
  exact ⟨rfl, rfl⟩

theorem settled_of_rulesOfJson {v : Json} {r : Rules} (h : rulesOfJson v = .ok r) : r.Settled := by
  unfold rulesOfJson at h
  split at h
  · obtain ⟨p, -, rfl⟩ := map_eq_ok_iff.mp h
    exact ⟨Setting.settled_ofOption _ _, Setting.settled_ofOption _ _⟩
  · cases h

/-- A setting with a value was present, and was read. -/
theorem optional_eq_some {α : Type} {v : Option Json} {read : Json → Checked Problem α} {a : α}
    (h : optional v read = .ok (some a)) : ∃ j, v = some j ∧ read j = .ok a := by
  unfold optional at h
  split at h
  · obtain ⟨b, hb, hba⟩ := map_eq_ok_iff.mp h
    cases hba
    exact ⟨_, rfl, hb⟩
  · cases h

theorem settled_of_ofFields {fs : Json.Fields} {c : Config} (h : ofFields fs = .ok c) :
    c.Settled := by
  obtain ⟨⟨rules, ignore, browsers⟩, hparts, rfl⟩ := map_eq_ok_iff.mp h
  obtain ⟨hrules, -⟩ := both_eq_ok hparts
  refine ⟨Setting.settled_ofOption _ _, ?_, Setting.settled_ofOption _ _,
    Setting.settled_ofOption _ _⟩
  cases rules with
  | none => exact Rules.settled_default
  | some r =>
    obtain ⟨v, -, hv⟩ := optional_eq_some hrules
    exact settled_of_rulesOfJson hv

theorem settled_of_validate {v : Json} {c : Config} (h : validate v = .ok c) : c.Settled := by
  unfold validate at h
  split at h
  · cases h
  · split at h
    · next hc =>
      cases h
      exact settled_of_ofFields hc
    · cases h

/-! ## Loaded configurations -/

/-- A file that holds a configuration holds one that was validated, and it is merged over the
default. -/
theorem readFile_eq_some {name text : String} {bytes : List UInt8} {c : Config}
    (h : readFile name text bytes = .ok (.ok (some c))) :
    ∃ v c', validate v = .ok c' ∧ c = c'.overlaying default := by
  obtain ⟨parsed, -, h⟩ := bind_eq_ok_iff.mp h
  cases parsed with
  | error e => cases h
  | ok v =>
    dsimp only at h
    split at h
    · cases h
    · next fs _ =>
      split at h
      · next c' hc =>
        cases h
        exact ⟨.obj fs, c', hc, rfl⟩
      · cases h
    · cases h

/-- What loading gives: the default, or a validated configuration merged over it. -/
def Loadable (c : Config) : Prop :=
  c = default ∨ ∃ v c', validate v = .ok c' ∧ c = c'.overlaying default

theorem loadable_loadFile {files : Files.Tree} {working : List String} {path : String} {c : Config}
    (h : loadFile files working path = .ok c) : Loadable c := by
  unfold loadFile at h
  dsimp only at h
  split at h
  · cases h
  · obtain ⟨r, hr, h⟩ := bind_eq_ok_iff.mp h
    split at h
    · next o =>
      cases h
      cases o with
      | none => exact Or.inl rfl
      | some c => exact Or.inr (readFile_eq_some hr)
    · cases h
    · cases h

theorem loadable_search {files : Files.Tree} {c : Config} (places : List (List String)) (n : Nat)
    (h : (search files n places).value = .ok c) : Loadable c := by
  induction places generalizing n with
  | nil =>
    cases h
    exact Or.inl rfl
  | cons names rest ih =>
    rw [search] at h
    split at h
    · exact ih _ h
    · split at h
      · cases h
      · exact ih _ h
      · exact ih _ h
      · next hc =>
        cases h
        exact Or.inr (readFile_eq_some hc)

theorem loadable_load {files : Files.Tree} {working : List String} {path start : Option String}
    {c : Config} (h : (load files working path start).value = .ok c) : Loadable c := by
  unfold load at h
  split at h
  · exact loadable_loadFile h
  · exact loadable_search _ _ h

/-! ## Configurations that can be had -/

/-- The configurations that a program can come by: the default, those read from a JSON value, those
merged from others, and those loaded from files. -/
inductive Obtained : Config → Prop where
  | default : Obtained .default
  | validated {v : Json} {c : Config} : validate v = .ok c → Obtained c
  | merged {overlay base : Config} : Obtained overlay → Obtained base →
      Obtained (merge (.config overlay) base).1
  | overridden {base : Config} (v : Json) : Obtained base → Obtained (merge (.json v) base).1
  | loaded {files : Files.Tree} {working : List String} {path start : Option String} {c : Config} :
      (load files working path start).value = .ok c → Obtained c

theorem settled_mergeJson {base : Config} (v : Json) (hb : base.Settled) :
    (mergeJson v base).1.Settled := by
  unfold mergeJson
  split
  · exact hb
  · split
    · next hc => exact (settled_of_validate hc).overlaying hb
    · exact hb

theorem Loadable.settled {c : Config} (h : Loadable c) : c.Settled := by
  rcases h with rfl | ⟨v, c', hc, rfl⟩
  · exact settled_default
  · exact (settled_of_validate hc).overlaying settled_default

/-- **Every configuration that can be had is settled.** -/
theorem Obtained.settled {c : Config} (h : Obtained c) : c.Settled := by
  induction h with
  | default => exact settled_default
  | validated hc => exact settled_of_validate hc
  | merged _ _ ih₁ ih₂ => exact ih₁.overlaying ih₂
  | overridden v _ ih => exact settled_mergeJson v ih
  | loaded hc => exact (loadable_load hc).settled

end Config

end WebAudit
