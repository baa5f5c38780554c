/-
  Which text makes a resolution fail.

  A value cannot be resolved exactly if some text nested in it cannot be on its own, and then the
  error is that of the first such text in document order, at the path to which the steps from the
  value lead.  Whether a text can be resolved does not depend on its path, so nothing before the
  member that fails is refused, however deep it is nested.
-/
import HpcBlueprint.Proofs.Expand.Collect
import HpcBlueprint.Proofs.Value.Places
import Mathlib

namespace HpcBlueprint

open Expand

/-! ## The places of errors -/

/-- The place in a blueprint that an error names. -/
def ConfigError.place? : ConfigError → Option String
  | .duplicateName _ _ path | .unknownSetting _ _ path | .missingInput _ _ path
  | .unresolved _ _ path | .forwardReference _ _ _ path | .invalidReference _ path
  | .unknownOutput _ _ path | .kindMismatch _ _ _ path => some path
  | .invalidName problem => some problem.path
  | .fileNotFound _ | .decode _ | .invalidOverride _ | .invalidOverrideValue _ _
  | .invalidLevel _ | .cycle _ | .embeddedLocalPath _ | .schema _ _ => none

/-- An error names a path as its place, or says that a module refers to itself. -/
def ConfigError.PlacedAt (path : String) (e : ConfigError) : Prop :=
  e.place? = some path ∨ ∃ own, e = .cycle [own, own]

namespace Expand.Scope

variable {s : Scope} {path text : String} {e : ConfigError} {steps : List Value.Step}

theorem placedAt_of_lookup {name : String} (h : s.lookup path name = .error e) :
    e.PlacedAt path := by
  rw [lookup] at h
  split at h
  · cases h
  · cases h
    exact Or.inl rfl

theorem placedAt_of_checkOutput {module name : String}
    (h : s.checkOutput path module name = .error e) : e.PlacedAt path := by
  unfold checkOutput at h
  -- the checks in their order: only the one for another module names no place
  cases hpos : s.position with
  | inVariable =>
      rw [hpos] at h
      cases h
      exact Or.inl rfl
  | elsewhere =>
      rw [hpos] at h
      cases h
      exact Or.inl rfl
  | inModule own i =>
      simp only [hpos] at h
      split at h
      · cases h
        exact Or.inl rfl
      · split at h
        · cases h
          exact Or.inr ⟨own, rfl⟩
        · split at h
          · cases h
            exact Or.inl rfl
          · split at h
            · cases h
              exact Or.inl rfl
            · split at h
              · cases h
              · split at h
                · cases h
                · cases h
                  exact Or.inl rfl

theorem placedAt_of_fill {segments : List Segment} (h : s.fill path segments = .error e) :
    e.PlacedAt path := by
  -- only a reference can fail, and every reference of a text has the path of the text
  induction segments with
  | nil => cases h
  | cons segment rest ih =>
      cases segment with
      | text t =>
          rw [fill] at h
          rcases exceptBind_eq_error.mp h with hrest | ⟨u, -, hu⟩
          · exact ih hrest
          · cases hu
      | ref r =>
          cases r with
          | output module name =>
              cases h
              exact Or.inl rfl
          | var name =>
              rw [fill] at h
              rcases exceptBind_eq_error.mp h with hlookup | ⟨v, -, hv⟩
              · exact placedAt_of_lookup hlookup
              · split at hv
                · rcases exceptBind_eq_error.mp hv with hrest | ⟨u, -, hu⟩
                  · exact ih hrest
                  · cases hu
                · cases hv
                  exact Or.inl rfl

/-- The error of a text is placed at its path. -/
theorem placedAt_of_resolveText (h : s.resolveText path text = .error e) : e.PlacedAt path := by
  unfold resolveText at h
  split at h
  · cases h
    exact Or.inl rfl
  · cases h
  · exact placedAt_of_lookup h
  · exact placedAt_of_checkOutput (map_eq_error.mp h)
  · exact placedAt_of_fill (map_eq_error.mp h)

/-! ## Texts that are refused -/

/-- A text cannot be resolved on its own, at whatever path. -/
def Refuses (s : Scope) (text : String) : Prop :=
  ∀ path, ∃ e, s.resolve path (.string text) = .error e

/-- The first text in document order that is nested in a value and refused. -/
structure FirstRefused (s : Scope) (v : Value) (steps : List Value.Step) (text : String) :
    Prop where
  leads : v.Leads steps (.string text)
  refused : s.Refuses text
  first : ∀ steps' text', v.Leads steps' (.string text') → s.Refuses text' →
    ¬ Value.Before steps' steps

theorem not_admitsValue_of_error {v : Value} (h : s.resolve path v = .error e) :
    ¬ s.AdmitsValue v := by
  intro hadmits
  rw [resolve_eq_ok_iff.mpr ⟨hadmits, rfl⟩] at h
  cases h

theorem exists_error_of_not_admitsValue {v : Value} (h : ¬ s.AdmitsValue v) (path : String) :
    ∃ e, s.resolve path v = .error e := by
  cases hv : s.resolve path v with
  | error e => exact ⟨e, rfl⟩
  | ok w => exact absurd (resolve_eq_ok_iff.mp hv).1 h

theorem refuses_of_error (h : s.resolve path (.string text) = .error e) : s.Refuses text :=
  exists_error_of_not_admitsValue (not_admitsValue_of_error h)

/-- A value is refused if a text nested in it is. -/
theorem not_admitsValue_iff {v : Value} :
    ¬ s.AdmitsValue v ↔ ∃ steps text, v.Leads steps (.string text) ∧ s.Refuses text := by
  have htext : ∀ t, s.Refuses t ↔ ¬ s.Admits t := by
    intro t
    have hvalue : s.AdmitsValue (.string t) ↔ s.Admits t := by simp [AdmitsValue]
    rw [← hvalue]
    constructor
    · intro h
      obtain ⟨e, he⟩ := h ""
      exact not_admitsValue_of_error he
    · exact exists_error_of_not_admitsValue
  simp only [AdmitsValue, not_forall, htext, Value.mem_texts_iff_leads]
  constructor
  · rintro ⟨t, ⟨steps, hsteps⟩, ht⟩
    exact ⟨steps, t, hsteps, ht⟩
  · rintro ⟨steps, t, hsteps, ht⟩
    exact ⟨t, ⟨steps, hsteps⟩, ht⟩

theorem AdmitsValue.not_refuses {v : Value} (h : s.AdmitsValue v)
    (leads : v.Leads steps (.string text)) : ¬ s.Refuses text :=
  fun refused => not_admitsValue_iff.mpr ⟨steps, text, leads, refused⟩ h

/-- The first refused text behind a step is that of the member to which the step leads, if nothing
    is refused in the members before. -/
theorem firstRefused_step_iff {v : Value} {step : Value.Step} :
    s.FirstRefused v (step :: steps) text ↔
      ∃ w, v.Member step w ∧
        (∀ step' w', v.Member step' w' → step'.number < step.number → s.AdmitsValue w') ∧
        s.FirstRefused w steps text := by
  -- of two places behind one step the deeper parts decide, and an earlier step decides at once
  constructor
  · rintro ⟨leads, refused, first⟩
    cases leads with
    | @step _ w _ _ _ member leads =>
        refine ⟨w, member, fun step' w' member' hlt => ?_, leads, refused, ?_⟩
        · by_contra hadmits
          obtain ⟨steps', text', leads', refused'⟩ := not_admitsValue_iff.mp hadmits
          exact first _ _ (.step member' leads') refused' (.parted hlt)
        · intro steps' text' leads' refused' before
          exact first _ _ (.step member leads') refused' (.deeper before)
  · rintro ⟨w, member, earlier, leads, refused, first⟩
    refine ⟨.step member leads, refused, fun steps' text' leads' refused' before => ?_⟩
    cases before with
    | parted hlt =>
        cases leads' with
        | step member' leads' => exact (earlier _ _ member' hlt).not_refuses leads' refused'
    | deeper before =>
        cases leads' with
        | step member' leads' =>
            exact first _ _ (member'.unique member ▸ leads') refused' before

/-! ## The error of a value -/

theorem resolveItems_eq_error_iff {items : List Value} {i : Nat} :
    s.resolveItems path i items = .error e ↔
      ∃ n v, items[n]? = some v ∧ (∀ k < n, ∀ w, items[k]? = some w → s.AdmitsValue w) ∧
        s.resolve (path ++ "[" ++ toString (i + n) ++ "]") v = .error e := by
  -- the numbers in the path count on from `i`, those in the list begin anew behind each item
  induction items generalizing i with
  | nil => simp [resolveItems]
  | cons v rest ih =>
      simp only [resolveItems, exceptBind_eq_error, map_eq_error, ih, resolve_eq_ok_iff]
      constructor
      · rintro (h | ⟨_, ⟨hv, -⟩, n, u, hu, earlier, herror⟩)
        · exact ⟨0, v, rfl, fun k hk => absurd hk (Nat.not_lt_zero k), h⟩
        · refine ⟨n + 1, u, hu, fun k hk w hw => ?_, ?_⟩
          · cases k with
            | zero => exact Option.some.inj hw ▸ hv
            | succ k => exact earlier k (Nat.lt_of_succ_lt_succ hk) w hw
          · rwa [← Nat.add_assoc, Nat.add_right_comm]
      · rintro ⟨n, u, hu, earlier, herror⟩
        cases n with
        | zero => exact Or.inl (Option.some.inj hu ▸ herror)
        | succ n =>
            refine Or.inr ⟨_, ⟨earlier 0 n.succ_pos v rfl, rfl⟩, n, u, hu, ?_, ?_⟩
            · exact fun k hk w hw => earlier (k + 1) (Nat.succ_lt_succ hk) w hw
            · rwa [← Nat.add_assoc, Nat.add_right_comm] at herror

theorem resolveEntries_eq_error_iff {entries : List (String × Value)} :
    s.resolveEntries path entries = .error e ↔
      ∃ (n : Nat) (key : String) (v : Value), entries[n]? = some (key, v) ∧
        (∀ k < n, ∀ key' w, entries[k]? = some (key', w) → s.AdmitsValue w) ∧
        s.resolve (path ++ "." ++ key) v = .error e := by
  induction entries with
  | nil => simp [resolveEntries]
  | cons entry rest ih =>
      obtain ⟨key, v⟩ := entry
      simp only [resolveEntries, exceptBind_eq_error, map_eq_error, ih, resolve_eq_ok_iff]
      constructor
      · rintro (h | ⟨_, ⟨hv, -⟩, n, key', u, hu, earlier, herror⟩)
        · exact ⟨0, key, v, rfl, fun k hk => absurd hk (Nat.not_lt_zero k), h⟩
        · refine ⟨n + 1, key', u, hu, fun k hk key'' w hw => ?_, herror⟩
          cases k with
          | zero => exact (Prod.mk.inj (Option.some.inj hw)).2 ▸ hv
          | succ k => exact earlier k (Nat.lt_of_succ_lt_succ hk) key'' w hw
      · rintro ⟨n, key', u, hu, earlier, herror⟩
        cases n with
        | zero =>
            obtain ⟨rfl, rfl⟩ := Prod.mk.inj (Option.some.inj hu)
            exact Or.inl herror
        | succ n =>
            refine Or.inr ⟨_, ⟨earlier 0 n.succ_pos key v rfl, rfl⟩, n, key', u, hu, ?_, herror⟩
            exact fun k hk key'' w hw => earlier (k + 1) (Nat.succ_lt_succ hk) key'' w hw

/-- A resolution fails at a text, or in a member of which all that stand before it are fine. -/
theorem resolve_eq_error_iff_member {v : Value} :
    s.resolve path v = .error e ↔
      (∃ text, v = .string text ∧ s.resolveText path text = .error e) ∨
      ∃ step w, v.Member step w ∧
        (∀ step' w', v.Member step' w' → step'.number < step.number → s.AdmitsValue w') ∧
        s.resolve (path ++ step.text) w = .error e := by
  cases v with
  | null => simp [resolve]
  | bool b => simp [resolve]
  | number n => simp [resolve]
  | string t => simp [resolve]
  | list items =>
      rw [resolve, map_eq_error, resolveItems_eq_error_iff]
      simp only [Nat.zero_add, Value.member_list_iff, reduceCtorEq, false_and, exists_false,
        false_or]
      constructor
      · rintro ⟨n, v, hv, earlier, h⟩
        refine ⟨_, v, ⟨n, rfl, hv⟩, ?_, ?_⟩
        · rintro _ w ⟨k, rfl, hw⟩ hk
          exact earlier k hk w hw
        · rwa [Value.Step.text, ← String.append_assoc, ← String.append_assoc]
      · rintro ⟨_, v, ⟨n, rfl, hv⟩, earlier, h⟩
        rw [Value.Step.text, ← String.append_assoc, ← String.append_assoc] at h
        exact ⟨n, v, hv, fun k hk w hw => earlier _ w ⟨k, rfl, hw⟩ hk, h⟩
  | map entries =>
      rw [resolve, map_eq_error, resolveEntries_eq_error_iff]
      simp only [Value.member_map_iff, reduceCtorEq, false_and, exists_false, false_or]
      constructor
      · rintro ⟨n, key, v, hv, earlier, h⟩
        refine ⟨_, v, ⟨n, key, rfl, hv⟩, ?_, ?_⟩
        · rintro _ w ⟨k, key', rfl, hw⟩ hk
          exact earlier k hk key' w hw
        · rwa [Value.Step.text, ← String.append_assoc]
      · rintro ⟨_, v, ⟨n, key, rfl, hv⟩, earlier, h⟩
        rw [Value.Step.text, ← String.append_assoc] at h
        exact ⟨n, key, v, hv, fun k hk key' w hw => earlier _ w ⟨k, key', rfl, hw⟩ hk, h⟩

/-- The error of a value is that of the first text that is refused, at its path. -/
theorem resolve_eq_error_iff {v : Value} :
    s.resolve path v = .error e ↔
      ∃ steps text, s.FirstRefused v steps text ∧
        s.resolve (Value.pathAt path steps) (.string text) = .error e := by
  -- induction on the nesting; each member is resolved at the path with one step more
  induction v using Value.membersInduction generalizing path with
  | members v ih =>
      rw [resolve_eq_error_iff_member]
      constructor
      · rintro (⟨t, rfl, h⟩ | ⟨step, w, member, earlier, h⟩)
        · rw [← resolve] at h
          exact ⟨[], t, ⟨.here _, refuses_of_error h, fun _ _ _ _ before => by cases before⟩, h⟩
        · obtain ⟨steps, text, first, h⟩ := (ih step w member).mp h
          exact ⟨step :: steps, text, firstRefused_step_iff.mpr ⟨w, member, earlier, first⟩, h⟩
      · rintro ⟨steps, text, first, h⟩
        cases steps with
        | nil =>
            have hhere : v = .string text := by
              cases first.leads
              rfl
            rw [Value.pathAt, List.foldl_nil, resolve] at h
            exact Or.inl ⟨text, hhere, h⟩
        | cons step steps =>
            obtain ⟨w, member, earlier, behind⟩ := firstRefused_step_iff.mp first
            exact Or.inr ⟨step, w, member, earlier, (ih step w member).mpr ⟨_, text, behind, h⟩⟩

/-- A resolution fails exactly if a text nested in the value cannot be resolved on its own.  The
    error is then that of the first such text in document order, and the place that it names is
    the path of the value with the steps that lead to the text.  Noting what is referred to on
    the way does not change the error. -/
theorem resolve_blames_first (s : Scope) (path : String) (v : Value) :
    ((∃ e, s.resolve path v = .error e) ↔
      ∃ steps text, v.Leads steps (.string text) ∧ s.Refuses text) ∧
    (∀ e, s.resolve path v = .error e ↔
      ∃ steps text, s.FirstRefused v steps text ∧
        s.resolve (Value.pathAt path steps) (.string text) = .error e ∧
        e.PlacedAt (Value.pathAt path steps)) ∧
    ∀ e notes, s.collect path v notes = .error e ↔ s.resolve path v = .error e := by
  refine ⟨?_, fun e => ?_, fun e notes => ?_⟩
  · rw [← not_admitsValue_iff]
    constructor
    · rintro ⟨e, he⟩
      exact not_admitsValue_of_error he
    · exact fun h => exists_error_of_not_admitsValue h path
  · rw [resolve_eq_error_iff]
    constructor
    · rintro ⟨steps, text, first, h⟩
      have htext := h
      rw [resolve] at htext
      exact ⟨steps, text, first, h, placedAt_of_resolveText htext⟩
    · rintro ⟨steps, text, first, h, -⟩
      exact ⟨steps, text, first, h⟩
  · rw [collects_collect v notes, map_eq_error]

/-- A value with an unknown variable deep inside and a malformed reference behind it. -/
def faulty : Value :=
  .map [("a", .list [.string "plain", .map [("b", .string "$(vars.none)")]]), ("c", .string "$(")]

theorem resolve_blames_first_faulty :
    Scope.resolve ⟨[], .inVariable, default⟩ "vars.x" faulty =
      .error (.unresolved "$(vars.none)" .notYetDefined "vars.x.a[1].b") ∧
    ∃ steps text, FirstRefused ⟨[], .inVariable, default⟩ faulty steps text ∧
      Value.pathAt "vars.x" steps = "vars.x.a[1].b" := by
  have hrun : Scope.resolve ⟨[], .inVariable, default⟩ "vars.x" faulty =
      .error (.unresolved "$(vars.none)" .notYetDefined "vars.x.a[1].b") := by cbv
  obtain ⟨steps, text, first, -, hplace | ⟨own, hown⟩⟩ :=
    ((resolve_blames_first _ _ _).2.1 _).mp hrun
  · exact ⟨hrun, steps, text, first, (Option.some.inj hplace).symm⟩
  · cases hown

end Expand.Scope

end HpcBlueprint
