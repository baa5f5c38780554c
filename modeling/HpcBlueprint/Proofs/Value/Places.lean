/-
  Where texts are nested in a value.

  A step goes from a list or a map to one of its members, and steps in a row lead from a value to
  what is nested in it.  They are numbered as the members stand, so two ways are in document order
  as their steps are where they part, and they are written in a path as `[i]` and `.key`.
-/
import HpcBlueprint.Proofs.Value.Texts

namespace HpcBlueprint
namespace Value

/-! ## Steps -/

/-- A step from a list to one of its items or from a map to the value of one of its entries. -/
inductive Step
  | item (number : Nat)
  | entry (number : Nat) (key : String)

namespace Step

/-- Which member of a list or a map a step leads to. -/
def number : Step → Nat
  | .item n => n
  | .entry n _ => n

/-- A step as it is written in a path. -/
def text : Step → String
  | .item n => "[" ++ toString n ++ "]"
  | .entry _ key => "." ++ key

end Step

/-- The path to which steps lead from a path. -/
def pathAt (path : String) (steps : List Step) : String :=
  steps.foldl (fun path step => path ++ step.text) path

/-! ## Members -/

/-- A step leads from a list or a map to one of its members. -/
inductive Member : Value → Step → Value → Prop
  | item {items : List Value} {n : Nat} {w : Value} (h : items[n]? = some w) :
      Member (.list items) (.item n) w
  | entry {entries : List (String × Value)} {n : Nat} {key : String} {w : Value}
      (h : entries[n]? = some (key, w)) : Member (.map entries) (.entry n key) w

theorem Member.unique {v w w' : Value} {step : Step} (h : v.Member step w)
    (h' : v.Member step w') : w = w' := by
  cases h with
  | item h =>
      cases h' with
      | item h' => exact Option.some.inj (h.symm.trans h')
  | entry h =>
      cases h' with
      | entry h' => exact congrArg Prod.snd (Option.some.inj (h.symm.trans h'))

variable {step : Step} {w : Value}

@[simp] theorem not_member_null : ¬ Value.null.Member step w := nofun

@[simp] theorem not_member_bool {b : Bool} : ¬ (Value.bool b).Member step w := nofun

@[simp] theorem not_member_number {n : Number} : ¬ (Value.number n).Member step w := nofun

@[simp] theorem not_member_string {t : String} : ¬ (Value.string t).Member step w := nofun

@[simp] theorem member_list_iff {items : List Value} :
    (Value.list items).Member step w ↔ ∃ n, step = .item n ∧ items[n]? = some w := by
  constructor
  · intro member
    cases member with
    | item h => exact ⟨_, rfl, h⟩
  · rintro ⟨n, rfl, h⟩
    exact .item h

@[simp] theorem member_map_iff {entries : List (String × Value)} :
    (Value.map entries).Member step w ↔
      ∃ n key, step = .entry n key ∧ entries[n]? = some (key, w) := by
  constructor
  · intro member
    cases member with
    | entry h => exact ⟨_, _, rfl, h⟩
  · rintro ⟨n, key, rfl, h⟩
    exact .entry h

/-- What holds of a value whenever it holds of all its members holds of every value. -/
@[elab_as_elim]
theorem membersInduction {motive : Value → Prop}
    (members : ∀ v : Value, (∀ step w, v.Member step w → motive w) → motive v) (v : Value) :
    motive v := by
  induction v using Value.nested with
  | null => exact members _ (by simp)
  | bool b => exact members _ (by simp)
  | number n => exact members _ (by simp)
  | string t => exact members _ (by simp)
  | list items ih =>
      refine members _ fun step w member => ?_
      obtain ⟨n, -, hw⟩ := member_list_iff.mp member
      exact ih w (List.mem_of_getElem? hw)
  | map entries ih =>
      refine members _ fun step w member => ?_
      obtain ⟨n, key, -, hw⟩ := member_map_iff.mp member
      exact ih key w (List.mem_of_getElem? hw)

/-! ## Ways -/

/-- Steps that lead from a value to a value nested in it. -/
inductive Leads : Value → List Step → Value → Prop
  | here (v : Value) : Leads v [] v
  | step {v w u : Value} {step : Step} {steps : List Step} (member : v.Member step w)
      (leads : Leads w steps u) : Leads v (step :: steps) u

/-- Steps lead to an earlier place of a document than others if they go to an earlier member
    where the two part. -/
inductive Before : List Step → List Step → Prop
  | parted {step step' : Step} {steps steps' : List Step} (h : step.number < step'.number) :
      Before (step :: steps) (step' :: steps')
  | deeper {step : Step} {steps steps' : List Step} (h : Before steps steps') :
      Before (step :: steps) (step :: steps')

/-! ## Texts at their places -/

/-- Steps lead to exactly the texts that are nested in a value. -/
theorem mem_texts_iff_leads {v : Value} {t : String} :
    t ∈ v.texts ↔ ∃ steps, v.Leads steps (.string t) := by
  -- induction on the value in one direction, on the steps that lead into it in the other
  constructor
  · intro h
    induction v using Value.nested with
    | null => simp [texts] at h
    | bool b => simp [texts] at h
    | number n => simp [texts] at h
    | string s =>
        rw [texts_string, List.mem_singleton] at h
        exact ⟨[], h ▸ .here _⟩
    | list items ih =>
        obtain ⟨v, hv, ht⟩ := mem_texts_list.mp h
        obtain ⟨n, hn⟩ := List.mem_iff_getElem?.mp hv
        obtain ⟨steps, hsteps⟩ := ih v hv ht
        exact ⟨_, .step (.item hn) hsteps⟩
    | map entries ih =>
        obtain ⟨key, v, hv, ht⟩ := mem_texts_map.mp h
        obtain ⟨n, hn⟩ := List.mem_iff_getElem?.mp hv
        obtain ⟨steps, hsteps⟩ := ih key v hv ht
        exact ⟨_, .step (.entry hn) hsteps⟩
  · rintro ⟨steps, h⟩
    generalize hend : Value.string t = last at h
    induction h with
    | here v => simp [← hend]
    | step member leads ih =>
        cases member with
        | item h => exact mem_texts_list.mpr ⟨_, List.mem_of_getElem? h, ih hend⟩
        | entry h => exact mem_texts_map.mpr ⟨_, _, List.mem_of_getElem? h, ih hend⟩

end Value
end HpcBlueprint
