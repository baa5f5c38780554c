/-
  Blueprints whose maps and sets are what their types stand for.

  An ordered map is written as the list of its entries and a set as the list of its names.
  A value is proper if no map in it holds a name twice, to any depth, and a blueprint is
  proper if all values and maps in it are and its set of skipped validators is sorted.
-/
import HpcBlueprint.Proofs.NameSet
import HpcBlueprint.Proofs.OrderedMap
import HpcBlueprint.Proofs.Value.Texts
import Mathlib.Tactic.MkIffOfInductiveProp

namespace HpcBlueprint

/-! ## Values -/

/-- No map in a value holds a name twice. -/
inductive Value.Proper : Value → Prop
  | null : Proper .null
  | bool (b : Bool) : Proper (.bool b)
  | number (n : Number) : Proper (.number n)
  | string (s : String) : Proper (.string s)
  | list {items : List Value} : (∀ v ∈ items, v.Proper) → Proper (.list items)
  | map {entries : List (String × Value)} : OrderedMap.Distinct entries →
      (∀ k v, (k, v) ∈ entries → v.Proper) → Proper (.map entries)

attribute [simp] Value.Proper.null Value.Proper.bool Value.Proper.number Value.Proper.string

@[simp] theorem Value.proper_list_iff {items : List Value} :
    (Value.list items).Proper ↔ ∀ v ∈ items, v.Proper := by
  constructor
  · intro h
    cases h with
    | list hitems => exact hitems
  · exact .list

/-- A map of proper values that holds no name twice. -/
def OrderedMap.Proper (m : OrderedMap Value) : Prop :=
  m.Distinct ∧ ∀ k v, (k, v) ∈ m → v.Proper

namespace OrderedMap

@[simp] theorem proper_nil : Proper [] := ⟨distinct_nil, fun _ _ h => absurd h List.not_mem_nil⟩

@[simp] theorem proper_cons {k : String} {v : Value} {m : OrderedMap Value} :
    Proper ((k, v) :: m) ↔ k ∉ keys m ∧ v.Proper ∧ Proper m := by
  constructor
  · rintro ⟨distinct, hvalues⟩
    obtain ⟨hk, hdistinct⟩ := List.nodup_cons.mp distinct
    exact ⟨hk, hvalues k v List.mem_cons_self, hdistinct,
      fun k' v' h => hvalues k' v' (List.mem_cons_of_mem _ h)⟩
  · rintro ⟨hk, hv, hdistinct, hvalues⟩
    refine ⟨List.nodup_cons.mpr ⟨hk, hdistinct⟩, fun k' v' h => ?_⟩
    rcases List.mem_cons.mp h with heq | h
    · obtain ⟨rfl, rfl⟩ := Prod.mk.inj heq
      exact hv
    · exact hvalues k' v' h

variable {m : OrderedMap Value}

theorem Proper.insert {name : String} {v : Value} (h : Proper m) (hv : v.Proper) :
    Proper (insert m name v) := by
  refine ⟨distinct_insert h.1, fun k w hw => ?_⟩
  rcases mem_of_mem_insert hw with ⟨-, rfl⟩ | hw
  · exact hv
  · exact h.2 k w hw

theorem Proper.insertAll (h : Proper m) {entries : List (String × Value)}
    (hentries : ∀ k v, (k, v) ∈ entries → v.Proper) : Proper (insertAll m entries) := by
  induction entries generalizing m with
  | nil => exact h
  | cons e rest ih =>
      obtain ⟨k, v⟩ := e
      exact ih (h.insert (hentries k v List.mem_cons_self)) fun k' v' hmem =>
        hentries k' v' (List.mem_cons_of_mem _ hmem)

end OrderedMap

@[simp] theorem Value.proper_map_iff {entries : List (String × Value)} :
    (Value.map entries).Proper ↔ OrderedMap.Proper entries := by
  constructor
  · intro h
    cases h with
    | map distinct hentries => exact ⟨distinct, hentries⟩
  · rintro ⟨distinct, hentries⟩
    exact .map distinct hentries

/-! ## Blueprints -/

/-- The settings of a module are proper. -/
def Module.Proper (m : Module) : Prop := OrderedMap.Proper m.settings

/-- The configuration of a backend is proper. -/
def Backend.Proper (b : Backend) : Prop := OrderedMap.Proper b.configuration

/-- The inputs of a validator are proper. -/
def ValidatorEntry.Proper (v : ValidatorEntry) : Prop := OrderedMap.Proper v.inputs

/-- The backend of a group and its modules are proper. -/
@[mk_iff] structure Group.Proper (g : Group) : Prop where
  backend : ∀ b ∈ g.backend, b.Proper
  modules : ∀ m ∈ g.modules, m.Proper

/-- Everything in a blueprint is proper. -/
structure Blueprint.Proper (b : Blueprint) : Prop where
  validators : ∀ v ∈ b.validators, v.Proper
  skipped : NameSet.Sorted b.skipped
  vars : OrderedMap.Proper b.vars
  backendDefaults : b.backendDefaults.Proper
  groups : ∀ g ∈ b.groups, g.Proper

end HpcBlueprint
