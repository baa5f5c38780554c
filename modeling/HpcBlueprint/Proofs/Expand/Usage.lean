/-
  What the facts about usage say.

  A variable counts as used when a reference to it occurs somewhere in the texts that are
  resolved, be it inside a longer text or behind others, but not behind a backslash.  An entry
  of a use list counts as unused when no text of the module's settings is a reference to an
  output of that module; where a blueprint can be materialized, outputs are referred to in no
  other way.
-/
import HpcBlueprint.Proofs.Expand.Again
import HpcBlueprint.Proofs.Expand.Collect
import HpcBlueprint.Proofs.Expand.Order
import HpcBlueprint.Proofs.Reference.Grammar

namespace HpcBlueprint

open Expand

/-- The module to whose output a text refers, if the text is nothing but the reference. -/
def Expression.wholeModule? (text : String) : Option String :=
  match parse text with
  | .ok (.whole r) => r.module?
  | _ => none

theorem Expression.wholeModule?_eq_some_iff {text module : String} :
    wholeModule? text = some module ↔
      ∃ name, (Reference.output module name).Written text.toList := by
  simp only [Reference.written_iff, String.toList_inj, ← parse_eq_whole_iff, wholeModule?]
  cases parse text with
  | error e => simp
  | ok e =>
      match e with
      | .literal => simp
      | .template segments => simp
      | .whole (.var name) => simp [Reference.module?]
      | .whole (.output module' name) => simp [Reference.module?]

namespace Module

variable {m : Module} {used : String}

/-- A text nested in the settings is a reference to an output of a module of this name. -/
def Consumes (m : Module) (used : String) : Prop :=
  ∃ key v, (key, v) ∈ m.settings ∧
    ∃ text ∈ v.texts, ∃ name, (Reference.output used name).Written text.toList

instance (m : Module) (used : String) : Decidable (m.Consumes used) :=
  decidable_of_iff
    (∃ entry ∈ m.settings, ∃ text ∈ entry.2.texts, Expression.wholeModule? text = some used) <| by
      simp only [Consumes, Expression.wholeModule?_eq_some_iff, Prod.exists]

theorem consumes_iff_refersTo : m.Consumes used ↔ m.RefersTo used := by
  simp only [Consumes, RefersTo, Expression.parse_eq_whole_iff, Reference.written_iff,
    String.toList_inj]

end Module

namespace Blueprint

variable {b : Blueprint} {m : Materialized}

/-- In a blueprint that can be materialized the settings of a module refer to an output only by
    a text that is nothing else. -/
theorem WellFormed.mem_targets_iff (wellFormed : b.WellFormed) {i : Nat} {n : Module}
    (hn : (i, n) ∈ b.modules) {used : String} : used ∈ targets n ↔ n.Consumes used := by
  rw [Module.consumes_iff_refersTo, targets, List.mem_filterMap]
  constructor
  · rintro ⟨r, hr, hmodule⟩
    obtain ⟨key, v, text, hv, htext, hr⟩ := OrderedMap.mem_references.mp hr
    cases r with
    | var name => cases hmodule
    | output module name =>
        obtain rfl : module = used := Option.some.inj hmodule
        have hresolvable := wellFormed.texts_resolvable _ _ _ (.inModule hn hv htext)
        exact ⟨key, v, hv, text, htext, name, (hresolvable.outputs_offered module name hr).1⟩
  · rintro ⟨key, v, hv, text, htext, name, hparse⟩
    have hr := Expression.mem_references.mpr (Or.inl hparse)
    exact ⟨_, OrderedMap.mem_references.mpr ⟨key, v, text, hv, htext, hr⟩, rfl⟩

theorem mem_usedVars_iff {name : String} :
    name ∈ b.usage.usedVars ↔ .var name ∈ b.references := by
  rw [usage, NameSet.mem_ofList, List.mem_filterMap]
  constructor
  · rintro ⟨r, hr, hname⟩
    cases r with
    | var name' => exact Option.some.inj hname ▸ hr
    | output module name' => cases hname
  · intro hr
    exact ⟨.var name, hr, rfl⟩

/-- The facts that a blueprint is materialized with are those that are noted while its
    references are resolved.  The used variables are those to which a reference occurs in one of
    its texts.  The unused uses are the entries of the use lists, in order and with repetitions,
    of which no text of the module's settings is an output. -/
theorem usage_exact (h : b.materialize = .ok m) :
    b.collect = .ok m ∧ NameSet.Sorted m.usage.usedVars ∧
    (∀ name, name ∈ m.usage.usedVars ↔
      ∃ position known text, b.Site position known text ∧
        (Reference.var name).OccursIn text) ∧
    m.usage.unusedUses = b.modules.flatMap fun (_, n) =>
      (n.uses.filter fun used => ¬ n.Consumes used).map (n.id, ·) := by
  obtain ⟨wellFormed, rfl⟩ := materialize_eq_ok_iff.mp h
  refine ⟨b.collect_eq_materialize.trans h, NameSet.sorted_ofList _, fun name => ?_, ?_⟩
  · have hoccurs : ∀ position known text, b.Site position known text →
        (.var name ∈ Expression.references text ↔ (Reference.var name).OccursIn text) := by
      intro position known text hsite
      obtain ⟨e, hparse⟩ := (wellFormed.texts_resolvable _ _ _ hsite).parses
      exact Expression.mem_references_iff_occursIn hparse
    rw [mem_usedVars_iff, mem_references]
    constructor
    · rintro ⟨position, known, text, hsite, hr⟩
      exact ⟨position, known, text, hsite, (hoccurs _ _ _ hsite).mp hr⟩
    · rintro ⟨position, known, text, hsite, hr⟩
      exact ⟨position, known, text, hsite, (hoccurs _ _ _ hsite).mpr hr⟩
  · have hunused : b.usage.unusedUses = b.modules.flatMap fun (_, n) => unusedUses n := rfl
    rw [hunused]
    refine List.flatMap_congr fun ⟨i, n⟩ hn => ?_
    have hmem : ∀ used, (!(targets n).contains used) = decide (¬ n.Consumes used) := by
      intro used
      rw [Bool.eq_iff_iff, decide_eq_true_eq, ← wellFormed.mem_targets_iff hn]
      simp
    simp only [unusedUses, hmem]

/-- A blueprint that refers to variables in and behind other texts, and to one behind a
    backslash only; a module of it lists another one twice and takes nothing from it. -/
def frugal : Blueprint where
  name := "t"
  toolkitVersion := HpcBlueprint.toolkitVersion
  validators := []
  level := .warning
  skipped := []
  vars := [("deployment_name", .string "d"), ("region", .string "r"),
    ("zone", .string "$(vars.region)-a"), ("spare", .string "\\$(vars.spare)")]
  backendDefaults := Backend.empty
  groups := [⟨"g", none, [
    ⟨"net", "modules/net", .terraform, [], [], [], none⟩,
    ⟨"disk", "modules/disk", .terraform, [], [], [], none⟩,
    ⟨"vm", "modules/vm", .terraform, ["disk", "net", "disk"],
      [("subnet", .list [.map [("id", .string "$(net.id)")]]), ("zone", .string "$(vars.zone)"),
        ("disk", .string "\\$(disk.id)")], [], none⟩]⟩]

theorem materialize_frugal : frugal.materialize = .ok ⟨frugal.substituted,
    ["region", "zone"], [("vm", "disk"), ("vm", "disk")]⟩ :=
  eq_ok_of_toOption (by decide +kernel)

/-- The spare variable is named behind a backslash, so nothing refers to it. -/
theorem usage_exact_frugal :
    frugal.materialize = .ok ⟨frugal.substituted, ["region", "zone"],
        [("vm", "disk"), ("vm", "disk")]⟩ ∧
      ¬ ∃ position known text, frugal.Site position known text ∧
        (Reference.var "spare").OccursIn text := by
  refine ⟨materialize_frugal, ?_⟩
  rw [← (usage_exact materialize_frugal).2.2.1 "spare"]
  decide

end Blueprint
end HpcBlueprint
