/-
  What a catalog remembers.

  Schemas are kept by source and kind and packages by address.  Learning a schema and
  fetching a package each change what is remembered under one key only, and a fetch that
  fails changes nothing of it.
-/
import HpcBlueprint.Catalog.Lookup
import HpcBlueprint.Proofs.OrderedMap

namespace HpcBlueprint
namespace Catalog

variable {ω : Type} {c : Catalog ω} {s s' : State ω} {package : String}

/-! ## Schemas -/

namespace Memory

theorem entry?_learn_self (m : Memory) (source : String) (kind : ModuleKind) (schema : Schema) :
    entry? (m.learn source kind schema) source kind = some ⟨m.entries, schema⟩ := by
  simp [learn, entry?]

theorem entry?_learn_ne {source source' : String} {kind kind' : ModuleKind}
    (h : (source', kind') ≠ (source, kind)) (m : Memory) (schema : Schema) :
    entry? (m.learn source kind schema) source' kind' = m.entry? source' kind' := by
  have hbeq : ((source', kind') == (source, kind)) = false := by simpa using h
  rw [learn, entry?, List.lookup_cons, hbeq]
  exact lookup_filter_ne h m.schemas

end Memory

/-! ## Packages -/

/-- A package that was fetched is remembered with its download directory. -/
theorem lookup_packages_of_download {package root : String}
    (h : c.download package s = (.ok root, s')) :
    s'.memory.packages.lookup package = some root := by
  unfold download at h
  split at h
  · -- fetched before
    rename_i found
    obtain ⟨hroot, rfl⟩ := Prod.mk.inj h
    rw [found, Except.ok.inj hroot]
  · dsimp only at h
    split at h
    · cases h
    · split at h
      · -- fetched now, and put in front of the packages that are remembered
        obtain ⟨hroot, rfl⟩ := Prod.mk.inj h
        rw [← Except.ok.inj hroot]
        simp
      · cases h

/-- What a fetch does to the memory: it counts, and remembers the package if it succeeds. -/
theorem memory_download {outcome : Except FetchError String}
    (h : c.download package s = (outcome, s')) :
    s'.memory.schemas = s.memory.schemas ∧ s'.memory.entries = s.memory.entries ∧
      s'.memory.packages = match s.memory.packages.lookup package, outcome with
        | none, .ok dir => (package, dir) :: s.memory.packages
        | _, _ => s.memory.packages := by
  unfold download at h
  split at h
  · rename_i found
    obtain ⟨rfl, rfl⟩ := Prod.mk.inj h
    exact ⟨rfl, rfl, by rw [found]⟩
  · rename_i missing
    rw [missing]
    dsimp only at h
    split at h
    · obtain ⟨rfl, rfl⟩ := Prod.mk.inj h
      exact ⟨rfl, rfl, rfl⟩
    · split at h
      · obtain ⟨rfl, rfl⟩ := Prod.mk.inj h
        exact ⟨rfl, rfl, rfl⟩
      · obtain ⟨rfl, rfl⟩ := Prod.mk.inj h
        exact ⟨rfl, rfl, rfl⟩

/-- A fetch does not change what is remembered of schemas. -/
theorem entry?_of_download {outcome : Except FetchError String}
    (h : c.download package s = (outcome, s')) (source : String) (kind : ModuleKind) :
    s'.memory.entry? source kind = s.memory.entry? source kind := by
  unfold Memory.entry?
  rw [(memory_download h).1]

/-- A fetch that fails leaves nothing behind that is remembered. -/
theorem packages_of_download_error {e : FetchError}
    (h : c.download package s = (.error e, s')) : s'.memory.packages = s.memory.packages := by
  rw [(memory_download h).2.2]
  cases s.memory.packages.lookup package <;> rfl

/-- A fetch does not change what is remembered of other packages. -/
theorem lookup_packages_of_ne {outcome : Except FetchError String}
    (h : c.download package s = (outcome, s')) {other : String} (hne : other ≠ package) :
    s'.memory.packages.lookup other = s.memory.packages.lookup other := by
  have hbeq : (other == package) = false := by simpa using hne
  rw [(memory_download h).2.2]
  cases s.memory.packages.lookup package with
  | some dir => rfl
  | none =>
      cases outcome with
      | error e => rfl
      | ok dir => rw [List.lookup_cons, hbeq]

end Catalog
end HpcBlueprint
