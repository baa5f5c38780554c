/-
  Fetchers that keep to where packages go.

  A fetcher gets a path for the package.  It keeps to that place if nothing changes but what is
  there or below (`Fetcher.KeepsTo`).  Git does so if its commands do; objects of a store do so
  as long as what is left of their keys never leads above the place, as is the case for keys
  that are made of names.
-/
import HpcBlueprint.Fetch.Git
import HpcBlueprint.Proofs.Fetch.Destination

namespace HpcBlueprint

open FileSystem

variable {ω : Type}

/-! ## Fetchers -/

/-- A fetcher that puts a package where it is told to: if nothing is missing on the way there,
    nothing changes but what is at that place or below. -/
def Fetcher.KeepsTo (f : Fetcher ω) (package dest : String) : Prop :=
  ∀ (w w' : Workspace ω) (r : Except FetchError Unit),
    w.files.Prepared (w.files.lexical dest) dest → f.fetch package dest w = (r, w') →
    SameOutside (w.files.lexical dest) w.files w'.files

theorem Fetcher.sameOutside_fetchFirst {fetchers : List (Fetcher ω)} {package dest : String}
    (keeps : ∀ f, fetchers.find? (·.handles package) = some f → f.KeepsTo package dest)
    {w w' : Workspace ω} {r : Except FetchError Unit}
    (prepared : w.files.Prepared (w.files.lexical dest) dest)
    (h : fetchFirst fetchers package dest w = (r, w')) :
    SameOutside (w.files.lexical dest) w.files w'.files := by
  unfold fetchFirst at h
  split at h
  · rename_i f hfound
    exact keeps f hfound w w' r prepared h
  · obtain ⟨-, rfl⟩ := Prod.mk.inj h
    exact .refl _ _

/-! ## Git -/

namespace Git

/-- A git whose commands for a package change nothing but the directory that they name. -/
def KeepsTo (git : Program ω) (package dest : String) : Prop :=
  ∀ args ∈ commands (.ofPackage package) dest, ∀ w w' r, git args w = (r, w') →
    SameOutside (w.files.lexical dest) w.files w'.files

theorem keepsTo_missing (package dest : String) :
    KeepsTo (missing : Program ω) package dest := by
  intro args _ w w' r h
  obtain ⟨-, rfl⟩ := Prod.mk.inj h
  exact .refl _ _

theorem sameOutside_runAll {git : Program ω} {dest : String} {commands : List (List String)}
    (keeps : ∀ args ∈ commands, ∀ w w' r, git args w = (r, w') →
      SameOutside (w.files.lexical dest) w.files w'.files) {w w' : Workspace ω}
    {r : Except FetchError Unit} (h : runAll git commands w = (r, w')) :
    SameOutside (w.files.lexical dest) w.files w'.files := by
  induction commands generalizing w with
  | nil =>
      obtain ⟨-, rfl⟩ := Prod.mk.inj h
      exact .refl _ _
  | cons args rest ih =>
      obtain ⟨hargs, hrest⟩ := List.forall_mem_cons.mp keeps
      rw [runAll] at h
      split at h
      · rename_i mid hran
        have hfirst := hargs w mid _ hran
        have hmore := ih hrest h
        rw [hfirst.lexical] at hmore
        exact hfirst.trans hmore
      · rename_i f mid hran
        obtain ⟨-, rfl⟩ := Prod.mk.inj h
        exact hargs w _ _ hran

theorem keepsTo_fetcher {git : Program ω} {package dest : String}
    (keeps : KeepsTo git package dest) : (fetcher git).KeepsTo package dest := by
  intro w w' r _ h
  exact sameOutside_runAll keeps h

end Git

/-! ## Objects -/

namespace S3

variable {s : ObjectStore} {a : Address}

/-! ## Keys -/

/-- A key made of names, however it is cut at a slash. -/
def Tidy (key : String) : Prop := ∀ piece ∈ Path.pieces key, piece ≠ "" ∧ piece ≠ ".."

instance (key : String) : Decidable (Tidy key) :=
  inferInstanceAs (Decidable (∀ piece ∈ Path.pieces key, piece ≠ "" ∧ piece ≠ ".."))

theorem Tidy.descends {key : String} (h : Tidy key) : Path.Descends key := by
  refine ⟨?_, fun hup => (h ".." hup).2 rfl⟩
  rw [Bool.eq_false_iff, ne_eq, Path.isAbsolute_iff_pieces]
  rintro ⟨rest, hpieces, -⟩
  exact (h "" (hpieces ▸ List.mem_cons_self)).1 rfl

/-- The beginning of keys that an address has is empty or ends in a slash. -/
theorem start_of_ofPackage? {package : String} (h : Address.ofPackage? package = some a) :
    a.start = "" ∨ ∃ cs, a.start.toList = cs ++ ['/'] := by
  have hslash : "/".toList = ['/'] := by decide
  simp only [Address.ofPackage?, bind, Option.bind_eq_some_iff] at h
  obtain ⟨⟨bucket, start⟩, -, h⟩ := h
  dsimp only at h
  split at h
  · cases h
  · rw [← Option.some.inj h]
    dsimp only
    split
    · rename_i hwhole
      rw [Bool.or_eq_true] at hwhole
      rcases hwhole with hempty | hends
      · exact .inl (String.isEmpty_iff.mp hempty)
      · obtain ⟨cs, hcs⟩ := List.isSuffixOf_iff_suffix.mp hends
        exact .inr ⟨cs, by rw [← hcs, hslash]⟩
    · exact .inr ⟨start.toList, by rw [String.toList_append, hslash]⟩

/-- What is left of a key that is cut behind a slash is as tidy as the key. -/
theorem Tidy.of_append {key rest : String} (h : Tidy key) {front : List Char}
    (hfront : front = [] ∨ ∃ cs, front = cs ++ ['/']) (hkey : key.toList = front ++ rest.toList) :
    Tidy rest := by
  rcases hfront with rfl | ⟨cs, rfl⟩
  · rwa [← String.toList_injective hkey]
  · have hpieces : Path.pieces key = Path.pieces (String.ofList cs) ++ Path.pieces rest := by
      rw [Path.pieces, Text.splitAll, hkey, List.append_assoc, List.singleton_append,
        Path.pieces_append_slash, String.ofList_toList]
    intro piece hpiece
    exact h piece (hpieces ▸ List.mem_append_right _ hpiece)

theorem relative?_eq_some {start key relative : String} (h : relative? start key = some relative) :
    (relative = key ∨ key.toList = start.toList ++ relative.toList) ∧ relative ≠ "" ∧
      Text.endsWith "/" relative = false := by
  unfold relative? at h
  dsimp only at h
  split at h
  · cases h
  · rename_i hkept
    rw [Bool.or_eq_true, not_or] at hkept
    have hrest := Option.some.inj h
    rw [hrest] at hkept
    refine ⟨?_, by simpa using hkept.1, by simpa using hkept.2⟩
    cases hdrop : Text.dropStart? start key with
    | none =>
        rw [hdrop, Option.getD_none] at hrest
        exact .inl hrest.symm
    | some rest =>
        rw [hdrop, Option.getD_some] at hrest
        exact .inr (hrest ▸ Text.dropStart?_eq_some_iff.mp hdrop)

/-- What is left of a tidy key leads only downwards; a key that ends in a slash is passed over. -/
theorem descends_of_relative? {start key relative : String}
    (hstart : start = "" ∨ ∃ cs, start.toList = cs ++ ['/'])
    (tidy : Text.endsWith "/" key = false → Tidy key) (h : relative? start key = some relative) :
    Path.Descends relative := by
  obtain ⟨hkey, hne, hends⟩ := relative?_eq_some h
  rcases hkey with rfl | hkey
  · exact (tidy hends).descends
  · -- the key ends as what is left of it does, since that is not empty
    have hkey_ends : Text.endsWith "/" key = false := by
      rw [Bool.eq_false_iff] at hends ⊢
      intro hslash
      refine hends (List.isSuffixOf_iff_suffix.mpr ?_)
      have hsuffix := List.isSuffixOf_iff_suffix.mp hslash
      rw [hkey] at hsuffix
      rcases List.suffix_or_suffix_of_suffix hsuffix (List.suffix_append _ _) with hshort | hlong
      · exact hshort
      · -- nothing is as short as that but the slash itself
        have hslash : "/".toList = ['/'] := by decide
        rw [hslash, List.suffix_cons_iff, List.suffix_nil, String.toList_eq_nil_iff] at hlong
        have hsame : relative.toList = "/".toList := (hlong.resolve_right hne).trans hslash.symm
        exact hsame ▸ List.suffix_refl _
    refine ((tidy hkey_ends).of_append ?_ hkey).descends
    rcases hstart with rfl | hstart
    · exact .inl rfl
    · exact .inr hstart

theorem exists_object_of_mem_keys {bucket start key : String} {keys : List String}
    (h : s.keys bucket start = .ok keys) (hkey : key ∈ keys) :
    ∃ objects content, (bucket, objects) ∈ s.buckets ∧ (key, content) ∈ objects := by
  unfold ObjectStore.keys at h
  split at h
  · split at h
    · rename_i objects hbucket
      rw [← Except.ok.inj h] at hkey
      obtain ⟨⟨k, content⟩, hobject, rfl⟩ := List.mem_map.mp (List.mem_filter.mp hkey).1
      obtain ⟨before, after, hbuckets, -⟩ := List.lookup_eq_some_iff.mp hbucket
      exact ⟨objects, content, hbuckets ▸ List.mem_append_right _ List.mem_cons_self, hobject⟩
    · cases h
  · cases h

/-- A store in which keys are made of names; keys that end in a slash are passed over. -/
def TidyStore (s : ObjectStore) : Prop :=
  ∀ bucket objects key content, (bucket, objects) ∈ s.buckets → (key, content) ∈ objects →
    Text.endsWith "/" key = false → Tidy key

/-- What is left of tidy keys never leads above where a package goes. -/
theorem TidyStore.stays (tidy : TidyStore s) {package rest : String}
    (hrest : rest ∈ packageRests s package) : Path.Stays rest := by
  obtain ⟨a, keys, key, ha, hkeys, hkey, hrelative⟩ := exists_key_of_mem_packageRests hrest
  obtain ⟨objects, content, hbucket, hobject⟩ := exists_object_of_mem_keys hkeys hkey
  exact (descends_of_relative? (start_of_ofPackage? ha)
    (tidy a.bucket objects key content hbucket hobject) hrelative).stays

/-- Objects are stored where packages go if what is left of their keys never leads above. -/
theorem keepsTo_fetcher {note : List ObjectStore.Request → ω → ω} {package : String}
    (stays : ∀ rest ∈ packageRests s package, Path.Stays rest) (dest : String) :
    (fetcher s note).KeepsTo package dest := by
  intro w w' r prepared h
  have hkept : ∀ rest ∈ packageRests s package, w.files.KeptBelow dest rest :=
    fun rest hrest => keptBelow_of_stays prepared (stays rest hrest)
  have hstored := sameOutside_fetch hkept
  unfold fetcher at h
  dsimp only at h
  cases hfetch : fetch s package dest w.files with
  | mk outcome p =>
      rw [hfetch] at h hstored
      obtain ⟨-, rfl⟩ := Prod.mk.inj h
      exact hstored

end S3
end HpcBlueprint
