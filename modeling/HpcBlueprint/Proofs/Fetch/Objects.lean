/-
  What becomes of the objects of a package.

  An object is got, the directories above its file are made, and then its content is written
  (`Obtains`); its file is what is left of its key behind the destination.  Objects are obtained
  one after the other up to the first that fails (`Fetches`).  All that are obtained stand in the
  tree afterwards, unless a later one has gone to the same place, and nothing else has changed
  but directories that were missing on the way.
-/
import HpcBlueprint.Proofs.Fetch.Destination

namespace HpcBlueprint

open FileSystem

namespace S3

/-! ## Wanted objects -/

section Wanted

variable {start key rest : String}

/-- An object is wanted if its key begins as the package does, and what is left of it is
    neither empty nor ends in a slash. -/
def Wanted (start key : String) : Prop :=
  ∃ rest, key = start ++ rest ∧ rest ≠ "" ∧ Text.endsWith "/" rest = false

theorem relative?_append (start rest : String) :
    relative? start (start ++ rest) =
      if rest = "" ∨ Text.endsWith "/" rest = true then none else some rest := by
  rw [relative?, Text.dropStart?_append, Option.getD_some]
  simp only [Bool.or_eq_true, String.isEmpty_iff]

theorem relative?_eq_some_iff (h : Text.startsWith start key = true) :
    relative? start key = some rest ↔
      key = start ++ rest ∧ rest ≠ "" ∧ Text.endsWith "/" rest = false := by
  obtain ⟨left, rfl⟩ := Text.exists_append_of_startsWith h
  rw [relative?_append, Option.ite_none_left_eq_some, not_or, Bool.not_eq_true,
    Option.some.injEq, String.append_right_inj]
  constructor
  · rintro ⟨⟨hne, hend⟩, rfl⟩
    exact ⟨rfl, hne, hend⟩
  · rintro ⟨rfl, hne, hend⟩
    exact ⟨⟨hne, hend⟩, rfl⟩

theorem wanted_iff :
    Wanted start key ↔ Text.startsWith start key = true ∧ (relative? start key).isSome = true := by
  rw [Option.isSome_iff_exists]
  constructor
  · rintro ⟨rest, rfl, hrest⟩
    have hstart := Text.startsWith_append start rest
    exact ⟨hstart, rest, (relative?_eq_some_iff hstart).mpr ⟨rfl, hrest⟩⟩
  · rintro ⟨hstart, rest, hrest⟩
    exact ⟨rest, (relative?_eq_some_iff hstart).mp hrest⟩

instance : DecidablePred (Wanted start) := fun _ => decidable_of_iff _ wanted_iff.symm

end Wanted

/-! ## One object -/

variable {s : ObjectStore} {a : Address} {dest key : String} {keys : List String}
  {fs fs' fs₁ fs₂ fs₃ : FileSystem} {r r' : Except FetchError Unit} {p p' : Progress}

/-- The path of the object with a key: what is left of the key, seen from the destination. -/
def target (a : Address) (dest key : String) : String :=
  Path.join dest ((Text.dropStart? a.start key).getD key)

theorem target_append (a : Address) (dest rest : String) :
    target a dest (a.start ++ rest) = Path.join dest rest := by
  rw [target, Text.dropStart?_append, Option.getD_some]

/-- The path of the directory above the object with a key. -/
def above (a : Address) (dest key : String) : String :=
  (Path.parent? (target a dest key)).getD ""

/-- What comes of asking for the object with a key.  It is stored if it can be got, the
    directories above it can be made and its file can be written; else the first of these that
    fails is the error. -/
inductive Obtains (s : ObjectStore) (a : Address) (dest key : String) (fs : FileSystem) :
    Except FetchError Unit → FileSystem → Prop
  | stored {content : Content} {made fs' : FileSystem} (got : s.get a.bucket key = .ok content)
      (directories : fs.makeDirectories (Path.ancestors (above a dest key)) = (.ok (), made))
      (written : made.writeContent (target a dest key) content = .ok fs') :
      Obtains s a dest key fs (.ok ()) fs'
  | denied {f : ObjectStore.Failure} (got : s.get a.bucket key = .error f) :
      Obtains s a dest key fs
        (.error (.s3 ("Failed to get " ++ urlOf a.bucket key ++ ": " ++ f.message))) fs
  | unmade {content : Content} {e : FileError} {made : FileSystem}
      (got : s.get a.bucket key = .ok content)
      (directories : fs.makeDirectories (Path.ancestors (above a dest key)) = (.error e, made)) :
      Obtains s a dest key fs (.error (.files ("failed to create " ++ above a dest key) e)) made
  | unwritten {content : Content} {e : FileError} {made : FileSystem}
      (got : s.get a.bucket key = .ok content)
      (directories : fs.makeDirectories (Path.ancestors (above a dest key)) = (.ok (), made))
      (written : made.writeContent (target a dest key) content = .error e) :
      Obtains s a dest key fs (.error (.files ("failed to write " ++ target a dest key) e)) made

theorem obtains_of_download {rest : String} (hrest : relative? a.start key = some rest)
    (h : download s a.bucket key (Path.join dest rest) p = (r, p')) :
    Obtains s a dest key p.files r p'.files ∧
      p'.requests = p.requests ++ [.get a.bucket key] ∧
      (r = .ok () → p'.count = p.count + 1) := by
  have htarget : Path.join dest rest = target a dest key := by
    rw [target, (Option.some.inj (Option.ite_none_left_eq_some.mp hrest).2 : _ = rest)]
  rw [htarget] at h
  unfold download store at h
  dsimp only at h
  cases hget : s.get a.bucket key with
  | error f =>
      rw [hget] at h
      obtain ⟨rfl, rfl⟩ := Prod.mk.inj h
      exact ⟨.denied hget, rfl, fun hr => by cases hr⟩
  | ok content =>
      rw [hget] at h
      dsimp only at h
      cases hmake : p.files.makeDirectories (Path.ancestors (above a dest key)) with
      | mk outcome made =>
          rw [← above, hmake] at h
          cases outcome with
          | error e =>
              obtain ⟨rfl, rfl⟩ := Prod.mk.inj h
              exact ⟨.unmade hget hmake, rfl, fun hr => by cases hr⟩
          | ok =>
              dsimp only at h
              cases hwrite : made.writeContent (target a dest key) content with
              | error e =>
                  rw [hwrite] at h
                  obtain ⟨rfl, rfl⟩ := Prod.mk.inj h
                  exact ⟨.unwritten hget hmake hwrite, rfl, fun hr => by cases hr⟩
              | ok filled =>
                  rw [hwrite] at h
                  obtain ⟨rfl, rfl⟩ := Prod.mk.inj h
                  exact ⟨.stored hget hmake hwrite, rfl, fun _ => rfl⟩

namespace Obtains

/-- Only the tree before decides. -/
theorem unique (h : Obtains s a dest key fs r fs₁) (h' : Obtains s a dest key fs r' fs₂) :
    r' = r ∧ fs₂ = fs₁ := by
  -- what the store answers and how making and writing end tells the constructors apart
  cases h <;> cases h' <;> simp_all

theorem keeps (h : Obtains s a dest key fs r fs') : Keeps fs fs' := by
  cases h with
  | stored got directories written =>
      exact (addsDirectories_of_made directories).toKeeps.trans (keeps_of_writeContent written)
  | denied got => exact .refl fs
  | unmade got directories => exact (addsDirectories_of_made directories).toKeeps
  | unwritten got directories written => exact (addsDirectories_of_made directories).toKeeps

/-- An object that fails leaves at most directories behind. -/
theorem addsDirectories {e : FetchError} (h : Obtains s a dest key fs (.error e) fs') :
    AddsDirectories fs fs' := by
  cases h with
  | denied got => exact .refl fs
  | unmade got directories => exact addsDirectories_of_made directories
  | unwritten got directories written => exact addsDirectories_of_made directories

/-- An object that is stored stands where it goes, with all its content. -/
theorem find (h : Obtains s a dest key fs (.ok ()) fs') :
    ∃ content, s.get a.bucket key = .ok content ∧
      fs'.find (target a dest key) = .ok (fs'.lexical (target a dest key), .file content) := by
  have hkeeps := h.keeps
  cases h with
  | @stored content made _ got directories written =>
      refine ⟨content, got, ?_⟩
      rw [find_of_writeContent written, hkeeps.lexical,
        (addsDirectories_of_made directories).lexical]

/-- Nothing else changes, but for directories that were missing on the way. -/
theorem node? (h : Obtains s a dest key fs r fs') (l : Location) :
    fs'.node? l = fs.node? l ∨ l = fs.lexical (target a dest key) ∨
      (fs.node? l = none ∧ fs'.node? l = some .directory ∧
        ∃ q, Path.Passed (target a dest key) q ∧ l = fs.lexical q) := by
  have hmaking : ∀ {outcome made},
      fs.makeDirectories (Path.ancestors (above a dest key)) = (outcome, made) →
      made.node? l = fs.node? l ∨ (fs.node? l = none ∧ made.node? l = some .directory ∧
        ∃ q, Path.Passed (target a dest key) q ∧ l = fs.lexical q) := by
    intro outcome made hmade
    have hnode := node?_makeDirectories fs (Path.ancestors (above a dest key)) l
    rw [hmade] at hnode
    refine hnode.imp_right ?_
    rintro ⟨hnew, hmade, q, hq, hl⟩
    exact ⟨hnew, hmade, q, Path.passed_of_mem_ancestors hq, hl⟩
  cases h with
  | denied got => exact .inl rfl
  | unmade got directories => exact (hmaking directories).imp_right .inr
  | unwritten got directories written => exact (hmaking directories).imp_right .inr
  | stored got directories written =>
      by_cases hl : l = fs.lexical (target a dest key)
      · exact .inr (.inl hl)
      · rw [node?_of_writeContent written
          (by rwa [(addsDirectories_of_made directories).lexical])]
        exact (hmaking directories).imp_right .inr

end Obtains

/-! ## Objects in a row -/

/-- Objects are obtained one after the other up to the first that fails: the keys that there
    are, the tree before, how it ends, the keys that are asked for, the tree behind. -/
inductive Fetches (s : ObjectStore) (a : Address) (dest : String) :
    List String → FileSystem → Except FetchError Unit → List String → FileSystem → Prop
  | done {fs : FileSystem} : Fetches s a dest [] fs (.ok ()) [] fs
  | stored {key : String} {keys asked : List String} {fs mid fs' : FileSystem}
      {r : Except FetchError Unit} :
      Obtains s a dest key fs (.ok ()) mid → Fetches s a dest keys mid r asked fs' →
        Fetches s a dest (key :: keys) fs r (key :: asked) fs'
  | failed {key : String} {keys : List String} {fs fs' : FileSystem} {e : FetchError} :
      Obtains s a dest key fs (.error e) fs' →
        Fetches s a dest (key :: keys) fs (.error e) [key] fs'

namespace Fetches

variable {asked asked' before more after : List String} {e : FetchError}

/-- Only the keys and the tree before decide. -/
theorem unique (h : Fetches s a dest keys fs r asked fs₁)
    (h' : Fetches s a dest keys fs r' asked' fs₂) : r' = r ∧ asked' = asked ∧ fs₂ = fs₁ := by
  induction h generalizing r' asked' fs₂ with
  | done =>
      cases h'
      exact ⟨rfl, rfl, rfl⟩
  | stored hkey _ ih =>
      cases h' with
      | stored hkey' hrest =>
          obtain ⟨-, rfl⟩ := hkey.unique hkey'
          obtain ⟨rfl, rfl, rfl⟩ := ih hrest
          exact ⟨rfl, rfl, rfl⟩
      | failed hkey' => cases (hkey.unique hkey').1
  | failed hkey =>
      cases h' with
      | stored hkey' _ => cases (hkey.unique hkey').1
      | failed hkey' =>
          obtain ⟨he, rfl⟩ := hkey.unique hkey'
          exact ⟨he, rfl, rfl⟩

theorem append (h : Fetches s a dest keys fs₁ (.ok ()) asked fs₂)
    (hmore : Fetches s a dest after fs₂ r more fs₃) :
    Fetches s a dest (keys ++ after) fs₁ r (asked ++ more) fs₃ := by
  generalize hr : (Except.ok () : Except FetchError Unit) = done at h
  induction h with
  | done => exact hmore
  | stored hkey _ ih => exact .stored hkey (ih hmore hr)
  | failed => cases hr

/-- What follows an object that fails is not asked for. -/
theorem append_of_error (h : Fetches s a dest keys fs (.error e) asked fs') :
    Fetches s a dest (keys ++ after) fs (.error e) asked fs' := by
  generalize hr : (Except.error e : Except FetchError Unit) = failed at h
  induction h with
  | done => cases hr
  | stored hkey _ ih => exact .stored hkey (ih hr)
  | failed hkey => exact .failed hkey

theorem asked_prefix (h : Fetches s a dest keys fs r asked fs') : asked <+: keys := by
  induction h with
  | done => exact List.prefix_rfl
  | stored _ _ ih => exact List.cons_prefix_cons.mpr ⟨rfl, ih⟩
  | failed => exact List.cons_prefix_cons.mpr ⟨rfl, List.nil_prefix⟩

theorem asked_eq (h : Fetches s a dest keys fs (.ok ()) asked fs') : asked = keys := by
  generalize hr : (Except.ok () : Except FetchError Unit) = done at h
  induction h with
  | done => rfl
  | stored _ _ ih => rw [ih hr]
  | failed => cases hr

/-- The keys that are asked for end in the one that fails, and all before it is stored. -/
theorem exists_failed (h : Fetches s a dest keys fs (.error e) asked fs') :
    ∃ before key after mid, keys = before ++ key :: after ∧ asked = before ++ [key] ∧
      Fetches s a dest before fs (.ok ()) before mid ∧
      Obtains s a dest key mid (.error e) fs' := by
  generalize hr : (Except.error e : Except FetchError Unit) = failed at h
  induction h with
  | done => cases hr
  | stored hkey _ ih =>
      obtain ⟨before, failing, after, mid, rfl, rfl, hbefore, hfailing⟩ := ih hr
      exact ⟨_ :: before, failing, after, mid, rfl, rfl, .stored hkey hbefore, hfailing⟩
  | failed hkey =>
      cases hr
      exact ⟨[], _, _, _, rfl, rfl, .done, hkey⟩

/-- Where all objects are stored, each is stored with others to follow. -/
theorem exists_stored (h : Fetches s a dest (before ++ key :: after) fs (.ok ()) asked fs') :
    ∃ mid next, Obtains s a dest key mid (.ok ()) next ∧
      Fetches s a dest after next (.ok ()) after fs' := by
  induction before generalizing fs asked with
  | nil =>
      cases h with
      | stored hkey hrest => exact ⟨_, _, hkey, hrest.asked_eq ▸ hrest⟩
  | cons first rest ih =>
      cases h with
      | stored _ hrest => exact ih hrest

/-! ## The tree behind -/

theorem keeps (h : Fetches s a dest keys fs r asked fs') : Keeps fs fs' := by
  induction h with
  | done => exact .refl _
  | stored hkey _ ih => exact hkey.keeps.trans ih
  | failed hkey => exact hkey.keeps

/-- Of all places only those of the objects asked for change, and those of directories that were
    missing on the way to them. -/
theorem node? (h : Fetches s a dest keys fs r asked fs') (l : Location) :
    fs'.node? l = fs.node? l ∨ (∃ key ∈ asked, l = fs.lexical (target a dest key)) ∨
      (fs.node? l = none ∧ fs'.node? l = some .directory ∧
        ∃ key ∈ asked, ∃ q, Path.Passed (target a dest key) q ∧ l = fs.lexical q) := by
  induction h with
  | done => exact .inl rfl
  | @failed key _ _ _ _ hkey =>
      rcases hkey.node? l with hsame | hl | ⟨hnew, hmade, q, hq, hl⟩
      · exact .inl hsame
      · exact .inr (.inl ⟨key, List.mem_cons_self, hl⟩)
      · exact .inr (.inr ⟨hnew, hmade, key, List.mem_cons_self, q, hq, hl⟩)
  | @stored key _ _ _ _ _ _ hkey _ ih =>
      rcases ih with hsame | ⟨later, hlater, hl⟩ | ⟨hnew, hmade, later, hlater, q, hq, hl⟩
      · rw [hsame]
        rcases hkey.node? l with hsame | hl | ⟨hnew, hmade, q, hq, hl⟩
        · exact .inl hsame
        · exact .inr (.inl ⟨key, List.mem_cons_self, hl⟩)
        · exact .inr (.inr ⟨hnew, hmade, key, List.mem_cons_self, q, hq, hl⟩)
      · rw [hkey.keeps.lexical] at hl
        exact .inr (.inl ⟨later, List.mem_cons_of_mem _ hlater, hl⟩)
      · rw [hkey.keeps.lexical] at hl
        -- what is missing behind the first object was missing before, or the object went there
        rcases hkey.node? l with hsame | hl' | ⟨-, hmade', -⟩
        · exact .inr (.inr ⟨hsame ▸ hnew, hmade, later, List.mem_cons_of_mem _ hlater, q, hq, hl⟩)
        · exact .inr (.inl ⟨key, List.mem_cons_self, hl'⟩)
        · rw [hnew] at hmade'
          cases hmade'

end Fetches

/-- The objects with these keys stand where they go, with all their content and the directories
    above them, unless a later one goes to the same place. -/
def Holds (s : ObjectStore) (a : Address) (dest : String) (keys : List String)
    (fs : FileSystem) : Prop :=
  ∀ before key after, keys = before ++ key :: after →
    (∀ later ∈ after, fs.lexical (target a dest later) ≠ fs.lexical (target a dest key)) →
    ∃ content, s.get a.bucket key = .ok content ∧
      fs.find (target a dest key) = .ok (fs.lexical (target a dest key), .file content) ∧
      fs.Reached (target a dest key)

theorem Fetches.holds {asked : List String} (h : Fetches s a dest keys fs (.ok ()) asked fs') :
    Holds s a dest keys fs' := by
  rintro before key after rfl hlast
  obtain ⟨mid, next, hkey, hrest⟩ := h.exists_stored
  obtain ⟨content, hgot, hfind⟩ := hkey.find
  have hkeeps := hrest.keeps
  have hnode := (find_eq_ok_iff.mp hfind).2
  -- what follows goes elsewhere, and the place is not free for a directory
  have hsame : fs'.node? (next.lexical (target a dest key)) = some (.file content) := by
    rcases hrest.node? (next.lexical (target a dest key)) with hsame | ⟨later, hlater, hl⟩ |
      ⟨hnew, -, -⟩
    · rw [hsame, hnode]
    · rw [← hkeeps.lexical, ← hkeeps.lexical] at hl
      exact absurd hl.symm (hlast later hlater)
    · rw [hnode] at hnew
      cases hnew
  have hlocate := hkeeps.locate (find_eq_ok_iff.mp hfind).1
  rw [← hkeeps.lexical] at hsame hlocate
  exact ⟨content, hgot, find_eq_ok_iff.mpr ⟨hlocate, hsame⟩, reached_of_locate hlocate⟩

/-- An object that fails takes away nothing of what stands already. -/
theorem Holds.of_error {e : FetchError} (h : Holds s a dest keys fs)
    (hkey : Obtains s a dest key fs (.error e) fs') : Holds s a dest keys fs' := by
  intro before key' after hkeys hlast
  have hadds := hkey.addsDirectories
  simp only [hadds.toKeeps.lexical] at hlast ⊢
  obtain ⟨content, hgot, hfind, hreached⟩ := h before key' after hkeys hlast
  obtain ⟨hlocate, hnode⟩ := find_eq_ok_iff.mp hfind
  have hfile := hadds.file (fs.lexical (target a dest key'))
  rw [file?_eq_some_iff.mpr hnode] at hfile
  exact ⟨content, hgot,
    find_eq_ok_iff.mpr ⟨hadds.toKeeps.locate hlocate, file?_eq_some_iff.mp hfile⟩,
    hreached.of_keeps hadds.toKeeps⟩

end S3
end HpcBlueprint
