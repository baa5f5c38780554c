/-
  The parents of a path.

  A parent of a path has the pieces with which the path begins, so it is passed by every walk
  along the path.  What is made to have the directories of a path that leads through some
  directory therefore lies below that directory, as long as nothing leads upwards again.
-/
import HpcBlueprint.Proofs.Files.Passage

namespace HpcBlueprint

/-! ## Pieces -/

namespace Text

theorem not_mem_of_mem_pieces {sep : Char} {cs piece : List Char} (h : piece ∈ pieces sep cs) :
    sep ∉ piece := by
  induction cs generalizing piece with
  | nil =>
      rw [pieces, List.mem_singleton] at h
      rw [h]
      exact List.not_mem_nil
  | cons c rest ih =>
      rw [pieces] at h
      split at h
      · rcases List.mem_cons.mp h with rfl | h
        · exact List.not_mem_nil
        · exact ih h
      · rename_i hne
        cases hrest : pieces sep rest with
        | nil => exact absurd hrest (pieces_ne_nil sep rest)
        | cons first more =>
            rw [hrest] at h ih
            rcases List.mem_cons.mp h with rfl | h
            · rw [List.mem_cons, not_or]
              exact ⟨fun heq => hne (by simpa using heq.symm), ih List.mem_cons_self⟩
            · exact ih (List.mem_cons_of_mem _ h)

/-- The pieces of a text have no other characters than the text. -/
theorem mem_of_mem_pieces {sep c : Char} {cs piece : List Char} (h : piece ∈ pieces sep cs)
    (hc : c ∈ piece) : c ∈ cs := by
  induction cs generalizing piece with
  | nil =>
      rw [pieces, List.mem_singleton] at h
      rwa [h] at hc
  | cons first rest ih =>
      have hrest : ∀ piece ∈ pieces sep rest, c ∈ piece → c ∈ first :: rest := fun piece h hc =>
        List.mem_cons_of_mem _ (ih h hc)
      rw [pieces] at h
      split at h
      · rcases List.mem_cons.mp h with rfl | h
        · cases hc
        · exact hrest piece h hc
      · split at h
        · rw [List.mem_singleton.mp h, List.mem_singleton] at hc
          exact hc ▸ List.mem_cons_self
        · rename_i next more hpieces
          rw [hpieces] at hrest
          rcases List.mem_cons.mp h with rfl | h
          · -- the first piece goes on with the first one of the rest
            rcases List.mem_cons.mp hc with rfl | hc
            · exact List.mem_cons_self
            · exact hrest next List.mem_cons_self hc
          · exact hrest piece (List.mem_cons_of_mem _ h) hc

end Text

namespace Path

theorem mem_toList_of_mem_pieces {path piece : String} {c : Char} (h : piece ∈ pieces path)
    (hc : c ∈ piece.toList) : c ∈ path.toList := by
  obtain ⟨cs, hcs, rfl⟩ := List.mem_map.mp h
  rw [String.toList_ofList] at hc
  exact Text.mem_of_mem_pieces hcs hc

theorem slash_not_mem_of_mem_pieces {path piece : String} (h : piece ∈ pieces path) :
    '/' ∉ piece.toList := by
  obtain ⟨cs, hcs, rfl⟩ := List.mem_map.mp h
  rw [String.toList_ofList]
  exact Text.not_mem_of_mem_pieces hcs

/-- Cutting at slashes undoes joining by slashes. -/
theorem pieces_intercalate {ps : List String} (hne : ps ≠ []) (h : ∀ p ∈ ps, '/' ∉ p.toList) :
    pieces ("/".intercalate ps) = ps := by
  have hslash : "/".toList = ['/'] := by decide
  -- a text without slashes is cut nowhere
  have hone : ∀ p : String, '/' ∉ p.toList → pieces p = [p] := by
    intro p hp
    rw [pieces, Text.splitAll, Text.pieces_of_not_mem hp, List.map_singleton, String.ofList_toList]
  induction ps with
  | nil => exact absurd rfl hne
  | cons p rest ih =>
      obtain ⟨hp, hrest⟩ := List.forall_mem_cons.mp h
      cases rest with
      | nil =>
          rw [String.intercalate_singleton]
          exact hone p hp
      | cons q more =>
          have hmore := ih (List.cons_ne_nil q more) hrest
          rw [String.intercalate_cons_cons, pieces, Text.splitAll, String.toList_append,
            String.toList_append, hslash, List.append_assoc, List.singleton_append,
            pieces_append_slash, String.ofList_toList, String.ofList_toList, hmore, hone p hp]
          rfl

/-- A path starts at the root if its first piece is empty and not the only one. -/
theorem isAbsolute_iff_pieces {path : String} :
    isAbsolute path = true ↔ ∃ rest, pieces path = "" :: rest ∧ rest ≠ [] := by
  rw [isAbsolute_iff, pieces, Text.splitAll]
  cases path.toList with
  | nil =>
      rw [Text.pieces]
      simp
  | cons c cs =>
      rw [Text.pieces, List.head?_cons, Option.some.injEq]
      by_cases hc : c = '/'
      · simp [hc, Text.pieces_ne_nil]
      · have hbeq : (c == '/') = false := by simpa using hc
        rw [hbeq, if_neg Bool.false_ne_true]
        cases Text.pieces '/' cs with
        | nil => simp [hc]
        | cons piece more => simp [hc]

theorem trim_suffix (rev : List String) : trim rev <:+ rev := by
  induction rev with
  | nil => exact List.suffix_refl _
  | cons piece rest ih =>
      cases rest with
      | nil => exact List.suffix_refl _
      | cons next more =>
          have hrest : next :: more = [] → False := List.cons_ne_nil next more
          rw [trim.eq_3 piece _ hrest]
          split
          · exact ih.trans (List.suffix_cons piece _)
          · exact List.suffix_refl _

theorem pieces_ne_singleton_empty {path : String} (h : path ≠ "") : pieces path ≠ [""] := by
  obtain ⟨c, cs, hcons⟩ := List.exists_cons_of_ne_nil (mt String.toList_eq_nil_iff.mp h)
  rw [pieces, Text.splitAll, hcons, Text.pieces]
  split
  · simp [Text.pieces_ne_nil]
  · cases Text.pieces '/' cs with
    | nil => simp
    | cons piece more => simp

/-- A path that begins with the pieces of another one starts where that does. -/
theorem isAbsolute_eq_of_prefix {path p : String} (hne : p ≠ "") (h : pieces p <+: pieces path) :
    isAbsolute p = isAbsolute path := by
  obtain ⟨more, hmore⟩ := h
  rw [Bool.eq_iff_iff, isAbsolute_iff_pieces, isAbsolute_iff_pieces, ← hmore]
  have hpieces := pieces_ne_singleton_empty hne
  cases hp : pieces p with
  | nil => exact absurd hp (pieces_ne_nil p)
  | cons first rest =>
      rw [hp] at hpieces
      constructor
      · rintro ⟨rest', heq, hrest⟩
        obtain ⟨rfl, rfl⟩ := List.cons.inj heq
        exact ⟨rest ++ more, rfl, by simp [hrest]⟩
      · rintro ⟨rest', heq, -⟩
        obtain ⟨rfl, -⟩ := List.cons.inj heq
        exact ⟨rest, rfl, fun hnil => hpieces (by rw [hnil])⟩

/-! ## Parents -/

/-- A path that every walk along another one passes: the root, or one with pieces with which
    the other one begins. -/
def Passed (path p : String) : Prop := p = "/" ∨ p ≠ "" ∧ pieces p <+: pieces path

theorem passed_parent {path p : String} (h : parent? path = some p) (hne : p ≠ "") :
    Passed path p := by
  unfold parent? at h
  split at h
  · cases h
  · rename_i last rest htrim
    split at h
    · cases h
    · have hp : ofReversed (trim rest) = p := Option.some.inj h
      have hsuffix : trim rest <:+ (pieces path).reverse := by
        have hall := trim_suffix (pieces path).reverse
        rw [htrim] at hall
        exact (trim_suffix rest).trans ((List.suffix_cons last rest).trans hall)
      have hstarts : (trim rest).reverse <+: pieces path := by
        rw [← List.reverse_suffix, List.reverse_reverse]
        exact hsuffix
      -- the parent is joined of these pieces, and cutting it gives them back
      unfold ofReversed at hp
      split at hp
      · exact .inl hp.symm
      · by_cases hnil : (trim rest).reverse = []
        · rw [hnil] at hp
          exact absurd hp.symm hne
        · have hpieces : pieces p = (trim rest).reverse := by
            rw [← hp]
            exact pieces_intercalate hnil fun q hq =>
              slash_not_mem_of_mem_pieces (hstarts.subset hq)
          exact .inr ⟨hne, hpieces ▸ hstarts⟩

theorem eq_root_of_mem_ancestorsWithin {n : Nat} {p : String} (h : p ∈ ancestorsWithin n "/") :
    p = "/" := by
  have hparent : parent? "/" = none := by decide
  cases n with
  | zero => cases h
  | succ n =>
      rw [ancestorsWithin, hparent] at h
      exact List.mem_singleton.mp h

theorem not_mem_ancestorsWithin_empty {n : Nat} {p : String} : p ∉ ancestorsWithin n "" := by
  cases n <;> exact List.not_mem_nil

/-- What is passed on the way to the parent of a path is passed on the way to the path. -/
theorem Passed.of_parent {path parent p : String} {n : Nat} (h : Passed parent p)
    (hparent : parent? path = some parent) (hp : p ∈ ancestorsWithin n parent) :
    Passed path p := by
  by_cases hempty : parent = ""
  · rw [hempty] at hp
    exact absurd hp not_mem_ancestorsWithin_empty
  · rcases passed_parent hparent hempty with rfl | ⟨-, hstarts⟩
    · exact .inl (eq_root_of_mem_ancestorsWithin hp)
    · rcases h with hroot | ⟨hne, hbegins⟩
      · exact .inl hroot
      · exact .inr ⟨hne, hbegins.trans hstarts⟩

theorem passed_of_mem_ancestorsWithin {n : Nat} {path p : String}
    (h : p ∈ ancestorsWithin n path) : Passed path p := by
  -- along the chain of parents, of which each is passed on the way to the one before
  induction n generalizing path with
  | zero => cases h
  | succ n ih =>
      rw [ancestorsWithin] at h
      split at h
      · cases h
      · rename_i hpath
        rcases List.mem_cons.mp h with rfl | h
        · exact .inr ⟨by simpa using hpath, List.prefix_refl _⟩
        · split at h
          · rename_i parent hparent
            exact (ih h).of_parent hparent h
          · cases h

/-- The directories above a path are passed on the way to it. -/
theorem passed_of_mem_ancestors {path p : String} (h : p ∈ ancestors ((parent? path).getD "")) :
    Passed path p := by
  cases hparent : parent? path with
  | none =>
      rw [hparent] at h
      exact absurd h not_mem_ancestorsWithin_empty
  | some parent =>
      rw [hparent, Option.getD_some] at h
      exact (passed_of_mem_ancestorsWithin h).of_parent hparent h

end Path
end HpcBlueprint
