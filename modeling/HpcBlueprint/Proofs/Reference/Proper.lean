/-
  The references that can be written and read back.

  What stands between the parentheses is cut at its first dot into two names of name
  characters, and the name of the variables is no module.  So the text of a reference is read
  back as that reference exactly when the reference is proper, and everything that is read
  from a text is proper.
-/
import HpcBlueprint.Proofs.Reference.Openings

namespace HpcBlueprint

namespace Reference

variable {r : Reference}

/-- A reference whose names are names, and which is not to a module of the name that stands
    for the variables. -/
def IsProper : Reference → Prop
  | .var name => isName name.toList = true
  | .output module name =>
    isName module.toList = true ∧ isName name.toList = true ∧ module ≠ varsNamespace

instance : DecidablePred IsProper
  | .var _ => inferInstanceAs (Decidable (_ = _))
  | .output _ _ => inferInstanceAs (Decidable (_ ∧ _ ∧ _))

/-- What stands between the parentheses. -/
def inner : Reference → List Char
  | .var name => varsNamespace.toList ++ '.' :: name.toList
  | .output module name => module.toList ++ '.' :: name.toList

theorem toList_text (r : Reference) : r.text.toList = '$' :: '(' :: (r.inner ++ [')']) := by
  cases r with
  | var name => simp [text, inner, varsNamespace]
  | output module name => simp [text, inner]

/-! ## Names -/

theorem not_mem_of_isName {cs : List Char} (h : isName cs = true) {c : Char}
    (hc : isNameChar c = false) : c ∉ cs := by
  intro hmem
  rw [isName, Bool.and_eq_true, List.all_eq_true] at h
  rw [h.2 c hmem] at hc
  cases hc

/-- Characters are cut at the first of a kind. -/
theorem cut_at {cs : List Char} {d : Char} (h : d ∉ cs) (rest : List Char) :
    (cs ++ d :: rest).takeWhile (· != d) = cs ∧
      (cs ++ d :: rest).dropWhile (· != d) = d :: rest := by
  have hall : ∀ c ∈ cs, (c != d) = true := fun c hc => bne_iff_ne.mpr fun heq => h (heq ▸ hc)
  constructor
  · rw [List.takeWhile_append_of_pos hall, List.takeWhile_cons_of_neg (by simp), List.append_nil]
  · rw [List.dropWhile_append_of_pos hall, List.dropWhile_cons_of_neg (by simp)]

theorem isName_varsNamespace : isName varsNamespace.toList = true := by decide

/-! ## Between the parentheses -/

theorem isProper_of_ofInner {cs : List Char} (h : ofInner cs = .ok r) : r.IsProper := by
  unfold ofInner at h
  dsimp only at h
  split at h
  · cases h
  · split at h
    · rename_i hnames
      rw [Bool.and_eq_true] at hnames
      split at h
      · cases h
        simpa [IsProper] using hnames.2
      · rename_i hvars
        cases h
        refine ⟨?_, ?_, fun heq => hvars (beq_iff_eq.mpr heq)⟩
        · simpa using hnames.1
        · simpa using hnames.2
    · cases h

theorem ofInner_inner (h : r.IsProper) : ofInner r.inner = .ok r := by
  cases r with
  | var name =>
      have hdot := not_mem_of_isName isName_varsNamespace (c := '.') (by decide)
      obtain ⟨hhead, htail⟩ := cut_at hdot name.toList
      have hname : isName name.toList = true := h
      simp only [inner, ofInner, hhead, htail, isName_varsNamespace, hname, Bool.and_self,
        if_true, String.ofList_toList, BEq.rfl]
  | output module name =>
      obtain ⟨hmodule, hname, hne⟩ := h
      have hdot := not_mem_of_isName hmodule (c := '.') (by decide)
      obtain ⟨hhead, htail⟩ := cut_at hdot name.toList
      simp only [inner, ofInner, hhead, htail, hmodule, hname, Bool.and_self, if_true,
        String.ofList_toList, beq_eq_false_iff_ne.mpr hne, Bool.false_eq_true, if_false]

/-- No parenthesis stands between the parentheses of a proper reference. -/
theorem paren_not_mem_inner (h : r.IsProper) : ')' ∉ r.inner := by
  have hparen : isNameChar ')' = false := by decide
  have hnames : ∀ {front back : List Char}, isName front = true → isName back = true →
      ')' ∉ front ++ '.' :: back := by
    intro front back hfront hback hmem
    rcases List.mem_append.mp hmem with hmem | hmem
    · exact not_mem_of_isName hfront hparen hmem
    · rcases List.mem_cons.mp hmem with heq | hmem
      · exact absurd heq (by decide)
      · exact not_mem_of_isName hback hparen hmem
  cases r with
  | var name => exact hnames isName_varsNamespace h
  | output module name => exact hnames h.1 h.2.1

theorem toList_text_append (r : Reference) (rest : List Char) :
    r.text.toList ++ rest = '$' :: '(' :: (r.inner ++ ')' :: rest) := by
  rw [toList_text]
  simp

end Reference

namespace Expression

variable {r : Reference} {text : String}

/-! ## Inside a text -/

/-- What begins with `$(` and holds a parenthesis is scanned as a reference and what follows. -/
theorem scanFrom_opening {inner later : List Char} (h : ')' ∉ inner) (text : String)
    (pending : List Char) :
    scanFrom text false pending ('$' :: '(' :: (inner ++ ')' :: later)) =
      (Reference.ofInner inner).bind fun r => (scanFrom text false [] later).map fun tail =>
        textSegment pending ++ .ref r :: tail := by
  obtain ⟨htake, hdrop⟩ := Reference.cut_at h later
  rw [scanFrom, if_neg Bool.false_ne_true]
  split
  · rename_i hdrop'
    rw [hdrop] at hdrop'
    cases hdrop'
  · rename_i close later' hdrop'
    rw [hdrop] at hdrop'
    obtain ⟨-, rfl⟩ := List.cons.inj hdrop'
    rw [htake]
    cases Reference.ofInner inner with
    | error e => rfl
    | ok r => cases scanFrom text false [] later <;> rfl

/-- The text of a proper reference is scanned as that reference, whatever follows it. -/
theorem scanFrom_text_append (h : r.IsProper) (text : String) (pending rest : List Char) :
    scanFrom text false pending (r.text.toList ++ rest) =
      (scanFrom text false [] rest).map fun tail => textSegment pending ++ .ref r :: tail := by
  rw [Reference.toList_text_append, scanFrom_opening (Reference.paren_not_mem_inner h),
    Reference.ofInner_inner h]
  rfl

/-- Everything that is scanned as a reference is a proper one. -/
theorem isProper_of_mem_scanFrom {escaped : Bool} {pending rest : List Char}
    {segments : List Segment} (h : scanFrom text escaped pending rest = .ok segments)
    (hr : .ref r ∈ segments) : r.IsProper := by
  induction escaped, pending, rest using scanFrom.induct generalizing segments with
  | case1 escaped pending => -- the end of the text
      rw [scanFrom, Except.ok.injEq] at h
      exact absurd (h ▸ hr) (ref_not_mem_textSegment pending r)
  | case2 pending after ih => -- an opening behind a backslash
      rw [scanFrom, if_pos rfl] at h
      exact ih h hr
  | case3 escaped pending after hescaped hdrop => -- an opening without an end
      rw [Bool.not_eq_true] at hescaped
      rw [hescaped, scanFrom_unterminated hdrop] at h
      cases h
  | case4 escaped pending after hescaped close later hdrop ih => -- a reference
      rw [Bool.not_eq_true] at hescaped
      subst hescaped
      obtain ⟨inner, r', tail, -, hr', htail, rfl⟩ := scanFrom_reference_eq_ok hdrop h
      rcases List.mem_append.mp hr with hr | hr
      · exact absurd hr (ref_not_mem_textSegment pending r)
      · rcases List.mem_cons.mp hr with heq | hr
        · rw [Segment.ref.inj heq]
          exact Reference.isProper_of_ofInner hr'
        · exact ih htail hr
  | case5 escaped pending c after hc ih => -- any other character
      rw [scanFrom.eq_3 _ _ _ _ _ hc] at h
      exact ih h hr

/-- A text is one whole reference exactly when it is how a proper reference is written. -/
theorem parse_eq_whole_iff : parse text = .ok (.whole r) ↔ text = r.text ∧ r.IsProper := by
  constructor
  · intro h
    obtain ⟨segments, hscan, hwhole⟩ := classifies_of_parse h
    have hwhole : segments = [.ref r] := hwhole
    subst hwhole
    have hwritten : r.text.toList ++ [] = text.toList := (scan_cuts hscan).written_eq
    rw [List.append_nil, String.toList_inj] at hwritten
    exact ⟨hwritten.symm, isProper_of_mem_scanFrom hscan (List.mem_singleton_self _)⟩
  · rintro ⟨rfl, h⟩
    have hscan : scan r.text = .ok [.ref r] := by
      have hfrom := scanFrom_text_append h r.text [] []
      rw [List.append_nil] at hfrom
      rw [scan, hfrom, scanFrom]
      rfl
    rw [parse, hscan]
    rfl

/-- The text of a reference is read back as that reference only if it is proper. -/
theorem parse_text_iff : parse r.text = .ok (.whole r) ↔ r.IsProper := by
  rw [parse_eq_whole_iff]
  exact and_iff_right rfl

end Expression
end HpcBlueprint
