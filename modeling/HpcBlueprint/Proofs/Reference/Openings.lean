/-
  Where references begin in a text.

  A reference begins at every `$(` that has no backslash right before it.  `parse` finds a
  text to be a literal exactly when there is none, whatever would follow.  Where two texts
  meet, one more may arise: the first ends in the dollar sign and the other begins with the
  parenthesis.
-/
import HpcBlueprint.Proofs.Except
import HpcBlueprint.Reference

namespace HpcBlueprint

/-- A text in which a reference begins. -/
def Opens (cs : List Char) : Prop :=
  ∃ before after, cs = before ++ '$' :: '(' :: after ∧ before.getLast? ≠ some '\\'

/-- A text whose end begins a reference if a parenthesis follows. -/
def EndsOpen (cs : List Char) : Prop :=
  ∃ before, cs = before ++ ['$'] ∧ before.getLast? ≠ some '\\'

/-! ## Joining texts -/

/-- An opening of a joined text lies in one of its parts or where they meet. -/
theorem opens_append {xs ys : List Char} (h : Opens (xs ++ ys)) :
    Opens xs ∨ (EndsOpen xs ∧ ys.head? = some '(') ∨ Opens ys := by
  obtain ⟨before, after, heq, hlast⟩ := h
  rcases List.append_eq_append_iff.mp heq with ⟨mid, rfl, hys⟩ | ⟨mid, hxs, hmid⟩
  · refine Or.inr (Or.inr ⟨mid, after, hys, fun hmid => hlast ?_⟩)
    rw [List.getLast?_append, hmid, Option.some_or]
  · -- what `xs` has of the opening: nothing, the dollar sign, or both of its characters
    match mid with
    | [] =>
        refine Or.inr (Or.inr ⟨[], after, ?_, by simp⟩)
        simpa using hmid.symm
    | [c] =>
        obtain ⟨rfl, hys⟩ := List.cons.inj hmid
        exact Or.inr (Or.inl ⟨⟨before, hxs, hlast⟩, (congrArg List.head? hys).symm⟩)
    | c :: d :: rest =>
        obtain ⟨rfl, hys⟩ := List.cons.inj hmid
        obtain ⟨rfl, -⟩ := List.cons.inj hys
        exact Or.inl ⟨before, rest, hxs, hlast⟩

theorem Opens.append_right {xs : List Char} (h : Opens xs) (ys : List Char) :
    Opens (xs ++ ys) := by
  obtain ⟨before, after, rfl, hlast⟩ := h
  exact ⟨before, after ++ ys, by simp, hlast⟩

/-- The text that follows decides whether the end of a text begins a reference. -/
theorem EndsOpen.opens {xs ys : List Char} (h : EndsOpen xs) (hys : ys.head? = some '(') :
    Opens (xs ++ ys) := by
  obtain ⟨before, rfl, hlast⟩ := h
  obtain ⟨after, rfl⟩ := List.head?_eq_some_iff.mp hys
  exact ⟨before, after, by simp, hlast⟩

theorem not_opens_nil : ¬ Opens [] := by
  rintro ⟨before, after, heq, -⟩
  simp at heq

theorem not_opens_singleton (c : Char) : ¬ Opens [c] := by
  rintro ⟨before, after, heq, -⟩
  cases before <;> simp at heq

/-- A text without a dollar sign has no opening. -/
theorem not_opens_of_not_mem {cs : List Char} (h : '$' ∉ cs) : ¬ Opens cs := by
  rintro ⟨before, after, rfl, -⟩
  simp at h

theorem endsOpen_concat {cs : List Char} {c : Char} :
    EndsOpen (cs ++ [c]) ↔ c = '$' ∧ cs.getLast? ≠ some '\\' := by
  constructor
  · rintro ⟨before, heq, hlast⟩
    obtain ⟨rfl, hc⟩ := List.append_inj' heq rfl
    exact ⟨(List.cons.inj hc).1, hlast⟩
  · rintro ⟨rfl, hlast⟩
    exact ⟨cs, rfl, hlast⟩

/-- One more character makes an opening only of a text that ends in the beginning of one. -/
theorem opens_concat {cs : List Char} {c : Char} :
    Opens (cs ++ [c]) ↔ Opens cs ∨ (EndsOpen cs ∧ c = '(') := by
  constructor
  · intro h
    rcases opens_append h with h | h | h
    · exact Or.inl h
    · exact Or.inr ⟨h.1, by simpa using h.2⟩
    · exact absurd h (not_opens_singleton c)
  · rintro (h | ⟨h, rfl⟩)
    · exact h.append_right [c]
    · exact h.opens rfl

/-! ## The scanner -/

namespace Expression

/-- The characters of segments as they are written. -/
def written : List Segment → List Char
  | [] => []
  | segment :: rest => segment.source.toList ++ written rest

/-- Segments that together make up a text: no plain segment opens a reference, and no
    reference is written right after a backslash. -/
structure Cuts (cs : List Char) (segments : List Segment) : Prop where
  written_eq : written segments = cs
  plain : ∀ t, .text t ∈ segments → ¬ Opens t.toList
  unescaped : ∀ front r back, segments = front ++ .ref r :: back →
    (written front).getLast? ≠ some '\\'
  complete : Opens cs → ∃ r, .ref r ∈ segments

theorem written_append (front back : List Segment) :
    written (front ++ back) = written front ++ written back := by
  induction front with
  | nil => rfl
  | cons segment rest ih => simp [written, ih]

theorem written_textSegment (reversed : List Char) :
    written (textSegment reversed) = reversed.reverse := by
  unfold textSegment
  cases reversed <;> simp [written, Segment.source]

end Expression

/-- A reference is written between parentheses behind a dollar sign. -/
theorem Reference.exists_toList_text (r : Reference) :
    ∃ inner, r.text.toList = '$' :: '(' :: (inner ++ [')']) := by
  cases r with
  | var name => exact ⟨varsNamespace.toList ++ '.' :: name.toList, by simp [text, varsNamespace]⟩
  | output module name => exact ⟨module.toList ++ '.' :: name.toList, by simp [text]⟩

namespace Expression

/-- What stands between the parentheses of a reference is how it is written. -/
theorem toList_text_of_ofInner {inner : List Char} {r : Reference}
    (h : Reference.ofInner inner = .ok r) : r.text.toList = '$' :: '(' :: (inner ++ [')']) := by
  have hsplit := List.takeWhile_append_dropWhile (p := (· != '.')) (l := inner)
  unfold Reference.ofInner at h
  cases hdrop : inner.dropWhile (· != '.') with
  | nil => simp [hdrop] at h
  | cons dot tail =>
      -- the names are cut at the first dot, which is where `takeWhile` stops
      have hdot : dot = '.' := by
        have hnot := List.head?_dropWhile_not (· != '.') inner
        simpa [hdrop] using hnot
      subst hdot
      rw [hdrop] at hsplit
      rw [← hsplit]
      simp only [hdrop] at h
      by_cases hnames :
          (Reference.isName (inner.takeWhile (· != '.')) && Reference.isName tail) = true
      · rw [if_pos hnames] at h
        by_cases hvars : (String.ofList (inner.takeWhile (· != '.')) == varsNamespace) = true
        · rw [if_pos hvars, Except.ok.injEq] at h
          have hhead : inner.takeWhile (· != '.') = varsNamespace.toList := by
            rw [← eq_of_beq hvars, String.toList_ofList]
          rw [hhead, ← h]
          simp [Reference.text, varsNamespace]
        · rw [if_neg hvars, Except.ok.injEq] at h
          rw [← h]
          simp [Reference.text]
      · rw [if_neg hnames] at h
        cases h

/-- A reference that does not end is an error. -/
theorem scanFrom_unterminated {text : String} {pending after : List Char}
    (hdrop : after.dropWhile (· != ')') = []) :
    scanFrom text false pending ('$' :: '(' :: after) = .error (.unterminated text) := by
  rw [scanFrom, if_neg Bool.false_ne_true]
  split
  · rfl
  · rename_i hdrop'
    rw [hdrop] at hdrop'
    cases hdrop'

/-- A reference that is scanned: the pending segment, the reference, and the rest. -/
theorem scanFrom_reference_eq_ok {text : String} {pending after later : List Char} {close : Char}
    {segments : List Segment} (hdrop : after.dropWhile (· != ')') = close :: later)
    (h : scanFrom text false pending ('$' :: '(' :: after) = .ok segments) :
    ∃ inner r tail, after = inner ++ ')' :: later ∧ Reference.ofInner inner = .ok r ∧
      scanFrom text false [] later = .ok tail ∧
      segments = textSegment pending ++ .ref r :: tail := by
  have hsplit := List.takeWhile_append_dropWhile (p := (· != ')')) (l := after)
  have hclose : close = ')' := by
    have hnot := List.head?_dropWhile_not (· != ')') after
    simpa [hdrop] using hnot
  rw [hdrop, hclose] at hsplit
  rw [scanFrom, if_neg Bool.false_ne_true] at h
  split at h
  · cases h
  · rename_i close' later' hdrop'
    rw [hdrop] at hdrop'
    obtain ⟨rfl, rfl⟩ := List.cons.inj hdrop'
    simp only [bind_eq_ok, pure_eq_ok] at h
    obtain ⟨r, hr, tail, htail, rfl⟩ := h
    exact ⟨_, r, tail, hsplit.symm, hr, htail, rfl⟩

/-- What holds of the text of the pending segment, last character first, while the rest of a
    text is scanned. -/
structure Pending (escaped : Bool) (pending rest : List Char) : Prop where
  escaped_iff : escaped = true ↔ pending.head? = some '\\'
  plain : ¬ Opens pending.reverse
  seam : EndsOpen pending.reverse → rest.head? ≠ some '('

/-- Nothing is pending at the beginning of a segment. -/
theorem Pending.nil (rest : List Char) : Pending false [] rest where
  escaped_iff := by simp
  plain := not_opens_nil
  seam := by
    rintro ⟨before, heq, -⟩
    simp at heq

/-- A character that begins no reference keeps the pending segment plain. -/
theorem Pending.cons {escaped : Bool} {pending after : List Char} {c : Char}
    (h : Pending escaped pending (c :: after))
    (hc : EndsOpen (pending.reverse ++ [c]) → after.head? ≠ some '(') :
    Pending (c == '\\') (c :: pending) after where
  escaped_iff := by simp
  plain := by
    rw [List.reverse_cons, opens_concat]
    rintro (hopens | ⟨hends, rfl⟩)
    · exact h.plain hopens
    · exact h.seam hends rfl
  seam := by rwa [List.reverse_cons]

/-- A reference that is written after a backslash is part of the pending segment. -/
theorem Pending.escaped {pending after : List Char}
    (h : Pending true pending ('$' :: '(' :: after)) :
    Pending false ('(' :: '$' :: pending) after := by
  have hbackslash : pending.reverse.getLast? = some '\\' := by
    rw [List.getLast?_reverse]
    exact h.escaped_iff.mp rfl
  have hdollar : Pending false ('$' :: pending) ('(' :: after) := by
    refine h.cons fun hends => ?_
    exact absurd hbackslash (endsOpen_concat.mp hends).2
  exact hdollar.cons fun hends => absurd (endsOpen_concat.mp hends).1 (by decide)

theorem ref_not_mem_textSegment (pending : List Char) (r : Reference) :
    .ref r ∉ textSegment pending := by
  unfold textSegment
  split <;> simp

theorem cuts_textSegment {pending : List Char} (plain : ¬ Opens pending.reverse) :
    Cuts pending.reverse (textSegment pending) where
  written_eq := written_textSegment pending
  plain := by
    intro t ht
    unfold textSegment at ht
    split at ht
    · exact absurd ht List.not_mem_nil
    · rw [List.mem_singleton, Segment.text.injEq] at ht
      rwa [ht, String.toList_ofList]
  unescaped := by
    intro front r back heq
    exact absurd (heq ▸ by simp) (ref_not_mem_textSegment pending r)
  complete := fun hopens => absurd hopens plain

/-- A plain segment that does not end in a backslash, a reference and what follows it. -/
theorem Cuts.append_ref {pending inner later : List Char} {r : Reference} {tail : List Segment}
    (plain : ¬ Opens pending.reverse) (unescaped : pending.head? ≠ some '\\')
    (hr : Reference.ofInner inner = .ok r) (htail : Cuts later tail) :
    Cuts (pending.reverse ++ '$' :: '(' :: (inner ++ ')' :: later))
      (textSegment pending ++ .ref r :: tail) where
  written_eq := by
    rw [written_append, written_textSegment, written, htail.written_eq, Segment.source,
      toList_text_of_ofInner hr]
    simp
  plain := by
    intro t ht
    rcases List.mem_append.mp ht with ht | ht
    · exact (cuts_textSegment plain).plain t ht
    · rcases List.mem_cons.mp ht with heq | ht
      · exact Segment.noConfusion heq
      · exact htail.plain t ht
  unescaped := by
    intro front r' back heq
    -- `r'` is `r`, or stands behind it; in the pending segment there is no reference
    rcases List.append_eq_append_iff.mp heq with ⟨mid, rfl, hmid⟩ | ⟨mid, hfront, hmid⟩
    · rw [written_append, written_textSegment]
      cases mid with
      | nil => simpa [written] using unescaped
      | cons segment mid =>
          obtain ⟨rfl, hback⟩ := List.cons.inj hmid
          -- right before `r'` stands the end of `mid`, or the parenthesis that closes `r`
          have hlast : (pending.reverse ++ (r.text.toList ++ written mid)).getLast? =
              (written mid).getLast?.or (some ')') := by
            rw [toList_text_of_ofInner hr, ← List.cons_append, ← List.cons_append,
              List.getLast?_append, List.getLast?_append, List.getLast?_concat]
            cases (written mid).getLast? <;> rfl
          have hne := htail.unescaped mid r' back hback
          rw [written, Segment.source, hlast]
          cases hc : (written mid).getLast? with
          | none => decide
          | some c => rwa [hc] at hne
    · cases mid with
      | nil =>
          rw [List.append_nil] at hfront
          rw [← hfront, written_textSegment]
          simpa using unescaped
      | cons segment mid =>
          obtain ⟨rfl, -⟩ := List.cons.inj hmid
          exact absurd (hfront ▸ by simp) (ref_not_mem_textSegment pending r')
  complete := fun _ => ⟨r, by simp⟩

/-- What the scanner yields are the segments of the text. -/
theorem scanFrom_cuts {text : String} {escaped : Bool} {pending rest : List Char}
    {segments : List Segment} (inv : Pending escaped pending rest)
    (h : scanFrom text escaped pending rest = .ok segments) :
    Cuts (pending.reverse ++ rest) segments := by
  induction escaped, pending, rest using scanFrom.induct generalizing segments with
  | case1 escaped pending => -- the end of the text
      rw [scanFrom, Except.ok.injEq] at h
      rw [List.append_nil, ← h]
      exact cuts_textSegment inv.plain
  | case2 pending after ih => -- a reference behind a backslash
      rw [scanFrom, if_pos rfl] at h
      have hcuts := ih inv.escaped h
      simpa using hcuts
  | case3 escaped pending after hescaped hdrop => -- a reference that does not end
      rw [Bool.not_eq_true] at hescaped
      rw [hescaped, scanFrom_unterminated hdrop] at h
      cases h
  | case4 escaped pending after hescaped close later hdrop ih => -- a reference
      rw [Bool.not_eq_true] at hescaped
      subst hescaped
      have hhead : pending.head? ≠ some '\\' := fun hback =>
        Bool.false_ne_true (inv.escaped_iff.mpr hback)
      obtain ⟨inner, r, tail, rfl, hr, htail, rfl⟩ := scanFrom_reference_eq_ok hdrop h
      exact Cuts.append_ref inv.plain hhead hr (ih (Pending.nil later) htail)
  | case5 escaped pending c after hc ih => -- any other character
      rw [scanFrom.eq_3 _ _ _ _ _ hc] at h
      have hcuts := ih (inv.cons fun hends hafter => ?_) h
      · simpa using hcuts
      · obtain ⟨after', hafter⟩ := List.head?_eq_some_iff.mp hafter
        exact hc after' (endsOpen_concat.mp hends).1 hafter

/-- A text in which no reference begins is scanned to the end. -/
theorem scanFrom_of_not_opens {text : String} {escaped : Bool} {pending rest : List Char}
    (inv : Pending escaped pending rest) (h : ¬ Opens (pending.reverse ++ rest)) :
    scanFrom text escaped pending rest = .ok (textSegment (rest.reverse ++ pending)) := by
  -- a beginning of a reference that nothing escapes would be an opening
  have hunescaped : ∀ pending after : List Char,
      ¬ Opens (pending.reverse ++ '$' :: '(' :: after) → pending.head? = some '\\' := by
    intro pending after h
    by_cases hhead : pending.head? = some '\\'
    · exact hhead
    · exact absurd ⟨pending.reverse, after, rfl, by rwa [List.getLast?_reverse]⟩ h
  induction escaped, pending, rest using scanFrom.induct with
  | case1 escaped pending => rw [scanFrom, List.reverse_nil, List.nil_append]
  | case2 pending after ih =>
      rw [scanFrom, if_pos rfl, ih inv.escaped (by simpa using h)]
      simp
  | case3 escaped pending after hescaped hdrop =>
      exact absurd (inv.escaped_iff.mpr (hunescaped pending after h)) hescaped
  | case4 escaped pending after hescaped close later hdrop ih =>
      exact absurd (inv.escaped_iff.mpr (hunescaped pending after h)) hescaped
  | case5 escaped pending c after hc ih =>
      have hnext : Pending (c == '\\') (c :: pending) after := by
        refine inv.cons fun hends hafter => ?_
        obtain ⟨after', hafter⟩ := List.head?_eq_some_iff.mp hafter
        exact hc after' (endsOpen_concat.mp hends).1 hafter
      rw [scanFrom.eq_3 _ _ _ _ _ hc, ih hnext (by simpa using h)]
      simp

/-! ## What a text is -/

theorem scan_cuts {text : String} {segments : List Segment} (h : scan text = .ok segments) :
    Cuts text.toList segments :=
  scanFrom_cuts (Pending.nil text.toList) h

/-- The segments of a text that is this expression. -/
def Classifies (segments : List Segment) : Expression → Prop
  | .literal => ∀ r, .ref r ∉ segments
  | .whole r => segments = [.ref r]
  | .template segments' => segments = segments' ∧ ∃ r, .ref r ∈ segments

theorem classifies_of_parse {text : String} {e : Expression} (h : parse text = .ok e) :
    ∃ segments, scan text = .ok segments ∧ Classifies segments e := by
  have hany : ∀ segments : List Segment,
      segments.any isRef = true ↔ ∃ r, .ref r ∈ segments := by
    intro segments
    rw [List.any_eq_true]
    constructor
    · rintro ⟨segment, hmem, href⟩
      cases segment with
      | text t => cases href
      | ref r => exact ⟨r, hmem⟩
    · rintro ⟨r, hmem⟩
      exact ⟨_, hmem, rfl⟩
  rw [parse, bind_eq_ok] at h
  obtain ⟨segments, hscan, h⟩ := h
  refine ⟨segments, hscan, ?_⟩
  by_cases href : segments.any isRef = true
  · rw [if_pos href] at h
    split at h
    · rw [pure_eq_ok] at h
      rw [← h]
      rfl
    · rw [pure_eq_ok] at h
      rw [← h]
      exact ⟨rfl, (hany _).mp href⟩
  · rw [if_neg href, pure_eq_ok] at h
    rw [← h]
    intro r hr
    exact href ((hany _).mpr ⟨r, hr⟩)

/-- A text is a literal exactly when no reference begins in it. -/
theorem parse_eq_literal_iff {text : String} :
    parse text = .ok .literal ↔ ¬ Opens text.toList := by
  constructor
  · intro h hopens
    obtain ⟨segments, hscan, hnone⟩ := classifies_of_parse h
    obtain ⟨r, hr⟩ := (scan_cuts hscan).complete hopens
    exact hnone r hr
  · intro h
    have hscan : scan text = .ok (textSegment text.toList.reverse) := by
      have hrest : scanFrom text false [] text.toList =
          .ok (textSegment (text.toList.reverse ++ [])) :=
        scanFrom_of_not_opens (Pending.nil text.toList) h
      rwa [List.append_nil] at hrest
    have hany : (textSegment text.toList.reverse).any isRef = false := by
      rw [List.any_eq_false]
      intro segment hmem href
      cases segment with
      | text t => cases href
      | ref r => exact ref_not_mem_textSegment _ r hmem
    simp [parse, hscan, hany, bind, Except.bind, pure, Except.pure]

end Expression
end HpcBlueprint
