/-
  The grammar of texts with references.

  It goes by the places of a text: at every `$(` without a backslash right before it a reference
  of two names has to begin.  The scanner goes from the end of one segment to the next and looks
  at none of the places between, but it accepts exactly the texts of the grammar, and the
  references that it finds are those that begin at these places, in order.
-/
import HpcBlueprint.Expand.Resolve
import HpcBlueprint.Proofs.Reference.Proper
import HpcBlueprint.Proofs.Value.Texts
import Mathlib.Data.List.Chain
import Mathlib.Data.List.TakeWhile
import Mathlib.Data.List.Zip

namespace HpcBlueprint

/-! ## Written references -/

namespace Reference

variable {r : Reference} {cs inner later : List Char}

/-- The reference whose names are these: to a variable if the first is the name that stands for
    the variables, and else to an output of a module. -/
def named (head name : List Char) : Reference :=
  if String.ofList head = varsNamespace then .var (String.ofList name)
  else .output (String.ofList head) (String.ofList name)

/-- The characters are a reference: two names, a dot between them, and parentheses behind a
    dollar sign around them. -/
def Written (r : Reference) (cs : List Char) : Prop :=
  ∃ head name, isName head = true ∧ isName name = true ∧
    cs = '$' :: '(' :: (head ++ '.' :: name ++ [')']) ∧ r = named head name

/-- The characters begin with a reference. -/
def Begins (r : Reference) (cs : List Char) : Prop :=
  ∃ word after, cs = word ++ after ∧ r.Written word

theorem written_iff : r.Written cs ↔ cs = r.text.toList ∧ r.IsProper := by
  constructor
  · rintro ⟨head, name, hhead, hname, rfl, rfl⟩
    unfold named
    split
    · rename_i hvars
      refine ⟨?_, by simpa [IsProper] using hname⟩
      rw [toList_text, inner, ← hvars, String.toList_ofList, String.toList_ofList]
    · rename_i hvars
      refine ⟨?_, by simpa [IsProper] using ⟨hhead, hname, hvars⟩⟩
      rw [toList_text, inner, String.toList_ofList, String.toList_ofList]
  · rintro ⟨rfl, proper⟩
    cases r with
    | var name =>
        refine ⟨varsNamespace.toList, name.toList, isName_varsNamespace, proper,
          toList_text _, ?_⟩
        simp [named]
    | output module name =>
        obtain ⟨hmodule, hname, hvars⟩ := proper
        refine ⟨module.toList, name.toList, hmodule, hname, toList_text _, ?_⟩
        simp [named, hvars]

/-- Between the parentheses stands what is read as the reference. -/
theorem ofInner_eq_ok_iff : ofInner cs = .ok r ↔ cs = r.inner ∧ r.IsProper := by
  constructor
  · intro h
    have htext := Expression.toList_text_of_ofInner h
    rw [toList_text] at htext
    refine ⟨?_, isProper_of_ofInner h⟩
    simpa using htext.symm
  · rintro ⟨rfl, proper⟩
    exact ofInner_inner proper

/-- A reference begins where what stands up to the next parenthesis is read as one. -/
theorem begins_iff (h : ')' ∉ cs) :
    r.Begins ('$' :: '(' :: (cs ++ ')' :: later)) ↔ ofInner cs = .ok r := by
  rw [ofInner_eq_ok_iff]
  constructor
  · rintro ⟨word, after, heq, hword⟩
    obtain ⟨rfl, proper⟩ := written_iff.mp hword
    rw [toList_text_append] at heq
    have heq : cs ++ ')' :: later = r.inner ++ ')' :: after := by simpa using heq
    have hcut := (cut_at h later).1
    rw [heq, (cut_at (paren_not_mem_inner proper) after).1] at hcut
    exact ⟨hcut.symm, proper⟩
  · rintro ⟨rfl, proper⟩
    exact ⟨r.text.toList, later, (toList_text_append r later).symm,
      written_iff.mpr ⟨rfl, proper⟩⟩

/-- No reference begins where there is no parenthesis to end it. -/
theorem not_begins_of_not_mem (h : ')' ∉ cs) : ¬ r.Begins ('$' :: '(' :: cs) := by
  rintro ⟨word, after, heq, hword⟩
  obtain ⟨rfl, -⟩ := written_iff.mp hword
  rw [toList_text_append] at heq
  have heq : cs = r.inner ++ ')' :: after := by simpa using heq
  rw [heq] at h
  simp at h

/-- At most one reference begins at a place. -/
theorem Begins.unique {r' : Reference} (h : r.Begins cs) (h' : r'.Begins cs) : r = r' := by
  obtain ⟨word, after, rfl, hword⟩ := h
  obtain ⟨rfl, proper⟩ := written_iff.mp hword
  rw [toList_text_append, begins_iff (paren_not_mem_inner proper), ofInner_inner proper] at h'
  exact Except.ok.inj h'

/-- A reference occurs in a text: it begins somewhere with no backslash right before it. -/
def OccursIn (r : Reference) (text : String) : Prop :=
  ∃ before rest, before ++ rest = text.toList ∧ before.getLast? ≠ some '\\' ∧ r.Begins rest

theorem Begins.opens (h : r.Begins cs) : ['$', '('] <+: cs := by
  obtain ⟨word, after, rfl, head, name, -, -, rfl, -⟩ := h
  exact ⟨_, rfl⟩

theorem dollar_not_mem_inner (proper : r.IsProper) : '$' ∉ r.inner := by
  have hdollar : isNameChar '$' = false := by decide
  cases r with
  | var name =>
      have := not_mem_of_isName proper hdollar
      simp [inner, this, varsNamespace]
  | output module name =>
      have := not_mem_of_isName proper.1 hdollar
      have := not_mem_of_isName proper.2.1 hdollar
      simp [inner, *]

end Reference

namespace Expression

/-! ## The places where references begin -/

/-- The places of characters in order, each given by what stands before it and by what begins
    there; `before` are the characters in front of them all. -/
def places (before cs : List Char) : List (List Char × List Char) :=
  (cs.inits.map (before ++ ·)).zip cs.tails

/-- At a place a reference has to begin: there is `$(`, and no backslash right before it. -/
def IsOpening (place : List Char × List Char) : Prop :=
  ['$', '('] <+: place.2 ∧ place.1.getLast? ≠ some '\\'

instance : DecidablePred IsOpening := fun _ => inferInstanceAs (Decidable (_ ∧ _))

/-- The places where a reference has to begin, in order. -/
def openings (before cs : List Char) : List (List Char × List Char) :=
  (places before cs).filter fun place => IsOpening place

variable {before after cs : List Char} {c : Char}

theorem mem_openings {place : List Char × List Char} :
    place ∈ openings [] cs ↔ place.1 ++ place.2 = cs ∧ IsOpening place := by
  have hplaces : places [] cs = cs.inits.zip cs.tails := by
    simp [places]
  rw [openings, hplaces, List.mem_filter, decide_eq_true_eq]
  exact and_congr_left' List.mem_zip_inits_tails

theorem openings_nil (before : List Char) : openings before [] = [] := by
  simp [openings, places, IsOpening]

theorem openings_cons :
    openings before (c :: cs) =
      (if IsOpening (before, c :: cs) then [(before, c :: cs)] else []) ++
        openings (before ++ [c]) cs := by
  have hplaces : places before (c :: cs) = (before, c :: cs) :: places (before ++ [c]) cs := by
    simp [places, Function.comp_def]
  rw [openings, hplaces, List.filter_cons]
  simp only [decide_eq_true_eq]
  split <;> rfl

theorem openings_cons_of_not (h : ¬ IsOpening (before, c :: cs)) :
    openings before (c :: cs) = openings (before ++ [c]) cs := by
  rw [openings_cons, if_neg h, List.nil_append]

/-- No reference begins among characters without a dollar sign. -/
theorem openings_append (word : List Char) (h : '$' ∉ word) (before cs : List Char) :
    openings before (word ++ cs) = openings (before ++ word) cs := by
  induction word generalizing before with
  | nil => simp
  | cons c rest ih =>
      rw [List.mem_cons, not_or] at h
      have hnot : ¬ IsOpening (before, c :: (rest ++ cs)) := fun hopening =>
        h.1 (List.cons_prefix_cons.mp hopening.1).1
      rw [List.cons_append, openings_cons_of_not hnot, ih h.2, List.append_assoc,
        List.singleton_append]

/-- Right behind a dollar sign no reference begins. -/
theorem openings_dollar :
    openings before ('$' :: '(' :: after) =
      (if before.getLast? = some '\\' then [] else [(before, '$' :: '(' :: after)]) ++
        openings (before ++ ['$', '(']) after := by
  have hparen : openings (before ++ ['$']) ('(' :: after) =
      openings (before ++ ['$', '(']) after := by
    have h := openings_append ['('] (by decide) (before ++ ['$']) after
    simpa using h
  rw [openings_cons, hparen]
  by_cases hlast : before.getLast? = some '\\'
  · simp [IsOpening, hlast]
  · simp [IsOpening, hlast]

/-! ## The scanner follows the grammar -/

/-- Characters up to the first parenthesis, if there is one. -/
theorem exists_close {close : Char} {later : List Char}
    (h : after.dropWhile (· != ')') = close :: later) :
    ∃ inner, ')' ∉ inner ∧ after = inner ++ ')' :: later := by
  have hclose : close = ')' := by
    have hnot := List.head?_dropWhile_not (· != ')') after
    simpa [h] using hnot
  refine ⟨after.takeWhile (· != ')'), fun hmem => ?_, ?_⟩
  · simpa using List.mem_takeWhile_imp hmem
  · have hsplit := List.takeWhile_append_dropWhile (p := (· != ')')) (l := after)
    rw [h, hclose] at hsplit
    exact hsplit.symm

/-- The references of segments, in order. -/
def refs (segments : List Segment) : List Reference :=
  segments.filterMap fun
    | .ref r => some r
    | .text _ => none

theorem refs_append (front back : List Segment) :
    refs (front ++ back) = refs front ++ refs back :=
  List.filterMap_append

theorem refs_textSegment (pending : List Char) : refs (textSegment pending) = [] := by
  unfold textSegment
  split <;> rfl

/-- The scanner succeeds where a reference begins at every opening, and it finds these
    references. -/
theorem scanFrom_openings (text : String) {escaped : Bool} (pending rest : List Char)
    (hescaped : escaped = true ↔ before.getLast? = some '\\') :
    ((∃ segments, scanFrom text escaped pending rest = .ok segments) ↔
      ∀ place ∈ openings before rest, ∃ r : Reference, r.Begins place.2) ∧
    ∀ segments, scanFrom text escaped pending rest = .ok segments →
      List.Forall₂ (fun place r => r.Begins place.2) (openings before rest) (refs segments) := by
  induction escaped, pending, rest using scanFrom.induct generalizing before with
  | case1 escaped pending => -- the end of the text
      rw [openings_nil]
      simp only [scanFrom]
      refine ⟨by simp, fun segments h => ?_⟩
      rw [← Except.ok.inj h, refs_textSegment]
      exact .nil
  | case2 pending after ih => -- a reference behind a backslash
      rw [scanFrom, if_pos rfl, openings_dollar, if_pos (hescaped.mp rfl), List.nil_append]
      exact ih (by simp)
  | case3 escaped pending after hopen hdrop => -- a reference that does not end
      rw [Bool.not_eq_true] at hopen
      subst hopen
      have hlast : before.getLast? ≠ some '\\' := fun h => Bool.false_ne_true (hescaped.mpr h)
      have hparen : ')' ∉ after := by
        intro hmem
        have hall := List.dropWhile_eq_nil_iff.mp hdrop ')' hmem
        simp at hall
      rw [scanFrom_unterminated hdrop, openings_dollar, if_neg hlast]
      refine ⟨?_, fun segments h => by cases h⟩
      simp [Reference.not_begins_of_not_mem hparen]
  | case4 escaped pending after hopen close later hdrop ih => -- a reference
      rw [Bool.not_eq_true] at hopen
      subst hopen
      have hlast : before.getLast? ≠ some '\\' := fun h => Bool.false_ne_true (hescaped.mpr h)
      obtain ⟨inner, hinner, rfl⟩ := exists_close hdrop
      rw [scanFrom_opening hinner, openings_dollar, if_neg hlast, List.singleton_append]
      have hbegins : ∀ r : Reference, r.Begins ('$' :: '(' :: (inner ++ ')' :: later)) ↔
          Reference.ofInner inner = .ok r := fun r => Reference.begins_iff hinner
      cases hr : Reference.ofInner inner with
      | error e =>
          refine ⟨?_, fun segments h => by cases h⟩
          simp [hbegins, hr, Except.bind]
      | ok r =>
          -- the names of the reference hold no dollar sign, so the next one begins behind it
          obtain ⟨rfl, proper⟩ := Reference.ofInner_eq_ok_iff.mp hr
          have hnext : openings (before ++ ['$', '(']) (r.inner ++ ')' :: later) =
              openings (before ++ ['$', '('] ++ r.inner ++ [')']) later := by
            rw [openings_append _ (Reference.dollar_not_mem_inner proper)]
            exact openings_append [')'] (by decide) _ later
          have hlater : false = true ↔
              (before ++ ['$', '('] ++ r.inner ++ [')']).getLast? = some '\\' := by
            rw [List.getLast?_concat]
            decide
          obtain ⟨hsucceeds, hfinds⟩ := ih hlater
          rw [hnext]
          refine ⟨?_, fun segments h => ?_⟩
          · rw [List.forall_mem_cons, ← hsucceeds]
            simp [hbegins, hr, Except.bind]
          · obtain ⟨tail, htail, rfl⟩ := map_eq_ok.mp h
            rw [refs_append, refs_textSegment, List.nil_append]
            exact .cons ((hbegins r).mpr hr) (hfinds tail htail)
  | case5 escaped pending c after hc ih => -- any other character
      have hnot : ¬ IsOpening (before, c :: after) := by
        rintro ⟨hstart, -⟩
        obtain ⟨hdollar, hparen⟩ := List.cons_prefix_cons.mp hstart
        obtain ⟨after', rfl⟩ := hparen
        exact hc after' hdollar.symm rfl
      rw [scanFrom.eq_3 _ _ _ _ _ hc, openings_cons_of_not hnot]
      exact ih (by simp)

/-! ## What the scanner cuts -/

/-- Plain segments are not empty, and of two neighbours one is a reference. -/
structure Separated (segments : List Segment) : Prop where
  nonempty : ∀ t, .text t ∈ segments → t ≠ ""
  apart : segments.IsChain fun segment next => isRef segment = true ∨ isRef next = true

theorem separated_textSegment (pending : List Char) : Separated (textSegment pending) := by
  unfold textSegment
  cases pending with
  | nil => exact ⟨by simp, by simp⟩
  | cons c rest => exact ⟨by simp, by simp⟩

/-- A plain segment, if it is not empty, a reference, and separated segments. -/
theorem Separated.append_ref {tail : List Segment} (h : Separated tail) (pending : List Char)
    (r : Reference) : Separated (textSegment pending ++ .ref r :: tail) where
  nonempty := by
    intro t ht
    rcases List.mem_append.mp ht with ht | ht
    · exact (separated_textSegment pending).nonempty t ht
    · rcases List.mem_cons.mp ht with heq | ht
      · cases heq
      · exact h.nonempty t ht
  apart := by
    rw [List.isChain_append, List.isChain_cons]
    refine ⟨(separated_textSegment pending).apart, ⟨fun _ _ => Or.inl rfl, h.apart⟩, ?_⟩
    intro _ _ next hnext
    obtain rfl : Segment.ref r = next := by simpa using hnext
    exact Or.inr rfl

theorem separated_scanFrom {text : String} {escaped : Bool} {pending rest : List Char}
    {segments : List Segment} (h : scanFrom text escaped pending rest = .ok segments) :
    Separated segments := by
  induction escaped, pending, rest using scanFrom.induct generalizing segments with
  | case1 escaped pending =>
      rw [scanFrom, Except.ok.injEq] at h
      exact h ▸ separated_textSegment pending
  | case2 pending after ih =>
      rw [scanFrom, if_pos rfl] at h
      exact ih h
  | case3 escaped pending after hopen hdrop =>
      rw [Bool.not_eq_true] at hopen
      rw [hopen, scanFrom_unterminated hdrop] at h
      cases h
  | case4 escaped pending after hopen close later hdrop ih =>
      rw [Bool.not_eq_true] at hopen
      subst hopen
      obtain ⟨inner, r, tail, -, -, htail, rfl⟩ := scanFrom_reference_eq_ok hdrop h
      exact (ih htail).append_ref pending r
  | case5 escaped pending c after hc ih =>
      rw [scanFrom.eq_3 _ _ _ _ _ hc] at h
      exact ih h

/-! ## Expressions -/

variable {text : String} {segments : List Segment} {e : Expression}

theorem exists_parse_iff :
    (∃ e, parse text = .ok e) ↔ ∃ segments, scan text = .ok segments := by
  constructor
  · rintro ⟨e, h⟩
    obtain ⟨segments, hscan, -⟩ := classifies_of_parse h
    exact ⟨segments, hscan⟩
  · rintro ⟨segments, hscan⟩
    rw [parse, hscan]
    simp only [bind, Except.bind]
    split
    · split <;> exact ⟨_, rfl⟩
    · exact ⟨_, rfl⟩

theorem mem_refs {r : Reference} : r ∈ refs segments ↔ .ref r ∈ segments := by
  rw [refs, List.mem_filterMap]
  constructor
  · rintro ⟨segment, hmem, heq⟩
    cases segment with
    | text t => cases heq
    | ref r' => exact Option.some.inj heq ▸ hmem
  · intro hmem
    exact ⟨_, hmem, rfl⟩

/-- A text is a literal when no reference has been found in it. -/
theorem Classifies.eq_literal_iff (h : Classifies segments e) :
    e = .literal ↔ refs segments = [] := by
  rw [List.eq_nil_iff_forall_not_mem]
  simp only [mem_refs]
  cases e with
  | literal => exact iff_of_true rfl h
  | whole r =>
      obtain rfl : segments = [.ref r] := h
      exact iff_of_false (by simp) fun hnone => hnone r (List.mem_singleton_self _)
  | template segments' =>
      obtain ⟨-, r, hr⟩ := h
      exact iff_of_false (by simp) fun hnone => hnone r hr

theorem references_eq_refs (hparse : parse text = .ok e) (hscan : scan text = .ok segments) :
    references text = refs segments := by
  obtain ⟨segments', hscan', hclass⟩ := classifies_of_parse hparse
  obtain rfl : segments = segments' := Except.ok.inj (hscan.symm.trans hscan')
  rw [references, hparse]
  cases e with
  | literal => exact (hclass.eq_literal_iff.mp rfl).symm
  | whole r =>
      obtain rfl : segments = [.ref r] := hclass
      rfl
  | template segments' =>
      obtain ⟨rfl, -⟩ := hclass
      rfl

/-- Where each member of a list is related to one thing only, and the second list holds these
    things, its members are whatever a member of the first list is related to. -/
theorem mem_iff_of_forall₂ {α β : Type} {R : α → β → Prop} {as : List α} {bs : List β} {y : β}
    (h : List.Forall₂ R as bs) (unique : ∀ a y y', R a y → R a y' → y = y') :
    y ∈ bs ↔ ∃ a ∈ as, R a y := by
  induction h with
  | nil => simp
  | @cons a y' as bs hr _ ih =>
      have hhead : y = y' ↔ R a y :=
        ⟨fun heq => heq ▸ hr, fun hy => unique a y y' hy hr⟩
      rw [List.mem_cons, ih, List.exists_mem_cons_iff, hhead]

/-- The references of an expression are those that occur in it. -/
theorem mem_references_iff_occursIn (hparse : parse text = .ok e) {r : Reference} :
    r ∈ references text ↔ r.OccursIn text := by
  obtain ⟨segments, hscan⟩ := exists_parse_iff.mp ⟨e, hparse⟩
  have hstart : false = true ↔ ([] : List Char).getLast? = some '\\' := by decide
  have hfinds := (scanFrom_openings text [] text.toList hstart).2 segments hscan
  rw [references_eq_refs hparse hscan,
    mem_iff_of_forall₂ hfinds fun _ _ _ => Reference.Begins.unique]
  constructor
  · rintro ⟨place, hplace, hbegins⟩
    obtain ⟨heq, -, hlast⟩ := mem_openings.mp hplace
    exact ⟨place.1, place.2, heq, hlast, hbegins⟩
  · rintro ⟨before, rest, heq, hlast, hbegins⟩
    exact ⟨(before, rest), mem_openings.mpr ⟨heq, hbegins.opens, hlast⟩, hbegins⟩

/-- A text is an expression exactly when a reference begins at every `$(` that has no backslash
    right before it.  The references that are found in it are those that begin there, in order;
    its segments make up the text, plain ones not empty and never side by side.  It is a literal
    when there are none, and a whole reference when it is written like one. -/
theorem parse_follows_grammar (text : String) :
    ((∃ e, parse text = .ok e) ↔
      ∀ before rest, before ++ '$' :: '(' :: rest = text.toList → before.getLast? ≠ some '\\' →
        ∃ r : Reference, r.Begins ('$' :: '(' :: rest)) ∧
    ∀ e, parse text = .ok e → ∃ segments, scan text = .ok segments ∧
      List.Forall₂ (fun place r => r.Begins place.2) (openings [] text.toList) (refs segments) ∧
      references text = refs segments ∧ written segments = text.toList ∧ Separated segments ∧
      (e = .literal ↔ refs segments = []) ∧ (∀ r, e = .whole r ↔ r.Written text.toList) ∧
      ∀ segments', e = .template segments' → segments' = segments := by
  have hstart : false = true ↔ ([] : List Char).getLast? = some '\\' := by decide
  obtain ⟨hsucceeds, hfinds⟩ := scanFrom_openings text [] text.toList hstart
  constructor
  · rw [exists_parse_iff]
    refine hsucceeds.trans ⟨fun h before rest heq hlast => ?_, fun h place hplace => ?_⟩
    · exact h (before, '$' :: '(' :: rest) (mem_openings.mpr ⟨heq, ⟨rest, rfl⟩, hlast⟩)
    · obtain ⟨heq, ⟨rest, hrest⟩, hlast⟩ := mem_openings.mp hplace
      rw [← hrest] at heq ⊢
      exact h place.1 rest heq hlast
  · intro e hparse
    obtain ⟨segments, hscan, hclass⟩ := classifies_of_parse hparse
    refine ⟨segments, hscan, hfinds segments hscan, references_eq_refs hparse hscan,
      (scan_cuts hscan).written_eq, separated_scanFrom hscan, hclass.eq_literal_iff,
      fun r => ?_, ?_⟩
    · rw [Reference.written_iff, String.toList_inj, ← parse_eq_whole_iff, hparse,
        Except.ok.injEq]
    · rintro segments' rfl
      exact hclass.1.symm

/-- The first reference is behind a backslash. -/
example : references "\\$(a.b)$(vars.n)/$(m.o)" = [.var "n", .output "m" "o"] := by
  decide +kernel

end Expression
end HpcBlueprint
