/-
  What a text stands for, said without the scanner.

  `Expression.Stands` goes by the characters of a text: one whole reference to a variable
  stands for the value, references to variables inside a longer text are replaced by scalar
  texts, and every other text is left.  On the texts that can be resolved this is what
  substitution does, and a blueprint that is materialized is its substitution.
-/
import HpcBlueprint.Proofs.Expand.Settled
import HpcBlueprint.Proofs.Expand.WellFormed
import HpcBlueprint.Proofs.Reference.Proper

namespace HpcBlueprint

open Expand

namespace Expression

variable {vars : OrderedMap Value}

/-! ## What a text stands for -/

/-- How characters read with the scalar texts of variables put in.  `escaped` says that a
    backslash stands right before them. -/
inductive Interpolates (vars : OrderedMap Value) : Bool → List Char → List Char → Prop
  | done (escaped : Bool) : Interpolates vars escaped [] []
  /-- A reference that nothing escapes is replaced. -/
  | value {name : String} {v : Value} {t : String} {rest out : List Char}
      (named : Reference.isName name.toList = true) (known : vars.get? name = some v)
      (scalar : v.scalarText = some t) (others : Interpolates vars false rest out) :
      Interpolates vars false ((Reference.var name).text.toList ++ rest) (t.toList ++ out)
  /-- A character at which no reference begins stays. -/
  | plain {escaped : Bool} {c : Char} {rest out : List Char}
      (closed : escaped = true ∨ c ≠ '$' ∨ rest.head? ≠ some '(')
      (others : Interpolates vars (c == '\\') rest out) :
      Interpolates vars escaped (c :: rest) (c :: out)

/-- What a text stands for. -/
inductive Stands (vars : OrderedMap Value) (text : String) : Value → Prop
  /-- A text in which no reference begins stands for itself. -/
  | literal (closed : ¬ Opens text.toList) : Stands vars text (.string text)
  /-- A whole reference to a variable stands for the value, whatever its type. -/
  | value {name : String} {v : Value} (exact : text = (Reference.var name).text)
      (named : Reference.isName name.toList = true) (known : vars.get? name = some v) :
      Stands vars text v
  /-- A whole reference to an output of a module stands for itself. -/
  | output {module name : String} (exact : text = (Reference.output module name).text)
      (proper : (Reference.output module name).IsProper) : Stands vars text (.string text)
  /-- In a longer text, the variables are put in. -/
  | template {out : String} (opens : Opens text.toList)
      (longer : ∀ r : Reference, r.IsProper → text ≠ r.text)
      (reads : Interpolates vars false text.toList out.toList) : Stands vars text (.string out)

/-! ## Reading is determined -/

/-- Where a reference begins, the names in it are those up to the parenthesis. -/
theorem name_eq_of_append {name name' : String} {rest rest' : List Char}
    (named : Reference.isName name.toList = true) (named' : Reference.isName name'.toList = true)
    (heq : (Reference.var name).text.toList ++ rest =
      (Reference.var name').text.toList ++ rest') : name = name' ∧ rest = rest' := by
  have hparen := Reference.not_mem_of_isName named (c := ')') (by decide)
  have hparen' := Reference.not_mem_of_isName named' (c := ')') (by decide)
  have htail : name.toList ++ ')' :: rest = name'.toList ++ ')' :: rest' := by
    rw [Reference.toList_text, Reference.toList_text, Reference.inner, Reference.inner] at heq
    simpa using heq
  obtain ⟨hhead, hdrop⟩ := Reference.cut_at hparen rest
  obtain ⟨hhead', hdrop'⟩ := Reference.cut_at hparen' rest'
  rw [htail] at hhead hdrop
  rw [hhead'] at hhead
  rw [hdrop'] at hdrop
  exact ⟨String.toList_inj.mp hhead.symm, (List.cons.inj hdrop).2.symm⟩

theorem Interpolates.unique {escaped : Bool} {cs out out' : List Char}
    (h : Interpolates vars escaped cs out) (h' : Interpolates vars escaped cs out') :
    out = out' := by
  -- a reference and a plain character exclude each other
  have hexcludes : ∀ {name : String} {c : Char} {rest rest' : List Char},
      (Reference.var name).text.toList ++ rest = c :: rest' →
        ¬ (false = true ∨ c ≠ '$' ∨ rest'.head? ≠ some '(') := by
    intro name c rest rest' heq
    rw [Reference.toList_text] at heq
    obtain ⟨rfl, rfl⟩ := List.cons.inj heq
    simp
  induction h generalizing out' with
  | done escaped =>
      generalize hcs : [] = cs at h'
      cases h' with
      | done => rfl
      | value named' known' scalar' others' =>
          rw [Reference.toList_text] at hcs
          cases hcs
      | plain closed' others' => cases hcs
  | @value name v t rest out named known scalar others ih =>
      generalize hcs : (Reference.var name).text.toList ++ rest = cs at h'
      generalize hesc : false = escaped at h'
      cases h' with
      | done =>
          rw [Reference.toList_text] at hcs
          cases hcs
      | value named' known' scalar' others' =>
          obtain ⟨rfl, rfl⟩ := name_eq_of_append named named' hcs
          rw [known, Option.some.injEq] at known'
          rw [← known', scalar, Option.some.injEq] at scalar'
          rw [scalar', ih others']
      | plain closed others' =>
          rw [← hesc] at closed
          exact absurd closed (hexcludes hcs)
  | @plain escaped c rest out closed others ih =>
      generalize hcs : c :: rest = cs at h'
      cases h' with
      | done => cases hcs
      | value named' known' scalar' others' => exact absurd closed (hexcludes hcs.symm)
      | plain closed' others' =>
          obtain ⟨rfl, rfl⟩ := List.cons.inj hcs
          rw [ih others']

/-! ## The scanner reads so -/

theorem toList_fill_textSegment_append (vars : OrderedMap Value) (pending : List Char)
    (segments : List Segment) :
    (fill vars (textSegment pending ++ segments)).toList =
      pending.reverse ++ (fill vars segments).toList := by
  unfold textSegment
  cases pending with
  | nil => simp
  | cons c rest => simp [fill, Segment.fill]

/-- What the scanner has cut is put together again as it reads. -/
theorem interpolates_of_scanFrom {s : Scope} {text : String} {escaped : Bool}
    {pending rest : List Char} {segments : List Segment}
    (h : scanFrom text escaped pending rest = .ok segments) (fills : s.Fills segments) :
    ∃ out, Interpolates s.vars escaped rest out ∧
      (fill s.vars segments).toList = pending.reverse ++ out := by
  induction escaped, pending, rest using scanFrom.induct generalizing segments with
  | case1 escaped pending => -- the end of the text
      rw [scanFrom, Except.ok.injEq] at h
      refine ⟨[], .done escaped, ?_⟩
      have hfill := toList_fill_textSegment_append s.vars pending []
      rw [List.append_nil, h] at hfill
      exact hfill
  | case2 pending after ih => -- a reference behind a backslash: two plain characters
      rw [scanFrom, if_pos rfl] at h
      obtain ⟨out, hout, hfill⟩ := ih h fills
      refine ⟨'$' :: '(' :: out, .plain (.inl rfl) (.plain (.inr (.inl (by decide))) hout), ?_⟩
      rw [hfill]
      simp
  | case3 escaped pending after hescaped hdrop => -- a reference that does not end
      rw [Bool.not_eq_true] at hescaped
      rw [hescaped, scanFrom_unterminated hdrop] at h
      cases h
  | case4 escaped pending after hescaped close later hdrop ih => -- a reference
      rw [Bool.not_eq_true] at hescaped
      subst hescaped
      obtain ⟨inner, r, tail, rfl, hr, htail, rfl⟩ := scanFrom_reference_eq_ok hdrop h
      obtain ⟨name, v, t, rfl, hv, ht⟩ := fills r (by simp)
      have hfills : s.Fills tail := fun r' hr' => fills r' (by simp [hr'])
      obtain ⟨out, hout, hfill⟩ := ih htail hfills
      have hnamed : Reference.isName name.toList = true := Reference.isProper_of_ofInner hr
      have htext : '$' :: '(' :: (inner ++ ')' :: later) =
          (Reference.var name).text.toList ++ later := by
        rw [toList_text_of_ofInner hr]
        simp
      refine ⟨t.toList ++ out, htext ▸ .value hnamed hv ht hout, ?_⟩
      rw [toList_fill_textSegment_append, fill, Segment.fill, hv, Option.bind_some, ht,
        Option.getD_some, String.toList_append, hfill, List.reverse_nil, List.nil_append]
  | case5 escaped pending c after hc ih => -- any other character
      rw [scanFrom.eq_3 _ _ _ _ _ hc] at h
      obtain ⟨out, hout, hfill⟩ := ih h fills
      refine ⟨c :: out, .plain (.inr ?_) hout, ?_⟩
      · -- a dollar sign here has no parenthesis behind it
        by_cases hdollar : c = '$'
        · refine .inr fun hhead => ?_
          obtain ⟨after', hafter⟩ := List.head?_eq_some_iff.mp hhead
          exact hc after' hdollar hafter
        · exact .inl hdollar
      · rw [hfill]
        simp

/-- The segments of a longer text are filled as it reads. -/
theorem interpolates_of_parse {s : Scope} {text : String} {segments : List Segment}
    (h : parse text = .ok (.template segments)) (fills : s.Fills segments) :
    Interpolates s.vars false text.toList (fill s.vars segments).toList := by
  obtain ⟨_, hscan, rfl, -⟩ := classifies_of_parse h
  obtain ⟨out, hout, hfill⟩ := interpolates_of_scanFrom hscan fills
  rw [hfill]
  exact hout

/-- A text that can be resolved stands for what substitution makes of it. -/
theorem stands_substText {s : Scope} {text : String} (admits : s.Admits text) :
    Stands s.vars text (Value.substText s.vars text) := by
  obtain ⟨e, hparse, hgrants⟩ := admits
  unfold Value.substText
  rw [hparse]
  match e with
  | .literal => exact .literal (parse_eq_literal_iff.mp hparse)
  | .whole (.var name) =>
      obtain ⟨exact, named⟩ := parse_eq_whole_iff.mp hparse
      obtain ⟨v, hv⟩ := OrderedMap.exists_get?_eq_some hgrants
      simp only [hv, Option.getD_some]
      exact .value exact named hv
  | .whole (.output module name) =>
      obtain ⟨exact, proper⟩ := parse_eq_whole_iff.mp hparse
      exact .output exact proper
  | .template segments =>
      refine .template ?_ ?_ (interpolates_of_parse hparse hgrants)
      · -- a closed text would parse as a literal
        refine Classical.byContradiction fun closed => ?_
        rw [parse_eq_literal_iff.mpr closed] at hparse
        cases hparse
      · -- a reference would parse as a whole one
        rintro r proper rfl
        rw [parse_text_iff.mpr proper] at hparse
        cases hparse

/-- On a text that can be resolved, substitution is what the text stands for. -/
theorem stands_iff {s : Scope} {text : String} (admits : s.Admits text) {w : Value} :
    Stands s.vars text w ↔ w = Value.substText s.vars text := by
  refine ⟨fun h => ?_, fun h => h ▸ stands_substText admits⟩
  obtain ⟨e, hparse, hgrants⟩ := admits
  have hwhole : ∀ {r : Reference}, text = r.text → r.IsProper → e = .whole r := by
    intro r exact proper
    have hr := parse_eq_whole_iff.mpr ⟨exact, proper⟩
    rw [hparse] at hr
    exact Except.ok.inj hr
  unfold Value.substText
  rw [hparse]
  cases h with
  | literal closed =>
      have hliteral := parse_eq_literal_iff.mpr closed
      rw [hparse, Except.ok.injEq] at hliteral
      rw [hliteral]
  | value exact named known =>
      rw [hwhole exact named]
      simp [known]
  | output exact proper => rw [hwhole exact proper]
  | template opens longer reads =>
      match e with
      | .literal => exact absurd opens (parse_eq_literal_iff.mp hparse)
      | .whole r =>
          obtain ⟨exact, proper⟩ := parse_eq_whole_iff.mp hparse
          exact absurd exact (longer r proper)
      | .template segments =>
          have hout := reads.unique (interpolates_of_parse hparse hgrants)
          rw [String.toList_inj.mp hout]

end Expression

/-! ## A materialized blueprint -/

namespace Blueprint

/-- The variables that a text may refer to are the first of the blueprint's. -/
theorem Site.prefix_vars {b : Blueprint} {position : Position} {known : OrderedMap Value}
    {text : String} (h : b.Site position known text) : known <+: b.vars := by
  cases h with
  | inVar split mem => exact split ▸ List.prefix_append _ _
  | inModule module setting mem => exact List.prefix_refl _
  | inValidator validator input mem => exact List.prefix_refl _
  | inDefaults entry mem => exact List.prefix_refl _
  | inBackend group has entry mem => exact List.prefix_refl _

/-- Materializing is substitution.  Every variable comes to be what the ones before it make of
    it, these make what they come to be of every setting, input and configuration entry, and
    nothing else changes.  What they make of a text is what the text stands for. -/
theorem materialize_substitutes {b : Blueprint} {m : Materialized} (distinct : b.vars.Distinct)
    (h : b.materialize = .ok m) :
    m.blueprint.vars.keys = b.vars.keys ∧
    (∀ before name v after, b.vars = before ++ (name, v) :: after →
      m.blueprint.vars.get? name = some (v.subst (m.blueprint.vars.take before.length))) ∧
    m.blueprint = { b with
      vars := m.blueprint.vars
      validators := b.validators.map (·.subst m.blueprint.vars)
      backendDefaults := b.backendDefaults.subst m.blueprint.vars
      groups := b.groups.map (·.subst m.blueprint.vars) } ∧
    ∀ position known text, b.Site position known text → ∀ w,
      Expression.Stands (m.blueprint.vars.take known.length) text w ↔
        w = Value.substText (m.blueprint.vars.take known.length) text := by
  obtain ⟨wellFormed, rfl⟩ := materialize_eq_ok_iff.mp h
  have hvars : b.substituted.vars = settle [] b.vars := rfl
  refine ⟨?_, ?_, rfl, ?_⟩
  · rw [hvars, keys_settle distinct]
  · intro before name v after hsplit
    rw [hvars, hsplit]
    exact get?_settle (hsplit ▸ distinct)
  · intro position known text hsite w
    -- the scope of the text has the variables that it may refer to, settled
    have hadmits := (admits_iff_resolvable wellFormed.modules_nodup).mpr
      (wellFormed.texts_resolvable position known text hsite)
    obtain ⟨after, hafter⟩ := hsite.prefix_vars
    have htake : settle [] known = b.substituted.vars.take known.length := by
      rw [hvars, ← hafter]
      exact settle_eq_take (hafter ▸ distinct)
    rw [← htake]
    exact Expression.stands_iff hadmits

/-- A blueprint with a whole reference to a list, a longer text, an escaped reference and a
    reference to an output. -/
def templated : Blueprint where
  name := "t"
  toolkitVersion := ""
  validators := []
  level := .warning
  skipped := []
  vars := [("deployment_name", .string "d"), ("size", .number (.int 3)),
    ("zones", .list [.string "z-$(vars.size)", .null])]
  backendDefaults := ⟨"gcs", [("bucket", .string "b-$(vars.deployment_name)")]⟩
  groups := [⟨"g", none,
    [⟨"net", "modules/net", .terraform, [], [], [], none⟩,
     ⟨"vm", "modules/vm", .terraform, ["net"],
      [("zones", .string "$(vars.zones)"),
       ("labels", .map [("n", .string "\\$(vars.size)=$(vars.size)")]),
       ("network", .string "$(net.id)")], [], none⟩]⟩]

/-- What materializing makes of it. -/
def templatedValues : Blueprint where
  name := "t"
  toolkitVersion := ""
  validators := []
  level := .warning
  skipped := []
  vars := [("deployment_name", .string "d"), ("size", .number (.int 3)),
    ("zones", .list [.string "z-3", .null])]
  backendDefaults := ⟨"gcs", [("bucket", .string "b-d")]⟩
  groups := [⟨"g", none,
    [⟨"net", "modules/net", .terraform, [], [], [], none⟩,
     ⟨"vm", "modules/vm", .terraform, ["net"],
      [("zones", .list [.string "z-3", .null]),
       ("labels", .map [("n", .string "\\$(vars.size)=3")]),
       ("network", .string "$(net.id)")], [], none⟩]⟩]

theorem materialize_templated :
    templated.materialize = .ok ⟨templatedValues, templated.usage⟩ := by
  apply eq_ok_of_toOption
  decide +kernel

/-- In the longer text the escaped reference stays, and the one after it is replaced. -/
theorem materialize_substitutes_templated :
    templated.vars.Distinct ∧
      templated.materialize = .ok ⟨templatedValues, templated.usage⟩ ∧
      ∀ w, Expression.Stands templatedValues.vars "\\$(vars.size)=$(vars.size)" w ↔
        w = .string "\\$(vars.size)=3" := by
  have hdistinct : templated.vars.Distinct := by
    unfold OrderedMap.Distinct
    decide
  have hmodule : (0, (⟨"vm", "modules/vm", .terraform, ["net"],
      [("zones", .string "$(vars.zones)"),
       ("labels", .map [("n", .string "\\$(vars.size)=$(vars.size)")]),
       ("network", .string "$(net.id)")], [], none⟩ : Module)) ∈ templated.modules :=
    List.mem_cons_of_mem _ (List.mem_singleton_self _)
  have hsite : templated.Site (.inModule "vm" 0) templated.vars
      "\\$(vars.size)=$(vars.size)" :=
    .inModule hmodule (List.mem_cons_of_mem _ List.mem_cons_self)
      (Value.mem_texts_map.mpr ⟨"n", _, List.mem_singleton_self _,
        Value.texts_string _ ▸ List.mem_singleton_self _⟩)
  have hstands := (materialize_substitutes hdistinct materialize_templated).2.2.2 _ _ _ hsite
  have hvalue : Value.substText templatedValues.vars "\\$(vars.size)=$(vars.size)" =
      .string "\\$(vars.size)=3" := by decide +kernel
  refine ⟨hdistinct, materialize_templated, fun w => ?_⟩
  rw [← hvalue]
  exact hstands w

end Blueprint
end HpcBlueprint
