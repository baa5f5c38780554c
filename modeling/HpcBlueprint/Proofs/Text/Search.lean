/-
  What a search in a text finds.

  A text that is cut at a pattern is what stands before the first occurrence, the pattern and
  what stands behind it, and it is not cut exactly if the pattern does not occur.  At a single
  character the first occurrence is the one with no other before it.  `FirstAt` says the same of
  any pattern, without the search.
-/
import HpcBlueprint.Text.Search
import Mathlib.Data.List.Infix
import Mathlib.Data.List.TakeWhile

namespace HpcBlueprint
namespace Text

/-! ## Beginnings -/

theorem startsWith_iff {start text : String} :
    startsWith start text = true ↔ start.toList <+: text.toList :=
  List.isPrefixOf_iff_prefix

theorem startsWith_append (start rest : String) : startsWith start (start ++ rest) = true :=
  startsWith_iff.mpr (String.toList_append ▸ List.prefix_append _ _)

theorem exists_append_of_startsWith {start text : String} (h : startsWith start text = true) :
    ∃ rest, text = start ++ rest := by
  obtain ⟨more, hmore⟩ := startsWith_iff.mp h
  refine ⟨String.ofList more, ?_⟩
  rw [← String.toList_inj, String.toList_append, String.toList_ofList, hmore]

theorem dropStart?_eq_some_iff {start text rest : String} :
    dropStart? start text = some rest ↔ text.toList = start.toList ++ rest.toList := by
  rw [dropStart?]
  split
  · rename_i hstarts
    obtain ⟨more, hmore⟩ := List.isPrefixOf_iff_prefix.mp hstarts
    rw [← hmore, List.drop_left, Option.some.injEq, List.append_cancel_left_eq]
    constructor
    · rintro rfl
      exact String.toList_ofList.symm
    · intro h
      rw [h, String.ofList_toList]
  · rename_i hstarts
    rw [List.isPrefixOf_iff_prefix] at hstarts
    constructor
    · intro h
      cases h
    · intro h
      exact absurd (h ▸ List.prefix_append _ _) hstarts

theorem dropStart?_eq_none_iff {start text : String} :
    dropStart? start text = none ↔ startsWith start text = false := by
  rw [dropStart?, startsWith]
  split
  · rename_i hstarts
    simp [hstarts]
  · rename_i hstarts
    rw [Bool.not_eq_true] at hstarts
    simp [hstarts]

theorem dropStart?_append (start rest : String) : dropStart? start (start ++ rest) = some rest :=
  dropStart?_eq_some_iff.mpr String.toList_append

/-- The first text behind a beginning is what follows it in the first text that has it. -/
theorem findSome?_dropStart? (start : String) (texts : List String) :
    texts.findSome? (dropStart? start) =
      (texts.find? (startsWith start)).bind (dropStart? start) := by
  induction texts with
  | nil => rfl
  | cons text rest ih =>
      cases hdrop : dropStart? start text with
      | none =>
          have hstarts := dropStart?_eq_none_iff.mp hdrop
          rw [List.findSome?_cons_of_isNone (by rw [hdrop]; rfl),
            List.find?_cons_of_neg (by rw [hstarts]; exact Bool.false_ne_true), ih]
      | some behind =>
          have hstarts : startsWith start text = true :=
            startsWith_iff.mpr ⟨behind.toList, (dropStart?_eq_some_iff.mp hdrop).symm⟩
          rw [List.findSome?_cons_of_isSome (by rw [hdrop]; rfl), List.find?_cons_of_pos hstarts,
            Option.bind_some]

/-- Of two beginnings of one text one begins the other. -/
theorem startsWith_eq_false (start : String) {other text : String} (h : startsWith other text = true)
    (hstart : ¬ start.toList <+: other.toList) (hother : ¬ other.toList <+: start.toList) :
    startsWith start text = false := by
  rw [Bool.eq_false_iff]
  intro h'
  rcases List.prefix_or_prefix_of_prefix (startsWith_iff.mp h') (startsWith_iff.mp h) with h₁ | h₁
  · exact hstart h₁
  · exact hother h₁

/-- What begins two lists in a row begins the first or reaches into the second. -/
theorem prefix_append_cases {α : Type} {start xs ys : List α} (h : start <+: xs ++ ys) :
    start <+: xs ∨ ∃ c rest, start = xs ++ c :: rest ∧ c :: rest <+: ys := by
  rcases List.prefix_or_prefix_of_prefix h (List.prefix_append xs ys) with hshort | ⟨more, rfl⟩
  · exact Or.inl hshort
  · cases more with
    | nil => exact Or.inl (by rw [List.append_nil])
    | cons c rest => exact Or.inr ⟨c, rest, rfl, (List.prefix_append_right_inj xs).mp h⟩

/-- What has no separator in it begins a text with a separator if it begins what stands before
    the first one. -/
theorem prefix_append_cons_iff {α : Type} {sep : α} {start xs ys : List α} (h : sep ∉ start) :
    start <+: xs ++ sep :: ys ↔ start <+: xs := by
  refine ⟨fun hstart => ?_, fun hstart => hstart.trans (List.prefix_append _ _)⟩
  rcases prefix_append_cases hstart with hshort | ⟨c, rest, rfl, hsep⟩
  · exact hshort
  · rw [(List.cons_prefix_cons.mp hsep).1] at h
    exact absurd (List.mem_append_right _ List.mem_cons_self) h

/-- What ends in its only separator begins a text with a separator if it does so up to the
    first one. -/
theorem concat_prefix_append_cons_iff {α : Type} {sep : α} {front xs ys : List α}
    (h : sep ∉ front) : front ++ [sep] <+: xs ++ sep :: ys ↔ front ++ [sep] <+: xs ++ [sep] := by
  have hfirst : xs ++ [sep] <+: xs ++ sep :: ys := ⟨ys, by simp⟩
  refine ⟨fun hstart => ?_, fun hstart => hstart.trans hfirst⟩
  rcases prefix_append_cases hstart with hshort | ⟨c, rest, hlong, hsep⟩
  · exact hshort.trans (List.prefix_append _ _)
  · rw [(List.cons_prefix_cons.mp hsep).1] at hlong
    rw [((List.append_cons_inj_of_notMem h List.not_mem_nil).mp hlong).1]

/-! ## Cutting -/

/-- What is cut at a pattern is made of the two parts and the pattern between them. -/
theorem breakOn_eq_some {pattern cs before after : List Char}
    (h : breakOn pattern cs = some (before, after)) : cs = before ++ pattern ++ after := by
  induction cs generalizing before with
  | nil =>
      rw [breakOn] at h
      split at h
      · rename_i hempty
        cases h
        simpa using hempty
      · cases h
  | cons c rest ih =>
      rw [breakOn] at h
      split at h
      · rename_i hstarts
        cases h
        obtain ⟨more, hmore⟩ := List.isPrefixOf_iff_prefix.mp hstarts
        rw [List.nil_append, ← hmore, List.drop_left]
      · obtain ⟨⟨found, behind⟩, hfound, hcut⟩ := Option.map_eq_some_iff.mp h
        obtain ⟨rfl, rfl⟩ := Prod.mk.inj hcut
        rw [ih hfound, List.cons_append, List.cons_append]

/-- A pattern is found behind a text without its first character. -/
theorem breakOn_append {c : Char} {pattern before after : List Char} (h : c ∉ before) :
    breakOn (c :: pattern) (before ++ (c :: pattern) ++ after) = some (before, after) := by
  induction before with
  | nil => simp [breakOn]
  | cons d rest ih =>
      rw [List.mem_cons, not_or] at h
      have hstarts : ¬ (c :: pattern).isPrefixOf (d :: (rest ++ (c :: pattern) ++ after)) = true := by
        simp [h.1]
      rw [List.cons_append, List.cons_append, breakOn, if_neg hstarts, ih h.2]
      rfl

/-- A pattern is found behind a text in which it does not occur, if it cannot begin inside of
    itself. -/
theorem breakOn_append_of_not_infix {c : Char} {pattern before after : List Char}
    (hpattern : c ∉ pattern) (h : ¬ c :: pattern <:+: before) :
    breakOn (c :: pattern) (before ++ (c :: pattern) ++ after) = some (before, after) := by
  induction before with
  | nil => exact breakOn_append List.not_mem_nil
  | cons d rest ih =>
      rw [List.infix_cons_iff, not_or] at h
      have hstarts : ¬ (c :: pattern).isPrefixOf (d :: (rest ++ (c :: pattern) ++ after)) = true := by
        rw [List.isPrefixOf_iff_prefix, List.append_assoc, ← List.cons_append]
        intro hprefix
        rcases prefix_append_cases hprefix with hshort | ⟨e, more, hlong, hover⟩
        · exact h.1 hshort
        · -- the pattern would begin once more where its own first character stands
          rw [(List.cons_prefix_cons.mp hover).1, List.cons_append, List.cons.injEq] at hlong
          rw [hlong.2] at hpattern
          exact hpattern (List.mem_append_right _ List.mem_cons_self)
      rw [List.cons_append, List.cons_append, breakOn, if_neg hstarts, ih h.2]
      rfl

/-- Where a pattern occurs in a beginning of a text, the text is cut within it. -/
theorem exists_breakOn_append {pattern xs : List Char} (hpattern : pattern ≠ [])
    (h : pattern <:+: xs) (ys : List Char) :
    ∃ before after, breakOn pattern (xs ++ ys) = some (before, after) ∧
      before.length < xs.length := by
  induction xs with
  | nil => exact absurd (List.infix_nil.mp h) hpattern
  | cons c rest ih =>
      rw [List.cons_append, breakOn]
      split
      · exact ⟨[], _, rfl, Nat.succ_pos _⟩
      · rename_i hstarts
        rw [List.isPrefixOf_iff_prefix, ← List.cons_append] at hstarts
        rcases List.infix_cons_iff.mp h with hbegins | hrest
        · exact absurd (hbegins.trans (List.prefix_append _ _)) hstarts
        · obtain ⟨before, after, hbreak, hlength⟩ := ih hrest
          exact ⟨c :: before, after, by rw [hbreak]; rfl, Nat.succ_lt_succ hlength⟩

theorem breakOn_eq_none_iff {pattern cs : List Char} :
    breakOn pattern cs = none ↔ ¬ pattern <:+: cs := by
  induction cs with
  | nil => cases pattern <;> simp [breakOn]
  | cons c rest ih =>
      rw [breakOn, List.infix_cons_iff, not_or, ← ih]
      split
      · rename_i hstarts
        simp [List.isPrefixOf_iff_prefix.mp hstarts]
      · rename_i hstarts
        rw [List.isPrefixOf_iff_prefix] at hstarts
        simp [hstarts]

/-- A character is found where no other one of its kind stands before. -/
theorem breakOn_singleton_eq_some_iff {sep : Char} {cs before after : List Char} :
    breakOn [sep] cs = some (before, after) ↔ cs = before ++ sep :: after ∧ sep ∉ before := by
  constructor
  · intro h
    refine ⟨by simpa using breakOn_eq_some h, ?_⟩
    induction cs generalizing before with
    | nil => simp [breakOn] at h
    | cons c rest ih =>
        rw [breakOn] at h
        split at h
        · cases h
          exact List.not_mem_nil
        · rename_i hstarts
          obtain ⟨⟨found, behind⟩, hfound, hcut⟩ := Option.map_eq_some_iff.mp h
          obtain ⟨rfl, rfl⟩ := Prod.mk.inj hcut
          have hne : sep ≠ c := by simpa using hstarts
          rw [List.mem_cons, not_or]
          exact ⟨hne, ih hfound⟩
  · rintro ⟨rfl, hbefore⟩
    have hcut := @breakOn_append sep [] before after hbefore
    rwa [List.append_assoc, List.singleton_append] at hcut

/-- A text is cut at a character where that occurs first. -/
theorem splitOnce_eq_some_iff {sep : Char} {text before after : String} :
    splitOnce sep text = some (before, after) ↔
      text.toList = before.toList ++ sep :: after.toList ∧ sep ∉ before.toList := by
  rw [splitOnce, ← breakOn_singleton_eq_some_iff]
  constructor
  · intro h
    obtain ⟨⟨xs, ys⟩, hbreak, hcut⟩ := Option.map_eq_some_iff.mp h
    obtain ⟨rfl, rfl⟩ := Prod.mk.inj hcut
    rw [hbreak, String.toList_ofList, String.toList_ofList]
  · intro h
    rw [h, Option.map_some]
    simp only [String.ofList_toList]

theorem splitOnce_eq_none_iff {sep : Char} {text : String} :
    splitOnce sep text = none ↔ sep ∉ text.toList := by
  rw [splitOnce, Option.map_eq_none_iff, breakOn_eq_none_iff, List.singleton_infix_iff]

/-- The sides of a character are what stands before its first occurrence and what stands
    behind it. -/
theorem splitOnce_of_mem {sep : Char} {text : String} (h : sep ∈ text.toList) :
    splitOnce sep text =
      some (String.ofList (text.toList.takeWhile (· != sep)),
        String.ofList ((text.toList.dropWhile (· != sep)).drop 1)) := by
  have hwhole : text.toList.takeWhile (· != sep) ++ text.toList.dropWhile (· != sep) =
      text.toList := List.takeWhile_append_dropWhile
  have hbefore : sep ∉ text.toList.takeWhile (· != sep) := by
    intro hmem
    simpa using List.mem_takeWhile_imp hmem
  rw [splitOnce_eq_some_iff, String.toList_ofList, String.toList_ofList]
  refine ⟨?_, hbefore⟩
  cases hrest : text.toList.dropWhile (· != sep) with
  | nil =>
      rw [hrest, List.append_nil] at hwhole
      rw [← hwhole] at h
      exact absurd h hbefore
  | cons c rest =>
      have hsep : c = sep := by
        have hhead := List.head?_dropWhile_not (· != sep) text.toList
        simpa [hrest] using hhead
      rw [hrest, hsep] at hwhole
      rw [List.drop_one, List.tail_cons]
      exact hwhole.symm

/-! ## First occurrences -/

/-- A pattern occurs in a text behind a beginning, and nowhere before. -/
def FirstAt (pattern before text : List Char) : Prop :=
  before ++ pattern <+: text ∧ ∀ earlier, earlier ++ pattern <+: text → before <+: earlier

namespace FirstAt

variable {pattern before text : List Char}

theorem isInfix (h : FirstAt pattern before text) : pattern <:+: text :=
  (List.suffix_append _ _).isInfix.trans h.1.isInfix

/-- Nothing of its kind stands before a first occurrence. -/
theorem none_before (h : FirstAt pattern before text) (hpattern : pattern ≠ []) :
    ¬ pattern <:+: before := by
  rintro ⟨front, back, rfl⟩
  have hfront := (h.2 front ⟨back ++ pattern ++ h.1.choose, by
    simpa only [List.append_assoc] using h.1.choose_spec⟩).length_le
  have hpos := List.length_pos_of_ne_nil hpattern
  simp only [List.length_append] at hfront
  omega

theorem unique {before' : List Char} (h : FirstAt pattern before text)
    (h' : FirstAt pattern before' text) : before = before' :=
  (h.2 before' h'.1).eq_of_length_le (h'.2 before h.1).length_le

/-- The first occurrence in a text is the first in every part of it that reaches so far. -/
theorem of_prefix {shorter : List Char} (h : FirstAt pattern before text)
    (reaches : before ++ pattern <+: shorter) (hshorter : shorter <+: text) :
    FirstAt pattern before shorter :=
  ⟨reaches, fun earlier hearlier => h.2 earlier (hearlier.trans hshorter)⟩

/-- The first occurrence stays the first when the text goes on. -/
theorem append (h : FirstAt pattern before text) (more : List Char) :
    FirstAt pattern before (text ++ more) := by
  have hlong : before ++ pattern <+: text ++ more := h.1.trans (List.prefix_append _ _)
  refine ⟨hlong, fun earlier hearlier => ?_⟩
  rcases List.prefix_or_prefix_of_prefix hlong hearlier with hle | hle
  · have hlength := hle.length_le
    rw [List.length_append, List.length_append, Nat.add_le_add_iff_right] at hlength
    exact List.prefix_of_prefix_length_le ((List.prefix_append _ _).trans hlong)
      ((List.prefix_append _ _).trans hearlier) hlength
  · exact h.2 earlier (hle.trans h.1)

/-- A text is cut nowhere but at a first occurrence. -/
theorem of_breakOn {after : List Char} (h : breakOn pattern text = some (before, after)) :
    FirstAt pattern before text := by
  refine ⟨⟨after, (breakOn_eq_some h).symm⟩, fun earlier hearlier => ?_⟩
  -- the search and an earlier occurrence give up the same character at each step
  induction text generalizing before earlier with
  | nil =>
      rw [breakOn] at h
      split at h
      · cases h
        exact List.nil_prefix
      · cases h
  | cons c rest ih =>
      rw [breakOn] at h
      split at h
      · cases h
        exact List.nil_prefix
      · rename_i hstarts
        rw [List.isPrefixOf_iff_prefix] at hstarts
        obtain ⟨⟨found, behind⟩, hfound, hcut⟩ := Option.map_eq_some_iff.mp h
        obtain ⟨rfl, rfl⟩ := Prod.mk.inj hcut
        cases earlier with
        | nil => exact absurd hearlier hstarts
        | cons d earlier =>
            obtain ⟨rfl, hrest⟩ := List.cons_prefix_cons.mp hearlier
            exact List.cons_prefix_cons.mpr ⟨rfl, ih hfound earlier hrest⟩

end FirstAt

/-- A text is cut at a pattern where that occurs first. -/
theorem breakOn_eq_some_iff {pattern cs before after : List Char} :
    breakOn pattern cs = some (before, after) ↔
      cs = before ++ pattern ++ after ∧ FirstAt pattern before cs := by
  constructor
  · intro h
    exact ⟨breakOn_eq_some h, .of_breakOn h⟩
  · rintro ⟨hcs, first⟩
    cases hbreak : breakOn pattern cs with
    | none =>
        have hinfix : pattern <:+: cs := ⟨before, after, hcs.symm⟩
        exact absurd hinfix (breakOn_eq_none_iff.mp hbreak)
    | some sides =>
        obtain ⟨found, behind⟩ := sides
        have hfound := breakOn_eq_some hbreak
        obtain rfl := first.unique (.of_breakOn hbreak)
        rw [hcs, List.append_cancel_left_eq] at hfound
        rw [hfound]

/-- Two of a character are found behind a text that holds no two in a row and does not end in
    one. -/
theorem firstAt_pair {c : Char} {xs : List Char} (none : ¬ [c, c] <:+: xs)
    (last : xs.getLast? ≠ some c) (more : List Char) : FirstAt [c, c] xs (xs ++ [c, c] ++ more) := by
  refine ⟨List.prefix_append _ _, fun earlier hearlier => ?_⟩
  have hxs : xs <+: xs ++ [c, c] ++ more := by
    rw [List.append_assoc]
    exact List.prefix_append _ _
  rcases List.prefix_or_prefix_of_prefix hxs ((List.prefix_append _ _).trans hearlier) with
    hle | ⟨between, rfl⟩
  · exact hle
  · -- a pair that began earlier would lie in the text, or half in it
    rw [List.append_assoc, List.append_assoc, List.prefix_append_right_inj] at hearlier
    match between with
    | [] => rw [List.append_nil]
    | [d] =>
        rw [(List.cons_prefix_cons.mp hearlier).1] at last
        exact absurd List.getLast?_concat last
    | d :: d' :: rest =>
        obtain ⟨hd, hearlier⟩ := List.cons_prefix_cons.mp hearlier
        obtain ⟨hd', -⟩ := List.cons_prefix_cons.mp hearlier
        rw [← hd, ← hd'] at none
        exact absurd ⟨earlier, rest, by simp⟩ none

end Text
end HpcBlueprint
