/-
  Reading back what was laid out.

  Every text comes back from its quotes, whatever characters it has, and the reader goes
  through the lines of a layout as they were put there: data without numbers that is
  rendered reads as itself.  The bound that the reader is given suffices since each of its
  two steps for an item or a field consumes a character.
-/
import HpcBlueprint.Json.Reader
import Mathlib.Data.List.DropRight

namespace HpcBlueprint.Json

/-! ## White space -/

theorem skipSpace_append {blank : List Char} (h : ∀ c ∈ blank, c = ' ' ∨ c = '\n')
    (cs : List Char) : skipSpace (blank ++ cs) = skipSpace cs := by
  refine List.dropWhile_append_of_pos fun c hc => ?_
  rcases h c hc with rfl | rfl <;> rfl

theorem skipSpace_skipSpace (cs : List Char) : skipSpace (skipSpace cs) = skipSpace cs :=
  List.dropWhile_idempotent _ cs

theorem mem_indent {depth : Nat} {c : Char} (h : c ∈ (indent depth).toList) :
    c = ' ' ∨ c = '\n' := by
  rw [indent, String.toList_ofList] at h
  exact .inl (List.eq_of_mem_replicate h)

theorem skipSpace_indent (depth : Nat) (cs : List Char) :
    skipSpace ((indent depth).toList ++ cs) = skipSpace cs :=
  skipSpace_append (fun _ h => mem_indent h) cs

theorem skipSpace_newline (cs : List Char) : skipSpace ('\n' :: cs) = skipSpace cs := rfl

theorem skipSpace_space (cs : List Char) : skipSpace (' ' :: cs) = skipSpace cs := rfl

/-! ## Texts in quotes -/

/-- The number of a control character reads back. -/
theorem numbered?_hexByte {n : Nat} (h : n < 0x20) (rest : List Char) :
    numbered? ('0' :: '0' :: ((hexByte n).toList ++ rest)) = some (Char.ofNat n, rest) := by
  have hdigits : ∀ n < 0x20,
      (hexByte n).toList.map hexDigit? = [some (n / 16), some (n % 16)] := by decide
  have hzero : hexDigit? '0' = some 0 := by decide
  obtain ⟨high, low, hbyte, hhigh, hlow⟩ : ∃ high low, (hexByte n).toList = [high, low] ∧
      hexDigit? high = some (n / 16) ∧ hexDigit? low = some (n % 16) := by
    simpa [List.map_eq_cons_iff, and_assoc] using hdigits n h
  have hunit : unit? ('0' :: '0' :: high :: low :: rest) = some (n, rest) := by
    have hn : ((0 * 16 + 0) * 16 + n / 16) * 16 + n % 16 = n := by omega
    simp only [unit?, hzero, hhigh, hlow, Option.bind_eq_bind, Option.bind_some, Option.pure_def,
      hn]
  have hsurrogate : (0xd800 ≤ n && n < 0xdc00) = false := by
    rw [decide_eq_false (by omega), Bool.false_and]
  have hlate : (0xdc00 ≤ n && n < 0xe000) = false := by
    rw [decide_eq_false (by omega), Bool.false_and]
  rw [hbyte, List.cons_append, List.cons_append, List.nil_append, numbered?, hunit,
    Option.bind_eq_bind, Option.bind_some]
  dsimp only
  rw [if_neg (Bool.eq_false_iff.mp hsurrogate), if_neg (Bool.eq_false_iff.mp hlate)]
  rfl

/-- A character that needs no escape stands for itself. -/
theorem stringFrom_cons {c : Char} (hquote : c ≠ '"') (hbackslash : c ≠ '\\')
    (hvisible : ¬c.toNat < 0x20) (n : Nat) (kept rest : List Char) :
    stringFrom (n + 1) kept (c :: rest) = stringFrom n (c :: kept) rest := by
  rw [stringFrom.eq_def]
  dsimp only
  split
  · simp_all
  · simp_all
  · simp_all
  · rename_i heq
    cases heq
    rw [if_neg hvisible]
  · simp_all

/-- A character reads back from what stands for it in quotes. -/
theorem stringFrom_escaped (n : Nat) (kept : List Char) (c : Char) (rest : List Char) :
    stringFrom (n + 1) kept ((escaped c).toList ++ rest) = stringFrom n (c :: kept) rest := by
  unfold escaped
  split
  case h_8 hquote hbackslash _ _ _ _ _ =>
    split
    · rename_i hcontrol
      have hprefix : "\\u00".toList = ['\\', 'u', '0', '0'] := by decide
      rw [String.toList_append, hprefix, List.append_assoc]
      simp only [List.cons_append, List.nil_append, stringFrom, numbered?_hexByte hcontrol]
      simp
    · rename_i hvisible
      rw [String.toList_ofList, List.cons_append, List.nil_append]
      exact stringFrom_cons hquote hbackslash hvisible n kept rest
  all_goals rfl

theorem escaped_ne_nil (c : Char) : (escaped c).toList ≠ [] := by
  unfold escaped
  split <;> try decide
  split <;> simp

/-- A text reads back from behind its opening quote. -/
theorem stringFrom_quoted {n : Nat} {cs : List Char} (hn : cs.length < n) (kept rest : List Char) :
    stringFrom n kept (cs.flatMap (fun c => (escaped c).toList) ++ '"' :: rest) =
      some (String.ofList (kept.reverse ++ cs), rest) := by
  induction cs generalizing n kept with
  | nil =>
      obtain ⟨m, rfl⟩ := Nat.exists_eq_succ_of_ne_zero (Nat.ne_of_gt hn)
      simp [stringFrom]
  | cons c more ih =>
      obtain ⟨m, rfl⟩ := Nat.exists_eq_succ_of_ne_zero (Nat.ne_of_gt (Nat.zero_lt_of_lt hn))
      rw [List.flatMap_cons, List.append_assoc, stringFrom_escaped,
        ih (Nat.lt_of_succ_lt_succ hn), List.reverse_cons, List.append_assoc, List.singleton_append]

theorem toList_quoted (s : String) :
    (quoted s).toList = '"' :: (s.toList.flatMap (fun c => (escaped c).toList) ++ ['"']) := by
  have hquote : "\"".toList = ['"'] := by decide
  rw [quoted, String.toList_append, String.toList_append, hquote, String.toList_join,
    List.flatMap_map]
  rfl

theorem length_le_escaped (cs : List Char) :
    cs.length ≤ (cs.flatMap fun c => (escaped c).toList).length := by
  induction cs with
  | nil => exact Nat.le_refl 0
  | cons c more ih =>
      have hpos := List.length_pos_iff.mpr (escaped_ne_nil c)
      rw [List.flatMap_cons, List.length_append, List.length_cons]
      omega

/-- Every text reads back from its quotes. -/
theorem string?_quoted (s : String) (rest : List Char) :
    string? (s.toList.flatMap (fun c => (escaped c).toList) ++ '"' :: rest) = some (s, rest) := by
  have hlength := length_le_escaped s.toList
  rw [string?, stringFrom_quoted (by rw [List.length_append]; omega), List.reverse_nil,
    List.nil_append, String.ofList_toList]

/-! ## Lines -/

/-- Lines at a depth with commas between them. -/
def lines (depth : Nat) (texts : List String) : List Char :=
  (",\n".intercalate (texts.map (indent depth ++ ·))).toList

theorem lines_singleton (depth : Nat) (text : String) :
    lines depth [text] = (indent depth).toList ++ text.toList := by
  rw [lines, List.map_singleton, String.intercalate_singleton, String.toList_append]

theorem lines_cons_cons (depth : Nat) (text next : String) (more : List String) :
    lines depth (text :: next :: more) =
      (indent depth).toList ++ (text.toList ++ ',' :: '\n' :: lines depth (next :: more)) := by
  have hcomma : ",\n".toList = [',', '\n'] := by decide
  rw [lines, lines, List.map_cons, List.map_cons, String.intercalate_cons_cons,
    String.toList_append, String.toList_append, String.toList_append, hcomma, ← List.map_cons,
    List.append_assoc, List.append_assoc]
  rfl

theorem toList_bracketed {texts : List String} (hne : texts ≠ []) (opening closing : String)
    (depth : Nat) :
    (bracketed opening closing depth texts).toList =
      opening.toList ++ '\n' :: (lines (depth + 1) texts ++
        '\n' :: ((indent depth).toList ++ closing.toList)) := by
  have hnewline : "\n".toList = ['\n'] := by decide
  have hempty : texts.isEmpty = false := by simpa using hne
  rw [bracketed, hempty, if_neg Bool.false_ne_true, lines]
  simp only [String.toList_append, hnewline, List.append_assoc, List.cons_append, List.nil_append]

/-! ## Documents -/

namespace Data

/-- Data without numbers. -/
inductive NumberFree : Data → Prop
  | null : NumberFree .null
  | bool (b : Bool) : NumberFree (.bool b)
  | string (s : String) : NumberFree (.string s)
  | array {items : List Data} (h : ∀ d ∈ items, NumberFree d) : NumberFree (.array items)
  | object {fields : List (String × Data)} (h : ∀ field ∈ fields, NumberFree field.2) :
      NumberFree (.object fields)

/-- White space before a value means nothing. -/
theorem readValue_skipSpace (n : Nat) (cs : List Char) :
    readValue n (skipSpace cs) = readValue n cs := by
  cases n with
  | zero => rfl
  | succ n => rw [readValue, readValue, skipSpace_skipSpace]

theorem readItems_skipSpace (n : Nat) (cs : List Char) :
    readItems n (skipSpace cs) = readItems n cs := by
  cases n with
  | zero => rfl
  | succ n => rw [readItems, readItems, readValue_skipSpace]

theorem readFields_skipSpace (n : Nat) (cs : List Char) :
    readFields n (skipSpace cs) = readFields n cs := by
  cases n with
  | zero => rfl
  | succ n => rw [readFields, readFields, skipSpace_skipSpace]

/-- Data reads back from its layout at any depth, whatever follows, with a bound of twice
    the number of characters and a little more. -/
def Reads (d : Data) : Prop :=
  ∀ (depth n : Nat) (rest : List Char), 2 * ((d.layout depth).toList ++ rest).length + 2 ≤ n →
    readValue n ((d.layout depth).toList ++ rest) = some (d, rest)

theorem readItems_item {d : Data} (hd : Reads d) {depth m : Nat} {tail : List Char}
    (hm : 2 * ((d.layout depth).toList ++ tail).length + 2 ≤ m) :
    readItems (m + 1) ((indent depth).toList ++ ((d.layout depth).toList ++ tail)) =
      match skipSpace tail with
      | ',' :: rest => (readItems m rest).map fun (items, rest) => (d :: items, rest)
      | ']' :: rest => some ([d], rest)
      | _ => none := by
  rw [readItems, ← readValue_skipSpace, skipSpace_indent, readValue_skipSpace, hd depth m tail hm]
  rfl

/-- The items of an array read back from their lines. -/
theorem readItems_lines {items : List Data} (hne : items ≠ [])
    (hreads : ∀ d ∈ items, Reads d) {depth n : Nat} {close rest : List Char}
    (hclose : skipSpace close = ']' :: rest)
    (hn : 2 * (lines depth (layoutItems depth items) ++ close).length + 3 ≤ n) :
    readItems n (lines depth (layoutItems depth items) ++ close) = some (items, rest) := by
  induction items generalizing n with
  | nil => exact absurd rfl hne
  | cons d more ih =>
      obtain ⟨m, rfl⟩ := Nat.exists_eq_succ_of_ne_zero (show n ≠ 0 by omega)
      have hd := hreads d List.mem_cons_self
      cases more with
      | nil =>
          simp only [layoutItems, lines_singleton, List.append_assoc, List.length_append] at hn ⊢
          rw [readItems_item hd (by rw [List.length_append]; omega), hclose]
          rfl
      | cons next more =>
          have hmore := fun d hd => hreads d (List.mem_cons_of_mem _ hd)
          simp only [layoutItems, lines_cons_cons, List.append_assoc, List.cons_append,
            List.length_append, List.length_cons] at hn ih ⊢
          rw [readItems_item hd (by simp only [List.length_append, List.length_cons]; omega)]
          -- behind the comma comes a new line
          change (readItems m ('\n' :: _)).map _ = _
          rw [← readItems_skipSpace, skipSpace_newline, readItems_skipSpace,
            ih (List.cons_ne_nil _ _) hmore (by omega)]
          rfl

theorem readFields_field (name : String) {d : Data} (hd : Reads d) {depth m : Nat}
    {tail : List Char} (hm : 2 * ((d.layout depth).toList ++ tail).length + 2 ≤ m) :
    readFields (m + 1) ((indent depth).toList ++
        ((quoted name ++ ": " ++ d.layout depth).toList ++ tail)) =
      match skipSpace tail with
      | ',' :: rest =>
        (readFields m rest).map fun (fields, rest) => ((name, d) :: fields, rest)
      | '\x7d' :: rest => some ([(name, d)], rest)
      | _ => none := by
  have hcolon : ": ".toList = [':', ' '] := by decide
  have hquote : ∀ cs, skipSpace ('"' :: cs) = '"' :: cs := fun _ => rfl
  have hafter : ∀ cs, skipSpace (':' :: cs) = ':' :: cs := fun _ => rfl
  rw [readFields, skipSpace_indent]
  simp only [String.toList_append, toList_quoted, hcolon, List.append_assoc, List.cons_append,
    List.nil_append, hquote, string?_quoted, Option.bind_eq_bind, Option.bind_some, hafter]
  rw [← readValue_skipSpace, skipSpace_space, readValue_skipSpace, hd depth m tail hm]
  rfl

/-- The fields of an object read back from their lines. -/
theorem readFields_lines {fields : List (String × Data)} (hne : fields ≠ [])
    (hreads : ∀ field ∈ fields, Reads field.2) {depth n : Nat} {close rest : List Char}
    (hclose : skipSpace close = '\x7d' :: rest)
    (hn : 2 * (lines depth (layoutFields depth fields) ++ close).length + 3 ≤ n) :
    readFields n (lines depth (layoutFields depth fields) ++ close) = some (fields, rest) := by
  -- induction on the fields; `n` bounds the text that is left, and the last field is a case of its
  -- own because no comma follows it
  induction fields generalizing n with
  | nil => exact absurd rfl hne
  | cons field more ih =>
      obtain ⟨name, d⟩ := field
      obtain ⟨m, rfl⟩ := Nat.exists_eq_succ_of_ne_zero (show n ≠ 0 by omega)
      have hd : Reads d := hreads (name, d) List.mem_cons_self
      cases more with
      | nil =>
          simp only [layoutFields, lines_singleton, List.append_assoc, List.length_append,
            String.length_toList, String.length_append] at hn ⊢
          rw [readFields_field name hd (by
            simp only [List.length_append, String.length_toList]; omega), hclose]
          rfl
      | cons next more =>
          have hmore := fun field hfield => hreads field (List.mem_cons_of_mem _ hfield)
          obtain ⟨nextName, nextData⟩ := next
          simp only [layoutFields, lines_cons_cons, List.append_assoc, List.cons_append,
            List.length_append, List.length_cons, String.length_toList, String.length_append]
            at hn ih ⊢
          rw [readFields_field name hd (by
            simp only [List.length_append, List.length_cons, String.length_toList]; omega)]
          change (readFields m ('\n' :: _)).map _ = _
          rw [← readFields_skipSpace, skipSpace_newline, readFields_skipSpace,
            ih (List.cons_ne_nil _ _) hmore (by omega)]
          rfl

/-- What a layout begins with tells its data from the end of an array. -/
theorem NumberFree.layout_eq_cons {d : Data} (h : NumberFree d) (depth : Nat) :
    ∃ c cs, (d.layout depth).toList = c :: cs ∧ c ≠ ']' ∧
      ∀ rest, skipSpace (c :: rest) = c :: rest := by
  have hbracketed : ∀ (opening : Char) (closing : String) (texts : List String),
      ∃ cs, (bracketed (String.ofList [opening]) closing depth texts).toList = opening :: cs := by
    intro opening closing texts
    rw [bracketed]
    split <;> simp
  -- a number could begin with anything its text does, so it is left out
  cases h with
  | null =>
      rw [layout]
      exact ⟨'n', "ull".toList, by decide, by decide, fun _ => rfl⟩
  | bool b =>
      rw [layout]
      cases b with
      | false => exact ⟨'f', "alse".toList, by decide, by decide, fun _ => rfl⟩
      | true => exact ⟨'t', "rue".toList, by decide, by decide, fun _ => rfl⟩
  | string s =>
      rw [layout]
      exact ⟨'"', _, toList_quoted s, by decide, fun _ => rfl⟩
  | @array items _ =>
      obtain ⟨cs, hcs⟩ := hbracketed '[' "]" (layoutItems (depth + 1) items)
      exact ⟨'[', cs, by rw [layout]; exact hcs, by decide, fun _ => rfl⟩
  | @object fields _ =>
      obtain ⟨cs, hcs⟩ := hbracketed '\x7b' "\x7d" (layoutFields (depth + 1) fields)
      exact ⟨'\x7b', cs, by rw [layout]; exact hcs, by decide, fun _ => rfl⟩

theorem skipSpace_lines_items {d : Data} (h : NumberFree d) (more : List Data) (depth : Nat)
    (close : List Char) :
    ∃ c cs, skipSpace (lines depth (layoutItems depth (d :: more)) ++ close) = c :: cs ∧
      c ≠ ']' := by
  obtain ⟨c, cs, hlayout, hc, hskip⟩ := h.layout_eq_cons depth
  cases more with
  | nil =>
      rw [layoutItems, layoutItems, lines_singleton, List.append_assoc, skipSpace_indent, hlayout,
        List.cons_append, hskip]
      exact ⟨c, _, rfl, hc⟩
  | cons next more =>
      rw [layoutItems, layoutItems, lines_cons_cons, List.append_assoc, skipSpace_indent, hlayout,
        List.append_assoc, List.cons_append, hskip]
      exact ⟨c, _, rfl, hc⟩

theorem skipSpace_lines_fields (name : String) (d : Data) (more : List (String × Data))
    (depth : Nat) (close : List Char) :
    ∃ cs, skipSpace (lines depth (layoutFields depth ((name, d) :: more)) ++ close) =
      '"' :: cs := by
  have hquote : ∀ cs, skipSpace ('"' :: cs) = '"' :: cs := fun _ => rfl
  cases more with
  | nil =>
      rw [layoutFields, layoutFields, lines_singleton, List.append_assoc, skipSpace_indent,
        String.toList_append, String.toList_append, toList_quoted]
      exact ⟨_, hquote _⟩
  | cons next more =>
      rw [layoutFields, layoutFields, lines_cons_cons, List.append_assoc, skipSpace_indent,
        String.toList_append, String.toList_append, toList_quoted]
      exact ⟨_, hquote _⟩

theorem word?_append (word : String) (rest : List Char) :
    word? word (word.toList ++ rest) = some rest := by
  have hprefix : word.toList.isPrefixOf (word.toList ++ rest) = true :=
    List.isPrefixOf_iff_prefix.mpr (List.prefix_append _ _)
  rw [word?, if_pos hprefix, ← String.length_toList, List.drop_left]

theorem readValue_null (n : Nat) (rest : List Char) :
    readValue (n + 1) ("null".toList ++ rest) = some (.null, rest) := by
  have hword : "null".toList = 'n' :: "ull".toList := by decide
  rw [hword, List.cons_append, readValue]
  change (word? "ull" _).map _ = _
  rw [word?_append, Option.map_some]

theorem readValue_bool (n : Nat) (b : Bool) (rest : List Char) :
    readValue (n + 1) ((toString b).toList ++ rest) = some (.bool b, rest) := by
  cases b with
  | false =>
      have hword : (toString false).toList = 'f' :: "alse".toList := by decide
      rw [hword, List.cons_append, readValue]
      change (word? "alse" _).map _ = _
      rw [word?_append, Option.map_some]
  | true =>
      have hword : (toString true).toList = 't' :: "rue".toList := by decide
      rw [hword, List.cons_append, readValue]
      change (word? "rue" _).map _ = _
      rw [word?_append, Option.map_some]

theorem readValue_quoted (n : Nat) (s : String) (rest : List Char) :
    readValue (n + 1) ((quoted s).toList ++ rest) = some (.string s, rest) := by
  rw [toList_quoted, List.cons_append, readValue]
  change (Json.string? _).map _ = _
  rw [List.append_assoc, List.singleton_append, string?_quoted, Option.map_some]

theorem readValue_of_readItems {n : Nat} {c : Char} {cs more rest : List Char}
    {items : List Data} (hhead : skipSpace cs = c :: more) (hc : c ≠ ']')
    (hitems : readItems n (c :: more) = some (items, rest)) :
    readValue (n + 1) ('[' :: cs) = some (.array items, rest) := by
  have hopen : skipSpace ('[' :: cs) = '[' :: cs := rfl
  simp only [readValue, hopen, hhead]
  split
  · rename_i heq
    exact absurd (List.cons.inj heq).1 hc
  · rw [hitems, Option.map_some]

theorem readValue_of_readFields {n : Nat} {c : Char} {cs more rest : List Char}
    {fields : List (String × Data)} (hhead : skipSpace cs = c :: more) (hc : c ≠ '\x7d')
    (hfields : readFields n (c :: more) = some (fields, rest)) :
    readValue (n + 1) ('\x7b' :: cs) = some (.object fields, rest) := by
  have hopen : skipSpace ('\x7b' :: cs) = '\x7b' :: cs := rfl
  simp only [readValue, hopen, hhead]
  split
  · rename_i heq
    exact absurd (List.cons.inj heq).1 hc
  · rw [hfields, Option.map_some]

/-- An array reads back if its items do. -/
theorem reads_array {items : List Data} (hfree : ∀ d ∈ items, NumberFree d)
    (hreads : ∀ d ∈ items, Reads d) : Reads (.array items) := by
  have hopening : "[".toList = ['['] := by decide
  intro depth n rest hn
  obtain ⟨m, rfl⟩ := Nat.exists_eq_succ_of_ne_zero (show n ≠ 0 by omega)
  rw [layout] at hn ⊢
  cases items with
  | nil =>
      have hempty : ("[" ++ "]").toList = ['[', ']'] := by decide
      rw [layoutItems, bracketed, List.isEmpty_nil, if_pos rfl, hempty, List.cons_append, readValue]
      rfl
  | cons d more =>
      have hne : layoutItems (depth + 1) (d :: more) ≠ [] := by simp [layoutItems]
      rw [toList_bracketed hne, hopening] at hn ⊢
      simp only [List.cons_append, List.nil_append, List.append_assoc] at hn ⊢
      -- behind the last line stand the indentation of the array and its bracket
      have hclose : skipSpace ('\n' :: ((indent depth).toList ++ ("]".toList ++ rest))) =
          ']' :: rest := by
        rw [skipSpace_newline, skipSpace_indent]
        rfl
      obtain ⟨c, cs, hhead, hc⟩ := skipSpace_lines_items (hfree d List.mem_cons_self) more
        (depth + 1) ('\n' :: ((indent depth).toList ++ ("]".toList ++ rest)))
      rw [List.length_cons, List.length_cons] at hn
      have hitems : readItems m (lines (depth + 1) (layoutItems (depth + 1) (d :: more)) ++
          ('\n' :: ((indent depth).toList ++ ("]".toList ++ rest)))) = some (d :: more, rest) :=
        readItems_lines (List.cons_ne_nil d more) hreads hclose (by omega)
      rw [← readItems_skipSpace, hhead] at hitems
      exact readValue_of_readItems (by rw [skipSpace_newline, hhead]) hc hitems

/-- An object reads back if the values of its fields do. -/
theorem reads_object {fields : List (String × Data)} (hreads : ∀ field ∈ fields, Reads field.2) :
    Reads (.object fields) := by
  have hopening : "\x7b".toList = ['\x7b'] := by decide
  intro depth n rest hn
  obtain ⟨m, rfl⟩ := Nat.exists_eq_succ_of_ne_zero (show n ≠ 0 by omega)
  rw [layout] at hn ⊢
  cases fields with
  | nil =>
      have hempty : ("\x7b" ++ "\x7d").toList = ['\x7b', '\x7d'] := by decide
      rw [layoutFields, bracketed, List.isEmpty_nil, if_pos rfl, hempty, List.cons_append,
        readValue]
      rfl
  | cons field more =>
      obtain ⟨name, d⟩ := field
      have hne : layoutFields (depth + 1) ((name, d) :: more) ≠ [] := by simp [layoutFields]
      rw [toList_bracketed hne, hopening] at hn ⊢
      simp only [List.cons_append, List.nil_append, List.append_assoc] at hn ⊢
      -- behind the last line stand the indentation of the object and its brace
      have hclose : skipSpace ('\n' :: ((indent depth).toList ++ ("\x7d".toList ++ rest))) =
          '\x7d' :: rest := by
        rw [skipSpace_newline, skipSpace_indent]
        rfl
      obtain ⟨cs, hhead⟩ := skipSpace_lines_fields name d more (depth + 1)
        ('\n' :: ((indent depth).toList ++ ("\x7d".toList ++ rest)))
      rw [List.length_cons, List.length_cons] at hn
      have hfields : readFields m
          (lines (depth + 1) (layoutFields (depth + 1) ((name, d) :: more)) ++
            ('\n' :: ((indent depth).toList ++ ("\x7d".toList ++ rest)))) =
            some ((name, d) :: more, rest) :=
        readFields_lines (List.cons_ne_nil (name, d) more) hreads hclose (by omega)
      rw [← readFields_skipSpace, hhead] at hfields
      exact readValue_of_readFields (by rw [skipSpace_newline, hhead]) (by decide) hfields

/-- Data without numbers reads back from its layout. -/
theorem NumberFree.reads {d : Data} (h : NumberFree d) : Reads d := by
  induction h with
  | null =>
      intro depth n rest hn
      obtain ⟨m, rfl⟩ := Nat.exists_eq_succ_of_ne_zero (show n ≠ 0 by omega)
      rw [layout]
      exact readValue_null m rest
  | bool b =>
      intro depth n rest hn
      obtain ⟨m, rfl⟩ := Nat.exists_eq_succ_of_ne_zero (show n ≠ 0 by omega)
      rw [layout]
      exact readValue_bool m b rest
  | string s =>
      intro depth n rest hn
      obtain ⟨m, rfl⟩ := Nat.exists_eq_succ_of_ne_zero (show n ≠ 0 by omega)
      rw [layout]
      exact readValue_quoted m s rest
  | array hfree ih => exact reads_array hfree ih
  | object _ ih => exact reads_object ih

/-- Data without numbers reads back from its text. -/
theorem ofText?_render {d : Data} (h : NumberFree d) : ofText? d.render = some d := by
  have hread := h.reads 0 (2 * d.render.toList.length + 2) [] (by
    rw [List.append_nil, render])
  rw [List.append_nil] at hread
  rw [render] at hread ⊢
  rw [ofText?, hread]
  rfl

end Data

end HpcBlueprint.Json
