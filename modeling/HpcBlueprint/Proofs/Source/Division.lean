/-
  How a source comes apart.

  The first `//` of an address, looked for behind its first scheme separator, parts a source into
  its package and a directory; the query goes with the package.  `Divides` says this by first
  occurrences.  What stands before the mark is searched from the same place as the whole address
  and holds no mark itself, so a package is not parted again; and where such an address is put in
  front of a mark, the mark is the first one.
-/
import HpcBlueprint.Proofs.Catalog.Concurrent
import HpcBlueprint.Proofs.Source.Package

namespace HpcBlueprint
namespace Source

open Text (FirstAt)

variable {source package dir base : String} {passed rest : List Char}

/-! ## Where a directory is looked for -/

/-- The search for a directory passes over the beginning of an address up to the end of its first
    scheme separator, or over nothing if it has none. -/
inductive Passes (address : List Char) : List Char → Prop
  | scheme {before : List Char} (first : FirstAt "://".toList before address) :
      Passes address (before ++ "://".toList)
  | nothing (none : ¬ "://".toList <:+: address) : Passes address []

namespace Passes

variable {address : List Char}

theorem of_afterScheme (address : List Char) : Passes address (afterScheme address).1 := by
  rw [afterScheme]
  split
  · rename_i hbreak
    exact .scheme (Text.breakOn_eq_some_iff.mp hbreak).2
  · rename_i hbreak
    exact .nothing (Text.breakOn_eq_none_iff.mp hbreak)

theorem unique {passed' : List Char} (h : Passes address passed) (h' : Passes address passed') :
    passed = passed' := by
  cases h with
  | scheme first =>
      cases h' with
      | scheme first' => rw [first.unique first']
      | nothing none => exact absurd first.isInfix none
  | nothing none =>
      cases h' with
      | scheme first' => exact absurd first'.isInfix none
      | nothing => rfl

/-- An address that is cut off behind what is passed over is searched from the same place. -/
theorem of_prefix {shorter : List Char} (h : Passes address passed) (reaches : passed <+: shorter)
    (hshorter : shorter <+: address) : Passes shorter passed := by
  cases h with
  | scheme first => exact .scheme (first.of_prefix reaches hshorter)
  | nothing none => exact .nothing fun hsep => none (hsep.trans hshorter.isInfix)

end Passes

/-! ## The parts of a source -/

/-- How a source comes apart into a package and a directory. -/
inductive Divides (source : String) : String → String → Prop
  /-- No mark stands where it is looked for: the package is the whole source. -/
  | whole {passed rest : List Char} (passes : Passes (address source) passed)
      (parts : address source = passed ++ rest) (unmarked : ¬ "//".toList <:+: rest) :
      Divides source source ""
  /-- The package is what stands before the first mark, with the query. -/
  | marked {passed rest before : List Char} {base dir : String}
      (passes : Passes (address source) passed) (parts : address source = passed ++ rest)
      (first : FirstAt "//".toList before rest) (base_eq : base.toList = passed ++ before)
      (source_eq : source = base ++ "//" ++ dir ++ String.ofList (query source)) :
      Divides source (base ++ String.ofList (query source)) dir

/-- What stands before the query of a source is its address. -/
theorem address_eq_of_append {front : String}
    (h : source = front ++ String.ofList (query source)) : address source = front.toList := by
  have hsource := address_append_query source
  rw [← String.toList_inj, String.toList_append, String.toList_ofList, ← hsource,
    List.append_cancel_right_eq] at h
  exact h

/-- Splitting finds the parts of a source. -/
theorem divides_splitPackage (source : String) :
    Divides source (splitPackage source).1 (splitPackage source).2 := by
  have hparts := (afterScheme_append (address source)).symm
  rw [splitPackage_eq]
  cases hbreak : Text.breakOn "//".toList (afterScheme (address source)).2 with
  | none => exact .whole (.of_afterScheme _) hparts (Text.breakOn_eq_none_iff.mp hbreak)
  | some sides =>
      obtain ⟨before, dir⟩ := sides
      obtain ⟨hrest, first⟩ := Text.breakOn_eq_some_iff.mp hbreak
      dsimp only
      rw [String.ofList_append]
      refine .marked (.of_afterScheme _) hparts first String.toList_ofList ?_
      rw [← String.toList_inj]
      simp only [String.toList_append, String.toList_ofList]
      rw [← address_append_query source, List.append_cancel_right_eq]
      conv_lhs => rw [hparts, hrest]
      simp only [List.append_assoc]

/-- A source comes apart in one way only. -/
theorem Divides.unique {package' dir' : String} (h : Divides source package dir)
    (h' : Divides source package' dir') : package = package' ∧ dir = dir' := by
  -- two ways to come apart pass the same scheme, and behind it the first separator is determined
  cases h with
  | whole passes parts unmarked =>
      cases h' with
      | whole => exact ⟨rfl, rfl⟩
      | marked passes' parts' first' =>
          obtain rfl := passes.unique passes'
          rw [parts, List.append_cancel_left_eq] at parts'
          exact absurd (parts' ▸ first'.isInfix) unmarked
  | marked passes parts first base_eq source_eq =>
      cases h' with
      | whole passes' parts' unmarked' =>
          obtain rfl := passes.unique passes'
          rw [parts, List.append_cancel_left_eq] at parts'
          exact absurd (parts' ▸ first.isInfix) unmarked'
      | marked passes' parts' first' base_eq' source_eq' =>
          obtain rfl := passes.unique passes'
          rw [parts, List.append_cancel_left_eq] at parts'
          subst parts'
          obtain rfl := first.unique first'
          obtain rfl := String.toList_inj.mp (base_eq.trans base_eq'.symm)
          have hdir := (address_eq_of_append source_eq).symm.trans (address_eq_of_append source_eq')
          simp only [String.toList_append, List.append_cancel_left_eq, String.toList_inj] at hdir
          exact ⟨rfl, hdir⟩

theorem splitPackage_eq_iff :
    splitPackage source = (package, dir) ↔ Divides source package dir := by
  have hsplit := divides_splitPackage source
  constructor
  · intro h
    rw [h] at hsplit
    exact hsplit
  · intro h
    obtain ⟨hpackage, hdir⟩ := hsplit.unique h
    exact Prod.ext hpackage hdir

namespace Divides

/-- A directory holds no question mark. -/
theorem unqueried (h : Divides source package dir) : '?' ∉ dir.toList := by
  cases h with
  | whole => simp
  | marked passes parts first base_eq source_eq =>
      intro hmem
      refine not_mem_address source ?_
      rw [address_eq_of_append source_eq, String.toList_append]
      exact List.mem_append_right _ hmem

/-- A package does not come apart again. -/
theorem package_whole (h : Divides source package dir) : Divides package package "" := by
  cases h with
  | whole passes parts unmarked => exact .whole passes parts unmarked
  | @marked passed rest before base dir passes parts first base_eq source_eq =>
      have haddress : address source = base.toList ++ ("//" ++ dir).toList := by
        rw [address_eq_of_append source_eq, ← String.toList_append, String.append_assoc]
      have hbase : base.toList <+: address source := haddress ▸ List.prefix_append _ _
      have hkept : '?' ∉ base.toList := fun hmem => not_mem_address source (hbase.subset hmem)
      have hpackage : address (base ++ String.ofList (query source)) = base.toList :=
        (address_query_of_append hkept
          (by rw [String.toList_append, String.toList_ofList])).1
      have hpassed : passed <+: base.toList := base_eq ▸ List.prefix_append _ _
      exact .whole (hpackage ▸ passes.of_prefix hpassed hbase) (hpackage.trans base_eq)
        (first.none_before (by decide))

/-- A source that is its own package has no mark. -/
theorem unmarked (h : Divides source package dir) (whole : package = source) :
    ∃ passed rest, Passes (address source) passed ∧ address source = passed ++ rest ∧
      ¬ "//".toList <:+: rest := by
  cases h with
  | whole passes parts unmarked => exact ⟨_, _, passes, parts, unmarked⟩
  | marked passes parts first base_eq source_eq =>
      have hlength := congrArg String.length (whole.trans source_eq)
      simp only [String.length_append] at hlength
      have hmark : "//".length = 2 := by decide
      omega

end Divides

/-! ## Packages of several modules -/

/-- An address to which a mark and a directory can be put: it is its own package, and what it
    ends in cannot be taken for a part of a mark or of a scheme separator. -/
structure IsBase (base : String) : Prop where
  unqueried : '?' ∉ base.toList
  slash : base.toList.getLast? ≠ some '/'
  colon : base.toList.getLast? ≠ some ':'
  whole : splitPackage base = (base, "")

/-- A query, which may be empty. -/
def IsQuery (query : String) : Prop := query = "" ∨ Text.startsWith "?" query = true

/-- A directory in the package of an address: a scheme separator in it is not the first. -/
structure IsDirectoryOf (base dir : String) : Prop where
  unqueried : '?' ∉ dir.toList
  scheme : "://".toList <:+: dir.toList → "://".toList <:+: base.toList

theorem address_query_append {front q : String} (hfront : '?' ∉ front.toList) (hq : IsQuery q) :
    address (front ++ q) = front.toList ∧ query (front ++ q) = q.toList := by
  have hpass : ∀ c ∈ front.toList, (c != '?') = true := by
    intro c hc
    simpa using fun heq : c = '?' => hfront (heq ▸ hc)
  rw [address, query, String.toList_append, List.takeWhile_append_of_pos hpass,
    List.dropWhile_append_of_pos hpass]
  rcases hq with rfl | hq
  · simp
  · obtain ⟨more, rfl⟩ := Text.exists_append_of_startsWith hq
    simp

/-- A mark and a directory bring no scheme separator with them, unless the address has one. -/
theorem not_infix_marked {xs ys : List Char} (none : ¬ "://".toList <:+: xs)
    (slash : xs.getLast? ≠ some '/') (colon : xs.getLast? ≠ some ':')
    (dir : ¬ "://".toList <:+: ys) : ¬ "://".toList <:+: xs ++ ("//".toList ++ ys) := by
  rintro ⟨front, back, h⟩
  have hchars : "://".toList = [':', '/', '/'] ∧ "//".toList = ['/', '/'] := by decide
  rw [hchars.1] at none dir
  rw [hchars.1, hchars.2, List.append_assoc, List.append_eq_append_iff] at h
  -- the separator begins in the address, in the mark, or in the directory
  rcases h with ⟨between, rfl, h⟩ | ⟨between, rfl, h⟩
  · match between with
    | [] => simp at h
    | [c] =>
        have hc : ':' = c := (List.cons.inj h).1
        exact colon (by rw [hc, List.getLast?_concat])
    | [c, d] =>
        have hd : '/' = d := (List.cons.inj (List.cons.inj h).2).1
        exact slash (by rw [hd, List.getLast?_append]; rfl)
    | c :: d :: e :: more =>
        simp only [List.cons_append, List.nil_append, List.cons.injEq] at h
        obtain ⟨rfl, rfl, rfl, rfl⟩ := h
        exact none ⟨front, more, by simp⟩
  · match between with
    | [] => simp at h
    | [c] => simp at h
    | c :: d :: more =>
        simp only [List.cons_append, List.nil_append, List.cons.injEq] at h
        exact dir ⟨more, back, by simp [h.2.2]⟩

/-- A directory behind an address comes apart from it. -/
theorem divides_append {q : String} (hbase : IsBase base) (hdir : IsDirectoryOf base dir)
    (hq : IsQuery q) : Divides (base ++ "//" ++ dir ++ q) (base ++ q) dir := by
  have hbare : address base = base.toList := by
    have happend := (address_query_append hbase.unqueried (Or.inl rfl : IsQuery "")).1
    rwa [String.append_empty] at happend
  have hfront : '?' ∉ (base ++ "//" ++ dir).toList := by
    rw [String.toList_append, String.toList_append, List.mem_append, List.mem_append]
    rintro ((hmem | hmem) | hmem)
    · exact hbase.unqueried hmem
    · exact absurd hmem (by decide)
    · exact hdir.unqueried hmem
  obtain ⟨haddress, hquery⟩ := address_query_append hfront hq
  obtain ⟨passed, rest, passes, parts, unmarked⟩ :=
    (splitPackage_eq_iff.mp hbase.whole).unmarked rfl
  rw [hbare] at passes parts
  have hchars : (base ++ "//" ++ dir).toList = base.toList ++ ("//".toList ++ dir.toList) := by
    rw [String.toList_append, String.toList_append, List.append_assoc]
  -- the longer address is searched from the same place
  have hpasses : Passes (address (base ++ "//" ++ dir ++ q)) passed := by
    rw [haddress, hchars]
    cases passes with
    | scheme first => exact .scheme (first.append _)
    | nothing none =>
        exact .nothing (not_infix_marked none hbase.slash hbase.colon
          fun hmem => none (hdir.scheme hmem))
  have hlast : rest.getLast? ≠ some '/' := by
    intro hrest
    refine hbase.slash ?_
    rw [parts, List.getLast?_append, hrest, Option.some_or]
  have hparts : address (base ++ "//" ++ dir ++ q) =
      passed ++ (rest ++ "//".toList ++ dir.toList) := by
    rw [haddress, hchars, parts]
    simp only [List.append_assoc]
  have hmarked := Divides.marked hpasses hparts (Text.firstAt_pair unmarked hlast dir.toList) parts
    (by rw [hquery, String.ofList_toList])
  rwa [hquery, String.ofList_toList] at hmarked

/-- Splitting a source loses nothing and is stable.  A source is its package, mark, directory and
    query, where the mark is the first one; no directory holds a query, and a package is not split
    again.  Whatever directory of an address is named, splitting finds it, so all modules of a
    package are downloaded under one key. -/
theorem splitPackage_divides :
    (∀ source package dir, splitPackage source = (package, dir) →
      Divides source package dir ∧ '?' ∉ dir.toList ∧ splitPackage package = (package, "")) ∧
    ∀ base dir q, IsBase base → IsDirectoryOf base dir → IsQuery q →
      splitPackage (base ++ "//" ++ dir ++ q) = (base ++ q, dir) ∧
      ∀ kind, Catalog.Key.package (base ++ "//" ++ dir ++ q, kind) = base ++ q ∧
        Catalog.Key.package (base ++ q, kind) = base ++ q := by
  refine ⟨fun source package dir h => ?_, fun base dir q hbase hdir hq => ?_⟩
  · have hdivides := splitPackage_eq_iff.mp h
    exact ⟨hdivides, hdivides.unqueried, splitPackage_eq_iff.mpr hdivides.package_whole⟩
  · have hdivides := divides_append hbase hdir hq
    have hsplit := splitPackage_eq_iff.mpr hdivides
    have hwhole := splitPackage_eq_iff.mpr hdivides.package_whole
    exact ⟨hsplit, fun kind => ⟨congrArg Prod.fst hsplit, congrArg Prod.fst hwhole⟩⟩

/-- Of three slashes in a row the first two are the mark, and the ones in the query are none. -/
theorem splitPackage_divides_slashes :
    splitPackage "git::https://h.io/r///m?ref=a//b" = ("git::https://h.io/r?ref=a//b", "/m") ∧
    Divides "git::https://h.io/r///m?ref=a//b" "git::https://h.io/r?ref=a//b" "/m" ∧
    splitPackage "git::https://h.io/r?ref=a//b" = ("git::https://h.io/r?ref=a//b", "") ∧
    IsBase "git::https://h.io/r" ∧ IsDirectoryOf "git::https://h.io/r" "/m" ∧
    IsQuery "?ref=a//b" ∧
    splitPackage ("git::https://h.io/r" ++ "//" ++ "/m" ++ "?ref=a//b") =
      ("git::https://h.io/r" ++ "?ref=a//b", "/m") := by
  have hsplit : splitPackage "git::https://h.io/r///m?ref=a//b" =
      ("git::https://h.io/r?ref=a//b", "/m") := by decide +kernel
  have hbase : IsBase "git::https://h.io/r" :=
    ⟨by decide +kernel, by decide +kernel, by decide +kernel, by decide +kernel⟩
  have hdir : IsDirectoryOf "git::https://h.io/r" "/m" :=
    ⟨by decide +kernel, fun _ => ⟨"git::https".toList, "h.io/r".toList, by decide +kernel⟩⟩
  have hquery : IsQuery "?ref=a//b" := Or.inr (by decide +kernel)
  obtain ⟨hdivides, -, hwhole⟩ := splitPackage_divides.1 _ _ _ hsplit
  exact ⟨hsplit, hdivides, hwhole, hbase, hdir, hquery,
    (splitPackage_divides.2 _ _ _ hbase hdir hquery).1⟩

end Source
end HpcBlueprint
