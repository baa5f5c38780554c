/-
  What of a source is its package.

  A source is an address and a query, which begins at the first question mark.  The package
  keeps the query and a beginning of the address: the whole address, or what stands before
  the separator of the directory.  What begins a source therefore begins its package, except
  where it reaches into the separator: a host is no package of its own, but it is all that
  is left if the separator stands directly behind it.
-/
import HpcBlueprint.Proofs.Text.Search
import HpcBlueprint.Source.Locator

namespace HpcBlueprint
namespace Source

variable {source start host : String}

/-! ## Address and query -/

/-- What stands before the query of a source. -/
def address (source : String) : List Char := source.toList.takeWhile (· != '?')

/-- The query of a source with its question mark, if it has one. -/
def query (source : String) : List Char := source.toList.dropWhile (· != '?')

theorem address_append_query (source : String) : address source ++ query source = source.toList :=
  List.takeWhile_append_dropWhile

theorem not_mem_address (source : String) : '?' ∉ address source := by
  intro hmem
  simpa using List.mem_takeWhile_imp hmem

/-- A query begins with a question mark. -/
theorem query_eq (source : String) : query source = [] ∨ ∃ rest, query source = '?' :: rest := by
  have hhead := List.head?_dropWhile_not (· != '?') source.toList
  rw [query]
  cases hquery : source.toList.dropWhile (· != '?') with
  | nil => exact Or.inl rfl
  | cons c rest =>
      have hc : c = '?' := by simpa [hquery] using hhead
      exact Or.inr ⟨rest, by rw [hc]⟩

/-- Address and query of a text are found where they are put together. -/
theorem address_query_of_append {kept : List Char} {text : String} (hkept : '?' ∉ kept)
    (h : text.toList = kept ++ query source) :
    address text = kept ∧ query text = query source := by
  have hpass : ∀ c ∈ kept, (c != '?') = true := by
    intro c hc
    simpa using fun heq : c = '?' => hkept (heq ▸ hc)
  rw [address, query, h, List.takeWhile_append_of_pos hpass, List.dropWhile_append_of_pos hpass]
  rcases query_eq source with hquery | ⟨rest, hquery⟩
  · simp [hquery]
  · simp [hquery]

/-- What has no question mark begins a text if it begins the address. -/
theorem startsWith_iff_address (h : '?' ∉ start.toList) :
    Text.startsWith start source = true ↔ start.toList <+: address source := by
  rw [Text.startsWith_iff]
  constructor
  · intro hstart
    rw [← address_append_query source] at hstart
    rcases Text.prefix_append_cases hstart with hshort | ⟨c, rest, hlong, hquery⟩
    · exact hshort
    · rcases query_eq source with hnone | ⟨more, hsome⟩
      · rw [hnone, List.prefix_nil] at hquery
        cases hquery
      · rw [hsome, List.cons_prefix_cons] at hquery
        rw [hlong, hquery.1] at h
        exact absurd (List.mem_append_right _ List.mem_cons_self) h
  · intro hstart
    exact hstart.trans (List.takeWhile_prefix _)

/-! ## The package -/

theorem afterScheme_append (address : List Char) :
    (afterScheme address).1 ++ (afterScheme address).2 = address := by
  rw [afterScheme]
  split
  · rename_i hbreak
    exact (Text.breakOn_eq_some hbreak).symm
  · rfl

/-- What comes before the rest of an address ends in a separator, unless it has none. -/
theorem afterScheme_cases (address : List Char) :
    ':' ∈ (afterScheme address).1 ∨ ¬ "://".toList <:+: address := by
  rw [← Text.breakOn_eq_none_iff, afterScheme]
  split
  · exact Or.inl (by simp)
  · rename_i hbreak
    exact Or.inr hbreak

/-- The separator of the directory is looked for behind the scheme and before the query. -/
theorem splitPackage_eq (source : String) :
    splitPackage source =
      match Text.breakOn "//".toList (afterScheme (address source)).2 with
      | none => (source, "")
      | some (before, dir) =>
          (String.ofList ((afterScheme (address source)).1 ++ before ++ query source),
            String.ofList dir) := rfl

/-- The package address of a source. -/
def package (source : String) : String := (splitPackage source).1

/-- A package has the query of its source, and of its address all or what stands before a
    separator: the first one at all if the package has no scheme. -/
theorem package_cases (source : String) :
    query (package source) = query source ∧
    (address (package source) = address source ∨
      ∃ dir, address source = address (package source) ++ "//".toList ++ dir ∧
        (':' ∈ address (package source) ∨ ¬ "://".toList <:+: address source)) := by
  cases hbreak : Text.breakOn "//".toList (afterScheme (address source)).2 with
  | none =>
      have hpackage : package source = source := by rw [package, splitPackage_eq, hbreak]
      rw [hpackage]
      exact ⟨rfl, Or.inl rfl⟩
  | some sides =>
      obtain ⟨before, dir⟩ := sides
      have hpackage : (package source).toList =
          (afterScheme (address source)).1 ++ before ++ query source := by
        rw [package, splitPackage_eq, hbreak, String.toList_ofList]
      have haddress : address source =
          (afterScheme (address source)).1 ++ before ++ "//".toList ++ dir := by
        have happend := afterScheme_append (address source)
        rw [Text.breakOn_eq_some hbreak] at happend
        simpa only [List.append_assoc] using happend.symm
      -- what is kept stands before the query, so the package is taken apart at the same place
      have hkept : '?' ∉ (afterScheme (address source)).1 ++ before := by
        intro hmem
        refine not_mem_address source ?_
        rw [haddress]
        exact List.mem_append_left _ (List.mem_append_left _ hmem)
      obtain ⟨hbase, hquery⟩ := address_query_of_append hkept hpackage
      rw [hbase]
      exact ⟨hquery, Or.inr ⟨dir, haddress,
        (afterScheme_cases (address source)).imp_left (List.mem_append_left _)⟩⟩

/-! ## What begins a package -/

/-- The separator of a source's directory stands directly behind a host. -/
def CutBehind (host source : String) : Prop :=
  Text.startsWith (host ++ "//") source = true ∧ ¬ "://".toList <:+: address source

/-- What begins a package begins its source. -/
theorem startsWith_of_package (hquery : '?' ∉ start.toList)
    (h : Text.startsWith start (package source) = true) : Text.startsWith start source = true := by
  rw [startsWith_iff_address hquery] at h ⊢
  rcases (package_cases source).2 with hwhole | ⟨dir, haddress, -⟩
  · rwa [← hwhole]
  · rw [haddress, List.append_assoc]
    exact h.trans (List.prefix_append _ _)

/-- What begins a source but not its package reaches into the separator. -/
theorem exists_slash_of_not_package (hquery : '?' ∉ start.toList)
    (h : Text.startsWith start source = true)
    (hpackage : ¬ Text.startsWith start (package source) = true) :
    ∃ rest dir, start.toList = address (package source) ++ '/' :: rest ∧
      address source = address (package source) ++ "//".toList ++ dir ∧
      (':' ∈ address (package source) ∨ ¬ "://".toList <:+: address source) := by
  rw [startsWith_iff_address hquery] at h hpackage
  rcases (package_cases source).2 with hwhole | ⟨dir, haddress, hscheme⟩
  · exact absurd (hwhole ▸ h) hpackage
  · rw [haddress, List.append_assoc] at h
    rcases Text.prefix_append_cases h with hshort | ⟨c, rest, hlong, hsep⟩
    · exact absurd hshort hpackage
    · have hc : c = '/' := (List.cons_prefix_cons.mp hsep).1
      exact ⟨rest, dir, hc ▸ hlong, haddress, hscheme⟩

/-- What has no slash begins a package exactly if it begins the source. -/
theorem startsWith_package_iff (hquery : '?' ∉ start.toList) (hslash : '/' ∉ start.toList) :
    Text.startsWith start (package source) = true ↔ Text.startsWith start source = true := by
  refine ⟨startsWith_of_package hquery, fun h => ?_⟩
  by_contra hpackage
  obtain ⟨rest, -, hrest, -⟩ := exists_slash_of_not_package hquery h hpackage
  rw [hrest] at hslash
  exact hslash (List.mem_append_right _ List.mem_cons_self)

/-- Nothing but the host is left of an address that is cut behind it. -/
theorem address_package_of_cutBehind (hquery : '?' ∉ host.toList) (hslash : '/' ∉ host.toList)
    (h : CutBehind host source) : address (package source) = host.toList := by
  obtain ⟨hstart, hscheme⟩ := h
  have hnone : afterScheme (address source) = ([], address source) := by
    rw [afterScheme, Text.breakOn_eq_none_iff.mpr hscheme]
  have hsep : '?' ∉ (host ++ "//").toList := by
    rw [String.toList_append]
    simp [hquery]
  obtain ⟨dir, hdir⟩ := (startsWith_iff_address hsep).mp hstart
  rw [String.toList_append] at hdir
  have hbreak : Text.breakOn "//".toList (address source) = some (host.toList, dir) :=
    hdir ▸ Text.breakOn_append hslash
  have hpackage : (package source).toList = host.toList ++ query source := by
    rw [package, splitPackage_eq, hnone, hbreak, String.toList_ofList, List.nil_append]
  exact (address_query_of_append hquery hpackage).1

/-- A package lies on a host exactly if its source does and the directory's separator does
    not stand directly behind the host. -/
theorem host_package_iff (host : String) (hquery : '?' ∉ host.toList) (hslash : '/' ∉ host.toList)
    (hcolon : ':' ∉ host.toList) :
    Text.startsWith (host ++ "/") (package source) = true ↔
      Text.startsWith (host ++ "/") source = true ∧ ¬ CutBehind host source := by
  have hquery' : '?' ∉ (host ++ "/").toList := by
    rw [String.toList_append]
    simp [hquery]
  constructor
  · intro h
    refine ⟨startsWith_of_package hquery' h, fun hcut => ?_⟩
    rw [startsWith_iff_address hquery', address_package_of_cutBehind hquery hslash hcut,
      String.toList_append] at h
    have hlength := h.length_le
    rw [List.length_append] at hlength
    exact Nat.not_succ_le_self _ hlength
  · rintro ⟨h, hcut⟩
    by_contra hpackage
    obtain ⟨rest, dir, hrest, haddress, hscheme⟩ := exists_slash_of_not_package hquery' h hpackage
    -- the only slash is the last character, so nothing but the host stands before it
    have hhost : address (package source) = host.toList := by
      rw [String.toList_append] at hrest
      rcases List.append_eq_append_iff.mp hrest with ⟨more, hkept, hmore⟩ | ⟨more, hkept, hmore⟩
      · cases more with
        | nil => rw [hkept, List.append_nil]
        | cons c more => simp at hmore
      · cases more with
        | nil => rw [hkept, List.append_nil]
        | cons c more =>
            have hc : '/' = c := (List.cons.inj hmore).1
            rw [hkept, ← hc] at hslash
            exact absurd (List.mem_append_right _ List.mem_cons_self) hslash
    refine hcut ⟨?_, hscheme.resolve_left (hhost ▸ hcolon)⟩
    rw [Text.startsWith_iff, String.toList_append, ← address_append_query source, haddress, hhost]
    exact ⟨dir ++ query source, by simp only [List.append_assoc]⟩

end Source
end HpcBlueprint
