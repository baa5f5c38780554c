/-
  What git takes for an option.

  The words of a command that begin with a dash are options to git, whoever has chosen them.
  The fetcher puts options of its own into its commands, and among them the URL and the ref
  that it cuts out of a package address.  Nothing keeps these from beginning with a dash: a
  URL does so exactly if the mark of forced addresses is followed by one, and a ref exactly if
  the first parameter that names one gives it so.  A commit never does, so what is checked out
  is safe.
-/
import HpcBlueprint.Proofs.Validate.Pinning

namespace HpcBlueprint
namespace Git

variable {package dest : String}

/-! ## Words -/

/-- Where a word of a command comes from. -/
inductive Word
  /-- The fetcher itself. -/
  | own (text : String)
  | url
  | ref
  | dest

/-- A word as git sees it. -/
def Word.text (a : Address) (dest : String) : Word → String
  | .own text => text
  | .url => a.url
  | .ref => a.ref.getD ""
  | .dest => dest

/-- The commands for a ref, word by word. -/
def layouts : Option String → List (List Word)
  | none => [[.own "clone", .own "--quiet", .own "--depth", .own "1", .url, .dest]]
  | some ref =>
    if isCommit ref then
      [[.own "clone", .own "--quiet", .url, .dest],
        [.own "-C", .dest, .own "checkout", .own "--quiet", .ref]]
    else
      [[.own "clone", .own "--quiet", .own "--depth", .own "1", .own "--branch", .ref, .url, .dest]]

theorem commands_eq (a : Address) (dest : String) :
    commands a dest = (layouts a.ref).map fun words => words.map (Word.text a dest) := by
  obtain ⟨url, ref⟩ := a
  cases ref with
  | none => rfl
  | some ref =>
      simp only [commands, layouts]
      split <;> rfl

/-! ## Options -/

/-- A word that git takes for an option. -/
def IsOption (word : String) : Prop := Text.startsWith "-" word = true

instance : DecidablePred IsOption := fun _ => inferInstanceAs (Decidable (_ = true))

/-- The options that the fetcher uses. -/
def ownOptions : List String := ["--quiet", "--depth", "--branch", "-C"]

/-- Git takes no other word of the commands for an option than the fetcher's own. -/
def OnlyOwnOptions (a : Address) (dest : String) : Prop :=
  ∀ words ∈ layouts a.ref, ∀ word ∈ words, IsOption (word.text a dest) →
    ∃ option ∈ ownOptions, word = .own option

theorem isOption_iff {word : String} : IsOption word ↔ ∃ rest, word.toList = '-' :: rest := by
  have hdash : "-".toList = ['-'] := by decide
  rw [IsOption, Text.startsWith_iff, hdash]
  constructor
  · rintro ⟨rest, hrest⟩
    exact ⟨rest, hrest.symm⟩
  · rintro ⟨rest, hrest⟩
    exact ⟨rest, hrest.symm⟩

theorem not_isOption_of_isCommit {ref : String} (h : isCommit ref = true) : ¬ IsOption ref := by
  rw [isOption_iff]
  rintro ⟨rest, hrest⟩
  have hdash : isHexDigit '-' = false := by decide
  simp only [isCommit, hrest, List.all_cons, hdash, Bool.false_and, Bool.and_false] at h
  cases h

/-- Only the URL and the ref are words that the fetcher has not chosen. -/
theorem onlyOwnOptions_iff {a : Address} (hdest : ¬ IsOption dest) :
    OnlyOwnOptions a dest ↔ ¬ IsOption a.url ∧ ∀ ref, a.ref = some ref → ¬ IsOption ref := by
  have hclone : ¬ IsOption "clone" := by decide
  have hcheckout : ¬ IsOption "checkout" := by decide
  have hone : ¬ IsOption "1" := by decide
  obtain ⟨url, ref⟩ := a
  cases ref with
  | none =>
      simp [OnlyOwnOptions, layouts, Word.text, ownOptions, hdest, hclone, hone]
  | some ref =>
      by_cases hcommit : isCommit ref = true
      · have href := not_isOption_of_isCommit hcommit
        simp [OnlyOwnOptions, layouts, Word.text, ownOptions, hcommit, hdest, hclone, hcheckout,
          href]
      · simp [OnlyOwnOptions, layouts, Word.text, ownOptions, hcommit, hdest, hclone, hone,
          and_comm]

/-! ## Addresses -/

theorem url_ofPackage (package : String) :
    (Address.ofPackage package).url = urlOf (String.ofList (Source.address package)) := by
  have hwhole := Source.address_append_query package
  have hcut : (Address.ofPackage package).url =
      urlOf ((Text.splitOnce '?' package).getD (package, "")).1 := by
    rw [Address.ofPackage]
  rw [hcut, Source.splitOnce_query]
  cases hquery : Source.query package with
  | nil =>
      rw [hquery, List.append_nil] at hwhole
      rw [hwhole, String.ofList_toList, Option.getD_none]
  | cons c rest => rw [Option.getD_some]

/-- What begins otherwise does not begin with a dash. -/
theorem not_isOption_of_startsWith {start word : String} (h : Text.startsWith start word = true)
    (hstart : ¬ "-".toList <+: start.toList) (hdash : ¬ start.toList <+: "-".toList) :
    ¬ IsOption word := by
  rw [IsOption, Text.startsWith_eq_false "-" h hstart hdash]
  exact Bool.false_ne_true

/-- A host without a scheme is given one, so nothing but the base can bring a dash. -/
theorem isOption_urlOf (base : String) :
    IsOption (urlOf base) ↔ IsOption ((Text.dropStart? "git::" base).getD base) := by
  rw [urlOf]
  generalize (Text.dropStart? "git::" base).getD base = rest
  split
  · rename_i hhost
    have hscheme := Text.startsWith_append "https://" rest
    refine iff_of_false (not_isOption_of_startsWith hscheme (by decide) (by decide)) ?_
    rcases Bool.or_eq_true_iff.mp hhost with hgithub | hgitlab
    · exact not_isOption_of_startsWith hgithub (by decide) (by decide)
    · exact not_isOption_of_startsWith hgitlab (by decide) (by decide)
  · exact Iff.rfl

/-- A URL begins with a dash exactly if one follows the mark of a forced address. -/
theorem isOption_url_iff (handled : handles package = true) :
    IsOption (Address.ofPackage package).url ↔ Text.startsWith "git::-" package = true := by
  have hforced : "git::-".toList = "git::".toList ++ "-".toList := by decide
  have hbase : ∀ start : String, '?' ∉ start.toList →
      (Text.startsWith start (String.ofList (Source.address package)) = true ↔
        Text.startsWith start package = true) := by
    intro start hquery
    have haddress : Text.startsWith start package = true ↔ _ :=
      Source.startsWith_iff_address hquery
    rw [haddress, Text.startsWith_iff, String.toList_ofList]
  rw [url_ofPackage, isOption_urlOf, ← hbase "git::-" (by decide)]
  cases hdrop : Text.dropStart? "git::" (String.ofList (Source.address package)) with
  | some rest =>
      rw [Option.getD_some, IsOption, Text.startsWith_iff, Text.startsWith_iff,
        Text.dropStart?_eq_some_iff.mp hdrop, hforced, List.prefix_append_right_inj]
  | none =>
      have hmark : ¬ Text.startsWith "git::" package = true := by
        rw [← hbase "git::" (by decide), Text.dropStart?_eq_none_iff.mp hdrop]
        exact Bool.false_ne_true
      have hplain : ¬ Text.startsWith "git::-" (String.ofList (Source.address package)) = true := by
        rw [hbase "git::-" (by decide)]
        intro hstart
        rw [Text.startsWith_iff, hforced] at hstart
        exact hmark (Text.startsWith_iff.mpr ((List.prefix_append _ _).trans hstart))
      -- without the mark, a package that git handles begins with a letter
      refine iff_of_false ?_ hplain
      simp only [handles, Bool.or_eq_true] at handled
      rw [Option.getD_none]
      rcases handled with ((hforced | hlogin) | hgithub) | hgitlab
      · exact absurd hforced hmark
      · exact not_isOption_of_startsWith ((hbase "git@" (by decide)).mpr hlogin) (by decide)
          (by decide)
      · exact not_isOption_of_startsWith ((hbase "github.com/" (by decide)).mpr hgithub)
          (by decide) (by decide)
      · exact not_isOption_of_startsWith ((hbase "gitlab.com/" (by decide)).mpr hgitlab)
          (by decide) (by decide)

theorem ref_eq_refParameter? (package : String) :
    (Address.ofPackage package).ref =
      ((Source.refParameter? package).bind (Text.dropStart? "ref=")).filter (!·.isEmpty) := by
  rw [Source.ref_ofPackage, Source.splitOnce_query, refOf, Source.refParameter?,
    Source.parameters]
  cases Source.query package with
  | nil => rfl
  | cons c rest => rw [← Text.findSome?_dropStart?]; rfl

/-- A ref begins with a dash exactly if the first parameter that names one has it so. -/
theorem exists_isOption_ref_iff (package : String) :
    (∃ ref, (Address.ofPackage package).ref = some ref ∧ IsOption ref) ↔
      ∃ parameter, Source.refParameter? package = some parameter ∧
        Text.startsWith "ref=-" parameter = true := by
  have hdash : "ref=-".toList = "ref=".toList ++ "-".toList := by decide
  simp only [ref_eq_refParameter?, Option.filter_eq_some_iff, Option.bind_eq_some_iff,
    Text.dropStart?_eq_some_iff]
  constructor
  · rintro ⟨ref, ⟨⟨parameter, hparameter, hparts⟩, -⟩, hoption⟩
    refine ⟨parameter, hparameter, ?_⟩
    rw [Text.startsWith_iff, hparts, hdash, List.prefix_append_right_inj]
    exact Text.startsWith_iff.mp hoption
  · rintro ⟨parameter, hparameter, hstart⟩
    obtain ⟨rest, rfl⟩ := Text.exists_append_of_startsWith hstart
    refine ⟨"-" ++ rest, ⟨⟨_, hparameter, ?_⟩, ?_⟩, Text.startsWith_append "-" rest⟩
    · rw [String.toList_append, String.toList_append, hdash, List.append_assoc]
    · rw [Bool.not_eq_true', Bool.eq_false_iff, ne_eq, String.isEmpty_iff]
      exact fun hempty => absurd (String.append_eq_empty_iff.mp hempty).1 (by decide)

/-! ## Packages -/

/-- A package address that brings an option of its own. -/
def BringsOption (package : String) : Prop :=
  Text.startsWith "git::-" package = true ∨
    ∃ parameter, Source.refParameter? package = some parameter ∧
      Text.startsWith "ref=-" parameter = true

/-- The commands for a package are the fetcher's words, the URL, the ref and the destination.
    Of these none but the fetcher's own are options, and neither is the URL nor the ref, exactly
    if the package does not bring one. -/
theorem only_own_options_iff (handled : handles package = true) (hdest : ¬ IsOption dest) :
    commands (.ofPackage package) dest =
        (layouts (Address.ofPackage package).ref).map
          (fun words => words.map (Word.text (.ofPackage package) dest)) ∧
    (OnlyOwnOptions (.ofPackage package) dest ↔ ¬ BringsOption package) ∧
    ((¬ IsOption (Address.ofPackage package).url ∧
        ∀ ref, (Address.ofPackage package).ref = some ref → ¬ IsOption ref) ↔
      ¬ BringsOption package) := by
  have hbrings : (¬ IsOption (Address.ofPackage package).url ∧
        ∀ ref, (Address.ofPackage package).ref = some ref → ¬ IsOption ref) ↔
      ¬ BringsOption package := by
    rw [BringsOption, not_or, isOption_url_iff handled, ← exists_isOption_ref_iff]
    simp only [not_exists, not_and]
  exact ⟨commands_eq _ dest, (onlyOwnOptions_iff hdest).trans hbrings, hbrings⟩

theorem only_own_options_iff_pinned :
    handles "git::git::x?depth=-1&ref=v-1&ref=--x" = true ∧ ¬ IsOption "dest" ∧
      commands (.ofPackage "git::git::x?depth=-1&ref=v-1&ref=--x") "dest" =
        [["clone", "--quiet", "--depth", "1", "--branch", "v-1", "git::x", "dest"]] ∧
      OnlyOwnOptions (.ofPackage "git::git::x?depth=-1&ref=v-1&ref=--x") "dest" := by
  have handled : handles "git::git::x?depth=-1&ref=v-1&ref=--x" = true := by decide
  have hdest : ¬ IsOption "dest" := by decide
  refine ⟨handled, hdest, by decide +kernel, (only_own_options_iff handled hdest).2.1.mpr ?_⟩
  rintro (hurl | ⟨parameter, hparameter, href⟩)
  · exact absurd hurl (by decide)
  · have hfirst : Source.refParameter? "git::git::x?depth=-1&ref=v-1&ref=--x" = some "ref=v-1" := by
      decide +kernel
    rw [Option.some.inj (hparameter.symm.trans hfirst)] at href
    exact absurd href (by decide)

/-- A package whose URL git takes for an option, and one whose ref begins like one. -/
theorem exists_foreign_option :
    (∃ package dest : String, handles package = true ∧ ¬ IsOption dest ∧
      commands (.ofPackage package) dest =
        [["clone", "--quiet", "--depth", "1", "--upload-pack=touch x", "dest"]] ∧
      ¬ OnlyOwnOptions (.ofPackage package) dest) ∧
    ∃ package dest : String, handles package = true ∧ ¬ IsOption dest ∧
      commands (.ofPackage package) dest =
        [["clone", "--quiet", "--depth", "1", "--branch", "--orphan", "https://github.com/o/r",
          "dest"]] ∧
      ¬ OnlyOwnOptions (.ofPackage package) dest := by
  have hdest : ¬ IsOption "dest" := by decide
  have hurl : IsOption (Address.ofPackage "git::--upload-pack=touch x").url := by decide +kernel
  have href : (Address.ofPackage "github.com/o/r?ref=--orphan").ref = some "--orphan" := by
    decide +kernel
  refine ⟨⟨"git::--upload-pack=touch x", "dest", by decide, hdest, by decide +kernel, ?_⟩,
    "github.com/o/r?ref=--orphan", "dest", by decide, hdest, by decide +kernel, ?_⟩
  · rw [onlyOwnOptions_iff hdest]
    exact fun h => h.1 hurl
  · rw [onlyOwnOptions_iff hdest]
    exact fun h => h.2 _ href (by decide)

end Git
end HpcBlueprint
