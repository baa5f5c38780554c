/-
  Whether the check of sources agrees with git.

  The check and the fetcher each have a reading of a source: the check looks at the source as
  it is written, the fetcher at its package.  Both find the same parameters, since the package
  has the query of its source.  They part in three places.  The check does not know the
  second of the two hosts that may stand without a scheme; it takes a ref that is given for
  a ref that is used, though an empty one is not; and it takes a source for one of git's whose
  package has lost everything but the host.
-/
import HpcBlueprint.Fetch.Git
import HpcBlueprint.Proofs.Source.Package
import HpcBlueprint.Validate.Builtin

namespace HpcBlueprint
namespace Source

variable {source : String}

/-! ## Parameters -/

/-- The parameters in the query of a source. -/
def parameters (source : String) : List String :=
  match query source with
  | [] => []
  | _ :: rest => Text.splitAll '&' (String.ofList rest)

theorem parameters_package (source : String) :
    parameters (package source) = parameters source := by
  rw [parameters, (package_cases source).1, parameters]

theorem splitOnce_query (source : String) :
    Text.splitOnce '?' source =
      match query source with
      | [] => none
      | _ :: rest => some (String.ofList (address source), String.ofList rest) := by
  have hwhole := address_append_query source
  rcases query_eq source with hnone | ⟨rest, hsome⟩
  · rw [hnone, List.append_nil] at hwhole
    rw [hnone, Text.splitOnce_eq_none_iff, ← hwhole]
    exact not_mem_address source
  · rw [hsome] at hwhole
    rw [hsome, Text.splitOnce_eq_some_iff, String.toList_ofList, String.toList_ofList]
    exact ⟨hwhole.symm, not_mem_address source⟩

/-- The first parameter that names a ref. -/
def refParameter? (source : String) : Option String :=
  (parameters source).find? (Text.startsWith "ref=")

theorem isPinned_iff : Validator.isPinned source = true ↔ refParameter? source ≠ none := by
  rw [Validator.isPinned, splitOnce_query, refParameter?, parameters]
  cases query source with
  | nil => simp
  | cons c rest => simp

/-- No ref is taken from parameters of which none names one or the first names nothing. -/
theorem findSome?_ref_eq_none_iff (ps : List String) :
    (ps.findSome? (Text.dropStart? "ref=")).filter (!·.isEmpty) = none ↔
      ps.find? (Text.startsWith "ref=") = none ∨ ps.find? (Text.startsWith "ref=") = some "ref=" := by
  rw [Text.findSome?_dropStart?]
  cases hfind : ps.find? (Text.startsWith "ref=") with
  | none => simp
  | some p =>
      obtain ⟨ref, rfl⟩ := Text.exists_append_of_startsWith (List.find?_some hfind)
      have hempty : "ref=" ++ ref = "ref=" ↔ ref = "" := String.append_eq_left_iff
      rw [Option.bind_some, Text.dropStart?_append]
      simp [hempty]

theorem ref_ofPackage (package : String) :
    (Git.Address.ofPackage package).ref =
      Git.refOf ((Text.splitOnce '?' package).getD (package, "")).2 := rfl

/-- A package is cloned at its default branch exactly if the query of its source names no ref
    or names an empty one first. -/
theorem ref_eq_none_iff :
    (Git.Address.ofPackage (package source)).ref = none ↔
      refParameter? source = none ∨ refParameter? source = some "ref=" := by
  have href : (Git.Address.ofPackage (package source)).ref =
      ((parameters source).findSome? (Text.dropStart? "ref=")).filter (!·.isEmpty) := by
    rw [← parameters_package, ref_ofPackage, splitOnce_query, parameters]
    cases query (package source) with
    | nil => rfl
    | cons c rest => rfl
  rw [href, findSome?_ref_eq_none_iff, refParameter?]

/-! ## Repositories -/

theorem isGitSource_iff :
    Validator.isGitSource source = true ↔
      Text.startsWith "git::" source = true ∨ Text.startsWith "git@" source = true ∨
      Text.startsWith "github.com/" source = true := by
  rw [Validator.isGitSource, Bool.or_eq_true, Bool.or_eq_true, or_assoc]

/-- Which packages git fetches, told by their sources. -/
theorem handles_package_iff :
    Git.handles (package source) = true ↔
      Text.startsWith "git::" source = true ∨ Text.startsWith "git@" source = true ∨
      (Text.startsWith "github.com/" source = true ∧ ¬ CutBehind "github.com" source) ∨
      (Text.startsWith "gitlab.com/" source = true ∧ ¬ CutBehind "gitlab.com" source) := by
  have hforced : Text.startsWith "git::" (package source) = true ↔
      Text.startsWith "git::" source = true := startsWith_package_iff (by decide) (by decide)
  have hlogin : Text.startsWith "git@" (package source) = true ↔
      Text.startsWith "git@" source = true := startsWith_package_iff (by decide) (by decide)
  have hgithub : Text.startsWith "github.com/" (package source) = true ↔
      Text.startsWith "github.com/" source = true ∧ ¬ CutBehind "github.com" source :=
    host_package_iff "github.com" (by decide) (by decide) (by decide)
  have hgitlab : Text.startsWith "gitlab.com/" (package source) = true ↔
      Text.startsWith "gitlab.com/" source = true ∧ ¬ CutBehind "gitlab.com" source :=
    host_package_iff "gitlab.com" (by decide) (by decide) (by decide)
  rw [Git.handles, Bool.or_eq_true, Bool.or_eq_true, Bool.or_eq_true, hforced, hlogin, hgithub,
    hgitlab, or_assoc, or_assoc]

/-! ## Where the readings part -/

/-- A source is fetched by git without a ref, at whatever the default branch is. -/
def ClonedAtDefault (source : String) : Prop :=
  kind source = .remote ∧ Git.handles (splitPackage source).1 = true ∧
    (Git.Address.ofPackage (splitPackage source).1).ref = none

instance : DecidablePred ClonedAtDefault := fun _ => instDecidableAnd

/-- A source of which the check and the fetcher have different readings. -/
inductive Misjudged (source : String) : Prop
  /-- The check does not know the host. -/
  | host (cloned : ClonedAtDefault source)
      (host : Text.startsWith "gitlab.com/" source = true)
  /-- The first ref that the query names is empty. -/
  | emptyRef (cloned : ClonedAtDefault source) (first : refParameter? source = some "ref=")
  /-- There is nothing to fetch on the host, with or without a ref. -/
  | noRepository (cut : CutBehind "github.com" source) (unnamed : refParameter? source = none)

theorem clonedAtDefault_iff :
    ClonedAtDefault source ↔
      kind source = .remote ∧ Git.handles (package source) = true ∧
        (refParameter? source = none ∨ refParameter? source = some "ref=") := by
  rw [← ref_eq_none_iff]
  rfl

end Source

namespace Validator

open Source

variable {source : String}

theorem isUnpinned_iff {n : Module} :
    isUnpinned n = true ↔
      kind n.source = .remote ∧ isGitSource n.source = true ∧ refParameter? n.source = none := by
  rw [isUnpinned, Bool.and_eq_true, Bool.and_eq_true, beq_iff_eq, Bool.not_eq_true',
    Bool.eq_false_iff, Ne, isPinned_iff, not_not, and_assoc]

/-- A source on a host is remote and begins like one of git's. -/
theorem remote_of_cutBehind (h : CutBehind "github.com" source) :
    kind source = .remote ∧ isGitSource source = true := by
  obtain ⟨hstart, -⟩ := h
  have hmodules := Text.startsWith_eq_false "modules/" hstart (by decide) (by decide)
  have hcommunity :=
    Text.startsWith_eq_false "community/modules/" hstart (by decide) (by decide)
  have hhere := Text.startsWith_eq_false "./" hstart (by decide) (by decide)
  have habove := Text.startsWith_eq_false "../" hstart (by decide) (by decide)
  have hroot := Text.startsWith_eq_false "/" hstart (by decide) (by decide)
  have hbegins : "github.com/".toList <+: ("github.com" ++ "//").toList := by decide
  refine ⟨?_, isGitSource_iff.mpr (Or.inr (Or.inr ?_))⟩
  · simp [kind, isEmbedded, isLocal, hmodules, hcommunity, hhere, habove, hroot]
  · exact Text.startsWith_iff.mpr (hbegins.trans (Text.startsWith_iff.mp hstart))

/-- Nothing is left to fetch of an address that is cut behind its host. -/
theorem not_handles_of_cutBehind (h : CutBehind "github.com" source) :
    ¬ Git.handles (package source) = true := by
  have hforced := Text.startsWith_eq_false "git::" h.1 (by decide) (by decide)
  have hlogin := Text.startsWith_eq_false "git@" h.1 (by decide) (by decide)
  have hgitlab := Text.startsWith_eq_false "gitlab.com/" h.1 (by decide) (by decide)
  rw [handles_package_iff, hforced, hlogin, hgitlab]
  simp [h]

/-- The check does not know the second host. -/
theorem not_isGitSource_of_gitlab (h : Text.startsWith "gitlab.com/" source = true) :
    ¬ isGitSource source = true := by
  have hforced := Text.startsWith_eq_false "git::" h (by decide) (by decide)
  have hlogin := Text.startsWith_eq_false "git@" h (by decide) (by decide)
  have hgithub := Text.startsWith_eq_false "github.com/" h (by decide) (by decide)
  rw [isGitSource_iff, hforced, hlogin, hgithub]
  simp

/-- The check takes a module for one that is cloned at the default branch exactly if it is
    one, unless its source is misjudged; and then it does not. -/
theorem isUnpinned_iff_clonedAtDefault {n : Module} :
    (isUnpinned n = true ↔ ClonedAtDefault n.source) ↔ ¬ Misjudged n.source := by
  -- of the three kinds the check misses modules of the first two and lists those of the third
  constructor
  · intro hagree hmisjudged
    cases hmisjudged with
    | host cloned host =>
        obtain ⟨-, hgit, -⟩ := isUnpinned_iff.mp (hagree.mpr cloned)
        exact not_isGitSource_of_gitlab host hgit
    | emptyRef cloned first =>
        obtain ⟨-, -, hnone⟩ := isUnpinned_iff.mp (hagree.mpr cloned)
        rw [first] at hnone
        cases hnone
    | noRepository cut unnamed =>
        obtain ⟨hremote, hgit⟩ := remote_of_cutBehind cut
        have cloned := hagree.mp (isUnpinned_iff.mpr ⟨hremote, hgit, unnamed⟩)
        exact not_handles_of_cutBehind cut cloned.2.1
  · intro hmisjudged
    constructor
    · intro hunpinned
      obtain ⟨hremote, hgit, hnone⟩ := isUnpinned_iff.mp hunpinned
      refine clonedAtDefault_iff.mpr ⟨hremote, handles_package_iff.mpr ?_, Or.inl hnone⟩
      rcases isGitSource_iff.mp hgit with hforced | hlogin | hgithub
      · exact Or.inl hforced
      · exact Or.inr (Or.inl hlogin)
      · have hcut : ¬ CutBehind "github.com" n.source :=
          fun cut => hmisjudged (.noRepository cut hnone)
        exact Or.inr (Or.inr (Or.inl ⟨hgithub, hcut⟩))
    · intro cloned
      obtain ⟨hremote, hhandles, href⟩ := clonedAtDefault_iff.mp cloned
      have hnone := href.resolve_right fun first => hmisjudged (.emptyRef cloned first)
      refine isUnpinned_iff.mpr ⟨hremote, isGitSource_iff.mpr ?_, hnone⟩
      rcases handles_package_iff.mp hhandles with hforced | hlogin | ⟨hgithub, -⟩ | ⟨hgitlab, -⟩
      · exact Or.inl hforced
      · exact Or.inr (Or.inl hlogin)
      · exact Or.inr (Or.inr hgithub)
      · exact absurd (.host cloned hgitlab) hmisjudged

/-! ## What the check says -/

/-- The objection to modules that are not pinned, if there are any. -/
def pinningObjection (unpinned : List Module) : Option Objection :=
  if unpinned.isEmpty then none
  else
    object ("module sources are not pinned to a ref: " ++
        ", ".intercalate (unpinned.map fun m => m.id ++ " (" ++ m.source ++ ")"))
      "append ?ref=<tag or commit> to each remote source"

/-- The modules of a blueprint that are cloned at a default branch, in order. -/
def clonedAtDefault (b : Blueprint) : List Module :=
  (b.modules.map (·.2)).filter fun n => decide (ClonedAtDefault n.source)

/-- The modules of a blueprint that the check lists, in order. -/
def listed (b : Blueprint) : List Module := (b.modules.map (·.2)).filter isUnpinned

theorem checkSources_eq (m : Materialized) (inputs : OrderedMap Value) :
    checkSources m inputs = pinningObjection (listed m.blueprint) := rfl

theorem pinningObjection_eq_none_iff {unpinned : List Module} :
    pinningObjection unpinned = none ↔ unpinned = [] := by
  cases unpinned with
  | nil => exact iff_of_true rfl rfl
  | cons n rest => exact iff_of_false nofun nofun

/-- The check lists the modules that are cloned at a default branch exactly if no source of the
    blueprint is misjudged. -/
theorem listed_eq_clonedAtDefault_iff {b : Blueprint} :
    listed b = clonedAtDefault b ↔ ∀ n ∈ b.modules.map (·.2), ¬ Misjudged n.source := by
  constructor
  · intro h n hn
    rw [← isUnpinned_iff_clonedAtDefault]
    have hmem : n ∈ listed b ↔ n ∈ clonedAtDefault b := by rw [h]
    simpa only [listed, clonedAtDefault, List.mem_filter, hn, true_and, decide_eq_true_eq] using hmem
  · intro h
    refine List.filter_congr fun n hn => ?_
    rw [Bool.eq_iff_iff, decide_eq_true_eq]
    exact isUnpinned_iff_clonedAtDefault.mpr (h n hn)

/-- Nothing is cloned at a default branch exactly if every repository is cloned at a ref. -/
theorem clonedAtDefault_eq_nil_iff {b : Blueprint} :
    clonedAtDefault b = [] ↔
      ∀ n ∈ b.modules.map (·.2), kind n.source = .remote →
        Git.handles (splitPackage n.source).1 = true →
        ∃ ref, (Git.Address.ofPackage (splitPackage n.source).1).ref = some ref := by
  rw [clonedAtDefault, List.filter_eq_nil_iff]
  refine forall₂_congr fun n _ => ?_
  rw [decide_eq_true_eq, ClonedAtDefault, not_and, ← Option.ne_none_iff_exists', not_and]

/-- The check objects to the modules it lists, in order.  These are the ones that are cloned at a
    default branch exactly if no source is misjudged; and then the check passes exactly if
    every repository is cloned at a ref. -/
theorem checkSources_agrees_iff (m : Materialized) (inputs : OrderedMap Value) :
    checkSources m inputs = pinningObjection (listed m.blueprint) ∧
    (listed m.blueprint = clonedAtDefault m.blueprint ↔
      ∀ n ∈ m.blueprint.modules.map (·.2), ¬ Misjudged n.source) ∧
    ((∀ n ∈ m.blueprint.modules.map (·.2), ¬ Misjudged n.source) →
      checkSources m inputs = pinningObjection (clonedAtDefault m.blueprint) ∧
      (checkSources m inputs = none ↔
        ∀ n ∈ m.blueprint.modules.map (·.2), kind n.source = .remote →
          Git.handles (splitPackage n.source).1 = true →
          ∃ ref, (Git.Address.ofPackage (splitPackage n.source).1).ref = some ref)) := by
  refine ⟨checkSources_eq m inputs, listed_eq_clonedAtDefault_iff, fun h => ?_⟩
  have hsame := listed_eq_clonedAtDefault_iff.mpr h
  rw [checkSources_eq, hsame, pinningObjection_eq_none_iff, clonedAtDefault_eq_nil_iff]
  exact ⟨rfl, Iff.rfl⟩

/-- A blueprint of modules with these names and sources. -/
def sourced (sources : List (String × String)) : Materialized where
  blueprint := {
    name := "t"
    toolkitVersion := HpcBlueprint.toolkitVersion
    validators := []
    level := .warning
    skipped := []
    vars := [("deployment_name", .string "d")]
    backendDefaults := Backend.empty
    groups := [⟨"g", none, sources.map fun (id, source) =>
      ⟨id, source, .terraform, [], [], [], none⟩⟩] }
  usage := ⟨[], []⟩

/-- A pinned module, one at the default branch, and one that is not from git. -/
def mixed : Materialized :=
  sourced [("a", "github.com/org/a//dir?depth=1&ref=v1"), ("b", "git::https://h/b//dir"),
    ("c", "s3::b/c")]

theorem checkSources_agrees_iff_mixed :
    (∀ n ∈ mixed.blueprint.modules.map (·.2), ¬ Misjudged n.source) ∧
    checkSources mixed [] = pinningObjection (clonedAtDefault mixed.blueprint) ∧
    (clonedAtDefault mixed.blueprint).map (·.id) = ["b"] := by
  have hmodules : listed mixed.blueprint = clonedAtDefault mixed.blueprint := by decide +kernel
  have hjudged := (checkSources_agrees_iff mixed []).2.1.mp hmodules
  exact ⟨hjudged, ((checkSources_agrees_iff mixed []).2.2 hjudged).1, by decide +kernel⟩

/-- Modules that are cloned at a default branch pass the check: one whose host it does not
    know and one whose ref is empty. -/
theorem exists_checkSources_disagrees :
    ∃ m : Materialized, checkSources m [] = none ∧
      (clonedAtDefault m.blueprint).map (·.source) =
        ["gitlab.com/org/repo", "github.com/org/repo?ref="] ∧
      ¬ ∀ n ∈ m.blueprint.modules.map (·.2), kind n.source = .remote →
        Git.handles (splitPackage n.source).1 = true →
        ∃ ref, (Git.Address.ofPackage (splitPackage n.source).1).ref = some ref := by
  refine ⟨sourced [("a", "gitlab.com/org/repo"), ("b", "github.com/org/repo?ref=")],
    by decide +kernel, by decide +kernel, ?_⟩
  rw [← clonedAtDefault_eq_nil_iff]
  decide +kernel

end Validator
end HpcBlueprint
