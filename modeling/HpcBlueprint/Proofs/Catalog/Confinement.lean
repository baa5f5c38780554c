/-
  Whether the directory of a module stays where it belongs.

  The directory of an embedded module is its source seen from the root of the embedded
  modules, and that of a remote one is the directory in its source seen from where the
  package was put.  Nothing checks the two, so each stays there exactly if the text that is
  joined is confined, and a text with steps upwards may lead anywhere.
-/
import HpcBlueprint.Proofs.Catalog.Memory
import HpcBlueprint.Proofs.Files.Lexical

namespace HpcBlueprint
namespace Catalog

variable {ω : Type} {c : Catalog ω} {source : String} {kind : ModuleKind} {s s' : State ω}
  {dir : String}

theorem directory_of_embedded (hkind : Source.kind source = .embedded) :
    c.directory source kind s = (.ok (Path.join c.embeddedRoot source), s) := by
  rw [directory, hkind]

theorem directory_of_remote (hkind : Source.kind source = .remote)
    (h : c.directory source kind s = (.ok dir, s')) :
    ∃ download, s'.memory.packages.lookup (Source.splitPackage source).1 = some download ∧
      dir = Path.join (Path.join download packageName) (Source.splitPackage source).2 := by
  rw [directory, hkind] at h
  dsimp only at h
  split at h
  · rename_i root s'' hdownload
    obtain ⟨hdir, rfl⟩ := Prod.mk.inj h
    exact ⟨root, lookup_packages_of_download hdownload, (Except.ok.inj hdir).symm⟩
  · cases h

/-- The directory of an embedded module lies in the embedded modules exactly if its source is
    confined to them, and that of a remote one in its package exactly if the directory that
    its source names is. -/
theorem directory_confined_iff (h : c.directory source kind s = (.ok dir, s')) :
    (Source.kind source = .embedded →
      (s'.files.lexical c.embeddedRoot <+: s'.files.lexical dir ↔
        Path.Confined (s'.files.lexical c.embeddedRoot) source)) ∧
    (Source.kind source = .remote →
      ∃ download, s'.memory.packages.lookup (Source.splitPackage source).1 = some download ∧
        (s'.files.lexical (Path.join download packageName) <+: s'.files.lexical dir ↔
          Path.Confined (s'.files.lexical (Path.join download packageName))
            (Source.splitPackage source).2)) := by
  constructor
  · intro hkind
    rw [directory_of_embedded hkind] at h
    rw [← Except.ok.inj (Prod.mk.inj h).1]
    exact FileSystem.prefix_lexical_join_iff
  · intro hkind
    obtain ⟨download, hlookup, rfl⟩ := directory_of_remote hkind h
    exact ⟨download, hlookup, FileSystem.prefix_lexical_join_iff⟩

/-- A tree in which something stands beside the embedded modules, and a package that was
    fetched to a download directory. -/
def beside : State Unit where
  memory := { Memory.empty with packages := [("s3://b/p", "/tmp/module-0")], downloads := 1 }
  workspace :=
    ⟨⟨[(["embedded"], .directory), (["embedded", "modules"], .directory),
      (["secret"], .directory)], []⟩, ()⟩

theorem directory_beside :
    Catalog.directory ⟨"embedded", []⟩ "modules/../../secret" .terraform beside =
      (.ok "embedded/modules/../../secret", beside) := by
  have hkind : Source.kind "modules/../../secret" = .embedded := by decide
  have hjoin : Path.join "embedded" "modules/../../secret" = "embedded/modules/../../secret" := by
    decide
  rw [directory_of_embedded hkind, hjoin]

theorem directory_beside_package :
    Catalog.directory ⟨"embedded", []⟩ "s3://b/p//../x" .terraform beside =
      (.ok "/tmp/module-0/module/../x", beside) := by
  rfl

/-- Both an embedded source and the directory of a remote one that lead out of where they
    belong. -/
theorem directory_confined_iff_beside :
    (Source.kind "modules/../../secret" = .embedded ∧
      Catalog.directory ⟨"embedded", []⟩ "modules/../../secret" .terraform beside =
        (.ok "embedded/modules/../../secret", beside) ∧
      (beside.files.lexical "embedded" <+:
          beside.files.lexical "embedded/modules/../../secret" ↔
        Path.Confined (beside.files.lexical "embedded") "modules/../../secret")) ∧
    Source.kind "s3://b/p//../x" = .remote ∧
      Catalog.directory ⟨"embedded", []⟩ "s3://b/p//../x" .terraform beside =
        (.ok "/tmp/module-0/module/../x", beside) ∧
      ∃ download,
        beside.memory.packages.lookup (Source.splitPackage "s3://b/p//../x").1 = some download ∧
          (beside.files.lexical (Path.join download packageName) <+:
              beside.files.lexical "/tmp/module-0/module/../x" ↔
            Path.Confined (beside.files.lexical (Path.join download packageName))
              (Source.splitPackage "s3://b/p//../x").2) :=
  have hembedded : Source.kind "modules/../../secret" = .embedded := by decide
  have hremote : Source.kind "s3://b/p//../x" = .remote := by decide
  ⟨⟨hembedded, directory_beside, (directory_confined_iff directory_beside).1 hembedded⟩, hremote,
    directory_beside_package, (directory_confined_iff directory_beside_package).2 hremote⟩

/-- An embedded source may lead out of the embedded modules. -/
theorem exists_embedded_directory_outside :
    ∃ (c : Catalog Unit) (source : String) (kind : ModuleKind) (s s' : State Unit) (dir : String)
      (loc : Location), Source.kind source = .embedded ∧
        c.directory source kind s = (.ok dir, s') ∧ s'.files.find dir = .ok (loc, .directory) ∧
        loc = s'.files.lexical dir ∧ ¬ s'.files.lexical c.embeddedRoot <+: loc := by
  refine ⟨⟨"embedded", []⟩, "modules/../../secret", .terraform, beside, beside, _, ["secret"],
    by decide, directory_beside, by rfl, by decide, ?_⟩
  have hroot : beside.files.lexical "embedded" = ["embedded"] := by decide
  rw [hroot]
  decide

end Catalog
end HpcBlueprint
