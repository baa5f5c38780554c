/-
  Which blueprints can be loaded from the text that they are written as.

  A document may nest its collections as deeply as it likes, but only so many of them are
  opened when its text is read.  That the text of a document which stays within the limit shows
  the document, and that any other is refused, is what is relied on about the reading of texts
  (`Renders`).  A proper blueprint can then be loaded from its text exactly if its document
  stays within the limit.
-/
import HpcBlueprint.Blueprint.Document
import HpcBlueprint.Proofs.Blueprint.RoundTrip
import HpcBlueprint.Proofs.Yaml.Faults
import Mathlib.Tactic.SplitIfs

namespace HpcBlueprint

open Yaml (Node Stream)
open Yaml.Decoder (Notices)

/-! ## How deeply documents are nested -/

namespace Yaml.Tree

mutual

/-- How many collections lie around the innermost part of a tree. -/
def depth : Tree → Nat
  | .sequence items => depthOfItems items + 1
  | .mapping entries => depthOfEntries entries + 1
  | .tagged _ value => value.depth
  | .null | .bool _ | .number _ | .string _ => 0

/-- The depth of the deepest item of a sequence. -/
def depthOfItems : List Tree → Nat
  | [] => 0
  | t :: rest => max t.depth (depthOfItems rest)

/-- The depth of the deepest key or value of a mapping. -/
def depthOfEntries : List (Tree × Tree) → Nat
  | [] => 0
  | (k, t) :: rest => max (max k.depth t.depth) (depthOfEntries rest)

end

/-- The document in the text that a tree is written as. -/
def writtenNode (t : Tree) : Node := Node.ofStream (Stream.ofText (Printer.render t))

/-- The text of a tree reads as the tree if that is not nested too deeply, and else it is
    refused for this reason. -/
structure Renders (t : Tree) : Prop where
  complete : t.depth ≤ Node.maxDepth → (Stream.ofText (Printer.render t)).complete = true
  shown : t.depth ≤ Node.maxDepth → t.shownBy t.writtenNode
  tooDeep : Node.maxDepth < t.depth →
    ∃ mark, Decoder.ofText Decoder.tree (Printer.render t) = .error (.tooDeep mark)

end Yaml.Tree

/-! ## Noticing faults -/

theorem notices_valuesDecoder : Notices valuesDecoder :=
  (Notices.pairs (Yaml.Decoder.notices_ofTree _)).map _

theorem notices_nameSetDecoder : Notices nameSetDecoder :=
  (Notices.list Yaml.Decoder.notices_text).map _

theorem Backend.notices_decoder : Notices Backend.decoder := by
  refine .record fun name draft => ?_
  split_ifs
  · exact Yaml.Decoder.notices_text.map _
  · exact notices_valuesDecoder.map _

theorem ValidatorEntry.notices_decoder : Notices ValidatorEntry.decoder := by
  refine .record fun name draft => ?_
  split_ifs
  · exact Yaml.Decoder.notices_text.map _
  · exact Yaml.Decoder.notices_bool.map _
  · exact notices_valuesDecoder.map _

theorem ValidationLevel.notices_decoder : Notices ValidationLevel.decoder := by
  intro node path level h
  obtain ⟨a, ha, -⟩ := bind_eq_ok.mp h
  exact Yaml.Decoder.notices_alternative node path a ha

theorem Module.notices_decoder : Notices Module.decoder := by
  refine .record fun name draft => ?_
  split_ifs
  · exact Yaml.Decoder.notices_text.map _
  · exact Yaml.Decoder.notices_text.map _
  · exact (Yaml.Decoder.notices_variant _).map _
  · exact (Notices.list Yaml.Decoder.notices_text).map _
  · exact notices_valuesDecoder.map _
  · exact (Notices.list (Yaml.Decoder.notices_ofTree _)).map _

theorem Group.notices_decoder : Notices Group.decoder := by
  refine .record fun name draft => ?_
  split_ifs
  · exact Yaml.Decoder.notices_text.map _
  · exact Backend.notices_decoder.optional.map _
  · exact (Notices.list Module.notices_decoder).map _

namespace Blueprint

/-- No field of a blueprint is passed over. -/
theorem notices_decoder : Notices decoder := by
  refine .record fun name draft => ?_
  split_ifs
  · exact Yaml.Decoder.notices_text.map _
  · exact Yaml.Decoder.notices_text.map _
  · exact (Notices.list ValidatorEntry.notices_decoder).map _
  · exact ValidationLevel.notices_decoder.map _
  · exact notices_nameSetDecoder.map _
  · exact notices_valuesDecoder.map _
  · exact Backend.notices_decoder.map _
  · exact (Notices.list Group.notices_decoder).map _

/-! ## Loading what was written -/

variable {b : Blueprint} {file : Option String}

theorem ofArtifact_render (proper : b.Proper) (renders : b.toTree.Renders)
    (shallow : b.toTree.depth ≤ Node.maxDepth) :
    ofArtifact file b.render = .ok b.withoutSchemas := by
  have hread := Blueprint.reads proper [] _ (renders.shown shallow)
  rw [ofArtifact, render, mapError_eq_ok, Yaml.Decoder.ofText, bind_eq_ok]
  refine ⟨_, hread, ?_⟩
  rw [renders.complete shallow]
  rfl

theorem ofArtifact_render_of_tooDeep (renders : b.toTree.Renders)
    (deep : Node.maxDepth < b.toTree.depth) : ∃ e, ofArtifact file b.render = .error e := by
  obtain ⟨mark, hdeep⟩ := renders.tooDeep deep
  obtain ⟨e, he⟩ := notices_decoder.fails_of_tooDeep hdeep
  exact ⟨_, by rw [ofArtifact, render, he]; rfl⟩

end Blueprint
end HpcBlueprint
