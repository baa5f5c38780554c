/-
  What is known of a value that was read.

  A decoder yields only values of some kind if all that it can make of any node, at any path,
  is of that kind.  A record is made from a draft, field by field: what holds of the empty
  draft and is kept by every field holds of the draft in the end.
-/
import HpcBlueprint.Proofs.Yaml.Faults

namespace HpcBlueprint.Yaml
namespace Decoder

variable {α β σ : Type} {P : α → Prop}

/-- Everything that a decoder reads has a property. -/
def Yields (d : Decoder α) (P : α → Prop) : Prop :=
  ∀ path node a, d path node = .ok a → P a

namespace Yields

theorem map {d : Decoder α} (h : Yields d P) {f : α → β} {Q : β → Prop} (hf : ∀ a, P a → Q (f a)) :
    Yields (fun path node => (d path node).map f) Q := by
  intro path node b hread
  obtain ⟨a, ha, rfl⟩ := map_eq_ok.mp hread
  exact hf a (h path node a ha)

theorem any (d : Decoder α) : Yields d fun _ => True := fun _ _ _ _ => trivial

/-- What every field keeps holds of the draft when all fields are read. -/
theorem eachField {Q : σ → Prop} {known : List String} {read : String → σ → Decoder σ}
    (keeps : ∀ name draft, Q draft → Yields (read name draft) Q) {path : Path}
    {entries : List (Option String × Node × Node)} {seen : List String} {draft done : σ}
    (hdraft : Q draft)
    (hread : Decoder.eachField known read path seen draft entries = .ok done) : Q done := by
  induction entries generalizing seen draft with
  | nil =>
      cases hread
      exact hdraft
  | cons entry rest ih =>
      obtain ⟨label, key, value⟩ := entry
      simp only [Decoder.eachField, bind_eq_ok] at hread
      obtain ⟨name, -, hread⟩ := hread
      split at hread
      · cases hread
      · obtain ⟨next, hnext, hrest⟩ := bind_eq_ok.mp hread
        exact ih (keeps name draft hdraft _ _ next hnext) hrest

/-- A record has what its finished draft is sure to have. -/
theorem record {Q : σ → Prop} {type : String} {known : List String} {draft : σ}
    {read : String → σ → Decoder σ} {finish : σ → Except Problem α} (hdraft : Q draft)
    (keeps : ∀ name draft, Q draft → Yields (read name draft) Q)
    (hfinish : ∀ done a, Q done → finish done = .ok a → P a) :
    Yields (Decoder.record type known draft read finish) P := by
  intro path node a hread
  unfold Decoder.record at hread
  dsimp only at hread
  split at hread
  · obtain ⟨done, hdone, hcomplete⟩ := bind_eq_ok.mp (placedAt_eq_ok.mp hread)
    exact hfinish done a (eachField keeps hdraft hdone) (mapError_eq_ok.mp hcomplete)
  · split at hread
    · exact hfinish draft a hdraft (mapError_eq_ok.mp (placedAt_eq_ok.mp hread))
    · exact absurd hread refuse_ne_ok

/-- What is read from a text is read from its node. -/
theorem ofText {d : Decoder α} (h : Yields d P) {text : String} {a : α}
    (hread : Decoder.ofText d text = .ok a) : P a := by
  simp only [Decoder.ofText, bind_eq_ok] at hread
  obtain ⟨b, hb, hread⟩ := hread
  split at hread
  · cases hread
    exact h _ _ _ hb
  · cases hread

end Yields

end Decoder
end HpcBlueprint.Yaml
