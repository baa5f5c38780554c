/-
  What blocks declare, block by block.

  Every `variable` block is one input and every `output` block of a terraform module is one
  output, in the order of the blocks (`Schema.Lists`).  An input is required unless its block
  gives it a default.  The only block that cannot be taken is one that declares something and
  has no label to name it by.
-/
import HpcBlueprint.Proofs.Except
import HpcBlueprint.Schema.Declaration
import Mathlib.Data.List.Forall2

namespace HpcBlueprint

variable {kind : ModuleKind} {s s' : Schema} {b : Hcl.Block} {blocks more : List Hcl.Block}
  {inputs : List Input} {outputs : List Output}

/-! ## Inputs -/

namespace Input

/-- An attribute takes the requirement away, and puts a default, only by the name `default`. -/
theorem isRequired_take (i : Input) (a : String × Hcl.Expr) :
    (i.take a).isRequired = (i.isRequired && a.1 != "default") ∧
      (i.take a).default.isNone = (i.default.isNone && a.1 != "default") := by
  obtain ⟨name, e⟩ := a
  -- one case for each name that an attribute is taken by
  by_cases htype : name = "type"
  · simp [take, htype]
  · by_cases hdescription : name = "description"
    · simp [take, hdescription]
    · by_cases hdefault : name = "default"
      · simp [take, hdefault]
      · simp [take, htype, hdescription, hdefault]

theorem isRequired_foldl_take (i : Input) (attributes : List (String × Hcl.Expr)) :
    (attributes.foldl take i).isRequired =
        (i.isRequired && attributes.all fun a => a.1 != "default") ∧
      (attributes.foldl take i).default.isNone =
        (i.default.isNone && attributes.all fun a => a.1 != "default") := by
  induction attributes generalizing i with
  | nil => simp
  | cons a rest ih =>
      obtain ⟨hfirst, hput⟩ := isRequired_take i a
      obtain ⟨hrequired, hdefault⟩ := ih (i.take a)
      rw [List.foldl_cons, hrequired, hdefault, hfirst, hput, List.all_cons, Bool.and_assoc,
        Bool.and_assoc]
      exact ⟨rfl, rfl⟩

/-- An input is what a block with a name declares: it is required exactly if the block gives it
    no default, and then it has none. -/
structure DeclaredBy (b : Hcl.Block) (i : Input) : Prop where
  named : ∃ name, b.labels.head? = some name ∧ i = ofBlock name b
  required_iff : i.isRequired = true ↔ ∀ e, ("default", e) ∉ b.attributes
  no_default : i.isRequired = true → i.default = none

theorem declaredBy_ofBlock {b : Hcl.Block} {name : String} (h : b.labels.head? = some name) :
    DeclaredBy b (ofBlock name b) := by
  obtain ⟨hrequired, hdefault⟩ := isRequired_foldl_take ⟨name, "any", "", none, true⟩ b.attributes
  rw [← ofBlock, Bool.true_and] at hrequired
  rw [← ofBlock, Option.isNone_none, Bool.true_and] at hdefault
  have hall : (b.attributes.all fun a => a.1 != "default") = true ↔
      ∀ e, ("default", e) ∉ b.attributes := by
    rw [List.all_eq_true]
    constructor
    · intro h e he
      simpa using h _ he
    · rintro h ⟨key, e⟩ ha
      rw [bne_iff_ne]
      rintro rfl
      exact h e ha
  refine ⟨⟨name, h, rfl⟩, ?_, ?_⟩
  · rw [hrequired]
    exact hall
  · rw [hrequired, ← hdefault]
    exact Option.isNone_iff_eq_none.mp

end Input

/-! ## Blocks -/

/-- Whether a block declares an input. -/
def Hcl.Block.isInput (b : Hcl.Block) : Bool := b.type == "variable"

/-- Whether a block declares an output; those of packer modules do not. -/
def Hcl.Block.isOutput (kind : ModuleKind) (b : Hcl.Block) : Bool :=
  kind == .terraform && b.type == "output"

/-- A block declares something, and no label says what. -/
def Hcl.Block.Unnamed (kind : ModuleKind) (b : Hcl.Block) : Prop :=
  (b.isInput = true ∨ b.isOutput kind = true) ∧ b.labels = []

/-- One input for each block that declares one and one output for each block that declares
    one, all in the order of their blocks and named by the first labels. -/
structure Schema.Lists (kind : ModuleKind) (blocks : List Hcl.Block) (inputs : List Input)
    (outputs : List Output) : Prop where
  inputs : List.Forall₂ Input.DeclaredBy (blocks.filter (·.isInput)) inputs
  outputs : List.Forall₂
    (fun b o => ∃ name, b.labels.head? = some name ∧ o = Output.ofBlock name b)
    (blocks.filter (·.isOutput kind)) outputs

namespace Schema

/-- A schema with further inputs and outputs. -/
def extended (s : Schema) (inputs : List Input) (outputs : List Output) : Schema :=
  { s with inputs := s.inputs ++ inputs, outputs := s.outputs ++ outputs }

theorem extended_extended (s : Schema) (inputs inputs' : List Input)
    (outputs outputs' : List Output) :
    (s.extended inputs outputs).extended inputs' outputs' =
      s.extended (inputs ++ inputs') (outputs ++ outputs') := by
  simp [extended]

theorem Lists.nil : Lists kind [] [] [] := ⟨.nil, .nil⟩

/-- What two rows of blocks list is listed by both in a row. -/
theorem Lists.append {inputs' : List Input} {outputs' : List Output}
    (h : Lists kind blocks inputs outputs) (h' : Lists kind more inputs' outputs') :
    Lists kind (blocks ++ more) (inputs ++ inputs') (outputs ++ outputs') := by
  constructor
  · rw [List.filter_append]
    exact List.rel_append h.inputs h'.inputs
  · rw [List.filter_append]
    exact List.rel_append h.outputs h'.outputs

/-- Packer modules have no outputs. -/
theorem Lists.outputs_eq_nil (h : Lists .packer blocks inputs outputs) : outputs = [] := by
  have hnone : blocks.filter (·.isOutput .packer) = [] := by
    rw [List.filter_eq_nil_iff]
    intro b _
    simp [Hcl.Block.isOutput]
  have houtputs := h.outputs
  rw [hnone, List.forall₂_nil_left_iff] at houtputs
  exact houtputs

/-- No block is an input and an output. -/
theorem isOutput_of_isInput (h : b.isInput = true) : b.isOutput kind = false := by
  rw [Hcl.Block.isInput, beq_iff_eq] at h
  rw [Hcl.Block.isOutput, h]
  simp

theorem withBlock_eq (s : Schema) (b : Hcl.Block) :
    s.withBlock kind b =
      if b.isInput || b.isOutput kind then
        match b.labels.head? with
        | none => .error ⟨b.type⟩
        | some name =>
          .ok (if b.isInput then s.extended [Input.ofBlock name b] []
            else s.extended [] [Output.ofBlock name b])
      else .ok s := by
  have hinputs : ∀ more, s.extended more [] = { s with inputs := s.inputs ++ more } := by
    intro more
    rw [extended, List.append_nil]
  have houtputs : ∀ more, s.extended [] more = { s with outputs := s.outputs ++ more } := by
    intro more
    rw [extended, List.append_nil]
  simp only [hinputs, houtputs]
  rfl

/-- A block that is taken adds what it declares. -/
theorem lists_of_withBlock (h : s.withBlock kind b = .ok s') :
    ∃ inputs outputs, Lists kind [b] inputs outputs ∧ s' = s.extended inputs outputs := by
  rw [withBlock_eq] at h
  split at h
  · rename_i hdeclares
    cases hlabel : b.labels.head? with
    | none => simp [hlabel] at h
    | some name =>
        simp only [hlabel, Except.ok.injEq] at h
        -- a block that declares and has a name declares an input or else an output
        by_cases hinput : b.isInput = true
        · refine ⟨[Input.ofBlock name b], [], ⟨?_, ?_⟩, ?_⟩
          · rw [List.filter_cons_of_pos hinput]
            exact .cons (Input.declaredBy_ofBlock hlabel) .nil
          · rw [List.filter_cons_of_neg (by simp [isOutput_of_isInput hinput])]
            exact .nil
          · rw [← h, if_pos hinput]
        · have houtput : b.isOutput kind = true := by simpa [hinput] using hdeclares
          refine ⟨[], [Output.ofBlock name b], ⟨?_, ?_⟩, ?_⟩
          · rw [List.filter_cons_of_neg hinput]
            exact .nil
          · rw [List.filter_cons_of_pos houtput]
            exact .cons ⟨name, hlabel, rfl⟩ .nil
          · rw [← h, if_neg hinput]
  · -- any other block is passed over
    rename_i hdeclares
    rw [Bool.or_eq_true, not_or] at hdeclares
    refine ⟨[], [], ⟨?_, ?_⟩, ?_⟩
    · rw [List.filter_cons_of_neg hdeclares.1]
      exact .nil
    · rw [List.filter_cons_of_neg hdeclares.2]
      exact .nil
    · rw [← Except.ok.inj h]
      simp [extended]

theorem exists_withBlock_eq_error_iff :
    (∃ u, s.withBlock kind b = .error u) ↔ b.Unnamed kind := by
  rw [withBlock_eq, Hcl.Block.Unnamed, ← Bool.or_eq_true]
  by_cases hdeclares : (b.isInput || b.isOutput kind) = true
  · rw [if_pos hdeclares]
    cases hlabels : b.labels with
    | nil => simp [hdeclares]
    | cons name rest => simp
  · rw [if_neg hdeclares]
    simp [hdeclares]

/-- Blocks that are taken add what they declare, in their order. -/
theorem lists_of_withBlocks (h : s.withBlocks kind blocks = .ok s') :
    ∃ inputs outputs, Lists kind blocks inputs outputs ∧ s' = s.extended inputs outputs := by
  induction blocks generalizing s with
  | nil =>
      refine ⟨[], [], .nil, ?_⟩
      rw [withBlocks, Except.ok.injEq] at h
      rw [← h]
      simp [extended]
  | cons b rest ih =>
      rw [withBlocks, exceptBind_eq_ok] at h
      obtain ⟨mid, hfirst, hrest⟩ := h
      obtain ⟨inputs, outputs, hlists, rfl⟩ := lists_of_withBlock hfirst
      obtain ⟨inputs', outputs', hlists', rfl⟩ := ih hrest
      refine ⟨inputs ++ inputs', outputs ++ outputs', hlists.append hlists', ?_⟩
      exact extended_extended s inputs inputs' outputs outputs'

/-- Blocks cannot be taken exactly if one of them has no name for what it declares. -/
theorem exists_withBlocks_eq_error_iff :
    (∃ u, s.withBlocks kind blocks = .error u) ↔ ∃ b ∈ blocks, b.Unnamed kind := by
  induction blocks generalizing s with
  | nil => simp [withBlocks]
  | cons b rest ih =>
      simp only [withBlocks, exceptBind_eq_error, List.exists_mem_cons_iff]
      rw [← exists_withBlock_eq_error_iff (s := s)]
      cases hfirst : s.withBlock kind b with
      | error u => simp
      | ok mid =>
          rw [← ih (s := mid)]
          simp

end Schema
end HpcBlueprint
