/-
  Trees that differ at hidden places.

  Two trees may differ at some places, whatever stands there (`Apart`).  A path that comes by
  none of these leads to the same place in both trees.  What is done along such paths ends the
  same way in both, and leaves trees behind that differ at no other places.  Where the same
  steps write different contents, the trees come to differ in these contents, too.
-/
import HpcBlueprint.Proofs.Files.Agreement
import HpcBlueprint.Proofs.Files.Names
import HpcBlueprint.Proofs.Files.Way

namespace HpcBlueprint

/-! ## Paths that bypass places -/

namespace Path

variable {hidden : Location → Prop} {here : Location} {path base dir rest name p : String}

/-- Where a path starts, seen from some place. -/
def origin (here : Location) (path : String) : Location := if isAbsolute path then [] else here

/-- Where a path leads by its pieces alone, seen from some place. -/
def leads (here : Location) (path : String) : Location := follow (origin here path) (pieces path)

theorem leads_eq_lexical (here : Location) (path : String) :
    leads here path = FileSystem.lexical ⟨[], here⟩ path := rfl

/-- None of the places that a path comes by is hidden, up to where it leads. -/
def Bypasses (hidden : Location → Prop) (here : Location) (path : String) : Prop :=
  ∀ front, front <+: pieces path → ¬ hidden (follow (origin here path) front)

/-- Only the beginnings of a path's pieces are to be looked at. -/
theorem bypasses_iff :
    Bypasses hidden here path ↔
      ∀ front ∈ (pieces path).inits, ¬ hidden (follow (origin here path) front) := by
  simp only [Bypasses, List.mem_inits]

instance [DecidablePred hidden] : Decidable (Bypasses hidden here path) :=
  decidable_of_iff _ bypasses_iff.symm

theorem leads_join_name (hname : IsName name) (here : Location) (dir : String) :
    leads here (join dir name) = leads here dir ++ [name] := by
  rw [leads_eq_lexical, leads_eq_lexical, FileSystem.lexical_join_name hname]

namespace Bypasses

theorem not_hidden (h : Bypasses hidden here path) : ¬ hidden (leads here path) :=
  h _ (List.prefix_refl _)

theorem withoutSlashes (h : Bypasses hidden here path) :
    Bypasses hidden here (FileSystem.withoutSlashes path) := by
  obtain ⟨habsolute, n, hpieces⟩ := FileSystem.pieces_withoutSlashes path
  intro front hfront
  rw [origin, habsolute]
  refine h front ?_
  rw [hpieces]
  exact hfront.trans (List.prefix_append _ _)

theorem root (h : ¬ hidden []) (here : Location) : Bypasses hidden here "/" := by
  have habsolute : isAbsolute "/" = true := by decide
  have hpieces : pieces "/" = List.replicate 2 "" := by decide
  intro front hfront
  -- no piece of a slash leads anywhere
  have hempty : front = List.replicate front.length "" :=
    List.eq_replicate_iff.mpr ⟨rfl, fun piece hpiece =>
      List.eq_of_mem_replicate (hpieces ▸ hfront.subset hpiece)⟩
  rw [origin, habsolute, if_pos rfl, hempty, follow_replicate_empty]
  exact h

/-- What is passed on the way to a path comes by no other places, but perhaps the root. -/
theorem of_passed (h : Bypasses hidden here path) (hroot : ¬ hidden []) (hp : Passed path p) :
    Bypasses hidden here p := by
  rcases hp with rfl | ⟨hne, hstarts⟩
  · exact .root hroot here
  · intro front hfront
    rw [origin, isAbsolute_eq_of_prefix hne hstarts]
    exact h front (hfront.trans hstarts)

/-- A joined path comes by what its first part comes by, and from there goes the way of its
    second part. -/
theorem join (h : Bypasses hidden here base) (hrest : isAbsolute rest = false)
    (hnext : ∀ front, front <+: pieces rest → ¬ hidden (follow (leads here base) front)) :
    Bypasses hidden here (join base rest) := by
  intro front hfront
  by_cases hbase : base = ""
  · -- an empty base adds nothing
    subst hbase
    have hjoin : Path.join "" rest = rest := by
      rw [Path.join, hrest, if_neg Bool.false_ne_true]
      exact String.empty_append
    have horigin : origin here (Path.join "" rest) = leads here "" := by
      rw [hjoin, origin, hrest]
      rfl
    rw [horigin]
    exact hnext front (hjoin ▸ hfront)
  · -- `first` has the pieces of the base, but for the empty one behind a last slash
    obtain ⟨first, hjoin, hfirst⟩ := pieces_join hbase hrest
    have horigin : origin here (Path.join base rest) = origin here base := by
      rw [origin, origin, isAbsolute_join hbase hrest]
    rw [horigin]
    rw [hjoin] at hfront
    -- a beginning of the joined path ends in the base or goes beyond it
    rcases Text.prefix_append_cases hfront with hbefore | ⟨piece, more, rfl, hbehind⟩
    · refine h front (hbefore.trans ?_)
      rcases hfirst with hfirst | hfirst
      · exact hfirst ▸ List.prefix_refl _
      · exact hfirst ▸ List.prefix_append _ _
    · have hleads : leads here base = follow (origin here base) first := by
        rcases hfirst with hfirst | hfirst
        · rw [leads, hfirst]
        · rw [leads, hfirst, follow_append]
          rfl
      rw [follow_append, ← hleads]
      exact hnext _ hbehind

theorem join_name (h : Bypasses hidden here dir) (hname : IsName name)
    (hnew : ¬ hidden (leads here dir ++ [name])) : Bypasses hidden here (Path.join dir name) := by
  refine h.join hname.1 fun front hfront => ?_
  rw [hname.2.1, List.prefix_cons_iff] at hfront
  rcases hfront with rfl | ⟨more, rfl, hmore⟩
  · exact h.not_hidden
  · rw [List.prefix_nil.mp hmore, follow_name hname]
    exact hnew

end Bypasses

/-- A path at which there is room for something new: nothing is hidden there or below, nor on
    the way. -/
structure Clear (hidden : Location → Prop) (here : Location) (path : String) : Prop where
  bypasses : Bypasses hidden here path
  parent : ¬ hidden (leads here path).dropLast
  below : ∀ l, leads here path <+: l → ¬ hidden l

namespace Clear

theorem join_name (h : Bypasses hidden here dir) (hname : IsName name)
    (below : ∀ l, leads here dir ++ [name] <+: l → ¬ hidden l) :
    Clear hidden here (join dir name) := by
  refine ⟨h.join_name hname (below _ (List.prefix_refl _)), ?_, ?_⟩
  · rw [leads_join_name hname, List.dropLast_concat]
    exact h.not_hidden
  · rw [leads_join_name hname]
    exact below

/-- There is room, too, where a rest leads that never leads above. -/
theorem join_stays (h : Clear hidden here base) (stays : Stays rest) :
    Clear hidden here (join base rest) := by
  have hbelow : leads here base <+: leads here (join base rest) := by
    rw [leads_eq_lexical, leads_eq_lexical, FileSystem.prefix_lexical_join_iff]
    exact stays.confined _
  refine ⟨h.bypasses.join stays.1 fun front hfront => h.below _ (stays.prefix_follow hfront _),
    ?_, fun l hl => h.below l (hbelow.trans hl)⟩
  -- it leads either right there or to a place whose parent is not above
  obtain ⟨more, hmore⟩ := hbelow
  rw [← hmore]
  by_cases hnil : more = []
  · rw [hnil, List.append_nil]
    exact h.parent
  · rw [List.dropLast_append_of_ne_nil hnil]
    exact h.below _ (List.prefix_append _ _)

end Clear

end Path

namespace FileSystem

variable {hidden : Location → Prop} {here loc : Location} {R : Content → Content → Prop}
  {fs fs' : FileSystem} {path : String} {n n' : FileNode}

/-! ## Trees that differ at hidden places -/

/-- The trees are alike at all places that are not hidden, and paths start at the same place. -/
structure Apart (hidden : Location → Prop) (here : Location) (R : Content → Content → Prop)
    (fs fs' : FileSystem) : Prop where
  left : fs.workingDir = here
  right : fs'.workingDir = here
  alike : ∀ l, ¬ hidden l → Alike R (fs.node? l) (fs'.node? l)

namespace Apart

theorem mono {R' : Content → Content → Prop} (hR : ∀ c c', R c c' → R' c c')
    (h : Apart hidden here R fs fs') : Apart hidden here R' fs fs' := by
  refine ⟨h.left, h.right, fun l hl => ?_⟩
  have halike := h.alike l hl
  generalize fs.node? l = x, fs'.node? l = y at halike
  cases halike with
  | missing => exact .missing
  | directory => exact .directory
  | file contents => exact .file (hR _ _ contents)

/-- Along a path that bypasses the hidden places, the trees agree. -/
theorem agreeAlong (h : Apart hidden here R fs fs') (hpath : Path.Bypasses hidden here path) :
    AgreeAlong R path fs fs' := by
  have hstart : fs.start path = Path.origin here path := by
    rw [start, Path.origin, h.left]
  refine ⟨h.right.trans h.left.symm, fun front hfront => h.alike _ ?_⟩
  rw [hstart]
  exact hpath front hfront

/-- What is found in one of the trees stands where the path leads. -/
theorem eq_leads (h : Apart hidden here R fs fs') (hlocate : fs.locate path = .ok loc) :
    loc = Path.leads here path := by
  rw [locate_eq_ok hlocate, lexical, start, h.left]
  rfl

/-! ## Single changes -/

theorem put (h : Apart hidden here R fs fs') (hne : loc ≠ []) (hn : Alike R (some n) (some n')) :
    Apart hidden here R (fs.put loc n) (fs'.put loc n') := by
  refine ⟨h.left, h.right, fun l hl => ?_⟩
  rw [node?_put hne, node?_put hne]
  split
  · exact hn
  · exact h.alike l hl

theorem remove (h : Apart hidden here R fs fs') (hne : loc ≠ []) :
    Apart hidden here R (fs.remove loc) (fs'.remove loc) := by
  refine ⟨h.left, h.right, fun l hl => ?_⟩
  rw [node?_remove hne, node?_remove hne]
  split
  · exact .missing
  · exact h.alike l hl

theorem removeTree (h : Apart hidden here R fs fs') (loc : Location) :
    Apart hidden here R (fs.removeTree loc) (fs'.removeTree loc) := by
  refine ⟨h.left, h.right, fun l hl => ?_⟩
  rw [node?_removeTree, node?_removeTree]
  split
  · exact .missing
  · exact h.alike l hl

theorem createAt (refl : ∀ c, R c c) (h : Apart hidden here R fs fs')
    (hparent : ¬ hidden loc.dropLast) (hloc : ¬ hidden loc) :
    SameOutcome (Apart hidden here R) (fs.createAt loc) (fs'.createAt loc) := by
  have hdir := h.alike _ hparent
  have hplace := h.alike _ hloc
  have hempty : Alike R (some (.file (.text ""))) (some (.file (.text ""))) := .file (refl _)
  rw [FileSystem.createAt, FileSystem.createAt]
  generalize fs.node? loc.dropLast = x, fs'.node? loc.dropLast = y at hdir
  generalize hnode : fs.node? loc = z, fs'.node? loc = z' at hplace
  cases hdir with
  | missing => exact .error _
  | file contents => exact .error _
  | directory =>
      cases hplace with
      | directory => exact .error _
      | missing =>
          have hnew : fs.node? loc ≠ some .directory := by simp [hnode]
          exact .ok (h.put (ne_nil_of_node?_ne hnew) hempty)
      | file contents => exact .ok (h.put (ne_nil_of_node?_ne (node?_ne_of_file hnode)) hempty)

theorem writeAt {c c' : Content} (h : Apart hidden here R fs fs') (hloc : ¬ hidden loc)
    (contents : R c c') :
    SameOutcome (Apart hidden here R) (fs.writeAt loc c) (fs'.writeAt loc c') := by
  have hplace := h.alike _ hloc
  rw [FileSystem.writeAt, FileSystem.writeAt]
  generalize hnode : fs.node? loc = x, fs'.node? loc = y at hplace
  cases hplace with
  | missing => exact .error _
  | directory => exact .error _
  | file old => exact .ok (h.put (ne_nil_of_node?_ne (node?_ne_of_file hnode)) (.file contents))

theorem renameAt {source target : Location} (h : Apart hidden here R fs fs')
    (hsource : ¬ hidden source) (htarget : ¬ hidden target) :
    SameOutcome (Apart hidden here R) (fs.renameAt source target)
      (fs'.renameAt source target) := by
  have hmoved := h.alike _ hsource
  have hplace := h.alike _ htarget
  rw [FileSystem.renameAt, FileSystem.renameAt]
  generalize hnode : fs.node? source = x, fs'.node? source = y at hmoved
  generalize hnode' : fs.node? target = z, fs'.node? target = z' at hplace
  cases hmoved with
  | missing => exact .error _
  | directory => exact .error _
  | file contents =>
      have hremoved := h.remove (ne_nil_of_node?_ne (node?_ne_of_file hnode))
      cases hplace with
      | directory => exact .error _
      | missing =>
          have hnew : fs.node? target ≠ some .directory := by simp [hnode']
          exact .ok (hremoved.put (ne_nil_of_node?_ne hnew) (.file contents))
      | file old =>
          have hold := ne_nil_of_node?_ne (node?_ne_of_file hnode')
          exact .ok (hremoved.put hold (.file contents))

/-! ## Directories -/

theorem makeDirectory (h : Apart hidden here R fs fs') (hpath : Path.Bypasses hidden here path) :
    SameOutcome (Apart hidden here R) (fs.makeDirectory path) (fs'.makeDirectory path) := by
  rw [FileSystem.makeDirectory, FileSystem.makeDirectory, (h.agreeAlong hpath).locate]
  cases hlocate : fs.locate path with
  | error e => exact .error e
  | ok loc =>
      have hplace := h.alike loc (h.eq_leads hlocate ▸ hpath.not_hidden)
      dsimp only [bind, Except.bind]
      generalize hnode : fs.node? loc = x, fs'.node? loc = y at hplace
      cases hplace with
      | missing =>
          have hnew : fs.node? loc ≠ some .directory := by simp [hnode]
          exact .ok (h.put (ne_nil_of_node?_ne hnew) .directory)
      | directory => exact .error _
      | file contents => exact .error _

theorem makeDirectories (h : Apart hidden here R fs fs') {paths : List String}
    (hpaths : ∀ path ∈ paths, Path.Bypasses hidden here path) :
    SameEnd Eq (Apart hidden here R) (fs.makeDirectories paths) (fs'.makeDirectories paths) := by
  -- the paths come innermost first, and the directories of the rest are made before
  induction paths with
  | nil => exact .ok rfl h
  | cons path parents ih =>
      obtain ⟨hpath, hparents⟩ := List.forall_mem_cons.mp hpaths
      have hfirst := h.makeDirectory hpath.withoutSlashes
      have hsame := (h.agreeAlong hpath).isDirectory
      have hmaking := ih hparents
      rw [FileSystem.makeDirectories, FileSystem.makeDirectories, hsame]
      generalize fs.makeDirectory (withoutSlashes path) = x,
        fs'.makeDirectory (withoutSlashes path) = y at hfirst
      cases hfirst with
      | ok made => exact .ok rfl made
      | error e =>
          cases e with
          | notFound =>
              -- the parents are made, and then the directory is tried again
              dsimp only
              generalize fs.makeDirectories parents = r, fs'.makeDirectories parents = r' at hmaking
              cases hmaking with
              | error e hnext => exact .error e hnext
              | @ok _ _ next next' _ hnext =>
                  have hlast := hnext.makeDirectory hpath.withoutSlashes
                  have hthere := (hnext.agreeAlong hpath).isDirectory
                  dsimp only
                  rw [hthere]
                  generalize next.makeDirectory (withoutSlashes path) = x,
                    next'.makeDirectory (withoutSlashes path) = y at hlast
                  cases hlast with
                  | ok done => exact .ok rfl done
                  | error e =>
                      dsimp only
                      split
                      · exact .ok rfl hnext
                      · exact .error e hnext
          | _ =>
              dsimp only
              split
              · exact .ok rfl h
              · exact .error _ h

end Apart

end FileSystem

/-! ## Steps -/

namespace FileStep

variable {hidden : Location → Prop} {here : Location} {R : Content → Content → Prop}
  {fs fs' : FileSystem} {step step' : FileStep}

/-- The same step, but for the content that it writes. -/
inductive SameBut (R : Content → Content → Prop) : FileStep → FileStep → Prop
  | create (path : String) : SameBut R (.create path) (.create path)
  | write (path : String) {c c' : Content} (contents : R c c') :
      SameBut R (.write path c) (.write path c')
  | rename (source target : String) : SameBut R (.rename source target) (.rename source target)

/-- A step that comes by no hidden place; a file is made only in a directory. -/
def Bypasses (hidden : Location → Prop) (here : Location) : FileStep → Prop
  | .create path => Path.Bypasses hidden here path ∧ ¬ hidden (Path.leads here path).dropLast
  | .write path _ => Path.Bypasses hidden here path
  | .rename source target => Path.Bypasses hidden here source ∧ Path.Bypasses hidden here target

/-- A step ends alike in two trees, and leaves them as far apart as they were. -/
theorem apart_apply (refl : ∀ c, R c c) (h : FileSystem.Apart hidden here R fs fs')
    (same : SameBut R step step') (bypasses : step.Bypasses hidden here) :
    SameOutcome (FileSystem.Apart hidden here R) (step.apply fs) (step'.apply fs') := by
  -- each step first looks its paths up, which leads to the same places in both trees
  cases same with
  | create path =>
      obtain ⟨hpath, hparent⟩ := bypasses
      have hwritable : fs'.writable path = fs.writable path := by
        rw [FileSystem.writable, FileSystem.writable, (h.agreeAlong hpath).locate,
          (h.agreeAlong hpath.withoutSlashes).locate]
      rw [apply, apply, hwritable]
      cases hloc : fs.writable path with
      | error e => exact .error e
      | ok loc =>
          have hplace := h.eq_leads (FileSystem.writable_eq_ok hloc)
          exact h.createAt refl (hplace ▸ hparent) (hplace ▸ hpath.not_hidden)
  | write path contents =>
      rw [apply, apply, (h.agreeAlong bypasses).locate]
      cases hloc : fs.locate path with
      | error e => exact .error e
      | ok loc => exact h.writeAt (h.eq_leads hloc ▸ bypasses.not_hidden) contents
  | rename source target =>
      obtain ⟨hsource, htarget⟩ := bypasses
      rw [apply, apply, (h.agreeAlong hsource).locate, (h.agreeAlong htarget).locate]
      cases hloc : fs.locate source with
      | error e => exact .error e
      | ok loc =>
          cases hloc' : fs.locate target with
          | error e => exact .error e
          | ok loc' =>
              exact h.renameAt (h.eq_leads hloc ▸ hsource.not_hidden)
                (h.eq_leads hloc' ▸ htarget.not_hidden)

end FileStep

namespace FileSystem

variable {hidden : Location → Prop} {here : Location} {R : Content → Content → Prop}
  {fs fs' : FileSystem} {path : String}

/-- Steps that differ in what they write end alike in two trees: a step that fails in one tree
    fails in the other. -/
theorem Apart.applyAll (refl : ∀ c, R c c) {steps steps' : List FileStep}
    (same : List.Forall₂ (FileStep.SameBut R) steps steps')
    (bypasses : ∀ step ∈ steps, step.Bypasses hidden here) (h : Apart hidden here R fs fs') :
    SameEnd Eq (Apart hidden here R) (fs.applyAll steps) (fs'.applyAll steps') := by
  -- on the pairs of steps: what the first pair leaves is where the rest begins
  induction same generalizing fs fs' with
  | nil => exact .ok rfl h
  | @cons step step' rest rest' hstep hrest ih =>
      obtain ⟨hfirst, hmore⟩ := List.forall_mem_cons.mp bypasses
      have happly := FileStep.apart_apply refl h hstep hfirst
      rw [FileSystem.applyAll, FileSystem.applyAll]
      generalize step.apply fs = x, step'.apply fs' = y at happly
      cases happly with
      | error e => exact .error e h
      | ok next => exact ih hmore next

/-- A file is written in both trees or in none. -/
theorem Apart.writeContent (refl : ∀ c, R c c) (h : Apart hidden here R fs fs')
    (bypasses : (FileStep.create path).Bypasses hidden here) (content : Content) :
    SameOutcome (Apart hidden here R) (fs.writeContent path content)
      (fs'.writeContent path content) := by
  have hcreate := FileStep.apart_apply refl h (.create path) bypasses
  exact hcreate.bind fun made made' hmade =>
    FileStep.apart_apply refl hmade (.write path (refl content)) bypasses.1

/-! ## Proper trees -/

/-- Proper trees that differ in nothing but what stands at hidden places. -/
structure Twins (hidden : Location → Prop) (here : Location) (fs fs' : FileSystem) : Prop
    extends Apart hidden here Eq fs fs' where
  proper : fs.Proper
  proper' : fs'.Proper

namespace Twins

theorem removeTree (h : Twins hidden here fs fs') (loc : Location) :
    Twins hidden here (fs.removeTree loc) (fs'.removeTree loc) :=
  ⟨h.toApart.removeTree loc, h.proper.removeTree loc, h.proper'.removeTree loc⟩

theorem makeDirectory (h : Twins hidden here fs fs') (hpath : Path.Bypasses hidden here path) :
    SameOutcome (Twins hidden here) (fs.makeDirectory path) (fs'.makeDirectory path) := by
  -- that both trees stay proper is a fact about each of them alone
  have hmade := h.toApart.makeDirectory hpath
  have hproper : ∀ made, fs.makeDirectory path = .ok made → made.Proper :=
    fun _ => h.proper.makeDirectory
  have hproper' : ∀ made, fs'.makeDirectory path = .ok made → made.Proper :=
    fun _ => h.proper'.makeDirectory
  generalize fs.makeDirectory path = x, fs'.makeDirectory path = y at hmade hproper hproper'
  cases hmade with
  | error e => exact .error e
  | ok made => exact .ok ⟨made, hproper _ rfl, hproper' _ rfl⟩

theorem makeDirectories (h : Twins hidden here fs fs') {paths : List String}
    (hpaths : ∀ path ∈ paths, Path.Bypasses hidden here path) :
    SameEnd Eq (Twins hidden here) (fs.makeDirectories paths) (fs'.makeDirectories paths) := by
  obtain ⟨houtcome, hmade⟩ := sameEnd_iff.mp (h.toApart.makeDirectories hpaths)
  exact sameEnd_iff.mpr
    ⟨houtcome, hmade, h.proper.makeDirectories paths, h.proper'.makeDirectories paths⟩

theorem writeContent (h : Twins hidden here fs fs')
    (bypasses : (FileStep.create path).Bypasses hidden here) (content : Content) :
    SameOutcome (Twins hidden here) (fs.writeContent path content)
      (fs'.writeContent path content) := by
  have hwritten := h.toApart.writeContent (fun _ => rfl) bypasses content
  have hproper : ∀ next, fs.writeContent path content = .ok next → next.Proper :=
    fun _ => h.proper.writeContent
  have hproper' : ∀ next, fs'.writeContent path content = .ok next → next.Proper :=
    fun _ => h.proper'.writeContent
  generalize fs.writeContent path content = x, fs'.writeContent path content = y
    at hwritten hproper hproper'
  cases hwritten with
  | error e => exact .error e
  | ok written => exact .ok ⟨written, hproper _ rfl, hproper' _ rfl⟩

end Twins

end FileSystem
end HpcBlueprint
