import ComponentWiring.FileBuild
import ComponentWiring.Proofs.BuildReports
import ComponentWiring.Proofs.EmissionFaults
import ComponentWiring.Proofs.MadeDirectories

/-! # Builds over file trees

The artifacts of a build stand in the tree from which its documents are read. Emissions leave the
documents as they are, and the last one covers all that was delivered.

* `FileBuild.chronicle`: what happens in a build over a file tree.
* `FileBuild.Stands`: a workspace in which the documents are as they were.
* `FileBuild.Artifacts`: a tree with the artifacts of declarations.
* `FileBuild.artifacts_runFrom`: passes over documents leave the artifacts of what was accepted.
* `FileBuild.run_of_documents`: what a build over valid documents without a cycle leaves.
-/

namespace ComponentWiring
set_option autoImplicit false

open Build Pipeline Happening

/-! ## Chronicles of builds over file trees -/

namespace FileBuild

/-- The workspace in which a build over documents that were found starts. -/
def start (settings : Settings) (tree : File.Tree) (documents : List String) :
    Workspace File.Tree :=
  { Workspace.on tree with events := Scan.foundEvents documents }.log
    (startEvent settings.emit documents.length)

/-- What happens in a build over documents that were found. -/
def chronicle (settings : Settings) (timestamp : String) (tree : File.Tree)
    (documents : List String) : List Happening :=
  Build.chronicle .standard (effects settings.emit) timestamp (documents.map Scan.delivery) .fresh
    (start settings tree documents)

section Found
variable {settings : Settings} {timestamp : String} {tree : File.Tree} {documents : List String}
  {system : System}

theorem run_of_undiscovered {e : Error}
    (h : (Scan.discover tree settings.scan system.refusals).value = .error e) :
    (run settings timestamp tree system).1 = .error e := by
  unfold run
  dsimp only
  rw [h]

theorem run_of_discovered
    (h : (Scan.discover tree settings.scan system.refusals).value = .ok documents) :
    run settings timestamp tree system =
      ((Build.run .standard (effects settings.emit system.disk) timestamp
          (documents.map (Scan.deliveryBy system.reading)) .fresh
          (start settings tree documents)).1,
        (Build.run .standard (effects settings.emit system.disk) timestamp
          (documents.map (Scan.deliveryBy system.reading)) .fresh
          (start settings tree documents)).2.2) := by
  unfold run start
  dsimp only
  rw [h, Scan.events_of_discover h]
  rfl

variable {refusals : Scan.Refusals}
  (h : (Scan.discover tree settings.scan refusals).value = .ok documents)
include h

theorem run_of_fails (hfails : ∃ x ∈ chronicle settings timestamp tree documents, x.Fails) :
    ∃ e, (run settings timestamp tree { refusals }).1 = .error e := by
  rw [run_of_discovered h]
  exact (told_run _ _ _ _ _).failed hfails

theorem run_of_not_fails
    (hfails : ∀ x ∈ chronicle settings timestamp tree documents, ¬ x.Fails) :
    (run settings timestamp tree { refusals }).1 =
      .ok (summarized timestamp (batches (chronicle settings timestamp tree documents))) := by
  rw [run_of_discovered h]
  exact Build.run_of_not_fails _ _ _ _ _ hfails

end Found

/-! ## Documents between emissions -/

/-- A workspace whose tree grew out of another one, with the documents as they were there and no
directories in new places but those of emissions. -/
structure Stands (emit : Settings.Emit) (tree : File.Tree) (documents : List String)
    (w : Workspace File.Tree) : Prop where
  grows : tree.Grows w.disk
  handled : Emission.Handled emit id w
  documents : ∀ path ∈ documents, ∀ place node, tree.find path = .ok (place, node) →
    w.disk.node? place = some node
  clear : ∀ place, Emission.Clear emit tree place → Emission.Clear emit w.disk place

section Stands
variable {settings : Settings} {emit : Settings.Emit} {tree : File.Tree} {documents : List String}
  {w w' : Workspace File.Tree} {order : List Identity} {world : Workspace File.Tree}
  {hs : List Happening}

theorem Stands.keep (h : Stands emit tree documents w) (hdisk : w'.disk = w.disk)
    (hhandled : w'.handled = w.handled) : Stands emit tree documents w' where
  grows := hdisk ▸ h.grows
  handled := by
    intro a ha
    rw [hhandled] at ha
    exact hdisk ▸ h.handled a ha
  documents := hdisk ▸ h.documents
  clear := hdisk ▸ h.clear

/-- In a workspace like that a document is what it was. -/
theorem Stands.batch_eq (h : Stands emit tree documents w) {path : String}
    (hpath : path ∈ documents) {batch : Batch} (hbatch : Scan.batch tree path = .ok batch) :
    Scan.batch w.disk path = .ok batch := by
  cases hfind : tree.find path with
  | error fault =>
    have htext : tree.readText path = .error fault := by rw [File.Tree.readText, hfind]
    rw [Scan.batch, Scan.plainly, htext] at hbatch
    cases hbatch
  | ok found =>
    obtain ⟨place, node⟩ := found
    have hnode := h.documents path hpath place node hfind
    have htext : w.disk.readText path = tree.readText path := by
      rw [File.Tree.readText, File.Tree.readText, h.grows.find_eq hfind hnode, hfind]
    rw [Scan.batch, Scan.plainly, htext]
    exact hbatch

theorem emit_eq (henabled : emit.enabled = true) (order : List Identity) (w : Workspace File.Tree) :
    (effects emit).emit order w = Emission.toDisk File.Tree.disk emit order w :=
  if_pos henabled

/-- An emission of a build does to the tree what emissions do. -/
theorem Stands.emitted (h : Stands emit tree documents w) (hproper : tree.Proper)
    (henabled : emit.enabled = true) (order : List Identity) :
    Emission.Handled emit id ((effects emit).emit order w).2 ∧
      Emission.Emitted emit order w.disk ((effects emit).emit order w).1
        ((effects emit).emit order w).2.disk := by
  rw [emit_eq henabled]
  exact Emission.emitted_toDisk File.Tree.shows_disk order w (h.grows.proper hproper) h.handled

variable (hproper : tree.Proper) (henabled : emit.enabled = true)
  (hapart : ∀ path ∈ documents, ∀ place node, tree.find path = .ok (place, node) →
    tree.aimOf emit.manifestPath ≠ some place)
include hproper henabled hapart

theorem Stands.after_emit (h : Stands emit tree documents w) (order : List Identity) :
    Stands emit tree documents ((effects emit).emit order w).2 := by
  obtain ⟨hhandled, hemitted⟩ := h.emitted hproper henabled order
  constructor
  case grows => exact h.grows.trans hemitted.grows
  case handled => exact hhandled
  case documents =>
    intro path hpath place node hfind
    refine hemitted.node?_eq (h.documents path hpath place node hfind) ?_
    rw [h.grows.aimOf_eq]
    exact hapart path hpath place node hfind
  case clear => exact fun place hplace => hemitted.clear (h.clear place hplace)

theorem Stands.leads (h : Stands emit tree documents world)
    (hleads : (effects emit).Leads world hs w) : Stands emit tree documents w :=
  hleads.keeps (fun _ _ h => h.keep rfl rfl) (fun _ _ h => h.keep rfl rfl)
    (fun order _ _ h => h.after_emit hproper henabled hapart order) h

end Stands

/-! ## Artifacts of passes -/

/-- A tree with the artifacts of declarations, if there are any. -/
def Artifacts (emit : Settings.Emit) (ds : List Declaration) (tree : File.Tree) : Prop :=
  ds = [] ∨ ∃ order, Declaration.Listed ds order ∧
    tree.readText emit.manifestPath = .ok (Artifact.manifest order) ∧
    Emission.Housed emit tree ∧ ∀ a ∈ order, tree.exists? (Artifact.registrationPath emit a) = true

/-- Without calls the tree stays, and what was handled. -/
theorem disk_eq_of_leads {emit : Settings.Emit} {world w : Workspace File.Tree}
    (h : (effects emit).Leads world [] w) : w.disk = world.disk ∧ w.handled = world.handled := by
  refine h.keeps (I := fun w => w.disk = world.disk ∧ w.handled = world.handled) ?_ ?_ ?_ ⟨rfl, rfl⟩
  · intro event w hw
    exact hw
  · intro violation w hw
    exact hw
  · intro order w hmem
    cases hmem

section Passes
variable {emit : Settings.Emit} {tree : File.Tree} {documents : List String}
  (hproper : tree.Proper) (henabled : emit.enabled = true)
  (hapart : ∀ path ∈ documents, ∀ place node, tree.find path = .ok (place, node) →
    tree.aimOf emit.manifestPath ≠ some place)
include hproper henabled hapart

/-- A pass that is no failure leaves the artifacts of all that was accepted. -/
theorem artifacts_leads {ds batch : List Declaration} {world w : Workspace File.Tree}
    {hs : List Happening} (hds : (ds.map (·.identity)).Nodup)
    (hstands : Stands emit tree documents world)
    (hartifacts : Artifacts emit ds world.disk) (hverdict : (verdict ds batch).isFailure = false)
    (hleads : (effects emit).Leads world hs w)
    (hcalls : hs.filterMap call? = (verdict ds batch).calls)
    (hok : ∀ h ∈ hs, ¬ h.Fails) : Artifacts emit (acceptedAfter ds (.pass batch)) w.disk := by
  have hafter := nodup_acceptedAfter hds batch
  have hjudged := judged_verdict ds batch
  generalize verdict ds batch = r at hverdict hcalls hjudged
  generalize acceptedAfter ds (.pass batch) = next at hafter hjudged ⊢
  cases hjudged with
  | invalid => cases hverdict
  | cycle => cases hverdict
  | noWork =>
    obtain rfl := hleads.eq_nil_of_calls hcalls
    rw [(disk_eq_of_leads hleads).1]
    exact hartifacts
  | emitted order _ horder =>
    obtain ⟨w', rfl, hbefore, hrest⟩ := hleads.exists_emission hcalls
    have hstands' := hstands.leads hproper henabled hapart hbefore
    obtain ⟨-, hemitted⟩ := hstands'.emitted hproper henabled order
    rw [(disk_eq_of_leads hrest).1]
    refine Or.inr ⟨order, Builder.listed_of_outcome hafter horder, ?_⟩
    cases hresult : ((effects emit).emit order w').1 with
    | error e =>
      rw [hresult] at hok
      exact absurd trivial (hok _ (List.mem_singleton_self _))
    | ok summary =>
      rw [hresult] at hemitted
      obtain ⟨hmanifest, hexists⟩ := hemitted.artifacts
      refine ⟨hmanifest, ?_, hexists⟩
      rw [emit_eq henabled] at hresult ⊢
      exact Emission.housed_toDisk File.Tree.shows_disk (fun _ _ => rfl)
        (hstands'.grows.proper hproper) hresult

/-- A pass that is no failure has a failed emission, or it leaves the documents as they were and the
artifacts of all that was accepted. -/
theorem artifacts_pass {p : Pipeline} {ds : List Declaration}
    (hp : p.builder = Builder.empty.addAll ds) (hds : (ds.map (·.identity)).Nodup)
    (batch : List Declaration) (world : Workspace File.Tree × List Happening)
    (hstands : Stands emit tree documents world.1)
    (hartifacts : Artifacts emit ds world.1.disk)
    (hverdict : (verdict ds batch).isFailure = false) :
    (∃ e p' w, pass .standard (effects emit).noting batch p world = (.error e, p', w) ∧
      ∃ order fault, .emission order (.error fault) ∈ w.2) ∨
    ∃ hs p' w, pass .standard (effects emit).noting batch p world =
        (.ok (verdict ds batch), p', w, world.2 ++ hs) ∧
      p'.builder = Builder.empty.addAll (acceptedAfter ds (.pass batch)) ∧
      batches hs = [] ∧ (∀ x ∈ hs, ¬ x.Fails) ∧ Stands emit tree documents w ∧
      Artifacts emit (acceptedAfter ds (.pass batch)) w.disk := by
  obtain ⟨hs, hnotes, hleads, hcalls, hbuilder, hend⟩ := told_pass (effects emit) hp hds batch world
  generalize pass .standard (effects emit).noting batch p world = passed
    at hnotes hleads hbuilder hend ⊢
  obtain ⟨answer, p', w, notes⟩ := passed
  obtain rfl : notes = world.2 ++ hs := hnotes
  rcases hend with ⟨hfails, e, rfl⟩ | ⟨hfails, rfl, -⟩
  · obtain ⟨order, fault, hmem⟩ := hleads.exists_failed_emission hfails
    exact .inl ⟨e, p', _, rfl, order, fault, List.mem_append_right _ hmem⟩
  · exact .inr ⟨hs, p', w, rfl, hbuilder, hleads.batches_eq, hfails,
      hstands.leads hproper henabled hapart hleads,
      artifacts_leads hproper henabled hapart hds hstands hartifacts hverdict hleads hcalls hfails⟩

/-- Passes over documents that come to no failure deliver the documents as they were, leave them so,
and leave the artifacts of all that was accepted. -/
theorem artifacts_runFrom {rest : List String} {later : List Batch}
    (hsub : ∀ path ∈ rest, path ∈ documents)
    (hlater : List.Forall₂ (fun path batch => Scan.batch tree path = .ok batch) rest later)
    {p : Pipeline} {ds : List Declaration} (hp : p.builder = Builder.empty.addAll ds)
    (hds : (ds.map (·.identity)).Nodup) (progress : Build.Progress)
    (world : Workspace File.Tree × List Happening) (hstands : Stands emit tree documents world.1)
    (hartifacts : Artifacts emit ds world.1.disk)
    (hverdicts : ∀ r ∈ verdicts ds (later.map (·.declarations)), r.isFailure = false)
    (hemissions : ∀ order e, .emission order (.error e) ∉
      (runFrom .standard (effects emit).noting ((rest.map Scan.delivery).map Delivery.noting)
        progress p world).2.2.2) :
    ∃ hs, (runFrom .standard (effects emit).noting ((rest.map Scan.delivery).map Delivery.noting)
        progress p world).2.2.2 = world.2 ++ hs ∧
      batches hs = later ∧ (∀ h ∈ hs, ¬ h.Fails) ∧
      Stands emit tree documents
        (runFrom .standard (effects emit).noting ((rest.map Scan.delivery).map Delivery.noting)
          progress p world).2.2.1 ∧
      Artifacts emit (acceptedFrom ds (later.map (·.declarations)))
        (runFrom .standard (effects emit).noting ((rest.map Scan.delivery).map Delivery.noting)
          progress p world).2.2.1.disk := by
  induction hlater generalizing p ds progress world with
  | nil => exact ⟨[], (List.append_nil _).symm, rfl, by simp, hstands, hartifacts⟩
  | @cons path batch rest later hbatch _ ih =>
    rw [List.map_cons, verdicts, List.forall_mem_cons] at hverdicts
    have hdelivered := hstands.batch_eq (hsub path List.mem_cons_self) hbatch
    have hdelivery : (Scan.delivery path).noting world =
        (.ok batch, world.1.log (Scan.scannedEvent path batch),
          world.2 ++ [.delivery (.ok batch)]) := by
      rw [Delivery.noting, Scan.delivery_of_batch hdelivered]
    rw [List.map_cons, List.map_cons, runFrom, hdelivery] at hemissions ⊢
    have hstands' : Stands emit tree documents (world.1.log (Scan.scannedEvent path batch)) :=
      hstands.keep rfl rfl
    rcases artifacts_pass hproper henabled hapart hp hds batch.declarations
        (world.1.log (Scan.scannedEvent path batch), world.2 ++ [.delivery (.ok batch)])
        hstands' hartifacts hverdicts.1 with
      ⟨e, p', w, hpass, order, fault, hmem⟩ |
        ⟨hs, p', w, hpass, hbuilder, hnone, hfails, hleft, hleftArtifacts⟩
    · dsimp only at hemissions
      rw [hpass] at hemissions
      exact absurd hmem (hemissions order fault)
    · dsimp only at hemissions ⊢
      rw [hpass] at hemissions ⊢
      obtain ⟨hs', hnotes, hdelivered', hfails', hlast⟩ := ih
        (fun path hpath => hsub path (List.mem_cons_of_mem _ hpath)) hbuilder
        (nodup_acceptedAfter hds batch.declarations) _
        ((effects emit).noting.log (passEvent (passOf (progress.passes.length + 1) batch _) _)
          (w, _)) (hleft.keep rfl rfl) hleftArtifacts hverdicts.2 hemissions
      refine ⟨.delivery (.ok batch) :: hs ++ hs', ?_, ?_, ?_, hlast⟩
      · have hlogged : world.2 ++ [.delivery (.ok batch)] ++ hs ++ hs' =
            world.2 ++ (.delivery (.ok batch) :: hs ++ hs') := by simp
        exact hnotes.trans hlogged
      · rw [batches_append, batches_delivery, hnone, hdelivered']
        rfl
      · intro x hmem
        rw [List.cons_append, List.mem_cons, List.mem_append] at hmem
        rcases hmem with rfl | hmem | hmem
        · exact id
        · exact hfails x hmem
        · exact hfails' x hmem

end Passes

/-! ## Builds over documents -/

/-- The last events of a build leave the tree. -/
theorem disk_run_noting (emit : Settings.Emit) (timestamp : String)
    (deliveries : List (Delivery (Workspace File.Tree × List Happening))) (p : Pipeline)
    (w : Workspace File.Tree) :
    (Build.run .standard (effects emit).noting timestamp deliveries p (w, [])).2.2.1.disk =
      (runFrom .standard (effects emit).noting deliveries ⟨[], []⟩ fresh
        ((effects emit).noting.log ⟨.debug, "Pipeline reset", []⟩ (w, []))).2.2.1.disk := by
  unfold Build.run Pipeline.reset
  dsimp only
  generalize runFrom .standard (effects emit).noting deliveries _ _ _ = out
  obtain ⟨result, p', w'⟩ := out
  cases result with
  | error e => rfl
  | ok progress => rfl

/-- Where all declarations are valid and their dependencies have no cycle, no pass is a failure. -/
theorem isFailure_verdicts_of_acyclic {batches : List (List Declaration)}
    (hvalid : ∀ d ∈ batches.flatten, d.Valid)
    (hacyclic : ∀ a, ¬ Relation.TransGen (fun a c => ∃ d ∈ Declaration.firsts batches.flatten,
      d.identity = a ∧ c ∈ d.dependencies) a a) :
    acceptedFrom [] batches = Declaration.firsts batches.flatten ∧
      ∀ r ∈ verdicts [] batches, r.isFailure = false := by
  have hvalid' : ∀ batch ∈ batches, ∀ d ∈ batch, d.Valid :=
    fun batch hbatch d hd => hvalid d (List.mem_flatten_of_mem hbatch hd)
  have haccepted : acceptedFrom [] batches = Declaration.firsts batches.flatten := by
    rw [acceptedFrom_of_valid [] hvalid', Declaration.newIn_nil, List.nil_append]
  refine ⟨haccepted, (isFailure_verdicts_iff batches).2 ⟨not_breaksRule_of_valid hvalid', ?_⟩⟩
  rw [haccepted]
  intro a ha
  have hsame : ∀ b c, (Builder.graphOf (Declaration.firsts batches.flatten)).DependsOn b c →
      ∃ d ∈ Declaration.firsts batches.flatten, d.identity = b ∧ c ∈ d.dependencies :=
    fun b c => (Builder.dependsOn_graphOf (Declaration.nodup_firsts _) b c).1
  exact hacyclic a (Relation.TransGen.mono hsame _ _ ha)

/-- A build whose passes are no failures and in which no emission fails reports on its documents as
they were, and leaves the artifacts of all that was accepted. -/
theorem run_of_verdicts {settings : Settings} {tree : File.Tree} {documents : List String}
    {bs : List Batch} {refusals : Scan.Refusals} (timestamp : String) (hproper : tree.Proper)
    (henabled : settings.emit.enabled = true)
    (hdiscover : (Scan.discover tree settings.scan refusals).value = .ok documents)
    (hbatches : List.Forall₂ (fun path batch => Scan.batch tree path = .ok batch) documents bs)
    (hverdicts : ∀ r ∈ verdicts [] (bs.map (·.declarations)), r.isFailure = false)
    (hemissions : ∀ order e, .emission order (.error e) ∉
      chronicle settings timestamp tree documents)
    (hapart : ∀ path ∈ documents, ∀ place node, tree.find path = .ok (place, node) →
      tree.aimOf settings.emit.manifestPath ≠ some place) :
    (run settings timestamp tree { refusals }).1 = .ok (summarized timestamp bs) ∧
      ∃ w, Stands settings.emit tree documents w ∧
        Artifacts settings.emit (acceptedFrom [] (bs.map (·.declarations))) w.disk ∧
        (run settings timestamp tree { refusals }).2.disk = w.disk := by
  have hstart : Stands settings.emit tree documents (start settings tree documents) :=
    { grows := .refl tree
      handled := fun a ha => by simp [start, Workspace.on, Workspace.log] at ha
      documents := fun path _ place node hfind => File.Tree.node?_of_find hfind
      clear := fun _ => id }
  have hall : chronicle settings timestamp tree documents = _ := chronicle_eq ..
  rw [hall] at hemissions
  have hfresh : fresh.builder = Builder.empty.addAll [] := rfl
  obtain ⟨hs, hnotes, hdelivered, hfails, hstands, hartifacts⟩ :=
    artifacts_runFrom hproper henabled hapart
      (fun _ h => h) hbatches hfresh List.nodup_nil ⟨[], []⟩
      ((effects settings.emit).noting.log ⟨.debug, "Pipeline reset", []⟩
        (start settings tree documents, []))
      (hstart.keep rfl rfl) (Or.inl rfl) hverdicts hemissions
  have hhs : chronicle settings timestamp tree documents = hs := hall.trans hnotes
  refine ⟨?_, _, hstands, hartifacts, ?_⟩
  · rw [run_of_not_fails hdiscover (by rwa [hhs]), hhs, hdelivered]
  · have hnoting := run_noting .standard (effects settings.emit) timestamp
      (documents.map Scan.delivery) fresh (start settings tree documents, [])
    rw [← disk_run_noting settings.emit timestamp, run_of_discovered hdiscover]
    exact congrArg (·.2.2.disk) hnoting

/-- In a proper tree a build over documents whose declarations are valid and have no cycle, where no
emission fails and the manifest is none of the documents, passes. Then the manifest lists what the
documents declare and what the first declarations of components depend on, once and dependencies
first. Something is found at the registration path of each of these components, and it is a file
exactly where no directory was and none is made on the way to the registrations. -/
theorem run_of_documents {settings : Settings} {tree : File.Tree} {documents : List String}
    {bs : List Batch} {refusals : Scan.Refusals} (timestamp : String) (hproper : tree.Proper)
    (henabled : settings.emit.enabled = true)
    (hdiscover : (Scan.discover tree settings.scan refusals).value = .ok documents)
    (hbatches : List.Forall₂ (fun path batch => Scan.batch tree path = .ok batch) documents bs)
    (hvalid : ∀ d ∈ (bs.map (·.declarations)).flatten, d.Valid)
    (hsome : (bs.map (·.declarations)).flatten ≠ [])
    (hacyclic : ∀ a, ¬ Relation.TransGen
      (fun a c => ∃ d ∈ Declaration.firsts (bs.map (·.declarations)).flatten,
        d.identity = a ∧ c ∈ d.dependencies) a a)
    (hemissions : ∀ order e, .emission order (.error e) ∉
      chronicle settings timestamp tree documents)
    (hapart : ∀ path ∈ documents, ∀ place node, tree.find path = .ok (place, node) →
      tree.aimOf settings.emit.manifestPath ≠ some place) :
    ∃ (report : Report) (order : List Identity),
      (run settings timestamp tree { refusals }).1 = .ok report ∧
      report.summary.passed = true ∧
      (run settings timestamp tree { refusals }).2.disk.readText settings.emit.manifestPath =
        .ok ("# Generated by influx. Do not edit.\n" ++
          String.join (order.map fun a => a.name ++ "\n")) ∧
      order.Nodup ∧
      (∀ a, a ∈ order ↔ (∃ d ∈ (bs.map (·.declarations)).flatten, d.identity = a) ∨
        ∃ d ∈ Declaration.firsts (bs.map (·.declarations)).flatten, a ∈ d.dependencies) ∧
      (∀ d ∈ Declaration.firsts (bs.map (·.declarations)).flatten, ∀ c ∈ d.dependencies,
        order.idxOf c < order.idxOf d.identity) ∧
      (∀ a ∈ order, (run settings timestamp tree { refusals }).2.disk.exists?
        (Artifact.registrationPath settings.emit a) = true) ∧
      (∀ a ∈ order, (run settings timestamp tree { refusals }).2.disk.isFile
          (Artifact.registrationPath settings.emit a) = true ↔
        ∀ place, tree.aimOf (Artifact.registrationPath settings.emit a) = some place →
          Emission.Clear settings.emit tree place) ∧
      report.summary.componentsOrdered = order.length := by
  obtain ⟨haccepted, hverdicts⟩ := isFailure_verdicts_of_acyclic hvalid hacyclic
  obtain ⟨hreport, w, hstands, hartifacts, htree⟩ := run_of_verdicts timestamp hproper henabled
    hdiscover hbatches hverdicts hemissions hapart
  have hgrows := hstands.grows
  have hclear := hstands.clear
  rw [← htree] at hgrows hclear hartifacts
  rw [haccepted] at hartifacts
  rcases hartifacts with hnone | ⟨order, hlisted, hmanifest, hhoused, hexists⟩
  · rw [Declaration.firsts_eq_nil_iff] at hnone
    exact absurd hnone hsome
  refine ⟨summarized timestamp bs, order, hreport, (passed_summarized_iff timestamp bs).2 hverdicts,
    Artifact.manifest_eq order ▸ hmanifest, hlisted.nodup, ?_, hlisted.before, hexists, ?_, ?_⟩
  · intro a
    rw [hlisted.mem_iff, ← List.mem_map, ← Declaration.mem_identities_firsts, List.mem_map]
    simp only [Declaration.Mentions, and_or_left, exists_or, eq_comm]
  · intro a ha
    rw [hhoused.isFile_iff (hgrows.proper hproper) (hexists a ha), hgrows.aimOf_eq]
    exact forall₂_congr fun place _ => ⟨fun h => h.of_grows hgrows, hclear place⟩
  · have hordered := lastOrdered_passesFrom bs hverdicts
    rw [haccepted] at hordered
    exact hordered.trans (Builder.length_of_listed (Declaration.nodup_firsts _) hlisted).symm

end FileBuild

/-! ## A tree with one document -/

namespace FileBuild.Sample
open File

def text : String := "[[component]]\nidentity = \"store\"\n"

/-- A tree with one document. -/
def tree : Tree := ⟨[(["a.toml"], .file text.toUTF8.data.toList)], []⟩

def settings : Settings :=
  { scan := { inputs := ["a.toml"] }, emit := Emission.Sample.here }

def store : Declaration :=
  ⟨ComponentWiring.Sample.store, .concrete, true, [], some ⟨"a.toml", some 1⟩⟩

theorem find_document : tree.find "a.toml" = .ok (["a.toml"], .file text.toUTF8.data.toList) := by
  have hsegments : Tree.closedSegments "a.toml" = ["a.toml"] := by decide
  have hname : Tree.Names "a.toml" := ⟨by decide, by decide, by decide⟩
  rw [Tree.find_eq_ok_iff, hsegments]
  exact ⟨⟨by decide, by decide, by decide⟩,
    .name rfl hname rfl (fun _ => Node.noConfusion) (.there _ rfl)⟩

theorem discover_documents : (Scan.discover tree settings.scan).value = .ok ["a.toml"] := by
  have hfile : tree.isFile "a.toml" = true := by
    rw [Tree.isFile, find_document]
  have hall : Scan.documentsOfAll tree (fun _ => none) settings.scan.extension
      settings.scan.inputs = .ok ["a.toml"] := by
    simp [settings, Scan.documentsOfAll, Scan.documentsOf, hfile]
    rfl
  rw [Scan.discover, hall]
  simp [Scan.arranged, Scan.distinct, Scan.distinct.distinctAfter]

theorem declarations_text : Document.declarations "a.toml" text = .ok [store] :=
  eq_ok_of_toOption (by decide +kernel)

theorem batch_document : Scan.batch tree "a.toml" = .ok ⟨some "a.toml", [store]⟩ := by
  rw [Scan.batch, Scan.plainly, Tree.readText_of_find find_document]
  dsimp only [Scan.batchOf]
  rw [declarations_text]
  rfl

theorem linkless : ∀ place text, tree.node? place ≠ some (.link text) :=
  Tree.linkless_of_nodes (by simp [tree])

/-- An order of the one component can be emitted. -/
theorem emits {w : Workspace Tree} (hdisk : w.disk = tree) (hhandled : w.handled = Seen.empty) :
    (Emission.toDisk Tree.disk settings.emit [store.identity] w).1 = .ok ⟨1, 0⟩ := by
  have hroot : tree.node? tree.workingDirectory = some .directory := Tree.node?_root tree
  refine Emission.toDisk_of_one Tree.disk Emission.Sample.here ?_ ?_
    (Emission.Sample.namesHere_store.exists?_eq_false hroot rfl)
    (Emission.Sample.namesHere_store.disk_write_eq hroot (.inl rfl) _)
    (Emission.Sample.namesHere_manifest.disk_write_eq (Tree.node?_root _) (.inl rfl) _)
  · rw [Emission.Sample.registrationPath_here, hdisk]
    exact Tree.makeDirectories_here hroot
  · simp [hhandled]

theorem run_succeeds : ∃ report, (run settings "now" tree).1 = .ok report := by
  have hverdict : verdict [] [store] = .emitted [store.identity] := by cbv
  have hfresh : fresh.builder = Builder.empty.addAll [] := rfl
  -- the workspace in which the one pass starts
  let w := ((effects settings.emit).log ⟨.debug, "Pipeline reset", []⟩
    (start settings tree ["a.toml"])).log (Scan.scannedEvent "a.toml" ⟨some "a.toml", [store]⟩)
  have hdelivery : Scan.delivery "a.toml" ((effects settings.emit).log
      ⟨.debug, "Pipeline reset", []⟩ (start settings tree ["a.toml"])) =
      (.ok ⟨some "a.toml", [store]⟩, w) :=
    Scan.delivery_of_batch batch_document
  have hpass : ∃ r, (pass .standard (effects settings.emit) [store] fresh w).1 = .ok r := by
    obtain ⟨hs, hleads, hpassed, hfails⟩ := leads_pass .standard (effects settings.emit) fresh
      [store] w
    have hcalls := (hpassed.verdict hfresh List.nodup_nil).1
    rw [hverdict] at hcalls
    obtain ⟨w', rfl, hbefore, -⟩ := hleads.exists_emission hcalls
    obtain ⟨hdisk, hhandled⟩ := disk_eq_of_leads hbefore
    have hsummary := emits hdisk hhandled
    cases hresult : (pass .standard (effects settings.emit) [store] fresh w).1 with
    | ok r => exact ⟨r, rfl⟩
    | error e =>
      obtain ⟨x, hmem, hx⟩ := hfails.1 ⟨e, hresult⟩
      rw [List.mem_singleton.1 hmem, emit_eq rfl, hsummary] at hx
      cases hx
  obtain ⟨r, hr⟩ := hpass
  have hdelivery' : Scan.deliveryBy Scan.plainly "a.toml" ((effects settings.emit).log
      ⟨.debug, "Pipeline reset", []⟩ (start settings tree ["a.toml"])) = _ := hdelivery
  rw [run_of_discovered discover_documents, Build.run, Pipeline.reset]
  dsimp only
  rw [List.map_cons, List.map_nil, runFrom, hdelivery']
  dsimp only
  generalize pass .standard (effects settings.emit) [store] fresh w = passed at hr ⊢
  obtain ⟨answer, p, w'⟩ := passed
  cases hr
  exact ⟨_, rfl⟩

theorem clear_registration {a : Identity} (ha : a = store.identity) :
    ∀ place, tree.aimOf (Artifact.registrationPath settings.emit a) = some place →
      Emission.Clear settings.emit tree place := by
  have haim := Tree.aimOf_of_linkless linkless rfl
  have hnone : tree.node? ["store.registration"] = none := rfl
  have hregistration : (Path.segments (Artifact.registrationPath settings.emit
      store.identity)).foldl Tree.stepTo [] = ["store.registration"] := by decide
  have hdirectories : ∀ path ∈ settings.emit.registrationPath ::
      Path.holders settings.emit.registrationPath,
      (Path.segments path).foldl Tree.stepTo [] ≠ ["store.registration"] := by decide
  intro place hplace
  rw [ha, haim, hregistration] at hplace
  cases hplace
  refine ⟨by simp [hnone], fun path hpath => ?_⟩
  rw [haim]
  exact fun hsame => hdirectories path hpath (Option.some.inj hsame)

theorem run_of_documents_of_one :
    tree.Proper ∧ (Scan.discover tree settings.scan).value = .ok ["a.toml"] ∧
    ∃ report, (run settings "now" tree).1 = .ok report ∧ report.summary.passed = true ∧
      (run settings "now" tree).2.disk.readText "./m" =
        .ok "# Generated by influx. Do not edit.\nstore\n" ∧
      (run settings "now" tree).2.disk.isFile "././store.registration" = true ∧
      report.summary.componentsOrdered = 1 := by
  have hproper : tree.Proper := Tree.proper_of_linkless linkless
  have hbatches : List.Forall₂ (fun path batch => Scan.batch tree path = .ok batch) ["a.toml"]
      [⟨some "a.toml", [store]⟩] := .cons batch_document .nil
  have hvalid : ∀ d ∈ [store], d.Valid := by decide
  have hacyclic : ∀ a, ¬ Relation.TransGen
      (fun a c => ∃ d ∈ Declaration.firsts [store], d.identity = a ∧ c ∈ d.dependencies) a a := by
    intro a ha
    obtain ⟨c, ⟨d, hd, -, hc⟩, -⟩ := Relation.TransGen.head'_iff.1 ha
    rw [List.mem_singleton.1 (Declaration.mem_of_mem_firsts hd)] at hc
    cases hc
  have hemissions : ∀ order e, .emission order (.error e) ∉
      chronicle settings "now" tree ["a.toml"] := by
    intro order e hmem
    obtain ⟨report, hreport⟩ := run_succeeds
    obtain ⟨e', he'⟩ := run_of_fails discover_documents ⟨_, hmem, trivial⟩
    rw [hreport] at he'
    cases he'
  have hapart : ∀ path ∈ ["a.toml"], ∀ place node, tree.find path = .ok (place, node) →
      tree.aimOf settings.emit.manifestPath ≠ some place := by
    intro path hpath place node hfind
    have hmanifest : tree.aimOf settings.emit.manifestPath = some ["m"] :=
      (Tree.aimOf_of_linkless linkless rfl _).trans (by decide)
    rw [List.mem_singleton.1 hpath, find_document] at hfind
    cases hfind
    rw [hmanifest]
    decide
  obtain ⟨report, order, hreport, hpassed, htext, hnodup, hmem, -, -, hfiles, hcount⟩ :=
    run_of_documents "now" hproper rfl discover_documents hbatches hvalid (List.cons_ne_nil _ _)
      hacyclic hemissions hapart
  have horder : order = [store.identity] := by
    rw [← List.perm_singleton, List.perm_ext_iff_of_nodup hnodup (List.nodup_singleton _)]
    intro a
    rw [hmem, List.mem_singleton]
    simp [Declaration.firsts, store, eq_comm]
  subst horder
  have hfile := (hfiles _ List.mem_cons_self).2 (clear_registration rfl)
  have hmanifest : settings.emit.manifestPath = "./m" := by decide
  have hregistration : Artifact.registrationPath settings.emit store.identity =
      "././store.registration" := by decide
  have hlines : "# Generated by influx. Do not edit.\n" ++
      String.join ([store.identity].map fun a => a.name ++ "\n") =
        "# Generated by influx. Do not edit.\nstore\n" := by decide
  rw [hmanifest, hlines] at htext
  rw [hregistration] at hfile
  exact ⟨hproper, discover_documents, report, hreport, hpassed, htext, hfile, hcount⟩

end FileBuild.Sample

end ComponentWiring
