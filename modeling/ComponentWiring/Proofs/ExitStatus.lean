import ComponentWiring.Proofs.BuildPasses
import ComponentWiring.Proofs.DocumentScans
import ComponentWiring.Proofs.FileBuilds
import ComponentWiring.Proofs.ResolvedSettings

/-! # What the exit status tells

The exit status of a run tells a failure from a build that did not pass, and whether the build
passed is told by the declarations alone.

* `CommandLine.LogFile.grows_openDaily`: what starting to log leaves.
* `CommandLine.Passes`: the passes of a run over the documents that it finds.
* `CommandLine.Fails`: the ways in which a run fails.
* `CommandLine.fails_or_passes`: a run fails, or its passes come to an end.
* `Build.finalGraph`: the graph of all that was accepted.
* `CommandLine.status_of_build`: the exit status of a run that builds.
-/

namespace ComponentWiring
set_option autoImplicit false

open Build Pipeline

/-- The graph of all declarations that were accepted of batches. -/
def Build.finalGraph (batches : List Batch) : Graph :=
  Builder.graphOf (acceptedFrom [] (batches.map (·.declarations)))

namespace CommandLine

/-! ## Log files -/

section LogFiles
open File
variable {tree tree' : Tree} {path : String}

theorem LogFile.grows_open? (hproper : tree.Proper) (h : open? path tree = some tree') :
    tree.Grows tree' ∧ tree'.isFile path = true := by
  unfold open? at h
  split at h
  · next hfile =>
    cases h
    exact ⟨.refl tree, hfile⟩
  · cases hwritten : tree.write path [] with
    | error fault =>
      rw [hwritten] at h
      cases h
    | ok written =>
      rw [hwritten] at h
      cases h
      obtain ⟨place, hwrote⟩ := Tree.wrote_of_write hproper hwritten
      exact ⟨hwrote.grows, by rw [Tree.isFile, hwrote.find]⟩

/-- On the usual machine logging leaves what was there, and the log file is there once it has
started. -/
theorem LogFile.grows_openDaily {date directory stem : String} (hproper : tree.Proper)
    (h : openDaily date directory stem tree = (true, tree')) :
    tree.Grows tree' ∧ tree'.isFile (LogFile.path directory stem date) = true := by
  unfold openDaily at h
  split at h
  · next opened hopened =>
    cases h
    exact grows_open? hproper hopened
  have hmade : tree.Grows (Tree.disk.makeDirectories directory tree).2 := by
    refine Disk.makeDirectories_keeps (I := tree.Grows) ?_ tree (.refl tree)
    intro holder _ made hgrows
    rcases Tree.shows_disk.makeDirectory holder made with ⟨-, hok⟩ | ⟨-, hsame⟩
    · obtain ⟨place, -, hnone, heq⟩ := Tree.exists_put_of_makeDirectory hok
      have hput : (Tree.disk.makeDirectory holder made).2 = made.put place .directory := heq
      rw [hput]
      exact hgrows.trans (Tree.grows_put_directory hnone)
    · have hleft : (Tree.disk.makeDirectory holder made).2 = made := hsame
      rwa [hleft]
  generalize Tree.disk.makeDirectories directory tree = made at hmade h
  obtain ⟨answer, madeTree⟩ := made
  cases answer with
  | error fault => cases h
  | ok u =>
    dsimp only at h
    split at h
    · next opened hopened =>
      cases h
      obtain ⟨hgrows, hfile⟩ := grows_open? (hmade.proper hproper) hopened
      exact ⟨hmade.trans hgrows, hfile⟩
    · cases h

end LogFiles

section Runs
variable (o : Options) (environment : Settings.Environment) (machine : Machine) (tree : File.Tree)

/-- Logging starts as the settings of a run say, if it comes to settings. -/
def Starts : Prop :=
  ∀ settings, settingsFor o environment tree machine.home = .ok settings →
    (machine.startLogging settings.logging tree).1 = true

/-- The documents that a run finds, once logging has started. -/
def discovery (settings : Settings) : Except Error (List String) :=
  (Scan.discover (machine.startLogging settings.logging tree).2 settings.scan
    machine.refusals).value

/-- The passes of a run, one over each document that it finds, up to the first one that cannot be
read or whose emission fails. -/
structure Passes (settings : Settings) (documents : List String) (batches : List Batch)
    (results : List PassResult) (ending : Option Error) : Prop where
  resolved : settingsFor o environment tree machine.home = .ok settings
  discovered : discovery machine tree settings = .ok documents
  passes : Build.Passes (FileBuild.effects settings.emit machine.disk) 1
    (documents.map (Scan.deliveryBy machine.reading)) Pipeline.fresh
    ((FileBuild.effects settings.emit machine.disk).log ⟨.debug, "Pipeline reset", []⟩
      (FileBuild.start settings (machine.startLogging settings.logging tree).2 documents))
    batches results ending

/-- A run fails if the settings cannot be used, if the documents cannot be found, or if one of them
cannot be read or an emission fails. -/
inductive Fails : Prop where
  | settings (failure : Failure)
      (h : settingsFor o environment tree machine.home = .error failure)
  | discovery (settings : Settings) (e : Error)
      (hsettings : settingsFor o environment tree machine.home = .ok settings)
      (h : discovery machine tree settings = .error e)
  | passes (settings : Settings) (documents : List String) (batches : List Batch)
      (results : List PassResult) (e : Error)
      (h : Passes o environment machine tree settings documents batches results (some e))

/-! ## What runs come to -/

variable {o environment machine tree} {timestamp : String} {settings : Settings}
  {documents : List String} {batches : List Batch} {results : List PassResult}
  {ending : Option Error}

/-- The level of accepted settings is one. -/
theorem exists_level_of_check (h : settings.check = .ok ()) :
    ∃ level, Settings.levelOfName settings.logging.level = .ok level := by
  obtain ⟨_, -, h⟩ := bind_eq_ok_iff.1 h
  obtain ⟨_, -, h⟩ := bind_eq_ok_iff.1 h
  obtain ⟨level, hlevel, -⟩ := bind_eq_ok_iff.1 h
  exact ⟨level, hlevel⟩

/-- A run with settings builds once logging has started. -/
theorem runBuild_eq (hsettings : settingsFor o environment tree machine.home = .ok settings)
    (hstarts : (machine.startLogging settings.logging tree).1 = true) :
    (runBuild o environment timestamp tree machine).1 =
      match during "Build failed" (FileBuild.run settings timestamp
        (machine.startLogging settings.logging tree).2 machine.toSystem).1 with
      | .error failure => .failed failure
      | .ok report => .built report settings.report.format := by
  obtain ⟨level, hlevel⟩ := exists_level_of_check (load_of_settingsFor hsettings).1
  unfold runBuild
  rw [hsettings]
  dsimp only
  rw [hlevel]
  dsimp only [during]
  generalize machine.startLogging settings.logging tree = started at hstarts ⊢
  obtain ⟨answer, tree'⟩ := started
  obtain rfl : answer = true := hstarts
  dsimp only
  rcases FileBuild.run settings timestamp tree' machine.toSystem with ⟨e | report, w⟩
  · rfl
  · rfl

/-- A run reports on the batches of its passes, or fails with their error. -/
theorem Passes.runBuild_eq (h : Passes o environment machine tree settings documents batches results
      ending)
    (hstarts : Starts o environment machine tree) :
    (runBuild o environment timestamp tree machine).1 =
      ending.elim (.built (summarized timestamp batches) settings.report.format)
        fun e => .failed ⟨"Build failed", e⟩ := by
  rw [CommandLine.runBuild_eq h.resolved (hstarts settings h.resolved),
    FileBuild.run_of_discovered h.discovered, run_of_passes h.passes]
  cases ending with
  | none => rfl
  | some e => rfl

/-- A run fails, or its passes come to an end. -/
theorem fails_or_passes (o : Options) (environment : Settings.Environment) (machine : Machine)
    (tree : File.Tree) :
    Fails o environment machine tree ∨ ∃ settings documents batches results,
      Passes o environment machine tree settings documents batches results none := by
  cases hsettings : settingsFor o environment tree machine.home with
  | error failure => exact .inl (.settings failure hsettings)
  | ok settings =>
    cases hdiscover : discovery machine tree settings with
    | error e => exact .inl (.discovery settings e hsettings hdiscover)
    | ok documents =>
      have hfresh : fresh.builder = Builder.empty.addAll [] := rfl
      obtain ⟨batches, results, ending, hpasses⟩ :=
        exists_passes (FileBuild.effects settings.emit machine.disk)
          (documents.map (Scan.deliveryBy machine.reading)) 1 hfresh List.nodup_nil
          ((FileBuild.effects settings.emit machine.disk).log ⟨.debug, "Pipeline reset", []⟩
            (FileBuild.start settings (machine.startLogging settings.logging tree).2 documents))
      cases ending with
      | none => exact .inr ⟨settings, documents, batches, results, hsettings, hdiscover, hpasses⟩
      | some e =>
        exact .inl (.passes settings documents batches results e ⟨hsettings, hdiscover, hpasses⟩)

theorem Fails.exists_failed (h : Fails o environment machine tree)
    (hstarts : Starts o environment machine tree) :
    ∃ failure, (runBuild o environment timestamp tree machine).1 = .failed failure := by
  cases h with
  | settings failure hsettings =>
    refine ⟨failure, ?_⟩
    unfold runBuild
    rw [hsettings]
  | discovery settings e hsettings hdiscover =>
    refine ⟨⟨"Build failed", e⟩, ?_⟩
    rw [CommandLine.runBuild_eq hsettings (hstarts settings hsettings),
      FileBuild.run_of_undiscovered hdiscover]
    rfl
  | passes settings documents batches results e hpasses =>
    exact ⟨_, hpasses.runBuild_eq hstarts⟩

theorem Passes.isCycle
    (h : Passes o environment machine tree settings documents batches results ending)
    {path : List Identity} (hmem : .cycle path ∈ results) : (finalGraph batches).IsCycle path := by
  have hfresh : fresh.builder = Builder.empty.addAll [] := rfl
  exact h.passes.isCycle hfresh List.nodup_nil hmem

/-- The report on passes that came to an end passes just if none of them was invalid and the final
graph has no cycle. -/
theorem Passes.passed_iff
    (h : Passes o environment machine tree settings documents batches results none)
    (timestamp : String) :
    ((∃ violations, .invalid violations ∈ results) ↔
        BreaksRule [] (batches.map (·.declarations))) ∧
      ((summarized timestamp batches).summary.passed = true ↔
        (¬ ∃ violations, .invalid violations ∈ results) ∧ (finalGraph batches).Acyclic) := by
  have hfresh : fresh.builder = Builder.empty.addAll [] := rfl
  have hinvalid : (∃ violations, .invalid violations ∈ results) ↔
      BreaksRule [] (batches.map (·.declarations)) := by
    rw [h.passes.results_eq hfresh List.nodup_nil, breaksRule_iff]
  refine ⟨hinvalid, ?_⟩
  rw [hinvalid, passed_summarized_iff, isFailure_verdicts_iff, finalGraph]

end Runs

/-! ## The exit status -/

/-- The status of a run that builds is 2 just if the run fails. Otherwise its passes come to an end,
one for each document, and the status is 0 if none of them was invalid and the graph of all accepted
declarations has no cycle, and 1 if one was invalid or this graph has a cycle. A cycle that a pass
came to is one of this graph, also if the run fails later. -/
theorem status_of_build {arguments : List String} {o : Options}
    (h : Request.ofArguments? arguments = some (.build o)) (environment : Settings.Environment)
    (timestamp : String) (tree : File.Tree) (machine : Machine)
    (hstarts : Starts o environment machine tree) :
    ((run arguments environment timestamp tree machine).1.status = 2 ↔
      Fails o environment machine tree) ∧
    (¬ Fails o environment machine tree → ∃ settings documents batches results,
      Passes o environment machine tree settings documents batches results none) ∧
    ∀ settings documents batches results ending,
      Passes o environment machine tree settings documents batches results ending →
      (∀ path, .cycle path ∈ results → (finalGraph batches).IsCycle path) ∧
      (ending = none →
        batches.length = documents.length ∧ results.length = documents.length ∧
        ((∃ violations, .invalid violations ∈ results) ↔
          BreaksRule [] (batches.map (·.declarations))) ∧
        ((run arguments environment timestamp tree machine).1.status = 0 ↔
          (¬ ∃ violations, .invalid violations ∈ results) ∧ (finalGraph batches).Acyclic) ∧
        ((run arguments environment timestamp tree machine).1.status = 1 ↔
          (∃ violations, .invalid violations ∈ results) ∨ ¬ (finalGraph batches).Acyclic)) := by
  have hrun : run arguments environment timestamp tree machine =
      runBuild o environment timestamp tree machine := by
    unfold run
    rw [h]
  rw [hrun]
  refine ⟨⟨fun hstatus => ?_, fun hfails => ?_⟩, ?_, ?_⟩
  · rcases fails_or_passes o environment machine tree with hfails | ⟨_, _, _, _, hpasses⟩
    · exact hfails
    · rw [hpasses.runBuild_eq hstarts, Option.elim_none, Ending.status] at hstatus
      split at hstatus <;> cases hstatus
  · obtain ⟨failure, hfailed⟩ := hfails.exists_failed hstarts
    rw [hfailed]
    rfl
  · exact fun hnone => (fails_or_passes o environment machine tree).resolve_left hnone
  · intro settings documents batches results ending hpasses
    refine ⟨fun path hmem => hpasses.isCycle hmem, ?_⟩
    rintro rfl
    obtain ⟨hbatches, hresults⟩ := hpasses.passes.length_eq rfl
    rw [List.length_map] at hbatches
    obtain ⟨hinvalid, hpassed⟩ := hpasses.passed_iff timestamp
    rw [hpasses.runBuild_eq hstarts, Option.elim_none, Ending.status]
    refine ⟨hbatches, hresults.trans hbatches, hinvalid, ?_, ?_⟩
    · rw [← hpassed]
      split <;> simp [*]
    · rw [← not_iff_not, not_or, not_not, ← hpassed]
      split <;> simp [*]

/-! ## Runs over one document -/

namespace Runs
open File

def arguments : List String := ["--no-emit", "a.toml"]

def options : Options := { inputs := ["a.toml"], dryRun := true }

def settings : Settings := { scan := { inputs := ["a.toml"] }, emit := { enabled := false } }

def machine : Machine := .usual none "now"

/-- A tree with one document. -/
def shelf (text : String) : Tree := ⟨[(["a.toml"], .file text.toUTF8.data.toList)], []⟩

section Shelf
variable (text : String)

theorem find_document :
    (shelf text).find "a.toml" = .ok (["a.toml"], .file text.toUTF8.data.toList) := by
  have hsegments : Tree.closedSegments "a.toml" = ["a.toml"] := by decide
  have hname : Tree.Names "a.toml" := ⟨by decide, by decide, by decide⟩
  rw [Tree.find_eq_ok_iff, hsegments]
  exact ⟨⟨by decide, by decide, by decide⟩,
    .name rfl hname rfl (fun _ => Node.noConfusion) (.there _ rfl)⟩

theorem linkless_shelf : ∀ place target, (shelf text).node? place ≠ some (.link target) :=
  Tree.linkless_of_nodes (by simp [shelf])

/-- There is no settings file. -/
theorem exists?_candidate :
    ∀ path ∈ Settings.candidates (shelf text) [] none, (shelf text).exists? path = false := by
  have hcandidates : Settings.candidates (shelf text) [] none =
      ["/influx.toml", "/influx/influx.toml"] := by
    have hhere : Settings.workingDirectory (shelf text) = "/" := by
      change Path.ofParts [.root] = "/"
      decide
    rw [Settings.candidates, hhere]
    decide
  have haim := Tree.aimOf_of_linkless (linkless_shelf text) rfl
  rw [hcandidates]
  intro path hpath
  fin_cases hpath
  · have hnone : (shelf text).node? ["influx.toml"] = none := rfl
    exact Tree.exists?_eq_false ((haim _).trans (by decide)) hnone
  · have hnone : (shelf text).node? ["influx", "influx.toml"] = none := rfl
    exact Tree.exists?_eq_false ((haim _).trans (by decide)) hnone

theorem settingsFor_shelf :
    settingsFor options [] (shelf text) machine.home = .ok settings := by
  have hchosen : Settings.chosenFile (shelf text) [] none none = .ok none := by
    rw [Settings.chosenFile, List.find?_eq_none.2 (by simpa using exists?_candidate text)]
  have hextract : Settings.extract ((Settings.environmentLayer "INFLUX_" []).above
      Settings.defaultLayer) = .ok {} :=
    eq_ok_of_toOption (by decide +kernel)
  have hload : (Settings.load (shelf text) [] Settings.variableStart none none).value = .ok {} := by
    rw [Settings.load, hchosen]
    change Settings.loadFrom (shelf text) [] "INFLUX_" none = .ok {}
    simp only [Settings.loadFrom, Settings.layers, bind, Except.bind, pure, Except.pure, hextract]
    rfl
  have hfile : options.settingsFile = none := rfl
  have hhome : machine.home = none := rfl
  rw [settingsFor, hfile, hhome, hload]
  rfl

theorem discovery_shelf : discovery machine (shelf text) settings = .ok ["a.toml"] := by
  have hstarted : (machine.startLogging settings.logging (shelf text)).2 = shelf text := rfl
  have hall : Scan.documentsOfAll (shelf text) machine.refusals settings.scan.extension
      ["a.toml"] = .ok ["a.toml"] := by
    rw [Scan.documentsOfAll, Scan.documentsOf_of_file (find_document text)]
    rfl
  have harranged : ["a.toml"] = Scan.arranged ["a.toml"] := by
    simp [Scan.arranged, Scan.distinct, Scan.distinct.distinctAfter]
  rw [discovery, hstarted]
  exact Scan.discover_ok_iff.2 ⟨_, hall, harranged⟩

/-- The workspace in which the passes start. -/
def bench : Workspace Tree :=
  (FileBuild.effects settings.emit).log ⟨.debug, "Pipeline reset", []⟩
    (FileBuild.start settings (shelf text) ["a.toml"])

variable {text}

theorem passes_of_unread {e : Error} (h : Scan.batch (shelf text) "a.toml" = .error e) :
    Passes options [] machine (shelf text) settings ["a.toml"] [] [] (some e) := by
  have hdelivery : (Scan.deliveryBy machine.reading "a.toml" (bench text)).1 = .error e :=
    congrArg (·.1) (Scan.delivery_of_unread (w := bench text) h)
  exact ⟨settingsFor_shelf text, discovery_shelf text, .undelivered hdelivery⟩

/-- A dry run comes to its end where the document can be read. -/
theorem exists_passes_of_batch {batch : Batch} (h : Scan.batch (shelf text) "a.toml" = .ok batch) :
    ∃ results, Passes options [] machine (shelf text) settings ["a.toml"] [batch] results none := by
  have hdelivery : (Scan.deliveryBy machine.reading "a.toml" (bench text)).1 = .ok batch :=
    congrArg (·.1) (Scan.delivery_of_batch (w := bench text) h)
  have hfresh : fresh.builder = Builder.empty.addAll [] := rfl
  obtain ⟨batches, results, ending, hpasses⟩ := exists_passes (FileBuild.effects settings.emit)
    [Scan.deliveryBy machine.reading "a.toml"] 1 hfresh List.nodup_nil (bench text)
  have hwhole : Passes options [] machine (shelf text) settings ["a.toml"] batches results ending :=
    ⟨settingsFor_shelf text, discovery_shelf text, hpasses⟩
  cases hpasses with
  | undelivered herror => cases hdelivery.symm.trans herror
  | unemitted _ _ hleads =>
    have hemit : ∀ order w, ∃ summary,
        ((FileBuild.effects settings.emit).emit order w).1 = .ok summary := fun _ _ => ⟨_, rfl⟩
    exact absurd trivial (hleads.not_fails hemit _ List.mem_cons_self)
  | passed hother _ _ _ _ hrest =>
    cases hdelivery.symm.trans hother
    cases hrest with
    | done => exact ⟨_, hwhole⟩

/-- The passes of a dry run over a document that can be read. -/
theorem passes_of_declarations {ds : List Declaration} {r : PassResult}
    (h : Document.declarations "a.toml" text = .ok ds) (hverdict : verdict [] ds = r) :
    Passes options [] machine (shelf text) settings ["a.toml"] [⟨some "a.toml", ds⟩] [r] none := by
  have hbatch : Scan.batch (shelf text) "a.toml" = .ok ⟨some "a.toml", ds⟩ := by
    rw [Scan.batch, Scan.plainly, Tree.readText_of_find (find_document text)]
    dsimp only [Scan.batchOf]
    rw [h]
    rfl
  have hfresh : fresh.builder = Builder.empty.addAll [] := rfl
  obtain ⟨results, hpasses⟩ := exists_passes_of_batch hbatch
  have hresults : results = [verdict [] ds] := hpasses.passes.results_eq hfresh List.nodup_nil
  rwa [hresults, hverdict] at hpasses

end Shelf

def alone : String := "[[component]]\nidentity = \"store\"\n"

def interface : String := alone ++ "kind = \"interface\"\n"

/-- Two components that depend on each other. -/
def circular : String :=
  alone ++ "depends_on = [\"app\"]\n" ++
    "[[component]]\nidentity = \"app\"\ndepends_on = [\"store\"]\n"

/-- A text that is no TOML. -/
def broken : String := "="

def storeAt (line : Nat) : Declaration :=
  (Declaration.concrete ComponentWiring.Sample.store).withLocation ⟨"a.toml", some line⟩

def storeInterface : Declaration := { storeAt 1 with kind := .interface }

def storeAndApp : List Declaration :=
  [(storeAt 1).withDependencies [ComponentWiring.Sample.app],
   ((Declaration.concrete ComponentWiring.Sample.app).withLocation
     ⟨"a.toml", some 4⟩).withDependencies [ComponentWiring.Sample.store]]

theorem declarations_alone : Document.declarations "a.toml" alone = .ok [storeAt 1] :=
  eq_ok_of_toOption (by decide +kernel)

theorem declarations_interface :
    Document.declarations "a.toml" interface = .ok [storeInterface] :=
  eq_ok_of_toOption (by decide +kernel)

theorem declarations_circular : Document.declarations "a.toml" circular = .ok storeAndApp :=
  eq_ok_of_toOption (by decide +kernel)

theorem exists_error_broken : ∃ e, Scan.batch (shelf broken) "a.toml" = .error e := by
  have hnone : (Document.declarations "a.toml" broken).toOption = none := by decide +kernel
  rw [Scan.batch, Scan.plainly, Tree.readText_of_find (find_document broken)]
  dsimp only [Scan.batchOf]
  cases hdeclarations : Document.declarations "a.toml" broken with
  | ok ds =>
    rw [hdeclarations] at hnone
    cases hnone
  | error e => exact ⟨e, rfl⟩

theorem verdict_interface :
    verdict [] [storeInterface] = .invalid [.of .isInterface storeInterface] := by
  cbv

theorem acyclic_alone : (finalGraph [⟨some "a.toml", [storeAt 1]⟩]).Acyclic := by
  have hordered : (finalGraph [⟨some "a.toml", [storeAt 1]⟩]).outcome =
      .ordered [ComponentWiring.Sample.store] := by cbv
  have hnodup : ([storeAt 1].map (·.identity)).Nodup := List.nodup_singleton _
  exact (Graph.orders_of_outcome (Builder.wellFormed_graphOf hnodup) hordered).acyclic

/-- Runs over a component alone, over an interface, over two components that depend on each other,
and over a text that is no TOML. -/
theorem status_of_build_of_four :
    Request.ofArguments? arguments = some (.build options) ∧
      (∀ text, Starts options [] machine (shelf text)) ∧
      (run arguments [] "now" (shelf alone) machine).1.status = 0 ∧
      (run arguments [] "now" (shelf interface) machine).1.status = 1 ∧
      (run arguments [] "now" (shelf circular) machine).1.status = 1 ∧
      (run arguments [] "now" (shelf broken) machine).1.status = 2 := by
  have harguments : Request.ofArguments? arguments = some (.build options) := rfl
  have hstarts : ∀ text, Starts options [] machine (shelf text) := by
    intro text found hfound
    cases (settingsFor_shelf text).symm.trans hfound
    rfl
  have hstatus := fun text =>
    status_of_build harguments [] "now" (shelf text) machine (hstarts text)
  refine ⟨harguments, hstarts, ?_, ?_, ?_, ?_⟩
  · have hpasses := passes_of_declarations declarations_alone
      (r := .emitted [ComponentWiring.Sample.store]) (by cbv)
    obtain ⟨-, -, -, hpassed, -⟩ := ((hstatus alone).2.2 _ _ _ _ _ hpasses).2 rfl
    exact hpassed.2 ⟨by simp, acyclic_alone⟩
  · have hpasses := passes_of_declarations declarations_interface verdict_interface
    obtain ⟨-, -, -, -, hnotPassed⟩ := ((hstatus interface).2.2 _ _ _ _ _ hpasses).2 rfl
    exact hnotPassed.2 (.inl ⟨_, List.mem_cons_self⟩)
  · have hpasses := passes_of_declarations declarations_circular
      (r := .cycle [ComponentWiring.Sample.store, ComponentWiring.Sample.app,
        ComponentWiring.Sample.store]) (by cbv)
    obtain ⟨hcycle, hended⟩ := (hstatus circular).2.2 _ _ _ _ _ hpasses
    obtain ⟨-, -, -, -, hnotPassed⟩ := hended rfl
    exact hnotPassed.2 (.inr (hcycle _ List.mem_cons_self).not_acyclic)
  · obtain ⟨e, he⟩ := exists_error_broken
    exact (hstatus broken).1.2 (.passes _ _ _ _ e (passes_of_unread he))

end Runs

end CommandLine

end ComponentWiring
