import ComponentWiring.Proofs.EmissionFaults
import ComponentWiring.Proofs.FailedEmissions
import ComponentWiring.Proofs.MadeDirectories

/-! # Dry runs

A dry run counts what emissions over a disk would write, without a disk. Where no emission fails,
the counts are the same exactly where the registrations have places of their own: nothing stands
there at the start, and nothing but the one registration comes to stand there.

* `Emission.Vacant`: components whose registrations have places of their own.
* `Emission.Predicted`: what emissions that a dry run predicts keep.
* `Emission.Settled`: what emissions keep that come to what a dry run comes to.
* `Emission.answers`: what emissions come to, one after the other.
* `Emission.dryRun_predicts`: emissions over a disk come to what a dry run comes to exactly where
  the registrations have places of their own.
-/

namespace ComponentWiring
set_option autoImplicit false

open File

namespace Emission
open Artifact

/-! ## Emissions that a dry run predicts -/

/-- Components whose registrations have places of their own: nothing stands there, no directory is
made there by an emission, and no two of the registrations have the same one. -/
structure Vacant (emit : Settings.Emit) (tree : Tree) (components : Identity → Prop) : Prop where
  free : ∀ a, components a → ∀ place, tree.aimOf (registrationPath emit a) = some place →
    tree.node? place = none
  directories : ∀ a, components a → ∀ place, tree.aimOf (registrationPath emit a) = some place →
    ∀ path ∈ emit.registrationPath :: Path.holders emit.registrationPath,
      tree.aimOf path ≠ some place
  alone : ∀ a b, components a → components b → ∀ place,
    tree.aimOf (registrationPath emit a) = some place →
      tree.aimOf (registrationPath emit b) = some place → a = b

theorem Vacant.mono {emit : Settings.Emit} {tree : Tree} {components components' : Identity → Prop}
    (h : Vacant emit tree components) (hsub : ∀ a, components' a → components a) :
    Vacant emit tree components' :=
  ⟨fun a ha => h.free a (hsub a ha), fun a ha => h.directories a (hsub a ha),
    fun a b ha hb => h.alone a b (hsub a ha) (hsub b hb)⟩

/-- One more component whose registration has a place of its own. -/
theorem Vacant.add {emit : Settings.Emit} {tree : Tree} {components : Identity → Prop}
    (h : Vacant emit tree components) {a : Identity} {place : Place}
    (hplace : tree.aimOf (registrationPath emit a) = some place)
    (hnone : tree.node? place = none)
    (hdirectories : ∀ path ∈ emit.registrationPath :: Path.holders emit.registrationPath,
      tree.aimOf path ≠ some place)
    (hothers : ∀ b, components b → tree.aimOf (registrationPath emit b) ≠ some place) :
    Vacant emit tree fun b => b = a ∨ components b := by
  constructor
  case free =>
    rintro b (rfl | hb) bplace hbplace
    · cases hplace.symm.trans hbplace
      exact hnone
    · exact h.free b hb bplace hbplace
  case directories =>
    rintro b (rfl | hb) bplace hbplace
    · cases hplace.symm.trans hbplace
      exact hdirectories
    · exact h.directories b hb bplace hbplace
  case alone =>
    rintro b c (rfl | hb) (rfl | hc) shared hbplace hcplace
    · rfl
    · cases hplace.symm.trans hbplace
      exact absurd hcplace (hothers c hc)
    · cases hplace.symm.trans hcplace
      exact absurd hbplace (hothers b hb)
    · exact h.alone b c hb hc shared hbplace hcplace

/-- Where not even a link has the name of a registration, only the directories on the way to the
registrations can be in their places. -/
theorem vacant_of_unlinked {emit : Settings.Emit} {tree : Tree} {components : Identity → Prop}
    (hfree : ∀ a, components a → ∀ directory, tree.aimOf emit.registrationPath = some directory →
      tree.node? (directory ++ [fileName a]) = none)
    (hholders : ∀ a, components a → ∀ place, tree.aimOf (registrationPath emit a) = some place →
      ∀ path ∈ Path.holders emit.registrationPath, tree.aimOf path ≠ some place) :
    Vacant emit tree components := by
  have hplaces : ∀ a, components a → ∀ place,
      tree.aimOf (registrationPath emit a) = some place →
        ∃ directory, tree.aimOf emit.registrationPath = some directory ∧
          directory ++ [fileName a] = place := by
    intro a ha place hplace
    rw [aimOf_registrationPath_eq emit a, Option.map_eq_some_iff] at hplace
    · exact hplace
    · intro directory hdirectory text hlink
      rw [hfree a ha directory hdirectory] at hlink
      cases hlink
  constructor
  case free =>
    intro a ha place hplace
    obtain ⟨directory, hdirectory, rfl⟩ := hplaces a ha place hplace
    exact hfree a ha directory hdirectory
  case directories =>
    intro a ha place hplace
    rw [List.forall_mem_cons]
    refine ⟨fun hsame => ?_, hholders a ha place hplace⟩
    obtain ⟨directory, hdirectory, hconcat⟩ := hplaces a ha place hplace
    rw [hsame, Option.some.injEq] at hdirectory
    simp [hdirectory] at hconcat
  case alone =>
    intro a b ha hb place haplace hbplace
    obtain ⟨directory, -, rfl⟩ := hplaces a ha place haplace
    obtain ⟨directory', -, hconcat⟩ := hplaces b hb _ hbplace
    have hname := (List.append_inj' hconcat rfl).2
    exact (fileName_injective (List.cons.inj hname).1).symm

/-- A workspace after emissions that a dry run predicts: nothing stands at the places of the
registrations that were not handled. -/
structure Predicted {σ : Type} (tree : σ → Tree) (emit : Settings.Emit) (start : Tree)
    (components : Identity → Prop) (w : Workspace σ) : Prop where
  grows : start.Grows (tree w.disk)
  free : ∀ a, components a → w.handled.has a = false → ∀ place,
    start.aimOf (registrationPath emit a) = some place → (tree w.disk).node? place = none

section Step
variable {σ : Type} {disk : Disk σ} {tree : σ → Tree} {emit : Settings.Emit} {start : Tree}
  {components : Identity → Prop}

theorem Vacant.predicted (hvacant : Vacant emit start components) {s : σ}
    (hstart : tree s = start) : Predicted tree emit start components (.on s) where
  grows := hstart ▸ .refl _
  free a ha _ place hplace := by
    rw [Workspace.on, hstart]
    exact hvacant.free a ha place hplace

variable (hshows : disk.Shows tree) (hproper : start.Proper)
  (hvacant : Vacant emit start components) {w : Workspace σ}
  (hw : Predicted tree emit start components w)
include hshows hw

section Vacant
include hvacant

/-- Making the directories puts nothing at the place of a registration. -/
theorem Predicted.prepared : Predicted tree emit start components (prepared disk emit w) where
  grows := hw.grows.trans (made_makeDirectories hshows emit w.disk).grows
  free a ha hnew place hplace := by
    have hmade := made_makeDirectories hshows emit w.disk
    have hnone := hw.free a ha hnew place hplace
    by_contra hne
    rw [← hnone] at hne
    obtain ⟨-, -, path, hpath, haim⟩ := hmade.changed place hne
    rw [hw.grows.aimOf_eq] at haim
    exact hvacant.directories a ha place hplace path hpath haim

include hproper

/-- A component that was not handled is registered anew, unless the disk fails. -/
theorem Predicted.register {a : Identity} (ha : components a) (hnew : w.handled.has a = false)
    (hok : ∀ e, (register disk emit a w).1 ≠ .error e) :
    (register disk emit a w).1 = .ok true ∧
      (register disk emit a w).2.handled = w.handled ∧
      Predicted tree emit start components ((register disk emit a w).2.handle a) := by
  obtain ⟨hhandled, hcases⟩ := register_cases hshows emit a w (hw.grows.proper hproper)
  rcases hcases with ⟨-, -, hexists⟩ | ⟨hwritten, place, hnone, hwrote⟩ | ⟨⟨e, he⟩, -⟩
  · -- nothing is there that could be found
    obtain ⟨place, node, hfind⟩ := Tree.exists?_iff.1 hexists
    have hplace := Tree.aimOf_of_find hfind
    rw [hw.grows.aimOf_eq] at hplace
    have hnode := Tree.node?_of_find hfind
    rw [hw.free a ha hnew place hplace] at hnode
    cases hnode
  · -- the new registration stands at a place of its own, as no two file names are the same
    refine ⟨hwritten, hhandled, hw.grows.trans hwrote.grows, ?_⟩
    have hplace : start.aimOf (registrationPath emit a) = some place := by
      rw [← hw.grows.aimOf_eq]
      exact hwrote.aim
    intro b hb hbnew bplace hbplace
    rw [Workspace.handle, Seen.has_insert, hhandled, Bool.or_eq_false_iff] at hbnew
    have hne : bplace ≠ place := by
      rintro rfl
      exact of_decide_eq_false hbnew.1 (hvacant.alone b a hb ha bplace hbplace hplace)
    change (tree (Emission.register disk emit a w).2.disk).node? bplace = none
    rw [hwrote.node?_eq, if_neg hne]
    exact hw.free b hb hbnew.2 bplace hbplace
  · exact absurd he (hok e)

theorem registerAll_eq_count {order : List Identity} (horder : ∀ a ∈ order, components a)
    (summary : EmitSummary) (hok : ¬ RegistrationFails disk emit order w) :
    (registerAll disk emit order summary w).1 = .ok (count order summary w.handled).1 ∧
      (registerAll disk emit order summary w).2.handled = (count order summary w.handled).2 ∧
      Predicted tree emit start components (registerAll disk emit order summary w).2 := by
  -- `Predicted` is the invariant: what was not handled cannot be found, so it is written
  induction order generalizing summary w with
  | nil => exact ⟨rfl, rfl, hw⟩
  | cons a rest ih =>
    obtain ⟨ha, hrest⟩ := List.forall_mem_cons.1 horder
    cases hhas : w.handled.has a with
    | true =>
      rw [registerAll_handled disk emit hhas, count, if_pos hhas]
      exact ih hw hrest _ fun h => hok (.handled hhas h)
    | false =>
      have hregister : ∀ e, (register disk emit a w).1 ≠ .error e := by
        intro e he
        obtain ⟨hnone, fault, hwrite⟩ := (register_error_iff disk emit a w).1 ⟨e, he⟩
        exact hok (.here fault hhas hnone hwrite)
      obtain ⟨hwritten, hhandled, hafter⟩ := hw.register hshows hproper hvacant ha hhas hregister
      have hsame : ((register disk emit a w).2.handle a).handled = w.handled.insert a :=
        congrArg (Seen.insert · a) hhandled
      have hnew : ¬ w.handled.has a = true := by simp [hhas]
      rw [registerAll_new disk emit hhas hwritten, if_pos rfl, count, if_neg hnew, ← hsame]
      exact ih hafter hrest _ fun h => hok (.registered true hhas hwritten h)

end Vacant

variable (hmanifest : ∀ a, components a → ∀ place,
  start.aimOf (registrationPath emit a) = some place → start.aimOf emit.manifestPath ≠ some place)
include hproper hmanifest

/-- Writing the manifest puts nothing at the place of a registration. -/
theorem Predicted.writeManifest (order : List Identity) :
    Predicted tree emit start components (Emission.writeManifest disk emit order w).2 := by
  obtain ⟨hdisk, hhandled⟩ := writeManifest_leaves disk emit order w
  have hwrite := hshows.write emit.manifestPath (Artifact.manifest order) w.disk
  rw [← hdisk] at hwrite
  rcases hwrite with ⟨-, hok⟩ | ⟨-, hsame⟩
  · obtain ⟨place, hwrote⟩ := Tree.wrote_of_write (hw.grows.proper hproper) hok
    refine ⟨hw.grows.trans hwrote.grows, ?_⟩
    intro a ha hnew aplace haplace
    have hne : aplace ≠ place := by
      rintro rfl
      have haim := hwrote.aim
      rw [hw.grows.aimOf_eq] at haim
      exact hmanifest a ha aplace haplace haim
    rw [hwrote.node?_eq, if_neg hne]
    exact hw.free a ha (hhandled ▸ hnew) aplace haplace
  · exact ⟨hsame ▸ hw.grows,
      fun a ha hnew place hplace => hsame ▸ hw.free a ha (hhandled ▸ hnew) place hplace⟩

include hvacant

/-- An emission in which nothing fails counts as a dry run counts. -/
theorem toDisk_eq_count {order : List Identity} (horder : ∀ a ∈ order, components a)
    (hok : ¬ Fails disk emit order w) :
    (toDisk disk emit order w).1 = .ok (count order .zero w.handled).1 ∧
      (toDisk disk emit order w).2.handled = (count order .zero w.handled).2 ∧
      Predicted tree emit start components (toDisk disk emit order w).2 := by
  obtain ⟨hmade, summary, w', hall, hresult, hdisk, hkept⟩ := toDisk_of_not_fails disk emit hok
  obtain ⟨hcount, hhandled, hregistered⟩ := registerAll_eq_count hshows hproper hvacant
    (hw.prepared hshows hvacant) horder .zero fun h => hok (.registration hmade h)
  rw [hall] at hcount hhandled hregistered
  have hafter := hregistered.writeManifest hshows hproper hmanifest order
  have hsame := (writeManifest_leaves disk emit order w').2
  refine ⟨hresult.trans hcount, hkept.trans (hsame.trans hhandled), ?_, ?_⟩
  · rw [hdisk]
    exact hafter.grows
  · rw [hkept, hdisk]
    exact hafter.free

end Step

/-! ## Emissions that come to what a dry run comes to -/

/-- What was counted before is added to the count. -/
theorem count_added {summary summary' : EmitSummary} {k : Nat}
    (h : summary'.written = summary.written + k) (order : List Identity) (handled : Seen) :
    (count order summary' handled).2 = (count order summary handled).2 ∧
      (count order summary' handled).1.written =
        (count order summary handled).1.written + k := by
  induction order generalizing summary summary' handled with
  | nil => exact ⟨rfl, h⟩
  | cons a rest ih =>
    rw [count, count]
    split
    · have hskipped : summary'.addSkipped.written = summary.addSkipped.written + k := h
      exact ih hskipped handled
    · apply ih
      simp only [EmitSummary.addWritten, h]
      omega

theorem count_addWritten (order : List Identity) (summary : EmitSummary) (handled : Seen) :
    (count order summary.addWritten handled).2 = (count order summary.addSkipped handled).2 ∧
      (count order summary.addWritten handled).1.written =
        (count order summary.addSkipped handled).1.written + 1 := by
  have hone : summary.addWritten.written = summary.addSkipped.written + 1 := rfl
  exact count_added hone order handled

theorem has_count_iff (order : List Identity) (summary : EmitSummary) (handled : Seen)
    (b : Identity) :
    (count order summary handled).2.has b = true ↔ b ∈ order ∨ handled.has b = true := by
  induction order generalizing summary handled with
  | nil => simp [count]
  | cons a rest ih =>
    rw [count, List.mem_cons]
    split
    · next hhas =>
      rw [ih, or_assoc]
      refine ⟨.inr, ?_⟩
      rintro (rfl | h)
      · exact .inr hhas
      · exact h
    · rw [ih, Seen.has_insert, Bool.or_eq_true, decide_eq_true_eq, or_assoc, or_left_comm]

section Counted
variable {σ : Type} {disk : Disk σ} {emit : Settings.Emit}

theorem handled_register (a : Identity) (w : Workspace σ) :
    (register disk emit a w).2.handled = w.handled := by
  rw [register]
  split
  · rfl
  · rcases disk.write (registrationPath emit a) (registration a) w.disk with ⟨fault | u, s⟩
    · rfl
    · rfl

/-- An emission writes no more than a dry run counts. -/
theorem registerAll_le_count {order : List Identity} {summary result : EmitSummary}
    {w : Workspace σ} (h : (registerAll disk emit order summary w).1 = .ok result) :
    (registerAll disk emit order summary w).2.handled = (count order summary w.handled).2 ∧
      result.written ≤ (count order summary w.handled).1.written := by
  induction order generalizing summary w with
  | nil =>
    cases h
    exact ⟨rfl, le_rfl⟩
  | cons a rest ih =>
    cases hhas : w.handled.has a with
    | true =>
      rw [registerAll_handled disk emit hhas] at h ⊢
      rw [count, if_pos hhas]
      exact ih h
    | false =>
      have hnew : ¬ w.handled.has a = true := by simp [hhas]
      cases hregister : (register disk emit a w).1 with
      | error e =>
        rw [registerAll_failed disk emit hhas hregister] at h
        cases h
      | ok wrote =>
        have hsame : ((register disk emit a w).2.handle a).handled = w.handled.insert a :=
          congrArg (Seen.insert · a) (handled_register a w)
        rw [registerAll_new disk emit hhas hregister] at h ⊢
        obtain ⟨hhandled, hle⟩ := ih h
        rw [hsame] at hhandled hle
        rw [count, if_neg hnew]
        cases wrote with
        | true => exact ⟨hhandled, hle⟩
        | false =>
          obtain ⟨hseen, hless⟩ := count_addWritten rest summary (w.handled.insert a)
          rw [if_neg Bool.false_ne_true] at hhandled hle
          exact ⟨hhandled.trans hseen.symm, by omega⟩

end Counted

/-- A workspace after emissions that came to what a dry run comes to: the registrations that were
handled had places of their own, and stand there. -/
structure Settled {σ : Type} (tree : σ → Tree) (emit : Settings.Emit) (start : Tree)
    (w : Workspace σ) : Prop where
  grows : start.Grows (tree w.disk)
  vacant : Vacant emit start fun a => w.handled.has a = true
  stands : ∀ a, w.handled.has a = true → ∀ place,
    start.aimOf (registrationPath emit a) = some place → (tree w.disk).node? place ≠ none

section Settled
variable {σ : Type} {disk : Disk σ} {tree : σ → Tree} {emit : Settings.Emit} {start : Tree}
  {w w' : Workspace σ}

theorem settled_on {s : σ} (hstart : tree s = start) : Settled tree emit start (.on s) := by
  have hnone : ∀ a, ¬ (Workspace.on s).handled.has a = true := by simp [Workspace.on]
  exact ⟨hstart ▸ .refl _, ⟨fun a ha => absurd ha (hnone a), fun a ha => absurd ha (hnone a),
    fun a _ ha => absurd ha (hnone a)⟩, fun a ha => absurd ha (hnone a)⟩

theorem Settled.keep (h : Settled tree emit start w)
    (hgrows : (tree w.disk).Grows (tree w'.disk)) (hhandled : w'.handled = w.handled) :
    Settled tree emit start w' where
  grows := h.grows.trans hgrows
  vacant := hhandled ▸ h.vacant
  stands := by
    intro a ha place hplace
    rw [hhandled] at ha
    obtain ⟨node, hnode⟩ := Option.ne_none_iff_exists'.1 (h.stands a ha place hplace)
    obtain ⟨node', hnode'⟩ := hgrows.exists_node hnode
    simp [hnode']

variable (hshows : disk.Shows tree) (hproper : start.Proper) (h : Settled tree emit start w)
include hshows hproper h

/-- A component that is registered anew has a place of its own. -/
theorem Settled.after_register {a : Identity} (hhoused : Housed emit (tree w.disk))
    (hwritten : (register disk emit a w).1 = .ok true) :
    Settled tree emit start ((register disk emit a w).2.handle a) ∧
      Housed emit (tree (register disk emit a w).2.disk) := by
  obtain ⟨hhandled, hcases⟩ := register_cases hshows emit a w (h.grows.proper hproper)
  rcases hcases with ⟨hfound, -⟩ | ⟨-, place, hnone, hwrote⟩ | ⟨⟨e, he⟩, -⟩
  · cases hfound.symm.trans hwritten
  · have hhoused' := hhoused.grows hwrote.grows
    have hplace : start.aimOf (registrationPath emit a) = some place :=
      h.grows.aimOf_eq _ ▸ hwrote.aim
    have hgrows := h.grows.trans hwrote.grows
    have hmem : ∀ b, ((register disk emit a w).2.handle a).handled.has b = true →
        b = a ∨ w.handled.has b = true := by
      intro b hb
      rw [Workspace.handle, Seen.has_insert, hhandled, Bool.or_eq_true, decide_eq_true_eq] at hb
      exact hb
    have hvacant := h.vacant.add hplace (h.grows.node?_eq_none hnone)
      (fun path hpath => hgrows.aimOf_eq path ▸ hhoused'.aimOf_ne hwrote.find path hpath)
      fun b hb hbplace => h.stands b hb place hbplace hnone
    refine ⟨⟨hgrows, hvacant.mono hmem, ?_⟩, hhoused'⟩
    intro b hb bplace hbplace
    change (tree (register disk emit a w).2.disk).node? bplace ≠ none
    rw [hwrote.node?_eq]
    rcases hmem b hb with rfl | hb
    · cases hplace.symm.trans hbplace
      simp
    · split
      · simp
      · exact h.stands b hb bplace hbplace
  · cases he.symm.trans hwritten

/-- Where as many components are registered as a dry run counts, each of them is registered anew. -/
theorem Settled.after_registerAll {order : List Identity} {summary : EmitSummary}
    (hhoused : Housed emit (tree w.disk))
    (hcount : (registerAll disk emit order summary w).1 =
      .ok (count order summary w.handled).1) :
    Settled tree emit start (registerAll disk emit order summary w).2 := by
  induction order generalizing summary w with
  | nil => exact h
  | cons a rest ih =>
    cases hhas : w.handled.has a with
    | true =>
      rw [registerAll_handled disk emit hhas] at hcount ⊢
      rw [count, if_pos hhas] at hcount
      exact ih h hhoused hcount
    | false =>
      rw [count, if_neg (by simp [hhas])] at hcount
      cases hregister : (register disk emit a w).1 with
      | error e =>
        rw [registerAll_failed disk emit hhas hregister] at hcount
        cases hcount
      | ok wrote =>
        have hsame : w.handled.insert a =
            ((register disk emit a w).2.handle a).handled :=
          congrArg (Seen.insert · a) (handled_register a w).symm
        rw [registerAll_new disk emit hhas hregister, hsame] at hcount
        rw [registerAll_new disk emit hhas hregister]
        cases wrote with
        | true =>
          obtain ⟨hafter, hhoused'⟩ := h.after_register hshows hproper hhoused hregister
          exact ih hafter hhoused' hcount
        | false =>
          -- one that was found is missing in the count
          have hle := (registerAll_le_count hcount).2
          have hless := (count_addWritten rest summary
            ((register disk emit a w).2.handle a).handled).2
          rw [if_neg Bool.false_ne_true] at hle
          omega

/-- An emission that comes to what a dry run comes to. -/
theorem Settled.after_toDisk
    (hlooks : ∀ path s, disk.isDirectory path s = (tree s).isDirectory path)
    {order : List Identity}
    (hcount : (toDisk disk emit order w).1 = .ok (count order .zero w.handled).1) :
    Settled tree emit start (toDisk disk emit order w).2 ∧
      (toDisk disk emit order w).2.handled = (count order .zero w.handled).2 := by
  have hok : ¬ Fails disk emit order w := by
    rw [← toDisk_error_iff, hcount]
    rintro ⟨e, ⟨⟩⟩
  obtain ⟨hmade, summary, w', hall, hresult, hdisk, hkept⟩ := toDisk_of_not_fails disk emit hok
  cases hresult.symm.trans hcount
  have hprepared : Settled tree emit start (prepared disk emit w) :=
    h.keep (made_makeDirectories hshows emit w.disk).grows rfl
  have hsame' : (registerAll disk emit order .zero (prepared disk emit w)).1 =
      .ok (count order .zero (prepared disk emit w).handled).1 := by
    rw [hall]
    rfl
  have hregistered := hprepared.after_registerAll hshows hproper
    (housed_makeDirectories hshows hlooks hmade) hsame'
  have hhandled := (registerAll_le_count (congrArg Prod.fst hall)).1
  rw [hall] at hregistered hhandled
  obtain ⟨hwritten, hsame⟩ := writeManifest_leaves disk emit order w'
  refine ⟨hregistered.keep ?_ (hkept.trans hsame), hkept.trans (hsame.trans hhandled)⟩
  rw [hdisk, hwritten]
  exact hshows.grows_write (hregistered.grows.proper hproper) _ _

end Settled

/-! ## Sequences of orders -/

section Answers
variable {σ : Type}

/-- What emissions of orders come to, one after the other. -/
def answers (emission : List Identity → Workspace σ → Except Error EmitSummary × Workspace σ) :
    List (List Identity) → Workspace σ → List (Except Error EmitSummary)
  | [], _ => []
  | order :: orders, w => (emission order w).1 :: answers emission orders (emission order w).2

/-- In none of the emissions of orders a call on the disk fails. -/
def Faultless (disk : Disk σ) (emit : Settings.Emit) : List (List Identity) → Workspace σ → Prop
  | [], _ => True
  | order :: orders, w =>
    ¬ Fails disk emit order w ∧ Faultless disk emit orders (toDisk disk emit order w).2

/-- A dry run of orders succeeds and leaves the disk. -/
theorem dryRun_leaves (orders : List (List Identity)) (w : Workspace σ) :
    (∀ answer ∈ answers dryRun orders w, ∃ summary, answer = .ok summary) ∧
      (orders.foldl (fun w order => (dryRun order w).2) w).disk = w.disk := by
  induction orders generalizing w with
  | nil => exact ⟨nofun, rfl⟩
  | cons order orders ih =>
    obtain ⟨hrest, hdisk⟩ := ih (dryRun order w).2
    rw [answers, List.forall_mem_cons]
    exact ⟨⟨⟨_, rfl⟩, hrest⟩, hdisk⟩

variable {disk : Disk σ} {emit : Settings.Emit} {orders : List (List Identity)}

theorem Faultless.succeeds {w : Workspace σ} (hok : Faultless disk emit orders w) :
    ∀ answer ∈ answers (toDisk disk emit) orders w, ∃ summary, answer = .ok summary := by
  induction orders generalizing w with
  | nil => exact nofun
  | cons order orders ih =>
    obtain ⟨-, summary, -, -, hresult, -⟩ := toDisk_of_not_fails disk emit hok.1
    rw [answers, List.forall_mem_cons]
    exact ⟨⟨summary, hresult⟩, ih hok.2⟩

variable {tree : σ → Tree} (hshows : disk.Shows tree) {start : Tree} (hproper : start.Proper)
include hshows hproper

/-- Where the registrations have places of their own, emissions over a disk come to what a dry run
comes to, from workspaces with the same handled components. -/
theorem answers_toDisk_eq {components : Identity → Prop}
    (hvacant : Vacant emit start components)
    (hmanifest : ∀ a, components a → ∀ place,
      start.aimOf (registrationPath emit a) = some place →
        start.aimOf emit.manifestPath ≠ some place)
    (horders : ∀ order ∈ orders, ∀ a ∈ order, components a) {w w' : Workspace σ}
    (hw : Predicted tree emit start components w) (hhandled : w'.handled = w.handled)
    (hok : Faultless disk emit orders w) :
    answers (toDisk disk emit) orders w = answers dryRun orders w' := by
  induction orders generalizing w w' with
  | nil => rfl
  | cons order orders ih =>
    obtain ⟨horder, hrest⟩ := List.forall_mem_cons.1 horders
    obtain ⟨hcount, hsame, hafter⟩ :=
      toDisk_eq_count hshows hproper hvacant hw hmanifest horder hok.1
    have hdry : (dryRun order w').2.handled = (toDisk disk emit order w).2.handled := by
      rw [hsame, ← hhandled]
      rfl
    have hhead : (dryRun order w').1 = (toDisk disk emit order w).1 := by
      rw [hcount, ← hhandled]
      rfl
    rw [answers, answers, hhead, ih hrest hafter hdry hok.2]

/-- Where emissions over a disk come to what a dry run comes to, the registrations have places of
their own. -/
theorem vacant_of_answers (hlooks : ∀ path s, disk.isDirectory path s = (tree s).isDirectory path)
    {w w' : Workspace σ} (hw : Settled tree emit start w) (hhandled : w'.handled = w.handled)
    (hsame : answers (toDisk disk emit) orders w = answers dryRun orders w') :
    Vacant emit start fun a => a ∈ orders.flatten ∨ w.handled.has a = true := by
  induction orders generalizing w w' with
  | nil => simpa using hw.vacant
  | cons order orders ih =>
    rw [answers, answers, List.cons.injEq] at hsame
    have hcount : (toDisk disk emit order w).1 = .ok (count order .zero w.handled).1 := by
      rw [hsame.1, ← hhandled]
      rfl
    obtain ⟨hafter, hkept⟩ := hw.after_toDisk hshows hproper hlooks hcount
    have hdry : (dryRun order w').2.handled = (toDisk disk emit order w).2.handled := by
      rw [hkept, ← hhandled]
      rfl
    have hrest := ih hafter hdry hsame.2
    simpa only [hkept, has_count_iff, List.flatten_cons, List.mem_append, or_assoc, or_left_comm]
      using hrest

end Answers

/-- Where no call on the disk fails and no registration has the place of the manifest, emissions of
orders over a disk, with repeats or without, come to what a dry run of them comes to exactly where
the registrations have places of their own. A dry run leaves the disk. -/
theorem dryRun_predicts {σ : Type} {disk : Disk σ} {tree : σ → Tree} (hshows : disk.Shows tree)
    (hlooks : ∀ path s, disk.isDirectory path s = (tree s).isDirectory path)
    (emit : Settings.Emit) (orders : List (List Identity)) (s : σ) (hproper : (tree s).Proper)
    (hmanifest : ∀ a ∈ orders.flatten, ∀ place,
      (tree s).aimOf (registrationPath emit a) = some place →
        (tree s).aimOf emit.manifestPath ≠ some place)
    (hok : Faultless disk emit orders (Workspace.on s)) :
    (answers (toDisk disk emit) orders (Workspace.on s) =
        answers dryRun orders (Workspace.on s) ↔
      Vacant emit (tree s) (· ∈ orders.flatten)) ∧
    (∀ answer ∈ answers (toDisk disk emit) orders (Workspace.on s),
      ∃ summary, answer = .ok summary) ∧
    (∀ answer ∈ answers dryRun orders (Workspace.on s), ∃ summary, answer = .ok summary) ∧
    (orders.foldl (fun w order => (dryRun order w).2) (Workspace.on s)).disk = s := by
  obtain ⟨hall, hdisk⟩ := dryRun_leaves orders (Workspace.on s)
  refine ⟨⟨fun hsame => ?_, fun hvacant => ?_⟩, hok.succeeds, hall, hdisk⟩
  · simpa [Workspace.on] using
      vacant_of_answers hshows hproper hlooks (settled_on rfl) rfl hsame
  · have hmem : ∀ order ∈ orders, ∀ a ∈ order, a ∈ orders.flatten :=
      fun order horder a ha => List.mem_flatten.2 ⟨order, horder, ha⟩
    exact answers_toDisk_eq hshows hproper hvacant hmanifest hmem (hvacant.predicted rfl) rfl hok

/-! ## Emissions of one component -/

namespace Sample

def lone : Identity := ⟨"a", by decide, by decide⟩

theorem names_registration : Tree.Names "a.registration" := ⟨by decide, by decide, by decide⟩

theorem namesHere_lone : Tree.NamesHere (registrationPath here lone) "a.registration" :=
  ⟨⟨by decide, by decide, by decide⟩, names_registration, by decide, by decide, 2, by decide⟩

theorem write_manifest {tree : Tree} (hroot : tree.workingDirectory = [])
    (hplace : tree.Writable ["m"]) (text : String) :
    Tree.disk.write "./m" text tree =
      (.ok (), tree.put ["m"] (.file text.toUTF8.data.toList)) := by
  have hdirectory : tree.node? tree.workingDirectory = some .directory := by
    rw [hroot, Tree.node?_root]
  have hwritable : tree.Writable (tree.workingDirectory ++ ["m"]) := by
    rw [hroot]
    exact hplace
  have hwrite := namesHere_manifest.disk_write_eq hdirectory hwritable text
  rwa [hroot] at hwrite

/-- The tree with a registration and a manifest. -/
def emittedTree : Tree :=
  ((⟨[], []⟩ : Tree).put ["a.registration"] (.file (registration lone).toUTF8.data.toList)).put
    ["m"] (.file (Artifact.manifest [lone, lone]).toUTF8.data.toList)

theorem toDisk_here :
    ∃ events, toDisk Tree.disk here [lone, lone] (Workspace.on ⟨[], []⟩) =
      (.ok ⟨1, 1⟩, ⟨emittedTree, Seen.empty.insert lone, events⟩) := by
  have hexists : Tree.disk.exists? (registrationPath here lone) ⟨[], []⟩ = false :=
    namesHere_lone.exists?_eq_false (Tree.node?_root ⟨[], []⟩) rfl
  have hwrite :=
    namesHere_lone.disk_write_eq (Tree.node?_root ⟨[], []⟩) (.inl rfl) (registration lone)
  have hhas : (Seen.empty.insert lone).has lone = true := by simp
  rw [toDisk, registrationPath_here, Workspace.on,
    Tree.makeDirectories_here (Tree.node?_root ⟨[], []⟩)]
  dsimp only
  rw [registerAll, Seen.has_empty, if_neg Bool.false_ne_true, register, hexists,
    if_neg Bool.false_ne_true, hwrite]
  dsimp only [registerAll, Workspace.handle, Workspace.log, Tree.changed]
  rw [if_pos hhas]
  dsimp only [writeManifest]
  rw [manifestPath_here, write_manifest rfl (.inl rfl)]
  exact ⟨_, rfl⟩

theorem toDisk_here_again (events : List Event) :
    (toDisk Tree.disk here [lone] ⟨emittedTree, Seen.empty.insert lone, events⟩).1 =
      .ok ⟨0, 1⟩ := by
  have hhas : (Seen.empty.insert lone).has lone = true := by simp
  rw [toDisk, registrationPath_here, Tree.makeDirectories_here (Tree.node?_root emittedTree)]
  dsimp only [registerAll]
  rw [if_pos hhas]
  dsimp only [writeManifest]
  rw [manifestPath_here, write_manifest rfl (.inr ⟨_, rfl⟩)]
  rfl

theorem vacant_here : Vacant here ⟨[], []⟩ (· ∈ [[lone, lone], [lone]].flatten) := by
  have haim := Tree.aimOf_of_linkless linkless_nil rfl
  have hlone : ∀ a ∈ [[lone, lone], [lone]].flatten, a = lone := by decide
  have hholders : ∀ path ∈ Path.holders here.registrationPath,
      (Path.segments path).foldl Tree.stepTo [] ≠ ["a.registration"] := by decide
  refine vacant_of_unlinked ?_ ?_
  · intro a _ directory _
    simp [Tree.node?]
  · intro a ha place hplace path hpath
    rw [hlone a ha, haim] at hplace
    rw [haim, ← hplace]
    exact fun hsame => hholders path hpath (Option.some.inj hsame)

theorem faultless_here :
    Faultless Tree.disk here [[lone, lone], [lone]] (Workspace.on ⟨[], []⟩) := by
  obtain ⟨events, hfirst⟩ := toDisk_here
  refine ⟨?_, ?_, trivial⟩
  · rw [← toDisk_error_iff, hfirst]
    rintro ⟨e, ⟨⟩⟩
  · rw [hfirst, ← toDisk_error_iff, toDisk_here_again]
    rintro ⟨e, ⟨⟩⟩

/-- Two emissions of one component, the first with a repeat. -/
theorem dryRun_predicts_of_two :
    Faultless Tree.disk here [[lone, lone], [lone]] (Workspace.on ⟨[], []⟩) ∧
      Vacant here ⟨[], []⟩ (· ∈ [[lone, lone], [lone]].flatten) ∧
      answers (toDisk Tree.disk here) [[lone, lone], [lone]] (Workspace.on ⟨[], []⟩) =
        [.ok ⟨1, 1⟩, .ok ⟨0, 1⟩] := by
  have hpredicts := dryRun_predicts Tree.shows_disk (fun _ _ => rfl) here [[lone, lone], [lone]]
    ⟨[], []⟩ (Tree.proper_of_linkless linkless_nil)
    (fun a _ place hplace hmanifest => manifest_apart_here a (hmanifest.trans hplace.symm))
    faultless_here
  exact ⟨faultless_here, vacant_here, (hpredicts.1.2 vacant_here).trans rfl⟩

/-! ## A directory in the place of a registration -/

/-- Settings whose directory of the registrations is given by way of another directory. -/
def roundabout : Settings.Emit :=
  { outputDirectory := "out", manifestName := "m", registrationDirectory := "a.registration/.." }

/-- The tree with the directories of these settings. -/
def roundaboutTree : Tree :=
  ⟨[(["out"], .directory), (["out", "a.registration"], .directory)], []⟩

theorem names_out : Tree.Names "out" := ⟨by decide, by decide, by decide⟩

theorem makeDirectory_missing {path : String} (husable : Tree.Usable path)
    (habsolute : Path.isAbsolute path = false) {next : String} {rest : List String}
    (hsegments : Path.segments path = "out" :: next :: rest) :
    (⟨[], []⟩ : Tree).makeDirectory path = .error .missing := by
  have hwalk : (⟨[], []⟩ : Tree).walk false Tree.linkLimit [] ("out" :: next :: rest) =
      .error .missing := by
    rw [Tree.walk, if_neg (not_not.2 (Tree.node?_root _)), if_neg names_out.ne_here,
      if_neg names_out.ne_up, if_neg (Nat.not_lt.2 names_out.le)]
    rfl
  have hlead : (⟨[], []⟩ : Tree).lead false path ("out" :: next :: rest) = .error .missing := by
    rw [Tree.lead, if_neg (by simp [husable.noNul]), if_neg husable.ne,
      if_neg (Nat.not_lt.2 husable.le), habsolute]
    exact hwalk
  rw [Tree.makeDirectory, hsegments, hlead]

theorem way_roundabout (followLast : Bool) :
    Tree.Way roundaboutTree followLast Tree.linkLimit [] ["out", "a.registration", ".."]
      (.there ["out"] .directory) :=
  .name rfl names_out rfl (fun _ => Node.noConfusion)
    (.name rfl names_registration rfl (fun _ => Node.noConfusion) (.up rfl (.there _ rfl)))

theorem makeDirectories_roundabout :
    Tree.disk.makeDirectories "out/a.registration/.." ⟨[], []⟩ = (.ok (), roundaboutTree) := by
  have husable : Tree.Usable "out/a.registration/.." := ⟨by decide, by decide, by decide⟩
  have husable' : Tree.Usable "out/a.registration" := ⟨by decide, by decide, by decide⟩
  have hholders : Path.holders "out/a.registration/.." = ["out/a.registration", "out"] := by decide
  have hsegments : Path.segments "out/a.registration/.." = ["out", "a.registration", ".."] := by
    decide
  have hsegments' : Path.segments "out/a.registration" = ["out", "a.registration"] := by decide
  have hclosed : Tree.closedSegments "out/a.registration/.." = ["out", "a.registration", ".."] := by
    decide
  have hfirst := makeDirectory_missing husable (by decide) hsegments
  have hsecond := makeDirectory_missing husable' (by decide) hsegments'
  have hout : (⟨[], []⟩ : Tree).makeDirectory "out" = .ok ⟨[(["out"], .directory)], []⟩ := by
    have hlead : (⟨[], []⟩ : Tree).lead false "out" (Path.segments "out") = .ok (.free ["out"]) :=
      Tree.lead_eq_ok_iff.2 ⟨⟨by decide, by decide, by decide⟩, .free _ rfl names_out rfl⟩
    rw [Tree.makeDirectory, hlead]
    rfl
  have hinner : (⟨[(["out"], .directory)], []⟩ : Tree).makeDirectory "out/a.registration" =
      .ok roundaboutTree := by
    have hlead : (⟨[(["out"], .directory)], []⟩ : Tree).lead false "out/a.registration"
        ["out", "a.registration"] = .ok (.free ["out", "a.registration"]) :=
      Tree.lead_eq_ok_iff.2 ⟨husable', .name rfl names_out rfl (fun _ => Node.noConfusion)
        (.free _ rfl names_registration rfl)⟩
    rw [Tree.makeDirectory, hsegments', hlead]
    rfl
  have hlast : roundaboutTree.makeDirectory "out/a.registration/.." = .error .alreadyThere := by
    have hlead : roundaboutTree.lead false "out/a.registration/.." ["out", "a.registration", ".."] =
        .ok (.there ["out"] .directory) :=
      Tree.lead_eq_ok_iff.2 ⟨husable, way_roundabout false⟩
    rw [Tree.makeDirectory, hsegments, hlead]
  have hisDirectory : roundaboutTree.isDirectory "out/a.registration/.." = true := by
    have hfind : roundaboutTree.find "out/a.registration/.." = .ok (["out"], .directory) := by
      rw [Tree.find_eq_ok_iff, hclosed]
      exact ⟨husable, way_roundabout true⟩
    rw [Tree.isDirectory, hfind]
  simp [Disk.makeDirectories, Disk.makeOutermost, Disk.makeEach, Tree.disk, Tree.changed, hholders,
    hfirst, hsecond, hout, hinner, hlast, hisDirectory]

theorem registrationPath_lone :
    registrationPath roundabout lone = "out/a.registration/../a.registration" := by decide

/-- The directory on the way is found where the registration would be. -/
theorem exists?_registration_lone :
    roundaboutTree.exists? "out/a.registration/../a.registration" = true := by
  have hclosed : Tree.closedSegments "out/a.registration/../a.registration" =
      ["out", "a.registration", "..", "a.registration"] := by decide
  refine Tree.exists?_iff.2 ⟨["out", "a.registration"], .directory, ?_⟩
  rw [Tree.find_eq_ok_iff, hclosed]
  exact ⟨⟨by decide, by decide, by decide⟩, .name rfl names_out rfl (fun _ => Node.noConfusion)
    (.name rfl names_registration rfl (fun _ => Node.noConfusion) (.up rfl
      (.name rfl names_registration rfl (fun _ => Node.noConfusion) (.there _ rfl))))⟩

theorem write_manifest_roundabout (text : String) :
    Tree.disk.write "out/m" text roundaboutTree =
      (.ok (), roundaboutTree.put ["out", "m"] (.file text.toUTF8.data.toList)) := by
  have hsegments : Path.segments "out/m" = ["out", "m"] := by decide
  have hway : Tree.Way roundaboutTree true Tree.linkLimit [] ["out", "m"] (.free ["out", "m"]) :=
    .name rfl names_out rfl (fun _ => Node.noConfusion)
      (.free _ rfl ⟨by decide, by decide, by decide⟩ rfl)
  have husable : Tree.Usable "out/m" := ⟨by decide, by decide, by decide⟩
  exact Tree.write_of_way husable (hsegments ▸ hway) (by rintro ⟨⟩) (by decide) text

theorem toDisk_roundabout :
    (toDisk Tree.disk roundabout [lone] (Workspace.on ⟨[], []⟩)).1 = .ok ⟨0, 1⟩ := by
  have hdirectory : roundabout.registrationPath = "out/a.registration/.." := by decide
  have hmanifest : roundabout.manifestPath = "out/m" := by decide
  have hexists : Tree.disk.exists? "out/a.registration/../a.registration" roundaboutTree = true :=
    exists?_registration_lone
  rw [toDisk, hdirectory, Workspace.on, makeDirectories_roundabout]
  dsimp only
  rw [registerAll, Seen.has_empty, if_neg Bool.false_ne_true, register, registrationPath_lone,
    hexists, if_pos rfl]
  dsimp only [registerAll, writeManifest, Workspace.handle, Workspace.log]
  rw [hmanifest, write_manifest_roundabout]
  rfl

/-- Nothing is on the disk, the manifest has another place than the registration, and nothing
fails. But the directory on the way to the registrations has the place of the registration, so the
registration is found where the dry run counts one to write. -/
theorem dryRun_mispredicts :
    (⟨[], []⟩ : Tree).exists? (registrationPath roundabout lone) = false ∧
      (⟨[], []⟩ : Tree).aimOf roundabout.manifestPath ≠
        (⟨[], []⟩ : Tree).aimOf (registrationPath roundabout lone) ∧
      Faultless Tree.disk roundabout [[lone]] (Workspace.on ⟨[], []⟩) ∧
      answers (toDisk Tree.disk roundabout) [[lone]] (Workspace.on ⟨[], []⟩) = [.ok ⟨0, 1⟩] ∧
      answers dryRun [[lone]] (Workspace.on (⟨[], []⟩ : Tree)) = [.ok ⟨1, 0⟩] := by
  have haim : (⟨[], []⟩ : Tree).aimOf (registrationPath roundabout lone) =
      some ["out", "a.registration"] :=
    (Tree.aimOf_of_linkless linkless_nil rfl _).trans (by decide)
  refine ⟨Tree.exists?_eq_false haim rfl, ?_, ⟨?_, trivial⟩, ?_, ?_⟩
  · rw [haim, Tree.aimOf_of_linkless linkless_nil rfl]
    decide
  · rw [← toDisk_error_iff, toDisk_roundabout]
    rintro ⟨e, he⟩
    cases he
  · rw [answers, answers, toDisk_roundabout]
  · rfl

end Sample

end Emission

end ComponentWiring
