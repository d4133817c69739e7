import ComponentWiring.Proofs.BuiltGraph
import ComponentWiring.Proofs.Happenings
import Mathlib.Data.List.Permutation

/-! # Accepted declarations

Which declarations a run accepts is told from the batches alone, and the state and the orders handed
out are told from what was accepted.

* `Declaration.firsts`, `Declaration.newIn`: the first declarations of components in a batch, and
  those among them that were not accepted before.
* `Pipeline.Move`, `Pipeline.run`, `Pipeline.results`: the runs of a pipeline, and what their passes
  come to.
* `Pipeline.accepted`: the declarations accepted since the last reset.
* `Pipeline.admitted`: the same for a pipeline with rules of any kind.
* `Pipeline.run_of_accepted`: the state and the orders of a run with the rules of the program.
-/

namespace ComponentWiring
set_option autoImplicit false

/-! ## Declarations for concrete cases -/

namespace Pipeline.Sample
open ComponentWiring.Sample

def appOnStore : Declaration := ⟨app, .concrete, true, [store], none⟩

def storeOnApp : Declaration := ⟨store, .concrete, true, [app], none⟩

/-- Effects without a world, whose emissions write every component. -/
def writing : Effects Unit :=
  ⟨fun order _ => (.ok ⟨order.length, 0⟩, ()), fun _ _ => (), fun _ _ => ()⟩

end Pipeline.Sample

/-! ## First declarations -/

namespace Declaration

/-- The first declaration of each component, in order. -/
def firsts : List Declaration → List Declaration
  | [] => []
  | d :: ds => d :: (firsts ds).filter (·.identity ≠ d.identity)

/-- The first declarations of a batch whose components are not among those of others. -/
def newIn (accepted batch : List Declaration) : List Declaration :=
  (firsts batch).filter fun d => d.identity ∉ accepted.map (·.identity)

theorem nodup_firsts (ds : List Declaration) : ((firsts ds).map (·.identity)).Nodup := by
  induction ds with
  | nil => exact List.nodup_nil
  | cons d ds ih =>
    have hsub : ((firsts ds).filter (·.identity ≠ d.identity)).map (·.identity) |>.Nodup :=
      ih.sublist (List.filter_sublist.map _)
    rw [firsts, List.map_cons, List.nodup_cons]
    refine ⟨?_, hsub⟩
    intro hmem
    obtain ⟨e, he, heq⟩ := List.mem_map.1 hmem
    exact of_decide_eq_true (List.mem_filter.1 he).2 heq

theorem nodup_append_newIn {accepted : List Declaration} (batch : List Declaration)
    (h : (accepted.map (·.identity)).Nodup) :
    ((accepted ++ newIn accepted batch).map (·.identity)).Nodup := by
  rw [List.map_append]
  refine List.Nodup.append h ((nodup_firsts batch).sublist (List.filter_sublist.map _)) ?_
  intro a hold hnew
  obtain ⟨d, hd, rfl⟩ := List.mem_map.1 hnew
  exact of_decide_eq_true (List.mem_filter.1 hd).2 hold

/-! ## Valid declarations -/

/-- A declared component is concrete and can be made without arguments. -/
def Valid (d : Declaration) : Prop := d.kind = .concrete ∧ d.hasNoArgConstructor = true

instance (d : Declaration) : Decidable d.Valid :=
  inferInstanceAs (Decidable (d.kind = .concrete ∧ d.hasNoArgConstructor = true))

theorem violation?_eq_none_iff (d : Declaration) : violation? d = none ↔ d.Valid := by
  unfold violation? brokenRule? Valid
  cases d.kind with
  | interface => simp
  | abstract => simp
  | concrete => cases d.hasNoArgConstructor <;> simp

end Declaration

namespace Pipeline
open Declaration

/-- The fresh declarations of a batch are the first ones of components that were not seen. -/
theorem unseen_eq (seen : Seen) (batch : List Declaration) :
    unseen seen batch = (firsts batch).filter fun d => !seen.has d.identity := by
  induction batch generalizing seen with
  | nil => rfl
  | cons d batch ih =>
    by_cases hd : seen.has d.identity = true
    · have hagree : ∀ e ∈ firsts batch,
          (!seen.has e.identity) = (!seen.has e.identity && decide (e.identity ≠ d.identity)) := by
        intro e _
        by_cases he : e.identity = d.identity
        · simp [he, hd]
        · simp [he]
      rw [unseen, if_pos hd, ih, firsts, List.filter_cons_of_neg (by simp [hd]),
        List.filter_filter]
      exact List.filter_congr hagree
    · have hagree : ∀ e ∈ firsts batch, (!(seen.insert d.identity).has e.identity) =
          (!seen.has e.identity && decide (e.identity ≠ d.identity)) := by
        intro e _
        rw [Seen.has_insert, Bool.not_or, Bool.and_comm, decide_not]
      rw [unseen, if_neg hd, ih, firsts, List.filter_cons_of_pos (by simp [hd]),
        List.filter_filter, List.filter_congr hagree]

theorem taken_eq_newIn {p : Pipeline} {ds : List Declaration} (h : p.builder.Holds ds)
    (batch : List Declaration) : p.taken batch = newIn ds batch := by
  rw [taken, unseen_eq, newIn]
  refine List.filter_congr fun d _ => ?_
  rw [Bool.eq_iff_iff, decide_eq_true_eq, ← h.has_iff, Bool.not_eq_true', Bool.not_eq_true]

/-! ## Runs -/

/-- What is asked of a pipeline. -/
inductive Move where
  | pass (batch : List Declaration)
  | reset

/-- The declarations accepted after a move: a batch adds all its new first declarations, or, if one
of these is invalid, none. -/
def acceptedAfter (accepted : List Declaration) : Move → List Declaration
  | .pass batch =>
    if ∀ d ∈ newIn accepted batch, d.Valid then accepted ++ newIn accepted batch else accepted
  | .reset => []

/-- The declarations accepted since the last reset. -/
def accepted (moves : List Move) : List Declaration := moves.foldl acceptedAfter []

section Run
variable {σ : Type} (rules : Rules) (effects : Effects σ)

/-- The state and the world after a move. A pass that fails also leaves both. -/
def move (now : Pipeline × σ) : Move → Pipeline × σ
  | .pass batch => (pass rules effects batch now.1 now.2).2
  | .reset => reset effects now.1 now.2

def run (moves : List Move) (world : σ) : Pipeline × σ :=
  moves.foldl (move rules effects) (fresh, world)

def calls (moves : List Move) (world : σ) : List Call :=
  (run rules effects.recording moves (world, [])).2.2

/-- What the passes among moves come to, one after the other. -/
def resultsFrom (now : Pipeline × σ) : List Move → List (Except Error PassResult)
  | [] => []
  | .pass batch :: moves =>
    (pass rules effects batch now.1 now.2).1 ::
      resultsFrom (move rules effects now (.pass batch)) moves
  | .reset :: moves => resultsFrom (move rules effects now .reset) moves

def results (moves : List Move) (world : σ) : List (Except Error PassResult) :=
  resultsFrom rules effects (fresh, world) moves

theorem run_concat (moves : List Move) (m : Move) (world : σ) :
    run rules effects (moves ++ [m]) world =
      move rules effects (run rules effects moves world) m := by
  simp [run]

/-- A run on a part of the world is the part of the run. -/
theorem run_shadows {τ : Type} {small : Effects τ} {part : σ → τ} (h : effects.Shadows small part)
    (moves : List Move) (world : σ) :
    run rules small moves (part world) =
      ((run rules effects moves world).1, part (run rules effects moves world).2) := by
  induction moves using List.reverseRecOn with
  | nil => rfl
  | append_singleton moves m ih =>
    rw [run_concat, run_concat, ih]
    cases m with
    | pass batch => exact congrArg Prod.snd (h.pass rules batch _ _)
    | reset => exact congrArg (Prod.mk fresh) (h.log _ _)

theorem resultsFrom_append (now : Pipeline × σ) (moves more : List Move) :
    resultsFrom rules effects now (moves ++ more) =
      resultsFrom rules effects now moves ++
        resultsFrom rules effects (moves.foldl (move rules effects) now) more := by
  induction moves generalizing now with
  | nil => rfl
  | cons m moves ih =>
    cases m with
    | pass batch => exact congrArg (List.cons _) (ih _)
    | reset => exact ih _

theorem resultsFrom_shadows {τ : Type} {small : Effects τ} {part : σ → τ}
    (h : effects.Shadows small part) (now : Pipeline × σ) (moves : List Move) :
    resultsFrom rules small (now.1, part now.2) moves = resultsFrom rules effects now moves := by
  induction moves generalizing now with
  | nil => rfl
  | cons m moves ih =>
    cases m with
    | pass batch =>
      have hpass := h.pass rules batch now.1 now.2
      simp only [resultsFrom, move, hpass]
      exact congrArg (List.cons _) (ih _)
    | reset =>
      have hlog := h.log ⟨.debug, "Pipeline reset", []⟩ now.2
      simp only [resultsFrom, move, reset, hlog]
      exact ih (fresh, effects.log ⟨.debug, "Pipeline reset", []⟩ now.2)

theorem results_append (moves more : List Move) (world : σ) :
    results rules effects (moves ++ more) world =
      results rules effects moves world ++
        resultsFrom rules effects (run rules effects moves world) more :=
  resultsFrom_append rules effects (fresh, world) moves more

theorem run_recording (moves : List Move) (world : σ) :
    run rules effects moves world =
      ((run rules effects.recording moves (world, [])).1,
        (run rules effects.recording moves (world, [])).2.1) :=
  run_shadows rules effects.recording effects.shadows_recording moves (world, [])

/-- A pass within a run ends in one of the ways, and adds the calls of that one. -/
theorem passed_run (moves : List Move) (batch : List Declaration) (world : σ) :
    ∃ new,
      Passed rules effects (run rules effects moves world).1 batch
        (pass rules effects batch (run rules effects moves world).1
          (run rules effects moves world).2).1
        (run rules effects (moves ++ [.pass batch]) world).1 new ∧
      calls rules effects (moves ++ [.pass batch]) world =
        calls rules effects moves world ++ new := by
  have hsame := pass_recording rules effects
    (run rules effects.recording moves (world, [])).1 batch
    (run rules effects.recording moves (world, [])).2
  obtain ⟨new, hpassed, hcalls⟩ :=
    passed_recording rules effects (run rules effects.recording moves (world, [])).1 batch
      (run rules effects.recording moves (world, [])).2
  refine ⟨new, ?_, ?_⟩
  · rw [run_concat, run_recording rules effects moves, move, hsame]
    exact hpassed
  · rw [calls, run_concat]
    exact hcalls

theorem calls_reset (moves : List Move) (world : σ) :
    calls rules effects (moves ++ [.reset]) world = calls rules effects moves world := by
  rw [calls, run_concat]
  rfl

end Run

/-! ## What a run with rules of any kind accepts -/

/-- The check of the rules finds no fault in a declaration. -/
def Admits (rules : Rules) (d : Declaration) : Prop := (rules.validator.check d).value = none

instance (rules : Rules) (d : Declaration) : Decidable (Admits rules d) :=
  inferInstanceAs (Decidable (_ = none))

def admittedAfter (rules : Rules) (ds : List Declaration) : Move → List Declaration
  | .pass batch => if ∀ d ∈ newIn ds batch, Admits rules d then ds ++ newIn ds batch else ds
  | .reset => []

/-- The declarations accepted since the last reset under rules of any kind. -/
def admitted (rules : Rules) (moves : List Move) : List Declaration :=
  moves.foldl (admittedAfter rules) []

theorem admits_standard_iff (d : Declaration) : Admits .standard d ↔ d.Valid :=
  violation?_eq_none_iff d

theorem violations_eq_nil_iff (rules : Rules) (p : Pipeline) (batch : List Declaration) :
    violations rules p batch = [] ↔ ∀ d ∈ p.taken batch, Admits rules d := by
  simp [violations, Validator.checkAll, Admits]

theorem admittedAfter_standard : admittedAfter .standard = acceptedAfter := by
  funext ds m
  cases m with
  | pass batch => simp only [admittedAfter, acceptedAfter, admits_standard_iff]
  | reset => rfl

theorem admitted_standard (moves : List Move) : admitted .standard moves = accepted moves := by
  rw [admitted, admittedAfter_standard, accepted]

theorem nodup_admittedAfter (rules : Rules) {ds : List Declaration}
    (hds : (ds.map (·.identity)).Nodup) (m : Move) :
    ((admittedAfter rules ds m).map (·.identity)).Nodup := by
  cases m with
  | reset => exact List.nodup_nil
  | pass batch =>
    rw [admittedAfter]
    split
    · exact nodup_append_newIn batch hds
    · exact hds

/-- A pass leaves the builder of the declarations that are accepted after it. -/
theorem Passed.builder_eq_admitted {σ : Type} {rules : Rules} {effects : Effects σ}
    {p p' : Pipeline} {ds batch : List Declaration} {result : Except Error PassResult}
    {calls : List Call} (h : Passed rules effects p batch result p' calls)
    (hp : p.builder = Builder.empty.addAll ds) (hds : (ds.map (·.identity)).Nodup) :
    p'.builder = Builder.empty.addAll (admittedAfter rules ds (.pass batch)) := by
  have hholds : p.builder.Holds ds := hp ▸ Builder.holds_addAll ds hds
  rw [h.builder_eq, admittedAfter]
  simp only [violations_eq_nil_iff, taken_eq_newIn hholds, hp]
  split
  · exact (Builder.addAll_append _ _ _).symm
  · rfl

section Admitted
variable (rules : Rules)

theorem admitted_concat (moves : List Move) (m : Move) :
    admitted rules (moves ++ [m]) = admittedAfter rules (admitted rules moves) m := by
  simp [admitted]

theorem nodup_admitted (moves : List Move) :
    ((admitted rules moves).map (·.identity)).Nodup := by
  induction moves using List.reverseRecOn with
  | nil => exact List.nodup_nil
  | append_singleton moves m ih =>
    rw [admitted_concat]
    exact nodup_admittedAfter rules ih m

variable {σ : Type} (effects : Effects σ) (moves : List Move) (world : σ)

/-- The state of a run is that of a builder that was given the accepted declarations. -/
theorem builder_run_admitted :
    (run rules effects moves world).1.builder = Builder.empty.addAll (admitted rules moves) := by
  induction moves using List.reverseRecOn with
  | nil => rfl
  | append_singleton moves m ih =>
    rw [admitted_concat]
    cases m with
    | reset =>
      rw [run_concat]
      rfl
    | pass batch =>
      obtain ⟨new, hpassed, -⟩ := passed_run rules effects moves batch world
      exact hpassed.builder_eq_admitted ih (nodup_admitted rules moves)

end Admitted

/-! ## What a run with the rules of the program comes to -/

theorem mem_left_or_right {α : Type} {old new front back : List α} {x : α}
    (h : old ++ new = front ++ x :: back) :
    (∃ middle, old = front ++ x :: middle) ∨
      ∃ middle, front = old ++ middle ∧ new = middle ++ x :: back := by
  rcases List.append_eq_append_iff.1 h with ⟨middle, hfront, hnew⟩ | ⟨middle, hold, hnew⟩
  · exact Or.inr ⟨middle, hfront, hnew⟩
  · cases middle with
    | nil =>
      rw [List.append_nil] at hold
      exact Or.inr ⟨[], by rw [hold, List.append_nil], hnew.symm⟩
    | cons c middle =>
      obtain ⟨rfl, -⟩ := List.cons.inj hnew
      exact Or.inl ⟨middle, hold⟩

section Standard
variable {σ : Type} (effects : Effects σ) (moves : List Move) (world : σ)

theorem builder_run :
    (run .standard effects moves world).1.builder = Builder.empty.addAll (accepted moves) := by
  rw [← admitted_standard]
  exact builder_run_admitted .standard effects moves world

theorem holds_run : (run .standard effects moves world).1.builder.Holds (accepted moves) := by
  rw [builder_run, ← admitted_standard]
  exact Builder.holds_addAll _ (nodup_admitted .standard moves)

theorem listed_of_emit_mem {result : Except Error PassResult} {new : List Call}
    {batch : List Declaration}
    (h : Passed .standard effects (run .standard effects moves world).1 batch result
      (run .standard effects (moves ++ [.pass batch]) world).1 new)
    {order : List Identity} (hmem : .emit order ∈ new) :
    new = [.emit order] ∧ Listed (accepted (moves ++ [.pass batch])) order := by
  obtain ⟨hnew, horder⟩ := h.eq_of_emit_mem hmem
  have hholds := holds_run effects (moves ++ [.pass batch]) world
  exact ⟨hnew, hholds.listed (Graph.orders_of_outcome hholds.wellFormed horder)⟩

/-- Every order handed out was handed out by a pass, which lists what was accepted since the last
reset. -/
theorem exists_pass_of_calls_eq {front back : List Call} {order : List Identity}
    (h : calls .standard effects moves world = front ++ .emit order :: back) :
    ∃ before batch rest, moves = before ++ .pass batch :: rest ∧
      calls .standard effects before world = front ∧
      calls .standard effects (before ++ [.pass batch]) world = front ++ [.emit order] ∧
      Listed (accepted (before ++ [.pass batch])) order := by
  induction moves using List.reverseRecOn generalizing back with
  | nil => simp [calls, run] at h
  | append_singleton moves m ih =>
    -- the call is one of an earlier move, or of the last one
    have hearlier : ∀ back', calls .standard effects moves world = front ++ .emit order :: back' →
        ∃ before batch rest, moves ++ [m] = before ++ .pass batch :: rest ∧
          calls .standard effects before world = front ∧
          calls .standard effects (before ++ [.pass batch]) world = front ++ [.emit order] ∧
          Listed (accepted (before ++ [.pass batch])) order := by
      intro back' hback
      obtain ⟨before, batch, rest, rfl, hrest⟩ := ih hback
      exact ⟨before, batch, rest ++ [m], by simp, hrest⟩
    cases m with
    | reset =>
      rw [calls_reset] at h
      exact hearlier back h
    | pass batch =>
      obtain ⟨new, hpassed, hcalls⟩ := passed_run .standard effects moves batch world
      rw [hcalls] at h
      rcases mem_left_or_right h with ⟨back', hback⟩ | ⟨middle, hfront, hnew⟩
      · exact hearlier back' hback
      · have hmem : Call.emit order ∈ new := by
          rw [hnew]
          exact List.mem_append_right _ List.mem_cons_self
        obtain ⟨rfl, hlisted⟩ := listed_of_emit_mem effects moves world hpassed hmem
        have hmiddle : middle = [] := by
          cases middle with
          | nil => rfl
          | cons c middle => simp at hnew
        rw [hmiddle, List.append_nil] at hfront
        refine ⟨moves, batch, [], rfl, hfront.symm, ?_, hlisted⟩
        rw [hcalls, hfront]

/-- The state of a run is that of a builder that was given the accepted declarations, and every
order that it hands out lists what they mention, once and dependencies first. -/
theorem run_of_accepted :
    (run .standard effects moves world).1.builder = Builder.empty.addAll (accepted moves) ∧
      ∀ front order back, calls .standard effects moves world = front ++ .emit order :: back →
        ∃ before batch rest, moves = before ++ .pass batch :: rest ∧
          calls .standard effects before world = front ∧
          calls .standard effects (before ++ [.pass batch]) world = front ++ [.emit order] ∧
          Listed (accepted (before ++ [.pass batch])) order :=
  ⟨builder_run effects moves world, fun _ _ _ h => exists_pass_of_calls_eq effects moves world h⟩

-- an emission that fails leaves what was accepted, so the next order lists it too
example :
    calls .standard
      (⟨fun _ _ => (.error Identity.blankName, ()), fun _ _ => (), fun _ _ => ()⟩ : Effects Unit)
      [.pass [⟨Sample.app, .concrete, true, [Sample.store], none⟩],
        .pass [.concrete Sample.app, .concrete Sample.store]] () =
      [.emit [Sample.store, Sample.app], .emit [Sample.store, Sample.app]] := by
  cbv

end Standard

end Pipeline

end ComponentWiring
