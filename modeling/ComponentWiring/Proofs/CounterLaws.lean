import ComponentWiring.Proofs.BatchCuts
import ComponentWiring.Proofs.GraphHistory

/-! # Laws of the counters

How the counters of a pipeline add up: over the passes since the last reset, and against the
identities that were seen and the components that are declared.

* `Builder.Declares`: the components that a builder has seen are those that its graph declares.
* `Builder.takenCount_unseen_eq_length`: all fresh declarations are taken.
* `Counters.tally`: the counters after a pass, told from its result.
* `Pipeline.Adds`, `Pipeline.Balanced`: what a pass adds to the counters, and how they add up.
* `Pipeline.resultsSinceReset`: what the passes since the last reset came to.
* `Pipeline.balanced_run`: the counters add up in every state.
-/

namespace ComponentWiring
set_option autoImplicit false

/-! ## Seen and declared components -/

namespace Builder
open ComponentWiring.Graph

/-- Each component is seen once, and the seen ones are those that the graph declares. -/
structure Declares (b : Builder) : Prop where
  nodup : b.seen.members.Nodup
  wellFormed : b.graph.WellFormed
  declared_iff : ∀ a, b.graph.isDeclared a = true ↔ a ∈ b.seen.members

theorem declares_empty : empty.Declares where
  nodup := List.nodup_nil
  wellFormed := wellFormed_empty
  declared_iff := fun _ => by simp [empty, Graph.empty, isDeclared, Seen.empty]

theorem isDeclared_addEdges {g : Graph} (hg : g.WellFormed) (a x : Identity) (bs : List Identity) :
    (bs.foldl (fun g b => g.addEdge a b) g).isDeclared x = true ↔ g.isDeclared x = true := by
  induction bs generalizing g with
  | nil => exact Iff.rfl
  | cons b bs ih => rw [List.foldl_cons, ih (hg.addEdge a b), isDeclared_addEdge hg.indexed]

theorem isDeclared_insertInto {g : Graph} (hg : g.WellFormed) (d : Declaration) (x : Identity) :
    (insertInto g d).isDeclared x = true ↔ g.isDeclared x = true ∨ x = d.identity := by
  rw [insertInto, isDeclared_addEdges (hg.declare d.identity), isDeclared_declare hg.indexed]

theorem Declares.add {b : Builder} (h : b.Declares) (d : Declaration) : (b.add d).Declares := by
  cases htakes : b.takes d with
  | false =>
    rw [add_of_not_takes htakes]
    exact h
  | true =>
    have hnew : d.identity ∉ b.seen.members := by simpa [takes, Seen.has] using htakes
    have hseen : (b.seen.insert d.identity).members = d.identity :: b.seen.members := by
      simp [Seen.insert, Seen.has, hnew]
    rw [Builder.add, if_pos htakes]
    constructor
    case nodup =>
      rw [hseen]
      exact List.nodup_cons.2 ⟨hnew, h.nodup⟩
    case wellFormed => exact wellFormed_insertInto d h.wellFormed
    case declared_iff =>
      intro a
      rw [hseen, isDeclared_insertInto h.wellFormed, h.declared_iff, List.mem_cons, or_comm]

theorem Declares.addAll {b : Builder} (h : b.Declares) (ds : List Declaration) :
    (b.addAll ds).Declares := by
  induction ds generalizing b with
  | nil => exact h
  | cons d ds ih => exact ih (h.add d)

/-- As many components are declared as were seen. -/
theorem Declares.size_eq {b : Builder} (h : b.Declares) :
    b.seen.size = b.graph.identities.countP b.graph.isDeclared := by
  rw [List.countP_eq_length_filter, Seen.size]
  refine List.Perm.length_eq ?_
  refine (List.perm_ext_iff_of_nodup h.nodup (h.wellFormed.nodup.filter _)).2 fun a => ?_
  rw [List.mem_filter, ← h.declared_iff]
  refine ⟨fun ha => ⟨?_, ha⟩, And.right⟩
  obtain ⟨i, v, hv, hva, -⟩ := (isDeclared_iff h.wellFormed.indexed a).1 ha
  exact List.mem_map.2 ⟨v, List.mem_of_getElem? hv, hva⟩

theorem size_seen_addAll (b : Builder) (ds : List Declaration) :
    (b.addAll ds).seen.size = b.seen.size + Pipeline.takenCount b ds := by
  induction ds generalizing b with
  | nil => rfl
  | cons d ds ih =>
    have hstep : (b.add d).seen.size = b.seen.size + if b.takes d then 1 else 0 := by
      cases htakes : b.takes d with
      | false => simp [add_of_not_takes htakes]
      | true =>
        have hnew : b.seen.has d.identity = false := by simpa [takes] using htakes
        simp [add, htakes, Seen.insert, hnew, Seen.size]
    have hcons : b.addAll (d :: ds) = (b.add d).addAll ds := rfl
    rw [hcons, ih, hstep, Pipeline.takenCount, Nat.add_assoc]

/-- A builder takes all fresh declarations of a batch: its own look at what was seen never differs
from the one of the pass. -/
theorem takenCount_unseen_eq_length (b : Builder) (ds : List Declaration) :
    Pipeline.takenCount b (Pipeline.unseen b.seen ds) = (Pipeline.unseen b.seen ds).length := by
  induction ds generalizing b with
  | nil => rfl
  | cons d ds ih =>
    cases htakes : b.takes d with
    | false => rw [unseen_of_not_takes htakes, ih]
    | true =>
      rw [unseen_of_takes htakes, Pipeline.takenCount, htakes, ih, List.length_cons, Nat.add_comm]
      rfl

end Builder

/-! ## The counters after a pass -/

/-- The counters after a pass, told from its result and the number of its fresh declarations. -/
def Counters.tally (c : Counters) (fresh : Nat) : Except Error PassResult → Counters
  | .ok .noWork => c.withoutWork
  | .ok (.invalid _) => c.rejected
  | .ok (.emitted _) => { c.resolved fresh with emissions := c.emissions + 1 }
  | .ok (.cycle _) => { c.resolved fresh with cycles := c.cycles + 1 }
  | .error _ => c.resolved fresh

namespace Pipeline
open Declaration

/-- Whether a pass with a result ordered the graph. -/
def resolves : Except Error PassResult → Bool
  | .ok .noWork => false
  | .ok (.invalid _) => false
  | _ => true

def isError : Except Error PassResult → Bool
  | .ok _ => false
  | .error _ => true

/-- What a pass adds to the counters: if it orders the graph, all its fresh declarations, and
otherwise none. -/
structure Adds (p p' : Pipeline) (batch : List Declaration) (result : Except Error PassResult) :
    Prop where
  passes : p'.counters.passes = p.counters.passes + 1
  resolutions : p'.counters.resolutions = p.counters.resolutions + if resolves result then 1 else 0
  inserted : p'.counters.insertedDeclarations = p.counters.insertedDeclarations +
    if resolves result then
      ((firsts batch).filter fun d => !p.builder.seen.has d.identity).length
    else 0

/-- The counters add up: over the results of the passes since the last reset, and against what was
seen and what is declared. -/
structure Balanced (p : Pipeline) (results : List (Except Error PassResult)) : Prop where
  all : p.counters.passes = results.length
  passes : p.counters.passes =
    p.counters.noWorkPasses + p.counters.invalidPasses + p.counters.resolutions
  resolutions : p.counters.resolutions =
    p.counters.emissions + p.counters.cycles + results.countP isError
  seen : p.counters.insertedDeclarations = p.builder.seen.size
  declared : p.counters.insertedDeclarations =
    p.builder.graph.identities.countP p.builder.graph.isDeclared

section Passed
variable {σ : Type} {rules : Rules} {effects : Effects σ} {p p' : Pipeline}
  {batch : List Declaration} {result : Except Error PassResult} {calls : List Call}
  (h : Passed rules effects p batch result p' calls)
include h

theorem Passed.counters_eq :
    p'.counters = p.counters.tally (p.taken batch).length result := by
  have hcount : takenCount p.builder (p.taken batch) = (p.taken batch).length :=
    p.builder.takenCount_unseen_eq_length batch
  rw [← hcount]
  cases h with
  | noWork => rfl
  | invalid => rfl
  | cycle => rfl
  | emitted => rfl
  | failed => rfl

theorem Passed.adds : Adds p p' batch result := by
  have hcounters := h.counters_eq
  rw [taken, unseen_eq] at hcounters
  constructor
  all_goals
    rw [hcounters]
    cases h with
    | noWork => rfl
    | invalid => rfl
    | cycle => rfl
    | emitted => rfl
    | failed => rfl

/-- The seen identities grow by as many as the count of inserted declarations. -/
theorem Passed.inserted_eq (hp : p.counters.insertedDeclarations = p.builder.seen.size) :
    p'.counters.insertedDeclarations = p'.builder.seen.size := by
  cases h with
  | noWork => exact hp
  | invalid => exact hp
  | cycle => rw [extended, Builder.size_seen_addAll, ← hp]; rfl
  | emitted => rw [extended, Builder.size_seen_addAll, ← hp]; rfl
  | failed => rw [extended, Builder.size_seen_addAll, ← hp]; rfl

end Passed

theorem balanced_fresh : Balanced fresh [] := ⟨rfl, rfl, rfl, rfl, rfl⟩

/-- What adds up before a pass adds up after it. -/
theorem Balanced.passed {σ : Type} {rules : Rules} {effects : Effects σ} {p p' : Pipeline}
    {batch : List Declaration} {result : Except Error PassResult} {calls : List Call}
    {results : List (Except Error PassResult)} (hp : Balanced p results)
    (h : Passed rules effects p batch result p' calls) (hp' : p'.builder.Declares) :
    Balanced p' (results ++ [result]) := by
  have hcounters := h.counters_eq
  have hseen := h.inserted_eq hp.seen
  have hpasses := hp.passes
  have hresolutions := hp.resolutions
  constructor
  case all => rw [h.adds.passes, hp.all, List.length_append, List.length_singleton]
  case passes =>
    rw [hcounters]
    cases h <;>
      simp only [Counters.tally, Counters.withoutWork, Counters.rejected, Counters.resolved] <;>
      omega
  case resolutions =>
    rw [hcounters, List.countP_append, List.countP_singleton]
    cases h <;>
      simp only [Counters.tally, Counters.withoutWork, Counters.rejected, Counters.resolved,
        isError, Bool.false_eq_true, if_false, if_true] <;>
      omega
  case seen => exact hseen
  -- the counter follows the seen identities, and of those it is known that they are declared
  case declared => rw [hseen, hp'.size_eq]

/-! ## The passes since the last reset -/

def Move.isPass : Move → Bool
  | .pass _ => true
  | .reset => false

section Run
variable {σ : Type} (rules : Rules) (effects : Effects σ) (moves : List Move) (world : σ)

/-- What the passes since the last reset came to. -/
def resultsSinceReset : List (Except Error PassResult) :=
  resultsFrom rules effects (run rules effects (moves.rdropWhile Move.isPass) world)
    (moves.rtakeWhile Move.isPass)

theorem resultsSinceReset_reset :
    resultsSinceReset rules effects (moves ++ [.reset]) world = [] := by
  rw [resultsSinceReset, List.rtakeWhile_concat_neg _ _ _ (by simp [Move.isPass])]
  rfl

theorem resultsSinceReset_pass (batch : List Declaration) :
    resultsSinceReset rules effects (moves ++ [.pass batch]) world =
      resultsSinceReset rules effects moves world ++
        [(pass rules effects batch (run rules effects moves world).1
          (run rules effects moves world).2).1] := by
  have hrun : (moves.rtakeWhile Move.isPass).foldl (move rules effects)
      (run rules effects (moves.rdropWhile Move.isPass) world) = run rules effects moves world := by
    rw [run, ← List.foldl_append, List.rdropWhile_append_rtakeWhile, run]
  rw [resultsSinceReset, List.rdropWhile_concat_pos _ _ _ rfl, List.rtakeWhile_concat_pos _ _ _ rfl,
    resultsFrom_append, hrun]
  rfl

theorem declares_run : (run rules effects moves world).1.builder.Declares := by
  rw [builder_run_admitted]
  exact Builder.declares_empty.addAll _

/-- In every state the counters add up, and every pass that orders the graph adds its fresh
declarations, whatever the rules are and whichever emissions fail. -/
theorem balanced_run :
    Balanced (run rules effects moves world).1 (resultsSinceReset rules effects moves world) ∧
      ∀ batch, Adds (run rules effects moves world).1
        (run rules effects (moves ++ [.pass batch]) world).1 batch
        (pass rules effects batch (run rules effects moves world).1
          (run rules effects moves world).2).1 := by
  constructor
  -- on the last move, as only it decides between the last reset and one more result
  · induction moves using List.reverseRecOn with
    | nil => exact balanced_fresh
    | append_singleton moves m ih =>
      cases m with
      | reset =>
        rw [resultsSinceReset_reset, run_concat]
        exact balanced_fresh
      | pass batch =>
        obtain ⟨new, hpassed, -⟩ := passed_run rules effects moves batch world
        rw [resultsSinceReset_pass]
        exact ih.passed hpassed (declares_run rules effects _ world)
  · intro batch
    obtain ⟨new, hpassed, -⟩ := passed_run rules effects moves batch world
    exact hpassed.adds

end Run

end Pipeline

end ComponentWiring
