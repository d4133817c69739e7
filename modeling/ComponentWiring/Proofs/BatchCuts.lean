import ComponentWiring.Proofs.Verdicts

/-! # Declarations cut into batches

Where every declaration passes the check and no emission fails, it does not matter how the
declarations are cut into batches: the pipeline ends as after one pass over all of them, and the
last pass with work comes to what the one pass comes to.

* `Builder.addAll_unseen`: a builder takes from a batch what is unseen in it.
* `Pipeline.answer`: what a pass without faults comes to, told from the builder and the batch.
* `Pipeline.Absorbs`: a pass that takes its batch without a fault.
* `Pipeline.LastWork`: the last result other than that there was no work.
* `Pipeline.run_of_cut`: a run over batches ends as the pass over all of them.
-/

namespace ComponentWiring
set_option autoImplicit false

/-! ## Taking what is unseen -/

namespace Builder
open Pipeline

theorem add_of_not_takes {b : Builder} {d : Declaration} (h : b.takes d = false) : b.add d = b := by
  simp [add, h]

theorem unseen_of_takes {b : Builder} {d : Declaration} (h : b.takes d = true)
    (ds : List Declaration) : unseen b.seen (d :: ds) = d :: unseen (b.add d).seen ds := by
  have hnew : ¬ b.seen.has d.identity = true := by simpa [takes] using h
  rw [unseen, if_neg hnew, add, if_pos h]

theorem unseen_of_not_takes {b : Builder} {d : Declaration} (h : b.takes d = false)
    (ds : List Declaration) : unseen b.seen (d :: ds) = unseen b.seen ds := by
  have hold : b.seen.has d.identity = true := by simpa [takes] using h
  rw [unseen, if_pos hold]

/-- A builder takes from a batch what is unseen in it. -/
theorem addAll_unseen (b : Builder) (ds : List Declaration) :
    b.addAll (unseen b.seen ds) = b.addAll ds := by
  induction ds generalizing b with
  | nil => rfl
  | cons d ds ih =>
    have hcons : b.addAll (d :: ds) = (b.add d).addAll ds := rfl
    cases htakes : b.takes d with
    | false => rw [hcons, unseen_of_not_takes htakes, add_of_not_takes htakes, ih]
    | true =>
      rw [hcons, unseen_of_takes htakes, ← ih]
      rfl

theorem takenCount_unseen (b : Builder) (ds : List Declaration) :
    takenCount b (unseen b.seen ds) = takenCount b ds := by
  induction ds generalizing b with
  | nil => rfl
  | cons d ds ih =>
    cases htakes : b.takes d with
    | false =>
      have hrest := ih b
      simp only [unseen_of_not_takes htakes, takenCount, htakes, add_of_not_takes htakes, hrest]
      simp
    | true => rw [unseen_of_takes htakes, takenCount, takenCount, ih]

theorem unseen_append (b : Builder) (ds es : List Declaration) :
    unseen b.seen (ds ++ es) = unseen b.seen ds ++ unseen (b.addAll ds).seen es := by
  induction ds generalizing b with
  | nil => rfl
  | cons d ds ih =>
    have hcons : b.addAll (d :: ds) = (b.add d).addAll ds := rfl
    rw [hcons, List.cons_append]
    cases htakes : b.takes d with
    | false =>
      rw [unseen_of_not_takes htakes, unseen_of_not_takes htakes, add_of_not_takes htakes, ih]
    | true => rw [unseen_of_takes htakes, unseen_of_takes htakes, ih, List.cons_append]

theorem takenCount_append (b : Builder) (ds es : List Declaration) :
    takenCount b (ds ++ es) = takenCount b ds + takenCount (b.addAll ds) es := by
  induction ds generalizing b with
  | nil => simp [takenCount, addAll]
  | cons d ds ih =>
    have hrest := ih (b.add d)
    have hcons : b.addAll (d :: ds) = (b.add d).addAll ds := rfl
    rw [List.cons_append, takenCount, takenCount, hrest, hcons]
    omega

end Builder

/-! ## Passes without faults -/

namespace PassResult

/-- The result of a pass that comes to ordering the graph. -/
def ofOutcome : Outcome → PassResult
  | .ordered order => .emitted order
  | .cycle path => .cycle path

theorem ofOutcome_ne_noWork (outcome : Outcome) : ofOutcome outcome ≠ noWork := by
  cases outcome <;> exact nofun

end PassResult

namespace Pipeline
open Declaration

/-- What a pass comes to where no declaration has a fault and no emission fails. -/
def answer (rules : Rules) (b : Builder) (batch : List Declaration) : Except Error PassResult :=
  if unseen b.seen batch = [] then .ok .noWork
  else .ok (.ofOutcome (rules.order (b.addAll batch).graph).value)

/-- A pass that takes its batch without a fault. -/
structure Absorbs (rules : Rules) (p : Pipeline) (batch : List Declaration)
    (result : Except Error PassResult) (p' : Pipeline) : Prop where
  builder : p'.builder = p.builder.addAll batch
  inserted : p'.counters.insertedDeclarations =
    p.counters.insertedDeclarations + takenCount p.builder batch
  result : result = answer rules p.builder batch

section Answer
variable (rules : Rules) (b : Builder)

theorem answer_eq_noWork_iff (ds : List Declaration) :
    answer rules b ds = .ok .noWork ↔ unseen b.seen ds = [] := by
  unfold answer
  split
  · next hnone => simp [hnone]
  · next hsome => simp [hsome, PassResult.ofOutcome_ne_noWork]

/-- Where nothing new follows, the answer is the one before. -/
theorem answer_append_of_noWork {ds es : List Declaration}
    (h : answer rules (b.addAll ds) es = .ok .noWork) :
    answer rules b (ds ++ es) = answer rules b ds := by
  have hnone := (answer_eq_noWork_iff rules _ es).1 h
  have hunseen : unseen b.seen (ds ++ es) = unseen b.seen ds := by
    rw [b.unseen_append, hnone, List.append_nil]
  have hsame : b.addAll (ds ++ es) = b.addAll ds := by
    rw [b.addAll_append, ← Builder.addAll_unseen, hnone]
    rfl
  rw [answer, answer, hunseen, hsame]

theorem answer_append_of_work {ds es : List Declaration}
    (h : answer rules (b.addAll ds) es ≠ .ok .noWork) :
    answer rules b (ds ++ es) = answer rules (b.addAll ds) es := by
  have hsome : unseen (b.addAll ds).seen es ≠ [] :=
    fun hnone => h ((answer_eq_noWork_iff rules _ es).2 hnone)
  have hunseen : unseen b.seen (ds ++ es) ≠ [] := by
    rw [b.unseen_append]
    exact fun hnil => hsome (List.append_eq_nil_iff.1 hnil).2
  rw [answer, answer, if_neg hunseen, if_neg hsome, b.addAll_append]

end Answer

theorem mem_of_mem_taken {p : Pipeline} {batch : List Declaration} {d : Declaration}
    (h : d ∈ p.taken batch) : d ∈ batch := by
  rw [taken, unseen_eq] at h
  exact mem_of_mem_firsts (List.mem_of_mem_filter h)

section Absorb
variable {σ : Type} {rules : Rules} {effects : Effects σ}
  (hemit : ∀ order w, ∃ summary, (effects.emit order w).1 = .ok summary)
include hemit

theorem Passed.absorbs {p p' : Pipeline} {batch : List Declaration}
    {result : Except Error PassResult} {calls : List Call}
    (h : Passed rules effects p batch result p' calls) (hadmits : ∀ d ∈ batch, Admits rules d) :
    Absorbs rules p batch result p' := by
  have hbuilder : (p.extended batch).builder = p.builder.addAll batch :=
    p.builder.addAll_unseen batch
  have hinserted : (p.extended batch).counters.insertedDeclarations =
      p.counters.insertedDeclarations + takenCount p.builder batch :=
    congrArg (p.counters.insertedDeclarations + ·) (p.builder.takenCount_unseen batch)
  have hanswer : p.taken batch ≠ [] → ∀ outcome,
      (rules.order (p.extended batch).builder.graph).value = outcome →
      answer rules p.builder batch = .ok (.ofOutcome outcome) := by
    intro hsome outcome houtcome
    have hunseen : unseen p.builder.seen batch ≠ [] := hsome
    rw [answer, if_neg hunseen, ← hbuilder, houtcome]
  cases h with
  | noWork hnone =>
    have hunseen : unseen p.builder.seen batch = [] := hnone
    have hcount := p.builder.takenCount_unseen batch
    rw [hunseen] at hcount
    refine ⟨?_, ?_, ?_⟩
    · rw [← Builder.addAll_unseen, hunseen]
      rfl
    · rw [← hcount]
      rfl
    · exact ((answer_eq_noWork_iff rules _ _).2 hunseen).symm
  | invalid _ hinvalid =>
    refine absurd ((violations_eq_nil_iff rules p batch).2 fun d hd => ?_) hinvalid
    exact hadmits d (mem_of_mem_taken hd)
  | cycle path hsome _ hcycle => exact ⟨hbuilder, hinserted, (hanswer hsome _ hcycle).symm⟩
  | emitted order _ _ hsome _ horder => exact ⟨hbuilder, hinserted, (hanswer hsome _ horder).symm⟩
  | failed order e world _ _ _ hfailed =>
    obtain ⟨summary, hsummary⟩ := hemit order world
    rw [hsummary] at hfailed
    cases hfailed

theorem absorbs_pass {batch : List Declaration} (hadmits : ∀ d ∈ batch, Admits rules d)
    (now : Pipeline × σ) :
    Absorbs rules now.1 batch (pass rules effects batch now.1 now.2).1
      (move rules effects now (.pass batch)).1 := by
  obtain ⟨hs, -, hpassed, -⟩ := leads_pass rules effects now.1 batch now.2
  exact hpassed.absorbs hemit hadmits

end Absorb

/-! ## Passes over batches -/

/-- The last of some results other than that there was no work. -/
structure LastWork (rs : List (Except Error PassResult)) (r : Except Error PassResult) : Prop where
  noWork_iff : (∀ s ∈ rs, s = .ok .noWork) ↔ r = .ok .noWork
  eq_last : ∀ front s back, rs = front ++ s :: back → s ≠ .ok .noWork →
    (∀ t ∈ back, t = .ok .noWork) → s = r

theorem LastWork.nil : LastWork [] (.ok .noWork) where
  noWork_iff := by simp
  eq_last := by simp

section LastWork
variable {rs : List (Except Error PassResult)} {r : Except Error PassResult}

theorem LastWork.cons_of_noWork (h : LastWork rs (.ok .noWork)) (s : Except Error PassResult) :
    LastWork (s :: rs) s where
  noWork_iff := by
    have hrs := h.noWork_iff.2 rfl
    rw [List.forall_mem_cons]
    exact ⟨And.left, fun hs => ⟨hs, hrs⟩⟩
  eq_last := by
    intro front t back hsplit hwork hback
    cases front with
    | nil => exact (List.cons.inj hsplit).1.symm
    | cons f front =>
      have hrs := h.noWork_iff.2 rfl
      have hmem : t ∈ rs := by
        rw [(List.cons.inj hsplit).2]
        exact List.mem_append_right _ List.mem_cons_self
      exact absurd (hrs t hmem) hwork

theorem LastWork.cons_of_work (h : LastWork rs r) (hr : r ≠ .ok .noWork)
    (s : Except Error PassResult) : LastWork (s :: rs) r where
  noWork_iff := by
    have hrs : ¬ ∀ t ∈ rs, t = .ok .noWork := fun hall => hr (h.noWork_iff.1 hall)
    rw [List.forall_mem_cons]
    exact iff_of_false (fun hall => hrs hall.2) hr
  eq_last := by
    intro front t back hsplit hwork hback
    cases front with
    | nil =>
      obtain ⟨-, rfl⟩ := List.cons.inj hsplit
      exact absurd (h.noWork_iff.1 hback) hr
    | cons f front => exact h.eq_last front t back (List.cons.inj hsplit).2 hwork hback

end LastWork

section Batches
variable {σ : Type} {rules : Rules} {effects : Effects σ}
  (hemit : ∀ order w, ∃ summary, (effects.emit order w).1 = .ok summary)
  {batches : List (List Declaration)} (hadmits : ∀ batch ∈ batches, ∀ d ∈ batch, Admits rules d)
include hemit hadmits

theorem absorbs_batches (now : Pipeline × σ) :
    ∃ r, Absorbs rules now.1 batches.flatten r
        ((batches.map Move.pass).foldl (move rules effects) now).1 ∧
      LastWork (resultsFrom rules effects now (batches.map .pass)) r := by
  induction batches generalizing now with
  | nil => exact ⟨.ok .noWork, ⟨rfl, rfl, rfl⟩, .nil⟩
  | cons batch batches ih =>
    obtain ⟨hbatch, hrest⟩ := List.forall_mem_cons.1 hadmits
    have hpass := absorbs_pass hemit hbatch now
    -- the other batches start from the builder that the first one leaves
    obtain ⟨r, habsorbs, hlast⟩ := ih hrest (move rules effects now (.pass batch))
    have hinserted := habsorbs.inserted
    rw [hpass.builder, hpass.inserted, Nat.add_assoc, ← Builder.takenCount_append] at hinserted
    have hbuilder := habsorbs.builder
    rw [hpass.builder, ← Builder.addAll_append] at hbuilder
    have hr := habsorbs.result
    rw [hpass.builder] at hr
    refine ⟨answer rules now.1.builder (batch ++ batches.flatten), ⟨hbuilder, hinserted, rfl⟩, ?_⟩
    rw [List.map_cons, resultsFrom, hpass.result]
    by_cases hwork : r = .ok .noWork
    · rw [hwork] at hlast hr
      rw [answer_append_of_noWork rules _ hr.symm]
      exact hlast.cons_of_noWork _
    · have hsome := hwork
      rw [hr] at hsome
      rw [answer_append_of_work rules _ hsome, ← hr]
      exact hlast.cons_of_work hwork _

/-- A run over batches ends as the pass over all their declarations, and its last result other than
that there was no work is that of this pass. -/
theorem run_of_cut (world world' : σ) :
    (run rules effects (batches.map .pass) world).1.builder =
        (run rules effects [.pass batches.flatten] world').1.builder ∧
      (run rules effects (batches.map .pass) world).1.counters.insertedDeclarations =
        (run rules effects [.pass batches.flatten] world').1.counters.insertedDeclarations ∧
      ∃ r, results rules effects [.pass batches.flatten] world' = [r] ∧
        LastWork (results rules effects (batches.map .pass) world) r := by
  have hflatten : ∀ d ∈ batches.flatten, Admits rules d := by
    intro d hd
    obtain ⟨batch, hbatch, hmem⟩ := List.mem_flatten.1 hd
    exact hadmits batch hbatch d hmem
  obtain ⟨r, hcut, hlast⟩ := absorbs_batches hemit hadmits (fresh, world)
  have hwhole := absorbs_pass hemit hflatten (fresh, world')
  have hbuilder := hcut.builder.trans hwhole.builder.symm
  have hinserted := hcut.inserted.trans hwhole.inserted.symm
  have hr := hcut.result.trans hwhole.result.symm
  refine ⟨hbuilder, hinserted, r, ?_, hlast⟩
  rw [hr]
  rfl

end Batches

namespace Sample
open ComponentWiring.Sample

/-- Three batches, of which the second is empty and the third repeats a declaration and closes a
cycle. -/
def cut : List (List Declaration) := [[appOnStore], [], [appOnStore, storeOnApp]]

theorem run_of_cut_of_three :
    (∀ order w, ∃ summary, (writing.emit order w).1 = .ok summary) ∧
      (∀ batch ∈ cut, ∀ d ∈ batch, Admits .standard d) ∧
      (run .standard writing (cut.map .pass) ()).1.builder =
        (run .standard writing [.pass cut.flatten] ()).1.builder ∧
      LastWork [.ok (.emitted [store, app]), .ok .noWork, .ok (.cycle [app, store, app])]
        (.ok (.cycle [app, store, app])) := by
  have hemit : ∀ order w, ∃ summary, (writing.emit order w).1 = .ok summary :=
    fun _ _ => ⟨_, rfl⟩
  have hadmits : ∀ batch ∈ cut, ∀ d ∈ batch, Admits .standard d := by decide
  obtain ⟨hbuilder, -, r, hwhole, hlast⟩ := run_of_cut hemit hadmits () ()
  have hcut : results .standard writing (cut.map .pass) () =
      [.ok (.emitted [store, app]), .ok .noWork, .ok (.cycle [app, store, app])] := by cbv
  have hone : results .standard writing [.pass cut.flatten] () =
      [.ok (.cycle [app, store, app])] := by cbv
  rw [hcut] at hlast
  obtain ⟨rfl, -⟩ := List.cons.inj (hone.symm.trans hwhole)
  exact ⟨hemit, hadmits, hbuilder, hlast⟩

end Sample

end Pipeline

end ComponentWiring
