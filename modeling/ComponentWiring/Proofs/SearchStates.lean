import ComponentWiring.Proofs.OrderOrCycle
import Mathlib.Algebra.BigOperators.Group.Finset.Basic
import Mathlib.Algebra.BigOperators.Ring.List

/-! # The states of the search, one after another

The search goes from state to state until it has an order or a cycle. Every state on the way is
orderly, and every step takes one from a number that is linear in the size of the graph, so the
search ends.

* `Search.stateAt?`: the state after a number of steps.
* `Search.Orderly`: what the path, the marks and the finished components have to do with each other.
* `Search.stepsAhead`: how many steps there are at most, which is one less after each step.
* `Search.loop_orderly`: all states are orderly, every cycle is cut out of the path, and the search
  ends with its answer.
-/

namespace ComponentWiring.Search
set_option autoImplicit false

/-! ## States -/

/-- The state after a number of steps, if the search has not ended by then. -/
def stateAt? (g : Graph) : Nat → Option Search
  | 0 => some (start g)
  | n + 1 =>
    match stateAt? g n with
    | some s =>
      match s.step g with
      | .next s' => some s'
      | _ => none
    | none => none

/-- All numbers of components that a state holds. -/
def numbers (s : Search) : List Nat :=
  s.roots ++ s.vertices ++ s.path.flatMap (·.ahead) ++ s.finished

/-- The gray components are the path, without repeats, the black ones are the finished ones, without
repeats and with all that they depend on, and every frame but the last stands just behind the edge
to the component of the frame after it. The path has its end in front. -/
structure Orderly (g : Graph) (s : Search) : Prop where
  distinct : s.vertices.Nodup
  gray_iff : ∀ v, s.marks[v]? = some .gray ↔ v ∈ s.vertices
  scans : ∀ frame ∈ s.path, frame.ahead <:+ g.neighbors frame.vertex
  behind : s.path.IsChain fun after frame =>
    ∃ looked, g.neighbors frame.vertex = looked ++ after.vertex :: frame.ahead
  black_iff : ∀ v, s.marks[v]? = some .black ↔ v ∈ s.finished
  once : s.finished.Nodup
  closed : ∀ v w, s.marks[v]? = some .black → w ∈ g.neighbors v → s.marks[w]? = some .black
  size_marks : s.marks.length = g.size
  inside : ∀ v ∈ s.numbers, v < g.size

theorem moves_of_stateAt? {g : Graph} {n : Nat} {s' : Search}
    (h : stateAt? g (n + 1) = some s') : ∃ s, stateAt? g n = some s ∧ Moves g s s' := by
  rw [stateAt?] at h
  split at h
  · next s hs =>
    split at h
    · next s'' hstep =>
      cases h
      exact ⟨s, hs, moves_of_step hstep⟩
    · cases h
  · cases h

theorem stateAt?_of_moves {g : Graph} {n : Nat} {s s' : Search} (h : stateAt? g n = some s)
    (hs : Moves g s s') : stateAt? g (n + 1) = some s' := by
  rw [stateAt?, h]
  dsimp only
  rw [step_of_moves hs]

/-! ## Orderly states -/

/-- The components still to be tried are some of the graph. -/
theorem roots_lt {g : Graph} {n : Nat} {s : Search} (h : stateAt? g n = some s) :
    ∀ v ∈ s.roots, v < g.size := by
  induction n generalizing s with
  | zero =>
    cases h
    intro v hv
    exact List.mem_range.1 hv
  | succ n ih =>
    obtain ⟨s₀, hs₀, hmoves⟩ := moves_of_stateAt? h
    have hroots : ∀ v ∈ s.roots, v ∈ s₀.roots := by
      cases hmoves with
      | enterRoot => exact fun v hv => List.mem_cons_of_mem _ hv
      | passRoot => exact fun v hv => List.mem_cons_of_mem _ hv
      | finish => exact fun v hv => hv
      | enter => exact fun v hv => hv
      | pass => exact fun v hv => hv
    exact fun v hv => ih hs₀ v (hroots v hv)

theorem invariant_stateAt? {g : Graph} (hg : g.WellFormed) {n : Nat} {s : Search}
    (h : stateAt? g n = some s) : Invariant g s := by
  induction n generalizing s with
  | zero =>
    cases h
    exact invariant_start g
  | succ n ih =>
    obtain ⟨s₀, hs₀, hmoves⟩ := moves_of_stateAt? h
    exact (ih hs₀).step hg hmoves

section Orderly
variable {g : Graph} {s : Search}

theorem Invariant.length_marks (h : Invariant g s) : s.marks.length = g.size := by
  rw [h.marks]
  simp [colours]

theorem Invariant.getElem?_marks_eq_some_iff (h : Invariant g s) (v : Nat) (m : Mark) :
    s.marks[v]? = some m ↔ v < g.size ∧ s.markOf v = m := by
  by_cases hv : v < g.size
  · rw [h.markOf_eq hv, h.marks, getElem?_colours _ _ hv, Option.some.injEq]
    simp [hv]
  · have hnone : s.marks[v]? = none :=
      List.getElem?_eq_none (by rw [h.length_marks]; exact Nat.le_of_not_lt hv)
    simp [hnone, hv]

theorem Invariant.gray_entry_iff (h : Invariant g s) (v : Nat) :
    s.marks[v]? = some .gray ↔ v ∈ s.vertices := by
  rw [h.getElem?_marks_eq_some_iff, h.gray_iff, mem_vertices]
  exact ⟨And.right, fun hv => ⟨h.inside v (List.mem_append_left _ hv), hv⟩⟩

theorem Invariant.black_entry_iff (h : Invariant g s) (v : Nat) :
    s.marks[v]? = some .black ↔ v ∈ s.finished := by
  rw [h.getElem?_marks_eq_some_iff]
  constructor
  · rintro ⟨hv, hblack⟩
    exact (h.black_iff hv).1 hblack
  · intro hv
    have hlt : v < g.size := h.inside v (List.mem_append_right _ hv)
    exact ⟨hlt, (h.black_iff hlt).2 hv⟩

theorem Closed.mem_of_mem {back : List Nat} (h : Closed g back) {v w : Nat} (hv : v ∈ back)
    (hw : w ∈ g.neighbors v) : w ∈ back := by
  obtain ⟨front, rest, rfl⟩ := List.append_of_mem hv
  have hrest : w ∈ rest := Graph.mem_back_of_closed h hw
  exact List.mem_append_right _ (List.mem_cons_of_mem _ hrest)

theorem Invariant.orderly (hg : g.WellFormed) (h : Invariant g s)
    (hroots : ∀ v ∈ s.roots, v < g.size) : Orderly g s where
  distinct := List.nodup_reverse.2 (List.nodup_append.1 h.nodup).1
  gray_iff := h.gray_entry_iff
  scans := h.trail.suffix
  behind := h.trail.behind
  black_iff := h.black_entry_iff
  once := (List.nodup_append.1 h.nodup).2.1
  closed := by
    intro v w hv hw
    rw [h.black_entry_iff] at hv ⊢
    exact h.closed.mem_of_mem hv hw
  size_marks := h.length_marks
  inside := by
    intro v hv
    simp only [numbers, List.mem_append, List.mem_flatMap, mem_vertices] at hv
    rcases hv with ((hroot | hpath) | ⟨frame, hframe, hahead⟩) | hfinished
    · exact hroots v hroot
    · exact h.inside v (List.mem_append_left _ hpath)
    · exact hg.neighbors_lt _ v ((h.trail.suffix frame hframe).subset hahead)
    · exact h.inside v (List.mem_append_right _ hfinished)

/-- The component that closes a cycle is on the path, and the cycle is the path from there on. -/
theorem Invariant.cycle_on_path (h : Invariant g s) {c : List Nat} (hc : s.step g = .cycle c) :
    ∃ v ∈ s.vertices, c = s.vertices.dropWhile (· ≠ v) ++ [v] := by
  obtain ⟨u, v, ahead, path, -, hgray, rfl⟩ := step_eq_cycle hc
  have hv : v ∈ s.vertices := (mem_vertices s v).2 ((h.gray_iff v).1 hgray)
  exact ⟨v, hv, if_pos hv⟩

end Orderly

/-! ## The number of steps -/

/-- The components that were not entered. -/
def untouched (g : Graph) (s : Search) : Finset Nat := {v ∈ Finset.range g.size | v ∉ s.entered}

/-- At most so many steps are ahead: one for each root, one for each component on the path and each
edge ahead on it, and for each component that was not entered one and one for each of its edges. -/
def stepsAhead (g : Graph) (s : Search) : Nat :=
  s.roots.length + s.pending + ∑ v ∈ untouched g s, ((g.neighbors v).length + 1)

theorem sum_neighbors_eq {g : Graph} (hg : g.WellFormed) :
    ∑ v ∈ Finset.range g.size, (g.neighbors v).length = g.edgeCount := by
  have hedges : (List.range g.size).map g.neighbors = g.vertices.map (·.edges) := by
    apply List.ext_getElem
    · simp [Graph.size]
    · intro v hv hv'
      have hlt : v < g.vertices.length := by simpa using hv'
      have hvertex := List.getElem?_eq_getElem hlt
      simp [Graph.neighbors_of_getElem? hvertex]
  calc ∑ v ∈ Finset.range g.size, (g.neighbors v).length
      = ((List.range g.size).map fun v => (g.neighbors v).length).sum := rfl
    _ = (((List.range g.size).map g.neighbors).map List.length).sum := by rw [List.map_map]; rfl
    _ = g.edgeCount := by
      rw [hedges, List.map_map, hg.counted]
      rfl

theorem stepsAhead_start {g : Graph} (hg : g.WellFormed) :
    stepsAhead g (start g) = 2 * g.size + g.edgeCount := by
  have huntouched : untouched g (start g) = Finset.range g.size := by
    simp [untouched, start, entered]
  rw [stepsAhead, huntouched, Finset.sum_add_distrib, sum_neighbors_eq hg]
  simp [start, pending]
  omega

theorem sum_untouched_enter {g : Graph} {s : Search} (s' : Search) {v : Nat}
    (hentered : s'.entered = v :: s.entered) (hlt : v < g.size) (hnew : v ∉ s.entered) :
    ∑ w ∈ untouched g s, ((g.neighbors w).length + 1) =
      (g.neighbors v).length + 1 + ∑ w ∈ untouched g s', ((g.neighbors w).length + 1) := by
  have herase : untouched g s' = (untouched g s).erase v := by
    ext w
    simp only [untouched, hentered, Finset.mem_filter, Finset.mem_range, Finset.mem_erase,
      List.mem_cons, not_or]
    tauto
  have hmem : v ∈ untouched g s := by
    simp [untouched, hlt, hnew]
  rw [herase]
  exact (Finset.add_sum_erase _ (fun w => (g.neighbors w).length + 1) hmem).symm

theorem untouched_eq {g : Graph} {s s' : Search} (h : s'.entered.Perm s.entered) :
    untouched g s' = untouched g s := by
  ext v
  simp only [untouched, Finset.mem_filter, h.mem_iff]

theorem stepsAhead_of_moves {g : Graph} {s s' : Search} (h : Invariant g s) (hs : Moves g s s') :
    stepsAhead g s = stepsAhead g s' + 1 := by
  cases hs with
  | @enterRoot root roots marks finished hwhite =>
    obtain ⟨hlt, hnew⟩ := (h.white_iff root).1 hwhite
    have hsum := sum_untouched_enter
      ⟨roots, [⟨root, g.neighbors root⟩], marks.set root .gray, finished⟩ rfl hlt hnew
    simp only [stepsAhead, pending, hsum, List.length_cons, List.length_nil, List.flatMap_cons,
      List.flatMap_nil, List.append_nil]
    omega
  | @passRoot root roots marks finished hmark =>
    have hsame : untouched g ⟨root :: roots, [], marks, finished⟩ =
        untouched g ⟨roots, [], marks, finished⟩ := untouched_eq (.refl _)
    simp only [stepsAhead, pending, hsame, List.length_cons]
    omega
  | @finish roots u path marks finished =>
    have hsame : untouched g ⟨roots, ⟨u, []⟩ :: path, marks, finished⟩ =
        untouched g ⟨roots, path, marks.set u .black, u :: finished⟩ :=
      untouched_eq (by simp [entered, List.perm_middle.symm])
    simp only [stepsAhead, pending, hsame, List.length_cons, List.flatMap_cons, List.nil_append]
    omega
  | @enter roots u v ahead path marks finished hwhite =>
    obtain ⟨hlt, hnew⟩ := (h.white_iff v).1 hwhite
    have hsum := sum_untouched_enter
      ⟨roots, ⟨v, g.neighbors v⟩ :: ⟨u, ahead⟩ :: path, marks.set v .gray, finished⟩ rfl hlt hnew
    simp only [stepsAhead, pending, hsum, List.length_cons, List.flatMap_cons, List.length_append]
    omega
  | @pass roots u v ahead path marks finished hblack =>
    have hsame : untouched g ⟨roots, ⟨u, v :: ahead⟩ :: path, marks, finished⟩ =
        untouched g ⟨roots, ⟨u, ahead⟩ :: path, marks, finished⟩ := untouched_eq (.refl _)
    simp only [stepsAhead, pending, hsame, List.length_cons, List.flatMap_cons, List.length_append]
    omega

theorem add_stepsAhead {g : Graph} (hg : g.WellFormed) {n : Nat} {s : Search}
    (h : stateAt? g n = some s) : n + stepsAhead g s = 2 * g.size + g.edgeCount := by
  induction n generalizing s with
  | zero =>
    cases h
    rw [Nat.zero_add, stepsAhead_start hg]
  | succ n ih =>
    obtain ⟨s₀, hs₀, hmoves⟩ := moves_of_stateAt? h
    have hstep := stepsAhead_of_moves (invariant_stateAt? hg hs₀) hmoves
    have hsum := ih hs₀
    omega

/-! ## The end -/

/-- The search ends in one of its states, with an order or with a cycle. -/
theorem exists_last (g : Graph) : ∃ n e, stateAt? g n = some e ∧
    ((∃ order, e.step g = .ordered order ∧ run g (start g) = .inl order) ∨
      ∃ c, e.step g = .cycle c ∧ run g (start g) = .inr c) := by
  have hstep : ∀ s t, (∃ n, stateAt? g n = some s) → Moves g s t → ∃ n, stateAt? g n = some t :=
    fun _ _ ⟨n, hn⟩ hmoves => ⟨n + 1, stateAt?_of_moves hn hmoves⟩
  obtain ⟨e, ⟨n, hn⟩, hend⟩ := run_ends hstep (start g) ⟨0, rfl⟩
  exact ⟨n, e, hn, hend⟩

/-- All states of the search are orderly, a cycle is always cut out of the path from a component on
it, and after a number of steps that is linear in the size of the graph the search has its
answer. -/
theorem loop_orderly (changes : List Graph.Change) :
    (∀ n s, stateAt? (Graph.after changes) n = some s → Orderly (Graph.after changes) s) ∧
      (∀ n s c, stateAt? (Graph.after changes) n = some s →
        s.step (Graph.after changes) = .cycle c →
        ∃ v ∈ s.vertices, c = s.vertices.dropWhile (· ≠ v) ++ [v]) ∧
      ∃ n e, n ≤ 2 * (Graph.after changes).size + (Graph.after changes).edgeCount ∧
        stateAt? (Graph.after changes) n = some e ∧
        ((∃ order, e.step (Graph.after changes) = .ordered order ∧
            run (Graph.after changes) (start (Graph.after changes)) = .inl order) ∨
          ∃ c, e.step (Graph.after changes) = .cycle c ∧
            run (Graph.after changes) (start (Graph.after changes)) = .inr c) := by
  have hg : (Graph.after changes).WellFormed := Graph.wellFormed_after changes
  refine ⟨fun n s hs => ?_, fun n s c hs hc => ?_, ?_⟩
  · exact (invariant_stateAt? hg hs).orderly hg (roots_lt hs)
  · exact (invariant_stateAt? hg hs).cycle_on_path hc
  · obtain ⟨n, e, hn, hend⟩ := exists_last (Graph.after changes)
    have hsum := add_stepsAhead hg hn
    exact ⟨n, e, by omega, hn, hend⟩

theorem loop_orderly_of_two :
    let g := Graph.after [.addEdge Sample.app Sample.store, .addEdge Sample.store Sample.app]
    let s : Search := ⟨[1], [⟨1, [0]⟩, ⟨0, []⟩], [.gray, .gray], []⟩
    stateAt? g 2 = some s ∧ Orderly g s ∧ s.step g = .cycle [0, 1, 0] ∧
      ∃ v ∈ s.vertices, [0, 1, 0] = s.vertices.dropWhile (· ≠ v) ++ [v] := by
  intro g s
  have hs : stateAt? g 2 = some s := by decide
  have hc : s.step g = .cycle [0, 1, 0] := by decide
  obtain ⟨horderly, hcut, -⟩ := loop_orderly
    [.addEdge Sample.app Sample.store, .addEdge Sample.store Sample.app]
  exact ⟨hs, horderly 2 s hs, hc, hcut 2 s _ hs hc⟩

end ComponentWiring.Search
