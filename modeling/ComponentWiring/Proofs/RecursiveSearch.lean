import ComponentWiring.Proofs.SearchInvariant
import Mathlib.Data.List.Basic
import Mathlib.Logic.Relation

/-! # The search as a recursion

The search with an explicit path does what the plain recursion does: each frame is a call of the
recursion that waits for the call of the frame after it.

* `Graph.follow`: the dependencies of the end of a path, in order, by recursion.
* `Graph.tryRoots`: the components in order of their numbers, by recursion.
* `Graph.recursiveOutcome`: the outcome of the recursion.
* `Graph.outcome_eq_recursiveOutcome`: it is the outcome of the search, in every entry.
-/

namespace ComponentWiring
set_option autoImplicit false

namespace Graph

/-! ## The recursion -/

def absent (g : Graph) (path : List Nat) : Nat :=
  ((List.range g.size).filter (· ∉ path)).length

theorem absent_concat_lt {g : Graph} {path : List Nat} {v : Nat} (hv : v < g.size)
    (hpath : v ∉ path) : g.absent (path ++ [v]) < g.absent path := by
  have hsub : ((List.range g.size).filter (· ∉ path ++ [v])).Sublist
      ((List.range g.size).filter (· ∉ path)) := by
    apply List.monotone_filter_right
    intro w hw
    simp only [decide_eq_true_eq] at hw ⊢
    exact fun hmem => hw (List.mem_append_left _ hmem)
  refine Nat.lt_of_le_of_ne hsub.length_le fun heq => ?_
  have hmem : v ∈ (List.range g.size).filter (· ∉ path) := by
    simp [hv, hpath]
  rw [← hsub.eq_of_length heq] at hmem
  simp at hmem

/-- A number beyond the graph has no dependencies, so that following them ends at once. -/
theorem absent_decreases (g : Graph) {path ahead : List Nat} {v : Nat} (hpath : v ∉ path) :
    Prod.Lex (· < ·) (· < ·) (g.absent (path ++ [v]), (g.neighbors v).length)
      (g.absent path, (v :: ahead).length) := by
  by_cases hv : v < g.size
  · exact Prod.Lex.left _ _ (absent_concat_lt hv hpath)
  · have hsame : g.absent (path ++ [v]) = g.absent path := by
      have hne : ∀ w ∈ List.range g.size, w ≠ v := by
        intro w hw heq
        exact hv (heq ▸ List.mem_range.1 hw)
      unfold absent
      congr 1
      apply List.filter_congr
      intro w hw
      simp [hne w hw]
    rw [hsame, neighbors_of_size_le (Nat.le_of_not_lt hv)]
    exact Prod.Lex.right _ (Nat.succ_pos _)

/-- Goes through the dependencies `ahead` of the end of a path, with the components finished so far.
One on the path closes a cycle, a finished one is passed over, and any other is finished after its
own dependencies. -/
def follow (g : Graph) (path finished : List Nat) : List Nat → List Nat ⊕ List Nat
  | [] => .inl finished
  | v :: ahead =>
    if v ∈ path then .inr (path.dropWhile (· ≠ v) ++ [v])
    else if v ∈ finished then follow g path finished ahead
    else
      match follow g (path ++ [v]) finished (g.neighbors v) with
      | .inl finished => follow g path (finished ++ [v]) ahead
      | .inr cycle => .inr cycle
termination_by ahead => (g.absent path, ahead.length)
decreasing_by
  · exact Prod.Lex.right _ (Nat.lt_succ_self _)
  · exact absent_decreases g (by assumption)
  · exact Prod.Lex.right _ (Nat.lt_succ_self _)

/-- Tries components as starts of a path, with the components finished so far. -/
def tryRoots (g : Graph) (finished : List Nat) : List Nat → List Nat ⊕ List Nat
  | [] => .inl finished
  | root :: roots =>
    if root ∈ finished then tryRoots g finished roots
    else
      match follow g [root] finished (g.neighbors root) with
      | .inl finished => tryRoots g (finished ++ [root]) roots
      | .inr cycle => .inr cycle

def recursiveOutcome (g : Graph) : Outcome :=
  match g.tryRoots [] (List.range g.size) with
  | .inl order => .ordered (g.identitiesOf order)
  | .inr cycle => .cycle (g.identitiesOf cycle)

end Graph

namespace Search
open ComponentWiring.Graph

/-! ## What a call does to the search -/

/-- The search comes from a state to the result of a call for the end of its path: to the same path
with nothing ahead and the finished components of the result, or to its cycle. -/
def Answers (g : Graph) (s : Search) (u : Nat) (frames : List Frame) :
    List Nat ⊕ List Nat → Prop
  | .inl finished => ∃ s', Relation.ReflTransGen (Moves g) s s' ∧ Invariant g s' ∧
      s'.roots = s.roots ∧ s'.path = ⟨u, []⟩ :: frames ∧ s'.finished.reverse = finished
  | .inr cycle => ∃ s', Relation.ReflTransGen (Moves g) s s' ∧ s'.step g = .cycle cycle

theorem Answers.head {g : Graph} {s s' : Search} {u : Nat} {frames : List Frame}
    {result : List Nat ⊕ List Nat} (hmoves : Relation.ReflTransGen (Moves g) s s')
    (hroots : s'.roots = s.roots) (h : Answers g s' u frames result) :
    Answers g s u frames result := by
  cases result with
  | inl finished =>
    obtain ⟨e, hruns, hinv, hsame, hpath, hfin⟩ := h
    exact ⟨e, hmoves.trans hruns, hinv, hsame.trans hroots, hpath, hfin⟩
  | inr cycle =>
    obtain ⟨e, hruns, hstep⟩ := h
    exact ⟨e, hmoves.trans hruns, hstep⟩

/-! ## Steps of a search whose state is sound -/

section Moves
variable {g : Graph} {s : Search} {u v : Nat} {ahead : List Nat} {frames : List Frame}

theorem notMem_entered (hpath : v ∉ s.vertices) (hfin : v ∉ s.finished.reverse) :
    v ∉ s.entered := by
  rw [mem_vertices] at hpath
  rw [List.mem_reverse] at hfin
  exact fun hin => (List.mem_append.1 hin).elim hpath hfin

theorem step_gray (hpath : s.path = ⟨u, v :: ahead⟩ :: frames) (hgray : s.markOf v = .gray) :
    s.step g = .cycle (s.cycleFrom v) := by
  obtain ⟨roots, path, marks, finished⟩ := s
  cases hpath
  simp only [markOf] at hgray
  simp [step, markOf, hgray, cycleFrom, vertices]

theorem moves_passRoot {root : Nat} {roots : List Nat} (h : Invariant g s) (hpath : s.path = [])
    (hroots : s.roots = root :: roots) (hfin : root ∈ s.finished.reverse) :
    Moves g s { s with roots := roots } := by
  have hmark : s.markOf root ≠ .white := by
    intro hwhite
    have hnew := ((h.white_iff root).1 hwhite).2
    exact hnew (List.mem_append_right _ (List.mem_reverse.1 hfin))
  obtain ⟨_, path, marks, finished⟩ := s
  cases hpath
  cases hroots
  exact .passRoot hmark

theorem moves_enterRoot {root : Nat} {roots : List Nat} (h : Invariant g s) (hpath : s.path = [])
    (hroots : s.roots = root :: roots) (hlt : root < g.size) (hfin : root ∉ s.finished.reverse) :
    Moves g s
      { s with
        roots := roots
        path := [⟨root, g.neighbors root⟩]
        marks := s.marks.set root .gray } := by
  have hwhite : s.markOf root = .white := by
    refine (h.white_iff root).2 ⟨hlt, notMem_entered ?_ hfin⟩
    simp [vertices, hpath]
  obtain ⟨_, path, marks, finished⟩ := s
  cases hpath
  cases hroots
  exact .enterRoot hwhite

theorem moves_finish (hpath : s.path = ⟨u, []⟩ :: frames) :
    Moves g s
      { s with path := frames, marks := s.marks.set u .black, finished := u :: s.finished } := by
  obtain ⟨roots, path, marks, finished⟩ := s
  cases hpath
  exact .finish

theorem moves_pass (hg : g.WellFormed) (h : Invariant g s)
    (hpath : s.path = ⟨u, v :: ahead⟩ :: frames) (hv : v ∈ s.finished) :
    Moves g s { s with path := ⟨u, ahead⟩ :: frames } := by
  obtain ⟨roots, path, marks, finished⟩ := s
  cases hpath
  exact .pass ((h.black_iff (hg.neighbors_lt u v h.mem_neighbors)).2 hv)

theorem moves_enter (hg : g.WellFormed) (h : Invariant g s)
    (hpath : s.path = ⟨u, v :: ahead⟩ :: frames) (hv : v ∉ s.entered) :
    Moves g s
      { s with
        path := ⟨v, g.neighbors v⟩ :: ⟨u, ahead⟩ :: frames
        marks := s.marks.set v .gray } := by
  obtain ⟨roots, path, marks, finished⟩ := s
  cases hpath
  exact .enter ((h.white_iff v).2 ⟨hg.neighbors_lt u v h.mem_neighbors, hv⟩)

end Moves

/-! ## The simulation -/

/-- The frame at the end of the path is a call for the components before it. -/
theorem follow_answers {g : Graph} (hg : g.WellFormed) (path finished ahead : List Nat)
    (s : Search) (u : Nat) (frames : List Frame) (h : Invariant g s)
    (hpath : s.path = ⟨u, ahead⟩ :: frames) (hvertices : s.vertices = path)
    (hfin : s.finished.reverse = finished) :
    Answers g s u frames (g.follow path finished ahead) := by
  fun_induction follow g path finished ahead generalizing s u frames with
  | case1 path finished => exact ⟨s, .refl, h, rfl, hpath, hfin⟩
  | case2 path finished v ahead hv =>
    rw [← hvertices] at hv ⊢
    have hgray : s.markOf v = .gray := (h.gray_iff v).2 ((mem_vertices s v).1 hv)
    refine ⟨s, .refl, ?_⟩
    rw [step_gray hpath hgray, cycleFrom, if_pos hv]
  | case3 path finished v ahead hv hmem ih =>
    rw [← hfin, List.mem_reverse] at hmem
    have hmove := moves_pass hg h hpath hmem
    refine Answers.head (.single hmove) rfl (ih _ u frames (h.step hg hmove) rfl ?_ hfin)
    rw [← hvertices]
    simp [vertices, hpath]
  | case4 path finished v ahead hv hmem finished' hinner ih ih' =>
    have hmove := moves_enter hg h hpath (notMem_entered (hvertices ▸ hv) (hfin ▸ hmem))
    have hcall := ih _ v (⟨u, ahead⟩ :: frames) (h.step hg hmove) rfl
      (by simp [vertices, ← hvertices, hpath]) hfin
    rw [hinner] at hcall
    obtain ⟨s', hruns, hinv, hroots, hpath', hfin'⟩ := hcall
    have hfinish : Moves g s' _ := moves_finish hpath'
    refine Answers.head ((hruns.head hmove).tail hfinish) hroots
      (ih' _ u frames (hinv.step hg hfinish) rfl ?_ ?_)
    · rw [← hvertices]
      simp [vertices, hpath]
    · simp [hfin']
  | case5 path finished v ahead hv hmem cycle hinner ih =>
    have hmove := moves_enter hg h hpath (notMem_entered (hvertices ▸ hv) (hfin ▸ hmem))
    have hcall := ih _ v (⟨u, ahead⟩ :: frames) (h.step hg hmove) rfl
      (by simp [vertices, ← hvertices, hpath]) hfin
    rw [hinner] at hcall
    obtain ⟨s', hruns, hstep⟩ := hcall
    exact ⟨s', hruns.head hmove, hstep⟩

theorem run_of_runs {g : Graph} {s s' : Search} (h : Relation.ReflTransGen (Moves g) s s') :
    run g s = run g s' := by
  induction h with
  | refl => rfl
  | tail _ hmove ih => rw [ih, run_of_moves hmove]

theorem run_eq_tryRoots {g : Graph} (hg : g.WellFormed) (finished roots : List Nat)
    (hroots : ∀ root ∈ roots, root < g.size) (s : Search) (h : Invariant g s)
    (hpath : s.path = []) (hs : s.roots = roots) (hfin : s.finished.reverse = finished) :
    run g s = g.tryRoots finished roots := by
  fun_induction tryRoots g finished roots generalizing s with
  | case1 finished =>
    have hstep : s.step g = .ordered s.finished.reverse := by
      simp [step, hpath, hs]
    rw [run_of_ordered hstep, hfin]
  | case2 finished root roots hmem ih =>
    have hmove := moves_passRoot h hpath hs (hfin ▸ hmem)
    rw [run_of_moves hmove]
    exact ih (fun r hr => hroots r (List.mem_cons_of_mem _ hr)) _ (h.step hg hmove) hpath rfl hfin
  | case3 finished root roots hmem finished' hinner ih =>
    have hmove := moves_enterRoot h hpath hs (hroots root List.mem_cons_self) (hfin ▸ hmem)
    have hcall := follow_answers hg [root] finished _ _ root [] (h.step hg hmove) rfl rfl hfin
    rw [hinner] at hcall
    obtain ⟨s', hruns, hinv, hsame, hpath', hfin'⟩ := hcall
    have hfinish : Moves g s' _ := moves_finish hpath'
    rw [run_of_runs ((hruns.head hmove).tail hfinish)]
    exact ih (fun r hr => hroots r (List.mem_cons_of_mem _ hr)) _ (hinv.step hg hfinish) rfl hsame
      (by simp [hfin'])
  | case4 finished root roots hmem cycle hinner =>
    have hmove := moves_enterRoot h hpath hs (hroots root List.mem_cons_self) (hfin ▸ hmem)
    have hcall := follow_answers hg [root] finished _ _ root [] (h.step hg hmove) rfl rfl hfin
    rw [hinner] at hcall
    obtain ⟨s', hruns, hstep⟩ := hcall
    rw [run_of_runs (hruns.head hmove), run_of_cycle hstep]

end Search

namespace Graph

/-- The search comes to the outcome of the recursion: the same order or the same cycle. -/
theorem outcome_eq_recursiveOutcome (changes : List Change) :
    (after changes).outcome = (after changes).recursiveOutcome := by
  have hrun := Search.run_eq_tryRoots (wellFormed_after changes) []
    (List.range (after changes).size) (fun _ h => List.mem_range.1 h)
    (Search.start (after changes)) (Search.invariant_start _) rfl rfl rfl
  unfold outcome recursiveOutcome
  cases htry : (after changes).tryRoots [] (List.range (after changes).size) with
  | inl order => rw [hrun, htry]
  | inr cycle => rw [hrun, htry]

end Graph

end ComponentWiring
