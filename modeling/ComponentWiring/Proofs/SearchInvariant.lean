import ComponentWiring.Graph.Ordering
import ComponentWiring.Proofs.GraphChanges

/-! # What holds at every step of the search

* `Search.Invariant`: the marks tell the path and the finished components, no component is entered
  twice, every frame is a scan that stands behind the dependency by which the path goes on, and what
  is finished has finished dependencies.
* `Search.Invariant.step`: a step keeps it.
* `Search.run_ends`: what the steps keep holds where the run ends.
-/

namespace ComponentWiring.Search
set_option autoImplicit false

/-! ## Marks -/

/-- The mark of a component by the path and the finished components. -/
def colour (path finished : List Nat) (v : Nat) : Mark :=
  if v ∈ path then .gray else if v ∈ finished then .black else .white

def colours (size : Nat) (path finished : List Nat) : List Mark :=
  (List.range size).map (colour path finished)

theorem getElem?_colours {size v : Nat} (path finished : List Nat) (hv : v < size) :
    (colours size path finished)[v]? = some (colour path finished v) := by
  simp [colours, hv]

theorem set_colours {size v : Nat} {path finished path' finished' : List Nat} {m : Mark}
    (hv : colour path' finished' v = m)
    (hne : ∀ w, w ≠ v → colour path' finished' w = colour path finished w) :
    (colours size path finished).set v m = colours size path' finished' := by
  apply List.ext_getElem
  · simp [colours]
  · intro w hw hw'
    by_cases hwv : v = w
    · subst hwv
      simp [colours, hv]
    · simp [colours, List.getElem_set_ne hwv, hne w (Ne.symm hwv)]

theorem set_gray (size v : Nat) (path finished : List Nat) :
    (colours size path finished).set v .gray = colours size (v :: path) finished := by
  apply set_colours
  · simp [colour]
  · intro w hw
    simp [colour, hw]

theorem set_black {size v : Nat} {path finished : List Nat} (hv : v ∉ path) :
    (colours size (v :: path) finished).set v .black = colours size path (v :: finished) := by
  apply set_colours
  · simp [colour, hv]
  · intro w hw
    simp [colour, hw]

/-! ## The invariant -/

/-- Every component of the list has its dependencies further back. -/
def Closed (g : Graph) : List Nat → Prop
  | [] => True
  | v :: back => (∀ w ∈ g.neighbors v, w ∈ back) ∧ Closed g back

/-- The frames of a path from its end. The dependencies that a frame looked at are finished, apart
from the one by which the path goes on, which is behind them. -/
def Trail (g : Graph) (finished : List Nat) : List Nat → List Frame → Prop
  | _, [] => True
  | onward, frame :: path =>
    (∃ looked, g.neighbors frame.vertex = looked ++ onward ++ frame.ahead ∧
      ∀ w ∈ looked, w ∈ finished) ∧
    Trail g finished [frame.vertex] path

theorem mem_vertices (s : Search) (v : Nat) : v ∈ s.vertices ↔ v ∈ s.path.map (·.vertex) :=
  List.mem_reverse

/-- The components that were entered: those on the path and those finished. -/
def entered (s : Search) : List Nat := s.path.map (·.vertex) ++ s.finished

/-- What holds at every step of the search. -/
structure Invariant (g : Graph) (s : Search) : Prop where
  marks : s.marks = colours g.size (s.path.map (·.vertex)) s.finished
  nodup : s.entered.Nodup
  inside : ∀ v ∈ s.entered, v < g.size
  trail : Trail g s.finished [] s.path
  closed : Closed g s.finished
  covered : ∀ v < g.size, v ∈ s.roots ∨ v ∈ s.entered

theorem Trail.mono {g : Graph} {finished finished' : List Nat}
    (hsub : ∀ w ∈ finished, w ∈ finished') :
    ∀ {onward : List Nat} {path : List Frame}, Trail g finished onward path →
      Trail g finished' onward path
  | _, [], _ => trivial
  | _, _ :: _, ⟨⟨looked, hsplit, hlooked⟩, htail⟩ =>
    ⟨⟨looked, hsplit, fun w hw => hsub w (hlooked w hw)⟩, Trail.mono hsub htail⟩

theorem Trail.settle {g : Graph} {finished : List Nat} {v : Nat} {path : List Frame}
    (h : Trail g finished [v] path) (hv : v ∈ finished) : Trail g finished [] path := by
  cases path with
  | nil => trivial
  | cons frame path =>
    obtain ⟨⟨looked, hsplit, hlooked⟩, htail⟩ := h
    refine ⟨⟨looked ++ [v], by simpa using hsplit, ?_⟩, htail⟩
    intro w hw
    rcases List.mem_append.1 hw with hw | hw
    · exact hlooked w hw
    · rwa [List.mem_singleton.1 hw]

theorem Trail.suffix {g : Graph} {finished onward : List Nat} {path : List Frame}
    (h : Trail g finished onward path) :
    ∀ frame ∈ path, frame.ahead <:+ g.neighbors frame.vertex := by
  induction path generalizing onward with
  | nil => exact fun _ hframe => absurd hframe List.not_mem_nil
  | cons first path ih =>
    obtain ⟨⟨looked, hsplit, -⟩, htail⟩ := h
    intro frame hframe
    rcases List.mem_cons.1 hframe with rfl | hframe
    · exact ⟨looked ++ onward, hsplit.symm⟩
    · exact ih htail frame hframe

theorem Trail.behind {g : Graph} {finished onward : List Nat} {path : List Frame}
    (h : Trail g finished onward path) :
    path.IsChain fun after frame =>
      ∃ looked, g.neighbors frame.vertex = looked ++ after.vertex :: frame.ahead := by
  induction path generalizing onward with
  | nil => exact .nil
  | cons first path ih =>
    have htail := ih h.2
    cases path with
    | nil => exact .singleton _
    | cons second path =>
      obtain ⟨⟨looked, hsplit, -⟩, -⟩ := h.2
      exact .cons_cons ⟨looked, by simpa using hsplit⟩ htail

theorem invariant_start (g : Graph) : Invariant g (start g) where
  marks := by
    apply List.ext_getElem
    · simp [start, colours]
    · intro v hv hv'
      simp [start, colours, colour]
  nodup := by simp [start, entered]
  inside := by simp [start, entered]
  trail := trivial
  closed := trivial
  covered := fun v hv => Or.inl (List.mem_range.2 hv)

section Marks
variable {g : Graph} {s : Search}

theorem Invariant.markOf_eq (h : Invariant g s) {v : Nat} (hv : v < g.size) :
    s.markOf v = colour (s.path.map (·.vertex)) s.finished v := by
  rw [markOf, h.marks, getElem?_colours _ _ hv]
  rfl

theorem Invariant.markOf_outside (h : Invariant g s) {v : Nat} (hv : ¬ v < g.size) :
    s.markOf v = .black := by
  have hnone : s.marks[v]? = none := by
    rw [h.marks]
    exact List.getElem?_eq_none (by simpa [colours] using hv)
  rw [markOf, hnone]
  rfl

theorem Invariant.white_iff (h : Invariant g s) (v : Nat) :
    s.markOf v = .white ↔ v < g.size ∧ v ∉ s.entered := by
  by_cases hv : v < g.size
  · rw [h.markOf_eq hv, colour, entered, List.mem_append]
    split
    · simp [*]
    · split <;> simp [*]
  · simp [h.markOf_outside hv, hv]

theorem Invariant.gray_iff (h : Invariant g s) (v : Nat) :
    s.markOf v = .gray ↔ v ∈ s.path.map (·.vertex) := by
  by_cases hv : v < g.size
  · rw [h.markOf_eq hv, colour]
    split
    · simp [*]
    · split <;> simp [*]
  · have hpath : v ∉ s.path.map (·.vertex) :=
      fun hmem => hv (h.inside v (List.mem_append_left _ hmem))
    simp [h.markOf_outside hv, hpath]

theorem Invariant.black_iff (h : Invariant g s) {v : Nat} (hv : v < g.size) :
    s.markOf v = .black ↔ v ∈ s.finished := by
  have hdisj : v ∈ s.path.map (·.vertex) → v ∉ s.finished :=
    fun hpath hfin => (List.nodup_append.1 h.nodup).2.2 v hpath v hfin rfl
  rw [h.markOf_eq hv, colour]
  split
  · next hpath => simp [hdisj hpath]
  · split <;> simp [*]

end Marks

/-! ## Steps -/

/-- The steps that lead to another state: a root is entered or passed over, the end of the path is
finished, or its next dependency is entered or passed over. -/
inductive Moves (g : Graph) : Search → Search → Prop
  | enterRoot {root : Nat} {roots : List Nat} {marks : List Mark} {finished : List Nat}
      (hwhite : (⟨root :: roots, [], marks, finished⟩ : Search).markOf root = .white) :
      Moves g ⟨root :: roots, [], marks, finished⟩
        ⟨roots, [⟨root, g.neighbors root⟩], marks.set root .gray, finished⟩
  | passRoot {root : Nat} {roots : List Nat} {marks : List Mark} {finished : List Nat}
      (hmark : (⟨root :: roots, [], marks, finished⟩ : Search).markOf root ≠ .white) :
      Moves g ⟨root :: roots, [], marks, finished⟩ ⟨roots, [], marks, finished⟩
  | finish {roots : List Nat} {u : Nat} {path : List Frame} {marks : List Mark}
      {finished : List Nat} :
      Moves g ⟨roots, ⟨u, []⟩ :: path, marks, finished⟩
        ⟨roots, path, marks.set u .black, u :: finished⟩
  | enter {roots : List Nat} {u v : Nat} {ahead : List Nat} {path : List Frame}
      {marks : List Mark} {finished : List Nat}
      (hwhite : (⟨roots, ⟨u, v :: ahead⟩ :: path, marks, finished⟩ : Search).markOf v = .white) :
      Moves g ⟨roots, ⟨u, v :: ahead⟩ :: path, marks, finished⟩
        ⟨roots, ⟨v, g.neighbors v⟩ :: ⟨u, ahead⟩ :: path, marks.set v .gray, finished⟩
  | pass {roots : List Nat} {u v : Nat} {ahead : List Nat} {path : List Frame}
      {marks : List Mark} {finished : List Nat}
      (hblack : (⟨roots, ⟨u, v :: ahead⟩ :: path, marks, finished⟩ : Search).markOf v = .black) :
      Moves g ⟨roots, ⟨u, v :: ahead⟩ :: path, marks, finished⟩
        ⟨roots, ⟨u, ahead⟩ :: path, marks, finished⟩

theorem step_of_moves {g : Graph} {s s' : Search} (h : Moves g s s') : s.step g = .next s' := by
  cases h with
  | enterRoot hwhite => exact if_pos hwhite
  | passRoot hmark => exact if_neg hmark
  | finish => rfl
  | enter hwhite =>
    simp only [markOf] at hwhite
    simp [step, markOf, hwhite, Search.enter]
  | pass hblack =>
    simp only [markOf] at hblack
    simp [step, markOf, hblack]

theorem moves_of_step {g : Graph} {s s' : Search} (h : s.step g = .next s') : Moves g s s' := by
  obtain ⟨roots, path, marks, finished⟩ := s
  rcases path with - | ⟨⟨u, - | ⟨v, ahead⟩⟩, path⟩
  · cases roots with
    | nil => cases h
    | cons root roots =>
      simp only [step] at h
      split at h
      · next hwhite =>
        cases h
        exact .enterRoot hwhite
      · next hmark =>
        cases h
        exact .passRoot hmark
  · cases h
    exact .finish
  · simp only [step] at h
    split at h
    · next hwhite =>
      cases h
      exact .enter hwhite
    · cases h
    · next hblack =>
      cases h
      exact .pass hblack

theorem step_eq_ordered {g : Graph} {s : Search} {order : List Nat}
    (h : s.step g = .ordered order) : s.roots = [] ∧ s.path = [] ∧ order = s.finished.reverse := by
  obtain ⟨roots, path, marks, finished⟩ := s
  rcases path with - | ⟨⟨u, - | ⟨v, ahead⟩⟩, path⟩
  · cases roots with
    | nil =>
      cases h
      exact ⟨rfl, rfl, rfl⟩
    | cons root roots =>
      simp only [step] at h
      split at h <;> cases h
  · cases h
  · simp only [step] at h
    split at h <;> cases h

theorem step_eq_cycle {g : Graph} {s : Search} {c : List Nat} (h : s.step g = .cycle c) :
    ∃ u v ahead path, s.path = ⟨u, v :: ahead⟩ :: path ∧ s.markOf v = .gray ∧
      c = s.cycleFrom v := by
  obtain ⟨roots, path, marks, finished⟩ := s
  rcases path with - | ⟨⟨u, - | ⟨v, ahead⟩⟩, path⟩
  · cases roots with
    | nil => cases h
    | cons root roots =>
      simp only [step] at h
      split at h <;> cases h
  · cases h
  · simp only [step] at h
    split at h
    · cases h
    · next hgray =>
      cases h
      exact ⟨u, v, ahead, path, rfl, hgray, by simp [cycleFrom, vertices]⟩
    · cases h

/-! ## A step keeps the invariant -/

section Step
variable {g : Graph} {roots ahead : List Nat} {u v : Nat} {path : List Frame} {marks : List Mark}
  {finished : List Nat}

theorem Invariant.mem_neighbors
    (h : Invariant g ⟨roots, ⟨u, v :: ahead⟩ :: path, marks, finished⟩) : v ∈ g.neighbors u := by
  obtain ⟨⟨looked, hsplit, -⟩, -⟩ := h.trail
  simp [hsplit]

theorem Invariant.push {path' : List Frame} {roots' : List Nat}
    (h : Invariant g ⟨roots, path, marks, finished⟩)
    (hwhite : (⟨roots, path, marks, finished⟩ : Search).markOf v = .white)
    (hpath : path'.map (·.vertex) = path.map (·.vertex)) (htrail : Trail g finished [v] path')
    (hroots : ∀ w ∈ roots, w ∈ roots' ∨ w = v) :
    Invariant g ⟨roots', ⟨v, g.neighbors v⟩ :: path', marks.set v .gray, finished⟩ := by
  obtain ⟨hlt, hnew⟩ := (h.white_iff v).1 hwhite
  have hentered : entered ⟨roots', ⟨v, g.neighbors v⟩ :: path', marks.set v .gray, finished⟩ =
      v :: entered ⟨roots, path, marks, finished⟩ := by
    simp [entered, hpath]
  have hmarks : marks = colours g.size (path.map (·.vertex)) finished := h.marks
  constructor
  · rw [hmarks, set_gray, List.map_cons, hpath]
  · rw [hentered]
    exact List.nodup_cons.2 ⟨hnew, h.nodup⟩
  · rw [hentered]
    intro w hw
    rcases List.mem_cons.1 hw with rfl | hw
    · exact hlt
    · exact h.inside w hw
  · exact ⟨⟨[], by simp, by simp⟩, htrail⟩
  · exact h.closed
  · rw [hentered]
    intro w hw
    rcases h.covered w hw with hroot | hold
    · rcases hroots w hroot with hroot | rfl
      · exact Or.inl hroot
      · exact Or.inr List.mem_cons_self
    · exact Or.inr (List.mem_cons_of_mem _ hold)

theorem Invariant.pop (h : Invariant g ⟨roots, ⟨u, []⟩ :: path, marks, finished⟩) :
    Invariant g ⟨roots, path, marks.set u .black, u :: finished⟩ := by
  have hperm : (entered ⟨roots, path, marks.set u .black, u :: finished⟩).Perm
      (entered ⟨roots, ⟨u, []⟩ :: path, marks, finished⟩) := by
    simp [entered, List.perm_middle]
  have hu : u ∉ path.map (·.vertex) := by
    have hnodup := (List.nodup_append.1 h.nodup).1
    exact (List.nodup_cons.1 hnodup).1
  obtain ⟨⟨looked, hsplit, hlooked⟩, htrail⟩ := h.trail
  have hmono : Trail g (u :: finished) [u] path :=
    htrail.mono fun w hw => List.mem_cons_of_mem u hw
  have hmarks : marks = colours g.size (u :: path.map (·.vertex)) finished := h.marks
  constructor
  · rw [hmarks, set_black hu]
  · exact hperm.nodup_iff.2 h.nodup
  · intro w hw
    exact h.inside w (hperm.mem_iff.1 hw)
  · exact hmono.settle List.mem_cons_self
  · refine ⟨fun w hw => hlooked w ?_, h.closed⟩
    simpa [hsplit] using hw
  · intro w hw
    exact (h.covered w hw).imp_right hperm.mem_iff.2

theorem Invariant.passed (hg : g.WellFormed)
    (h : Invariant g ⟨roots, ⟨u, v :: ahead⟩ :: path, marks, finished⟩)
    (hblack : (⟨roots, ⟨u, v :: ahead⟩ :: path, marks, finished⟩ : Search).markOf v = .black) :
    Invariant g ⟨roots, ⟨u, ahead⟩ :: path, marks, finished⟩ := by
  have hv : v ∈ finished := (h.black_iff (hg.neighbors_lt u v h.mem_neighbors)).1 hblack
  obtain ⟨⟨looked, hsplit, hlooked⟩, htrail⟩ := h.trail
  refine ⟨h.marks, h.nodup, h.inside, ⟨⟨looked ++ [v], by simpa using hsplit, ?_⟩, htrail⟩,
    h.closed, h.covered⟩
  intro w hw
  rcases List.mem_append.1 hw with hw | hw
  · exact hlooked w hw
  · rwa [List.mem_singleton.1 hw]

end Step

theorem Invariant.step {g : Graph} (hg : g.WellFormed) {s s' : Search} (h : Invariant g s)
    (hs : Moves g s s') : Invariant g s' := by
  cases hs with
  | @enterRoot root roots marks finished hwhite =>
    refine h.push hwhite rfl trivial fun w hw => ?_
    rcases List.mem_cons.1 hw with rfl | hw
    · exact Or.inr rfl
    · exact Or.inl hw
  | @passRoot root roots marks finished hmark =>
    refine ⟨h.marks, h.nodup, h.inside, h.trail, h.closed, fun w hw => ?_⟩
    rcases h.covered w hw with hroot | hold
    · rcases List.mem_cons.1 hroot with rfl | hroot
      · -- a root that is not white was entered before
        have hold : ¬ (w < g.size ∧ w ∉ entered ⟨w :: roots, [], marks, finished⟩) :=
          fun hnew => hmark ((h.white_iff w).2 hnew)
        exact Or.inr (not_not.1 fun hnot => hold ⟨hw, hnot⟩)
      · exact Or.inl hroot
    · exact Or.inr hold
  | finish => exact h.pop
  | @enter roots u v ahead path marks finished hwhite =>
    obtain ⟨⟨looked, hsplit, hlooked⟩, htrail⟩ := h.trail
    exact h.push hwhite rfl ⟨⟨looked, by simpa using hsplit, hlooked⟩, htrail⟩ fun w hw => Or.inl hw
  | pass hblack => exact h.passed hg hblack

/-! ## Runs -/

theorem run_of_moves {g : Graph} {s s' : Search} (h : Moves g s s') : run g s = run g s' := by
  rw [run, step_of_moves h]

theorem run_of_ordered {g : Graph} {s : Search} {order : List Nat}
    (h : s.step g = .ordered order) : run g s = .inl order := by
  rw [run, h]

theorem run_of_cycle {g : Graph} {s : Search} {c : List Nat} (h : s.step g = .cycle c) :
    run g s = .inr c := by
  rw [run, h]

/-- What every step keeps holds where the run ends, with an order or with a cycle. -/
theorem run_ends {g : Graph} {P : Search → Prop} (hstep : ∀ s s', P s → Moves g s s' → P s')
    (s : Search) (h : P s) :
    ∃ e, P e ∧ ((∃ order, e.step g = .ordered order ∧ run g s = .inl order) ∨
      ∃ c, e.step g = .cycle c ∧ run g s = .inr c) := by
  fun_induction run g s with
  | case1 s s' hs ih => exact ih (hstep s s' h (moves_of_step hs))
  | case2 s order hs => exact ⟨s, h, Or.inl ⟨order, hs, rfl⟩⟩
  | case3 s c hs => exact ⟨s, h, Or.inr ⟨c, hs, rfl⟩⟩

theorem start_ends {g : Graph} (hg : g.WellFormed) :
    ∃ e, Invariant g e ∧ ((∃ order, e.step g = .ordered order ∧ run g (start g) = .inl order) ∨
      ∃ c, e.step g = .cycle c ∧ run g (start g) = .inr c) :=
  run_ends (fun _ _ h hs => h.step hg hs) (start g) (invariant_start g)

end ComponentWiring.Search
