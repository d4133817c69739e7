import ComponentWiring.Scan
import Mathlib.Data.List.Sort

/-! # The order of paths

Paths are ordered by their parts, so that all parts of a directory's path stand in front of those
below it. Found paths are sorted in this order, and of paths with the same parts one is left.

* `Path.Before`: the strict order of parts.
* `Scan.increasing_arranged`: arranged paths are strictly increasing.
* `Scan.mem_of_mem_arranged`, `Scan.parts_mem_arranged`: none is added, and none is lost.
* `Scan.parts_arranged_eq`: only which paths there are matters.
-/

namespace ComponentWiring
set_option autoImplicit false

namespace File

theorem Part.lt_iff {a b : Part} :
    a.lt b = true ↔ a.rank < b.rank ∨ ∃ s t, a = .name s ∧ b = .name t ∧ s < t := by
  cases a with
  | name s =>
    cases b with
    | name t =>
      have hlt : (Part.name s).lt (.name t) = true ↔ s < t := decide_eq_true_iff
      rw [hlt]
      constructor
      · exact fun h => .inr ⟨s, t, rfl, rfl, h⟩
      · rintro (hrank | ⟨_, _, ⟨⟩, ⟨⟩, h⟩)
        · exact absurd hrank (Nat.lt_irrefl _)
        · exact h
    | _ => simp [Part.lt, Part.rank]
  | _ => cases b <;> simp [Part.lt, Part.rank]

theorem Part.lt_irrefl (a : Part) : a.lt a ≠ true := by
  rw [ne_eq, Part.lt_iff]
  rintro (hrank | ⟨s, _, rfl, ⟨⟩, hlt⟩)
  · exact Nat.lt_irrefl _ hrank
  · exact String.lt_irrefl s hlt

theorem Part.lt_trans {a b c : Part} (hab : a.lt b = true) (hbc : b.lt c = true) :
    a.lt c = true := by
  rw [Part.lt_iff] at hab hbc ⊢
  rcases hab with hab | ⟨s, t, rfl, rfl, hst⟩
  · rcases hbc with hbc | ⟨t, u, rfl, rfl, -⟩
    · exact .inl (hab.trans hbc)
    · exact .inl hab
  · rcases hbc with hbc | ⟨_, u, ⟨⟩, rfl, htu⟩
    · exact .inl hbc
    · exact .inr ⟨s, u, rfl, rfl, String.lt_trans hst htu⟩

theorem Part.eq_or_names {a b : Part} (h : a.rank = b.rank) :
    a = b ∨ ∃ s t, a = .name s ∧ b = .name t := by
  cases a <;> cases b <;> simp_all [Part.rank]

theorem Part.lt_total (a b : Part) : a.lt b = true ∨ a = b ∨ b.lt a = true := by
  rw [Part.lt_iff, Part.lt_iff]
  rcases Nat.lt_trichotomy a.rank b.rank with hrank | hrank | hrank
  · exact .inl (.inl hrank)
  · rcases Part.eq_or_names hrank with rfl | ⟨s, t, rfl, rfl⟩
    · exact .inr (.inl rfl)
    · rcases Std.lt_trichotomy s t with hst | rfl | hts
      · exact .inl (.inr ⟨s, t, rfl, rfl, hst⟩)
      · exact .inr (.inl rfl)
      · exact .inr (.inr (.inr ⟨t, s, rfl, rfl, hts⟩))
  · exact .inr (.inr (.inl hrank))

namespace Path

theorem lePart_cons_iff {a b : Part} {as bs : List Part} :
    lePart (a :: as) (b :: bs) = true ↔ a.lt b = true ∨ a = b ∧ lePart as bs = true := by
  simp [lePart]

theorem lePart_total (p q : List Part) : lePart p q = true ∨ lePart q p = true := by
  fun_induction lePart p q with
  | case1 => exact .inl rfl
  | case2 => exact .inr rfl
  | case3 a p b q ih =>
    rcases a.lt_total b with hlt | rfl | hgt
    · exact .inl (by simp [hlt])
    · rcases ih with hpq | hqp
      · exact .inl (by simp [hpq])
      · exact .inr (lePart_cons_iff.2 (.inr ⟨rfl, hqp⟩))
    · exact .inr (lePart_cons_iff.2 (.inl hgt))

theorem lePart_antisymm {p q : List Part} (hpq : lePart p q = true) (hqp : lePart q p = true) :
    p = q := by
  induction p generalizing q with
  | nil =>
    cases q with
    | nil => rfl
    | cons b q => cases hqp
  | cons a p ih =>
    cases q with
    | nil => cases hpq
    | cons b q =>
      rw [lePart_cons_iff] at hpq hqp
      rcases hpq with hlt | ⟨rfl, hpq⟩
      · rcases hqp with hgt | ⟨rfl, -⟩
        · exact absurd (Part.lt_trans hlt hgt) (Part.lt_irrefl a)
        · exact absurd hlt (Part.lt_irrefl _)
      · rcases hqp with hgt | ⟨-, hqp⟩
        · exact absurd hgt (Part.lt_irrefl a)
        · rw [ih hpq hqp]

theorem lePart_trans {p q r : List Part} (hpq : lePart p q = true) (hqr : lePart q r = true) :
    lePart p r = true := by
  induction p generalizing q r with
  | nil => rfl
  | cons a p ih =>
    cases q with
    | nil => cases hpq
    | cons b q =>
      cases r with
      | nil => cases hqr
      | cons c r =>
        rw [lePart_cons_iff] at hpq hqr ⊢
        rcases hpq with hab | ⟨rfl, hpq⟩
        · rcases hqr with hbc | ⟨rfl, -⟩
          · exact .inl (Part.lt_trans hab hbc)
          · exact .inl hab
        · rcases hqr with hbc | ⟨rfl, hqr⟩
          · exact .inl hbc
          · exact .inr ⟨rfl, ih hpq hqr⟩

/-- A path stands in front of another one, part by part. -/
def Before (p q : List Part) : Prop := lePart p q = true ∧ p ≠ q

instance : Std.Irrefl Before := ⟨fun _ h => h.2 rfl⟩

instance : Std.Antisymm Before := ⟨fun _ _ hpq hqp => lePart_antisymm hpq.1 hqp.1⟩

theorem Before.trans_le {p q r : List Part} (hpq : Before p q) (hqr : lePart q r = true) :
    Before p r := by
  refine ⟨lePart_trans hpq.1 hqr, ?_⟩
  rintro rfl
  exact hpq.2 (lePart_antisymm hpq.1 hqr)

end Path

end File

namespace Scan
open File

/-! ## Arranged paths -/

theorem distinctAfter_sublist (before : String) (paths : List String) :
    (distinct.distinctAfter before paths).Sublist paths := by
  fun_induction distinct.distinctAfter before paths with
  | case1 => exact .slnil
  | case2 before path paths _ ih => exact ih.cons path
  | case3 before path paths _ ih => exact ih.cons_cons path

theorem distinct_sublist (paths : List String) : (distinct paths).Sublist paths := by
  cases paths with
  | nil => exact .slnil
  | cons path paths => exact (distinctAfter_sublist path paths).cons_cons path

/-- Of paths in order those are left that are strictly behind a given one. -/
theorem pairwise_distinctAfter {before : String} {paths : List String}
    (h : (before :: paths).Pairwise fun a b => Path.le a b = true) :
    ((before :: distinct.distinctAfter before paths).map Path.parts).Pairwise Path.Before := by
  fun_induction distinct.distinctAfter before paths with
  | case1 before => simp
  | case2 before path paths hsame ih =>
    exact ih (h.sublist ((List.sublist_cons_self path paths).cons_cons before))
  | case3 before path paths hother ih =>
    obtain ⟨hbefore, hpaths⟩ := List.pairwise_cons.1 h
    have hfirst : Path.Before (Path.parts before) (Path.parts path) :=
      ⟨hbefore path (by simp), by simpa [Path.same] using hother⟩
    rw [List.map_cons, List.pairwise_cons]
    refine ⟨?_, ih hpaths⟩
    intro parts hparts
    obtain ⟨later, hlater, rfl⟩ := List.mem_map.1 hparts
    rcases List.mem_cons.1 hlater with rfl | hlater
    · exact hfirst
    · have hmem := (distinctAfter_sublist path paths).subset hlater
      exact hfirst.trans_le ((List.pairwise_cons.1 hpaths).1 later hmem)

theorem pairwise_sorted (paths : List String) :
    (paths.mergeSort Path.le).Pairwise fun a b => Path.le a b = true := by
  have htrans : ∀ a b c, Path.le a b = true → Path.le b c = true → Path.le a c = true :=
    fun _ _ _ => Path.lePart_trans
  have htotal : ∀ a b, (Path.le a b || Path.le b a) = true := by
    intro a b
    rw [Bool.or_eq_true]
    exact Path.lePart_total _ _
  exact List.pairwise_mergeSort htrans htotal paths

theorem increasing_arranged (paths : List String) :
    ((arranged paths).map Path.parts).Pairwise Path.Before := by
  have hsorted := pairwise_sorted paths
  rw [arranged]
  cases hpaths : paths.mergeSort Path.le with
  | nil => simp [distinct]
  | cons path rest => exact pairwise_distinctAfter (hpaths ▸ hsorted)

theorem exists_mem_distinctAfter {before path : String} {paths : List String}
    (h : path ∈ before :: paths) :
    Path.parts path ∈ (before :: distinct.distinctAfter before paths).map Path.parts := by
  fun_induction distinct.distinctAfter before paths with
  | case1 before => exact List.mem_map_of_mem h
  | case2 before next paths hsame ih =>
    rcases List.mem_cons.1 h with rfl | h
    · simp
    · rcases List.mem_cons.1 h with rfl | h
      · have hparts : Path.parts before = Path.parts path := by simpa [Path.same] using hsame
        simp [hparts]
      · exact ih (List.mem_cons_of_mem _ h)
  | case3 before next paths hother ih =>
    rcases List.mem_cons.1 h with rfl | h
    · simp
    · rw [List.map_cons]
      exact List.mem_cons_of_mem _ (ih h)

theorem mem_of_mem_arranged {path : String} {paths : List String} (h : path ∈ arranged paths) :
    path ∈ paths :=
  List.mem_mergeSort.1 ((distinct_sublist _).subset h)

/-- No path is lost, but for its spelling. -/
theorem parts_mem_arranged {path : String} {paths : List String} (h : path ∈ paths) :
    Path.parts path ∈ (arranged paths).map Path.parts := by
  have hsorted : path ∈ paths.mergeSort Path.le := List.mem_mergeSort.2 h
  rw [arranged]
  cases hpaths : paths.mergeSort Path.le with
  | nil => simp [hpaths] at hsorted
  | cons first rest => exact exists_mem_distinctAfter (hpaths ▸ hsorted)

theorem parts_arranged_eq {paths paths' : List String}
    (h : ∀ path, path ∈ paths ↔ path ∈ paths') :
    (arranged paths).map Path.parts = (arranged paths').map Path.parts := by
  have hsub : ∀ {paths paths' : List String}, (∀ path ∈ paths, path ∈ paths') → ∀ parts,
      parts ∈ (arranged paths).map Path.parts → parts ∈ (arranged paths').map Path.parts := by
    intro paths paths' h parts hparts
    obtain ⟨path, hpath, rfl⟩ := List.mem_map.1 hparts
    exact parts_mem_arranged (h path (mem_of_mem_arranged hpath))
  exact (increasing_arranged paths).eq_of_mem_iff (increasing_arranged paths') fun parts =>
    ⟨hsub (fun path => (h path).1) parts, hsub (fun path => (h path).2) parts⟩

end Scan

end ComponentWiring
