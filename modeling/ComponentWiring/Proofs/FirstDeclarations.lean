import ComponentWiring.Proofs.GraphHistory
import ComponentWiring.Proofs.LaterPasses
import ComponentWiring.Proofs.Verdicts

/-! # What the first declarations tell

A builder that was given declarations and nothing else has the history of the first declaration of
each component, whatever came in between: later declarations leave no trace, and a placeholder that
is declared stays where it is.

* `Declaration.history`: what declarations change in a graph.
* `Builder.addAll_eq`: the graph and the seen identities of a builder, by the first declarations.
* `Declaration.mentioned_flatMap`, `Declaration.targets_flatMap`: the components and dependencies of
  that history.
* `Builder.HoldsFirsts`: everything that a builder says, told from the first declarations.
* `Builder.takes_only_firsts`: a builder takes the first declarations and holds what they tell.
-/

namespace ComponentWiring
set_option autoImplicit false

namespace Declaration
open ComponentWiring.Graph

/-- What declarations change in a graph: only the first of each component changes anything. -/
def history (ds : List Declaration) : List Change := (firsts ds).flatMap changes

theorem firsts_concat (ds : List Declaration) (d : Declaration) :
    firsts (ds ++ [d]) =
      if d.identity ∈ ds.map (·.identity) then firsts ds else firsts ds ++ [d] := by
  have hone : firsts [d] = [d] := rfl
  rw [firsts_append, hone]
  split
  · next hd => rw [List.filter_cons_of_neg (by simpa using hd), List.filter_nil, List.append_nil]
  · next hd => rw [List.filter_cons_of_pos (by simpa using hd), List.filter_nil]

theorem firsts_of_nodup {ds : List Declaration} (h : (ds.map (·.identity)).Nodup) :
    firsts ds = ds := by
  induction ds using List.reverseRecOn with
  | nil => rfl
  | append_singleton ds d ih =>
    rw [List.map_append, List.nodup_append] at h
    obtain ⟨hds, -, hne⟩ := h
    have hd : d.identity ∉ ds.map (·.identity) :=
      fun hmem => hne _ hmem d.identity List.mem_cons_self rfl
    rw [firsts_concat, if_neg hd, ih hds]

theorem map_identity_firsts (ds : List Declaration) :
    (firsts ds).map (·.identity) = (ds.map (·.identity)).eraseDups := by
  induction ds using List.reverseRecOn with
  | nil => rfl
  | append_singleton ds d ih =>
    rw [firsts_concat, List.map_append, List.map_singleton]
    by_cases hd : d.identity ∈ ds.map (·.identity)
    · rw [if_pos hd, eraseDups_concat_of_mem hd, ih]
    · rw [if_neg hd, eraseDups_concat_of_notMem hd, List.map_append, ih, List.map_singleton]

/-! ## The components of the history -/

theorem eraseDups_concat_congr {xs ys : List Identity} (h : xs.eraseDups = ys.eraseDups)
    (x : Identity) : (xs ++ [x]).eraseDups = (ys ++ [x]).eraseDups := by
  have hmem : x ∈ xs ↔ x ∈ ys := by rw [← List.mem_eraseDups, h, List.mem_eraseDups]
  by_cases hx : x ∈ xs
  · rw [eraseDups_concat_of_mem hx, eraseDups_concat_of_mem (hmem.1 hx), h]
  · rw [eraseDups_concat_of_notMem hx, eraseDups_concat_of_notMem (hx ∘ hmem.2), h]

section Mentioned
variable {h : List Change} {xs : List Identity} (a : Identity) (bs : List Identity)

/-- An edge mentions its start again, so only its end can be new. -/
theorem mentioned_addEdges (hxs : mentioned h = xs.eraseDups) (ha : a ∈ xs) :
    mentioned (h ++ bs.map (Change.addEdge a)) = (xs ++ bs).eraseDups := by
  induction bs generalizing h xs with
  | nil => simpa using hxs
  | cons b bs ih =>
    have hends : (h ++ [Change.addEdge a b]).flatMap Change.mentions =
        (h.flatMap Change.mentions ++ [a]) ++ [b] := by
      simp [Change.mentions]
    have hedge : mentioned (h ++ [.addEdge a b]) = (xs ++ [b]).eraseDups := by
      rw [mentioned, hends, eraseDups_concat_congr (eraseDups_concat_congr hxs a) b]
      exact eraseDups_concat_congr (eraseDups_concat_of_mem ha) b
    have hrest := ih hedge (List.mem_append_left [b] ha)
    rwa [← List.append_cons, ← List.append_cons] at hrest

theorem mentioned_changes (hxs : mentioned h = xs.eraseDups) (d : Declaration) :
    mentioned (h ++ d.changes) = (xs ++ d.identity :: d.dependencies).eraseDups := by
  have hdeclare : mentioned (h ++ [.declare d.identity]) = (xs ++ [d.identity]).eraseDups := by
    rw [mentioned, List.flatMap_append]
    exact eraseDups_concat_congr hxs d.identity
  have hall := mentioned_addEdges d.identity d.dependencies hdeclare
    (List.mem_append_right xs List.mem_cons_self)
  rwa [← List.append_cons, ← List.append_cons] at hall

end Mentioned

/-- The components stand in the order in which the first declarations mention them. -/
theorem mentioned_flatMap (ds : List Declaration) :
    mentioned (ds.flatMap changes) =
      (ds.flatMap fun d => d.identity :: d.dependencies).eraseDups := by
  induction ds using List.reverseRecOn with
  | nil => rfl
  | append_singleton ds d ih =>
    rw [List.flatMap_append, List.flatMap_append, List.flatMap_singleton, List.flatMap_singleton]
    exact mentioned_changes ih d

/-! ## The dependencies of the history -/

theorem declare_mem_history_iff (ds : List Declaration) (a : Identity) :
    .declare a ∈ history ds ↔ a ∈ ds.map (·.identity) := by
  rw [← mem_identities_firsts, history, List.mem_flatMap, List.mem_map]
  simp [changes, eq_comm]

theorem addEdge_mem_changes_iff (d : Declaration) (a b : Identity) :
    .addEdge a b ∈ d.changes ↔ d.identity = a ∧ b ∈ d.dependencies := by
  simp [changes, and_comm]

theorem addEdge_mem_history_iff (ds : List Declaration) (a b : Identity) :
    .addEdge a b ∈ history ds ↔ ∃ d ∈ firsts ds, d.identity = a ∧ b ∈ d.dependencies := by
  rw [history, List.mem_flatMap]
  simp only [addEdge_mem_changes_iff]

theorem targets_eq_nil {h : List Change} {a : Identity} (hnone : ∀ b, .addEdge a b ∉ h) :
    targets h a = [] := by
  rw [List.eq_nil_iff_forall_not_mem]
  exact fun b hb => hnone b ((mem_targets h a b).1 hb)

theorem targets_addEdges {h : List Change} {a : Identity} (hnew : ∀ b, .addEdge a b ∉ h)
    (bs : List Identity) (x : Identity) :
    targets (h ++ bs.map (Change.addEdge a)) x =
      if x = a then bs.eraseDups else targets h x := by
  induction bs using List.reverseRecOn with
  | nil =>
    by_cases hx : x = a
    · simp [hx, targets_eq_nil hnew]
    · simp [hx]
  | append_singleton bs b ih =>
    have hedge : .addEdge a b ∈ h ++ bs.map (Change.addEdge a) ↔ b ∈ bs := by
      simp [hnew b]
    rw [List.map_append, List.map_singleton, ← List.append_assoc]
    by_cases hb : b ∈ bs
    · rw [targets, added_concat_of_mem _ (hedge.2 hb), ← targets, ih, eraseDups_concat_of_mem hb]
    · rw [targets_concat_of_new _ (hb ∘ hedge.1), ih, eraseDups_concat_of_notMem hb]
      split <;> rfl

theorem targets_changes {h : List Change} {d : Declaration}
    (hnew : ∀ b, .addEdge d.identity b ∉ h) (x : Identity) :
    targets (h ++ d.changes) x =
      if x = d.identity then d.dependencies.eraseDups else targets h x := by
  have hnew' : ∀ b, .addEdge d.identity b ∉ h ++ [.declare d.identity] := by
    intro b
    simp [hnew b]
  have hall := targets_addEdges hnew' d.dependencies x
  rw [← List.append_cons] at hall
  rw [changes, hall, targets, added_concat_of_none h rfl, ← targets]

/-- Each component has the dependencies of its declaration, those that are repeated once. -/
theorem targets_flatMap {ds : List Declaration} (h : (ds.map (·.identity)).Nodup)
    {d : Declaration} (hd : d ∈ ds) :
    targets (ds.flatMap changes) d.identity = d.dependencies.eraseDups := by
  induction ds using List.reverseRecOn with
  | nil => cases hd
  | append_singleton ds e ih =>
    rw [List.map_append, List.nodup_append] at h
    obtain ⟨hds, -, hne⟩ := h
    have hold : ∀ x ∈ ds, x.identity ≠ e.identity :=
      fun x hx => hne _ (List.mem_map_of_mem hx) _ List.mem_cons_self
    have hnew : ∀ b, .addEdge e.identity b ∉ ds.flatMap changes := by
      intro b hb
      obtain ⟨x, hx, hxb⟩ := List.mem_flatMap.1 hb
      exact hold x hx ((addEdge_mem_changes_iff x e.identity b).1 hxb).1
    rw [List.flatMap_append, List.flatMap_singleton, targets_changes hnew]
    rcases List.mem_append.1 hd with hd | hd
    · rw [if_neg (hold d hd), ih hds hd]
    · rw [List.mem_singleton.1 hd, if_pos rfl]

theorem history_concat (ds : List Declaration) (d : Declaration) :
    history (ds ++ [d]) =
      if d.identity ∈ ds.map (·.identity) then history ds else history ds ++ d.changes := by
  rw [history, firsts_concat]
  split
  · rfl
  · rw [List.flatMap_append, List.flatMap_singleton, ← history]

end Declaration

namespace Builder
open Declaration ComponentWiring.Graph

/-! ## Builders by their history -/

theorem addAll_eq (ds : List Declaration) :
    empty.addAll ds = ⟨after (history ds), ⟨((firsts ds).map (·.identity)).reverse⟩⟩ := by
  induction ds using List.reverseRecOn with
  | nil => rfl
  | append_singleton ds d ih =>
    have hhas : (⟨((firsts ds).map (·.identity)).reverse⟩ : Seen).has d.identity =
        decide (d.identity ∈ ds.map (·.identity)) := by
      simp only [Seen.has, List.mem_reverse, mem_identities_firsts]
    rw [addAll_concat, ih, add, takes, hhas, history_concat, firsts_concat]
    by_cases hd : d.identity ∈ ds.map (·.identity)
    · simp [hd]
    · rw [if_pos (by simp [hd]), if_neg hd, if_neg hd, insertInto_eq_foldl, after_append,
        Seen.insert, hhas]
      simp [hd]

theorem has_addAll_iff (ds : List Declaration) (a : Identity) :
    (empty.addAll ds).seen.has a = true ↔ a ∈ ds.map (·.identity) := by
  rw [addAll_eq, Seen.has, decide_eq_true_eq, List.mem_reverse, mem_identities_firsts]

theorem graphOf_eq_after (ds : List Declaration) : graphOf ds = after (history ds) := by
  rw [graphOf, addAll_eq]

theorem observes_graphOf (ds : List Declaration) : (graphOf ds).Observes (history ds) := by
  have hall : ∀ c ∈ history ds, decide (c ≠ Change.clear) = true := by
    intro c hc
    obtain ⟨d, -, hd⟩ := List.mem_flatMap.1 hc
    rcases List.mem_cons.1 hd with rfl | hd
    · rfl
    · obtain ⟨b, -, rfl⟩ := List.mem_map.1 hd
      rfl
  have hsince : sinceClear (history ds) = history ds := List.rtakeWhile_eq_self_iff.2 hall
  have htracks := tracks_after (history ds)
  rw [graphOf_eq_after]
  rw [hsince] at htracks
  exact htracks.observes (wellFormed_after _)

/-! ## What the first declarations tell -/

/-- Everything that a builder says, told from the first declaration of each component. -/
structure HoldsFirsts (b : Builder) (ds : List Declaration) : Prop where
  has_iff : ∀ a, b.seen.has a = true ↔ a ∈ ds.map (·.identity)
  size_seen : b.seen.size = (ds.map (·.identity)).eraseDups.length
  isDeclared_iff : ∀ a, b.graph.isDeclared a = true ↔ a ∈ ds.map (·.identity)
  identities : b.graph.identities =
    ((firsts ds).flatMap fun d => d.identity :: d.dependencies).eraseDups
  dependenciesOf? : ∀ d ∈ firsts ds,
    b.graph.dependenciesOf? d.identity = some d.dependencies.eraseDups
  mem_placeholders_iff : ∀ a, a ∈ b.graph.placeholders ↔
    (∃ d ∈ firsts ds, a ∈ d.dependencies) ∧ a ∉ ds.map (·.identity)
  neighbors_placeholder : ∀ a ∈ b.graph.placeholders,
    ∃ i, b.graph.vertexId? a = some i ∧ b.graph.neighbors i = []

section Firsts
variable (ds : List Declaration)

theorem mem_identities_graphOf (a : Identity) :
    a ∈ (graphOf ds).identities ↔ ∃ d ∈ firsts ds, d.Mentions a := by
  rw [(observes_graphOf ds).identities, history, mentioned_flatMap, List.mem_eraseDups,
    List.mem_flatMap]
  simp only [List.mem_cons]
  rfl

theorem isDeclared_graphOf (a : Identity) :
    (graphOf ds).isDeclared a = true ↔ a ∈ ds.map (·.identity) := by
  rw [(observes_graphOf ds).isDeclared, declare_mem_history_iff]

theorem dependenciesOf?_graphOf {d : Declaration} (hd : d ∈ firsts ds) :
    (graphOf ds).dependenciesOf? d.identity = some d.dependencies.eraseDups := by
  have hmem : d.identity ∈ (graphOf ds).identities :=
    (mem_identities_graphOf ds _).2 ⟨d, hd, Or.inl rfl⟩
  rw [(observes_graphOf ds).identities] at hmem
  rw [(observes_graphOf ds).dependenciesOf?, if_pos hmem, history,
    targets_flatMap (nodup_firsts ds) hd]

theorem mem_placeholders_graphOf (a : Identity) :
    a ∈ (graphOf ds).placeholders ↔
      (∃ d ∈ firsts ds, a ∈ d.dependencies) ∧ a ∉ ds.map (·.identity) := by
  rw [(observes_graphOf ds).placeholders, ← (observes_graphOf ds).identities, List.mem_filter,
    decide_eq_true_eq, declare_mem_history_iff, mem_identities_graphOf]
  refine and_congr_left fun hnew => exists_congr fun d => and_congr_right fun hd => ?_
  have hne : a ≠ d.identity := by
    rintro rfl
    exact hnew (List.mem_map_of_mem (mem_of_mem_firsts hd))
  exact or_iff_right hne

/-- Only a declaration gives its component edges. -/
theorem neighbors_graphOf_of_notMem {a : Identity} (ha : a ∉ ds.map (·.identity)) {i : Nat}
    (hi : (graphOf ds).vertexId? a = some i) : (graphOf ds).neighbors i = [] := by
  have hobs := observes_graphOf ds
  rw [hobs.inverse, hobs.identity?] at hi
  have hnone : ∀ b, .addEdge a b ∉ history ds := by
    intro b hb
    obtain ⟨d, hd, rfl, -⟩ := (addEdge_mem_history_iff ds a b).1 hb
    exact ha (List.mem_map_of_mem (mem_of_mem_firsts hd))
  rw [hobs.neighbors i a hi, targets_eq_nil hnone, List.map_nil]

/-- A builder takes the first declaration of each component and no other, and what it holds after
any declarations is what the first ones tell. -/
theorem takes_only_firsts :
    (∀ before d after, ds = before ++ d :: after →
        ((empty.addAll before).takes d = true ↔ d.identity ∉ before.map (·.identity))) ∧
      (empty.addAll ds).HoldsFirsts ds := by
  constructor
  · intro before d after _
    rw [takes, Bool.not_eq_true', ← Bool.not_eq_true, has_addAll_iff]
  constructor
  case has_iff => exact has_addAll_iff ds
  case size_seen =>
    rw [addAll_eq, Seen.size, List.length_reverse, map_identity_firsts]
  case isDeclared_iff => exact isDeclared_graphOf ds
  case identities =>
    exact (observes_graphOf ds).identities.trans (mentioned_flatMap (firsts ds))
  case dependenciesOf? => exact fun d hd => dependenciesOf?_graphOf ds hd
  case mem_placeholders_iff => exact mem_placeholders_graphOf ds
  case neighbors_placeholder =>
    intro a ha
    obtain ⟨⟨d, hd, hdep⟩, hnew⟩ := (mem_placeholders_graphOf ds a).1 ha
    have hmem := (mem_identities_graphOf ds a).2 ⟨d, hd, Or.inr hdep⟩
    obtain ⟨i, hi⟩ := exists_vertexId? (observes_graphOf ds).inverse hmem
    exact ⟨i, hi, neighbors_graphOf_of_notMem ds hnew hi⟩

end Firsts

end Builder
end ComponentWiring
