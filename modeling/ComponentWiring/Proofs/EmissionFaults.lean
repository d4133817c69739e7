import ComponentWiring.Proofs.Emissions
import ComponentWiring.Proofs.FailedEmissions
import ComponentWiring.Proofs.OrderOrCycle
import ComponentWiring.Proofs.RegistrationPlaces

/-! # Emissions over a disk with faults

Whatever fails on the way, a registration that stands is never changed or written again, and an
emission that fails leaves the manifest.

* `Emission.Leaves`, `Emission.Emitted.leaves`: what an emission leaves.
* `Watched`, `Disk.watched`: a disk on which any change may fail, with the changes made so far.
* `Emission.Untouched`: a disk on which no registration was changed or written again.
* `Emission.emissions_with_faults`: what emissions over such a disk leave.
-/

namespace ComponentWiring
set_option autoImplicit false

open File

namespace Emission
open Artifact

/-! ## What an emission leaves -/

/-- A place at which an emission created the registration of a component. -/
def NewRegistration (emit : Settings.Emit) (tree tree' : Tree) (place : Place) : Prop :=
  (∃ a, tree.aimOf (registrationPath emit a) = some place) ∧ tree.node? place = none ∧
    ∃ bytes, tree'.node? place = some (.file bytes)

/-- What an emission with a result leaves of a tree, where no registration has the place of the
manifest. -/
structure Leaves (emit : Settings.Emit) (order : List Identity) (tree : Tree)
    (result : Except Error EmitSummary) (tree' : Tree) : Prop where
  registered : ∀ summary, result = .ok summary →
    ∀ a ∈ order, tree'.exists? (registrationPath emit a) = true
  counted : ∀ summary, result = .ok summary → summary.written + summary.skipped = order.length
  created : ∀ summary, result = .ok summary →
    ∃ created : List Place, created.Nodup ∧ created.length = summary.written ∧
      ∀ place, place ∈ created ↔ NewRegistration emit tree tree' place
  manifest : ∀ summary, result = .ok summary → tree'.readText emit.manifestPath =
    .ok ("# Generated by influx. Do not edit.\n" ++ String.join (order.map fun a => a.name ++ "\n"))
  failed : ∀ e, result = .error e → ∀ place, tree.aimOf emit.manifestPath = some place →
    ∀ bytes, tree'.node? place = some (.file bytes) ↔ tree.node? place = some (.file bytes)
  changed : ∀ place, tree'.node? place ≠ tree.node? place →
    tree.aimOf emit.manifestPath = some place ∨
    tree.node? place = none ∧ (∃ a ∈ order, tree.aimOf (registrationPath emit a) = some place ∧
      tree'.node? place = some (.file (bytesOf a))) ∨
    tree.node? place = none ∧ tree'.node? place = some .directory ∧
      ∃ path ∈ emit.registrationPath :: Path.holders emit.registrationPath,
        tree.aimOf path = some place

section Leaves
variable {emit : Settings.Emit} {order : List Identity} {tree made registered tree' : Tree}
  {created : List Place} {result : Except Error EmitSummary}

/-- The places of the created registrations are those where none was and a file is. -/
theorem Registered.mem_created_iff (h : Registered emit order made registered created)
    (hmade : Made emit tree made) (place : Place) :
    place ∈ created ↔ NewRegistration emit tree registered place := by
  constructor
  · intro hmem
    obtain ⟨hnone, a, -, haim, hnode⟩ := h.new place hmem
    rw [hmade.grows.aimOf_eq] at haim
    exact ⟨⟨a, haim⟩, hmade.grows.node?_eq_none hnone, _, hnode⟩
  · rintro ⟨-, hnone, bytes, hnode⟩
    by_contra hmem
    rw [h.same place hmem] at hnode
    have hne : made.node? place ≠ tree.node? place := by simp [hnode, hnone]
    simp [(hmade.changed place hne).2.1] at hnode

theorem Registered.file_iff (h : Registered emit order made registered created)
    (hmade : Made emit tree made) {place : Place}
    (hapart : ∀ a, tree.aimOf (registrationPath emit a) ≠ some place) (bytes : List UInt8) :
    registered.node? place = some (.file bytes) ↔ tree.node? place = some (.file bytes) := by
  by_cases hne : registered.node? place = tree.node? place
  · rw [hne]
  · rcases h.changed hmade hne with ⟨-, a, -, haim, -⟩ | ⟨hnone, hnode, -⟩
    · exact absurd haim (hapart a)
    · simp [hnone, hnode]

/-- What an emission does to a tree tells what it leaves. -/
theorem Emitted.leaves (h : Emitted emit order tree result tree')
    (hapart : ∀ a, tree.aimOf emit.manifestPath ≠ tree.aimOf (registrationPath emit a)) :
    Leaves emit order tree result tree' := by
  cases h with
  | failed e hmade hregistered =>
    constructor
    case registered => exact fun _ h => by cases h
    case counted => exact fun _ h => by cases h
    case created => exact fun _ h => by cases h
    case manifest => exact fun _ h => by cases h
    case failed =>
      intro e' _ place hplace bytes
      exact hregistered.file_iff hmade (fun a ha => hapart a (hplace.trans ha.symm)) bytes
    case changed => exact fun place hne => Or.inr (hregistered.changed hmade hne)
  | @done summary made registered _ created place hmade hregistered hwritten htotal hexists
      hwrote =>
    have hgrows := hmade.grows.trans hregistered.grows
    have hmanifest : tree.aimOf emit.manifestPath = some place := hgrows.aimOf_eq _ ▸ hwrote.aim
    constructor
    case registered =>
      rintro _ ⟨⟩ a ha
      exact hwrote.grows.exists? (hexists a ha)
    case counted =>
      rintro _ ⟨⟩
      exact htotal
    case created =>
      rintro _ ⟨⟩
      refine ⟨created, hregistered.nodup, hwritten.symm, fun p => ?_⟩
      -- the manifest is not among the registrations, so writing it creates none
      have hne : (∃ a, tree.aimOf (registrationPath emit a) = some p) → p ≠ place := by
        rintro ⟨a, ha⟩ rfl
        exact hapart a (hmanifest.trans ha.symm)
      rw [hregistered.mem_created_iff hmade]
      refine and_congr_right fun haim => ?_
      rw [hwrote.node?_eq, if_neg (hne haim)]
    case manifest =>
      rintro _ ⟨⟩
      rw [← manifest_eq]
      exact Tree.readText_of_find hwrote.find
    case failed => exact fun _ h => by cases h
    case changed =>
      intro p hne
      rw [hwrote.node?_eq] at hne ⊢
      by_cases hp : p = place
      · exact Or.inl (hp ▸ hmanifest)
      · rw [if_neg hp] at hne ⊢
        exact Or.inr (hregistered.changed hmade hne)

end Leaves

end Emission

/-! ## Disks with faults -/

namespace File

/-- A change that is tried on a disk. -/
inductive Change where
  | makeDirectory (path : String)
  | write (path text : String)

/-- What a change makes of a tree. -/
def Change.on (tree : Tree) : Change → Except Fault Tree
  | makeDirectory path => tree.makeDirectory path
  | write path text => tree.write path text.toUTF8.data.toList

/-- A tree, the number of changes that were tried on it, and those that were made, each with the
tree in front of it. -/
structure Watched where
  tree : Tree
  tried : Nat
  done : List (Change × Tree)

namespace Watched

def start (tree : Tree) : Watched := ⟨tree, 0, []⟩

/-- Tries a change, which fails where a fault is given for its number. -/
def attempt (faults : Nat → Option Fault) (change : Change) (s : Watched) :
    Except Fault Unit × Watched :=
  match faults s.tried, change.on s.tree with
  | some fault, _ => (.error fault, { s with tried := s.tried + 1 })
  | none, .error fault => (.error fault, { s with tried := s.tried + 1 })
  | none, .ok tree => (.ok (), ⟨tree, s.tried + 1, s.done ++ [(change, s.tree)]⟩)

/-- The trees that there were, up to now. -/
def moments (s : Watched) : List Tree := s.done.map (·.2) ++ [s.tree]

end Watched

/-- A disk that fails where a fault is given. -/
def Disk.watched (faults : Nat → Option Fault) : Disk Watched where
  exists? path s := s.tree.exists? path
  isDirectory path s := s.tree.isDirectory path
  makeDirectory path := Watched.attempt faults (.makeDirectory path)
  write path text := Watched.attempt faults (.write path text)

theorem Disk.write_watched (faults : Nat → Option Fault) (path text : String) (s : Watched) :
    (Disk.watched faults).write path text s = s.attempt faults (.write path text) := rfl

theorem Watched.attempt_of_fault {faults : Nat → Option Fault} {s : Watched} {fault : Fault}
    (hfault : faults s.tried = some fault) (change : Change) :
    attempt faults change s = (.error fault, { s with tried := s.tried + 1 }) := by
  rw [attempt, hfault]

theorem Watched.attempt_of_error {faults : Nat → Option Fault} {change : Change} {s : Watched}
    {fault : Fault} (hnone : faults s.tried = none) (herror : change.on s.tree = .error fault) :
    attempt faults change s = (.error fault, { s with tried := s.tried + 1 }) := by
  rw [attempt, hnone, herror]

theorem Watched.attempt_of_ok {faults : Nat → Option Fault} {change : Change} {s : Watched}
    {tree : Tree} (hnone : faults s.tried = none) (hok : change.on s.tree = .ok tree) :
    attempt faults change s = (.ok (), ⟨tree, s.tried + 1, s.done ++ [(change, s.tree)]⟩) := by
  rw [attempt, hnone, hok]

theorem Watched.attempt_cases (faults : Nat → Option Fault) (change : Change) (s : Watched) :
    (attempt faults change s).1 = .ok () ∧
        change.on s.tree = .ok (attempt faults change s).2.tree ∧
        (attempt faults change s).2.done = s.done ++ [(change, s.tree)] ∨
      (∃ fault, (attempt faults change s).1 = .error fault) ∧
        (attempt faults change s).2.tree = s.tree ∧ (attempt faults change s).2.done = s.done := by
  unfold attempt
  cases faults s.tried with
  | some fault => exact Or.inr ⟨⟨fault, rfl⟩, rfl, rfl⟩
  | none =>
    cases change.on s.tree with
    | error fault => exact Or.inr ⟨⟨fault, rfl⟩, rfl, rfl⟩
    | ok tree => exact Or.inl ⟨rfl, rfl, rfl⟩

theorem Disk.shows_watched (faults : Nat → Option Fault) :
    (Disk.watched faults).Shows Watched.tree := by
  have hcases : ∀ change s,
      (Watched.attempt faults change s).1 = .ok () ∧
        change.on s.tree = .ok (Watched.attempt faults change s).2.tree ∨
      (∃ fault, (Watched.attempt faults change s).1 = .error fault) ∧
        (Watched.attempt faults change s).2.tree = s.tree :=
    fun change s => (Watched.attempt_cases faults change s).imp
      (fun h => ⟨h.1, h.2.1⟩) fun h => ⟨h.1, h.2.1⟩
  exact ⟨fun _ _ => rfl, fun path => hcases (.makeDirectory path),
    fun path text => hcases (.write path text)⟩

end File

namespace Emission
open Artifact

/-- Whatever is found at registration paths in a tree is found there unchanged in another one. -/
def KeepsRegistrations (emit : Settings.Emit) (tree tree' : Tree) : Prop :=
  ∀ a, tree.exists? (registrationPath emit a) = true →
    tree'.find (registrationPath emit a) = tree.find (registrationPath emit a)

/-- A disk on which no registration was ever changed or written again. -/
structure Untouched (emit : Settings.Emit) (tree : Tree) (s : Watched) : Prop where
  grows : tree.Grows s.tree
  moments : s.moments.Pairwise (KeepsRegistrations emit)
  writes : ∀ path text before, (.write path text, before) ∈ s.done →
    ∀ a, tree.aimOf path = tree.aimOf (registrationPath emit a) →
      before.exists? (registrationPath emit a) = false

section Untouched
variable {emit : Settings.Emit} {tree tree' tree'' : Tree} {s s' : Watched} {change : Change}

theorem KeepsRegistrations.trans (h : KeepsRegistrations emit tree tree')
    (h' : KeepsRegistrations emit tree' tree'') : KeepsRegistrations emit tree tree'' := by
  intro a hexists
  have hfind := h a hexists
  rw [← hfind]
  apply h' a
  unfold Tree.exists? at hexists ⊢
  rw [hfind, hexists]

theorem keepsRegistrations_of_grows (hgrows : tree.Grows tree')
    (h : ∀ a place node, tree.aimOf (registrationPath emit a) = some place →
      tree.node? place = some node → tree'.node? place = some node) :
    KeepsRegistrations emit tree tree' := by
  intro a hexists
  obtain ⟨place, node, hfind⟩ := Tree.exists?_iff.1 hexists
  have hnode := h a place node (Tree.aimOf_of_find hfind) (Tree.node?_of_find hfind)
  rw [hgrows.find_eq hfind hnode, hfind]

theorem Untouched.start (emit : Settings.Emit) (tree : Tree) :
    Untouched emit tree (.start tree) where
  grows := .refl tree
  moments := List.pairwise_singleton _ _
  writes := by simp [Watched.start]

theorem Untouched.keep (h : Untouched emit tree s) (htree : s'.tree = s.tree)
    (hdone : s'.done = s.done) : Untouched emit tree s' where
  grows := htree ▸ h.grows
  moments := by
    rw [Watched.moments, htree, hdone]
    exact h.moments
  writes := hdone ▸ h.writes

theorem Untouched.step (h : Untouched emit tree s) (hgrows : s.tree.Grows s'.tree)
    (hdone : s'.done = s.done ++ [(change, s.tree)])
    (hkeeps : KeepsRegistrations emit s.tree s'.tree)
    (hwrites : ∀ path text, change = .write path text →
      ∀ a, tree.aimOf path = tree.aimOf (registrationPath emit a) →
        s.tree.exists? (registrationPath emit a) = false) : Untouched emit tree s' where
  grows := h.grows.trans hgrows
  moments := by
    have hall : s'.moments = s.moments ++ [s'.tree] := by
      rw [Watched.moments, hdone, List.map_append]
      rfl
    have hlast := h.moments
    rw [Watched.moments, List.pairwise_append] at hlast
    rw [hall, List.pairwise_append]
    refine ⟨h.moments, List.pairwise_singleton _ _, ?_⟩
    intro earlier hearlier later hlater
    rw [List.mem_singleton.1 hlater]
    rcases List.mem_append.1 hearlier with hmem | hmem
    · exact (hlast.2.2 earlier hmem s.tree (List.mem_singleton_self _)).trans hkeeps
    · rw [List.mem_singleton.1 hmem]
      exact hkeeps
  writes := by
    intro path text before hmem
    rw [hdone, List.mem_append, List.mem_singleton] at hmem
    rcases hmem with hmem | hmem
    · exact h.writes path text before hmem
    · obtain ⟨hchange, rfl⟩ := Prod.mk.inj hmem
      exact hwrites path text hchange.symm

end Untouched

section Faults
variable (faults : Nat → Option Fault) {emit : Settings.Emit} {tree : Tree} {s : Watched}

theorem untouched_makeDirectory (h : Untouched emit tree s) (path : String) :
    Untouched emit tree (Watched.attempt faults (.makeDirectory path) s).2 := by
  rcases Watched.attempt_cases faults (.makeDirectory path) s with ⟨-, hok, hdone⟩ | ⟨-, hsame⟩
  · obtain ⟨place, -, hnone, heq⟩ := Tree.exists_put_of_makeDirectory hok
    have hgrows := Tree.grows_put_directory hnone
    refine h.step (heq ▸ hgrows) hdone ?_ (fun _ _ h => by cases h)
    rw [heq]
    refine keepsRegistrations_of_grows hgrows fun a p node _ hnode => ?_
    rw [Tree.node?_put _ (Tree.ne_root_of_none hnone), if_neg, hnode]
    rintro rfl
    simp [hnone] at hnode
  · exact h.keep hsame.1 hsame.2

/-- A write to a place where no registration stands. -/
theorem untouched_write (h : Untouched emit tree s) (hproper : s.tree.Proper) (path text : String)
    (hfree : ∀ place, s.tree.Wrote path text.toUTF8.data.toList place
        (Watched.attempt faults (.write path text) s).2.tree →
      ∀ a, tree.aimOf (registrationPath emit a) = some place → s.tree.node? place = none) :
    Untouched emit tree (Watched.attempt faults (.write path text) s).2 := by
  rcases Watched.attempt_cases faults (.write path text) s with ⟨-, hok, hdone⟩ | ⟨-, hsame⟩
  · obtain ⟨place, hwrote⟩ := Tree.wrote_of_write hproper hok
    have hnone := hfree place hwrote
    have hplace : tree.aimOf path = some place := h.grows.aimOf_eq path ▸ hwrote.aim
    refine h.step hwrote.grows hdone ?_ ?_
    · refine keepsRegistrations_of_grows hwrote.grows fun a p node haim hnode => ?_
      rw [hwrote.node?_eq, if_neg, hnode]
      rintro rfl
      rw [h.grows.aimOf_eq] at haim
      simp [hnone a haim] at hnode
    · rintro _ _ ⟨⟩ a haim
      rw [hplace] at haim
      rw [← Bool.not_eq_true, Tree.exists?_iff]
      rintro ⟨p, node, hfind⟩
      have hp : tree.aimOf (registrationPath emit a) = some p :=
        h.grows.aimOf_eq _ ▸ Tree.aimOf_of_find hfind
      rw [← haim] at hp
      cases hp
      simpa [hnone a haim.symm] using Tree.node?_of_find hfind
  · exact h.keep hsame.1 hsame.2

theorem untouched_toDisk (order : List Identity) (w : Workspace Watched) (hproper : tree.Proper)
    (hapart : ∀ a, tree.aimOf emit.manifestPath ≠ tree.aimOf (registrationPath emit a))
    (h : Untouched emit tree w.disk) :
    Untouched emit tree (toDisk (.watched faults) emit order w).2.disk := by
  refine toDisk_keeps (I := Untouched emit tree)
    (fun path _ s hs => untouched_makeDirectory faults hs path) ?_ ?_ w h
  · intro a _ s hexists hs
    rw [(Disk.shows_watched faults).exists?_eq] at hexists
    apply untouched_write faults hs (hs.grows.proper hproper) (registrationPath emit a)
      (registration a)
    intro place hwrote b _
    exact hwrote.free hexists
  · intro s hs
    apply untouched_write faults hs (hs.grows.proper hproper) emit.manifestPath (manifest order)
    intro place hwrote a haim
    exact absurd ((hs.grows.aimOf_eq _ ▸ hwrote.aim).trans haim.symm) (hapart a)

end Faults

/-! ## Sequences of emissions -/

/-- The workspace after emissions of orders over a tree. -/
def after (faults : Nat → Option Fault) (emit : Settings.Emit) (tree : Tree)
    (orders : List (List Identity)) : Workspace Watched :=
  orders.foldl (fun w order => (toDisk (.watched faults) emit order w).2)
    (Workspace.on (.start tree))

section After
variable (faults : Nat → Option Fault) (emit : Settings.Emit) {tree : Tree}

theorem after_concat (orders : List (List Identity)) (order : List Identity) :
    after faults emit tree (orders ++ [order]) =
      (toDisk (.watched faults) emit order (after faults emit tree orders)).2 := by
  rw [after, List.foldl_append]
  rfl

theorem untouched_after (hproper : tree.Proper)
    (hapart : ∀ a, tree.aimOf emit.manifestPath ≠ tree.aimOf (registrationPath emit a))
    (orders : List (List Identity)) :
    Untouched emit tree (after faults emit tree orders).disk ∧
      Handled emit Watched.tree (after faults emit tree orders) := by
  induction orders using List.reverseRecOn with
  | nil => exact ⟨.start emit tree, fun a ha => by simp [after, Workspace.on] at ha⟩
  | append_singleton orders order ih =>
    obtain ⟨huntouched, hhandled⟩ := ih
    rw [after_concat]
    exact ⟨untouched_toDisk faults order _ hproper hapart huntouched,
      (emitted_toDisk (Disk.shows_watched faults) order _ (huntouched.grows.proper hproper)
        hhandled).1⟩

/-- Emissions over a tree without links, where any change may fail and no registration has the place
of the manifest. Whatever is found at a registration path is found there unchanged at every later
moment and nothing is written there again, everything that was handled has something at its
registration path, and one more emission leaves what `Leaves` says. -/
theorem emissions_with_faults (orders : List (List Identity)) (order : List Identity)
    (hlinks : ∀ place text, tree.node? place ≠ some (.link text))
    (hapart : ∀ a, tree.aimOf emit.manifestPath ≠ tree.aimOf (registrationPath emit a)) :
    (after faults emit tree (orders ++ [order])).disk.moments.Pairwise (KeepsRegistrations emit) ∧
    (∀ path text before,
      (.write path text, before) ∈ (after faults emit tree (orders ++ [order])).disk.done →
      ∀ a, tree.aimOf path = tree.aimOf (registrationPath emit a) →
        before.exists? (registrationPath emit a) = false) ∧
    Handled emit Watched.tree (after faults emit tree (orders ++ [order])) ∧
    Leaves emit order (after faults emit tree orders).disk.tree
      (toDisk (.watched faults) emit order (after faults emit tree orders)).1
      (after faults emit tree (orders ++ [order])).disk.tree := by
  have hproper := Tree.proper_of_linkless hlinks
  obtain ⟨huntouched, hhandled⟩ := untouched_after faults emit hproper hapart orders
  obtain ⟨huntouched', hhandled'⟩ := untouched_after faults emit hproper hapart (orders ++ [order])
  refine ⟨huntouched'.moments, huntouched'.writes, hhandled', ?_⟩
  have hemitted := (emitted_toDisk (Disk.shows_watched faults) order
    (after faults emit tree orders) (huntouched.grows.proper hproper) hhandled).2
  rw [after_concat]
  refine hemitted.leaves fun a => ?_
  rw [huntouched.grows.aimOf_eq, huntouched.grows.aimOf_eq]
  exact hapart a

end After

/-! ## Emissions to the working directory -/

theorem linkless_nil : ∀ place text, (⟨[], []⟩ : Tree).node? place ≠ some (.link text) :=
  Tree.linkless_of_nodes (by simp)

namespace Sample
open ComponentWiring.Sample (store app)

/-- Settings that emit to the working directory. -/
def here : Settings.Emit :=
  { outputDirectory := ".", manifestName := "m", registrationDirectory := "." }

theorem registrationPath_here : here.registrationPath = "./." := by decide

theorem manifestPath_here : here.manifestPath = "./m" := by decide

theorem namesHere_manifest : Tree.NamesHere "./m" "m" :=
  ⟨⟨by decide, by decide, by decide⟩, ⟨by decide, by decide, by decide⟩, by decide, by decide,
    1, by decide⟩

theorem namesHere_store : Tree.NamesHere (registrationPath here store) "store.registration" :=
  ⟨⟨by decide, by decide, by decide⟩, ⟨by decide, by decide, by decide⟩, by decide, by decide,
    2, by decide⟩

theorem namesHere_app : Tree.NamesHere (registrationPath here app) "app.registration" :=
  ⟨⟨by decide, by decide, by decide⟩, ⟨by decide, by decide, by decide⟩, by decide, by decide,
    2, by decide⟩

theorem manifest_apart_here (a : Identity) :
    (⟨[], []⟩ : Tree).aimOf here.manifestPath ≠
      (⟨[], []⟩ : Tree).aimOf (registrationPath here a) := by
  obtain ⟨directory, hdirectory, haim⟩ := aimOf_registrationPath linkless_nil here a
  have hregistrations : (⟨[], []⟩ : Tree).aimOf here.registrationPath = some [] :=
    (Tree.aimOf_of_linkless linkless_nil rfl _).trans (by decide)
  have hmanifest : (⟨[], []⟩ : Tree).aimOf here.manifestPath = some ["m"] :=
    (Tree.aimOf_of_linkless linkless_nil rfl _).trans (by decide)
  rw [hregistrations, Option.some.injEq] at hdirectory
  rw [haim, hmanifest, ← hdirectory]
  simpa using (fileName_ne_of_length_lt (by decide) a).symm

/-- The second change fails, which is a registration. -/
def second (n : Nat) : Option Fault := if n = 1 then some .nameTooLong else none

/-- The directory of the registrations is there already. -/
theorem makeDirectories_watched {s : Watched} (hroot : s.tree.workingDirectory = [])
    (hfault : second s.tried = none) :
    (Disk.watched second).makeDirectories "./." s = (.ok (), { s with tried := s.tried + 1 }) := by
  have hdirectory : s.tree.node? s.tree.workingDirectory = some .directory := by
    rw [hroot, Tree.node?_root]
  refine Tree.makeDirectories_of_there (by decide) ?_ (Tree.isDirectory_here hdirectory)
  exact Watched.attempt_of_error hfault (Tree.makeDirectory_here hdirectory)

/-- The disk after an emission whose first registration failed. -/
def spoiled : Watched := ⟨⟨[], []⟩, 2, []⟩

theorem toDisk_failing :
    ∃ e, toDisk (.watched second) here [store] (Workspace.on (.start ⟨[], []⟩)) =
      (.error e, Workspace.on spoiled) := by
  have hexists : (Disk.watched second).exists? (registrationPath here store) ⟨⟨[], []⟩, 1, []⟩ =
      false :=
    namesHere_store.exists?_eq_false (Tree.node?_root ⟨[], []⟩) rfl
  have hwrite : (Disk.watched second).write (registrationPath here store) (registration store)
      ⟨⟨[], []⟩, 1, []⟩ = (.error .nameTooLong, spoiled) := by
    rw [Disk.write_watched]
    exact Watched.attempt_of_fault rfl _
  rw [toDisk, registrationPath_here, Workspace.on, Watched.start, makeDirectories_watched rfl rfl]
  dsimp only
  rw [registerAll, Seen.has_empty, if_neg Bool.false_ne_true, register, hexists,
    if_neg Bool.false_ne_true, hwrite]
  exact ⟨_, rfl⟩

section Written
variable {s : Watched} (hroot : s.tree.workingDirectory = []) {path name : String}
  (hpath : Tree.NamesHere path name) (hnone : s.tree.node? [name] = none)
include hroot hpath hnone

theorem exists?_watched (faults : Nat → Option Fault) :
    (Disk.watched faults).exists? path s = false := by
  refine hpath.exists?_eq_false ?_ ?_
  · rw [hroot, Tree.node?_root]
  · rw [hroot]
    exact hnone

theorem write_watched {faults : Nat → Option Fault} (hfault : faults s.tried = none)
    (text : String) :
    (Disk.watched faults).write path text s =
      (.ok (), ⟨s.tree.put [name] (.file text.toUTF8.data.toList), s.tried + 1,
        s.done ++ [(.write path text, s.tree)]⟩) := by
  have hdirectory : s.tree.node? s.tree.workingDirectory = some .directory := by
    rw [hroot, Tree.node?_root]
  have hwritable : s.tree.Writable (s.tree.workingDirectory ++ [name]) := by
    rw [hroot]
    exact .inl hnone
  have hwrite := hpath.write_eq hdirectory hwritable text.toUTF8.data.toList
  rw [hroot] at hwrite
  exact Watched.attempt_of_ok hfault hwrite

end Written

/-- A registration at a free name is one more that is written. -/
theorem registerAll_here {a : Identity} {name : String}
    (hpath : Tree.NamesHere (registrationPath here a) name) {w : Workspace Watched}
    (hroot : w.disk.tree.workingDirectory = []) (hnone : w.disk.tree.node? [name] = none)
    (hfault : second w.disk.tried = none) (hnew : w.handled.has a = false) (rest : List Identity)
    (summary : EmitSummary) :
    ∃ w', registerAll (.watched second) here (a :: rest) summary w =
        registerAll (.watched second) here rest summary.addWritten w' ∧
      w'.disk.tree = w.disk.tree.put [name] (.file (bytesOf a)) ∧
      w'.disk.tried = w.disk.tried + 1 ∧ w'.handled = w.handled.insert a := by
  obtain ⟨hok, hdisk, hhandled⟩ := register_of_free (.watched second) here
    (exists?_watched hroot hpath hnone second)
    (write_watched hroot hpath hnone hfault (registration a))
  refine ⟨(register (.watched second) here a w).2.handle a,
    registerAll_new (.watched second) here hnew hok rest summary, ?_, ?_, ?_⟩
  · rw [Workspace.handle, hdisk]
    rfl
  · rw [Workspace.handle, hdisk]
  · rw [Workspace.handle, hhandled]

/-- The next emission finds the directory and writes two registrations and the manifest. -/
theorem toDisk_spoiled :
    (toDisk (.watched second) here [store, app] (Workspace.on spoiled)).1 = .ok ⟨2, 0⟩ := by
  have hmade := makeDirectories_watched (s := spoiled) rfl rfl
  have hprepared : prepared (.watched second) here (Workspace.on spoiled) =
      Workspace.on ⟨⟨[], []⟩, 3, []⟩ := by
    rw [prepared, Workspace.on, registrationPath_here, hmade]
    rfl
  obtain ⟨w, hstore, htree, htried, hhandled⟩ := registerAll_here namesHere_store
    (w := Workspace.on ⟨⟨[], []⟩, 3, []⟩) rfl rfl rfl (Seen.has_empty _) [app] .zero
  obtain ⟨w', happ, htree', htried', -⟩ := registerAll_here namesHere_app (w := w)
    (by rw [htree]; rfl) (by rw [htree]; rfl) (by rw [htried]; rfl)
    (by rw [hhandled]; simp [Workspace.on, store, app]) [] EmitSummary.zero.addWritten
  rw [registerAll] at happ
  have hmade' : ((Disk.watched second).makeDirectories here.registrationPath
      (Workspace.on spoiled).disk).1 = .ok () := by
    rw [registrationPath_here, Workspace.on, hmade]
  have hwrite := write_watched (s := w'.disk) (by rw [htree', htree]; rfl) namesHere_manifest
    (by rw [htree', htree]; rfl) (show second w'.disk.tried = none by rw [htried', htried]; rfl)
    (manifest [store, app])
  rw [(toDisk_of_registered hmade' _ (by rw [hprepared, hstore, happ])).1, writeManifest,
    manifestPath_here, hwrite]
  rfl

theorem after_failing : after second here ⟨[], []⟩ [[store]] = Workspace.on spoiled := by
  obtain ⟨e, hfailing⟩ := toDisk_failing
  exact congrArg Prod.snd hfailing

/-- An emission that fails at its registration, and one more that covers two components. -/
theorem emissions_with_faults_of_two :
    (∀ place text, (⟨[], []⟩ : Tree).node? place ≠ some (.link text)) ∧
    (∀ a, (⟨[], []⟩ : Tree).aimOf here.manifestPath ≠
      (⟨[], []⟩ : Tree).aimOf (registrationPath here a)) ∧
    (∃ e, (toDisk (.watched second) here [store] (Workspace.on (.start ⟨[], []⟩))).1 = .error e) ∧
    (toDisk (.watched second) here [store, app] (after second here ⟨[], []⟩ [[store]])).1 =
      .ok ⟨2, 0⟩ ∧
    ∃ tree, tree = (after second here ⟨[], []⟩ ([[store]] ++ [[store, app]])).disk.tree ∧
      tree.readText "./m" = .ok "# Generated by influx. Do not edit.\nstore\napp\n" ∧
      tree.exists? (registrationPath here store) = true ∧
      tree.exists? (registrationPath here app) = true ∧
      ∃ created : List Place, created.Nodup ∧ created.length = 2 ∧
        ∀ place, place ∈ created ↔ NewRegistration here ⟨[], []⟩ tree place := by
  obtain ⟨e, hfailing⟩ := toDisk_failing
  have hresult : (toDisk (.watched second) here [store, app]
      (after second here ⟨[], []⟩ [[store]])).1 = .ok ⟨2, 0⟩ := by
    rw [after_failing]
    exact toDisk_spoiled
  obtain ⟨-, -, -, hleaves⟩ :=
    emissions_with_faults second here [[store]] [store, app] linkless_nil manifest_apart_here
  have hmanifest := hleaves.manifest _ hresult
  have hregistered := hleaves.registered _ hresult
  have hlines : "# Generated by influx. Do not edit.\n" ++
      String.join ([store, app].map fun a => a.name ++ "\n") =
        "# Generated by influx. Do not edit.\nstore\napp\n" := by decide
  rw [manifestPath_here, hlines] at hmanifest
  have hcreated := hleaves.created _ hresult
  rw [after_failing] at hcreated
  exact ⟨linkless_nil, manifest_apart_here, ⟨e, congrArg Prod.fst hfailing⟩, hresult, _, rfl,
    hmanifest, hregistered _ (by simp), hregistered _ (by simp), hcreated⟩

end Sample

end Emission

end ComponentWiring
