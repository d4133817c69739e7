import ComponentWiring.Proofs.DryRuns

/-! # Reading manifests back

A manifest has a line for each component of the order, and the names stand in it as they are. So it
tells the order exactly where no name has a line break inside.

* `Text.readLines`: the lines of a text.
* `Artifact.listed?`: the names that a manifest lists.
* `Artifact.listed?_manifest_iff`: a manifest lists the order just if no name has a line break.
* `Artifact.manifest_injOn`: different orders of such names have different manifests.
* `Emission.manifest_read_back`: what is read after an emission.
-/

namespace ComponentWiring
set_option autoImplicit false

/-! ## Lines -/

namespace Text

/-- A line without the carriage return of its line break. -/
def chomp (line : List Char) : List Char :=
  if line.getLast? = some '\r' then line.dropLast else line

/-- The lines between line feeds. What stands behind the last line feed is a line unless it is
empty, and has no line break to leave out. -/
def endedLines : List (List Char) → List (List Char)
  | [] => []
  | [last] => if last = [] then [] else [last]
  | part :: parts => chomp part :: endedLines parts

def readLines (cs : List Char) : List (List Char) := endedLines (lines cs)

theorem readLines_append (part rest : List Char) (h : '\n' ∉ part) :
    readLines (part ++ '\n' :: rest) = chomp part :: readLines rest := by
  rw [readLines, lines, splitOn_append_cons '\n' part rest h, readLines, lines]
  cases hparts : splitOn '\n' rest with
  | nil => exact absurd hparts (splitOn_ne_nil '\n' rest)
  | cons next parts => rw [endedLines]; simp

theorem mem_of_mem_chomp {c : Char} {line : List Char} (h : c ∈ chomp line) : c ∈ line := by
  rw [chomp] at h
  split at h
  · exact List.mem_of_mem_dropLast h
  · exact h

theorem notMem_of_mem_endedLines {parts : List (List Char)} (h : ∀ part ∈ parts, '\n' ∉ part) :
    ∀ line ∈ endedLines parts, '\n' ∉ line := by
  fun_induction endedLines parts with
  | case1 => simp
  | case2 => simp
  | case3 last hlast => simpa using h
  | case4 part parts hparts ih =>
    rw [List.forall_mem_cons] at h ⊢
    exact ⟨fun hmem => h.1 (mem_of_mem_chomp hmem), ih h.2⟩

theorem notMem_of_mem_readLines {cs line : List Char} (h : line ∈ readLines cs) : '\n' ∉ line :=
  notMem_of_mem_endedLines (fun _ => notMem_of_mem_splitOn) line h

end Text

namespace Identity

theorem isBlank_of_getLast? (a : Identity) {c : Char} (h : a.name.toList.getLast? = some c) :
    Text.isBlank c = false := by
  have htrim : Text.trimChars a.name.toList = a.name.toList := by
    have hname := congrArg String.toList a.trim_name
    rwa [Text.trim, String.toList_ofList] at hname
  rw [← htrim] at h
  exact Text.getLast?_trimChars _ c h

theorem chomp_name (a : Identity) : Text.chomp a.name.toList = a.name.toList := by
  rw [Text.chomp, if_neg]
  intro hlast
  have hblank : Text.isBlank '\r' = true := by decide
  rw [a.isBlank_of_getLast? hlast] at hblank
  cases hblank

end Identity

/-! ## Manifests -/

namespace Artifact

/-- The names that a manifest lists: its lines behind the header. -/
def listed? (text : String) : Option (List String) :=
  match Text.readLines text.toList with
  | [] => none
  | first :: rest => if first = header.toList then some (rest.map String.ofList) else none

/-- A name of one line. -/
def Unbroken (a : Identity) : Prop := '\n' ∉ a.name.toList

instance (a : Identity) : Decidable (Unbroken a) :=
  inferInstanceAs (Decidable ('\n' ∉ a.name.toList))

variable {order order' : List Identity}

theorem readLines_manifest (order : List Identity) :
    Text.readLines (manifest order).toList =
      header.toList :: Text.readLines (order.flatMap fun a => a.name.toList ++ ['\n']) := by
  have hbreak : '\n' ∉ header.toList := by decide
  have hchomp : Text.chomp header.toList = header.toList := by decide
  have hlist : (manifest order).toList =
      header.toList ++ '\n' :: order.flatMap fun a => a.name.toList ++ ['\n'] := by
    simp [manifest, List.flatMap_map]
  rw [hlist, Text.readLines_append _ _ hbreak, hchomp]

theorem listed?_manifest (order : List Identity) :
    listed? (manifest order) = some
      ((Text.readLines (order.flatMap fun a => a.name.toList ++ ['\n'])).map String.ofList) := by
  rw [listed?, readLines_manifest]
  exact if_pos rfl

theorem readLines_names (h : ∀ a ∈ order, Unbroken a) :
    Text.readLines (order.flatMap fun a => a.name.toList ++ ['\n']) =
      order.map (·.name.toList) := by
  induction order with
  | nil => rfl
  | cons a order ih =>
    rw [List.forall_mem_cons] at h
    rw [List.flatMap_cons, List.append_assoc, List.singleton_append,
      Text.readLines_append _ _ h.1, a.chomp_name, ih h.2, List.map_cons]

theorem listed?_manifest_iff (order : List Identity) :
    listed? (manifest order) = some (order.map (·.name)) ↔ ∀ a ∈ order, Unbroken a := by
  rw [listed?_manifest, Option.some.injEq]
  constructor
  · intro hlines a ha
    have hname : a.name ∈ order.map (·.name) := List.mem_map_of_mem ha
    rw [← hlines, List.mem_map] at hname
    obtain ⟨line, hline, hname⟩ := hname
    rw [Unbroken, ← hname, String.toList_ofList]
    exact Text.notMem_of_mem_readLines hline
  · intro hunbroken
    rw [readLines_names hunbroken, List.map_map]
    exact List.map_congr_left fun a _ => String.ofList_toList

theorem manifest_injOn (h : ∀ a ∈ order, Unbroken a) (h' : ∀ a ∈ order', Unbroken a)
    (hsame : manifest order = manifest order') : order = order' := by
  have hnames : order.map (·.name) = order'.map (·.name) := by
    have hlisted := (listed?_manifest_iff order).2 h
    rw [hsame, (listed?_manifest_iff order').2 h', Option.some.injEq] at hlisted
    exact hlisted.symm
  exact List.map_injective_iff.2 (fun _ _ => Identity.ext_name) hnames

end Artifact

namespace Emission
open Artifact File

section Disk
variable {σ : Type} {disk : Disk σ} {tree : σ → Tree} {emit : Settings.Emit}
  {order : List Identity} {w : Workspace σ}

/-- A tree in which something was made or written is still one whose working directory is not
reached through a link. -/
theorem proper_registerAll (hshows : disk.Shows tree) (order : List Identity)
    (summary : EmitSummary) (hproper : (tree w.disk).Proper) :
    (tree (registerAll disk emit order summary w).2.disk).Proper := by
  refine registerAll_keeps (I := fun s => (tree s).Proper) ?_ summary w hproper
  intro a _ s _ hs
  rcases hshows.write (registrationPath emit a) (registration a) s with ⟨-, hwrite⟩ | ⟨-, hsame⟩
  · obtain ⟨place, hwrote⟩ := Tree.wrote_of_write hs hwrite
    exact hwrote.grows.proper hs
  · rwa [hsame]

theorem readText_toDisk (hshows : disk.Shows tree) (hproper : (tree w.disk).Proper)
    {summary : EmitSummary} (hok : (toDisk disk emit order w).1 = .ok summary) :
    (tree (toDisk disk emit order w).2.disk).readText emit.manifestPath =
      .ok (manifest order) := by
  have hmade := (made_makeDirectories hshows emit w.disk).grows.proper hproper
  rw [toDisk] at hok ⊢
  generalize disk.makeDirectories emit.registrationPath w.disk = made at hmade hok ⊢
  obtain ⟨answer, s⟩ := made
  cases answer with
  | error fault => cases hok
  | ok u =>
    have hregistered :
        (tree (registerAll disk emit order EmitSummary.zero { w with disk := s }).2.disk).Proper :=
      proper_registerAll hshows order EmitSummary.zero hmade
    dsimp only at hok ⊢
    generalize registerAll disk emit order EmitSummary.zero { w with disk := s } = registered
      at hregistered hok ⊢
    obtain ⟨answer, w'⟩ := registered
    cases answer with
    | error e => cases hok
    | ok counted =>
      have hwrite := hshows.write emit.manifestPath (manifest order) w'.disk
      dsimp only [writeManifest] at hok ⊢
      generalize disk.write emit.manifestPath (manifest order) w'.disk = written at hwrite hok ⊢
      obtain ⟨answer, s'⟩ := written
      rcases hwrite with ⟨rfl, hwrite⟩ | ⟨⟨fault, rfl⟩, -⟩
      · obtain ⟨place, hwrote⟩ := Tree.wrote_of_write hregistered hwrite
        exact Tree.readText_of_find hwrote.find
      · cases hok

end Disk

/-- After an emission a manifest is read that lists the order just if all names are of one line. No
other order of such names has that manifest. -/
theorem manifest_read_back {σ : Type} {disk : Disk σ} {tree : σ → Tree} (hshows : disk.Shows tree)
    {emit : Settings.Emit} {order : List Identity} {w : Workspace σ}
    (hproper : (tree w.disk).Proper) {summary : EmitSummary}
    (hok : (toDisk disk emit order w).1 = .ok summary) :
    ∃ text, (tree (toDisk disk emit order w).2.disk).readText emit.manifestPath = .ok text ∧
      (listed? text = some (order.map (·.name)) ↔ ∀ a ∈ order, Unbroken a) ∧
      ((∀ a ∈ order, Unbroken a) → ∀ order', (∀ a ∈ order', Unbroken a) →
        manifest order' = text → order' = order) :=
  ⟨manifest order, readText_toDisk hshows hproper hok, listed?_manifest_iff order,
    fun horder _ horder' hsame => manifest_injOn horder' horder hsame⟩

namespace Sample

theorem manifest_read_back_of_two :
    (toDisk Tree.disk here [lone, lone] (Workspace.on ⟨[], []⟩)).1 = .ok ⟨1, 1⟩ ∧
    (∀ a ∈ [lone, lone], Unbroken a) ∧
    ∃ text, (toDisk Tree.disk here [lone, lone] (Workspace.on ⟨[], []⟩)).2.disk.readText
        here.manifestPath = .ok text ∧ listed? text = some ["a", "a"] := by
  have hok : (toDisk Tree.disk here [lone, lone] (Workspace.on ⟨[], []⟩)).1 = .ok ⟨1, 1⟩ := by
    obtain ⟨events, hevents⟩ := toDisk_here
    rw [hevents]
  have hunbroken : ∀ a ∈ [lone, lone], Unbroken a := by decide
  obtain ⟨text, htext, hlisted, -⟩ :=
    manifest_read_back (w := Workspace.on ⟨[], []⟩) Tree.shows_disk
      (Tree.proper_of_linkless linkless_nil) hok
  exact ⟨hok, hunbroken, text, htext, hlisted.2 hunbroken⟩

end Sample

end Emission

namespace Artifact

def Sample.broken : Identity := ⟨"a\nb", by decide, by decide⟩

/-- A name of two lines is read back as two names, and has the manifest of these two. -/
theorem manifest_of_broken_name :
    listed? (manifest [Sample.broken]) = some ["a", "b"] ∧
      manifest [Sample.broken] =
        manifest [⟨"a", by decide, by decide⟩, ⟨"b", by decide, by decide⟩] := by
  decide

end Artifact

end ComponentWiring
