import ComponentWiring.Proofs.DryRuns
import ComponentWiring.Proofs.StatementTexts

/-! # Reading registrations back

A registration is a comment and two rows, so it tells the name and the simple name of its component.

* `Artifact.registrationLines`: the lines of a registration.
* `Artifact.read_registration`: what a registration says.
* `Emission.registration_read_back`: what is read after a registration was written.
-/

namespace ComponentWiring
set_option autoImplicit false

namespace Artifact
open Toml

def nameRow (a : Identity) : Row := textRow "identity" a.name

def simpleNameRow (a : Identity) : Row := textRow "simple_name" a.simpleName

/-- The lines of a registration, the comment in front of the first row. -/
def registrationLines (a : Identity) : List (List Char × Statement) :=
  [('#' :: (header.toList.tail ++ '\n' :: (nameRow a).line.1), (nameRow a).line.2),
   (simpleNameRow a).line]

theorem says_registrationLines (edition : Edition) (a : Identity) :
    ∀ line ∈ registrationLines a, Says edition line.1 line.2 := by
  have hname : (nameRow a).Good edition :=
    good_textRow edition (by decide) a.name
  have hsimple : (simpleNameRow a).Good edition :=
    good_textRow edition (by decide) a.simpleName
  have hcomment : ∀ c ∈ header.toList.tail, isText c = true := List.all_eq_true.1 (by decide)
  simpa [registrationLines] using
    And.intro (hname.says_line.behind_comment hcomment) hsimple.says_line

theorem toList_registration (a : Identity) :
    (registration a).toList = (registrationLines a).flatMap (·.1) := by
  have hheader : header.toList = '#' :: header.toList.tail := by decide
  simp only [registration, String.toList_append]
  rw [hheader]
  simp [registrationLines, nameRow, simpleNameRow, textRow, Row.line]

theorem read_registration (edition : Edition) (a : Identity) :
    Toml.read edition (registration a) =
      .ok [("identity", .text a.name), ("simple_name", .text a.simpleName)] := by
  have hfill : ∀ change inner, atHeader change [] (id inner) = (change inner).map id :=
    fun change inner => by simp [atHeader, descend]
  have hmade := foldlM_rows hfill [nameRow a, simpleNameRow a] []
    (by simp [nameRow, simpleNameRow, textRow])
  have hmark : (registration a).toList.head? ≠ some byteOrderMark := by
    simp [toList_registration, registrationLines, byteOrderMark]
  rw [read_of_lines (says_registrationLines edition a) (toList_registration a) hmark hmade]
  rfl

end Artifact

namespace Emission
open Artifact File

/-- A registration that was written is read back: its text is the table of the two names of its
component, and the first one is the name of this component alone. -/
theorem registration_read_back {σ : Type} {disk : Disk σ} {tree : σ → Tree}
    (hshows : disk.Shows tree) {emit : Settings.Emit} {a : Identity} {w : Workspace σ}
    (hproper : (tree w.disk).Proper) (hok : (register disk emit a w).1 = .ok true) :
    ∃ text, (tree (register disk emit a w).2.disk).readText (registrationPath emit a) = .ok text ∧
      (∀ edition, Toml.read edition text =
        .ok [("identity", .text a.name), ("simple_name", .text a.simpleName)]) ∧
      Identity.ofName? a.name = some a := by
  obtain ⟨-, ⟨hfalse, -⟩ | ⟨-, place, -, hwrote⟩ | ⟨⟨e, he⟩, -⟩⟩ :=
    register_cases hshows emit a w hproper
  · rw [hfalse] at hok
    cases hok
  · exact ⟨registration a, Tree.readText_of_find hwrote.find,
      fun edition => read_registration edition a, Identity.ofName?_name a⟩
  · rw [he] at hok
    cases hok

namespace Sample

/-- A name with all kinds of quotes and a line break, whose last part is empty. -/
def quoted : Identity := ⟨"\"\n\\'''.", by decide, by decide⟩

theorem namesHere_quoted : Tree.NamesHere (registrationPath here quoted)
    "%22%0A%5C%27%27%27..registration" :=
  ⟨⟨by decide, by decide, by decide⟩, ⟨by decide, by decide, by decide⟩, by decide, by decide,
    2, by decide⟩

theorem register_quoted :
    (register Tree.disk here quoted (Workspace.on ⟨[], []⟩)).1 = .ok true := by
  have hroot := Tree.node?_root ⟨[], []⟩
  have hexists : Tree.disk.exists? (registrationPath here quoted) ⟨[], []⟩ = false :=
    namesHere_quoted.exists?_eq_false hroot rfl
  have hwrite := namesHere_quoted.disk_write_eq hroot (.inl rfl) (registration quoted)
  exact (register_of_free Tree.disk here (w := Workspace.on ⟨[], []⟩) hexists hwrite).1

theorem registration_read_back_of_quoted :
    (register Tree.disk here quoted (Workspace.on ⟨[], []⟩)).1 = .ok true ∧
    ∃ text, (register Tree.disk here quoted (Workspace.on ⟨[], []⟩)).2.disk.readText
        (registrationPath here quoted) = .ok text ∧
      ∀ edition, Toml.read edition text =
        .ok [("identity", .text "\"\n\\'''."), ("simple_name", .text "")] := by
  obtain ⟨text, htext, hread, -⟩ :=
    registration_read_back (w := Workspace.on ⟨[], []⟩) Tree.shows_disk
      (Tree.proper_of_linkless linkless_nil) register_quoted
  exact ⟨register_quoted, text, htext, hread⟩

end Sample

end Emission

end ComponentWiring
