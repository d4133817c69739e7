import ComponentWiring.Emission

/-! # Emissions that fail

An emission is a series of calls on the disk, and it fails exactly where one of them does.

* `Emission.Fails`: a call of an emission on the disk fails.
* `Emission.toDisk_error_iff`: an emission fails exactly where one of its calls does.
* `Emission.toDisk_of_not_fails`: what becomes of an emission of which none fails.
-/

namespace ComponentWiring
set_option autoImplicit false

open File

namespace Emission
open Artifact

section Fails
variable {σ : Type} (disk : Disk σ) (emit : Settings.Emit)

/-- A registration that is neither handled nor there cannot be written. -/
inductive RegistrationFails : List Identity → Workspace σ → Prop where
  | here {a : Identity} {rest : List Identity} {w : Workspace σ} (fault : Fault)
      (hnew : w.handled.has a = false)
      (hnone : disk.exists? (registrationPath emit a) w.disk = false)
      (hwrite : (disk.write (registrationPath emit a) (registration a) w.disk).1 = .error fault) :
      RegistrationFails (a :: rest) w
  | handled {a : Identity} {rest : List Identity} {w : Workspace σ}
      (hold : w.handled.has a = true) (h : RegistrationFails rest w) :
      RegistrationFails (a :: rest) w
  | registered {a : Identity} {rest : List Identity} {w : Workspace σ} (wrote : Bool)
      (hnew : w.handled.has a = false) (hok : (register disk emit a w).1 = .ok wrote)
      (h : RegistrationFails rest ((register disk emit a w).2.handle a)) :
      RegistrationFails (a :: rest) w

/-- The workspace with the directory of the registrations, as far as it can be made. -/
def prepared (w : Workspace σ) : Workspace σ :=
  { w with disk := (disk.makeDirectories emit.registrationPath w.disk).2 }

/-- One of the calls of an emission on the disk fails: to make the directory of the registrations,
to write a registration, or to write the manifest. -/
inductive Fails (order : List Identity) (w : Workspace σ) : Prop where
  | directories (fault : Fault)
      (h : (disk.makeDirectories emit.registrationPath w.disk).1 = .error fault)
  | registration (hmade : (disk.makeDirectories emit.registrationPath w.disk).1 = .ok ())
      (h : RegistrationFails disk emit order (prepared disk emit w))
  | manifest (fault : Fault) (summary : EmitSummary)
      (hmade : (disk.makeDirectories emit.registrationPath w.disk).1 = .ok ())
      (hregistered : (registerAll disk emit order .zero (prepared disk emit w)).1 = .ok summary)
      (h : (disk.write emit.manifestPath (Artifact.manifest order)
        (registerAll disk emit order .zero (prepared disk emit w)).2.disk).1 = .error fault)

theorem register_error_iff (a : Identity) (w : Workspace σ) :
    (∃ e, (register disk emit a w).1 = .error e) ↔
      disk.exists? (registrationPath emit a) w.disk = false ∧
        ∃ fault, (disk.write (registrationPath emit a) (registration a) w.disk).1 =
          .error fault := by
  rw [register]
  split
  · next hexists => simp [hexists]
  next hexists =>
  rcases disk.write (registrationPath emit a) (registration a) w.disk with ⟨fault | u, s⟩
  · simp [hexists]
  · simp

/-- Where nothing is found and a registration can be written, it is written. -/
theorem register_of_free {a : Identity} {w : Workspace σ} {s : σ}
    (hexists : disk.exists? (registrationPath emit a) w.disk = false)
    (hwrite : disk.write (registrationPath emit a) (registration a) w.disk = (.ok (), s)) :
    (register disk emit a w).1 = .ok true ∧ (register disk emit a w).2.disk = s ∧
      (register disk emit a w).2.handled = w.handled := by
  rw [register, hexists, if_neg Bool.false_ne_true, hwrite]
  exact ⟨rfl, rfl, rfl⟩

theorem registerAll_handled {a : Identity} {w : Workspace σ} (hold : w.handled.has a = true)
    (rest : List Identity) (summary : EmitSummary) :
    registerAll disk emit (a :: rest) summary w =
      registerAll disk emit rest summary.addSkipped w := by
  rw [registerAll, if_pos hold]

theorem registerAll_new {a : Identity} {w : Workspace σ} (hnew : w.handled.has a = false)
    {wrote : Bool} (hok : (register disk emit a w).1 = .ok wrote) (rest : List Identity)
    (summary : EmitSummary) :
    registerAll disk emit (a :: rest) summary w =
      registerAll disk emit rest (if wrote then summary.addWritten else summary.addSkipped)
        ((register disk emit a w).2.handle a) := by
  rw [registerAll, if_neg (by simp [hnew])]
  generalize register disk emit a w = registered at hok ⊢
  obtain ⟨answer, w'⟩ := registered
  obtain rfl : answer = .ok wrote := hok
  cases wrote <;> rfl

theorem registerAll_failed {a : Identity} {w : Workspace σ} (hnew : w.handled.has a = false)
    {e : Error} (herror : (register disk emit a w).1 = .error e) (rest : List Identity)
    (summary : EmitSummary) : (registerAll disk emit (a :: rest) summary w).1 = .error e := by
  rw [registerAll, if_neg (by simp [hnew])]
  generalize register disk emit a w = registered at herror ⊢
  obtain ⟨answer, w'⟩ := registered
  obtain rfl : answer = .error e := herror
  rfl

theorem registerAll_error_iff (order : List Identity) (summary : EmitSummary) (w : Workspace σ) :
    (∃ e, (registerAll disk emit order summary w).1 = .error e) ↔
      RegistrationFails disk emit order w := by
  induction order generalizing summary w with
  | nil =>
    refine iff_of_false ?_ nofun
    rintro ⟨e, he⟩
    cases he
  | cons a rest ih =>
    cases hhas : w.handled.has a with
    | true =>
      rw [registerAll_handled disk emit hhas, ih]
      refine ⟨.handled hhas, fun h => ?_⟩
      cases h with
      | here _ hnew => cases hhas.symm.trans hnew
      | handled _ h => exact h
      | registered _ hnew => cases hhas.symm.trans hnew
    | false =>
      cases hregister : (register disk emit a w).1 with
      | ok wrote =>
        rw [registerAll_new disk emit hhas hregister, ih]
        refine ⟨.registered wrote hhas hregister, fun h => ?_⟩
        cases h with
        | here fault _ hnone hwrite =>
          obtain ⟨e, he⟩ := (register_error_iff disk emit a w).2 ⟨hnone, fault, hwrite⟩
          cases hregister.symm.trans he
        | handled hold => cases hhas.symm.trans hold
        | registered _ _ _ h => exact h
      | error e =>
        obtain ⟨hnone, fault, hwrite⟩ := (register_error_iff disk emit a w).1 ⟨e, hregister⟩
        exact iff_of_true ⟨e, registerAll_failed disk emit hhas hregister rest summary⟩
          (.here fault hhas hnone hwrite)

section Made
variable {disk} {emit} {w : Workspace σ}
  (hmade : (disk.makeDirectories emit.registrationPath w.disk).1 = .ok ())
  (order : List Identity)
include hmade

theorem toDisk_of_unregistered {e : Error} {w' : Workspace σ}
    (h : registerAll disk emit order .zero (prepared disk emit w) = (.error e, w')) :
    toDisk disk emit order w = (.error e, w') := by
  rw [prepared] at h
  rw [toDisk]
  generalize disk.makeDirectories emit.registrationPath w.disk = made at hmade h ⊢
  obtain ⟨answer, s⟩ := made
  obtain rfl : answer = .ok () := hmade
  dsimp only at h ⊢
  rw [h]

theorem toDisk_of_registered {summary : EmitSummary} {w' : Workspace σ}
    (h : registerAll disk emit order .zero (prepared disk emit w) = (.ok summary, w')) :
    (toDisk disk emit order w).1 = (writeManifest disk emit order w').1.map (fun _ => summary) ∧
      (toDisk disk emit order w).2.disk = (writeManifest disk emit order w').2.disk ∧
      (toDisk disk emit order w).2.handled = (writeManifest disk emit order w').2.handled := by
  rw [prepared] at h
  rw [toDisk]
  generalize disk.makeDirectories emit.registrationPath w.disk = made at hmade h ⊢
  obtain ⟨answer, s⟩ := made
  obtain rfl : answer = .ok () := hmade
  dsimp only at h ⊢
  rw [h]
  dsimp only
  rcases writeManifest disk emit order w' with ⟨e | u, w''⟩
  · exact ⟨rfl, rfl, rfl⟩
  · exact ⟨rfl, rfl, rfl⟩

end Made

theorem writeManifest_leaves (order : List Identity) (w : Workspace σ) :
    (writeManifest disk emit order w).2.disk =
        (disk.write emit.manifestPath (Artifact.manifest order) w.disk).2 ∧
      (writeManifest disk emit order w).2.handled = w.handled := by
  rw [writeManifest]
  rcases disk.write emit.manifestPath (Artifact.manifest order) w.disk with ⟨fault | u, s⟩
  · exact ⟨rfl, rfl⟩
  · exact ⟨rfl, rfl⟩

theorem writeManifest_error_iff (order : List Identity) (w : Workspace σ) :
    (∃ e, (writeManifest disk emit order w).1 = .error e) ↔
      ∃ fault, (disk.write emit.manifestPath (Artifact.manifest order) w.disk).1 =
        .error fault := by
  rw [writeManifest]
  rcases disk.write emit.manifestPath (Artifact.manifest order) w.disk with ⟨fault | u, s⟩
  · simp
  · simp

/-- An emission fails exactly where one of its calls on the disk does. -/
theorem toDisk_error_iff (order : List Identity) (w : Workspace σ) :
    (∃ e, (toDisk disk emit order w).1 = .error e) ↔ Fails disk emit order w := by
  have hregister := registerAll_error_iff disk emit order .zero (prepared disk emit w)
  cases hmade : (disk.makeDirectories emit.registrationPath w.disk).1 with
  | error fault =>
    refine iff_of_true ?_ (.directories fault hmade)
    rw [toDisk]
    generalize disk.makeDirectories emit.registrationPath w.disk = made at hmade ⊢
    obtain ⟨answer, s⟩ := made
    obtain rfl : answer = .error fault := hmade
    exact ⟨_, rfl⟩
  | ok u =>
    rcases hregistered : registerAll disk emit order .zero (prepared disk emit w) with
      ⟨e | summary, w'⟩
    · rw [toDisk_of_unregistered hmade order hregistered]
      rw [hregistered] at hregister
      exact iff_of_true ⟨e, rfl⟩ (.registration hmade (hregister.1 ⟨e, rfl⟩))
    · have hmanifest := writeManifest_error_iff disk emit order w'
      have htoDisk : (∃ e, (toDisk disk emit order w).1 = .error e) ↔
          ∃ e, (writeManifest disk emit order w').1 = .error e := by
        rw [(toDisk_of_registered hmade order hregistered).1]
        cases (writeManifest disk emit order w').1 with
        | error e => simp [Except.map]
        | ok u => simp [Except.map]
      rw [htoDisk, hmanifest]
      constructor
      · rintro ⟨fault, hwrite⟩
        refine .manifest fault summary hmade ?_ ?_
        · rw [hregistered]
        · rw [hregistered]
          exact hwrite
      · intro h
        cases h with
        | directories fault h => cases hmade.symm.trans h
        | registration _ h =>
          obtain ⟨e, he⟩ := hregister.2 h
          rw [hregistered] at he
          cases he
        | manifest fault _ _ _ h =>
          rw [hregistered] at h
          exact ⟨fault, h⟩

/-- An emission that does not fail makes the directory, registers all, and writes the manifest. -/
theorem toDisk_of_not_fails {order : List Identity} {w : Workspace σ}
    (hok : ¬ Fails disk emit order w) :
    (disk.makeDirectories emit.registrationPath w.disk).1 = .ok () ∧
      ∃ summary w', registerAll disk emit order .zero (prepared disk emit w) = (.ok summary, w') ∧
        (toDisk disk emit order w).1 = .ok summary ∧
        (toDisk disk emit order w).2.disk = (writeManifest disk emit order w').2.disk ∧
        (toDisk disk emit order w).2.handled = (writeManifest disk emit order w').2.handled := by
  have hmade : (disk.makeDirectories emit.registrationPath w.disk).1 = .ok () := by
    cases hmade : (disk.makeDirectories emit.registrationPath w.disk).1 with
    | error fault => exact absurd (.directories fault hmade) hok
    | ok u => rfl
  refine ⟨hmade, ?_⟩
  rcases hregistered : registerAll disk emit order .zero (prepared disk emit w) with
    ⟨e | summary, w'⟩
  · refine absurd (.registration hmade ?_) hok
    exact (registerAll_error_iff disk emit order .zero _).1 ⟨e, by rw [hregistered]⟩
  obtain ⟨hresult, hsame⟩ := toDisk_of_registered hmade order hregistered
  refine ⟨summary, w', rfl, ?_, hsame⟩
  cases hwritten : (writeManifest disk emit order w').1 with
  | error e =>
    rw [hwritten] at hresult
    exact absurd ((toDisk_error_iff disk emit order w).1 ⟨e, hresult⟩) hok
  | ok u =>
    rw [hresult, hwritten]
    rfl

/-- An emission of one new component, of which no call fails, is counted as it is. -/
theorem toDisk_of_one {a : Identity} {w : Workspace σ} {s s' s'' : σ}
    (hmade : disk.makeDirectories emit.registrationPath w.disk = (.ok (), s))
    (hnew : w.handled.has a = false) (hexists : disk.exists? (registrationPath emit a) s = false)
    (hwrite : disk.write (registrationPath emit a) (registration a) s = (.ok (), s'))
    (hmanifest : disk.write emit.manifestPath (Artifact.manifest [a]) s' = (.ok (), s'')) :
    (toDisk disk emit [a] w).1 = .ok ⟨1, 0⟩ := by
  rw [toDisk, hmade]
  dsimp only
  rw [registerAll, hnew, if_neg Bool.false_ne_true, register, hexists, if_neg Bool.false_ne_true,
    hwrite]
  dsimp only [registerAll, writeManifest, Workspace.handle, Workspace.log]
  rw [hmanifest]
  rfl

end Fails

end Emission

end ComponentWiring
