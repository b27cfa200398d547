import Rowfile.Folder

/-!
# What a save does to the folder

Only the last step of a save touches the data file, so a save that fails leaves the folder as it was,
whichever step it is that fails. A save that works has gone through all of its steps, and then the
data file holds the stored catalog as a whole.
-/
namespace Rowfile

namespace SaveStep

variable {trouble : Option Trouble} {octets : List UInt8} {saving saving' : Saving}
  {step : SaveStep} {steps : List SaveStep} {folder : FolderState} {fault : Fault}

theorem folder_of_run (hstep : step ≠ persist) (h : step.run octets saving = .ok saving') :
    saving'.folder = saving.folder := by
  cases step with
  | create =>
    simp only [run] at h
    split at h
    · cases h
    · obtain rfl := Except.ok.inj h
      rfl
  | write | flush | sync =>
    obtain rfl := Except.ok.inj h
    rfl
  | persist => exact absurd rfl hstep

theorem fault_of_run (h : step.run octets saving = .error fault) : fault = .fileAccess := by
  cases step with
  | create | persist =>
    simp only [run] at h
    split at h <;> cases h <;> rfl
  | write | flush | sync => cases h

theorem attempt_eq_ok_iff : step.attempt trouble octets saving = .ok saving' ↔
    (∀ found ∈ trouble, found.step ≠ step) ∧ step.run octets saving = .ok saving' := by
  cases trouble with
  | none => simp [attempt]
  | some found =>
    obtain ⟨failing, fault⟩ := found
    by_cases h : step = failing
    · simp [attempt, h]
    · simp [attempt, h, Ne.symm h]

theorem folder_of_runAll_error (hsteps : persist ∉ steps)
    (h : (runAll trouble octets (steps ++ [persist]) saving).1 = .error fault) :
    (runAll trouble octets (steps ++ [persist]) saving).2 = saving.folder := by
  induction steps generalizing saving with
  | nil =>
    simp only [List.nil_append, runAll] at h ⊢
    split at h
    · rfl
    · cases h
  | cons step steps ih =>
    rw [List.mem_cons, not_or] at hsteps
    simp only [List.cons_append, runAll] at h ⊢
    split at h
    · rfl
    · next hattempt =>
      have hfolder := folder_of_run (Ne.symm hsteps.1) (attempt_eq_ok_iff.mp hattempt).2
      exact (ih hsteps.2 h).trans hfolder

theorem fault_of_runAll_error (h : (runAll none octets steps saving).1 = .error fault) :
    fault = .fileAccess := by
  induction steps generalizing saving with
  | nil => cases h
  | cons step steps ih =>
    simp only [runAll] at h
    split at h
    · next hattempt =>
      obtain rfl := Except.error.inj h
      exact fault_of_run hattempt
    · exact ih h

/-- Steps that all work have met with no trouble. -/
theorem runAll_eq_ok_iff : runAll trouble octets steps saving = (.ok (), folder) ↔
    (∀ found ∈ trouble, found.step ∉ steps) ∧ runAll none octets steps saving = (.ok (), folder) := by
  induction steps generalizing saving with
  | nil => simp [runAll]
  | cons step steps ih =>
    simp only [runAll]
    cases hrun : step.run octets saving with
    | error fault =>
      have hnone : step.attempt none octets saving = .error fault := hrun
      simp only [hnone]
      split
      · simp
      · next hattempt =>
        rw [(attempt_eq_ok_iff.mp hattempt).2] at hrun
        cases hrun
    | ok after =>
      have hnone : step.attempt none octets saving = .ok after := hrun
      simp only [hnone]
      by_cases htrouble : ∀ found ∈ trouble, found.step ≠ step
      · rw [attempt_eq_ok_iff.mpr ⟨htrouble, hrun⟩]
        simp only [ih, List.mem_cons, not_or]
        exact and_congr_left fun _ =>
          forall₂_congr fun found hfound => (and_iff_right (htrouble found hfound)).symm
      · cases hattempt : step.attempt trouble octets saving with
        | ok _ => exact absurd (attempt_eq_ok_iff.mp hattempt).1 htrouble
        | error _ =>
          refine iff_of_false (fun h => by cases h) fun h => htrouble fun found hfound hstep => ?_
          exact h.1 found hfound (hstep ▸ List.mem_cons_self)

theorem mem_all (step : SaveStep) : step ∈ all := by cases step <;> decide

end SaveStep

namespace FolderState

variable {trouble : Option Trouble} {indented : Bool} {time : String} {catalog : Catalog}
  {folder folder' : FolderState} {fault : Fault}

theorem octets?_eq_some_iff {octets : List UInt8} :
    folder.octets? = some octets ↔ ∃ lock, folder = some ⟨.file octets, lock⟩ := by
  rcases folder with _ | ⟨data, lock⟩
  · simp [octets?]
  · cases data <;> simp [octets?]

theorem ofOctets?_of_load [FloatReader] {octets : List UInt8}
    (hoctets : folder.octets? = some octets) (h : folder.load = .ok catalog) :
    Catalog.ofOctets? octets = some catalog := by
  obtain ⟨lock, rfl⟩ := octets?_eq_some_iff.mp hoctets
  simp only [load] at h
  split at h
  · next hread => rw [hread, Except.ok.inj h]
  · cases h

theorem save_eq_ok_iff : folder.save indented time catalog = (.ok (), folder') ↔
    ∃ entry, folder = some entry ∧ entry.data ≠ .directory ∧
      folder' = some { entry with data := .file (catalog.toOctets indented time) } := by
  cases folder with
  | none => simp [save, saveWith, SaveStep.all, SaveStep.runAll, SaveStep.attempt, SaveStep.run]
  | some entry =>
    obtain ⟨data, lock⟩ := entry
    cases data <;> simp [save, saveWith, SaveStep.all, SaveStep.runAll, SaveStep.attempt,
      SaveStep.run, eq_comm]

theorem octets?_of_save (h : folder.save indented time catalog = (.ok (), folder')) :
    folder'.octets? = some (catalog.toOctets indented time) := by
  obtain ⟨_, _, _, rfl⟩ := save_eq_ok_iff.mp h
  rfl

/-- Whatever the trouble is, it keeps some step from working. -/
theorem saveWith_eq_ok_iff : folder.saveWith trouble indented time catalog = (.ok (), folder') ↔
    trouble = none ∧ folder.save indented time catalog = (.ok (), folder') := by
  unfold saveWith
  rw [SaveStep.runAll_eq_ok_iff]
  refine and_congr_left fun _ => ⟨fun h => ?_, fun h => by simp [h]⟩
  exact Option.eq_none_iff_forall_not_mem.mpr fun found hfound =>
    h found hfound (SaveStep.mem_all found.step)

theorem eq_of_saveWith_error
    (h : (folder.saveWith trouble indented time catalog).1 = .error fault) :
    (folder.saveWith trouble indented time catalog).2 = folder :=
  @SaveStep.folder_of_runAll_error _ _ ⟨folder, [], []⟩ [.create, .write, .flush, .sync] _
    (by decide) h

theorem fault_of_save_error (h : (folder.save indented time catalog).1 = .error fault) :
    fault = .fileAccess :=
  SaveStep.fault_of_runAll_error h

end FolderState

end Rowfile
