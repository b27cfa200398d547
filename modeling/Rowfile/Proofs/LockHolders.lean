import Rowfile.Proofs.Reopening

/-!
# The lock of a data file and its holder

The lock belongs to the databases that were opened with it: it is held if and only if one of them is
open, and there is at most one. Closing and opening preserve this. Opening takes the lock before the
data file is loaded and gives it up again if that fails. What an opening can come to is said once,
in `Sessions.Opening`, and everything about openings is derived from that.
-/
namespace Rowfile

namespace FolderState

variable {state : FolderState}

def lock? (state : FolderState) : Option LockEntry := state.map Folder.lock

/-- What stands at the path of the data file, if the folder is there. -/
def data? (state : FolderState) : Option DataEntry := state.map Folder.data

/-- Folders with the same data file differ in the lock alone. -/
theorem eq_or_exists_of_data?_eq {other : FolderState} (h : state.data? = other.data?) :
    state = other ∨ ∃ data lock lock', state = some ⟨data, lock⟩ ∧ other = some ⟨data, lock'⟩ := by
  rcases state with _ | ⟨data, lock⟩ <;> rcases other with _ | ⟨data', lock'⟩
  · exact .inl rfl
  · cases h
  · cases h
  · obtain rfl : data = data' := Option.some.inj h
    exact .inr ⟨data, lock, lock', rfl, rfl⟩

theorem load_congr [FloatReader] {other : FolderState} (h : state.data? = other.data?) :
    state.load = other.load := by
  obtain rfl | ⟨data, lock, lock', rfl, rfl⟩ := eq_or_exists_of_data?_eq h
  · rfl
  · cases data <;> rfl

theorem octets?_congr {other : FolderState} (h : state.data? = other.data?) :
    state.octets? = other.octets? := by
  obtain rfl | ⟨data, lock, lock', rfl, rfl⟩ := eq_or_exists_of_data?_eq h
  · rfl
  · cases data <;> rfl

@[simp]
theorem lock?_freeLock (state : FolderState) :
    state.freeLock.lock? = state.lock?.map fun _ => .free := by
  cases state <;> rfl

@[simp]
theorem data?_freeLock (state : FolderState) : state.freeLock.data? = state.data? := by
  cases state <;> rfl

@[simp]
theorem lock?_setData (state : FolderState) (data : DataEntry) :
    (state.setData data).lock? = state.lock? := by
  cases state <;> rfl

theorem lock?_of_save {indented : Bool} {time : String} {catalog : Catalog} {state' : FolderState}
    (h : state.save indented time catalog = (.ok (), state')) : state'.lock? = state.lock? := by
  obtain ⟨entry, rfl, _, rfl⟩ := save_eq_ok_iff.mp h
  rfl

theorem takeLock_of_held (h : state.lock? = some .held) : state.takeLock = .error .fileLocked := by
  obtain _ | ⟨data, lock⟩ := state
  · cases h
  · obtain rfl : lock = .held := Option.some.inj h
    rfl

theorem takeLock_of_not_held (hpresent : state.lock?.isSome) (h : state.lock? ≠ some .held) :
    ∃ taken, state.takeLock = .ok taken ∧ taken.lock? = some .held ∧ taken.data? = state.data? := by
  obtain _ | ⟨data, lock⟩ := state
  · cases hpresent
  · cases lock with
    | held => exact absurd rfl h
    | absent | free => exact ⟨some ⟨data, .held⟩, rfl, rfl, rfl⟩

theorem takeLock_of_free (h : state.lock? = some .free) : ∃ taken, state.takeLock = .ok taken := by
  obtain _ | ⟨data, lock⟩ := state
  · cases h
  · obtain rfl : lock = .free := Option.some.inj h
    exact ⟨_, rfl⟩

/-- A data file that cannot be loaded is no lock that is held. -/
theorem ne_fileLocked_of_load [FloatReader] {fault : Fault} (h : state.load = .error fault) :
    fault ≠ .fileLocked := by
  rintro rfl
  unfold load at h
  split at h
  · split at h <;> cases h
  · cases h
  · cases h

end FolderState

/-! ## Slots -/

namespace Sessions

variable {world : Sessions} {slot other : String} {session : Session}

/-- A slot holds a database that was opened with the lock. -/
def Locks (world : Sessions) (slot : String) : Prop :=
  ∃ session, world.session? slot = some session ∧ session.locked = true

theorem lookup_without_of_ne (h : other ≠ slot) (slots : List (String × Session)) :
    (without slot slots).lookup other = slots.lookup other := by
  induction slots with
  | nil => rfl
  | cons entry slots ih =>
    by_cases hname : entry.1 = slot
    · have hother : other ≠ entry.1 := hname ▸ h
      rw [KeyedMap.lookup_cons_eq, if_neg hother, ← ih]
      exact congrArg (List.lookup other) (List.filter_cons_of_neg (by simp [hname]))
    · rw [KeyedMap.lookup_cons_eq, ← ih, ← KeyedMap.lookup_cons_eq]
      exact congrArg (List.lookup other) (List.filter_cons_of_pos (by simp [hname]))

theorem session?_put_of_ne (h : other ≠ slot) (world : Sessions) (session : Session) :
    (world.put slot session).session? other = world.session? other := by
  rw [session?, put, KeyedMap.lookup_cons_eq, if_neg h, lookup_without_of_ne h, session?]

theorem session?_close (world : Sessions) (slot : String) :
    (world.close slot).2.session? slot = none := by
  unfold close
  split
  · assumption
  · exact session?_without _ _ _

theorem session?_close_of_ne (h : other ≠ slot) (world : Sessions) :
    (world.close slot).2.session? other = world.session? other := by
  unfold close
  split
  · rfl
  · exact lookup_without_of_ne h _

theorem locks_close_iff : (world.close slot).2.Locks other ↔ other ≠ slot ∧ world.Locks other := by
  unfold Locks
  by_cases h : other = slot
  · subst h
    simp only [session?_close, reduceCtorEq, false_and, exists_false, ne_eq, not_true_eq_false]
  · simp only [session?_close_of_ne h, ne_eq, h, not_false_eq_true, true_and]

theorem folder_close_of_locks (h : world.Locks slot) :
    (world.close slot).2.folder = world.folder.freeLock := by
  obtain ⟨session, hsession, hlocked⟩ := h
  simp only [close, hsession, hlocked, if_true]

theorem folder_close_of_not_locks (h : ¬world.Locks slot) :
    (world.close slot).2.folder = world.folder := by
  cases hsession : world.session? slot with
  | none => simp only [close, hsession]
  | some session =>
    have hlocked : session.locked = false :=
      Bool.eq_false_iff.mpr fun hlocked => h ⟨session, hsession, hlocked⟩
    simp only [close, hsession, hlocked, Bool.false_eq_true, if_false]

@[simp]
theorem data?_close (world : Sessions) (slot : String) :
    (world.close slot).2.folder.data? = world.folder.data? := by
  by_cases h : world.Locks slot
  · rw [folder_close_of_locks h, FolderState.data?_freeLock]
  · rw [folder_close_of_not_locks h]

theorem load_close [FloatReader] (world : Sessions) (slot : String) :
    (world.close slot).2.folder.load = world.folder.load :=
  FolderState.load_congr (data?_close world slot)

theorem locks_put_iff : (world.put slot session).Locks other ↔
    if other = slot then session.locked = true else world.Locks other := by
  unfold Locks
  by_cases h : other = slot
  · subst h
    simp [session?_put]
  · simp only [session?_put_of_ne h, h, if_false]

theorem session?_of_close (h : (world.close slot).2.session? other = some session) :
    world.session? other = some session := by
  by_cases hother : other = slot
  · rw [hother, session?_close] at h
    cases h
  · rwa [session?_close_of_ne hother] at h

theorem eq_or_session?_of_put {opened : Session}
    (h : (world.put slot opened).session? other = some session) :
    (other = slot ∧ session = opened) ∨ (other ≠ slot ∧ world.session? other = some session) := by
  by_cases hother : other = slot
  · rw [hother, session?_put] at h
    exact .inl ⟨hother, (Option.some.inj h).symm⟩
  · rw [session?_put_of_ne hother] at h
    exact .inr ⟨hother, h⟩

/-! ## Opening -/

section
variable [FloatReader]

/-- What opening a slot that has been closed can come to: the lock is refused, or the data file is
not loaded and the lock is given up again, or the slot holds what was loaded. -/
inductive Opening (closed : Sessions) (slot : String) (indented locked : Bool) :
    Except Fault Unit × Sessions → Prop
  | refused (asked : locked = true) (held : closed.folder.lock? = some .held) :
      Opening closed slot indented locked (.error .fileLocked, closed)
  | failed {fault : Fault} {folder : FolderState}
      (taken : locked = true → closed.folder.lock? ≠ some .held)
      (unread : closed.folder.load = .error fault) (data : folder.data? = closed.folder.data?)
      (lock : folder.lock? = if locked then some .free else closed.folder.lock?) :
      Opening closed slot indented locked (.error fault, { closed with folder := folder })
  | opened {catalog : Catalog} {folder : FolderState}
      (taken : locked = true → closed.folder.lock? ≠ some .held)
      (loaded : closed.folder.load = .ok catalog) (data : folder.data? = closed.folder.data?)
      (lock : folder.lock? = if locked then some .held else closed.folder.lock?) :
      Opening closed slot indented locked
        (.ok (), ({ closed with folder := folder } : Sessions).put slot ⟨catalog, indented, locked⟩)

theorem opening (slot : String) (indented locked : Bool)
    (hpresent : (world.close slot).2.folder.lock?.isSome) :
    Opening (world.close slot).2 slot indented locked (world.openFile slot indented locked) := by
  unfold openFile
  generalize (world.close slot).2 = closed at hpresent ⊢
  cases locked with
  | false =>
    simp only [Bool.false_eq_true, if_false, start]
    cases hload : closed.folder.load with
    | error fault => exact .failed (fun h => by cases h) hload rfl rfl
    | ok catalog => exact .opened (fun h => by cases h) hload rfl rfl
  | true =>
    by_cases hheld : closed.folder.lock? = some .held
    · simp only [if_true, FolderState.takeLock_of_held hheld]
      exact .refused rfl hheld
    · obtain ⟨taken, htake, hlock, hdata⟩ := FolderState.takeLock_of_not_held hpresent hheld
      have hsame := FolderState.load_congr hdata
      simp only [if_true, htake, start]
      cases hload : taken.load with
      | error fault =>
        refine .failed (fun _ => hheld) (hsame ▸ hload) ?_ ?_
        · rw [FolderState.data?_freeLock, hdata]
        · rw [FolderState.lock?_freeLock, hlock]
          rfl
      | ok catalog => exact .opened (fun _ => hheld) (hsame ▸ hload) hdata hlock

theorem Opening.data? {closed : Sessions} {indented locked : Bool}
    {result : Except Fault Unit × Sessions} (h : Opening closed slot indented locked result) :
    result.2.folder.data? = closed.folder.data? := by
  cases h with
  | refused => rfl
  | failed _ _ data _ => exact data
  | opened _ _ data _ => exact data

/-- A database that is open after a slot was opened was open before, or it is the one in the slot
and has just been loaded. -/
theorem Opening.session?_or {closed : Sessions} {indented locked : Bool}
    {result : Except Fault Unit × Sessions} (h : Opening closed slot indented locked result)
    (hsession : result.2.session? other = some session) :
    closed.session? other = some session ∨
      (other = slot ∧ session.locked = locked ∧ closed.folder.load = .ok session.catalog) := by
  cases h with
  | refused | failed => exact .inl hsession
  | opened _ loaded _ _ =>
    rcases eq_or_session?_of_put hsession with ⟨hother, rfl⟩ | ⟨_, hkept⟩
    · exact .inr ⟨hother, rfl, loaded⟩
    · exact .inl hkept

theorem Opening.fileLocked_iff {closed : Sessions} {indented locked : Bool}
    {result : Except Fault Unit × Sessions} (h : Opening closed slot indented locked result) :
    result.1 = .error .fileLocked ↔ locked = true ∧ closed.folder.lock? = some .held := by
  cases h with
  | refused asked held => exact iff_of_true rfl ⟨asked, held⟩
  | failed taken unread _ _ =>
    refine iff_of_false (fun hfault => ?_) fun ⟨asked, held⟩ => taken asked held
    exact FolderState.ne_fileLocked_of_load unread (Except.error.inj hfault)
  | opened taken _ _ _ =>
    exact iff_of_false (fun hfault => by cases hfault) fun ⟨asked, held⟩ => taken asked held

/-- An opening that failed for another reason than the lock has given the lock up. -/
theorem Opening.lock?_of_failed {closed : Sessions} {indented : Bool}
    {result : Except Fault Unit × Sessions} (h : Opening closed slot indented true result)
    {fault : Fault} (hfault : result.1 = .error fault) (hother : fault ≠ .fileLocked) :
    result.2.folder.lock? = some .free := by
  cases h with
  | refused => exact absurd (Except.error.inj hfault).symm hother
  | failed _ _ _ lock => exact lock
  | opened => cases hfault

theorem Opening.opened_of_ok {closed : Sessions} {indented locked : Bool}
    {result : Except Fault Unit × Sessions} (h : Opening closed slot indented locked result)
    (hok : result.1 = .ok ()) : ∃ catalog, closed.folder.load = .ok catalog ∧
      result.2.session? slot = some ⟨catalog, indented, locked⟩ := by
  cases h with
  | refused | failed => cases hok
  | opened _ loaded _ _ => exact ⟨_, loaded, session?_put _ _ _⟩

theorem Opening.ok_of_load {closed : Sessions} {indented locked : Bool}
    {result : Except Fault Unit × Sessions} (h : Opening closed slot indented locked result)
    (hfree : closed.folder.lock? ≠ some .held) {catalog : Catalog}
    (hload : closed.folder.load = .ok catalog) : result.1 = .ok () := by
  cases h with
  | refused _ held => exact absurd held hfree
  | failed _ unread _ _ => cases hload.symm.trans unread
  | opened => rfl

end

/-! ## The lock and its holder -/

/-- The lock is held exactly while a database that was opened with it is open, and there is at most
one such database. -/
structure Guarded (world : Sessions) : Prop where
  present : world.folder.lock?.isSome
  held : world.folder.lock? = some .held ↔ ∃ slot, world.Locks slot
  alone : ∀ {slot other}, world.Locks slot → world.Locks other → slot = other

namespace Guarded

/-- A change that leaves the lock and its holders alone. -/
theorem congr (h : world.Guarded) {world' : Sessions}
    (hlock : world'.folder.lock? = world.folder.lock?)
    (hlocks : ∀ slot, world'.Locks slot ↔ world.Locks slot) : world'.Guarded where
  present := hlock ▸ h.present
  held := by simp only [hlock, hlocks, h.held]
  alone hslot hother := h.alone ((hlocks _).mp hslot) ((hlocks _).mp hother)

/-- Closing the holder of the lock leaves no other. -/
theorem not_locks_close (h : world.Guarded) (hslot : world.Locks slot) (other : String) :
    ¬(world.close slot).2.Locks other := fun hother =>
  (locks_close_iff.mp hother).1 (h.alone (locks_close_iff.mp hother).2 hslot)

theorem lock?_close (h : world.Guarded) (hslot : world.Locks slot) :
    (world.close slot).2.folder.lock? = some .free := by
  obtain ⟨lock, hlock⟩ := Option.isSome_iff_exists.mp h.present
  rw [folder_close_of_locks hslot, FolderState.lock?_freeLock, hlock, Option.map_some]

theorem of_free (hlock : world.folder.lock? = some .free) (hnone : ∀ slot, ¬world.Locks slot) :
    world.Guarded where
  present := by rw [hlock]; rfl
  held := by simp only [hlock, Option.some.injEq, reduceCtorEq, hnone, exists_false]
  alone hslot := absurd hslot (hnone _)

theorem of_held (slot : String) (hlock : world.folder.lock? = some .held)
    (hlocks : ∀ other, world.Locks other ↔ other = slot) : world.Guarded where
  present := by rw [hlock]; rfl
  held := by simp only [hlock, hlocks, exists_eq]
  alone hfirst hsecond := ((hlocks _).mp hfirst).trans ((hlocks _).mp hsecond).symm

theorem close (h : world.Guarded) (slot : String) : (world.close slot).2.Guarded := by
  by_cases hslot : world.Locks slot
  · exact of_free (h.lock?_close hslot) (h.not_locks_close hslot)
  · refine h.congr (by rw [folder_close_of_not_locks hslot]) fun other => ?_
    rw [locks_close_iff, and_iff_right_iff_imp]
    rintro hother rfl
    exact hslot hother

/-- Once a slot is closed, the lock is held for one of the others. -/
theorem held_close_iff (h : world.Guarded) :
    (world.close slot).2.folder.lock? = some .held ↔ ∃ other ≠ slot, world.Locks other := by
  simp only [(h.close slot).held, locks_close_iff]

theorem not_locks (h : world.Guarded) (hheld : world.folder.lock? ≠ some .held) (slot : String) :
    ¬world.Locks slot := fun hslot => hheld (h.held.mpr ⟨slot, hslot⟩)

theorem of_opening [FloatReader] (h : world.Guarded) (hfree : ¬world.Locks slot) {indented locked : Bool}
    {result : Except Fault Unit × Sessions} (hopening : Opening world slot indented locked result) :
    result.2.Guarded := by
  cases hopening with
  | refused => exact h
  | failed taken _ _ hlock =>
    cases locked with
    | false => exact h.congr hlock fun _ => Iff.rfl
    | true => exact of_free hlock (h.not_locks (taken rfl))
  | opened taken _ _ hlock =>
    cases locked with
    | false =>
      refine h.congr hlock fun other => ?_
      rw [locks_put_iff]
      split
      · next hother => exact hother ▸ iff_of_false Bool.false_ne_true hfree
      · exact Iff.rfl
    | true =>
      have hnone := h.not_locks (taken rfl)
      refine of_held slot hlock fun other => ?_
      rw [locks_put_iff]
      split
      · next hother => exact iff_of_true rfl hother
      · next hother => exact iff_of_false (hnone other) hother

theorem openFile [FloatReader] (h : world.Guarded) (slot : String) (indented locked : Bool) :
    (world.openFile slot indented locked).2.Guarded :=
  (h.close slot).of_opening (fun hslot => (locks_close_iff.mp hslot).1 rfl)
    (opening slot indented locked (h.close slot).present)

end Guarded

end Sessions

end Rowfile
