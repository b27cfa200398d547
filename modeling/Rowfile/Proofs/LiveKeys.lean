import Rowfile.Proofs.Positions
import Mathlib.Data.List.Induction

/-!
# Live and dead keys

A history of a map is any list of uses, from the map without entries on. A use may fail, and then
leaves the map as far as it had come. The test of a bulk drop has an answer for every entry here;
tests that break off are the subject of `Rowfile.Proofs.BrokenDrops`. After every history the live
half of the map is in order: its keys are distinct, and each leads to its own entry. The dead half
need not be. A key that was dropped in bulk stays recorded, and a use of it then reaches the entry of
another key, or past the end. Keys without an entry are absent to every use throughout a history
exactly if it drops nothing in bulk.
-/
namespace Rowfile.PositionedMap

variable {V : Type}

/-! ## Histories -/

/-- A use of a map. Values are changed and entries are dropped by key, which says everything as long
as the keys are distinct. -/
inductive Use (V : Type) where
  | find (key : String)
  | contains (key : String)
  | insert (key : String) (value : V)
  | amend (key : String) (change : V → V)
  | erase (key : String)
  | rekey (old new : String) (value : V)
  | amendAll (change : String → V → V)
  | retain (keep : String → V → Bool)

def quiet {α : Type} (result : Except LostPosition α × PositionedMap V) :
    Except LostPosition Unit × PositionedMap V :=
  (result.1.map fun _ => (), result.2)

def Use.run : Use V → PositionedMap V → Except LostPosition Unit × PositionedMap V
  | .find key, m => quiet (m.find? key, m)
  | .contains _, m => (.ok (), m)
  | .insert key value, m => quiet (m.insert key value)
  | .amend key change, m => quiet (m.amend key change)
  | .erase key, m => quiet (m.erase key)
  | .rekey old new value, m => quiet (m.rekey old new value)
  | .amendAll change, m => (.ok (), m.mapWithKey change)
  | .retain keep, m => (.ok (), m.retain keep)

def after (history : List (Use V)) : PositionedMap V :=
  history.foldl (fun m use => (use.run m).2) empty

theorem after_concat (history : List (Use V)) (use : Use V) :
    after (history ++ [use]) = (use.run (after history)).2 := by
  simp only [after, List.foldl_append, List.foldl_cons, List.foldl_nil]

/-! ## Live keys -/

theorem getElem?_keys {m : PositionedMap V} {i : Nat} {key : String} :
    m.keys[i]? = some key ↔ ∃ value, m.entries[i]? = some (key, value) := by
  simp [keys, entryKeys]

theorem entryKeys_set_value {entries : List (String × V)} {position : Nat} {entry : String × V}
    (he : entries[position]? = some entry) (value : V) :
    entryKeys (entries.set position (entry.1, value)) = entryKeys entries := by
  obtain ⟨hlt, rfl⟩ := List.getElem?_eq_some_iff.mp he
  rw [entryKeys, List.map_set, ← List.getElem_map Prod.fst (h := by simpa using hlt),
    List.set_getElem_self]

theorem entryKeys_change (change : String → V → V) (entries : List (String × V)) :
    entryKeys (entries.map fun entry => (entry.1, change entry.1 entry.2)) =
      entryKeys entries := by
  rw [entryKeys, List.map_map]
  rfl

/-- Changing the value that a key leads to leaves all keys where they are, whichever entry it is. -/
theorem amend_shape (m : PositionedMap V) (key : String) (change : V → V) :
    ∃ entries, entryKeys entries = m.keys ∧ (m.amend key change).2 = ⟨entries, m.positions⟩ := by
  cases hp : m.position? key with
  | none => exact ⟨m.entries, rfl, by simp only [amend, hp]⟩
  | some position =>
    cases he : m.entries[position]? with
    | none => exact ⟨m.entries, rfl, by simp only [amend, hp, he]⟩
    | some entry =>
      exact ⟨_, entryKeys_set_value he (change entry.2), by simp only [amend, hp, he]⟩

/-- A value is stored at the end, under a key that is not recorded, or all keys stay in place. -/
theorem insert_shape (m : PositionedMap V) (key : String) (value : V) :
    (m.contains key = false ∧ (m.insert key value).2 = m.extend key value) ∨
      ∃ entries, entryKeys entries = m.keys ∧
        (m.insert key value).2 = ⟨entries, m.positions⟩ := by
  cases hp : m.position? key with
  | none =>
    have hfree := contains_eq_false_iff.mpr hp
    exact .inl ⟨hfree, congrArg Prod.snd (insert_eq_extend hfree value)⟩
  | some position =>
    right
    cases he : m.entries[position]? with
    | none => exact ⟨m.entries, rfl, by simp only [insert, hp, he]⟩
    | some entry => exact ⟨_, entryKeys_set_value he value, by simp only [insert, hp, he]⟩

/-- Whether a map is linked is decided by its keys and by where these are recorded. -/
theorem linked_iff {m : PositionedMap V} :
    m.Linked ↔ m.keys.Nodup ∧ ∀ i key, m.keys[i]? = some key → m.position? key = some i := by
  constructor
  · intro h
    refine ⟨h.distinct, fun i key hi => ?_⟩
    obtain ⟨value, he⟩ := getElem?_keys.mp hi
    exact h.placed i _ he
  · rintro ⟨hd, hp⟩
    exact ⟨hd, fun i entry he => hp i entry.1 (getElem?_keys.mpr ⟨entry.2, he⟩)⟩

namespace Linked

variable {m : PositionedMap V}

theorem withEntries (h : m.Linked) {entries : List (String × V)}
    (hkeys : entryKeys entries = m.keys) : Linked ⟨entries, m.positions⟩ := by
  apply linked_iff.mpr
  rw [show keys ⟨entries, m.positions⟩ = m.keys from hkeys]
  exact linked_iff.mp h

/-- Keys without an entry may be recorded anywhere. -/
theorem withPositions (h : m.Linked) {positions : List (String × Nat)}
    (hsame : ∀ key ∈ m.keys, positions.lookup key = m.position? key) :
    Linked ⟨m.entries, positions⟩ := by
  refine ⟨h.distinct, fun i entry he => ?_⟩
  have hkey : entry.1 ∈ m.keys := List.mem_map_of_mem (List.mem_of_getElem? he)
  exact (hsame entry.1 hkey).trans (h.placed i entry he)

theorem getElem?_position (h : m.Linked) {key : String} (hk : key ∈ m.keys) {position : Nat}
    (hp : m.position? key = some position) : m.keys[position]? = some key := by
  obtain ⟨i, hi⟩ := List.mem_iff_getElem?.mp hk
  obtain rfl := Option.some.inj (((linked_iff.mp h).2 i key hi).symm.trans hp)
  exact hi

theorem insert (h : m.Linked) (key : String) (value : V) : (m.insert key value).2.Linked := by
  rcases m.insert_shape key value with ⟨hfree, hm⟩ | ⟨entries, hkeys, hm⟩
  · rw [hm]
    exact h.extend hfree value
  · rw [hm]
    exact h.withEntries hkeys

theorem amend (h : m.Linked) (key : String) (change : V → V) : (m.amend key change).2.Linked := by
  obtain ⟨entries, hkeys, hm⟩ := m.amend_shape key change
  rw [hm]
  exact h.withEntries hkeys

theorem mapWithKey (h : m.Linked) (change : String → V → V) : (m.mapWithKey change).Linked :=
  h.withEntries (entryKeys_change change m.entries)

/-- A key that leads past the end has no entry. -/
theorem not_mem_of_getElem?_eq_none (h : m.Linked) {key : String} {position : Nat}
    (hp : m.position? key = some position) (he : m.entries[position]? = none) :
    key ∉ m.keys := by
  intro hk
  obtain ⟨value, hvalue⟩ := getElem?_keys.mp (h.getElem?_position hk hp)
  rw [hvalue] at he
  cases he

theorem nodup_eraseIdx (h : m.Linked) (position : Nat) :
    (entryKeys (m.entries.eraseIdx position)).Nodup :=
  h.distinct.sublist ((List.eraseIdx_sublist _ _).map Prod.fst)

/-- The entry at a position may be taken out, whichever key led there: those behind it are recorded
anew, and no key before it is the one that is struck. -/
theorem eraseIdx (h : m.Linked) {key : String} {position : Nat}
    (hp : m.position? key = some position) :
    Linked ⟨m.entries.eraseIdx position,
      renumberFrom position (m.entries.eraseIdx position) (unrecord key m.positions)⟩ := by
  have hd := h.nodup_eraseIdx position
  refine ⟨hd, fun i entry hi => ?_⟩
  obtain ⟨hbehind, hbefore⟩ :=
    lookup_renumberFrom hd position (unrecord key m.positions) entry.1
  by_cases hlt : i < position
  · have hplaced : m.position? entry.1 = some i := by
      rw [List.getElem?_eraseIdx, if_pos hlt] at hi
      exact h.placed i entry hi
    have hne : entry.1 ≠ key := by
      intro heq
      rw [heq, hp, Option.some.injEq] at hplaced
      omega
    have hfront : entry.1 ∈ (entryKeys (m.entries.eraseIdx position)).take position := by
      apply List.mem_of_getElem? (i := i)
      rw [List.getElem?_take_of_lt hlt, List.getElem?_map, hi, Option.map_some]
    have hdrop : entry.1 ∉ entryKeys ((m.entries.eraseIdx position).drop position) := by
      rw [entryKeys, List.map_drop]
      exact fun hmem => List.disjoint_take_drop hd (Nat.le_refl position) hfront hmem
    rw [position?, hbefore hdrop, lookup_unrecord, if_neg hne]
    exact hplaced
  · exact hbehind i entry.2 (Nat.le_of_not_lt hlt) hi

theorem erase (h : m.Linked) (key : String) : (m.erase key).2.Linked := by
  cases hp : m.position? key with
  | none => simpa only [PositionedMap.erase, hp] using h
  | some position =>
    cases he : m.entries[position]? with
    | none =>
      simp only [PositionedMap.erase, hp, he]
      apply h.withPositions
      intro other hother
      have hne : other ≠ key := by
        rintro rfl
        exact h.not_mem_of_getElem?_eq_none hp he hother
      rw [lookup_unrecord, if_neg hne, position?]
    | some entry =>
      simp only [PositionedMap.erase, hp, he]
      exact h.eraseIdx hp

/-- A key may be put at a position if no other entry has it. -/
theorem setKey (h : m.Linked) {old new : String} {position : Nat}
    (hp : m.position? old = some position) (hfree : new ∈ m.keys → new = old)
    (hlt : position < m.entries.length) (value : V) :
    Linked ⟨m.entries.set position (new, value),
      record new position (unrecord old m.positions)⟩ := by
  have hkeys : keys ⟨m.entries.set position (new, value),
      record new position (unrecord old m.positions)⟩ = m.keys.set position new := by
    simp only [keys, entryKeys, List.map_set]
  apply linked_iff.mpr
  rw [hkeys]
  constructor
  · by_cases hnew : new ∈ m.keys
    · obtain rfl := hfree hnew
      obtain ⟨_, hown⟩ := List.getElem?_eq_some_iff.mp (h.getElem?_position hnew hp)
      rw [← hown, List.set_getElem_self]
      exact h.distinct
    · exact h.distinct.set hnew
  · intro i key hi
    rw [List.getElem?_set] at hi
    split at hi
    · next heq =>
      obtain rfl := Option.some.inj (((if_pos (by simpa [keys] using hlt)).symm.trans hi))
      rw [position?, lookup_record, if_pos rfl, heq]
    · next hne =>
      have hplaced := (linked_iff.mp h).2 i key hi
      have hold : key ≠ old := by
        rintro rfl
        exact hne (Option.some.inj (hp.symm.trans hplaced))
      have hother : key ≠ new := by
        rintro rfl
        exact hold (hfree (List.mem_of_getElem? hi))
      rw [position?, lookup_record, if_neg hother, lookup_unrecord, if_neg hold]
      exact hplaced

theorem rekeyed (h : m.Linked) (old new : String) (value : V) :
    (m.rekey old new value).2.Linked := by
  cases hp : m.position? old with
  | none => simpa only [PositionedMap.rekey, hp] using h
  | some position =>
    by_cases htaken : new ≠ old ∧ m.contains new = true
    · simpa only [PositionedMap.rekey, hp, if_pos htaken] using h
    · have hfree : new ∈ m.keys → new = old := by
        intro hnew
        by_contra hne
        exact htaken ⟨hne, h.contains_of_mem hnew⟩
      by_cases hlt : position < m.entries.length
      · simp only [PositionedMap.rekey, hp, if_neg htaken, if_pos hlt]
        exact h.setKey hp hfree hlt value
      · simp only [PositionedMap.rekey, hp, if_neg htaken, if_neg hlt]
        have hold := h.not_mem_of_getElem?_eq_none hp
          (List.getElem?_eq_none (Nat.le_of_not_lt hlt))
        apply h.withPositions
        intro key hkey
        have hne : key ≠ old := fun heq => hold (heq ▸ hkey)
        have hne' : key ≠ new := fun heq => hne (heq.trans (hfree (heq ▸ hkey)))
        rw [lookup_record, if_neg hne', lookup_unrecord, if_neg hne, position?]

end Linked

/-- Every use keeps a map linked, also one that fails. -/
theorem Linked.run {m : PositionedMap V} (h : m.Linked) (use : Use V) : (use.run m).2.Linked := by
  cases use with
  | find key => exact h
  | contains key => exact h
  | insert key value => exact h.insert key value
  | amend key change => exact h.amend key change
  | erase key => exact h.erase key
  | rekey old new value => exact h.rekeyed old new value
  | amendAll change => exact h.mapWithKey change
  | retain keep => exact h.retain keep

theorem linked_after (history : List (Use V)) : (after history).Linked := by
  induction history using List.reverseRecOn with
  | nil => exact linked_empty
  | append_singleton history use ih =>
    rw [after_concat]
    exact ih.run use

/-! ## Dead keys -/

/-- Keys without an entry are absent to every use, and no use fails. -/
structure DeadKeysAbsent (m : PositionedMap V) : Prop where
  contains : ∀ key, m.contains key = true → key ∈ m.keys
  find? : ∀ key value, m.find? key = .ok (some value) → key ∈ m.keys
  insert : ∀ key ∉ m.keys, ∀ value, (m.insert key value).1 = .ok none ∧
    (m.insert key value).2.entries = m.entries ++ [(key, value)]
  erase : ∀ key ∉ m.keys, m.erase key = (.ok none, m)
  rekey : ∀ old ∉ m.keys, ∀ new value, m.rekey old new value = (.ok false, m)
  run : ∀ use : Use V, (use.run m).1 = .ok ()

/-- No key is recorded that has no entry. -/
def Settled (m : PositionedMap V) : Prop :=
  ∀ key, m.contains key = true → key ∈ m.keys

theorem settled_empty : (empty : PositionedMap V).Settled := by
  intro key hc
  cases hc

namespace Settled

variable {m : PositionedMap V}

theorem position?_eq_none (h : m.Settled) {key : String} (hk : key ∉ m.keys) :
    m.position? key = none := by
  apply contains_eq_false_iff.mp
  exact Bool.eq_false_iff.mpr fun hc => hk (h key hc)

/-- In a linked map in which nothing else is recorded every recorded position is that of an entry of
the key. -/
theorem getElem?_position (h : m.Settled) (hl : m.Linked) {key : String} {position : Nat}
    (hp : m.position? key = some position) :
    ∃ value, m.entries[position]? = some (key, value) := by
  have hk : key ∈ m.keys := h key (contains_iff.mpr ⟨position, hp⟩)
  exact getElem?_keys.mp (hl.getElem?_position hk hp)

theorem run_eq_ok (h : m.Settled) (hl : m.Linked) (use : Use V) : (use.run m).1 = .ok () := by
  have led : ∀ key, m.position? key = none ∨
      ∃ position value, m.position? key = some position ∧
        m.entries[position]? = some (key, value) := by
    intro key
    cases hp : m.position? key with
    | none => exact .inl rfl
    | some position =>
      obtain ⟨value, he⟩ := h.getElem?_position hl hp
      exact .inr ⟨position, value, rfl, he⟩
  cases use with
  | contains | amendAll | retain => rfl
  | find key | insert key | amend key | erase key =>
    rcases led key with hp | ⟨position, value, hp, he⟩
    · simp only [Use.run, quiet, PositionedMap.find?, PositionedMap.insert, PositionedMap.amend,
        PositionedMap.erase, hp, Except.map]
    · simp only [Use.run, quiet, PositionedMap.find?, PositionedMap.insert, PositionedMap.amend,
        PositionedMap.erase, hp, he, Except.map]
  | rekey old new value =>
    rcases led old with hp | ⟨position, value, hp, he⟩
    · simp only [Use.run, quiet, PositionedMap.rekey, hp, Except.map]
    · have hlt : position < m.entries.length := (List.getElem?_eq_some_iff.mp he).choose
      simp only [Use.run, quiet, PositionedMap.rekey, hp, if_pos hlt]
      split <;> rfl

/-- A map in which nothing else is recorded treats keys without an entry as absent. -/
theorem deadKeysAbsent (h : m.Settled) (hl : m.Linked) : m.DeadKeysAbsent where
  contains := h
  find? key value hfind := by
    by_contra hk
    rw [find?_of_position?_eq_none (h.position?_eq_none hk)] at hfind
    cases hfind
  insert key hk value := by
    rw [insert_eq_extend (contains_eq_false_iff.mpr (h.position?_eq_none hk))]
    exact ⟨rfl, rfl⟩
  erase key hk := by simp only [PositionedMap.erase, h.position?_eq_none hk]
  rekey old hk new value := by simp only [PositionedMap.rekey, h.position?_eq_none hk]
  run := h.run_eq_ok hl

/-! ### What keeps a map settled -/

theorem withEntries (h : m.Settled) {entries : List (String × V)}
    (hkeys : entryKeys entries = m.keys) : Settled ⟨entries, m.positions⟩ := by
  intro key hc
  rw [show keys ⟨entries, m.positions⟩ = m.keys from hkeys]
  exact h key hc

theorem erase (h : m.Settled) (hl : m.Linked) (key : String) : (m.erase key).2.Settled := by
  cases hp : m.position? key with
  | none => simpa only [PositionedMap.erase, hp] using h
  | some position =>
    obtain ⟨value, he⟩ := h.getElem?_position hl hp
    have hd := hl.nodup_eraseIdx position
    simp only [PositionedMap.erase, hp, he]
    intro other hc
    by_contra hother
    -- The other key is not recorded anew: it was recorded before, for an entry that is still there.
    have hbehind : other ∉ entryKeys ((m.entries.eraseIdx position).drop position) := fun hmem =>
      hother (((List.drop_sublist _ _).map Prod.fst).subset hmem)
    obtain ⟨i, hi⟩ := contains_iff.mp hc
    rw [position?, (lookup_renumberFrom hd position _ other).2 hbehind, lookup_unrecord] at hi
    split at hi
    · cases hi
    · next hne =>
      obtain ⟨other_value, hother_entry⟩ := h.getElem?_position hl hi
      have hapart : i ≠ position := by
        rintro rfl
        rw [he] at hother_entry
        exact hne (congrArg Prod.fst (Option.some.inj hother_entry)).symm
      have hstays : (other, other_value) ∈ m.entries.eraseIdx position :=
        List.mem_eraseIdx_iff_getElem?.mpr ⟨i, hapart, hother_entry⟩
      exact hother (List.mem_map_of_mem (f := Prod.fst) hstays)

theorem rekey (h : m.Settled) (hl : m.Linked) (old new : String) (value : V) :
    (m.rekey old new value).2.Settled := by
  by_cases hold : old ∈ m.keys
  · by_cases hnew : new = old ∨ m.contains new = false
    · obtain ⟨old_value, hentry⟩ := getElem?_keys.mp (List.mem_iff_getElem?.mp hold).choose_spec
      obtain ⟨m', hrekey, _, hentries, hcontains⟩ :=
        hl.rekey (List.mem_of_getElem? hentry) hnew value
      rw [hrekey]
      intro key hc
      rw [keys, hentries, entryKeys_exchange]
      apply List.mem_map.mpr
      rcases (hcontains key).mp hc with rfl | ⟨hne, hrecorded⟩
      · exact ⟨old, hold, if_pos rfl⟩
      · exact ⟨key, h key hrecorded, if_neg hne⟩
    · have htaken : new ≠ old ∧ m.contains new = true := by
        rw [not_or, Bool.not_eq_false] at hnew
        exact hnew
      obtain ⟨position, hp⟩ := contains_iff.mp (hl.contains_of_mem hold)
      simpa only [PositionedMap.rekey, hp, if_pos htaken] using h
  · simpa only [PositionedMap.rekey, h.position?_eq_none hold] using h

theorem insert (h : m.Settled) (key : String) (value : V) : (m.insert key value).2.Settled := by
  rcases m.insert_shape key value with ⟨_, hm⟩ | ⟨entries, hkeys, hm⟩
  · rw [hm]
    intro other hc
    rw [keys_extend, List.mem_append, List.mem_singleton]
    rcases (contains_extend m key other value).mp hc with rfl | hrecorded
    · exact .inr rfl
    · exact .inl (h other hrecorded)
  · rw [hm]
    exact h.withEntries hkeys

theorem amend (h : m.Settled) (key : String) (change : V → V) :
    (m.amend key change).2.Settled := by
  obtain ⟨entries, hkeys, hm⟩ := m.amend_shape key change
  rw [hm]
  exact h.withEntries hkeys

theorem mapWithKey (h : m.Settled) (change : String → V → V) : (m.mapWithKey change).Settled :=
  h.withEntries (entryKeys_change change m.entries)

/-- A test that every entry passes leaves the map settled. -/
theorem retain (h : m.Settled) (hl : m.Linked) {keep : String → V → Bool}
    (hkeep : ∀ entry ∈ m.entries, keep entry.1 entry.2 = true) : (m.retain keep).Settled := by
  intro key hc
  rw [hl.contains_retain] at hc
  rw [keys, entries_retain, List.filter_eq_self.mpr hkeep]
  exact h key hc

/-- Every use keeps a linked map settled, unless it drops an entry in bulk. -/
theorem run (h : m.Settled) (hl : m.Linked) {use : Use V}
    (hkeep : ∀ keep, use = .retain keep → ∀ entry ∈ m.entries, keep entry.1 entry.2 = true) :
    (use.run m).2.Settled := by
  cases use with
  | find key => exact h
  | contains key => exact h
  | insert key value => exact h.insert key value
  | amend key change => exact h.amend key change
  | erase key => exact h.erase hl key
  | rekey old new value => exact h.rekey hl old new value
  | amendAll change => exact h.mapWithKey change
  | retain keep => exact h.retain hl (hkeep keep rfl)

end Settled

/-- An entry that is dropped in bulk leaves its key recorded. -/
theorem Linked.not_settled_retain {m : PositionedMap V} (h : m.Linked) {keep : String → V → Bool}
    {entry : String × V} (he : entry ∈ m.entries) (hdrop : keep entry.1 entry.2 = false) :
    ¬(m.retain keep).Settled := by
  intro hsettled
  have hrecorded : (m.retain keep).contains entry.1 = true := by
    rw [h.contains_retain]
    exact h.contains_of_mem (List.mem_map_of_mem he)
  obtain ⟨other, hother, hkey⟩ := List.mem_map.mp (hsettled entry.1 hrecorded)
  obtain ⟨hmem, hkept⟩ := List.mem_filter.mp hother
  obtain rfl := List.inj_on_of_nodup_map h.distinct hmem he hkey
  rw [hdrop] at hkept
  cases hkept

/-- Keys without an entry are absent to every use, throughout a history, if and only if every test
by which the history drops in bulk is passed by all entries that it finds. -/
theorem dead_keys_absent_iff (history : List (Use V)) :
    (∀ front, front <+: history → (after front).DeadKeysAbsent) ↔
      ∀ front keep, front ++ [.retain keep] <+: history →
        ∀ entry ∈ (after front).entries, keep entry.1 entry.2 = true := by
  constructor
  · intro habsent front keep hprefix entry he
    by_contra hdrop
    have hsettled := (habsent _ hprefix).contains
    rw [after_concat] at hsettled
    exact (linked_after front).not_settled_retain he (Bool.eq_false_iff.mpr hdrop) hsettled
  · intro hkeep front hprefix
    apply Settled.deadKeysAbsent _ (linked_after front)
    induction front using List.reverseRecOn with
    | nil => exact settled_empty
    | append_singleton front use ih =>
      have hfront := (List.prefix_append front [use]).trans hprefix
      rw [after_concat]
      refine (ih hfront).run (linked_after front) ?_
      rintro keep rfl
      exact hkeep front keep hprefix

/-- A key that was dropped in bulk is still recorded, and it cannot be stored again. -/
theorem dropped_key_recorded :
    (after [.insert "a" 1, .retain fun _ _ => false] : PositionedMap Nat).keys = [] ∧
      (after [.insert "a" 1, .retain fun _ _ => false] : PositionedMap Nat).contains "a" = true ∧
      ((after [.insert "a" 1, .retain fun _ _ => false] : PositionedMap Nat).insert "a" 2).1 =
        .error .lost := by
  decide +kernel

end Rowfile.PositionedMap
