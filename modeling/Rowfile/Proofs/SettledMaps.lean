import Rowfile.Proofs.LiveKeys
import Rowfile.Proofs.Storing

/-!
# Maps that drop nothing in bulk

Tables, indexes, columns and fields are kept in maps of distinct keys, and nothing is ever dropped
from these in bulk. A map with recorded positions stands for such a map when it has the same entries,
records each where it stands, and records nothing else. Then no use of it reaches past the end: each
answers as the map of distinct keys does and leaves a map that stands for the one after the use.

Bulk drops are no uses here, since a map does not stand for anything after one that drops an entry. So
a record that a caller has dropped fields from in bulk is beyond these maps.
-/
namespace Rowfile

variable {V : Type}

namespace KeyedMap

/-- Where the entry of a key stands, setting its value is setting the entry there. -/
theorem set_eq_setEntry {key : String} {old : V} {entries : List (String × V)} {position : Nat}
    (hd : (entryKeys entries).Nodup) (he : entries[position]? = some (key, old)) (value : V) :
    entries.set position (key, value) = setEntry key value entries := by
  induction entries generalizing position with
  | nil => simp at he
  | cons first rest ih =>
    obtain ⟨hfirst, hrest⟩ := List.nodup_cons.mp hd
    cases position with
    | zero =>
      obtain rfl : first = (key, old) := by simpa using he
      simp [setEntry]
    | succ position =>
      have he' : rest[position]? = some (key, old) := by simpa using he
      have hne : first.1 ≠ key := fun eq =>
        hfirst (List.mem_map.mpr ⟨_, List.mem_of_getElem? he', eq.symm⟩)
      rw [List.set_cons_succ, setEntry, if_neg hne, ih hrest he']

/-- Where the entry of a key stands, leaving the key out is taking out the entry there. -/
theorem eraseIdx_eq_filter {key : String} {value : V} {entries : List (String × V)}
    {position : Nat} (hd : (entryKeys entries).Nodup)
    (he : entries[position]? = some (key, value)) :
    entries.eraseIdx position = entries.filter fun entry => entry.1 != key := by
  induction entries generalizing position with
  | nil => simp at he
  | cons first rest ih =>
    obtain ⟨hfirst, hrest⟩ := List.nodup_cons.mp hd
    cases position with
    | zero =>
      obtain rfl : first = (key, value) := by simpa using he
      have hkeep : ∀ entry ∈ rest, (entry.1 != key) = true := fun entry hm =>
        bne_iff_ne.mpr fun eq => hfirst (List.mem_map.mpr ⟨entry, hm, eq⟩)
      rw [List.eraseIdx_zero, List.tail_cons, List.filter_cons_of_neg (by simp),
        List.filter_eq_self.mpr hkeep]
    | succ position =>
      have he' : rest[position]? = some (key, value) := by simpa using he
      have hne : (first.1 != key) = true := bne_iff_ne.mpr fun eq =>
        hfirst (List.mem_map.mpr ⟨_, List.mem_of_getElem? he', eq.symm⟩)
      rw [List.eraseIdx_cons_succ, ih hrest he', List.filter_cons, if_pos hne]

end KeyedMap

namespace PositionedMap

structure StandsFor (p : PositionedMap V) (m : KeyedMap V) : Prop where
  entries : p.entries = m.entries
  linked : p.Linked
  settled : p.Settled

theorem standsFor_empty : (empty : PositionedMap V).StandsFor .empty :=
  ⟨rfl, linked_empty, settled_empty⟩

/-- Every use of a map but dropping in bulk succeeds, answers as the map of distinct keys does, and
leaves a map that stands for the one after the use. -/
structure UsedAlike (p : PositionedMap V) (m : KeyedMap V) : Prop where
  find? : ∀ key, p.find? key = .ok (m.find? key)
  contains : ∀ key, p.contains key = m.contains key
  insert : ∀ key value, ∃ p', p.insert key value = (.ok (m.find? key), p') ∧
    p'.StandsFor (m.insert key value)
  amend : ∀ key change, ∃ p', p.amend key change = (.ok ((m.find? key).map change), p') ∧
    p'.StandsFor (((m.find? key).map fun value => m.insert key (change value)).getD m)
  erase : ∀ key, ∃ p', p.erase key = (.ok (m.find? key), p') ∧ p'.StandsFor (m.erase key)
  mapWithKey : ∀ change, (p.mapWithKey change).StandsFor (m.mapWithKey change)

namespace StandsFor

variable {p : PositionedMap V} {m : KeyedMap V}

/-- A key is recorded where its entry stands, or has neither a record nor an entry. -/
theorem position?_cases (h : p.StandsFor m) (key : String) :
    (p.position? key = none ∧ m.find? key = none) ∨
      ∃ position value, p.position? key = some position ∧
        p.entries[position]? = some (key, value) ∧ m.find? key = some value := by
  cases hp : p.position? key with
  | none =>
    refine .inl ⟨rfl, KeyedMap.contains_eq_false_iff.mp (Bool.eq_false_iff.mpr fun hc => ?_)⟩
    have hkey : key ∈ p.keys := by
      rw [keys, h.entries]
      exact KeyedMap.find?_isSome.mp (KeyedMap.contains_iff.mp hc)
    have hrecorded := h.linked.contains_of_mem hkey
    rw [contains_eq_false_iff.mpr hp] at hrecorded
    cases hrecorded
  | some position =>
    obtain ⟨value, he⟩ := h.settled.getElem?_position h.linked hp
    refine .inr ⟨position, value, rfl, he, KeyedMap.find?_eq_some_iff.mpr ?_⟩
    rw [← h.entries]
    exact List.mem_of_getElem? he

theorem find? (h : p.StandsFor m) (key : String) : p.find? key = .ok (m.find? key) := by
  rcases h.position?_cases key with ⟨hp, hm⟩ | ⟨position, value, hp, he, hm⟩
  · rw [find?_of_position?_eq_none hp, hm]
  · simp only [PositionedMap.find?, hp, he, hm]

theorem contains (h : p.StandsFor m) (key : String) : p.contains key = m.contains key := by
  rw [KeyedMap.contains_eq_isSome, PositionedMap.contains]
  rcases h.position?_cases key with ⟨hp, hm⟩ | ⟨position, value, hp, he, hm⟩
  · rw [hp, hm]
    rfl
  · rw [hp, hm]
    rfl

/-- The value under a key is replaced, or an entry is appended under a new key. -/
theorem insert (h : p.StandsFor m) (key : String) (value : V) :
    ∃ p', p.insert key value = (.ok (m.find? key), p') ∧ p'.StandsFor (m.insert key value) := by
  have hlinked := h.linked.insert key value
  have hsettled := h.settled.insert key value
  rcases h.position?_cases key with ⟨hp, hm⟩ | ⟨position, old, hp, he, hm⟩
  · have hinsert := insert_eq_extend (contains_eq_false_iff.mpr hp) value
    rw [hinsert] at hlinked hsettled
    have hkey : key ∉ entryKeys m.entries := fun hk => by
      have := KeyedMap.find?_isSome.mpr hk
      rw [hm] at this
      cases this
    refine ⟨_, by rw [hinsert, hm], ?_, hlinked, hsettled⟩
    rw [KeyedMap.entries_insert, KeyedMap.setEntry_of_not_mem value hkey, ← h.entries]
    rfl
  · have hinsert : p.insert key value =
        (.ok (some old), { p with entries := p.entries.set position (key, value) }) := by
      simp only [PositionedMap.insert, hp, he]
    rw [hinsert] at hlinked hsettled
    refine ⟨_, by rw [hinsert, hm], ?_, hlinked, hsettled⟩
    rw [KeyedMap.entries_insert, ← h.entries]
    exact KeyedMap.set_eq_setEntry h.linked.distinct he value

/-- The value under a key is changed in place. -/
theorem amend (h : p.StandsFor m) (key : String) (change : V → V) :
    ∃ p', p.amend key change = (.ok ((m.find? key).map change), p') ∧
      p'.StandsFor (((m.find? key).map fun value => m.insert key (change value)).getD m) := by
  have hlinked := h.linked.amend key change
  have hsettled := h.settled.amend key change
  rcases h.position?_cases key with ⟨hp, hm⟩ | ⟨position, old, hp, he, hm⟩
  · exact ⟨p, by simp only [PositionedMap.amend, hp, hm, Option.map_none], by simpa [hm] using h⟩
  · have hamend : p.amend key change = (.ok (some (change old)),
        { p with entries := p.entries.set position (key, change old) }) := by
      simp only [PositionedMap.amend, hp, he]
    rw [hamend] at hlinked hsettled
    refine ⟨_, by rw [hamend, hm, Option.map_some], ?_, hlinked, hsettled⟩
    rw [hm, Option.map_some, Option.getD_some, KeyedMap.entries_insert, ← h.entries]
    exact KeyedMap.set_eq_setEntry h.linked.distinct he (change old)

/-- A key is taken out with its entry. -/
theorem erase (h : p.StandsFor m) (key : String) :
    ∃ p', p.erase key = (.ok (m.find? key), p') ∧ p'.StandsFor (m.erase key) := by
  have hlinked := h.linked.erase key
  have hsettled := h.settled.erase h.linked key
  rcases h.position?_cases key with ⟨hp, hm⟩ | ⟨position, value, hp, he, hm⟩
  · have herase : p.erase key = (.ok none, p) := by simp only [PositionedMap.erase, hp]
    have hkeep : ∀ entry ∈ m.entries, (entry.1 != key) = true := fun entry hentry =>
      bne_iff_ne.mpr fun eq => by
        have := KeyedMap.find?_isSome.mpr (eq ▸ List.mem_map_of_mem hentry : key ∈ m.keys)
        rw [hm] at this
        cases this
    refine ⟨p, by rw [herase, hm], ?_, h.linked, h.settled⟩
    exact h.entries.trans (List.filter_eq_self.mpr hkeep).symm
  · have herase : p.erase key = (.ok (some value), ⟨p.entries.eraseIdx position,
        renumberFrom position (p.entries.eraseIdx position) (unrecord key p.positions)⟩) := by
      simp only [PositionedMap.erase, hp, he]
    rw [herase] at hlinked hsettled
    refine ⟨_, by rw [herase, hm], ?_, hlinked, hsettled⟩
    exact (KeyedMap.eraseIdx_eq_filter h.linked.distinct he).trans
      (congrArg (List.filter _) h.entries)

theorem mapWithKey (h : p.StandsFor m) (change : String → V → V) :
    (p.mapWithKey change).StandsFor (m.mapWithKey change) := by
  refine ⟨?_, h.linked.mapWithKey change, h.settled.mapWithKey change⟩
  rw [entries_mapWithKey, h.entries, KeyedMap.mapWithKey]

theorem usedAlike (h : p.StandsFor m) : p.UsedAlike m :=
  ⟨h.find?, h.contains, h.insert, h.amend, h.erase, h.mapWithKey⟩

end StandsFor

end PositionedMap

end Rowfile
