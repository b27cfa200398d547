import Rowfile.PositionedMap
import Mathlib.Data.List.Nodup

/-!
# Recorded positions and live keys

A map with a table of positions is linked when its keys are distinct and the table leads each of
them to its own entry. Nothing is said of keys that the table records and no entry has: dropping
entries in bulk leaves such records behind. Every change that a table makes to its records keeps the
map linked, and for each of them it is said which keys are recorded afterwards.
-/
namespace Rowfile.PositionedMap

variable {V : Type}

structure Linked (m : PositionedMap V) : Prop where
  distinct : m.keys.Nodup
  placed : ∀ (i : Nat) (entry : String × V),
    m.entries[i]? = some entry → m.position? entry.1 = some i

/-- The entries with the one under an old key exchanged for another. -/
def exchange (old : String) (entry : String × V) (entries : List (String × V)) :
    List (String × V) :=
  entries.map fun e => if e.1 = old then entry else e

/-- The map with an entry at the end, and its position recorded. -/
def extend (m : PositionedMap V) (key : String) (value : V) : PositionedMap V :=
  ⟨m.entries ++ [(key, value)], record key m.entries.length m.positions⟩

/-! ## Looking up recorded positions -/

theorem lookup_unrecord (key other : String) (positions : List (String × Nat)) :
    (unrecord key positions).lookup other =
      if other = key then none else positions.lookup other := by
  induction positions with
  | nil => simp [unrecord]
  | cons entry rest ih => grind [unrecord, KeyedMap.lookup_cons_eq]

theorem lookup_record (key other : String) (position : Nat) (positions : List (String × Nat)) :
    (record key position positions).lookup other =
      if other = key then some position else positions.lookup other := by
  rw [record, KeyedMap.lookup_cons_eq, lookup_unrecord]
  by_cases h : other = key <;> simp [h]

/-- Of several records under one key the last one made is found. -/
theorem lookup_foldl_record (placed : List ((String × V) × Nat))
    (positions : List (String × Nat)) (key : String) :
    (placed.foldl (fun table entry => record entry.1.1 entry.2 table) positions).lookup key =
      ((placed.map fun entry => (entry.1.1, entry.2)).reverse.lookup key).or
        (positions.lookup key) := by
  induction placed generalizing positions with
  | nil => rfl
  | cons entry rest ih =>
    rw [List.foldl_cons, ih, lookup_record, List.map_cons, List.reverse_cons,
      List.lookup_append, Option.or_assoc, KeyedMap.lookup_cons_eq, List.lookup_nil]
    by_cases h : key = entry.1.1 <;> simp [h]

theorem drop_zipIdx (entries : List (String × V)) (start first : Nat) :
    (entries.zipIdx first).drop start = (entries.drop start).zipIdx (first + start) := by
  induction entries generalizing start first with
  | nil => simp
  | cons entry rest ih =>
    cases start with
    | zero => simp
    | succ start => simp [ih, Nat.add_assoc, Nat.add_comm 1 start]

/-- A renumbered key is found where its entry stands; any other keeps its record. -/
theorem lookup_renumberFrom {entries : List (String × V)} (h : (entryKeys entries).Nodup)
    (start : Nat) (positions : List (String × Nat)) (key : String) :
    (∀ i value, start ≤ i → entries[i]? = some (key, value) →
      (renumberFrom start entries positions).lookup key = some i) ∧
    (key ∉ entryKeys (entries.drop start) →
      (renumberFrom start entries positions).lookup key = positions.lookup key) := by
  have keys : entryKeys (((entries.drop start).zipIdx start).map
      fun entry => (entry.1.1, entry.2)) = entryKeys (entries.drop start) := by
    conv_rhs => rw [entryKeys, ← List.zipIdx_map_fst start (entries.drop start), List.map_map]
    rw [entryKeys, List.map_map]
    rfl
  rw [renumberFrom, drop_zipIdx, Nat.zero_add, lookup_foldl_record]
  constructor
  · intro i value hi he
    have hm : (key, i) ∈ ((entries.drop start).zipIdx start).map
        fun entry => (entry.1.1, entry.2) := by
      refine List.mem_map.mpr ⟨((key, value), i), ?_, rfl⟩
      rw [List.mk_mem_zipIdx_iff_le_and_getElem?_sub, List.getElem?_drop]
      exact ⟨hi, by rw [Nat.add_sub_cancel' hi]; exact he⟩
    have hd : (entryKeys (((entries.drop start).zipIdx start).map
        fun entry => (entry.1.1, entry.2)).reverse).Nodup := by
      rw [entryKeys, List.map_reverse, List.nodup_reverse, ← entryKeys, keys, entryKeys,
        List.map_drop]
      exact h.sublist (List.drop_sublist _ _)
    rw [← KeyedMap.valueUnder?_eq_lookup,
      (KeyedMap.valueUnder?_eq_some_iff hd).mpr (List.mem_reverse.mpr hm), Option.some_or]
  · intro hk
    rw [← KeyedMap.valueUnder?_eq_lookup, Option.or_eq_right_of_none]
    rw [← Option.not_isSome_iff_eq_none, KeyedMap.valueUnder?_isSome, entryKeys,
      List.map_reverse, List.mem_reverse, ← entryKeys, keys]
    exact hk

/-! ## Linked maps -/

theorem contains_iff {m : PositionedMap V} {key : String} :
    m.contains key = true ↔ ∃ i, m.position? key = some i :=
  Option.isSome_iff_exists

theorem contains_eq_false_iff {m : PositionedMap V} {key : String} :
    m.contains key = false ↔ m.position? key = none :=
  Option.isSome_eq_false_iff.trans Option.isNone_iff_eq_none

theorem linked_empty : (empty : PositionedMap V).Linked :=
  ⟨List.nodup_nil, fun i entry h => by simp at h⟩

namespace Linked

variable {m : PositionedMap V}

theorem contains_of_mem (h : m.Linked) {key : String} (hk : key ∈ m.keys) :
    m.contains key = true := by
  obtain ⟨entry, he, rfl⟩ := List.mem_map.mp hk
  obtain ⟨i, hi⟩ := List.mem_iff_getElem?.mp he
  exact contains_iff.mpr ⟨i, h.placed i entry hi⟩

theorem not_mem_keys (h : m.Linked) {key : String} (hk : m.contains key = false) :
    key ∉ m.keys := fun hm => by
  rw [h.contains_of_mem hm] at hk
  exact Bool.noConfusion hk

end Linked

/-! ## Storing, exchanging and dropping -/

/-- Under a key without a record an entry is appended. -/
theorem insert_eq_extend {m : PositionedMap V} {key : String} (hk : m.contains key = false)
    (value : V) : m.insert key value = (.ok none, m.extend key value) := by
  simp only [insert, contains_eq_false_iff.mp hk, extend]

theorem contains_extend (m : PositionedMap V) (key other : String) (value : V) :
    (m.extend key value).contains other = true ↔ other = key ∨ m.contains other = true := by
  simp only [contains_iff, extend, position?, lookup_record]
  by_cases h : other = key <;> simp [h]

theorem keys_extend (m : PositionedMap V) (key : String) (value : V) :
    (m.extend key value).keys = m.keys ++ [key] := by
  simp only [keys, extend, entryKeys, List.map_append, List.map_cons, List.map_nil]

theorem Linked.extend {m : PositionedMap V} (h : m.Linked) {key : String}
    (hk : m.contains key = false) (value : V) : (m.extend key value).Linked := by
  have hn := h.not_mem_keys hk
  constructor
  · rw [keys_extend]
    exact List.nodup_append.mpr ⟨h.distinct, by simp, fun a ha b hb e =>
      hn (List.mem_singleton.mp hb ▸ e ▸ ha)⟩
  · intro i entry hi
    simp only [PositionedMap.extend, position?, lookup_record] at hi ⊢
    rw [List.getElem?_append] at hi
    split at hi
    · have hne : entry.1 ≠ key := fun e =>
        hn (e ▸ List.mem_map_of_mem (List.mem_of_getElem? hi))
      rw [if_neg hne]
      exact h.placed i entry hi
    · next hlt =>
      obtain ⟨hi', rfl⟩ := List.getElem?_eq_some_iff.mp hi
      have : i = m.entries.length := by simp only [List.length_singleton] at hi'; omega
      simp [this]

theorem set_eq_exchange {entries : List (String × V)} (h : (entryKeys entries).Nodup)
    {i : Nat} {old : String} {value : V} (hi : entries[i]? = some (old, value))
    (entry : String × V) : entries.set i entry = exchange old entry entries := by
  induction entries generalizing i with
  | nil => simp at hi
  | cons first rest ih =>
    have hd := List.nodup_cons.mp h
    cases i with
    | zero =>
      obtain rfl : first = (old, value) := by simpa using hi
      have hrest : ∀ e ∈ rest, (if e.1 = old then entry else e) = e := fun e he =>
        if_neg fun (eq : e.1 = old) => hd.1 (List.mem_map.mpr ⟨e, he, eq⟩)
      simp only [exchange, List.set_cons_zero, List.map_cons, if_true,
        List.map_congr_left hrest, List.map_id']
    | succ i =>
      have hi' : rest[i]? = some (old, value) := by simpa using hi
      have hne : first.1 ≠ old := fun eq =>
        hd.1 (List.mem_map.mpr ⟨_, List.mem_of_getElem? hi', eq.symm⟩)
      simp only [exchange, List.set_cons_succ, List.map_cons, hne, if_false, ih hd.2 hi']

theorem mem_exchange {old : String} {v : V} {entry e : String × V}
    {entries : List (String × V)} (hm : (old, v) ∈ entries) :
    e ∈ exchange old entry entries ↔ e = entry ∨ e ∈ entries ∧ e.1 ≠ old := by
  simp only [exchange, List.mem_map]
  constructor
  · rintro ⟨a, ha, rfl⟩
    by_cases h : a.1 = old
    · exact .inl (if_pos h)
    · rw [if_neg h]
      exact .inr ⟨ha, h⟩
  · rintro (rfl | ⟨he, hne⟩)
    · exact ⟨(old, v), hm, if_pos rfl⟩
    · exact ⟨e, he, if_neg hne⟩

theorem entryKeys_exchange (old new : String) (value : V) (entries : List (String × V)) :
    entryKeys (exchange old (new, value) entries) =
      (entryKeys entries).map fun key => if key = old then new else key := by
  simp only [exchange, entryKeys, List.map_map]
  exact List.map_congr_left fun e _ => by by_cases h : e.1 = old <;> simp [h]

theorem nodup_exchange {old new : String} {value : V} {entries : List (String × V)}
    (h : (entryKeys entries).Nodup) (hfree : new ∈ entryKeys entries → new = old) :
    (entryKeys (exchange old (new, value) entries)).Nodup := by
  rw [entryKeys_exchange]
  refine List.Nodup.map_on ?_ h
  intro a ha b hb e
  by_cases h1 : a = old <;> by_cases h2 : b = old <;> simp only [h1, h2, if_true, if_false] at e ⊢
  · exact (h2 ((e ▸ hfree (e ▸ hb)))).elim
  · exact (h1 ((e ▸ hfree (e ▸ ha)))).elim
  · exact e

/-- An entry takes a new key and value in its place when the new key is its own or has no record. -/
theorem Linked.rekey {m : PositionedMap V} (h : m.Linked) {old new : String} {v : V}
    (hold : (old, v) ∈ m.entries) (hnew : new = old ∨ m.contains new = false) (value : V) :
    ∃ m', m.rekey old new value = (.ok true, m') ∧ m'.Linked ∧
      m'.entries = exchange old (new, value) m.entries ∧
      ∀ key, m'.contains key = true ↔ key = new ∨ key ≠ old ∧ m.contains key = true := by
  obtain ⟨i, hi⟩ := List.mem_iff_getElem?.mp hold
  have hp : m.position? old = some i := h.placed i _ hi
  have hlt : i < m.entries.length := (List.getElem?_eq_some_iff.mp hi).choose
  have hfree : new ∈ m.keys → new = old := fun hm => by
    rcases hnew with rfl | hc
    · rfl
    · exact (h.not_mem_keys hc hm).elim
  have hguard : ¬(new ≠ old ∧ m.contains new = true) := by
    rintro ⟨hne, hc⟩
    rcases hnew with e | hf
    · exact hne e
    · simp [hc] at hf
  have hset := set_eq_exchange h.distinct hi (new, value)
  refine ⟨⟨m.entries.set i (new, value), record new i (unrecord old m.positions)⟩, ?_, ?_,
    hset, ?_⟩
  · simp only [PositionedMap.rekey, hp, hguard, hlt, if_true, if_false]
  · constructor
    · rw [keys, hset]
      exact nodup_exchange h.distinct hfree
    · intro j entry hj
      rw [hset, exchange, List.getElem?_map, Option.map_eq_some_iff] at hj
      obtain ⟨e, he, rfl⟩ := hj
      have hj := h.placed j e he
      by_cases ho : e.1 = old
      · rw [ho, hp] at hj
        simp only [ho, if_true, position?, lookup_record]
        exact hj
      · have hn : e.1 ≠ new := fun eq =>
          ho (eq.trans (hfree (eq ▸ List.mem_map_of_mem (List.mem_of_getElem? he))))
        simp only [ho, hn, if_false, position?, lookup_record, lookup_unrecord]
        exact hj
  · intro key
    simp only [contains_iff, position?, lookup_record, lookup_unrecord]
    by_cases h1 : key = new <;> by_cases h2 : key = old <;> simp [h1, h2]

theorem Linked.retain {m : PositionedMap V} (h : m.Linked) (keep : String → V → Bool) :
    (m.retain keep).Linked := by
  have hd : (entryKeys (m.retain keep).entries).Nodup :=
    h.distinct.sublist (List.filter_sublist.map Prod.fst)
  refine ⟨hd, fun i entry hi => ?_⟩
  exact (lookup_renumberFrom hd 0 m.positions entry.1).1 i entry.2 (Nat.zero_le i) hi

/-- Dropping entries strikes no record: the keys of dropped entries stay recorded. -/
theorem Linked.contains_retain {m : PositionedMap V} (h : m.Linked) (keep : String → V → Bool)
    (key : String) : (m.retain keep).contains key = m.contains key := by
  have hr := h.retain keep
  by_cases hk : key ∈ (m.retain keep).keys
  · have hm : key ∈ m.keys := (List.filter_sublist.map Prod.fst).subset hk
    rw [hr.contains_of_mem hk, h.contains_of_mem hm]
  · have hsame : (m.retain keep).position? key = m.position? key :=
      (lookup_renumberFrom hr.distinct 0 m.positions key).2 (by rw [List.drop_zero]; exact hk)
    rw [contains, contains, hsame]

end Rowfile.PositionedMap
