/-!
# Maps that keep their order

A map from texts to values that remembers the order in which its keys were first inserted. It is the
list of its entries, and its keys are distinct by construction. Inserting under a present key
replaces the value in place; inserting under a new key appends an entry.
-/
namespace Rowfile

abbrev entryKeys {V : Type} (entries : List (String × V)) : List String := entries.map Prod.fst

/-- A map from texts to values in the order of first insertion. -/
structure KeyedMap (V : Type) where
  entries : List (String × V)
  distinct : (entryKeys entries).Nodup

namespace KeyedMap

variable {V W : Type}

def setEntry (key : String) (value : V) : List (String × V) → List (String × V)
  | [] => [(key, value)]
  | entry :: rest =>
    if entry.1 = key then (key, value) :: rest else entry :: setEntry key value rest

def valueUnder? (key : String) : List (String × V) → Option V
  | [] => none
  | entry :: rest => if entry.1 = key then some entry.2 else valueUnder? key rest

theorem entryKeys_setEntry (key : String) (value : V) (entries : List (String × V)) :
    entryKeys (setEntry key value entries) =
      if key ∈ entryKeys entries then entryKeys entries else entryKeys entries ++ [key] := by
  induction entries with
  | nil => simp [setEntry]
  | cons entry rest ih =>
    by_cases h : entry.1 = key
    · simp [setEntry, h]
    · have h' : ¬ key = entry.1 := fun e => h e.symm
      simp only [entryKeys] at ih
      simp only [setEntry, h, h', if_false, entryKeys, List.map_cons, List.mem_cons, false_or, ih]
      split <;> simp

theorem nodup_setEntry (key : String) (value : V) {entries : List (String × V)}
    (h : (entryKeys entries).Nodup) : (entryKeys (setEntry key value entries)).Nodup := by
  rw [entryKeys_setEntry]
  split
  · exact h
  · next hk =>
    rw [List.nodup_append]
    refine ⟨h, by simp, ?_⟩
    intro a ha b hb e
    simp only [List.mem_singleton] at hb
    exact hk (hb ▸ e ▸ ha)

theorem mem_setEntry {key : String} {value : V} {entries : List (String × V)}
    {entry : String × V} (h : entry ∈ setEntry key value entries) :
    entry = (key, value) ∨ entry ∈ entries := by
  induction entries with
  | nil => simpa [setEntry] using h
  | cons first rest ih => grind [setEntry]

def empty : KeyedMap V := ⟨[], List.nodup_nil⟩

instance : Inhabited (KeyedMap V) := ⟨empty⟩

instance [DecidableEq V] : DecidableEq (KeyedMap V) := fun a b =>
  if h : a.entries = b.entries then
    isTrue (by cases a; cases b; simp_all)
  else isFalse (fun e => h (e ▸ rfl))

instance [Repr V] : Repr (KeyedMap V) := ⟨fun m prec => reprPrec m.entries prec⟩

@[ext]
theorem ext {a b : KeyedMap V} (h : a.entries = b.entries) : a = b := by
  cases a; cases b; simp_all

/-- Set the value under a key: in place if the key is present, else at the end. -/
def insert (m : KeyedMap V) (key : String) (value : V) : KeyedMap V :=
  ⟨setEntry key value m.entries, nodup_setEntry key value m.distinct⟩

def find? (m : KeyedMap V) (key : String) : Option V := valueUnder? key m.entries

def keys (m : KeyedMap V) : List String := entryKeys m.entries

def values (m : KeyedMap V) : List V := m.entries.map Prod.snd

def size (m : KeyedMap V) : Nat := m.entries.length

def isEmpty (m : KeyedMap V) : Bool := m.entries.isEmpty

def contains (m : KeyedMap V) (key : String) : Bool := m.keys.contains key

def erase (m : KeyedMap V) (key : String) : KeyedMap V :=
  ⟨m.entries.filter (fun entry => entry.1 != key),
    m.distinct.sublist (List.filter_sublist.map Prod.fst)⟩

def mapWithKey (f : String → V → W) (m : KeyedMap V) : KeyedMap W :=
  ⟨m.entries.map fun entry => (entry.1, f entry.1 entry.2), by
    simpa [entryKeys, Function.comp_def] using m.distinct⟩

def insertAll (m : KeyedMap V) (pairs : List (String × V)) : KeyedMap V :=
  pairs.foldl (fun acc pair => acc.insert pair.1 pair.2) m

/-- The map of a list of pairs: a repeated key keeps its first place and takes the last value. -/
def ofList (pairs : List (String × V)) : KeyedMap V := empty.insertAll pairs

@[simp] theorem entries_empty : (empty : KeyedMap V).entries = [] := rfl

@[simp]
theorem entries_insert (m : KeyedMap V) (key : String) (value : V) :
    (m.insert key value).entries = setEntry key value m.entries := rfl

@[simp] theorem find?_empty (key : String) : (empty : KeyedMap V).find? key = none := rfl

theorem valueUnder?_setEntry (key other : String) (value : V) (entries : List (String × V)) :
    valueUnder? other (setEntry key value entries) =
      if other = key then some value else valueUnder? other entries := by
  induction entries with
  | nil => simp [setEntry, valueUnder?, eq_comm]
  | cons entry rest ih =>
    simp only [setEntry]
    split
    · next h => grind [valueUnder?]
    · next h => grind [valueUnder?]

@[simp]
theorem find?_insert (m : KeyedMap V) (key other : String) (value : V) :
    (m.insert key value).find? other = if other = key then some value else m.find? other :=
  valueUnder?_setEntry key other value m.entries

theorem valueUnder?_isSome (key : String) (entries : List (String × V)) :
    (valueUnder? key entries).isSome = true ↔ key ∈ entryKeys entries := by
  induction entries with
  | nil => simp [valueUnder?]
  | cons entry rest ih => grind [valueUnder?]

theorem contains_eq_isSome (m : KeyedMap V) (key : String) :
    m.contains key = (m.find? key).isSome := by
  have := valueUnder?_isSome key m.entries
  simp only [contains, keys, find?, List.contains_eq_mem]
  by_cases h : key ∈ entryKeys m.entries <;> grind

theorem valueUnder?_eq_some_iff {key : String} {value : V} {entries : List (String × V)}
    (distinct : (entryKeys entries).Nodup) :
    valueUnder? key entries = some value ↔ (key, value) ∈ entries := by
  induction entries with
  | nil => simp [valueUnder?]
  | cons entry rest ih =>
    have hd := List.nodup_cons.mp distinct
    by_cases h : entry.1 = key
    · have hk : (key, value) ∉ rest := fun hm => hd.1 (h ▸ List.mem_map_of_mem hm)
      simp only [valueUnder?, h, if_true, List.mem_cons, hk, or_false, Option.some.injEq]
      exact ⟨fun hv => by rw [← h, ← hv], fun hv => by rw [← hv]⟩
    · have hne : (key, value) ≠ entry := fun he => h (by rw [← he])
      simp only [valueUnder?, h, if_false, List.mem_cons, hne, false_or, ih hd.2]

theorem lookup_cons_eq (key : String) (entry : String × V) (entries : List (String × V)) :
    (entry :: entries).lookup key =
      if key = entry.1 then some entry.2 else entries.lookup key := by
  obtain ⟨first, value⟩ := entry
  by_cases h : key = first
  · simp [h]
  · have hb : (key == first) = false := beq_false_of_ne h
    simp [List.lookup_cons, hb, h]

theorem valueUnder?_eq_lookup (key : String) (entries : List (String × V)) :
    valueUnder? key entries = entries.lookup key := by
  induction entries with
  | nil => rfl
  | cons entry rest ih => simp only [valueUnder?, lookup_cons_eq, ih, eq_comm]

theorem find?_eq_some_iff {m : KeyedMap V} {key : String} {value : V} :
    m.find? key = some value ↔ (key, value) ∈ m.entries :=
  valueUnder?_eq_some_iff m.distinct

theorem find?_isSome {m : KeyedMap V} {key : String} :
    (m.find? key).isSome = true ↔ key ∈ m.keys :=
  valueUnder?_isSome key m.entries

theorem contains_iff {m : KeyedMap V} {key : String} :
    m.contains key = true ↔ (m.find? key).isSome = true := by
  rw [contains_eq_isSome]

theorem contains_eq_false_iff {m : KeyedMap V} {key : String} :
    m.contains key = false ↔ m.find? key = none := by
  rw [contains_eq_isSome, Option.isSome_eq_false_iff, Option.isNone_iff_eq_none]

theorem valueUnder?_map (f : String → V → W) (key : String) (entries : List (String × V)) :
    valueUnder? key (entries.map fun entry => (entry.1, f entry.1 entry.2)) =
      (valueUnder? key entries).map (f key) := by
  induction entries with
  | nil => rfl
  | cons entry rest ih =>
    simp only [List.map_cons, valueUnder?]
    split
    · next h => simp [h]
    · exact ih

@[simp]
theorem find?_mapWithKey (f : String → V → W) (m : KeyedMap V) (key : String) :
    (m.mapWithKey f).find? key = (m.find? key).map (f key) :=
  valueUnder?_map f key m.entries

@[simp]
theorem keys_mapWithKey (f : String → V → W) (m : KeyedMap V) :
    (m.mapWithKey f).keys = m.keys := by
  simp [keys, mapWithKey, entryKeys, Function.comp_def]

@[simp]
theorem find?_erase (m : KeyedMap V) (key other : String) :
    (m.erase key).find? other = if other = key then none else m.find? other := by
  simp only [erase, find?]
  induction m.entries with
  | nil => simp [valueUnder?]
  | cons entry rest ih => grind [valueUnder?]

theorem setEntry_of_valueUnder? {key : String} {value : V} {entries : List (String × V)}
    (h : valueUnder? key entries = some value) : setEntry key value entries = entries := by
  induction entries with
  | nil => cases h
  | cons entry rest ih =>
    rw [valueUnder?] at h
    split at h
    · next hkey =>
      obtain rfl := Option.some.inj h
      rw [setEntry, if_pos hkey, ← hkey]
    · next hkey => rw [setEntry, if_neg hkey, ih h]

/-- Setting what is there already changes nothing. -/
theorem insert_of_find? {m : KeyedMap V} {key : String} {value : V}
    (h : m.find? key = some value) : m.insert key value = m :=
  ext (setEntry_of_valueUnder? h)

/-- What was set under a key does not matter once the key is erased. -/
theorem erase_insert_self (m : KeyedMap V) (key : String) (value : V) :
    (m.insert key value).erase key = m.erase key := by
  apply ext
  change (setEntry key value m.entries).filter _ = m.entries.filter _
  induction m.entries with
  | nil => simp [setEntry]
  | cons entry rest ih =>
    rw [setEntry]
    split
    · next h => simp [h]
    · rw [List.filter_cons, List.filter_cons, ih]

@[simp]
theorem insertAll_cons (m : KeyedMap V) (pair : String × V) (pairs : List (String × V)) :
    m.insertAll (pair :: pairs) = (m.insert pair.1 pair.2).insertAll pairs := rfl

/-- The last of the pairs under a key decides; without one the map keeps its value. -/
theorem find?_insertAll (m : KeyedMap V) (pairs : List (String × V)) (key : String) :
    (m.insertAll pairs).find? key = (pairs.reverse.lookup key).or (m.find? key) := by
  induction pairs generalizing m with
  | nil => rfl
  | cons pair pairs ih =>
    rw [insertAll_cons, ih, find?_insert, List.reverse_cons, List.lookup_append,
      lookup_cons_eq, List.lookup_nil, Option.or_assoc]
    by_cases h : key = pair.1 <;> simp [h]

theorem mem_of_find?_insertAll {m : KeyedMap V} {pairs : List (String × V)} {key : String}
    {value : V} (h : (m.insertAll pairs).find? key = some value) :
    (key, value) ∈ pairs ∨ m.find? key = some value := by
  rw [find?_insertAll, Option.or_eq_some_iff] at h
  rcases h with h | h
  · obtain ⟨front, back, hl, _⟩ := List.lookup_eq_some_iff.mp h
    exact .inl (List.mem_reverse.mp (hl ▸ by simp))
  · exact .inr h.2

theorem isSome_find?_insertAll {m : KeyedMap V} (pairs : List (String × V)) {key : String}
    (h : (m.find? key).isSome = true) : ((m.insertAll pairs).find? key).isSome = true := by
  rw [find?_insertAll, Option.isSome_or, h, Bool.or_true]

end KeyedMap

end Rowfile
