import Rowfile.Index
import Rowfile.Proofs.Positions

/-!
# What an index lists

An index covers a column of a list of records when no bucket is empty, no bucket lists an id twice,
and the bucket of a text lists exactly the ids of the records that show this text in the column.
Building an index over records makes it cover them. Filing a record that is appended, taking out a
record that is dropped, and moving a record that is replaced each keep the index in step with the
records. The order of ids within a bucket is not described: moving a record within one bucket puts
its id last.
-/
namespace Rowfile

namespace Index

structure Tidy (index : Index) : Prop where
  filled : ∀ (key : String) (ids : List RecordId),
    index.buckets.find? key = some ids → ids ≠ []
  nodup : ∀ key : String, (index.lookup key).Nodup

/-- A tidy index whose buckets list exactly the records that show their keys in a column. -/
structure Covers (index : Index) (column : String) (entries : List (RecordId × Record)) : Prop
    extends Tidy index where
  mem_lookup : ∀ (key : String) (id : RecordId), id ∈ index.lookup key ↔
    ∃ record, (id, record) ∈ entries ∧ record.shows column key = true

/-- The ids of the records that show a text in a column, in the order of the records. -/
def idsShowing (column key : String) (entries : List (RecordId × Record)) : List RecordId :=
  (entries.filter fun entry => entry.2.shows column key).map Prod.fst

/-- Two indexes with the same buckets up to the order of buckets and of the ids in each. -/
def Agrees (a b : Index) : Prop :=
  a.buckets.keys.Perm b.buckets.keys ∧ ∀ key, (a.lookup key).Perm (b.lookup key)

/-! ## Single ids -/

theorem lookup_remove (index : Index) (value : Value) (id : RecordId) (key : String) :
    (index.remove value id).lookup key =
      if key = value.shown then (index.lookup key).filter (· != id) else index.lookup key := by
  unfold remove
  split
  · next hnone =>
    split
    · next h => simp [lookup, h, hnone]
    · rfl
  · next ids hsome =>
    have hids : index.lookup value.shown = ids := by rw [lookup, hsome, Option.getD_some]
    split
    · next hnil =>
      rw [lookup, KeyedMap.find?_erase]
      by_cases h : key = value.shown
      · rw [if_pos h, if_pos h, h, hids, hnil, Option.getD_none]
      · rw [if_neg h, if_neg h, lookup]
    · rw [lookup, KeyedMap.find?_insert]
      by_cases h : key = value.shown
      · rw [if_pos h, if_pos h, h, hids, Option.getD_some]
      · rw [if_neg h, if_neg h, lookup]

theorem mem_lookup_add {index : Index} {value : Value} {id other : RecordId} {key : String} :
    other ∈ (index.add value id).lookup key ↔
      other ∈ index.lookup key ∨ value.shown = key ∧ other = id := by
  rw [lookup_add]
  by_cases h : key = value.shown
  · subst h
    by_cases hc : (index.lookup value.shown).contains id = true
    · have hm : id ∈ index.lookup value.shown := List.contains_iff_mem.mp hc
      rw [if_pos rfl, if_pos hc]
      exact ⟨Or.inl, fun ho => ho.elim (fun hl => hl) fun he => he.2 ▸ hm⟩
    · rw [if_pos rfl, if_neg hc]
      simp
  · simp [h, eq_comm]

theorem mem_lookup_remove {index : Index} {value : Value} {id other : RecordId} {key : String} :
    other ∈ (index.remove value id).lookup key ↔
      other ∈ index.lookup key ∧ ¬(value.shown = key ∧ other = id) := by
  rw [lookup_remove]
  by_cases h : key = value.shown
  · simp [h]
  · simp [h, eq_comm]

theorem tidy_empty : empty.Tidy :=
  ⟨fun _ _ h => by simp [empty] at h, fun _ => List.nodup_nil⟩

theorem Tidy.add {index : Index} (h : index.Tidy) (value : Value) (id : RecordId) :
    (index.add value id).Tidy := by
  constructor
  · intro key ids hf
    simp only [Index.add, KeyedMap.find?_insert] at hf
    split at hf
    · obtain rfl := Option.some.inj hf
      split
      · next hc => exact List.ne_nil_of_mem (List.contains_iff_mem.mp hc)
      · simp
    · exact h.filled key ids hf
  · intro key
    rw [lookup_add]
    split
    · split
      · exact h.nodup key
      · next hc =>
        refine List.nodup_append.mpr ⟨h.nodup key, by simp, fun a ha b hb e => hc ?_⟩
        rw [List.mem_singleton.mp hb] at e
        exact List.contains_iff_mem.mpr (e ▸ ha)
    · exact h.nodup key

theorem Tidy.remove {index : Index} (h : index.Tidy) (value : Value) (id : RecordId) :
    (index.remove value id).Tidy := by
  constructor
  · intro key ids hf
    unfold Index.remove at hf
    split at hf
    · exact h.filled key ids hf
    · split at hf
      · rw [KeyedMap.find?_erase] at hf
        split at hf
        · cases hf
        · exact h.filled key ids hf
      · next hne =>
        rw [KeyedMap.find?_insert] at hf
        split at hf
        · obtain rfl := Option.some.inj hf
          exact hne
        · exact h.filled key ids hf
  · intro key
    rw [lookup_remove]
    split
    · exact (h.nodup key).filter _
    · exact h.nodup key

/-! ## Records -/

theorem mem_lookup_file {index : Index} {column key : String} {id other : RecordId}
    {record : Record} :
    other ∈ (index.file column id record).lookup key ↔
      other ∈ index.lookup key ∨ record.shows column key = true ∧ other = id := by
  rw [Record.shows_iff, file]
  split
  · next value hv => simp [mem_lookup_add, hv]
  · next hv => simp [hv]

theorem mem_lookup_unfile {index : Index} {column key : String} {id other : RecordId}
    {record : Record} :
    other ∈ (index.unfile column id record).lookup key ↔
      other ∈ index.lookup key ∧ ¬(record.shows column key = true ∧ other = id) := by
  rw [Record.shows_iff, unfile]
  split
  · next value hv => simp [mem_lookup_remove, hv]
  · next hv => simp [hv]

theorem Tidy.file {index : Index} (h : index.Tidy) (column : String) (id : RecordId)
    (record : Record) : (index.file column id record).Tidy := by
  unfold Index.file
  split
  · exact h.add _ _
  · exact h

theorem Tidy.unfile {index : Index} (h : index.Tidy) (column : String) (id : RecordId)
    (record : Record) : (index.unfile column id record).Tidy := by
  unfold Index.unfile
  split
  · exact h.remove _ _
  · exact h

/-- Moving an id is taking out the old one and then filing the new one. -/
theorem refile_eq_file (index : Index) (column : String) (oldId : RecordId) (old : Record)
    (newId : RecordId) (new : Record) :
    index.refile column oldId old newId new =
      (index.unfile column oldId old).file column newId new := by
  unfold refile replace unfile file
  cases old.find? column <;> cases new.find? column <;> rfl

/-! ## Covering -/

theorem covers_empty (column : String) : empty.Covers column [] :=
  ⟨tidy_empty, fun key id => by simp⟩

theorem Covers.file {index : Index} {column : String} {entries : List (RecordId × Record)}
    (h : index.Covers column entries) (id : RecordId) (record : Record) :
    (index.file column id record).Covers column (entries ++ [(id, record)]) := by
  refine ⟨h.toTidy.file column id record, fun key other => ?_⟩
  rw [mem_lookup_file, h.mem_lookup]
  constructor
  · rintro (⟨r, hr, hs⟩ | ⟨hs, rfl⟩)
    · exact ⟨r, List.mem_append_left _ hr, hs⟩
    · exact ⟨record, by simp, hs⟩
  · rintro ⟨r, hr, hs⟩
    rcases List.mem_append.mp hr with hr | hr
    · exact .inl ⟨r, hr, hs⟩
    · obtain ⟨rfl, rfl⟩ := Prod.mk.inj (List.mem_singleton.mp hr)
      exact .inr ⟨hs, rfl⟩

theorem Covers.foldl_file {index : Index} {column : String} {front : List (RecordId × Record)}
    (h : index.Covers column front) (entries : List (RecordId × Record)) :
    (entries.foldl (fun index entry => index.file column entry.1 entry.2) index).Covers column
      (front ++ entries) := by
  induction entries generalizing index front with
  | nil => simpa using h
  | cons entry rest ih =>
    have := ih (h.file entry.1 entry.2)
    rwa [List.append_assoc] at this

theorem covers_build (column : String) (entries : List (RecordId × Record)) :
    (build column entries).Covers column entries :=
  (covers_empty column).foldl_file entries

/-- With distinct ids, the record that shows the key of a bucket under an id is the one record with
that id. -/
theorem Covers.unfile {index : Index} {column : String} {entries : List (RecordId × Record)}
    (h : index.Covers column entries) (hd : (entryKeys entries).Nodup) {id : RecordId}
    {record : Record} (hm : (id, record) ∈ entries) :
    (index.unfile column id record).Covers column (entries.filter fun entry => entry.1 != id) := by
  refine ⟨h.toTidy.unfile column id record, fun key other => ?_⟩
  rw [mem_lookup_unfile, h.mem_lookup]
  constructor
  · rintro ⟨⟨r, hr, hs⟩, hno⟩
    have hne : other ≠ id := by
      rintro rfl
      obtain rfl : r = record := (Prod.mk.inj (List.inj_on_of_nodup_map hd hr hm rfl)).2
      exact hno ⟨hs, rfl⟩
    exact ⟨r, List.mem_filter.mpr ⟨hr, bne_iff_ne.mpr hne⟩, hs⟩
  · rintro ⟨r, hr, hs⟩
    obtain ⟨hr, hne⟩ := List.mem_filter.mp hr
    exact ⟨⟨r, hr, hs⟩, fun he => bne_iff_ne.mp hne he.2⟩

theorem Covers.foldl_unfile {index : Index} {column : String}
    {entries : List (RecordId × Record)} (h : index.Covers column entries)
    (hd : (entryKeys entries).Nodup) {doomed : List (RecordId × Record)}
    (hs : doomed.Sublist entries) :
    (doomed.foldl (fun index entry => index.unfile column entry.1 entry.2) index).Covers column
      (entries.filter fun entry => !(doomed.map Prod.fst).contains entry.1) := by
  have hdd : (entryKeys doomed).Nodup := hd.sublist (hs.map Prod.fst)
  have hm : ∀ entry ∈ doomed, entry ∈ entries := fun entry he => hs.subset he
  clear hs
  induction doomed generalizing index entries with
  | nil => simpa using h
  | cons entry rest ih =>
    obtain ⟨hfirst, hrest⟩ := List.nodup_cons.mp hdd
    have step := h.unfile hd (hm entry List.mem_cons_self)
    -- The records that are still to be taken out have other ids and stay among the rest.
    have hkept : ∀ e ∈ rest, e ∈ entries.filter fun e => e.1 != entry.1 := fun e he =>
      List.mem_filter.mpr ⟨hm e (List.mem_cons_of_mem _ he), bne_iff_ne.mpr fun eq =>
        hfirst (List.mem_map.mpr ⟨e, he, eq⟩)⟩
    have run := ih step (hd.sublist (List.filter_sublist.map Prod.fst)) hrest hkept
    have hfilter : (fun e : RecordId × Record => !((entry :: rest).map Prod.fst).contains e.1) =
        fun e => !(rest.map Prod.fst).contains e.1 && e.1 != entry.1 := by
      funext e
      rw [List.map_cons, List.contains_cons, Bool.not_or, Bool.and_comm, bne]
    rw [hfilter, ← List.filter_filter]
    exact run

theorem Covers.refile {index : Index} {column : String} {entries : List (RecordId × Record)}
    (h : index.Covers column entries) (hd : (entryKeys entries).Nodup) {oldId : RecordId}
    {old : Record} (hm : (oldId, old) ∈ entries) (newId : RecordId) (new : Record) :
    (index.refile column oldId old newId new).Covers column
      (PositionedMap.exchange oldId (newId, new) entries) := by
  have step := h.unfile hd hm
  refine ⟨?_, fun key other => ?_⟩
  · rw [refile_eq_file]
    exact step.toTidy.file column newId new
  · rw [refile_eq_file, mem_lookup_file, step.mem_lookup]
    simp only [PositionedMap.mem_exchange hm, List.mem_filter, bne_iff_ne]
    constructor
    · rintro (⟨r, hr, hs⟩ | ⟨hs, rfl⟩)
      · exact ⟨r, .inr hr, hs⟩
      · exact ⟨new, .inl rfl, hs⟩
    · rintro ⟨r, he | hr, hs⟩
      · obtain ⟨rfl, rfl⟩ := Prod.mk.inj he
        exact .inr ⟨hs, rfl⟩
      · exact .inl ⟨r, hr, hs⟩

/-! ## What covering says of a bucket -/

theorem mem_idsShowing {column key : String} {entries : List (RecordId × Record)}
    {id : RecordId} : id ∈ idsShowing column key entries ↔
      ∃ record, (id, record) ∈ entries ∧ record.shows column key = true := by
  simp [idsShowing, List.mem_map, List.mem_filter]

theorem Covers.lookup_perm {index : Index} {column : String}
    {entries : List (RecordId × Record)} (h : index.Covers column entries)
    (hd : (entryKeys entries).Nodup) (key : String) :
    (index.lookup key).Perm (idsShowing column key entries) := by
  refine (List.perm_ext_iff_of_nodup (h.nodup key) ?_).mpr fun id => ?_
  · exact hd.sublist (List.filter_sublist.map Prod.fst)
  · rw [h.mem_lookup, mem_idsShowing]

/-- A bucket is there exactly when it lists some id. -/
theorem Tidy.mem_keys_iff {index : Index} (h : index.Tidy) {key : String} :
    key ∈ index.buckets.keys ↔ index.lookup key ≠ [] := by
  rw [← KeyedMap.find?_isSome, lookup]
  cases hf : index.buckets.find? key with
  | none => simp
  | some ids => simpa using h.filled key ids hf

theorem Covers.agrees {a b : Index} {column : String} {entries : List (RecordId × Record)}
    (ha : a.Covers column entries) (hb : b.Covers column entries) : a.Agrees b := by
  have hl : ∀ key, (a.lookup key).Perm (b.lookup key) := fun key =>
    (List.perm_ext_iff_of_nodup (ha.nodup key) (hb.nodup key)).mpr fun id => by
      rw [ha.mem_lookup, hb.mem_lookup]
  refine ⟨?_, hl⟩
  refine (List.perm_ext_iff_of_nodup a.buckets.distinct b.buckets.distinct).mpr fun key => ?_
  have hn : a.lookup key = [] ↔ b.lookup key = [] :=
    ⟨fun h => List.perm_nil.mp (h ▸ (hl key).symm), fun h => List.perm_nil.mp (h ▸ hl key)⟩
  exact ha.toTidy.mem_keys_iff.trans ((not_congr hn).trans hb.toTidy.mem_keys_iff.symm)

end Index

end Rowfile
