import Rowfile.Proofs.Admission
import Rowfile.Proofs.IndexContents

/-!
# Staged updates

An update stages the records that pass its filter, checks the new ids of all of them, and then puts
them in place one after the other. Once the checks have passed no step is refused: each finds its
record under the old id, where the record stands, and the new id is its own or free. The records
afterwards are the ones that exchanging all staged records at once would give, and moving the ids of
the staged records one by one keeps every index in step.
-/
namespace Rowfile

/-- Which records of a list a filter and changes stage, and as what. -/
inductive Stages (table : Table) (changes : List (String × Value)) (filter : Option Predicate) :
    List (RecordId × Record) → List Staged → Prop
  | nil : Stages table changes filter [] []
  | kept {id : RecordId} {record : Record} {rest : List (RecordId × Record)}
      {staged : List Staged} :
      Predicate.accepts filter record = .ok false → Stages table changes filter rest staged →
      Stages table changes filter ((id, record) :: rest) staged
  | moved {id newId : RecordId} {record : Record} {rest : List (RecordId × Record)}
      {staged : List Staged} :
      Predicate.accepts filter record = .ok true →
      table.newId id (record.insertAll changes) = .ok newId →
      Stages table changes filter rest staged →
      Stages table changes filter ((id, record) :: rest)
        (⟨id, newId, record, record.insertAll changes⟩ :: staged)

theorem Table.stage_eq_ok_iff {table : Table} {changes : List (String × Value)}
    {filter : Option Predicate} {entries : List (RecordId × Record)} {staged : List Staged} :
    table.stage changes filter entries = .ok staged ↔
      Stages table changes filter entries staged := by
  constructor
  · intro h
    induction entries generalizing staged with
    | nil =>
      obtain rfl := Except.ok.inj h
      exact .nil
    | cons entry rest ih =>
      obtain ⟨id, record⟩ := entry
      simp only [Table.stage, bind_eq_ok] at h
      obtain ⟨accepted, ha, h⟩ := h
      cases accepted with
      | false => exact .kept ha (ih h)
      | true =>
        simp only [if_true, bind_eq_ok] at h
        obtain ⟨newId, hid, tail, htail, hr⟩ := h
        obtain rfl := Except.ok.inj hr
        exact .moved ha hid (ih htail)
  · intro h
    induction h with
    | nil => rfl
    | kept ha _ ih =>
      simp only [Table.stage, bind_eq_ok]
      exact ⟨false, ha, ih⟩
    | moved ha hid _ ih =>
      simp only [Table.stage, bind_eq_ok]
      refine ⟨true, ha, ?_⟩
      simp only [if_true, bind_eq_ok]
      exact ⟨_, hid, _, ih, rfl⟩

namespace Stages

variable {table : Table} {changes : List (String × Value)} {filter : Option Predicate}
variable {entries : List (RecordId × Record)} {staged : List Staged}

theorem sublist (h : Stages table changes filter entries staged) :
    (staged.map fun s => (s.oldId, s.old)).Sublist entries := by
  induction h with
  | nil => exact List.Sublist.refl _
  | kept _ _ ih => exact ih.cons _
  | moved _ _ _ ih => exact ih.cons_cons _

theorem of_mem (h : Stages table changes filter entries staged) {s : Staged} (hs : s ∈ staged) :
    (s.oldId, s.old) ∈ entries ∧ s.new = s.old.insertAll changes ∧
      table.newId s.oldId s.new = .ok s.newId := by
  induction h with
  | nil => exact (List.not_mem_nil hs).elim
  | kept _ _ ih =>
    obtain ⟨hm, hnew⟩ := ih hs
    exact ⟨List.mem_cons_of_mem _ hm, hnew⟩
  | moved _ hid _ ih =>
    rcases List.mem_cons.mp hs with rfl | hs
    · exact ⟨List.mem_cons_self, rfl, hid⟩
    · obtain ⟨hm, hnew⟩ := ih hs
      exact ⟨List.mem_cons_of_mem _ hm, hnew⟩

end Stages

/-! ## The checks on staged records -/

theorem Table.checkKeys_eq_ok_iff {table : Table} {seen : List RecordId} {staged : List Staged} :
    table.checkKeys seen staged = .ok () ↔
      (staged.map Staged.newId).Nodup ∧ (∀ s ∈ staged, s.newId ∉ seen) ∧
      ∀ s ∈ staged, s.newId = s.oldId ∨ table.records.contains s.newId = false := by
  induction staged generalizing seen with
  | nil => simp [checkKeys]
  | cons s rest ih =>
    unfold checkKeys
    by_cases hseen : s.newId ∈ seen
    · simp [hseen]
    · by_cases hfree : s.newId ≠ s.oldId ∧ table.records.contains s.newId = true
      · simp [hfree.1, hfree.2]
      · have hok : s.newId = s.oldId ∨ table.records.contains s.newId = false := by
          by_cases he : s.newId = s.oldId
          · exact .inl he
          · exact .inr (Bool.eq_false_iff.mpr fun hc => hfree ⟨he, hc⟩)
        have hcontains : seen.contains s.newId = false := by simpa using hseen
        rw [hcontains, if_neg Bool.false_ne_true, if_neg hfree, ih]
        simp only [List.map_cons, List.nodup_cons, List.forall_mem_cons, hok, hseen,
          not_false_eq_true, true_and]
        constructor
        · rintro ⟨hn, hs, hf⟩
          refine ⟨⟨fun hm => ?_, hn⟩, fun t ht hm => hs t ht (List.mem_cons_of_mem _ hm), hf⟩
          obtain ⟨t, ht, e⟩ := List.mem_map.mp hm
          exact hs t ht (e ▸ List.mem_cons_self)
        · rintro ⟨⟨hd, hn⟩, hs, hf⟩
          refine ⟨hn, fun t ht hm => ?_, hf⟩
          rcases List.mem_cons.mp hm with e | hm
          · exact hd (List.mem_map.mpr ⟨t, ht, e⟩)
          · exact hs t ht hm

theorem Table.checkColumn_eq_ok_iff {column : String} {taken : List String}
    {staged : List Staged} :
    Table.checkColumn column taken staged = .ok () ↔
      (Record.shownIn column (staged.map Staged.new)).Nodup ∧
      ∀ shown ∈ Record.shownIn column (staged.map Staged.new), shown ∉ taken := by
  induction staged generalizing taken with
  | nil => simp [checkColumn, Record.shownIn]
  | cons s rest ih =>
    unfold checkColumn
    cases hv : s.new.find? column with
    | none =>
      have hshown : Record.shownIn column ((s :: rest).map Staged.new) =
          Record.shownIn column (rest.map Staged.new) := by
        simp [Record.shownIn, hv]
      rw [hshown]
      exact ih
    | some value =>
      have hshown : Record.shownIn column ((s :: rest).map Staged.new) =
          value.shown :: Record.shownIn column (rest.map Staged.new) := by
        simp [Record.shownIn, hv]
      rw [hshown, List.nodup_cons, List.forall_mem_cons]
      by_cases ht : value.shown ∈ taken
      · simp [ht]
      · have hb : taken.contains value.shown = false := by simpa using ht
        simp only [hb, Bool.false_eq_true, if_false]
        rw [ih]
        constructor
        · rintro ⟨hn, hfree⟩
          exact ⟨⟨fun hm => hfree _ hm List.mem_cons_self, hn⟩, ht, fun shown hm hmem =>
            hfree shown hm (List.mem_cons_of_mem _ hmem)⟩
        · rintro ⟨⟨hno, hn⟩, _, hfree⟩
          refine ⟨hn, fun shown hm hmem => ?_⟩
          rcases List.mem_cons.mp hmem with rfl | hmem
          · exact hno hm
          · exact hfree shown hm hmem

def Staged.beside (staged : List Staged) (entries : List (RecordId × Record)) :
    List (RecordId × Record) :=
  entries.filter fun entry => !(staged.map Staged.oldId).contains entry.1

theorem Table.takenBeside_eq (table : Table) (staged : List Staged) (column : String) :
    table.takenBeside staged column =
      Record.shownIn column ((Staged.beside staged table.records.entries).map Prod.snd) := by
  rw [takenBeside, Record.shownIn, List.filterMap_map, Staged.beside, List.filterMap_filter]
  refine List.filterMap_congr fun entry _ => ?_
  cases (staged.map Staged.oldId).contains entry.1 <;> rfl

/-- The records that a staged update replaces are there, no two of them are one record or become
one, and no new id is the recorded id of another record. -/
structure Ready (m : PositionedMap Record) (staged : List Staged) : Prop where
  linked : m.Linked
  present : ∀ s ∈ staged, (s.oldId, s.old) ∈ m.entries
  oldIds : (staged.map Staged.oldId).Nodup
  newIds : (staged.map Staged.newId).Nodup
  free : ∀ s ∈ staged, s.newId = s.oldId ∨ m.contains s.newId = false

theorem Stages.ready {table : Table} {changes : List (String × Value)}
    {filter : Option Predicate} {staged : List Staged}
    (h : Stages table changes filter table.records.entries staged)
    (hl : table.records.Linked) (hk : table.checkKeys [] staged = .ok ()) :
    Ready table.records staged := by
  obtain ⟨hn, _, hf⟩ := Table.checkKeys_eq_ok_iff.mp hk
  refine ⟨hl, fun s hs => (h.of_mem hs).1, ?_, hn, hf⟩
  have := hl.distinct.sublist (h.sublist.map Prod.fst)
  simpa [List.map_map, Function.comp_def] using this

/-! ## Putting staged records in place -/

/-- What an entry becomes when all staged records are exchanged at once. -/
def Staged.replacement (staged : List Staged) (entry : RecordId × Record) :
    RecordId × Record :=
  match staged.find? (·.oldId == entry.1) with
  | some s => (s.newId, s.new)
  | none => entry

namespace Staged

theorem replacement_of_not_mem {staged : List Staged} {entry : RecordId × Record}
    (h : entry.1 ∉ staged.map oldId) : replacement staged entry = entry := by
  have hno : staged.find? (·.oldId == entry.1) = none := List.find?_eq_none.mpr fun s hs he =>
    h (List.mem_map.mpr ⟨s, hs, beq_iff_eq.mp he⟩)
  rw [replacement, hno]

theorem replacement_cons (s : Staged) (staged : List Staged) (entry : RecordId × Record) :
    replacement (s :: staged) entry =
      if s.oldId = entry.1 then (s.newId, s.new) else replacement staged entry := by
  unfold replacement
  rw [List.find?_cons]
  by_cases h : s.oldId = entry.1
  · rw [if_pos h, beq_iff_eq.mpr h]
  · rw [if_neg h, beq_false_of_ne h]

end Staged

namespace Ready

variable {m : PositionedMap Record} {s : Staged} {staged rest : List Staged}

/-- The new id of a staged record is the old id of no record staged after it. -/
theorem newId_not_mem (h : Ready m (s :: rest)) : s.newId ∉ rest.map Staged.oldId := by
  intro hm
  rcases h.free s List.mem_cons_self with he | hc
  · exact (List.nodup_cons.mp h.oldIds).1 (he ▸ hm)
  · obtain ⟨t, ht, he⟩ := List.mem_map.mp hm
    have := h.linked.contains_of_mem
      (List.mem_map_of_mem (h.present t (List.mem_cons_of_mem _ ht)))
    rw [he, hc] at this
    exact Bool.noConfusion this

/-- The first staged record is put in place, and the others are still ready. -/
theorem step (h : Ready m (s :: rest)) :
    ∃ m', m.rekey s.oldId s.newId s.new = (.ok true, m') ∧
      m'.entries = PositionedMap.exchange s.oldId (s.newId, s.new) m.entries ∧
      (∀ key, m'.contains key = true ↔ key = s.newId ∨ key ≠ s.oldId ∧ m.contains key = true) ∧
      Ready m' rest := by
  have hs : s ∈ s :: rest := List.mem_cons_self
  obtain ⟨hold, holds⟩ := List.nodup_cons.mp h.oldIds
  obtain ⟨hnew, hnews⟩ := List.nodup_cons.mp h.newIds
  obtain ⟨m', hr, hl, he, hc⟩ := h.linked.rekey (h.present s hs) (h.free s hs) s.new
  refine ⟨m', hr, he, hc, hl, fun t ht => ?_, holds, hnews, fun t ht => ?_⟩
  -- Only the entry under the first old id was exchanged, and only the first new id was recorded.
  · rw [he, PositionedMap.mem_exchange (h.present s hs)]
    exact .inr ⟨h.present t (List.mem_cons_of_mem _ ht), fun e =>
      hold (List.mem_map.mpr ⟨t, ht, e⟩)⟩
  · rcases h.free t (List.mem_cons_of_mem _ ht) with e | hf
    · exact .inl e
    · right
      rw [Bool.eq_false_iff, Ne, hc]
      rintro (e | ⟨_, hm⟩)
      · exact hnew (List.mem_map.mpr ⟨t, ht, e⟩)
      · rw [hf] at hm
        exact Bool.noConfusion hm

/-- Exchanging the first staged record and then the others is exchanging all of them. -/
theorem replacement_exchanged (h : Ready m (s :: rest)) (entry : RecordId × Record) :
    Staged.replacement rest (if entry.1 = s.oldId then (s.newId, s.new) else entry) =
      Staged.replacement (s :: rest) entry := by
  rw [Staged.replacement_cons]
  by_cases heq : entry.1 = s.oldId
  · rw [if_pos heq, if_pos heq.symm]
    exact Staged.replacement_of_not_mem h.newId_not_mem
  · rw [if_neg heq, if_neg (Ne.symm heq)]

/-- Placing staged records one after the other exchanges them all at once. -/
theorem place (h : Ready m staged) :
    ∃ m', Table.place m staged = .ok m' ∧ m'.Linked ∧
      m'.entries = m.entries.map (Staged.replacement staged) ∧
      ∀ key, m'.contains key = true ↔ key ∈ staged.map Staged.newId ∨
        key ∉ staged.map Staged.oldId ∧ m.contains key = true := by
  induction staged generalizing m with
  | nil =>
    refine ⟨m, rfl, h.linked, ?_, by simp⟩
    exact (List.map_id _).symm
  | cons s rest ih =>
    obtain ⟨m₁, hr, he, hc, hready⟩ := h.step
    obtain ⟨m₂, hp, hl, hentries, hcontains⟩ := ih hready
    refine ⟨m₂, ?_, hl, ?_, fun key => ?_⟩
    · rw [Table.place, hr]
      exact hp
    · rw [hentries, he, PositionedMap.exchange, List.map_map]
      exact List.map_congr_left fun entry _ => h.replacement_exchanged entry
    · have hno := h.newId_not_mem
      rw [hcontains, hc, List.map_cons, List.map_cons, List.mem_cons, List.mem_cons]
      by_cases hk : key = s.newId
      · simp only [hk, hno, true_or, not_false_eq_true, and_self, or_true]
      · simp only [hk, false_or, not_or, and_assoc, and_left_comm]

/-- Moving the ids of staged records one by one keeps an index in step with the records. -/
theorem covers (h : Ready m staged) {m' : PositionedMap Record}
    (hp : Table.place m staged = .ok m') {index : Index} {column : String}
    (hi : index.Covers column m.entries) :
    (staged.foldl (fun index s => index.refile column s.oldId s.old s.newId s.new)
      index).Covers column m'.entries := by
  induction staged generalizing m index with
  | nil =>
    obtain rfl := Except.ok.inj hp
    exact hi
  | cons s rest ih =>
    obtain ⟨m₁, hr, he, _, hready⟩ := h.step
    rw [Table.place, hr] at hp
    refine ih hready hp ?_
    rw [he]
    exact hi.refile h.linked.distinct (h.present s List.mem_cons_self) s.newId s.new

end Ready

/-- What is left when the new ids were checked and the staged records put in place. -/
theorem Stages.placed {table : Table} {changes : List (String × Value)}
    {filter : Option Predicate} {staged : List Staged} {records : PositionedMap Record}
    (h : Stages table changes filter table.records.entries staged)
    (hl : table.records.Linked) (hkeys : table.checkKeys [] staged = .ok ())
    (hplace : Table.place table.records staged = .ok records) :
    records.Linked ∧
      records.entries = table.records.entries.map (Staged.replacement staged) ∧
      ∀ key, records.contains key = true ↔ key ∈ staged.map Staged.newId ∨
        key ∉ staged.map Staged.oldId ∧ table.records.contains key = true := by
  obtain ⟨placed, hplaced, hrest⟩ := (h.ready hl hkeys).place
  obtain rfl := Except.ok.inj (hplace.symm.trans hplaced)
  exact hrest

/-! ## All staged records at once -/

/-- What an update makes of one entry. -/
def Table.amend (table : Table) (changes : List (String × Value)) (filter : Option Predicate)
    (entry : RecordId × Record) : Except Fault (RecordId × Record) := do
  if ← Predicate.accepts filter entry.2 then
    let new := entry.2.insertAll changes
    return (← table.newId entry.1 new, new)
  else return entry

namespace Stages

variable {table : Table} {changes : List (String × Value)} {filter : Option Predicate}
variable {entries : List (RecordId × Record)} {staged : List Staged}

theorem oldId_mem (h : Stages table changes filter entries staged) {id : RecordId}
    (hid : id ∈ staged.map Staged.oldId) : id ∈ entryKeys entries := by
  obtain ⟨s, hs, rfl⟩ := List.mem_map.mp hid
  exact List.mem_map_of_mem (f := Prod.fst) (h.of_mem hs).1

theorem replacement_rest {id : RecordId} {record : Record}
    (hd : (entryKeys ((id, record) :: entries)).Nodup) (newId : RecordId) (new : Record) :
    entries.map (Staged.replacement (⟨id, newId, record, new⟩ :: staged)) =
      entries.map (Staged.replacement staged) :=
  List.map_congr_left fun entry he => by
    have hne : id ≠ entry.1 := fun eq =>
      (List.nodup_cons.mp hd).1 (List.mem_map.mpr ⟨entry, he, eq.symm⟩)
    rw [Staged.replacement_cons, if_neg hne]

/-- Exchanging all staged records leaves the ones beside them and those that they become. -/
theorem perm_replacement (h : Stages table changes filter entries staged)
    (hd : (entryKeys entries).Nodup) :
    (entries.map (Staged.replacement staged)).Perm
      (Staged.beside staged entries ++ staged.map fun s => (s.newId, s.new)) := by
  induction h with
  | nil => exact List.Perm.refl _
  | @kept id record rest staged _ hrest ih =>
    have hn := List.nodup_cons.mp hd
    have hno : id ∉ staged.map Staged.oldId := fun hm => hn.1 (hrest.oldId_mem hm)
    have hkeep : (!(staged.map Staged.oldId).contains id) = true := by simpa using hno
    rw [List.map_cons, Staged.replacement_of_not_mem hno, Staged.beside, List.filter_cons,
      if_pos hkeep, List.cons_append]
    exact (ih hn.2).cons _
  | @moved id newId record rest staged _ _ hrest ih =>
    have hn := List.nodup_cons.mp hd
    have hbeside : Staged.beside (⟨id, newId, record, record.insertAll changes⟩ :: staged)
        ((id, record) :: rest) = Staged.beside staged rest := by
      rw [Staged.beside, List.map_cons, List.filter_cons, if_neg (by simp)]
      refine List.filter_congr fun entry he => ?_
      have hne : entry.1 ≠ id := fun eq => hn.1 (List.mem_map.mpr ⟨entry, he, eq⟩)
      rw [List.contains_cons, beq_false_of_ne hne, Bool.false_or]
    rw [List.map_cons, replacement_rest hd, Staged.replacement_cons, if_pos rfl, hbeside,
      List.map_cons]
    exact ((ih hn.2).cons _).trans List.perm_middle.symm

theorem mem_replacement (h : Stages table changes filter entries staged)
    (hd : (entryKeys entries).Nodup) {entry : RecordId × Record} :
    entry ∈ entries.map (Staged.replacement staged) ↔
      (entry ∈ entries ∧ entry.1 ∉ staged.map Staged.oldId) ∨
        ∃ s ∈ staged, entry = (s.newId, s.new) := by
  rw [(h.perm_replacement hd).mem_iff, List.mem_append, Staged.beside, List.mem_filter,
    List.mem_map, Bool.not_eq_true', List.contains_eq_mem, decide_eq_false_iff_not]
  simp only [eq_comm]

/-- The ids afterwards are the ones beside the staged records and the new ones. -/
theorem perm_keys_replacement (h : Stages table changes filter entries staged)
    (hd : (entryKeys entries).Nodup) :
    (entryKeys (entries.map (Staged.replacement staged))).Perm
      (entryKeys (Staged.beside staged entries) ++ staged.map Staged.newId) := by
  have hkeys := (h.perm_replacement hd).map Prod.fst
  rw [List.map_append, List.map_map (l := staged)] at hkeys
  exact hkeys

theorem mem_keys_beside {id : RecordId} :
    id ∈ entryKeys (Staged.beside staged entries) ↔
      id ∈ entryKeys entries ∧ id ∉ staged.map Staged.oldId := by
  constructor
  · intro hid
    obtain ⟨entry, he, rfl⟩ := List.mem_map.mp hid
    obtain ⟨he, hno⟩ := List.mem_filter.mp he
    exact ⟨List.mem_map_of_mem he, by simpa using hno⟩
  · rintro ⟨hid, hno⟩
    obtain ⟨entry, he, rfl⟩ := List.mem_map.mp hid
    exact List.mem_map.mpr ⟨entry, List.mem_filter.mpr ⟨he, by simpa using hno⟩, rfl⟩

theorem mem_keys_replacement (h : Stages table changes filter entries staged)
    (hd : (entryKeys entries).Nodup) {id : RecordId} :
    id ∈ entryKeys (entries.map (Staged.replacement staged)) ↔
      (id ∈ entryKeys entries ∧ id ∉ staged.map Staged.oldId) ∨ id ∈ staged.map Staged.newId := by
  rw [(h.perm_keys_replacement hd).mem_iff, List.mem_append, mem_keys_beside]

/-- The records afterwards show what the ones beside the staged records show and what the new ones
do. -/
theorem perm_shownIn (h : Stages table changes filter entries staged)
    (hd : (entryKeys entries).Nodup) (column : String) :
    (Record.shownIn column ((entries.map (Staged.replacement staged)).map Prod.snd)).Perm
      (Record.shownIn column ((Staged.beside staged entries).map Prod.snd) ++
        Record.shownIn column (staged.map Staged.new)) := by
  have hshown := ((h.perm_replacement hd).map Prod.snd).filterMap
    fun record => (KeyedMap.find? record column).map Value.shown
  rw [List.map_append, List.filterMap_append, List.map_map (l := staged)] at hshown
  exact hshown

/-- Where a column shows no text twice, the check of the column passes exactly when it shows none
twice afterwards. -/
theorem checkColumn_eq_ok_iff (h : Stages table changes filter table.records.entries staged)
    (hd : (entryKeys table.records.entries).Nodup) {column : String}
    (hold : (Record.shownIn column table.records.values).Nodup) :
    Table.checkColumn column (table.takenBeside staged column) staged = .ok () ↔
      (Record.shownIn column
        ((table.records.entries.map (Staged.replacement staged)).map Prod.snd)).Nodup := by
  have hbeside : (Record.shownIn column
      ((Staged.beside staged table.records.entries).map Prod.snd)).Nodup :=
    hold.sublist ((List.filter_sublist.map Prod.snd).filterMap _)
  rw [Table.checkColumn_eq_ok_iff, Table.takenBeside_eq, (h.perm_shownIn hd column).nodup_iff,
    List.nodup_append]
  constructor
  · rintro ⟨hnew, hapart⟩
    exact ⟨hbeside, hnew, fun a ha b hb e => hapart b hb (e ▸ ha)⟩
  · rintro ⟨_, hnew, hapart⟩
    exact ⟨hnew, fun shown hs ht => hapart shown ht shown hs rfl⟩

/-- When every entry can be amended, the records to amend can be staged, and exchanging them amends
all entries. -/
theorem of_amend {after : List (RecordId × Record)} (hd : (entryKeys entries).Nodup)
    (h : entries.mapM (table.amend changes filter) = .ok after) :
    ∃ staged, Stages table changes filter entries staged ∧
      after = entries.map (Staged.replacement staged) := by
  induction entries generalizing after with
  | nil =>
    obtain rfl := Except.ok.inj h
    exact ⟨[], .nil, rfl⟩
  | cons entry rest ih =>
    obtain ⟨id, record⟩ := entry
    have hn := List.nodup_cons.mp hd
    rw [List.mapM_cons] at h
    simp only [bind_eq_ok, Table.amend] at h
    obtain ⟨first, ⟨accepted, ha, hfirst⟩, tail, htail, hr⟩ := h
    obtain rfl := Except.ok.inj hr
    obtain ⟨staged, hstaged, rfl⟩ := ih hn.2 htail
    cases accepted with
    | false =>
      obtain rfl := Except.ok.inj hfirst
      refine ⟨staged, .kept ha hstaged, ?_⟩
      rw [List.map_cons, Staged.replacement_of_not_mem fun hm => hn.1 (hstaged.oldId_mem hm)]
    | true =>
      simp only [if_true, bind_eq_ok] at hfirst
      obtain ⟨newId, hid, hfirst⟩ := hfirst
      obtain rfl := Except.ok.inj hfirst
      refine ⟨_, .moved ha hid hstaged, ?_⟩
      rw [List.map_cons, replacement_rest hd, Staged.replacement_cons, if_pos rfl]

end Stages

end Rowfile
