import Rowfile.Proofs.KeyCollisions
import Rowfile.Proofs.Outcomes

/-!
# Forgetting freed ids

A deletion takes records out of a table and leaves their ids recorded. This module sets two catalogs
side by side that show the same, where the first records some freed ids that the second has
forgotten. Every operation gives the same answer on both and leaves them side by side, unless it asks
for one of these ids: it would store a record under it, or give it to a record that it updates. Then
the first catalog refuses the id, and the second does not.
-/
namespace Rowfile

/-! ## Maps of values that are read alike -/

namespace KeyedMap

variable {V W : Type} (f : V → W)

theorem mapWithKey_insert (m : KeyedMap V) (key : String) (value : V) :
    (m.insert key value).mapWithKey (fun _ => f) =
      (m.mapWithKey fun _ => f).insert key (f value) := by
  have hentries : ∀ entries : List (String × V),
      (setEntry key value entries).map (fun entry => (entry.1, f entry.2)) =
        setEntry key (f value) (entries.map fun entry => (entry.1, f entry.2)) := by
    intro entries
    induction entries with
    | nil => rfl
    | cons entry rest ih =>
      by_cases h : entry.1 = key
      · simp [setEntry, h]
      · simp [setEntry, h, ih]
  exact ext (hentries m.entries)

theorem mapWithKey_erase (m : KeyedMap V) (key : String) :
    (m.erase key).mapWithKey (fun _ => f) = (m.mapWithKey fun _ => f).erase key := by
  refine ext ?_
  simp only [erase, mapWithKey, List.filter_map, Function.comp_def]

theorem mapWithKey_moveEntry (m : KeyedMap V) (old new : String) :
    (Catalog.moveEntry old new m).mapWithKey (fun _ => f) =
      Catalog.moveEntry old new (m.mapWithKey fun _ => f) := by
  unfold Catalog.moveEntry
  rw [find?_mapWithKey]
  cases m.find? old with
  | none => rfl
  | some value => rw [mapWithKey_insert, mapWithKey_erase]; rfl

end KeyedMap

/-! ## Tables side by side -/

/-- Two tables and some ids that stand in a relation, or no tables and no ids. -/
inductive PairedAt (R : Table → Table → List RecordId → Prop) :
    Option Table → Option Table → List RecordId → Prop
  | both {a b : Table} {freed : List RecordId} : R a b freed → PairedAt R (some a) (some b) freed
  | neither : PairedAt R none none []

/-- Under every name the tables and the ids of two maps stand in a relation. -/
def Paired (R : Table → Table → List RecordId → Prop) (tables others : KeyedMap Table)
    (freed : String → List RecordId) : Prop :=
  ∀ name, PairedAt R (tables.find? name) (others.find? name) (freed name)

namespace Paired

variable {R : Table → Table → List RecordId → Prop} {tables others : KeyedMap Table}
variable {freed : String → List RecordId} {name : String}

theorem both (h : Paired R tables others freed) {a : Table} (ha : tables.find? name = some a) :
    ∃ b, others.find? name = some b ∧ R a b (freed name) := by
  have hat := h name
  rw [ha] at hat
  revert hat
  generalize others.find? name = found
  intro hat
  cases hat with
  | both hr => exact ⟨_, rfl, hr⟩

theorem neither (h : Paired R tables others freed) (ha : tables.find? name = none) :
    others.find? name = none ∧ freed name = [] := by
  have hat := h name
  rw [ha] at hat
  revert hat
  generalize others.find? name = found
  generalize freed name = ids
  intro hat
  cases hat
  exact ⟨rfl, rfl⟩

theorem set (h : Paired R tables others freed) (name : String) {a b : Table}
    {ids : List RecordId} (hr : R a b ids) :
    Paired R (tables.insert name a) (others.insert name b) (Function.update freed name ids) := by
  intro other
  rw [KeyedMap.find?_insert, KeyedMap.find?_insert, Function.update_apply]
  split
  · exact .both hr
  · exact h other

/-- A set table may keep the ids that were freed under its name. -/
theorem set_same (h : Paired R tables others freed) {a b : Table} (hr : R a b (freed name)) :
    Paired R (tables.insert name a) (others.insert name b) freed := by
  have hset := h.set name hr
  rw [Function.update_eq_self] at hset
  exact hset

theorem erase (h : Paired R tables others freed) (name : String) :
    Paired R (tables.erase name) (others.erase name) (Function.update freed name []) := by
  intro other
  rw [KeyedMap.find?_erase, KeyedMap.find?_erase, Function.update_apply]
  split
  · exact .neither
  · exact h other

theorem move (h : Paired R tables others freed) {old new : String} {a : Table}
    (hold : tables.find? old = some a) (hnew : tables.find? new = none) :
    Paired R (Catalog.moveEntry old new tables) (Catalog.moveEntry old new others)
      (Function.update (Function.update freed new (freed old)) old []) := by
  obtain ⟨b, hb, hr⟩ := h.both hold
  have hne : new ≠ old := by
    rintro rfl
    rw [hold] at hnew
    cases hnew
  intro other
  rw [Catalog.find?_moveEntry hold, Catalog.find?_moveEntry hb, Function.update_apply,
    Function.update_apply]
  by_cases ho : other = new
  · rw [if_pos ho, if_pos ho, if_pos ho, if_neg (ho ▸ hne)]
    exact .both hr
  · rw [if_neg ho, if_neg ho, if_neg ho]
    split
    · exact .neither
    · exact h other

end Paired

/-! ## Tables that show the same -/

/-- Two tables show the same, and the first records the ids of the second and the freed ones. -/
structure Table.Alike (a b : Table) (freed : List RecordId) : Prop where
  content : a.content = b.content
  linked : a.records.Linked
  linked_other : b.records.Linked
  recorded : a.Recorded (fun id => b.records.contains id = true) freed

namespace Table

variable {a b : Table} {freed : List RecordId} {name : String}

theorem schema_eq_of_content (h : a.content = b.content) : a.schema = b.schema :=
  congrArg TableContent.schema h

theorem entries_eq_of_content (h : a.content = b.content) :
    a.records.entries = b.records.entries :=
  congrArg TableContent.records h

theorem size_eq_of_content (h : a.content = b.content) : a.size = b.size := by
  rw [size, size, PositionedMap.size, PositionedMap.size, entries_eq_of_content h]

theorem prepare_congr (h : a.content = b.content) (record : Record) :
    a.prepare name record = b.prepare name record := by
  unfold prepare
  rw [schema_eq_of_content h]

theorem boundColumns_congr (h : a.content = b.content) (columns : Option (List String))
    (count : Nat) : a.boundColumns name columns count = b.boundColumns name columns count := by
  unfold boundColumns
  rw [schema_eq_of_content h]

theorem checkUnique_congr (h : a.content = b.content) (record : Record) (columns : List Column) :
    a.checkUnique record columns = b.checkUnique record columns := by
  induction columns with
  | nil => rfl
  | cons column columns ih =>
    rw [checkUnique, checkUnique, ih, PositionedMap.values, PositionedMap.values,
      entries_eq_of_content h]

theorem changes_congr (h : a.content = b.content) (assignments : List Assignment) :
    a.changes name assignments = b.changes name assignments := by
  induction assignments with
  | nil => rfl
  | cons assignment rest ih => rw [changes, changes, ih, schema_eq_of_content h]

theorem stage_congr (h : a.content = b.content) (changes : List (String × Value))
    (filter : Option Predicate) (entries : List (RecordId × Record)) :
    a.stage changes filter entries = b.stage changes filter entries := by
  induction entries with
  | nil => rfl
  | cons entry rest ih =>
    obtain ⟨id, record⟩ := entry
    have hnew : ∀ new, a.newId id new = b.newId id new := fun new => by
      rw [newId, newId, schema_eq_of_content h]
    rw [stage, stage, ih]
    simp only [hnew]

theorem checkStagedUnique_congr (h : a.content = b.content) (staged : List Staged) :
    a.checkStagedUnique staged = b.checkStagedUnique staged := by
  have htaken : ∀ column, a.takenBeside staged column = b.takenBeside staged column :=
    fun column => by rw [takenBeside, takenBeside, entries_eq_of_content h]
  unfold checkStagedUnique
  rw [schema_eq_of_content h]
  simp only [htaken]

/-- The check of new ids depends on a table only by which ids that are new to their records it
records. -/
theorem checkKeys_congr {staged : List Staged} (h : ∀ s ∈ staged, s.newId ≠ s.oldId →
    a.records.contains s.newId = b.records.contains s.newId) (seen : List RecordId) :
    a.checkKeys seen staged = b.checkKeys seen staged := by
  induction staged generalizing seen with
  | nil => rfl
  | cons s rest ih =>
    have hfirst : (s.newId ≠ s.oldId ∧ a.records.contains s.newId = true) ↔
        s.newId ≠ s.oldId ∧ b.records.contains s.newId = true :=
      and_congr_right fun hne => by rw [h s List.mem_cons_self hne]
    rw [checkKeys, checkKeys, ih fun t ht => h t (List.mem_cons_of_mem _ ht)]
    simp only [hfirst]

def strike (ids : List RecordId) (table : Table) : Table :=
  { table with records.positions :=
      table.records.positions.filter fun record => !ids.contains record.1 }

theorem contains_strike (ids : List RecordId) (table : Table) (id : RecordId) :
    (table.strike ids).records.contains id = (table.records.contains id && !ids.contains id) := by
  have hlookup : ∀ positions : List (String × Nat),
      (positions.filter fun record => !ids.contains record.1).lookup id =
        if ids.contains id then none else positions.lookup id := by
    intro positions
    induction positions with
    | nil => simp
    | cons record rest ih => grind [KeyedMap.lookup_cons_eq]
  rw [strike, PositionedMap.contains, PositionedMap.contains, PositionedMap.position?,
    PositionedMap.position?, hlookup]
  cases ids.contains id <;> simp

theorem checkKeys_strike_eq_ok {table : Table} {staged : List Staged} (ids : List RecordId)
    (h : table.checkKeys [] staged = .ok ()) : (table.strike ids).checkKeys [] staged = .ok () := by
  obtain ⟨hnew, hseen, hfree⟩ := checkKeys_eq_ok_iff.mp h
  refine checkKeys_eq_ok_iff.mpr ⟨hnew, hseen, fun s hs => (hfree s hs).imp_right fun hf => ?_⟩
  rw [contains_strike, hf, Bool.false_and]

namespace Alike

theorem ofSchema (schema : Schema) : (Table.ofSchema schema).Alike (.ofSchema schema) [] :=
  ⟨rfl, PositionedMap.linked_empty, PositionedMap.linked_empty,
    fun _ => ⟨(or_iff_left List.not_mem_nil).symm, fun hid => (List.not_mem_nil hid).elim⟩⟩

/-- A record that asks for no freed id is taken by both tables or refused by both alike. -/
theorem accept (h : a.Alike b freed) (record : Record)
    (hasks : ∀ id stored, a.prepare name record = .ok (id, stored) → id ∉ freed) :
    a.accept name record = b.accept name record := by
  rw [Table.accept, Table.accept, ← prepare_congr h.content]
  cases hprepare : a.prepare name record with
  | error fault => rfl
  | ok prepared =>
    obtain ⟨id, stored⟩ := prepared
    have hcontains : a.records.contains id = b.records.contains id := by
      rw [Bool.eq_iff_iff, (h.recorded id).1, or_iff_left (hasks id stored hprepare)]
    simp only [ok_bind, hcontains, checkUnique_congr h.content, schema_eq_of_content h.content]

theorem stored (h : a.Alike b freed) {record stored : Record} {id : RecordId}
    (haccept : a.accept name record = .ok (id, stored))
    (hother : b.accept name record = .ok (id, stored)) :
    Alike { a with records := a.records.extend id stored }
      { b with records := b.records.extend id stored } freed := by
  have hfree := (Table.accept_eq_ok_iff.mp haccept).2.1
  have hfree_other := (Table.accept_eq_ok_iff.mp hother).2.1
  refine ⟨?_, h.linked.extend hfree _, h.linked_other.extend hfree_other _, ?_⟩
  · simp only [Table.content, PositionedMap.extend, schema_eq_of_content h.content,
      entries_eq_of_content h.content]
  · exact (h.recorded.stored hfree stored).congr fun other => by
      rw [PositionedMap.contains_extend, or_comm]

theorem deleted (h : a.Alike b freed) (keep : RecordId → Record → Bool) :
    Alike { a with records := a.records.retain keep }
      { b with records := b.records.retain keep } freed := by
  refine ⟨?_, h.linked.retain keep, h.linked_other.retain keep, ?_⟩
  · simp only [Table.content, PositionedMap.entries_retain, schema_eq_of_content h.content,
      entries_eq_of_content h.content]
  · intro id
    simp only [h.linked.contains_retain, h.linked_other.contains_retain]
    exact h.recorded id

/-- The second table checks new ids as the first does once the freed ids are struck. -/
theorem checkKeys_strike (h : a.Alike b freed) (staged : List Staged) :
    (a.strike freed).checkKeys [] staged = b.checkKeys [] staged := by
  refine checkKeys_congr (fun s _ _ => ?_) []
  obtain ⟨hrecorded, hapart⟩ := h.recorded s.newId
  rw [contains_strike, Bool.eq_iff_iff, Bool.and_eq_true, hrecorded, Bool.not_eq_true',
    List.contains_eq_mem, decide_eq_false_iff_not]
  exact ⟨fun ⟨hor, hno⟩ => hor.resolve_right hno, fun hb => ⟨.inl hb, fun hid => hapart hid hb⟩⟩

theorem updated (h : a.Alike b freed) {changes : List (String × Value)}
    {filter : Option Predicate} {staged : List Staged}
    (hstages : Stages a changes filter a.records.entries staged)
    (hcheck : a.checkKeys [] staged = .ok ()) (hother : b.checkKeys [] staged = .ok ()) :
    ∃ ra rb, place a.records staged = .ok ra ∧ place b.records staged = .ok rb ∧
      Alike { a with records := ra } { b with records := rb } freed := by
  have hstages_other : Stages b changes filter b.records.entries staged := by
    rw [← Table.stage_eq_ok_iff, ← stage_congr h.content, ← entries_eq_of_content h.content]
    exact Table.stage_eq_ok_iff.mpr hstages
  obtain ⟨ra, hra, hlinked, hentries, _⟩ := (hstages.ready h.linked hcheck).place
  obtain ⟨rb, hrb, hlinked_other, hentries_other, hcontains⟩ :=
    (hstages_other.ready h.linked_other hother).place
  refine ⟨ra, rb, hra, hrb, ?_, hlinked, hlinked_other, ?_⟩
  · simp only [Table.content, schema_eq_of_content h.content, hentries, hentries_other,
      entries_eq_of_content h.content]
  · have hlive : ∀ id ∈ a.records.keys, b.records.contains id = true := fun id hid => by
      rw [PositionedMap.keys, entries_eq_of_content h.content] at hid
      exact h.linked_other.contains_of_mem hid
    exact (h.recorded.updated h.linked hlive hstages hcheck hra).congr fun id => by
      rw [hcontains, or_comm, and_comm]

end Alike

end Table

/-! ## Asking for freed ids -/

/-- The record would be stored under one of the ids. -/
def Table.Wants (table : Table) (name : String) (record : Record) (ids : List RecordId) : Prop :=
  ∃ id stored, table.prepare name record = .ok (id, stored) ∧ id ∈ ids

/-- The operation asks for a freed id: it would store a record under one, or the check of its new
ids comes out otherwise once the freed ids are struck. -/
def Operation.AsksFor (catalog : Catalog) (freed : String → List RecordId) : Operation → Prop
  | .insert name record =>
    ∃ table, catalog.tables.find? name = some table ∧ table.Wants name record (freed name)
  | .insertValues name columns values =>
    ∃ table bound, catalog.tables.find? name = some table ∧
      table.boundColumns name columns values.length = .ok bound ∧
      table.Wants name (KeyedMap.ofList (bound.zip values)) (freed name)
  | .update name assignments filter =>
    ∃ table changes staged, catalog.tables.find? name = some table ∧
      table.changes name assignments = .ok changes ∧
      table.stage changes filter table.records.entries = .ok staged ∧
      (table.strike (freed name)).checkKeys [] staged ≠ table.checkKeys [] staged
  | _ => False

namespace Ledger

/-- The freed ids after an operation, without those that it frees itself. -/
def carriedAfter (ledger : Ledger) (operation : Operation) : String → List RecordId :=
  match operation with
  | .delete _ _ => ledger.freed
  | operation => ledger.freedAfter operation

/-- The ledger after an operation that frees no more ids. -/
def carry (ledger : Ledger) (operation : Operation) : Ledger :=
  ⟨operation.apply ledger.catalog, ledger.carriedAfter operation⟩

/-- One of the operations asks for an id that was freed before all of them. -/
def Asked (ledger : Ledger) : List Operation → Prop
  | [] => False
  | operation :: rest =>
    operation.AsksFor ledger.catalog ledger.freed ∨ (ledger.carry operation).Asked rest

end Ledger

/-! ## Catalogs that show the same -/

namespace Catalog

/-- Two catalogs show the same, and the tables of the first record freed ids beside those that the
tables of the second record. -/
structure Alike (freed : String → List RecordId) (a b : Catalog) : Prop where
  content : a.content = b.content
  tables : Paired Table.Alike a.tables b.tables freed

variable {freed : String → List RecordId} {a b : Catalog} {name : String}

theorem Alike.indexes (h : Alike freed a b) : a.indexes = b.indexes :=
  congrArg CatalogContent.indexes h.content

theorem Alike.of_parts
    (htables : a.tables.mapWithKey (fun _ => Table.content) =
      b.tables.mapWithKey fun _ => Table.content)
    (hindexes : a.indexes = b.indexes) (h : Paired Table.Alike a.tables b.tables freed) :
    Alike freed a b := by
  refine ⟨?_, h⟩
  rw [Catalog.content, Catalog.content, htables, hindexes]

theorem Alike.contents (h : Alike freed a b) :
    a.tables.mapWithKey (fun _ => Table.content) = b.tables.mapWithKey fun _ => Table.content :=
  congrArg CatalogContent.tables h.content

theorem Alike.set (h : Alike freed a b) {a' b' : Catalog} (ha : a'.tables = a.tables)
    (hb : b'.tables = b.tables) (hi : a'.indexes = b'.indexes) {ta tb : Table}
    (hr : ta.Alike tb (freed name)) : Alike freed (a'.setTable name ta) (b'.setTable name tb) := by
  rw [setTable, setTable, ha, hb, hi]
  refine .of_parts ?_ rfl (h.tables.set_same hr)
  rw [KeyedMap.mapWithKey_insert, KeyedMap.mapWithKey_insert, h.contents, hr.content]

theorem indexes_foldl_mapIndexes_congr {α : Type} (h : a.indexes = b.indexes)
    (change : α → String → Index → Index) (l : List α) :
    (l.foldl (fun catalog x => catalog.mapIndexes name (change x)) a).indexes =
      (l.foldl (fun catalog x => catalog.mapIndexes name (change x)) b).indexes := by
  induction l generalizing a b with
  | nil => exact h
  | cons x l ih =>
    refine ih ?_
    simp only [mapIndexes, h]
    cases b.indexes.find? name with
    | none => exact h
    | some indexes => rfl

end Catalog

/-- Two outcomes answer the same and are both saved or both not, and the catalogs after them stand in
a relation. -/
inductive Agree {α : Type} (P : Catalog → Catalog → Prop) (a b : Catalog) :
    Except Fault (Step α) → Except Fault (Step α) → Prop
  | failed (fault : Fault) : P a b → Agree P a b (.error fault) (.error fault)
  | done {ca cb : Catalog} (answer : α) (saves : Bool) : P ca cb →
      Agree P a b (.ok ⟨answer, ca, saves⟩) (.ok ⟨answer, cb, saves⟩)

namespace Agree

variable {α β : Type} {P : Catalog → Catalog → Prop} {a b : Catalog}

theorem answer {x y : Except Fault (Step α)} (h : Agree P a b x y) :
    x.map Step.answer = y.map Step.answer := by
  cases h <;> rfl

theorem after {x y : Except Fault (Step α)} (h : Agree P a b x y) : P (a.after x) (b.after y) := by
  cases h with
  | failed _ h => exact h
  | done _ _ h => exact h

/-- Outcomes agree that go on in agreement after the same step. -/
theorem bind (h : P a b) {x y : Except Fault β} {f g : β → Except Fault (Step α)} (hxy : x = y)
    (hfg : ∀ v, x = .ok v → Agree P a b (f v) (g v)) : Agree P a b (x >>= f) (y >>= g) := by
  subst hxy
  cases x with
  | error fault => exact .failed fault h
  | ok v => exact hfg v rfl

end Agree

namespace Catalog

theorem update_eq_error {catalog : Catalog} {name : String} {table : Table}
    (ht : catalog.tables.find? name = some table) {assignments : List Assignment}
    {filter : Option Predicate} {changes : List (String × Value)} {staged : List Staged}
    {fault : Fault} (hchanges : table.changes name assignments = .ok changes)
    (hstage : table.stage changes filter table.records.entries = .ok staged)
    (hkeys : table.checkKeys [] staged = .error fault) :
    catalog.update name assignments filter = .error fault := by
  have hfull : staged.isEmpty = false := by
    cases staged with
    | nil => cases hkeys
    | cons => rfl
  rw [Catalog.update, table_eq_ok_iff.mpr ht, ok_bind, hchanges, ok_bind, hstage, ok_bind, hfull]
  simp only [Bool.false_eq_true, if_false, hkeys, error_bind]

end Catalog

namespace Catalog.Alike

variable {freed : String → List RecordId} {a b : Catalog} {name : String}

theorem withTable {α : Type} {P : Catalog → Catalog → Prop} (h : Alike freed a b)
    (hfail : a.tables.find? name = none → P a b) {f g : Table → Except Fault (Step α)}
    (hfg : ∀ ta tb, a.tables.find? name = some ta → b.tables.find? name = some tb →
      ta.Alike tb (freed name) → Agree P a b (f ta) (g tb)) :
    Agree P a b (a.table name >>= f) (b.table name >>= g) := by
  cases ha : a.tables.find? name with
  | none =>
    obtain ⟨hb, _⟩ := h.tables.neither ha
    simp only [table, ha, hb]
    exact .failed _ (hfail ha)
  | some ta =>
    obtain ⟨tb, hb, hr⟩ := h.tables.both ha
    simp only [table, ha, hb]
    exact hfg ta tb ha hb hr

/-- One table is set on both sides, and the indexes under its name are changed in the same steps. -/
theorem setMapped {α : Type} (h : Alike freed a b) (change : α → String → Index → Index)
    (l : List α) {ta tb : Table} (hr : ta.Alike tb (freed name)) :
    Alike freed
      ((l.foldl (fun catalog x => catalog.mapIndexes name (change x)) a).setTable name ta)
      ((l.foldl (fun catalog x => catalog.mapIndexes name (change x)) b).setTable name tb) :=
  h.set (tables_foldl_mapIndexes name change l a) (tables_foldl_mapIndexes name change l b)
    (indexes_foldl_mapIndexes_congr h.indexes change l) hr

theorem insert (h : Alike freed a b) {record : Record}
    (hasks : ¬∃ table, a.tables.find? name = some table ∧ table.Wants name record (freed name)) :
    Agree (Alike freed) a b (a.insert name record) (b.insert name record) := by
  refine h.withTable (fun _ => h) fun ta tb hta htb hr => ?_
  have haccept := hr.accept record fun id stored hprepare hid =>
    hasks ⟨ta, hta, id, stored, hprepare, hid⟩
  refine .bind h haccept fun (id, stored) hok => ?_
  have hother := haccept.symm.trans hok
  have hstore : ∀ {table : Table}, table.records.contains id = false →
      table.store id stored = .ok { table with records := table.records.extend id stored } :=
    fun hfree => (Table.store_eq_ok_iff hfree).mpr rfl
  simp only [hstore (Table.accept_eq_ok_iff.mp hok).2.1,
    hstore (Table.accept_eq_ok_iff.mp hother).2.1, ok_bind]
  exact .done id true (h.setMapped (fun (_ : Unit) column index => index.file column id stored) [()]
    (hr.stored hok hother))

theorem insertValues (h : Alike freed a b) {columns : Option (List String)} {values : List Value}
    (hasks : ¬(Operation.insertValues name columns values).AsksFor a freed) :
    Agree (Alike freed) a b (a.insertValues name columns values)
      (b.insertValues name columns values) := by
  refine h.withTable (fun _ => h) fun ta tb hta _ hr => ?_
  refine .bind h (Table.boundColumns_congr hr.content columns _) fun bound hbound => ?_
  refine h.insert fun ⟨table, ht, hwants⟩ => hasks ⟨table, bound, ht, ?_, hwants⟩
  obtain rfl := Option.some.inj (hta.symm.trans ht)
  exact hbound

theorem update (h : Alike freed a b) {assignments : List Assignment} {filter : Option Predicate}
    (hasks : ¬(Operation.update name assignments filter).AsksFor a freed) :
    Agree (Alike freed) a b (a.update name assignments filter)
      (b.update name assignments filter) := by
  refine h.withTable (fun _ => h) fun ta tb hta htb hr => ?_
  refine .bind h (Table.changes_congr hr.content assignments) fun changes hchanges => ?_
  have hentries := Table.entries_eq_of_content hr.content
  refine .bind h (by rw [← hentries, Table.stage_congr hr.content]) fun staged hstage => ?_
  split
  · exact .done 0 false h
  · have hstages := Table.stage_eq_ok_iff.mp hstage
    have hkeys : ta.checkKeys [] staged = tb.checkKeys [] staged := by
      rw [← hr.checkKeys_strike]
      exact (of_not_not fun hne => hasks ⟨ta, changes, staged, hta, hchanges, hstage, hne⟩).symm
    refine .bind h hkeys fun _ hok => ?_
    refine .bind h (Table.checkStagedUnique_congr hr.content staged) fun _ _ => ?_
    obtain ⟨ra, rb, hra, hrb, halike⟩ := hr.updated hstages hok (hkeys.symm.trans hok)
    rw [hra, hrb]
    exact .done staged.length true (h.setMapped (fun (s : Staged) column index =>
      index.refile column s.oldId s.old s.newId s.new) staged halike)

theorem delete (h : Alike freed a b) (filter : Option Predicate) :
    Agree (Alike freed) a b (a.delete name filter) (b.delete name filter) := by
  refine h.withTable (fun _ => h) fun ta tb hta htb hr => ?_
  refine .bind h (by rw [Table.entries_eq_of_content hr.content]) fun doomed _ => ?_
  split
  · exact .done 0 false h
  · exact .done doomed.length true (h.setMapped (fun (entry : RecordId × Record) column index =>
      index.unfile column entry.1 entry.2) doomed (hr.deleted _))

theorem contains (h : Alike freed a b) (name : String) :
    a.tables.contains name = b.tables.contains name := by
  rw [KeyedMap.contains_eq_isSome, KeyedMap.contains_eq_isSome]
  cases ha : a.tables.find? name with
  | none => rw [(h.tables.neither ha).1]
  | some ta =>
    obtain ⟨tb, hb, _⟩ := h.tables.both ha
    rw [hb]
    rfl

theorem createTable (h : Alike freed a b) (schema : Schema) :
    Agree (Alike freed) a b (a.createTable name schema) (b.createTable name schema) := by
  unfold Catalog.createTable
  rw [← h.contains]
  split
  · exact .failed _ h
  · next hfree =>
    refine .done () true (h.set rfl rfl h.indexes ?_)
    rw [(h.tables.neither (KeyedMap.contains_eq_false_iff.mp (Bool.eq_false_iff.mpr hfree))).2]
    exact .ofSchema schema

/-- A dropped table takes the ids that were freed in it along. -/
theorem dropTable (h : Alike freed a b) :
    Agree (Alike (Function.update freed name [])) a b (a.dropTable name) (b.dropTable name) := by
  refine h.withTable (fun ha => ?_) fun ta tb _ _ hr => ?_
  · rw [← (h.tables.neither ha).2, Function.update_eq_self]
    exact h
  · rw [Table.size_eq_of_content hr.content]
    refine .done tb.size true (.of_parts ?_ ?_ (h.tables.erase name))
    · rw [KeyedMap.mapWithKey_erase, KeyedMap.mapWithKey_erase, h.contents]
    · rw [h.indexes]

theorem renameTable (h : Alike freed a b) {old new : String} :
    Agree (Alike (Ledger.freedAfter ⟨a, freed⟩ (.renameTable old new))) a b
      (a.renameTable old new) (b.renameTable old new) := by
  unfold Catalog.renameTable
  rw [← h.contains, ← h.contains]
  cases hold : a.tables.contains old with
  | false =>
    rw [show Ledger.freedAfter ⟨a, freed⟩ (.renameTable old new) = freed by
      simp [Ledger.freedAfter, hold]]
    exact .failed _ h
  | true =>
    cases hnew : a.tables.contains new with
    | true =>
      rw [show Ledger.freedAfter ⟨a, freed⟩ (.renameTable old new) = freed by
        simp [Ledger.freedAfter, hnew]]
      exact .failed _ h
    | false =>
      rw [show Ledger.freedAfter ⟨a, freed⟩ (.renameTable old new) =
          Function.update (Function.update freed new (freed old)) old [] by
        simp [Ledger.freedAfter, hold, hnew]]
      obtain ⟨ta, hta⟩ := Option.isSome_iff_exists.mp (KeyedMap.contains_iff.mp hold)
      refine .done () true (.of_parts ?_ ?_
        (h.tables.move hta (KeyedMap.contains_eq_false_iff.mp hnew)))
      · rw [KeyedMap.mapWithKey_moveEntry, KeyedMap.mapWithKey_moveEntry, h.contents]
      · rw [h.indexes]

theorem createIndex (h : Alike freed a b) {column : String} :
    Agree (Alike freed) a b (a.createIndex name column) (b.createIndex name column) := by
  refine h.withTable (fun _ => h) fun ta tb _ _ hr => ?_
  have hown : a.indexesOf name = b.indexesOf name := by rw [indexesOf, indexesOf, h.indexes]
  rw [← Table.schema_eq_of_content hr.content, ← Table.entries_eq_of_content hr.content, ← hown,
    ← h.indexes]
  cases (ta.schema.column? column).isNone with
  | true => exact .failed _ h
  | false =>
    dsimp only
    cases (a.indexesOf name).contains column with
    | true => exact .failed _ h
    | false => exact .done () true (.of_parts h.contents rfl h.tables)

/-! ### What freed ids change -/

/-- A record that asks for a freed id is refused for it by the first catalog alone. -/
theorem insert_refused (h : Alike freed a b) {record : Record} {table : Table}
    (ht : a.tables.find? name = some table) (hwants : table.Wants name record (freed name)) :
    ∃ fault, a.insert name record = .error fault ∧ b.insert name record ≠ .error fault := by
  obtain ⟨id, stored, hprepare, hid⟩ := hwants
  obtain ⟨other, hb, hr⟩ := h.tables.both ht
  obtain ⟨hrecorded, hapart⟩ := hr.recorded id
  have hother : ¬∃ key, b.insert name record = .error (.duplicateKey key) := by
    rw [insert_duplicateKey_iff hb (by rw [← Table.prepare_congr hr.content]; exact hprepare)]
    exact hapart hid
  obtain ⟨key, hkey⟩ := (insert_duplicateKey_iff ht hprepare).mpr (hrecorded.mpr (.inr hid))
  exact ⟨_, hkey, fun hsame => hother ⟨key, hsame⟩⟩

theorem insertValues_refused (h : Alike freed a b) {columns : Option (List String)}
    {values : List Value} (hasks : (Operation.insertValues name columns values).AsksFor a freed) :
    ∃ fault, a.insertValues name columns values = .error fault ∧
      b.insertValues name columns values ≠ .error fault := by
  obtain ⟨table, bound, ht, hbound, hwants⟩ := hasks
  obtain ⟨other, hb, hr⟩ := h.tables.both ht
  have hbound_other : other.boundColumns name columns values.length = .ok bound := by
    rw [← Table.boundColumns_congr hr.content]
    exact hbound
  rw [Catalog.insertValues, Catalog.insertValues, table_eq_ok_iff.mpr ht, table_eq_ok_iff.mpr hb,
    ok_bind, ok_bind, hbound, hbound_other]
  exact h.insert_refused ht hwants

/-- An update whose new ids the freed ids decide about is refused for another id, or for none, where
nothing was freed. -/
theorem update_refused (h : Alike freed a b) {assignments : List Assignment}
    {filter : Option Predicate}
    (hasks : (Operation.update name assignments filter).AsksFor a freed) :
    ∃ fault, a.update name assignments filter = .error fault ∧
      b.update name assignments filter ≠ .error fault := by
  obtain ⟨table, changes, staged, ht, hchanges, hstage, hne⟩ := hasks
  obtain ⟨other, hb, hr⟩ := h.tables.both ht
  have hchanges_other : other.changes name assignments = .ok changes := by
    rw [← Table.changes_congr hr.content]
    exact hchanges
  have hstage_other : other.stage changes filter other.records.entries = .ok staged := by
    rw [← Table.stage_congr hr.content, ← Table.entries_eq_of_content hr.content]
    exact hstage
  rw [hr.checkKeys_strike] at hne
  -- The checks differ, and the one that the freed ids are struck for passes whenever the other does.
  cases hkeys : table.checkKeys [] staged with
  | ok _ =>
    have hpass := Table.checkKeys_strike_eq_ok (freed name) hkeys
    rw [hr.checkKeys_strike] at hpass
    exact (hne (hpass.trans hkeys.symm)).elim
  | error fault =>
    refine ⟨fault, update_eq_error ht hchanges hstage hkeys, fun hsame => ?_⟩
    cases hkeys_other : other.checkKeys [] staged with
    | ok _ =>
      obtain ⟨key, rfl⟩ := Table.checkKeys_error hkeys
      exact (update_duplicateKey_iff hb hr.linked_other hchanges_other hstage_other).mp
        ⟨key, hsame⟩ hkeys_other
    | error fault_other =>
      rw [update_eq_error hb hchanges_other hstage_other hkeys_other] at hsame
      exact hne (by rw [hkeys, hkeys_other, Except.error.inj hsame])

end Catalog.Alike

end Rowfile
