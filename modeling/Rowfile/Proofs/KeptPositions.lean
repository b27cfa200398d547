import Rowfile.Proofs.KeyCollisions
import Rowfile.Proofs.Outcomes
import Rowfile.Proofs.SettledMaps
import Rowfile.Proofs.ShortCircuits

/-!
# No position is lost

Deletions leave outdated positions behind, and some of them lie past the last record. An operation
reaches for a recorded position in two places only: when it stores a record, under an id that its
check found without a position, and when it moves a staged record, under the id of a record that
stands where it is recorded. Moving the staged records one after the other leaves the others where
they are. So on every reached catalog no operation reaches past the end or takes one record for
another.
-/
namespace Rowfile

/-! ## Computations that lose no position -/

section
variable {α β : Type}

/-- A computation does not fail over a lost position. -/
def KeepsPositions (x : Except Fault α) : Prop := x ≠ .error .lostPosition

theorem keepsPositions_ok (a : α) : KeepsPositions (.ok a : Except Fault α) := fun h => by cases h

theorem keepsPositions_error {fault : Fault} (h : fault ≠ .lostPosition) :
    KeepsPositions (.error fault : Except Fault α) := fun he => h (Except.error.inj he)

theorem KeepsPositions.bind {x : Except Fault α} {f : α → Except Fault β} (hx : KeepsPositions x)
    (hf : ∀ a, x = .ok a → KeepsPositions (f a)) : KeepsPositions (x >>= f) := by
  intro h
  rcases bind_eq_error.mp h with h | ⟨a, ha, h⟩
  · exact hx h
  · exact hf a ha h

theorem KeepsPositions.map {x : Except Fault α} (hx : KeepsPositions x) (f : α → β) :
    KeepsPositions (x.map f) := by
  cases x with
  | ok a => exact keepsPositions_ok _
  | error fault => exact fun h => hx (congrArg Except.error (Except.error.inj h))

theorem keepsPositions_forM {f : α → Except Fault Unit} {l : List α}
    (h : ∀ a ∈ l, KeepsPositions (f a)) : KeepsPositions (l.forM f) := by
  intro he
  obtain ⟨a, ha, hf⟩ := forM_eq_error he
  exact h a ha hf

end

/-! ## Checks and filters -/

theorem Column.keepsPositions_check (column : Column) (value : Value) :
    KeepsPositions (column.check value) := by
  unfold check
  split
  · exact keepsPositions_ok _
  · exact keepsPositions_error (by simp [misfit])

theorem Schema.keepsPositions_check (schema : Schema) (table : String) (record : Record) :
    KeepsPositions (schema.check table record) := by
  unfold check
  split
  · exact keepsPositions_error (by simp)
  · refine keepsPositions_forM fun field _ => ?_
    unfold checkField
    split
    · exact keepsPositions_error (by simp)
    · exact Column.keepsPositions_check _ _

theorem Record.keepsPositions_key (record : Record) (column : String) :
    KeepsPositions (record.key column) := by
  unfold key
  split
  · split
    · exact keepsPositions_error (by simp)
    · exact keepsPositions_ok _
  · exact keepsPositions_error (by simp)

theorem Condition.keepsPositions_compareNumbers (record : Record) (condition : Condition)
    (test : Binary64 → Binary64 → Bool) :
    KeepsPositions (condition.compareNumbers record test) := by
  refine KeepsPositions.bind ?_ fun x _ => KeepsPositions.bind ?_ fun y _ => keepsPositions_ok _
  · unfold leftNumber
    split
    · exact keepsPositions_error (by simp)
    · split
      · exact keepsPositions_error (by simp)
      · exact keepsPositions_ok _
  · unfold rightNumber
    split
    · exact keepsPositions_error (by simp)
    · exact keepsPositions_ok _

theorem Condition.keepsPositions_eval (record : Record) (condition : Condition) :
    KeepsPositions (condition.eval record) := by
  unfold eval
  split
  · exact keepsPositions_ok _
  · exact keepsPositions_ok _
  · split <;> exact keepsPositions_ok _
  all_goals exact keepsPositions_compareNumbers record condition _

namespace Predicate

theorem keepsPositions_eval (record : Record) (predicate : Predicate) :
    KeepsPositions (predicate.eval record) := by
  intro h
  obtain ⟨condition, _, hcondition⟩ := exists_of_eval_eq_error h
  exact condition.keepsPositions_eval record hcondition

theorem keepsPositions_accepts (filter : Option Predicate) (record : Record) :
    KeepsPositions (accepts filter record) := by
  cases filter with
  | none => exact keepsPositions_ok _
  | some predicate => exact predicate.keepsPositions_eval record

end Predicate

theorem keepsPositions_passing (filter : Option Predicate) (entries : List (RecordId × Record)) :
    KeepsPositions (passing filter entries) := by
  induction entries with
  | nil => exact keepsPositions_ok _
  | cons entry rest ih =>
    exact (Predicate.keepsPositions_accepts filter entry.2).bind fun _ _ =>
      ih.bind fun _ _ => keepsPositions_ok _

namespace Table

variable (table : Table)

theorem keepsPositions_prepare (name : String) (record : Record) :
    KeepsPositions (table.prepare name record) := by
  refine (table.schema.keepsPositions_check name _).bind fun _ _ => ?_
  split
  · exact keepsPositions_error (by simp)
  · exact (Record.keepsPositions_key _ _).bind fun _ _ => keepsPositions_ok _

theorem keepsPositions_checkUnique (record : Record) (columns : List Column) :
    KeepsPositions (table.checkUnique record columns) := by
  intro h
  obtain ⟨_, _, _, _, _, he⟩ := checkUnique_error h
  cases he

theorem keepsPositions_accept (name : String) (record : Record) :
    KeepsPositions (table.accept name record) := by
  refine (table.keepsPositions_prepare name record).bind fun (id, stored) _ => ?_
  have hrest : KeepsPositions (table.checkUnique stored table.schema.uniqueColumns >>=
      fun _ => pure (id, stored)) :=
    (table.keepsPositions_checkUnique _ _).bind fun _ _ => keepsPositions_ok _
  dsimp only
  split
  · exact keepsPositions_error (by simp)
  · exact hrest

theorem keepsPositions_boundColumns (name : String) (columns : Option (List String))
    (count : Nat) : KeepsPositions (table.boundColumns name columns count) := by
  unfold boundColumns
  split
  · split
    · exact keepsPositions_error (by simp)
    · split
      · exact keepsPositions_error (by simp)
      · exact keepsPositions_ok _
  · split
    · exact keepsPositions_error (by simp)
    · exact keepsPositions_ok _

theorem keepsPositions_changes (name : String) (assignments : List Assignment) :
    KeepsPositions (table.changes name assignments) := by
  induction assignments with
  | nil => exact keepsPositions_ok _
  | cons assignment rest ih =>
    unfold changes
    split
    · exact keepsPositions_error (by simp)
    · next column _ =>
      exact (column.keepsPositions_check _).bind fun _ _ =>
        ih.bind fun _ _ => keepsPositions_ok _

theorem keepsPositions_newId (oldId : RecordId) (record : Record) :
    KeepsPositions (table.newId oldId record) := by
  unfold newId
  split
  · exact record.keepsPositions_key _
  · exact keepsPositions_ok _

theorem keepsPositions_stage (changes : List (String × Value)) (filter : Option Predicate)
    (entries : List (RecordId × Record)) : KeepsPositions (table.stage changes filter entries) := by
  induction entries with
  | nil => exact keepsPositions_ok _
  | cons entry rest ih =>
    obtain ⟨id, record⟩ := entry
    refine (Predicate.keepsPositions_accepts filter record).bind fun accepted _ => ?_
    cases accepted with
    | false => exact ih
    | true =>
      exact (table.keepsPositions_newId id _).bind fun _ _ =>
        ih.bind fun _ _ => keepsPositions_ok _

theorem keepsPositions_checkKeys (seen : List RecordId) (staged : List Staged) :
    KeepsPositions (table.checkKeys seen staged) := by
  intro h
  obtain ⟨_, he⟩ := checkKeys_error h
  cases he

theorem keepsPositions_checkStagedUnique (staged : List Staged) :
    KeepsPositions (table.checkStagedUnique staged) := by
  intro h
  obtain ⟨_, _, _, he, _⟩ := checkStagedUnique_error h
  cases he

end Table

/-! ## Records that are still to be moved -/

/-- When the first of some staged records are in place, the others are still ready, and each of them
stands where it stood. -/
theorem Ready.front {m : PositionedMap Record} {front back : List Staged}
    (h : Ready m (front ++ back)) :
    ∃ m', Table.place m front = .ok m' ∧ Ready m' back ∧
      ∀ s ∈ back, ∀ position : Nat, m.entries[position]? = some (s.oldId, s.old) →
        m'.entries[position]? = some (s.oldId, s.old) := by
  induction front generalizing m with
  | nil => exact ⟨m, rfl, h, fun _ _ _ he => he⟩
  | cons t front ih =>
    obtain ⟨m₁, hrekey, hentries, _, hready⟩ := h.step
    obtain ⟨m', hplace, hback, hstill⟩ := ih hready
    refine ⟨m', ?_, hback, fun s hs position he => hstill s hs position ?_⟩
    · rw [Table.place, hrekey]
      exact hplace
    · have hne : s.oldId ≠ t.oldId := by
        intro heq
        have hmem : s.oldId ∈ (front ++ back).map Staged.oldId :=
          List.mem_map_of_mem (List.mem_append_right front hs)
        exact (List.nodup_cons.mp h.oldIds).1 (heq ▸ hmem)
      rw [hentries, PositionedMap.exchange, List.getElem?_map, he, Option.map_some]
      exact congrArg some (if_neg hne)

/-- A staged record is found under its old id at its own place, and is moved. -/
theorem Ready.rekeyed {m : PositionedMap Record} {front back : List Staged} {s : Staged}
    (h : Ready m (front ++ s :: back)) :
    ∃ before position after, Table.place m front = .ok before ∧
      m.entries[position]? = some (s.oldId, s.old) ∧
      before.position? s.oldId = some position ∧
      before.entries[position]? = some (s.oldId, s.old) ∧
      before.rekey s.oldId s.newId s.new = (.ok true, after) := by
  obtain ⟨before, hplace, hready, hstill⟩ := h.front
  obtain ⟨position, he⟩ :=
    List.mem_iff_getElem?.mp (h.present s (List.mem_append_right front List.mem_cons_self))
  have hstands := hstill s List.mem_cons_self position he
  obtain ⟨after, hrekey, _⟩ := hready.step
  exact ⟨before, position, after, hplace, he, hready.linked.placed position _ hstands, hstands,
    hrekey⟩

/-! ## Operations -/

namespace Catalog

variable {catalog : Catalog}

theorem keepsPositions_table (name : String) : KeepsPositions (catalog.table name) := by
  unfold table
  split
  · exact keepsPositions_ok _
  · exact keepsPositions_error (by simp)

theorem keepsPositions_insert (name : String) (record : Record) :
    KeepsPositions (catalog.insert name record) := by
  refine (keepsPositions_table name).bind fun table _ =>
    (table.keepsPositions_accept name record).bind fun (id, stored) haccept => ?_
  have hfree := (Table.accept_eq_ok_iff.mp haccept).2.1
  have hstore : KeepsPositions (table.store id stored) := by
    rw [(Table.store_eq_ok_iff hfree).mpr rfl]
    exact keepsPositions_ok _
  exact hstore.bind fun _ _ => keepsPositions_ok _

theorem keepsPositions_insertValues (name : String) (columns : Option (List String))
    (values : List Value) : KeepsPositions (catalog.insertValues name columns values) :=
  (keepsPositions_table name).bind fun table _ =>
    (table.keepsPositions_boundColumns name columns _).bind fun _ _ =>
      keepsPositions_insert name _

theorem keepsPositions_update (h : catalog.Regular) (name : String)
    (assignments : List Assignment) (filter : Option Predicate) :
    KeepsPositions (catalog.update name assignments filter) := by
  refine (keepsPositions_table name).bind fun table htable =>
    (table.keepsPositions_changes name assignments).bind fun changes _ =>
      (table.keepsPositions_stage changes filter _).bind fun staged hstage => ?_
  split
  · exact keepsPositions_ok _
  · refine (table.keepsPositions_checkKeys [] staged).bind fun _ hkeys =>
      (table.keepsPositions_checkStagedUnique staged).bind fun _ _ => ?_
    have hlinked := h.linked (table_eq_ok_iff.mp htable)
    obtain ⟨records, hplace, _⟩ :=
      ((Table.stage_eq_ok_iff.mp hstage).ready hlinked hkeys).place
    rw [hplace]
    exact keepsPositions_ok _

theorem keepsPositions_delete (name : String) (filter : Option Predicate) :
    KeepsPositions (catalog.delete name filter) := by
  refine (keepsPositions_table name).bind fun table _ =>
    (keepsPositions_passing filter _).bind fun doomed _ => ?_
  split <;> exact keepsPositions_ok _

theorem keepsPositions_select (name : String) (filter : Option Predicate)
    (order : Option OrderBy) (limit : Option Nat) :
    KeepsPositions (catalog.select name filter order limit) :=
  (keepsPositions_table name).bind fun _ _ =>
    (keepsPositions_passing filter _).bind fun _ _ => keepsPositions_ok _

end Catalog

/-- No operation loses a position, as long as records stand where they are recorded. -/
theorem Operation.keepsPositions_outcome {catalog : Catalog} (h : catalog.Regular)
    (operation : Operation) : KeepsPositions (operation.outcome catalog) := by
  cases operation with
  | createTable name schema =>
    refine KeepsPositions.map ?_ _
    unfold Catalog.createTable
    split
    · exact keepsPositions_error (by simp)
    · exact keepsPositions_ok _
  | dropTable name =>
    exact ((Catalog.keepsPositions_table name).bind fun _ _ => keepsPositions_ok _).map _
  | renameTable old new =>
    refine KeepsPositions.map ?_ _
    unfold Catalog.renameTable
    split
    · exact keepsPositions_error (by simp)
    · split
      · exact keepsPositions_error (by simp)
      · exact keepsPositions_ok _
  | createIndex name column =>
    refine ((Catalog.keepsPositions_table name).bind fun table _ => ?_).map _
    dsimp only
    split
    · exact keepsPositions_error (by simp)
    · split
      · exact keepsPositions_error (by simp)
      · exact keepsPositions_ok _
  | insert name record => exact (Catalog.keepsPositions_insert name record).map _
  | insertValues name columns values =>
    exact (Catalog.keepsPositions_insertValues name columns values).map _
  | update name assignments filter =>
    exact (Catalog.keepsPositions_update h name assignments filter).map _
  | delete name filter => exact (Catalog.keepsPositions_delete name filter).map _
  | flush => exact keepsPositions_ok _

theorem Catalog.insert_of_stored {catalog : Catalog} {name : String} {step : Step RecordId}
    (h : (∃ record, catalog.insert name record = .ok step) ∨
      ∃ columns values, catalog.insertValues name columns values = .ok step) :
    ∃ record, catalog.insert name record = .ok step := by
  rcases h with h | ⟨_, _, h⟩
  · exact h
  · obtain ⟨record, _, hinsert⟩ := insertValues_eq_ok h
    exact ⟨record, hinsert⟩

/-- On every reached catalog no operation and no selection fails over a lost position, and maps from
which nothing is dropped in bulk, such as those of tables, indexes, columns and fields, lose none
either. An id under which a record is stored had no position. And each staged record of a successful
update is found, when its turn comes, under its old id where it stands, and is moved. -/
theorem no_position_lost {catalog : Catalog} (h : catalog.Reached) :
    (∀ operation : Operation, operation.outcome catalog ≠ .error .lostPosition) ∧
    (∀ name filter order limit,
      catalog.select name filter order limit ≠ .error .lostPosition) ∧
    (∀ V : Type, (PositionedMap.empty : PositionedMap V).StandsFor .empty ∧
      ∀ (p : PositionedMap V) (m : KeyedMap V), p.StandsFor m → p.UsedAlike m) ∧
    (∀ name step, ((∃ record, catalog.insert name record = .ok step) ∨
        ∃ columns values, catalog.insertValues name columns values = .ok step) →
      ∃ table stored, catalog.tables.find? name = some table ∧
        table.records.position? step.answer = none ∧
        step.catalog.tables.find? name =
          some { table with records := table.records.extend step.answer stored }) ∧
    ∀ name assignments filter step, catalog.update name assignments filter = .ok step →
      ∃ table changes staged, catalog.tables.find? name = some table ∧
        table.changes name assignments = .ok changes ∧
        table.stage changes filter table.records.entries = .ok staged ∧
        ∀ front s back, staged = front ++ s :: back →
          ∃ before position after, Table.place table.records front = .ok before ∧
            table.records.entries[position]? = some (s.oldId, s.old) ∧
            before.position? s.oldId = some position ∧
            before.entries[position]? = some (s.oldId, s.old) ∧
            before.rekey s.oldId s.newId s.new = (.ok true, after) := by
  refine ⟨fun operation => operation.keepsPositions_outcome h.regular,
    fun _ _ _ _ => Catalog.keepsPositions_select _ _ _ _,
    fun _ => ⟨PositionedMap.standsFor_empty, fun _ _ hstands => hstands.usedAlike⟩,
    fun name step hstored => ?_, fun name assignments filter step hupdate => ?_⟩
  · obtain ⟨record, hinsert⟩ := Catalog.insert_of_stored hstored
    obtain ⟨table, id, stored, ht, haccept, rfl⟩ := Catalog.insert_eq_ok hinsert
    have hfree := (Table.accept_eq_ok_iff.mp haccept).2.1
    exact ⟨table, stored, ht, PositionedMap.contains_eq_false_iff.mp hfree,
      Catalog.find?_setTable _ _ _⟩
  · obtain ⟨table, changes, staged, ht, hchanges, hstage, hstep⟩ := Catalog.update_eq_ok hupdate
    refine ⟨table, changes, staged, ht, hchanges, hstage, ?_⟩
    rintro front s back rfl
    rcases hstep with ⟨hempty, _⟩ | ⟨_, hkeys, _⟩
    · simp at hempty
    · have hready := (Table.stage_eq_ok_iff.mp hstage).ready (h.regular.linked ht) hkeys
      exact hready.rekeyed

def shrunkHistory : List Operation :=
  [.createTable "t" (.ofColumns [⟨"id", .int, true, false, false, none⟩]),
    .insert "t" (bareRecord 1), .insert "t" (bareRecord 2), .insert "t" (bareRecord 3),
    .delete "t" (some (.compare ⟨"id", .eq, "3"⟩)),
    .delete "t" (some (.compare ⟨"id", .eq, "1"⟩))]

/-- The positions of both deleted records are still there, and one of them lies past the end. To
store a record under its id is refused, and the record that is left is moved to a new id. -/
theorem no_position_lost_shrunk :
    (Database.replay shrunkHistory ()).catalog.tables.find? "t" =
        some ⟨.ofColumns [⟨"id", .int, true, false, false, none⟩],
          ⟨[("2", bareRecord 2)], [("2", 0), ("1", 0), ("3", 2)]⟩⟩ ∧
      (Database.replay shrunkHistory ()).catalog.Reached ∧
      (Operation.insert "t" (bareRecord 3)).outcome (Database.replay shrunkHistory ()).catalog ≠
        .error .lostPosition ∧
      ∃ table changes staged,
        (Database.replay shrunkHistory ()).catalog.tables.find? "t" = some table ∧
        table.changes "t" [⟨"id", .integer 4⟩] = .ok changes ∧
        table.stage changes none table.records.entries = .ok staged ∧
        ∀ front s back, staged = front ++ s :: back →
          ∃ before position after, Table.place table.records front = .ok before ∧
            table.records.entries[position]? = some (s.oldId, s.old) ∧
            before.position? s.oldId = some position ∧
            before.entries[position]? = some (s.oldId, s.old) ∧
            before.rekey s.oldId s.newId s.new = (.ok true, after) := by
  have hreached := Database.reached_replay shrunkHistory ()
  have hupdate : ∃ step, (Database.replay shrunkHistory ()).catalog.update "t"
      [⟨"id", .integer 4⟩] none = .ok step := by
    have hok : ((Database.replay shrunkHistory ()).catalog.update "t"
        [⟨"id", .integer 4⟩] none).isOk = true := by decide +kernel
    cases h : (Database.replay shrunkHistory ()).catalog.update "t" [⟨"id", .integer 4⟩] none with
    | ok step => exact ⟨step, rfl⟩
    | error fault =>
      rw [h] at hok
      cases hok
  obtain ⟨step, hstep⟩ := hupdate
  obtain ⟨hoperations, _, _, _, hupdates⟩ := no_position_lost hreached
  exact ⟨by decide +kernel, hreached, hoperations _, hupdates _ _ _ step hstep⟩

end Rowfile
