import Rowfile.Proofs.FreedIds
import Rowfile.Proofs.SettledMaps

/-!
# Joining a document

The schemas of a document take the records under their names out of those that are left, one after
the other, and what is left in the end makes tables without a schema. So every name of either part
becomes one table, and the tables stand in the order of the schemas, then in that of the other records.
The same holds of maps with recorded positions: what is taken out of one of them moves the entries
behind it, and each of these is recorded anew.
-/
namespace Rowfile

theorem PositionedMap.standsFor_ofKeyed {V : Type} (m : KeyedMap V) : (ofKeyed m).StandsFor m :=
  ⟨rfl, linked_ofKeyed m, fun _ hc => contains_ofKeyed.mp hc⟩

namespace Document

/-! ## The tables of a document -/

/-- The names that a document has a schema for, and then the other names that it has records for. -/
def names (document : Document) : List String :=
  document.schemas.keys ++
    document.tables.keys.filter fun name => !document.schemas.keys.contains name

/-- The table that a document describes under a name. A part that is absent is empty. -/
def tableNamed (document : Document) (name : String) : Table :=
  tableOf ((document.schemas.find? name).getD .empty) ((document.tables.find? name).getD .empty)

variable (document : Document)

theorem mem_names {name : String} :
    name ∈ document.names ↔ name ∈ document.schemas.keys ∨ name ∈ document.tables.keys := by
  simp only [names, List.mem_append, List.mem_filter, List.contains_eq_mem, Bool.not_eq_true',
    decide_eq_false_iff_not]
  tauto

theorem nodup_names : document.names.Nodup := by
  refine List.nodup_append.mpr
    ⟨document.schemas.distinct, document.tables.distinct.filter _, fun name hs other ho heq => ?_⟩
  have hnew := (List.mem_filter.mp (heq ▸ ho)).2
  simp [hs] at hnew

/-- The entries of the schemas, each with the records under its name. -/
theorem joined_eq : (document.schemas.entries.map fun entry =>
    (entry.1, tableOf entry.2 ((document.tables.find? entry.1).getD .empty))) =
      document.schemas.keys.map fun name => (name, document.tableNamed name) := by
  rw [KeyedMap.keys, entryKeys, List.map_map]
  refine List.map_congr_left fun entry he => ?_
  have hfind : document.schemas.find? entry.1 = some entry.2 := KeyedMap.find?_eq_some_iff.mpr he
  simp only [Function.comp_apply, tableNamed, hfind, Option.getD_some]

/-- The entries that are left when every schema has taken its records. -/
theorem left_eq : ((document.tables.entries.filter fun entry =>
    !(entryKeys document.schemas.entries).contains entry.1).map fun entry =>
      (entry.1, tableOf .empty entry.2)) =
      (document.tables.keys.filter fun name => !document.schemas.keys.contains name).map
        fun name => (name, document.tableNamed name) := by
  rw [KeyedMap.keys, KeyedMap.keys, entryKeys, List.filter_map, List.map_map]
  refine List.map_congr_left fun entry he => ?_
  obtain ⟨he, hnew⟩ := List.mem_filter.mp he
  have hfind : document.tables.find? entry.1 = some entry.2 := KeyedMap.find?_eq_some_iff.mpr he
  have hnone : document.schemas.find? entry.1 = none := by
    rw [← KeyedMap.contains_eq_false_iff, KeyedMap.contains, KeyedMap.keys]
    simpa using hnew
  simp only [Function.comp_apply, tableNamed, hfind, hnone, Option.getD_some, Option.getD_none]

/-- The joined tables are those of the names of the document, in the order of the names. -/
theorem entries_tables_toCatalog : document.toCatalog.tables.entries =
    document.names.map fun name => (name, document.tableNamed name) := by
  obtain ⟨hleft, hjoined⟩ :=
    foldl_joinSchema document.schemas.distinct document.tables .empty
  have hkeys : ∀ list : List String,
      entryKeys (list.map fun name => (name, document.tableNamed name)) = list := fun list => by
    rw [entryKeys, List.map_map]
    exact List.map_id list
  have hnames : (entryKeys (document.schemas.keys.map fun name =>
      (name, document.tableNamed name)) ++ entryKeys ((document.tables.keys.filter fun name =>
        !document.schemas.keys.contains name).map fun name => (name, document.tableNamed name))).Nodup := by
    rw [hkeys, hkeys]
    exact document.nodup_names
  have hfirst := KeyedMap.entries_ofList (List.nodup_append.mp hnames).1
  simp only [toCatalog, hleft, hjoined, joined_eq, left_eq]
  rw [← KeyedMap.ofList, KeyedMap.entries_insertAll, hfirst, ← List.map_append, names]
  rw [KeyedMap.keys, hfirst]
  exact hnames

theorem keys_tables_toCatalog : document.toCatalog.tables.keys = document.names := by
  rw [KeyedMap.keys, entries_tables_toCatalog, entryKeys, List.map_map]
  exact List.map_id _

/-- The indexes of names without a table are left out. -/
theorem entries_indexes_toCatalog : document.toCatalog.indexes.entries =
    document.indexes.entries.filter fun entry => document.names.contains entry.1 := by
  have hdistinct : (entryKeys (document.indexes.entries.filter fun entry =>
      document.toCatalog.tables.contains entry.1)).Nodup :=
    document.indexes.distinct.sublist (List.filter_sublist.map Prod.fst)
  have hindexes := KeyedMap.entries_ofList hdistinct
  simp only [KeyedMap.contains, keys_tables_toCatalog] at hindexes
  rw [← hindexes, ← keys_tables_toCatalog]
  rfl

end Document

/-! ## Maps with recorded positions -/

namespace PositionedMap

variable {V : Type}

/-- The pairs of a list inserted one after the other, unless a recorded position lies past the
end. -/
def insertAll? (m : PositionedMap V) (pairs : List (String × V)) :
    Except LostPosition (PositionedMap V) :=
  pairs.foldlM (fun m pair => (m.insert pair.1 pair.2).1.map fun _ => (m.insert pair.1 pair.2).2) m

theorem StandsFor.insertAll {p : PositionedMap V} {m : KeyedMap V} (h : p.StandsFor m)
    (pairs : List (String × V)) :
    ∃ p', p.insertAll? pairs = .ok p' ∧ p'.StandsFor (m.insertAll pairs) := by
  induction pairs generalizing p m with
  | nil => exact ⟨p, rfl, h⟩
  | cons pair pairs ih =>
    obtain ⟨next, hnext, hstands⟩ := h.insert pair.1 pair.2
    obtain ⟨last, hlast, hstands⟩ := ih hstands
    refine ⟨last, ?_, hstands⟩
    rw [insertAll?, List.foldlM_cons, hnext]
    exact hlast

end PositionedMap

namespace Document

/-- Tables with one more schema, in maps with recorded positions. -/
def joinSchema? (state : PositionedMap (KeyedMap Record) × PositionedMap Table)
    (entry : String × Schema) :
    Except LostPosition (PositionedMap (KeyedMap Record) × PositionedMap Table) := do
  let (taken, left) := state.1.erase entry.1
  let (replaced, tables) := state.2.insert entry.1 (tableOf entry.2 ((← taken).getD .empty))
  replaced.map fun _ => (left, tables)

/-- The tables and the indexes that a document describes, in maps with recorded positions. -/
def join? (document : Document) :
    Except LostPosition (PositionedMap Table × PositionedMap TableIndexes) := do
  let (left, tables) ←
    document.schemas.entries.foldlM joinSchema? (.ofKeyed document.tables, .empty)
  let tables ← tables.insertAll? (left.entries.map fun entry => (entry.1, tableOf .empty entry.2))
  let indexes ← PositionedMap.empty.insertAll?
    (document.indexes.entries.filter fun entry => tables.contains entry.1)
  return (tables, indexes)

section
variable {left : PositionedMap (KeyedMap Record)} {tables : PositionedMap Table}
  {left' : KeyedMap (KeyedMap Record)} {tables' : KeyedMap Table}

/-- A schema finds its records at their recorded position, and what is left stands in its place
again. -/
theorem exists_joinSchema? (hleft : left.StandsFor left') (htables : tables.StandsFor tables')
    (entry : String × Schema) :
    ∃ state, joinSchema? (left, tables) entry = .ok state ∧
      state.1.StandsFor (joinSchema (left', tables') entry).1 ∧
      state.2.StandsFor (joinSchema (left', tables') entry).2 := by
  obtain ⟨rest, hrest, hstands⟩ := hleft.erase entry.1
  obtain ⟨joined, hjoined, hstands'⟩ :=
    htables.insert entry.1 (tableOf entry.2 ((left'.find? entry.1).getD .empty))
  refine ⟨(rest, joined), ?_, hstands, hstands'⟩
  simp only [joinSchema?, hrest, ok_bind, hjoined]
  rfl

theorem exists_foldlM_joinSchema? (hleft : left.StandsFor left')
    (htables : tables.StandsFor tables') (schemas : List (String × Schema)) :
    ∃ state, schemas.foldlM joinSchema? (left, tables) = .ok state ∧
      state.1.StandsFor (schemas.foldl joinSchema (left', tables')).1 ∧
      state.2.StandsFor (schemas.foldl joinSchema (left', tables')).2 := by
  induction schemas generalizing left tables left' tables' with
  | nil => exact ⟨(left, tables), rfl, hleft, htables⟩
  | cons entry schemas ih =>
    obtain ⟨next, hnext, hleft', htables'⟩ := exists_joinSchema? hleft htables entry
    obtain ⟨last, hlast, hstands⟩ := ih hleft' htables'
    refine ⟨last, ?_, hstands⟩
    rw [List.foldlM_cons, hnext]
    exact hlast

end

/-- Joining reaches no position past the end and leaves what the document describes. -/
theorem exists_join? (document : Document) :
    ∃ tables indexes, document.join? = .ok (tables, indexes) ∧
      tables.StandsFor document.toCatalog.tables ∧
      indexes.StandsFor document.toCatalog.indexes := by
  obtain ⟨⟨left, tables⟩, hstate, hleft, htables⟩ := exists_foldlM_joinSchema?
    (PositionedMap.standsFor_ofKeyed document.tables) PositionedMap.standsFor_empty
    document.schemas.entries
  obtain ⟨joined, hjoined, hjoined'⟩ := htables.insertAll
    (left.entries.map fun entry => (entry.1, tableOf .empty entry.2))
  rw [hleft.entries] at hjoined'
  obtain ⟨indexes, hindexes, hindexes'⟩ := PositionedMap.standsFor_empty.insertAll
    (document.indexes.entries.filter fun entry => joined.contains entry.1)
  simp only [hjoined'.contains] at hindexes'
  refine ⟨joined, indexes, ?_, hjoined', hindexes'⟩
  simp only [join?, hstate, ok_bind, hjoined, hindexes]
  rfl

/-- A document is joined without loss. Its catalog has one table for each name that the document has
a schema or records for, first in the order of the schemas and then in that of the other records; each
table has the schema and the records under its name, and the indexes under the names of these tables are
kept in their order. Maps with recorded positions are joined in the same way. -/
theorem document_joined_without_loss (document : Document) :
    document.names.Nodup ∧
    (∀ name, name ∈ document.names ↔
      name ∈ document.schemas.keys ∨ name ∈ document.tables.keys) ∧
    document.toCatalog.tables.entries =
      document.names.map (fun name => (name, document.tableNamed name)) ∧
    (∀ name,
      (document.tableNamed name).schema = (document.schemas.find? name).getD .empty ∧
      (document.tableNamed name).records.StandsFor ((document.tables.find? name).getD .empty)) ∧
    document.toCatalog.indexes.entries =
      document.indexes.entries.filter (fun entry => document.names.contains entry.1) ∧
    ∃ tables indexes, document.join? = .ok (tables, indexes) ∧
      tables.StandsFor document.toCatalog.tables ∧
      indexes.StandsFor document.toCatalog.indexes :=
  ⟨document.nodup_names, fun _ => document.mem_names, document.entries_tables_toCatalog,
    fun _ => ⟨rfl, PositionedMap.standsFor_ofKeyed _⟩, document.entries_indexes_toCatalog,
    document.exists_join?⟩

-- Records without a schema, a schema without records, and indexes of a name that has neither.
example : (Document.mk (.ofList [("b", .empty), ("a", .ofList [("1", .empty)])])
      (.ofList [("c", .empty), ("a", .empty)])
      (.ofList [("ghost", .empty), ("b", .empty)])).toCatalog.tables.keys = ["c", "a", "b"] := by
  decide +kernel

end Document

end Rowfile
