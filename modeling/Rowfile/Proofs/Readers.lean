import Rowfile.Proofs.Peeling
import Rowfile.Statement.Reader

/-!
# Readers of statements

Each form of statement has a reader of its own, and an accepted text was accepted by the reader of the
statement that it writes. What a reader accepts has the parts of its form, and the names of the
statement are read from these parts.
-/
namespace Rowfile

open Masked Clause

theorem Clause.orTorn_eq_ok {α : Type} {x : Option α} {a : α} : orTorn x = .ok a ↔ x = some a := by
  cases x <;> simp [orTorn]

namespace Statement

theorem orFault_eq_ok {α : Type} {problem : Malformed} {x : Option α} {a : α} :
    orFault problem x = .ok a ↔ x = some a := by
  cases x <;> simp [orFault]

theorem orMalformed_eq_ok {α : Type} {x : Except Malformed α} {a : α} :
    orMalformed x = .ok a ↔ x = .ok a := by
  cases x <;> simp [orMalformed]

theorem readPart_eq_ok {cells : List Cell} {cs : List Char} :
    readPart cells = .ok cs ↔ read? cells = some cs := orTorn_eq_ok

theorem readName_eq_ok {cells : List Cell} {name : String} :
    readName cells = .ok name ↔ read? cells = some name.toList := by
  rw [readName, readPart]
  cases read? cells with
  | none => simp [orTorn, Except.map]
  | some cs =>
    have hname : String.ofList cs = name ↔ cs = name.toList :=
      ⟨fun h => h ▸ String.toList_ofList.symm, fun h => h ▸ String.ofList_toList⟩
    simp [orTorn, Except.map, hname]

/-- A statement that is read past a check is read after it. -/
theorem of_check {α : Type} {bad : Prop} [Decidable bad] {problem : Malformed}
    {rest : Except Malformed α} {a : α}
    (h : (if bad then (throw problem >>= fun _ : PUnit => rest) else rest) = .ok a) :
    rest = .ok a := by
  split at h
  · cases h
  · exact h

/-! ## What each reader accepts -/

variable {text : List Char} {statement : Statement}

theorem readCreateTable_eq_ok (h : readCreateTable text = .ok statement) :
    ∃ name body table cs declarations schema,
      createTableParts? (mask text) = some (name, body) ∧ read? name = some table.toList ∧
      read? body = some cs ∧ Split.atSeparator? ',' cs = some declarations ∧
      readColumns table .empty declarations = .ok schema ∧
      statement = .createTable table schema := by
  simp only [readCreateTable, bind_eq_ok, orFault_eq_ok, readName_eq_ok, readPart_eq_ok,
    orTorn_eq_ok] at h
  obtain ⟨⟨name, body⟩, hparts, table, hname, cs, hbody, declarations, hcut, schema, hschema, h⟩ := h
  exact ⟨name, body, table, cs, declarations, schema, hparts, hname, hbody, hcut, hschema,
    (Except.ok.inj h).symm⟩

theorem readDropTable_eq_ok (h : readDropTable text = .ok statement) :
    ∃ name table, tableNamePart? "DROP".toList (mask text) = some name ∧
      read? name = some table.toList ∧ statement = .dropTable table := by
  simp only [readDropTable, bind_eq_ok, orFault_eq_ok, readName_eq_ok] at h
  obtain ⟨name, hpart, table, hname, h⟩ := h
  exact ⟨name, table, hpart, hname, (Except.ok.inj h).symm⟩

theorem readShowTable_eq_ok (h : readShowTable text = .ok statement) :
    ∃ name table, tableNamePart? "SHOW".toList (mask text) = some name ∧
      read? name = some table.toList ∧ statement = .showTable table := by
  simp only [readShowTable, bind_eq_ok, orFault_eq_ok, readName_eq_ok] at h
  obtain ⟨name, hpart, table, hname, h⟩ := h
  exact ⟨name, table, hpart, hname, (Except.ok.inj h).symm⟩

theorem readDescribe_eq_ok (h : readDescribe text = .ok statement) :
    ∃ name table, describePart? (mask text) = some name ∧ read? name = some table.toList ∧
      statement = .describe table := by
  simp only [readDescribe, bind_eq_ok, orFault_eq_ok, readName_eq_ok] at h
  obtain ⟨name, hpart, table, hname, h⟩ := h
  exact ⟨name, table, hpart, hname, (Except.ok.inj h).symm⟩

theorem readRenameTable_eq_ok (h : readRenameTable text = .ok statement) :
    ∃ old new table newName, renameTableParts? (mask text) = some (old, new) ∧
      read? old = some table.toList ∧ read? new = some newName.toList ∧
      statement = .renameTable table newName := by
  simp only [readRenameTable, bind_eq_ok, orFault_eq_ok, readName_eq_ok] at h
  obtain ⟨⟨old, new⟩, hparts, table, hold, newName, hnew, h⟩ := h
  exact ⟨old, new, table, newName, hparts, hold, hnew, (Except.ok.inj h).symm⟩

theorem readCreateIndex_eq_ok (h : readCreateIndex text = .ok statement) :
    ∃ name column table columnName, createIndexParts? (mask text) = some (name, column) ∧
      read? name = some table.toList ∧ read? column = some columnName.toList ∧
      statement = .createIndex table columnName := by
  simp only [readCreateIndex, bind_eq_ok, orFault_eq_ok, readName_eq_ok] at h
  obtain ⟨⟨name, column⟩, hparts, table, hname, columnName, hcolumn, h⟩ := h
  exact ⟨name, column, table, columnName, hparts, hname, hcolumn, (Except.ok.inj h).symm⟩

theorem isIdentifier_of_readColumnList {list : List Char} {names : List String}
    (h : readColumnList list = .ok names) : ∀ name ∈ names, isIdentifier name.toList = true := by
  simp only [readColumnList, bind_eq_ok, orTorn_eq_ok] at h
  obtain ⟨pieces, -, h⟩ := h
  split at h
  · cases h
  · next hcheck =>
    obtain rfl := Except.ok.inj h
    simp only [Bool.or_eq_true, Bool.not_eq_true', not_or, Bool.not_eq_false, List.all_eq_true]
      at hcheck
    intro name hname
    obtain ⟨piece, hpiece, rfl⟩ := List.mem_map.mp hname
    rw [String.toList_ofList]
    exact hcheck.2 piece hpiece

theorem readInsert_eq_ok (h : readInsert text = .ok statement) :
    ∃ name columns body table columnNames values,
      insertParts? (mask text) = some (name, columns, body) ∧ read? name = some table.toList ∧
      (∀ names, columnNames = some names → ∀ name ∈ names, isIdentifier name.toList = true) ∧
      statement = .insert table columnNames values := by
  simp only [readInsert, bind_eq_ok, orFault_eq_ok, readName_eq_ok] at h
  obtain ⟨⟨name, columns, body⟩, hparts, table, hname, h⟩ := h
  have hrest : ∀ {columnNames : Option (List String)} {listed : List (List Char)},
      (do return Statement.insert table columnNames (← listed.mapM readListedValue) :
        Except Malformed Statement) = .ok statement →
      ∃ values, statement = .insert table columnNames values := by
    intro columnNames listed h
    obtain ⟨values, -, h⟩ := bind_eq_ok.mp h
    exact ⟨values, (Except.ok.inj h).symm⟩
  cases columns with
  | none =>
    simp only [bind_eq_ok] at h
    obtain ⟨columnNames, hnone, _, _, _, _, h⟩ := h
    obtain rfl := Except.ok.inj hnone
    obtain ⟨values, rfl⟩ := hrest (of_check h)
    exact ⟨name, none, body, table, none, values, hparts, hname, by simp, rfl⟩
  | some list =>
    simp only [bind_eq_ok] at h
    obtain ⟨columnNames, hsome, _, _, _, _, h⟩ := h
    obtain ⟨values, rfl⟩ := hrest (of_check h)
    refine ⟨name, some list, body, table, columnNames, values, hparts, hname, ?_, rfl⟩
    rintro names rfl
    cases hlist : readPart list >>= readColumnList with
    | error problem =>
      rw [hlist] at hsome
      cases hsome
    | ok found =>
      rw [hlist] at hsome
      obtain rfl := Option.some.inj (Except.ok.inj hsome)
      obtain ⟨_, _, hlist⟩ := bind_eq_ok.mp hlist
      exact isIdentifier_of_readColumnList hlist

theorem readSelect_eq_ok (h : readSelect text = .ok statement) :
    ∃ name table filter orderBy limit, fromPart? (mask text) = some name ∧
      read? name = some table.toList ∧ readOrderBy (mask text) = .ok orderBy ∧
      statement = .select table filter orderBy limit := by
  simp only [readSelect, bind_eq_ok, orFault_eq_ok, readName_eq_ok] at h
  obtain ⟨name, hpart, table, hname, h⟩ := h
  split at h
  all_goals
    simp only [bind_eq_ok] at h
    obtain ⟨filter, _, orderBy, horder, limit, _, h⟩ := h
    exact ⟨name, table, filter, orderBy, limit, hpart, hname, horder, (Except.ok.inj h).symm⟩

theorem readOrderBy_eq_ok {cells : List Cell} {order : OrderBy}
    (h : readOrderBy cells = .ok (some order)) :
    ∃ column direction, orderByParts? cells = some (column, direction) ∧
      read? column = some order.column.toList := by
  unfold readOrderBy at h
  split at h
  · simp only [bind_eq_ok, orFault_eq_ok, readName_eq_ok] at h
    obtain ⟨⟨column, direction⟩, hparts, _, _, name, hname, h⟩ := h
    obtain rfl := Option.some.inj (Except.ok.inj h)
    exact ⟨column, direction, hparts, hname⟩
  · cases h

theorem readUpdate_eq_ok (h : readUpdate text = .ok statement) :
    ∃ name parts clause table assignments filter,
      updateParts? (mask text) = some (name, parts, clause) ∧ read? name = some table.toList ∧
      statement = .update table assignments filter := by
  simp only [readUpdate, bind_eq_ok, orFault_eq_ok, readName_eq_ok] at h
  obtain ⟨⟨name, parts, clause⟩, hparts, table, hname, _, _, _, _, assignments, _, h⟩ := h
  obtain ⟨filter, _, h⟩ := bind_eq_ok.mp (of_check h)
  exact ⟨name, parts, clause, table, assignments, filter, hparts, hname, (Except.ok.inj h).symm⟩

theorem readDelete_eq_ok (h : readDelete text = .ok statement) :
    ∃ name clause table filter, deleteParts? (mask text) = some (name, clause) ∧
      read? name = some table.toList ∧ statement = .delete table filter := by
  simp only [readDelete, bind_eq_ok, orFault_eq_ok, readName_eq_ok] at h
  obtain ⟨⟨name, clause⟩, hparts, table, hname, filter, _, h⟩ := h
  exact ⟨name, clause, table, filter, hparts, hname, (Except.ok.inj h).symm⟩

/-! ## The reader of an accepted text -/

def reader : Statement → List Char → Except Malformed Statement
  | .createTable .. => readCreateTable
  | .dropTable .. => readDropTable
  | .renameTable .. => readRenameTable
  | .insert .. => readInsert
  | .select .. => readSelect
  | .update .. => readUpdate
  | .delete .. => readDelete
  | .describe .. => readDescribe
  | .showTables => fun _ => .ok .showTables
  | .showTable .. => readShowTable
  | .createIndex .. => readCreateIndex

/-- The text begins with the words of the form that a statement has. -/
def opens : Statement → List Char → Bool
  | .createTable .. => startsWith "CREATE TABLE"
  | .dropTable .. => startsWith "DROP TABLE"
  | .renameTable .. => startsWith "RENAME TABLE"
  | .insert .. => startsWith "INSERT INTO"
  | .select .. => startsWith "SELECT"
  | .update .. => startsWith "UPDATE"
  | .delete .. => startsWith "DELETE FROM"
  | .describe .. => fun text => startsWith "DESC " text || startsWith "DESCRIBE " text
  | .showTables => fun text => Text.asciiCaseEq text "SHOW TABLES".toList
  | .showTable .. => startsWith "SHOW TABLE "
  | .createIndex .. => startsWith "CREATE INDEX"

/-- Where the choice between the forms accepts a text, the form at hand opens it and its reader accepts
it, or the forms behind it do. -/
theorem of_form {opened : Bool} {result : Except Malformed Statement} {rest : Except Fault Statement}
    (h : (if opened = true then orMalformed result else rest) = .ok statement) :
    opened = true ∧ result = .ok statement ∨ rest = .ok statement := by
  rcases ite_eq_iff.mp h with ⟨hopened, h⟩ | ⟨-, h⟩
  · exact .inl ⟨hopened, orMalformed_eq_ok.mp h⟩
  · exact .inr h

/-- An accepted text begins with the words of its statement, and the reader of that statement accepted
it. -/
theorem opens_and_reader_of_read (h : Statement.read text = .ok statement) :
    statement.opens (body text) = true ∧ statement.reader (body text) = .ok statement := by
  unfold Statement.read at h
  dsimp only at h
  rcases of_form h with ⟨hopens, hread⟩ | h
  · obtain ⟨_, _, _, _, _, _, _, _, _, _, _, rfl⟩ := readCreateTable_eq_ok hread
    exact ⟨hopens, hread⟩
  rcases of_form h with ⟨hopens, hread⟩ | h
  · obtain ⟨_, _, _, _, rfl⟩ := readDropTable_eq_ok hread
    exact ⟨hopens, hread⟩
  rcases of_form h with ⟨hopens, hread⟩ | h
  · obtain ⟨_, _, _, _, _, _, _, rfl⟩ := readRenameTable_eq_ok hread
    exact ⟨hopens, hread⟩
  rcases of_form h with ⟨hopens, hread⟩ | h
  · obtain ⟨_, _, _, _, _, _, _, _, _, rfl⟩ := readInsert_eq_ok hread
    exact ⟨hopens, hread⟩
  rcases of_form h with ⟨hopens, hread⟩ | h
  · obtain ⟨_, _, _, _, _, _, _, _, rfl⟩ := readSelect_eq_ok hread
    exact ⟨hopens, hread⟩
  rcases of_form h with ⟨hopens, hread⟩ | h
  · obtain ⟨_, _, _, _, _, _, _, _, rfl⟩ := readUpdate_eq_ok hread
    exact ⟨hopens, hread⟩
  rcases of_form h with ⟨hopens, hread⟩ | h
  · obtain ⟨_, _, _, _, _, _, rfl⟩ := readDelete_eq_ok hread
    exact ⟨hopens, hread⟩
  rcases of_form h with ⟨hopens, hread⟩ | h
  · obtain ⟨_, _, _, _, rfl⟩ := readDescribe_eq_ok hread
    exact ⟨hopens, hread⟩
  rcases ite_eq_iff.mp h with ⟨hopens, h⟩ | ⟨-, h⟩
  · obtain rfl := Except.ok.inj h
    exact ⟨hopens, rfl⟩
  rcases of_form h with ⟨hopens, hread⟩ | h
  · obtain ⟨_, _, _, _, rfl⟩ := readShowTable_eq_ok hread
    exact ⟨hopens, hread⟩
  rcases of_form h with ⟨hopens, hread⟩ | h
  · obtain ⟨_, _, _, _, _, _, _, rfl⟩ := readCreateIndex_eq_ok hread
    exact ⟨hopens, hread⟩
  · cases h

/-- An accepted text was accepted by the reader of its statement. -/
theorem reader_of_read (h : Statement.read text = .ok statement) :
    statement.reader (body text) = .ok statement :=
  (opens_and_reader_of_read h).2

/-- A text is accepted when it is known what its statement is like. -/
theorem exists_read_of_map {α : Type} {f : Statement → α} {a : α}
    (h : (Statement.read text).map f = .ok a) :
    ∃ statement, Statement.read text = .ok statement ∧ f statement = a := by
  cases hread : Statement.read text with
  | error fault => rw [hread] at h; cases h
  | ok statement => exact ⟨statement, rfl, Except.ok.inj (hread ▸ h)⟩

end Statement

end Rowfile
