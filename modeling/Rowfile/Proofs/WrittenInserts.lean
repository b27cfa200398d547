import Rowfile.Proofs.Peeling
import Rowfile.Proofs.WrittenLists
import Rowfile.Proofs.WrittenLiterals

/-!
# Written INSERT statements

An INSERT is written with its table, its list of columns if it has one, and its literals. Whatever its
texts hold, it is read back as the statement that it writes.
-/
namespace Rowfile

open Masked Pattern

namespace Statement

/-- How the columns of an INSERT are written, with the blank before them. -/
def columnsText : Option (List String) → List Char
  | some columns => " (".toList ++ (commaJoin (columns.map String.toList) ++ [')'])
  | none => []

def insertText (table : String) (columns : Option (List String)) (literals : List (List Char)) :
    List Char :=
  "INSERT INTO ".toList ++ (table.toList ++ (columnsText columns ++
    (" VALUES (".toList ++ (commaJoin literals ++ [')']))))

variable {table : String} {columns : Option (List String)} {literals : List (List Char)}

/-- The columns are plain names, of which there is at least one. -/
def ArePlainColumns (columns : Option (List String)) : Prop :=
  ∀ names, columns = some names → names ≠ [] ∧ ∀ name ∈ names, isPlainName name = true

theorem listItem_names {names : List String} (h : ∀ name ∈ names, isPlainName name = true) :
    ∀ cs ∈ names.map String.toList, ListItem cs := by
  intro cs hcs
  obtain ⟨name, hname, rfl⟩ := List.mem_map.mp hcs
  exact (solidWord_name (h name hname)).listItem

theorem closed_columnsText (hcolumns : ArePlainColumns columns) : Closed (columnsText columns) := by
  cases columns with
  | none => rfl
  | some names =>
    have hlist := shown_commaJoin (listItem_names (hcolumns names rfl).2)
    exact Closed.append (by decide) (hlist.closed.append (by decide))

/-- The columns are looked for behind the table and end before VALUES. -/
theorem beforeFirst?_columnsText (hcolumns : ArePlainColumns columns) (l : List Cell) :
    (char? '(' (skipBlanks (mask (columnsText columns) ++ (mask " VALUES (".toList ++ l)))).bind
        (beforeFirst? ')') =
      columns.map fun names =>
        (mask (commaJoin (names.map String.toList)), mask " VALUES (".toList ++ l) := by
  cases columns with
  | none => rfl
  | some names =>
    have hlist := shown_commaJoin (listItem_names (hcolumns names rfl).2)
    have hcells : mask (columnsText (some names)) = .plain ' ' :: .plain '(' ::
        (mask (commaJoin (names.map String.toList)) ++ [.plain ')']) := by
      rw [columnsText, mask_append (by decide), mask_append hlist.closed]
      rfl
    have hopen : ∀ r : List Cell, char? '(' (skipBlanks (.plain ' ' :: .plain '(' :: r)) = some r :=
      fun _ => rfl
    rw [hcells, List.cons_append, List.cons_append, hopen, Option.bind_some, List.append_assoc,
      beforeFirst?_append fun cell hcell => ?_]
    · simp [beforeFirst?]
    · have hshown := hlist.shown cell hcell
      simp only [Bool.and_eq_true, bne_iff_ne] at hshown
      exact hshown.2

/-- The parts of a written INSERT are found where they were written. -/
theorem insertParts?_insertText (htable : isPlainName table = true)
    (hcolumns : ArePlainColumns columns) (hliterals : ∀ cs ∈ literals, ListItem cs) :
    insertParts? (mask (insertText table columns literals)) =
      some (mask table.toList, columns.map fun names => mask (commaJoin (names.map String.toList)),
        mask (commaJoin literals)) := by
  have hname := solidWord_name htable
  have hclose : mask [')'] = [.plain ')'] := rfl
  have hcells : mask (insertText table columns literals) = mask "INSERT INTO ".toList ++
      (mask table.toList ++ (mask (columnsText columns) ++ (mask " VALUES (".toList ++
        (mask (commaJoin literals) ++ [.plain ')'])))) := by
    unfold insertText
    rw [mask_append (by decide : Closed "INSERT INTO ".toList), mask_append hname.closed,
      mask_append (closed_columnsText hcolumns), mask_append (by decide : Closed " VALUES (".toList),
      mask_append (shown_commaJoin hliterals).closed, hclose]
  have hkeywords : ∀ l : List Cell, keywords? "INSERT".toList "INTO".toList
      (skipBlanks (mask "INSERT INTO ".toList ++ l)) = some (.plain ' ' :: l) := fun _ => rfl
  have hvalues : ∀ l : List Cell, (blanks? (mask " VALUES (".toList ++ l)).bind
      (keyword? "VALUES".toList) = some (.plain ' ' :: .plain '(' :: l) := fun _ => rfl
  have hword : word? (mask table.toList ++ (mask (columnsText columns) ++ (mask " VALUES (".toList ++
      (mask (commaJoin literals) ++ [.plain ')'])))) = some (mask table.toList,
        mask (columnsText columns) ++ (mask " VALUES (".toList ++
          (mask (commaJoin literals) ++ [.plain ')']))) := by
    refine word?_name htable ?_
    cases columns <;> rfl
  rw [hcells, insertParts?, hkeywords]
  simp only [Option.bind_eq_bind, Option.bind_some, blanks?_space (hname.visible.head_isBlank _),
    hword, beforeFirst?_columnsText hcolumns]
  cases columns with
  | none =>
    have hnone : columnsText none = [] := rfl
    simp only [Option.map_none, hnone, mask_nil, List.nil_append, hvalues, Option.bind_some,
      outerBody?_space]
    rfl
  | some names =>
    simp only [Option.map_some, hvalues, Option.bind_some, outerBody?_space]
    rfl

/-! ## Reading an INSERT back -/

theorem readColumnList_commaJoin {names : List String} (hne : names ≠ [])
    (h : ∀ name ∈ names, isPlainName name = true) :
    readColumnList (commaJoin (names.map String.toList)) = .ok names := by
  have hall : (names.map String.toList).all isIdentifier = true := by
    rw [List.all_eq_true]
    intro cs hcs
    obtain ⟨name, hname, rfl⟩ := List.mem_map.mp hcs
    exact isIdentifier_name (h name hname)
  have hback : (names.map String.toList).map String.ofList = names := by
    rw [List.map_map]
    exact List.map_id'' (fun name => String.ofList_toList) names
  have hempty : (names.map String.toList).isEmpty = false := by simpa using hne
  rw [readColumnList, atSeparator?_commaJoin (listItem_names h)]
  simp only [Clause.orTorn, ok_bind, hempty, hall, hback]
  rfl

/-- A literal of the value that stands whole in a list. -/
structure Lists (value : Value) (token : List Char) : Prop extends ListItem token where
  reads : Value.ofLiteral token = value

theorem lists_of_written {value : Value} {literal : List Char} (h : value.Written literal) :
    Lists value literal :=
  ⟨h.solidWord.listItem, h.ofLiteral_eq⟩

theorem Lists.readListedValue_eq {value : Value} {token : List Char} (h : Lists value token) :
    readListedValue token = .ok value := by
  have hempty : token.isEmpty = false := by simpa using h.nonempty
  have hparenthesis : (mask token).any Split.isParenthesis = false := by
    rw [List.any_eq_false]
    intro cell hcell
    have hlisted := h.shown cell hcell
    simp only [isListed, Bool.and_eq_true, bne_iff_ne] at hlisted
    simp [Split.isParenthesis, hlisted]
  rw [readListedValue, hempty, hparenthesis, h.reads]
  rfl

theorem readInsert_of_lists {values : List Value} {tokens : List (List Char)}
    (htable : isPlainName table = true) (hcolumns : ArePlainColumns columns) (hvalues : values ≠ [])
    (h : List.Forall₂ Lists values tokens) :
    readInsert (insertText table columns tokens) = .ok (.insert table columns values) := by
  have hitems := forall_of_written (fun _ _ hv => hv.toListItem) h
  have hempty : tokens.isEmpty = false := by
    cases h with
    | nil => exact absurd rfl hvalues
    | cons => rfl
  have hread := mapM_of_written (fun _ _ hv => hv.readListedValue_eq) h
  unfold readInsert
  rw [insertParts?_insertText htable hcolumns hitems]
  cases columns with
  | none =>
    simp only [orFault, ok_bind, readName_mask, Option.map_none, pure_eq_ok, readPart_mask,
      atSeparator?_commaJoin hitems, Clause.orTorn, hempty, hread]
    rfl
  | some names =>
    have hnames := readColumnList_commaJoin (hcolumns names rfl).1 (hcolumns names rfl).2
    simp only [orFault, ok_bind, readName_mask, Option.map_some, readPart_mask, hnames, Except.map,
      atSeparator?_commaJoin hitems, Clause.orTorn, hempty, hread]
    rfl

theorem readInsert_insertText {values : List Value} (htable : isPlainName table = true)
    (hcolumns : ArePlainColumns columns) (hvalues : values ≠ [])
    (h : List.Forall₂ Value.Written values literals) :
    readInsert (insertText table columns literals) = .ok (.insert table columns values) :=
  readInsert_of_lists htable hcolumns hvalues (h.imp fun _ _ => lists_of_written)

/-- A written INSERT is taken for one by its first words. -/
theorem read_insertText_eq (table : String) (columns : Option (List String))
    (literals : List (List Char)) : Statement.read (insertText table columns literals) =
      orMalformed (readInsert (insertText table columns literals)) := by
  have hlast : (insertText table columns literals).getLast? = some ')' :=
    getLast?_append_some _ (getLast?_append_some _ (getLast?_append_some _
      (getLast?_append_some _ (getLast?_append_some _ rfl))))
  have hbody : body (insertText table columns literals) = insertText table columns literals :=
    body_eq rfl (by decide) hlast (by decide) (by decide)
  unfold Statement.read
  rw [hbody]
  rfl

/-- A written INSERT is read back as the statement that it writes. -/
theorem read_insertText {values : List Value} (htable : isPlainName table = true)
    (hcolumns : ArePlainColumns columns) (hvalues : values ≠ [])
    (h : List.Forall₂ Value.Written values literals) :
    Statement.read (insertText table columns literals) = .ok (.insert table columns values) := by
  rw [read_insertText_eq, readInsert_insertText htable hcolumns hvalues h]
  rfl

/-- A table with the name of a keyword, and a text that looks like the rest of the statement. -/
theorem read_insertText_keywords :
    Statement.read "INSERT INTO VALUES (id, _2) VALUES (7, 0.5, TRUE, \"a, b) VALUES ('é\n\")".toList =
      .ok (.insert "VALUES" (some ["id", "_2"]) [.integer 7,
        .float (.finite false ⟨0x3FE0000000000000, by decide⟩), .boolean true,
        .text "a, b) VALUES ('é\n"]) := by
  have hhalf : (Value.float (.finite false ⟨0x3FE0000000000000, by decide⟩)).shownChars =
      "0.5".toList := by decide +kernel
  have hfloat : Value.Written (.float (.finite false ⟨0x3FE0000000000000, by decide⟩))
      "0.5".toList := hhalf ▸ .float rfl (by rw [hhalf]; decide)
  have hcolumns : ArePlainColumns (some ["id", "_2"]) := by
    rintro _ ⟨⟩
    decide
  have hread := read_insertText (by decide : isPlainName "VALUES" = true) hcolumns (List.cons_ne_nil _ _)
    (.cons (.integer (n := 7) (by decide)) (.cons hfloat (.cons (.boolean true)
      (.cons (.text (q := '"') (s := "a, b) VALUES ('é\n") (by decide) (by decide)) .nil))))
  have htext : insertText "VALUES" (some ["id", "_2"]) [(Value.integer 7).shownChars, "0.5".toList,
      (Value.boolean true).shownChars, inQuotes '"' "a, b) VALUES ('é\n".toList] =
        "INSERT INTO VALUES (id, _2) VALUES (7, 0.5, TRUE, \"a, b) VALUES ('é\n\")".toList := by
    decide +kernel
  rw [← htext]
  exact hread

end Statement

end Rowfile
