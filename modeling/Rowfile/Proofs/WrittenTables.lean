import Rowfile.Proofs.DeclaredColumns
import Rowfile.Proofs.WrittenInserts

/-!
# Written CREATE TABLE statements

A column is declared by its name, its type, its constraints in any order and its default if it has
one. The words of a declaration are found again whatever the default holds, since a quoted text is one
word, and the reader takes the word behind DEFAULT as it is. So a written table is read back with its
columns in order.
-/
namespace Rowfile

open Masked Pattern Split

/-! ## Declarations -/

inductive Constraint where
  | primaryKey
  | notNull
  | unique
  deriving DecidableEq, Repr

def Constraint.words : Constraint → List (List Char)
  | .primaryKey => ["PRIMARY".toList, "KEY".toList]
  | .notNull => ["NOT".toList, "NULL".toList]
  | .unique => ["UNIQUE".toList]

namespace Column

def has (column : Column) : Constraint → Bool
  | .primaryKey => column.primaryKey
  | .notNull => column.notNull
  | .unique => column.unique

/-- The column with a constraint that it may have had before. -/
def impose (column : Column) : Constraint → Column
  | .primaryKey => { column with primaryKey := true }
  | .notNull => { column with notNull := true }
  | .unique => { column with unique := true }

inductive DefaultWritten : Option Value → List (List Char) → Prop
  | none : DefaultWritten none []
  | some {value : Value} {literal : List Char} :
      value.Written literal → DefaultWritten (some value) ["DEFAULT".toList, literal]

/-- The declarations of a column: its name and its type, the constraints that it has, and its
default, which fits its type. -/
inductive Written (column : Column) : List Char → Prop
  | declaration {constraints : List Constraint} {default : List (List Char)} :
      isPlainName column.name = true →
      (∀ constraint, constraint ∈ constraints ↔ column.has constraint = true) →
      DefaultWritten column.default? default →
      (∀ value, column.default? = some value → value.fits column.type = true) →
      Written column (line (column.name.toList :: column.type.name.toList ::
        (constraints.flatMap Constraint.words ++ default)))

end Column

/-! ## Words of a declaration -/

theorem isParenthesis_of_solid {word : List Char} (h : SolidWord word) :
    ∀ cell ∈ mask word, isParenthesis cell = false :=
  fun cell hcell => isParenthesis_of_isListed (isListed_of_isSolid (h.shown cell hcell))

theorem tokensFrom_word {word : List Char} (h : SolidWord word) (r : List Cell) :
    tokensFrom 0 (mask word ++ r) = (mask word ++ (tokensFrom 0 r).1, (tokensFrom 0 r).2) :=
  tokensFrom_append (fun cell hcell =>
    ⟨isParenthesis_of_solid h cell hcell, h.visible.isBlank_cell hcell⟩) 0 r

theorem SolidWord.token {word : List Char} (h : SolidWord word) : Token word where
  nonempty := h.nonempty
  balanced := balanced_of_forall h.closed (isParenthesis_of_solid h)
  blanks := nested_of_forall fun _ hcell => h.visible.isBlank_cell hcell

theorem joined_line (words : List (List Char)) : Joined Blanks words (line words) := by
  induction words with
  | nil => exact .nil
  | cons word words ih =>
    cases words with
    | nil =>
      rw [line, spaced, List.flatMap_nil, List.append_nil]
      exact .last word
    | cons next words =>
      rw [line, spaced_eq (List.cons_ne_nil _ _)]
      exact .next word ⟨List.cons_ne_nil ' ' [], by decide⟩ (List.cons_ne_nil _ _) ih

/-- A line of solid words is cut into these words. -/
theorem atBlanks?_line {words : List (List Char)} (h : ∀ word ∈ words, SolidWord word) :
    atBlanks? (line words) = some words :=
  atBlanks?_joined (joined_line words) fun word hword => (h word hword).token

namespace ColumnText

/-- A word that is no type and begins no constraint is passed over. -/
theorem readWords_skip {token : List Char}
    (htype : ColumnType.ofKeyword? (keyword token).toList = none)
    (hword : keyword token ∉ ["PRIMARY", "NOT", "UNIQUE", "DEFAULT"]) (column : Column)
    (rest : List (List Char)) : readWords column (token :: rest) = readWords column rest := by
  simp only [List.mem_cons, List.not_mem_nil, not_or, or_false] at hword
  rw [readWords.eq_def]
  simp only [htype, hword, false_and, if_false]

theorem readWords_type {column : Column} (h : column.type = .text) (type : ColumnType)
    (rest : List (List Char)) :
    readWords column (type.name.toList :: rest) = readWords { column with type := type } rest := by
  cases type with
  | text =>
    have hcolumn : { column with type := .text } = column := by rw [← h]
    rw [hcolumn]
    exact readWords_skip (by decide +kernel) (by decide +kernel) column rest
  | int => rfl
  | float => rfl
  | boolean => rfl
  | date => rfl

/-- The second word of a constraint is read once more and passed over. -/
theorem readWords_constraint (column : Column) (constraint : Constraint)
    (rest : List (List Char)) :
    readWords column (constraint.words ++ rest) = readWords (column.impose constraint) rest := by
  cases constraint with
  | primaryKey =>
    have htype : ColumnType.ofKeyword? "PRIMARY".toList = none := rfl
    have hkeyword : keyword "PRIMARY".toList = "PRIMARY" := by decide
    have hnext : nextIs "KEY" ("KEY".toList :: rest) = true := rfl
    rw [Constraint.words, List.cons_append, List.singleton_append, readWords.eq_def]
    simp only [hkeyword, htype, hnext, and_self, if_true]
    exact readWords_skip (by decide +kernel) (by decide +kernel) { column with primaryKey := true } rest
  | notNull =>
    have htype : ColumnType.ofKeyword? "NOT".toList = none := rfl
    have hkeyword : keyword "NOT".toList = "NOT" := by decide
    have hnext : nextIs "NULL" ("NULL".toList :: rest) = true := rfl
    rw [Constraint.words, List.cons_append, List.singleton_append, readWords.eq_def]
    simp only [hkeyword, htype, hnext, String.reduceEq, false_and, and_self, if_false, if_true]
    exact readWords_skip (by decide +kernel) (by decide +kernel) { column with notNull := true } rest
  | unique =>
    have htype : ColumnType.ofKeyword? "UNIQUE".toList = none := rfl
    have hkeyword : keyword "UNIQUE".toList = "UNIQUE" := by decide
    rw [Constraint.words, List.singleton_append, readWords.eq_def]
    simp only [hkeyword, htype, String.reduceEq, false_and, if_false, if_true, Column.impose]

theorem readWords_constraints (column : Column) (constraints : List Constraint)
    (rest : List (List Char)) :
    readWords column (constraints.flatMap Constraint.words ++ rest) =
      readWords (constraints.foldl Column.impose column) rest := by
  induction constraints generalizing column with
  | nil => rfl
  | cons constraint constraints ih =>
    rw [List.flatMap_cons, List.append_assoc, readWords_constraint, ih, List.foldl_cons]

theorem foldl_impose (column : Column) (constraints : List Constraint) :
    constraints.foldl Column.impose column = { column with
      primaryKey := column.primaryKey || constraints.contains .primaryKey
      notNull := column.notNull || constraints.contains .notNull
      unique := column.unique || constraints.contains .unique } := by
  induction constraints generalizing column with
  | nil => simp
  | cons constraint constraints ih =>
    rw [List.foldl_cons, ih]
    cases constraint <;> simp [Column.impose]

/-- The type and the constraints of a column leave the column without its default. -/
theorem readWords_typed {column : Column} {constraints : List Constraint}
    (h : ∀ constraint, constraint ∈ constraints ↔ column.has constraint = true)
    (rest : List (List Char)) :
    readWords { name := column.name, type := .text }
        (column.type.name.toList :: (constraints.flatMap Constraint.words ++ rest)) =
      readWords { column with default? := none } rest := by
  have hcontains : ∀ constraint, constraints.contains constraint = column.has constraint := by
    intro constraint
    rw [Bool.eq_iff_iff, List.contains_iff_mem, h]
  rw [readWords_type rfl, readWords_constraints, foldl_impose, hcontains, hcontains, hcontains]
  simp [Column.has]

/-- The word behind DEFAULT is taken as it is. -/
theorem readWords_default_cons (column : Column) (literal : List Char) (rest : List (List Char)) :
    readWords column ("DEFAULT".toList :: literal :: rest) =
      readWords { column with default? := some (Value.ofLiteral literal) } rest := rfl

theorem readWords_default {column : Column} {default? : Option Value}
    {words : List (List Char)} (hnone : column.default? = none)
    (h : Column.DefaultWritten default? words) :
    readWords column words = { column with default? := default? } := by
  cases h with
  | none => rw [← hnone]; rfl
  | @some value literal hliteral =>
    rw [readWords_default_cons, hliteral.ofLiteral_eq]
    rfl

theorem solidWord_words (constraint : Constraint) :
    ∀ word ∈ constraint.words, SolidWord word := by
  have hsolid : ∀ word ∈ constraint.words,
      word.all (fun c => !isQuote c && isSolid c) = true ∧ word ≠ [] := by
    cases constraint <;> decide
  exact fun word hword => ⟨shown_of_all (hsolid word hword).1, (hsolid word hword).2⟩

theorem solidWord_default {default? : Option Value} {words : List (List Char)}
    (h : Column.DefaultWritten default? words) : ∀ word ∈ words, SolidWord word := by
  cases h with
  | none => exact fun _ hword => nomatch hword
  | some hliteral =>
    refine List.forall_mem_cons.mpr ⟨⟨shown_of_all (by decide), by decide⟩, ?_⟩
    exact List.forall_mem_singleton.mpr hliteral.solidWord

theorem solidWord_declaration {column : Column} (constraints : List Constraint)
    {default : List (List Char)} (hname : isPlainName column.name = true)
    (h : Column.DefaultWritten column.default? default) :
    ∀ word ∈ column.name.toList :: column.type.name.toList ::
      (constraints.flatMap Constraint.words ++ default), SolidWord word := by
  have htype : SolidWord column.type.name.toList := by
    cases column.type <;> exact ⟨shown_of_all (by decide), by decide⟩
  refine List.forall_mem_cons.mpr ⟨solidWord_name hname, List.forall_mem_cons.mpr ⟨htype, ?_⟩⟩
  intro word hword
  rcases List.mem_append.mp hword with hword | hword
  · obtain ⟨constraint, _, hword⟩ := List.mem_flatMap.mp hword
    exact solidWord_words constraint word hword
  · exact solidWord_default h word hword

/-- A declaration is read back as the column that it declares. -/
theorem read_declaration {column : Column} {text : List Char} (h : column.Written text) :
    ColumnText.read text = .ok column := by
  cases h with
  | @declaration constraints default hname hconstraints hdefault hfits =>
    refine read_eq_ok_iff.mpr ⟨_, _, atBlanks?_line (solidWord_declaration constraints hname hdefault),
      ?_, hfits⟩
    rw [String.ofList_toList, readWords_typed hconstraints, readWords_default rfl hdefault]

end ColumnText

/-! ## Tables -/

theorem Column.Written.listItem {column : Column} {text : List Char} (h : column.Written text) :
    ListItem text := by
  cases h with
  | @declaration constraints default hname _ hdefault =>
    have hwords := ColumnText.solidWord_declaration constraints hname hdefault
    refine ⟨.line (by decide) fun word hword => (hwords word hword).listItem.toShown,
      trimmed_line (List.cons_ne_nil _ _) fun word hword => (hwords word hword).visible, ?_⟩
    simp [line, (hwords _ List.mem_cons_self).nonempty]

namespace Statement

/-- How a CREATE TABLE is written, given the declarations of its columns. -/
def createTableText (table : String) (declarations : List (List Char)) : List Char :=
  "CREATE TABLE ".toList ++ (table.toList ++ (" (".toList ++ (commaJoin declarations ++ [')'])))

variable {table : String} {columns : List Column} {declarations : List (List Char)}

/-- The name stands before the body, which ends at the last closing parenthesis. -/
theorem createTableParts?_createTableText (htable : isPlainName table = true)
    (declarations : List (List Char)) :
    createTableParts? (mask (createTableText table declarations)) =
      (beforeLast? ')' (mask (commaJoin declarations ++ [')']))).map (mask table.toList, ·) := by
  have hname := solidWord_name htable
  have hcells : mask (createTableText table declarations) = mask "CREATE TABLE ".toList ++
      (mask table.toList ++ (mask " (".toList ++ mask (commaJoin declarations ++ [')']))) := by
    unfold createTableText
    rw [mask_append (by decide : Closed "CREATE TABLE ".toList), mask_append hname.closed,
      mask_append (by decide : Closed " (".toList)]
  have hkeywords : ∀ l : List Cell, keywords? "CREATE".toList "TABLE".toList
      (skipBlanks (mask "CREATE TABLE ".toList ++ l)) = some (.plain ' ' :: l) := fun _ => rfl
  have hopen : ∀ l : List Cell, mask " (".toList ++ l = .plain ' ' :: .plain '(' :: l := fun _ => rfl
  have hword : ∀ l : List Cell, word? (mask table.toList ++ .plain ' ' :: l) =
      some (mask table.toList, .plain ' ' :: l) := fun _ => word?_name htable rfl
  have hbody : ∀ l : List Cell, outerBody? (skipBlanks (.plain ' ' :: .plain '(' :: l)) =
      beforeLast? ')' l := fun _ => rfl
  rw [hcells, createTableParts?, hkeywords, hopen]
  simp only [Option.bind_eq_bind, Option.bind_some, blanks?_space (hname.visible.head_isBlank _),
    hword, hbody]
  cases beforeLast? ')' (mask (commaJoin declarations ++ [')'])) <;> rfl

/-- Declarations whose quotes are closed are the body. -/
theorem createTableParts?_of_closed (htable : isPlainName table = true)
    (h : Closed (commaJoin declarations)) :
    createTableParts? (mask (createTableText table declarations)) =
      some (mask table.toList, mask (commaJoin declarations)) := by
  have hclose : mask [')'] = [.plain ')'] := rfl
  rw [createTableParts?_createTableText htable, mask_append h, hclose, beforeLast?_concat]
  rfl

/-- A text that ends with the parenthesis of its body is read as a CREATE TABLE. -/
theorem read_createTableText_eq (table : String) (declarations : List (List Char)) :
    Statement.read (createTableText table declarations) =
      orMalformed (readCreateTable (createTableText table declarations)) := by
  have hlast : (createTableText table declarations).getLast? = some ')' :=
    getLast?_append_some _ (getLast?_append_some _ (getLast?_append_some _
      (getLast?_append_some _ rfl)))
  unfold Statement.read
  rw [body_eq rfl (by decide) hlast (by decide) (by decide)]
  rfl

theorem readColumns_of_written {schema : Schema}
    (hnames : (schema.names ++ columns.map Column.name).Nodup)
    (h : List.Forall₂ Column.Written columns declarations) :
    readColumns table schema declarations =
      .ok (columns.foldl (fun schema column => (schema.add? column).getD schema) schema) := by
  induction h generalizing schema with
  | nil => rfl
  | @cons column text columns declarations hcolumn _ ih =>
    have hempty : text.isEmpty = false := by simpa using hcolumn.listItem.nonempty
    have hnew : column.name ∉ schema.names := fun hm =>
      (List.nodup_append.mp hnames).2.2 _ hm _ List.mem_cons_self rfl
    rw [List.map_cons, List.append_cons, ← Schema.names_set hnew] at hnames
    rw [readColumns, hempty, if_neg Bool.false_ne_true, ColumnText.read_declaration hcolumn, ok_bind,
      List.foldl_cons, Schema.add?_of_not_mem hnew]
    exact ih hnames

/-- A written CREATE TABLE is read back with its name and its columns in order. -/
theorem read_createTableText (htable : isPlainName table = true)
    (hnames : (columns.map Column.name).Nodup)
    (h : List.Forall₂ Column.Written columns declarations) :
    Statement.read (createTableText table declarations) =
        .ok (.createTable table (.ofColumns columns)) ∧
      (Schema.ofColumns columns).list = columns := by
  refine ⟨?_, Schema.list_ofColumns hnames⟩
  have hitems := forall_of_written (fun _ _ hcolumn => hcolumn.listItem) h
  have hcolumns : readColumns table .empty declarations = .ok (.ofColumns columns) :=
    readColumns_of_written hnames h
  have hread : readCreateTable (createTableText table declarations) =
      .ok (.createTable table (.ofColumns columns)) := by
    unfold readCreateTable
    rw [createTableParts?_of_closed htable (shown_commaJoin hitems).closed]
    simp only [orFault, ok_bind, readName_mask, readPart_mask, atSeparator?_commaJoin hitems,
      Clause.orTorn, hcolumns]
    rfl
  rw [read_createTableText_eq, hread]
  rfl

/-- A column whose default looks like the rest of a declaration. -/
def labelColumn : Column :=
  ⟨"INT", .text, false, true, true, some (.text "x) UNIQUE, \"é")⟩

/-- A column whose default is one half. -/
def shareColumn : Column :=
  ⟨"DEFAULT", .float, true, false, false,
    some (.float (.finite false ⟨0x3FE0000000000000, by decide⟩))⟩

theorem read_createTableText_keywords :
    Statement.read ("CREATE TABLE TABLE (INT TEXT UNIQUE NOT NULL DEFAULT 'x) UNIQUE, \"é', " ++
        "DEFAULT FLOAT PRIMARY KEY DEFAULT 0.5)").toList =
      .ok (.createTable "TABLE" (.ofColumns [labelColumn, shareColumn])) := by
  have hlabel : labelColumn.Written (line ["INT".toList, "TEXT".toList, "UNIQUE".toList,
      "NOT".toList, "NULL".toList, "DEFAULT".toList, inQuotes '\x27' "x) UNIQUE, \"é".toList]) :=
    @Column.Written.declaration labelColumn [.unique, .notNull] _ (by decide)
      (by intro constraint; cases constraint <;> decide)
      (.some (.text (by decide) (by decide))) (by simp [labelColumn])
  have hshare : shareColumn.Written (line ["DEFAULT".toList, "FLOAT".toList, "PRIMARY".toList,
      "KEY".toList, "DEFAULT".toList, "0.5".toList]) := by
    have hhalf : (Value.float (.finite false ⟨0x3FE0000000000000, by decide⟩)).shownChars =
        "0.5".toList := by decide +kernel
    have hliteral : Value.Written (.float (.finite false ⟨0x3FE0000000000000, by decide⟩))
        "0.5".toList := hhalf ▸ .float rfl (by rw [hhalf]; decide)
    exact @Column.Written.declaration shareColumn [.primaryKey] _ (by decide)
      (by intro constraint; cases constraint <;> decide) (.some hliteral)
      (by simp [shareColumn]; decide)
  have hread := (read_createTableText (by decide : isPlainName "TABLE" = true) (by decide)
    (.cons hlabel (.cons hshare .nil))).1
  have htext : ("CREATE TABLE TABLE (INT TEXT UNIQUE NOT NULL DEFAULT 'x) UNIQUE, \"é', " ++
      "DEFAULT FLOAT PRIMARY KEY DEFAULT 0.5)").toList = createTableText "TABLE"
        [line ["INT".toList, "TEXT".toList, "UNIQUE".toList, "NOT".toList, "NULL".toList,
            "DEFAULT".toList, inQuotes '\x27' "x) UNIQUE, \"é".toList],
          line ["DEFAULT".toList, "FLOAT".toList, "PRIMARY".toList, "KEY".toList,
            "DEFAULT".toList, "0.5".toList]] := by decide +kernel
  rw [htext]
  exact hread

end Statement

end Rowfile
