import Rowfile.Proofs.PatternCuts
import Rowfile.Proofs.Readers
import Rowfile.Proofs.RespelledStatements

/-!
# Barewords

The names of a statement are words of its masked text. Filler counts as a word character, so a quoted
span may stand in a name or be one, and the name is then read with its quotes and with whatever they
hold. Outside its quoted spans a name has word characters only: it is a bareword exactly when it
contains no quote. Listed columns are checked once more after they are read, and they always are.
-/
namespace Rowfile

open Masked Pattern Statement Form

/-- What names are made of: the characters of words, and those that a column list accepts. -/
def isBare (c : Char) : Bool := Text.isWord c || Text.isName c

def IsBareword (name : String) : Prop := name.toList ≠ [] ∧ ∀ c ∈ name.toList, isBare c = true

/-- The name is a bareword as far as its quoted spans are not looked at. -/
def LooksBare (name : String) : Prop :=
  name.toList ≠ [] ∧ ∀ cell ∈ mask name.toList, isBare cell.shown = true

instance (name : String) : Decidable (IsBareword name) :=
  @instDecidableAnd _ _ _ (List.decidableBAll _ _)

theorem isBare_of_isQuote {q : Char} (hq : isQuote q = true) : isBare q = false := by
  rcases isQuote_cases hq with rfl | rfl
  · decide
  · decide

/-- A bareword is a name that looks like one and contains no quote. -/
theorem isBareword_iff {name : String} :
    IsBareword name ↔ LooksBare name ∧ Unquoted name.toList := by
  have hcells : Unquoted name.toList →
      ((∀ cell ∈ mask name.toList, isBare cell.shown = true) ↔
        ∀ c ∈ name.toList, isBare c = true) := fun h => by
    rw [mask_of_unquoted h, List.forall_mem_map]
    rfl
  constructor
  · rintro ⟨hne, hbare⟩
    have hunquoted : Unquoted name.toList := fun c hc => by
      cases hquote : isQuote c with
      | false => rfl
      | true => exact absurd (hbare c hc) (by simp [isBare_of_isQuote hquote])
    exact ⟨⟨hne, (hcells hunquoted).mpr hbare⟩, hunquoted⟩
  · rintro ⟨⟨hne, hbare⟩, hunquoted⟩
    exact ⟨hne, (hcells hunquoted).mp hbare⟩

/-! ## Cells behind a cell outside quotes -/

/-- The cells cover the end of a text, and no quote is open before them. -/
def Outside (text : List Char) (cells : List Cell) : Prop :=
  ∃ front rest, text = front ++ rest ∧ Closed front ∧ cells = mask rest

theorem outside_of_shown {text : List Char} {l r : List Cell} {cell : Cell}
    (h : l ++ cell :: r = mask text) (hcell : cell.shown ≠ '_') : Outside text r := by
  obtain ⟨before, c, after, rfl, hbefore, hc, -, -, rfl⟩ := mask_eq_append_cons h.symm hcell
  exact ⟨before ++ [c], after, by simp,
    hbefore.append ((closed_cons_iff hc).mpr closed_nil), rfl⟩

/-! ## Words of a text -/

structure WordIn (text name : List Char) : Prop where
  nonempty : name ≠ []
  within : name <:+: text
  words : ∀ cell ∈ mask name, cell.isWord = true

/-- The part covers a word of the text. -/
def CoversWord (text : List Char) (part : List Cell) : Prop :=
  ∃ name, WordIn text name ∧ part = mask name

section
variable {text : List Char} {l r part other list : List Cell}

theorem CoversWord.wordIn (h : CoversWord text part) {name : String}
    (hread : read? part = some name.toList) : WordIn text name.toList := by
  obtain ⟨cs, hcs, rfl⟩ := h
  rw [read?_mask] at hread
  exact Option.some.inj hread ▸ hcs

/-- A word that begins outside quotes ends outside quotes. -/
theorem Outside.coversWord (h : Outside text (part ++ r)) (hr : BeginsClear r)
    (hpart : part ∈ bareword) : CoversWord text part := by
  obtain ⟨front, rest, rfl, -, hrest⟩ := h
  have hcovers : ∃ name after, rest = name ++ after ∧ part = mask name := by
    cases r with
    | nil => exact ⟨rest, [], (List.append_nil _).symm, by rw [← hrest, List.append_nil]⟩
    | cons cell r =>
      obtain ⟨name, c, after, hcut, -, -, hname, -, -⟩ :=
        mask_eq_append_cons hrest.symm (hr cell rfl)
      exact ⟨name, c :: after, hcut, hname⟩
  obtain ⟨name, after, rfl, rfl⟩ := hcovers
  refine ⟨name, ⟨?_, ⟨front, after, List.append_assoc _ _ _⟩, hpart.2⟩, rfl⟩
  rintro rfl
  exact hpart.1 rfl

/-- A word covers a word of the text where what stands before it ends visibly, and what stands behind it
begins so. -/
theorem coversWord_of_mem (before : List (Language Cell)) {form : Language Cell}
    {after : List (Language Cell)} (h : mask text ∈ (before ++ form :: {part} :: after).prod)
    (hform : EndsVisibly form) (hafter : BeginClear after) (hpart : part ∈ bareword) :
    CoversWord text part := by
  rw [List.prod_append, List.prod_cons, List.prod_cons] at h
  obtain ⟨b, -, _, ⟨l, hl, _, ⟨_, rfl, r, hr, rfl⟩, rfl⟩, hcells⟩ := h
  obtain ⟨hne, hends⟩ := hform l hl
  have hlast := hends _ (List.getLast?_eq_some_getLast hne)
  refine (outside_of_shown (l := b ++ l.dropLast) ?_ hlast).coversWord (hafter r hr) hpart
  rw [← hcells, List.append_assoc, ← List.singleton_append, ← List.append_assoc l.dropLast,
    List.dropLast_append_getLast hne]

/-! ## The names that recognisers find -/

theorem coversWord_createTable (h : createTableParts? (mask text) = some (part, list)) :
    CoversWord text part := by
  obtain ⟨hpart, hcells⟩ := createTableParts?_mem h
  exact coversWord_of_mem [] hcells (endsVisibly_gap _) (beginClear_cons beginsVisibly_open) hpart

theorem coversWord_tableName {verb : String}
    (h : tableNamePart? verb.toList (mask text) = some part) : CoversWord text part := by
  obtain ⟨hpart, hcells⟩ := tableNamePart?_mem h
  exact coversWord_of_mem [] hcells (endsVisibly_gap _) (beginClear_singleton beginsClear_blanks) hpart

theorem coversWord_renameTable (h : renameTableParts? (mask text) = some (part, other)) :
    CoversWord text part ∧ CoversWord text other := by
  obtain ⟨hpart, hother, hcells⟩ := renameTableParts?_mem h
  constructor
  · exact coversWord_of_mem [] hcells (endsVisibly_gap _)
      (beginClear_cons ((beginsVisibly_gap.mul_right _).mul_right _)) hpart
  · exact coversWord_of_mem [opening "RENAME" "TABLE", {part}] hcells (endsVisibly_gap _)
      (beginClear_singleton beginsClear_blanks) hother

theorem coversWord_describe (h : describePart? (mask text) = some part) :
    CoversWord text part := by
  obtain ⟨hpart, hcells⟩ := describePart?_mem h
  exact coversWord_of_mem [] hcells (endsVisibly_gap _) (beginClear_singleton beginsClear_blanks) hpart

theorem coversWord_createIndex (h : createIndexParts? (mask text) = some (part, other)) :
    CoversWord text part ∧ CoversWord text other := by
  obtain ⟨hpart, hother, hcells⟩ := createIndexParts?_mem h
  constructor
  · exact coversWord_of_mem [] hcells (endsVisibly_gap _)
      (beginClear_cons (beginsVisibly_open.mul_right _)) hpart
  · exact coversWord_of_mem [opening "CREATE" "INDEX" * spelled "ON" * gap, {part}] hcells
      (endsVisibly_open _).mul_blanks
      (beginClear_cons (beginsVisibly_close.blanks_mul.mul_right _)) hother

theorem coversWord_insert {columns : Option (List Cell)}
    (h : insertParts? (mask text) = some (part, columns, list)) : CoversWord text part := by
  cases columns with
  | none =>
    obtain ⟨hpart, hcells⟩ := insertParts?_mem h
    exact coversWord_of_mem [] hcells (endsVisibly_gap _)
      (beginClear_cons (((beginsVisibly_gap.mul_right _).mul_right _).mul_right _)) hpart
  | some columns =>
    obtain ⟨hpart, hcells⟩ := insertParts?_some_mem h
    exact coversWord_of_mem [] hcells (endsVisibly_gap _) (beginClear_cons beginsVisibly_open) hpart

theorem coversWord_from (h : fromPart? (mask text) = some part) : CoversWord text part := by
  obtain ⟨hpart, hcells⟩ := fromPart?_mem h
  exact coversWord_of_mem [] hcells (endsVisibly_gap _) (beginClear_singleton beginsClear_wordEnd) hpart

theorem coversWord_orderBy {direction : Option (List Cell)}
    (h : orderByParts? (mask text) = some (part, direction)) : CoversWord text part := by
  obtain ⟨hpart, hcells⟩ := orderByParts?_mem h
  exact coversWord_of_mem [] hcells (endsVisibly_gap _) (beginClear_singleton beginsClear_wordEnd) hpart

theorem coversWord_update {filter : List Cell}
    (h : updateParts? (mask text) = some (part, list, filter)) : CoversWord text part := by
  obtain ⟨hpart, hcells⟩ := updateParts?_mem h
  exact coversWord_of_mem [] hcells (endsVisibly_gap _)
    (beginClear_cons ((beginsVisibly_gap.mul_right _).mul_right _)) hpart

theorem coversWord_delete {filter : List Cell}
    (h : deleteParts? (mask text) = some (part, filter)) : CoversWord text part := by
  obtain ⟨hpart, hcells⟩ := deleteParts?_mem h
  exact coversWord_of_mem [] hcells (endsVisibly_gap _)
    (beginClear_cons ((beginsVisibly_gap.mul_right _).mul_right _)) hpart

end

/-! ## Names of accepted statements -/

namespace Statement

/-- The names for which the form of a statement has a place: its table, its new name, its listed
columns, the column that it is ordered by and the column that it indexes. -/
def placedNames : Statement → List String
  | .createTable table _ | .dropTable table | .update table _ _ | .delete table _
  | .describe table | .showTable table => [table]
  | .renameTable table newName => [table, newName]
  | .insert table columns _ => table :: columns.getD []
  | .select table _ orderBy _ => table :: (orderBy.map OrderBy.column).toList
  | .createIndex table column => [table, column]
  | .showTables => []

/-- Each placed name is a word of the text or an identifier. -/
theorem wordIn_or_isIdentifier {text : List Char} {statement : Statement}
    (h : statement.reader text = .ok statement) : ∀ name ∈ statement.placedNames,
      WordIn text name.toList ∨ isIdentifier name.toList = true := by
  cases statement with
  | createTable table schema =>
    obtain ⟨_, _, _, _, _, _, hparts, hread, _, _, _, heq⟩ := readCreateTable_eq_ok h
    obtain ⟨rfl, -⟩ := Statement.createTable.inj heq
    simpa [placedNames] using .inl ((coversWord_createTable hparts).wordIn hread)
  | dropTable table =>
    obtain ⟨_, _, hparts, hread, heq⟩ := readDropTable_eq_ok h
    obtain rfl := Statement.dropTable.inj heq
    simpa [placedNames] using .inl ((coversWord_tableName hparts).wordIn hread)
  | renameTable table newName =>
    obtain ⟨_, _, _, _, hparts, hold, hnew, heq⟩ := readRenameTable_eq_ok h
    obtain ⟨rfl, rfl⟩ := Statement.renameTable.inj heq
    have hcovers := coversWord_renameTable hparts
    simpa [placedNames] using
      ⟨.inl (hcovers.1.wordIn hold), .inl (hcovers.2.wordIn hnew)⟩
  | insert table columns values =>
    obtain ⟨_, _, _, _, _, _, hparts, hread, hcolumns, heq⟩ := readInsert_eq_ok h
    obtain ⟨rfl, rfl, rfl⟩ := Statement.insert.inj heq
    refine List.forall_mem_cons.mpr ⟨.inl ((coversWord_insert hparts).wordIn hread), ?_⟩
    cases columns with
    | none => exact fun _ hname => nomatch hname
    | some names => exact fun name hname => .inr (hcolumns names rfl name hname)
  | select table filter orderBy limit =>
    obtain ⟨_, _, _, _, _, hpart, hread, horder, heq⟩ := readSelect_eq_ok h
    obtain ⟨rfl, -, rfl, -⟩ := Statement.select.inj heq
    refine List.forall_mem_cons.mpr ⟨.inl ((coversWord_from hpart).wordIn hread), ?_⟩
    cases orderBy with
    | none => exact fun _ hname => nomatch hname
    | some order =>
      obtain ⟨_, _, hparts, hcolumn⟩ := readOrderBy_eq_ok horder
      simpa using .inl ((coversWord_orderBy hparts).wordIn hcolumn)
  | update table assignments filter =>
    obtain ⟨_, _, _, _, _, _, hparts, hread, heq⟩ := readUpdate_eq_ok h
    obtain ⟨rfl, -⟩ := Statement.update.inj heq
    simpa [placedNames] using .inl ((coversWord_update hparts).wordIn hread)
  | delete table filter =>
    obtain ⟨_, _, _, _, hparts, hread, heq⟩ := readDelete_eq_ok h
    obtain ⟨rfl, -⟩ := Statement.delete.inj heq
    simpa [placedNames] using .inl ((coversWord_delete hparts).wordIn hread)
  | describe table =>
    obtain ⟨_, _, hparts, hread, heq⟩ := readDescribe_eq_ok h
    obtain rfl := Statement.describe.inj heq
    simpa [placedNames] using .inl ((coversWord_describe hparts).wordIn hread)
  | showTables => exact fun _ hname => nomatch hname
  | showTable table =>
    obtain ⟨_, _, hparts, hread, heq⟩ := readShowTable_eq_ok h
    obtain rfl := Statement.showTable.inj heq
    simpa [placedNames] using .inl ((coversWord_tableName hparts).wordIn hread)
  | createIndex table column =>
    obtain ⟨_, _, _, _, hparts, hname, hcolumn, heq⟩ := readCreateIndex_eq_ok h
    obtain ⟨rfl, rfl⟩ := Statement.createIndex.inj heq
    have hcovers := coversWord_createIndex hparts
    simpa [placedNames] using
      ⟨.inl (hcovers.1.wordIn hname), .inl (hcovers.2.wordIn hcolumn)⟩

theorem isBareword_of_isIdentifier {name : String} (h : isIdentifier name.toList = true) :
    IsBareword name := by
  rw [isIdentifier, Bool.and_eq_true, List.all_eq_true] at h
  exact ⟨by simpa using h.1, fun c hc => by rw [isBare, h.2 c hc, Bool.or_true]⟩

/-- Every name in an accepted statement looks like a bareword, and it is one exactly when it contains
no quote. So all names of a text without quotes are barewords, but a quoted span that stands where a
name is expected is a name, or a part of one, with its quotes and all that is between them. -/
theorem name_bareword_iff_unquoted {text : List Char} {statement : Statement}
    (h : Statement.read text = .ok statement) :
    (∀ name ∈ statement.placedNames,
      LooksBare name ∧ (IsBareword name ↔ Unquoted name.toList)) ∧
    (Unquoted (body text) → ∀ name ∈ statement.placedNames, IsBareword name) := by
  have hnames := wordIn_or_isIdentifier (reader_of_read h)
  have hlooks : ∀ name ∈ statement.placedNames, LooksBare name := by
    intro name hname
    rcases hnames name hname with hword | hidentifier
    · exact ⟨hword.nonempty, fun cell hcell => by
        rw [isBare, show Text.isWord cell.shown = true from hword.words cell hcell, Bool.true_or]⟩
    · exact (isBareword_iff.mp (isBareword_of_isIdentifier hidentifier)).1
  refine ⟨fun name hname => ⟨hlooks name hname, ?_⟩, fun hunquoted name hname => ?_⟩
  · rw [isBareword_iff, and_iff_right (hlooks name hname)]
  · rcases hnames name hname with hword | hidentifier
    · exact isBareword_iff.mpr
        ⟨hlooks name hname, fun c hc => hunquoted c (hword.within.mem hc)⟩
    · exact isBareword_of_isIdentifier hidentifier

theorem name_bareword_iff_unquoted_spanned : ∃ statement,
    Statement.read "SELECT * FROM t'é, x' ORDER BY \"a b\"".toList = .ok statement ∧
      statement.placedNames = ["t'é, x'", "\"a b\""] ∧
      ∀ name ∈ statement.placedNames,
        LooksBare name ∧ (IsBareword name ↔ Unquoted name.toList) := by
  have hfound : (Statement.read "SELECT * FROM t'é, x' ORDER BY \"a b\"".toList).map placedNames =
      .ok ["t'é, x'", "\"a b\""] := by decide +kernel
  obtain ⟨statement, hread, hnames⟩ := exists_read_of_map hfound
  exact ⟨statement, hread, hnames, (name_bareword_iff_unquoted hread).1⟩

/-- A statement is accepted whose table is named by a quoted span. -/
theorem quoted_span_names_table : ∃ statement,
    Statement.read "CREATE TABLE 'my table' (id INT PRIMARY KEY)".toList = .ok statement ∧
      ∃ name ∈ statement.placedNames, ¬ IsBareword name := by
  have hfound : (Statement.read "CREATE TABLE 'my table' (id INT PRIMARY KEY)".toList).map
      placedNames = .ok ["'my table'"] := by decide +kernel
  obtain ⟨statement, hread, hnames⟩ := exists_read_of_map hfound
  exact ⟨statement, hread, "'my table'", by simp [hnames], by decide⟩

end Statement

end Rowfile
