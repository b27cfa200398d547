import Rowfile.Proofs.ClauseForms
import Rowfile.Proofs.SolidWords

/-!
# Documented forms

A CREATE TABLE or INSERT is documented to end with the parenthesis of its list, and a SELECT to have, behind
its table, at most one clause of each kind in a fixed order. An accepted text need not be of its documented
form: what follows the list is not looked at, and the clauses of a SELECT are looked for wherever they stand.
It is of the form exactly when nothing is left behind the list, or behind the table and its clauses.
-/
namespace Rowfile

open Masked Pattern Statement

namespace Form

/-- The word behind the first FROM that a word follows, and the cells behind that word. -/
def fromTable? : List Cell → Option (List Cell × List Cell) :=
  search? (fun cells => ((keyword? "FROM".toList cells).bind blanks?).bind word?) false

/-- `SELECT ... FROM table` and clauses. -/
def select : Language Cell :=
  {cells | cells ∈ spelled "SELECT" * anything ∧
    ∃ table rest, fromTable? cells = some (table, rest) ∧ rest ∈ clauses}

/-! ## The head of a SELECT -/

theorem isAlphanum_of_isUpper_toUpper {d : Char} (h : d.toUpper.isUpper = true) :
    d.isAlphanum = true := by
  have hkinds : d.isAlphanum = (d.isUpper || d.isLower || d.isDigit) := rfl
  rw [hkinds]
  cases hlower : d.isLower with
  | true => simp
  | false =>
    have hrange : d.isLower = (decide ('a'.val ≤ d.val) && decide (d.val ≤ 'z'.val)) := rfl
    have hsame : d.toUpper = d := by
      unfold Char.toUpper
      rw [dif_neg]
      rintro ⟨hlow, hhigh⟩
      rw [hrange, decide_eq_true hlow, decide_eq_true hhigh] at hlower
      cases hlower
    rw [hsame] at h
    simp [h]

/-- A letter in some case is the letter up to case folding, and no quote. -/
theorem foldEq_toUpper {d : Char} (h : d.toUpper.isUpper = true) :
    Text.foldEq d.toUpper d = true ∧ isQuote d = false := by
  have hsolid : isSolid d = true := by simp [isSolid, isAlphanum_of_isUpper_toUpper h]
  have hletter := forall_of_isSolid
    (p := fun d => !d.toUpper.isUpper || (Text.foldEq d.toUpper d && !isQuote d))
    (by decide +kernel) hsolid
  simpa [h] using hletter

/-- A text that begins with a word in some case shows that word. -/
theorem mask_of_startsWith {word : String} (hword : word.toList.all Char.isUpper = true)
    {text : List Char} (h : startsWith word text = true) : mask text ∈ spelled word * anything := by
  have hcells : ∀ letters : List Char, (∀ c ∈ letters, c.isUpper = true) → ∀ text : List Char,
      letters.isPrefixOf (text.map Char.toUpper) = true →
        ∃ k r, mask text = k ++ r ∧ Spells letters k := by
    intro letters
    induction letters with
    | nil => exact fun _ text _ => ⟨[], mask text, rfl, .nil⟩
    | cons c letters ih =>
      intro hletters text hstarts
      rw [List.forall_mem_cons] at hletters
      cases text with
      | nil => cases hstarts
      | cons d text =>
        rw [List.map_cons, List.isPrefixOf_cons_cons, Bool.and_eq_true, beq_iff_eq] at hstarts
        obtain ⟨rfl, hstarts⟩ := hstarts
        obtain ⟨hfold, hquote⟩ := foldEq_toUpper hletters.1
        obtain ⟨k, r, hmask, hk⟩ := ih hletters.2 text hstarts
        exact ⟨.plain d :: k, r, by rw [mask_cons hquote, hmask, List.cons_append], .cons hfold hk⟩
  obtain ⟨k, r, hmask, hk⟩ := hcells _ (List.all_eq_true.mp hword) text h
  rw [hmask]
  exact Language.append_mem_mul hk trivial

theorem search?_map {α β : Type} (find? : List Cell → Option α) (f : α → β) (wordBefore : Bool)
    (cells : List Cell) :
    search? (fun cells => (find? cells).map f) wordBefore cells =
      (search? find? wordBefore cells).map f := by
  induction cells generalizing wordBefore with
  | nil => cases wordBefore <;> rfl
  | cons cell r ih =>
    rw [search?, search?, ih]
    cases wordBefore with
    | true => rfl
    | false =>
      cases find? (cell :: r) <;> rfl

theorem fromPart?_eq (cells : List Cell) : fromPart? cells = (fromTable? cells).map Prod.fst := by
  rw [fromTable?, ← search?_map, fromPart?]
  congr 1
  funext cells
  rw [Option.map_bind]
  rfl

end Form

namespace Statement

/-- The documented form of the statements that are accepted in other texts as well. -/
def form? : Statement → Option (Language Cell)
  | .createTable .. => some Form.createTable
  | .insert .. => some Form.insert
  | .select .. => some Form.select
  | _ => none

/-- The form of the statement ends with a list. -/
def endsWithList : Statement → Bool
  | .createTable .. | .insert .. => true
  | _ => false

/-- What is left of an accepted text behind the parts of its form: behind the list, or behind the table
of a SELECT and all clauses that follow it. -/
def unread : Statement → List Cell → List Cell
  | .select .., cells => ((Form.fromTable? cells).map fun found => Form.unreadClauses found.2).getD cells
  | _, cells => skipBlanks (Form.behindList cells)

/-- A text with a list that is read from its parts is read without what follows the list. -/
theorem exists_kept {α : Type} {parts? : List Cell → Option α} {part : α} {head body : Language Cell}
    {side : Prop} (hparts : ∀ cells,
      parts? cells = some part ↔ side ∧ cells ∈ Form.listed head body * Form.without ')')
    {text : List Char} (h : parts? (mask text) = some part) :
    ∃ kept rest, text = kept ++ rest ∧ mask text = mask kept ++ mask rest ∧
      mask kept ∈ Form.listed head body ∧ mask rest ∈ Form.without ')' ∧
      parts? (mask kept) = some part := by
  obtain ⟨hside, hcells⟩ := (hparts _).mp h
  obtain ⟨kept, rest, rfl, hmask, hkept, hrest⟩ := Form.exists_kept hcells
  refine ⟨kept, rest, rfl, hmask, hkept, hrest, (hparts _).mpr ⟨hside, ?_⟩⟩
  have hnothing : ([] : List Cell) ∈ Form.without ')' := fun _ hcell => nomatch hcell
  exact List.append_nil (mask kept) ▸ Language.append_mem_mul hkept hnothing

section
variable {text : List Char} {statement : Statement}

/-- The text is a list form and a rest that does not count. -/
def ReadWithoutRest (statement : Statement) (head : Language Cell) (text : List Char) : Prop :=
  ∃ kept rest, text = kept ++ rest ∧ mask text = mask kept ++ mask rest ∧
    mask kept ∈ Form.listed head Form.anything ∧ mask rest ∈ Form.without ')' ∧
    statement.reader kept = .ok statement

theorem readWithoutRest_createTable {table : String} {schema : Schema}
    (h : readCreateTable text = .ok (.createTable table schema)) :
    ReadWithoutRest (.createTable table schema) (Form.createTableHead Form.bareword) text := by
  obtain ⟨name, body, _, _, _, _, hparts, -⟩ := readCreateTable_eq_ok h
  obtain ⟨kept, rest, htext, hmask, hkept, hrest, hsame⟩ :=
    exists_kept (fun _ => Form.createTableParts?_eq_some_iff) hparts
  have hname := (Form.createTableParts?_eq_some_iff.mp hparts).1
  have hbare : ({name} : Language Cell) ≤ Form.bareword := Set.singleton_subset_iff.mpr hname
  have hbody : ({body} : Language Cell) ≤ Form.anything := fun _ _ => trivial
  have hform : Form.listed (Form.createTableHead {name}) {body} ≤
      Form.listed (Form.createTableHead Form.bareword) Form.anything := by
    unfold Form.listed Form.createTableHead
    gcongr
  refine ⟨kept, rest, htext, hmask, hform hkept, hrest, ?_⟩
  rw [readCreateTable, hparts] at h
  rw [reader, readCreateTable, hsame]
  exact h

theorem readWithoutRest_insert {table : String} {columns : Option (List String)}
    {values : List Value} (h : readInsert text = .ok (.insert table columns values)) :
    ReadWithoutRest (.insert table columns values)
      (Form.insertHead Form.bareword (1 + Form.columnList (Form.without ')'))) text := by
  obtain ⟨name, list, body, _, _, _, hparts, -⟩ := readInsert_eq_ok h
  obtain ⟨kept, rest, htext, hmask, hkept, hrest, hsame⟩ :=
    exists_kept (fun _ => Form.insertParts?_eq_some_iff.trans and_assoc.symm) hparts
  obtain ⟨hname, hlist, -⟩ := Form.insertParts?_eq_some_iff.mp hparts
  have hbare : ({name} : Language Cell) ≤ Form.bareword := Set.singleton_subset_iff.mpr hname
  have hbody : ({body} : Language Cell) ≤ Form.anything := fun _ _ => trivial
  have hcolumns : Form.columnsPart list ≤ 1 + Form.columnList (Form.without ')') := by
    cases list with
    | none => exact fun _ hcells => (Language.mem_add _ _ _).mpr (.inl hcells)
    | some list =>
      have hwithout : ({list} : Language Cell) ≤ Form.without ')' :=
        Set.singleton_subset_iff.mpr (hlist list rfl)
      refine le_trans ?_ fun _ hcells => (Language.mem_add _ _ _).mpr (.inr hcells)
      change Form.columnList {list} ≤ Form.columnList (Form.without ')')
      unfold Form.columnList
      gcongr
  have hform : Form.listed (Form.insertHead {name} (Form.columnsPart list)) {body} ≤
      Form.listed (Form.insertHead Form.bareword (1 + Form.columnList (Form.without ')')))
        Form.anything := by
    unfold Form.listed Form.insertHead
    gcongr
  refine ⟨kept, rest, htext, hmask, hform hkept, hrest, ?_⟩
  rw [readInsert, hparts] at h
  rw [reader, readInsert, hsame]
  exact h

theorem ReadWithoutRest.documented {head : Language Cell} (h : ReadWithoutRest statement head text) :
    (mask text ∈ Form.listed head Form.anything * Form.blanks ↔
      skipBlanks (Form.behindList (mask text)) = []) ∧
    ∃ kept rest, text = kept ++ rest ∧
      mask kept ∈ Form.listed head Form.anything * Form.blanks ∧
      statement.reader kept = .ok statement ∧
      skipBlanks (Form.behindList (mask text)) = skipBlanks (mask rest) := by
  obtain ⟨kept, rest, htext, hmask, hkept, hrest, hread⟩ := h
  rw [hmask, Form.behindList_append hkept hrest, Form.skipBlanks_eq_nil_iff]
  have hnothing : ([] : List Cell) ∈ Form.blanks := fun _ hcell => nomatch hcell
  exact ⟨Form.listed_mul_blanks_iff hkept hrest, kept, rest, htext,
    List.append_nil (mask kept) ▸ Language.append_mem_mul hkept hnothing, hread, rfl⟩

theorem mem_select_iff {table : String} {filter : Option Predicate} {orderBy : Option OrderBy}
    {limit : Option Nat} (hopens : startsWith "SELECT" text = true)
    (h : readSelect text = .ok (.select table filter orderBy limit)) :
    mask text ∈ Form.select ↔
      (Statement.select table filter orderBy limit).unread (mask text) = [] := by
  obtain ⟨name, _, _, _, _, hname, -⟩ := readSelect_eq_ok h
  rw [Form.fromPart?_eq] at hname
  obtain ⟨⟨found, rest⟩, hfound, -⟩ := Option.map_eq_some_iff.mp hname
  rw [unread, hfound, Option.map_some, Option.getD_some, ← Form.mem_clauses_iff]
  constructor
  · rintro ⟨-, table, rest', hfound', hrest'⟩
    obtain ⟨-, rfl⟩ := Prod.mk.inj (Option.some.inj (hfound.symm.trans hfound'))
    exact hrest'
  · exact fun hrest => ⟨Form.mask_of_startsWith (by decide) hopens, found, rest, hfound, hrest⟩

/-- An accepted CREATE TABLE, INSERT or SELECT is of its documented form exactly when nothing is left
unread: nothing but blanks behind the list, or behind the table of a SELECT and at most one WHERE, ORDER BY
and LIMIT in this order. What is left unread behind a list does not count: the text without it is of the
documented form and is read as the same statement. -/
theorem documented_iff_nothing_unread {form : Language Cell}
    (h : Statement.read text = .ok statement) (hform : statement.form? = some form) :
    (mask (body text) ∈ form ↔ statement.unread (mask (body text)) = []) ∧
    (statement.endsWithList = true → ∃ kept rest, body text = kept ++ rest ∧ mask kept ∈ form ∧
      statement.reader kept = .ok statement ∧
      statement.unread (mask (body text)) = skipBlanks (mask rest)) := by
  obtain ⟨hopens, hread⟩ := opens_and_reader_of_read h
  cases statement with
  | createTable table schema =>
    obtain rfl := Option.some.inj hform
    have hdocumented := (readWithoutRest_createTable hread).documented
    exact ⟨hdocumented.1, fun _ => hdocumented.2⟩
  | insert table columns values =>
    obtain rfl := Option.some.inj hform
    have hdocumented := (readWithoutRest_insert hread).documented
    exact ⟨hdocumented.1, fun _ => hdocumented.2⟩
  | select table filter orderBy limit =>
    obtain rfl := Option.some.inj hform
    exact ⟨mem_select_iff hopens hread, fun hlist => nomatch hlist⟩
  | dropTable | renameTable | update | delete | describe | showTables | showTable | createIndex =>
    cases hform

end

/-- A SELECT with every clause, and a literal that looks like one. -/
def sortedQuery : List Char := "SELECT * FROM t where a = 'x LIMIT 2' ORDER BY b DESC LIMIT 3 ;".toList

def longInsert : List Char := "INSERT INTO t VALUES (1) WHERE id = 2".toList

def isSelect : Statement → Bool
  | .select .. => true
  | _ => false

def isInsert : Statement → Bool
  | .insert .. => true
  | _ => false

theorem documented_iff_nothing_unread_clauses : ∃ statement,
    Statement.read sortedQuery = .ok statement ∧ statement.form? = some Form.select ∧
      mask (body sortedQuery) ∈ Form.select := by
  have hfound : (Statement.read sortedQuery).map isSelect = .ok true := by decide +kernel
  obtain ⟨statement, hread, hselect⟩ := exists_read_of_map hfound
  have hnothing : ((Form.fromTable? (mask (body sortedQuery))).map fun found =>
      Form.unreadClauses found.2).getD (mask (body sortedQuery)) = [] := by decide +kernel
  cases statement with
  | select table filter orderBy limit =>
    exact ⟨_, hread, rfl, (documented_iff_nothing_unread hread rfl).1.mpr hnothing⟩
  | _ => cases hselect

/-- An INSERT is accepted that goes on behind its values. -/
theorem clause_behind_values_ignored : ∃ statement,
    Statement.read longInsert = .ok statement ∧ statement.form? = some Form.insert ∧
      mask (body longInsert) ∉ Form.insert := by
  have hfound : (Statement.read longInsert).map isInsert = .ok true := by decide +kernel
  obtain ⟨statement, hread, hinsert⟩ := exists_read_of_map hfound
  have hleft : skipBlanks (Form.behindList (mask (body longInsert))) ≠ [] := by decide +kernel
  cases statement with
  | insert table columns values =>
    refine ⟨_, hread, rfl, fun hform => hleft ?_⟩
    exact (readWithoutRest_insert (reader_of_read hread)).documented.1.mp hform
  | _ => cases hinsert

end Statement

end Rowfile
