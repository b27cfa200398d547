import Rowfile.Proofs.Readers
import Rowfile.Proofs.Recognisers
import Rowfile.Proofs.Spans
import Mathlib.Computability.Language
import Mathlib.Data.List.DropRight

/-!
# Forms that end with a list

The documented forms are languages of cells, built from blanks, keywords, barewords and signs. The forms
of CREATE TABLE and INSERT end with a list in parentheses. Their recognisers find the parts of such a form
in every text of the form, and just as well in a text that goes on behind the form, as long as no closing
parenthesis follows.
-/
namespace Rowfile

open Masked Pattern Statement

/-! ## Blanks -/

def blankCodes : List Nat :=
  Text.Property.whiteSpace.flatMap fun range => List.range' range.1 (range.2 + 1 - range.1)

/-- What holds of the listed blanks holds of all blanks. -/
theorem forall_of_isBlank {p : Char → Bool}
    (h : blankCodes.all (fun code => p (Char.ofNat code)) = true) {c : Char}
    (hc : Text.isBlank c = true) : p c = true := by
  obtain ⟨range, hrange, hlow, hhigh⟩ := (Text.Property.Ranges.has_eq_true_iff _ _).mp hc
  have hcode : c.toNat ∈ blankCodes :=
    List.mem_flatMap.mpr ⟨range, hrange, List.mem_range'_1.mpr ⟨hlow, by omega⟩⟩
  have hp := List.all_eq_true.mp h c.toNat hcode
  rwa [Char.ofNat_toNat] at hp

theorem isWord_of_isBlank {c : Char} (hc : Text.isBlank c = true) : Text.isWord c = false := by
  have hword := forall_of_isBlank (p := fun c => !Text.isWord c) (by decide +kernel) hc
  simpa using hword

theorem isDigit_of_isBlank {c : Char} (hc : Text.isBlank c = true) : Text.isDigit c = false := by
  have hdigit := forall_of_isBlank (p := fun c => !Text.isDigit c) (by decide +kernel) hc
  simpa using hdigit

theorem Cell.isBlank_of_isWord {cell : Cell} (h : cell.isWord = true) : cell.isBlank = false := by
  cases hblank : cell.isBlank with
  | false => rfl
  | true => rw [Cell.isWord, isWord_of_isBlank hblank] at h; cases h

/-- No blank is the first letter of the word, up to case folding. -/
def opensVisibly (word : String) : Bool :=
  word.toList.head?.any fun c => blankCodes.all fun code => !Text.foldEq c (Char.ofNat code)

namespace Form

def keywords : List String :=
  ["CREATE", "TABLE", "INSERT", "INTO", "VALUES", "WHERE", "ORDER", "BY", "ASC", "DESC", "LIMIT"]

theorem opensVisibly_keywords : ∀ word ∈ keywords, opensVisibly word = true := by decide +kernel

/-! ## Pieces of forms -/

def blanks : Language Cell := {cells | ∀ cell ∈ cells, cell.isBlank = true}

def gap : Language Cell := {cells | cells ≠ [] ∧ ∀ cell ∈ cells, cell.isBlank = true}

def spelled (word : String) : Language Cell := {cells | Spells word.toList cells}

def bareword : Language Cell := {cells | cells ≠ [] ∧ ∀ cell ∈ cells, cell.isWord = true}

def sign (c : Char) : Language Cell := {cells | ∃ cell : Cell, cells = [cell] ∧ cell.shown = c}

def without (c : Char) : Language Cell := {cells | ∀ cell ∈ cells, cell.shown ≠ c}

def anything : Language Cell := {_cells | True}

section
variable {l r : List Cell}

theorem skipBlanks_append (hl : l ∈ blanks) (hr : r.head?.any Cell.isBlank = false) :
    skipBlanks (l ++ r) = r :=
  skipBlanks_eq_iff.mpr ⟨l, rfl, hl, hr⟩

theorem blanks?_append (hl : l ∈ gap) (hr : r.head?.any Cell.isBlank = false) :
    blanks? (l ++ r) = some r :=
  blanks?_eq_some_iff.mpr ⟨l, rfl, hl.1, hl.2, hr⟩

theorem keyword?_append {word : String} (hl : l ∈ spelled word) (r : List Cell) :
    keyword? word.toList (l ++ r) = some r :=
  keyword?_eq_some_iff.mpr ⟨l, rfl, hl⟩

theorem word?_append (hl : l ∈ bareword) (hr : r.head?.any Cell.isWord = false) :
    word? (l ++ r) = some (l, r) :=
  word?_eq_some_iff.mpr ⟨rfl, hl.1, hl.2, hr⟩

theorem outerBody?_append {cell last : Cell} {body rest : List Cell} (hcell : cell.shown = '(')
    (hlast : last.shown = ')') (hrest : rest ∈ without ')') :
    outerBody? (cell :: (body ++ last :: rest)) = some body := by
  rw [outerBody?, char?_eq_some_iff.mpr ⟨cell, rfl, hcell⟩]
  exact beforeLast?_eq_some_iff.mpr ⟨last, rest, rfl, hlast, hrest⟩

/-! ## What follows a piece -/

theorem visible_spelled {word : String} (hword : word ∈ keywords) (hl : l ∈ spelled word)
    (r : List Cell) : (l ++ r).head?.any Cell.isBlank = false := by
  have hopens := opensVisibly_keywords word hword
  replace hl : Spells word.toList l := hl
  unfold opensVisibly at hopens
  generalize word.toList = letters at hopens hl
  cases hl with
  | nil => cases hopens
  | @cons c cell letters l hfold _ =>
    rw [List.head?_cons, Option.any_some] at hopens
    rw [List.cons_append, List.head?_cons, Option.any_some]
    cases hblank : cell.isBlank with
    | false => rfl
    | true =>
      have hother := forall_of_isBlank (p := fun d => !Text.foldEq c d) hopens hblank
      rw [hfold] at hother
      cases hother

theorem visible_bareword (hl : l ∈ bareword) (r : List Cell) :
    (l ++ r).head?.any Cell.isBlank = false := by
  obtain ⟨cell, l, rfl⟩ := List.exists_cons_of_ne_nil hl.1
  exact Cell.isBlank_of_isWord (hl.2 cell List.mem_cons_self)

theorem visible_open {cell : Cell} (hcell : cell.shown = '(') (r : List Cell) :
    (cell :: r).head?.any Cell.isBlank = false := by
  rw [List.head?_cons, Option.any_some, Cell.isBlank, hcell]
  decide

theorem wordEnd_open {cell : Cell} (hcell : cell.shown = '(') (r : List Cell) :
    (cell :: r).head?.any Cell.isWord = false := by
  rw [List.head?_cons, Option.any_some, Cell.isWord, hcell]
  decide

theorem wordEnd_blanks (hl : l ∈ blanks) (hr : r.head?.any Cell.isWord = false) :
    (l ++ r).head?.any Cell.isWord = false := by
  cases l with
  | nil => exact hr
  | cons cell l => exact isWord_of_isBlank (hl cell List.mem_cons_self)

theorem wordEnd_gap (hl : l ∈ gap) (r : List Cell) : (l ++ r).head?.any Cell.isWord = false := by
  obtain ⟨cell, l, rfl⟩ := List.exists_cons_of_ne_nil hl.1
  exact isWord_of_isBlank (hl.2 cell List.mem_cons_self)

end

/-! ## Heads with a name -/

def opening (first second : String) : Language Cell :=
  blanks * spelled first * gap * spelled second * gap

/-- The name behind two keywords is found exactly in texts that begin with them. -/
theorem word?_opening_iff {first second : String} (hfirst : first ∈ keywords)
    (hsecond : second ∈ keywords) {cells name r : List Cell} :
    ((keywords? first.toList second.toList (skipBlanks cells)).bind fun r =>
        (blanks? r).bind word?) = some (name, r) ↔
      name ∈ bareword ∧ r.head?.any Cell.isWord = false ∧
        cells ∈ opening first second * ({name ++ r} : Language Cell) := by
  constructor
  · intro h
    obtain ⟨l, hl, hname⟩ := Option.bind_eq_some_iff.mp h
    obtain ⟨b, hcells, hb, -⟩ := skipBlanks_eq_iff.mp (Eq.refl (skipBlanks cells))
    obtain ⟨l₁, hkeyword, hl⟩ := Option.bind_eq_some_iff.mp hl
    obtain ⟨k, hk, hspelled⟩ := keyword?_eq_some_iff.mp hkeyword
    obtain ⟨l₂, hblanks, hkeyword'⟩ := Option.bind_eq_some_iff.mp hl
    obtain ⟨g, rfl, hg, hgap, -⟩ := blanks?_eq_some_iff.mp hblanks
    obtain ⟨k', rfl, hspelled'⟩ := keyword?_eq_some_iff.mp hkeyword'
    obtain ⟨l₃, hblanks', hword⟩ := Option.bind_eq_some_iff.mp hname
    obtain ⟨g', rfl, hg', hgap', -⟩ := blanks?_eq_some_iff.mp hblanks'
    obtain ⟨rfl, hne, hwords, hr⟩ := word?_eq_some_iff.mp hword
    refine ⟨⟨hne, hwords⟩, hr, ?_⟩
    rw [hcells, hk, opening]
    simp only [mul_assoc]
    exact Language.append_mem_mul hb <| Language.append_mem_mul hspelled <|
      Language.append_mem_mul ⟨hg, hgap⟩ <| Language.append_mem_mul hspelled' <|
      Language.append_mem_mul ⟨hg', hgap'⟩ rfl
  · rintro ⟨hname, hr, h⟩
    simp only [opening, mul_assoc, Language.mem_mul] at h
    obtain ⟨b, hb, _, ⟨k, hk, _, ⟨g, hg, _, ⟨k', hk', _, ⟨g', hg', _, rfl, rfl⟩, rfl⟩, rfl⟩, rfl⟩,
      rfl⟩ := h
    rw [skipBlanks_append hb (visible_spelled hfirst hk _), keywords?, keyword?_append hk,
      Option.bind_some, blanks?_append hg (visible_spelled hsecond hk' _), Option.bind_some,
      keyword?_append hk', Option.bind_some, blanks?_append hg' (visible_bareword hname _),
      Option.bind_some, word?_append hname hr]

/-! ## Forms with a list -/

/-- A list in parentheses behind a head. -/
def listed (head body : Language Cell) : Language Cell := head * sign '(' * body * sign ')'

def createTableHead (name : Language Cell) : Language Cell :=
  opening "CREATE" "TABLE" * name * blanks

def insertHead (name columns : Language Cell) : Language Cell :=
  opening "INSERT" "INTO" * name * columns * gap * spelled "VALUES" * blanks

/-- A column list that ends with its first closing parenthesis. -/
def columnList (list : Language Cell) : Language Cell := blanks * sign '(' * list * sign ')'

/-- The language of a column list, which may be missing. -/
def columnsPart : Option (List Cell) → Language Cell
  | none => 1
  | some list => columnList {list}

def createTable : Language Cell := listed (createTableHead bareword) anything * blanks

/-- `INSERT INTO name (columns) VALUES (values)` with nothing but blanks around it. -/
def insert : Language Cell :=
  listed (insertHead bareword (1 + columnList (without ')'))) anything * blanks

theorem outerBody?_skipBlanks_iff {cells body : List Cell} :
    outerBody? (skipBlanks cells) = some body ↔
      cells ∈ blanks * sign '(' * ({body} : Language Cell) * sign ')' * without ')' := by
  constructor
  · intro h
    obtain ⟨b, hcells, hb, -⟩ := skipBlanks_eq_iff.mp (Eq.refl (skipBlanks cells))
    obtain ⟨inner, hopen, hlast⟩ := Option.bind_eq_some_iff.mp h
    obtain ⟨cell, hinner, hcell⟩ := char?_eq_some_iff.mp hopen
    obtain ⟨last, rest, rfl, hlast, hrest⟩ := beforeLast?_eq_some_iff.mp hlast
    rw [hcells, hinner]
    change b ++ ([cell] ++ (body ++ ([last] ++ rest))) ∈ _
    simp only [mul_assoc]
    exact Language.append_mem_mul hb <| Language.append_mem_mul ⟨cell, rfl, hcell⟩ <|
      Language.append_mem_mul rfl <| Language.append_mem_mul ⟨last, rfl, hlast⟩ hrest
  · intro h
    simp only [mul_assoc, Language.mem_mul] at h
    obtain ⟨b, hb, _, ⟨_, ⟨cell, rfl, hcell⟩, _, ⟨_, rfl, _, ⟨_, ⟨last, rfl, hlast⟩, rest, hrest,
      rfl⟩, rfl⟩, rfl⟩, rfl⟩ := h
    rw [List.singleton_append, List.singleton_append,
      skipBlanks_append hb (visible_open hcell _), outerBody?_append hcell hlast hrest]

/-- The parts of a CREATE TABLE are found exactly in texts that begin with its form and have no closing
parenthesis behind it. -/
theorem createTableParts?_eq_some_iff {cells name body : List Cell} :
    createTableParts? cells = some (name, body) ↔
      name ∈ bareword ∧ cells ∈ listed (createTableHead {name}) {body} * without ')' := by
  have hparts : createTableParts? cells =
      ((keywords? "CREATE".toList "TABLE".toList (skipBlanks cells)).bind fun r =>
        (blanks? r).bind word?).bind fun found =>
          (outerBody? (skipBlanks found.2)).bind fun body => some (found.1, body) := by
    rw [Option.bind_assoc]
    rfl
  rw [hparts, Option.bind_eq_some_iff]
  constructor
  · rintro ⟨⟨found, r⟩, hname, h⟩
    obtain ⟨inner, hbody, h⟩ := Option.bind_eq_some_iff.mp h
    obtain ⟨rfl, rfl⟩ := Prod.mk.inj (Option.some.inj h)
    obtain ⟨hbare, -, hcells⟩ :=
      (word?_opening_iff (by decide) (by decide)).mp hname
    obtain ⟨head, hhead, _, rfl, rfl⟩ := Language.mem_mul.mp hcells
    refine ⟨hbare, ?_⟩
    simp only [listed, createTableHead, mul_assoc]
    refine Language.append_mem_mul hhead (Language.append_mem_mul rfl ?_)
    simpa only [mul_assoc] using outerBody?_skipBlanks_iff.mp hbody
  · rintro ⟨hbare, h⟩
    simp only [listed, createTableHead, mul_assoc] at h
    obtain ⟨head, hhead, _, ⟨_, rfl, r, hr, rfl⟩, rfl⟩ := Language.mem_mul.mp h
    have hend : r.head?.any Cell.isWord = false := by
      obtain ⟨b, hb, _, ⟨_, ⟨cell, rfl, hcell⟩, _, _, rfl⟩, rfl⟩ := Language.mem_mul.mp hr
      exact wordEnd_blanks hb (wordEnd_open hcell _)
    simp only [← mul_assoc] at hr
    refine ⟨(_, r), (word?_opening_iff (by decide) (by decide)).mpr
      ⟨hbare, hend, Language.append_mem_mul hhead rfl⟩, ?_⟩
    dsimp only
    rw [outerBody?_skipBlanks_iff.mpr hr]
    rfl

/-- A column list is found exactly in front of what goes on behind its first closing parenthesis. -/
theorem columnList?_iff {r list rest : List Cell} :
    (char? '(' (skipBlanks r)).bind (beforeFirst? ')') = some (list, rest) ↔
      list ∈ without ')' ∧ r ∈ columnList {list} * ({rest} : Language Cell) := by
  constructor
  · intro h
    obtain ⟨b, hr, hb, -⟩ := skipBlanks_eq_iff.mp (Eq.refl (skipBlanks r))
    obtain ⟨inner, hopen, hfirst⟩ := Option.bind_eq_some_iff.mp h
    obtain ⟨cell, hinner, hcell⟩ := char?_eq_some_iff.mp hopen
    obtain ⟨last, rfl, hlast, hlist⟩ := beforeFirst?_eq_some_iff.mp hfirst
    refine ⟨hlist, ?_⟩
    rw [hr, hinner]
    change b ++ ([cell] ++ (list ++ ([last] ++ rest))) ∈ _
    simp only [columnList, mul_assoc]
    exact Language.append_mem_mul hb <| Language.append_mem_mul ⟨cell, rfl, hcell⟩ <|
      Language.append_mem_mul rfl <| Language.append_mem_mul ⟨last, rfl, hlast⟩ rfl
  · rintro ⟨hlist, h⟩
    simp only [columnList, mul_assoc, Language.mem_mul] at h
    obtain ⟨b, hb, _, ⟨_, ⟨cell, rfl, hcell⟩, _, ⟨_, rfl, _, ⟨_, ⟨last, rfl, hlast⟩, _, rfl, rfl⟩,
      rfl⟩, rfl⟩, rfl⟩ := h
    rw [List.singleton_append, List.singleton_append, skipBlanks_append hb (visible_open hcell _),
      char?_eq_some_iff.mpr ⟨cell, rfl, hcell⟩]
    exact beforeFirst?_eq_some_iff.mpr ⟨last, rfl, hlast, hlist⟩

/-- The values of an INSERT behind its name and its column list. -/
def valuesPart (values : Language Cell) : Language Cell :=
  gap * spelled "VALUES" * blanks * sign '(' * values * sign ')' * without ')'

theorem valuesPart?_iff {r values : List Cell} :
    (((blanks? r).bind (keyword? "VALUES".toList)).bind fun r => outerBody? (skipBlanks r)) =
      some values ↔ r ∈ valuesPart {values} := by
  simp only [valuesPart, mul_assoc]
  constructor
  · intro h
    obtain ⟨r', hvalues, hbody⟩ := Option.bind_eq_some_iff.mp h
    obtain ⟨r'', hblanks, hkeyword⟩ := Option.bind_eq_some_iff.mp hvalues
    obtain ⟨g, rfl, hg, hgap, -⟩ := blanks?_eq_some_iff.mp hblanks
    obtain ⟨k, rfl, hk⟩ := keyword?_eq_some_iff.mp hkeyword
    have hlist := outerBody?_skipBlanks_iff.mp hbody
    simp only [mul_assoc] at hlist
    exact Language.append_mem_mul ⟨hg, hgap⟩ (Language.append_mem_mul hk hlist)
  · intro h
    obtain ⟨g, hg, _, ⟨k, hk, r', hlist, rfl⟩, rfl⟩ := Language.mem_mul.mp h
    simp only [← mul_assoc] at hlist
    rw [blanks?_append hg (visible_spelled (by decide) hk _), Option.bind_some,
      keyword?_append hk, Option.bind_some, outerBody?_skipBlanks_iff.mpr hlist]

/-- A name ends before a column list and before the values. -/
theorem wordEnd_columns {columns : Option (List Cell)} {list rest : List Cell}
    {values : Language Cell} (hlist : list ∈ columnsPart columns) (hrest : rest ∈ valuesPart values) :
    (list ++ rest).head?.any Cell.isWord = false := by
  cases columns with
  | none =>
    obtain rfl : list = [] := hlist
    simp only [valuesPart, mul_assoc] at hrest
    obtain ⟨g, hg, _, -, rfl⟩ := Language.mem_mul.mp hrest
    exact wordEnd_gap hg _
  | some list' =>
    simp only [columnsPart, columnList, mul_assoc] at hlist
    obtain ⟨b, hb, _, ⟨_, ⟨cell, rfl, hcell⟩, _, -, rfl⟩, rfl⟩ := Language.mem_mul.mp hlist
    rw [List.append_assoc]
    exact wordEnd_blanks hb (wordEnd_open hcell _)

/-- No column list stands where the values follow. -/
theorem columnList?_valuesPart {r : List Cell} {values : Language Cell} (h : r ∈ valuesPart values) :
    (char? '(' (skipBlanks r)).bind (beforeFirst? ')') = none := by
  simp only [valuesPart, mul_assoc] at h
  obtain ⟨g, hg, _, ⟨k, hk, r', -, rfl⟩, rfl⟩ := Language.mem_mul.mp h
  rw [skipBlanks_append hg.2 (visible_spelled (by decide) hk _)]
  replace hk : List.Forall₂ _ ('V' :: "ALUES".toList) k := hk
  cases hk with
  | @cons _ cell _ k hfold _ =>
    have hcell : cell.shown ≠ '(' := by
      intro hshown
      rw [hshown] at hfold
      exact absurd hfold (by decide +kernel)
    rw [List.cons_append, char?, if_neg hcell]
    rfl

/-- The column list in front of cells, if there is one, and the cells behind it. -/
def cutColumns (r : List Cell) : Option (List Cell) × List Cell :=
  match (char? '(' (skipBlanks r)).bind (beforeFirst? ')') with
  | some (columns, r) => (some columns, r)
  | none => (none, r)

/-- A column list in front of the values is cut off from them, and nothing is if there is none. -/
theorem cutColumns_eq_iff {r rest values : List Cell} {columns : Option (List Cell)}
    (hrest : rest ∈ valuesPart {values}) :
    cutColumns r = (columns, rest) ↔
      (∀ list, columns = some list → list ∈ without ')') ∧
        r ∈ columnsPart columns * ({rest} : Language Cell) := by
  unfold cutColumns
  constructor
  · intro h
    split at h
    · next list rest' hfound =>
      obtain ⟨rfl, rfl⟩ := Prod.mk.inj h
      obtain ⟨hlist, hr⟩ := columnList?_iff.mp hfound
      exact ⟨fun _ hsome => Option.some.inj hsome ▸ hlist, hr⟩
    · obtain ⟨rfl, rfl⟩ := Prod.mk.inj h
      exact ⟨fun _ hnone => (nomatch hnone), by rw [columnsPart, one_mul]; rfl⟩
  · rintro ⟨hlist, hr⟩
    cases columns with
    | none =>
      rw [columnsPart, one_mul] at hr
      obtain rfl : r = rest := hr
      rw [columnList?_valuesPart hrest]
    | some list => rw [columnList?_iff.mpr ⟨hlist list rfl, hr⟩]

theorem insertParts?_eq (cells : List Cell) :
    insertParts? cells =
      ((keywords? "INSERT".toList "INTO".toList (skipBlanks cells)).bind fun r =>
        (blanks? r).bind word?).bind fun found =>
          (((blanks? (cutColumns found.2).2).bind (keyword? "VALUES".toList)).bind fun r =>
            outerBody? (skipBlanks r)).map fun values =>
              (found.1, (cutColumns found.2).1, values) := by
  simp only [insertParts?, cutColumns, Option.bind_eq_bind, Option.bind_assoc,
    Option.map_eq_bind, Function.comp_def]
  rfl

/-- The parts of an INSERT are found exactly in texts that begin with its form and have no closing
parenthesis behind it. -/
theorem insertParts?_eq_some_iff {cells name values : List Cell} {columns : Option (List Cell)} :
    insertParts? cells = some (name, columns, values) ↔
      name ∈ bareword ∧ (∀ list, columns = some list → list ∈ without ')') ∧
        cells ∈ listed (insertHead {name} (columnsPart columns)) {values} * without ')' := by
  have hform : listed (insertHead {name} (columnsPart columns)) {values} * without ')' =
      opening "INSERT" "INTO" * ({name} * (columnsPart columns * valuesPart {values})) := by
    simp only [listed, insertHead, valuesPart, mul_assoc]
  rw [insertParts?_eq, hform, Option.bind_eq_some_iff]
  constructor
  · rintro ⟨⟨found, r⟩, hname, h⟩
    obtain ⟨hbare, -, hcells⟩ :=
      (word?_opening_iff (by decide) (by decide)).mp hname
    obtain ⟨head, hhead, _, rfl, rfl⟩ := Language.mem_mul.mp hcells
    obtain ⟨columns', rest, hcut⟩ : ∃ columns' rest, cutColumns r = (columns', rest) := ⟨_, _, rfl⟩
    rw [hcut] at h
    obtain ⟨values', hvalues, h⟩ := Option.map_eq_some_iff.mp h
    obtain ⟨rfl, hparts⟩ := Prod.mk.inj h
    obtain ⟨rfl, rfl⟩ := Prod.mk.inj hparts
    have hrest := valuesPart?_iff.mp hvalues
    obtain ⟨hlist, hr⟩ := (cutColumns_eq_iff hrest).mp hcut
    obtain ⟨list, hcolumns, _, rfl, rfl⟩ := Language.mem_mul.mp hr
    exact ⟨hbare, hlist, Language.append_mem_mul hhead (Language.append_mem_mul rfl
      (Language.append_mem_mul hcolumns hrest))⟩
  · rintro ⟨hbare, hlist, h⟩
    obtain ⟨head, hhead, _, ⟨_, rfl, r, hr, rfl⟩, rfl⟩ := Language.mem_mul.mp h
    obtain ⟨list, hcolumns, rest, hrest, rfl⟩ := Language.mem_mul.mp hr
    have hcut : cutColumns (list ++ rest) = (columns, rest) :=
      (cutColumns_eq_iff hrest).mpr ⟨hlist, Language.append_mem_mul hcolumns rfl⟩
    refine ⟨(_, list ++ rest), (word?_opening_iff (by decide) (by decide)).mpr
      ⟨hbare, wordEnd_columns hcolumns hrest, Language.append_mem_mul hhead rfl⟩, ?_⟩
    rw [hcut, valuesPart?_iff.mpr hrest]
    rfl

/-! ## What follows a list -/

/-- The cells behind the last closing parenthesis. -/
def behindList (cells : List Cell) : List Cell := cells.rtakeWhile fun cell => cell.shown != ')'

theorem behindList_append {head body : Language Cell} {kept rest : List Cell}
    (hkept : kept ∈ listed head body) (hrest : rest ∈ without ')') :
    behindList (kept ++ rest) = rest := by
  obtain ⟨front, -, _, ⟨last, rfl, hlast⟩, rfl⟩ := Language.mem_mul.mp hkept
  have hshown : ∀ cell ∈ rest.reverse, (cell.shown != ')') = true := fun cell hcell => by
    simpa using hrest cell (List.mem_reverse.mp hcell)
  rw [behindList, List.rtakeWhile, List.append_assoc, List.reverse_append, List.reverse_append,
    List.reverse_singleton, List.append_assoc, List.takeWhile_append_of_pos hshown]
  simp [hlast]

/-- A text that goes on behind its list is of a form that ends with the list exactly when it goes on
with blanks only. -/
theorem listed_mul_blanks_iff {head : Language Cell} {kept rest : List Cell}
    (hkept : kept ∈ listed head anything) (hrest : rest ∈ without ')') :
    kept ++ rest ∈ listed head anything * blanks ↔ rest ∈ blanks := by
  refine ⟨fun h => ?_, Language.append_mem_mul hkept⟩
  obtain ⟨kept', hkept', rest', hrest', heq⟩ := Language.mem_mul.mp h
  have hwithout : rest' ∈ without ')' := fun cell hcell hshown => by
    have hblank := hrest' cell hcell
    rw [Cell.isBlank, hshown] at hblank
    exact absurd hblank (by decide)
  have hsame := behindList_append hkept' hwithout
  rw [heq, behindList_append hkept hrest] at hsame
  exact hsame ▸ hrest'

/-- A text is cut behind a list outside its quoted spans. -/
theorem exists_kept {text : List Char} {head body : Language Cell}
    (h : mask text ∈ listed head body * without ')') :
    ∃ kept rest, text = kept ++ rest ∧ mask text = mask kept ++ mask rest ∧
      mask kept ∈ listed head body ∧ mask rest ∈ without ')' := by
  obtain ⟨cells, hcells, rest, hrest, heq⟩ := Language.mem_mul.mp h
  obtain ⟨front, hfront, _, ⟨last, rfl, hlast⟩, rfl⟩ := Language.mem_mul.mp hcells
  have hshown : last.shown ≠ '_' := by rw [hlast]; decide
  rw [List.append_assoc, List.singleton_append] at heq
  obtain ⟨before, c, after, rfl, hbefore, hc, rfl, rfl, rfl⟩ := mask_eq_append_cons heq.symm hshown
  have hkept : mask (before ++ [c]) = mask before ++ [.plain c] := by
    rw [mask_append hbefore, mask_cons hc, mask_nil]
  refine ⟨before ++ [c], after, by simp, ?_, hkept ▸ hcells, hrest⟩
  rw [hkept, mask_append hbefore, mask_cons hc]
  simp

end Form

end Rowfile
