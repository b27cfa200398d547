import Rowfile.Proofs.ClauseForms

/-!
# Forms around the parts of a statement

What a recogniser accepts is put together from the parts that it returns and from what it passes over between
them: blanks, keywords and signs. Each statement has such a form, in which its parts stand at their places.
-/
namespace Rowfile

open Masked Pattern Statement

namespace Form

/-- What does not go on with a word. -/
def wordEnd : Language Cell := {cells | cells.head?.any Cell.isWord = false}

/-- Nothing, or what begins with a blank and another clause. -/
def clauseEnd : Language Cell := {cells | cells = [] ∨ atClauseEnd cells = true}

/-! ## The pieces of each statement -/

section
variable (name other list part : List Cell)

def createTablePieces : List (Language Cell) :=
  [opening "CREATE" "TABLE", {name}, blanks * sign '(', {list}, sign ')' * without ')']

def tableNamePieces (verb : String) : List (Language Cell) := [opening verb "TABLE", {name}, blanks]

def renameTablePieces : List (Language Cell) :=
  [opening "RENAME" "TABLE", {name}, gap * spelled "TO" * gap, {other}, blanks]

def describePieces : List (Language Cell) :=
  [blanks * (spelled "DESC" + spelled "DESCRIBE") * gap, {name}, blanks]

def createIndexPieces : List (Language Cell) :=
  [opening "CREATE" "INDEX" * spelled "ON" * gap, {name}, blanks * sign '(' * blanks, {other},
    blanks * sign ')' * blanks]

/-- `INSERT INTO name VALUES (list)`. -/
def insertPieces : List (Language Cell) :=
  [opening "INSERT" "INTO", {name}, gap * spelled "VALUES" * blanks * sign '(', {list},
    sign ')' * without ')']

/-- `INSERT INTO name (part) VALUES (list)`. -/
def insertIntoPieces : List (Language Cell) :=
  [opening "INSERT" "INTO", {name}, blanks * sign '(', {part},
    sign ')' * gap * spelled "VALUES" * blanks * sign '(', {list}, sign ')' * without ')']

def fromPieces : List (Language Cell) := [anything * spelled "FROM" * gap, {name}, wordEnd]

/-- `WHERE` somewhere, and the text up to the next clause. -/
def wherePieces : List (Language Cell) := [anything * spelled "WHERE", {part}, clauseEnd]

def orderByPieces : List (Language Cell) :=
  [anything * spelled "ORDER" * gap * spelled "BY" * gap, {name}, wordEnd]

/-- `ORDER BY name` somewhere, with a direction. -/
def directionPieces : List (Language Cell) :=
  [anything * spelled "ORDER" * gap * spelled "BY" * gap, {name}, gap, {part}, wordEnd]

/-- `LIMIT` somewhere, and digits. -/
def limitPieces : List (Language Cell) := [anything * spelled "LIMIT" * gap, {part}, wordEnd]

def updatePieces : List (Language Cell) :=
  [blanks * spelled "UPDATE" * gap, {name}, gap * spelled "SET" * gap, {list},
    gap * spelled "WHERE" * gap, {part}]

def deletePieces : List (Language Cell) :=
  [opening "DELETE" "FROM", {name}, gap * spelled "WHERE" * gap, {part}]

end

end Form

open Form

/-! ## What recognisers pass over -/

section
variable {l r cells : List Cell}

/-- The rest behind a form may be replaced by a form that it has. -/
theorem mem_mul_of_rest {form form' : Language Cell} (h : l ∈ form * ({r} : Language Cell))
    (hr : r ∈ form') : l ∈ form * form' := by
  obtain ⟨front, hfront, _, rfl, rfl⟩ := Language.mem_mul.mp h
  exact Language.append_mem_mul hfront hr

theorem mem_of_skipBlanks (l : List Cell) : l ∈ blanks * ({skipBlanks l} : Language Cell) := by
  obtain ⟨b, hl, hb, -⟩ := skipBlanks_eq_iff.mp (Eq.refl (skipBlanks l))
  exact ⟨b, hb, _, rfl, hl.symm⟩

theorem mem_of_blanks? (h : blanks? l = some r) : l ∈ gap * ({r} : Language Cell) := by
  obtain ⟨g, rfl, hne, hg, -⟩ := blanks?_eq_some_iff.mp h
  exact Language.append_mem_mul ⟨hne, hg⟩ rfl

theorem mem_of_keyword? (word : String) (h : keyword? word.toList l = some r) :
    l ∈ spelled word * ({r} : Language Cell) := by
  obtain ⟨k, rfl, hk⟩ := keyword?_eq_some_iff.mp h
  exact Language.append_mem_mul hk rfl

theorem mem_of_keywords? (first second : String)
    (h : keywords? first.toList second.toList l = some r) :
    l ∈ spelled first * gap * spelled second * ({r} : Language Cell) := by
  obtain ⟨l₁, hfirst, h⟩ := Option.bind_eq_some_iff.mp h
  obtain ⟨l₂, hblanks, hsecond⟩ := Option.bind_eq_some_iff.mp h
  simpa only [mul_assoc] using mem_mul_of_rest (mem_of_keyword? first hfirst)
    (mem_mul_of_rest (mem_of_blanks? hblanks) (mem_of_keyword? second hsecond))

/-- The blanks before the keywords are passed over as well. -/
theorem mem_of_verb {first second : String}
    (h : keywords? first.toList second.toList (skipBlanks l) = some r) :
    l ∈ blanks * spelled first * gap * spelled second * ({r} : Language Cell) := by
  simpa only [mul_assoc] using mem_mul_of_rest (mem_of_skipBlanks l) (mem_of_keywords? first second h)

theorem mem_of_opening {first second : String}
    (h : keywords? first.toList second.toList (skipBlanks l) = some cells)
    (hr : blanks? cells = some r) : l ∈ opening first second * ({r} : Language Cell) := by
  simpa only [opening, mul_assoc] using mem_mul_of_rest (mem_of_verb h) (mem_of_blanks? hr)

theorem mem_of_char? {c : Char} (h : char? c l = some r) : l ∈ sign c * ({r} : Language Cell) := by
  obtain ⟨cell, rfl, hcell⟩ := char?_eq_some_iff.mp h
  exact ⟨[cell], ⟨cell, rfl, hcell⟩, r, rfl, rfl⟩

theorem mem_of_word? {word : List Cell} (h : word? l = some (word, r)) :
    word ∈ bareword ∧ l ∈ ({word} : Language Cell) * ({r} : Language Cell) ∧ r ∈ wordEnd := by
  obtain ⟨rfl, hne, hword, hr⟩ := word?_eq_some_iff.mp h
  exact ⟨⟨hne, hword⟩, Language.append_mem_mul rfl rfl, hr⟩

theorem mem_of_lastWord? {word : List Cell} (h : lastWord? l = some word) :
    word ∈ bareword ∧ l ∈ gap * (({word} : Language Cell) * blanks) := by
  obtain ⟨r, hblanks, h⟩ := Option.bind_eq_some_iff.mp h
  obtain ⟨⟨word', r'⟩, hword, h⟩ := Option.bind_eq_some_iff.mp h
  dsimp only at h
  split at h
  · next hend =>
    obtain rfl := Option.some.inj h
    obtain ⟨hbare, hword, -⟩ := mem_of_word? hword
    exact ⟨hbare, mem_mul_of_rest (mem_of_blanks? hblanks)
      (mem_mul_of_rest hword (atEnd_iff.mp hend))⟩
  · cases h

theorem isBlank_of_takeWhile {bs : List Cell} (h : l.takeWhile Cell.isBlank = bs) :
    ∀ cell ∈ bs, cell.isBlank = true := by
  subst h
  exact fun _ hcell => List.mem_takeWhile_imp hcell

/-- Some of the blanks that cells begin with may be left to what is behind them. -/
theorem mem_of_takeWhile {front back : List Cell} (h : l.takeWhile Cell.isBlank = front ++ back)
    (hne : front ≠ []) : l ∈ gap * ({back ++ skipBlanks l} : Language Cell) := by
  have hblank := isBlank_of_takeWhile h
  have hl : front ++ (back ++ skipBlanks l) = l := by
    rw [← List.append_assoc, ← h]
    exact List.takeWhile_append_dropWhile
  exact ⟨front, ⟨hne, fun cell hcell => hblank cell (List.mem_append_left _ hcell)⟩, _, rfl, hl⟩

theorem mem_of_clause? {clause : List Cell} (h : clause? l = some clause) :
    l ∈ gap * ({clause} : Language Cell) := by
  rw [clause?] at h
  split at h
  · cases h
  · next first blanks cell r htake hskip =>
    obtain rfl := Option.some.inj h
    exact hskip ▸ mem_of_takeWhile (htake.trans (List.append_nil _).symm) (List.cons_ne_nil _ _)
  · cases h
  · next first blank r htake hskip =>
    obtain rfl := Option.some.inj h
    have hcut : l.takeWhile Cell.isBlank =
        first :: (blank :: r).take r.length ++ (blank :: r).drop r.length := by
      rw [htake, List.cons_append, List.take_append_drop]
    have hl := mem_of_takeWhile hcut (List.cons_ne_nil _ _)
    rwa [hskip, List.append_nil] at hl

theorem mem_of_clauseAfter? {word : String} {before clause : List Cell}
    (h : clauseAfter? word.toList l = some (before, clause)) :
    l ∈ ({before} : Language Cell) * (gap * spelled word * gap * {clause}) := by
  induction l generalizing before with
  | nil => cases h
  | cons cell l ih =>
    rw [clauseAfter?] at h
    split at h
    · next clause' hfound =>
      obtain ⟨rfl, rfl⟩ := Prod.mk.inj (Option.some.inj h)
      split at hfound
      · cases hfound
      · obtain ⟨l₂, hkeyword, hclause⟩ := Option.bind_eq_some_iff.mp hfound
        obtain ⟨l₁, hblanks, hkeyword⟩ := Option.bind_eq_some_iff.mp hkeyword
        have hl : l ∈ gap * spelled word * gap * ({clause'} : Language Cell) := by
          simpa only [mul_assoc] using mem_mul_of_rest (mem_of_blanks? hblanks)
            (mem_mul_of_rest (mem_of_keyword? word hkeyword) (mem_of_clause? hclause))
        exact ⟨[cell], rfl, l, hl, rfl⟩
    · obtain ⟨⟨rest, clause'⟩, hrest, heq⟩ := Option.map_eq_some_iff.mp h
      obtain ⟨rfl, rfl⟩ := Prod.mk.inj heq
      obtain ⟨_, rfl, after, hafter, rfl⟩ := Language.mem_mul.mp (ih hrest)
      exact ⟨_, rfl, after, hafter, rfl⟩

theorem mem_of_search? {α : Type} {find? : List Cell → Option α} {wordBefore : Bool} {found : α}
    (h : search? find? wordBefore l = some found) :
    ∃ rest, l ∈ anything * ({rest} : Language Cell) ∧ find? rest = some found := by
  obtain ⟨front, rest, rfl, hrest⟩ := exists_of_search? h
  exact ⟨rest, Language.append_mem_mul trivial rfl, hrest⟩

end

/-! ## What each recogniser accepts -/

namespace Statement

variable {cells name other list part : List Cell}

theorem createTableParts?_mem (h : createTableParts? cells = some (name, list)) :
    name ∈ bareword ∧ cells ∈ (createTablePieces name list).prod := by
  obtain ⟨hname, hcells⟩ := createTableParts?_eq_some_iff.mp h
  refine ⟨hname, ?_⟩
  simpa only [createTablePieces, listed, createTableHead, mul_assoc, List.prod_cons, List.prod_nil,
    mul_one] using hcells

theorem tableNamePart?_mem {verb : String} (h : tableNamePart? verb.toList cells = some name) :
    name ∈ bareword ∧ cells ∈ (tableNamePieces name verb).prod := by
  obtain ⟨l, hl, h⟩ := Option.bind_eq_some_iff.mp h
  obtain ⟨hname, hlast⟩ := mem_of_lastWord? h
  refine ⟨hname, ?_⟩
  simpa only [tableNamePieces, opening, mul_assoc, List.prod_cons, List.prod_nil, mul_one]
    using mem_mul_of_rest (mem_of_verb hl) hlast

theorem renameTableParts?_mem (h : renameTableParts? cells = some (name, other)) :
    name ∈ bareword ∧ other ∈ bareword ∧ cells ∈ (renameTablePieces name other).prod := by
  obtain ⟨l, hl, h⟩ := Option.bind_eq_some_iff.mp h
  obtain ⟨⟨old, r⟩, hold, h⟩ := Option.bind_eq_some_iff.mp h
  obtain ⟨new, hnew, h⟩ := Option.bind_eq_some_iff.mp h
  obtain ⟨rfl, rfl⟩ := Prod.mk.inj (Option.some.inj h)
  obtain ⟨l₁, hblanks, hword⟩ := Option.bind_eq_some_iff.mp hold
  obtain ⟨l₂, hto, hlast⟩ := Option.bind_eq_some_iff.mp hnew
  obtain ⟨l₃, hblanks', hkeyword⟩ := Option.bind_eq_some_iff.mp hto
  obtain ⟨hname, hword, -⟩ := mem_of_word? hword
  obtain ⟨hother, hlast⟩ := mem_of_lastWord? hlast
  refine ⟨hname, hother, ?_⟩
  have hback := mem_mul_of_rest (mem_of_blanks? hblanks')
    (mem_mul_of_rest (mem_of_keyword? "TO" hkeyword) hlast)
  simpa only [renameTablePieces, mul_assoc, List.prod_cons, List.prod_nil, mul_one]
    using mem_mul_of_rest (mem_of_opening hl hblanks) (mem_mul_of_rest hword hback)

theorem describePart?_mem (h : describePart? cells = some name) :
    name ∈ bareword ∧ cells ∈ (describePieces name).prod := by
  have hverb : ∃ verb ∈ ["DESC", "DESCRIBE"],
      (keyword? verb.toList (skipBlanks cells)).bind lastWord? = some name := by
    rw [describePart?] at h
    split at h
    · next hshort => exact ⟨"DESC", by decide, hshort.trans h⟩
    · exact ⟨"DESCRIBE", by decide, h⟩
  obtain ⟨verb, hverb, h⟩ := hverb
  obtain ⟨l, hl, h⟩ := Option.bind_eq_some_iff.mp h
  obtain ⟨k, hk, r, hr, hkeyword⟩ := Language.mem_mul.mp (mem_of_keyword? verb hl)
  have heither : k ∈ spelled "DESC" + spelled "DESCRIBE" := by
    rw [Language.mem_add]
    rcases List.mem_pair.mp hverb with rfl | rfl
    · exact .inl hk
    · exact .inr hk
  have hspelled : skipBlanks cells ∈
      (spelled "DESC" + spelled "DESCRIBE") * ({l} : Language Cell) := ⟨k, heither, r, hr, hkeyword⟩
  obtain ⟨hname, hlast⟩ := mem_of_lastWord? h
  refine ⟨hname, ?_⟩
  simpa only [describePieces, mul_assoc, List.prod_cons, List.prod_nil, mul_one]
    using mem_mul_of_rest (mem_of_skipBlanks cells) (mem_mul_of_rest hspelled hlast)

theorem createIndexParts?_mem (h : createIndexParts? cells = some (name, other)) :
    name ∈ bareword ∧ other ∈ bareword ∧ cells ∈ (createIndexPieces name other).prod := by
  obtain ⟨l, hl, h⟩ := Option.bind_eq_some_iff.mp h
  obtain ⟨l₁, hon, h⟩ := Option.bind_eq_some_iff.mp h
  obtain ⟨⟨table, l₂⟩, htable, h⟩ := Option.bind_eq_some_iff.mp h
  obtain ⟨l₃, hopen, h⟩ := Option.bind_eq_some_iff.mp h
  obtain ⟨⟨column, l₄⟩, hcolumn, h⟩ := Option.bind_eq_some_iff.mp h
  obtain ⟨l₅, hclose, h⟩ := Option.bind_eq_some_iff.mp h
  split at h
  · next hend =>
    obtain ⟨rfl, rfl⟩ := Prod.mk.inj (Option.some.inj h)
    obtain ⟨r, hblanks, hon⟩ := Option.bind_eq_some_iff.mp hon
    obtain ⟨r₁, hblanks', hword⟩ := Option.bind_eq_some_iff.mp htable
    obtain ⟨hname, hword, -⟩ := mem_of_word? hword
    obtain ⟨hother, hcolumn, -⟩ := mem_of_word? hcolumn
    refine ⟨hname, hother, ?_⟩
    have hback := mem_mul_of_rest (mem_of_skipBlanks l₄)
      (mem_mul_of_rest (mem_of_char? hclose) (atEnd_iff.mp hend))
    have hlist := mem_mul_of_rest (mem_of_skipBlanks l₂) (mem_mul_of_rest (mem_of_char? hopen)
      (mem_mul_of_rest (mem_of_skipBlanks l₃) (mem_mul_of_rest hcolumn hback)))
    have hhead := mem_mul_of_rest (mem_of_keyword? "ON" hon)
      (mem_mul_of_rest (mem_of_blanks? hblanks') (mem_mul_of_rest hword hlist))
    simpa only [createIndexPieces, mul_assoc, List.prod_cons, List.prod_nil, mul_one]
      using mem_mul_of_rest (mem_of_opening hl hblanks) hhead
  · cases h

theorem insertParts?_mem (h : insertParts? cells = some (name, none, list)) :
    name ∈ bareword ∧ cells ∈ (insertPieces name list).prod := by
  obtain ⟨hname, -, hcells⟩ := insertParts?_eq_some_iff.mp h
  refine ⟨hname, ?_⟩
  simpa only [insertPieces, listed, insertHead, columnsPart, mul_assoc, one_mul, List.prod_cons,
    List.prod_nil, mul_one] using hcells

theorem insertParts?_some_mem (h : insertParts? cells = some (name, some part, list)) :
    name ∈ bareword ∧ cells ∈ (insertIntoPieces name list part).prod := by
  obtain ⟨hname, -, hcells⟩ := insertParts?_eq_some_iff.mp h
  refine ⟨hname, ?_⟩
  simpa only [insertIntoPieces, listed, insertHead, columnsPart, columnList, mul_assoc,
    List.prod_cons, List.prod_nil, mul_one] using hcells

theorem fromPart?_mem (h : fromPart? cells = some name) :
    name ∈ bareword ∧ cells ∈ (fromPieces name).prod := by
  obtain ⟨rest, hrest, h⟩ := mem_of_search? h
  obtain ⟨l, hl, h⟩ := Option.bind_eq_some_iff.mp h
  obtain ⟨⟨name, r⟩, hname, rfl⟩ := Option.map_eq_some_iff.mp h
  obtain ⟨l', hfrom, hblanks⟩ := Option.bind_eq_some_iff.mp hl
  obtain ⟨hbare, hword, hend⟩ := mem_of_word? hname
  refine ⟨hbare, ?_⟩
  simpa only [fromPieces, mul_assoc, List.prod_cons, List.prod_nil, mul_one] using
    mem_mul_of_rest hrest (mem_mul_of_rest (mem_of_keyword? "FROM" hfrom)
      (mem_mul_of_rest (mem_of_blanks? hblanks) (mem_mul_of_rest hword hend)))

theorem exists_clauseEnd (cells : List Cell) :
    ∃ rest ∈ clauseEnd, cells = untilClauseEnd cells ++ rest := by
  induction cells with
  | nil => exact ⟨[], .inl rfl, rfl⟩
  | cons cell r ih =>
    rw [untilClauseEnd]
    split
    · next hend => exact ⟨cell :: r, .inr hend, rfl⟩
    · obtain ⟨rest, hrest, hr⟩ := ih
      exact ⟨rest, hrest, congrArg (cell :: ·) hr⟩

theorem wherePart?_mem (h : wherePart? cells = some part) : cells ∈ (wherePieces part).prod := by
  obtain ⟨r, hr, rfl⟩ := Option.map_eq_some_iff.mp h
  obtain ⟨rest, hrest, h⟩ := mem_of_search? hr
  obtain ⟨hwhere, -⟩ := Option.filter_eq_some_iff.mp h
  obtain ⟨tail, htail, hclause⟩ := exists_clauseEnd r
  have hback : r ∈ ({untilClauseEnd r} : Language Cell) * clauseEnd :=
    ⟨_, rfl, tail, htail, hclause.symm⟩
  simpa only [wherePieces, mul_assoc, List.prod_cons, List.prod_nil, mul_one] using
    mem_mul_of_rest hrest (mem_mul_of_rest (mem_of_keyword? "WHERE" hwhere) hback)

theorem mem_of_directionPart? {r : List Cell} (h : directionPart? r = some part) :
    r ∈ gap * (({part} : Language Cell) * wordEnd) := by
  have hcut : ∀ (word : String) (l : List Cell),
      (wholeKeyword? word.toList l).isSome = true →
        l ∈ ({l.take word.toList.length} : Language Cell) * wordEnd := by
    intro word l hword
    obtain ⟨rest, hrest⟩ := Option.isSome_iff_exists.mp hword
    obtain ⟨hkeyword, hend⟩ := Option.filter_eq_some_iff.mp hrest
    obtain ⟨k, rfl, hk⟩ := keyword?_eq_some_iff.mp hkeyword
    rw [hk.length_eq, List.take_left]
    rw [atWordEnd, Bool.not_eq_true'] at hend
    exact Language.append_mem_mul rfl hend
  obtain ⟨l, hblanks, h⟩ := Option.bind_eq_some_iff.mp h
  split at h
  · next hasc =>
    obtain rfl := Option.some.inj h
    exact mem_mul_of_rest (mem_of_blanks? hblanks) (hcut "ASC" l hasc)
  · split at h
    · next hdesc =>
      obtain rfl := Option.some.inj h
      exact mem_mul_of_rest (mem_of_blanks? hblanks) (hcut "DESC" l hdesc)
    · cases h

/-- Up to its column, an ORDER BY with or without a direction. -/
theorem exists_orderBy_column {direction : Option (List Cell)}
    (h : orderByParts? cells = some (name, direction)) : ∃ r,
      name ∈ bareword ∧ cells ∈ anything * spelled "ORDER" * gap * spelled "BY" * gap *
        ({name} : Language Cell) * {r} ∧ r ∈ wordEnd ∧ direction = directionPart? r := by
  obtain ⟨rest, hrest, h⟩ := mem_of_search? h
  obtain ⟨l, hl, h⟩ := Option.bind_eq_some_iff.mp h
  obtain ⟨⟨column, r⟩, hcolumn, h⟩ := Option.bind_eq_some_iff.mp h
  obtain ⟨rfl, rfl⟩ := Prod.mk.inj (Option.some.inj h)
  obtain ⟨l', hkeywords, hblanks⟩ := Option.bind_eq_some_iff.mp hl
  obtain ⟨hbare, hword, hend⟩ := mem_of_word? hcolumn
  refine ⟨r, hbare, ?_, hend, rfl⟩
  simpa only [mul_assoc] using mem_mul_of_rest hrest
    (mem_mul_of_rest (mem_of_keywords? "ORDER" "BY" hkeywords)
      (mem_mul_of_rest (mem_of_blanks? hblanks) hword))

theorem orderByParts?_mem {direction : Option (List Cell)}
    (h : orderByParts? cells = some (name, direction)) :
    name ∈ bareword ∧ cells ∈ (orderByPieces name).prod := by
  obtain ⟨r, hname, hr, hend, -⟩ := exists_orderBy_column h
  refine ⟨hname, ?_⟩
  simpa only [orderByPieces, mul_assoc, List.prod_cons, List.prod_nil, mul_one]
    using mem_mul_of_rest hr hend

theorem orderByParts?_some_mem (h : orderByParts? cells = some (name, some part)) :
    cells ∈ (directionPieces name part).prod := by
  obtain ⟨r, -, hr, -, hdirection⟩ := exists_orderBy_column h
  simpa only [directionPieces, mul_assoc, List.prod_cons, List.prod_nil, mul_one]
    using mem_mul_of_rest hr (mem_of_directionPart? hdirection.symm)

theorem limitPart?_mem (h : limitPart? cells = some part) : cells ∈ (limitPieces part).prod := by
  obtain ⟨rest, hrest, h⟩ := mem_of_search? h
  obtain ⟨l, hl, h⟩ := Option.bind_eq_some_iff.mp h
  obtain ⟨⟨ds, r⟩, hds, h⟩ := Option.bind_eq_some_iff.mp h
  dsimp only at h
  split at h
  · next hend =>
    obtain rfl := Option.some.inj h
    obtain ⟨l', hlimit, hblanks⟩ := Option.bind_eq_some_iff.mp hl
    obtain ⟨rfl, -, -, -⟩ := number?_eq_some_iff.mp hds
    rw [atWordEnd, Bool.not_eq_true'] at hend
    have hback : ds ++ r ∈ ({ds} : Language Cell) * wordEnd := Language.append_mem_mul rfl hend
    simpa only [limitPieces, mul_assoc, List.prod_cons, List.prod_nil, mul_one] using
      mem_mul_of_rest hrest (mem_mul_of_rest (mem_of_keyword? "LIMIT" hlimit)
        (mem_mul_of_rest (mem_of_blanks? hblanks) hback))
  · cases h

/-- Behind SET stand assignments and a filter. A blank stands for assignments that are missing. -/
theorem mem_of_setClause {l name' : List Cell}
    (h : (match l.takeWhile Cell.isBlank, clauseAfter? "WHERE".toList (skipBlanks l) with
      | _ :: _, some (assignments, filter) => some (name', assignments, filter)
      | _ :: blank :: _ :: _, none => do
        return (name', [blank], ← (keyword? "WHERE".toList (skipBlanks l)).bind clause?)
      | _, _ => none) = some (name, list, part)) :
    name' = name ∧ l ∈ gap * (({list} : Language Cell) * (gap * spelled "WHERE" * gap * {part})) := by
  split at h
  · next first r' assignments filter htake hclause =>
    obtain ⟨rfl, hparts⟩ := Prod.mk.inj (Option.some.inj h)
    obtain ⟨rfl, rfl⟩ := Prod.mk.inj hparts
    have hl := mem_of_takeWhile (htake.trans (List.append_nil _).symm) (List.cons_ne_nil _ _)
    exact ⟨rfl, mem_mul_of_rest hl (mem_of_clauseAfter? hclause)⟩
  · next first blank last r' htake _ =>
    obtain ⟨clause, hclause, h⟩ := Option.bind_eq_some_iff.mp h
    obtain ⟨rfl, hparts⟩ := Prod.mk.inj (Option.some.inj h)
    obtain ⟨rfl, rfl⟩ := Prod.mk.inj hparts
    obtain ⟨l₂, hwhere, hclause⟩ := Option.bind_eq_some_iff.mp hclause
    have hbehind : last :: r' ∈ gap := ⟨List.cons_ne_nil _ _, fun cell hcell =>
      isBlank_of_takeWhile htake cell (List.mem_cons_of_mem _ (List.mem_cons_of_mem _ hcell))⟩
    have hfilter : last :: r' ++ skipBlanks l ∈
        gap * spelled "WHERE" * gap * ({clause} : Language Cell) := by
      simpa only [mul_assoc] using Language.append_mem_mul hbehind
        (mem_mul_of_rest (mem_of_keyword? "WHERE" hwhere) (mem_of_clause? hclause))
    have hl := @mem_of_takeWhile l [first] _ htake (List.cons_ne_nil _ _)
    exact ⟨rfl, mem_mul_of_rest hl ⟨[blank], rfl, _, hfilter, rfl⟩⟩
  · cases h

theorem updateParts?_mem (h : updateParts? cells = some (name, list, part)) :
    name ∈ bareword ∧ cells ∈ (updatePieces name list part).prod := by
  obtain ⟨l, hl, h⟩ := Option.bind_eq_some_iff.mp h
  obtain ⟨⟨name', r⟩, hname, h⟩ := Option.bind_eq_some_iff.mp h
  obtain ⟨l', hset, h⟩ := Option.bind_eq_some_iff.mp h
  obtain ⟨l₀, hupdate, hblanks⟩ := Option.bind_eq_some_iff.mp hl
  obtain ⟨l₁, hblanks', hset⟩ := Option.bind_eq_some_iff.mp hset
  obtain ⟨hbare, hword, -⟩ := mem_of_word? hname
  obtain ⟨rfl, hclauses⟩ := mem_of_setClause h
  refine ⟨hbare, ?_⟩
  simpa only [updatePieces, mul_assoc, List.prod_cons, List.prod_nil, mul_one] using
    mem_mul_of_rest (mem_of_skipBlanks cells) (mem_mul_of_rest (mem_of_keyword? "UPDATE" hupdate)
      (mem_mul_of_rest (mem_of_blanks? hblanks) (mem_mul_of_rest hword
        (mem_mul_of_rest (mem_of_blanks? hblanks')
          (mem_mul_of_rest (mem_of_keyword? "SET" hset) hclauses)))))

theorem deleteParts?_mem (h : deleteParts? cells = some (name, part)) :
    name ∈ bareword ∧ cells ∈ (deletePieces name part).prod := by
  obtain ⟨l, hl, h⟩ := Option.bind_eq_some_iff.mp h
  obtain ⟨⟨name, r⟩, hname, h⟩ := Option.bind_eq_some_iff.mp h
  obtain ⟨clause, hclause, h⟩ := Option.bind_eq_some_iff.mp h
  obtain ⟨rfl, rfl⟩ := Prod.mk.inj (Option.some.inj h)
  obtain ⟨l₁, hblanks, hword⟩ := Option.bind_eq_some_iff.mp hname
  obtain ⟨l₂, hwhere, hclause⟩ := Option.bind_eq_some_iff.mp hclause
  obtain ⟨l₃, hblanks', hwhere⟩ := Option.bind_eq_some_iff.mp hwhere
  obtain ⟨hbare, hword, -⟩ := mem_of_word? hword
  refine ⟨hbare, ?_⟩
  simpa only [deletePieces, mul_assoc, List.prod_cons, List.prod_nil, mul_one] using
    mem_mul_of_rest (mem_of_opening hl hblanks) (mem_mul_of_rest hword
      (mem_mul_of_rest (mem_of_blanks? hblanks')
        (mem_mul_of_rest (mem_of_keyword? "WHERE" hwhere) (mem_of_clause? hclause))))

end Statement

end Rowfile
