import Rowfile.Proofs.PatternCuts
import Rowfile.Proofs.SeparatorCuts

/-!
# No statement tears a character

A text is cut at the parts of its statement, at separators and blanks, at AND and OR, and at operators. Each
part that is cut out is a text again, and is masked and cut anew. All cuts fall between characters of the
text that they are made in, so whatever the text, no part of it fails to be read.
-/
namespace Rowfile

open Masked Pattern Statement Clause Split Form

/-! ## Readers that tear no character -/

section
variable {α β : Type}

/-- A reader does not fail over a character that a cut falls into. -/
def Untorn (x : Except Malformed α) : Prop := x ≠ .error .tornCharacter

theorem untorn_ok (a : α) : Untorn (.ok a) := fun h => nomatch h

theorem untorn_error {problem : Malformed} (h : problem ≠ .tornCharacter) :
    Untorn (.error problem : Except Malformed α) := fun he => h (Except.error.inj he)

theorem Untorn.bind {x : Except Malformed α} {f : α → Except Malformed β} (hx : Untorn x)
    (hf : ∀ a, x = .ok a → Untorn (f a)) : Untorn (x >>= f) := by
  intro h
  rcases bind_eq_error.mp h with h | ⟨a, ha, h⟩
  · exact hx h
  · exact hf a ha h

theorem Untorn.map {x : Except Malformed α} (hx : Untorn x) (f : α → β) : Untorn (x.map f) := by
  cases x with
  | ok a => exact untorn_ok _
  | error problem => exact fun h => hx (congrArg Except.error (Except.error.inj h))

theorem untorn_orTorn {x : Option α} (h : ∃ a, x = some a) : Untorn (orTorn x) := by
  obtain ⟨a, rfl⟩ := h
  exact untorn_ok a

theorem untorn_orFault {problem : Malformed} (h : problem ≠ .tornCharacter) (x : Option α) :
    Untorn (orFault problem x) := by
  cases x with
  | none => exact untorn_error h
  | some a => exact untorn_ok a

theorem untorn_check {bad : Prop} [Decidable bad] {problem : Malformed} {rest : Except Malformed α}
    (h : problem ≠ .tornCharacter) (hrest : Untorn rest) :
    Untorn (if bad then (throw problem >>= fun _ : PUnit => rest) else rest) := by
  split
  · exact untorn_error h
  · exact hrest

theorem untorn_mapM {f : α → Except Malformed β} (h : ∀ a, Untorn (f a)) (l : List α) :
    Untorn (l.mapM f) := by
  induction l with
  | nil => exact untorn_ok _
  | cons a l ih =>
    rw [List.mapM_cons]
    exact (h a).bind fun _ _ => ih.bind fun _ _ => untorn_ok _

end

theorem CutsAs.exists_read {text : List Char} {forms : List (Language Cell)} (h : CutsAs text forms)
    (part : List Cell) (hpart : ({part} : Language Cell) ∈ forms) :
    ∃ cs, read? part = some cs := by
  obtain ⟨pieces, hpieces, hcut⟩ := h
  obtain ⟨piece, hpiece, hmem⟩ := exists_mem_of_forall₂ hpieces.flip hpart
  obtain rfl : piece = part := hmem
  exact hcut.exists_read piece hpiece

theorem untorn_readName {part : List Cell} (h : ∃ cs, read? part = some cs) :
    Untorn (readName part) :=
  (untorn_orTorn h).map String.ofList

/-! ## Conditions and declarations -/

/-- The operator of a condition is cut out between what is before it and what is behind it. -/
theorem exists_operatorCut {text : List Char} {ops : List Operator} {op : Operator}
    {before after : List Cell} (h : findOperator? (mask text) ops = some (op, before, after)) :
    ∃ found, Finds (operatorLetter op) (operatorWord op) found ∧
      CutInto text [before, found, after] := by
  induction ops with
  | nil => cases h
  | cons first ops ih =>
    rw [findOperator?] at h
    split at h
    · next hbreak =>
      obtain ⟨rfl, hparts⟩ := Prod.mk.inj (Option.some.inj h)
      obtain ⟨rfl, rfl⟩ := Prod.mk.inj hparts
      exact (searchable_operator first).cutInto hbreak
    · exact ih h

theorem untorn_readCondition (text : List Char) : Untorn (readCondition text) := by
  unfold readCondition
  dsimp only
  split
  · exact untorn_error (by simp)
  · next op before after hfound =>
    obtain ⟨found, -, hcut⟩ := exists_operatorCut hfound
    have hbefore := hcut.exists_read before (by simp)
    have hafter := hcut.exists_read after (by simp)
    refine ((untorn_orTorn hbefore).map _).bind fun column _ =>
      ((untorn_orTorn hafter).map _).bind fun literal _ => ?_
    exact untorn_check (by simp) (untorn_check (by simp) (untorn_ok _))

theorem untorn_readConjunction (text : List Char) : Untorn (readConjunction text) :=
  (untorn_orTorn (exists_atKeyword? text (searchable_keyword _ (by decide)))).bind fun parts _ =>
    (untorn_mapM untorn_readCondition parts).bind fun _ _ => untorn_ok _

theorem untorn_readWhere (text : List Char) : Untorn (readWhere text) := by
  refine untorn_check (by simp) ?_
  exact (untorn_orTorn (exists_atKeyword? _ (searchable_keyword _ (by decide)))).bind fun parts _ =>
    (untorn_mapM untorn_readConjunction parts).bind fun _ _ => untorn_ok _

theorem ColumnText.untorn_read (text : List Char) : Untorn (ColumnText.read text) := by
  refine (untorn_orTorn (exists_atBlanks? text)).bind fun words _ => ?_
  split
  · exact untorn_error (by simp)
  · dsimp only
    split
    · split
      · exact untorn_ok _
      · exact untorn_error (by simp)
    · exact untorn_ok _

/-! ## Statements -/

namespace Statement

variable (text : List Char)

theorem untorn_readColumns (table : String) (schema : Schema) (declarations : List (List Char)) :
    Untorn (readColumns table schema declarations) := by
  induction declarations generalizing schema with
  | nil => exact untorn_ok _
  | cons declaration declarations ih =>
    rw [readColumns]
    split
    · exact ih schema
    · refine (ColumnText.untorn_read declaration).bind fun column _ => ?_
      split
      · exact ih _
      · exact untorn_error (by simp)

theorem untorn_readCreateTable : Untorn (readCreateTable text) := by
  refine (untorn_orFault (by simp) _).bind fun ⟨name, body⟩ hparts => ?_
  have hcut := cutsAs_createTable (orFault_eq_ok.mp hparts)
  refine (untorn_readName (hcut.exists_read _ (by simp [createTablePieces]))).bind fun table _ => ?_
  refine (untorn_orTorn (hcut.exists_read body (by simp [createTablePieces]))).bind fun list _ => ?_
  refine (untorn_orTorn (exists_atSeparator? list (by decide))).bind fun declarations _ => ?_
  exact (untorn_readColumns table .empty declarations).bind fun _ _ => untorn_ok _

theorem untorn_readDropTable : Untorn (readDropTable text) := by
  refine (untorn_orFault (by simp) _).bind fun name hname => ?_
  have hcut := cutsAs_tableName "DROP" (orFault_eq_ok.mp hname)
  exact (untorn_readName (hcut.exists_read _ (by simp [tableNamePieces]))).bind fun _ _ => untorn_ok _

theorem untorn_readShowTable : Untorn (readShowTable text) := by
  refine (untorn_orFault (by simp) _).bind fun name hname => ?_
  have hcut := cutsAs_tableName "SHOW" (orFault_eq_ok.mp hname)
  exact (untorn_readName (hcut.exists_read _ (by simp [tableNamePieces]))).bind fun _ _ => untorn_ok _

theorem untorn_readRenameTable : Untorn (readRenameTable text) := by
  refine (untorn_orFault (by simp) _).bind fun ⟨old, new⟩ hparts => ?_
  have hcut := cutsAs_renameTable (orFault_eq_ok.mp hparts)
  refine (untorn_readName (hcut.exists_read _ (by simp [renameTablePieces]))).bind fun _ _ => ?_
  exact (untorn_readName (hcut.exists_read _ (by simp [renameTablePieces]))).bind fun _ _ => untorn_ok _

theorem untorn_readDescribe : Untorn (readDescribe text) := by
  refine (untorn_orFault (by simp) _).bind fun name hname => ?_
  have hcut := cutsAs_describe (orFault_eq_ok.mp hname)
  exact (untorn_readName (hcut.exists_read _ (by simp [describePieces]))).bind fun _ _ => untorn_ok _

theorem untorn_readCreateIndex : Untorn (readCreateIndex text) := by
  refine (untorn_orFault (by simp) _).bind fun ⟨table, column⟩ hparts => ?_
  have hcut := cutsAs_createIndex (orFault_eq_ok.mp hparts)
  refine (untorn_readName (hcut.exists_read _ (by simp [createIndexPieces]))).bind fun _ _ => ?_
  exact (untorn_readName (hcut.exists_read _ (by simp [createIndexPieces]))).bind fun _ _ => untorn_ok _

theorem untorn_readColumnList (list : List Char) : Untorn (readColumnList list) :=
  (untorn_orTorn (exists_atSeparator? list (by decide))).bind fun _ _ =>
    untorn_check (by simp) (untorn_ok _)

theorem untorn_readListedValue (text : List Char) : Untorn (readListedValue text) := by
  unfold readListedValue
  split
  · exact untorn_error (by simp)
  · split
    · exact untorn_error (by simp)
    · exact untorn_ok _

/-- The name and the values of an INSERT are cut out of it, and so is its column list. -/
theorem exists_insertCuts {name values : List Cell} {columns : Option (List Cell)}
    (h : insertParts? (mask text) = some (name, columns, values)) :
    ∃ forms, CutsAs text forms ∧ {name} ∈ forms ∧ {values} ∈ forms ∧
      ∀ list, columns = some list → {list} ∈ forms := by
  cases columns with
  | none =>
    exact ⟨_, cutsAs_insert h, by simp [insertPieces], by simp [insertPieces],
      fun _ hlist => nomatch hlist⟩
  | some columns =>
    refine ⟨_, cutsAs_insertInto h, by simp [insertIntoPieces], by simp [insertIntoPieces],
      fun list hlist => ?_⟩
    obtain rfl := Option.some.inj hlist
    simp [insertIntoPieces]

theorem untorn_readInsert : Untorn (readInsert text) := by
  refine (untorn_orFault (by simp) _).bind fun ⟨name, columns, values⟩ hparts => ?_
  obtain ⟨forms, hcut, hname, hvalues, hcolumns⟩ := exists_insertCuts text (orFault_eq_ok.mp hparts)
  refine (untorn_readName (hcut.exists_read name hname)).bind fun table _ => ?_
  extract_lets rest
  have hrest : ∀ columns, Untorn (rest columns) := fun columns =>
    (untorn_orTorn (hcut.exists_read values hvalues)).bind fun list _ =>
      (untorn_orTorn (exists_atSeparator? list (by decide))).bind fun texts _ =>
        untorn_check (by simp) ((untorn_mapM untorn_readListedValue texts).bind fun _ _ =>
          untorn_ok _)
  cases columns with
  | none => exact hrest none
  | some columns =>
    have hlist := (untorn_orTorn (hcut.exists_read columns (hcolumns columns rfl))).bind fun list _ =>
      untorn_readColumnList list
    exact (hlist.map some).bind fun columns _ => hrest columns

theorem untorn_readOrderBy : Untorn (readOrderBy (mask text)) := by
  unfold readOrderBy
  split
  · refine (untorn_orFault (by simp) _).bind fun ⟨column, direction⟩ hparts => ?_
    have hfound := orFault_eq_ok.mp hparts
    have hdirection : ∃ cs, read? (direction.getD []) = some cs := by
      cases direction with
      | none => exact ⟨[], rfl⟩
      | some direction => exact (cutsAs_direction hfound).exists_read _ (by simp [directionPieces])
    refine (untorn_orTorn hdirection).bind fun _ _ => ?_
    have hcolumn := (cutsAs_orderBy hfound).exists_read column (by simp [orderByPieces])
    exact (untorn_readName hcolumn).bind fun _ _ => untorn_ok _
  · exact untorn_ok _

theorem untorn_readLimit : Untorn (readLimit (mask text)) := by
  unfold readLimit
  split
  · refine (untorn_orFault (by simp) _).bind fun ds hds => ?_
    have hcut := cutsAs_limit (orFault_eq_ok.mp hds)
    refine (untorn_orTorn (hcut.exists_read _ (by simp [limitPieces]))).bind fun _ _ => ?_
    exact (untorn_orFault (by simp) _).bind fun _ _ => untorn_ok _
  · exact untorn_ok _

theorem untorn_readSelect : Untorn (readSelect text) := by
  refine (untorn_orFault (by simp) _).bind fun name hname => ?_
  have hcut := cutsAs_from (orFault_eq_ok.mp hname)
  refine (untorn_readName (hcut.exists_read _ (by simp [fromPieces]))).bind fun table _ => ?_
  extract_lets rest
  have hrest : ∀ filter, Untorn (rest filter) := fun filter =>
    (untorn_readOrderBy text).bind fun _ _ => (untorn_readLimit text).bind fun _ _ => untorn_ok _
  split
  · next clause hclause =>
    have hclause := (cutsAs_where hclause).exists_read clause (by simp [wherePieces])
    have hread := (untorn_orTorn hclause).bind fun clause _ => untorn_readWhere clause
    exact (hread.map some).bind fun filter _ => hrest filter
  · exact hrest none

theorem untorn_readAssignment (text : List Char) : Untorn (readAssignment text) := by
  refine (untorn_orFault (by simp) _).bind fun ⟨before, after⟩ hfound => ?_
  obtain ⟨found, -, hcut⟩ := searchable_assign.cutInto (orFault_eq_ok.mp hfound)
  refine ((untorn_orTorn (hcut.exists_read before (by simp))).map _).bind fun column _ => ?_
  refine ((untorn_orTorn (hcut.exists_read after (by simp))).map _).bind fun value _ => ?_
  exact untorn_check (by simp) (untorn_check (by simp) (untorn_ok _))

theorem untorn_readUpdate : Untorn (readUpdate text) := by
  refine (untorn_orFault (by simp) _).bind fun ⟨name, assignments, filter⟩ hparts => ?_
  have hcut := cutsAs_update (orFault_eq_ok.mp hparts)
  refine (untorn_readName (hcut.exists_read _ (by simp [updatePieces]))).bind fun table _ => ?_
  refine (untorn_orTorn (hcut.exists_read assignments (by simp [updatePieces]))).bind fun list _ => ?_
  refine (untorn_orTorn (exists_atSeparator? list (by decide))).bind fun texts _ => ?_
  refine (untorn_mapM untorn_readAssignment texts).bind fun _ _ => untorn_check (by simp) ?_
  have hfilter := (untorn_orTorn (hcut.exists_read filter (by simp [updatePieces]))).bind
    fun clause _ => untorn_readWhere clause
  exact hfilter.bind fun _ _ => untorn_ok _

theorem untorn_readDelete : Untorn (readDelete text) := by
  refine (untorn_orFault (by simp) _).bind fun ⟨name, filter⟩ hparts => ?_
  have hcut := cutsAs_delete (orFault_eq_ok.mp hparts)
  refine (untorn_readName (hcut.exists_read _ (by simp [deletePieces]))).bind fun table _ => ?_
  have hfilter := (untorn_orTorn (hcut.exists_read filter (by simp [deletePieces]))).bind
    fun clause _ => untorn_readWhere clause
  exact hfilter.bind fun _ _ => untorn_ok _

theorem read_ne_torn : Statement.read text ≠ .error (.malformed .tornCharacter) := by
  have hread : ∀ {x : Except Malformed Statement}, Untorn x →
      orMalformed x ≠ .error (.malformed .tornCharacter) := by
    intro x hx h
    cases x with
    | ok statement => cases h
    | error problem => exact hx (congrArg Except.error (Fault.malformed.inj (Except.error.inj h)))
  have hchoice : ∀ {chosen : Bool} {x y : Except Fault Statement},
      x ≠ .error (.malformed .tornCharacter) → y ≠ .error (.malformed .tornCharacter) →
        (if chosen = true then x else y) ≠ .error (.malformed .tornCharacter) := by
    intro chosen x y hx hy
    cases chosen with
    | true => exact hx
    | false => exact hy
  exact hchoice (hread (untorn_readCreateTable _)) <|
    hchoice (hread (untorn_readDropTable _)) <|
    hchoice (hread (untorn_readRenameTable _)) <|
    hchoice (hread (untorn_readInsert _)) <|
    hchoice (hread (untorn_readSelect _)) <|
    hchoice (hread (untorn_readUpdate _)) <|
    hchoice (hread (untorn_readDelete _)) <|
    hchoice (hread (untorn_readDescribe _)) <|
    hchoice (fun h => nomatch h) <|
    hchoice (hread (untorn_readShowTable _)) <|
    hchoice (hread (untorn_readCreateIndex _)) (fun h => nomatch h)

end Statement

/-! ## All cuts of a text -/

/-- The parts that a recogniser finds in a text are cut out of it, in the order and with the surroundings
that the form of the statement demands. -/
structure PartsCut (text : List Char) : Prop where
  createTable : ∀ name body, createTableParts? (mask text) = some (name, body) →
    CutsAs text (createTablePieces name body)
  tableName : ∀ (verb : String) name, tableNamePart? verb.toList (mask text) = some name →
    CutsAs text (tableNamePieces name verb)
  renameTable : ∀ name new, renameTableParts? (mask text) = some (name, new) →
    CutsAs text (renameTablePieces name new)
  describe : ∀ name, describePart? (mask text) = some name → CutsAs text (describePieces name)
  createIndex : ∀ name column, createIndexParts? (mask text) = some (name, column) →
    CutsAs text (createIndexPieces name column)
  insert : ∀ name values, insertParts? (mask text) = some (name, none, values) →
    CutsAs text (insertPieces name values)
  insertInto : ∀ name columns values, insertParts? (mask text) = some (name, some columns, values) →
    CutsAs text (insertIntoPieces name values columns)
  selectFrom : ∀ name, fromPart? (mask text) = some name → CutsAs text (fromPieces name)
  selectWhere : ∀ clause, wherePart? (mask text) = some clause → CutsAs text (wherePieces clause)
  orderBy : ∀ column direction, orderByParts? (mask text) = some (column, direction) →
    CutsAs text (orderByPieces column)
  direction : ∀ column direction, orderByParts? (mask text) = some (column, some direction) →
    CutsAs text (directionPieces column direction)
  limit : ∀ ds, limitPart? (mask text) = some ds → CutsAs text (limitPieces ds)
  update : ∀ name assignments filter,
    updateParts? (mask text) = some (name, assignments, filter) →
      CutsAs text (updatePieces name assignments filter)
  delete : ∀ name filter, deleteParts? (mask text) = some (name, filter) →
    CutsAs text (deletePieces name filter)

/-- The pieces of a text are cut out of it, and so is what it is cut at: a keyword or an operator takes up one
octet for each of its letters. Every piece is read. -/
structure PiecesCut (text : List Char) : Prop where
  separators : ∃ pieces, Interleaved (IsSeparator ',') (separatorParts ',' text) pieces ∧
    CutInto text pieces
  blanks : ∃ pieces, Among IsBlankCell (blankParts text) pieces ∧ CutInto text pieces
  keywords : ∀ keyword ∈ ["AND".toList, "OR".toList],
    ∃ pieces, Interleaved (Finds Char.toUpper keyword) (keywordParts keyword text) pieces ∧
      CutInto text pieces
  operator : ∀ ops op before after,
    findOperator? (mask text) ops = some (op, before, after) →
      ∃ found, Finds (operatorLetter op) (operatorWord op) found ∧
        CutInto text [before, found, after]
  assign : ∀ before after, breakAt? id ['='] (mask text) = some (before, after) →
    ∃ found, Finds id ['='] found ∧ CutInto text [before, found, after]
  reads : (∃ texts, atSeparator? ',' text = some texts) ∧ (∃ texts, atBlanks? text = some texts) ∧
    ∀ keyword ∈ ["AND".toList, "OR".toList], ∃ texts, atKeyword? keyword text = some texts

theorem partsCut (text : List Char) : PartsCut text where
  createTable _ _ := cutsAs_createTable
  tableName verb _ := cutsAs_tableName verb
  renameTable _ _ := cutsAs_renameTable
  describe _ := cutsAs_describe
  createIndex _ _ := cutsAs_createIndex
  insert _ _ := cutsAs_insert
  insertInto _ _ _ := cutsAs_insertInto
  selectFrom _ := cutsAs_from
  selectWhere _ := cutsAs_where
  orderBy _ _ := cutsAs_orderBy
  direction _ _ := cutsAs_direction
  limit _ := cutsAs_limit
  update _ _ _ := cutsAs_update
  delete _ _ := cutsAs_delete

theorem piecesCut (text : List Char) : PiecesCut text where
  separators := exists_separatorCuts text (by decide)
  blanks := exists_blankCuts text
  keywords keyword hkeyword := exists_keywordCuts text (searchable_keyword keyword hkeyword)
  operator _ _ _ _ := exists_operatorCut
  assign _ _ := searchable_assign.cutInto
  reads := ⟨exists_atSeparator? text (by decide), exists_atBlanks? text,
    fun keyword hkeyword => exists_atKeyword? text (searchable_keyword keyword hkeyword)⟩

/-- Whatever is cut out of a text begins and ends between its characters, and so no statement fails over a
character that was cut in two. -/
theorem cuts_between_characters (text : List Char) :
    PartsCut text ∧ PiecesCut text ∧ Statement.read text ≠ .error (.malformed .tornCharacter) :=
  ⟨partsCut text, piecesCut text, read_ne_torn text⟩

-- A cut within a quoted character would not be read.
example : read? ((mask "'é'".toList).take 2) = none := by decide

end Rowfile
