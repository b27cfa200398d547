import Rowfile.Proofs.CharacterCuts
import Rowfile.Proofs.PatternForms

/-!
# Cuts around the parts of a statement

Before a part of a statement stands a blank, a sign or a keyword, and behind it a blank, a sign, or anything
that does not go on with the word. None of these is filler. So every part begins and ends between two
characters of the text, or where the text does.
-/
namespace Rowfile

open Masked Pattern Statement

namespace Form

/-! ## Forms that begin and end visibly -/

/-- What has the form ends with a cell that is no filler. -/
def EndsVisibly (form : Language Cell) : Prop := ∀ l ∈ form, l ≠ [] ∧ EndsClear l

/-- What has the form begins with a cell that is no filler. -/
def BeginsVisibly (form : Language Cell) : Prop := ∀ l ∈ form, l ≠ [] ∧ BeginsClear l

section
variable {form form' : Language Cell}

theorem endsVisibly_of_visible (h : Visible (· ∈ form)) : EndsVisibly form :=
  fun l hl => ⟨(h l hl).1, endsClear_of_forall (h l hl).2⟩

theorem beginsVisibly_of_visible (h : Visible (· ∈ form)) : BeginsVisibly form := by
  intro l hl
  obtain ⟨hne, hshown⟩ := h l hl
  exact ⟨hne, List.append_nil l ▸ beginsClear_append hne hshown []⟩

theorem EndsVisibly.mul_left (h : EndsVisibly form) (front : Language Cell) :
    EndsVisibly (front * form) := by
  rintro _ ⟨f, -, l, hl, rfl⟩
  obtain ⟨hne, hclear⟩ := h l hl
  refine ⟨List.append_ne_nil_of_right_ne_nil f hne, fun cell hcell => hclear cell ?_⟩
  rwa [List.getLast?_append_of_ne_nil _ hne] at hcell

theorem EndsVisibly.mul_blanks (h : EndsVisibly form) : EndsVisibly (form * blanks) := by
  rintro _ ⟨l, hl, b, hb, rfl⟩
  obtain ⟨hne, hclear⟩ := h l hl
  refine ⟨List.append_ne_nil_of_left_ne_nil hne b, fun cell hcell => ?_⟩
  cases b with
  | nil => exact hclear cell (by simpa using hcell)
  | cons blank b =>
    rw [List.getLast?_append_of_ne_nil _ (List.cons_ne_nil _ _)] at hcell
    exact shown_ne_of_isBlank (hb cell (List.mem_of_getLast? hcell))

theorem BeginsVisibly.mul_right (h : BeginsVisibly form) (back : Language Cell) :
    BeginsVisibly (form * back) := by
  rintro _ ⟨l, hl, b, -, rfl⟩
  obtain ⟨hne, hclear⟩ := h l hl
  refine ⟨List.append_ne_nil_of_left_ne_nil hne b, fun cell hcell => hclear cell ?_⟩
  rwa [List.head?_append_of_ne_nil _ hne] at hcell

theorem BeginsVisibly.blanks_mul (h : BeginsVisibly form) : BeginsVisibly (blanks * form) := by
  rintro _ ⟨b, hb, l, hl, rfl⟩
  cases b with
  | nil => exact h l hl
  | cons cell b =>
    exact ⟨List.cons_ne_nil _ _,
      beginsClear_cons (shown_ne_of_isBlank (hb cell List.mem_cons_self)) _⟩

theorem visible_gap : Visible (· ∈ gap) :=
  fun _ h => ⟨h.1, fun cell hcell => shown_ne_of_isBlank (h.2 cell hcell)⟩

theorem visible_sign {c : Char} (hc : c ≠ '_') : Visible (· ∈ sign c) := by
  rintro _ ⟨cell, rfl, hcell⟩
  refine ⟨List.cons_ne_nil _ _, fun other hother => ?_⟩
  rw [List.mem_singleton.mp hother, hcell]
  exact hc

theorem visible_where : Visible (· ∈ spelled "WHERE") := by
  have hletters : "WHERE".toList.all (fun c => !Text.foldEq c '_') = true := by decide +kernel
  intro l hl
  refine ⟨?_, fun cell hcell hshown => ?_⟩
  · rintro rfl
    cases hl
  · obtain ⟨c, hc, hfold⟩ := exists_mem_of_forall₂ (List.Forall₂.flip hl) hcell
    have hletter := List.all_eq_true.mp hletters c hc
    rw [← hshown, hfold] at hletter
    cases hletter

theorem endsVisibly_gap (front : Language Cell) : EndsVisibly (front * gap) :=
  (endsVisibly_of_visible visible_gap).mul_left front

theorem endsVisibly_open (front : Language Cell) : EndsVisibly (front * sign '(') :=
  (endsVisibly_of_visible (visible_sign (by decide))).mul_left front

theorem beginsVisibly_gap : BeginsVisibly gap := beginsVisibly_of_visible visible_gap

theorem beginsVisibly_open : BeginsVisibly (blanks * sign '(') :=
  (beginsVisibly_of_visible (visible_sign (by decide))).blanks_mul

theorem beginsVisibly_close : BeginsVisibly (sign ')') :=
  beginsVisibly_of_visible (visible_sign (by decide))

theorem beginsClear_wordEnd : ∀ l ∈ wordEnd, BeginsClear l := by
  intro l hl cell hcell hshown
  replace hl : l.head?.any Cell.isWord = false := hl
  rw [hcell, Option.any_some, Cell.isWord, hshown] at hl
  exact absurd hl (by decide)

theorem beginsClear_blanks : ∀ l ∈ blanks, BeginsClear l :=
  fun _ hl cell hcell => shown_ne_of_isBlank (hl cell (List.mem_of_mem_head? hcell))

theorem beginsClear_clauseEnd : ∀ l ∈ clauseEnd, BeginsClear l := by
  rintro l (rfl | hl)
  · exact beginsClear_nil
  · cases l with
    | nil => exact beginsClear_nil
    | cons cell l =>
      rw [atClauseEnd, Bool.and_eq_true] at hl
      exact beginsClear_cons (shown_ne_of_isBlank hl.1) l

end

end Form

/-! ## Texts cut into pieces of given forms -/

open Form

/-- The text is cut into pieces of these forms. -/
def CutsAs (text : List Char) (forms : List (Language Cell)) : Prop :=
  ∃ pieces, List.Forall₂ (fun piece form => piece ∈ form) pieces forms ∧ CutInto text pieces

/-- What has the forms one after the other is nothing or begins with a cell that is no filler. -/
def BeginClear (forms : List (Language Cell)) : Prop := ∀ l ∈ forms.prod, BeginsClear l

/-- Where a form ends and others begin, one of the two is visible. -/
def ClearForms : List (Language Cell) → Prop
  | [] => True
  | form :: forms => (EndsVisibly form ∨ BeginClear forms) ∧ ClearForms forms

section
variable {form : Language Cell} {forms : List (Language Cell)}

theorem beginClear_cons (h : BeginsVisibly form) : BeginClear (form :: forms) :=
  fun l hl => (h.mul_right forms.prod l hl).2

theorem beginClear_singleton (h : ∀ l ∈ form, BeginsClear l) : BeginClear [form] := by
  intro l hl
  rw [List.prod_singleton] at hl
  exact h l hl

theorem ClearForms.last (form : Language Cell) : ClearForms [form] := by
  refine ⟨.inr ?_, trivial⟩
  rintro _ rfl
  exact beginsClear_nil

/-- A part stands between a form that ends visibly and others that begin so. -/
theorem ClearForms.part {part : List Cell} (hform : EndsVisibly form) (hforms : BeginClear forms)
    (h : ClearForms forms) : ClearForms (form :: {part} :: forms) :=
  ⟨.inl hform, .inr hforms, h⟩

end

theorem mem_prod_iff {forms : List (Language Cell)} {cells : List Cell} :
    cells ∈ forms.prod ↔
      ∃ pieces, List.Forall₂ (fun piece form => piece ∈ form) pieces forms ∧
        pieces.flatten = cells := by
  induction forms generalizing cells with
  | nil =>
    constructor
    · intro h
      exact ⟨[], .nil, h.symm⟩
    · rintro ⟨pieces, hpieces, rfl⟩
      cases hpieces
      rfl
  | cons form forms ih =>
    rw [List.prod_cons, Language.mem_mul]
    constructor
    · rintro ⟨l, hl, r, hr, rfl⟩
      obtain ⟨pieces, hpieces, rfl⟩ := ih.mp hr
      exact ⟨l :: pieces, .cons hl hpieces, rfl⟩
    · rintro ⟨pieces, hpieces, rfl⟩
      cases hpieces with
      | cons hl hrest => exact ⟨_, hl, _, ih.mpr ⟨_, hrest, rfl⟩, rfl⟩

/-- A text of clear forms one after the other is cut into pieces of these forms. -/
theorem cutsAs_of_mem {text : List Char} {forms : List (Language Cell)}
    (h : mask text ∈ forms.prod) (hforms : ClearForms forms) : CutsAs text forms := by
  obtain ⟨pieces, hpieces, hcovers⟩ := mem_prod_iff.mp h
  refine ⟨pieces, hpieces, cutInto_of_clearCuts hcovers ?_⟩
  clear h hcovers
  induction hpieces with
  | nil => trivial
  | cons hpiece hrest ih =>
    refine ⟨hforms.1.imp (fun hends => (hends _ hpiece).2) fun hbegins => ?_, ih hforms.2⟩
    exact hbegins _ (mem_prod_iff.mpr ⟨_, hrest, rfl⟩)

/-! ## The parts of each statement -/

section
variable {text : List Char} {name other list part : List Cell}

theorem cutsAs_createTable (h : createTableParts? (mask text) = some (name, list)) :
    CutsAs text (createTablePieces name list) :=
  cutsAs_of_mem (createTableParts?_mem h).2 (.part (endsVisibly_gap _)
    (beginClear_cons beginsVisibly_open) (.part (endsVisibly_open _)
      (beginClear_cons (beginsVisibly_close.mul_right _)) (.last _)))

theorem cutsAs_tableName (verb : String)
    (h : tableNamePart? verb.toList (mask text) = some name) :
    CutsAs text (tableNamePieces name verb) :=
  cutsAs_of_mem (tableNamePart?_mem h).2 (.part (endsVisibly_gap _)
    (beginClear_singleton beginsClear_blanks) (.last _))

theorem cutsAs_renameTable (h : renameTableParts? (mask text) = some (name, other)) :
    CutsAs text (renameTablePieces name other) :=
  cutsAs_of_mem (renameTableParts?_mem h).2.2 (.part (endsVisibly_gap _)
    (beginClear_cons ((beginsVisibly_gap.mul_right _).mul_right _)) (.part (endsVisibly_gap _)
      (beginClear_singleton beginsClear_blanks) (.last _)))

theorem cutsAs_describe (h : describePart? (mask text) = some name) :
    CutsAs text (describePieces name) :=
  cutsAs_of_mem (describePart?_mem h).2 (.part (endsVisibly_gap _)
    (beginClear_singleton beginsClear_blanks) (.last _))

theorem cutsAs_createIndex (h : createIndexParts? (mask text) = some (name, other)) :
    CutsAs text (createIndexPieces name other) :=
  cutsAs_of_mem (createIndexParts?_mem h).2.2 (.part (endsVisibly_gap _)
    (beginClear_cons (beginsVisibly_open.mul_right _)) (.part (endsVisibly_open _).mul_blanks
      (beginClear_cons (beginsVisibly_close.blanks_mul.mul_right _)) (.last _)))

theorem cutsAs_insert (h : insertParts? (mask text) = some (name, none, list)) :
    CutsAs text (insertPieces name list) :=
  cutsAs_of_mem (insertParts?_mem h).2 (.part (endsVisibly_gap _)
    (beginClear_cons (((beginsVisibly_gap.mul_right _).mul_right _).mul_right _))
    (.part (endsVisibly_open _) (beginClear_cons (beginsVisibly_close.mul_right _)) (.last _)))

theorem cutsAs_insertInto (h : insertParts? (mask text) = some (name, some part, list)) :
    CutsAs text (insertIntoPieces name list part) :=
  cutsAs_of_mem (insertParts?_some_mem h).2 (.part (endsVisibly_gap _)
    (beginClear_cons beginsVisibly_open) (.part (endsVisibly_open _)
      (beginClear_cons ((((beginsVisibly_close.mul_right _).mul_right _).mul_right _).mul_right _))
      (.part (endsVisibly_open _) (beginClear_cons (beginsVisibly_close.mul_right _)) (.last _))))

theorem cutsAs_from (h : fromPart? (mask text) = some name) : CutsAs text (fromPieces name) :=
  cutsAs_of_mem (fromPart?_mem h).2 (.part (endsVisibly_gap _)
    (beginClear_singleton beginsClear_wordEnd) (.last _))

theorem cutsAs_where (h : wherePart? (mask text) = some part) : CutsAs text (wherePieces part) :=
  cutsAs_of_mem (wherePart?_mem h) (.part ((endsVisibly_of_visible visible_where).mul_left _)
    (beginClear_singleton beginsClear_clauseEnd) (.last _))

theorem cutsAs_orderBy {direction : Option (List Cell)}
    (h : orderByParts? (mask text) = some (name, direction)) : CutsAs text (orderByPieces name) :=
  cutsAs_of_mem (orderByParts?_mem h).2 (.part (endsVisibly_gap _)
    (beginClear_singleton beginsClear_wordEnd) (.last _))

theorem cutsAs_direction (h : orderByParts? (mask text) = some (name, some part)) :
    CutsAs text (directionPieces name part) :=
  cutsAs_of_mem (orderByParts?_some_mem h) (.part (endsVisibly_gap _)
    (beginClear_cons beginsVisibly_gap) (.part (endsVisibly_of_visible visible_gap)
      (beginClear_singleton beginsClear_wordEnd) (.last _)))

theorem cutsAs_limit (h : limitPart? (mask text) = some part) : CutsAs text (limitPieces part) :=
  cutsAs_of_mem (limitPart?_mem h) (.part (endsVisibly_gap _)
    (beginClear_singleton beginsClear_wordEnd) (.last _))

theorem cutsAs_update (h : updateParts? (mask text) = some (name, list, part)) :
    CutsAs text (updatePieces name list part) :=
  cutsAs_of_mem (updateParts?_mem h).2 (.part (endsVisibly_gap _)
    (beginClear_cons ((beginsVisibly_gap.mul_right _).mul_right _)) (.part (endsVisibly_gap _)
      (beginClear_cons ((beginsVisibly_gap.mul_right _).mul_right _))
      ⟨.inl (endsVisibly_gap _), .last _⟩))

theorem cutsAs_delete (h : deleteParts? (mask text) = some (name, part)) :
    CutsAs text (deletePieces name part) :=
  cutsAs_of_mem (deleteParts?_mem h).2 (.part (endsVisibly_gap _)
    (beginClear_cons ((beginsVisibly_gap.mul_right _).mul_right _))
      ⟨.inl (endsVisibly_gap _), .last _⟩)

end

end Rowfile
