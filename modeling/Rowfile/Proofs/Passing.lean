import Rowfile.Proofs.Spans
import Rowfile.Statement.Reader

/-!
# Passing over cells

Each recogniser and each cut passes over cells that show nothing it looks for, and goes on behind
them as if they had not been there. A run of filler is such a run for all of them, since no keyword,
operator or separator contains the low line.
-/
namespace Rowfile

namespace Pattern

theorem beforeLast?_append {c : Char} {l : List Cell} (h : ∀ cell ∈ l, cell.shown ≠ c)
    (r : List Cell) : beforeLast? c (l ++ r) = (beforeLast? c r).map (l ++ ·) := by
  induction l with
  | nil => cases hr : beforeLast? c r <;> simp [hr]
  | cons cell l ih =>
    have hcell := h cell List.mem_cons_self
    rw [List.cons_append, beforeLast?, ih fun x hx => h x (List.mem_cons_of_mem _ hx)]
    cases beforeLast? c r with
    | none => simp [hcell]
    | some body => rfl

theorem beforeFirst?_append {c : Char} {l : List Cell} (h : ∀ cell ∈ l, cell.shown ≠ c)
    (r : List Cell) :
    beforeFirst? c (l ++ r) = (beforeFirst? c r).map fun cut => (l ++ cut.1, cut.2) := by
  induction l with
  | nil => cases hr : beforeFirst? c r <;> simp [hr]
  | cons cell l ih =>
    have hcell := h cell List.mem_cons_self
    rw [List.cons_append, beforeFirst?, if_neg hcell,
      ih fun x hx => h x (List.mem_cons_of_mem _ hx)]
    cases beforeFirst? c r <;> rfl

/-- Within a word nothing is looked for. -/
theorem search?_true_append {α : Type} (find? : List Cell → Option α) {l : List Cell}
    (h : ∀ cell ∈ l, cell.isWord = true) (r : List Cell) :
    search? find? true (l ++ r) = search? find? true r := by
  induction l with
  | nil => rfl
  | cons cell l ih =>
    rw [List.cons_append, search?, h cell List.mem_cons_self]
    exact ih fun x hx => h x (List.mem_cons_of_mem _ hx)

theorem search?_append {α : Type} {find? : List Cell → Option α} {l : List Cell} (hne : l ≠ [])
    (h : ∀ cell ∈ l, cell.isWord = true) {r : List Cell} (hnone : find? (l ++ r) = none)
    (wordBefore : Bool) : search? find? wordBefore (l ++ r) = search? find? true r := by
  cases l with
  | nil => exact absurd rfl hne
  | cons cell l =>
    rw [List.cons_append] at hnone ⊢
    rw [search?, hnone, ite_self, h cell List.mem_cons_self]
    exact search?_true_append find? (fun x hx => h x (List.mem_cons_of_mem _ hx)) r

/-- The blanks before a keyword stand behind the last cell of a run without blanks, or later. -/
theorem clauseAfter?_append {keyword : List Char} {l : List Cell} (hne : l ≠ [])
    (h : ∀ cell ∈ l, cell.isBlank = false) (r : List Cell) :
    clauseAfter? keyword (l ++ r) =
      match ((blanks? r).bind (keyword? keyword)).bind clause? with
      | some clause => some (l, clause)
      | none => (clauseAfter? keyword r).map fun cut => (l ++ cut.1, cut.2) := by
  induction l with
  | nil => exact absurd rfl hne
  | cons cell l ih =>
    have hcell := h cell List.mem_cons_self
    rw [List.cons_append, clauseAfter?, hcell, if_neg Bool.false_ne_true]
    cases l with
    | nil =>
      rw [List.nil_append]
      cases ((blanks? r).bind (keyword? keyword)).bind clause? <;> rfl
    | cons next l =>
      have hnext : blanks? (next :: l ++ r) = none := by
        simp [blanks?, h next (by simp)]
      rw [hnext, ih (by simp) fun x hx => h x (List.mem_cons_of_mem _ hx)]
      cases ((blanks? r).bind (keyword? keyword)).bind clause? with
      | some clause => rfl
      | none => cases clauseAfter? keyword r <;> rfl

end Pattern

theorem Statement.untilClauseEnd_append {l : List Cell} (h : ∀ cell ∈ l, cell.isBlank = false)
    (r : List Cell) : untilClauseEnd (l ++ r) = l ++ untilClauseEnd r := by
  induction l with
  | nil => rfl
  | cons cell l ih =>
    have hend : atClauseEnd (cell :: (l ++ r)) = false := by
      simp [atClauseEnd, h cell List.mem_cons_self]
    rw [List.cons_append, untilClauseEnd, hend, if_neg Bool.false_ne_true,
      ih fun x hx => h x (List.mem_cons_of_mem _ hx)]
    rfl

namespace Masked

theorem breakAt?_append {letter : Char → Char} {c : Char} (word : List Char) {l : List Cell}
    (h : ∀ cell ∈ l, letter c ≠ letter cell.shown) (r : List Cell) :
    breakAt? letter (c :: word) (l ++ r) =
      (breakAt? letter (c :: word) r).map fun cut => (l ++ cut.1, cut.2) := by
  induction l with
  | nil => cases hr : breakAt? letter (c :: word) r <;> simp [hr]
  | cons cell l ih =>
    have hstarts : starts letter (c :: word) (cell :: (l ++ r)) = false := by
      simp [starts, h cell List.mem_cons_self]
    rw [List.cons_append, breakAt?, hstarts, if_neg Bool.false_ne_true,
      ih fun x hx => h x (List.mem_cons_of_mem _ hx)]
    cases breakAt? letter (c :: word) r <;> rfl

end Masked

namespace Split

open Masked

/-- Cells that a text would be cut at are nested in parentheses, of which some may be open already. -/
def Passed (cut : Cell → Bool) : Nat → List Cell → Prop
  | _, [] => True
  | depth, cell :: l => (cut cell = true → depth ≠ 0) ∧ Passed cut (nesting depth cell) l

theorem Passed.append {cut : Cell → Bool} {depth : Nat} {l r : List Cell} (hl : Passed cut depth l)
    (hr : Passed cut (l.foldl nesting depth) r) : Passed cut depth (l ++ r) := by
  induction l generalizing depth with
  | nil => exact hr
  | cons cell l ih => exact ⟨hl.1, ih hl.2 hr⟩

theorem passed_of_forall {cut : Cell → Bool} {l : List Cell} (h : ∀ cell ∈ l, cut cell = false)
    (depth : Nat) : Passed cut depth l := by
  induction l generalizing depth with
  | nil => trivial
  | cons cell l ih =>
    obtain ⟨hcell, hl⟩ := List.forall_mem_cons.mp h
    exact ⟨fun hcut => absurd hcut (by simp [hcell]), ih hl _⟩

theorem foldl_nesting_of_forall {l : List Cell} (h : ∀ cell ∈ l, isParenthesis cell = false)
    (depth : Nat) : l.foldl nesting depth = depth := by
  induction l with
  | nil => rfl
  | cons cell l ih =>
    obtain ⟨hcell, hl⟩ := List.forall_mem_cons.mp h
    simp only [isParenthesis, Bool.or_eq_false_iff, beq_eq_false_iff_ne] at hcell
    rw [List.foldl_cons, nesting, if_neg hcell.1, if_neg hcell.2, ih hl]

theorem piecesFrom_passed {separator : Char} {depth : Nat} {l : List Cell}
    (h : Passed (fun cell => cell.shown == separator) depth l) (r : List Cell) :
    piecesFrom separator depth (l ++ r) =
      (l ++ (piecesFrom separator (l.foldl nesting depth) r).1,
        (piecesFrom separator (l.foldl nesting depth) r).2) := by
  induction l generalizing depth with
  | nil => rfl
  | cons cell l ih =>
    have hcut : (!isParenthesis cell && cell.shown == separator && depth == 0) = false := by
      rw [Bool.and_eq_false_iff, Bool.and_eq_false_iff, beq_eq_false_iff_ne (a := depth)]
      cases hcell : cell.shown == separator with
      | true => exact .inr (h.1 hcell)
      | false => exact .inl (.inr rfl)
    rw [List.cons_append, piecesFrom, hcut, if_neg Bool.false_ne_true, ih h.2]
    rfl

theorem tokensFrom_passed {depth : Nat} {l : List Cell} (h : Passed Cell.isBlank depth l)
    (r : List Cell) :
    tokensFrom depth (l ++ r) =
      (l ++ (tokensFrom (l.foldl nesting depth) r).1, (tokensFrom (l.foldl nesting depth) r).2) := by
  induction l generalizing depth with
  | nil => rfl
  | cons cell l ih =>
    have hcut : (cell.isBlank && depth == 0) = false := by
      rw [Bool.and_eq_false_iff, beq_eq_false_iff_ne]
      cases hcell : cell.isBlank with
      | true => exact .inr (h.1 hcell)
      | false => exact .inl rfl
    rw [List.cons_append, tokensFrom, hcut, if_neg Bool.false_ne_true, ih h.2]
    rfl

theorem piecesFrom_append {separator : Char} {l : List Cell}
    (h : ∀ cell ∈ l, isParenthesis cell = false ∧ cell.shown ≠ separator) (depth : Nat)
    (r : List Cell) :
    piecesFrom separator depth (l ++ r) =
      (l ++ (piecesFrom separator depth r).1, (piecesFrom separator depth r).2) := by
  have hpassed : Passed (fun cell => cell.shown == separator) depth l :=
    passed_of_forall (fun cell hcell => beq_eq_false_iff_ne.mpr (h cell hcell).2) depth
  rw [piecesFrom_passed hpassed, foldl_nesting_of_forall fun cell hcell => (h cell hcell).1]

theorem tokensFrom_append {l : List Cell}
    (h : ∀ cell ∈ l, isParenthesis cell = false ∧ cell.isBlank = false) (depth : Nat)
    (r : List Cell) :
    tokensFrom depth (l ++ r) = (l ++ (tokensFrom depth r).1, (tokensFrom depth r).2) := by
  rw [tokensFrom_passed (passed_of_forall (fun cell hcell => (h cell hcell).2) depth),
    foldl_nesting_of_forall fun cell hcell => (h cell hcell).1]

/-- Cells that show no first letter of the keyword stay, and what comes next does not follow a blank
unless the last of them shows one. -/
theorem partsFrom_append {c : Char} (keyword : List Char) {l : List Cell} (hne : l ≠ [])
    (h : ∀ cell ∈ l, c.toUpper ≠ cell.shown.toUpper ∧ isAsciiBlank cell = false)
    (blankBefore : Bool) (r : List Cell) :
    partsFrom (c :: keyword) blankBefore (.stay 0) (l ++ r) =
      (l ++ (partsFrom (c :: keyword) false (.stay 0) r).1,
        (partsFrom (c :: keyword) false (.stay 0) r).2) := by
  induction l generalizing blankBefore with
  | nil => exact absurd rfl hne
  | cons cell l ih =>
    obtain ⟨hletter, hblank⟩ := h cell List.mem_cons_self
    have hstarts : starts Char.toUpper (c :: keyword) (cell :: (l ++ r)) = false := by
      simp [starts, hletter]
    rw [List.cons_append, partsFrom, hstarts, if_neg Bool.false_ne_true, hblank]
    cases l with
    | nil => rfl
    | cons next l =>
      rw [ih (by simp) fun x hx => h x (List.mem_cons_of_mem _ hx)]
      rfl

end Split

end Rowfile
