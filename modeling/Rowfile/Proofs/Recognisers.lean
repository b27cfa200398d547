import Rowfile.Statement.Pattern
import Mathlib.Data.List.Forall2
import Mathlib.Data.List.TakeWhile

/-!
# What recognisers take

A recogniser takes its part from the front of the cells when the cells are that part and the rest.
Parts of blanks and words end where the next cell is of another kind, and a search goes through the
ends of the cells one after the other.
-/
namespace Rowfile.Pattern

variable {l r : List Cell}

abbrev Spells (word : List Char) (cells : List Cell) : Prop :=
  List.Forall₂ (fun c cell => Text.foldEq c cell.shown = true) word cells

/-- The first cells are those that satisfy `p` when the cell after them does not. -/
theorem takeWhile_eq_iff {p : Cell → Bool} {front : List Cell} :
    l.takeWhile p = front ∧ l.dropWhile p = r ↔
      l = front ++ r ∧ (∀ cell ∈ front, p cell = true) ∧ r.head?.any p = false := by
  constructor
  · rintro ⟨rfl, rfl⟩
    refine ⟨List.takeWhile_append_dropWhile.symm, fun cell hcell => List.mem_takeWhile_imp hcell, ?_⟩
    have hhead := List.head?_dropWhile_not p l
    cases hrest : (l.dropWhile p).head? with
    | none => rfl
    | some cell => simpa [hrest] using hhead
  · rintro ⟨rfl, hfront, hr⟩
    rw [List.takeWhile_append_of_pos hfront, List.dropWhile_append_of_pos hfront]
    cases r with
    | nil => simp
    | cons cell r =>
      rw [List.head?_cons, Option.any_some] at hr
      simp [hr]

theorem skipBlanks_eq_iff : skipBlanks l = r ↔
    ∃ blanks, l = blanks ++ r ∧ (∀ cell ∈ blanks, cell.isBlank = true) ∧
      r.head?.any Cell.isBlank = false :=
  ⟨fun h => ⟨_, takeWhile_eq_iff.mp ⟨rfl, h⟩⟩, fun ⟨_, h⟩ => (takeWhile_eq_iff.mpr h).2⟩

theorem blanks?_eq_some_iff : blanks? l = some r ↔
    ∃ blanks, l = blanks ++ r ∧ blanks ≠ [] ∧ (∀ cell ∈ blanks, cell.isBlank = true) ∧
      r.head?.any Cell.isBlank = false := by
  rw [blanks?]
  constructor
  · intro h
    split at h
    · next hhead =>
      obtain ⟨blanks, rfl, hblanks, hr⟩ := skipBlanks_eq_iff.mp (Option.some.inj h)
      refine ⟨blanks, rfl, ?_, hblanks, hr⟩
      rintro rfl
      rw [List.nil_append, hr] at hhead
      cases hhead
    · cases h
  · rintro ⟨blanks, rfl, hne, hblanks, hr⟩
    obtain ⟨blank, blanks, rfl⟩ := List.exists_cons_of_ne_nil hne
    rw [List.cons_append, List.head?_cons, Option.any_some, hblanks blank List.mem_cons_self,
      if_pos rfl]
    exact congrArg some (skipBlanks_eq_iff.mpr ⟨blank :: blanks, rfl, hblanks, hr⟩)

theorem keyword?_eq_some_iff {word : List Char} :
    keyword? word l = some r ↔ ∃ cells, l = cells ++ r ∧ Spells word cells := by
  induction word generalizing l with
  | nil =>
    constructor
    · intro h
      exact ⟨[], Option.some.inj h, .nil⟩
    · rintro ⟨cells, rfl, h⟩
      cases h
      rfl
  | cons c word ih =>
    cases l with
    | nil =>
      constructor
      · intro h
        cases h
      · rintro ⟨cells, hcells, h⟩
        obtain ⟨rfl, -⟩ := List.append_eq_nil_iff.mp hcells.symm
        cases h
    | cons cell l =>
      rw [keyword?]
      constructor
      · intro h
        split at h
        · next hfold =>
          obtain ⟨cells, rfl, hcells⟩ := ih.mp h
          exact ⟨cell :: cells, rfl, .cons hfold hcells⟩
        · cases h
      · rintro ⟨cells, hcells, h⟩
        cases h with
        | cons hfold hrest =>
          obtain ⟨rfl, rfl⟩ := List.cons.inj hcells
          rw [if_pos hfold]
          exact ih.mpr ⟨_, rfl, hrest⟩

theorem word?_eq_some_iff {word : List Cell} : word? l = some (word, r) ↔
    l = word ++ r ∧ word ≠ [] ∧ (∀ cell ∈ word, cell.isWord = true) ∧
      r.head?.any Cell.isWord = false := by
  constructor
  · intro h
    rw [word?] at h
    split at h
    · cases h
    · next hne =>
      obtain ⟨rfl, rfl⟩ := Prod.mk.inj (Option.some.inj h)
      obtain ⟨hl, hword, hr⟩ := takeWhile_eq_iff.mp (And.intro (Eq.refl (l.takeWhile Cell.isWord)) rfl)
      exact ⟨hl, hne, hword, hr⟩
  · rintro ⟨rfl, hne, hword, hr⟩
    obtain ⟨htake, hdrop⟩ := takeWhile_eq_iff.mpr ⟨rfl, hword, hr⟩
    rw [word?, htake, hdrop]
    cases word with
    | nil => exact absurd rfl hne
    | cons cell word => rfl

theorem number?_eq_some_iff {ds : List Cell} : number? l = some (ds, r) ↔
    l = ds ++ r ∧ ds ≠ [] ∧ (∀ cell ∈ ds, Text.isDigit cell.shown = true) ∧
      r.head?.any (fun cell => Text.isDigit cell.shown) = false := by
  constructor
  · intro h
    rw [number?] at h
    split at h
    · cases h
    · next hne =>
      obtain ⟨rfl, rfl⟩ := Prod.mk.inj (Option.some.inj h)
      obtain ⟨hl, hds, hr⟩ := takeWhile_eq_iff.mp ⟨rfl, rfl⟩
      exact ⟨hl, hne, hds, hr⟩
  · rintro ⟨rfl, hne, hds, hr⟩
    obtain ⟨htake, hdrop⟩ := takeWhile_eq_iff.mpr ⟨rfl, hds, hr⟩
    rw [number?, htake, hdrop]
    cases ds with
    | nil => exact absurd rfl hne
    | cons cell ds => rfl

theorem char?_eq_some_iff {c : Char} :
    char? c l = some r ↔ ∃ cell, l = cell :: r ∧ cell.shown = c := by
  cases l with
  | nil => simp [char?]
  | cons cell l =>
    rw [char?]
    constructor
    · intro h
      split at h
      · next hcell => exact ⟨cell, congrArg _ (Option.some.inj h), hcell⟩
      · cases h
    · rintro ⟨cell', hl, hcell⟩
      obtain ⟨rfl, rfl⟩ := List.cons.inj hl
      rw [if_pos hcell]

theorem beforeFirst?_eq_some_iff {c : Char} {body : List Cell} :
    beforeFirst? c l = some (body, r) ↔
      ∃ cell, l = body ++ cell :: r ∧ cell.shown = c ∧ ∀ x ∈ body, x.shown ≠ c := by
  induction l generalizing body with
  | nil => simp [beforeFirst?]
  | cons first l ih =>
    rw [beforeFirst?]
    by_cases hfirst : first.shown = c
    · rw [if_pos hfirst]
      constructor
      · intro h
        obtain ⟨rfl, rfl⟩ := Prod.mk.inj (Option.some.inj h)
        exact ⟨first, rfl, hfirst, fun _ hx => nomatch hx⟩
      · rintro ⟨cell, hl, hcell, hbody⟩
        cases body with
        | nil =>
          obtain ⟨rfl, rfl⟩ := List.cons.inj hl
          rfl
        | cons x body =>
          obtain ⟨rfl, -⟩ := List.cons.inj hl
          exact absurd hfirst (hbody _ List.mem_cons_self)
    · rw [if_neg hfirst]
      constructor
      · intro h
        obtain ⟨⟨body', r'⟩, hfound, heq⟩ := Option.map_eq_some_iff.mp h
        obtain ⟨rfl, rfl⟩ := Prod.mk.inj heq
        obtain ⟨cell, rfl, hcell, hbody⟩ := ih.mp hfound
        exact ⟨cell, rfl, hcell, List.forall_mem_cons.mpr ⟨hfirst, hbody⟩⟩
      · rintro ⟨cell, hl, hcell, hbody⟩
        cases body with
        | nil =>
          obtain ⟨rfl, -⟩ := List.cons.inj hl
          exact absurd hcell hfirst
        | cons x body =>
          obtain ⟨rfl, rfl⟩ := List.cons.inj hl
          rw [ih.mpr ⟨cell, rfl, hcell, fun x hx => hbody x (List.mem_cons_of_mem _ hx)⟩]
          rfl

theorem beforeLast?_eq_none_iff {c : Char} : beforeLast? c l = none ↔ ∀ x ∈ l, x.shown ≠ c := by
  induction l with
  | nil => simp [beforeLast?]
  | cons cell l ih =>
    rw [List.forall_mem_cons, beforeLast?]
    cases hrest : beforeLast? c l with
    | some body =>
      rw [hrest] at ih
      simp only [reduceCtorEq, false_iff] at ih ⊢
      exact fun h => ih h.2
    | none =>
      have hnone := ih.mp hrest
      by_cases hcell : cell.shown = c
      · simp [hcell]
      · simpa [hcell] using hnone

theorem beforeLast?_eq_some_iff {c : Char} {body : List Cell} :
    beforeLast? c l = some body ↔
      ∃ cell rest, l = body ++ cell :: rest ∧ cell.shown = c ∧ ∀ x ∈ rest, x.shown ≠ c := by
  constructor
  · intro h
    induction l generalizing body with
    | nil => cases h
    | cons first l ih =>
      rw [beforeLast?] at h
      split at h
      · next inner hinner =>
        obtain rfl := Option.some.inj h
        obtain ⟨cell, rest, rfl, hcell, hrest⟩ := ih hinner
        exact ⟨cell, rest, rfl, hcell, hrest⟩
      · next hnone =>
        split at h
        · next hfirst =>
          obtain rfl := Option.some.inj h
          exact ⟨first, l, rfl, hfirst, beforeLast?_eq_none_iff.mp hnone⟩
        · cases h
  · rintro ⟨cell, rest, rfl, hcell, hrest⟩
    induction body with
    | nil => rw [List.nil_append, beforeLast?, beforeLast?_eq_none_iff.mpr hrest, if_pos hcell]
    | cons x body ih => rw [List.cons_append, beforeLast?, ih]

/-- What a search finds stands at an end of the cells. -/
theorem exists_of_search? {α : Type} {find? : List Cell → Option α} {wordBefore : Bool} {found : α}
    (h : search? find? wordBefore l = some found) :
    ∃ front rest, l = front ++ rest ∧ find? rest = some found := by
  induction l generalizing wordBefore with
  | nil =>
    rw [search?] at h
    split at h
    · cases h
    · exact ⟨[], [], rfl, h⟩
  | cons cell l ih =>
    rw [search?] at h
    split at h
    · next hfound =>
      split at hfound
      · cases hfound
      · exact ⟨[], cell :: l, rfl, hfound.trans h⟩
    · obtain ⟨front, rest, rfl, hrest⟩ := ih h
      exact ⟨cell :: front, rest, rfl, hrest⟩

end Rowfile.Pattern
