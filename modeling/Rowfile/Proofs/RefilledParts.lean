import Rowfile.Proofs.Refilling
import Mathlib.Data.List.TakeWhile

/-!
# What is found in refilled cells

Each recogniser finds its part in both of two refilled texts or in neither, and each cut falls at the
same places. The parts and the pieces are refilled likewise. A keyword, an operator or a separator
only has to be free of the low line, which the filler shows.
-/
namespace Option.Rel

variable {α β γ δ : Type} {R : α → β → Prop} {S : γ → δ → Prop} {x : Option α} {y : Option β}

theorem both_or_neither (h : Rel R x y) :
    (∃ a b, x = .some a ∧ y = .some b ∧ R a b) ∨ (x = .none ∧ y = .none) := by
  cases h with
  | some hab => exact .inl ⟨_, _, rfl, rfl, hab⟩
  | none => exact .inr ⟨rfl, rfl⟩

theorem bind {f : α → Option γ} {g : β → Option δ} (h : Rel R x y)
    (hfg : ∀ a b, R a b → Rel S (f a) (g b)) : Rel S (x.bind f) (y.bind g) := by
  cases h with
  | some hab => exact hfg _ _ hab
  | none => exact .none

theorem isSome_eq (h : Rel R x y) : x.isSome = y.isSome := by
  cases h <;> rfl

theorem eq {x y : Option α} (h : Rel (· = ·) x y) : x = y := by
  cases h with
  | some hab => rw [hab]
  | none => rfl

end Option.Rel

namespace Rowfile

/-- The number of cells that are still to be passed. -/
def Split.Pending.count : Split.Pending → Nat
  | .stay n => n
  | .leave n => n

namespace Masked.Refilled

open Pattern

variable {w : Swap} {l m : List Cell}

abbrev Cut (w : Swap) (a b : List Cell × List Cell) : Prop :=
  Refilled w a.1 b.1 ∧ Refilled w a.2 b.2

/-! ## Keywords, words and blanks -/

theorem skipBlanks (h : Refilled w l m) : Refilled w (skipBlanks l) (skipBlanks m) :=
  h.dropWhile Text.isBlank

theorem blanks? (h : Refilled w l m) : Option.Rel (Refilled w) (blanks? l) (blanks? m) := by
  have hany : l.head?.any Cell.isBlank = m.head?.any Cell.isBlank := h.head?_any Text.isBlank
  unfold Pattern.blanks?
  rw [hany]
  split
  · exact .some h.skipBlanks
  · exact .none

/-- No letter of the word is the low line, up to case. -/
def Legible (word : List Char) : Prop := ∀ c ∈ word, Text.foldEq c '_' = false

instance (word : List Char) : Decidable (Legible word) := List.decidableBAll _ _

theorem keyword? {word : List Char} (hword : Legible word) (h : Refilled w l m) :
    Option.Rel (Refilled w) (keyword? word l) (keyword? word m) := by
  induction word generalizing l m with
  | nil => exact .some h
  | cons c word ih =>
    cases h using induction_on_runs with
    | nil => exact .none
    | plain d l m hd h =>
      simp only [Pattern.keyword?, Cell.shown_plain]
      by_cases hd : Text.foldEq c d = true
      · simpa only [hd, if_true] using ih (fun x hx => hword x (List.mem_cons_of_mem _ hx)) h
      · simpa only [hd, if_false] using .none
    | run f g l m hf hg =>
      obtain ⟨cell, rest, rfl, hcell⟩ := hf.exists_cons
      obtain ⟨cell', rest', rfl, hcell'⟩ := hg.exists_cons
      simp only [List.cons_append, Pattern.keyword?, hcell, hcell',
        hword c List.mem_cons_self, Bool.false_eq_true, if_false]
      exact .none

theorem keyword?_covered {word : List Char} (hne : word ≠ []) (hword : Legible word)
    {f : List Cell} (hf : Covered f) (l : List Cell) : Pattern.keyword? word (f ++ l) = none := by
  obtain ⟨cell, rest, rfl, hcell⟩ := hf.exists_cons
  cases word with
  | nil => exact absurd rfl hne
  | cons c word => simp [Pattern.keyword?, hcell, hword c List.mem_cons_self]

theorem keywords? {first second : List Char} (hfirst : Legible first) (hsecond : Legible second)
    (h : Refilled w l m) :
    Option.Rel (Refilled w) (keywords? first second l) (keywords? first second m) :=
  (h.keyword? hfirst).bind fun _ _ hr => hr.blanks?.bind fun _ _ hr => hr.keyword? hsecond

theorem word? (h : Refilled w l m) : Option.Rel (Cut w) (word? l) (word? m) := by
  have htake : Refilled w (l.takeWhile Cell.isWord) (m.takeWhile Cell.isWord) :=
    h.takeWhile Text.isWord
  have hdrop : Refilled w (l.dropWhile Cell.isWord) (m.dropWhile Cell.isWord) :=
    h.dropWhile Text.isWord
  have hnil := htake.length_eq_zero_iff
  unfold Pattern.word?
  generalize l.takeWhile Cell.isWord = a at htake hnil
  generalize m.takeWhile Cell.isWord = b at htake hnil
  cases a with
  | nil =>
    rw [hnil.mp rfl]
    exact .none
  | cons cell a =>
    cases b with
    | nil => exact absurd (hnil.mpr rfl) (List.cons_ne_nil _ _)
    | cons cell' b => exact .some ⟨htake, hdrop⟩

theorem number? (h : Refilled w l m) :
    Option.Rel (fun a b => a.1 = b.1 ∧ Refilled w a.1 b.1 ∧ Refilled w a.2 b.2)
      (number? l) (number? m) := by
  have heq := h.takeWhile_eq (p := Text.isDigit) (by decide)
  have htake := h.takeWhile Text.isDigit
  have hdrop := h.dropWhile Text.isDigit
  unfold Pattern.number?
  dsimp only
  rw [← heq] at htake ⊢
  generalize l.takeWhile (fun cell => Text.isDigit cell.shown) = a at htake
  cases a with
  | nil => exact .none
  | cons cell a => exact .some ⟨rfl, htake, hdrop⟩

theorem char? {c : Char} (hc : c ≠ '_') (h : Refilled w l m) :
    Option.Rel (Refilled w) (char? c l) (char? c m) := by
  cases h using induction_on_runs with
  | nil => exact .none
  | plain d l m hd h =>
    simp only [Pattern.char?, Cell.shown_plain]
    by_cases hd : d = c
    · simpa only [hd, if_true] using .some h
    · simpa only [hd, if_false] using .none
  | run f g l m hf hg =>
    obtain ⟨cell, rest, rfl, hcell⟩ := hf.exists_cons
    obtain ⟨cell', rest', rfl, hcell'⟩ := hg.exists_cons
    simp only [List.cons_append, Pattern.char?, hcell, hcell', hc.symm, if_false]
    exact .none

theorem atWordEnd (h : Refilled w l m) : atWordEnd l = atWordEnd m := by
  have hany : l.head?.any Cell.isWord = m.head?.any Cell.isWord := h.head?_any Text.isWord
  rw [Pattern.atWordEnd, Pattern.atWordEnd, hany]

/-! ## Bodies and clauses -/

theorem beforeLast? {c : Char} (hc : c ≠ '_') (h : Refilled w l m) :
    Option.Rel (Refilled w) (beforeLast? c l) (beforeLast? c m) := by
  induction h using induction_on_runs with
  | nil => exact .none
  | plain d l m hd h ih =>
    simp only [Pattern.beforeLast?, Cell.shown_plain]
    obtain ⟨a, b, ha, hb, hab⟩ | ⟨ha, hb⟩ := ih.both_or_neither
    · rw [ha, hb]
      exact .some (.plain hd hab)
    · rw [ha, hb]
      by_cases hc : d = c
      · simpa only [hc, if_true] using .some .nil
      · simpa only [hc, if_false] using .none
  | run f g l m hf hg wrap h ih =>
    rw [beforeLast?_append fun x hx => by rw [hf.shown x hx]; exact hc.symm,
      beforeLast?_append fun x hx => by rw [hg.shown x hx]; exact hc.symm]
    have hwrap := wrap (fun l => (Pattern.beforeLast? c l).getD []) rfl
    obtain ⟨a, b, ha, hb, hab⟩ | ⟨ha, hb⟩ := ih.both_or_neither
    · simp only [ha, hb] at hwrap ⊢
      exact .some (hwrap hab)
    · rw [ha, hb]
      exact .none

theorem outerBody? (h : Refilled w l m) :
    Option.Rel (Refilled w) (outerBody? l) (outerBody? m) :=
  (h.char? (c := '(') (by decide)).bind fun _ _ hr => hr.beforeLast? (c := ')') (by decide)

/-- A cut of refilled cells may be moved behind runs of filler. -/
theorem cut_append {f g : List Cell} {cut? : List Cell → Option (List Cell × List Cell)}
    (hnil : ((cut? []).map Prod.fst).getD [] = [])
    (wrap : ∀ part : List Cell → List Cell, part [] = [] → Refilled w (part l) (part m) →
      Refilled w (f ++ part l) (g ++ part m))
    (h : Option.Rel (Cut w) (cut? l) (cut? m)) :
    Option.Rel (Cut w) ((cut? l).map fun cut => (f ++ cut.1, cut.2))
      ((cut? m).map fun cut => (g ++ cut.1, cut.2)) := by
  have hwrap := wrap (fun l => ((cut? l).map Prod.fst).getD []) hnil
  obtain ⟨a, b, ha, hb, hab⟩ | ⟨ha, hb⟩ := h.both_or_neither
  · simp only [ha, hb] at hwrap ⊢
    exact .some ⟨hwrap hab.1, hab.2⟩
  · rw [ha, hb]
    exact .none

theorem beforeFirst? {c : Char} (hc : c ≠ '_') (h : Refilled w l m) :
    Option.Rel (Cut w) (beforeFirst? c l) (beforeFirst? c m) := by
  induction h using induction_on_runs with
  | nil => exact .none
  | plain d l m hd h ih =>
    simp only [Pattern.beforeFirst?, Cell.shown_plain]
    by_cases hc : d = c
    · simpa only [hc, if_true] using .some ⟨.nil, h⟩
    · simp only [hc, if_false]
      obtain ⟨a, b, ha, hb, hab⟩ | ⟨ha, hb⟩ := ih.both_or_neither
      · rw [ha, hb]
        exact .some ⟨.plain hd hab.1, hab.2⟩
      · rw [ha, hb]
        exact .none
  | run f g l m hf hg wrap h ih =>
    rw [beforeFirst?_append fun x hx => by rw [hf.shown x hx]; exact hc.symm,
      beforeFirst?_append fun x hx => by rw [hg.shown x hx]; exact hc.symm]
    exact cut_append rfl wrap ih

theorem clause? (h : Refilled w l m) : Option.Rel (Refilled w) (clause? l) (clause? m) := by
  have heq : l.takeWhile Cell.isBlank = m.takeWhile Cell.isBlank :=
    h.takeWhile_eq (p := Text.isBlank) (by decide)
  have hrest := h.skipBlanks
  have hnil := hrest.length_eq_zero_iff
  have hblank : ∀ cell ∈ l.takeWhile Cell.isBlank, cell.isBlank = true := fun _ hc =>
    List.mem_takeWhile_imp hc
  unfold Pattern.clause?
  rw [← heq]
  generalize Pattern.skipBlanks l = a at hrest hnil
  generalize Pattern.skipBlanks m = b at hrest hnil
  generalize l.takeWhile Cell.isBlank = blanks at hblank
  cases blanks with
  | nil => exact .none
  | cons first blanks =>
    cases a with
    | cons cell a =>
      cases b with
      | cons cell' b => exact .some hrest
      | nil => exact absurd (hnil.mpr rfl) (List.cons_ne_nil _ _)
    | nil =>
      rw [hnil.mp rfl]
      cases blanks with
      | nil => exact .none
      | cons blank blanks =>
        refine .some (.of_blanks w fun cell hcell => hblank cell ?_)
        exact List.mem_cons_of_mem _ (List.mem_of_mem_drop hcell)

/-- A keyword behind blanks, with a clause. -/
theorem keywordClause? {keyword : List Char} (hkeyword : Legible keyword) (h : Refilled w l m) :
    Option.Rel (Refilled w) (((Pattern.blanks? l).bind (Pattern.keyword? keyword)).bind Pattern.clause?)
      (((Pattern.blanks? m).bind (Pattern.keyword? keyword)).bind Pattern.clause?) :=
  (h.blanks?.bind fun _ _ hr => hr.keyword? hkeyword).bind fun _ _ hr => hr.clause?

theorem clauseAfter? {keyword : List Char} (hkeyword : Legible keyword) (h : Refilled w l m) :
    Option.Rel (Cut w) (clauseAfter? keyword l) (clauseAfter? keyword m) := by
  induction h using induction_on_runs with
  | nil => exact .none
  | plain c l m hc h ih =>
    rw [Pattern.clauseAfter?, Pattern.clauseAfter?]
    have hfound : Option.Rel (Refilled w)
        (if (Cell.plain c).isBlank = true then none
          else ((Pattern.blanks? l).bind (Pattern.keyword? keyword)).bind Pattern.clause?)
        (if (Cell.plain c).isBlank = true then none
          else ((Pattern.blanks? m).bind (Pattern.keyword? keyword)).bind Pattern.clause?) := by
      by_cases hblank : (Cell.plain c).isBlank = true
      · simpa only [hblank, if_true] using .none
      · simpa only [hblank, Bool.false_eq_true, if_false] using h.keywordClause? hkeyword
    obtain ⟨a, b, ha, hb, hab⟩ | ⟨ha, hb⟩ := hfound.both_or_neither
    · rw [ha, hb]
      exact .some ⟨.plain hc .nil, hab⟩
    · rw [ha, hb]
      obtain ⟨a, b, ha, hb, hab⟩ | ⟨ha, hb⟩ := ih.both_or_neither
      · rw [ha, hb]
        exact .some ⟨.plain hc hab.1, hab.2⟩
      · rw [ha, hb]
        exact .none
  | run f g l m hf hg wrap h ih =>
    rw [clauseAfter?_append hf.nonempty fun x hx => by rw [Cell.isBlank, hf.shown x hx]; decide,
      clauseAfter?_append hg.nonempty fun x hx => by rw [Cell.isBlank, hg.shown x hx]; decide]
    obtain ⟨a, b, ha, hb, hab⟩ | ⟨ha, hb⟩ := (h.keywordClause? hkeyword).both_or_neither
    · rw [ha, hb]
      have hrun := wrap (fun _ => []) rfl .nil
      simp only [List.append_nil] at hrun
      exact .some ⟨hrun, hab⟩
    · rw [ha, hb]
      exact cut_append rfl wrap ih

theorem search? {α : Type} {S : α → α → Prop} {find? : List Cell → Option α}
    (hfind : ∀ l m, Refilled w l m → Option.Rel S (find? l) (find? m))
    (hrun : ∀ f l, Covered f → find? (f ++ l) = none) (h : Refilled w l m) (wordBefore : Bool) :
    Option.Rel S (search? find? wordBefore l) (search? find? wordBefore m) := by
  induction h using induction_on_runs generalizing wordBefore with
  | nil =>
    unfold Pattern.search?
    cases wordBefore with
    | true => exact .none
    | false => exact hfind _ _ .nil
  | plain c l m hc h ih =>
    rw [Pattern.search?, Pattern.search?]
    have hfound : Option.Rel S (if wordBefore = true then none else find? (.plain c :: l))
        (if wordBefore = true then none else find? (.plain c :: m)) := by
      cases wordBefore with
      | true => exact .none
      | false => exact hfind _ _ (.plain hc h)
    obtain ⟨a, b, ha, hb, hab⟩ | ⟨ha, hb⟩ := hfound.both_or_neither
    · rw [ha, hb]
      exact .some hab
    · rw [ha, hb]
      exact ih _
  | run f g l m hf hg wrap h ih =>
    rw [search?_append hf.nonempty (fun x hx => by rw [Cell.isWord, hf.shown x hx]; decide)
        (hrun f l hf),
      search?_append hg.nonempty (fun x hx => by rw [Cell.isWord, hg.shown x hx]; decide)
        (hrun g m hg)]
    exact ih true

/-! ## Cuts -/

/-- The number of cells in front of the first one that shows the low line. -/
def legibleCells (cells : List Cell) : Nat :=
  (cells.takeWhile fun cell => cell.shown != '_').length

theorem legibleCells_covered {f : List Cell} (hf : Covered f) (l : List Cell) :
    legibleCells (f ++ l) = 0 := by
  have htake := hf.takeWhile_append (· != '_') l
  rw [legibleCells, htake]
  rfl

theorem le_legibleCells_of_succ {n : Nat} {cell : Cell} {cells : List Cell}
    (h : n + 1 ≤ legibleCells (cell :: cells)) : n ≤ legibleCells cells := by
  by_cases hcell : (cell.shown != '_') = true
  · simp only [legibleCells, List.takeWhile_cons, hcell, if_true, List.length_cons] at h ⊢
    omega
  · simp [legibleCells, hcell] at h

theorem drop (h : Refilled w l m) {n : Nat} (hn : n ≤ legibleCells l) :
    Refilled w (l.drop n) (m.drop n) := by
  induction h using induction_on_runs generalizing n with
  | nil => simpa using .nil
  | plain c l m hc h ih =>
    cases n with
    | zero => exact .plain hc h
    | succ n => exact ih (le_legibleCells_of_succ hn)
  | run f g l m hf hg wrap h ih =>
    rw [legibleCells_covered hf] at hn
    obtain rfl : n = 0 := by omega
    exact wrap id rfl h

/-- No letter of the word becomes what the low line becomes. -/
def Plain (letter : Char → Char) (word : List Char) : Prop := ∀ c ∈ word, letter c ≠ letter '_'

instance (letter : Char → Char) (word : List Char) : Decidable (Plain letter word) :=
  List.decidableBAll _ _

theorem length_le_legibleCells {letter : Char → Char} {word : List Char}
    (hword : Plain letter word) {cells : List Cell} (h : starts letter word cells = true) :
    word.length ≤ legibleCells cells := by
  induction word generalizing cells with
  | nil => exact Nat.zero_le _
  | cons c word ih =>
    cases cells with
    | nil => cases h
    | cons cell cells =>
      simp only [starts, Bool.and_eq_true, beq_iff_eq] at h
      have hcell : cell.shown ≠ '_' := by
        intro he
        exact hword c List.mem_cons_self (he ▸ h.1)
      have hrest := ih (fun x hx => hword x (List.mem_cons_of_mem _ hx)) h.2
      simp only [legibleCells, List.takeWhile_cons, bne_iff_ne, ne_eq, hcell, not_false_eq_true,
        if_true, List.length_cons] at hrest ⊢
      omega

theorem starts_eq {letter : Char → Char} {word : List Char} (hword : Plain letter word)
    (h : Refilled w l m) : starts letter word l = starts letter word m := by
  induction word generalizing l m with
  | nil => rfl
  | cons c word ih =>
    cases h using induction_on_runs with
    | nil => rfl
    | plain d l m hd h =>
      rw [starts, starts, ih (fun x hx => hword x (List.mem_cons_of_mem _ hx)) h]
    | run f g l m hf hg =>
      obtain ⟨cell, rest, rfl, hcell⟩ := hf.exists_cons
      obtain ⟨cell', rest', rfl, hcell'⟩ := hg.exists_cons
      have hletter : (letter c == letter '_') = false :=
        beq_eq_false_iff_ne.mpr (hword c List.mem_cons_self)
      simp [starts, hcell, hcell', hletter]

theorem breakAt? {letter : Char → Char} {c : Char} {word : List Char}
    (hword : Plain letter (c :: word)) (h : Refilled w l m) :
    Option.Rel (Cut w) (breakAt? letter (c :: word) l) (breakAt? letter (c :: word) m) := by
  induction h using induction_on_runs with
  | nil => exact .none
  | plain d l m hd h ih =>
    have hcells : Refilled w (.plain d :: l) (.plain d :: m) := .plain hd h
    rw [Masked.breakAt?, Masked.breakAt?, ← hcells.starts_eq hword]
    by_cases hstarts : starts letter (c :: word) (.plain d :: l) = true
    · rw [hstarts, if_pos rfl, if_pos rfl]
      exact .some ⟨.nil, hcells.drop (length_le_legibleCells hword hstarts)⟩
    · rw [if_neg hstarts, if_neg hstarts]
      obtain ⟨a, b, ha, hb, hab⟩ | ⟨ha, hb⟩ := ih.both_or_neither
      · rw [ha, hb]
        exact .some ⟨.plain hd hab.1, hab.2⟩
      · rw [ha, hb]
        exact .none
  | run f g l m hf hg wrap h ih =>
    have hletter := hword c List.mem_cons_self
    rw [breakAt?_append word fun x hx => by rw [hf.shown x hx]; exact hletter,
      breakAt?_append word fun x hx => by rw [hg.shown x hx]; exact hletter]
    exact cut_append rfl wrap ih

abbrev Pieces (w : Swap) (a b : List Cell × List (List Cell)) : Prop :=
  Refilled w a.1 b.1 ∧ List.Forall₂ (Refilled w) a.2 b.2

open Split

theorem piecesFrom {separator : Char} (hseparator : separator ≠ '_') (h : Refilled w l m)
    (depth : Nat) :
    Pieces w (piecesFrom separator depth l) (piecesFrom separator depth m) := by
  induction h using induction_on_runs generalizing depth with
  | nil => exact ⟨.nil, .nil⟩
  | plain c l m hc h ih =>
    rw [Split.piecesFrom, Split.piecesFrom]
    by_cases hcut : (!isParenthesis (.plain c) && (Cell.plain c).shown == separator &&
        depth == 0) = true
    · simp only [hcut, if_true]
      exact ⟨.nil, .cons (ih 0).1 (ih 0).2⟩
    · simp only [hcut, Bool.false_eq_true, if_false]
      exact ⟨.plain hc (ih _).1, (ih _).2⟩
  | run f g l m hf hg wrap h ih =>
    have hpass : ∀ cell : Cell, cell.shown = '_' →
        isParenthesis cell = false ∧ cell.shown ≠ separator := by
      intro cell hcell
      rw [isParenthesis, hcell]
      exact ⟨rfl, hseparator.symm⟩
    rw [piecesFrom_append fun x hx => hpass x (hf.shown x hx),
      piecesFrom_append fun x hx => hpass x (hg.shown x hx)]
    exact ⟨wrap (fun l => (Split.piecesFrom separator depth l).1) rfl (ih depth).1, (ih depth).2⟩

/-- Where nothing is pending, an occurrence that begins at a plain cell begins in both texts and separates in
both, if the cells behind are cut likewise whatever is pending there. -/
theorem partsFrom_begin {c d : Char} {keyword : List Char} (hword : Plain Char.toUpper (c :: keyword))
    (hd : isQuote d = false) (h : Refilled w l m)
    (hrest : ∀ blankBefore pending, Pending.count pending ≤ legibleCells l →
      Pieces w (partsFrom (c :: keyword) blankBefore pending l)
        (partsFrom (c :: keyword) blankBefore pending m)) (blankBefore : Bool) :
    Pieces w (partsFrom (c :: keyword) blankBefore (.stay 0) (.plain d :: l))
      (partsFrom (c :: keyword) blankBefore (.stay 0) (.plain d :: m)) := by
  have hcells : Refilled w (.plain d :: l) (.plain d :: m) := .plain hd h
  rw [Split.partsFrom, Split.partsFrom, ← hcells.starts_eq hword]
  by_cases hstarts : starts Char.toUpper (c :: keyword) (.plain d :: l) = true
  · have hlength := length_le_legibleCells hword hstarts
    have hpending : (c :: keyword).length - 1 ≤ legibleCells l := le_legibleCells_of_succ hlength
    have hnext : (((Cell.plain d :: l).drop (c :: keyword).length).head?.any isAsciiBlank) =
        ((Cell.plain d :: m).drop (c :: keyword).length).head?.any isAsciiBlank :=
      (hcells.drop hlength).head?_any Text.isAsciiBlank
    rw [if_pos hstarts, if_pos hstarts, ← hnext]
    by_cases hcut : (blankBefore &&
        ((Cell.plain d :: l).drop (c :: keyword).length).head?.any isAsciiBlank) = true
    · rw [if_pos hcut, if_pos hcut]
      have hparts := hrest (isAsciiBlank (.plain d)) (.leave _) hpending
      exact ⟨.nil, .cons hparts.1 hparts.2⟩
    · rw [if_neg hcut, if_neg hcut]
      have hparts := hrest (isAsciiBlank (.plain d)) (.stay _) hpending
      exact ⟨.plain hd hparts.1, hparts.2⟩
  · rw [if_neg hstarts, if_neg hstarts]
    have hparts := hrest (isAsciiBlank (.plain d)) (.stay 0) (Nat.zero_le _)
    exact ⟨.plain hd hparts.1, hparts.2⟩

/-- The cells of an occurrence that has begun are all still in front of the next filler. -/
theorem partsFrom {c : Char} {keyword : List Char} (hword : Plain Char.toUpper (c :: keyword))
    (h : Refilled w l m) (blankBefore : Bool) (pending : Pending)
    (hpending : pending.count ≤ legibleCells l) :
    Pieces w (partsFrom (c :: keyword) blankBefore pending l)
      (partsFrom (c :: keyword) blankBefore pending m) := by
  induction h using induction_on_runs generalizing blankBefore pending with
  | nil => exact ⟨.nil, .nil⟩
  | plain d l m hd h ih =>
    have hbegin := partsFrom_begin hword hd h ih blankBefore
    cases pending with
    | stay n =>
      cases n with
      | zero => exact hbegin
      | succ n =>
        have hrest := ih (isAsciiBlank (.plain d)) (.stay n)
          (le_legibleCells_of_succ hpending)
        exact ⟨.plain hd hrest.1, hrest.2⟩
    | leave n =>
      cases n with
      | zero => exact hbegin
      | succ n =>
        exact ih (isAsciiBlank (.plain d)) (.leave n) (le_legibleCells_of_succ hpending)
  | run f g l m hf hg wrap h ih =>
    rw [legibleCells_covered hf] at hpending
    have hpass : ∀ cell : Cell, cell.shown = '_' →
        c.toUpper ≠ cell.shown.toUpper ∧ isAsciiBlank cell = false := by
      intro cell hcell
      rw [isAsciiBlank, hcell]
      exact ⟨hword c List.mem_cons_self, rfl⟩
    have hbegin : Pieces w (Split.partsFrom (c :: keyword) blankBefore (.stay 0) (f ++ l))
        (Split.partsFrom (c :: keyword) blankBefore (.stay 0) (g ++ m)) := by
      rw [partsFrom_append keyword hf.nonempty fun x hx => hpass x (hf.shown x hx),
        partsFrom_append keyword hg.nonempty fun x hx => hpass x (hg.shown x hx)]
      have hrest := ih false (.stay 0) (Nat.zero_le _)
      exact ⟨wrap (fun l => (Split.partsFrom (c :: keyword) false (.stay 0) l).1) rfl hrest.1,
        hrest.2⟩
    cases pending with
    | stay n =>
      obtain rfl : n = 0 := Nat.le_zero.mp hpending
      exact hbegin
    | leave n =>
      obtain rfl : n = 0 := Nat.le_zero.mp hpending
      obtain ⟨cell, rest, rfl, _⟩ := hf.exists_cons
      obtain ⟨cell', rest', rfl, _⟩ := hg.exists_cons
      exact hbegin

end Masked.Refilled

end Rowfile
