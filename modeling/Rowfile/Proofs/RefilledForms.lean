import Rowfile.Proofs.RefilledParts

/-!
# The forms of refilled statements

The recognisers of the four statements on records find the same parts in both of two refilled texts.
The clauses of a SELECT are searched for at every place that no word character precedes, and a run of
filler neither begins with a keyword nor ends a word, so the searches pass it over. An order, a limit
and a direction stand in plain text and are the same in both.
-/
namespace Rowfile.Masked.Refilled

open Pattern Statement

variable {w : Swap} {l m : List Cell}

theorem any_eq (h : Refilled w l m) {p : Char → Bool} (hp : p '_' = false) :
    l.any (fun cell => p cell.shown) = m.any fun cell => p cell.shown := by
  have hcovered : ∀ f : List Cell, Covered f → f.any (fun cell => p cell.shown) = false := by
    intro f hf
    rw [List.any_eq_false]
    intro cell hcell
    rw [hf.shown cell hcell, hp]
    exact Bool.false_ne_true
  induction h using induction_on_runs with
  | nil => rfl
  | plain c l m hc h ih => rw [List.any_cons, List.any_cons, ih]
  | run f g l m hf hg wrap h ih =>
    rw [List.any_append, List.any_append, hcovered f hf, hcovered g hg, ih]

/-! ## INSERT, UPDATE and DELETE -/

theorem insertParts? (h : Refilled w l m) :
    Option.Rel (fun a b => Refilled w a.1 b.1 ∧ Option.Rel (Refilled w) a.2.1 b.2.1 ∧
      Refilled w a.2.2 b.2.2) (insertParts? l) (insertParts? m) := by
  refine (h.skipBlanks.keywords? (by decide) (by decide)).bind fun r r' hr => ?_
  refine (hr.blanks?.bind fun _ _ hr => hr.word?).bind fun ⟨name, r⟩ ⟨name', r'⟩ ⟨hname, hr⟩ => ?_
  have hlist := (hr.skipBlanks.char? (c := '(') (by decide)).bind
    fun _ _ hr => hr.beforeFirst? (c := ')') (by decide)
  dsimp only at hname hr hlist ⊢
  obtain ⟨⟨columns, r⟩, ⟨columns', r'⟩, ha, hb, hcut⟩ | ⟨ha, hb⟩ := hlist.both_or_neither
  · simp only [ha, hb]
    refine (hcut.2.blanks?.bind fun _ _ hr => hr.keyword? (by decide)).bind fun r r' hr => ?_
    refine hr.skipBlanks.outerBody?.bind fun values values' hvalues => ?_
    exact .some ⟨hname, .some hcut.1, hvalues⟩
  · simp only [ha, hb]
    refine (hr.blanks?.bind fun _ _ hr => hr.keyword? (by decide)).bind fun r r' hr => ?_
    refine hr.skipBlanks.outerBody?.bind fun values values' hvalues => ?_
    exact .some ⟨hname, .none, hvalues⟩

theorem updateParts? (h : Refilled w l m) :
    Option.Rel (fun a b => Refilled w a.1 b.1 ∧ Refilled w a.2.1 b.2.1 ∧ Refilled w a.2.2 b.2.2)
      (updateParts? l) (updateParts? m) := by
  refine ((h.skipBlanks.keyword? (by decide)).bind fun _ _ hr => hr.blanks?).bind
    fun r r' hr => ?_
  refine hr.word?.bind fun ⟨name, r⟩ ⟨name', r'⟩ ⟨hname, hr⟩ => ?_
  refine (hr.blanks?.bind fun _ _ hr => hr.keyword? (by decide)).bind fun r r' hr => ?_
  have hgap : r.takeWhile Cell.isBlank = r'.takeWhile Cell.isBlank :=
    hr.takeWhile_eq (p := Text.isBlank) (by decide)
  have hblank : ∀ cell ∈ r.takeWhile Cell.isBlank, cell.isBlank = true := fun _ hc =>
    List.mem_takeWhile_imp hc
  have hclauses := hr.skipBlanks.clauseAfter? (by decide : Legible "WHERE".toList)
  have hclause := (hr.skipBlanks.keyword? (by decide : Legible "WHERE".toList)).bind
    fun _ _ hr => hr.clause?
  dsimp only at hname ⊢
  rw [← hgap]
  generalize r.takeWhile Cell.isBlank = gap at hblank
  obtain ⟨a, b, ha, hb, hcut⟩ | ⟨ha, hb⟩ := hclauses.both_or_neither
  · rw [ha, hb]
    cases gap with
    | nil => exact .none
    | cons first gap => exact .some ⟨hname, hcut.1, hcut.2⟩
  · rw [ha, hb]
    match gap with
    | [] | [_] | [_, _] => exact .none
    | first :: blank :: third :: gap =>
      refine hclause.bind fun filter filter' hfilter => .some ⟨hname, ?_, hfilter⟩
      exact .of_blanks w fun cell hcell => hblank cell (by simp_all)

theorem deleteParts? (h : Refilled w l m) :
    Option.Rel (Cut w) (deleteParts? l) (deleteParts? m) := by
  refine (h.skipBlanks.keywords? (by decide) (by decide)).bind fun r r' hr => ?_
  refine (hr.blanks?.bind fun _ _ hr => hr.word?).bind fun ⟨name, r⟩ ⟨name', r'⟩ ⟨hname, hr⟩ => ?_
  refine (hr.keywordClause? (by decide)).bind fun filter filter' hfilter => ?_
  exact .some ⟨hname, hfilter⟩

/-! ## The clauses of a SELECT -/

/-- What a keyword at the front begins is found in both or in neither, and never at a filler. -/
theorem search?_keyword {α : Type} {S : α → α → Prop} {word : List Char} (hne : word ≠ [])
    (hword : Legible word) {next? : List Cell → Option α}
    (hnext : ∀ l m, Refilled w l m → Option.Rel S (next? l) (next? m)) (h : Refilled w l m) :
    Option.Rel S
      (Pattern.search? (fun cells => (Pattern.keyword? word cells).bind next?) false l)
      (Pattern.search? (fun cells => (Pattern.keyword? word cells).bind next?) false m) :=
  h.search? (fun _ _ h => (h.keyword? hword).bind hnext)
    (fun f l hf => by rw [keyword?_covered hne hword hf, Option.bind_none]) false

theorem fromPart? (h : Refilled w l m) :
    Option.Rel (Refilled w) (fromPart? l) (fromPart? m) := by
  simp only [Statement.fromPart?, Option.bind_assoc]
  refine search?_keyword (by decide) (by decide) (fun l m h => h.blanks?.bind fun r r' hr => ?_) h
  obtain ⟨a, b, ha, hb, hcut⟩ | ⟨ha, hb⟩ := hr.word?.both_or_neither
  · rw [ha, hb]
    exact .some hcut.1
  · rw [ha, hb]
    exact .none

theorem wholeKeyword? {word : List Char} (hword : Legible word) (h : Refilled w l m) :
    Option.Rel (Refilled w) (wholeKeyword? word l) (wholeKeyword? word m) := by
  unfold Statement.wholeKeyword?
  obtain ⟨a, b, ha, hb, hab⟩ | ⟨ha, hb⟩ := (h.keyword? hword).both_or_neither
  · rw [ha, hb, Option.filter_some, Option.filter_some, hab.atWordEnd]
    split
    · exact .some hab
    · exact .none
  · rw [ha, hb]
    exact .none

theorem wholeKeyword?_covered {word : List Char} (hne : word ≠ []) (hword : Legible word)
    {f : List Cell} (hf : Covered f) (l : List Cell) :
    Statement.wholeKeyword? word (f ++ l) = none := by
  rw [Statement.wholeKeyword?, keyword?_covered hne hword hf, Option.filter_none]

theorem atOrderBy (h : Refilled w l m) : atOrderBy l = atOrderBy m := by
  have hwords := h.keywords? (by decide : Legible "ORDER".toList) (by decide : Legible "BY".toList)
  unfold Statement.atOrderBy
  obtain ⟨a, b, ha, hb, hab⟩ | ⟨ha, hb⟩ := hwords.both_or_neither
  · rw [ha, hb, Option.any_some, Option.any_some, hab.atWordEnd]
  · rw [ha, hb]

theorem atClauseEnd (h : Refilled w l m) : atClauseEnd l = atClauseEnd m := by
  cases h using induction_on_runs with
  | nil => rfl
  | plain c l m hc h =>
    rw [Statement.atClauseEnd, Statement.atClauseEnd, h.atOrderBy,
      (h.wholeKeyword? (by decide)).isSome_eq]
  | run f g l m hf hg =>
    obtain ⟨cell, rest, rfl, hcell⟩ := hf.exists_cons
    obtain ⟨cell', rest', rfl, hcell'⟩ := hg.exists_cons
    simp [Statement.atClauseEnd, Cell.isBlank, hcell, hcell']

theorem untilClauseEnd (h : Refilled w l m) :
    Refilled w (untilClauseEnd l) (untilClauseEnd m) := by
  induction h using induction_on_runs with
  | nil => exact .nil
  | plain c l m hc h ih =>
    rw [Statement.untilClauseEnd, Statement.untilClauseEnd, (Refilled.plain hc h).atClauseEnd]
    split
    · exact .nil
    · exact .plain hc ih
  | run f g l m hf hg wrap h ih =>
    rw [untilClauseEnd_append fun x hx => by rw [Cell.isBlank, hf.shown x hx]; decide,
      untilClauseEnd_append fun x hx => by rw [Cell.isBlank, hg.shown x hx]; decide]
    exact wrap Statement.untilClauseEnd rfl ih

theorem wherePart? (h : Refilled w l m) :
    Option.Rel (Refilled w) (wherePart? l) (wherePart? m) := by
  have hfound := h.search? (fun _ _ h => h.wholeKeyword? (by decide : Legible "WHERE".toList))
    (fun f l hf => wholeKeyword?_covered (by decide) (by decide) hf l) false
  unfold Statement.wherePart?
  obtain ⟨a, b, ha, hb, hab⟩ | ⟨ha, hb⟩ := hfound.both_or_neither
  · rw [ha, hb]
    exact .some hab.untilClauseEnd
  · rw [ha, hb]
    exact .none

theorem mentionsOrderBy (h : Refilled w l m) : mentionsOrderBy l = mentionsOrderBy m := by
  refine (h.search? (S := fun _ _ => True) (fun l m h => ?_) (fun f l hf => ?_) false).isSome_eq
  · rw [h.atOrderBy]
    split
    · exact .some trivial
    · exact .none
  · rw [Statement.atOrderBy, Pattern.keywords?, keyword?_covered (by decide) (by decide) hf]
    rfl

theorem length_le_of_keyword? {word : List Char} (hword : Legible word) {cells r : List Cell}
    (h : Pattern.keyword? word cells = some r) : word.length ≤ legibleCells cells := by
  induction word generalizing cells with
  | nil => exact Nat.zero_le _
  | cons c word ih =>
    cases cells with
    | nil => cases h
    | cons cell cells =>
      rw [Pattern.keyword?] at h
      split at h
      · next hfold =>
        have hcell : cell.shown ≠ '_' := by
          intro he
          rw [he, hword c List.mem_cons_self] at hfold
          exact Bool.false_ne_true hfold
        have hrest := ih (fun x hx => hword x (List.mem_cons_of_mem _ hx)) h
        simp only [legibleCells, List.takeWhile_cons, bne_iff_ne, ne_eq, hcell, not_false_eq_true,
          if_true, List.length_cons] at hrest ⊢
        omega
      · cases h

theorem take_eq (h : Refilled w l m) {n : Nat} (hn : n ≤ legibleCells l) : l.take n = m.take n := by
  induction h using induction_on_runs generalizing n with
  | nil => rfl
  | plain c l m hc h ih =>
    cases n with
    | zero => rfl
    | succ n => rw [List.take_succ_cons, List.take_succ_cons, ih (le_legibleCells_of_succ hn)]
  | run f g l m hf hg wrap h ih =>
    rw [legibleCells_covered hf] at hn
    obtain rfl : n = 0 := by omega
    rfl

/-- A direction stands in plain text. -/
theorem directionPart?_eq (h : Refilled w l m) : directionPart? l = directionPart? m := by
  have hwhole : ∀ {word : List Char}, Legible word → ∀ {l m : List Cell}, Refilled w l m →
      (Statement.wholeKeyword? word l).isSome = true → l.take word.length = m.take word.length := by
    intro word hword l m h hsome
    obtain ⟨r, hr⟩ := Option.isSome_iff_exists.mp hsome
    exact h.take_eq (length_le_of_keyword? hword (Option.filter_eq_some_iff.mp hr).1)
  unfold Statement.directionPart?
  obtain ⟨a, b, ha, hb, hab⟩ | ⟨ha, hb⟩ := h.blanks?.both_or_neither
  · have hascending := hab.wholeKeyword? (by decide : Legible "ASC".toList)
    have hdescending := hab.wholeKeyword? (by decide : Legible "DESC".toList)
    simp only [ha, hb, Option.bind_eq_bind, Option.bind_some, ← hascending.isSome_eq,
      ← hdescending.isSome_eq]
    by_cases hasc : (Statement.wholeKeyword? "ASC".toList a).isSome = true
    · rw [if_pos hasc, if_pos hasc]
      exact congrArg some (hwhole (by decide) hab hasc)
    · rw [if_neg hasc, if_neg hasc]
      by_cases hdesc : (Statement.wholeKeyword? "DESC".toList a).isSome = true
      · rw [if_pos hdesc, if_pos hdesc]
        exact congrArg some (hwhole (by decide) hab hdesc)
      · rw [if_neg hdesc, if_neg hdesc]
  · rw [ha, hb]

theorem orderByParts? (h : Refilled w l m) :
    Option.Rel (fun a b => Refilled w a.1 b.1 ∧ a.2 = b.2) (orderByParts? l) (orderByParts? m) := by
  refine h.search? (fun l m h => ?_) (fun f l hf => ?_) false
  · refine ((h.keywords? (by decide) (by decide)).bind fun _ _ hr => hr.blanks?).bind
      fun r r' hr => hr.word?.bind fun ⟨column, r⟩ ⟨column', r'⟩ ⟨hcolumn, hr⟩ => ?_
    exact .some ⟨hcolumn, hr.directionPart?_eq⟩
  · rw [Pattern.keywords?, keyword?_covered (by decide) (by decide) hf]
    rfl

theorem mentionsLimit (h : Refilled w l m) : mentionsLimit l = mentionsLimit m :=
  (h.search? (fun _ _ h => h.wholeKeyword? (by decide))
    (fun f l hf => wholeKeyword?_covered (by decide) (by decide) hf l) false).isSome_eq

theorem limitPart?_eq (h : Refilled w l m) : limitPart? l = limitPart? m := by
  refine Option.Rel.eq (h.search? (S := (· = ·)) (fun l m h => ?_) (fun f l hf => ?_) false)
  · refine ((h.keyword? (by decide)).bind fun _ _ hr => hr.blanks?).bind fun r r' hr => ?_
    refine hr.number?.bind fun ⟨digits, r⟩ ⟨digits', r'⟩ ⟨hdigits, _, hr⟩ => ?_
    dsimp only at hdigits hr ⊢
    rw [hr.atWordEnd, hdigits]
    split
    · exact .some rfl
    · exact .none
  · rw [keyword?_covered (by decide) (by decide) hf]
    rfl

end Rowfile.Masked.Refilled
