import Rowfile.Proofs.ListForms

/-!
# Forms of clauses

Behind its table a SELECT is documented to have at most one WHERE, ORDER BY and LIMIT, in this order. Passing
over these clauses one by one leaves a rest, and the cells are of the documented form exactly when that rest
is empty: each clause is passed over as a whole, because what may follow it begins with another letter.
-/
namespace Rowfile

open Masked Pattern Statement

namespace Form

/-! ## Clauses of a SELECT -/

def number : Language Cell := {cells | cells ≠ [] ∧ ∀ cell ∈ cells, Text.isDigit cell.shown = true}

def direction : Language Cell := gap * (spelled "ASC" + spelled "DESC")

/-- `ORDER BY column` and perhaps a direction. -/
def orderBy : Language Cell :=
  gap * spelled "ORDER" * gap * spelled "BY" * gap * bareword * (1 + direction)

def limit : Language Cell := gap * spelled "LIMIT" * gap * number

/-- An optional ORDER BY, an optional LIMIT and blanks. -/
def arranged : Language Cell := (1 + orderBy) * (1 + limit) * blanks

/-- `WHERE condition` and arranged clauses. The condition runs up to the next place where ORDER BY or LIMIT
begins. -/
def filtered : Language Cell :=
  {cells | ∃ keyword ∈ gap * spelled "WHERE", ∃ condition rest,
    cells = keyword ++ (condition ++ rest) ∧ atWordEnd (condition ++ rest) = true ∧
      condition = untilClauseEnd (condition ++ rest) ∧ condition ∉ blanks ∧ rest ∈ arranged}

def clauses : Language Cell := arranged + filtered

section
variable {language : Language Cell}

theorem nil_mem_optional (language : Language Cell) : [] ∈ 1 + language :=
  (Language.mem_add _ _ _).mpr (.inl rfl)

theorem mem_optional {cells : List Cell} (h : cells ∈ language) : cells ∈ 1 + language :=
  (Language.mem_add _ _ _).mpr (.inr h)

end

/-! ## Passing over clauses -/

/-- The cells after blanks and a keyword. -/
def behindKeyword? (word : String) (cells : List Cell) : Option (List Cell) :=
  (blanks? cells).bind (keyword? word.toList)

def behindDirection? (cells : List Cell) : Option (List Cell) :=
  ((behindKeyword? "ASC" cells).filter atWordEnd).or ((behindKeyword? "DESC" cells).filter atWordEnd)

def behindOrderBy? (cells : List Cell) : Option (List Cell) :=
  ((((behindKeyword? "ORDER" cells).bind (behindKeyword? "BY")).bind blanks?).bind word?).map
    fun found => (behindDirection? found.2).getD found.2

def behindLimit? (cells : List Cell) : Option (List Cell) :=
  ((((behindKeyword? "LIMIT" cells).bind blanks?).bind number?).map Prod.snd).filter atWordEnd

def behindWhere? (cells : List Cell) : Option (List Cell) :=
  ((behindKeyword? "WHERE" cells).filter atWordEnd).bind fun r =>
    if atEnd (untilClauseEnd r) then none else some (r.drop (untilClauseEnd r).length)

/-- What is left of cells when an ORDER BY, a LIMIT and blanks have been passed over. -/
def unreadArranged (cells : List Cell) : List Cell :=
  let cells := (behindOrderBy? cells).getD cells
  skipBlanks ((behindLimit? cells).getD cells)

/-- What is left of the cells behind a table when all clauses have been passed over. -/
def unreadClauses (cells : List Cell) : List Cell :=
  unreadArranged ((behindWhere? cells).getD cells)

theorem skipBlanks_eq_nil_iff {l : List Cell} : skipBlanks l = [] ↔ l ∈ blanks := by
  rw [skipBlanks, List.dropWhile_eq_nil_iff]
  rfl

theorem behindKeyword?_iff {word : String} (hword : word ∈ keywords) {l r : List Cell} :
    behindKeyword? word l = some r ↔ l ∈ gap * spelled word * ({r} : Language Cell) := by
  rw [behindKeyword?, mul_assoc]
  constructor
  · intro h
    obtain ⟨l', hblanks, hkeyword⟩ := Option.bind_eq_some_iff.mp h
    obtain ⟨g, rfl, hne, hg, -⟩ := blanks?_eq_some_iff.mp hblanks
    obtain ⟨k, rfl, hk⟩ := keyword?_eq_some_iff.mp hkeyword
    exact Language.append_mem_mul ⟨hne, hg⟩ (Language.append_mem_mul hk rfl)
  · intro h
    obtain ⟨g, hg, _, ⟨k, hk, _, rfl, rfl⟩, rfl⟩ := Language.mem_mul.mp h
    rw [blanks?_append hg (visible_spelled hword hk _), Option.bind_some, keyword?_append hk]

/-- The first letters of two words differ, up to case folding. -/
def startApart (word word' : String) : Bool :=
  word.toList.head?.any fun c => word'.toList.head?.any fun c' => !Text.foldEq c c'

theorem foldEq_trans {c c' d : Char} (h : Text.foldEq c d = true) (h' : Text.foldEq c' d = true) :
    Text.foldEq c c' = true := by
  rw [Text.foldEq, beq_iff_eq] at *
  exact h.trans h'.symm

theorem keyword?_startApart {word word' : String} (hapart : startApart word word' = true)
    {k : List Cell} (hk : k ∈ spelled word') (r : List Cell) :
    keyword? word.toList (k ++ r) = none := by
  replace hk : Spells word'.toList k := hk
  unfold startApart at hapart
  generalize word.toList = letters at hapart
  generalize word'.toList = letters' at hapart hk
  cases letters with
  | nil => cases hapart
  | cons c letters =>
    cases hk with
    | nil => cases hapart
    | @cons c' cell letters' k hfold _ =>
      have hother : Text.foldEq c cell.shown = false := by
        cases hfold' : Text.foldEq c cell.shown with
        | false => rfl
        | true =>
          have hsame := foldEq_trans hfold' hfold
          simp [hsame] at hapart
      rw [List.cons_append, keyword?, hother]
      rfl

/-- There are blanks only, or blanks and one of the words. -/
def Continues (words : List String) (cells : List Cell) : Prop :=
  cells ∈ blanks ∨ ∃ word ∈ words, cells ∈ gap * spelled word * anything

def clauseKeywords : List String := ["WHERE", "ORDER", "BY", "ASC", "DESC", "LIMIT"]

theorem startApart_clauseKeywords : ∀ word ∈ clauseKeywords, ∀ word' ∈ clauseKeywords,
    word ≠ word' → startApart word word' = true := by decide +kernel

theorem mem_keywords_of_clause : ∀ word ∈ clauseKeywords, word ∈ keywords := by decide

section
variable {words : List String} {l r : List Cell}

theorem blanks?_of_blanks (h : r ∈ blanks) {r' : List Cell} (hr : blanks? r = some r') : r' = [] := by
  obtain ⟨g, rfl, -, -, hvisible⟩ := blanks?_eq_some_iff.mp hr
  cases r' with
  | nil => rfl
  | cons cell r' =>
    have hblank := h cell (by simp)
    rw [List.head?_cons, Option.any_some, hblank] at hvisible
    cases hvisible

/-- A keyword of the clauses is not found before another one. -/
theorem Continues.behindKeyword?_eq (h : Continues words r) {word : String}
    (hword : word ∈ clauseKeywords) (hwords : ∀ word' ∈ words, word' ∈ clauseKeywords ∧ word ≠ word') :
    behindKeyword? word r = none := by
  rw [behindKeyword?, Option.bind_eq_none_iff]
  rintro r' hr
  rcases h with hblanks | ⟨word', hword', hcells⟩
  · obtain rfl := blanks?_of_blanks hblanks hr
    have hopens := opensVisibly_keywords word (mem_keywords_of_clause word hword)
    unfold opensVisibly at hopens
    cases hletters : word.toList with
    | nil => rw [hletters] at hopens; cases hopens
    | cons c letters => rfl
  · obtain ⟨hmem, hne⟩ := hwords word' hword'
    obtain ⟨front, hfront, rest, -, rfl⟩ := Language.mem_mul.mp hcells
    obtain ⟨g, hg, k, hk, rfl⟩ := Language.mem_mul.mp hfront
    rw [List.append_assoc, blanks?_append hg (visible_spelled (mem_keywords_of_clause word' hmem) hk _)]
      at hr
    obtain rfl := Option.some.inj hr
    exact keyword?_startApart (startApart_clauseKeywords word hword word' hmem hne) hk rest

def Parted (cells : List Cell) : Prop := ∀ cell, cells.head? = some cell → cell.isBlank = true

theorem Continues.parted (h : Continues words r) : Parted r := by
  intro cell hcell
  rcases h with hblanks | ⟨word, -, hcells⟩
  · exact hblanks cell (List.mem_of_mem_head? hcell)
  · simp only [mul_assoc] at hcells
    obtain ⟨g, hg, rest, -, rfl⟩ := Language.mem_mul.mp hcells
    obtain ⟨first, g, rfl⟩ := List.exists_cons_of_ne_nil hg.1
    obtain rfl := Option.some.inj hcell
    exact hg.2 first List.mem_cons_self

theorem Parted.head?_any (h : Parted r) {p : Cell → Bool}
    (hp : ∀ cell, cell.isBlank = true → p cell = false) : r.head?.any p = false := by
  cases r with
  | nil => rfl
  | cons cell r => exact hp cell (h cell rfl)

theorem Parted.wordEnd (h : Parted r) : r.head?.any Cell.isWord = false :=
  h.head?_any fun _ hblank => isWord_of_isBlank hblank

theorem Parted.atWordEnd (h : Parted r) : atWordEnd r = true := by
  rw [Pattern.atWordEnd, h.wordEnd]
  rfl

/-! ## Each clause is passed over as a whole -/

theorem behindKeyword?_append {word : String} (hword : word ∈ keywords)
    {k : List Cell} (hk : k ∈ gap * spelled word) (r : List Cell) :
    behindKeyword? word (k ++ r) = some r :=
  (behindKeyword?_iff hword).mpr (Language.append_mem_mul hk rfl)

theorem behindDirection?_append (hl : l ∈ direction) (hr : Parted r) :
    behindDirection? (l ++ r) = some r := by
  obtain ⟨g, hg, k, hk, rfl⟩ := Language.mem_mul.mp hl
  rcases (Language.mem_add _ _ _).mp hk with hk | hk
  · rw [behindDirection?, behindKeyword?_append (by decide) (Language.append_mem_mul hg hk)]
    simp [Option.filter_some, hr.atWordEnd]
  · have hdesc : g ++ k ∈ gap * spelled "DESC" := Language.append_mem_mul hg hk
    have hasc : behindKeyword? "ASC" (g ++ k ++ r) = none :=
      Continues.behindKeyword?_eq
        (.inr ⟨"DESC", List.mem_singleton_self _, Language.append_mem_mul hdesc trivial⟩)
        (by decide) (by decide)
    rw [behindDirection?, hasc, behindKeyword?_append (by decide) hdesc]
    simp [Option.filter_some, hr.atWordEnd]

theorem behindDirection?_eq_none (h : Continues ["LIMIT"] r) : behindDirection? r = none := by
  rw [behindDirection?, h.behindKeyword?_eq (by decide) (by decide),
    h.behindKeyword?_eq (by decide) (by decide)]
  rfl

theorem behindOrderBy?_append (hl : l ∈ orderBy) (hr : Continues ["LIMIT"] r) :
    behindOrderBy? (l ++ r) = some r := by
  obtain ⟨_, hsorted, d, hd, rfl⟩ := Language.mem_mul.mp hl
  obtain ⟨_, hspaced, column, hcolumn, rfl⟩ := Language.mem_mul.mp hsorted
  obtain ⟨_, hkeywords, g, hg, rfl⟩ := Language.mem_mul.mp hspaced
  rw [mul_assoc] at hkeywords
  obtain ⟨first, hfirst, second, hsecond, rfl⟩ := Language.mem_mul.mp hkeywords
  have hpassed : (behindDirection? (d ++ r)).getD (d ++ r) = r ∧ Parted (d ++ r) := by
    rcases (Language.mem_add _ _ _).mp hd with rfl | hd
    · exact ⟨by rw [List.nil_append, behindDirection?_eq_none hr]; rfl, hr.parted⟩
    · refine ⟨by rw [behindDirection?_append hd hr.parted]; rfl, ?_⟩
      obtain ⟨g', hg', k, -, rfl⟩ := Language.mem_mul.mp hd
      obtain ⟨first', g', rfl⟩ := List.exists_cons_of_ne_nil hg'.1
      intro cell hcell
      obtain rfl := Option.some.inj hcell
      exact hg'.2 _ List.mem_cons_self
  simp only [List.append_assoc]
  rw [behindOrderBy?, behindKeyword?_append (by decide) hfirst, Option.bind_some,
    behindKeyword?_append (by decide) hsecond, Option.bind_some,
    blanks?_append hg (visible_bareword hcolumn _), Option.bind_some,
    word?_append hcolumn hpassed.2.wordEnd]
  exact congrArg some hpassed.1

theorem behindLimit?_append (hl : l ∈ limit) (hr : Parted r) : behindLimit? (l ++ r) = some r := by
  obtain ⟨_, hspaced, ds, hds, rfl⟩ := Language.mem_mul.mp hl
  obtain ⟨keyword, hkeyword, g, hg, rfl⟩ := Language.mem_mul.mp hspaced
  have hvisible : (ds ++ r).head?.any Cell.isBlank = false := by
    obtain ⟨cell, ds, rfl⟩ := List.exists_cons_of_ne_nil hds.1
    cases hblank : cell.isBlank with
    | false => exact hblank
    | true =>
      have hdigit := hds.2 cell List.mem_cons_self
      rw [isDigit_of_isBlank hblank] at hdigit
      cases hdigit
  have hnumber : number? (ds ++ r) = some (ds, r) :=
    number?_eq_some_iff.mpr
      ⟨rfl, hds.1, hds.2, hr.head?_any fun _ hblank => isDigit_of_isBlank hblank⟩
  simp only [List.append_assoc]
  rw [behindLimit?, behindKeyword?_append (by decide) hkeyword, Option.bind_some,
    blanks?_append hg hvisible, Option.bind_some, hnumber, Option.map_some, Option.filter_some,
    hr.atWordEnd, if_pos rfl]

/-! ## What is passed over is a clause -/

theorem exists_direction (h : behindDirection? l = some r) : ∃ k ∈ direction, l = k ++ r := by
  have hcut : ∀ word ∈ keywords,
      (behindKeyword? word l).filter atWordEnd = some r → ∃ k ∈ gap * spelled word, l = k ++ r := by
    intro word hword hfound
    obtain ⟨k, hk, _, rfl, hl⟩ :=
      Language.mem_mul.mp ((behindKeyword?_iff hword).mp (Option.filter_eq_some_iff.mp hfound).1)
    exact ⟨k, hk, hl.symm⟩
  rw [direction, mul_add]
  rcases Option.or_eq_some_iff.mp h with hasc | ⟨-, hdesc⟩
  · obtain ⟨k, hk, hl⟩ := hcut "ASC" (by decide) hasc
    exact ⟨k, (Language.mem_add _ _ _).mpr (.inl hk), hl⟩
  · obtain ⟨k, hk, hl⟩ := hcut "DESC" (by decide) hdesc
    exact ⟨k, (Language.mem_add _ _ _).mpr (.inr hk), hl⟩

theorem exists_orderBy (h : behindOrderBy? l = some r) : ∃ k ∈ orderBy, l = k ++ r := by
  obtain ⟨⟨column, r'⟩, hfound, hr⟩ := Option.map_eq_some_iff.mp h
  obtain ⟨l₂, hspaced, hword⟩ := Option.bind_eq_some_iff.mp hfound
  obtain ⟨l₁, hkeywords, hblanks⟩ := Option.bind_eq_some_iff.mp hspaced
  obtain ⟨l₀, horder, hby⟩ := Option.bind_eq_some_iff.mp hkeywords
  obtain ⟨first, hfirst, _, rfl, rfl⟩ :=
    Language.mem_mul.mp ((behindKeyword?_iff (by decide)).mp horder)
  obtain ⟨second, hsecond, _, rfl, rfl⟩ :=
    Language.mem_mul.mp ((behindKeyword?_iff (by decide)).mp hby)
  obtain ⟨g, rfl, hne, hg, -⟩ := blanks?_eq_some_iff.mp hblanks
  obtain ⟨rfl, hcolumn, hwords, -⟩ := word?_eq_some_iff.mp hword
  have hdirection : ∃ d ∈ 1 + direction, r' = d ++ r := by
    cases hfound : behindDirection? r' with
    | none =>
      rw [hfound] at hr
      exact ⟨[], nil_mem_optional _, hr⟩
    | some r'' =>
      rw [hfound] at hr
      obtain ⟨d, hd, hr'⟩ := exists_direction hfound
      obtain rfl : r'' = r := hr
      exact ⟨d, mem_optional hd, hr'⟩
  obtain ⟨d, hd, rfl⟩ := hdirection
  refine ⟨first ++ second ++ g ++ column ++ d, ?_, by simp⟩
  have hkeywords : first ++ second ∈ gap * spelled "ORDER" * gap * spelled "BY" := by
    rw [mul_assoc _ gap]
    exact Language.append_mem_mul hfirst hsecond
  exact Language.append_mem_mul (Language.append_mem_mul (Language.append_mem_mul hkeywords
    ⟨hne, hg⟩) ⟨hcolumn, hwords⟩) hd

theorem exists_limit (h : behindLimit? l = some r) : ∃ k ∈ limit, l = k ++ r := by
  obtain ⟨⟨ds, r'⟩, hfound, rfl⟩ :=
    Option.map_eq_some_iff.mp (Option.filter_eq_some_iff.mp h).1
  obtain ⟨l₁, hspaced, hnumber⟩ := Option.bind_eq_some_iff.mp hfound
  obtain ⟨l₀, hlimit, hblanks⟩ := Option.bind_eq_some_iff.mp hspaced
  obtain ⟨keyword, hkeyword, _, rfl, rfl⟩ :=
    Language.mem_mul.mp ((behindKeyword?_iff (by decide)).mp hlimit)
  obtain ⟨g, rfl, hne, hg, -⟩ := blanks?_eq_some_iff.mp hblanks
  obtain ⟨rfl, hds, hdigits, -⟩ := number?_eq_some_iff.mp hnumber
  exact ⟨keyword ++ g ++ ds, Language.append_mem_mul (Language.append_mem_mul hkeyword ⟨hne, hg⟩)
    ⟨hds, hdigits⟩, by simp⟩

/-! ## The rest of the clauses -/

theorem continues_limit (h : r ∈ (1 + limit) * blanks) : Continues ["LIMIT"] r := by
  obtain ⟨l, hl, b, hb, rfl⟩ := Language.mem_mul.mp h
  rcases (Language.mem_add _ _ _).mp hl with rfl | hl
  · exact .inl hb
  · refine .inr ⟨"LIMIT", List.mem_singleton_self _, ?_⟩
    rw [limit, mul_assoc _ gap] at hl
    obtain ⟨k, hk, rest, -, rfl⟩ := Language.mem_mul.mp hl
    rw [List.append_assoc]
    exact Language.append_mem_mul hk trivial

theorem continues_arranged (h : r ∈ arranged) : Continues ["ORDER", "LIMIT"] r := by
  rw [arranged, mul_assoc] at h
  obtain ⟨o, ho, rest, hrest, rfl⟩ := Language.mem_mul.mp h
  rcases (Language.mem_add _ _ _).mp ho with rfl | ho
  · rcases continues_limit hrest with hblanks | ⟨word, hword, hcells⟩
    · exact .inl hblanks
    · exact .inr ⟨word, List.mem_cons_of_mem _ hword, hcells⟩
  · refine .inr ⟨"ORDER", List.mem_cons_self, ?_⟩
    rw [orderBy] at ho
    simp only [mul_assoc] at ho ⊢
    obtain ⟨g, hg, _, ⟨k, hk, tail, -, rfl⟩, rfl⟩ := Language.mem_mul.mp ho
    rw [List.append_assoc, List.append_assoc]
    exact Language.append_mem_mul hg (Language.append_mem_mul hk trivial)

theorem mem_limit_blanks_iff :
    r ∈ (1 + limit) * blanks ↔ skipBlanks ((behindLimit? r).getD r) = [] := by
  rw [skipBlanks_eq_nil_iff]
  constructor
  · intro h
    obtain ⟨l, hl, b, hb, rfl⟩ := Language.mem_mul.mp h
    have hparted : Continues [] b := .inl hb
    rcases (Language.mem_add _ _ _).mp hl with rfl | hl
    · have hnone : behindLimit? b = none := by
        rw [behindLimit?, hparted.behindKeyword?_eq (by decide) (by decide)]
        rfl
      rw [List.nil_append, hnone]
      exact hb
    · rw [behindLimit?_append hl hparted.parted]
      exact hb
  · intro h
    cases hfound : behindLimit? r with
    | none =>
      rw [hfound] at h
      exact Language.append_mem_mul (nil_mem_optional _) h
    | some r' =>
      rw [hfound] at h
      obtain ⟨l, hl, rfl⟩ := exists_limit hfound
      exact Language.append_mem_mul (mem_optional hl) h

theorem mem_arranged_iff : r ∈ arranged ↔ unreadArranged r = [] := by
  rw [unreadArranged, ← mem_limit_blanks_iff, arranged, mul_assoc]
  constructor
  · intro h
    obtain ⟨o, ho, rest, hrest, rfl⟩ := Language.mem_mul.mp h
    have hcontinues := continues_limit hrest
    rcases (Language.mem_add _ _ _).mp ho with rfl | ho
    · have hnone : behindOrderBy? rest = none := by
        rw [behindOrderBy?, hcontinues.behindKeyword?_eq (by decide) (by decide)]
        rfl
      rw [List.nil_append, hnone]
      exact hrest
    · rw [behindOrderBy?_append ho hcontinues]
      exact hrest
  · intro h
    cases hfound : behindOrderBy? r with
    | none =>
      rw [hfound] at h
      exact Language.append_mem_mul (nil_mem_optional _) h
    | some r' =>
      rw [hfound] at h
      obtain ⟨o, ho, rfl⟩ := exists_orderBy hfound
      exact Language.append_mem_mul (mem_optional ho) h

theorem prefix_untilClauseEnd (cells : List Cell) : untilClauseEnd cells <+: cells := by
  induction cells with
  | nil => exact List.prefix_refl _
  | cons cell r ih =>
    rw [untilClauseEnd]
    split
    · exact List.nil_prefix
    · exact List.cons_prefix_cons.mpr ⟨rfl, ih⟩

theorem atEnd_iff : atEnd l = true ↔ l ∈ blanks := by
  rw [atEnd, List.isEmpty_iff, skipBlanks_eq_nil_iff]

/-- The rest behind a WHERE and its condition is where the condition ends. -/
theorem behindWhere?_eq_some_iff {rest : List Cell} : behindWhere? r = some rest ↔
    ∃ keyword ∈ gap * spelled "WHERE", ∃ condition,
      r = keyword ++ (condition ++ rest) ∧ atWordEnd (condition ++ rest) = true ∧
        condition = untilClauseEnd (condition ++ rest) ∧ condition ∉ blanks := by
  constructor
  · intro h
    obtain ⟨_, hwhere, hrest⟩ := Option.bind_eq_some_iff.mp h
    obtain ⟨hfound, hend⟩ := Option.filter_eq_some_iff.mp hwhere
    obtain ⟨keyword, hkeyword, tail, rfl, rfl⟩ :=
      Language.mem_mul.mp ((behindKeyword?_iff (by decide)).mp hfound)
    split at hrest
    · cases hrest
    · next hcondition =>
      have hcut := List.prefix_iff_eq_append.mp (prefix_untilClauseEnd tail)
      rw [Option.some.inj hrest] at hcut
      refine ⟨keyword, hkeyword, untilClauseEnd tail, by rw [hcut], ?_, by rw [hcut], ?_⟩
      · rwa [hcut]
      · rwa [← atEnd_iff]
  · rintro ⟨keyword, hkeyword, condition, rfl, hend, hcondition, hblanks⟩
    rw [behindWhere?, behindKeyword?_append (by decide) hkeyword, Option.filter_some,
      if_pos hend, Option.bind_some, ← hcondition, if_neg (mt atEnd_iff.mp hblanks),
      List.drop_left]

theorem mem_filtered_iff : r ∈ filtered ↔ ∃ rest, behindWhere? r = some rest ∧ rest ∈ arranged := by
  constructor
  · rintro ⟨keyword, hkeyword, condition, rest, hr, hend, hcondition, hblanks, hrest⟩
    exact ⟨rest, behindWhere?_eq_some_iff.mpr
      ⟨keyword, hkeyword, condition, hr, hend, hcondition, hblanks⟩, hrest⟩
  · rintro ⟨rest, hfound, hrest⟩
    obtain ⟨keyword, hkeyword, condition, hr, hend, hcondition, hblanks⟩ :=
      behindWhere?_eq_some_iff.mp hfound
    exact ⟨keyword, hkeyword, condition, rest, hr, hend, hcondition, hblanks, hrest⟩

/-- Cells are the clauses of a SELECT exactly when passing over the clauses leaves nothing. -/
theorem mem_clauses_iff : r ∈ clauses ↔ unreadClauses r = [] := by
  rw [clauses, Language.mem_add, mem_filtered_iff, unreadClauses, ← mem_arranged_iff]
  cases hfound : behindWhere? r with
  | none => simp
  | some rest =>
    -- Arranged clauses do not begin with WHERE.
    have hother : r ∉ arranged := fun h => by
      rw [behindWhere?, (continues_arranged h).behindKeyword?_eq (by decide) (by decide)]
        at hfound
      cases hfound
    simp [hother]

end

end Form

end Rowfile
