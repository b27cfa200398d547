import Rowfile.Proofs.WrittenFilters

/-!
# Keywords among words

The clauses of a statement are found by a keyword that may stand anywhere outside quotes, but not
within a longer word. Such a search passes over every word of a line that is not the keyword, whatever
letters of the keyword it begins with, and goes on behind it.
-/
namespace Rowfile

open Masked Pattern Statement

/-- The keywords by which clauses are found. -/
def clauseWords : List String := ["FROM", "WHERE", "ORDER", "LIMIT"]

/-- The character is no letter of a clause keyword, up to case folding. -/
def isOutside (d : Char) : Bool :=
  clauseWords.all fun keyword => keyword.toList.all fun c => !Text.foldEq c d

theorem isOutside_of_isAsciiDigit {c : Char} (hc : Text.isAsciiDigit c = true) :
    isOutside c = true := by
  have houtside := forall_of_isSolid (p := fun c => !Text.isAsciiDigit c || isOutside c)
    (by decide +kernel) (isSolid_of_isAsciiDigit hc)
  simpa [hc] using houtside

section
variable {keyword : String}

theorem foldEq_of_isOutside {d : Char} (hd : isOutside d = true) (hkeyword : keyword ∈ clauseWords) :
    ∀ c ∈ keyword.toList, Text.foldEq c d = false := by
  intro c hc
  have hletter := List.all_eq_true.mp (List.all_eq_true.mp hd keyword hkeyword) c hc
  simpa using hletter

theorem toList_ne_nil_of_mem_clauseWords (hkeyword : keyword ∈ clauseWords) :
    keyword.toList ≠ [] :=
  (by decide : ∀ keyword ∈ clauseWords, keyword.toList ≠ []) keyword hkeyword

theorem toUpper_eq_of_foldEq (hkeyword : keyword ∈ clauseWords) {c d : Char}
    (hc : c ∈ keyword.toList) (hd : isSolid d = true) (h : Text.foldEq c d = true) :
    c.toUpper = d.toUpper := by
  have hall := forall_of_isSolid (p := fun d => clauseWords.all fun keyword =>
    keyword.toList.all fun c => !Text.foldEq c d || c.toUpper == d.toUpper) (by decide +kernel) hd
  have hletter := List.all_eq_true.mp (List.all_eq_true.mp hall keyword hkeyword) c hc
  simpa [h] using hletter

end

theorem asciiCaseEq_of_foldEq {word cs : List Char}
    (h : List.Forall₂ (fun c d => Text.foldEq c d = true) word cs)
    (hupper : ∀ c ∈ word, ∀ d ∈ cs, Text.foldEq c d = true → c.toUpper = d.toUpper) :
    Text.asciiCaseEq cs word = true := by
  rw [Text.asciiCaseEq, beq_iff_eq]
  induction h with
  | nil => rfl
  | @cons c d word cs hcd _ ih =>
    have hletter := hupper c List.mem_cons_self d List.mem_cons_self hcd
    have hrest := ih fun c hc d hd =>
      hupper c (List.mem_cons_of_mem _ hc) d (List.mem_cons_of_mem _ hd)
    rw [List.map_cons, List.map_cons, hletter, hrest]

/-! ## A keyword at the front -/

/-- The cells do not go on with a letter of a clause keyword. -/
def Apart (r : List Cell) : Prop := ∀ cell, r.head? = some cell → isOutside cell.shown = true

theorem Gap.apart {r : List Cell} (h : Gap r) : Apart r := by
  rcases h with rfl | ⟨r', rfl⟩
  · exact fun _ hcell => nomatch hcell
  · intro cell hcell
    obtain rfl := Option.some.inj hcell
    decide +kernel

def InWord (r : List Cell) : Prop :=
  ∃ cell r', r = cell :: r' ∧ cell.isWord = true ∧ cell.isBlank = false

/-- If the keyword stands at the front, then as the beginning of a longer word. -/
def Lacks (keyword : String) (cells : List Cell) : Prop :=
  ∀ r, keyword? keyword.toList cells = some r → InWord r

theorem InWord.atWordEnd_eq {r : List Cell} (h : InWord r) : atWordEnd r = false := by
  obtain ⟨cell, r', rfl, hword, -⟩ := h
  simp [atWordEnd, hword]

theorem InWord.blanks?_eq {r : List Cell} (h : InWord r) : blanks? r = none := by
  obtain ⟨cell, r', rfl, -, hblank⟩ := h
  simp [blanks?, hblank]

theorem InWord.clause?_eq {r : List Cell} (h : InWord r) : clause? r = none := by
  obtain ⟨cell, r', rfl, -, hblank⟩ := h
  simp [clause?, hblank]

section
variable {keyword : String} (hkeyword : keyword ∈ clauseWords)
include hkeyword

theorem keyword?_cons_of_isOutside {cell : Cell} (hcell : isOutside cell.shown = true)
    (r : List Cell) : keyword? keyword.toList (cell :: r) = none := by
  have hfold := foldEq_of_isOutside hcell hkeyword
  have hne := toList_ne_nil_of_mem_clauseWords hkeyword
  generalize keyword.toList = letters at hfold hne
  cases letters with
  | nil => exact absurd rfl hne
  | cons c letters =>
    rw [keyword?, hfold c List.mem_cons_self]
    rfl

theorem keyword?_nil : keyword? keyword.toList [] = none := by
  have hne := toList_ne_nil_of_mem_clauseWords hkeyword
  generalize keyword.toList = letters at hne
  cases letters with
  | nil => exact absurd rfl hne
  | cons c letters => rfl

theorem keyword?_append {r : List Cell} (hr : Apart r) (l : List Cell) :
    keyword? keyword.toList (l ++ r) = (keyword? keyword.toList l).map (· ++ r) := by
  have hfold : ∀ cell, r.head? = some cell → ∀ c ∈ keyword.toList,
      Text.foldEq c cell.shown = false := fun cell hcell =>
    foldEq_of_isOutside (hr cell hcell) hkeyword
  generalize keyword.toList = letters at hfold
  induction letters generalizing l with
  | nil => rfl
  | cons c letters ih =>
    cases l with
    | nil =>
      cases r with
      | nil => rfl
      | cons cell r =>
        have hnone : keyword? (c :: letters) (cell :: r) = none := by
          rw [keyword?, hfold cell rfl c List.mem_cons_self]
          rfl
        exact hnone
    | cons cell l =>
      rw [List.cons_append, keyword?, keyword?,
        ih l fun x hx d hd => hfold x hx d (List.mem_cons_of_mem _ hd)]
      split <;> rfl

/-- What is no whole keyword does not become one by what follows. -/
theorem lacks_append {l r : List Cell} (hl : ∀ cell ∈ l, cell.isBlank = false)
    (h : wholeKeyword? keyword.toList l = none) (hr : Apart r) : Lacks keyword (l ++ r) := by
  intro r' hfound
  rw [keyword?_append hkeyword hr, Option.map_eq_some_iff] at hfound
  obtain ⟨s, hs, rfl⟩ := hfound
  have hend : atWordEnd s = false := by
    rw [wholeKeyword?, hs, Option.filter_some] at h
    cases hs : atWordEnd s with
    | false => rfl
    | true => rw [hs] at h; cases h
  obtain ⟨k, rfl, -⟩ := keyword?_eq_some_iff.mp hs
  cases s with
  | nil => cases hend
  | cons cell s =>
    have hword : cell.isWord = true := by simpa [atWordEnd] using hend
    exact ⟨cell, s ++ r, rfl, hword, hl cell (by simp)⟩

theorem lacks_nil : Lacks keyword [] := by
  intro r' hfound
  rw [keyword?_nil hkeyword] at hfound
  cases hfound

theorem lacks_space (r : List Cell) : Lacks keyword (.plain ' ' :: r) := by
  intro r' hfound
  rw [keyword?_cons_of_isOutside hkeyword (by decide +kernel)] at hfound
  cases hfound

end

/-! ## Searches that pass over words -/

/-- What is searched for begins with the keyword, which is not a part of a longer word. -/
def Seeks {α : Type} (find? : List Cell → Option α) (keyword : String) : Prop :=
  ∀ cells, Lacks keyword cells → find? cells = none

theorem seeks_bind {α : Type} (keyword : String) {next : List Cell → Option α}
    (hnext : ∀ r, InWord r → next r = none) :
    Seeks (fun cells => (keyword? keyword.toList cells).bind next) keyword := by
  intro cells hlacks
  rw [Option.bind_eq_none_iff]
  exact fun r hfound => hnext r (hlacks r hfound)

theorem Seeks.bind {α β : Type} {keyword : String} {find? : List Cell → Option α}
    (h : Seeks find? keyword) (next : α → Option β) :
    Seeks (fun cells => (find? cells).bind next) keyword := by
  intro cells hlacks
  change (find? cells).bind next = none
  rw [h cells hlacks]
  rfl

theorem seeks_wholeKeyword (keyword : String) : Seeks (wholeKeyword? keyword.toList) keyword := by
  intro cells hlacks
  rw [wholeKeyword?]
  cases hfound : keyword? keyword.toList cells with
  | none => rfl
  | some r => rw [Option.filter_some, (hlacks r hfound).atWordEnd_eq]; rfl

structure Passed (keyword : String) (word : List Char) : Prop extends VisibleWord word where
  absent : search? (wholeKeyword? keyword.toList) false (mask word) = none

theorem search?_cons {α : Type} {find? : List Cell → Option α} {cell : Cell} {r : List Cell}
    {wordBefore : Bool} (h : wordBefore = false → find? (cell :: r) = none) :
    search? find? wordBefore (cell :: r) = search? find? cell.isWord r := by
  cases wordBefore with
  | true => rfl
  | false => rw [search?, h rfl]; rfl

theorem eq_none_of_search? {α : Type} {find? : List Cell → Option α} {cell : Cell} {r : List Cell}
    (h : search? find? false (cell :: r) = none) : find? (cell :: r) = none := by
  rw [search?] at h
  cases hfound : find? (cell :: r) with
  | none => rfl
  | some found => rw [hfound] at h; cases h

section
variable {keyword : String} (hkeyword : keyword ∈ clauseWords) {α : Type}
  {find? : List Cell → Option α} (hfind : Seeks find? keyword)
include hkeyword hfind

theorem search?_space (wordBefore : Bool) (r : List Cell) :
    search? find? wordBefore (.plain ' ' :: r) = search? find? false r :=
  search?_cons fun _ => hfind _ (lacks_space hkeyword r)

/-- It does not matter whether a blank stands before a line. -/
theorem search?_line {words : List (List Char)} (hne : words ≠ []) :
    search? find? false (mask (line words)) = search? find? false (mask (spaced words)) := by
  rw [mask_spaced hne, search?_space hkeyword hfind]

theorem search?_gap {r : List Cell} (hr : Gap r) (wordBefore : Bool) :
    search? find? wordBefore r = search? find? false r := by
  rcases hr with rfl | ⟨r', rfl⟩
  · cases wordBefore with
    | true => exact (hfind [] (lacks_nil hkeyword)).symm
    | false => rfl
  · rw [search?_space hkeyword hfind, search?_space hkeyword hfind]

/-- A search that begins with the keyword passes over whatever the search for the keyword alone passes
over. -/
theorem search?_append_gap {l r : List Cell} (hl : ∀ cell ∈ l, cell.isBlank = false)
    (hr : Gap r) (wordBefore : Bool)
    (h : search? (wholeKeyword? keyword.toList) wordBefore l = none) :
    search? find? wordBefore (l ++ r) = search? find? false r := by
  induction l generalizing wordBefore with
  | nil => exact search?_gap hkeyword hfind hr wordBefore
  | cons cell l ih =>
    have hfirst : wordBefore = false → wholeKeyword? keyword.toList (cell :: l) = none := by
      rintro rfl
      exact eq_none_of_search? h
    rw [search?_cons hfirst] at h
    have hnone : wordBefore = false → find? (cell :: (l ++ r)) = none := fun hbefore =>
      hfind _ (lacks_append hkeyword hl (hfirst hbefore) hr.apart)
    rw [List.cons_append, search?_cons hnone]
    exact ih (fun x hx => hl x (List.mem_cons_of_mem _ hx)) _ h

theorem search?_word {word : List Char} (h : Passed keyword word) {r : List Cell} (hr : Gap r) :
    search? find? false (mask word ++ r) = search? find? false r :=
  search?_append_gap hkeyword hfind (fun _ hcell => h.isBlank_cell hcell) hr false h.absent

theorem search?_spaced {words : List (List Char)} (h : ∀ word ∈ words, Passed keyword word)
    {r : List Cell} (hr : Gap r) :
    search? find? false (mask (spaced words) ++ r) = search? find? false r := by
  induction words with
  | nil => rfl
  | cons word words ih =>
    rw [List.forall_mem_cons] at h
    rw [mask_spaced_cons h.1.closed, List.cons_append, List.append_assoc,
      search?_space hkeyword hfind, search?_word hkeyword hfind h.1 (gap_spaced words hr), ih h.2]

theorem search?_absent {words : List (List Char)} (h : ∀ word ∈ words, Passed keyword word) :
    search? find? false (mask (spaced words)) = none := by
  have hpassed := search?_spaced hkeyword hfind h gap_nil
  rw [List.append_nil] at hpassed
  exact hpassed.trans (hfind [] (lacks_nil hkeyword))

/-- What is searched for is found behind the words that are passed over. -/
theorem search?_found {words : List (List Char)} (h : ∀ word ∈ words, Passed keyword word)
    {word : List Char} (hclosed : Closed word) {words' : List (List Char)} {found : α}
    (hfound : find? (mask word ++ mask (spaced words')) = some found) :
    search? find? false (mask (spaced (words ++ word :: words'))) = some found := by
  have hwords : Closed (spaced words) := closed_spaced fun word hword => (h word hword).closed
  have hfirst : ∀ l : List Cell, find? l = some found → search? find? false l = some found := by
    intro l hl
    cases l with
    | nil => exact hl
    | cons cell l => simp [search?, hl]
  rw [spaced_append, mask_append hwords, mask_spaced_cons hclosed,
    search?_spaced hkeyword hfind h (gap_space _), search?_space hkeyword hfind, hfirst _ hfound]

end

theorem Passed.lacks {keyword : String} {word : List Char} (h : Passed keyword word)
    (hkeyword : keyword ∈ clauseWords) {r : List Cell} (hr : Apart r) :
    Lacks keyword (mask word ++ r) := by
  refine lacks_append hkeyword (fun cell hcell => h.isBlank_cell hcell) ?_ hr
  have habsent := h.absent
  cases hcells : mask word with
  | nil => exact absurd hcells (mask_ne_nil h.nonempty)
  | cons cell l =>
    rw [hcells] at habsent
    exact eq_none_of_search? habsent

/-! ## The words that are passed over -/

/-- The words of a statement other than names and literals. -/
def fixedWords : List String :=
  ["SELECT", "*", "FROM", "WHERE", "ORDER", "BY", "ASC", "DESC", "LIMIT", "AND", "OR", "TRUE",
    "FALSE"] ++ Operator.all.map Operator.symbol

section
variable {keyword : String} (hkeyword : keyword ∈ clauseWords)
include hkeyword

theorem ne_clauseWord {word : String} (hword : word ∉ clauseWords) : word ≠ keyword :=
  fun he => hword (he ▸ hkeyword)

theorem passed_fixedWord {word : String} (hword : word ∈ fixedWords) (hne : word ≠ keyword) :
    Passed keyword word.toList := by
  have hfixed : ∀ word ∈ fixedWords, isFixedWord word.toList = true := by decide +kernel
  have habsent : ∀ keyword ∈ clauseWords, ∀ word ∈ fixedWords, word ≠ keyword →
      search? (wholeKeyword? keyword.toList) false (mask word.toList) = none := by decide +kernel
  exact ⟨visible_of_isFixedWord (hfixed word hword), habsent keyword hkeyword word hword hne⟩

/-- A word without letters of clause keywords. -/
theorem passed_of_isOutside {word : List Char} (h : VisibleWord word)
    (houtside : ∀ cell ∈ mask word, isOutside cell.shown = true) : Passed keyword word := by
  refine ⟨h, ?_⟩
  have hnil : wholeKeyword? keyword.toList [] = none := by
    rw [wholeKeyword?, keyword?_nil hkeyword]
    rfl
  have hsearch : ∀ l : List Cell, (∀ cell ∈ l, isOutside cell.shown = true) → ∀ wordBefore,
      search? (wholeKeyword? keyword.toList) wordBefore l = none := by
    intro l hl
    induction l with
    | nil => intro wordBefore; cases wordBefore <;> simp [search?, hnil]
    | cons cell l ih =>
      intro wordBefore
      rw [List.forall_mem_cons] at hl
      have hnone : wholeKeyword? keyword.toList (cell :: l) = none := by
        rw [wholeKeyword?, keyword?_cons_of_isOutside hkeyword hl.1]
        rfl
      rw [search?_cons fun _ => hnone]
      exact ih hl.2 _
  exact hsearch _ houtside false

theorem passed_inQuotes {q : Char} {cs : List Char} (hq : isQuote q = true) (hcs : q ∉ cs) :
    Passed keyword (inQuotes q cs) :=
  passed_of_isOutside hkeyword (solidWord_inQuotes hq hcs).visible
    (shown_inQuotes hq hcs (by decide +kernel)).shown

/-- A name is passed over, unless it is the keyword. -/
theorem passed_name {name : String} (hname : isFreeName name = true) :
    Passed keyword name.toList := by
  have hplain := isPlainName_of_isFreeName hname
  have hsolid := isSolid_of_mem_name hplain
  have hreserved : keyword ∈ reservedWords :=
    (by decide : ∀ k ∈ clauseWords, k ∈ reservedWords) keyword hkeyword
  have hword := isWord_cell_name hplain
  have hnone : wholeKeyword? keyword.toList (mask name.toList) = none := by
    rw [wholeKeyword?]
    cases hfound : keyword? keyword.toList (mask name.toList) with
    | none => rfl
    | some r =>
      obtain ⟨k, hk, hfold⟩ := keyword?_eq_some_iff.mp hfound
      cases r with
      | cons cell r =>
        have hcell : cell.isWord = true := hword cell (by rw [hk]; simp)
        simp [atWordEnd, hcell]
      | nil =>
        -- The name would be the keyword in some case.
        rw [List.append_nil] at hk
        rw [← hk, mask_name hplain, Spells, List.forall₂_map_right_iff] at hfold
        have hequal := asciiCaseEq_of_foldEq hfold fun c hc d hd =>
          toUpper_eq_of_foldEq hkeyword hc (hsolid d hd)
        rw [asciiCaseEq_of_isFreeName hname hreserved] at hequal
        exact absurd hequal Bool.false_ne_true
  refine ⟨(solidWord_name hplain).visible, ?_⟩
  have hsearch : search? (wholeKeyword? keyword.toList) false (mask name.toList ++ []) = none :=
    search?_append (mask_ne_nil (toList_ne_nil_of_isPlainName hplain)) hword
      (by rwa [List.append_nil]) false
  rwa [List.append_nil] at hsearch

theorem passed_of_solid {cs : List Char} (hne : cs ≠ []) (hsolid : ∀ c ∈ cs, isSolid c = true)
    (houtside : ∀ c ∈ cs, isOutside c = true) : Passed keyword cs :=
  passed_of_isOutside hkeyword (SolidWord.visible ⟨shown_of_solid hsolid, hne⟩)
    (shown_of_unquoted (fun c hc => isQuote_of_isSolid (hsolid c hc)) houtside).shown

theorem passed_digits {cs : List Char} (h : DigitRun cs) : Passed keyword cs :=
  passed_of_solid hkeyword h.nonempty (isSolid_of_digitRun h)
    fun c hc => isOutside_of_isAsciiDigit (h.digit c hc)

theorem ConditionWord.passed {word : List Char} (h : ConditionWord word) : Passed keyword word := by
  cases h with
  | column hname => exact passed_name hkeyword hname
  | operator op =>
    have hop : op.symbol ∈ fixedWords ∧ op.symbol ∉ clauseWords := by cases op <;> decide
    exact passed_fixedWord hkeyword hop.1 (ne_clauseWord hkeyword hop.2)
  | literal hq hcs => exact passed_inQuotes hkeyword hq hcs

theorem Predicate.Written.passed {p : Predicate} {words : List (List Char)} (h : p.Written words) :
    ∀ word ∈ words, Passed keyword word :=
  h.forall_word (fun _ hword => hword.passed hkeyword)
    (passed_fixedWord hkeyword (by decide) (ne_clauseWord hkeyword (by decide)))
    (passed_fixedWord hkeyword (by decide) (ne_clauseWord hkeyword (by decide)))

theorem Value.Written.passed {value : Value} {literal : List Char} (h : value.Written literal) :
    Passed keyword literal := by
  cases h with
  | @integer n hn =>
    rw [Value.shownChars, intText, if_neg (by omega)]
    exact passed_digits hkeyword (digitRun_digits _)
  | float hx hsign =>
    obtain ⟨whole, part, hwhole, hpart, htext, -⟩ := float_cases hx hsign
    have hchar : ∀ c ∈ whole ++ '.' :: part, Text.isAsciiDigit c = true ∨ c = '.' := by
      intro c hc
      rcases List.mem_append.mp hc with hc | hc
      · exact .inl (hwhole.digit c hc)
      · rcases List.mem_cons.mp hc with rfl | hc
        · exact .inr rfl
        · exact .inl (hpart.digit c hc)
    rw [htext]
    refine passed_of_solid hkeyword (by simp) (fun c hc => ?_) fun c hc => ?_
    · rcases hchar c hc with hc | rfl
      · exact isSolid_of_isAsciiDigit hc
      · decide
    · rcases hchar c hc with hc | rfl
      · exact isOutside_of_isAsciiDigit hc
      · decide +kernel
  | boolean b =>
    have hword : (Value.boolean b).shown ∈ fixedWords ∧ (Value.boolean b).shown ∉ clauseWords := by
      cases b <;> decide
    have hpassed := passed_fixedWord hkeyword hword.1 (ne_clauseWord hkeyword hword.2)
    rwa [Value.shown, String.toList_ofList] at hpassed
  | text hq hs => exact passed_inQuotes hkeyword hq hs

end

/-! ## Clauses that end before a keyword -/

theorem clause?_space {l : List Cell} (hne : l ≠ []) (h : l.head?.any Cell.isBlank = false) :
    clause? (.plain ' ' :: l) = some l := by
  rw [clause?, takeWhile_isBlank_space h, skipBlanks_space h]
  cases l with
  | nil => exact absurd rfl hne
  | cons cell l => rfl

theorem head_line_isBlank {words : List (List Char)} (hne : words ≠ [])
    (h : ∀ word ∈ words, VisibleWord word) (r : List Cell) :
    (mask (line words) ++ r).head?.any Cell.isBlank = false := by
  cases words with
  | nil => exact absurd rfl hne
  | cons word words =>
    have hword := h word List.mem_cons_self
    rw [mask_line_cons hword.closed, List.append_assoc]
    exact hword.head_isBlank _

/-- Words are a clause of their own behind a keyword. -/
theorem clause?_spaced {words : List (List Char)} (hne : words ≠ [])
    (h : ∀ word ∈ words, VisibleWord word) :
    clause? (mask (spaced words)) = some (mask (line words)) := by
  have hhead := head_line_isBlank hne h []
  rw [List.append_nil] at hhead
  rw [mask_spaced hne]
  exact clause?_space (mask_ne_nil (line_ne_nil hne h)) hhead

theorem blanks?_spaced {word : List Char} (h : VisibleWord word) (words : List (List Char)) :
    blanks? (mask (spaced (word :: words))) = some (mask word ++ mask (spaced words)) := by
  rw [mask_spaced_cons h.closed]
  exact blanks?_space (h.head_isBlank _)

theorem keyword?_self {cs : List Char} (h : Unquoted cs) (r : List Cell) :
    keyword? cs (mask cs ++ r) = some r := by
  rw [mask_of_unquoted h]
  clear h
  induction cs with
  | nil => rfl
  | cons c cs ih => rw [List.map_cons, List.cons_append, keyword?, Cell.shown_plain,
      Text.foldEq_self, if_pos rfl, ih]

theorem wholeKeyword?_self {cs : List Char} (h : Unquoted cs) {r : List Cell} (hr : Gap r) :
    wholeKeyword? cs (mask cs ++ r) = some r := by
  rw [wholeKeyword?, keyword?_self h, Option.filter_some, atWordEnd, hr.head_isWord]
  rfl

/-- The words before a clause reach to the keyword of the clause. -/
theorem clauseAfter?_line {keyword : String} (hfixed : isFixedWord keyword.toList = true)
    {words : List (List Char)} (hne : words ≠ []) (hvisible : ∀ word ∈ words, VisibleWord word)
    (hlacks : ∀ word ∈ words, ∀ r, Gap r → Lacks keyword (mask word ++ r))
    {clause : List (List Char)} (hclause : clause ≠ [])
    (hclauseWords : ∀ word ∈ clause, VisibleWord word) :
    clauseAfter? keyword.toList (mask (line words) ++ mask (spaced (keyword.toList :: clause))) =
      some (mask (line words), mask (line clause)) := by
  have hkeyword := visible_of_isFixedWord hfixed
  have hstart : ∀ {word : List Char}, VisibleWord word → ∀ r : List Cell,
      blanks? (.plain ' ' :: (mask word ++ r)) = some (mask word ++ r) := fun hword r =>
    blanks?_space (hword.head_isBlank r)
  have hrest := mask_spaced_cons hkeyword.closed clause
  induction words with
  | nil => exact absurd rfl hne
  | cons word words ih =>
    rw [List.forall_mem_cons] at hvisible hlacks
    have hcells : ∀ cell ∈ mask word, cell.isBlank = false := fun cell hcell =>
      hvisible.1.isBlank_cell hcell
    have hword := mask_ne_nil hvisible.1.nonempty
    cases words with
    | nil =>
      have hline : line [word] = word := by simp [line, spaced]
      rw [hline, clauseAfter?_append hword hcells, hrest, hstart hkeyword, Option.bind_some,
        keyword?_self (unquoted_of_isFixedWord hfixed), Option.bind_some,
        clause?_spaced hclause hclauseWords]
    | cons next words =>
      have hline : mask (line (word :: next :: words)) =
          mask word ++ .plain ' ' :: mask (line (next :: words)) := by
        rw [mask_line_cons hvisible.1.closed, mask_spaced (List.cons_ne_nil next words)]
      have hnext := mask_line_cons (hvisible.2 next List.mem_cons_self).closed words
      have hnone : ((blanks? (.plain ' ' :: mask (line (next :: words)) ++
          mask (spaced (keyword.toList :: clause)))).bind (keyword? keyword.toList)).bind clause? =
            none := by
        rw [hnext, List.cons_append, List.append_assoc,
          hstart (hvisible.2 next List.mem_cons_self), Option.bind_some, Option.bind_eq_none_iff]
        refine fun r hfound => (hlacks.2 next List.mem_cons_self _ ?_ r hfound).clause?_eq
        exact gap_spaced words (by rw [hrest]; exact gap_space _)
      have hspace : ∀ l : List Cell, clauseAfter? keyword.toList (.plain ' ' :: l) =
          (clauseAfter? keyword.toList l).map fun cut => (.plain ' ' :: cut.1, cut.2) := fun _ => rfl
      rw [hline, List.append_assoc, clauseAfter?_append hword hcells, hnone, List.cons_append,
        hspace, ih (List.cons_ne_nil next words) hvisible.2 hlacks.2]
      rfl

theorem seeks_keywords {keyword : String} (second : List Char) :
    Seeks (keywords? keyword.toList second) keyword :=
  seeks_bind keyword fun r hr => by rw [hr.blanks?_eq]; rfl

theorem atOrderBy_eq_false {cells : List Cell} (h : Lacks "ORDER" cells) :
    atOrderBy cells = false := by
  rw [atOrderBy, seeks_keywords "BY".toList cells h]
  rfl

/-- The words of a clause reach to the next clause. -/
theorem untilClauseEnd_spaced {words : List (List Char)}
    (horder : ∀ word ∈ words, Passed "ORDER" word) (hlimit : ∀ word ∈ words, Passed "LIMIT" word)
    {r : List Cell} (hr : Gap r) :
    untilClauseEnd (mask (spaced words) ++ r) = mask (spaced words) ++ untilClauseEnd r := by
  induction words with
  | nil => rfl
  | cons word words ih =>
    rw [List.forall_mem_cons] at horder hlimit
    have hrest := (gap_spaced words hr).apart
    have hend : atClauseEnd (.plain ' ' :: (mask word ++ (mask (spaced words) ++ r))) = false := by
      rw [atClauseEnd, atOrderBy_eq_false (horder.1.lacks (by decide) hrest),
        seeks_wholeKeyword "LIMIT" _ (hlimit.1.lacks (by decide) hrest)]
      rfl
    rw [mask_spaced_cons horder.1.closed, List.cons_append, List.append_assoc, untilClauseEnd, hend,
      if_neg Bool.false_ne_true,
      untilClauseEnd_append (fun cell hcell => horder.1.isBlank_cell hcell),
      ih horder.2 hlimit.2, List.cons_append, List.append_assoc]

end Rowfile
