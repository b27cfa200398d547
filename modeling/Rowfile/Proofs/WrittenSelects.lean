import Rowfile.Proofs.SearchedWords

/-!
# Written SELECT statements

The clauses of a SELECT are looked for one by one, each in the whole text. The table stands behind the
first FROM, the filter reaches from WHERE to the next clause, and ORDER BY and LIMIT are found wherever
they stand. Each is found where it was written, or not at all if it was left out.
-/
namespace Rowfile

open Masked Pattern Clause

namespace Statement

inductive WrittenFilter : Option Predicate → List (List Char) → Prop
  | none : WrittenFilter none []
  | some {p : Predicate} {words : List (List Char)} :
      p.Written words → WrittenFilter (some p) ("WHERE".toList :: words)

def direction (descending : Bool) : List Char := (if descending then "DESC" else "ASC").toList

/-- The words of an optional order. The direction is always written. -/
def orderWords : Option OrderBy → List (List Char)
  | none => []
  | some order =>
    ["ORDER".toList, "BY".toList, order.column.toList, direction order.descending]

def limitWords : Option Nat → List (List Char)
  | none => []
  | some n => ["LIMIT".toList, digits n]

def headWords (table : String) : List (List Char) :=
  ["SELECT".toList, "*".toList, "FROM".toList, table.toList]

def selectWords (table : String) (words : List (List Char)) (orderBy : Option OrderBy)
    (limit : Option Nat) : List (List Char) :=
  headWords table ++ (words ++ (orderWords orderBy ++ limitWords limit))

/-! ## Selecting -/

section
variable {keyword table : String} (hkeyword : keyword ∈ clauseWords)
include hkeyword

theorem passed_headWords (hne : "FROM" ≠ keyword) (htable : isFreeName table = true) :
    ∀ word ∈ headWords table, Passed keyword word := by
  rw [headWords]
  simp only [List.forall_mem_cons]
  exact ⟨passed_fixedWord hkeyword (by decide) (ne_clauseWord hkeyword (by decide)),
    passed_fixedWord hkeyword (by decide) (ne_clauseWord hkeyword (by decide)),
    passed_fixedWord hkeyword (by decide) hne, passed_name hkeyword htable,
    fun _ hword => nomatch hword⟩

theorem WrittenFilter.passed {filter : Option Predicate} {words : List (List Char)}
    (h : WrittenFilter filter words) (hne : "WHERE" ≠ keyword) :
    ∀ word ∈ words, Passed keyword word := by
  cases h with
  | none => exact fun _ hword => nomatch hword
  | some hp =>
    rw [List.forall_mem_cons]
    exact ⟨passed_fixedWord hkeyword (by decide) hne, hp.passed hkeyword⟩

theorem passed_orderWords {orderBy : Option OrderBy} (hne : "ORDER" ≠ keyword)
    (horder : ∀ order, orderBy = some order → isFreeName order.column = true) :
    ∀ word ∈ orderWords orderBy, Passed keyword word := by
  cases orderBy with
  | none => exact fun _ hword => nomatch hword
  | some order =>
    simp only [orderWords, List.forall_mem_cons]
    refine ⟨passed_fixedWord hkeyword (by decide) hne,
      passed_fixedWord hkeyword (by decide) (ne_clauseWord hkeyword (by decide)),
      passed_name hkeyword (horder order rfl), ?_, fun _ hword => nomatch hword⟩
    cases order.descending with
    | true => exact passed_fixedWord hkeyword (by decide) (ne_clauseWord hkeyword (by decide))
    | false => exact passed_fixedWord hkeyword (by decide) (ne_clauseWord hkeyword (by decide))

theorem passed_limitWords (limit : Option Nat) (hne : "LIMIT" ≠ keyword) :
    ∀ word ∈ limitWords limit, Passed keyword word := by
  cases limit with
  | none => exact fun _ hword => nomatch hword
  | some n =>
    simp only [limitWords, List.forall_mem_cons]
    exact ⟨passed_fixedWord hkeyword (by decide) hne, passed_digits hkeyword (digitRun_digits n),
      fun _ hword => nomatch hword⟩

end

section
variable {table : String} {filter : Option Predicate} {orderBy : Option OrderBy}
  {limit : Option Nat} {words : List (List Char)} (htable : isFreeName table = true)
  (hfilter : WrittenFilter filter words)
  (horder : ∀ order, orderBy = some order → isFreeName order.column = true)

include htable hfilter horder in
theorem visible_selectWords : ∀ word ∈ selectWords table words orderBy limit, VisibleWord word := by
  have hkeyword : "LIMIT" ∈ clauseWords := by decide
  have hlimit := passed_limitWords (by decide : "WHERE" ∈ clauseWords) limit (by decide)
  rw [selectWords, List.forall_mem_append, List.forall_mem_append, List.forall_mem_append]
  exact ⟨fun word hword => (passed_headWords hkeyword (by decide) htable word hword).toVisibleWord,
    fun word hword => (hfilter.passed hkeyword (by decide) word hword).toVisibleWord,
    fun word hword => (passed_orderWords hkeyword (by decide) horder word hword).toVisibleWord,
    fun word hword => (hlimit word hword).toVisibleWord⟩

include htable in
theorem fromPart?_selectWords :
    fromPart? (mask (line (selectWords table words orderBy limit))) = some (mask table.toList) := by
  have hplain := isPlainName_of_isFreeName htable
  have hname := solidWord_name hplain
  have hseeks : Seeks (fun cells => ((keyword? "FROM".toList cells).bind blanks?).bind
      fun r => (word? r).map Prod.fst) "FROM" :=
    (seeks_bind "FROM" fun _ hr => hr.blanks?_eq).bind _
  have hbefore : ∀ word ∈ ["SELECT".toList, "*".toList], Passed "FROM" word := by
    simp only [List.forall_mem_cons]
    exact ⟨passed_fixedWord (by decide) (by decide) (by decide),
      passed_fixedWord (by decide) (by decide) (by decide), fun _ hword => nomatch hword⟩
  have hwords : selectWords table words orderBy limit = ["SELECT".toList, "*".toList] ++
      "FROM".toList :: table.toList :: (words ++ (orderWords orderBy ++ limitWords limit)) := rfl
  rw [fromPart?, hwords, search?_line (by decide) hseeks (by simp)]
  refine search?_found (by decide) hseeks hbefore (by decide) ?_
  rw [keyword?_self (by decide), Option.bind_some, blanks?_spaced hname.visible, Option.bind_some,
    word?_name hplain (gap_mask_spaced _).head_isWord]
  rfl

/-- The clauses behind the filter end it. -/
theorem untilClauseEnd_tail (orderBy : Option OrderBy) (limit : Option Nat) :
    untilClauseEnd (mask (spaced (orderWords orderBy ++ limitWords limit))) = [] := by
  have hend : ∀ {l : List Cell}, atClauseEnd l = true → untilClauseEnd l = [] := by
    intro l hl
    cases l with
    | nil => rfl
    | cons cell l => rw [untilClauseEnd, if_pos hl]
  cases orderBy with
  | some order => exact hend rfl
  | none =>
    cases limit with
    | some n => exact hend rfl
    | none => rfl

include htable hfilter horder in
theorem wherePart?_selectWords :
    wherePart? (mask (line (selectWords table words orderBy limit))) =
      filter.map fun _ => mask (spaced words.tail) := by
  have hseeks := seeks_wholeKeyword "WHERE"
  have hhead := passed_headWords (by decide : "WHERE" ∈ clauseWords) (by decide) htable
  have htail : ∀ word ∈ orderWords orderBy ++ limitWords limit, Passed "WHERE" word :=
    List.forall_mem_append.mpr ⟨passed_orderWords (by decide) (by decide) horder,
      passed_limitWords (by decide) limit (by decide)⟩
  rw [wherePart?, search?_line (by decide) hseeks (by simp [selectWords, headWords]), selectWords]
  cases hfilter with
  | none =>
    have hall := List.forall_mem_append.mpr ⟨hhead, htail⟩
    rw [List.nil_append, search?_absent (by decide) hseeks hall]
    rfl
  | @some p words hp =>
    have hfound := wholeKeyword?_self (by decide : Unquoted "WHERE".toList)
      (gap_mask_spaced (words ++ (orderWords orderBy ++ limitWords limit)))
    have hclosed : Closed (spaced words) :=
      closed_spaced fun word hword => (hp.visible word hword).closed
    rw [List.cons_append, search?_found (by decide) hseeks hhead (by decide) hfound, Option.map_some,
      spaced_append, mask_append hclosed, untilClauseEnd_spaced (hp.passed (by decide))
        (hp.passed (by decide)) (gap_mask_spaced _), untilClauseEnd_tail, List.append_nil]
    rfl

theorem keywords?_orderBy (words : List (List Char)) :
    keywords? "ORDER".toList "BY".toList
      (mask "ORDER".toList ++ mask (spaced ("BY".toList :: words))) = some (mask (spaced words)) := by
  have hby : VisibleWord "BY".toList := visible_of_isFixedWord (by decide)
  rw [keywords?, keyword?_self (by decide), Option.bind_some, blanks?_spaced hby, Option.bind_some,
    keyword?_self (by decide)]

theorem directionPart?_spaced (descending : Bool) (words : List (List Char)) :
    directionPart? (mask (spaced (direction descending :: words))) =
      some (mask (direction descending)) := by
  have hvisible : VisibleWord (direction descending) :=
    visible_of_isFixedWord (by cases descending <;> decide)
  rw [directionPart?, blanks?_spaced hvisible]
  cases descending with
  | false =>
    have hfound : wholeKeyword? "ASC".toList (mask (direction false) ++ mask (spaced words)) = _ :=
      wholeKeyword?_self (by decide) (gap_mask_spaced words)
    simp only [Option.bind_eq_bind, Option.bind_some, hfound]
    rfl
  | true =>
    have hfound : wholeKeyword? "DESC".toList (mask (direction true) ++ mask (spaced words)) = _ :=
      wholeKeyword?_self (by decide) (gap_mask_spaced words)
    have hnone : wholeKeyword? "ASC".toList (mask (direction true) ++ mask (spaced words)) = none :=
      rfl
    simp only [Option.bind_eq_bind, Option.bind_some, hfound, hnone]
    rfl

/-- The order is taken from where the words of the line before it were passed over. -/
theorem orderByParts?_line (hwords : ∀ word ∈ words, Passed "ORDER" word) {column : String}
    (hcolumn : isFreeName column = true) (descending : Bool) (rest : List (List Char)) :
    orderByParts? (mask (line (words ++ "ORDER".toList :: "BY".toList :: column.toList ::
      direction descending :: rest))) = some (mask column.toList, some (mask (direction descending))) := by
  have hplain := isPlainName_of_isFreeName hcolumn
  have hname := solidWord_name hplain
  have horderBy : Seeks (keywords? "ORDER".toList "BY".toList) "ORDER" := seeks_keywords _
  have hseeks := (horderBy.bind blanks?).bind fun r =>
    (word? r).bind fun cut => some (cut.1, directionPart? cut.2)
  rw [orderByParts?]
  refine (search?_line (by decide) hseeks (by simp)).trans
    (search?_found (by decide) hseeks hwords (by decide) ?_)
  rw [keywords?_orderBy, Option.bind_some, blanks?_spaced hname.visible, Option.bind_some,
    word?_name hplain (gap_mask_spaced _).head_isWord, Option.bind_some, directionPart?_spaced]

include htable hfilter horder in
theorem readOrderBy_selectWords :
    readOrderBy (mask (line (selectWords table words orderBy limit))) = .ok orderBy := by
  have hbefore : ∀ word ∈ headWords table ++ words, Passed "ORDER" word :=
    List.forall_mem_append.mpr ⟨passed_headWords (by decide) (by decide) htable,
      hfilter.passed (by decide) (by decide)⟩
  have hlimit := passed_limitWords (by decide : "ORDER" ∈ clauseWords) limit (by decide)
  have hmentions : Seeks (fun cells => if atOrderBy cells then some () else none) "ORDER" := by
    intro cells hlacks
    simp [atOrderBy_eq_false hlacks]
  rw [readOrderBy, mentionsOrderBy, selectWords, ← List.append_assoc,
    search?_line (by decide) hmentions (by simp [headWords])]
  cases orderBy with
  | none =>
    have hall := List.forall_mem_append.mpr ⟨hbefore, hlimit⟩
    rw [orderWords, List.nil_append, search?_absent (by decide) hmentions hall]
    rfl
  | some order =>
    have hwords : headWords table ++ words ++ (orderWords (some order) ++ limitWords limit) =
        headWords table ++ words ++ "ORDER".toList :: ("BY".toList :: order.column.toList ::
          direction order.descending :: limitWords limit) := rfl
    have hat : atOrderBy (mask "ORDER".toList ++ mask (spaced ("BY".toList :: order.column.toList ::
        direction order.descending :: limitWords limit))) = true := by
      rw [atOrderBy, keywords?_orderBy, Option.any_some, atWordEnd, (gap_mask_spaced _).head_isWord]
      rfl
    have hparts := orderByParts?_line hbefore (horder order rfl) order.descending
      (limitWords limit)
    have hdescending : Text.asciiCaseEq (direction order.descending) "DESC".toList =
        order.descending := by
      cases order.descending <;> decide
    rw [hwords, search?_found (by decide) hmentions hbefore (by decide) (if_pos hat), hparts]
    simp only [orFault, ok_bind, Option.getD_some, readPart_mask, readName_mask, hdescending]
    rfl

theorem number?_digits (n : Nat) : number? (mask (digits n)) = some (mask (digits n), []) := by
  have hrun := digitRun_digits n
  have hdigit : ∀ cell ∈ mask (digits n), Text.isDigit cell.shown = true := by
    refine (shown_of_unquoted (fun c hc => ?_) fun c hc => ?_).shown
    · exact isQuote_of_isSolid (isSolid_of_digitRun hrun c hc)
    · have hsolid := isSolid_of_digitRun hrun c hc
      have hclass := forall_of_isSolid (p := fun c => !Text.isAsciiDigit c || Text.isDigit c)
        (by decide +kernel) hsolid
      simpa [hrun.digit c hc] using hclass
  have htake := List.takeWhile_eq_self_iff.mpr hdigit
  have hdrop := List.dropWhile_eq_nil_iff.mpr hdigit
  have hne := mask_ne_nil hrun.nonempty
  rw [number?, htake, hdrop]
  generalize mask (digits n) = l at hne
  cases l with
  | nil => exact absurd rfl hne
  | cons cell l => rfl

theorem limitPart?_line (hwords : ∀ word ∈ words, Passed "LIMIT" word) (n : Nat) :
    limitPart? (mask (line (words ++ ["LIMIT".toList, digits n]))) = some (mask (digits n)) := by
  have hdigits : VisibleWord (digits n) :=
    (passed_digits (by decide : "LIMIT" ∈ clauseWords) (digitRun_digits n)).toVisibleWord
  have hlimit : Seeks (fun cells => (keyword? "LIMIT".toList cells).bind blanks?) "LIMIT" :=
    seeks_bind "LIMIT" fun _ hr => hr.blanks?_eq
  have hseeks := hlimit.bind fun r =>
    (number? r).bind fun cut => if atWordEnd cut.2 then some cut.1 else none
  have hnil : mask (digits n) ++ mask (spaced []) = mask (digits n) := List.append_nil _
  rw [limitPart?]
  refine (search?_line (by decide) hseeks (by simp)).trans
    (search?_found (by decide) hseeks hwords (by decide) ?_)
  rw [keyword?_self (by decide), Option.bind_some, blanks?_spaced hdigits, Option.bind_some,
    hnil, number?_digits]
  rfl

include htable hfilter horder in
theorem readLimit_selectWords (hsize : ∀ n, limit = some n → n < UInt64.size) :
    readLimit (mask (line (selectWords table words orderBy limit))) = .ok limit := by
  have hseeks := seeks_wholeKeyword "LIMIT"
  have hbefore : ∀ word ∈ headWords table ++ (words ++ orderWords orderBy), Passed "LIMIT" word :=
    List.forall_mem_append.mpr ⟨passed_headWords (by decide) (by decide) htable,
      List.forall_mem_append.mpr ⟨hfilter.passed (by decide) (by decide),
        passed_orderWords (by decide) (by decide) horder⟩⟩
  rw [readLimit, mentionsLimit, selectWords, ← List.append_assoc words, ← List.append_assoc,
    search?_line (by decide) hseeks (by simp [headWords])]
  cases limit with
  | none =>
    rw [limitWords, List.append_nil, search?_absent (by decide) hseeks hbefore]
    rfl
  | some n =>
    have hcount : readCount? (digits n) = some n := by
      rw [readCount?, isDigits_of_digitRun (digitRun_digits n), ofDigits_digits]
      simp [hsize n rfl]
    rw [limitWords, search?_found (by decide) hseeks hbefore (by decide)
      (wholeKeyword?_self (by decide) (gap_mask_spaced _)), limitPart?_line hbefore]
    simp only [orFault, ok_bind, readPart_mask, hcount]
    rfl

include htable hfilter horder in
theorem readSelect_of_written (hsize : ∀ n, limit = some n → n < UInt64.size) :
    readSelect (line (selectWords table words orderBy limit)) =
      .ok (.select table filter orderBy limit) := by
  unfold readSelect
  dsimp only
  rw [fromPart?_selectWords htable, wherePart?_selectWords htable hfilter horder,
    readOrderBy_selectWords htable hfilter horder, readLimit_selectWords htable hfilter horder hsize]
  cases hfilter with
  | none =>
    simp only [orFault, ok_bind, readName_mask]
    rfl
  | @some p words hp =>
    have hread : readWhere (spaced words) = .ok p := by
      rw [spaced_eq hp.nonempty, readWhere_cons_blank Text.isBlank_space, readWhere_of_written hp]
    simp only [orFault, ok_bind, readName_mask, Option.map_some, List.tail_cons, readPart_mask, hread]
    rfl

end

end Statement

end Rowfile
