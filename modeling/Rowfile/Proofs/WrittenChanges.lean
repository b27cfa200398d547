import Rowfile.Proofs.SearchedWords

/-!
# Written UPDATE and DELETE statements

The filter of an UPDATE or DELETE is what follows WHERE. The list of assignments before it is a line of
words as well, of which none is WHERE and some end with a comma, so it reaches to the WHERE that the
statement was written with.
-/
namespace Rowfile

open Masked Pattern Clause

inductive Assignment.Written (a : Assignment) : List Char → Prop
  | words {literal : List Char} : isFreeName a.column = true → a.value.Written literal →
      Written a (line [a.column.toList, "=".toList, literal])

namespace Statement

/-- The words of an UPDATE, given the texts of its assignments and the words of its filter. -/
def updateWords (table : String) (texts words : List (List Char)) : List (List Char) :=
  ["UPDATE".toList, table.toList, "SET".toList, commaJoin texts, "WHERE".toList] ++ words

def deleteWords (table : String) (words : List (List Char)) : List (List Char) :=
  ["DELETE".toList, "FROM".toList, table.toList, "WHERE".toList] ++ words

/-! ## Deleting -/

theorem visible_deleteWords {table : String} {filter : Predicate} {words : List (List Char)}
    (htable : isFreeName table = true) (h : filter.Written words) :
    ∀ word ∈ deleteWords table words, VisibleWord word := by
  rw [deleteWords]
  simp only [List.forall_mem_append, List.forall_mem_cons]
  exact ⟨⟨visible_of_isFixedWord (by decide), visible_of_isFixedWord (by decide),
    (solidWord_freeName htable).visible, visible_of_isFixedWord (by decide),
    fun _ hword => nomatch hword⟩, h.visible⟩

theorem deleteParts?_line {table : String} {words : List (List Char)}
    (htable : isFreeName table = true) (hne : words ≠ [])
    (hwords : ∀ word ∈ words, VisibleWord word) :
    deleteParts? (mask (line (deleteWords table words))) =
      some (mask table.toList, mask (line words)) := by
  have hplain := isPlainName_of_isFreeName htable
  have hname := solidWord_name hplain
  have htext : line (deleteWords table words) =
      "DELETE FROM ".toList ++ (table.toList ++ (" WHERE".toList ++ spaced words)) := rfl
  have hkeywords : ∀ l : List Cell, keywords? "DELETE".toList "FROM".toList
      (skipBlanks (mask "DELETE FROM ".toList ++ l)) = some (.plain ' ' :: l) := fun _ => rfl
  have hwhere : ∀ l : List Cell, (blanks? (mask " WHERE".toList ++ l)).bind
      (keyword? "WHERE".toList) = some l := fun _ => rfl
  rw [htext, mask_append (by decide : Closed "DELETE FROM ".toList), mask_append hname.closed,
    mask_append (by decide : Closed " WHERE".toList), deleteParts?, hkeywords]
  have hword : word? (mask table.toList ++ (mask " WHERE".toList ++ mask (spaced words))) =
      some (mask table.toList, mask " WHERE".toList ++ mask (spaced words)) :=
    word?_name hplain rfl
  simp only [Option.bind_eq_bind, Option.bind_some, blanks?_space (hname.visible.head_isBlank _),
    hword, hwhere, clause?_spaced hne hwords]
  rfl

theorem readDelete_of_written {table : String} {filter : Predicate} {words : List (List Char)}
    (htable : isFreeName table = true) (h : filter.Written words) :
    readDelete (line (deleteWords table words)) = .ok (.delete table filter) := by
  unfold readDelete
  rw [deleteParts?_line htable h.nonempty h.visible]
  simp only [orFault, ok_bind, readName_mask, readPart_mask, readWhere_of_written h]
  rfl

/-! ## Assignments -/

/-- A list of lines is a line of its own, in which a word may end with a comma. -/
theorem exists_line_commaJoin {P : List Char → Prop} {texts : List (List Char)} (hne : texts ≠ [])
    (h : ∀ text ∈ texts, ∃ words, words ≠ [] ∧ text = line words ∧ ∀ word ∈ words, P word) :
    ∃ words, words ≠ [] ∧ commaJoin texts = line words ∧
      ∀ word ∈ words, P word ∨ ∃ word', P word' ∧ word = word' ++ [','] := by
  induction texts with
  | nil => exact absurd rfl hne
  | cons text texts ih =>
    rw [List.forall_mem_cons] at h
    obtain ⟨⟨words, hwords, rfl, hall⟩, hrest⟩ := h
    cases texts with
    | nil => exact ⟨words, hwords, commaJoin_singleton _, fun word hword => .inl (hall word hword)⟩
    | cons next texts =>
      obtain ⟨words', hwords', hline, hall'⟩ := ih (List.cons_ne_nil next texts) hrest
      obtain ⟨before, last, rfl⟩ := (List.eq_nil_or_concat words).resolve_left hwords
      rw [List.concat_eq_append] at hall ⊢
      refine ⟨before ++ [last ++ [',']] ++ words', by simp, ?_, ?_⟩
      · have hcomma : line (before ++ [last ++ [',']]) = line (before ++ [last]) ++ [','] := by
          cases before <;> simp [line, spaced]
        have hends : before ++ [last ++ [',']] ≠ [] := by simp
        rw [commaJoin_cons_cons, hline, line_append hends, hcomma, spaced_eq hwords']
        simp
      · rw [List.forall_mem_append, List.forall_mem_append, List.forall_mem_singleton]
        refine ⟨⟨fun word hword => .inl (hall word (List.mem_append_left _ hword)), ?_⟩, hall'⟩
        exact .inr ⟨last, hall last (by simp), rfl⟩

end Statement

namespace Assignment.Written

variable {a : Assignment} {text : List Char}

theorem exists_words (h : a.Written text) : ∃ words, words ≠ [] ∧ text = line words ∧
    ∀ word ∈ words, Passed "WHERE" word ∧ Shown isListed word := by
  cases h with
  | @words literal hcolumn hvalue =>
    refine ⟨_, List.cons_ne_nil _ _, rfl, ?_⟩
    simp only [List.forall_mem_cons]
    refine ⟨⟨passed_name (by decide) hcolumn,
      (solidWord_freeName hcolumn).listItem.toShown⟩,
      ⟨(ConditionWord.operator .eq).passed (by decide),
        shown_of_all (by decide)⟩,
      ⟨hvalue.passed (by decide), hvalue.solidWord.listItem.toShown⟩, fun _ hword => nomatch hword⟩

theorem listItem (h : a.Written text) : ListItem text := by
  obtain ⟨words, hne, rfl, hwords⟩ := h.exists_words
  have hvisible : ∀ word ∈ words, VisibleWord word := fun word hword =>
    (hwords word hword).1.toVisibleWord
  exact ⟨.line (by decide) fun word hword => (hwords word hword).2, trimmed_line hne hvisible,
    line_ne_nil hne hvisible⟩

theorem readAssignment_eq (h : a.Written text) : Statement.readAssignment text = .ok a := by
  cases h with
  | @words literal hcolumn hvalue =>
    have hplain := isPlainName_of_isFreeName hcolumn
    have hname := solidWord_name hplain
    have hliteral := hvalue.solidWord
    have htext : line [a.column.toList, "=".toList, literal] =
        a.column.toList ++ (" = ".toList ++ literal) := by simp [line, spaced]
    have hequals : ∀ l : List Cell, breakAt? id ['='] (mask " = ".toList ++ l) =
        some ([.plain ' '], .plain ' ' :: l) := fun _ => rfl
    have hcut : breakAt? id ['='] (mask (a.column.toList ++ (" = ".toList ++ literal))) =
        some (mask (a.column.toList ++ [' ']), mask (' ' :: literal)) := by
      have hsolid := breakAt?_solid .eq (fun cell hcell => hname.shown cell hcell)
        (mask " = ".toList ++ mask literal)
      rw [mask_append hname.closed, mask_append (by decide : Closed " = ".toList),
        mask_append hname.closed, mask_cons (c := ' ') (by decide)]
      exact hsolid
    have hcolumnTrim : Text.trim (a.column.toList ++ [' ']) = a.column.toList := by
      rw [Text.trim_concat_blank Text.isBlank_space, hname.visible.trimmed.trim_eq]
    have hliteralTrim : Text.trim (' ' :: literal) = literal := by
      rw [Text.trim_cons_blank Text.isBlank_space, hliteral.visible.trimmed.trim_eq]
    have hempty : literal.isEmpty = false := by simpa using hliteral.nonempty
    unfold Statement.readAssignment
    rw [htext, hcut]
    simp only [Statement.orFault, ok_bind, readTrimmed_mask, hcolumnTrim, hliteralTrim,
      isIdentifier_name hplain, hempty, hvalue.ofLiteral_eq, String.ofList_toList]
    rfl

end Assignment.Written

namespace Statement

/-! ## Changing -/

theorem texts_ne_nil {assignments : List Assignment} {texts : List (List Char)}
    (hne : assignments ≠ []) (h : List.Forall₂ Assignment.Written assignments texts) :
    texts ≠ [] := by
  rintro rfl
  cases h
  exact hne rfl

/-- Written assignments are a line of words among which WHERE is not. -/
theorem exists_line_assignments {assignments : List Assignment} {texts : List (List Char)}
    (hne : texts ≠ []) (h : List.Forall₂ Assignment.Written assignments texts) :
    ∃ items, items ≠ [] ∧ commaJoin texts = line items ∧
      ∀ item ∈ items, VisibleWord item ∧ ∀ r, Gap r → Lacks "WHERE" (mask item ++ r) := by
  obtain ⟨items, hitems, hjoined, hall⟩ :=
    exists_line_commaJoin hne (forall_of_written (fun _ _ ha => ha.exists_words) h)
  refine ⟨items, hitems, hjoined, fun item hitem => ?_⟩
  obtain ⟨hpassed, -⟩ | ⟨word, ⟨hpassed, -⟩, rfl⟩ := hall item hitem
  · exact ⟨hpassed.toVisibleWord, fun r hr => hpassed.lacks (by decide) hr.apart⟩
  · have hcomma : Shown isVisible [','] := shown_of_all (by decide)
    refine ⟨⟨hpassed.append hcomma, by simp⟩, fun r _ => ?_⟩
    rw [mask_append hpassed.closed, List.append_assoc]
    refine hpassed.lacks (by decide) fun cell hcell => ?_
    obtain rfl : .plain ',' = cell := Option.some.inj hcell
    decide +kernel

/-- An UPDATE is a line of visible words. -/
theorem exists_line_updateWords {table : String} {assignments : List Assignment}
    {filter : Predicate} {texts words : List (List Char)} (htable : isFreeName table = true)
    (hne : texts ≠ []) (h : List.Forall₂ Assignment.Written assignments texts)
    (hfilter : filter.Written words) :
    ∃ words', words' ≠ [] ∧ line (updateWords table texts words) = line words' ∧
      ∀ word ∈ words', VisibleWord word := by
  obtain ⟨items, hitems, hjoined, hitem⟩ := exists_line_assignments hne h
  have hbefore : ["UPDATE".toList, table.toList, "SET".toList] ≠ [] := List.cons_ne_nil _ _
  refine ⟨["UPDATE".toList, table.toList, "SET".toList] ++ (items ++ "WHERE".toList :: words),
    by simp, ?_, ?_⟩
  · rw [updateWords, hjoined]
    exact line_append_line hbefore hitems _
  · simp only [List.forall_mem_append, List.forall_mem_cons]
    exact ⟨⟨visible_of_isFixedWord (by decide), (solidWord_freeName htable).visible,
      visible_of_isFixedWord (by decide), fun _ hword => nomatch hword⟩,
      fun item hi => (hitem item hi).1, visible_of_isFixedWord (by decide), hfilter.visible⟩

theorem updateParts?_line {table : String} {assignments : List Assignment}
    {texts words : List (List Char)} (htable : isFreeName table = true) (hne : texts ≠ [])
    (h : List.Forall₂ Assignment.Written assignments texts) (hwords : words ≠ [])
    (hvisible : ∀ word ∈ words, VisibleWord word) :
    updateParts? (mask (line (updateWords table texts words))) =
      some (mask table.toList, mask (commaJoin texts), mask (line words)) := by
  have hplain := isPlainName_of_isFreeName htable
  have hname := solidWord_name hplain
  obtain ⟨items, hitems, hjoined, hitem⟩ := exists_line_assignments hne h
  have hhead := head_line_isBlank hitems (fun item hi => (hitem item hi).1)
    (mask (spaced ("WHERE".toList :: words)))
  have htext : line (updateWords table texts words) =
      "UPDATE ".toList ++ (table.toList ++ (" SET ".toList ++
        (line items ++ spaced ("WHERE".toList :: words)))) := by
    rw [updateWords, hjoined]
    rfl
  have hclosed : Closed (line items) := closed_line fun item hi => (hitem item hi).1.closed
  have hupdate : ∀ l : List Cell, keyword? "UPDATE".toList
      (skipBlanks (mask "UPDATE ".toList ++ l)) = some (.plain ' ' :: l) := fun _ => rfl
  have hset : ∀ l : List Cell, (blanks? (mask " SET ".toList ++ l)).bind
      (keyword? "SET".toList) = some (.plain ' ' :: l) := fun _ => rfl
  have hword : ∀ l : List Cell, word? (mask table.toList ++ (mask " SET ".toList ++ l)) =
      some (mask table.toList, mask " SET ".toList ++ l) := fun _ => word?_name hplain rfl
  have hclause := clauseAfter?_line (by decide : isFixedWord "WHERE".toList = true) hitems
    (fun item hi => (hitem item hi).1)
    (fun item hi => (hitem item hi).2) hwords hvisible
  rw [htext, mask_append (by decide : Closed "UPDATE ".toList), mask_append hname.closed,
    mask_append (by decide : Closed " SET ".toList), mask_append hclosed, updateParts?, hupdate]
  simp only [Option.bind_eq_bind, Option.bind_some, blanks?_space (hname.visible.head_isBlank _),
    hword, hset, skipBlanks_space hhead, takeWhile_isBlank_space hhead,
    hclause, hjoined]
  rfl

theorem readUpdate_of_written {table : String} {assignments : List Assignment} {filter : Predicate}
    {texts words : List (List Char)} (htable : isFreeName table = true) (hne : assignments ≠ [])
    (h : List.Forall₂ Assignment.Written assignments texts) (hfilter : filter.Written words) :
    readUpdate (line (updateWords table texts words)) = .ok (.update table assignments filter) := by
  have htexts := texts_ne_nil hne h
  have hempty : assignments.isEmpty = false := by simpa using hne
  have hread := mapM_of_written (fun _ _ ha => ha.readAssignment_eq) h
  unfold readUpdate
  rw [updateParts?_line htable htexts h hfilter.nonempty hfilter.visible]
  simp only [orFault, ok_bind, readName_mask, readPart_mask,
    atSeparator?_commaJoin (forall_of_written (fun _ _ ha => ha.listItem) h), orTorn, hread, hempty,
    readWhere_of_written hfilter]
  rfl

end Statement

end Rowfile
