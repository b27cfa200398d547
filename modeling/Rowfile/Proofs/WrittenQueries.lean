import Rowfile.Proofs.WrittenChanges
import Rowfile.Proofs.WrittenSelects

/-!
# Written statements on records

A SELECT, UPDATE or DELETE is written as a line of words. Its clauses are found again by their
keywords, since none of these is a name and none is shown by a literal, and each clause ends where the
next one begins. So the statement is read back with its filter, its order and its limit.
-/
namespace Rowfile

open Masked Clause

namespace Statement

inductive Written : Statement → List Char → Prop
  | select {table : String} {filter : Option Predicate} {orderBy : Option OrderBy}
      {limit : Option Nat} {words : List (List Char)} :
      isFreeName table = true → WrittenFilter filter words →
      (∀ order, orderBy = some order → isFreeName order.column = true) →
      (∀ n, limit = some n → n < UInt64.size) →
      Written (.select table filter orderBy limit) (line (selectWords table words orderBy limit))
  | update {table : String} {assignments : List Assignment} {filter : Predicate}
      {texts words : List (List Char)} :
      isFreeName table = true → assignments ≠ [] →
      List.Forall₂ Assignment.Written assignments texts → filter.Written words →
      Written (.update table assignments filter) (line (updateWords table texts words))
  | delete {table : String} {filter : Predicate} {words : List (List Char)} :
      isFreeName table = true → filter.Written words →
      Written (.delete table filter) (line (deleteWords table words))

/-! ## Reading a statement back -/

/-- A line of visible words is taken as it is. -/
theorem body_line {words : List (List Char)} (hne : words ≠ [])
    (h : ∀ word ∈ words, VisibleWord word) : body (line words) = line words := by
  have hshown : Shown (fun c => c != ';') (line words) := by
    refine .line (by decide) fun word hword => (h word hword).toShown.imp fun c hc => ?_
    rw [isVisible, Bool.and_eq_true] at hc
    exact hc.2
  have hlast : (line words).getLast? ≠ some ';' := by
    intro hlast
    have hsemicolon := hshown.of_getLast? hlast (by decide)
    exact absurd hsemicolon (by decide)
  rw [body, (trimmed_line hne h).trim_eq]
  exact if_neg hlast

theorem Written.exists_words {st : Statement} {text : List Char} (h : st.Written text) :
    ∃ words, words ≠ [] ∧ text = line words ∧ ∀ word ∈ words, VisibleWord word := by
  cases h with
  | select htable hfilter horder =>
    exact ⟨_, List.cons_ne_nil _ _, rfl, visible_selectWords htable hfilter horder⟩
  | update htable hne hassignments hfilter =>
    exact exists_line_updateWords htable (texts_ne_nil hne hassignments) hassignments hfilter
  | delete htable hfilter =>
    exact ⟨_, List.cons_ne_nil _ _, rfl, visible_deleteWords htable hfilter⟩

theorem Written.body_eq {st : Statement} {text : List Char} (h : st.Written text) :
    body text = text := by
  obtain ⟨words, hne, rfl, hvisible⟩ := h.exists_words
  exact body_line hne hvisible

/-- A written SELECT, UPDATE or DELETE is read back as the statement that it writes. -/
theorem read_of_written {st : Statement} {text : List Char} (h : st.Written text) :
    Statement.read text = .ok st := by
  have hbody := h.body_eq
  cases h with
  | @select table filter orderBy limit words htable hfilter horder hsize =>
    have hchosen : Statement.read (line (selectWords table words orderBy limit)) =
        orMalformed (readSelect (line (selectWords table words orderBy limit))) := by
      unfold Statement.read
      rw [hbody]
      rfl
    rw [hchosen, readSelect_of_written htable hfilter horder hsize]
    rfl
  | @update table assignments filter texts words htable hne hassignments hfilter =>
    have hchosen : Statement.read (line (updateWords table texts words)) =
        orMalformed (readUpdate (line (updateWords table texts words))) := by
      unfold Statement.read
      rw [hbody]
      rfl
    rw [hchosen, readUpdate_of_written htable hne hassignments hfilter]
    rfl
  | @delete table filter words htable hfilter =>
    have hchosen : Statement.read (line (deleteWords table words)) =
        orMalformed (readDelete (line (deleteWords table words))) := by
      unfold Statement.read
      rw [hbody]
      rfl
    rw [hchosen, readDelete_of_written htable hfilter]
    rfl

/-- Names that keywords begin with, and literals that look like clauses. -/
theorem read_of_written_keywords :
    Statement.read ("SELECT * FROM orders WHERE LIKE LIKE 'x OR \"y' AND by >= '' OR ands != " ++
        "\"<= 'z' LIMIT 1\" ORDER BY asc DESC LIMIT 18446744073709551615").toList =
      .ok (.select "orders" (some (.any [.all [.compare ⟨"LIKE", .like, "x OR \"y"⟩,
        .compare ⟨"by", .ge, ""⟩], .compare ⟨"ands", .ne, "<= 'z' LIMIT 1"⟩]))
        (some ⟨"asc", true⟩) (some 18446744073709551615)) := by
  have hlike : Condition.Written ⟨"LIKE", .like, "x OR \"y"⟩ _ :=
    .words (q := '\x27') (by decide) (by decide) (by decide)
  have hby : Condition.Written ⟨"by", .ge, ""⟩ _ :=
    .words (q := '\x27') (by decide) (by decide) (by decide)
  have hands : Condition.Written ⟨"ands", .ne, "<= 'z' LIMIT 1"⟩ _ :=
    .words (q := '"') (by decide) (by decide) (by decide)
  have hall := @Predicate.WrittenConjunction.all [_, _] _ (by decide) (.cons hlike (.cons hby .nil))
  have hfilter := @Predicate.Written.any [_, _] _ (by decide)
    (.cons hall (.cons (.compare hands) .nil))
  have hwritten := @Written.select "orders" _ (some ⟨"asc", true⟩) (some 18446744073709551615) _
    (by decide) (.some hfilter) (by rintro _ ⟨⟩; decide) (by rintro _ ⟨⟩; decide)
  exact (congrArg Statement.read (by decide +kernel)).trans (read_of_written hwritten)

end Statement

end Rowfile
