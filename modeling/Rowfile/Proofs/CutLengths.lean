import Rowfile.Proofs.Readers
import Rowfile.Proofs.Recognisers
import Rowfile.Proofs.Spans

/-!
# What cuts keep

A cut leaves out the separators or blanks that it is made at and keeps all else in order. So the words
of a text hold no more characters than the text, and a word of the same length is the text itself,
which is then not cut at all. The first piece ends before the first separator outside parentheses, and
there are more pieces just when there is such a separator.
-/
namespace Rowfile

open Masked

/-- The character that begins at a cell. -/
def Cell.character? : Cell → Option Char
  | .plain c | .filler c => some c
  | .tail => none

namespace Masked

theorem readFrom?_eq_some {owed : Nat} {cells : List Cell} {cs : List Char}
    (h : readFrom? owed cells = some cs) : cells.filterMap Cell.character? = cs := by
  fun_induction readFrom? owed cells generalizing cs with
  | case1 => exact Option.some.inj h
  | case2 c r ih | case3 c r ih =>
    obtain ⟨rest, hrest, rfl⟩ := Option.map_eq_some_iff.mp h
    exact congrArg (c :: ·) (ih hrest)
  | case4 owed r ih => exact ih h
  | case5 => cases h

/-- What cells cover begins with the character at their first one. -/
theorem ne_nil_of_read? {cells : List Cell} {cs : List Char} (h : read? cells = some cs)
    (hcells : cells ≠ []) : cs ≠ [] := by
  rintro rfl
  cases cells with
  | nil => exact hcells rfl
  | cons cell cells =>
    cases cell with
    | plain c | filler c =>
      obtain ⟨_, _, h⟩ := Option.map_eq_some_iff.mp h
      cases h
    | tail => cases h

end Masked

namespace Split

/-! ## Words between blanks -/

theorem flatten_consToken (token : List Cell) (tokens : List (List Cell)) :
    (consToken token tokens).flatten = token ++ tokens.flatten := by
  cases token <;> rfl

theorem forall_mem_consToken {p : List Cell → Prop} {token : List Cell} {tokens : List (List Cell)}
    (htoken : token ≠ [] → p token) (htokens : ∀ t ∈ tokens, p t) :
    ∀ t ∈ consToken token tokens, p t := by
  cases token with
  | nil => exact htokens
  | cons cell token => exact List.forall_mem_cons.mpr ⟨htoken (List.cons_ne_nil _ _), htokens⟩

theorem sublist_tokensFrom (depth : Nat) (l : List Cell) :
    ((tokensFrom depth l).1 ++ (tokensFrom depth l).2.flatten).Sublist l := by
  fun_induction tokensFrom depth l with
  | case1 => exact List.Sublist.refl _
  | case2 depth cell r _ token tokens hrest ih =>
    rw [hrest] at ih
    rw [List.nil_append, flatten_consToken]
    exact ih.cons cell
  | case3 depth cell r _ token tokens hrest ih =>
    rw [hrest] at ih
    exact ih.cons_cons cell

theorem ne_nil_of_mem_tokensFrom (depth : Nat) (l : List Cell) :
    ∀ token ∈ (tokensFrom depth l).2, token ≠ [] := by
  fun_induction tokensFrom depth l with
  | case1 => exact fun _ h => nomatch h
  | case2 depth cell r _ token tokens hrest ih =>
    rw [hrest] at ih
    exact forall_mem_consToken id ih
  | case3 depth cell r _ token tokens hrest ih =>
    rw [hrest] at ih
    exact ih

/-- The words of a text are its characters in order, some blanks apart. -/
theorem sublist_atBlanks? {text : List Char} {words : List (List Char)}
    (h : atBlanks? text = some words) : words.flatten.Sublist text := by
  have hkept := sublist_tokensFrom 0 (mask text)
  rw [atBlanks?] at h
  generalize tokensFrom 0 (mask text) = cut at h hkept
  obtain ⟨token, tokens⟩ := cut
  have hflat : ∀ {pieces : List (List Cell)} {texts : List (List Char)},
      List.Forall₂ (fun piece text => read? piece = some text) pieces texts →
      pieces.flatten.filterMap Cell.character? = texts.flatten := by
    intro pieces texts hread
    induction hread with
    | nil => rfl
    | cons hfirst _ ih =>
      rw [List.flatten_cons, List.filterMap_append, readFrom?_eq_some hfirst, ih, List.flatten_cons]
  rw [← hflat (mapM_eq_some_iff.mp h), flatten_consToken,
    ← readFrom?_eq_some (read?_mask text)]
  exact hkept.filterMap _

theorem ne_nil_of_mem_atBlanks? {text : List Char} {words : List (List Char)}
    (h : atBlanks? text = some words) : ∀ word ∈ words, word ≠ [] := by
  have htokens := ne_nil_of_mem_tokensFrom 0 (mask text)
  rw [atBlanks?] at h
  generalize tokensFrom 0 (mask text) = cut at h htokens
  intro word hword
  obtain ⟨piece, hpiece, hread⟩ := exists_mem_of_forall₂ (mapM_eq_some_iff.mp h).flip hword
  exact ne_nil_of_read? hread (forall_mem_consToken (p := (· ≠ [])) id htokens piece hpiece)

/-- No word is longer than its text, and one of the same length is the whole text. -/
theorem atBlanks?_eq_singleton {text word : List Char} {words : List (List Char)}
    (h : atBlanks? text = some words) (hword : word ∈ words) :
    word.length ≤ text.length ∧ (word.length = text.length → word = text ∧ words = [word]) := by
  have hkept := sublist_atBlanks? h
  have hne := ne_nil_of_mem_atBlanks? h
  obtain ⟨before, after, rfl⟩ := List.append_of_mem hword
  have hlength := hkept.length_le
  simp only [List.flatten_append, List.flatten_cons, List.length_append] at hlength
  refine ⟨by omega, fun heq => ?_⟩
  have hnil : ∀ {others : List (List Char)}, (∀ word ∈ others, word ≠ []) →
      others.flatten.length = 0 → others = [] := by
    intro others hothers hzero
    cases others with
    | nil => rfl
    | cons first others =>
      have hfirst := List.length_pos_iff.mpr (hothers first List.mem_cons_self)
      rw [List.flatten_cons, List.length_append] at hzero
      omega
  obtain rfl := hnil (fun w hw => hne w (by simp [hw])) (by omega : before.flatten.length = 0)
  obtain rfl := hnil (fun w hw => hne w (by simp [hw])) (by omega : after.flatten.length = 0)
  refine ⟨?_, rfl⟩
  rw [List.nil_append, List.flatten_cons, List.flatten_nil, List.append_nil] at hkept
  exact hkept.eq_of_length heq

/-! ## Pieces between separators -/

variable {separator : Char}

/-- The first piece is all there is, or a separator stands behind it and there are more. -/
theorem piecesFrom_cases (separator : Char) (depth : Nat) (l : List Cell) :
    (piecesFrom separator depth l).1 = l ∧ (piecesFrom separator depth l).2 = [] ∨
      ∃ cell r, l = (piecesFrom separator depth l).1 ++ cell :: r ∧ cell.shown = separator ∧
        (piecesFrom separator depth l).2 ≠ [] := by
  fun_induction piecesFrom separator depth l with
  | case1 => exact .inl ⟨rfl, rfl⟩
  | case2 depth cell r hcell piece pieces hrest ih =>
    simp only [Bool.and_eq_true, beq_iff_eq] at hcell
    exact .inr ⟨cell, r, rfl, hcell.1.2, List.cons_ne_nil _ _⟩
  | case3 depth cell r _ piece pieces hrest ih =>
    rw [hrest] at ih
    rcases ih with ⟨rfl, hnone⟩ | ⟨cell', r', hr, hshown, hmore⟩
    · exact .inl ⟨rfl, hnone⟩
    · exact .inr ⟨cell', r', congrArg (cell :: ·) hr, hshown, hmore⟩

/-- The first piece of a text reads back to a text of its own, which is shorter unless it is the only
piece. -/
theorem piecesFrom_mask (hseparator : separator ≠ '_') (text : List Char) :
    ∃ first, (piecesFrom separator 0 (mask text)).1 = mask first ∧ first.length ≤ text.length ∧
      (first.length = text.length → first = text ∧ (piecesFrom separator 0 (mask text)).2 = []) ∧
      ((piecesFrom separator 0 (mask text)).2 = [] → first = text) := by
  rcases piecesFrom_cases separator 0 (mask text) with ⟨hfirst, hnone⟩ | ⟨cell, r, hcut, hcell, hmore⟩
  · exact ⟨text, hfirst, Nat.le_refl _, fun _ => ⟨rfl, hnone⟩, fun _ => rfl⟩
  · obtain ⟨first, c, rest, rfl, -, -, hfirst, -⟩ := mask_eq_append_cons hcut (hcell ▸ hseparator)
    refine ⟨first, hfirst, by simp, fun hlength => ?_, fun hnone => absurd hnone hmore⟩
    simp at hlength

end Split

/-! ## Bodies in parentheses -/

/-- What stands before the last of a character in a text that ends with it is a text with its quotes
closed, which is shorter than what stands before the end unless it is the same. -/
theorem Pattern.beforeLast?_mask_concat {c : Char} (hc : c ≠ '_') {text : List Char}
    {body : List Cell} (h : beforeLast? c (mask (text ++ [c])) = some body) :
    ∃ kept, body = mask kept ∧ Closed kept ∧ kept.length ≤ text.length ∧
      (kept.length = text.length → kept = text) := by
  obtain ⟨cell, rest, hcut, hcell, -⟩ := beforeLast?_eq_some_iff.mp h
  obtain ⟨kept, d, after, htext, hclosed, -, hbody, -⟩ := mask_eq_append_cons hcut (hcell ▸ hc)
  have hlength := congrArg List.length htext
  simp only [List.length_append, List.length_cons, List.length_nil] at hlength
  refine ⟨kept, hbody, hclosed, by omega, fun heq => ?_⟩
  exact (List.append_inj_left htext heq.symm).symm

end Rowfile
