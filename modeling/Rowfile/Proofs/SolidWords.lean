import Rowfile.Proofs.Passing

/-!
# Words of written statements

A written statement is made of solid words: names, keywords and numbers in letters, digits, low lines
and points, and literals between quotes, which are masked by low lines. No solid word shows a blank, a
comma, a parenthesis or a sign of comparison, so a word is taken whole wherever it stands.
-/
namespace Rowfile

open Masked

/-- A letter or digit of plain text, the low line or the point. -/
def isSolid (c : Char) : Bool := c.isAlphanum || c == '_' || c == '.'

theorem toNat_lt_of_isSolid {c : Char} (hc : isSolid c = true) : c.toNat < 128 := by
  have hbelow : ∀ high : UInt32, high.toNat < 128 → c.val ≤ high → c.toNat < 128 :=
    fun _ hhigh h => Nat.lt_of_le_of_lt (UInt32.le_iff_toNat_le.mp h) hhigh
  simp only [isSolid, Bool.or_eq_true, beq_iff_eq] at hc
  rcases hc with (hc | rfl) | rfl
  · obtain hc | hc := Bool.or_eq_true_iff.mp hc
    · obtain hc | hc := Bool.or_eq_true_iff.mp hc
      · exact hbelow 'Z'.val (by decide) (of_decide_eq_true hc).2
      · exact hbelow 'z'.val (by decide) (of_decide_eq_true (Bool.and_eq_true_iff.mp hc).2)
    · exact hbelow '9'.val (by decide) (of_decide_eq_true (Bool.and_eq_true_iff.mp hc).2)
  · decide
  · decide

/-- What holds of the solid characters among the first 128 holds of all of them. -/
theorem forall_of_isSolid {p : Char → Bool}
    (h : ((List.range 128).map Char.ofNat).all (fun c => !isSolid c || p c) = true) {c : Char}
    (hc : isSolid c = true) : p c = true := by
  have hmem : c ∈ (List.range 128).map Char.ofNat :=
    List.mem_map.mpr ⟨c.toNat, List.mem_range.mpr (toNat_lt_of_isSolid hc), Char.ofNat_toNat c⟩
  have hp := List.all_eq_true.mp h c hmem
  rw [hc] at hp
  exact hp

theorem isQuote_of_isSolid {c : Char} (hc : isSolid c = true) : isQuote c = false := by
  have := forall_of_isSolid (p := fun c => !isQuote c) (by decide +kernel) hc
  simpa using this

/-! ## Texts by what they show -/

/-- Every quote of the text is closed, and outside quotes it has only characters of a class. -/
structure Shown (p : Char → Bool) (cs : List Char) : Prop where
  closed : Closed cs
  shown : ∀ cell ∈ mask cs, p cell.shown = true

variable {p : Char → Bool} {cs ds : List Char}

theorem shown_of_unquoted (hcs : Unquoted cs) (h : ∀ c ∈ cs, p c = true) : Shown p cs := by
  refine ⟨hcs.closed, fun cell hcell => ?_⟩
  rw [mask_of_unquoted hcs] at hcell
  obtain ⟨c, hc, rfl⟩ := List.mem_map.mp hcell
  exact h c hc

theorem shown_of_all (h : cs.all (fun c => !isQuote c && p c) = true) : Shown p cs := by
  simp only [List.all_eq_true, Bool.and_eq_true, Bool.not_eq_true'] at h
  exact shown_of_unquoted (fun c hc => (h c hc).1) fun c hc => (h c hc).2

theorem shown_of_solid (h : ∀ c ∈ cs, isSolid c = true) : Shown isSolid cs :=
  shown_of_unquoted (fun c hc => isQuote_of_isSolid (h c hc)) h

theorem shown_inQuotes {q : Char} (hq : isQuote q = true) (hcs : q ∉ cs) (hp : p '_' = true) :
    Shown p (inQuotes q cs) := by
  refine ⟨closed_inQuotes hq hcs, fun cell hcell => ?_⟩
  rw [mask_inQuotes hq hcs] at hcell
  rw [(covered_inQuotes q cs).shown cell hcell, hp]

namespace Shown

theorem append (hcs : Shown p cs) (hds : Shown p ds) : Shown p (cs ++ ds) := by
  refine ⟨hcs.closed.append hds.closed, fun cell hcell => ?_⟩
  rw [mask_append hcs.closed, List.mem_append] at hcell
  exact hcell.elim (hcs.shown cell) (hds.shown cell)

theorem imp {p' : Char → Bool} (h : Shown p cs) (hp : ∀ c, p c = true → p' c = true) :
    Shown p' cs :=
  ⟨h.closed, fun cell hcell => hp _ (h.shown cell hcell)⟩

end Shown

/-! ## Texts without blanks around them -/

structure Trimmed (cs : List Char) : Prop where
  first : ∀ c, cs.head? = some c → Text.isBlank c = false
  last : ∀ c, cs.getLast? = some c → Text.isBlank c = false

theorem isQuote_of_quoteAfter {q : Char} (cs : List Char) (quote : Option Char)
    (hquote : ∀ q, quote = some q → isQuote q = true) (h : quoteAfter quote cs = some q) :
    isQuote q = true := by
  induction cs generalizing quote with
  | nil => exact hquote q h
  | cons c cs ih =>
    cases quote with
    | none =>
      refine ih _ (fun q hq => ?_) h
      split at hq
      · next hc => exact Option.some.inj hq ▸ hc
      · cases hq
    | some quote =>
      refine ih _ (fun q hq => ?_) h
      split at hq
      · cases hq
      · exact hquote q hq

/-- The first character is shown, unless it is a quote. -/
theorem Shown.of_head? (h : Shown p cs) {c : Char} (hc : cs.head? = some c)
    (hquote : isQuote c = false) : p c = true := by
  cases cs with
  | nil => cases hc
  | cons d cs =>
    obtain rfl := Option.some.inj hc
    refine h.shown (.plain d) ?_
    rw [mask_cons hquote]
    exact List.mem_cons_self

/-- The last character is shown, unless it is a quote: it would not stand within an open one. -/
theorem Shown.of_getLast? (h : Shown p cs) {c : Char} (hc : cs.getLast? = some c)
    (hquote : isQuote c = false) : p c = true := by
  obtain ⟨before, rfl⟩ := List.getLast?_eq_some_iff.mp hc
  have hclosed := h.closed
  have hbefore : Closed before := by
    rw [Closed, quoteAfter_append] at hclosed
    cases hopen : quoteAfter none before with
    | none => exact hopen
    | some q =>
      have hq := isQuote_of_quoteAfter before none (by simp) hopen
      rw [hopen, quoteAfter] at hclosed
      split at hclosed
      · next heq =>
        rw [heq, hq] at hquote
        exact absurd hquote.symm Bool.false_ne_true
      · cases hclosed
  refine h.shown (.plain c) ?_
  rw [mask_append hbefore, mask_cons hquote]
  exact List.mem_append_right _ List.mem_cons_self

theorem Shown.trimmed (h : Shown p cs) (hp : ∀ c, p c = true → Text.isBlank c = false) :
    Trimmed cs := by
  have hend : ∀ c, (isQuote c = false → p c = true) → Text.isBlank c = false := by
    intro c hc
    cases hblank : Text.isBlank c with
    | false => rfl
    | true => rw [← hblank, hp c (hc (isQuote_of_isBlank hblank))]
  exact ⟨fun c hc => hend c (h.of_head? hc), fun c hc => hend c (h.of_getLast? hc)⟩

namespace Trimmed

theorem trimStart_eq (h : Trimmed cs) : Text.trimStart cs = cs := by
  cases cs with
  | nil => rfl
  | cons c cs =>
    rw [Text.trimStart, List.dropWhile_cons, h.first c rfl]
    rfl

theorem trimEnd_eq (h : Trimmed cs) : Text.trimEnd cs = cs := by
  rcases List.eq_nil_or_concat cs with rfl | ⟨before, c, rfl⟩
  · rfl
  · rw [Text.trimEnd, List.concat_eq_append, List.reverse_append, List.reverse_singleton,
      List.singleton_append, List.dropWhile_cons, h.last c (by simp)]
    simp

theorem trim_eq (h : Trimmed cs) : Text.trim cs = cs := by
  rw [Text.trim, h.trimStart_eq, h.trimEnd_eq]

/-- Only the two ends matter. -/
theorem around (hcs : Trimmed cs) (hcsne : cs ≠ []) (between : List Char) (hds : Trimmed ds)
    (hdsne : ds ≠ []) : Trimmed (cs ++ (between ++ ds)) := by
  refine ⟨fun c hc => hcs.first c ?_, fun c hc => hds.last c ?_⟩
  · rwa [List.head?_append_of_ne_nil _ hcsne] at hc
  · rwa [← List.append_assoc, List.getLast?_append_of_ne_nil _ hdsne] at hc

end Trimmed

namespace Text

theorem trim_cons_blank {c : Char} (hc : isBlank c = true) (cs : List Char) :
    trim (c :: cs) = trim cs := by
  rw [trim, trimStart, List.dropWhile_cons, if_pos hc]
  rfl

theorem trim_concat_blank {c : Char} (hc : isBlank c = true) (cs : List Char) :
    trim (cs ++ [c]) = trim cs := by
  have hend : ∀ ds : List Char, trimEnd (ds ++ [c]) = trimEnd ds := by
    intro ds
    rw [trimEnd, List.reverse_append, List.reverse_singleton, List.singleton_append,
      List.dropWhile_cons, if_pos hc]
    rfl
  rw [trim, trimStart, List.dropWhile_append, trim, trimStart]
  split
  · next hempty =>
    rw [List.isEmpty_iff.mp hempty, List.dropWhile_cons, if_pos hc]
    rfl
  · exact hend _

theorem sublist_trim (cs : List Char) : (trim cs).Sublist cs := by
  have hend := (List.dropWhile_sublist isBlank (l := (trimStart cs).reverse)).reverse
  rw [List.reverse_reverse] at hend
  exact hend.trans (List.dropWhile_sublist isBlank)

end Text

/-- What stays as it is when it is trimmed has no blanks around it. -/
theorem trimmed_of_trim_eq (h : Text.trim cs = cs) : Trimmed cs := by
  have hshorter : ∀ {ds}, Text.trim cs = Text.trim ds → ds.length < cs.length → False := by
    intro ds htrim hlength
    rw [← h, htrim] at hlength
    exact absurd (Text.sublist_trim ds).length_le (by omega)
  refine ⟨fun c hc => ?_, fun c hc => ?_⟩
  · cases cs with
    | nil => cases hc
    | cons d ds =>
      obtain rfl := Option.some.inj hc
      by_contra hblank
      rw [Bool.not_eq_false] at hblank
      exact hshorter (Text.trim_cons_blank hblank ds) (by simp)
  · obtain ⟨ds, rfl⟩ := List.getLast?_eq_some_iff.mp hc
    by_contra hblank
    rw [Bool.not_eq_false] at hblank
    exact hshorter (Text.trim_concat_blank hblank ds) (by simp)

/-! ## Visible and solid words -/

theorem mask_ne_nil (h : cs ≠ []) : mask cs ≠ [] := by
  intro hnil
  exact h (mask_injective (hnil.trans mask_nil.symm))

/-- The character is no blank and does not end a statement. -/
def isVisible (c : Char) : Bool := !Text.isBlank c && c != ';'

theorem isBlank_of_isVisible {c : Char} (hc : isVisible c = true) : Text.isBlank c = false := by
  simp only [isVisible, Bool.and_eq_true, Bool.not_eq_true'] at hc
  exact hc.1

theorem Text.isAsciiBlank_eq_false {c : Char} (hc : isBlank c = false) : isAsciiBlank c = false := by
  rw [Bool.eq_false_iff]
  intro h
  simp only [isAsciiBlank, Bool.or_eq_true, beq_iff_eq] at h
  rcases h with (((rfl | rfl) | rfl) | rfl) | rfl <;> exact absurd hc (by decide)

structure VisibleWord (cs : List Char) : Prop extends Shown isVisible cs where
  nonempty : cs ≠ []

namespace VisibleWord

theorem trimmed (h : VisibleWord cs) : Trimmed cs :=
  h.toShown.trimmed fun _ => isBlank_of_isVisible

theorem isBlank_cell (h : VisibleWord cs) {cell : Cell} (hcell : cell ∈ mask cs) :
    cell.isBlank = false :=
  isBlank_of_isVisible (h.shown cell hcell)

theorem head_isBlank (h : VisibleWord cs) (r : List Cell) :
    (mask cs ++ r).head?.any Cell.isBlank = false := by
  have hcells := fun cell (hcell : cell ∈ mask cs) => h.isBlank_cell hcell
  have hne := mask_ne_nil h.nonempty
  generalize mask cs = l at hcells hne
  cases l with
  | nil => exact absurd rfl hne
  | cons cell l => simpa using hcells cell List.mem_cons_self

end VisibleWord

/-- A word of visible characters without quotes. -/
def isFixedWord (cs : List Char) : Bool :=
  !cs.isEmpty && cs.all fun c => !isQuote c && isVisible c

theorem visible_of_isFixedWord (h : isFixedWord cs = true) : VisibleWord cs := by
  rw [isFixedWord, Bool.and_eq_true] at h
  exact ⟨shown_of_all h.2, by simpa using h.1⟩

theorem unquoted_of_isFixedWord (h : isFixedWord cs = true) : Unquoted cs := by
  intro c hc
  simp only [isFixedWord, Bool.and_eq_true, List.all_eq_true, Bool.not_eq_true'] at h
  exact (h.2 c hc).1

structure SolidWord (cs : List Char) : Prop extends Shown isSolid cs where
  nonempty : cs ≠ []

theorem SolidWord.visible (h : SolidWord cs) : VisibleWord cs :=
  ⟨h.toShown.imp fun _ hc => forall_of_isSolid (by decide +kernel) hc, h.nonempty⟩

/-- A name of at least one letter or digit of plain text or low line. -/
def isPlainName (name : String) : Bool :=
  !name.toList.isEmpty && name.toList.all fun c => c.isAlphanum || c == '_'

section
variable {name : String}

theorem toList_ne_nil_of_isPlainName (h : isPlainName name = true) : name.toList ≠ [] := by
  simp only [isPlainName, Bool.and_eq_true, Bool.not_eq_true', List.isEmpty_eq_false_iff] at h
  exact h.1

theorem isSolid_of_mem_name (h : isPlainName name = true) : ∀ c ∈ name.toList, isSolid c = true := by
  intro c hc
  simp only [isPlainName, Bool.and_eq_true, List.all_eq_true] at h
  simp only [isSolid, h.2 c hc, Bool.true_or]

theorem solidWord_name (h : isPlainName name = true) : SolidWord name.toList :=
  ⟨shown_of_solid (isSolid_of_mem_name h), toList_ne_nil_of_isPlainName h⟩

theorem isWord_of_mem_name (h : isPlainName name = true) :
    ∀ c ∈ name.toList, Text.isWord c = true := by
  intro c hc
  have hlt := toNat_lt_of_isSolid (isSolid_of_mem_name h c hc)
  simp only [isPlainName, Bool.and_eq_true, List.all_eq_true] at h
  rw [Text.isWord, if_pos hlt]
  exact h.2 c hc

theorem mask_name (h : isPlainName name = true) : mask name.toList = name.toList.map .plain :=
  mask_of_unquoted fun c hc => isQuote_of_isSolid (isSolid_of_mem_name h c hc)

theorem isWord_cell_name (h : isPlainName name = true) :
    ∀ cell ∈ mask name.toList, cell.isWord = true := by
  intro cell hcell
  rw [mask_name h] at hcell
  obtain ⟨c, hc, rfl⟩ := List.mem_map.mp hcell
  exact isWord_of_mem_name h c hc

theorem isIdentifier_name (h : isPlainName name = true) :
    Statement.isIdentifier name.toList = true := by
  rw [Statement.isIdentifier, Bool.and_eq_true, List.all_eq_true]
  refine ⟨by simpa using toList_ne_nil_of_isPlainName h, fun c hc => ?_⟩
  have hlt := toNat_lt_of_isSolid (isSolid_of_mem_name h c hc)
  simp only [isPlainName, Bool.and_eq_true, List.all_eq_true] at h
  rw [Text.isName, if_pos hlt]
  exact h.2 c hc

end

/-! ## Lines of words -/

def spaced (words : List (List Char)) : List Char := words.flatMap fun word => ' ' :: word

def line : List (List Char) → List Char
  | [] => []
  | word :: words => word ++ spaced words

theorem spaced_cons (word : List Char) (words : List (List Char)) :
    spaced (word :: words) = ' ' :: (word ++ spaced words) := rfl

theorem spaced_eq {words : List (List Char)} (h : words ≠ []) :
    spaced words = ' ' :: line words := by
  cases words with
  | nil => exact absurd rfl h
  | cons word words => rfl

theorem spaced_append (words words' : List (List Char)) :
    spaced (words ++ words') = spaced words ++ spaced words' := List.flatMap_append

theorem line_append {words : List (List Char)} (h : words ≠ []) (words' : List (List Char)) :
    line (words ++ words') = line words ++ spaced words' := by
  cases words with
  | nil => exact absurd rfl h
  | cons word words => rw [List.cons_append, line, line, spaced_append, List.append_assoc]

/-- A line among words is taken as its words. -/
theorem line_append_line {before : List (List Char)} (hbefore : before ≠ [])
    {items : List (List Char)} (hitems : items ≠ []) (after : List (List Char)) :
    line (before ++ line items :: after) = line (before ++ (items ++ after)) := by
  rw [line_append hbefore, line_append hbefore, spaced_append, spaced_cons, spaced_eq hitems,
    List.cons_append]

theorem closed_spaced {words : List (List Char)} (h : ∀ word ∈ words, Closed word) :
    Closed (spaced words) := by
  induction words with
  | nil => exact closed_nil
  | cons word words ih =>
    rw [List.forall_mem_cons] at h
    rw [spaced_cons, closed_cons_iff (by decide)]
    exact h.1.append (ih h.2)

theorem closed_line {words : List (List Char)} (h : ∀ word ∈ words, Closed word) :
    Closed (line words) := by
  cases words with
  | nil => exact closed_nil
  | cons word words =>
    rw [List.forall_mem_cons] at h
    exact h.1.append (closed_spaced h.2)

section
variable {word : List Char} (h : Closed word) (words : List (List Char))
include h

theorem mask_spaced_cons :
    mask (spaced (word :: words)) = .plain ' ' :: (mask word ++ mask (spaced words)) := by
  rw [spaced_cons, mask_cons (by decide), mask_append h]

theorem mask_line_cons : mask (line (word :: words)) = mask word ++ mask (spaced words) := by
  rw [line, mask_append h]

end

theorem mask_spaced {words : List (List Char)} (h : words ≠ []) :
    mask (spaced words) = .plain ' ' :: mask (line words) := by
  rw [spaced_eq h, mask_cons (by decide)]

theorem Shown.spaced (hblank : p ' ' = true) {words : List (List Char)}
    (h : ∀ word ∈ words, Shown p word) : Shown p (spaced words) := by
  induction words with
  | nil => exact ⟨rfl, fun _ hcell => nomatch hcell⟩
  | cons word words ih =>
    rw [List.forall_mem_cons] at h
    rw [spaced_cons, ← List.singleton_append]
    refine (shown_of_unquoted (by decide) fun c hc => ?_).append (h.1.append (ih h.2))
    rw [List.mem_singleton.mp hc, hblank]

theorem Shown.line (hblank : p ' ' = true) {words : List (List Char)}
    (h : ∀ word ∈ words, Shown p word) : Shown p (line words) := by
  cases words with
  | nil => exact ⟨rfl, fun _ hcell => nomatch hcell⟩
  | cons word words =>
    rw [List.forall_mem_cons] at h
    exact h.1.append (.spaced hblank h.2)

def Gap (r : List Cell) : Prop := r = [] ∨ ∃ r', r = .plain ' ' :: r'

theorem gap_nil : Gap [] := .inl rfl

theorem gap_space (r : List Cell) : Gap (.plain ' ' :: r) := .inr ⟨r, rfl⟩

theorem gap_spaced (words : List (List Char)) {r : List Cell} (h : Gap r) :
    Gap (mask (spaced words) ++ r) := by
  cases words with
  | nil => exact h
  | cons word words =>
    rw [spaced_cons, mask_cons (by decide)]
    exact gap_space _

theorem line_ne_nil {words : List (List Char)} (hne : words ≠ [])
    (h : ∀ word ∈ words, VisibleWord word) : line words ≠ [] := by
  cases words with
  | nil => exact absurd rfl hne
  | cons word words => exact List.append_ne_nil_of_left_ne_nil (h word List.mem_cons_self).nonempty _

theorem gap_mask_spaced (words : List (List Char)) : Gap (mask (spaced words)) := by
  rw [← List.append_nil (mask _)]
  exact gap_spaced words gap_nil

theorem Gap.head_isWord {r : List Cell} (h : Gap r) : r.head?.any Cell.isWord = false := by
  rcases h with rfl | ⟨r', rfl⟩
  · rfl
  · exact (by decide : (Cell.plain ' ').isWord = false)

/-- A line of words begins with its first word and ends with its last. -/
theorem trimmed_line {words : List (List Char)} (hne : words ≠ [])
    (h : ∀ word ∈ words, VisibleWord word) : Trimmed (line words) := by
  rcases List.eq_nil_or_concat words with rfl | ⟨before, word, rfl⟩
  · exact absurd rfl hne
  · rw [List.concat_eq_append] at h ⊢
    have hlast := h word (by simp)
    cases before with
    | nil => simpa [line, Rowfile.spaced] using hlast.trimmed
    | cons first before =>
      have hfirst := h first (by simp)
      have htext : line (first :: before ++ [word]) =
          first ++ ((spaced before ++ [' ']) ++ word) := by
        simp [line, Rowfile.spaced]
      rw [htext]
      exact hfirst.trimmed.around hfirst.nonempty _ hlast.trimmed hlast.nonempty

end Rowfile
