import Rowfile.Proofs.SeparatorCuts

/-!
# First places outside quotes

A word is looked for on the masked text, and the answer is the first octet at which it is shown there.
Wherever the word stands outside quotes it is shown, so no such place is missed. But filler shows the low line,
so a word with low lines may also be shown where filler takes part in it, and such a place is answered if it
comes first. Whether filler can take part in a word is seen at the word alone: filler has other filler beside
it unless it is all that covers an open quote, and then it ends the text.
-/
namespace Rowfile

open Masked

/-! ## Places -/

/-- An answer is the first place of a kind, and there is no answer only if there is no such place. -/
structure IsFirst (Place : Nat → Prop) (answer : Option Nat) : Prop where
  least : ∀ i, answer = some i → Place i ∧ ∀ j < i, ¬Place j
  absent : answer = none → ∀ i, ¬Place i

/-- The word stands in the text at an octet, with none of its characters within a quoted span: no quote is open
before it, and it holds none. Letters are changed by `letter` before they are compared. -/
def StandsOutside (letter : Char → Char) (word text : List Char) (offset : Nat) : Prop :=
  ∃ before found after, text = before ++ (found ++ after) ∧
    (Text.Utf8.encode before).length = offset ∧ Closed before ∧ Unquoted found ∧
    found.map letter = word.map letter

/-- The masked text shows the word at an octet, in these cells. -/
def ShownBy (letter : Char → Char) (word text : List Char) (offset : Nat) (found : List Cell) : Prop :=
  ∃ before after, mask text = before ++ (found ++ after) ∧ width before = offset ∧
    Matches letter word found

def Cell.isFiller : Cell → Bool
  | .plain _ => false
  | _ => true

/-- The masked text shows the word at an octet, but filler takes part in it. -/
def ShownByFiller (letter : Char → Char) (word text : List Char) (offset : Nat) : Prop :=
  ∃ found, ShownBy letter word text offset found ∧ ∃ cell ∈ found, cell.isFiller = true

/-- Filler can take part in the word: the word holds no quote, and a low line is its first character, its last
or beside another one. -/
def Fillable (word : List Char) : Prop :=
  Unquoted word ∧ (word.head? = some '_' ∨ word.getLast? = some '_' ∨ ['_', '_'] <:+: word)

instance (word : List Char) : Decidable (Fillable word) := inferInstanceAs (Decidable (_ ∧ _))

structure Searches (letter : Char → Char) (word : List Char) (find? : List Char → Option Nat) :
    Prop where
  /-- The answer is the first place where the word stands outside quotes or filler shows it. -/
  shown : ∀ text, IsFirst
    (fun i => StandsOutside letter word text i ∨ ShownByFiller letter word text i) (find? text)
  /-- It is the first place outside quotes just when filler does not show the word before all of these. -/
  outside_iff : ∀ text, IsFirst (StandsOutside letter word text) (find? text) ↔
    ∀ i, ShownByFiller letter word text i → ∃ j < i, StandsOutside letter word text j
  /-- In all texts it is that place just when filler cannot take part in the word. -/
  always_iff : (∀ text, IsFirst (StandsOutside letter word text) (find? text)) ↔ ¬Fillable word

variable {letter : Char → Char} {word text : List Char} {offset : Nat}

theorem standsOutside_iff_exists_take :
    StandsOutside letter word text offset ↔ ∃ k ∈ List.range (text.length + 1),
      (Text.Utf8.encode (text.take k)).length = offset ∧ Closed (text.take k) ∧
        Unquoted ((text.drop k).take word.length) ∧
        ((text.drop k).take word.length).map letter = word.map letter := by
  constructor
  · rintro ⟨before, found, after, rfl, hoffset, hclosed, hunquoted, hletters⟩
    have hlength : found.length = word.length := by
      simpa only [List.length_map] using congrArg List.length hletters
    have hrange : before.length ∈ List.range ((before ++ (found ++ after)).length + 1) := by
      rw [List.mem_range, List.length_append]
      omega
    refine ⟨before.length, hrange, ?_⟩
    rw [List.take_left, List.drop_left, ← hlength, List.take_left]
    exact ⟨hoffset, hclosed, hunquoted, hletters⟩
  · rintro ⟨k, -, hoffset, hclosed, hunquoted, hletters⟩
    refine ⟨_, _, (text.drop k).drop word.length, ?_, hoffset, hclosed, hunquoted, hletters⟩
    rw [List.take_append_drop, List.take_append_drop]

instance (letter : Char → Char) (word text : List Char) (offset : Nat) :
    Decidable (StandsOutside letter word text offset) :=
  decidable_of_iff _ standsOutside_iff_exists_take.symm

/-- Where an answer is the first place of two kinds, it is the first of one of them just when none of the
other kind comes before all of that one. -/
theorem IsFirst.iff_of_or {Place Other : Nat → Prop} {answer : Option Nat}
    (h : IsFirst (fun i => Place i ∨ Other i) answer) (hapart : ∀ i, Place i → ¬Other i) :
    IsFirst Place answer ↔ ∀ i, Other i → ∃ j < i, Place j := by
  constructor
  · intro hfirst i hi
    cases hanswer : answer with
    | none => exact absurd (.inr hi) (h.absent hanswer i)
    | some k =>
      have hk : Place k := (hfirst.least k hanswer).1
      have hle : k ≤ i := Nat.le_of_not_lt fun hlt => (h.least k hanswer).2 i hlt (.inr hi)
      have hne : k ≠ i := fun heq => hapart k hk (heq ▸ hi)
      exact ⟨k, Nat.lt_of_le_of_ne hle hne, hk⟩
  · intro hbefore
    refine ⟨fun i hi => ?_, fun hnone i hi => h.absent hnone i (.inl hi)⟩
    obtain ⟨hplace, hleast⟩ := h.least i hi
    refine ⟨?_, fun j hj hj' => hleast j hj (.inl hj')⟩
    rcases hplace with hplace | hother
    · exact hplace
    · obtain ⟨j, hj, hj'⟩ := hbefore i hother
      exact absurd (.inl hj') (hleast j hj)

/-! ## What is shown outside quotes -/

namespace Masked

variable {cs : List Char} {l before after found : List Cell} {cell : Cell}

theorem exists_map_plain (h : ∀ cell ∈ l, cell.isFiller = false) : ∃ cs : List Char, l = cs.map .plain := by
  induction l with
  | nil => exact ⟨[], rfl⟩
  | cons cell l ih =>
    obtain ⟨hcell, hl⟩ := List.forall_mem_cons.mp h
    obtain ⟨cs, rfl⟩ := ih hl
    cases cell with
    | plain c => exact ⟨c :: cs, rfl⟩
    | filler c => cases hcell
    | tail => cases hcell

theorem shown_of_isFiller (h : cell.isFiller = true) : cell.shown = '_' := by
  cases cell with
  | plain c => cases h
  | filler c => rfl
  | tail => rfl

/-- Plain cells in front of a masked text cover as many characters outside quotes. -/
theorem mask_eq_plain_append (h : mask text = cs.map .plain ++ after) :
    ∃ rest, text = cs ++ rest ∧ Unquoted cs ∧ after = mask rest := by
  induction cs generalizing text with
  | nil => exact ⟨text, rfl, fun _ hc => (List.not_mem_nil hc).elim, h.symm⟩
  | cons c cs ih =>
    have hcells : mask text = [] ++ .plain c :: (cs.map .plain ++ after) := h
    obtain ⟨before, rest, rfl, -, hc, hbefore, hrest⟩ := mask_eq_append_plain hcells
    obtain rfl : before = [] := mask_injective hbefore.symm
    obtain ⟨rest, rfl, hcs, rfl⟩ := ih hrest.symm
    exact ⟨rest, rfl, List.forall_mem_cons.mpr ⟨hc, hcs⟩, rfl⟩

/-- Plain cells of a masked text, of which there are some, cover characters outside quotes. -/
theorem exists_cut_of_plain (hne : cs ≠ []) (h : mask text = before ++ (cs.map .plain ++ after)) :
    ∃ front back, text = front ++ (cs ++ back) ∧ Closed front ∧ Unquoted cs ∧ before = mask front := by
  obtain ⟨c, cs, rfl⟩ := List.exists_cons_of_ne_nil hne
  obtain ⟨front, rest, rfl, hfront, hc, rfl, hrest⟩ := mask_eq_append_plain h
  obtain ⟨back, rfl, hcs, rfl⟩ := mask_eq_plain_append hrest.symm
  exact ⟨front, back, rfl, hfront, List.forall_mem_cons.mpr ⟨hc, hcs⟩, rfl⟩

theorem matches_plain_iff : Matches letter word (cs.map .plain) ↔ cs.map letter = word.map letter := by
  rw [Matches, List.forall₂_map_right_iff, eq_comm, ← List.forall₂_eq_eq_eq,
    List.forall₂_map_left_iff, List.forall₂_map_right_iff]
  rfl

theorem matches_plain (letter : Char → Char) (cs : List Char) : Matches letter cs (cs.map .plain) :=
  matches_plain_iff.mpr rfl

end Masked

/-- A word stands outside quotes where plain cells show it. -/
theorem standsOutside_iff (h : word ≠ []) :
    StandsOutside letter word text offset ↔
      ∃ found, ShownBy letter word text offset found ∧ ∀ cell ∈ found, cell.isFiller = false := by
  constructor
  · rintro ⟨before, found, after, rfl, hoffset, hclosed, hunquoted, hletters⟩
    refine ⟨found.map .plain, ⟨mask before, mask after, ?_, ?_, matches_plain_iff.mpr hletters⟩, ?_⟩
    · rw [mask_append hclosed, mask_append hunquoted.closed, mask_of_unquoted hunquoted]
    · exact (width_maskFrom none before).trans hoffset
    · intro cell hcell
      obtain ⟨c, -, rfl⟩ := List.mem_map.mp hcell
      rfl
  · rintro ⟨found, ⟨before, after, hcovers, hwidth, hletters⟩, hplain⟩
    obtain ⟨cs, rfl⟩ := exists_map_plain hplain
    rw [matches_plain_iff] at hletters
    have hne : cs ≠ [] := by
      rintro rfl
      exact h (List.map_eq_nil_iff.mp hletters.symm)
    obtain ⟨front, back, rfl, hfront, hcs, rfl⟩ := exists_cut_of_plain hne hcovers
    exact ⟨front, cs, back, rfl, (width_maskFrom none front).symm.trans hwidth, hfront, hcs, hletters⟩

theorem exists_shownBy_iff (h : word ≠ []) :
    (∃ found, ShownBy letter word text offset found) ↔
      StandsOutside letter word text offset ∨ ShownByFiller letter word text offset := by
  rw [standsOutside_iff h]
  constructor
  · rintro ⟨found, hfound⟩
    by_cases hfiller : ∃ cell ∈ found, cell.isFiller = true
    · exact .inr ⟨found, hfound, hfiller⟩
    · exact .inl ⟨found, hfound, by simpa using hfiller⟩
  · rintro (⟨found, hfound, -⟩ | ⟨found, hfound, -⟩)
    · exact ⟨found, hfound⟩
    · exact ⟨found, hfound⟩

/-! ## The first place of all -/

namespace Masked

variable {l r before after found : List Cell}

theorem starts_of_matches (h : Matches letter word found) (r : List Cell) :
    starts letter word (found ++ r) = true := by
  induction h with
  | nil => cases r <;> rfl
  | cons hletter _ ih => rw [List.cons_append, starts, ih, beq_iff_eq.mpr hletter, Bool.and_true]

/-- A text is broken no later than where cells show the word. -/
theorem exists_breakAt? (h : Matches letter word found) (before after : List Cell) :
    ∃ front back, breakAt? letter word (before ++ (found ++ after)) = some (front, back) ∧
      front <+: before := by
  induction before with
  | nil =>
    have hstarts := starts_of_matches h after
    rw [List.nil_append]
    cases hcells : found ++ after with
    | nil =>
      obtain ⟨rfl, rfl⟩ := List.append_eq_nil_iff.mp hcells
      cases h
      exact ⟨[], [], rfl, List.prefix_rfl⟩
    | cons cell r =>
      rw [hcells] at hstarts
      exact ⟨[], _, by rw [breakAt?, if_pos hstarts], List.prefix_rfl⟩
  | cons cell before ih =>
    rw [List.cons_append, breakAt?]
    by_cases hstarts : starts letter word (cell :: (before ++ (found ++ after))) = true
    · exact ⟨[], _, if_pos hstarts, List.nil_prefix⟩
    · obtain ⟨front, back, hbreak, hprefix⟩ := ih
      rw [if_neg hstarts, hbreak]
      exact ⟨cell :: front, back, rfl, List.cons_prefix_cons.mpr ⟨rfl, hprefix⟩⟩

theorem width_le_of_isPrefix (h : l <+: r) : width l ≤ width r := by
  obtain ⟨rest, rfl⟩ := h
  rw [width_append]
  exact Nat.le_add_right _ _

theorem eq_nil_of_width_eq_zero (h : width l = 0) : l = [] := by
  cases l with
  | nil => rfl
  | cons cell l =>
    have hpos : 0 < cell.width := by
      cases cell with
      | plain c => exact Text.Utf8.width_pos c
      | filler c => exact Nat.one_pos
      | tail => exact Nat.one_pos
    have hsum : width (cell :: l) = cell.width + width l := rfl
    omega

theorem eq_nil_of_width_append (h : width (l ++ r) = width l) : r = [] := by
  rw [width_append] at h
  exact eq_nil_of_width_eq_zero (by omega)

/-- Cells are cut at one octet in one way. -/
theorem append_inj_of_width {before' after' : List Cell} (h : before ++ after = before' ++ after')
    (hwidth : width before = width before') : before = before' ∧ after = after' := by
  have hbefore : before = before' := by
    rcases List.append_eq_append_iff.mp h with ⟨rest, rfl, -⟩ | ⟨rest, rfl, -⟩
    · rw [eq_nil_of_width_append hwidth.symm, List.append_nil]
    · rw [eq_nil_of_width_append hwidth, List.append_nil]
  subst hbefore
  exact ⟨rfl, List.append_cancel_left h⟩

/-- The octet at which the masked text first shows a word. -/
def place? (letter : Char → Char) (word text : List Char) : Option Nat :=
  (breakAt? letter word (mask text)).map fun cut => width cut.1

theorem isFirst_place? (letter : Char → Char) (word text : List Char) :
    IsFirst (fun i => ∃ found, ShownBy letter word text i found) (place? letter word text) := by
  constructor
  · intro i hi
    obtain ⟨⟨before, after⟩, hbreak, rfl⟩ := Option.map_eq_some_iff.mp hi
    obtain ⟨found, hcovers, hfound⟩ := exists_matches_of_breakAt? hbreak
    refine ⟨⟨found, before, after, hcovers, rfl, hfound⟩, ?_⟩
    rintro _ hlt ⟨other, before', after', hcovers', rfl, hother⟩
    obtain ⟨front, back, hfirst, hprefix⟩ := exists_breakAt? hother before' after'
    rw [← hcovers', hbreak] at hfirst
    obtain ⟨rfl, rfl⟩ := Prod.mk.inj (Option.some.inj hfirst)
    exact absurd (width_le_of_isPrefix hprefix) (Nat.not_le.mpr hlt)
  · rintro hnone _ ⟨found, before, after, hcovers, rfl, hfound⟩
    obtain ⟨front, back, hfirst, -⟩ := exists_breakAt? hfound before after
    rw [← hcovers] at hfirst
    rw [place?, hfirst] at hnone
    cases hnone

end Masked

/-- At one octet, a word is shown by the same cells. -/
theorem ShownBy.unique {found found' : List Cell} (h : ShownBy letter word text offset found)
    (h' : ShownBy letter word text offset found') : found = found' := by
  obtain ⟨before, after, hcovers, hwidth, hletters⟩ := h
  obtain ⟨before', after', hcovers', hwidth', hletters'⟩ := h'
  obtain ⟨rfl, hrest⟩ :=
    append_inj_of_width (hcovers.symm.trans hcovers') (hwidth.trans hwidth'.symm)
  exact (List.append_inj hrest (hletters.length_eq.symm.trans hletters'.length_eq)).1

theorem StandsOutside.not_shownByFiller (hne : word ≠ []) (h : StandsOutside letter word text offset) :
    ¬ShownByFiller letter word text offset := by
  rintro ⟨found, hfound, cell, hcell, hfiller⟩
  obtain ⟨found', hfound', hplain⟩ := (standsOutside_iff hne).mp h
  rw [hplain cell (hfound.unique hfound' ▸ hcell)] at hfiller
  cases hfiller

/-! ## Words in which filler can take part -/

/-- Nothing but the low line and the quotes themselves is changed to what they are changed to. -/
def Discerns (letter : Char → Char) : Prop :=
  ∀ c d, d = '_' ∨ isQuote d = true → letter c = letter d → c = d

theorem discerns_id : Discerns id := fun _ _ _ h => h

theorem discerns_toUpper : Discerns Char.toUpper := by
  intro c d hd h
  have hsame : d.toUpper = d ∧ d.toNat < 0x80 := by
    rcases hd with rfl | hd
    · decide
    · rcases isQuote_cases hd with rfl | rfl
      · decide
      · decide
  have hascii : ∀ n < 0x80, (Char.ofNat n).toUpper = '_' ∨ isQuote (Char.ofNat n).toUpper = true →
      (Char.ofNat n).toUpper = Char.ofNat n := by decide +kernel
  rw [hsame.1] at h
  have hc := hascii c.toNat (toNat_lt_of_toUpper (h ▸ hsame.2))
  rw [Char.ofNat_toNat, h] at hc
  exact (hc hd).symm

theorem Discerns.isQuote_eq (h : Discerns letter) {c d : Char} (heq : letter c = letter d) :
    isQuote c = isQuote d := by
  cases hc : isQuote c with
  | true => rw [h d c (.inr hc) heq.symm, hc]
  | false =>
    cases hd : isQuote d with
    | true => rw [h c d (.inr hd) heq, hd] at hc; cases hc
    | false => rfl

namespace Masked

/-- Masked text shows no quote. -/
theorem unquoted_shown (text : List Char) : ∀ cell ∈ mask text, isQuote cell.shown = false := by
  intro cell hcell
  obtain ⟨front, back, hcells⟩ := List.append_of_mem hcell
  by_cases hshown : cell.shown = '_'
  · rw [hshown]
    rfl
  · obtain ⟨-, c, -, -, -, hc, -, rfl, -⟩ := mask_eq_append_cons hcells hshown
    exact hc

/-- A single cell of a text that leaves no quote open is plain. -/
theorem isFiller_of_mask_eq_singleton {cs : List Char} {cell : Cell} (hclosed : Closed cs)
    (h : mask cs = [cell]) : cell.isFiller = false := by
  cases cs with
  | nil => cases h
  | cons c cs =>
    cases hc : isQuote c with
    | false =>
      rw [mask_cons hc] at h
      rw [← (List.cons.inj h).1]
      rfl
    | true =>
      have hcells : mask (c :: cs) = fill c ++ maskFrom (some c) cs := by
        rw [mask, maskFrom, hc, if_pos rfl]
      have hrest : maskFrom (some c) cs = [] := by
        rw [hcells, fill, List.cons_append] at h
        exact (List.append_eq_nil_iff.mp (List.cons.inj h).2).2
      have hread := read?_maskFrom (some c) cs
      rw [hrest, read?_nil] at hread
      rw [← Option.some.inj hread, Closed, quoteAfter, hc] at hclosed
      cases hclosed

/-- Filler between two cells has filler beside it: between two cells that show anything else, all that the text
opens would be closed. -/
theorem shown_beside_filler {front back : List Cell} {left cell right : Cell}
    (h : mask text = front ++ left :: cell :: right :: back) (hcell : cell.isFiller = true) :
    left.shown = '_' ∨ right.shown = '_' := by
  by_contra hboth
  obtain ⟨hleft, hright⟩ := not_or.mp hboth
  -- The text is cut before the right cell and, what is before that, behind the left one.
  have hcut : mask text = (front ++ [left, cell]) ++ right :: back := by simpa using h
  obtain ⟨before, -, -, -, hbefore, -, hfront, -, -⟩ := mask_eq_append_cons hcut hright
  obtain ⟨before, c, inner, rfl, hclosed, hc, -, -, hinner⟩ := mask_eq_append_cons hfront.symm hleft
  rw [Closed, quoteAfter_append, hclosed] at hbefore
  have hplain := isFiller_of_mask_eq_singleton ((closed_cons_iff hc).mp hbefore) hinner.symm
  rw [hcell] at hplain
  cases hplain

theorem exists_of_matches_append {front back : List Cell} {cell : Cell}
    (h : Matches letter word (front ++ cell :: back)) :
    ∃ start c rest, word = start ++ c :: rest ∧ Matches letter start front ∧
      letter c = letter cell.shown ∧ Matches letter rest back := by
  induction front generalizing word with
  | nil =>
    cases h with
    | @cons c _ rest _ hletter hrest => exact ⟨[], c, rest, rfl, .nil, hletter, hrest⟩
  | cons first front ih =>
    cases h with
    | @cons d _ _ _ hletter hrest =>
      obtain ⟨start, c, rest, rfl, hstart, hc, hback⟩ := ih hrest
      exact ⟨d :: start, c, rest, rfl, .cons hletter hstart, hc, hback⟩

end Masked

theorem Discerns.fillable (hletter : Discerns letter) (h : ShownByFiller letter word text offset) :
    Fillable word := by
  obtain ⟨found, ⟨before, after, hcovers, -, hletters⟩, cell, hcell, hfiller⟩ := h
  have hlow : ∀ {c : Char} {cell : Cell}, letter c = letter cell.shown → cell.shown = '_' → c = '_' :=
    fun hc hcell => hletter _ '_' (.inl rfl) (hcell ▸ hc)
  refine ⟨fun c hc => ?_, ?_⟩
  -- A quote of the word would be shown, and masked text shows none.
  · obtain ⟨shown, hshown, hc⟩ := exists_mem_of_forall₂ hletters hc
    rw [hletter.isQuote_eq hc]
    exact unquoted_shown text shown (by rw [hcovers]; simp [hshown])
  · obtain ⟨front, back, rfl⟩ := List.append_of_mem hcell
    obtain ⟨start, c, rest, rfl, hstart, hc, hrest⟩ := exists_of_matches_append hletters
    obtain rfl := hlow hc (shown_of_isFiller hfiller)
    rcases List.eq_nil_or_concat' front with rfl | ⟨front, left, rfl⟩
    · cases hstart
      exact .inl rfl
    · cases back with
      | nil =>
        cases hrest
        exact .inr (.inl List.getLast?_concat)
      | cons right back =>
        obtain ⟨start, d, _, rfl, -, hd, hnil⟩ := exists_of_matches_append hstart
        cases hnil
        cases hrest with
        | @cons e _ rest _ he _ =>
          have hcells : mask text =
              (before ++ front) ++ left :: cell :: right :: (back ++ after) := by
            rw [hcovers]
            simp
          rcases shown_beside_filler hcells hfiller with hleft | hright
          · obtain rfl := hlow hd hleft
            exact .inr (.inr ⟨start, e :: rest, by simp⟩)
          · obtain rfl := hlow he hright
            exact .inr (.inr ⟨start ++ [d], rest, by simp⟩)

/-- An empty quoted span is covered by two cells of filler. -/
theorem mask_emptySpan_append (cs : List Char) : mask (inQuotes '\x27' [] ++ cs) =
    .filler '\x27' :: .filler '\x27' :: mask cs :=
  mask_inQuotes_append rfl List.not_mem_nil cs

/-- Nothing stands outside quotes where a text begins with one. -/
theorem not_standsOutside_zero (hne : word ≠ []) (text : List Char) :
    ¬StandsOutside letter word ('\x27' :: text) 0 := by
  rw [standsOutside_iff hne]
  rintro ⟨found, ⟨before, after, hcovers, hwidth, hletters⟩, hplain⟩
  obtain rfl := eq_nil_of_width_eq_zero hwidth
  cases hletters with
  | nil => exact hne rfl
  | @cons _ cell _ found _ _ =>
    have hfirst : mask ('\x27' :: text) = .filler '\x27' :: maskFrom (some '\x27') text := rfl
    rw [hfirst, List.nil_append, List.cons_append] at hcovers
    have hcell := hplain cell List.mem_cons_self
    rw [← (List.cons.inj hcovers).1] at hcell
    cases hcell

/-- Where filler can take part in a word, there is a text in which it shows the word before all places outside
quotes. -/
theorem Fillable.exists_text (letter : Char → Char) (h : Fillable word) :
    ∃ text i, ShownByFiller letter word text i ∧ ∀ j < i, ¬StandsOutside letter word text j := by
  obtain ⟨hunquoted, hbegins | hends | ⟨start, rest, hword⟩⟩ := h
  · obtain ⟨rest, rfl⟩ := List.head?_eq_some_iff.mp hbegins
    refine ⟨inQuotes '\x27' [] ++ rest, 1, ⟨.filler '\x27' :: rest.map .plain,
      ⟨[.filler '\x27'], [], ?_, rfl, .cons rfl (matches_plain letter rest)⟩,
      _, List.mem_cons_self, rfl⟩, fun j hj => ?_⟩
    · rw [mask_emptySpan_append, mask_of_unquoted (List.forall_mem_cons.mp hunquoted).2,
        List.append_nil, List.singleton_append]
    · rw [Nat.lt_one_iff.mp hj]
      exact not_standsOutside_zero (List.cons_ne_nil _ _) _
  · obtain ⟨start, rfl⟩ := List.getLast?_eq_some_iff.mp hends
    have hstart : Unquoted start := fun c hc => hunquoted c (List.mem_append_left _ hc)
    have hfiller : Matches letter ['_'] [.filler '\x27'] := .cons rfl .nil
    refine ⟨start ++ ['\x27'], 0, ⟨start.map .plain ++ [.filler '\x27'],
      ⟨[], [], ?_, rfl, List.rel_append (matches_plain letter start) hfiller⟩,
      _, List.mem_concat_self, rfl⟩, fun j hj => absurd hj (Nat.not_lt_zero j)⟩
    rw [mask_append hstart.closed, mask_of_unquoted hstart, List.append_nil, List.nil_append]
    rfl
  · subst hword
    have hstart : Unquoted start := fun c hc => hunquoted c (by simp [hc])
    have hrest : Unquoted rest := fun c hc => hunquoted c (by simp [hc])
    have hfillers : Matches letter ['_', '_'] [.filler '\x27', .filler '\x27'] :=
      .cons rfl (.cons rfl .nil)
    refine ⟨start ++ (inQuotes '\x27' [] ++ rest), 0,
      ⟨start.map .plain ++ [.filler '\x27', .filler '\x27'] ++ rest.map .plain,
        ⟨[], [], ?_, rfl, List.rel_append (List.rel_append (matches_plain letter start) hfillers)
          (matches_plain letter rest)⟩,
        .filler '\x27', by simp, rfl⟩, fun j hj => absurd hj (Nat.not_lt_zero j)⟩
    rw [mask_append hstart.closed, mask_of_unquoted hstart, mask_emptySpan_append,
      mask_of_unquoted hrest]
    simp

/-! ## What a search answers -/

theorem searches_place? (hletter : Discerns letter) (h : word ≠ []) :
    Searches letter word (place? letter word) := by
  have hshown : ∀ text, IsFirst
      (fun i => StandsOutside letter word text i ∨ ShownByFiller letter word text i)
      (place? letter word text) := by
    intro text
    simpa only [exists_shownBy_iff h] using isFirst_place? letter word text
  have houtside : ∀ text, IsFirst (StandsOutside letter word text) (place? letter word text) ↔
      ∀ i, ShownByFiller letter word text i → ∃ j < i, StandsOutside letter word text j :=
    fun text => (hshown text).iff_of_or fun _ => StandsOutside.not_shownByFiller h
  refine ⟨hshown, houtside, fun halways hfillable => ?_, fun hword text => ?_⟩
  · obtain ⟨text, i, hfiller, hnone⟩ := hfillable.exists_text letter
    obtain ⟨j, hj, hstands⟩ := (houtside text).mp (halways text) i hfiller
    exact hnone j hj hstands
  · exact (houtside text).mpr fun i hi => absurd (hletter.fillable hi) hword

/-- The operators that a condition is cut at are found at their first place outside quotes in every text. -/
theorem Clause.operator_found_outside (op : Operator) (text : List Char) :
    IsFirst (StandsOutside (operatorLetter op) (operatorWord op) text)
      (place? (operatorLetter op) (operatorWord op) text) := by
  have hdiscerns : Discerns (operatorLetter op) := by
    cases op with
    | like => exact discerns_toUpper
    | _ => exact discerns_id
  have hword : operatorWord op ≠ [] ∧ ¬Fillable (operatorWord op) := by
    cases op <;> decide
  exact (searches_place? hdiscerns hword.1).always_iff.mpr hword.2 text

/-- A word that is not empty is found at the first octet at which the masked text shows it, whether its letters
are compared as they are or up to the case of the letters A to Z. So a word that stands outside quotes is found
there or before. The answer is its first place outside quotes exactly where no earlier place is filler's, and it
is that in all texts exactly if filler cannot take part in the word: the word holds a quote, or each of its low
lines stands alone between two other characters. -/
theorem Masked.found_outside_iff_before_filler {word : List Char} (h : word ≠ []) :
    Searches id word (find? word) ∧ Searches Char.toUpper word (findUpToCase? word) :=
  ⟨searches_place? discerns_id h, searches_place? discerns_toUpper h⟩

theorem Masked.found_outside_iff_before_filler_isolated :
    "a_B".toList ≠ [] ∧ ¬Fillable "a_B".toList ∧
      find? "a_B".toList "a'é'B = a_b AND a_B".toList = some 17 ∧
      IsFirst (StandsOutside id "a_B".toList "a'é'B = a_b AND a_B".toList) (some 17) ∧
      findUpToCase? "a_B".toList "a'é'B = a_b AND a_B".toList = some 9 ∧
      IsFirst (StandsOutside Char.toUpper "a_B".toList "a'é'B = a_b AND a_B".toList) (some 9) := by
  have hne : "a_B".toList ≠ [] := by decide
  have hword : ¬Fillable "a_B".toList := by decide
  have hfind : find? "a_B".toList "a'é'B = a_b AND a_B".toList = some 17 := by decide +kernel
  have hfind' : findUpToCase? "a_B".toList "a'é'B = a_b AND a_B".toList = some 9 := by
    decide +kernel
  obtain ⟨hexact, hcase⟩ := found_outside_iff_before_filler hne
  exact ⟨hne, hword, hfind, hfind ▸ hexact.always_iff.mpr hword _, hfind',
    hfind' ▸ hcase.always_iff.mpr hword _⟩

/-- A low line is found in a quoted span that comes before the first low line outside quotes. -/
theorem Masked.low_line_found_in_span :
    find? "_".toList "a = 'x' AND b_c = 1".toList = some 4 ∧
      StandsOutside id "_".toList "a = 'x' AND b_c = 1".toList 13 ∧
      ¬IsFirst (StandsOutside id "_".toList "a = 'x' AND b_c = 1".toList)
        (find? "_".toList "a = 'x' AND b_c = 1".toList) := by
  have hfind : find? "_".toList "a = 'x' AND b_c = 1".toList = some 4 := by decide +kernel
  have hwithin : ¬StandsOutside id "_".toList "a = 'x' AND b_c = 1".toList 4 := by decide +kernel
  exact ⟨hfind, by decide +kernel, fun h => hwithin (h.least 4 hfind).1⟩

end Rowfile
