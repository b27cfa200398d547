import Rowfile.Proofs.CharacterCuts
import Rowfile.Proofs.CutLengths
import Rowfile.Proofs.RefilledParts
import Rowfile.Statement.Clause

/-!
# Cuts at separators, blanks, keywords and operators

What a text is cut at shows no filler: a separator, a blank, a keyword or an operator. So the cuts before
and behind it are clear, and every piece reads back to a piece of the text. An operator or keyword takes
up as many octets as it has letters.
-/
namespace Rowfile

open Masked

/-! ## Words that are looked for -/

abbrev Masked.Matches (letter : Char → Char) (word : List Char) (cells : List Cell) : Prop :=
  List.Forall₂ (fun c cell => letter c = letter cell.shown) word cells

/-- The cells show the word, and they take up one octet for each of its letters. -/
structure Masked.Finds (letter : Char → Char) (word : List Char) (found : List Cell) : Prop where
  letters : Matches letter word found
  width : width found = word.length

/-- The letters of the word are plain when they are compared. -/
def Masked.PlainWord (letter : Char → Char) (word : List Char) : Prop :=
  ∀ c ∈ word, (letter c).toNat < 0x80

instance (letter : Char → Char) (word : List Char) : Decidable (PlainWord letter word) :=
  List.decidableBAll _ _

/-- What a text is searched for: plain letters that filler does not show and to which no letters but plain
ones are changed. -/
structure Masked.Searchable (letter : Char → Char) (word : List Char) : Prop where
  nonempty : word ≠ []
  visible : Refilled.Plain letter word
  plain : PlainWord letter word
  kept : ∀ d, (letter d).toNat < 0x80 → d.toNat < 0x80

namespace Masked

variable {letter : Char → Char} {word : List Char} {l before after found : List Cell}

theorem matches_of_starts (h : starts letter word l = true) :
    Matches letter word (l.take word.length) := by
  induction word generalizing l with
  | nil => exact .nil
  | cons c word ih =>
    cases l with
    | nil => cases h
    | cons cell l =>
      rw [starts, Bool.and_eq_true, beq_iff_eq] at h
      exact .cons h.1 (ih h.2)

/-- Where a text is broken, the word stands between what is before it and what is behind it. -/
theorem exists_matches_of_breakAt? (h : breakAt? letter word l = some (before, after)) :
    ∃ found, l = before ++ (found ++ after) ∧ Matches letter word found := by
  induction l generalizing before with
  | nil =>
    rw [breakAt?] at h
    split at h
    · next hempty =>
      obtain ⟨rfl, rfl⟩ := Prod.mk.inj (Option.some.inj h)
      rw [List.isEmpty_iff.mp hempty]
      exact ⟨[], rfl, .nil⟩
    · cases h
  | cons cell l ih =>
    rw [breakAt?] at h
    split at h
    · next hstarts =>
      obtain ⟨rfl, rfl⟩ := Prod.mk.inj (Option.some.inj h)
      exact ⟨_, (List.take_append_drop _ _).symm, matches_of_starts hstarts⟩
    · obtain ⟨⟨rest, after'⟩, hrest, heq⟩ := Option.map_eq_some_iff.mp h
      obtain ⟨rfl, rfl⟩ := Prod.mk.inj heq
      obtain ⟨found, rfl, hfound⟩ := ih hrest
      exact ⟨found, rfl, hfound⟩

/-- No letters but those of plain text are changed to them. -/
theorem toNat_lt_of_toUpper {d : Char} (h : d.toUpper.toNat < 0x80) : d.toNat < 0x80 := by
  unfold Char.toUpper at h
  split at h
  · next hlower => exact Nat.lt_of_le_of_lt (UInt32.le_iff_toNat_le.mp hlower.2) (by decide)
  · exact h

theorem searchable_operator (op : Operator) :
    Searchable (Clause.operatorLetter op) (Clause.operatorWord op) := by
  refine ⟨?_, ?_, ?_, fun d => ?_⟩
  · cases op <;> decide
  · cases op <;> decide
  · cases op <;> decide
  · cases op with
    | like => exact toNat_lt_of_toUpper
    | _ => exact id

theorem searchable_assign : Searchable id ['='] := searchable_operator .eq

theorem searchable_keyword : ∀ keyword ∈ ["AND".toList, "OR".toList],
    Searchable Char.toUpper keyword := by
  have hplain : ∀ keyword ∈ ["AND".toList, "OR".toList], keyword ≠ [] ∧
      Refilled.Plain Char.toUpper keyword ∧ PlainWord Char.toUpper keyword := by decide
  intro keyword hkeyword
  obtain ⟨hne, hvisible, hletters⟩ := hplain keyword hkeyword
  exact ⟨hne, hvisible, hletters, fun _ => toNat_lt_of_toUpper⟩

theorem Searchable.finds (h : Searchable letter word) (hfound : Matches letter word found) :
    Finds letter word found := by
  refine ⟨hfound, ?_⟩
  have hplain := h.plain
  have hkept := h.kept
  clear h
  induction hfound with
  | nil => rfl
  | @cons c cell word found hcell _ ih =>
    obtain ⟨hc, hplain⟩ := List.forall_mem_cons.mp hplain
    have hwidth : cell.width = 1 := by
      cases cell with
      | plain d => exact if_pos (hkept d (hcell ▸ hc))
      | filler d => rfl
      | tail => rfl
    have hsum : width (cell :: found) = cell.width + width found := rfl
    rw [hsum, hwidth, ih hplain, List.length_cons]
    omega

end Masked

/-! ## Pieces with gaps between them -/

inductive Interleaved (IsGap : List Cell → Prop) : List (List Cell) → List (List Cell) → Prop
  | last (part : List Cell) : Interleaved IsGap [part] [part]
  | cons (part : List Cell) {gap : List Cell} {parts pieces : List (List Cell)} : IsGap gap →
      Interleaved IsGap parts pieces → Interleaved IsGap (part :: parts) (part :: gap :: pieces)

inductive Among (IsGap : List Cell → Prop) : List (List Cell) → List (List Cell) → Prop
  | nil : Among IsGap [] []
  | part (part : List Cell) {parts pieces : List (List Cell)} : Among IsGap parts pieces →
      Among IsGap (part :: parts) (part :: pieces)
  | gap {gap : List Cell} {parts pieces : List (List Cell)} : IsGap gap →
      Among IsGap parts pieces → Among IsGap parts (gap :: pieces)

section
variable {IsGap : List Cell → Prop} {parts pieces : List (List Cell)}

/-- All cuts beside visible gaps are clear. -/
theorem Interleaved.clearCuts (h : Interleaved IsGap parts pieces) (hgap : Visible IsGap) :
    ClearCuts pieces := by
  induction h with
  | last part => exact ⟨.inr beginsClear_nil, trivial⟩
  | @cons part gap parts pieces hisgap _ ih =>
    obtain ⟨hne, hshown⟩ := hgap gap hisgap
    refine ⟨.inr ?_, .inl (endsClear_of_forall hshown), ih⟩
    exact beginsClear_append hne hshown _

theorem Interleaved.subset (h : Interleaved IsGap parts pieces) : parts ⊆ pieces := by
  induction h with
  | last part => exact List.Subset.refl _
  | cons part _ _ ih => exact List.cons_subset_cons part (List.subset_cons_of_subset _ ih)

theorem Among.subset (h : Among IsGap parts pieces) : parts ⊆ pieces := by
  induction h with
  | nil => exact List.Subset.refl _
  | part part _ ih => exact List.cons_subset_cons part ih
  | gap _ _ ih => exact List.subset_cons_of_subset _ ih

/-- A cell in front of the first part. -/
theorem exists_interleaved_cons {part l : List Cell} (cell : Cell)
    (h : ∃ pieces, Interleaved IsGap (part :: parts) pieces ∧ pieces.flatten = l) :
    ∃ pieces, Interleaved IsGap ((cell :: part) :: parts) pieces ∧
      pieces.flatten = cell :: l := by
  obtain ⟨pieces, hpieces, hflat⟩ := h
  cases hpieces with
  | last => exact ⟨_, .last _, congrArg (cell :: ·) hflat⟩
  | cons _ hisgap hrest => exact ⟨_, .cons _ hisgap hrest, congrArg (cell :: ·) hflat⟩

/-- A gap in front of the first part, with nothing before it. -/
theorem exists_interleaved_gap {gap l : List Cell} (hgap : IsGap gap)
    (h : ∃ pieces, Interleaved IsGap parts pieces ∧ pieces.flatten = l) :
    ∃ pieces, Interleaved IsGap ([] :: parts) pieces ∧ pieces.flatten = gap ++ l := by
  obtain ⟨pieces, hpieces, hflat⟩ := h
  exact ⟨_, .cons [] hgap hpieces, congrArg (gap ++ ·) hflat⟩

end

theorem Masked.Searchable.visible_finds {letter : Char → Char} {word : List Char}
    (h : Searchable letter word) : Visible (Finds letter word) := by
  intro gap hgap
  constructor
  · rintro rfl
    cases hgap.letters
    exact h.nonempty rfl
  · intro cell hcell hshown
    obtain ⟨c, hc, hletter⟩ := exists_mem_of_forall₂ hgap.letters.flip hcell
    rw [hshown] at hletter
    exact h.visible c hc hletter

/-- A word is found between two clear cuts. -/
theorem Masked.Searchable.cutInto {letter : Char → Char} {word text : List Char}
    {before after : List Cell} (h : Searchable letter word)
    (hbreak : breakAt? letter word (mask text) = some (before, after)) :
    ∃ found, Finds letter word found ∧ CutInto text [before, found, after] := by
  obtain ⟨found, hcovers, hmatches⟩ := exists_matches_of_breakAt? hbreak
  have hfound := h.finds hmatches
  refine ⟨found, hfound, cutInto_of_clearCuts ?_
    (Interleaved.clearCuts (.cons before hfound (.last after)) h.visible_finds)⟩
  rw [hcovers]
  simp

namespace Split

/-! ## Separators -/

def IsSeparator (separator : Char) (gap : List Cell) : Prop :=
  ∃ cell : Cell, gap = [cell] ∧ cell.shown = separator

theorem visible_isSeparator {separator : Char} (h : separator ≠ '_') :
    Visible (IsSeparator separator) := by
  rintro gap ⟨cell, rfl, hcell⟩
  refine ⟨List.cons_ne_nil _ _, fun other hother => ?_⟩
  rw [List.mem_singleton.mp hother, hcell]
  exact h

theorem exists_interleaved_piecesFrom (separator : Char) (depth : Nat) (l : List Cell) :
    ∃ pieces, Interleaved (IsSeparator separator)
      ((piecesFrom separator depth l).1 :: (piecesFrom separator depth l).2) pieces ∧
      pieces.flatten = l := by
  fun_induction piecesFrom separator depth l with
  | case1 => exact ⟨[[]], .last [], rfl⟩
  | case2 depth cell r hcell piece pieces hrest ih =>
    rw [hrest] at ih
    simp only [Bool.and_eq_true, beq_iff_eq] at hcell
    exact exists_interleaved_gap ⟨cell, rfl, hcell.1.2⟩ ih
  | case3 depth cell r _ piece pieces hrest ih =>
    rw [hrest] at ih
    exact exists_interleaved_cons cell ih

/-! ## Blanks -/

def IsBlankCell (gap : List Cell) : Prop := ∃ cell : Cell, gap = [cell] ∧ cell.isBlank = true

theorem exists_among_tokensFrom (depth : Nat) (l : List Cell) :
    ∃ pieces, Among IsBlankCell (tokensFrom depth l).2 pieces ∧
      l = (tokensFrom depth l).1 ++ pieces.flatten ∧ BeginsClear pieces.flatten ∧
      ClearCuts pieces := by
  fun_induction tokensFrom depth l with
  | case1 => exact ⟨[], .nil, rfl, beginsClear_nil, trivial⟩
  | case2 depth cell r hcell token tokens hrest ih =>
    rw [hrest] at ih
    obtain ⟨pieces, hpieces, hr, hbegins, hclear⟩ := ih
    rw [Bool.and_eq_true] at hcell
    have hblank : IsBlankCell [cell] := ⟨cell, rfl, hcell.1⟩
    have hshown : cell.shown ≠ '_' := shown_ne_of_isBlank hcell.1
    cases token with
    | nil =>
      exact ⟨[cell] :: pieces, .gap hblank hpieces, congrArg (cell :: ·) hr,
        beginsClear_cons hshown _, .inl (endsClear_concat hshown []), hclear⟩
    | cons first token =>
      exact ⟨[cell] :: (first :: token) :: pieces, .gap hblank (.part _ hpieces),
        congrArg (cell :: ·) hr, beginsClear_cons hshown _, .inl (endsClear_concat hshown []),
        .inr hbegins, hclear⟩
  | case3 depth cell r _ token tokens hrest ih =>
    rw [hrest] at ih
    obtain ⟨pieces, hpieces, hr, hbegins, hclear⟩ := ih
    exact ⟨pieces, hpieces, congrArg (cell :: ·) hr, hbegins, hclear⟩

/-! ## Keywords -/

/-- The cells that are left out before the rest of the piece begins. -/
def Pending.left : Pending → Nat
  | .stay _ => 0
  | .leave count => count

/-- Where a keyword starts, it is the gap in front of the parts behind it. -/
theorem exists_interleaved_keyword {keyword : List Char} (hkeyword : Searchable Char.toUpper keyword)
    {l : List Cell} {parts : List (List Cell)} (hstarts : starts Char.toUpper keyword l = true)
    (hrest : ∃ pieces, Interleaved (Finds Char.toUpper keyword) parts pieces ∧
      pieces.flatten = l.drop keyword.length) :
    ∃ pieces, Interleaved (Finds Char.toUpper keyword) ([] :: parts) pieces ∧
      pieces.flatten = l := by
  obtain ⟨pieces, hpieces, hflat⟩ :=
    exists_interleaved_gap (hkeyword.finds (matches_of_starts hstarts)) hrest
  exact ⟨pieces, hpieces, hflat.trans (List.take_append_drop keyword.length l)⟩

theorem exists_interleaved_partsFrom {keyword : List Char} (hkeyword : Searchable Char.toUpper keyword)
    (blankBefore : Bool) (pending : Pending) (l : List Cell) :
    ∃ pieces, Interleaved (Finds Char.toUpper keyword)
      ((partsFrom keyword blankBefore pending l).1 :: (partsFrom keyword blankBefore pending l).2)
        pieces ∧ pieces.flatten = l.drop pending.left := by
  obtain ⟨c, word, rfl⟩ := List.exists_cons_of_ne_nil hkeyword.nonempty
  fun_induction partsFrom (c :: word) blankBefore pending l with
  | case1 => exact ⟨[[]], .last [], List.drop_nil.symm⟩
  | case2 _ count cell r ih => exact ih
  | case3 _ count cell r part parts hrest ih =>
    rw [hrest] at ih
    exact exists_interleaved_cons cell ih
  | case4 _ cell r hstarts _ part parts hrest ih =>
    rw [hrest] at ih
    exact exists_interleaved_keyword hkeyword hstarts ih
  | case5 _ cell r _ _ part parts hrest ih =>
    rw [hrest] at ih
    exact exists_interleaved_cons cell ih
  | case6 _ cell r _ part parts hrest ih =>
    rw [hrest] at ih
    exact exists_interleaved_cons cell ih
  | case7 _ cell r hstarts _ part parts hrest ih =>
    rw [hrest] at ih
    exact exists_interleaved_keyword hkeyword hstarts ih
  | case8 _ cell r _ _ part parts hrest ih =>
    rw [hrest] at ih
    exact exists_interleaved_cons cell ih
  | case9 _ cell r _ part parts hrest ih =>
    rw [hrest] at ih
    exact exists_interleaved_cons cell ih

/-! ## Cuts of a text -/

/-- The cells of the pieces that `atSeparator?` reads. -/
def separatorParts (separator : Char) (text : List Char) : List (List Cell) :=
  (piecesFrom separator 0 (mask text)).1 :: (piecesFrom separator 0 (mask text)).2

def blankParts (text : List Char) : List (List Cell) :=
  consToken (tokensFrom 0 (mask text)).1 (tokensFrom 0 (mask text)).2

def keywordParts (keyword text : List Char) : List (List Cell) :=
  (partsFrom keyword false (.stay 0) (mask text)).1 ::
    (partsFrom keyword false (.stay 0) (mask text)).2

variable (text : List Char)

/-- The separators between the pieces are between clear cuts. -/
theorem exists_separatorCuts {separator : Char} (h : separator ≠ '_') :
    ∃ pieces, Interleaved (IsSeparator separator) (separatorParts separator text) pieces ∧
      CutInto text pieces := by
  obtain ⟨pieces, hpieces, hflat⟩ := exists_interleaved_piecesFrom separator 0 (mask text)
  exact ⟨pieces, hpieces, cutInto_of_clearCuts hflat (hpieces.clearCuts (visible_isSeparator h))⟩

theorem exists_blankCuts :
    ∃ pieces, Among IsBlankCell (blankParts text) pieces ∧ CutInto text pieces := by
  obtain ⟨pieces, hpieces, hflat, hbegins, hclear⟩ := exists_among_tokensFrom 0 (mask text)
  rw [blankParts]
  cases htoken : (tokensFrom 0 (mask text)).1 with
  | nil =>
    rw [htoken] at hflat
    exact ⟨pieces, hpieces, cutInto_of_clearCuts hflat.symm hclear⟩
  | cons cell token =>
    rw [htoken] at hflat
    exact ⟨_, .part _ hpieces, cutInto_of_clearCuts hflat.symm ⟨.inr hbegins, hclear⟩⟩

theorem exists_keywordCuts {keyword : List Char} (h : Searchable Char.toUpper keyword) :
    ∃ pieces, Interleaved (Finds Char.toUpper keyword) (keywordParts keyword text) pieces ∧
      CutInto text pieces := by
  obtain ⟨pieces, hpieces, hflat⟩ := exists_interleaved_partsFrom h false (.stay 0) (mask text)
  exact ⟨pieces, hpieces, cutInto_of_clearCuts hflat (hpieces.clearCuts h.visible_finds)⟩

/-! ## No piece is torn -/

theorem exists_mapM_eq_some {α β : Type} {f : α → Option β} {l : List α}
    (h : ∀ a ∈ l, ∃ b, f a = some b) : ∃ bs, l.mapM f = some bs := by
  obtain ⟨bs, hbs⟩ := exists_forall₂ h
  exact ⟨bs, mapM_eq_some_iff.mpr hbs⟩

theorem exists_readTrimmed? {parts : List (List Cell)}
    (h : ∀ part ∈ parts, ∃ cs, read? part = some cs) : ∃ texts, readTrimmed? parts = some texts := by
  refine exists_mapM_eq_some fun part hpart => ?_
  obtain ⟨cs, hcs⟩ := h part hpart
  exact ⟨Text.trim cs, congrArg (Option.map Text.trim) hcs⟩

theorem exists_atSeparator? {separator : Char} (h : separator ≠ '_') :
    ∃ texts, atSeparator? separator text = some texts := by
  obtain ⟨pieces, hpieces, hcut⟩ := exists_separatorCuts text h
  obtain ⟨texts, htexts⟩ :=
    exists_readTrimmed? fun part hpart => hcut.exists_read part (hpieces.subset hpart)
  exact ⟨_, congrArg (Option.map fun pieces => if pieces = [[]] then [] else pieces) htexts⟩

theorem exists_atBlanks? : ∃ texts, atBlanks? text = some texts := by
  obtain ⟨pieces, hpieces, hcut⟩ := exists_blankCuts text
  exact exists_mapM_eq_some fun part hpart => hcut.exists_read part (hpieces.subset hpart)

theorem exists_atKeyword? {keyword : List Char} (h : Searchable Char.toUpper keyword) :
    ∃ texts, atKeyword? keyword text = some texts := by
  obtain ⟨pieces, hpieces, hcut⟩ := exists_keywordCuts text h
  exact exists_readTrimmed? fun part hpart => hcut.exists_read part (hpieces.subset hpart)

end Split

end Rowfile
