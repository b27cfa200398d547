import Rowfile.Proofs.Readers
import Rowfile.Proofs.Spans

/-!
# Cuts between characters

A quoted character of several octets is covered by as many cells, so not every place in a masked text is
the beginning of a character. A cut beside a cell that shows anything but the low line is: such a cell
covers no part of a quoted character. So are the ends of the text. Where all cuts are of this kind, the
pieces cover pieces of the text, and each cut is at an octet of the text at which a character begins or
the text ends.
-/
namespace Rowfile

open Masked

/-- A character of the text begins at the octet, or the text ends there. -/
def Boundary (text : List Char) (offset : Nat) : Prop :=
  ∃ front back, text = front ++ back ∧ (Text.Utf8.encode front).length = offset

theorem Boundary.le_length {text : List Char} {offset : Nat} (h : Boundary text offset) :
    offset ≤ (Text.Utf8.encode text).length := by
  obtain ⟨front, back, rfl, rfl⟩ := h
  rw [Text.Utf8.encode_append, List.length_append]
  omega

/-! ## Octets of cells -/

theorem Text.Utf8.width_pos (c : Char) : 0 < width c := by
  unfold width
  split
  · omega
  · split
    · omega
    · split <;> omega

namespace Masked

theorem width_append (l r : List Cell) : width (l ++ r) = width l + width r := by
  induction l with
  | nil => exact (Nat.zero_add _).symm
  | cons cell l ih => exact (congrArg (cell.width + ·) ih).trans (Nat.add_assoc _ _ _).symm

theorem width_fill (c : Char) : width (fill c) = Text.Utf8.width c := by
  have htails : ∀ n, width (List.replicate n .tail) = n := by
    intro n
    induction n with
    | zero => rfl
    | succ n ih =>
      rw [List.replicate_succ]
      show 1 + width (List.replicate n .tail) = n + 1
      omega
  have hpos := Text.Utf8.width_pos c
  show 1 + width (List.replicate (Text.Utf8.width c - 1) .tail) = Text.Utf8.width c
  rw [htails]
  omega

/-- The cells of one character. -/
theorem maskFrom_singleton (quote : Option Char) (c : Char) :
    maskFrom quote [c] = [.plain c] ∨ maskFrom quote [c] = fill c := by
  cases quote with
  | none =>
    rw [maskFrom]
    split
    · exact .inr (List.append_nil _)
    · exact .inl rfl
  | some quote => exact .inr (List.append_nil _)

theorem maskFrom_cons (quote : Option Char) (c : Char) (cs : List Char) :
    maskFrom quote (c :: cs) = maskFrom quote [c] ++ maskFrom (quoteAfter quote [c]) cs :=
  maskFrom_append quote [c] cs

/-- Masking keeps the number of octets. -/
theorem width_maskFrom (quote : Option Char) (cs : List Char) :
    width (maskFrom quote cs) = (Text.Utf8.encode cs).length := by
  induction cs generalizing quote with
  | nil => cases quote <;> rfl
  | cons c cs ih =>
    have hencode : Text.Utf8.encode (c :: cs) = (Text.Utf8.units c).map UInt8.ofNat ++
        Text.Utf8.encode cs := by simp [Text.Utf8.encode]
    have hcell : width (maskFrom quote [c]) = Text.Utf8.width c := by
      rcases maskFrom_singleton quote c with h | h
      · rw [h]
        rfl
      · rw [h, width_fill]
    rw [maskFrom_cons, width_append, hcell, ih, hencode, List.length_append, List.length_map,
      Text.Utf8.length_units]

end Masked

/-! ## Clear cuts -/

/-- There are no cells, or the last one shows anything but filler. -/
def EndsClear (cells : List Cell) : Prop := ∀ cell, cells.getLast? = some cell → cell.shown ≠ '_'

/-- There are no cells, or the first one shows anything but filler. -/
def BeginsClear (cells : List Cell) : Prop := ∀ cell, cells.head? = some cell → cell.shown ≠ '_'

/-- The cut between cells is beside a cell that is no filler, or at an end. -/
def ClearCut (before after : List Cell) : Prop := EndsClear before ∨ BeginsClear after

section
variable {cell : Cell} {l : List Cell}

theorem beginsClear_nil : BeginsClear [] := fun _ h => nomatch h

theorem endsClear_concat (h : cell.shown ≠ '_') (l : List Cell) : EndsClear (l ++ [cell]) := by
  intro other hother
  rw [List.getLast?_concat] at hother
  rwa [← Option.some.inj hother]

theorem beginsClear_cons (h : cell.shown ≠ '_') (l : List Cell) : BeginsClear (cell :: l) := by
  intro other hother
  rwa [← Option.some.inj hother]

theorem endsClear_of_forall (h : ∀ cell ∈ l, cell.shown ≠ '_') : EndsClear l :=
  fun cell hcell => h cell (List.mem_of_getLast? hcell)

theorem beginsClear_append (hne : l ≠ []) (h : ∀ cell ∈ l, cell.shown ≠ '_') (r : List Cell) :
    BeginsClear (l ++ r) := by
  obtain ⟨cell, l, rfl⟩ := List.exists_cons_of_ne_nil hne
  exact beginsClear_cons (h cell List.mem_cons_self) _

end

/-- Cells of this kind show no filler, and there is at least one of them. -/
def Visible (IsGap : List Cell → Prop) : Prop :=
  ∀ gap, IsGap gap → gap ≠ [] ∧ ∀ cell ∈ gap, cell.shown ≠ '_'

/-- A character is not cut: within its cells there is filler on either side. -/
theorem not_clearCut_within {quote : Option Char} {c : Char} {before inner after : List Cell}
    (h : maskFrom quote [c] = before ++ inner) (hbefore : before ≠ []) (hinner : inner ≠ []) :
    ¬ClearCut before (inner ++ after) := by
  have hfill : ∀ cell ∈ before ++ inner, cell.shown = '_' := by
    rcases maskFrom_singleton quote c with hcells | hcells
    · have hlength := congrArg List.length (hcells.symm.trans h)
      rw [List.length_append, List.length_singleton] at hlength
      have hpos := List.length_pos_iff.mpr hbefore
      have hpos' := List.length_pos_iff.mpr hinner
      omega
    · intro cell hcell
      rw [← h, hcells] at hcell
      rcases List.mem_cons.mp hcell with rfl | hcell
      · rfl
      · rw [List.eq_of_mem_replicate hcell]
        rfl
  rintro (hclear | hclear)
  · exact hclear _ (List.getLast?_eq_some_getLast hbefore)
      (hfill _ (List.mem_append_left _ (List.getLast_mem hbefore)))
  · obtain ⟨cell, inner, rfl⟩ := List.exists_cons_of_ne_nil hinner
    exact hclear cell rfl (hfill cell (by simp))

/-- A clear cut of a masked text is a cut of the text. -/
theorem exists_cut {quote : Option Char} {text : List Char} {before after : List Cell}
    (h : maskFrom quote text = before ++ after) (hclear : ClearCut before after) :
    ∃ front back, text = front ++ back ∧ before = maskFrom quote front ∧
      after = maskFrom (quoteAfter quote front) back := by
  induction text generalizing quote before with
  | nil =>
    have hnil : maskFrom quote [] = [] := by cases quote <;> rfl
    obtain ⟨rfl, rfl⟩ := List.append_eq_nil_iff.mp (h.symm.trans hnil)
    exact ⟨[], [], rfl, hnil.symm, hnil.symm⟩
  | cons c cs ih =>
    cases hbefore : before with
    | nil =>
      subst hbefore
      refine ⟨[], c :: cs, rfl, ?_, h.symm⟩
      cases quote <;> rfl
    | cons first rest =>
      rw [maskFrom_cons] at h
      have hne : before ≠ [] := by simp [hbefore]
      rw [← hbefore]
      rcases List.append_eq_append_iff.mp h with ⟨later, hlater, hrest⟩ | ⟨inner, hinner, hrest⟩
      · have hclear' : ClearCut later after := by
          refine hclear.imp (fun hends => ?_) id
          intro cell hcell
          refine hends cell ?_
          rw [hlater, List.getLast?_append, hcell, Option.some_or]
        obtain ⟨front, back, rfl, rfl, rfl⟩ := ih hrest hclear'
        refine ⟨c :: front, back, rfl, hlater.trans (maskFrom_cons quote c front).symm, ?_⟩
        rw [← List.singleton_append (l := front), quoteAfter_append]
      · cases inner with
        | nil =>
          rw [List.append_nil] at hinner
          rw [List.nil_append] at hrest
          exact ⟨[c], cs, rfl, hinner.symm, hrest⟩
        | cons cell inner =>
          rw [hrest] at hclear
          exact (not_clearCut_within hinner hne (List.cons_ne_nil _ _) hclear).elim

/-! ## Texts cut into pieces -/

/-- The masked text is cut into pieces. Each cut is at the octet that the cells before it take up, within
the text and at a boundary of it, and the pieces cover pieces of the text. -/
structure CutInto (text : List Char) (pieces : List (List Cell)) : Prop where
  covers : pieces.flatten = mask text
  within : ∀ before after, pieces = before ++ after →
    width before.flatten ≤ (Text.Utf8.encode text).length
  boundary : ∀ before after, pieces = before ++ after → Boundary text (width before.flatten)
  reads : ∃ texts, text = texts.flatten ∧
    List.Forall₂ (fun piece text => read? piece = some text) pieces texts

theorem CutInto.exists_read {text : List Char} {pieces : List (List Cell)}
    (h : CutInto text pieces) : ∀ piece ∈ pieces, ∃ cs, read? piece = some cs := by
  obtain ⟨texts, -, hreads⟩ := h.reads
  intro piece hpiece
  obtain ⟨cs, -, hread⟩ := exists_mem_of_forall₂ hreads hpiece
  exact ⟨cs, hread⟩

/-- Every piece is parted from what follows it by a clear cut. -/
def ClearCuts : List (List Cell) → Prop
  | [] => True
  | piece :: pieces => ClearCut piece pieces.flatten ∧ ClearCuts pieces

/-- Clear cuts of a masked text are cuts of the text, also where a quote is open before it. -/
theorem cuts_of_clearCuts {quote : Option Char} {text : List Char} {pieces : List (List Cell)}
    (hcovers : pieces.flatten = maskFrom quote text) (hclear : ClearCuts pieces) :
    (∀ before after, pieces = before ++ after → Boundary text (width before.flatten)) ∧
      ∃ texts, text = texts.flatten ∧
        List.Forall₂ (fun piece text => read? piece = some text) pieces texts := by
  induction pieces generalizing quote text with
  | nil =>
    have hnil : text = [] := by
      have hread := read?_maskFrom quote text
      rw [← hcovers] at hread
      exact (Option.some.inj hread).symm
    subst hnil
    refine ⟨fun before after hsplit => ?_, [], rfl, .nil⟩
    obtain ⟨rfl, rfl⟩ := List.append_eq_nil_iff.mp hsplit.symm
    exact ⟨[], [], rfl, rfl⟩
  | cons piece pieces ih =>
    obtain ⟨front, back, rfl, rfl, hback⟩ :=
      exists_cut (hcovers.symm.trans List.flatten_cons) hclear.1
    obtain ⟨hboundary, texts, rfl, hreads⟩ := ih hback hclear.2
    refine ⟨fun before after hsplit => ?_, front :: texts, rfl,
      .cons (read?_maskFrom quote front) hreads⟩
    cases before with
    | nil => exact ⟨[], _, rfl, rfl⟩
    | cons first before =>
      obtain ⟨rfl, hrest⟩ := List.cons.inj hsplit
      obtain ⟨front', back', hsame, hoffset⟩ := hboundary before after hrest
      refine ⟨front ++ front', back', by rw [hsame, List.append_assoc], ?_⟩
      rw [List.flatten_cons, width_append, width_maskFrom, Text.Utf8.encode_append,
        List.length_append, hoffset]

theorem cutInto_of_clearCuts {text : List Char} {pieces : List (List Cell)}
    (hcovers : pieces.flatten = mask text) (hclear : ClearCuts pieces) : CutInto text pieces := by
  obtain ⟨hboundary, hreads⟩ := cuts_of_clearCuts hcovers hclear
  exact ⟨hcovers, fun before after h => (hboundary before after h).le_length, hboundary, hreads⟩

end Rowfile
