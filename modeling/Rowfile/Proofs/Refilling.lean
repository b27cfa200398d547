import Rowfile.Proofs.Passing
import Mathlib.Data.List.Forall2

/-!
# Refilled spans

Two masked texts that differ only in what one quoted span holds have runs of filler of different
lengths, and all that comes after the span stands at another place. No recogniser and no cut can tell
them apart: it finds something in both or in neither, and the parts that it finds are equal or differ
in that span again. One induction principle carries all of these laws. It goes over the cells outside
quotes one by one and over each span as a whole, which by then is just a run of filler.
-/
namespace Rowfile

structure Swap where
  quote : Char
  old : List Char
  new : List Char
  isQuote_quote : isQuote quote = true
  not_mem_old : quote ∉ old
  not_mem_new : quote ∉ new

/-- Two texts that are equal, or differ in what one quoted span holds. -/
def Respelled (q : Char) (s t : List Char) (a b : List Char) : Prop :=
  a = b ∨ ∃ x y, Closed x ∧ a = x ++ (inQuotes q s ++ y) ∧ b = x ++ (inQuotes q t ++ y)

namespace Masked

/-- Two masked texts that are equal, or differ in what one quoted span holds. -/
inductive Refilled (w : Swap) : List Cell → List Cell → Prop
  | nil : Refilled w [] []
  | plain {c : Char} {l m : List Cell} :
      isQuote c = false → Refilled w l m → Refilled w (.plain c :: l) (.plain c :: m)
  | span {q : Char} {cs : List Char} {l m : List Cell} :
      isQuote q = true → q ∉ cs → Refilled w l m →
      Refilled w (cover (inQuotes q cs) ++ l) (cover (inQuotes q cs) ++ m)
  | unclosed {q : Char} {cs : List Char} :
      isQuote q = true → q ∉ cs → Refilled w (cover (q :: cs)) (cover (q :: cs))
  | swapped {l : List Cell} :
      Refilled w l l →
      Refilled w (cover (inQuotes w.quote w.old) ++ l) (cover (inQuotes w.quote w.new) ++ l)

variable {w : Swap} {l m : List Cell}

/-! ## Texts and their cells -/

theorem refilled_mask_self (w : Swap) (cs : List Char) : Refilled w (mask cs) (mask cs) := by
  induction cs using spans_induction with
  | nil => exact .nil
  | plain c cs hc ih =>
    rw [mask_cons hc]
    exact .plain hc ih
  | span q cs ds hq h ih =>
    rw [mask_inQuotes_append hq h]
    exact .span hq h ih
  | unclosed q cs hq h =>
    rw [mask_unclosed hq h]
    exact .unclosed hq h

theorem refilled_mask_swapped (w : Swap) (x y : List Char) (hx : Closed x) :
    Refilled w (mask (x ++ (inQuotes w.quote w.old ++ y)))
      (mask (x ++ (inQuotes w.quote w.new ++ y))) := by
  induction x using spans_induction with
  | nil =>
    rw [List.nil_append, List.nil_append, mask_inQuotes_append w.isQuote_quote w.not_mem_old,
      mask_inQuotes_append w.isQuote_quote w.not_mem_new]
    exact .swapped (refilled_mask_self w y)
  | plain c cs hc ih =>
    rw [List.cons_append, List.cons_append, mask_cons hc, mask_cons hc]
    exact .plain hc (ih ((closed_cons_iff hc).mp hx))
  | span q cs ds hq h ih =>
    have hds : Closed ds := by
      rw [Closed, quoteAfter_append, closed_inQuotes hq h] at hx
      exact hx
    rw [List.append_assoc, List.append_assoc, mask_inQuotes_append hq h, mask_inQuotes_append hq h]
    exact .span hq h (ih hds)
  | unclosed q cs hq h =>
    simp [Closed, quoteAfter, hq, quoteAfter_some h] at hx

/-- Refilled cells mask texts, and these texts differ only in that span. -/
theorem Refilled.texts (h : Refilled w l m) :
    ∃ a b, Respelled w.quote w.old w.new a b ∧ l = mask a ∧ m = mask b := by
  induction h with
  | nil => exact ⟨[], [], .inl rfl, rfl, rfl⟩
  | @plain c l m hc _ ih =>
    obtain ⟨a, b, hab, rfl, rfl⟩ := ih
    refine ⟨c :: a, c :: b, ?_, (mask_cons hc a).symm, (mask_cons hc b).symm⟩
    rcases hab with rfl | ⟨x, y, hx, rfl, rfl⟩
    · exact .inl rfl
    · exact .inr ⟨c :: x, y, (closed_cons_iff hc).mpr hx, rfl, rfl⟩
  | @span q cs l m hq hcs _ ih =>
    obtain ⟨a, b, hab, rfl, rfl⟩ := ih
    refine ⟨inQuotes q cs ++ a, inQuotes q cs ++ b, ?_, (mask_inQuotes_append hq hcs a).symm,
      (mask_inQuotes_append hq hcs b).symm⟩
    rcases hab with rfl | ⟨x, y, hx, rfl, rfl⟩
    · exact .inl rfl
    · exact .inr ⟨inQuotes q cs ++ x, y, (closed_inQuotes hq hcs).append hx,
        (List.append_assoc ..).symm, (List.append_assoc ..).symm⟩
  | @unclosed q cs hq hcs =>
    exact ⟨q :: cs, q :: cs, .inl rfl, (mask_unclosed hq hcs).symm, (mask_unclosed hq hcs).symm⟩
  | @swapped l _ ih =>
    obtain ⟨a, _, _, rfl, _⟩ := ih
    exact ⟨inQuotes w.quote w.old ++ a, inQuotes w.quote w.new ++ a,
      .inr ⟨[], a, closed_nil, rfl, rfl⟩,
      (mask_inQuotes_append w.isQuote_quote w.not_mem_old a).symm,
      (mask_inQuotes_append w.isQuote_quote w.not_mem_new a).symm⟩

/-- Over a run of filler it is enough to know that both runs may stand before whatever a function
makes of the cells behind them. -/
theorem Refilled.induction_on_runs {motive : ∀ l m, Refilled w l m → Prop}
    (nil : motive [] [] .nil)
    (plain : ∀ c l m (hc : isQuote c = false) (h : Refilled w l m),
      motive l m h → motive _ _ (.plain hc h))
    (run : ∀ f g l m, Covered f → Covered g →
      (∀ part : List Cell → List Cell, part [] = [] → Refilled w (part l) (part m) →
        Refilled w (f ++ part l) (g ++ part m)) →
      ∀ h : Refilled w l m, motive l m h → ∀ h', motive (f ++ l) (g ++ m) h')
    (h : Refilled w l m) : motive l m h := by
  induction h with
  | nil => exact nil
  | plain hc h ih => exact plain _ _ _ hc h ih
  | span hq hcs h ih =>
    exact run _ _ _ _ (covered_inQuotes _ _) (covered_inQuotes _ _)
      (fun _ _ hpart => .span hq hcs hpart) h ih _
  | @unclosed q cs hq hcs =>
    have hrun := covered_cover (List.cons_ne_nil q cs)
    have hall := run (cover (q :: cs)) (cover (q :: cs)) [] [] hrun hrun
      (fun part hnil _ => by
        rw [hnil, List.append_nil]
        exact .unclosed hq hcs) .nil nil
    simp only [List.append_nil] at hall
    exact hall (.unclosed hq hcs)
  | swapped h ih =>
    exact run _ _ _ _ (covered_inQuotes _ _) (covered_inQuotes _ _)
      (fun _ _ hpart => .swapped hpart) h ih _

theorem Covered.exists_cons {f : List Cell} (hf : Covered f) :
    ∃ cell rest, f = cell :: rest ∧ cell.shown = '_' := by
  cases f with
  | nil => exact absurd rfl hf.nonempty
  | cons cell rest => exact ⟨cell, rest, rfl, hf.shown cell List.mem_cons_self⟩

/-- A run of filler is passed over by a class of characters, or stopped at. -/
theorem Covered.takeWhile_append {f : List Cell} (hf : Covered f) (p : Char → Bool)
    (l : List Cell) : (f ++ l).takeWhile (fun cell => p cell.shown) =
      if p '_' then f ++ l.takeWhile (fun cell => p cell.shown) else [] := by
  cases hp : p '_' with
  | true =>
    rw [List.takeWhile_append_of_pos fun x hx => by rw [hf.shown x hx, hp]]
    rfl
  | false =>
    obtain ⟨cell, rest, rfl, hcell⟩ := hf.exists_cons
    rw [List.cons_append, List.takeWhile_cons, hcell, hp]
    rfl

theorem Covered.dropWhile_append {f : List Cell} (hf : Covered f) (p : Char → Bool)
    (l : List Cell) : (f ++ l).dropWhile (fun cell => p cell.shown) =
      if p '_' then l.dropWhile (fun cell => p cell.shown) else f ++ l := by
  cases hp : p '_' with
  | true =>
    rw [List.dropWhile_append_of_pos fun x hx => by rw [hf.shown x hx, hp]]
    rfl
  | false =>
    obtain ⟨cell, rest, rfl, hcell⟩ := hf.exists_cons
    rw [List.cons_append, List.dropWhile_cons, hcell, hp]
    rfl

namespace Refilled

theorem length_eq_zero_iff (h : Refilled w l m) : l = [] ↔ m = [] := by
  induction h using induction_on_runs with
  | nil => exact Iff.rfl
  | plain => simp
  | run f g l m hf hg => simp [hf.nonempty, hg.nonempty]

/-- The first cells of both show the same. -/
theorem head?_shown (h : Refilled w l m) : l.head?.map Cell.shown = m.head?.map Cell.shown := by
  induction h using induction_on_runs with
  | nil => rfl
  | plain => rfl
  | run f g l m hf hg =>
    obtain ⟨cell, rest, rfl, hcell⟩ := hf.exists_cons
    obtain ⟨cell', rest', rfl, hcell'⟩ := hg.exists_cons
    simp [hcell, hcell']

theorem head?_any (h : Refilled w l m) (p : Char → Bool) :
    l.head?.any (fun cell => p cell.shown) = m.head?.any (fun cell => p cell.shown) := by
  have hmap := h.head?_shown
  cases l <;> cases m <;> simp_all

theorem takeWhile (h : Refilled w l m) (p : Char → Bool) :
    Refilled w (l.takeWhile fun cell => p cell.shown) (m.takeWhile fun cell => p cell.shown) := by
  induction h using induction_on_runs with
  | nil => exact .nil
  | plain c l m hc h ih =>
    rw [List.takeWhile_cons, List.takeWhile_cons, Cell.shown_plain]
    cases p c with
    | true => exact .plain hc ih
    | false => exact .nil
  | run f g l m hf hg wrap h ih =>
    rw [hf.takeWhile_append, hg.takeWhile_append]
    cases p '_' with
    | true => exact wrap (List.takeWhile fun cell => p cell.shown) rfl ih
    | false => exact .nil

theorem dropWhile (h : Refilled w l m) (p : Char → Bool) :
    Refilled w (l.dropWhile fun cell => p cell.shown) (m.dropWhile fun cell => p cell.shown) := by
  induction h using induction_on_runs with
  | nil => exact .nil
  | plain c l m hc h ih =>
    rw [List.dropWhile_cons, List.dropWhile_cons, Cell.shown_plain]
    cases p c with
    | true => exact ih
    | false => exact .plain hc h
  | run f g l m hf hg wrap h ih =>
    rw [hf.dropWhile_append, hg.dropWhile_append]
    cases p '_' with
    | true => exact ih
    | false => exact wrap id rfl h

/-- What stands before the first filler is the same in both. -/
theorem takeWhile_eq (h : Refilled w l m) {p : Char → Bool} (hp : p '_' = false) :
    l.takeWhile (fun cell => p cell.shown) = m.takeWhile fun cell => p cell.shown := by
  induction h using induction_on_runs with
  | nil => rfl
  | plain c l m hc h ih => rw [List.takeWhile_cons, List.takeWhile_cons, ih]
  | run f g l m hf hg wrap h ih => rw [hf.takeWhile_append, hg.takeWhile_append, hp]; rfl

/-- Blanks are the same in both, and they are refilled to themselves. -/
theorem of_blanks {l : List Cell} (w : Swap) (h : ∀ cell ∈ l, cell.isBlank = true) :
    Refilled w l l := by
  induction l with
  | nil => exact .nil
  | cons cell l ih =>
    have hcell := h cell List.mem_cons_self
    cases cell with
    | plain c =>
      exact .plain (isQuote_of_isBlank hcell) (ih fun x hx => h x (List.mem_cons_of_mem _ hx))
    | filler c => exact absurd hcell (by simp [Cell.isBlank])
    | tail => exact absurd hcell (by simp [Cell.isBlank])

end Refilled

end Masked

end Rowfile
