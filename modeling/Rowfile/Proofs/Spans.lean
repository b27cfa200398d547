import Rowfile.Statement.Masked
import Mathlib.Data.List.Basic

/-!
# Quoted spans

A text is made of characters outside quotes and of quoted spans, of which the last may be left open.
Masking takes a text apart at every place where no quote is open, shows a character outside quotes
as it is, and covers a span with filler only. So a span, whatever it holds, is one run of cells that
all show the low line, and it is never empty.
-/
namespace Rowfile

def inQuotes (q : Char) (cs : List Char) : List Char := q :: (cs ++ [q])

/-- The quote that is open after a text. -/
def quoteAfter : Option Char → List Char → Option Char
  | quote, [] => quote
  | none, c :: cs => quoteAfter (if isQuote c then some c else none) cs
  | some quote, c :: cs => quoteAfter (if c = quote then none else some quote) cs

def Closed (cs : List Char) : Prop := quoteAfter none cs = none

instance (cs : List Char) : Decidable (Closed cs) := inferInstanceAs (Decidable (_ = _))

def Unquoted (cs : List Char) : Prop := ∀ c ∈ cs, isQuote c = false

instance (cs : List Char) : Decidable (Unquoted cs) := List.decidableBAll _ _

theorem isQuote_cases {q : Char} (hq : isQuote q = true) : q = '\x27' ∨ q = '"' := by
  simpa only [isQuote, Bool.or_eq_true, beq_iff_eq] using hq

theorem isBlank_of_isQuote {q : Char} (hq : isQuote q = true) : Text.isBlank q = false := by
  rcases isQuote_cases hq with rfl | rfl
  · decide
  · decide

theorem isQuote_of_isBlank {c : Char} (hc : Text.isBlank c = true) : isQuote c = false := by
  cases hq : isQuote c with
  | false => rfl
  | true => rw [isBlank_of_isQuote hq] at hc; exact absurd hc Bool.false_ne_true

theorem quoteAfter_append (quote : Option Char) (cs ds : List Char) :
    quoteAfter quote (cs ++ ds) = quoteAfter (quoteAfter quote cs) ds := by
  induction cs generalizing quote with
  | nil => rfl
  | cons c cs ih => cases quote <;> exact ih _

theorem quoteAfter_some {q : Char} {cs : List Char} (h : q ∉ cs) :
    quoteAfter (some q) cs = some q := by
  induction cs with
  | nil => rfl
  | cons c cs ih =>
    have hc : c ≠ q := fun e => h (e ▸ List.mem_cons_self)
    rw [quoteAfter, if_neg hc]
    exact ih fun hm => h (List.mem_cons_of_mem _ hm)

theorem closed_nil : Closed [] := rfl

theorem Closed.append {cs ds : List Char} (hc : Closed cs) (hd : Closed ds) :
    Closed (cs ++ ds) := by
  rw [Closed, quoteAfter_append, hc]
  exact hd

theorem closed_cons_iff {c : Char} {cs : List Char} (hc : isQuote c = false) :
    Closed (c :: cs) ↔ Closed cs := by
  simp [Closed, quoteAfter, hc]

theorem closed_inQuotes {q : Char} {cs : List Char} (hq : isQuote q = true) (h : q ∉ cs) :
    Closed (inQuotes q cs) := by
  simp [Closed, inQuotes, quoteAfter, hq, quoteAfter_append, quoteAfter_some h]

theorem Unquoted.closed {cs : List Char} (h : Unquoted cs) : Closed cs := by
  induction cs with
  | nil => rfl
  | cons c cs ih =>
    rw [closed_cons_iff (h c List.mem_cons_self)]
    exact ih fun d hd => h d (List.mem_cons_of_mem _ hd)

/-- A text is made of characters outside quotes and of quoted spans. -/
theorem spans_induction {motive : List Char → Prop} (nil : motive [])
    (plain : ∀ c cs, isQuote c = false → motive cs → motive (c :: cs))
    (span : ∀ q cs ds, isQuote q = true → q ∉ cs → motive ds → motive (inQuotes q cs ++ ds))
    (unclosed : ∀ q cs, isQuote q = true → q ∉ cs → motive (q :: cs)) (text : List Char) :
    motive text := by
  induction hn : text.length using Nat.strongRecOn generalizing text with
  | _ n ih =>
    cases text with
    | nil => exact nil
    | cons c cs =>
      cases hc : isQuote c with
      | false => exact plain c cs hc (ih cs.length (by simp at hn; omega) cs rfl)
      | true =>
        by_cases hm : c ∈ cs
        · obtain ⟨inner, rest, rfl, hinner⟩ := List.eq_append_cons_of_mem hm
          have hrest := ih rest.length (by simp at hn; omega) rest rfl
          simpa [inQuotes] using span c inner rest hc hinner hrest
        · exact unclosed c cs hc hm

/-- Filler shows no blank. -/
theorem shown_ne_of_isBlank {cell : Cell} (h : cell.isBlank = true) : cell.shown ≠ '_' := by
  intro hshown
  rw [Cell.isBlank, hshown] at h
  exact absurd h (by simp)

namespace Masked

def cover (cs : List Char) : List Cell := cs.flatMap fill

structure Covered (cells : List Cell) : Prop where
  nonempty : cells ≠ []
  shown : ∀ cell ∈ cells, cell.shown = '_'

theorem covered_cover {cs : List Char} (h : cs ≠ []) : Covered (cover cs) := by
  refine ⟨?_, ?_⟩
  · cases cs with
    | nil => exact absurd rfl h
    | cons c cs => simp [cover, fill]
  · intro cell hcell
    obtain ⟨c, _, hc⟩ := List.mem_flatMap.mp hcell
    rcases List.mem_cons.mp hc with rfl | hc
    · rfl
    · rw [List.eq_of_mem_replicate hc]
      rfl

theorem covered_inQuotes (q : Char) (cs : List Char) : Covered (cover (inQuotes q cs)) :=
  covered_cover (by simp [inQuotes])

theorem maskFrom_append (quote : Option Char) (cs ds : List Char) :
    maskFrom quote (cs ++ ds) = maskFrom quote cs ++ maskFrom (quoteAfter quote cs) ds := by
  induction cs generalizing quote with
  | nil => cases quote <;> rfl
  | cons c cs ih =>
    cases quote with
    | none => by_cases hc : isQuote c = true <;> simp [maskFrom, quoteAfter, hc, ih]
    | some quote => simp [maskFrom, quoteAfter, ih]

theorem mask_append {cs : List Char} (h : Closed cs) (ds : List Char) :
    mask (cs ++ ds) = mask cs ++ mask ds := by
  rw [mask, maskFrom_append, h]
  rfl

theorem mask_cons {c : Char} (h : isQuote c = false) (cs : List Char) :
    mask (c :: cs) = .plain c :: mask cs := by
  simp [mask, maskFrom, h]

theorem mask_of_unquoted {cs : List Char} (h : Unquoted cs) : mask cs = cs.map .plain := by
  induction cs with
  | nil => rfl
  | cons c cs ih =>
    rw [mask_cons (h c List.mem_cons_self), ih fun d hd => h d (List.mem_cons_of_mem _ hd)]
    rfl

theorem maskFrom_some {q : Char} {cs : List Char} (h : q ∉ cs) :
    maskFrom (some q) cs = cover cs := by
  induction cs with
  | nil => rfl
  | cons c cs ih =>
    have hc : c ≠ q := fun e => h (e ▸ List.mem_cons_self)
    rw [maskFrom, if_neg hc, ih fun hm => h (List.mem_cons_of_mem _ hm)]
    rfl

theorem mask_unclosed {q : Char} {cs : List Char} (hq : isQuote q = true) (h : q ∉ cs) :
    mask (q :: cs) = cover (q :: cs) := by
  simp [mask, maskFrom, hq, maskFrom_some h, cover]

theorem mask_inQuotes {q : Char} {cs : List Char} (hq : isQuote q = true) (h : q ∉ cs) :
    mask (inQuotes q cs) = cover (inQuotes q cs) := by
  simp [mask, inQuotes, maskFrom, hq, maskFrom_append, maskFrom_some h, quoteAfter_some h, cover]

theorem mask_inQuotes_append {q : Char} {cs : List Char} (hq : isQuote q = true) (h : q ∉ cs)
    (ds : List Char) : mask (inQuotes q cs ++ ds) = cover (inQuotes q cs) ++ mask ds := by
  rw [mask_append (closed_inQuotes hq h), mask_inQuotes hq h]

/-- Different texts are masked differently. -/
theorem mask_injective {cs ds : List Char} (h : mask cs = mask ds) : cs = ds := by
  have hread := congrArg read? h
  rw [read?_mask, read?_mask] at hread
  exact Option.some.inj hread

theorem plain_notMem_cover (c : Char) (cs : List Char) : Cell.plain c ∉ cover cs := by
  intro hmem
  obtain ⟨d, -, hd⟩ := List.mem_flatMap.mp hmem
  rcases List.mem_cons.mp hd with hd | hd
  · cases hd
  · cases List.eq_of_mem_replicate hd

/-- A plain cell stands outside quotes, so the text is cut before and behind it. -/
theorem mask_eq_append_plain {cs : List Char} {front back : List Cell} {c : Char}
    (h : mask cs = front ++ .plain c :: back) :
    ∃ before after, cs = before ++ c :: after ∧ Closed before ∧ isQuote c = false ∧
      front = mask before ∧ back = mask after := by
  induction cs using spans_induction generalizing front with
  | nil => simp at h
  | plain d cs hd ih =>
    rw [mask_cons hd] at h
    cases front with
    | nil =>
      obtain ⟨hcell, rfl⟩ := List.cons.inj h
      obtain rfl := Cell.plain.inj hcell
      exact ⟨[], cs, rfl, closed_nil, hd, rfl, rfl⟩
    | cons first front =>
      obtain ⟨rfl, hrest⟩ := List.cons.inj h
      obtain ⟨before, after, rfl, hbefore, hc, rfl, hback⟩ := ih hrest
      exact ⟨d :: before, after, rfl, (closed_cons_iff hd).mpr hbefore, hc,
        (mask_cons hd before).symm, hback⟩
  | span q cs ds hq hcs ih =>
    have hclosed := closed_inQuotes hq hcs
    rw [mask_inQuotes_append hq hcs] at h
    have hlong : ∃ rest, front = cover (inQuotes q cs) ++ rest ∧
        mask ds = rest ++ .plain c :: back := by
      rcases List.append_eq_append_iff.mp h with hlong | ⟨rest, hcover, hrest⟩
      · exact hlong
      · cases rest with
        | nil => exact ⟨[], by rw [hcover, List.append_nil, List.append_nil], hrest.symm⟩
        | cons first rest =>
          obtain ⟨rfl, -⟩ := List.cons.inj hrest
          exact absurd (hcover ▸ by simp) (plain_notMem_cover c (inQuotes q cs))
    obtain ⟨rest, rfl, hrest⟩ := hlong
    obtain ⟨before, after, rfl, hbefore, hc, rfl, hback⟩ := ih hrest
    exact ⟨inQuotes q cs ++ before, after, (List.append_assoc _ _ _).symm,
      hclosed.append hbefore, hc, (mask_inQuotes_append hq hcs before).symm, hback⟩
  | unclosed q cs hq hcs =>
    rw [mask_unclosed hq hcs] at h
    exact absurd (h ▸ by simp) (plain_notMem_cover c (q :: cs))

/-- A cell that shows anything but the low line is plain, so the text is cut before and behind it. -/
theorem mask_eq_append_cons {cs : List Char} {front back : List Cell} {cell : Cell}
    (h : mask cs = front ++ cell :: back) (hcell : cell.shown ≠ '_') :
    ∃ before c after, cs = before ++ c :: after ∧ Closed before ∧ isQuote c = false ∧
      front = mask before ∧ cell = .plain c ∧ back = mask after := by
  cases cell with
  | plain c =>
    obtain ⟨before, after, hcs, hbefore, hc, hfront, hback⟩ := mask_eq_append_plain h
    exact ⟨before, c, after, hcs, hbefore, hc, hfront, rfl, hback⟩
  | filler c => exact absurd rfl hcell
  | tail => exact absurd rfl hcell

end Masked

end Rowfile
