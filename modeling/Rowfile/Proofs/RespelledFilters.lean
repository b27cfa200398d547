import Rowfile.Proofs.Peeling
import Rowfile.Proofs.RefilledParts

/-!
# Respelled filters

The readers take the parts that were found in masked text back to characters, trim them and mask them
again. A part that contains a respelled span is respelled, and so are its pieces. So two respelled
filters are read as the same tree of comparisons: the operators agree, columns that contain no quote
agree, and the literals are read from respelled texts.
-/
namespace Rowfile

section
variable {α β γ δ : Type} {R : α → β → Prop} {S : γ → δ → Prop}

/-- Whatever the first computation gives, the second gives something related. -/
def Follows (R : α → β → Prop) (x : Except Malformed α) (y : Except Malformed β) : Prop :=
  ∀ a, x = .ok a → ∃ b, y = .ok b ∧ R a b

theorem Follows.ok {a : α} {b : β} (h : R a b) : Follows R (.ok a) (.ok b) := by
  intro a' ha
  obtain rfl := Except.ok.inj ha
  exact ⟨b, rfl, h⟩

theorem Follows.error (problem : Malformed) (y : Except Malformed β) :
    Follows R (.error problem) y := fun _ ha => nomatch ha

theorem Follows.bind {x : Except Malformed α} {y : Except Malformed β}
    {f : α → Except Malformed γ} {g : β → Except Malformed δ} (h : Follows R x y)
    (hfg : ∀ a b, R a b → Follows S (f a) (g b)) : Follows S (x >>= f) (y >>= g) := by
  intro c hc
  obtain ⟨a, ha, hc⟩ := bind_eq_ok.mp hc
  obtain ⟨b, hb, hab⟩ := h a ha
  obtain ⟨d, hd, hcd⟩ := hfg a b hab c hc
  exact ⟨d, bind_eq_ok.mpr ⟨b, hb, hd⟩, hcd⟩

theorem Follows.map {x : Except Malformed α} {y : Except Malformed β} {f : α → γ} {g : β → δ}
    (h : Follows R x y) (hfg : ∀ a b, R a b → S (f a) (g b)) : Follows S (x.map f) (y.map g) := by
  intro c hc
  cases x with
  | error problem => cases hc
  | ok a =>
    obtain rfl := Except.ok.inj hc
    obtain ⟨b, rfl, hab⟩ := h a rfl
    exact ⟨g b, rfl, hfg a b hab⟩

theorem Follows.orFault {x : Option α} {y : Option β} (h : Option.Rel R x y)
    (problem problem' : Malformed) :
    Follows R (Statement.orFault problem x) (Statement.orFault problem' y) := by
  cases h with
  | some hab => exact .ok hab
  | none => exact .error _ _

theorem Follows.mapM {f : α → Except Malformed γ} {g : β → Except Malformed δ} {l : List α}
    {m : List β} (h : List.Forall₂ R l m) (hfg : ∀ a b, R a b → Follows S (f a) (g b)) :
    Follows (List.Forall₂ S) (l.mapM f) (m.mapM g) := by
  induction h with
  | nil => exact .ok .nil
  | cons hab _ ih =>
    rw [List.mapM_cons, List.mapM_cons]
    exact (hfg _ _ hab).bind fun _ _ hcd => ih.bind fun _ _ hrest => .ok (.cons hcd hrest)

/-- A check that answers alike for both is passed by both or by neither. -/
theorem Follows.check {bad bad' : Bool} (hbad : bad = bad') (problem problem' : Malformed)
    {x : Except Malformed α} {y : Except Malformed β} (h : bad = false → Follows R x y) :
    Follows R (if bad = true then throw problem >>= fun _ : PUnit => x else x)
      (if bad' = true then throw problem' >>= fun _ : PUnit => y else y) := by
  subst hbad
  cases bad with
  | true => exact .error _ _
  | false => exact h rfl

end

/-! ## Respelled texts -/

namespace Respelled

variable {q : Char} {s t a b : List Char}

theorem isEmpty_eq (h : Respelled q s t a b) : a.isEmpty = b.isEmpty := by
  rcases h with rfl | ⟨x, y, _, rfl, rfl⟩
  · rfl
  · cases x <;> rfl

/-- A text without quotes contains no quoted span. -/
theorem eq_of_unquoted (hq : isQuote q = true) (h : Respelled q s t a b) (ha : Unquoted a) :
    a = b := by
  rcases h with rfl | ⟨x, y, _, rfl, rfl⟩
  · rfl
  · have hquote := ha q (by simp [inQuotes])
    rw [hq] at hquote
    exact absurd hquote.symm Bool.false_ne_true

end Respelled

theorem Closed.trimStart {cs : List Char} (h : Closed cs) : Closed (Text.trimStart cs) := by
  induction cs with
  | nil => exact h
  | cons c cs ih =>
    rw [Text.trimStart, List.dropWhile_cons]
    split
    · next hc => exact ih ((closed_cons_iff (isQuote_of_isBlank hc)).mp h)
    · exact h

theorem Text.trimStart_append_inQuotes {q : Char} (hq : isQuote q = true) (x s y : List Char) :
    trimStart (x ++ (inQuotes q s ++ y)) = trimStart x ++ (inQuotes q s ++ y) := by
  have hspan : (inQuotes q s ++ y).dropWhile isBlank = inQuotes q s ++ y := by
    rw [inQuotes, List.cons_append, List.dropWhile_cons, isBlank_of_isQuote hq]
    rfl
  rw [trimStart, trimStart, List.dropWhile_append]
  split
  · next hx => rw [hspan, List.isEmpty_iff.mp hx, List.nil_append]
  · rfl

theorem Text.trimEnd_append_inQuotes {q : Char} (hq : isQuote q = true) (x s y : List Char) :
    trimEnd (x ++ (inQuotes q s ++ y)) = x ++ (inQuotes q s ++ trimEnd y) := by
  have hspan : ((inQuotes q s).reverse ++ x.reverse).dropWhile isBlank =
      (inQuotes q s).reverse ++ x.reverse := by
    rw [inQuotes, List.reverse_cons, List.reverse_append, List.reverse_singleton,
      List.append_assoc, List.append_assoc, List.singleton_append, List.dropWhile_cons,
      isBlank_of_isQuote hq]
    rfl
  rw [trimEnd, trimEnd, List.reverse_append, List.reverse_append, List.append_assoc,
    List.dropWhile_append]
  split
  · next hy => simp [hspan, List.isEmpty_iff.mp hy]
  · simp

theorem Respelled.trimStart {q : Char} {s t a b : List Char} (hq : isQuote q = true)
    (h : Respelled q s t a b) : Respelled q s t (Text.trimStart a) (Text.trimStart b) := by
  rcases h with rfl | ⟨x, y, hx, rfl, rfl⟩
  · exact .inl rfl
  · exact .inr ⟨Text.trimStart x, y, hx.trimStart, Text.trimStart_append_inQuotes hq x s y,
      Text.trimStart_append_inQuotes hq x t y⟩

theorem Respelled.trimEnd {q : Char} {s t a b : List Char} (hq : isQuote q = true)
    (h : Respelled q s t a b) : Respelled q s t (Text.trimEnd a) (Text.trimEnd b) := by
  rcases h with rfl | ⟨x, y, hx, rfl, rfl⟩
  · exact .inl rfl
  · exact .inr ⟨x, Text.trimEnd y, hx, Text.trimEnd_append_inQuotes hq x s y,
      Text.trimEnd_append_inQuotes hq x t y⟩

theorem Respelled.trim {q : Char} {s t a b : List Char} (hq : isQuote q = true)
    (h : Respelled q s t a b) : Respelled q s t (Text.trim a) (Text.trim b) :=
  (h.trimStart hq).trimEnd hq

/-! ## Parts and pieces -/

open Masked

variable {w : Swap}

/-- The two texts differ in the swapped span only. -/
abbrev Swap.Respells (w : Swap) : List Char → List Char → Prop :=
  Respelled w.quote w.old w.new

theorem Respelled.refilled {a b : List Char} (h : w.Respells a b) :
    Refilled w (mask a) (mask b) := by
  rcases h with rfl | ⟨x, y, hx, rfl, rfl⟩
  · exact refilled_mask_self w a
  · exact refilled_mask_swapped w x y hx

namespace Masked.Refilled

variable {l m : List Cell}

theorem readPart (h : Refilled w l m) :
    Follows w.Respells (Statement.readPart l) (Statement.readPart m) := by
  obtain ⟨a, b, hab, rfl, rfl⟩ := h.texts
  rw [Statement.readPart, Statement.readPart, read?_mask, read?_mask]
  exact .ok hab

theorem readTrimmed (h : Refilled w l m) :
    Follows w.Respells (Clause.readTrimmed l) (Clause.readTrimmed m) :=
  h.readPart.map fun _ _ hab => hab.trim w.isQuote_quote

theorem readTrimmed? {pieces pieces' : List (List Cell)}
    (h : List.Forall₂ (Refilled w) pieces pieces') :
    Option.Rel (List.Forall₂ w.Respells) (Split.readTrimmed? pieces)
      (Split.readTrimmed? pieces') := by
  induction h with
  | nil => exact .some .nil
  | cons hpiece _ ih =>
    obtain ⟨a, b, hab, rfl, rfl⟩ := hpiece.texts
    have hrest := ih
    simp only [Split.readTrimmed?, List.mapM_cons, read?_mask, Option.map_some] at hrest ⊢
    exact hrest.bind fun _ _ hrest => .some (.cons (hab.trim w.isQuote_quote) hrest)

end Masked.Refilled

theorem Follows.orTorn {α β : Type} {R : α → β → Prop} {x : Option α} {y : Option β}
    (h : Option.Rel R x y) : Follows R (Clause.orTorn x) (Clause.orTorn y) := by
  cases h with
  | some hab => exact .ok hab
  | none => exact .error _ _

namespace Respelled

variable {a b : List Char}

theorem atSeparator? (h : w.Respells a b) {separator : Char} (hseparator : separator ≠ '_') :
    Option.Rel (List.Forall₂ w.Respells) (Split.atSeparator? separator a)
      (Split.atSeparator? separator b) := by
  obtain ⟨hpiece, hpieces⟩ := h.refilled.piecesFrom hseparator 0
  have hread := Refilled.readTrimmed? (.cons hpiece hpieces)
  unfold Split.atSeparator?
  obtain ⟨as, bs, ha, hb, hab⟩ | ⟨ha, hb⟩ := hread.both_or_neither
  · simp only [ha, hb, Option.map_some]
    refine .some ?_
    -- Both are the one empty piece of a blank text, or neither is.
    have hblank : as = [[]] ↔ bs = [[]] := by
      cases hab with
      | nil => simp
      | @cons x y as bs hxy hrest =>
        have hempty := hxy.isEmpty_eq
        cases hrest <;> cases x <;> cases y <;> simp_all
    by_cases has : as = [[]]
    · rw [if_pos has, if_pos (hblank.mp has)]
      exact .nil
    · rw [if_neg has, if_neg fun hbs => has (hblank.mpr hbs)]
      exact hab
  · simp only [ha, hb, Option.map_none]
    exact .none

theorem atKeyword? (h : w.Respells a b) {c : Char} {keyword : List Char}
    (hword : Refilled.Plain Char.toUpper (c :: keyword)) :
    Option.Rel (List.Forall₂ w.Respells) (Split.atKeyword? (c :: keyword) a)
      (Split.atKeyword? (c :: keyword) b) := by
  obtain ⟨hpart, hparts⟩ := h.refilled.partsFrom hword false (.stay 0) (Nat.zero_le _)
  exact Refilled.readTrimmed? (.cons hpart hparts)

end Respelled

/-! ## Conditions -/

theorem Masked.Refilled.findOperator? {l m : List Cell} (h : Refilled w l m)
    (operators : List Operator) :
    Option.Rel (fun a b => a.1 = b.1 ∧ Refilled.Cut w a.2 b.2) (Clause.findOperator? l operators)
      (Clause.findOperator? m operators) := by
  induction operators with
  | nil => exact .none
  | cons op rest ih =>
    have hbreak : Option.Rel (Refilled.Cut w)
        (Masked.breakAt? (Clause.operatorLetter op) (Clause.operatorWord op) l)
        (Masked.breakAt? (Clause.operatorLetter op) (Clause.operatorWord op) m) := by
      cases op with
      | ge => exact h.breakAt? (c := '>') (by decide)
      | le => exact h.breakAt? (c := '<') (by decide)
      | ne => exact h.breakAt? (c := '!') (by decide)
      | eq => exact h.breakAt? (c := '=') (by decide)
      | gt => exact h.breakAt? (c := '>') (by decide)
      | lt => exact h.breakAt? (c := '<') (by decide)
      | like => exact h.breakAt? (c := ' ') (by decide)
    rw [Clause.findOperator?, Clause.findOperator?]
    obtain ⟨a, b, ha, hb, hab⟩ | ⟨ha, hb⟩ := hbreak.both_or_neither
    · rw [ha, hb]
      exact .some ⟨rfl, hab⟩
    · rw [ha, hb]
      exact ih

structure Condition.Alike (q : Char) (s t : List Char) (c d : Condition) : Prop where
  column : c.column = d.column
  operator : c.operator = d.operator
  literal : ∃ a b, Respelled q s t a b ∧
    c.literal = String.ofList (unquote a) ∧ d.literal = String.ofList (unquote b)

/-- The same tree of comparisons, which are alike one by one. -/
inductive Predicate.Alike (q : Char) (s t : List Char) : Predicate → Predicate → Prop
  | compare {c d : Condition} : c.Alike q s t d → Alike q s t (.compare c) (.compare d)
  | all {ps qs : List Predicate} : List.Forall₂ (Alike q s t) ps qs → Alike q s t (.all ps) (.all qs)
  | any {ps qs : List Predicate} : List.Forall₂ (Alike q s t) ps qs → Alike q s t (.any ps) (.any qs)

def Predicate.UnquotedColumns (p : Predicate) : Prop :=
  ∀ c ∈ p.conditions, Unquoted c.column.toList

/-- Two filters are alike, once it is known that no column of the first contains a quote. -/
abbrev Swap.FiltersAlike (w : Swap) (p p' : Predicate) : Prop :=
  p.UnquotedColumns → p.Alike w.quote w.old w.new p'

theorem Respelled.readCondition {a b : List Char} (h : w.Respells a b) :
    Follows (fun c d => Unquoted c.column.toList → c.Alike w.quote w.old w.new d)
      (Clause.readCondition a) (Clause.readCondition b) := by
  unfold Clause.readCondition
  dsimp only
  obtain ⟨⟨op, before, after⟩, ⟨op', before', after'⟩, ha, hb, hop, hcut⟩ | ⟨ha, hb⟩ :=
    ((h.trim w.isQuote_quote).refilled.findOperator? Operator.all).both_or_neither
  · obtain rfl : op = op' := hop
    rw [ha, hb]
    refine hcut.1.readTrimmed.bind fun column column' hcolumn => ?_
    refine hcut.2.readTrimmed.bind fun literal literal' hliteral => ?_
    refine .check hcolumn.isEmpty_eq _ _ fun _ => .check hliteral.isEmpty_eq _ _ fun _ => .ok ?_
    intro hunquoted
    rw [String.toList_ofList] at hunquoted
    obtain rfl := hcolumn.eq_of_unquoted w.isQuote_quote hunquoted
    exact ⟨rfl, rfl, literal, literal', hliteral, rfl, rfl⟩
  · rw [ha, hb]
    exact .error _ _

namespace Predicate

theorem conditions_join {combine : List Predicate → Predicate}
    (hcombine : ∀ parts, (combine parts).conditions = parts.flatMap conditions)
    (parts : List Predicate) :
    (Clause.join combine parts).conditions = parts.flatMap conditions := by
  unfold Clause.join
  split
  · simp
  · exact hcombine _

end Predicate

/-! ## WHERE clauses -/

/-- Parts that are alike stay so when they are joined: there is one part on both sides or on
neither. -/
theorem filtersAlike_join (combine : List Predicate → Predicate)
    (hcombine : ∀ parts, (combine parts).conditions = parts.flatMap Predicate.conditions)
    (halike : ∀ ps qs, List.Forall₂ (Predicate.Alike w.quote w.old w.new) ps qs →
      (combine ps).Alike w.quote w.old w.new (combine qs))
    {ps qs : List Predicate} (h : List.Forall₂ w.FiltersAlike ps qs) :
    w.FiltersAlike (Clause.join combine ps) (Clause.join combine qs) := by
  intro hcolumns
  have hpart : ∀ p ∈ ps, p.UnquotedColumns := by
    intro p hp c hc
    refine hcolumns c ?_
    rw [Predicate.conditions_join hcombine]
    exact List.mem_flatMap.mpr ⟨p, hp, hc⟩
  have hparts : List.Forall₂ (Predicate.Alike w.quote w.old w.new) ps qs := by
    clear hcolumns
    induction h with
    | nil => exact .nil
    | cons hpq _ ih =>
      rw [List.forall_mem_cons] at hpart
      exact .cons (hpq hpart.1) (ih hpart.2)
  cases hparts with
  | nil => exact halike _ _ .nil
  | cons hpq hrest =>
    cases hrest with
    | nil => exact hpq
    | cons hpq' hrest => exact halike _ _ (.cons hpq (.cons hpq' hrest))

namespace Respelled

variable {a b : List Char}

theorem readConjunction (h : w.Respells a b) :
    Follows w.FiltersAlike (Clause.readConjunction a) (Clause.readConjunction b) := by
  unfold Clause.readConjunction
  refine (Follows.orTorn (h.atKeyword? (by decide))).bind fun parts parts' hparts => ?_
  refine (Follows.mapM hparts fun _ _ hpart => hpart.readCondition).bind
    fun conditions conditions' hconditions => .ok ?_
  refine filtersAlike_join .all
    (fun parts => by rw [Predicate.conditions, Predicate.conditionsOfAll_eq])
    (fun _ _ hall => .all hall) ?_
  rw [List.forall₂_map_left_iff, List.forall₂_map_right_iff]
  refine hconditions.imp fun c d hcd hcolumns => .compare (hcd (hcolumns c ?_))
  simp [Predicate.conditions]

theorem readWhere (h : w.Respells a b) :
    Follows w.FiltersAlike (Clause.readWhere a) (Clause.readWhere b) := by
  have htrim := h.trim w.isQuote_quote
  unfold Clause.readWhere
  refine .check htrim.isEmpty_eq _ _ fun _ => ?_
  refine (Follows.orTorn (htrim.atKeyword? (by decide))).bind fun parts parts' hparts => ?_
  refine (Follows.mapM hparts fun _ _ hpart => hpart.readConjunction).bind
    fun alternatives alternatives' halternatives => .ok ?_
  exact filtersAlike_join .any
    (fun parts => by rw [Predicate.conditions, Predicate.conditionsOfAll_eq])
    (fun _ _ hany => .any hany) halternatives

end Respelled

end Rowfile
