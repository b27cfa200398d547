import Rowfile.Json.Printer
import Rowfile.Json.Reader
import Rowfile.Proofs.ShortestDigits

/-!
# Written numbers

An integer is written in digits behind an optional sign, and a finite number with a point or an
exponent. Both are read from the front of any text that does not go on with the number. What comes
of a finite number is for the reader to say: the exact one gives it back. An integer that needs more
than 64 bits is left to the reader too.
-/
namespace Rowfile

/-! ## Digits -/

theorem digits_ne_nil (n : Nat) : digits n ≠ [] := Nat.toDigits_ne_nil

theorem isAsciiDigit_of_mem_digits {n : Nat} {c : Char} (h : c ∈ digits n) :
    Text.isAsciiDigit c = true := by
  have hdigit := Nat.isDigit_of_mem_toDigits (by decide) (by decide) h
  simp only [Char.isDigit, Bool.and_eq_true, decide_eq_true_eq, ge_iff_le] at hdigit
  simp only [Text.isAsciiDigit, Bool.and_eq_true, decide_eq_true_eq]
  exact hdigit

/-- Only zero is written with a zero in front. -/
theorem head?_digits_ne {n : Nat} (h : n ≠ 0) : (digits n).head? ≠ some '0' := by
  induction n using Nat.strongRecOn with
  | _ n ih =>
    by_cases hn : n < 10
    · have hchar : ∀ k < 10, k ≠ 0 → Nat.digitChar k ≠ '0' := by decide
      simpa [digits, Nat.toDigits_of_lt_base hn] using hchar n hn h
    · have hq : 0 < n / 10 := by omega
      have happend := Nat.toDigits_append_toDigits (by decide : 1 < 10) hq
        (Nat.mod_lt n (by decide : 0 < 10))
      rw [Nat.div_add_mod] at happend
      have hhead : (digits n).head? = (digits (n / 10)).head? := by
        rw [digits, ← happend, List.head?_append_of_ne_nil _ Nat.toDigits_ne_nil]
        rfl
      rw [hhead]
      exact ih (n / 10) (by omega) (by omega)

theorem ofDigits_append_zeros (cs : List Char) (n : Nat) :
    ofDigits (cs ++ List.replicate n '0') = ofDigits cs * 10 ^ n := by
  rw [ofDigits, Nat.ofDigitChars_append, Nat.ofDigitChars_replicate_zero, Nat.mul_comm]
  rfl

theorem ofDigits_zeros_append (cs : List Char) (n : Nat) :
    ofDigits (List.replicate n '0' ++ cs) = ofDigits cs := by
  rw [ofDigits, Nat.ofDigitChars_append, Nat.ofDigitChars_replicate_zero, Nat.mul_zero]
  rfl

structure DigitRun (cs : List Char) : Prop where
  nonempty : cs ≠ []
  digit : ∀ c ∈ cs, Text.isAsciiDigit c = true

structure LeadingDigits (cs : List Char) : Prop extends DigitRun cs where
  first : cs.length = 1 ∨ cs.head? ≠ some '0'

theorem digitRun_digits (n : Nat) : DigitRun (digits n) :=
  ⟨digits_ne_nil n, fun _ => isAsciiDigit_of_mem_digits⟩

theorem leadingDigits_digits (n : Nat) : LeadingDigits (digits n) := by
  refine ⟨digitRun_digits n, ?_⟩
  by_cases h : n = 0
  · exact .inl (by simp [h, digits])
  · exact .inr (head?_digits_ne h)

theorem digitRun_append_zeros {cs : List Char} (h : DigitRun cs) (n : Nat) :
    DigitRun (cs ++ List.replicate n '0') := by
  refine ⟨by simp [h.nonempty], fun c hc => ?_⟩
  rcases List.mem_append.mp hc with hc | hc
  · exact h.digit c hc
  · rw [List.eq_of_mem_replicate hc]
    decide

namespace Decimal

theorem takeSign_of_digitRun {cs : List Char} (h : DigitRun cs) : takeSign cs = (false, cs) := by
  cases cs with
  | nil => rfl
  | cons c cs =>
    have hc := h.digit c List.mem_cons_self
    unfold takeSign
    split
    · simp_all [Text.isAsciiDigit]
    · simp_all [Text.isAsciiDigit]
    · rfl

theorem readInt?_signed (e : Int) :
    readInt? (if e < 0 then '-' :: digits e.natAbs else digits e.natAbs) = some e := by
  have hrun := digitRun_digits e.natAbs
  have hempty : (digits e.natAbs).isEmpty = false := by simpa using hrun.nonempty
  have hall : (digits e.natAbs).all Text.isAsciiDigit = true := List.all_eq_true.mpr hrun.digit
  by_cases h : e < 0
  · have hvalue : -(e.natAbs : Int) = e := by omega
    simp only [h, if_true, readInt?, takeSign, hempty, hall, ofDigits_digits, hvalue]
    rfl
  · have hvalue : (e.natAbs : Int) = e := by omega
    simp only [h, if_false, readInt?, takeSign_of_digitRun hrun, hempty, hall, ofDigits_digits,
      hvalue]
    rfl

/-! ## The digits around the point -/

/-- The digits before and after the point, at least one of each. -/
def pointParts (d : Decimal) : List Char × List Char :=
  match d.split with
  | (whole, []) => (whole, ['0'])
  | parts => parts

theorem pointed_eq (d : Decimal) : d.pointed = d.pointParts.1 ++ '.' :: d.pointParts.2 := by
  unfold pointed pointParts
  split <;> simp_all

/-- The point stands behind the zeros of a whole number, among the digits, or before them. -/
theorem pointParts_cases (c : Nat) (e : Int) :
    (0 ≤ e ∧ pointParts ⟨c, e⟩ = (digits c ++ List.replicate e.toNat '0', ['0'])) ∨
    (∃ n, 0 < n ∧ n < (digits c).length ∧ e = n - (digits c).length ∧
      pointParts ⟨c, e⟩ = ((digits c).take n, (digits c).drop n)) ∨
    (∃ n : Nat, e = -(n : Int) - (digits c).length ∧
      pointParts ⟨c, e⟩ = (['0'], List.replicate n '0' ++ digits c)) := by
  by_cases h : 0 ≤ e
  · exact .inl ⟨h, by simp only [pointParts, split, h, if_true]⟩
  · right
    by_cases hlen : (-e).toNat < (digits c).length
    · have hne : (digits c).drop ((digits c).length - (-e).toNat) ≠ [] := by
        rw [Ne, List.drop_eq_nil_iff]
        omega
      refine .inl ⟨(digits c).length - (-e).toNat, by omega, by omega, by omega, ?_⟩
      simp only [pointParts, split, h, if_false, hlen, if_true]
      split
      · next heq => exact absurd (Prod.mk.inj heq).2 hne
      · rfl
    · have hne : List.replicate ((-e).toNat - (digits c).length) '0' ++ digits c ≠ [] := by
        simp [digits_ne_nil]
      refine .inr ⟨(-e).toNat - (digits c).length, by omega, ?_⟩
      simp only [pointParts, split, h, if_false, hlen]
      split
      · next heq => exact absurd (Prod.mk.inj heq).2 hne
      · rfl

/-- The digits around the point write the same value as the decimal. -/
theorem toBinary64_pointParts (negative : Bool) (d : Decimal) :
    (Decimal.mk (ofDigits (d.pointParts.1 ++ d.pointParts.2))
      (-(d.pointParts.2.length : Int))).toBinary64 negative = d.toBinary64 negative := by
  obtain ⟨c, e⟩ := d
  rcases pointParts_cases c e with ⟨he, hparts⟩ | ⟨n, _, hn, he, hparts⟩ | ⟨n, he, hparts⟩
  · have hdigits : digits c ++ List.replicate e.toNat '0' ++ ['0'] =
        digits c ++ List.replicate (e.toNat + 1) '0' := by
      rw [List.append_assoc, List.replicate_succ']
    have hexponent : (-1 : Int) + ((e.toNat + 1 : Nat) : Int) = e := by omega
    simp only [hparts, hdigits, ofDigits_append_zeros, ofDigits_digits, List.length_singleton,
      Nat.cast_one, toBinary64_mul_pow, hexponent]
  · have hexponent : -(((digits c).length - n : Nat) : Int) = e := by omega
    simp only [hparts, List.take_append_drop, ofDigits_digits, List.length_drop, hexponent]
  · have hdigits : ['0'] ++ (List.replicate n '0' ++ digits c) =
        List.replicate (n + 1) '0' ++ digits c := by
      rw [List.replicate_succ]
      rfl
    have hexponent : -((n + (digits c).length : Nat) : Int) = e := by omega
    simp only [hparts, hdigits, ofDigits_zeros_append, ofDigits_digits, List.length_append,
      List.length_replicate, hexponent]

theorem leadingDigits_pointParts {d : Decimal} (h : d.coefficient ≠ 0 ∨ d.exponent = 0) :
    LeadingDigits d.pointParts.1 := by
  obtain ⟨c, e⟩ := d
  rcases pointParts_cases c e with ⟨he, hparts⟩ | ⟨n, hpos, hn, _, hparts⟩ | ⟨n, _, hparts⟩
  · rw [hparts]
    refine ⟨digitRun_append_zeros (digitRun_digits c) _, ?_⟩
    by_cases hc : c = 0
    · have hexponent : e = 0 := by simpa [hc] using h
      exact .inl (by simp [hc, hexponent, digits])
    · exact .inr (by simpa [List.head?_append_of_ne_nil _ (digits_ne_nil c)] using
        head?_digits_ne hc)
  · rw [hparts]
    refine ⟨⟨?_, fun a ha => isAsciiDigit_of_mem_digits (List.mem_of_mem_take ha)⟩, .inr ?_⟩
    · rw [Ne, List.take_eq_nil_iff]
      simp [digits_ne_nil]
      omega
    · have hc : c ≠ 0 := by
        rintro rfl
        simp [digits] at hn
        omega
      rw [List.head?_take, if_neg (by omega)]
      exact head?_digits_ne hc
  · rw [hparts]
    exact ⟨⟨by simp, by simp; decide⟩, .inl rfl⟩

theorem digitRun_pointParts (d : Decimal) : DigitRun d.pointParts.2 := by
  obtain ⟨c, e⟩ := d
  rcases pointParts_cases c e with ⟨he, hparts⟩ | ⟨n, hpos, hn, _, hparts⟩ | ⟨n, _, hparts⟩
  · rw [hparts]
    exact ⟨by simp, by simp; decide⟩
  · rw [hparts]
    refine ⟨?_, fun a ha => isAsciiDigit_of_mem_digits (List.mem_of_mem_drop ha)⟩
    rw [Ne, List.drop_eq_nil_iff]
    omega
  · rw [hparts]
    refine ⟨by simp [digits_ne_nil], fun a ha => ?_⟩
    rcases List.mem_append.mp ha with ha | ha
    · rw [List.eq_of_mem_replicate ha]
      decide
    · exact isAsciiDigit_of_mem_digits ha

/-! ## The fewest digits -/

/-- Only zero is written with no coefficient, and then without an exponent. -/
theorem coefficient_shortest (tie : Binary64.Tie) (place : Fin 0x7FF0000000000000) :
    (Binary64.shortest tie place.val).coefficient ≠ 0 ∨
      (Binary64.shortest tie place.val).exponent = 0 := by
  by_cases hplace : place.val = 0
  · right
    simp only [Binary64.shortest, hplace, if_true]
  · left
    intro hzero
    have hvalue := Binary64.toBinary64_shortest tie false place
    rw [toBinary64, Decimal.place, if_pos (.inl hzero), Binary64.atPlace,
      dif_pos (by decide)] at hvalue
    injection hvalue with _ hplaces
    exact hplace (congrArg Fin.val hplaces).symm

end Decimal

namespace Json

/-! ## Reading from the front of a text -/

def Ends (rest : List Char) : Prop :=
  ∀ c, rest.head? = some c → Text.isAsciiDigit c = false ∧ c ≠ '.' ∧ c ≠ 'e' ∧ c ≠ 'E'

theorem readDigits?_append {ds rest : List Char} (h : DigitRun ds)
    (hrest : ∀ c, rest.head? = some c → Text.isAsciiDigit c = false) :
    readDigits? (ds ++ rest) = some (ds, rest) := by
  have htake : rest.takeWhile Text.isAsciiDigit = [] := by
    cases rest with
    | nil => rfl
    | cons c rest => rw [List.takeWhile_cons, hrest c rfl, if_neg Bool.false_ne_true]
  have hdrop : rest.dropWhile Text.isAsciiDigit = rest := by
    cases rest with
    | nil => rfl
    | cons c rest => rw [List.dropWhile_cons, hrest c rfl, if_neg Bool.false_ne_true]
  have hempty : ds.isEmpty = false := by simpa using h.nonempty
  rw [readDigits?, List.takeWhile_append_of_pos h.digit, List.dropWhile_append_of_pos h.digit,
    htake, hdrop, List.append_nil, hempty]
  rfl

theorem readPart?_of_ends {rest : List Char} (h : Ends rest) :
    readPart? rest = some ([], rest) := by
  unfold readPart?
  split
  · exact absurd rfl (h '.' rfl).2.1
  · rfl

theorem readPower?_of_ends {rest : List Char} (h : Ends rest) :
    readPower? rest = some ([], rest) := by
  cases rest with
  | nil => rfl
  | cons c rest =>
    obtain ⟨_, _, he, hE⟩ := h c rfl
    simp [readPower?, he, hE]

theorem readPower?_signed (e : Int) {rest : List Char} (h : Ends rest) :
    readPower? ('e' :: (if e < 0 then '-' else '+') :: digits e.natAbs ++ rest) =
      some (if e < 0 then '-' :: digits e.natAbs else digits e.natAbs, rest) := by
  have hdigits := readDigits?_append (digitRun_digits e.natAbs) fun c hc => (h c hc).1
  by_cases he : e < 0 <;> simp [readPower?, he, hdigits]

variable [FloatReader]

/-- A number is read in three parts, of which the last two may be missing. -/
theorem readNumber?_append {whole tail' part exponent rest : List Char} (negative : Bool)
    (tail : List Char) (h : LeadingDigits whole)
    (htail : ∀ c, tail.head? = some c → Text.isAsciiDigit c = false)
    (hpart : readPart? tail = some (part, tail'))
    (hpower : readPower? tail' = some (exponent, rest)) :
    readNumber? (Binary64.signText negative ++ whole ++ tail) =
      some (ofNumber negative whole part exponent, rest) := by
  have hdigits := readDigits?_append h.toDigitRun htail
  have hzero : ¬(whole.length ≠ 1 ∧ whole.head? = some '0') := fun hz =>
    h.first.elim hz.1 fun hne => hne hz.2
  cases negative with
  | true =>
    simp only [Binary64.signText, if_true, List.cons_append, List.nil_append, readNumber?]
    simp [hdigits, hzero, hpart, hpower]
  | false =>
    have hsign : ∀ r, whole ++ tail ≠ '-' :: r := by
      intro r heq
      cases whole with
      | nil => exact h.nonempty rfl
      | cons c whole =>
        obtain rfl := (List.cons.inj heq).1
        exact absurd (h.digit '-' List.mem_cons_self) (by decide)
    simp only [Binary64.signText, Bool.false_eq_true, if_false, List.nil_append, readNumber?]
    simp [hdigits, hzero, hpart, hpower]

theorem readNumber?_intText (n : Int) {rest : List Char} (h : Ends rest) :
    readNumber? (intText n ++ rest) =
      some (ofNumber (decide (n < 0)) (digits n.natAbs) [] [], rest) := by
  have htext : intText n = Binary64.signText (decide (n < 0)) ++ digits n.natAbs := by
    by_cases hn : n < 0 <;> simp [intText, Binary64.signText, hn]
  rw [htext]
  exact readNumber?_append _ _ (leadingDigits_digits _) (fun c hc => (h c hc).1)
    (readPart?_of_ends h) (readPower?_of_ends h)

/-- Digits with a point or an exponent are left to the reader. -/
theorem ofNumber_of_fraction {part exponent : List Char} (h : part ≠ [] ∨ exponent ≠ [])
    (negative : Bool) (whole : List Char) : ofNumber negative whole part exponent =
      ofPlace? negative (FloatReader.place? whole part ((Decimal.readInt? exponent).getD 0)) := by
  have hempty : (part.isEmpty && exponent.isEmpty) = false := by
    rcases h with h | h <;> simp [h]
  simp only [ofNumber, hempty, Bool.false_and, Bool.false_eq_true, if_false]

theorem readNumber?_pointed {d : Decimal} {rest : List Char} (negative : Bool)
    (hd : d.coefficient ≠ 0 ∨ d.exponent = 0) (h : Ends rest) :
    readNumber? (Binary64.signText negative ++ d.pointed ++ rest) =
      some (ofPlace? negative (FloatReader.place? d.pointParts.1 d.pointParts.2 0), rest) := by
  have hpart := d.digitRun_pointParts
  have hread := readNumber?_append negative ('.' :: d.pointParts.2 ++ rest)
    (Decimal.leadingDigits_pointParts hd) (by simp; decide)
    (readDigits?_append hpart fun c hc => (h c hc).1) (readPower?_of_ends h)
  rw [ofNumber_of_fraction (.inl hpart.nonempty)] at hread
  simpa [Decimal.pointed_eq, Decimal.readInt?, Decimal.takeSign] using hread

theorem readNumber?_scientific {rest : List Char} (negative : Bool) (d : Decimal) (h : Ends rest) :
    readNumber? (Binary64.signText negative ++ d.scientific ++ rest) =
      some (ofPlace? negative (FloatReader.place? ((digits d.coefficient).take 1)
        ((digits d.coefficient).drop 1) d.order), rest) := by
  obtain ⟨c, cs, hcs⟩ := List.exists_cons_of_ne_nil (digits_ne_nil d.coefficient)
  have hrun := digitRun_digits d.coefficient
  rw [hcs] at hrun
  have hfirst : LeadingDigits [c] :=
    ⟨⟨by simp, by simpa using hrun.digit c List.mem_cons_self⟩, .inl rfl⟩
  have hpower := readPower?_signed d.order h
  have hfraction : (if d.order < 0 then '-' :: digits d.order.natAbs
      else digits d.order.natAbs) ≠ [] := by
    split
    · simp
    · exact digits_ne_nil _
  have hnumber := @ofNumber_of_fraction _ cs _ (.inr hfraction) negative [c]
  rw [Decimal.readInt?_signed, Option.getD_some] at hnumber
  cases cs with
  | nil =>
    have hread := readNumber?_append negative ('e' :: (if d.order < 0 then '-' else '+') ::
      digits d.order.natAbs ++ rest) hfirst (by simp; decide) rfl hpower
    rw [hnumber] at hread
    simpa [Decimal.scientific, hcs] using hread
  | cons c' cs =>
    have hpart : DigitRun (c' :: cs) :=
      ⟨by simp, fun a ha => hrun.digit a (List.mem_cons_of_mem _ ha)⟩
    have hread := readNumber?_append negative ('.' :: (c' :: cs) ++ ('e' ::
      (if d.order < 0 then '-' else '+') :: digits d.order.natAbs ++ rest)) hfirst
      (by simp; decide) (readDigits?_append hpart (by simp; decide)) hpower
    rw [hnumber] at hread
    simpa [Decimal.scientific, hcs] using hread

end Json

/-! ## Numbers that are read back -/

namespace Binary64

/-- The digits around the point and the exponent by which a finite magnitude is written. -/
def written (place : Nat) : List Char × List Char × Int :=
  let d := shortest .even place
  if -5 ≤ d.order ∧ d.order ≤ 15 then (d.pointParts.1, d.pointParts.2, 0)
  else ((digits d.coefficient).take 1, (digits d.coefficient).drop 1, d.order)

/-- What the reader makes of a written magnitude. -/
def reread? [FloatReader] (place : Fin 0x7FF0000000000000) : Option (Fin 0x7FF0000000000000) :=
  FloatReader.place? (written place.val).1 (written place.val).2.1 (written place.val).2.2

end Binary64

theorem Json.readNumber?_jsonText [FloatReader] (negative : Bool) (place : Fin 0x7FF0000000000000)
    {rest : List Char} (h : Ends rest) :
    readNumber? (Binary64.jsonText negative place.val ++ rest) =
      some (ofPlace? negative (Binary64.reread? place), rest) := by
  unfold Binary64.jsonText Binary64.reread? Binary64.written
  dsimp only
  split
  · exact readNumber?_pointed negative (Decimal.coefficient_shortest .even place) h
  · exact readNumber?_scientific negative _ h

theorem FloatReader.finite?_place {d : Decimal} {place : Fin 0x7FF0000000000000}
    (h : d.toBinary64 false = .finite false place) : finite? d.place = some place := by
  unfold Decimal.toBinary64 Binary64.atPlace at h
  split at h
  · next hlt =>
    injection h with _ hplace
    rw [finite?, dif_pos hlt, hplace]
  · cases h

/-- The exact reader finds every finite magnitude again. -/
theorem Binary64.reread?_exact (place : Fin 0x7FF0000000000000) :
    @reread? FloatReader.exact place = some place := by
  have hvalue := toBinary64_shortest .even false place
  unfold reread? written FloatReader.exact
  dsimp only
  split
  · refine FloatReader.finite?_place ?_
    rw [Int.zero_sub, Decimal.toBinary64_pointParts, hvalue]
  · -- The digits after the first one count the exponent down to the one of the decimal.
    have hlength := List.length_pos_of_ne_nil (digits_ne_nil (shortest .even place.val).coefficient)
    have horder : (shortest .even place.val).order -
        ((digits (shortest .even place.val).coefficient).drop 1).length =
          (shortest .even place.val).exponent := by
      rw [Decimal.order, List.length_drop]
      omega
    refine FloatReader.finite?_place ?_
    rw [List.take_append_drop, ofDigits_digits, horder, hvalue]

end Rowfile
