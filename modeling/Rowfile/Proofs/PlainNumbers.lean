import Rowfile.Proofs.Numerals
import Rowfile.Proofs.SolidWords
import Mathlib.Data.List.TakeWhile

/-!
# Numbers as plain text

A finite number is shown with a point and no exponent: a whole number with all its digits and one
zero behind the point, any other with the fewest digits that read back. The fewest digits of a number
with a fraction always reach behind the point, because a whole number is rounded to a whole number. So
what is shown of a finite number is digits, a point and digits, and it reads back to that number.
-/
namespace Rowfile

namespace Binary64

/-! ## Whole numbers are rounded to whole numbers -/

theorem units_binade {shift m : Nat} (hlow : placesPerBinade ≤ m) (hhigh : m < 2 * placesPerBinade) :
    units (shift * placesPerBinade + m) = m * 2 ^ shift := by
  have hpos : 0 < placesPerBinade := by decide
  have hplace : shift * placesPerBinade + m =
      (m - placesPerBinade) + placesPerBinade * (shift + 1) := by
    rw [Nat.mul_succ, Nat.mul_comm placesPerBinade]
    omega
  have hrest : m - placesPerBinade < placesPerBinade := by omega
  have hquot : (shift * placesPerBinade + m) / placesPerBinade = shift + 1 := by
    rw [hplace, Nat.add_mul_div_left _ _ hpos, Nat.div_eq_of_lt hrest, Nat.zero_add]
  have hmod : (shift * placesPerBinade + m) % placesPerBinade = m - placesPerBinade := by
    rw [hplace, Nat.add_mul_mod_self_left, Nat.mod_eq_of_lt hrest]
  have hge : ¬ shift * placesPerBinade + m < placesPerBinade := by omega
  rw [units, if_neg hge, hquot, hmod, Nat.shiftLeft_eq, Nat.add_sub_cancel,
    Nat.add_sub_cancel' hlow]

/-- Far enough up, every magnitude is whole. -/
theorem unitsPerOne_dvd_units {place : Nat} (h : 1075 * placesPerBinade ≤ place) :
    unitsPerOne ∣ units place := by
  have hpos : 0 < placesPerBinade := by decide
  have hge : ¬ place < placesPerBinade := by omega
  have hquot : 1075 ≤ place / placesPerBinade := (Nat.le_div_iff_mul_le hpos).mpr h
  obtain ⟨k, hk, hunits⟩ := unitsPerOne_eq
  rw [units, if_neg hge, Nat.shiftLeft_eq, hunits]
  exact Dvd.dvd.mul_left (Nat.pow_dvd_pow 2 (by omega)) _

/-- A number of 53 bits at most stands at a place of its own. -/
theorem exists_units_eq {n : Nat} (h : n < 2 ^ 53) : ∃ place, units place = n * unitsPerOne := by
  rcases Nat.eq_zero_or_pos n with rfl | hpos
  · exact ⟨0, by simp⟩
  · obtain ⟨k, hk, hunits⟩ := unitsPerOne_eq
    have hne : n ≠ 0 := Nat.ne_of_gt hpos
    have hlog : n.log2 < 53 := (Nat.log2_lt hne).mpr h
    have hlow := Nat.log2_self_le hne
    have hhigh := Nat.lt_log2_self (n := n)
    have hsplit : 2 ^ n.log2 * 2 ^ (52 - n.log2) = placesPerBinade := by
      rw [← Nat.pow_add, placesPerBinade_eq, Nat.add_sub_cancel' (by omega)]
    have hm : placesPerBinade ≤ n * 2 ^ (52 - n.log2) :=
      hsplit ▸ Nat.mul_le_mul_right _ hlow
    have hm' : n * 2 ^ (52 - n.log2) < 2 * placesPerBinade := by
      rw [← hsplit, ← Nat.mul_assoc, ← Nat.pow_succ']
      exact Nat.mul_lt_mul_of_pos_right hhigh (Nat.two_pow_pos _)
    refine ⟨(n.log2 + k - 52) * placesPerBinade + n * 2 ^ (52 - n.log2), ?_⟩
    have hexponent : 52 - n.log2 + (n.log2 + k - 52) = k := by omega
    rw [units_binade hm hm', hunits, Nat.mul_assoc, ← Nat.pow_add, hexponent]

theorem unitsPerOne_dvd_units_nearestPlace (n : Nat) : unitsPerOne ∣ units (nearestPlace n 1) := by
  by_cases hn : n < 2 ^ 53
  · obtain ⟨place, hplace⟩ := exists_units_eq hn
    have hsame : nearestPlace n 1 = place := by
      rw [← nearestPlace_mul n 1 unitsPerOne_pos, ← hplace, Nat.one_mul, nearestPlace_units]
    rw [hsame, hplace]
    exact Nat.dvd_mul_left _ _
  · refine unitsPerOne_dvd_units ?_
    have hlog : 1127 ≤ (n * unitsPerOne).log2 := by
      obtain ⟨k, hk, hunits⟩ := unitsPerOne_eq
      have hpow : 2 ^ (53 + k) ≤ n * unitsPerOne := by
        rw [Nat.pow_add, hunits]
        exact Nat.mul_le_mul_right _ (by omega)
      have hne : n * unitsPerOne ≠ 0 :=
        Nat.ne_of_gt (Nat.lt_of_lt_of_le (Nat.two_pow_pos _) hpow)
      have := (Nat.le_log2 hne).mpr hpow
      omega
    rw [nearestPlace, Nat.div_one]
    exact Nat.le_trans (Nat.mul_le_mul_right _ (by omega)) (Nat.le_add_right _ _)

/-- The fewest digits of a number with a fraction reach behind the point. -/
theorem exponent_shortest_neg (tie : Tie) {place : Fin 0x7FF0000000000000}
    (h : units place.val % unitsPerOne ≠ 0) : (shortest tie place.val).exponent < 0 := by
  by_contra hnonneg
  have hvalue := toBinary64_shortest tie false place
  have hden : (shortest tie place.val).denominator = 1 := by
    rw [Decimal.denominator, show (-(shortest tie place.val).exponent).toNat = 0 by omega,
      Nat.pow_zero]
  rw [Decimal.toBinary64_eq_ofQuotient, hden, ofQuotient, atPlace] at hvalue
  split at hvalue
  · next hlt =>
    injection hvalue with _ hplace
    have hwhole := unitsPerOne_dvd_units_nearestPlace (shortest tie place.val).numerator
    rw [show nearestPlace (shortest tie place.val).numerator 1 = place.val from
      congrArg Fin.val hplace] at hwhole
    exact h (Nat.mod_eq_zero_of_dvd hwhole)
  · exact Binary64.noConfusion hvalue

end Binary64

namespace Decimal

/-- A decimal with digits behind the point is written with a point, needed or not. -/
theorem positional_eq {d : Decimal} (h : d.exponent < 0) :
    d.positional = d.pointParts.1 ++ '.' :: d.pointParts.2 := by
  have hpart : d.split.2 ≠ [] := by
    unfold split
    dsimp only
    rw [if_neg (by omega)]
    split
    · next hlength =>
      rw [Ne, List.drop_eq_nil_iff]
      omega
    · simp [digits_ne_nil]
  unfold positional pointParts
  split
  · next hsplit => exact absurd (congrArg Prod.snd hsplit) hpart
  · split
    · next hsplit => exact absurd (congrArg Prod.snd hsplit) hpart
    · next hsplit _ _ => rw [hsplit]

end Decimal

namespace Binary64

/-- What is shown of a finite number is digits, a point and digits, and they write that number. -/
theorem exists_fractionText (negative : Bool) (place : Fin 0x7FF0000000000000) :
    ∃ whole part, DigitRun whole ∧ DigitRun part ∧
      fractionText (.finite negative place) = signText negative ++ (whole ++ '.' :: part) ∧
      (Decimal.mk (ofDigits (whole ++ part)) (-(part.length : Int))).toBinary64 negative =
        .finite negative place := by
  by_cases hwhole : units place.val % unitsPerOne = 0
  · refine ⟨digits (units place.val / unitsPerOne), ['0'], digitRun_digits _,
      ⟨by simp, by simp; decide⟩, ?_, ?_⟩
    · simp only [fractionText, hwhole, if_true]
    · have hdigits := ofDigits_append_zeros (digits (units place.val / unitsPerOne)) 1
      have hone := Decimal.toBinary64_mul_pow negative (units place.val / unitsPerOne) 1 (-1)
      rw [ofDigits_digits] at hdigits
      rw [List.length_singleton, Nat.cast_one, ← List.replicate_one, hdigits, hone,
        Decimal.toBinary64_eq_ofQuotient]
      have hnum : Decimal.numerator ⟨units place.val / unitsPerOne, -1 + (1 : Nat)⟩ =
          units place.val / unitsPerOne := Nat.mul_one _
      have hden : Decimal.denominator ⟨units place.val / unitsPerOne, -1 + (1 : Nat)⟩ = 1 := rfl
      have hunits : units place.val / unitsPerOne * unitsPerOne = units place.val :=
        Nat.div_mul_cancel (Nat.dvd_of_mod_eq_zero hwhole)
      rw [hnum, hden, ofQuotient, ← nearestPlace_mul _ _ unitsPerOne_pos, hunits, Nat.one_mul,
        nearestPlace_units]
      exact dif_pos place.isLt
  · have hexponent := exponent_shortest_neg .up hwhole
    refine ⟨(shortest .up place.val).pointParts.1, (shortest .up place.val).pointParts.2,
      (Decimal.leadingDigits_pointParts
      (Decimal.coefficient_shortest .up place)).toDigitRun, Decimal.digitRun_pointParts _, ?_, ?_⟩
    · simp only [fractionText, hwhole, if_false, Decimal.positional_eq hexponent]
    · rw [Decimal.toBinary64_pointParts, toBinary64_shortest]

end Binary64

/-! ## Reading what is shown -/

theorem asciiCaseEq_of_head {c d : Char} (h : c.toUpper ≠ d.toUpper) (cs ds : List Char) :
    Text.asciiCaseEq (c :: cs) (d :: ds) = false := by
  simp [Text.asciiCaseEq, h]

theorem isSolid_of_isAsciiDigit {c : Char} (hc : Text.isAsciiDigit c = true) :
    isSolid c = true := by
  simp only [Text.isAsciiDigit, Bool.and_eq_true, decide_eq_true_eq] at hc
  have hdigit : c.isDigit = true := by
    simp only [Char.isDigit, Bool.and_eq_true, decide_eq_true_eq, ge_iff_le]
    exact hc
  simp [isSolid, Char.isAlphanum, hdigit]

/-- No sign and no word begins with a digit. -/
theorem first_of_isAsciiDigit {c : Char} (hc : Text.isAsciiDigit c = true) :
    c ≠ '-' ∧ c ≠ '+' ∧ c.toUpper ≠ 'I' ∧ c.toUpper ≠ 'N' ∧ c.toUpper ≠ 'T' ∧ c.toUpper ≠ 'F' := by
  have hsolid := forall_of_isSolid
    (p := fun c => !Text.isAsciiDigit c || (c != '-' && c != '+' && c.toUpper != 'I' &&
      c.toUpper != 'N' && c.toUpper != 'T' && c.toUpper != 'F')) (by decide +kernel)
    (isSolid_of_isAsciiDigit hc)
  simpa [hc, and_assoc] using hsolid

theorem Decimal.read?_point {whole part : List Char} (hwhole : DigitRun whole)
    (hpart : DigitRun part) :
    read? (whole ++ '.' :: part) = some ⟨ofDigits (whole ++ part), -(part.length : Int)⟩ := by
  have hpoint : Text.isAsciiDigit '.' = false := by decide
  have htake : (whole ++ '.' :: part).takeWhile Text.isAsciiDigit = whole := by
    rw [List.takeWhile_append_of_pos hwhole.digit, List.takeWhile_cons, hpoint]
    simp
  have hdrop : (whole ++ '.' :: part).dropWhile Text.isAsciiDigit = '.' :: part := by
    rw [List.dropWhile_append_of_pos hwhole.digit, List.dropWhile_cons, hpoint]
    rfl
  have htake' : part.takeWhile Text.isAsciiDigit = part := List.takeWhile_eq_self_iff.mpr hpart.digit
  have hdrop' : part.dropWhile Text.isAsciiDigit = [] := List.dropWhile_eq_nil_iff.mpr hpart.digit
  have hempty : whole.isEmpty = false := by simpa using hwhole.nonempty
  simp [Decimal.read?, htake, hdrop, htake', hdrop', hempty, readExponent?]

/-- Digits, a point and digits behind an optional sign read back as the number nearest to the
decimal. -/
theorem Binary64.read?_signed (negative : Bool) {whole part : List Char} (hwhole : DigitRun whole)
    (hpart : DigitRun part) :
    Binary64.read? (signText negative ++ (whole ++ '.' :: part)) =
      some ((Decimal.mk (ofDigits (whole ++ part)) (-(part.length : Int))).toBinary64 negative) := by
  have hread := Decimal.read?_point hwhole hpart
  cases whole with
  | nil => exact absurd rfl hwhole.nonempty
  | cons c whole =>
    obtain ⟨hminus, hplus, hi, hn, -⟩ := first_of_isAsciiDigit (hwhole.digit c List.mem_cons_self)
    have hsign : Decimal.takeSign (signText negative ++ (c :: whole ++ '.' :: part)) =
        (negative, c :: whole ++ '.' :: part) := by
      cases negative with
      | true => rfl
      | false =>
        rw [signText, if_neg Bool.false_ne_true, List.nil_append, List.cons_append]
        unfold Decimal.takeSign
        split <;> simp_all
    have hinf : Text.asciiCaseEq (c :: whole ++ '.' :: part) "inf".toList = false :=
      asciiCaseEq_of_head hi _ _
    have hinfinity : Text.asciiCaseEq (c :: whole ++ '.' :: part) "infinity".toList = false :=
      asciiCaseEq_of_head hi _ _
    have hnan : Text.asciiCaseEq (c :: whole ++ '.' :: part) "nan".toList = false :=
      asciiCaseEq_of_head hn _ _
    simp only [Binary64.read?, hsign, hinf, hinfinity, hnan, hread, Bool.or_self,
      Bool.false_eq_true, if_false, Option.map_some]

end Rowfile
