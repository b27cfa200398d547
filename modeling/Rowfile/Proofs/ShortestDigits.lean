import Rowfile.Binary64.Shortest
import Mathlib.Tactic.Ring
import Mathlib.Tactic.Positivity

/-!
# Rounding and shortest digits

Rounding a quotient depends on the quotient alone, and a magnitude that is exact comes back at its
own place. So a decimal may be written with more or fewer zeros, and the digits chosen for a finite
number read back to that number, whichever way ties go. Nothing is said here of the number of digits.
-/
namespace Rowfile

namespace Binary64

/-- The exponent is kept apart from the power, which is far too long to be written out. -/
theorem unitsPerOne_eq : ∃ k, k = 1074 ∧ unitsPerOne = 2 ^ k := ⟨1074, rfl, by
  have h : ∀ n, 1 <<< n = 2 ^ n := Nat.one_shiftLeft
  unfold unitsPerOne
  apply h⟩

theorem unitsPerOne_pos : 0 < unitsPerOne := by simp [unitsPerOne]

theorem placesPerBinade_eq : placesPerBinade = 2 ^ 52 := by decide

/-! ## Rounding a quotient -/

theorem roundHalfEven_mul (num den : Nat) {k : Nat} (hk : 0 < k) :
    roundHalfEven (num * k) (den * k) = roundHalfEven num den := by
  have hlt : 2 * (num % den * k) < den * k ↔ 2 * (num % den) < den := by
    rw [← Nat.mul_assoc, Nat.mul_lt_mul_right hk]
  have heq : 2 * (num % den * k) = den * k ↔ 2 * (num % den) = den := by
    rw [← Nat.mul_assoc, Nat.mul_left_inj (Nat.ne_of_gt hk)]
  simp only [roundHalfEven, Nat.mul_div_mul_right _ _ hk, Nat.mul_mod_mul_right, Bool.or_eq_true,
    Bool.and_eq_true, decide_eq_true_eq, beq_iff_eq, hlt, heq]

theorem roundHalfEven_exact (q : Nat) {den : Nat} (hden : 0 < den) :
    roundHalfEven (q * den) den = q := by
  simp [roundHalfEven, Nat.mul_div_cancel _ hden, hden]

/-- The nearest place depends on the quotient alone. -/
theorem nearestPlace_mul (num den : Nat) {k : Nat} (hk : 0 < k) :
    nearestPlace (num * k) (den * k) = nearestPlace num den := by
  have hscaled : num * k * unitsPerOne = num * unitsPerOne * k := Nat.mul_right_comm ..
  have hshifted (shift : Nat) : (den * k) <<< shift = den <<< shift * k := by
    rw [Nat.shiftLeft_eq, Nat.shiftLeft_eq, Nat.mul_right_comm]
  simp only [nearestPlace, hscaled, Nat.mul_div_mul_right _ _ hk, hshifted,
    roundHalfEven_mul _ _ hk]

theorem nearestPlace_congr {num den num' den' : Nat} (hden : 0 < den) (hden' : 0 < den')
    (h : num * den' = num' * den) : nearestPlace num den = nearestPlace num' den' := by
  rw [← nearestPlace_mul num den hden', h, Nat.mul_comm den, nearestPlace_mul num' den' hden]

/-- Every magnitude is a number of 53 bits at most, moved to the left. -/
theorem units_eq (place : Nat) :
    ∃ m shift, units place = m * 2 ^ shift ∧ place = shift * placesPerBinade + m ∧
      (units place).log2 - 52 = shift := by
  by_cases h : place < placesPerBinade
  · have hlog : place.log2 ≤ 52 := by
      rcases Nat.eq_zero_or_pos place with rfl | hpos
      · exact Nat.zero_le _
      · exact Nat.le_of_lt ((Nat.log2_lt (Nat.ne_of_gt hpos)).mpr (placesPerBinade_eq ▸ h))
    exact ⟨place, 0, by simp [units, h], by simp, by simp only [units, h, if_true]; omega⟩
  · have hpos : 0 < placesPerBinade := by decide
    have hquot : 1 ≤ place / placesPerBinade := (Nat.le_div_iff_mul_le hpos).mpr (by omega)
    have hmod := Nat.mod_lt place hpos
    have hsplit := Nat.div_add_mod' place placesPerBinade
    obtain ⟨shift, hshift⟩ := Nat.exists_eq_add_of_le' hquot
    have hunits : units place = (placesPerBinade + place % placesPerBinade) * 2 ^ shift := by
      rw [units, if_neg h, Nat.shiftLeft_eq, hshift, Nat.add_sub_cancel]
    refine ⟨placesPerBinade + place % placesPerBinade, shift, hunits, ?_, ?_⟩
    · rw [hshift, Nat.add_mul] at hsplit
      omega
    · have hlow : 2 ^ (52 + shift) ≤ units place := by
        rw [hunits, Nat.pow_add, ← placesPerBinade_eq]
        exact Nat.mul_le_mul_right _ (Nat.le_add_right _ _)
      have hhigh : units place < 2 ^ (52 + shift + 1) := by
        have hfits : placesPerBinade + place % placesPerBinade < 2 ^ 53 := by
          rw [placesPerBinade_eq] at hmod ⊢
          omega
        calc units place < 2 ^ 53 * 2 ^ shift :=
              hunits ▸ Nat.mul_lt_mul_of_pos_right hfits (Nat.two_pow_pos _)
          _ = 2 ^ (52 + shift + 1) := by rw [← Nat.pow_add]; congr 1; omega
      have hne : units place ≠ 0 := Nat.ne_of_gt (Nat.lt_of_lt_of_le (Nat.two_pow_pos _) hlow)
      rw [(Nat.log2_eq_iff hne).mpr ⟨hlow, hhigh⟩]
      omega

theorem nearestPlace_units (place : Nat) :
    nearestPlace (units place) unitsPerOne = place := by
  obtain ⟨m, shift, hunits, hplace, hshift⟩ := units_eq place
  have hden : unitsPerOne <<< shift = 2 ^ shift * unitsPerOne := by
    rw [Nat.shiftLeft_eq, Nat.mul_comm]
  rw [nearestPlace, Nat.mul_div_cancel _ unitsPerOne_pos, hshift, hden,
    roundHalfEven_mul _ _ unitsPerOne_pos, hunits, roundHalfEven_exact _ (Nat.two_pow_pos _)]
  exact hplace.symm

/-- A quotient below half of the smallest magnitude rounds to zero. -/
theorem nearestPlace_of_small {num den : Nat} (h : 2 * (num * unitsPerOne) < den) :
    nearestPlace num den = 0 := by
  have hq : num * unitsPerOne / den = 0 := Nat.div_eq_of_lt (by omega)
  have hr : num * unitsPerOne % den = num * unitsPerOne := Nat.mod_eq_of_lt (by omega)
  simp [nearestPlace, hq, hr, roundHalfEven, h]

/-- A number from 2 ^ 1100 on lies past the last place. -/
theorem places_le_nearestPlace {num n : Nat} (hn : 1100 ≤ n) (h : 2 ^ n ≤ num) :
    places ≤ nearestPlace num 1 := by
  have hlog : 2174 ≤ (num * unitsPerOne).log2 := by
    obtain ⟨k, hk, hunits⟩ := unitsPerOne_eq
    have hpow : 2 ^ (n + k) ≤ num * unitsPerOne := by
      rw [Nat.pow_add, hunits]
      exact Nat.mul_le_mul_right _ h
    have hne : num * unitsPerOne ≠ 0 :=
      Nat.ne_of_gt (Nat.lt_of_lt_of_le (Nat.two_pow_pos _) hpow)
    have := (Nat.le_log2 hne).mpr hpow
    omega
  have hplaces : places ≤ 2122 * placesPerBinade := by decide
  have hshift : 2122 * placesPerBinade ≤ ((num * unitsPerOne).log2 - 52) * placesPerBinade :=
    Nat.mul_le_mul_right _ (by omega)
  rw [nearestPlace, Nat.div_one]
  omega

end Binary64

namespace Decimal

/-! ## The value of a decimal -/

/-- The upper part of a decimal as a quotient. -/
def numerator (d : Decimal) : Nat := d.coefficient * 10 ^ d.exponent.toNat

def denominator (d : Decimal) : Nat := 10 ^ (-d.exponent).toNat

theorem denominator_pos (d : Decimal) : 0 < d.denominator := Nat.pow_pos (by decide)

/-- A decimal with so small an exponent is below half of the smallest magnitude. -/
theorem numerator_small {d : Decimal}
    (h : d.coefficient = 0 ∨ d.coefficient.log2 + 3 * d.exponent < -1100) :
    2 * (d.numerator * Binary64.unitsPerOne) < d.denominator := by
  rcases h with hzero | hlog
  · simpa [numerator, hzero] using d.denominator_pos
  · have hexponent : d.exponent.toNat = 0 := by omega
    have hlt := Nat.lt_log2_self (n := d.coefficient)
    obtain ⟨k, hk, hunits⟩ := Binary64.unitsPerOne_eq
    have hpow : 2 * (2 ^ (d.coefficient.log2 + 1) * 2 ^ k) ≤ 2 ^ (3 * (-d.exponent).toNat) := by
      rw [← Nat.pow_add, ← Nat.pow_succ']
      exact Nat.pow_le_pow_right (by decide) (by omega)
    calc 2 * (d.numerator * Binary64.unitsPerOne)
        = 2 * (d.coefficient * 2 ^ k) := by
          rw [numerator, hexponent, Nat.pow_zero, Nat.mul_one, hunits]
      _ < 2 * (2 ^ (d.coefficient.log2 + 1) * 2 ^ k) :=
          Nat.mul_lt_mul_of_pos_left
            (Nat.mul_lt_mul_of_pos_right hlt (Nat.two_pow_pos _)) (by decide)
      _ ≤ 2 ^ (3 * (-d.exponent).toNat) := hpow
      _ = 8 ^ (-d.exponent).toNat := Nat.pow_mul 2 3 _
      _ ≤ d.denominator := Nat.pow_le_pow_left (by decide) _

theorem two_pow_le_numerator {d : Decimal} (h : d.coefficient ≠ 0) :
    2 ^ (3 * d.exponent.toNat) ≤ d.numerator :=
  calc 2 ^ (3 * d.exponent.toNat) = 8 ^ d.exponent.toNat := Nat.pow_mul 2 3 _
    _ ≤ 10 ^ d.exponent.toNat := Nat.pow_le_pow_left (by decide) _
    _ ≤ d.numerator := Nat.le_mul_of_pos_left _ (Nat.one_le_iff_ne_zero.mpr h)

/-- The two shortcuts in rounding a decimal agree with rounding its quotient. -/
theorem toBinary64_eq_ofQuotient (negative : Bool) (d : Decimal) :
    d.toBinary64 negative = Binary64.ofQuotient negative d.numerator d.denominator := by
  unfold toBinary64 Binary64.ofQuotient place
  split
  · next hsmall => rw [Binary64.nearestPlace_of_small (numerator_small hsmall)]
  · next hlarge =>
    split
    · next hexponent =>
      have hden : d.denominator = 1 := by
        rw [denominator, show (-d.exponent).toNat = 0 by omega, Nat.pow_zero]
      have hplaces := Binary64.places_le_nearestPlace (by omega)
        (two_pow_le_numerator (not_or.mp hlarge).1)
      rw [hden, Binary64.atPlace, Binary64.atPlace, dif_neg (Nat.lt_irrefl _), dif_neg (by omega)]
    · split
      · next hexponent =>
        rw [numerator, denominator, show (-d.exponent).toNat = 0 by omega, Nat.pow_zero]
        rfl
      · next hexponent =>
        rw [numerator, denominator, show d.exponent.toNat = 0 by omega, Nat.pow_zero, Nat.mul_one]
        rfl

theorem toBinary64_mul_pow (negative : Bool) (c n : Nat) (e : Int) :
    (Decimal.mk (c * 10 ^ n) e).toBinary64 negative =
      (Decimal.mk c (e + n)).toBinary64 negative := by
  rw [toBinary64_eq_ofQuotient, toBinary64_eq_ofQuotient]
  refine congrArg (Binary64.atPlace negative)
    (Binary64.nearestPlace_congr (denominator_pos _) (denominator_pos _) ?_)
  have hexponents : n + e.toNat + (-(e + n)).toNat = (e + n).toNat + (-e).toNat := by omega
  simp only [numerator, denominator]
  rw [Nat.mul_assoc, Nat.mul_assoc, Nat.mul_assoc, ← Nat.pow_add, ← Nat.pow_add, ← Nat.pow_add,
    ← hexponents, Nat.add_assoc]

theorem toBinary64_stripFrom (negative : Bool) (fuel : Nat) (d : Decimal) :
    (d.stripFrom fuel).toBinary64 negative = d.toBinary64 negative := by
  induction fuel generalizing d with
  | zero => rfl
  | succ fuel ih =>
    unfold stripFrom
    split
    · next h =>
      have hwhole : d.coefficient / 10 * 10 ^ 1 = d.coefficient := by omega
      have hmoved := toBinary64_mul_pow negative (d.coefficient / 10) 1 d.exponent
      rw [hwhole] at hmoved
      rw [ih]
      exact hmoved.symm
    · rfl

theorem toBinary64_strip (negative : Bool) (d : Decimal) :
    d.strip.toBinary64 negative = d.toBinary64 negative :=
  toBinary64_stripFrom negative _ d

end Decimal

namespace Binary64

/-! ## Digits that read back -/

theorem toBinary64_mul_pow_five (negative : Bool) (c n : Nat) :
    (Decimal.mk (c * Nat.pow 5 n) (-(n : Int))).toBinary64 negative =
      ofQuotient negative c (2 ^ n) := by
  have hden : Decimal.denominator ⟨c * Nat.pow 5 n, -(n : Int)⟩ = 2 ^ n * Nat.pow 5 n := by
    rw [Decimal.denominator, Int.neg_neg, Int.toNat_natCast]
    exact Nat.mul_pow 2 5 n
  have hnum : Decimal.numerator ⟨c * Nat.pow 5 n, -(n : Int)⟩ = c * Nat.pow 5 n := by
    rw [Decimal.numerator, Int.toNat_neg_natCast, Nat.pow_zero, Nat.mul_one]
  rw [Decimal.toBinary64_eq_ofQuotient, hnum, hden]
  exact congrArg (atPlace negative) (nearestPlace_mul c (2 ^ n) (Nat.pow_pos (by decide)))

theorem toBinary64_exactDecimal (negative : Bool) (place : Nat) :
    (exactDecimal place).toBinary64 negative = atPlace negative place := by
  obtain ⟨k, hk, hunits⟩ := unitsPerOne_eq
  have hexponent : (-1074 : Int) = -(k : Int) := by omega
  rw [exactDecimal, hexponent, ← hk, Decimal.toBinary64_strip, toBinary64_mul_pow_five, ← hunits,
    ofQuotient, nearestPlace_units]

theorem place_of_gridDecimal? {tie : Tie} {place : Nat} {exponent : Int} {d : Decimal}
    (h : gridDecimal? tie place exponent = some d) : d.place = place := by
  unfold gridDecimal? at h
  grind

/-- The digits that are written for a finite number read back to it. -/
theorem toBinary64_shortest (tie : Tie) (negative : Bool) (place : Fin 0x7FF0000000000000) :
    (shortest tie place.val).toBinary64 negative = .finite negative place := by
  have hplace : atPlace negative place.val = .finite negative place := dif_pos place.isLt
  simp only [shortest]
  split
  · next hzero =>
    rw [← hplace, hzero]
    rfl
  · split
    · next d hfound =>
      obtain ⟨n, _, hgrid⟩ := List.exists_of_findSome?_eq_some hfound
      rw [Decimal.toBinary64_strip, Decimal.toBinary64, place_of_gridDecimal? hgrid, hplace]
    · rw [toBinary64_exactDecimal, hplace]

end Binary64

end Rowfile
