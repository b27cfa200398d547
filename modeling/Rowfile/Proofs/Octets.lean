import Rowfile.Text.Utf8

/-!
# Octets are read back

The first octet of a character tells how many follow it, and the numbers written in them make up the
character again. So the octets of a text are read back as the text.
-/
namespace Rowfile.Text.Utf8

theorem toNat_ofNat {n : Nat} (h : n < 0x100) : (UInt8.ofNat n).toNat = n := by
  rw [UInt8.toNat_ofNat']
  exact Nat.mod_eq_of_lt h

/-- A character is no surrogate and lies below the end of the code space. -/
theorem toNat_valid (c : Char) :
    c.toNat < 0x110000 ∧ ¬(0xD800 ≤ c.toNat ∧ c.toNat < 0xE000) := by
  have hvalid : c.toNat.isValidChar := c.valid
  rcases hvalid with h | ⟨h, h'⟩ <;> omega

theorem decode?_one {n : Nat} (h : n < 0x80) (r : List UInt8) :
    decode? (UInt8.ofNat n :: r) = (decode? r).map (Char.ofNat n :: ·) := by
  rw [decode?.eq_def]
  simp only [toNat_ofNat (show n < 0x100 by omega), h, if_true]

theorem decode?_two {n : Nat} (h : 0x80 ≤ n) (h' : n < 0x800) (r : List UInt8) :
    decode? (UInt8.ofNat (0xC0 + n / 0x40) :: UInt8.ofNat (0x80 + n % 0x40) :: r) =
      (decode? r).map (Char.ofNat n :: ·) := by
  have ha := toNat_ofNat (show 0xC0 + n / 0x40 < 0x100 by omega)
  have hb := toNat_ofNat (show 0x80 + n % 0x40 < 0x100 by omega)
  have hfirst : ¬0xC0 + n / 0x40 < 0x80 := by omega
  have htail : isTail (0x80 + n % 0x40) = true := by simp [isTail]; omega
  have hwidth : (0xC2 ≤ 0xC0 + n / 0x40 && 0xC0 + n / 0x40 < 0xE0) = true := by simp; omega
  have hnumber : (0xC0 + n / 0x40 - 0xC0) * 0x40 + (0x80 + n % 0x40 - 0x80) = n := by omega
  simp only [decode?, ha, hb, hfirst, htail, hwidth, hnumber, if_false, if_true, Bool.not_true,
    Bool.false_eq_true]

theorem decode?_three {n : Nat} (h : 0x800 ≤ n) (h' : n < 0x10000)
    (hs : ¬(0xD800 ≤ n ∧ n < 0xE000)) (r : List UInt8) :
    decode? (UInt8.ofNat (0xE0 + n / 0x1000) :: UInt8.ofNat (0x80 + n / 0x40 % 0x40) ::
      UInt8.ofNat (0x80 + n % 0x40) :: r) = (decode? r).map (Char.ofNat n :: ·) := by
  have ha := toNat_ofNat (show 0xE0 + n / 0x1000 < 0x100 by omega)
  have hb := toNat_ofNat (show 0x80 + n / 0x40 % 0x40 < 0x100 by omega)
  have hc := toNat_ofNat (show 0x80 + n % 0x40 < 0x100 by omega)
  have hfirst : ¬0xE0 + n / 0x1000 < 0x80 := by omega
  have htail : isTail (0x80 + n / 0x40 % 0x40) = true := by simp [isTail]; omega
  have htail' : isTail (0x80 + n % 0x40) = true := by simp [isTail]; omega
  have htwo : (0xC2 ≤ 0xE0 + n / 0x1000 && 0xE0 + n / 0x1000 < 0xE0) = false := by simp
  have hwidth : (0xE0 ≤ 0xE0 + n / 0x1000 && 0xE0 + n / 0x1000 < 0xF0) = true := by simp; omega
  have hnumber : (0xE0 + n / 0x1000 - 0xE0) * 0x1000 + (0x80 + n / 0x40 % 0x40 - 0x80) * 0x40 +
      (0x80 + n % 0x40 - 0x80) = n := by omega
  have hscalar : (n < 0x800 || 0xD800 ≤ n && n < 0xE000) = false := by simp; omega
  simp only [decode?, ha, hb, hc, hfirst, htail, htail', htwo, hwidth, hnumber, hscalar, if_false,
    if_true, Bool.not_true, Bool.false_eq_true]

theorem decode?_four {n : Nat} (h : 0x10000 ≤ n) (h' : n < 0x110000) (r : List UInt8) :
    decode? (UInt8.ofNat (0xF0 + n / 0x40000) :: UInt8.ofNat (0x80 + n / 0x1000 % 0x40) ::
      UInt8.ofNat (0x80 + n / 0x40 % 0x40) :: UInt8.ofNat (0x80 + n % 0x40) :: r) =
      (decode? r).map (Char.ofNat n :: ·) := by
  have ha := toNat_ofNat (show 0xF0 + n / 0x40000 < 0x100 by omega)
  have hb := toNat_ofNat (show 0x80 + n / 0x1000 % 0x40 < 0x100 by omega)
  have hc := toNat_ofNat (show 0x80 + n / 0x40 % 0x40 < 0x100 by omega)
  have hd := toNat_ofNat (show 0x80 + n % 0x40 < 0x100 by omega)
  have hfirst : ¬0xF0 + n / 0x40000 < 0x80 := by omega
  have htail : isTail (0x80 + n / 0x1000 % 0x40) = true := by simp [isTail]; omega
  have htail' : isTail (0x80 + n / 0x40 % 0x40) = true := by simp [isTail]; omega
  have htwo : (0xC2 ≤ 0xF0 + n / 0x40000 && 0xF0 + n / 0x40000 < 0xE0) = false := by
    simp; omega
  have hthree : (0xE0 ≤ 0xF0 + n / 0x40000 && 0xF0 + n / 0x40000 < 0xF0) = false := by simp
  have hnumber : (0xF0 + n / 0x40000 - 0xF0) * 0x40000 +
      (0x80 + n / 0x1000 % 0x40 - 0x80) * 0x1000 + (0x80 + n / 0x40 % 0x40 - 0x80) * 0x40 +
      (0x80 + n % 0x40 - 0x80) = n := by omega
  have hscalar : (!isTail (0x80 + n % 0x40) || 0xF0 + n / 0x40000 < 0xF0 || n < 0x10000 ||
      0x110000 ≤ n) = false := by simp [isTail]; omega
  simp only [decode?, ha, hb, hc, hd, hfirst, htail, htail', htwo, hthree, hnumber, hscalar,
    if_false, Bool.not_true, Bool.false_eq_true]

theorem decode?_units (c : Char) (r : List UInt8) :
    decode? ((units c).map UInt8.ofNat ++ r) = (decode? r).map (c :: ·) := by
  obtain ⟨hend, hsurrogate⟩ := toNat_valid c
  have hread : decode? ((units c).map UInt8.ofNat ++ r) =
      (decode? r).map (Char.ofNat c.toNat :: ·) := by
    simp only [units]
    split
    · next h => exact decode?_one h r
    · split
      · next h h' => exact decode?_two (by omega) h' r
      · split
        · next h h' => exact decode?_three (by omega) h' hsurrogate r
        · exact decode?_four (by omega) hend r
  rw [hread, Char.ofNat_toNat]

theorem decode?_encode (cs : List Char) : decode? (encode cs) = some cs := by
  induction cs with
  | nil => rfl
  | cons c cs ih =>
    have hencode : encode (c :: cs) = (units c).map UInt8.ofNat ++ encode cs := by
      simp [encode]
    rw [hencode, decode?_units, ih, Option.map_some]

end Rowfile.Text.Utf8
