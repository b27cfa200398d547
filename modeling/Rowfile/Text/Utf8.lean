/-!
# Octets of text

A character is written in one to four octets. `width` is their number and `encode` lists them;
`decode?` reads a whole sequence back and refuses overlong forms, surrogates and numbers past the
last character.
-/
namespace Rowfile.Text.Utf8

def width (c : Char) : Nat :=
  if c.toNat < 0x80 then 1 else if c.toNat < 0x800 then 2 else if c.toNat < 0x10000 then 3 else 4

def units (c : Char) : List Nat :=
  let n := c.toNat
  if n < 0x80 then [n]
  else if n < 0x800 then [0xC0 + n / 0x40, 0x80 + n % 0x40]
  else if n < 0x10000 then [0xE0 + n / 0x1000, 0x80 + n / 0x40 % 0x40, 0x80 + n % 0x40]
  else [0xF0 + n / 0x40000, 0x80 + n / 0x1000 % 0x40, 0x80 + n / 0x40 % 0x40, 0x80 + n % 0x40]

def encode (cs : List Char) : List UInt8 := (cs.flatMap units).map UInt8.ofNat

@[simp]
theorem length_units (c : Char) : (units c).length = width c := by
  simp only [units, width]; grind

@[simp]
theorem encode_nil : encode [] = [] := rfl

@[simp]
theorem encode_append (cs ds : List Char) : encode (cs ++ ds) = encode cs ++ encode ds := by
  simp [encode]

/-- The number of an octet that continues a character. -/
def isTail (b : Nat) : Bool := 0x80 ≤ b && b < 0xC0

/-- The characters that a sequence of octets writes, if it writes any. -/
def decode? : List UInt8 → Option (List Char)
  | [] => some []
  | a :: r =>
    let a := a.toNat
    if a < 0x80 then (decode? r).map (Char.ofNat a :: ·)
    else match r with
      | [] => none
      | b :: r =>
        let b := b.toNat
        if !isTail b then none
        else if 0xC2 ≤ a && a < 0xE0 then
          (decode? r).map (Char.ofNat ((a - 0xC0) * 0x40 + (b - 0x80)) :: ·)
        else match r with
          | [] => none
          | c :: r =>
            let c := c.toNat
            let n := (a - 0xE0) * 0x1000 + (b - 0x80) * 0x40 + (c - 0x80)
            if !isTail c then none
            else if 0xE0 ≤ a && a < 0xF0 then
              if n < 0x800 || (0xD800 ≤ n && n < 0xE000) then none
              else (decode? r).map (Char.ofNat n :: ·)
            else match r with
              | [] => none
              | d :: r =>
                let d := d.toNat
                let n := (a - 0xF0) * 0x40000 + (b - 0x80) * 0x1000 + (c - 0x80) * 0x40 + (d - 0x80)
                if !isTail d || a < 0xF0 || n < 0x10000 || 0x110000 ≤ n then none
                else (decode? r).map (Char.ofNat n :: ·)

@[simp]
theorem decode?_nil : decode? [] = some [] := rfl

end Rowfile.Text.Utf8
