import Rowfile.Proofs.PlainNumbers
import Rowfile.Proofs.Storing
import Rowfile.Value.Literal

/-!
# Written literals

A value is written as a literal by the characters that show it, and a text between quotes that it
does not contain. A literal has no sign, so an integer or number below zero cannot be written. Every
literal is one solid word, whatever its text holds, and is read back as the value.
-/
namespace Rowfile

inductive Value.Written : Value → List Char → Prop
  | integer {n : Int64} : 0 ≤ n.toInt → Written (.integer n) (Value.integer n).shownChars
  | float {x : Binary64} : x.isFinite = true → '-' ∉ (Value.float x).shownChars →
      Written (.float x) (Value.float x).shownChars
  | boolean (b : Bool) : Written (.boolean b) (Value.boolean b).shownChars
  | text {q : Char} {s : String} : isQuote q = true → q ∉ s.toList →
      Written (.text s) (inQuotes q s.toList)

/-! ## Quoted texts -/

theorem trimmed_inQuotes {q : Char} (hq : isQuote q = true) (cs : List Char) :
    Trimmed (inQuotes q cs) := by
  refine ⟨fun c hc => ?_, fun c hc => ?_⟩
  · obtain rfl : q = c := Option.some.inj hc
    exact isBlank_of_isQuote hq
  · rw [inQuotes, ← List.cons_append, List.getLast?_concat] at hc
    obtain rfl : q = c := Option.some.inj hc
    exact isBlank_of_isQuote hq

theorem solidWord_inQuotes {q : Char} {cs : List Char} (hq : isQuote q = true) (hcs : q ∉ cs) :
    SolidWord (inQuotes q cs) :=
  ⟨shown_inQuotes hq hcs (by decide), by simp [inQuotes]⟩

theorem stripQuotes?_inQuotes {q : Char} (hq : isQuote q = true) (cs : List Char) :
    stripQuotes? (inQuotes q cs) = some cs := by
  rw [isQuote] at hq
  have hlast : (cs ++ [q]).getLast? = some q := List.getLast?_concat
  have hdrop : (cs ++ [q]).dropLast = cs := List.dropLast_concat
  cases cs with
  | nil => simp [inQuotes, stripQuotes?, hq]
  | cons c cs =>
    rw [List.cons_append] at hlast hdrop
    simp [inQuotes, stripQuotes?, hq, hlast, hdrop]

theorem unquote_inQuotes {q : Char} (hq : isQuote q = true) (cs : List Char) :
    unquote (inQuotes q cs) = cs := by
  rw [unquote, (trimmed_inQuotes hq cs).trim_eq, stripQuotes?_inQuotes hq]
  rfl

/-! ## Numbers and truth values -/

theorem stripQuotes?_of_first {c : Char} (hc : isQuote c = false) (cs : List Char) :
    stripQuotes? (c :: cs) = none := by
  cases cs with
  | nil => rfl
  | cons d cs => rw [isQuote] at hc; simp [stripQuotes?, hc]

/-- A solid text that begins with a digit is read as a number or else as a text. -/
theorem Value.ofLiteral_of_digit {c : Char} {cs : List Char}
    (hsolid : ∀ d ∈ c :: cs, isSolid d = true) (hc : Text.isAsciiDigit c = true) :
    Value.ofLiteral (c :: cs) =
      match if isDigits (c :: cs) then int64? (ofDigits (c :: cs)) else none with
      | some n => .integer n
      | none =>
        if isDigits ((c :: cs).erase '.') then
          match Binary64.read? (c :: cs) with
          | some x => if x.isFinite then .float x else .text (String.ofList (c :: cs))
          | none => .text (String.ofList (c :: cs))
        else .text (String.ofList (c :: cs)) := by
  have hword : SolidWord (c :: cs) := ⟨shown_of_solid hsolid, List.cons_ne_nil c cs⟩
  obtain ⟨-, -, -, -, ht, hf⟩ := first_of_isAsciiDigit hc
  have htrue : Text.asciiCaseEq (c :: cs) "TRUE".toList = false := asciiCaseEq_of_head ht _ _
  have hfalse : Text.asciiCaseEq (c :: cs) "FALSE".toList = false := asciiCaseEq_of_head hf _ _
  unfold Value.ofLiteral
  dsimp only
  rw [hword.visible.trimmed.trim_eq,
    stripQuotes?_of_first (isQuote_of_isSolid (hsolid c List.mem_cons_self)), htrue, hfalse]
  rfl

theorem isDigits_of_digitRun {cs : List Char} (h : DigitRun cs) : isDigits cs = true := by
  rw [isDigits, Bool.and_eq_true, List.all_eq_true]
  exact ⟨by simpa using h.nonempty, h.digit⟩

theorem isSolid_of_digitRun {cs : List Char} (h : DigitRun cs) : ∀ c ∈ cs, isSolid c = true :=
  fun c hc => isSolid_of_isAsciiDigit (h.digit c hc)

theorem isSolid_point {whole part : List Char} (hwhole : DigitRun whole) (hpart : DigitRun part) :
    ∀ c ∈ whole ++ '.' :: part, isSolid c = true := by
  intro c hc
  rcases List.mem_append.mp hc with hc | hc
  · exact isSolid_of_digitRun hwhole c hc
  · rcases List.mem_cons.mp hc with rfl | hc
    · decide
    · exact isSolid_of_digitRun hpart c hc

theorem solidWord_of_digitRun {cs : List Char} (h : DigitRun cs) : SolidWord cs :=
  ⟨shown_of_solid (isSolid_of_digitRun h), h.nonempty⟩

theorem solidWord_point {whole part : List Char} (hwhole : DigitRun whole) (hpart : DigitRun part) :
    SolidWord (whole ++ '.' :: part) :=
  ⟨shown_of_solid (isSolid_point hwhole hpart), by simp⟩

/-- Digits are read as an integer, if it has 64 bits. -/
theorem Value.ofLiteral_digits (n : Int64) (hn : 0 ≤ n.toInt) :
    Value.ofLiteral (digits n.toInt.natAbs) = .integer n := by
  have hrun := digitRun_digits n.toInt.natAbs
  have hdigits := isDigits_of_digitRun hrun
  have hvalue : int64? (ofDigits (digits n.toInt.natAbs) : Nat) = some n := by
    rw [ofDigits_digits, Int.natAbs_of_nonneg hn, int64?_toInt]
  have hsolid := isSolid_of_digitRun hrun
  generalize digits n.toInt.natAbs = ds at hrun hdigits hvalue hsolid
  cases ds with
  | nil => exact absurd rfl hrun.nonempty
  | cons c cs =>
    rw [Value.ofLiteral_of_digit hsolid (hrun.digit c List.mem_cons_self), hdigits, if_pos rfl,
      hvalue]

/-- Digits, a point and digits are read as the number that they write. -/
theorem Value.ofLiteral_point {whole part : List Char} (hwhole : DigitRun whole)
    (hpart : DigitRun part) {x : Binary64} (hx : x.isFinite = true)
    (hvalue : (Decimal.mk (ofDigits (whole ++ part)) (-(part.length : Int))).toBinary64 false = x) :
    Value.ofLiteral (whole ++ '.' :: part) = .float x := by
  have hread : Binary64.read? (whole ++ '.' :: part) = _ := Binary64.read?_signed false hwhole hpart
  rw [hvalue] at hread
  have herase : (whole ++ '.' :: part).erase '.' = whole ++ part := by
    rw [List.erase_append_right _ fun hm => absurd (hwhole.digit _ hm) (by decide),
      List.erase_cons_head]
  have hdigits : isDigits (whole ++ part) = true := isDigits_of_digitRun
    ⟨by simp [hwhole.nonempty], fun c hc =>
      (List.mem_append.mp hc).elim (hwhole.digit c) (hpart.digit c)⟩
  have hpoint : isDigits (whole ++ '.' :: part) = false := by
    rw [Bool.eq_false_iff]
    intro h
    rw [isDigits, Bool.and_eq_true, List.all_eq_true] at h
    exact absurd (h.2 '.' (by simp)) (by decide)
  have hsolid := isSolid_point hwhole hpart
  cases whole with
  | nil => exact absurd rfl hwhole.nonempty
  | cons c whole =>
    rw [List.cons_append] at hread herase hpoint hsolid ⊢
    rw [Value.ofLiteral_of_digit hsolid (hwhole.digit c List.mem_cons_self), hpoint, herase,
      hdigits, hread]
    exact if_pos hx

/-! ## Literals as a whole -/

namespace Value.Written

variable {v : Value} {text : List Char}

/-- A finite number without a sign is written as digits, a point and digits. -/
theorem float_cases {x : Binary64} (hx : x.isFinite = true)
    (hsign : '-' ∉ (Value.float x).shownChars) :
    ∃ whole part, DigitRun whole ∧ DigitRun part ∧
      (Value.float x).shownChars = whole ++ '.' :: part ∧
      (Decimal.mk (ofDigits (whole ++ part)) (-(part.length : Int))).toBinary64 false = x := by
  cases x with
  | finite negative place =>
    obtain ⟨whole, part, hwhole, hpart, htext, hvalue⟩ := Binary64.exists_fractionText negative place
    cases negative with
    | true =>
      refine absurd ?_ hsign
      rw [Value.shownChars, htext]
      exact List.mem_cons_self
    | false => exact ⟨whole, part, hwhole, hpart, htext, hvalue⟩
  | infinite negative => cases hx
  | nan => cases hx

/-- A literal is read back as the value that it writes. -/
theorem ofLiteral_eq (h : v.Written text) : Value.ofLiteral text = v := by
  cases h with
  | integer hn =>
    rw [Value.shownChars, intText, if_neg (by omega)]
    exact Value.ofLiteral_digits _ hn
  | float hx hsign =>
    obtain ⟨whole, part, hwhole, hpart, htext, hvalue⟩ := float_cases hx hsign
    rw [htext]
    exact Value.ofLiteral_point hwhole hpart hx hvalue
  | boolean b => cases b <;> decide +kernel
  | @text q s hq hs =>
    unfold Value.ofLiteral
    dsimp only
    rw [(trimmed_inQuotes hq _).trim_eq, stripQuotes?_inQuotes hq]
    exact congrArg Value.text String.ofList_toList

theorem solidWord (h : v.Written text) : SolidWord text := by
  cases h with
  | @integer n hn =>
    rw [Value.shownChars, intText, if_neg (by omega)]
    exact solidWord_of_digitRun (digitRun_digits _)
  | float hx hsign =>
    obtain ⟨whole, part, hwhole, hpart, htext, -⟩ := float_cases hx hsign
    rw [htext]
    exact solidWord_point hwhole hpart
  | boolean b => cases b <;> exact ⟨shown_of_all (by decide), by decide⟩
  | text hq hs => exact solidWord_inQuotes hq hs

end Value.Written

/-! ## What literals write -/

/-- What a token without blanks around it may be: a quoted text, a truth value, an integer, a finite
number or a text as it stands. -/
inductive Value.Literal (token : List Char) : Value → Prop
  | quoted {inner : List Char} : stripQuotes? token = some inner →
      Literal token (.text (String.ofList inner))
  | boolean (b : Bool) : Literal token (.boolean b)
  | integer {n : Int64} : int64? (ofDigits token) = some n → Literal token (.integer n)
  | float {x : Binary64} : isDigits (token.erase '.') = true → Binary64.read? token = some x →
      x.isFinite = true → Literal token (.float x)
  | bare : Literal token (.text (String.ofList token))

theorem Value.literal_ofLiteral (raw : List Char) : Literal (Text.trim raw) (ofLiteral raw) := by
  unfold ofLiteral
  dsimp only
  split
  · next hquotes => exact .quoted hquotes
  · split
    · exact .boolean true
    · split
      · exact .boolean false
      · split
        · next hdigits =>
          split at hdigits
          · exact .integer hdigits
          · cases hdigits
        · split
          · next hdigits =>
            split
            · next hread =>
              split
              · next hfinite => exact .float hdigits hread hfinite
              · exact .bare
            · exact .bare
          · exact .bare

theorem length_stripQuotes? {cs inner : List Char} (h : stripQuotes? cs = some inner) :
    inner.length < cs.length := by
  unfold stripQuotes? at h
  split at h
  · split at h
    · obtain rfl := Option.some.inj h
      rw [List.length_dropLast]
      simp only [List.length_cons]
      omega
    · cases h
  · cases h

/-- A text is no longer than the literal that writes it, and one of the same length stands there as it
is, without blanks around it. -/
theorem Value.length_of_ofLiteral {raw : List Char} {s : String} (h : ofLiteral raw = .text s) :
    s.toList.length ≤ raw.length ∧
      (s.toList.length = raw.length → s.toList = raw ∧ Text.trim raw = raw) := by
  have hkept := Text.sublist_trim raw
  have hlength := hkept.length_le
  have hread := literal_ofLiteral raw
  rw [h] at hread
  cases hread with
  | quoted hquotes =>
    have hshorter := length_stripQuotes? hquotes
    rw [String.toList_ofList]
    exact ⟨by omega, fun heq => by omega⟩
  | bare =>
    rw [String.toList_ofList]
    refine ⟨hlength, fun heq => ?_⟩
    have hsame := hkept.eq_of_length heq
    exact ⟨hsame, hsame⟩

/-- Digits with at most one point have no sign, and neither has the number that they write. -/
theorem Binary64.exists_place_of_read? {cs : List Char} {x : Binary64}
    (hdigits : isDigits (cs.erase '.') = true) (hread : read? cs = some x)
    (hfinite : x.isFinite = true) : ∃ place, x = .finite false place := by
  have hsign : (Decimal.takeSign cs).1 = false := by
    unfold Decimal.takeSign
    split
    · next ds =>
      rw [isDigits, Bool.and_eq_true, List.all_eq_true, List.erase_cons_tail (by decide)] at hdigits
      exact absurd (hdigits.2 '-' List.mem_cons_self) (by decide)
    · rfl
    · rfl
  unfold read? at hread
  dsimp only at hread
  rw [hsign] at hread
  split at hread
  · obtain rfl := Option.some.inj hread
    cases hfinite
  · split at hread
    · obtain rfl := Option.some.inj hread
      cases hfinite
    · obtain ⟨decimal, _, rfl⟩ := Option.map_eq_some_iff.mp hread
      rw [Decimal.toBinary64, atPlace] at hfinite ⊢
      split at hfinite
      · next hplace => exact ⟨⟨_, hplace⟩, dif_pos hplace⟩
      · cases hfinite

/-- A value that a literal writes is a text, or what shows it is a literal of it. -/
theorem Value.written_ofLiteral (raw : List Char) :
    (∃ s, ofLiteral raw = .text s) ∨ (ofLiteral raw).Written (ofLiteral raw).shownChars := by
  have hread := literal_ofLiteral raw
  generalize ofLiteral raw = v at hread
  cases hread with
  | quoted | bare => exact .inl ⟨_, rfl⟩
  | boolean b => exact .inr (.boolean b)
  | @integer n hn =>
    rw [int64?] at hn
    split at hn
    · next hrange =>
      obtain rfl := Option.some.inj hn
      refine .inr (.integer ?_)
      rw [Int64.toInt_ofInt_of_le hrange.1 (Int.lt_of_le_of_lt hrange.2 (by decide))]
      exact Int.natCast_nonneg _
    · cases hn
  | float hdigits hread hfinite =>
    refine .inr (.float hfinite ?_)
    obtain ⟨place, rfl⟩ := Binary64.exists_place_of_read? hdigits hread hfinite
    obtain ⟨whole, part, hwhole, hpart, htext, -⟩ := Binary64.exists_fractionText false place
    have hfraction : (Value.float (.finite false place)).shownChars = whole ++ '.' :: part := htext
    rw [hfraction, List.mem_append, List.mem_cons]
    rintro (hsign | hsign | hsign)
    · exact absurd (hwhole.digit _ hsign) (by decide)
    · exact absurd hsign (by decide)
    · exact absurd (hpart.digit _ hsign) (by decide)

end Rowfile
