import Rowfile.Proofs.Numerals

/-!
# Written documents

What is written in a layout is read back, whatever the layout: blanks stand only where the reader
skips them, every character of a text is written as one piece, and no number is followed by
something that could belong to it. Three leaves need not come back as they were. A number is what its
reader makes of it, an integer that needs more than 64 bits is read as a number, and what could not be
read before is written as a null.
-/
namespace Rowfile.Json

mutual

/-- The document that reading gives for a written document. -/
def asRead [FloatReader] : Json → Json
  | .null => .null
  | .boolean b => .boolean b
  | .integer n => ofNumber (decide (n < 0)) (digits n.natAbs) [] []
  | .number negative place => ofPlace? negative (Binary64.reread? place)
  | .text s => .text s
  | .array items => .array (itemsAsRead items)
  | .object fields => .object (fieldsAsRead fields)
  | .unreadable => .null

def itemsAsRead [FloatReader] : List Json → List Json
  | [] => []
  | item :: items => asRead item :: itemsAsRead items

def fieldsAsRead [FloatReader] : List (String × Json) → List (String × Json)
  | [] => []
  | (name, value) :: fields => (name, asRead value) :: fieldsAsRead fields

end

theorem itemsAsRead_eq [FloatReader] (items : List Json) : itemsAsRead items = items.map asRead := by
  induction items with
  | nil => rfl
  | cons item items ih => rw [itemsAsRead, ih, List.map_cons]

theorem fieldsAsRead_eq [FloatReader] (fields : List (String × Json)) :
    fieldsAsRead fields = fields.map fun field => (field.1, asRead field.2) := by
  induction fields with
  | nil => rfl
  | cons field fields ih => rw [fieldsAsRead, ih, List.map_cons]

/-! ## Texts -/

/-- A character is written as one piece, which stands for it. -/
theorem exists_piece (c : Char) :
    ∃ piece, (∀ r, readPieces? (escape c ++ r) =
        (readPieces? r).map fun (pieces, rest) => (piece :: pieces, rest)) ∧
      ∀ pieces, assemble? (piece :: pieces) = (assemble? pieces).map (c :: ·) := by
  by_cases hshort : c ∈ ['"', '\\', '\x08', '\t', '\n', '\x0c', '\x0d']
  · refine ⟨.char c, fun r => ?_, fun pieces => rfl⟩
    simp only [List.mem_cons, List.not_mem_nil, or_false] at hshort
    rcases hshort with rfl | rfl | rfl | rfl | rfl | rfl | rfl <;>
      simp [escape, readPieces?, shortEscape?, Option.map_eq_bind]
  · simp only [List.mem_cons, List.not_mem_nil, or_false, not_or] at hshort
    obtain ⟨hquote, hslash, hb, ht, hn, hf, hr⟩ := hshort
    by_cases hcontrol : c.toNat < 0x20
    · refine ⟨.unit c.toNat, fun r => ?_, fun pieces => ?_⟩
      · have hhex : ∀ n < 0x20, hexUnit? '0' '0' (Nat.digitChar (n / 16 % 16))
            (Nat.digitChar (n % 16)) = some n := by decide
        simp [escape, hexPair, hquote, hslash, hb, ht, hn, hf, hr, hcontrol, readPieces?,
          hhex c.toNat hcontrol, Option.map_eq_bind]
      · have hlow : c.toNat < 0xD800 := by omega
        rw [assemble?.eq_def]
        simp [hlow]
    · refine ⟨.char c, fun r => ?_, fun pieces => rfl⟩
      simp [escape, hquote, hslash, hb, ht, hn, hf, hr, hcontrol, readPieces?,
        Option.map_eq_bind]

/-- A text without its opening quote is read up to the closing one. -/
theorem exists_pieces (cs rest : List Char) :
    ∃ pieces, readPieces? (cs.flatMap escape ++ '"' :: rest) = some (pieces, rest) ∧
      assemble? pieces = some cs := by
  induction cs with
  | nil => exact ⟨[], by simp [readPieces?], rfl⟩
  | cons c cs ih =>
    obtain ⟨piece, hread, hmake⟩ := exists_piece c
    obtain ⟨pieces, hpieces, hcs⟩ := ih
    refine ⟨piece :: pieces, ?_, ?_⟩
    · rw [List.flatMap_cons, List.append_assoc, hread, hpieces, Option.map_some]
    · rw [hmake, hcs, Option.map_some]

/-! ## Blanks -/

theorem colon_inner (layout : Layout) : layout.inner.colon = layout.colon := by
  cases layout <;> rfl

theorem skipBlanks_lineBreak (layout : Layout) (cs : List Char) :
    skipBlanks (layout.lineBreak ++ cs) = skipBlanks cs := by
  refine List.dropWhile_append_of_pos fun c hc => ?_
  cases layout with
  | compact => cases hc
  | indented depth =>
    rcases List.mem_cons.mp hc with rfl | hc
    · rfl
    · rw [List.eq_of_mem_replicate hc]
      rfl

theorem skipBlanks_cons {c : Char} (h : isBlank c = false) (cs : List Char) :
    skipBlanks (c :: cs) = c :: cs := by
  rw [skipBlanks, List.dropWhile_cons, h, if_neg Bool.false_ne_true]

theorem skipBlanks_skipBlanks (cs : List Char) : skipBlanks (skipBlanks cs) = skipBlanks cs := by
  induction cs with
  | nil => rfl
  | cons c cs ih =>
    cases h : isBlank c with
    | true => simpa [skipBlanks, h] using ih
    | false => rw [skipBlanks_cons h, skipBlanks_cons h]

theorem readName?_skipBlanks (cs : List Char) : readName? (skipBlanks cs) = readName? cs := by
  rw [readName?, readName?, skipBlanks_skipBlanks]

section
variable [FloatReader]

/-- The readers skip the blanks in front. -/
theorem readValue?_skipBlanks (fuel : Nat) (cs : List Char) :
    readValue? fuel (skipBlanks cs) = readValue? fuel cs := by
  cases fuel with
  | zero => rfl
  | succ fuel => rw [readValue?, readValue?, skipBlanks_skipBlanks]

theorem readItems?_skipBlanks (fuel : Nat) (cs : List Char) :
    readItems? fuel (skipBlanks cs) = readItems? fuel cs := by
  cases fuel with
  | zero => rfl
  | succ fuel => rw [readItems?, readItems?, readValue?_skipBlanks]

theorem readFields?_skipBlanks (fuel : Nat) (cs : List Char) :
    readFields? fuel (skipBlanks cs) = readFields? fuel cs := by
  cases fuel with
  | zero => rfl
  | succ fuel => rw [readFields?, readFields?, readName?_skipBlanks]

end

/-! ## Leaves -/

theorem ends_nil : Ends [] := fun _ hc => by cases hc

theorem ends_cons {c : Char} (hdigit : Text.isAsciiDigit c = false) (hpoint : c ≠ '.')
    (he : c ≠ 'e') (hE : c ≠ 'E') (cs : List Char) : Ends (c :: cs) := by
  intro c' hc'
  obtain rfl := Option.some.inj hc'
  exact ⟨hdigit, hpoint, he, hE⟩

/-- The characters that begin a number. -/
def BeginsNumber (c : Char) : Prop := Text.isAsciiDigit c = true ∨ c = '-'

theorem BeginsNumber.ne {c : Char} (h : BeginsNumber c) {other : Char}
    (hdigit : Text.isAsciiDigit other = false) (hsign : other ≠ '-') : c ≠ other := by
  rintro rfl
  rcases h with h | h
  · rw [hdigit] at h
    cases h
  · exact hsign h

theorem BeginsNumber.isBlank {c : Char} (h : BeginsNumber c) : isBlank c = false := by
  simp only [Json.isBlank, Bool.or_eq_false_iff, beq_eq_false_iff_ne]
  exact ⟨⟨⟨h.ne (by decide) (by decide), h.ne (by decide) (by decide)⟩,
    h.ne (by decide) (by decide)⟩, h.ne (by decide) (by decide)⟩

theorem exists_of_readNumber? [FloatReader] {cs : List Char} {result : Json × List Char}
    (h : readNumber? cs = some result) : ∃ c r, cs = c :: r ∧ BeginsNumber c := by
  cases cs with
  | nil => cases h
  | cons c r =>
    refine ⟨c, r, rfl, ?_⟩
    by_cases hsign : c = '-'
    · exact .inr hsign
    · left
      by_contra hdigit
      simp [readNumber?, hsign, readDigits?, hdigit] at h

theorem readValue?_of_readNumber? [FloatReader] {cs : List Char} {result : Json × List Char}
    (h : readNumber? cs = some result) (fuel : Nat) :
    readValue? (fuel + 1) cs = some result := by
  obtain ⟨c, r, rfl, hc⟩ := exists_of_readNumber? h
  rw [readValue?, skipBlanks_cons hc.isBlank]
  split
  · next heq => exact absurd (List.cons.inj heq).1 (hc.ne (by decide) (by decide))
  · next heq => exact absurd (List.cons.inj heq).1 (hc.ne (by decide) (by decide))
  · next heq => exact absurd (List.cons.inj heq).1 (hc.ne (by decide) (by decide))
  · next heq => exact absurd (List.cons.inj heq).1 (hc.ne (by decide) (by decide))
  · next heq => exact absurd (List.cons.inj heq).1 (hc.ne (by decide) (by decide))
  · next heq => exact absurd (List.cons.inj heq).1 (hc.ne (by decide) (by decide))
  · exact h

section
variable (layout : Layout)

theorem render_integer (n : Int) : render layout (.integer n) = intText n := rfl

theorem render_number (negative : Bool) (place : Fin 0x7FF0000000000000) :
    render layout (.number negative place) = Binary64.jsonText negative place.val := rfl

theorem render_text (text : String) : render layout (.text text) = quoted text := rfl

theorem render_array_nil : render layout (.array []) = ['[', ']'] := rfl

theorem render_array_cons (item : Json) (items : List Json) :
    render layout (.array (item :: items)) = '[' :: layout.inner.lineBreak ++
      render layout.inner item ++ renderItems layout.inner items ++ layout.lineBreak ++ [']'] := rfl

theorem render_object_nil : render layout (.object []) = ['\x7b', '\x7d'] := rfl

theorem render_object_cons (field : String × Json) (fields : List (String × Json)) :
    render layout (.object (field :: fields)) = '\x7b' :: layout.inner.lineBreak ++ quoted field.1 ++
      layout.colon ++ render layout.inner field.2 ++ renderFields layout.inner fields ++
      layout.lineBreak ++ ['\x7d'] := rfl

end

/-- What is written begins with a character that is no blank and closes nothing. -/
theorem exists_render_eq_cons (layout : Layout) (d : Json) :
    ∃ c cs, render layout d = c :: cs ∧ isBlank c = false ∧ c ≠ ']' := by
  cases d with
  | null | unreadable => exact ⟨'n', _, rfl, rfl, by decide⟩
  | boolean b =>
    cases b
    · exact ⟨'f', _, rfl, rfl, by decide⟩
    · exact ⟨'t', _, rfl, rfl, by decide⟩
  | integer n =>
    obtain ⟨c, cs, heq, hc⟩ := exists_of_readNumber? (readNumber?_intText n ends_nil)
    rw [List.append_nil] at heq
    exact ⟨c, cs, by rw [render_integer, heq], hc.isBlank, hc.ne (by decide) (by decide)⟩
  | number negative place =>
    obtain ⟨c, cs, heq, hc⟩ :=
      exists_of_readNumber? (readNumber?_jsonText negative place ends_nil)
    rw [List.append_nil] at heq
    exact ⟨c, cs, by rw [render_number, heq], hc.isBlank, hc.ne (by decide) (by decide)⟩
  | text s => exact ⟨'"', _, rfl, rfl, by decide⟩
  | array items =>
    cases items with
    | nil => exact ⟨'[', _, rfl, rfl, by decide⟩
    | cons item items => exact ⟨'[', _, rfl, rfl, by decide⟩
  | object fields =>
    cases fields with
    | nil => exact ⟨'\x7b', _, rfl, rfl, by decide⟩
    | cons field fields => exact ⟨'\x7b', _, rfl, rfl, by decide⟩

theorem readValue?_quoted [FloatReader] (text : String) (fuel : Nat) (rest : List Char) :
    readValue? (fuel + 1) (quoted text ++ rest) = some (.text text, rest) := by
  obtain ⟨pieces, hread, hmake⟩ := exists_pieces text.toList rest
  have hblank : isBlank '"' = false := by decide
  have hquoted : quoted text ++ rest = '"' :: (text.toList.flatMap escape ++ '"' :: rest) := by
    simp [quoted]
  rw [hquoted, readValue?, skipBlanks_cons hblank]
  simp [hread, hmake]

/-- The name of a field is read back, and its value follows after a blank or none. -/
theorem readName?_quoted (name : String) (layout : Layout) (rest : List Char) :
    ∃ r, readName? (quoted name ++ (layout.colon ++ rest)) = some (some name, r) ∧
      skipBlanks r = skipBlanks rest := by
  obtain ⟨pieces, hread, hmake⟩ := exists_pieces name.toList (layout.colon ++ rest)
  have hblank : isBlank '"' = false := by decide
  have hquoted : quoted name ++ (layout.colon ++ rest) =
      '"' :: (name.toList.flatMap escape ++ '"' :: (layout.colon ++ rest)) := by
    simp [quoted]
  have hcolon : isBlank ':' = false := by decide
  rw [hquoted, readName?, skipBlanks_cons hblank]
  cases layout with
  | compact =>
    refine ⟨rest, ?_, rfl⟩
    simp only [Layout.colon, List.cons_append, List.nil_append] at hread ⊢
    simp [hread, hmake, skipBlanks_cons hcolon]
  | indented depth =>
    refine ⟨' ' :: rest, ?_, rfl⟩
    simp only [Layout.colon, List.cons_append, List.nil_append] at hread ⊢
    simp [hread, hmake, skipBlanks_cons hcolon]

/-! ## Arrays and objects -/

theorem length_render_pos (layout : Layout) (d : Json) : 0 < (render layout d).length := by
  obtain ⟨c, cs, heq, _⟩ := exists_render_eq_cons layout d
  rw [heq]
  exact Nat.succ_pos _

theorem ends_closing {close : Char} (hclose : Ends [close]) (outer : Layout) (rest : List Char) :
    Ends (outer.lineBreak ++ close :: rest) := by
  cases outer with
  | compact => exact fun c hc => hclose c hc
  | indented depth => exact ends_cons (by decide) (by decide) (by decide) (by decide) _

theorem ends_renderItems (layout outer : Layout) (items : List Json) (rest : List Char) :
    Ends (renderItems layout items ++ (outer.lineBreak ++ ']' :: rest)) := by
  cases items with
  | nil =>
    rw [renderItems]
    exact ends_closing (ends_cons (by decide) (by decide) (by decide) (by decide) _) outer rest
  | cons item items =>
    rw [renderItems]
    exact ends_cons (by decide) (by decide) (by decide) (by decide) _

theorem ends_renderFields (layout outer : Layout) (fields : List (String × Json))
    (rest : List Char) :
    Ends (renderFields layout fields ++ (outer.lineBreak ++ '\x7d' :: rest)) := by
  cases fields with
  | nil =>
    rw [renderFields]
    exact ends_closing (ends_cons (by decide) (by decide) (by decide) (by decide) _) outer rest
  | cons field fields =>
    rw [renderFields]
    exact ends_cons (by decide) (by decide) (by decide) (by decide) _

variable [FloatReader]

/-- A document is read back from the front of a text, if the fuel covers what is written. -/
def ReadsBack (layout : Layout) (d : Json) : Prop :=
  ∀ ⦃fuel : Nat⦄ ⦃rest : List Char⦄, (render layout d).length ≤ fuel → Ends rest →
    readValue? fuel (render layout d ++ rest) = some (asRead d, rest)

/-- Written items are read back up to the closing bracket. -/
theorem readItems?_render {layout : Layout} (outer : Layout) {item : Json} {items : List Json}
    (h : ∀ d ∈ item :: items, ReadsBack layout d) {fuel : Nat} (rest : List Char)
    (hfuel : (render layout item).length + (renderItems layout items).length < fuel) :
    readItems? fuel (render layout item ++
        (renderItems layout items ++ (outer.lineBreak ++ ']' :: rest))) =
      some (asRead item :: itemsAsRead items, rest) := by
  induction items generalizing item fuel with
  | nil =>
    obtain ⟨fuel, rfl⟩ := Nat.exists_eq_succ_of_ne_zero (show fuel ≠ 0 by omega)
    have hitem := h item List.mem_cons_self
      (show (render layout item).length ≤ fuel by omega)
      (ends_renderItems layout outer [] rest)
    have hclose : skipBlanks (outer.lineBreak ++ ']' :: rest) = ']' :: rest := by
      rw [skipBlanks_lineBreak, skipBlanks_cons (by decide)]
    rw [readItems?, hitem]
    simp [renderItems, hclose, itemsAsRead]
  | cons next items ih =>
    obtain ⟨fuel, rfl⟩ := Nat.exists_eq_succ_of_ne_zero (show fuel ≠ 0 by omega)
    have hitem := h item List.mem_cons_self
      (show (render layout item).length ≤ fuel by omega)
      (ends_renderItems layout outer (next :: items) rest)
    have hpos := length_render_pos layout item
    have hshort : (render layout next).length + (renderItems layout items).length < fuel := by
      simp [renderItems] at hfuel
      omega
    have hrest := ih (fun d hd => h d (List.mem_cons_of_mem _ hd)) hshort
    rw [← readItems?_skipBlanks, ← skipBlanks_lineBreak layout, readItems?_skipBlanks] at hrest
    have hcomma : ∀ cs, skipBlanks (',' :: cs) = ',' :: cs := skipBlanks_cons (by decide)
    rw [readItems?, hitem]
    simp [renderItems, hcomma, hrest, itemsAsRead]

theorem readFields?_render {layout : Layout} (outer : Layout) {field : String × Json}
    {fields : List (String × Json)} (h : ∀ f ∈ field :: fields, ReadsBack layout f.2) {fuel : Nat}
    (rest : List Char)
    (hfuel : (render layout field.2).length + (renderFields layout fields).length < fuel) :
    readFields? fuel (quoted field.1 ++ (layout.colon ++ (render layout field.2 ++
        (renderFields layout fields ++ (outer.lineBreak ++ '\x7d' :: rest))))) =
      some (.object ((field.1, asRead field.2) :: fieldsAsRead fields), rest) := by
  induction fields generalizing field fuel with
  | nil =>
    obtain ⟨fuel, rfl⟩ := Nat.exists_eq_succ_of_ne_zero (show fuel ≠ 0 by omega)
    have hvalue := h field List.mem_cons_self
      (show (render layout field.2).length ≤ fuel by omega)
      (ends_renderFields layout outer [] rest)
    obtain ⟨r, hname, hr⟩ := readName?_quoted field.1 layout (render layout field.2 ++
      (renderFields layout [] ++ (outer.lineBreak ++ '\x7d' :: rest)))
    rw [← readValue?_skipBlanks, ← hr, readValue?_skipBlanks] at hvalue
    have hclose : skipBlanks (outer.lineBreak ++ '\x7d' :: rest) = '\x7d' :: rest := by
      rw [skipBlanks_lineBreak, skipBlanks_cons (by decide)]
    rw [readFields?, hname]
    simp [hvalue, renderFields, hclose, fieldsAsRead, consField]
  | cons next fields ih =>
    obtain ⟨fuel, rfl⟩ := Nat.exists_eq_succ_of_ne_zero (show fuel ≠ 0 by omega)
    have hvalue := h field List.mem_cons_self
      (show (render layout field.2).length ≤ fuel by omega)
      (ends_renderFields layout outer (next :: fields) rest)
    obtain ⟨r, hname, hr⟩ := readName?_quoted field.1 layout (render layout field.2 ++
      (renderFields layout (next :: fields) ++ (outer.lineBreak ++ '\x7d' :: rest)))
    rw [← readValue?_skipBlanks, ← hr, readValue?_skipBlanks] at hvalue
    have hpos := length_render_pos layout field.2
    have hshort : (render layout next.2).length + (renderFields layout fields).length < fuel := by
      simp [renderFields] at hfuel
      omega
    have hrest := ih (fun f hf => h f (List.mem_cons_of_mem _ hf)) hshort
    rw [← readFields?_skipBlanks, ← skipBlanks_lineBreak layout, readFields?_skipBlanks] at hrest
    have hcomma : ∀ cs, skipBlanks (',' :: cs) = ',' :: cs := skipBlanks_cons (by decide)
    rw [readFields?, hname]
    simp [hvalue, renderFields, hcomma, hrest, fieldsAsRead, consField]

theorem readValue?_bracket {c : Char} {cs r : List Char} (hskip : skipBlanks cs = c :: r)
    (hc : c ≠ ']') (fuel : Nat) :
    readValue? (fuel + 1) ('[' :: cs) =
      (readItems? fuel (c :: r)).map fun (items, rest) => (.array items, rest) := by
  rw [readValue?, skipBlanks_cons (by decide)]
  simp [hskip, hc, Option.map_eq_bind]

theorem readValue?_brace {c : Char} {cs r : List Char} (hskip : skipBlanks cs = c :: r)
    (hc : c ≠ '\x7d') (fuel : Nat) :
    readValue? (fuel + 1) ('\x7b' :: cs) = readFields? fuel (c :: r) := by
  rw [readValue?, skipBlanks_cons (by decide)]
  simp [hskip, hc]

/-- Where there is something to read, there is fuel left for it. -/
theorem readsBack_of_succ {layout : Layout} {d : Json}
    (h : ∀ ⦃fuel : Nat⦄ ⦃rest : List Char⦄, (render layout d).length ≤ fuel + 1 → Ends rest →
      readValue? (fuel + 1) (render layout d ++ rest) = some (asRead d, rest)) :
    ReadsBack layout d := by
  intro fuel rest hfuel hrest
  have hpos := length_render_pos layout d
  obtain ⟨fuel, rfl⟩ := Nat.exists_eq_succ_of_ne_zero (show fuel ≠ 0 by omega)
  exact h hfuel hrest

theorem readsBack_integer (layout : Layout) (n : Int) : ReadsBack layout (.integer n) := by
  refine readsBack_of_succ fun fuel rest _ hrest => ?_
  rw [render_integer, asRead]
  exact readValue?_of_readNumber? (readNumber?_intText n hrest) fuel

theorem readsBack_number (layout : Layout) (negative : Bool)
    (place : Fin 0x7FF0000000000000) : ReadsBack layout (.number negative place) := by
  refine readsBack_of_succ fun fuel rest _ hrest => ?_
  rw [render_number, asRead]
  exact readValue?_of_readNumber? (readNumber?_jsonText negative place hrest) fuel

theorem readsBack_text (layout : Layout) (text : String) : ReadsBack layout (.text text) := by
  refine readsBack_of_succ fun fuel rest _ _ => ?_
  rw [render_text, asRead]
  exact readValue?_quoted text fuel rest

theorem readsBack_array {layout : Layout} {items : List Json}
    (h : ∀ item ∈ items, ReadsBack layout.inner item) : ReadsBack layout (.array items) := by
  refine readsBack_of_succ fun fuel rest hfuel _ => ?_
  cases items with
  | nil => rw [render_array_nil, asRead]; rfl
  | cons item items =>
    have hshort : (render layout.inner item).length + (renderItems layout.inner items).length <
        fuel := by
      simp [render_array_cons] at hfuel
      omega
    have hitems := readItems?_render layout h rest hshort
    obtain ⟨c, cs, heq, hblank, hclose⟩ := exists_render_eq_cons layout.inner item
    rw [heq, List.cons_append] at hitems
    have hskip := skipBlanks_lineBreak layout.inner (c :: (cs ++
      (renderItems layout.inner items ++ (layout.lineBreak ++ ']' :: rest))))
    rw [skipBlanks_cons hblank] at hskip
    have hread := readValue?_bracket hskip hclose fuel
    rw [hitems, Option.map_some] at hread
    simpa [render_array_cons, heq, asRead, itemsAsRead] using hread

theorem readsBack_object {layout : Layout} {fields : List (String × Json)}
    (h : ∀ field ∈ fields, ReadsBack layout.inner field.2) :
    ReadsBack layout (.object fields) := by
  refine readsBack_of_succ fun fuel rest hfuel _ => ?_
  cases fields with
  | nil => rw [render_object_nil, asRead]; rfl
  | cons field fields =>
    have hshort : (render layout.inner field.2).length +
        (renderFields layout.inner fields).length < fuel := by
      simp [render_object_cons] at hfuel
      omega
    have hfields := readFields?_render layout h rest hshort
    obtain ⟨cs, hquoted⟩ : ∃ cs, quoted field.1 = '"' :: cs := ⟨_, rfl⟩
    rw [hquoted, List.cons_append] at hfields
    have hskip := skipBlanks_lineBreak layout.inner ('"' :: (cs ++ (layout.inner.colon ++
      (render layout.inner field.2 ++ (renderFields layout.inner fields ++
        (layout.lineBreak ++ '\x7d' :: rest))))))
    rw [skipBlanks_cons (by decide)] at hskip
    have hread := readValue?_brace hskip (by decide) fuel
    rw [hfields] at hread
    simpa [render_object_cons, hquoted, asRead, fieldsAsRead, colon_inner] using hread

theorem readsBack_render (layout : Layout) : (d : Json) → ReadsBack layout d
  | .null | .unreadable =>
    readsBack_of_succ fun _ _ _ _ => by rw [asRead]; rfl
  | .boolean b =>
    readsBack_of_succ fun _ _ _ _ => by cases b <;> (rw [asRead]; rfl)
  | .integer n => readsBack_integer layout n
  | .number negative place => readsBack_number layout negative place
  | .text s => readsBack_text layout s
  | .array items => readsBack_array fun item _ => readsBack_render layout.inner item
  | .object fields => readsBack_object fun field _ => readsBack_render layout.inner field.2
termination_by d => sizeOf d
decreasing_by
  · have hsmaller := List.sizeOf_lt_of_mem ‹item ∈ items›
    simp only [array.sizeOf_spec]
    omega
  · have hsmaller := List.sizeOf_lt_of_mem ‹field ∈ fields›
    obtain ⟨name, value⟩ := field
    simp only [object.sizeOf_spec, Prod.mk.sizeOf_spec] at hsmaller ⊢
    omega

/-- A written document is read back whole, in whatever layout it was written. -/
theorem read?_render (layout : Layout) (d : Json) : read? (render layout d) = some (asRead d) := by
  have hread := readsBack_render layout d (Nat.le_succ _) ends_nil
  rw [List.append_nil] at hread
  rw [read?, hread]
  rfl

end Rowfile.Json
