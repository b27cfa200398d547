import Rowfile.Predicate.Eval
import Mathlib.Data.List.Forall2

/-!
# What a pattern takes

A text is taken when it can be cut into consecutive pieces, one for each character of the pattern.
The table that decides this looks at one suffix of the text after the other and never backtracks. A
pattern can also be written as a regular expression and handed to a matcher of such expressions. All
that is asked of the matcher is what it documents about anchors, dots and escaped characters; it then
finds the expression of a pattern in exactly the texts that the pattern takes.
-/
namespace Rowfile.Like

/-! ## Pieces -/

/-- The pieces that a character of a pattern takes. -/
inductive Takes : Char → List Char → Prop
  | run (piece : List Char) : Takes '%' piece
  | one (c : Char) : Takes '_' [c]
  | alike {p c : Char} : p ≠ '%' → p ≠ '_' → Text.fold p = Text.fold c → Takes p [c]

/-- The text can be cut into consecutive pieces of which each is taken by its character. -/
def Cuts (pattern text : List Char) : Prop :=
  ∃ pieces : List (List Char), pieces.flatten = text ∧ List.Forall₂ Takes pattern pieces

theorem cuts_nil {text : List Char} : Cuts [] text ↔ text = [] := by
  constructor
  · rintro ⟨_, rfl, ⟨⟩⟩
    rfl
  · rintro rfl
    exact ⟨[], rfl, .nil⟩

theorem cuts_cons {p : Char} {pattern text : List Char} : Cuts (p :: pattern) text ↔
    ∃ piece rest, text = piece ++ rest ∧ Takes p piece ∧ Cuts pattern rest := by
  constructor
  · rintro ⟨_, rfl, _ | ⟨hpiece, hpieces⟩⟩
    exact ⟨_, _, rfl, hpiece, _, rfl, hpieces⟩
  · rintro ⟨piece, _, rfl, hpiece, pieces, rfl, hpieces⟩
    exact ⟨piece :: pieces, rfl, .cons hpiece hpieces⟩

theorem takes_percent {piece : List Char} : Takes '%' piece := .run piece

theorem takes_low_line {piece : List Char} : Takes '_' piece ↔ ∃ c, piece = [c] := by
  constructor
  · rintro (_ | c | ⟨_, h, _⟩)
    · exact ⟨c, rfl⟩
    · exact absurd rfl h
  · rintro ⟨c, rfl⟩
    exact .one c

theorem takes_other {p : Char} (hrun : p ≠ '%') (hone : p ≠ '_') {piece : List Char} :
    Takes p piece ↔ ∃ c, piece = [c] ∧ Text.fold p = Text.fold c := by
  constructor
  · rintro (_ | c | ⟨_, _, h⟩)
    · exact absurd rfl hrun
    · exact absurd rfl hone
    · exact ⟨_, rfl, h⟩
  · rintro ⟨c, rfl, h⟩
    exact .alike hrun hone h

/-! ## Tables -/

/-- A table says of each suffix of a text whether something holds of it, the longest suffix first. -/
inductive Tabulates (P : List Char → Prop) : List Char → List Bool → Prop
  | nil {b : Bool} : (b = true ↔ P []) → Tabulates P [] [b]
  | cons {c : Char} {text : List Char} {b : Bool} {table : List Bool} :
      (b = true ↔ P (c :: text)) → Tabulates P text table → Tabulates P (c :: text) (b :: table)

namespace Tabulates

variable {P Q : List Char → Prop} {text : List Char} {table : List Bool}

theorem head (h : Tabulates P text table) : table.headD false = true ↔ P text := by
  cases h with
  | nil h => exact h
  | cons h _ => exact h

theorem congr (h : Tabulates P text table) (hPQ : ∀ suffix, P suffix ↔ Q suffix) :
    Tabulates Q text table := by
  induction h with
  | nil hb => exact .nil (hb.trans (hPQ _))
  | cons hb _ ih => exact .cons (hb.trans (hPQ _)) ih

theorem emptyTable (text : List Char) : Tabulates (· = []) text (emptyTable text) := by
  induction text with
  | nil => exact .nil (by simp)
  | cons c text ih => exact .cons (by simp) ih

/-- Some suffix that is not longer. -/
theorem anyShorter (h : Tabulates P text table) :
    Tabulates (fun suffix => ∃ piece rest, suffix = piece ++ rest ∧ P rest) text
      (anyShorter table) := by
  induction h with
  | nil hb =>
    refine .nil ?_
    simp [Like.anyShorter, hb]
  | @cons c text b table hb _ ih =>
    refine .cons ?_ ih
    rw [Bool.or_eq_true, hb, ih.head]
    constructor
    · rintro (h | ⟨piece, rest, rfl, h⟩)
      · exact ⟨[], _, rfl, h⟩
      · exact ⟨c :: piece, rest, rfl, h⟩
    · rintro ⟨_ | ⟨_, piece⟩, rest, heq, h⟩
      · exact .inl (heq ▸ h)
      · obtain ⟨_, rfl⟩ := List.cons.inj heq
        exact .inr ⟨piece, rest, rfl, h⟩

/-- One character that passes a test, and the suffix behind it. -/
theorem oneThen (h : Tabulates P text table) (test : Char → Bool) (f : Char → Char) :
    Tabulates (fun suffix => ∃ c rest, suffix = c :: rest ∧ test (f c) = true ∧ P rest) text
      (oneThen test (text.map f) table) := by
  induction h with
  | nil hb => exact .nil (by simp)
  | @cons c text b table hb hrest ih =>
    have htable : Like.oneThen test ((c :: text).map f) (b :: table) =
        (test (f c) && table.headD false) :: Like.oneThen test (text.map f) table := by
      cases hrest <;> rfl
    rw [htable]
    refine .cons ?_ ih
    rw [Bool.and_eq_true, hrest.head]
    constructor
    · rintro ⟨ht, hP⟩
      exact ⟨c, text, rfl, ht, hP⟩
    · rintro ⟨_, _, heq, ht, hP⟩
      obtain ⟨rfl, rfl⟩ := List.cons.inj heq
      exact ⟨ht, hP⟩

/-- One step reads one character of the pattern. -/
theorem step (h : Tabulates P text table) (p : Char) :
    Tabulates (fun suffix => ∃ piece rest, suffix = piece ++ rest ∧ Takes p piece ∧ P rest) text
      (step (text.map Text.fold) p table) := by
  unfold Like.step
  by_cases hrun : p = '%'
  · subst hrun
    rw [if_pos rfl]
    refine h.anyShorter.congr fun suffix => ?_
    simp only [takes_percent, true_and]
  · rw [if_neg hrun]
    by_cases hone : p = '_'
    · subst hone
      rw [if_pos rfl]
      refine (h.oneThen (fun _ => true) Text.fold).congr fun suffix => ?_
      simp only [takes_low_line, true_and]
      constructor
      · rintro ⟨c, rest, rfl, hP⟩
        exact ⟨[c], rest, rfl, ⟨c, rfl⟩, hP⟩
      · rintro ⟨_, rest, rfl, ⟨c, rfl⟩, hP⟩
        exact ⟨c, rest, rfl, hP⟩
    · rw [if_neg hone]
      refine (h.oneThen (fun c => Text.fold p == c) Text.fold).congr fun suffix => ?_
      simp only [takes_other hrun hone, beq_iff_eq]
      constructor
      · rintro ⟨c, rest, rfl, ht, hP⟩
        exact ⟨[c], rest, rfl, ⟨c, rfl, ht⟩, hP⟩
      · rintro ⟨_, rest, rfl, ⟨c, rfl, ht⟩, hP⟩
        exact ⟨c, rest, rfl, ht, hP⟩

end Tabulates

/-- The table of a pattern says of which suffixes the pattern can be cut. -/
theorem tabulates_table (pattern text : List Char) :
    Tabulates (Cuts pattern) text (table pattern (text.map Text.fold)) := by
  induction pattern with
  | nil =>
    have hempty : table [] (text.map Text.fold) = emptyTable text := by
      simp [table, emptyTable]
    rw [hempty]
    exact (Tabulates.emptyTable text).congr fun suffix => cuts_nil.symm
  | cons p pattern ih => exact (ih.step p).congr fun suffix => cuts_cons.symm

theorem takes_iff_cuts (pattern text : List Char) : takes pattern text = true ↔ Cuts pattern text :=
  (tabulates_table pattern text).head

/-! ## Regular expressions -/

/-- The parts of the regular expressions that patterns are written as. -/
inductive Part where
  | start
  | stop
  | any
  | anyRun
  | literal (c : Char)

/-- What a part takes of a text, behind what comes before and before what comes behind. The two
anchors take nothing, at the ends of the whole text and not at those of a line. A dot takes any
character, a line break too, and a letter is taken up to simple case folding. -/
def Part.Takes : Part → List Char → List Char → List Char → Prop
  | .start, before, piece, _ => before = [] ∧ piece = []
  | .stop, _, piece, behind => piece = [] ∧ behind = []
  | .any, _, piece, _ => piece.length = 1
  | .anyRun, _, _, _ => True
  | .literal p, _, piece, _ => piece.map Text.fold = [Text.fold p]

/-- The parts take one piece after the other, up to anywhere. -/
def Consumes : List Part → List Char → List Char → Prop
  | [], _, _ => True
  | part :: parts, before, rest => ∃ piece behind, rest = piece ++ behind ∧
      part.Takes before piece behind ∧ Consumes parts (before ++ piece) behind

/-- The parts take consecutive pieces somewhere in a text. -/
def Found (parts : List Part) (text : List Char) : Prop :=
  ∃ before rest, text = before ++ rest ∧ Consumes parts before rest

/-- A matcher of regular expressions, ignoring case and with a dot for line breaks too: how it writes
a character that is to be taken literally, and whether it finds an expression in a text. It has no
answer if it cannot build the expression. -/
structure Matcher where
  escape : Char → List Char
  find? : List Char → List Char → Option Bool

namespace Matcher

variable (m : Matcher)

def partText : Part → List Char
  | .start => "^".toList
  | .stop => "$".toList
  | .any => ".".toList
  | .anyRun => ".*".toList
  | .literal c => m.escape c

/-- An expression that is written from parts can be built, and it is found where the parts are. -/
def Documented : Prop :=
  ∀ parts text, ∃ found, m.find? (parts.flatMap m.partText) text = some found ∧
    (found = true ↔ Found parts text)

/-- A pattern as a regular expression: its characters one after the other, between the anchors. -/
def expression (pattern : List Char) : List Char :=
  "^".toList ++ pattern.flatMap (fun c =>
    if c = '%' then ".*".toList else if c = '_' then ".".toList else m.escape c) ++ "$".toList

/-- Whether a field is found to show a text that a pattern takes. An absent field is not. -/
def likes (field : Option Value) (pattern : String) : Option Bool :=
  match field with
  | none => some false
  | some value => m.find? (m.expression pattern.toList) value.shownChars

end Matcher

/-- The part that is written for a character of a pattern. -/
def partOf (c : Char) : Part :=
  if c = '%' then .anyRun else if c = '_' then .any else .literal c

def partsOf (pattern : List Char) : List Part := .start :: pattern.map partOf ++ [.stop]

theorem Matcher.expression_eq (m : Matcher) (pattern : List Char) :
    m.expression pattern = (partsOf pattern).flatMap m.partText := by
  have hpart : ∀ c, (if c = '%' then ".*".toList else if c = '_' then ".".toList
      else m.escape c) = m.partText (partOf c) := by
    intro c
    unfold partOf
    split
    · rfl
    · split <;> rfl
  simp only [expression, hpart, partsOf, List.cons_append, List.flatMap_cons, List.flatMap_append,
    List.flatMap_map, List.flatMap_nil, List.append_nil, List.append_assoc]
  rfl

theorem partOf_takes_iff {c : Char} {before piece behind : List Char} :
    (partOf c).Takes before piece behind ↔ Takes c piece := by
  unfold partOf
  by_cases hrun : c = '%'
  · subst hrun
    exact iff_of_true trivial takes_percent
  · rw [if_neg hrun]
    by_cases hone : c = '_'
    · subst hone
      rw [if_pos rfl, takes_low_line]
      exact List.length_eq_one_iff
    · rw [if_neg hone, takes_other hrun hone, Part.Takes, List.map_eq_singleton_iff]
      simp only [eq_comm]

/-- Up to the end of the text, the parts of a pattern take what the pattern takes. -/
theorem consumes_iff_cuts {pattern before rest : List Char} :
    Consumes (pattern.map partOf ++ [.stop]) before rest ↔ Cuts pattern rest := by
  induction pattern generalizing before rest with
  | nil =>
    rw [cuts_nil]
    constructor
    · rintro ⟨_, _, rfl, ⟨rfl, rfl⟩, _⟩
      rfl
    · rintro rfl
      exact ⟨[], [], rfl, ⟨rfl, rfl⟩, trivial⟩
  | cons c pattern ih =>
    rw [cuts_cons, List.map_cons, List.cons_append, Consumes]
    simp only [partOf_takes_iff, ih]

/-- The parts of a pattern are found in the texts that the pattern takes. -/
theorem found_iff_cuts {pattern text : List Char} :
    Found (partsOf pattern) text ↔ Cuts pattern text := by
  constructor
  · rintro ⟨_, _, rfl, _, behind, rfl, ⟨rfl, rfl⟩, hrest⟩
    exact consumes_iff_cuts.mp hrest
  · intro h
    exact ⟨[], text, rfl, [], text, rfl, ⟨rfl, rfl⟩, consumes_iff_cuts.mpr h⟩

/-! ## A plain matcher -/

instance : (part : Part) → (before piece behind : List Char) →
    Decidable (part.Takes before piece behind)
  | .start, before, piece, _ => inferInstanceAs (Decidable (before = [] ∧ piece = []))
  | .stop, _, piece, behind => inferInstanceAs (Decidable (piece = [] ∧ behind = []))
  | .any, _, piece, _ => inferInstanceAs (Decidable (piece.length = 1))
  | .anyRun, _, _, _ => isTrue trivial
  | .literal p, _, piece, _ => inferInstanceAs (Decidable (piece.map Text.fold = [Text.fold p]))

/-- A text is cut in two at one of its positions. -/
theorem exists_append_iff (P : List Char → List Char → Prop) (text : List Char) :
    (∃ n < text.length + 1, P (text.take n) (text.drop n)) ↔
      ∃ piece behind, text = piece ++ behind ∧ P piece behind := by
  constructor
  · rintro ⟨n, _, h⟩
    exact ⟨_, _, (List.take_append_drop n text).symm, h⟩
  · rintro ⟨piece, behind, rfl, h⟩
    have hlt : piece.length < (piece ++ behind).length + 1 := by
      rw [List.length_append]
      omega
    refine ⟨piece.length, hlt, ?_⟩
    rwa [List.take_left, List.drop_left]

instance decidableConsumes : (parts : List Part) → (before rest : List Char) →
    Decidable (Consumes parts before rest)
  | [], _, _ => isTrue trivial
  | part :: parts, before, rest =>
    have (before rest : List Char) := decidableConsumes parts before rest
    decidable_of_iff _ (exists_append_iff (fun piece behind =>
      part.Takes before piece behind ∧ Consumes parts (before ++ piece) behind) rest)

instance (parts : List Part) (text : List Char) : Decidable (Found parts text) :=
  decidable_of_iff (∃ n < text.length + 1, Consumes parts (text.take n) (text.drop n))
    (exists_append_iff (Consumes parts) text)

/-- The characters that mean something in an expression. -/
def metaCharacters : List Char := "\\.+*?()|[]\x7b\x7d^$#&-~".toList

/-- The parts of an expression that is built from nothing but them. -/
def readParts? : List Char → Option (List Part)
  | [] => some []
  | '\\' :: c :: rest => (readParts? rest).map (.literal c :: ·)
  | '^' :: rest => (readParts? rest).map (.start :: ·)
  | '$' :: rest => (readParts? rest).map (.stop :: ·)
  | '.' :: '*' :: rest => (readParts? rest).map (.anyRun :: ·)
  | '.' :: rest => (readParts? rest).map (.any :: ·)
  | c :: rest => if c ∈ metaCharacters then none else (readParts? rest).map (.literal c :: ·)

/-- A character that is taken literally, with a backslash if it would mean something. -/
def escaped (c : Char) : List Char := if c ∈ metaCharacters then ['\\', c] else [c]

/-- A matcher that can build no other expressions, and tries every way to cut a text. -/
def plainMatcher : Matcher :=
  ⟨escaped, fun expression text =>
    (readParts? expression).map fun parts => decide (Found parts text)⟩

theorem readParts?_escaped (c : Char) (rest : List Char) :
    readParts? (escaped c ++ rest) = (readParts? rest).map (.literal c :: ·) := by
  unfold escaped
  by_cases hc : c ∈ metaCharacters
  · rw [if_pos hc]
    rfl
  · have hne : ∀ d ∈ metaCharacters, c = d → False := fun d hd h => hc (h ▸ hd)
    rw [if_neg hc, List.singleton_append, readParts?, if_neg hc]
    -- None of the rows before the last one is for such a character.
    · exact fun _ _ h _ => hne _ (by decide) h
    · exact hne _ (by decide)
    · exact hne _ (by decide)
    · exact fun _ h _ => hne _ (by decide) h
    · exact hne _ (by decide)

theorem head?_flatMap_partText (parts : List Part) :
    (parts.flatMap plainMatcher.partText).head? ≠ some '*' := by
  cases parts with
  | nil => simp
  | cons part parts =>
    cases part with
    | literal c =>
      change (escaped c ++ _).head? ≠ _
      unfold escaped
      by_cases hc : c ∈ metaCharacters
      · simp [hc]
      · rw [if_neg hc]
        rintro h
        obtain rfl : c = '*' := by simpa using h
        exact hc (by decide)
    | _ => simp [Matcher.partText]

theorem readParts?_flatMap_partText (parts : List Part) :
    readParts? (parts.flatMap plainMatcher.partText) = some parts := by
  induction parts with
  | nil => rfl
  | cons part parts ih =>
    have hstar := head?_flatMap_partText parts
    rw [List.flatMap_cons]
    generalize parts.flatMap plainMatcher.partText = rest at ih hstar
    cases part with
    | start => simp [Matcher.partText, readParts?, ih]
    | stop => simp [Matcher.partText, readParts?, ih]
    | anyRun => simp [Matcher.partText, readParts?, ih]
    | any =>
      change readParts? ('.' :: rest) = _
      rw [readParts?, ih]
      · rfl
      · rintro _ rfl
        exact hstar rfl
    | literal c =>
      change readParts? (escaped c ++ rest) = _
      rw [readParts?_escaped, ih]
      rfl

theorem documented_plainMatcher : plainMatcher.Documented := by
  intro parts text
  refine ⟨decide (Found parts text), ?_, decide_eq_true_iff⟩
  change (readParts? _).map _ = _
  rw [readParts?_flatMap_partText]
  rfl

/-! ## Conditions -/

/-- A LIKE condition always has an answer. It holds exactly when the field is there and the text that
it shows can be cut into consecutive pieces, one for each character of the pattern. A matcher that
keeps to its documentation has the same answer about the pattern as a regular expression. -/
theorem like_cuts_shown_text {m : Matcher} (hm : m.Documented) (record : Record)
    (column pattern : String) :
    ∃ holds, Condition.eval record ⟨column, .like, pattern⟩ = .ok holds ∧
      m.likes (record.find? column) pattern = some holds ∧
      (holds = true ↔ ∃ value, record.find? column = some value ∧
        ∃ pieces : List (List Char), pieces.flatten = value.shownChars ∧
          List.Forall₂ Takes pattern.toList pieces) := by
  cases hfield : record.find? column with
  | none =>
    refine ⟨false, ?_, rfl, by simp⟩
    simp only [Condition.eval, hfield]
  | some value =>
    refine ⟨takes pattern.toList value.shownChars, ?_, ?_, ?_⟩
    · simp only [Condition.eval, hfield]
    · obtain ⟨found, hfound, hiff⟩ := hm (partsOf pattern.toList) value.shownChars
      rw [found_iff_cuts, ← takes_iff_cuts, ← Bool.eq_iff_iff] at hiff
      rw [Matcher.likes, m.expression_eq, hfound, hiff]
    · rw [takes_iff_cuts]
      simp only [Option.some.injEq, exists_eq_left', Cuts]

def notedRecord : Record := .ofList [("note", .text "Sum (a+b)\nis A.")]

/-- They are taken literally and up to case, and a run goes on behind the end of a line. -/
theorem like_cuts_shown_text_lines :
    plainMatcher.Documented ∧
      Condition.eval notedRecord ⟨"note", .like, "sum (_+B)%."⟩ = .ok true ∧
      plainMatcher.likes (notedRecord.find? "note") "sum (_+B)%." = some true ∧
      ∃ value, notedRecord.find? "note" = some value ∧
        ∃ pieces : List (List Char), pieces.flatten = value.shownChars ∧
          List.Forall₂ Takes "sum (_+B)%.".toList pieces := by
  obtain ⟨holds, heval, hlikes, hcuts⟩ :=
    like_cuts_shown_text documented_plainMatcher notedRecord "note" "sum (_+B)%."
  have hholds : Condition.eval notedRecord ⟨"note", .like, "sum (_+B)%."⟩ = .ok true := by
    decide +kernel
  obtain rfl := Except.ok.inj (heval.symm.trans hholds)
  exact ⟨documented_plainMatcher, hholds, hlikes, hcuts.mp rfl⟩

end Rowfile.Like
