import Rowfile.Text.Class
import Rowfile.Text.Utf8

/-!
# Masked text

Statements are recognised on a copy of their text in which every character of a quoted span, the
quotes included, is covered by filler, one filler for each octet of the character. A keyword, comma
or operator within a literal is then never seen. The copy is a list of cells: a plain cell shows its
character, all others show the low line. A slice of cells is read back to the characters it covers,
which fails if a cut fell inside a character.
-/
namespace Rowfile

inductive Cell where
  /-- A character outside quotes. -/
  | plain (c : Char)
  /-- The first octet of a quoted character. -/
  | filler (c : Char)
  /-- A later octet of a quoted character. -/
  | tail
  deriving DecidableEq, Repr

namespace Cell

def shown : Cell → Char
  | .plain c => c
  | _ => '_'

def width : Cell → Nat
  | .plain c => Text.Utf8.width c
  | _ => 1

def isBlank (cell : Cell) : Bool := Text.isBlank cell.shown

/-- The cell shows a word character. Filler counts as one. -/
def isWord (cell : Cell) : Bool := Text.isWord cell.shown

@[simp] theorem shown_plain (c : Char) : (plain c).shown = c := rfl

@[simp] theorem shown_filler (c : Char) : (filler c).shown = '_' := rfl

@[simp] theorem shown_tail : tail.shown = '_' := rfl

end Cell

def isQuote (c : Char) : Bool := c == '\x27' || c == '"'

namespace Masked

def fill (c : Char) : List Cell :=
  .filler c :: List.replicate (Text.Utf8.width c - 1) .tail

/-- The cells of a text that starts outside quotes or within an open one. -/
def maskFrom : Option Char → List Char → List Cell
  | _, [] => []
  | none, c :: cs =>
    if isQuote c then fill c ++ maskFrom (some c) cs else .plain c :: maskFrom none cs
  | some quote, c :: cs =>
    fill c ++ maskFrom (if c = quote then none else some quote) cs

/-- The cells of a text. A quote that is never closed covers the rest. -/
def mask (cs : List Char) : List Cell := maskFrom none cs

def shown (cells : List Cell) : List Char := cells.map Cell.shown

def width (cells : List Cell) : Nat := cells.foldr (fun cell total => cell.width + total) 0

/-- The characters that cells cover, after some number of octets that still belong to the character
before them. -/
def readFrom? : Nat → List Cell → Option (List Char)
  | 0, [] => some []
  | 0, .plain c :: r => (readFrom? 0 r).map (c :: ·)
  | 0, .filler c :: r => (readFrom? (Text.Utf8.width c - 1) r).map (c :: ·)
  | owed + 1, .tail :: r => readFrom? owed r
  | _, _ => none

/-- The characters that cells cover, if no character is covered in part. -/
def read? (cells : List Cell) : Option (List Char) := readFrom? 0 cells

@[simp] theorem mask_nil : mask [] = [] := rfl

@[simp] theorem read?_nil : read? [] = some [] := rfl

theorem readFrom?_replicate_tail (n : Nat) (cells : List Cell) :
    readFrom? n (List.replicate n .tail ++ cells) = readFrom? 0 cells := by
  induction n with
  | zero => rfl
  | succ n ih => simpa [List.replicate_succ, readFrom?] using ih

theorem read?_fill_append (c : Char) (cells : List Cell) :
    read? (fill c ++ cells) = (read? cells).map (c :: ·) := by
  simp [read?, fill, readFrom?, readFrom?_replicate_tail]

theorem read?_maskFrom (quote : Option Char) (cs : List Char) :
    read? (maskFrom quote cs) = some cs := by
  induction cs generalizing quote with
  | nil => cases quote <;> rfl
  | cons c cs ih =>
    cases quote with
    | none =>
      simp only [maskFrom]
      split
      · simp [read?_fill_append, ih]
      · have := ih none
        simp only [read?] at this
        simp [read?, readFrom?, this]
    | some quote => simp [maskFrom, read?_fill_append, ih]

/-- Masking loses nothing. -/
@[simp]
theorem read?_mask (cs : List Char) : read? (mask cs) = some cs := read?_maskFrom none cs

/-- The cells begin by showing a word, letters being changed by `letter` before they are compared. -/
def starts (letter : Char → Char) : List Char → List Cell → Bool
  | [], _ => true
  | _ :: _, [] => false
  | c :: word, cell :: r => letter c == letter cell.shown && starts letter word r

/-- The cells before and after the first place where a word is shown, letters being changed by
`letter` before they are compared. -/
def breakAt? (letter : Char → Char) (word : List Char) : List Cell →
    Option (List Cell × List Cell)
  | [] => if word.isEmpty then some ([], []) else none
  | cell :: r =>
    if starts letter word (cell :: r) then
      some ([], (cell :: r).drop word.length)
    else (breakAt? letter word r).map fun (before, rest) => (cell :: before, rest)

/-- The octet at which a word is first shown outside quotes. -/
def find? (word text : List Char) : Option Nat :=
  (breakAt? id word (mask text)).map fun cut => width cut.1

/-- The octet at which a word is first shown outside quotes, up to the case of the letters A to Z. -/
def findUpToCase? (word text : List Char) : Option Nat :=
  (breakAt? Char.toUpper word (mask text)).map fun cut => width cut.1

end Masked

end Rowfile
