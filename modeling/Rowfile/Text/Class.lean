import Rowfile.Text.Property

/-!
# Classes of characters

Blanks, digits, word characters and name characters, for every script. Word characters are the ones
that a bareword in a statement is made of; listed column names are checked against name characters.
These leave out marks, joiners and most connectors, and they include the letters and numbers that
the seventeenth edition of the character standard adds, which digits and word characters do not.
Trimming removes blanks from the two ends of a text.
-/
namespace Rowfile.Text

def isBlank (c : Char) : Bool := Property.whiteSpace.has c.toNat

def isDigit (c : Char) : Bool := Property.decimalDigit.has c.toNat

/-- One of the ten digits of arithmetic notation. -/
def isAsciiDigit (c : Char) : Bool := '0' ≤ c && c ≤ '9'

/-- The blanks of plain text: space, tab, line feed, form feed and carriage return. -/
def isAsciiBlank (c : Char) : Bool :=
  c == ' ' || c == '\t' || c == '\n' || c == '\x0c' || c == '\x0d'

/-- A letter, mark, digit, joiner or connector: what a bareword is made of. -/
def isWord (c : Char) : Bool :=
  if c.toNat < 128 then c.isAlphanum || c == '_'
  else
    let n := c.toNat
    Property.alphabetic.has n || Property.mark.has n || Property.decimalDigit.has n ||
      Property.connector.has n || n == 0x200C || n == 0x200D

/-- A letter or number of any script, or the low line. -/
def isName (c : Char) : Bool :=
  if c.toNat < 128 then c.isAlphanum || c == '_'
  else
    let n := c.toNat
    Property.alphabetic.has n || Property.decimalDigit.has n || Property.otherNumber.has n ||
      Property.added.has n

def trimStart (cs : List Char) : List Char := cs.dropWhile isBlank

def trimEnd (cs : List Char) : List Char := (cs.reverse.dropWhile isBlank).reverse

def trim (cs : List Char) : List Char := trimEnd (trimStart cs)

/-- Equal up to the case of the letters A to Z. -/
def asciiCaseEq (cs ds : List Char) : Bool := cs.map Char.toUpper == ds.map Char.toUpper

@[simp] theorem isBlank_space : isBlank ' ' = true := by decide

@[simp] theorem isWord_lowLine : isWord '_' = true := by decide

@[simp] theorem isBlank_lowLine : isBlank '_' = false := by decide

@[simp] theorem trimStart_nil : trimStart [] = [] := rfl

@[simp] theorem trimEnd_nil : trimEnd [] = [] := rfl

@[simp] theorem trim_nil : trim [] = [] := rfl

end Rowfile.Text
