import Rowfile.Statement.Masked
import Rowfile.Text.Folding

/-!
# Recognising parts of a statement

Small recognisers over masked text from which the statement forms are put together. Each takes its
part from the front of the cells and returns the rest. Keywords are recognised up to simple case
folding, blanks and words are those of any script, and a part is as long as it can be.
-/
namespace Rowfile.Pattern

def skipBlanks (cells : List Cell) : List Cell := cells.dropWhile Cell.isBlank

/-- The cells after the blanks at the front, of which there is at least one. -/
def blanks? (cells : List Cell) : Option (List Cell) :=
  if cells.head?.any Cell.isBlank then some (skipBlanks cells) else none

def keyword? : List Char → List Cell → Option (List Cell)
  | [], cells => some cells
  | _ :: _, [] => none
  | c :: word, cell :: r => if Text.foldEq c cell.shown then keyword? word r else none

/-- The word at the front, which has at least one cell, and the cells after it. -/
def word? (cells : List Cell) : Option (List Cell × List Cell) :=
  match cells.takeWhile Cell.isWord with
  | [] => none
  | word => some (word, cells.dropWhile Cell.isWord)

/-- The number at the front, which has at least one digit, and the cells after it. -/
def number? (cells : List Cell) : Option (List Cell × List Cell) :=
  let isDigit (cell : Cell) : Bool := Text.isDigit cell.shown
  match cells.takeWhile isDigit with
  | [] => none
  | ds => some (ds, cells.dropWhile isDigit)

def char? (c : Char) : List Cell → Option (List Cell)
  | [] => none
  | cell :: r => if cell.shown = c then some r else none

def atWordEnd (cells : List Cell) : Bool := !cells.head?.any Cell.isWord

/-- The cells after two keywords with blanks between them. -/
def keywords? (first second : List Char) (cells : List Cell) : Option (List Cell) :=
  (keyword? first cells).bind fun r => (blanks? r).bind (keyword? second)

def atEnd (cells : List Cell) : Bool := (skipBlanks cells).isEmpty

/-- The word after blanks, with only blanks after it. -/
def lastWord? (cells : List Cell) : Option (List Cell) :=
  (blanks? cells).bind fun r => (word? r).bind fun (word, r) =>
    if atEnd r then some word else none

/-- What stands before the last occurrence of a character. -/
def beforeLast? (c : Char) : List Cell → Option (List Cell)
  | [] => none
  | cell :: r =>
    match beforeLast? c r with
    | some body => some (cell :: body)
    | none => if cell.shown = c then some [] else none

/-- What stands before the first occurrence of a character, and the cells after it. -/
def beforeFirst? (c : Char) : List Cell → Option (List Cell × List Cell)
  | [] => none
  | cell :: r =>
    if cell.shown = c then some ([], r)
    else (beforeFirst? c r).map fun (body, rest) => (cell :: body, rest)

/-- A body in parentheses that ends with the last closing one. -/
def outerBody? (cells : List Cell) : Option (List Cell) :=
  (char? '(' cells).bind (beforeLast? ')')

/-- The blanks at the front of the cells and at least one more cell after them: the rest as a
clause. If there are blanks only, the last of them is the clause. -/
def clause? (cells : List Cell) : Option (List Cell) :=
  match cells.takeWhile Cell.isBlank, skipBlanks cells with
  | [], _ => none
  | _ :: _, cell :: r => some (cell :: r)
  | [_], [] => none
  | _ :: blank :: r, [] => some ((blank :: r).drop r.length)

/-- What a recogniser finds at the first place that is not preceded by a word character. -/
def search? {α : Type} (find? : List Cell → Option α) (wordBefore : Bool) :
    List Cell → Option α
  | [] => if wordBefore then none else find? []
  | cell :: r =>
    match if wordBefore then none else find? (cell :: r) with
    | some found => some found
    | none => search? find? cell.isWord r

/-- The first blanks that a keyword and its clause follow: what stands before these blanks, which
ends with some other cell, and the clause. -/
def clauseAfter? (keyword : List Char) : List Cell → Option (List Cell × List Cell)
  | [] => none
  | cell :: r =>
    match if cell.isBlank then none else ((blanks? r).bind (keyword? keyword)).bind clause? with
    | some clause => some ([cell], clause)
    | none => (clauseAfter? keyword r).map fun (before, clause) => (cell :: before, clause)

end Rowfile.Pattern
