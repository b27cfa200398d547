import Rowfile.Statement.Masked

/-!
# Cutting a text into pieces

A text is cut at a separator that stands outside quotes and parentheses, at blanks that do, or at a
keyword that stands outside quotes between blanks. A closing parenthesis that was never opened is
passed over. Each cut is made on the masked text and the pieces are read back from it.
-/
namespace Rowfile.Split

open Masked

def nesting (depth : Nat) (cell : Cell) : Nat :=
  if cell.shown = '(' then depth + 1 else if cell.shown = ')' then depth - 1 else depth

def isParenthesis (cell : Cell) : Bool := cell.shown == '(' || cell.shown == ')'

/-- The piece before the first separator outside parentheses, and the pieces after it. -/
def piecesFrom (separator : Char) : Nat → List Cell → List Cell × List (List Cell)
  | _, [] => ([], [])
  | depth, cell :: r =>
    if !isParenthesis cell && cell.shown == separator && depth == 0 then
      let (piece, pieces) := piecesFrom separator 0 r
      ([], piece :: pieces)
    else
      let (piece, pieces) := piecesFrom separator (nesting depth cell) r
      (cell :: piece, pieces)

/-- Pieces read back to their characters, without the blanks around them. -/
def readTrimmed? (pieces : List (List Cell)) : Option (List (List Char)) :=
  pieces.mapM fun piece => (read? piece).map Text.trim

/-- The trimmed pieces of a text between separators outside quotes and parentheses. A blank text has
no pieces. -/
def atSeparator? (separator : Char) (text : List Char) : Option (List (List Char)) :=
  let (piece, pieces) := piecesFrom separator 0 (mask text)
  (readTrimmed? (piece :: pieces)).map fun pieces => if pieces = [[]] then [] else pieces

/-- A token in front of others, unless it is empty. -/
def consToken (token : List Cell) (tokens : List (List Cell)) : List (List Cell) :=
  if token.isEmpty then tokens else token :: tokens

/-- The rest of the token that a text begins in, and the tokens after it. -/
def tokensFrom : Nat → List Cell → List Cell × List (List Cell)
  | _, [] => ([], [])
  | depth, cell :: r =>
    if cell.isBlank && depth == 0 then
      let (token, tokens) := tokensFrom 0 r
      ([], consToken token tokens)
    else
      let (token, tokens) := tokensFrom (nesting depth cell) r
      (cell :: token, tokens)

/-- The pieces of a text between blanks outside quotes and parentheses. -/
def atBlanks? (text : List Char) : Option (List (List Char)) :=
  let (token, tokens) := tokensFrom 0 (mask text)
  (consToken token tokens).mapM read?

/-- The cell shows a blank of plain text. -/
def isAsciiBlank (cell : Cell) : Bool := Text.isAsciiBlank cell.shown

/-- What becomes of the next cells of an occurrence of a keyword: they stay in the piece, or they are
left out because the keyword separates. -/
inductive Pending where
  | stay (count : Nat)
  | leave (count : Nat)
  deriving DecidableEq, Repr

/-- The rest of the piece that a text begins in, and the pieces after it. `blankBefore` says that the
cell before shows a blank; an occurrence of the keyword that has begun is pending. Occurrences are
found from the left and do not overlap, and one separates if a blank stands on either side. -/
def partsFrom (keyword : List Char) (blankBefore : Bool) :
    Pending → List Cell → List Cell × List (List Cell)
  | _, [] => ([], [])
  | .leave (count + 1), cell :: r => partsFrom keyword (isAsciiBlank cell) (.leave count) r
  | .stay (count + 1), cell :: r =>
    let (part, parts) := partsFrom keyword (isAsciiBlank cell) (.stay count) r
    (cell :: part, parts)
  | .leave 0, cell :: r | .stay 0, cell :: r =>
    if starts Char.toUpper keyword (cell :: r) then
      if blankBefore && ((cell :: r).drop keyword.length).head?.any isAsciiBlank then
        let (part, parts) :=
          partsFrom keyword (isAsciiBlank cell) (.leave (keyword.length - 1)) r
        ([], part :: parts)
      else
        let (part, parts) :=
          partsFrom keyword (isAsciiBlank cell) (.stay (keyword.length - 1)) r
        (cell :: part, parts)
    else
      let (part, parts) := partsFrom keyword (isAsciiBlank cell) (.stay 0) r
      (cell :: part, parts)

/-- The trimmed pieces of a text between occurrences of a keyword that stand outside quotes and
between blanks. -/
def atKeyword? (keyword text : List Char) : Option (List (List Char)) :=
  let (part, parts) := partsFrom keyword false (.stay 0) (mask text)
  readTrimmed? (part :: parts)

end Rowfile.Split
