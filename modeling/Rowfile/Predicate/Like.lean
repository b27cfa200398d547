import Rowfile.Text.Folding

/-!
# Patterns

A LIKE pattern is matched against a whole text: `%` takes any run of characters, `_` takes one, and
every other character takes one that is equal to it up to simple case folding. The text is folded
first. The pattern is then read from its end. For the part read so far, a table says which suffixes of
the text it takes, the longest suffix first, so a match is found in time proportional to pattern times
text.
-/
namespace Rowfile.Like

/-- For each suffix of a table, some suffix not longer than it is taken. -/
def anyShorter : List Bool → List Bool
  | [] => []
  | b :: rest =>
    let shorter := anyShorter rest
    (b || shorter.headD false) :: shorter

/-- A suffix is taken if its first character passes a test and the suffix behind it was taken. -/
def oneThen (test : Char → Bool) (text : List Char) (table : List Bool) : List Bool :=
  List.zipWith (fun c taken => test c && taken) text table.tail ++ [false]

/-- The suffixes that the empty pattern takes: the empty one alone. -/
def emptyTable (text : List Char) : List Bool := List.replicate text.length false ++ [true]

/-- The table for a pattern on a folded text from the one for the pattern behind its first
character. -/
def step (text : List Char) (p : Char) (table : List Bool) : List Bool :=
  if p = '%' then anyShorter table
  else if p = '_' then oneThen (fun _ => true) text table
  else
    let folded := Text.fold p
    oneThen (fun c => folded == c) text table

/-- The suffixes of a folded text that a pattern takes, the longest first. -/
def table (pattern text : List Char) : List Bool := pattern.foldr (step text) (emptyTable text)

def takes (pattern text : List Char) : Bool := (table pattern (text.map Text.fold)).headD false

end Rowfile.Like
