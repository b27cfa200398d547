import Rowfile.Binary64.Shortest
import Rowfile.Json.Basic

/-!
# Writing documents

A document is written on one line without blanks, or indented by two spaces for each level. Within a
text only the quote, the backslash and the control characters are escaped.
-/
namespace Rowfile.Json

/-- The hexadecimal digits of a number below 256. -/
def hexPair (n : Nat) : List Char := [Nat.digitChar (n / 16 % 16), Nat.digitChar (n % 16)]

def escape (c : Char) : List Char :=
  if c == '"' then ['\\', '"']
  else if c == '\\' then ['\\', '\\']
  else if c == '\x08' then ['\\', 'b']
  else if c == '\t' then ['\\', 't']
  else if c == '\n' then ['\\', 'n']
  else if c == '\x0c' then ['\\', 'f']
  else if c == '\x0d' then ['\\', 'r']
  else if c.toNat < 0x20 then ['\\', 'u', '0', '0'] ++ hexPair c.toNat
  else [c]

def quoted (s : String) : List Char := '"' :: s.toList.flatMap escape ++ ['"']

/-- How a document is spread over lines: not at all, or indented at some depth. -/
inductive Layout where
  | compact
  | indented (depth : Nat)
  deriving DecidableEq, Repr

namespace Layout

def inner : Layout → Layout
  | .compact => .compact
  | .indented depth => .indented (depth + 1)

/-- What stands before an item that begins a line. -/
def lineBreak : Layout → List Char
  | .compact => []
  | .indented depth => '\n' :: List.replicate (2 * depth) ' '

def colon : Layout → List Char
  | .compact => [':']
  | .indented _ => [':', ' ']

end Layout

mutual

def render (layout : Layout) : Json → List Char
  | .null | .unreadable => "null".toList
  | .boolean b => if b then "true".toList else "false".toList
  | .integer n => intText n
  | .number negative place => Binary64.jsonText negative place.val
  | .text s => quoted s
  | .array [] => ['[', ']']
  | .array (item :: items) =>
    '[' :: layout.inner.lineBreak ++ render layout.inner item ++
      renderItems layout.inner items ++ layout.lineBreak ++ [']']
  | .object [] => ['{', '}']
  | .object ((name, value) :: fields) =>
    '{' :: layout.inner.lineBreak ++ quoted name ++ layout.colon ++ render layout.inner value ++
      renderFields layout.inner fields ++ layout.lineBreak ++ ['}']

def renderItems (layout : Layout) : List Json → List Char
  | [] => []
  | item :: items =>
    ',' :: layout.lineBreak ++ render layout item ++ renderItems layout items

def renderFields (layout : Layout) : List (String × Json) → List Char
  | [] => []
  | (name, value) :: fields =>
    ',' :: layout.lineBreak ++ quoted name ++ layout.colon ++ render layout value ++
      renderFields layout fields

end

def compact (document : Json) : String := String.ofList (render .compact document)

end Rowfile.Json
