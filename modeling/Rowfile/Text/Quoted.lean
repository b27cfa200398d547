import Rowfile.Text.Hidden

/-!
# Quoted texts

A text between double quotes on one line. The quote and the backslash are written behind a backslash,
four control characters have a letter of their own, and a character that shows nothing by itself is
written as its code point.
-/
namespace Rowfile.Text

def codePoint (c : Char) : List Char :=
  ['\\', 'u', '\x7b'] ++ Nat.toDigits 16 c.toNat ++ ['\x7d']

def quotedChar (c : Char) : List Char :=
  if c == '"' then ['\\', '"']
  else if c == '\\' then ['\\', '\\']
  else if c == '\n' then ['\\', 'n']
  else if c == '\t' then ['\\', 't']
  else if c == '\x0d' then ['\\', 'r']
  else if c == '\x00' then ['\\', '0']
  else if isHidden c then codePoint c
  else [c]

def quoted (cs : List Char) : List Char := '"' :: cs.flatMap quotedChar ++ ['"']

@[simp] theorem quoted_nil : quoted [] = ['"', '"'] := rfl

end Rowfile.Text
