import Rowfile.Value.Basic

/-!
# Literals

How a token of a statement is read as a value. A quoted token is a text whatever it holds; after
that come the two truth values, the integers of 64 bits, and decimals with at most one point. All
else, a sign included, is a text as it stands.
-/
namespace Rowfile

/-- What stands between two equal quotes, if the token starts and ends with one. -/
def stripQuotes? : List Char → Option (List Char)
  | q :: c :: cs =>
    if (q == '\x27' || q == '"') && (c :: cs).getLast? == some q then some (c :: cs).dropLast else none
  | _ => none

/-- A token without the blanks around it and then without the quotes around it. -/
def unquote (token : List Char) : List Char :=
  (stripQuotes? (Text.trim token)).getD (Text.trim token)

/-- At least one digit, and nothing else. -/
def isDigits (cs : List Char) : Bool := !cs.isEmpty && cs.all Text.isAsciiDigit

def Value.ofLiteral (raw : List Char) : Value :=
  let token := Text.trim raw
  let asText := Value.text (String.ofList token)
  match stripQuotes? token with
  | some inner => .text (String.ofList inner)
  | none =>
    if Text.asciiCaseEq token "TRUE".toList then .boolean true
    else if Text.asciiCaseEq token "FALSE".toList then .boolean false
    else
      match if isDigits token then int64? (ofDigits token) else none with
      | some n => .integer n
      | none =>
        if isDigits (token.erase '.') then
          match Binary64.read? token with
          | some x => if x.isFinite then .float x else asText
          | none => asText
        else asText

end Rowfile
