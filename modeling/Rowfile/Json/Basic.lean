import Rowfile.Binary64.Basic

/-!
# JSON documents

A document as a tree. Numbers are integers or finite double-precision numbers; the fields of an
object keep their order and may repeat. A leaf whose writing is right but which names nothing (a
number beyond every finite one, a text with half a surrogate pair) is kept as `unreadable`: it does
no harm where nobody asks for it.
-/
namespace Rowfile

inductive Json where
  | null
  | boolean (b : Bool)
  | integer (n : Int)
  | number (negative : Bool) (place : Fin 0x7FF0000000000000)
  | text (s : String)
  | array (items : List Json)
  | object (fields : List (String × Json))
  | unreadable
  deriving Repr

namespace Json

def text? : Json → Option String
  | .text s => some s
  | _ => none

def boolean? : Json → Option Bool
  | .boolean b => some b
  | _ => none

def items? : Json → Option (List Json)
  | .array items => some items
  | _ => none

def fields? : Json → Option (List (String × Json))
  | .object fields => some fields
  | _ => none

/-- The named parts of a document: the fields of an object, or the items of an array that lists the
parts in the order of their names and may leave out some at the end. -/
def parts? (names : List String) : Json → Option (List (String × Json))
  | .object fields => some fields
  | .array items => if items.length ≤ names.length then some (names.zip items) else none
  | _ => none

/-- The value of a field that may occur at most once: nothing if it is absent, and no answer if it
is repeated. -/
def soleField? (name : String) (fields : List (String × Json)) : Option (Option Json) :=
  match fields.filter fun field => field.1 == name with
  | [] => some none
  | [field] => some (some field.2)
  | _ => none

@[simp] theorem text?_text (s : String) : (text s).text? = some s := rfl

@[simp] theorem boolean?_boolean (b : Bool) : (boolean b).boolean? = some b := rfl

@[simp] theorem items?_array (items : List Json) : (array items).items? = some items := rfl

@[simp]
theorem fields?_object (fields : List (String × Json)) : (object fields).fields? = some fields := rfl

@[simp]
theorem parts?_object (names : List String) (fields : List (String × Json)) :
    (object fields).parts? names = some fields := rfl

end Json

end Rowfile
