import Rowfile.Grid

/-!
# Outcomes of statements

What a statement answers: a message, rows with a message, or a schema with a message. An answer or
the fault in its place is reported as a JSON document and as text.
-/
namespace Rowfile

inductive Outcome where
  | message (text : String)
  | rows (rows : List Record) (text : String)
  | schema (schema : Schema) (text : String)
  deriving Repr

namespace Outcome

/-- The document of an answer or of the fault in its place. -/
def toJson : Except Fault Outcome → Json
  | .ok (.message text) => .object [("message", .text text)]
  | .ok (.rows records text) =>
    .object [("result", .array (records.map Record.toJson)), ("message", .text text)]
  | .ok (.schema columns text) => .object [("schema", columns.toJson), ("message", .text text)]
  | .error fault => .object [("error", .text fault.message)]

/-- The text of an answer or of the fault in its place. -/
def render : Except Fault Outcome → String
  | .ok (.message text) => text
  | .ok (.rows records text) =>
    if records.isEmpty then text else Grid.ofRows records ++ "\n" ++ text
  | .ok (.schema columns text) => text ++ "\n" ++ Grid.ofSchema columns
  | .error fault => "Error: " ++ fault.message

@[simp] theorem render_message (text : String) : render (.ok (.message text)) = text := rfl

@[simp]
theorem render_error (fault : Fault) : render (.error fault) = "Error: " ++ fault.message := rfl

end Outcome

end Rowfile
