import Rowfile.Database
import Rowfile.Text.Utf8

/-!
# The command loop

Statements are read line by line and answered one by one. Before each line a prompt is written. A
blank line has no answer, a word for leaving ends the loop, and a request for help is answered with a
fixed text. Output that is refused ends the loop, except that nobody minds when the farewell or the
notice of a failed reading is refused.
-/
namespace Rowfile

namespace Shell

def prompt : String := "sql> "

def help : String :=
  "Statements:\n" ++
  "\n" ++
  "CREATE TABLE t (id INT PRIMARY KEY, name TEXT NOT NULL, ...)\n" ++
  "DROP TABLE t\n" ++
  "RENAME TABLE old TO new\n" ++
  "INSERT INTO t [(col, ...)] VALUES (v1, v2, ...)\n" ++
  "SELECT * FROM t [WHERE ...] [ORDER BY col [ASC|DESC]] [LIMIT n]\n" ++
  "UPDATE t SET col = value, ... WHERE ...\n" ++
  "DELETE FROM t WHERE ...\n" ++
  "DESC t | DESCRIBE t\n" ++
  "SHOW TABLES\n" ++
  "SHOW TABLE t\n" ++
  "CREATE INDEX ON t(col)\n" ++
  "\n" ++
  "Conditions: =, !=, >, <, >=, <=, LIKE, joined with AND / OR.\n" ++
  "\n" ++
  "help       Show this help\n" ++
  "exit, quit Leave the shell"

inductive Request where
  | nothing
  | leave
  | help
  | statement (text : List Char)
  deriving DecidableEq, Repr

/-- What a line asks for, once the blanks around it are gone. -/
def Request.ofLine (line : List Char) : Request :=
  let command := Text.trim line
  if command.isEmpty then .nothing
  else if ["exit", "quit", "q"].any fun word => Text.asciiCaseEq command word.toList then .leave
  else if Text.asciiCaseEq command "help".toList then .help
  else .statement command

/-- What the input gives: a line of octets, or a failure with its message. The end of the input is
the end of the list of readings. An interrupted reading is taken up again before it gives anything,
so it is no reading. -/
inductive Reading where
  | line (octets : List UInt8)
  | failure (message : String)
  deriving DecidableEq, Repr

def badLine : String := "stream did not contain valid UTF-8"

/-- Input cut at its line feeds: the lines that end with one, and what stands behind the last. -/
def cutLines : List UInt8 → List (List UInt8) × List UInt8
  | [] => ([], [])
  | b :: r =>
    let (lines, rest) := cutLines r
    if b = 10 then ([] :: lines, rest)
    else
      match lines with
      | [] => ([], b :: rest)
      | line :: lines => ((b :: line) :: lines, rest)

/-- The readings of an input that ends or fails after its last octet. A failure hides what stands
behind the last line feed. -/
def readings (input : List UInt8) (failure : Option String) : List Reading :=
  let (lines, rest) := cutLines input
  lines.map .line ++
    match failure with
    | some message => [.failure message]
    | none => if rest.isEmpty then [] else [.line rest]

structure Output where
  room : Option Nat
  pieces : List (List UInt8)
  deriving DecidableEq, Repr

namespace Output

def ofLimit (limit : Option Nat) : Output := ⟨limit, []⟩

def octets (out : Output) : List UInt8 := out.pieces.reverse.flatten

/-- Write a text. The answer is whether all of it was accepted. -/
def write (text : String) (out : Output) : Bool × Output :=
  let octets := Text.Utf8.encode text.toList
  match out.room with
  | none => (true, { out with pieces := octets :: out.pieces })
  | some room =>
    (decide (octets.length ≤ room),
      ⟨some (room - octets.length), octets.take room :: out.pieces⟩)

@[simp]
theorem octets_ofLimit (limit : Option Nat) : (ofLimit limit).octets = [] := rfl

/-- What is accepted of a text is appended. -/
theorem octets_write (text : String) (out : Output) :
    (out.write text).2.octets =
      out.octets ++ (Text.Utf8.encode text.toList).take
        (out.room.getD (Text.Utf8.encode text.toList).length) := by
  unfold write octets
  split <;> simp_all

def writeLine (text : String) (out : Output) : Bool × Output := out.write (text ++ "\n")

end Output

structure Ending (σ : Type) where
  code : Nat
  output : Output
  database : Database σ

def endWithFailure {σ : Type} (message : String) (out : Output) (db : Database σ) : Ending σ :=
  ⟨1, (out.writeLine ("Error: " ++ message)).2, db⟩

inductive Turn (σ : Type) where
  | over (ending : Ending σ)
  | next (output : Output) (database : Database σ)

/-- Write a text, and go on if all of it was accepted. -/
def answer {σ : Type} (text : String) (out : Output) (db : Database σ) : Turn σ :=
  match out.writeLine text with
  | (true, out) => .next out db
  | (false, out) => .over ⟨1, out, db⟩

def handle {σ : Type} [Store σ] (line : List Char) (out : Output) (db : Database σ) : Turn σ :=
  match Request.ofLine line with
  | .nothing => .next out db
  | .leave => .over ⟨0, (out.writeLine "Goodbye!").2, db⟩
  | .help => answer help out db
  | .statement text =>
    let (result, db) := db.query (String.ofList text)
    answer (Outcome.render result) out db

def turn {σ : Type} [Store σ] (reading : Reading) (out : Output) (db : Database σ) : Turn σ :=
  match reading with
  | .failure message => .over (endWithFailure message out db)
  | .line octets =>
    match Text.Utf8.decode? octets with
    | none => .over (endWithFailure badLine out db)
    | some line => handle line out db

def loop {σ : Type} [Store σ] (out : Output) (db : Database σ) : List Reading → Ending σ
  | [] =>
    match out.write prompt with
    | (true, out) => ⟨0, out, db⟩
    | (false, out) => ⟨1, out, db⟩
  | reading :: rest =>
    match out.write prompt with
    | (false, out) => ⟨1, out, db⟩
    | (true, out) =>
      match turn reading out db with
      | .over ending => ending
      | .next out db => loop out db rest

/-- Run the loop on an input with an output of limited room. -/
def run {σ : Type} [Store σ] (input : List UInt8) (failure : Option String) (limit : Option Nat)
    (db : Database σ) : Ending σ :=
  loop (.ofLimit limit) db (readings input failure)

end Shell

end Rowfile
