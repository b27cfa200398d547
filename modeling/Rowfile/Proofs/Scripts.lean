import Mathlib.Data.List.ReduceOption
import Rowfile.Shell
import Rowfile.Proofs.FileMirror

/-!
# Scripts of the command loop

What the command loop does with an input is settled before it starts. The input is cut at its line
feeds. The lines count up to the first that asks to leave or is no text, and what comes then, or the
end of the input, or its failure, is the closing. A line that is neither blank nor a request for
help is a statement. To each line belongs one passage of the output: a prompt, and the reply to the
line.
-/
namespace Rowfile.Shell

/-! ## Lines -/

def octetsOf (text : String) : List UInt8 := Text.Utf8.encode text.toList

/-- The lines of an input. What stands behind the last line feed is a line of its own, unless there
is nothing there or the input fails before the line is complete. -/
def lines (input : List UInt8) (failure : Option String) : List (List UInt8) :=
  let pieces := input.splitOn 10
  if failure.isSome || pieces.getLast? == some [] then pieces.dropLast else pieces

theorem cutLines_eq_splitOn (input : List UInt8) :
    (cutLines input).1 ++ [(cutLines input).2] = input.splitOn 10 := by
  induction input with
  | nil => rfl
  | cons b rest ih =>
    rw [List.splitOn_cons_eq_if_modifyHead, ← ih]
    rcases hcut : cutLines rest with ⟨whole, last⟩
    cases whole <;> by_cases hb : b = 10 <;> simp [cutLines, hcut, hb]

theorem readings_eq_lines (input : List UInt8) (failure : Option String) :
    readings input failure =
      (lines input failure).map .line ++ failure.toList.map .failure := by
  unfold lines readings
  rw [← cutLines_eq_splitOn]
  obtain ⟨whole, last⟩ := cutLines input
  cases failure with
  | some message => simp
  | none => cases last <;> simp

/-! ## What a line asks for -/

def leaves (line : List Char) : Bool :=
  ["exit", "quit", "q"].any fun word => Text.asciiCaseEq (Text.trim line) word.toList

def asksHelp (line : List Char) : Bool := Text.asciiCaseEq (Text.trim line) "help".toList

/-- The statement of a line that does not leave: the line without the blanks around it, if anything
remains and it is not a request for help. -/
def statement? (line : List Char) : Option String :=
  if (Text.trim line).isEmpty || asksHelp line then none
  else some (String.ofList (Text.trim line))

def statements (lines : List (List Char)) : List String := lines.filterMap statement?

/-- A blank line is no word. -/
theorem asciiCaseEq_nil (b : Char) (rest : List Char) : Text.asciiCaseEq [] (b :: rest) = false :=
  rfl

theorem Request.ofLine_of_leaves {line : List Char} (h : leaves line = true) :
    Request.ofLine line = .leave := by
  have hsome : (Text.trim line).isEmpty = false := by
    cases hline : Text.trim line with
    | nil => simp [leaves, hline, asciiCaseEq_nil] at h
    | cons _ _ => rfl
  unfold leaves at h
  simp only [ofLine, hsome, h, Bool.false_eq_true, if_false, if_true]

theorem Request.ofLine_of_stays {line : List Char} (h : leaves line = false) :
    Request.ofLine line =
      if (Text.trim line).isEmpty then .nothing
      else if asksHelp line then .help else .statement (Text.trim line) := by
  unfold leaves at h
  simp only [ofLine, h, Bool.false_eq_true, if_false]
  rfl

/-! ## Scripts -/

/-- What ends the loop: a word for leaving, the end of the input, or a failed reading. -/
inductive Closing where
  | left
  | ended
  | failed (message : String)
  deriving DecidableEq, Repr

namespace Closing

def notice : Closing → Option String
  | left => some "Goodbye!"
  | ended => none
  | failed message => some ("Error: " ++ message)

def code : Closing → Nat
  | left | ended => 0
  | failed _ => 1

end Closing

structure Script where
  lines : List (List Char)
  closing : Closing
  deriving DecidableEq, Repr

namespace Script

def ofLines (lines : List (List UInt8)) (failure : Option String) : Script :=
  let readable := (lines.map Text.Utf8.decode?).takeWhile Option.isSome |>.reduceOption
  let answered := readable.takeWhile fun line => !leaves line
  { lines := answered
    closing :=
      if answered.length < readable.length then .left
      else if readable.length < lines.length then .failed badLine
      else failure.elim .ended .failed }

/-- The script of an input that ends or fails after its last octet. -/
def read (input : List UInt8) (failure : Option String) : Script :=
  ofLines (Shell.lines input failure) failure

variable {octets : List UInt8} {line : List Char} (rest : List (List UInt8))
  (failure : Option String)

theorem ofLines_nil : ofLines [] failure = ⟨[], failure.elim .ended .failed⟩ := rfl

theorem ofLines_of_unreadable (h : Text.Utf8.decode? octets = none) :
    ofLines (octets :: rest) failure = ⟨[], .failed badLine⟩ := by
  simp [ofLines, h]

theorem ofLines_of_leaves (h : Text.Utf8.decode? octets = some line) (hl : leaves line = true) :
    ofLines (octets :: rest) failure = ⟨[], .left⟩ := by
  simp [ofLines, h, hl]

theorem ofLines_of_stays (h : Text.Utf8.decode? octets = some line) (hl : leaves line = false) :
    ofLines (octets :: rest) failure =
      ⟨line :: (ofLines rest failure).lines, (ofLines rest failure).closing⟩ := by
  simp [ofLines, h, hl]

-- Behind a word for leaving nothing is read, and a failure hides a line that is not complete.
example : read (octetsOf "SHOW TABLES\n\nHelp\n QUIT\nDESC t") none =
    ⟨["SHOW TABLES".toList, [], "Help".toList], .left⟩ := by cbv

example : read (octetsOf "SHOW TABLES\nDESC t") (some "lost") =
    ⟨["SHOW TABLES".toList], .failed "lost"⟩ := by cbv

end Script

/-! ## Transcripts -/

variable {σ : Type} [Store σ]

/-- The reply to a line that does not leave. A blank line has none. -/
def reply (db : Database σ) (line : List Char) : Option String :=
  if asksHelp line then some help
  else (statement? line).map fun text => Outcome.render (db.query text).1

/-- The database after a line that does not leave. -/
def after (db : Database σ) (line : List Char) : Database σ :=
  db.queries (statement? line).toList

/-- The octets of what is said in a line of its own, if anything is. -/
def spoken (said : Option String) : List UInt8 :=
  said.elim [] fun text => octetsOf (text ++ "\n")

/-- The passage of the output that belongs to a line: the prompt before it and the reply. -/
def passage (db : Database σ) (line : List Char) : List UInt8 :=
  octetsOf prompt ++ spoken (reply db line)

/-- The passages of the output, one for each line. -/
def passages (db : Database σ) : List (List Char) → List (List UInt8)
  | [] => []
  | line :: rest => passage db line :: passages (after db line) rest

/-- All that a script makes the loop say. -/
def transcript (db : Database σ) (script : Script) : List UInt8 :=
  (passages db script.lines).flatten ++ octetsOf prompt ++ spoken script.closing.notice

/-- Where in the output the passage of a line ends. -/
def passageEnd (db : Database σ) (lines : List (List Char)) (i : Nat) : Nat :=
  ((passages db lines).take (i + 1)).flatten.length

/-- Where in the output the prompt before a line ends. Past the last line this is the prompt before
the closing. -/
def promptEnd (db : Database σ) (lines : List (List Char)) (i : Nat) : Nat :=
  ((passages db lines).take i).flatten.length + (octetsOf prompt).length

section

variable (db : Database σ) (line : List Char) (rest : List (List Char)) (closing : Closing)

theorem transcript_cons :
    transcript db ⟨line :: rest, closing⟩ =
      passage db line ++ transcript (after db line) ⟨rest, closing⟩ := by
  simp only [transcript, passages, List.flatten_cons, List.append_assoc]

theorem promptEnd_zero (lines : List (List Char)) :
    promptEnd db lines 0 = (octetsOf prompt).length := by
  simp only [promptEnd, List.take_zero, List.flatten_nil, List.length_nil, Nat.zero_add]

theorem promptEnd_succ (i : Nat) :
    promptEnd db (line :: rest) (i + 1) =
      (passage db line).length + promptEnd (after db line) rest i := by
  simp only [promptEnd, passages, List.take_succ_cons, List.flatten_cons, List.length_append,
    Nat.add_assoc]

theorem prompt_le_promptEnd (lines : List (List Char)) (i : Nat) :
    (octetsOf prompt).length ≤ promptEnd db lines i := Nat.le_add_left _ _

end

end Rowfile.Shell
