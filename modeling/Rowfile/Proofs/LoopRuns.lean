import Rowfile.Proofs.Scripts

/-!
# The command loop runs its script

The loop runs the statements of its script in their order and says what the script makes it say. How
much of this happens depends on the room of the output alone. One turn of the loop writes one passage
(`turn_of_stays`), and every run plays its script (`loop_plays`), by induction on the lines.
-/
namespace Rowfile.Shell

variable {σ : Type} [Store σ]

/-! ## Output -/

namespace Output

/-- Whether an output has room for a number of octets. -/
def holds (out : Output) (count : Nat) : Bool := out.room.all fun room => decide (count ≤ room)

/-- As many of some octets as an output has room for. -/
def keeps (out : Output) (octets : List UInt8) : List UInt8 :=
  octets.take (out.room.getD octets.length)

/-- An output has been offered some octets and has accepted as many as it had room for. -/
structure Takes (octets : List UInt8) (out later : Output) : Prop where
  room : later.room = out.room.map fun room => room - octets.length
  accepted : later.octets = out.octets ++ out.keeps octets

theorem holds_write (text : String) (out : Output) :
    (out.write text).1 = out.holds (octetsOf text).length := by
  unfold write holds
  cases out.room <;> rfl

theorem takes_write (text : String) (out : Output) :
    Takes (octetsOf text) out (out.write text).2 where
  room := by
    unfold write
    cases out.room <;> rfl
  accepted := octets_write text out

theorem write_of_holds {text : String} {out : Output} {held : Bool}
    (h : out.holds (octetsOf text).length = held) : out.write text = (held, (out.write text).2) :=
  Prod.ext ((holds_write text out).trans h) rfl

/-- What there is no room for leaves no room for more. -/
theorem holds_eq_false {out : Output} {m n : Nat} (h : m ≤ n) (hm : out.holds m = false) :
    out.holds n = false := by
  unfold holds at *
  cases hroom : out.room with
  | none => simp [hroom] at hm
  | some room =>
    simp only [hroom, Option.all_some, decide_eq_false_iff_not] at hm ⊢
    omega

namespace Takes

variable {a b : List UInt8} {out mid later : Output}

theorem nil (out : Output) : Takes [] out out where
  room := by cases out.room <;> rfl
  accepted := by simp only [keeps, List.take_nil, List.append_nil]

theorem append (ha : Takes a out mid) (hb : Takes b mid later) : Takes (a ++ b) out later where
  room := by
    rw [hb.room, ha.room, Option.map_map, List.length_append]
    simp only [Function.comp_def, Nat.sub_add_eq]
  accepted := by
    rw [hb.accepted, ha.accepted, List.append_assoc]
    unfold keeps
    rw [ha.room]
    cases out.room <;> simp [List.take_append]

/-- What comes after a text that was refused is refused too. -/
theorem cut (ha : Takes a out mid) (h : out.holds a.length = false) : Takes (a ++ b) out mid := by
  cases hroom : out.room with
  | none => simp [holds, hroom] at h
  | some room =>
    have hlt : room < a.length := by simpa [holds, hroom] using h
    constructor
    · rw [ha.room, hroom, List.length_append]
      simp only [Option.map_some, Option.some.injEq]
      omega
    · rw [ha.accepted]
      simp only [keeps, hroom, Option.getD_some, List.take_append_of_le_length hlt.le]

/-- After some octets there is room for more if there was room for all of them. -/
theorem holds_add (ha : Takes a out mid) (n : Nat) (h : out.holds a.length) :
    out.holds (a.length + n) = mid.holds n := by
  unfold holds at *
  rw [ha.room]
  cases hroom : out.room with
  | none => rfl
  | some room =>
    simp only [hroom, Option.all_some, decide_eq_true_eq] at h
    simp only [Option.map_some, Option.all_some, decide_eq_decide]
    omega

end Takes

end Output

/-! ## Turns of the loop -/

/-- The statement that a turn of the loop runs. -/
def Reading.performs : Reading → Option String
  | .failure _ => none
  | .line octets =>
    match (Text.Utf8.decode? octets).map Request.ofLine with
    | some (.statement text) => some (String.ofList text)
    | _ => none

/-- The statements that the loop runs, the first first. -/
def performed (out : Output) (db : Database σ) : List Reading → List String
  | [] => []
  | reading :: rest =>
    match out.write prompt with
    | (false, _) => []
    | (true, out) =>
      reading.performs.toList ++
        match turn reading out db with
        | .over _ => []
        | .next out db => performed out db rest

def Turn.database : Turn σ → Database σ
  | .over ending => ending.database
  | .next _ db => db

omit [Store σ] in
/-- An answer ends the loop if it is refused. -/
theorem answer_eq (text : String) (out : Output) (db : Database σ) :
    answer text out db =
      if out.holds (spoken (some text)).length then .next (out.writeLine text).2 db
      else .over ⟨1, (out.writeLine text).2, db⟩ := by
  have hwrite := Output.holds_write (text ++ "\n") out
  unfold answer Output.writeLine
  rcases hout : out.write (text ++ "\n") with ⟨held, later⟩
  rw [hout] at hwrite
  obtain rfl : held = out.holds (spoken (some text)).length := hwrite
  cases out.holds (spoken (some text)).length <;> rfl

omit [Store σ] in
theorem database_answer (text : String) (out : Output) (db : Database σ) :
    (answer text out db).database = db := by
  rw [answer_eq]
  split <;> rfl

theorem turn_of_unreadable {octets : List UInt8} (h : Text.Utf8.decode? octets = none)
    (out : Output) (db : Database σ) :
    turn (.line octets) out db = .over (endWithFailure badLine out db) := by
  simp only [turn, h]

theorem turn_of_readable {octets : List UInt8} {line : List Char}
    (h : Text.Utf8.decode? octets = some line) (out : Output) (db : Database σ) :
    turn (.line octets) out db = handle line out db := by
  simp only [turn, h]

/-- A turn runs its statement and touches the database in no other way. -/
theorem database_turn (reading : Reading) (out : Output) (db : Database σ) :
    (turn reading out db).database = db.queries reading.performs.toList := by
  cases reading with
  | failure message => rfl
  | line octets =>
    cases h : Text.Utf8.decode? octets with
    | none =>
      rw [turn_of_unreadable h]
      simp only [Reading.performs, h]
      rfl
    | some line =>
      rw [turn_of_readable h]
      simp only [Reading.performs, h, Option.map_some, handle]
      cases Request.ofLine line with
      | nothing | leave => rfl
      | help => exact database_answer help out db
      | statement text => exact database_answer _ out _

/-- The database at the end of the loop is the one that the statements of its turns lead to. -/
theorem database_loop (readings : List Reading) (out : Output) (db : Database σ) :
    (loop out db readings).database = db.queries (performed out db readings) := by
  induction readings generalizing out db with
  | nil =>
    unfold loop
    split <;> rfl
  | cons reading rest ih =>
    unfold loop performed
    rcases out.write prompt with ⟨_ | _, prompted⟩
    · rfl
    · have hturn := database_turn reading prompted db
      simp only
      match hcase : turn reading prompted db with
      | .over ending =>
        rw [hcase] at hturn
        simp only [List.append_nil]
        exact hturn
      | .next later db' =>
        rw [hcase] at hturn
        obtain rfl : db' = db.queries reading.performs.toList := hturn
        simp only [ih, Database.queries, List.foldl_append]

section

variable {out : Output} {db : Database σ}

theorem loop_of_refused (h : out.holds (octetsOf prompt).length = false) (db : Database σ)
    (readings : List Reading) :
    loop out db readings = ⟨1, (out.write prompt).2, db⟩ ∧ performed out db readings = [] := by
  have hwrite := Output.write_of_holds h
  cases readings with
  | nil => exact ⟨by rw [loop, hwrite], rfl⟩
  | cons reading rest => exact ⟨by rw [loop, hwrite], by rw [performed, hwrite]⟩

theorem loop_of_over (h : out.holds (octetsOf prompt).length) {reading : Reading}
    {ending : Ending σ} (hturn : turn reading (out.write prompt).2 db = .over ending)
    (rest : List Reading) :
    loop out db (reading :: rest) = ending ∧
      performed out db (reading :: rest) = reading.performs.toList := by
  have hwrite := Output.write_of_holds h
  constructor
  · rw [loop, hwrite]
    simp only [hturn]
  · rw [performed, hwrite]
    simp only [hturn, List.append_nil]

theorem loop_of_next (h : out.holds (octetsOf prompt).length) {reading : Reading}
    {later : Output} {db' : Database σ}
    (hturn : turn reading (out.write prompt).2 db = .next later db') (rest : List Reading) :
    loop out db (reading :: rest) = loop later db' rest ∧
      performed out db (reading :: rest) =
        reading.performs.toList ++ performed later db' rest := by
  have hwrite := Output.write_of_holds h
  constructor
  · rw [loop, hwrite]
    simp only [hturn]
  · rw [performed, hwrite]
    simp only [hturn]

variable {octets : List UInt8} {line : List Char}

theorem performs_of_leaves (h : Text.Utf8.decode? octets = some line) (hl : leaves line = true) :
    (Reading.line octets).performs = none := by
  simp only [Reading.performs, h, Option.map_some, Request.ofLine_of_leaves hl]

theorem performs_of_stays (h : Text.Utf8.decode? octets = some line) (hl : leaves line = false) :
    (Reading.line octets).performs = statement? line := by
  simp only [Reading.performs, h, Option.map_some, Request.ofLine_of_stays hl, statement?]
  cases (Text.trim line).isEmpty <;> cases asksHelp line <;> rfl

/-- What a line that does not leave leads to: its reply, if it has one, and the next turn. -/
theorem handle_of_stays (hl : leaves line = false) (out : Output) (db : Database σ) :
    handle line out db =
      match reply db line with
      | none => .next out (after db line)
      | some text => answer text out (after db line) := by
  unfold handle reply after
  rw [Request.ofLine_of_stays hl]
  unfold statement?
  have hblank : (Text.trim line).isEmpty = true → asksHelp line = false := by
    intro h
    rw [asksHelp, List.isEmpty_iff.mp h]
    rfl
  cases he : (Text.trim line).isEmpty with
  | true => simp [hblank he, Database.queries]
  | false => cases asksHelp line <;> simp [Database.queries]

/-- A turn for a line that does not leave: its passage is written, and the loop goes on if all of it
was accepted. -/
theorem turn_of_stays (hp : out.holds (octetsOf prompt).length)
    (h : Text.Utf8.decode? octets = some line) (hl : leaves line = false) (db : Database σ) :
    ∃ later, Output.Takes (passage db line) out later ∧
      turn (.line octets) (out.write prompt).2 db =
        if out.holds (passage db line).length then .next later (after db line)
        else .over ⟨1, later, after db line⟩ := by
  have hprompt := Output.takes_write prompt out
  rw [turn_of_readable h, handle_of_stays hl]
  unfold passage
  cases reply db line with
  | none =>
    have hpassage : octetsOf prompt ++ spoken none = octetsOf prompt := List.append_nil _
    rw [hpassage]
    exact ⟨_, hprompt, (if_pos hp).symm⟩
  | some text =>
    refine ⟨_, hprompt.append (Output.takes_write (text ++ "\n") _), ?_⟩
    rw [List.length_append, hprompt.holds_add _ hp]
    exact answer_eq text _ _

end

/-! ## Runs of the loop -/

/-- How a run of the loop, with the statements it ran, answers to a script. What happens of the
script is decided by the room that the output had at the start. -/
structure Plays (script : Script) (out : Output) (db : Database σ) (ending : Ending σ)
    (texts : List String) : Prop where
  output : Output.Takes (transcript db script) out ending.output
  code : ending.code =
    if out.holds (promptEnd db script.lines script.lines.length) then script.closing.code else 1
  texts : ∃ k ≤ script.lines.length, texts = statements (script.lines.take k) ∧
    ∀ i < script.lines.length, i < k ↔ out.holds (promptEnd db script.lines i)

namespace Plays

variable {out mid later : Output} {db : Database σ} {line : List Char} {rest : List (List Char)}
  {closing : Closing}

theorem of_refused (script : Script) (h : out.holds (octetsOf prompt).length = false)
    (hprompt : Output.Takes (octetsOf prompt) out later) :
    Plays script out db ⟨1, later, db⟩ [] := by
  have hnone : ∀ i, out.holds (promptEnd db script.lines i) = false := fun i =>
    Output.holds_eq_false (prompt_le_promptEnd db script.lines i) h
  constructor
  · obtain ⟨_ | ⟨line, rest⟩, closing⟩ := script
    · exact hprompt.cut h
    · rw [transcript_cons, passage, List.append_assoc]
      exact hprompt.cut h
  · rw [if_neg (by simp [hnone])]
  · exact ⟨0, Nat.zero_le _, rfl, fun i _ => by simp [hnone]⟩

theorem of_closing (h : out.holds (octetsOf prompt).length)
    (hsaid : Output.Takes (octetsOf prompt ++ spoken closing.notice) out later) :
    Plays ⟨[], closing⟩ out db ⟨closing.code, later, db⟩ [] where
  output := hsaid
  code := (if_pos (by rwa [List.length_nil, promptEnd_zero])).symm
  texts := ⟨0, le_rfl, rfl, fun _ hi => absurd hi (Nat.not_lt_zero _)⟩

/-- The reply to a line is refused, so its statement is the last. -/
theorem of_cut (h : out.holds (octetsOf prompt).length)
    (hcut : out.holds (passage db line).length = false)
    (hsaid : Output.Takes (passage db line) out later) :
    Plays ⟨line :: rest, closing⟩ out db ⟨1, later, after db line⟩ (statement? line).toList := by
  have hnone : ∀ i, out.holds (promptEnd db (line :: rest) (i + 1)) = false := fun i => by
    rw [promptEnd_succ]
    exact Output.holds_eq_false (Nat.le_add_right _ _) hcut
  refine ⟨?_, ?_, 1, Nat.le_add_left _ _, ?_, fun i _ => ?_⟩
  · rw [transcript_cons]
    exact hsaid.cut hcut
  · rw [List.length_cons, if_neg (by simp [hnone])]
  · cases hline : statement? line <;> simp [statements, hline]
  · cases i with
    | zero => simp [promptEnd_zero, h]
    | succ i => simp [hnone]

theorem cons {ending : Ending σ} {texts : List String} (h : out.holds (octetsOf prompt).length)
    (hheld : out.holds (passage db line).length) (hsaid : Output.Takes (passage db line) out mid)
    (hrest : Plays ⟨rest, closing⟩ mid (after db line) ending texts) :
    Plays ⟨line :: rest, closing⟩ out db ending ((statement? line).toList ++ texts) := by
  have hend : ∀ i, out.holds (promptEnd db (line :: rest) (i + 1)) =
      mid.holds (promptEnd (after db line) rest i) := fun i => by
    rw [promptEnd_succ, hsaid.holds_add _ hheld]
  obtain ⟨k, hk, htexts, hreached⟩ := hrest.texts
  refine ⟨?_, ?_, k + 1, Nat.succ_le_succ hk, ?_, fun i hi => ?_⟩
  · rw [transcript_cons]
    exact hsaid.append hrest.output
  · rw [List.length_cons, hend]
    exact hrest.code
  · cases hline : statement? line <;> simp [statements, hline, htexts]
  · cases i with
    | zero => simp [promptEnd_zero, h]
    | succ i =>
      rw [hend, Nat.succ_lt_succ_iff]
      exact hreached i (Nat.lt_of_succ_lt_succ hi)

end Plays

theorem plays_of_refused {out : Output} (h : out.holds (octetsOf prompt).length = false)
    (db : Database σ) (script : Script) (readings : List Reading) :
    Plays script out db (loop out db readings) (performed out db readings) := by
  obtain ⟨hloop, hperformed⟩ := loop_of_refused h db readings
  rw [hloop, hperformed]
  exact .of_refused script h (Output.takes_write _ _)

/-- A turn that says the last words of a script and runs nothing. -/
theorem plays_of_over {out : Output} {db : Database σ} {reading : Reading} {closing : Closing}
    {text : String} (h : out.holds (octetsOf prompt).length) (hnotice : closing.notice = some text)
    (hquiet : reading.performs = none)
    (hturn : turn reading (out.write prompt).2 db =
      .over ⟨closing.code, ((out.write prompt).2.writeLine text).2, db⟩) (rest : List Reading) :
    Plays ⟨[], closing⟩ out db (loop out db (reading :: rest))
      (performed out db (reading :: rest)) := by
  obtain ⟨hloop, hperformed⟩ := loop_of_over h hturn rest
  rw [hloop, hperformed, hquiet]
  refine .of_closing h ?_
  rw [hnotice]
  exact (Output.takes_write prompt out).append (Output.takes_write (text ++ "\n") _)

theorem plays_of_no_lines {out : Output} (h : out.holds (octetsOf prompt).length)
    (failure : Option String) (db : Database σ) :
    Plays (Script.ofLines [] failure) out db (loop out db (failure.toList.map .failure))
      (performed out db (failure.toList.map .failure)) := by
  cases failure with
  | none =>
    have hloop : loop out db [] = ⟨Closing.ended.code, (out.write prompt).2, db⟩ := by
      rw [loop, Output.write_of_holds h]
      rfl
    have hprompt : Output.Takes (octetsOf prompt ++ spoken Closing.ended.notice) out
        (out.write prompt).2 := (Output.takes_write prompt out).append (.nil _)
    rw [Script.ofLines_nil]
    simp only [Option.toList_none, List.map_nil, hloop]
    exact .of_closing h hprompt
  | some message =>
    have hnotice : (Closing.failed message).notice = some ("Error: " ++ message) := rfl
    exact plays_of_over h hnotice rfl rfl []

/-- A line that does not leave, before readings that play the rest of the script wherever this line
leads. -/
theorem plays_of_stays {out : Output} (h : out.holds (octetsOf prompt).length) {octets : List UInt8}
    {line : List Char} (hline : Text.Utf8.decode? octets = some line) (hl : leaves line = false)
    {rest : List (List Char)} {closing : Closing} {readings : List Reading}
    (hrest : ∀ (out : Output) (db : Database σ),
      Plays ⟨rest, closing⟩ out db (loop out db readings) (performed out db readings))
    (db : Database σ) :
    Plays ⟨line :: rest, closing⟩ out db (loop out db (.line octets :: readings))
      (performed out db (.line octets :: readings)) := by
  obtain ⟨later, hsaid, hturn⟩ := turn_of_stays h hline hl db
  cases hheld : out.holds (passage db line).length with
  | true =>
    rw [hheld, if_pos rfl] at hturn
    obtain ⟨hloop, hperformed⟩ := loop_of_next h hturn readings
    rw [hloop, hperformed, performs_of_stays hline hl]
    exact .cons h hheld hsaid (hrest later (after db line))
  | false =>
    rw [hheld, if_neg Bool.false_ne_true] at hturn
    obtain ⟨hloop, hperformed⟩ := loop_of_over h hturn readings
    rw [hloop, hperformed, performs_of_stays hline hl]
    exact .of_cut h hheld hsaid

/-- Every run of the loop plays its script, by induction on the lines. The database and the room of
the output are those that the lines before have left. -/
theorem loop_plays (lines : List (List UInt8)) (failure : Option String) (out : Output)
    (db : Database σ) :
    Plays (Script.ofLines lines failure) out db
      (loop out db (lines.map .line ++ failure.toList.map .failure))
      (performed out db (lines.map .line ++ failure.toList.map .failure)) := by
  induction lines generalizing out db with
  | nil =>
    cases hp : out.holds (octetsOf prompt).length with
    | false => exact plays_of_refused hp db _ _
    | true => exact plays_of_no_lines hp failure db
  | cons octets rest ih =>
    cases hp : out.holds (octetsOf prompt).length with
    | false => exact plays_of_refused hp db _ _
    | true =>
      rw [List.map_cons, List.cons_append]
      cases hline : Text.Utf8.decode? octets with
      | none =>
        rw [Script.ofLines_of_unreadable rest failure hline]
        exact plays_of_over hp rfl (by simp only [Reading.performs, hline]; rfl)
          (turn_of_unreadable hline _ _) _
      | some line =>
        cases hl : leaves line with
        | true =>
          rw [Script.ofLines_of_leaves rest failure hline hl]
          refine plays_of_over hp rfl (performs_of_leaves hline hl) ?_ _
          simp only [turn_of_readable hline, handle, Request.ofLine_of_leaves hl, Closing.code]
        | false =>
          rw [Script.ofLines_of_stays rest failure hline hl]
          exact plays_of_stays hp hline hl ih db

theorem run_plays (input : List UInt8) (failure : Option String) (limit : Option Nat)
    (db : Database σ) :
    Plays (Script.read input failure) (.ofLimit limit) db (run input failure limit db)
      (performed (.ofLimit limit) db (readings input failure)) := by
  rw [run, readings_eq_lines]
  exact loop_plays (lines input failure) failure (.ofLimit limit) db

/-- The database at the end of a run is the one that the statements it performed lead to. -/
theorem database_run (input : List UInt8) (failure : Option String) (limit : Option Nat)
    (db : Database σ) :
    (run input failure limit db).database =
      db.queries (performed (.ofLimit limit) db (readings input failure)) :=
  database_loop _ _ _

namespace Plays

variable {script : Script} {db : Database σ} {ending : Ending σ} {texts : List String}
  (hplays : Plays script (.ofLimit none) db ending texts)

include hplays

/-- Without a limit every prompt is accepted, so every statement is run. -/
theorem texts_of_unlimited : texts = statements script.lines := by
  obtain ⟨k, hk, htexts, hreached⟩ := hplays.texts
  have hall : k = script.lines.length :=
    le_antisymm hk (not_lt.mp fun hlt => lt_irrefl k ((hreached k hlt).mpr rfl))
  rw [htexts, hall, List.take_length]

theorem octets_of_unlimited : ending.output.octets = transcript db script := by
  rw [hplays.output.accepted, Output.octets_ofLimit, List.nil_append]
  exact List.take_length

end Plays

/-- The command loop is the fold of its script. On an output that refuses nothing it runs the
statements of the script, each once and in order, it leaves the database that running them one after
the other leaves, it says what the script makes it say, and it returns the exit code of the
closing. -/
theorem run_folds_script (input : List UInt8) (failure : Option String) (db : Database σ) :
    performed (.ofLimit none) db (readings input failure) =
        statements (Script.read input failure).lines ∧
      (run input failure none db).database =
        db.queries (statements (Script.read input failure).lines) ∧
      (run input failure none db).output.octets = transcript db (Script.read input failure) ∧
      (run input failure none db).code = (Script.read input failure).closing.code := by
  have hplays := run_plays input failure none db
  refine ⟨hplays.texts_of_unlimited, ?_, hplays.octets_of_unlimited, hplays.code⟩
  rw [database_run, hplays.texts_of_unlimited]

end Rowfile.Shell
