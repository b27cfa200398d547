import Rowfile.Proofs.LoopRuns

/-!
# Output that is cut short

An output that accepts so many octets and no more cuts a run of the command loop. The run says the
same as one that is never refused anything, up to the limit. It ends at the first write that does
not fit, so a statement is run if the prompt before it was accepted, and a reply that was refused is
the last one. The exit code tells of the cut unless it falls into the farewell.
-/
namespace Rowfile.Shell

variable {σ : Type} [Store σ]

/-- What is said when a word for leaving ends the loop. -/
def farewell : List UInt8 := spoken Closing.left.notice

theorem length_passages (db : Database σ) (lines : List (List Char)) :
    (passages db lines).length = lines.length := by
  induction lines generalizing db with
  | nil => rfl
  | cons line rest ih => rw [passages, List.length_cons, ih, List.length_cons]

theorem length_transcript (db : Database σ) (script : Script) :
    (transcript db script).length =
      promptEnd db script.lines script.lines.length + (spoken script.closing.notice).length := by
  unfold transcript promptEnd
  rw [List.take_of_length_le (length_passages db script.lines).le, List.length_append,
    List.length_append]

/-- The prompt before a line stands behind the passage of the line before. -/
theorem passageEnd_le_promptEnd (db : Database σ) (lines : List (List Char)) (i : Nat) :
    passageEnd db lines i ≤ promptEnd db lines (i + 1) := Nat.le_add_right _ _

theorem Output.holds_ofLimit (limit count : Nat) :
    (ofLimit (some limit)).holds count = true ↔ count ≤ limit := decide_eq_true_iff

namespace Plays

variable {script : Script} {db : Database σ} {ending : Ending σ} {texts : List String} {limit : Nat}
  (hplays : Plays script (.ofLimit (some limit)) db ending texts)

include hplays

theorem octets_of_limit : ending.output.octets = (transcript db script).take limit := by
  rw [hplays.output.accepted, Output.octets_ofLimit, List.nil_append]
  rfl

/-- The lines whose prompts are accepted stand at the front of the script, and of these all but the
last have their whole passages accepted. -/
theorem texts_of_limit : ∃ k ≤ script.lines.length, texts = statements (script.lines.take k) ∧
    (∀ i < script.lines.length, i < k ↔ promptEnd db script.lines i ≤ limit) ∧
    ∀ i, i + 1 < k → passageEnd db script.lines i ≤ limit := by
  obtain ⟨k, hk, htexts, hreached⟩ := hplays.texts
  have hprompted : ∀ i < script.lines.length, i < k ↔ promptEnd db script.lines i ≤ limit :=
    fun i hi => (hreached i hi).trans (Output.holds_ofLimit limit _)
  refine ⟨k, hk, htexts, hprompted, fun i hi => ?_⟩
  exact (passageEnd_le_promptEnd db script.lines i).trans
    ((hprompted (i + 1) (hi.trans_le hk)).mp hi)

/-- The exit code is that of the closing if everything was accepted, or all but a part of the
farewell. -/
theorem code_of_limit : ending.code =
    if (transcript db script).length ≤ limit then script.closing.code
    else if script.closing = .left ∧ (transcript db script).length - farewell.length ≤ limit then 0
    else 1 := by
  have hcode : ending.code =
      if promptEnd db script.lines script.lines.length ≤ limit then script.closing.code else 1 := by
    simpa only [Output.holds_ofLimit] using hplays.code
  have hlength := length_transcript db script
  rw [hcode]
  cases hclosing : script.closing with
  | left =>
    rw [hclosing] at hlength
    simp only [Closing.code, farewell, true_and, hlength, Nat.add_sub_cancel]
    split_ifs <;> first | rfl | omega
  | ended =>
    rw [hclosing] at hlength
    obtain hlength : (transcript db script).length =
      promptEnd db script.lines script.lines.length := hlength
    simp only [hlength, reduceCtorEq, false_and, if_false]
  | failed message => simp only [Closing.code, reduceCtorEq, false_and, if_false, ite_self]

end Plays

/-- An output that refuses what goes beyond a limit cuts the run and nothing more. What it has
accepted is what an output without a limit accepts, the transcript, up to the limit. The statements
that are run are the first ones of the script, up to the last line whose prompt was accepted, and
the database is the one they lead to; only the last of these lines can have a passage that was
refused. If anything was refused then the exit code is 1, except that it is 0 if only the farewell
was. -/
theorem run_cut_short (input : List UInt8) (failure : Option String) (db : Database σ)
    (limit : Nat) :
    let script := Script.read input failure
    let whole := run input failure none db
    let cut := run input failure (some limit) db
    let texts := performed (.ofLimit (some limit)) db (readings input failure)
    whole.output.octets = transcript db script ∧
      cut.output.octets = whole.output.octets.take limit ∧
      texts <+: performed (.ofLimit none) db (readings input failure) ∧
      cut.database = db.queries texts ∧
      (∃ k ≤ script.lines.length, texts = statements (script.lines.take k) ∧
        (∀ i < script.lines.length, i < k ↔ promptEnd db script.lines i ≤ limit) ∧
        ∀ i, i + 1 < k → passageEnd db script.lines i ≤ limit) ∧
      cut.code =
        if whole.output.octets.length ≤ limit then whole.code
        else if script.closing = .left ∧
          whole.output.octets.length - farewell.length ≤ limit then 0
        else 1 := by
  intro script whole cut texts
  have hwhole : Plays script (.ofLimit none) db whole _ := run_plays input failure none db
  have hcut : Plays script (.ofLimit (some limit)) db cut texts :=
    run_plays input failure (some limit) db
  rw [hwhole.octets_of_unlimited, hwhole.texts_of_unlimited]
  obtain ⟨k, hk, htexts, hreached⟩ := hcut.texts_of_limit
  refine ⟨rfl, hcut.octets_of_limit, ?_, database_run _ _ _ _, ⟨k, hk, htexts, hreached⟩, ?_⟩
  · rw [htexts]
    exact (List.take_prefix k script.lines).filterMap statement?
  · have hcode : whole.code = script.closing.code := hwhole.code
    rw [hcode]
    exact hcut.code_of_limit

/-- The reply to the only statement is cut: the statement has been run, and the exit code is 1. -/
theorem run_cut_short_in_reply :
    performed (.ofLimit (some 20)) Database.inMemory
        (readings (octetsOf "SHOW TABLES\nq\n") none) = ["SHOW TABLES"] ∧
      (run (octetsOf "SHOW TABLES\nq\n") none (some 20) Database.inMemory).code = 1 := by
  have hscript : Script.read (octetsOf "SHOW TABLES\nq\n") none =
      ⟨["SHOW TABLES".toList], .left⟩ := by decide +kernel
  obtain ⟨hwhole, -, -, -, ⟨k, hk, htexts, hprompted, -⟩, hcode⟩ :=
    run_cut_short (octetsOf "SHOW TABLES\nq\n") none Database.inMemory 20
  rw [hscript] at hk htexts hprompted
  have hfirst : promptEnd Database.inMemory ["SHOW TABLES".toList] 0 ≤ 20 := by decide +kernel
  obtain rfl : k = 1 := le_antisymm hk ((hprompted 0 Nat.one_pos).mpr hfirst)
  have hlength : (transcript Database.inMemory ⟨["SHOW TABLES".toList], .left⟩).length = 41 := by
    decide +kernel
  have hfarewell : farewell.length = 9 := by decide +kernel
  constructor
  · rw [htexts]
    decide +kernel
  · rw [hcode, hwhole, hscript, hlength, hfarewell, if_neg (by decide), if_neg (by decide)]

end Rowfile.Shell
