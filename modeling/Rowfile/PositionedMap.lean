import Rowfile.KeyedMap
import Rowfile.Text.Quoted

/-!
# Maps with a table of positions

A map from texts to values that keeps its entries in a list and, beside it, a table that records
where the entry of each key stands. Entries are reached through the table alone. Dropping entries in
bulk renumbers the keys that stay but leaves the positions of the dropped keys in the table, so a
key may be recorded at a position that belongs to another entry, or at one past the end. Reaching
for an entry past the end fails; a failed step leaves the map as far as it had come. The test by which
entries are dropped is not the map's own and may break off. Then the rest of the entries moves up and
no key is renumbered.
-/
namespace Rowfile

/-- A recorded position lies past the last entry. -/
inductive LostPosition where
  | lost
  deriving DecidableEq, Repr

structure PositionedMap (V : Type) where
  entries : List (String × V)
  positions : List (String × Nat)
  deriving DecidableEq, Repr

namespace PositionedMap

variable {V : Type}

def empty : PositionedMap V := ⟨[], []⟩

instance : Inhabited (PositionedMap V) := ⟨empty⟩

def keys (m : PositionedMap V) : List String := entryKeys m.entries

def values (m : PositionedMap V) : List V := m.entries.map Prod.snd

def size (m : PositionedMap V) : Nat := m.entries.length

def isEmpty (m : PositionedMap V) : Bool := m.entries.isEmpty

def position? (m : PositionedMap V) (key : String) : Option Nat := m.positions.lookup key

/-- A position is recorded for the key. -/
def contains (m : PositionedMap V) (key : String) : Bool := (m.position? key).isSome

def unrecord (key : String) (positions : List (String × Nat)) : List (String × Nat) :=
  positions.filter fun record => record.1 != key

def record (key : String) (position : Nat) (positions : List (String × Nat)) :
    List (String × Nat) :=
  (key, position) :: unrecord key positions

/-- The keys from a position onwards are recorded anew. -/
def renumberFrom (start : Nat) (entries : List (String × V)) (positions : List (String × Nat)) :
    List (String × Nat) :=
  (entries.zipIdx.drop start).foldl (fun table entry => record entry.1.1 entry.2 table) positions

/-- The value that a key leads to, if its position is recorded. -/
def find? (m : PositionedMap V) (key : String) : Except LostPosition (Option V) :=
  match m.position? key with
  | none => .ok none
  | some position =>
    match m.entries[position]? with
    | some entry => .ok (some entry.2)
    | none => .error .lost

/-- Replace the value that a recorded key leads to, or append an entry under a key without a
position. The answer is the value replaced. -/
def insert (m : PositionedMap V) (key : String) (value : V) :
    Except LostPosition (Option V) × PositionedMap V :=
  match m.position? key with
  | none =>
    (.ok none, ⟨m.entries ++ [(key, value)], record key m.entries.length m.positions⟩)
  | some position =>
    match m.entries[position]? with
    | some entry => (.ok (some entry.2), { m with entries := m.entries.set position (entry.1, value) })
    | none => (.error .lost, m)

/-- Change the value that a key leads to. The answer is the new value. -/
def amend (m : PositionedMap V) (key : String) (change : V → V) :
    Except LostPosition (Option V) × PositionedMap V :=
  match m.position? key with
  | none => (.ok none, m)
  | some position =>
    match m.entries[position]? with
    | some entry =>
      let value := change entry.2
      (.ok (some value), { m with entries := m.entries.set position (entry.1, value) })
    | none => (.error .lost, m)

/-- Remove the entry that a key leads to. The answer is its value. -/
def erase (m : PositionedMap V) (key : String) :
    Except LostPosition (Option V) × PositionedMap V :=
  match m.position? key with
  | none => (.ok none, m)
  | some position =>
    let positions := unrecord key m.positions
    match m.entries[position]? with
    | some entry =>
      let entries := m.entries.eraseIdx position
      (.ok (some entry.2), ⟨entries, renumberFrom position entries positions⟩)
    | none => (.error .lost, { m with positions := positions })

/-- Put a new key and value in the place that an old key leads to. The answer says whether that was
done: the old key has a position, and the new key has none unless it is the old one. -/
def rekey (m : PositionedMap V) (old new : String) (value : V) :
    Except LostPosition Bool × PositionedMap V :=
  match m.position? old with
  | none => (.ok false, m)
  | some position =>
    if new ≠ old ∧ m.contains new = true then (.ok false, m)
    else
      let positions := record new position (unrecord old m.positions)
      if position < m.entries.length then
        (.ok true, ⟨m.entries.set position (new, value), positions⟩)
      else (.error .lost, { m with positions := positions })

def retain (m : PositionedMap V) (keep : String → V → Bool) : PositionedMap V :=
  let entries := m.entries.filter fun entry => keep entry.1 entry.2
  ⟨entries, renumberFrom 0 entries m.positions⟩

/-- What a test says of an entry that it comes to. The last means that the entry goes and that
disposing of it fails. -/
inductive Verdict where
  | stays
  | goes
  | failsGoing
  deriving DecidableEq, Repr

/-- The entries after a test with the given verdicts, and whether it came through. The test fails at
an entry for which there is no verdict. -/
def sift : List Verdict → List (String × V) → Bool × List (String × V)
  | _, [] => (true, [])
  | [], entries => (false, entries)
  | .stays :: verdicts, entry :: entries =>
    let (done, left) := sift verdicts entries
    (done, entry :: left)
  | .goes :: verdicts, _ :: entries => sift verdicts entries
  | .failsGoing :: _, _ :: entries => (false, entries)

/-- Drop entries by the verdicts of a test, which may break off. The keys are recorded anew once it
came through. -/
def retainBy (m : PositionedMap V) (verdicts : List Verdict) : PositionedMap V :=
  let (done, entries) := sift verdicts m.entries
  ⟨entries, if done then renumberFrom 0 entries m.positions else m.positions⟩

def mapWithKey (m : PositionedMap V) (f : String → V → V) : PositionedMap V :=
  { m with entries := m.entries.map fun entry => (entry.1, f entry.1 entry.2) }

/-- The entries of a map of distinct keys, each recorded where it stands. -/
def ofKeyed (m : KeyedMap V) : PositionedMap V :=
  ⟨m.entries, renumberFrom 0 m.entries []⟩

/-- The map of a list of pairs: a repeated key keeps its first place and takes the last value. -/
def ofList (pairs : List (String × V)) : PositionedMap V := ofKeyed (KeyedMap.ofList pairs)

/-- An entry as text: the quoted key, a colon and the value. -/
def entryText (value : V → List Char) (entry : String × V) : List Char :=
  Text.quoted entry.1.toList ++ ": ".toList ++ value entry.2

def text (value : V → List Char) (m : PositionedMap V) : List Char :=
  '\x7b' :: (", ".toList).intercalate (m.entries.map (entryText value)) ++ ['\x7d']

@[simp] theorem entries_empty : (empty : PositionedMap V).entries = [] := rfl

@[simp]
theorem entries_retain (m : PositionedMap V) (keep : String → V → Bool) :
    (m.retain keep).entries = m.entries.filter fun entry => keep entry.1 entry.2 := rfl

@[simp]
theorem entries_mapWithKey (m : PositionedMap V) (f : String → V → V) :
    (m.mapWithKey f).entries = m.entries.map fun entry => (entry.1, f entry.1 entry.2) := rfl

theorem find?_of_position?_eq_none {m : PositionedMap V} {key : String}
    (h : m.position? key = none) : m.find? key = .ok none := by
  simp [find?, h]

end PositionedMap

end Rowfile
