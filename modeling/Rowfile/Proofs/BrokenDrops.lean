import Rowfile.Proofs.LiveKeys

/-!
# Bulk drops that break off

The test by which entries are dropped in bulk may fail, and so may the disposal of an entry that it
drops. The entries behind then move up to where the dropped ones stood, and are still recorded where
they were before. So a key may lead to the entry of another from there on. A drop that breaks off does
no harm exactly if what it leaves is a front part of the entries, and a history in which every such
drop does so keeps all keys addressable, whatever else is used and fails in it.
-/
namespace Rowfile.PositionedMap

variable {V : Type}

/-! ## Verdicts -/

theorem sift_keep (keep : String → V → Bool) (entries : List (String × V)) :
    sift (entries.map fun entry => if keep entry.1 entry.2 then .stays else .goes) entries =
      (true, entries.filter fun entry => keep entry.1 entry.2) := by
  induction entries with
  | nil => rfl
  | cons entry entries ih =>
    cases h : keep entry.1 entry.2 <;> simp [sift, h, ih]

/-- A test that answers for every entry drops as usual. -/
theorem retainBy_keep (m : PositionedMap V) (keep : String → V → Bool) :
    m.retainBy (m.entries.map fun entry => if keep entry.1 entry.2 then .stays else .goes) =
      m.retain keep := by
  simp only [retainBy, sift_keep, if_true, retain]

theorem sift_sublist (verdicts : List Verdict) (entries : List (String × V)) :
    (sift verdicts entries).2.Sublist entries := by
  induction entries generalizing verdicts with
  | nil => simp [sift]
  | cons entry entries ih =>
    match verdicts with
    | [] => exact List.Sublist.refl _
    | .stays :: verdicts => exact (ih verdicts).cons_cons entry
    | .goes :: verdicts => exact (ih verdicts).cons entry
    | .failsGoing :: _ => exact List.sublist_cons_self _ _

namespace Linked

variable {m : PositionedMap V}

/-- Entries that are left as they are recorded are a front part of the entries. -/
theorem isPrefix_iff (h : m.Linked) {entries : List (String × V)} (hsub : entries.Sublist m.entries) :
    Linked ⟨entries, m.positions⟩ ↔ entries <+: m.entries := by
  constructor
  · intro hleft
    rw [List.prefix_iff_getElem?]
    intro i hi
    have hentry := List.getElem?_eq_getElem hi
    obtain ⟨j, hj⟩ := List.mem_iff_getElem?.mp (hsub.subset (List.getElem_mem hi))
    obtain rfl : i = j :=
      Option.some.inj ((hleft.placed i _ hentry).symm.trans (h.placed j _ hj))
    exact hj
  · intro hfront
    refine ⟨h.distinct.sublist (hsub.map Prod.fst), fun i entry hi => ?_⟩
    obtain ⟨hlt, rfl⟩ := List.getElem?_eq_some_iff.mp hi
    exact h.placed i _ (List.prefix_iff_getElem?.mp hfront i hlt)

theorem retainBy_of_done (h : m.Linked) {verdicts : List Verdict}
    (hdone : (sift verdicts m.entries).1 = true) : (m.retainBy verdicts).Linked := by
  have hd : (entryKeys (sift verdicts m.entries).2).Nodup :=
    h.distinct.sublist ((sift_sublist verdicts m.entries).map Prod.fst)
  simp only [retainBy, hdone, if_true]
  refine ⟨hd, fun i entry hi => ?_⟩
  exact (lookup_renumberFrom hd 0 m.positions entry.1).1 i entry.2 (Nat.zero_le i) hi

theorem retainBy_iff (h : m.Linked) {verdicts : List Verdict}
    (hbroken : (sift verdicts m.entries).1 = false) :
    (m.retainBy verdicts).Linked ↔ (sift verdicts m.entries).2 <+: m.entries := by
  simp only [retainBy, hbroken, Bool.false_eq_true, if_false]
  exact h.isPrefix_iff (sift_sublist verdicts m.entries)

end Linked

/-! ## Addressable keys -/

/-- The keys are distinct and each is recorded where its entry stands. It leads to its own value,
setting that value keeps its place, and removing the key takes out this one entry and leaves the
others in their order. -/
structure Addressable (m : PositionedMap V) : Prop where
  distinct : m.keys.Nodup
  position? {i : Nat} {key : String} {value : V} :
    m.entries[i]? = some (key, value) → m.position? key = some i
  find? {i : Nat} {key : String} {value : V} :
    m.entries[i]? = some (key, value) → m.find? key = .ok (some value)
  insert {i : Nat} {key : String} {value : V} : m.entries[i]? = some (key, value) → ∀ new,
    m.insert key new = (.ok (some value), { m with entries := m.entries.set i (key, new) })
  erase {i : Nat} {key : String} {value : V} : m.entries[i]? = some (key, value) →
    (m.erase key).1 = .ok (some value) ∧ (m.erase key).2.entries = m.entries.eraseIdx i

theorem addressable_iff_linked {m : PositionedMap V} : m.Addressable ↔ m.Linked := by
  constructor
  · exact fun h => ⟨h.distinct, fun _ _ he => h.position? he⟩
  · intro h
    refine ⟨h.distinct, fun he => h.placed _ _ he, fun he => ?_, fun he new => ?_, fun he => ?_⟩
    · simp only [PositionedMap.find?, h.placed _ _ he, he]
    · simp only [PositionedMap.insert, h.placed _ _ he, he]
    · simp only [PositionedMap.erase, h.placed _ _ he, he, and_self]

/-! ## Histories -/

/-- A use of a map, or a bulk drop by a test that may break off. -/
inductive Attempt (V : Type) where
  | use (use : Use V)
  | drop (verdicts : List Verdict)

def Attempt.run (m : PositionedMap V) : Attempt V → PositionedMap V
  | .use used => (used.run m).2
  | .drop verdicts => m.retainBy verdicts

/-- The map after some attempts, each of which is made whatever became of those before. -/
def tried (attempts : List (Attempt V)) : PositionedMap V := attempts.foldl Attempt.run empty

theorem tried_concat (attempts : List (Attempt V)) (attempt : Attempt V) :
    tried (attempts ++ [attempt]) = attempt.run (tried attempts) := by
  simp only [tried, List.foldl_append, List.foldl_cons, List.foldl_nil]

/-- The attempt is no drop that breaks off, or it leaves a front part of the entries. -/
def Attempt.Harmless (m : PositionedMap V) : Attempt V → Prop
  | .use _ => True
  | .drop verdicts => (sift verdicts m.entries).1 = false →
    (sift verdicts m.entries).2 <+: m.entries

theorem Linked.tried_iff {m : PositionedMap V} (h : m.Linked) (attempt : Attempt V) :
    (attempt.run m).Linked ↔ attempt.Harmless m := by
  cases attempt with
  | use used => exact iff_of_true (h.run used) trivial
  | drop verdicts =>
    cases hdone : (sift verdicts m.entries).1 with
    | true =>
      exact iff_of_true (h.retainBy_of_done hdone) fun hbroken => by simp [hdone] at hbroken
    | false => exact (h.retainBy_iff hdone).trans ⟨fun h _ => h, fun h => h hdone⟩

/-- All keys are addressable at every point of a history if and only if every bulk drop in it that
breaks off leaves a front part of the entries that it finds. -/
theorem live_keys_addressable_iff (attempts : List (Attempt V)) :
    (∀ front, front <+: attempts → (tried front).Addressable) ↔
      ∀ front verdicts, front ++ [.drop verdicts] <+: attempts →
        (sift verdicts (tried front).entries).1 = false →
          (sift verdicts (tried front).entries).2 <+: (tried front).entries := by
  simp only [addressable_iff_linked]
  constructor
  · intro hlinked front verdicts hfront
    have hbefore := hlinked front ((List.prefix_append _ _).trans hfront)
    have hafter := hlinked _ hfront
    rw [tried_concat] at hafter
    exact (hbefore.tried_iff (.drop verdicts)).mp hafter
  · intro hharmless front hfront
    induction front using List.reverseRecOn with
    | nil => exact linked_empty
    | append_singleton front attempt ih =>
      rw [tried_concat, (ih ((List.prefix_append _ _).trans hfront)).tried_iff]
      cases attempt with
      | use _ => trivial
      | drop verdicts => exact hharmless front verdicts hfront

/-- Three entries are stored, and a test drops the first and fails at the second. -/
def brokenHistory : List (Attempt Nat) :=
  [.use (.insert "a" 1), .use (.insert "b" 2), .use (.insert "c" 3), .drop [.goes]]

/-- The second key leads to the value of the third, and its removal takes out the third entry. -/
theorem live_key_misled :
    (tried brokenHistory).entries = [("b", 2), ("c", 3)] ∧
      (tried brokenHistory).position? "b" = some 1 ∧
      (tried brokenHistory).find? "b" = .ok (some 3) ∧
      ((tried brokenHistory).erase "b").2.entries = [("b", 2)] ∧
      ¬(tried brokenHistory).Addressable := by
  have hentries : (tried brokenHistory).entries = [("b", 2), ("c", 3)] := by decide
  have hposition : (tried brokenHistory).position? "b" = some 1 := by decide
  refine ⟨hentries, hposition, by decide, by decide, fun h => ?_⟩
  have hown : (tried brokenHistory).position? "b" = some 0 := h.position? (by rw [hentries]; rfl)
  rw [hposition] at hown
  cases hown

end Rowfile.PositionedMap
