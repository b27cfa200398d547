import Rowfile.Proofs.IndexContents
import Rowfile.Proofs.SettledMaps
import Mathlib.Data.List.Induction

/-!
# What calls leave in an index

A call puts an id under a shown text, takes one from under a text, or does both. After any calls a
bucket lists the ids whose last mark put them there, each once, in the order of the marks by which
they came to be there and have been there since; to put an id where it is already does not move it.
There is a bucket for each text with such an id and no other, and the buckets stand in the order in
which they last came to have an id.
-/
namespace Rowfile.Index

/-! ## Marks -/

inductive Mark where
  | put (key : String) (id : RecordId)
  | take (key : String) (id : RecordId)
  deriving DecidableEq

/-- The last mark on the id under the text puts it there. -/
def Held (marks : List Mark) (key : String) (id : RecordId) : Prop :=
  marks.reverse.find? (fun mark => mark == .put key id || mark == .take key id) =
    some (.put key id)

section
variable {marks : List Mark} {mark : Mark} {key other : String} {id otherId : RecordId}

theorem not_held_nil : ¬Held [] key id := by simp [Held]

theorem held_concat_put : Held (marks ++ [.put other otherId]) key id ↔
    Held marks key id ∨ other = key ∧ id = otherId := by
  by_cases h : other = key ∧ id = otherId
  · obtain ⟨rfl, rfl⟩ := h
    simp [Held]
  · have hne : Mark.put other otherId ≠ .put key id := fun he => by
      obtain ⟨rfl, rfl⟩ := Mark.put.inj he
      exact h ⟨rfl, rfl⟩
    simp [Held, h, hne]

theorem held_concat_take : Held (marks ++ [.take other otherId]) key id ↔
    Held marks key id ∧ ¬(other = key ∧ id = otherId) := by
  by_cases h : other = key ∧ id = otherId
  · obtain ⟨rfl, rfl⟩ := h
    simp [Held]
  · have hne : Mark.take other otherId ≠ .take key id := fun he => by
      obtain ⟨rfl, rfl⟩ := Mark.take.inj he
      exact h ⟨rfl, rfl⟩
    simp [Held, h, hne]

theorem eq_put_of_held_concat (h : Held (marks ++ [mark]) key id) (hno : ¬Held marks key id) :
    mark = .put key id := by
  cases mark with
  | put other otherId =>
    obtain ⟨rfl, rfl⟩ := (held_concat_put.mp h).resolve_left hno
    rfl
  | take other otherId => exact absurd (held_concat_take.mp h).1 hno

end

/-! ## What has held since a mark -/

/-- Something holds after the mark at a position and all marks behind it, and did not hold before
it. -/
structure Since (P : List Mark → Prop) (marks : List Mark) (i : Nat) : Prop where
  lt : i < marks.length
  before : ¬P (marks.take i)
  after : ∀ j, i < j → j ≤ marks.length → P (marks.take j)

section
variable {P : List Mark → Prop} {marks : List Mark} {mark : Mark} {i : Nat}

theorem Since.concat (h : Since P marks i) (hP : P (marks ++ [mark])) :
    Since P (marks ++ [mark]) i := by
  refine ⟨?_, ?_, fun j hij hj => ?_⟩
  · rw [List.length_append]
    exact Nat.lt_add_right _ h.lt
  · rw [List.take_append_of_le_length (Nat.le_of_lt h.lt)]
    exact h.before
  · rcases Nat.lt_or_ge marks.length j with hlt | hle
    · rw [List.take_of_length_le (by rw [List.length_append]; exact hlt)]
      exact hP
    · rw [List.take_append_of_le_length hle]
      exact h.after j hij hle

theorem since_length (hno : ¬P marks) (hP : P (marks ++ [mark])) :
    Since P (marks ++ [mark]) marks.length := by
  refine ⟨by simp, ?_, fun j hij _ => ?_⟩
  · rw [List.take_left]
    exact hno
  · rw [List.take_of_length_le (by rw [List.length_append]; exact hij)]
    exact hP

theorem exists_since (hnil : ¬P []) (hP : P marks) : ∃ i, Since P marks i := by
  induction marks using List.reverseRecOn with
  | nil => exact absurd hP hnil
  | append_singleton marks mark ih =>
    by_cases h : P marks
    · obtain ⟨i, hi⟩ := ih h
      exact ⟨i, hi.concat hP⟩
    · exact ⟨_, since_length h hP⟩

end

/-- One of two things was reached at an earlier position than the other. -/
def Earlier {α : Type} (At : α → Nat → Prop) (a b : α) : Prop :=
  ∃ i j, At a i ∧ At b j ∧ i < j

/-- A list holds what a property holds of, in the order in which the property came to hold. One more
mark leaves it so when it takes members out or puts a new one last. -/
theorem pairwise_earlier_concat {α : Type} {P : α → List Mark → Prop} (hnil : ∀ a, ¬P a [])
    {marks : List Mark} {mark : Mark} {l l' : List α}
    (h : l.Pairwise (Earlier fun a => Since (P a) marks)) (hl : ∀ a, a ∈ l ↔ P a marks)
    (hl' : ∀ a, a ∈ l' ↔ P a (marks ++ [mark]))
    (hstep : l'.Sublist l ∨ ∃ b, b ∉ l ∧ l' = l ++ [b]) :
    l'.Pairwise (Earlier fun a => Since (P a) (marks ++ [mark])) := by
  -- What was listed and still is has held since the same position.
  have hkept : ∀ {kept : List α}, kept.Sublist l → (∀ a ∈ kept, a ∈ l') →
      kept.Pairwise (Earlier fun a => Since (P a) (marks ++ [mark])) := by
    intro kept hs hkept
    refine (h.sublist hs).imp_of_mem fun ha hb hab => ?_
    obtain ⟨i, j, hi, hj, hij⟩ := hab
    exact ⟨i, j, hi.concat ((hl' _).mp (hkept _ ha)), hj.concat ((hl' _).mp (hkept _ hb)), hij⟩
  rcases hstep with hs | ⟨b, hb, rfl⟩
  · exact hkept hs fun _ ha => ha
  · have hold : ∀ a ∈ l, P a (marks ++ [mark]) := fun a ha =>
      (hl' a).mp (List.mem_append_left _ ha)
    refine List.pairwise_append.mpr ⟨hkept (.refl l) fun _ ha => List.mem_append_left _ ha,
      List.pairwise_singleton _ _, fun a ha b' hb' => ?_⟩
    obtain rfl := List.mem_singleton.mp hb'
    obtain ⟨i, hi⟩ := exists_since (hnil a) ((hl a).mp ha)
    exact ⟨i, _, hi.concat (hold a ha), since_length ((hl _).not.mp hb)
      ((hl' _).mp List.mem_concat_self), hi.lt⟩

/-! ## An index that follows marks -/

def Filled (marks : List Mark) (key : String) : Prop := ∃ id, Held marks key id

theorem mem_keys_iff_filled {index : Index} {marks : List Mark} (ht : index.Tidy)
    (hm : ∀ key id, id ∈ index.lookup key ↔ Held marks key id) (key : String) :
    key ∈ index.buckets.keys ↔ Filled marks key := by
  rw [ht.mem_keys_iff]
  constructor
  · intro hne
    obtain ⟨id, hid⟩ := List.exists_mem_of_ne_nil _ hne
    exact ⟨id, (hm key id).mp hid⟩
  · rintro ⟨id, hid⟩
    exact List.ne_nil_of_mem ((hm key id).mpr hid)

/-- The buckets are those of the texts with an id and list these ids, all in order. -/
structure Follows (index : Index) (marks : List Mark) : Prop extends Tidy index where
  mem_lookup : ∀ key id, id ∈ index.lookup key ↔ Held marks key id
  lookup_order : ∀ key,
    (index.lookup key).Pairwise (Earlier fun id => Since (Held · key id) marks)
  keys_order : index.buckets.keys.Pairwise (Earlier fun key => Since (Filled · key) marks)

theorem follows_nil : empty.Follows [] := by
  refine ⟨tidy_empty, fun key id => ?_, fun key => List.Pairwise.nil, List.Pairwise.nil⟩
  exact iff_of_false List.not_mem_nil not_held_nil

/-- One more mark takes ids out of the bucket of its text or puts one last, and takes out the bucket
or puts it last. -/
theorem Follows.concat {index index' : Index} {marks : List Mark} {mark : Mark}
    (h : index.Follows marks) (ht : index'.Tidy)
    (hm : ∀ key id, id ∈ index'.lookup key ↔ Held (marks ++ [mark]) key id)
    (hlookup : ∀ key, (index'.lookup key).Sublist (index.lookup key) ∨
      ∃ id, id ∉ index.lookup key ∧ index'.lookup key = index.lookup key ++ [id])
    (hkeys : index'.buckets.keys.Sublist index.buckets.keys ∨
      ∃ key, key ∉ index.buckets.keys ∧ index'.buckets.keys = index.buckets.keys ++ [key]) :
    index'.Follows (marks ++ [mark]) where
  toTidy := ht
  mem_lookup := hm
  lookup_order key := pairwise_earlier_concat (fun _ => not_held_nil) (h.lookup_order key)
    (h.mem_lookup key) (hm key) (hlookup key)
  keys_order := pairwise_earlier_concat (fun _ ⟨_, hid⟩ => not_held_nil hid) h.keys_order
    (mem_keys_iff_filled h.toTidy h.mem_lookup) (mem_keys_iff_filled ht hm) hkeys

theorem Follows.add {index : Index} {marks : List Mark} (h : index.Follows marks) (value : Value)
    (id : RecordId) : (index.add value id).Follows (marks ++ [.put value.shown id]) := by
  refine h.concat (h.toTidy.add value id) (fun key other => ?_) (fun key => ?_) ?_
  · rw [mem_lookup_add, h.mem_lookup, held_concat_put]
  · rw [lookup_add]
    split
    · split
      · exact .inl (.refl _)
      · next hid => exact .inr ⟨id, fun hm => hid (List.contains_iff_mem.mpr hm), rfl⟩
    · exact .inl (.refl _)
  · rw [Index.add, KeyedMap.keys, KeyedMap.entries_insert, KeyedMap.entryKeys_setEntry]
    split
    · exact .inl (.refl _)
    · next hkey => exact .inr ⟨_, hkey, rfl⟩

theorem keys_remove_sublist (index : Index) (value : Value) (id : RecordId) :
    (index.remove value id).buckets.keys.Sublist index.buckets.keys := by
  unfold remove
  split
  · exact .refl _
  · next ids hfound =>
    split
    · exact List.filter_sublist.map Prod.fst
    · have hkey : value.shown ∈ entryKeys index.buckets.entries :=
        KeyedMap.find?_isSome.mp (by rw [hfound]; rfl)
      rw [KeyedMap.keys, KeyedMap.entries_insert, KeyedMap.entryKeys_setEntry, if_pos hkey]
      exact .refl _

theorem Follows.remove {index : Index} {marks : List Mark} (h : index.Follows marks)
    (value : Value) (id : RecordId) :
    (index.remove value id).Follows (marks ++ [.take value.shown id]) := by
  refine h.concat (h.toTidy.remove value id) (fun key other => ?_) (fun key => ?_)
    (.inl (index.keys_remove_sublist value id))
  · rw [mem_lookup_remove, h.mem_lookup, held_concat_take]
  · rw [lookup_remove]
    split
    · exact .inl List.filter_sublist
    · exact .inl (.refl _)

/-! ## Calls -/

inductive Call where
  | add (value : Value) (id : RecordId)
  | remove (value : Value) (id : RecordId)
  | replace (old : Option Value) (oldId : RecordId) (new : Option Value) (newId : RecordId)

namespace Call

def run : Call → Index → Index
  | .add value id, index => index.add value id
  | .remove value id, index => index.remove value id
  | .replace old oldId new newId, index => index.replace old oldId new newId

/-- The marks of a call. To replace is to take the old id from under the old value, and then to put
the new one under the new value, where there are such values. -/
def marks : Call → List Mark
  | .add value id => [.put value.shown id]
  | .remove value id => [.take value.shown id]
  | .replace old oldId new newId =>
    (old.map fun value => .take value.shown oldId).toList ++
      (new.map fun value => .put value.shown newId).toList

end Call

/-- The index that calls leave, from the one without buckets on. -/
def after (calls : List Call) : Index := calls.foldl (fun index call => call.run index) empty

def marksOf (calls : List Call) : List Mark := calls.flatMap Call.marks

/-- To replace is to remove and then to add, where there are such values. -/
theorem replace_eq (index : Index) (old : Option Value) (oldId : RecordId) (new : Option Value)
    (newId : RecordId) : index.replace old oldId new newId =
      let without := old.elim index fun value => index.remove value oldId
      new.elim without fun value => without.add value newId := by
  cases old <;> cases new <;> rfl

theorem Follows.run {index : Index} {marks : List Mark} (h : index.Follows marks) (call : Call) :
    (call.run index).Follows (marks ++ call.marks) := by
  cases call with
  | add value id => exact h.add value id
  | remove value id => exact h.remove value id
  | replace old oldId new newId =>
    rw [Call.run, Call.marks, replace_eq, ← List.append_assoc]
    have hwithout : (old.elim index fun value => index.remove value oldId).Follows
        (marks ++ (old.map fun value : Value => Mark.take value.shown oldId).toList) := by
      cases old with
      | none => simpa using h
      | some value => exact h.remove value oldId
    cases new with
    | none =>
      rw [Option.map_none, Option.toList_none, List.append_nil]
      exact hwithout
    | some value => exact hwithout.add value newId

theorem follows_after (calls : List Call) : (after calls).Follows (marksOf calls) := by
  induction calls using List.reverseRecOn with
  | nil => exact follows_nil
  | append_singleton calls call ih =>
    have hmarks : marksOf (calls ++ [call]) = marksOf calls ++ call.marks := by simp [marksOf]
    rw [hmarks, after, List.foldl_append]
    exact ih.run call

/-! ## Buckets with recorded positions -/

/-- An id is put last in the bucket that a key leads to, unless it is there already. Where the key
leads to none a bucket is made. -/
def addTo (buckets : PositionedMap (List RecordId)) (key : String) (id : RecordId) :
    Except LostPosition (PositionedMap (List RecordId)) :=
  match buckets.amend key fun ids => if ids.contains id then ids else ids ++ [id] with
  | (.error fault, _) => .error fault
  | (.ok (some _), buckets) => .ok buckets
  | (.ok none, buckets) =>
    match buckets.insert key [id] with
    | (.error fault, _) => .error fault
    | (.ok _, buckets) => .ok buckets

/-- An id is taken out of the bucket that a key leads to, and the bucket after the last one. -/
def takeFrom (buckets : PositionedMap (List RecordId)) (key : String) (id : RecordId) :
    Except LostPosition (PositionedMap (List RecordId)) :=
  match buckets.amend key fun ids => ids.filter (· != id) with
  | (.error fault, _) => .error fault
  | (.ok (some []), buckets) =>
    match buckets.erase key with
    | (.error fault, _) => .error fault
    | (.ok _, buckets) => .ok buckets
  | (.ok _, buckets) => .ok buckets

/-- A call on buckets with recorded positions. -/
def Call.runOn : Call → PositionedMap (List RecordId) →
    Except LostPosition (PositionedMap (List RecordId))
  | .add value id, buckets => addTo buckets value.shown id
  | .remove value id, buckets => takeFrom buckets value.shown id
  | .replace old oldId new newId, buckets =>
    let without := old.elim (.ok buckets) fun value => takeFrom buckets value.shown oldId
    without.bind fun buckets =>
      new.elim (.ok buckets) fun value => addTo buckets value.shown newId

section
variable {buckets : PositionedMap (List RecordId)} {index : Index}

theorem exists_addTo (h : buckets.StandsFor index.buckets) (value : Value) (id : RecordId) :
    ∃ buckets', addTo buckets value.shown id = .ok buckets' ∧
      buckets'.StandsFor (index.add value id).buckets := by
  obtain ⟨amended, hamend, hstands⟩ := h.amend value.shown fun ids =>
    if ids.contains id then ids else ids ++ [id]
  rw [addTo, hamend]
  rw [Index.add, lookup]
  cases hf : index.buckets.find? value.shown with
  | none =>
    simp only [hf, Option.map_none, Option.getD_none] at hstands
    obtain ⟨inserted, hinsert, hstands⟩ := hstands.insert value.shown [id]
    simp only [Option.map_none, hinsert]
    exact ⟨inserted, rfl, hstands⟩
  | some ids =>
    simp only [hf, Option.map_some, Option.getD_some] at hstands
    exact ⟨amended, rfl, hstands⟩

theorem exists_takeFrom (h : buckets.StandsFor index.buckets) (value : Value) (id : RecordId) :
    ∃ buckets', takeFrom buckets value.shown id = .ok buckets' ∧
      buckets'.StandsFor (index.remove value id).buckets := by
  obtain ⟨amended, hamend, hstands⟩ := h.amend value.shown fun ids => ids.filter (· != id)
  rw [takeFrom, hamend, Index.remove]
  cases hf : index.buckets.find? value.shown with
  | none =>
    simp only [hf, Option.map_none, Option.getD_none] at hstands
    exact ⟨amended, rfl, hstands⟩
  | some ids =>
    simp only [hf, Option.map_some, Option.getD_some] at hstands
    simp only [Option.map_some]
    cases hrest : ids.filter (· != id) with
    | nil =>
      rw [hrest] at hstands
      obtain ⟨erased, herase, hstands⟩ := hstands.erase value.shown
      rw [KeyedMap.erase_insert_self] at hstands
      simp only [herase]
      exact ⟨erased, rfl, hstands⟩
    | cons first rest =>
      rw [hrest] at hstands
      exact ⟨amended, rfl, hstands⟩

theorem exists_runOn (h : buckets.StandsFor index.buckets) (call : Call) :
    ∃ buckets', call.runOn buckets = .ok buckets' ∧
      buckets'.StandsFor (call.run index).buckets := by
  cases call with
  | add value id => exact exists_addTo h value id
  | remove value id => exact exists_takeFrom h value id
  | replace old oldId new newId =>
    have hwithout : ∃ without,
        (old.elim (.ok buckets) fun value => takeFrom buckets value.shown oldId) = .ok without ∧
        without.StandsFor (old.elim index fun value => index.remove value oldId).buckets := by
      cases old with
      | none => exact ⟨buckets, rfl, h⟩
      | some value => exact exists_takeFrom h value oldId
    obtain ⟨without, hwithout, hstands⟩ := hwithout
    simp only [Call.runOn, hwithout, Except.bind, Call.run, replace_eq]
    cases new with
    | none => exact ⟨without, rfl, hstands⟩
    | some value => exact exists_addTo hstands value newId

/-- Calls on buckets with recorded positions run to the end and leave the buckets that they leave in
the index. -/
theorem exists_foldlM_runOn (h : buckets.StandsFor index.buckets) (calls : List Call) :
    ∃ buckets', calls.foldlM (fun buckets call => call.runOn buckets) buckets = .ok buckets' ∧
      buckets'.StandsFor (calls.foldl (fun index call => call.run index) index).buckets := by
  induction calls generalizing buckets index with
  | nil => exact ⟨buckets, rfl, h⟩
  | cons call calls ih =>
    obtain ⟨next, hnext, hstands⟩ := exists_runOn h call
    obtain ⟨last, hlast, hstands⟩ := ih hstands
    refine ⟨last, ?_, hstands⟩
    rw [List.foldlM_cons, hnext]
    exact hlast

end

/-! ## After all calls -/

/-- The mark at a position puts the id under the text, where it was not, and the id has been there
since. -/
def EnteredAt (marks : List Mark) (key : String) (id : RecordId) (i : Nat) : Prop :=
  marks[i]? = some (.put key id) ∧ Since (Held · key id) marks i

/-- There has been an id under the text since the mark at a position, and there was none before
it. -/
def OpenedAt (marks : List Mark) (key : String) (i : Nat) : Prop := Since (Filled · key) marks i

theorem enteredAt_of_since {marks : List Mark} {key : String} {id : RecordId} {i : Nat}
    (h : Since (Held · key id) marks i) : EnteredAt marks key id i := by
  refine ⟨?_, h⟩
  have hheld := h.after (i + 1) (Nat.lt_succ_self i) h.lt
  rw [← List.take_concat_get' _ i h.lt] at hheld
  rw [List.getElem?_eq_getElem h.lt, eq_put_of_held_concat hheld h.before]

/-- After any calls a bucket lists the ids that were last put there, each once, in the order of the
marks that put them there; no bucket is empty, and the buckets stand in the order in which they last
came to have an id. The calls leave these buckets also when the positions of keys are recorded, and
find every recorded position in place. -/
theorem index_follows_calls (calls : List Call) :
    (∀ key, ((after calls).lookup key).Nodup ∧
      (∀ id, id ∈ (after calls).lookup key ↔ Held (marksOf calls) key id) ∧
      ((after calls).lookup key).Pairwise (Earlier (EnteredAt (marksOf calls) key))) ∧
    (∀ key, (after calls).buckets.find? key ≠ some []) ∧
    (after calls).buckets.keys.Pairwise (Earlier (OpenedAt (marksOf calls))) ∧
    ∃ buckets, calls.foldlM (fun buckets call => call.runOn buckets) .empty = .ok buckets ∧
      buckets.StandsFor (after calls).buckets := by
  have h := follows_after calls
  refine ⟨fun key => ⟨h.nodup key, h.mem_lookup key, ?_⟩, fun key hf => h.filled key [] hf rfl, h.keys_order,
    exists_foldlM_runOn PositionedMap.standsFor_empty calls⟩
  refine (h.lookup_order key).imp fun hab => ?_
  obtain ⟨i, j, hi, hj, hij⟩ := hab
  exact ⟨i, j, enteredAt_of_since hi, enteredAt_of_since hj, hij⟩

-- An integer and a text that are shown alike share a bucket, and an id that is put again stays.
example : (after [.add (.integer 1) "a", .add (.text "1") "b", .add (.integer 1) "a"]).lookup "1" =
    ["a", "b"] := by decide +kernel

end Rowfile.Index
