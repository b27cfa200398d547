import Rowfile.Catalog.Select
import Rowfile.Proofs.Peeling
import Rowfile.Proofs.Replay
import Mathlib.Data.List.Basic

/-!
# Filtered, arranged and cut

A filter is evaluated on the records of a table in their order. A selection fails over the first
record on which that cannot be done; otherwise every record that passes is among the rows once. An
order arranges the rows by the texts that they show in its column, and rows that show the same text
stay in the order of the table, whichever the direction. A positive limit takes the first rows of an
arrangement that does not depend on the limit, so a smaller limit answers the beginning of what a
larger one does.
-/
namespace Rowfile

/-! ## Records that pass a filter -/

namespace Predicate

def Decides (filter : Option Predicate) (record : Record) : Prop :=
  ∃ accepted, accepts filter record = .ok accepted

def passes (filter : Option Predicate) (record : Record) : Bool :=
  match accepts filter record with
  | .ok accepted => accepted
  | .error _ => false

/-- The fault is that of the first record on which the filter cannot be evaluated. -/
def FailsFirst (filter : Option Predicate) (fault : Fault) (records : List Record) : Prop :=
  ∃ front record back, records = front ++ record :: back ∧
    (∀ earlier ∈ front, Decides filter earlier) ∧ accepts filter record = .error fault

variable {filter : Option Predicate} {record : Record} {records : List Record} {fault : Fault}

theorem passes_of_accepts {accepted : Bool} (h : accepts filter record = .ok accepted) :
    passes filter record = accepted := by
  rw [passes, h]

/-- Where a filter can be evaluated there is no fault. -/
theorem decides_of_forall_not_failsFirst (h : ∀ fault, ¬FailsFirst filter fault records) :
    ∀ record ∈ records, Decides filter record := by
  induction records with
  | nil => exact fun _ hr => (List.not_mem_nil hr).elim
  | cons first rest ih =>
    cases hfirst : accepts filter first with
    | error fault =>
      exact (h fault ⟨[], first, rest, rfl, List.forall_mem_nil _, hfirst⟩).elim
    | ok accepted =>
      refine List.forall_mem_cons.mpr ⟨⟨accepted, hfirst⟩, ih ?_⟩
      rintro fault ⟨front, record, back, rfl, hfront, hrecord⟩
      exact h fault ⟨first :: front, record, back, rfl,
        List.forall_mem_cons.mpr ⟨⟨accepted, hfirst⟩, hfront⟩, hrecord⟩

end Predicate

section
variable {filter : Option Predicate} {entries found : List (RecordId × Record)} {fault : Fault}

/-- The entries that pass are found when the filter can be evaluated on every record. -/
theorem passing_eq_ok_iff : passing filter entries = .ok found ↔
    (∀ entry ∈ entries, Predicate.Decides filter entry.2) ∧
      found = entries.filter fun entry => Predicate.passes filter entry.2 := by
  induction entries generalizing found with
  | nil => simp [passing, eq_comm]
  | cons entry rest ih =>
    rw [List.forall_mem_cons, List.filter_cons]
    simp only [passing, bind_eq_ok, ih, pure_eq_ok, Except.ok.injEq]
    constructor
    · rintro ⟨accepted, ha, _, ⟨hrest, rfl⟩, rfl⟩
      rw [Predicate.passes_of_accepts ha]
      exact ⟨⟨⟨accepted, ha⟩, hrest⟩, rfl⟩
    · rintro ⟨⟨⟨accepted, ha⟩, hrest⟩, rfl⟩
      refine ⟨accepted, ha, _, ⟨hrest, rfl⟩, ?_⟩
      rw [Predicate.passes_of_accepts ha]

theorem passing_eq_error_iff : passing filter entries = .error fault ↔
    Predicate.FailsFirst filter fault (entries.map Prod.snd) := by
  constructor
  · intro h
    induction entries with
    | nil => cases h
    | cons entry rest ih =>
      simp only [passing, bind_eq_error, pure_eq_ok, reduceCtorEq, and_false, exists_false,
        or_false] at h
      rcases h with h | ⟨accepted, ha, h⟩
      · exact ⟨[], entry.2, rest.map Prod.snd, rfl, List.forall_mem_nil _, h⟩
      · obtain ⟨front, record, back, hrest, hfront, hrecord⟩ := ih h
        refine ⟨entry.2 :: front, record, back, ?_,
          List.forall_mem_cons.mpr ⟨⟨accepted, ha⟩, hfront⟩, hrecord⟩
        rw [List.map_cons, hrest, List.cons_append]
  -- The filter passes over the records before the failing one, so the induction is on these.
  · rintro ⟨front, record, back, hrecords, hfront, hrecord⟩
    induction front generalizing entries with
    | nil =>
      obtain ⟨entry, rest, rfl, rfl, _⟩ := List.map_eq_cons_iff.mp hrecords
      rw [passing, hrecord, error_bind]
    | cons first front ih =>
      obtain ⟨entry, rest, rfl, rfl, hrest⟩ := List.map_eq_cons_iff.mp hrecords
      obtain ⟨⟨accepted, ha⟩, hfront⟩ := List.forall_mem_cons.mp hfront
      rw [passing, ha, ok_bind, ih hrest hfront, error_bind]

end

/-! ## Arranged rows -/

namespace OrderBy

/-- The first record may stand before the second: texts rise by code points, or fall. -/
def Before (order : OrderBy) (a b : Record) : Prop :=
  if order.descending then order.text b ≤ order.text a else order.text a ≤ order.text b

/-- The same rows in order, and those that show the same text as they stood. -/
structure Arranges (order : OrderBy) (rows arranged : List Record) : Prop where
  perm : arranged.Perm rows
  ordered : arranged.Pairwise order.Before
  ties : ∀ text, arranged.filter (order.text · == text) = rows.filter (order.text · == text)

/-- The rows in an order, or as they stood without one. -/
def Arranged (order : Option OrderBy) (rows arranged : List Record) : Prop :=
  match order with
  | some order => order.Arranges rows arranged
  | none => arranged = rows

variable {order : OrderBy}

theorem isLE_compare_iff {a b : String} : (compare a b).isLE = true ↔ a ≤ b :=
  isLE_compareOfLessAndEq Std.le_antisymm Std.not_le (fun _ _ => Std.le_total)

theorem inOrder_iff {a b : Record} : order.inOrder a b = true ↔ order.Before a b := by
  unfold inOrder Before
  split <;> exact isLE_compare_iff

theorem inOrder_trans (a b c : Record) (hab : order.inOrder a b = true)
    (hbc : order.inOrder b c = true) : order.inOrder a c = true := by
  rw [inOrder_iff] at hab hbc ⊢
  unfold Before at hab hbc ⊢
  split at hab
  · next h =>
    rw [if_pos h] at hbc ⊢
    exact Std.le_trans hbc hab
  · next h =>
    rw [if_neg h] at hbc ⊢
    exact Std.le_trans hab hbc

theorem inOrder_total (a b : Record) : (order.inOrder a b || order.inOrder b a) = true := by
  rw [Bool.or_eq_true, inOrder_iff, inOrder_iff]
  unfold Before
  split <;> exact Std.le_total

/-- Rows that show the same text are in order as they stand, so sorting keeps them so. -/
theorem filter_mergeSort (rows : List Record) (text : String) :
    (rows.mergeSort order.inOrder).filter (order.text · == text) =
      rows.filter (order.text · == text) := by
  have hties : (rows.filter (order.text · == text)).Pairwise
      fun a b => order.inOrder a b = true := by
    refine List.pairwise_of_forall_mem_list fun a ha b hb => inOrder_iff.mpr ?_
    have hab : order.text a = order.text b :=
      (eq_of_beq (List.mem_filter.mp ha).2).trans (eq_of_beq (List.mem_filter.mp hb).2).symm
    unfold Before
    split
    · exact Std.le_of_eq hab.symm
    · exact Std.le_of_eq hab
  have hsub : (rows.filter (order.text · == text)).Sublist
      ((rows.mergeSort order.inOrder).filter (order.text · == text)) := by
    have hkept := (List.sublist_mergeSort inOrder_trans inOrder_total hties
      List.filter_sublist).filter (order.text · == text)
    simpa only [List.filter_filter, Bool.and_self] using hkept
  -- Sorting is a permutation, so it shows the text as often as before.
  exact (hsub.eq_of_length
    ((List.mergeSort_perm rows order.inOrder).filter _).length_eq.symm).symm

theorem sort_perm (order : Option OrderBy) (rows : List Record) :
    (sort order rows).Perm rows := by
  cases order with
  | none => exact .refl rows
  | some order => exact List.mergeSort_perm rows order.inOrder

theorem arranged_sort (order : Option OrderBy) (rows : List Record) :
    Arranged order rows (sort order rows) := by
  cases order with
  | none => rfl
  | some order =>
    refine ⟨sort_perm (some order) rows, ?_, filter_mergeSort rows⟩
    exact (List.pairwise_mergeSort inOrder_trans inOrder_total rows).imp inOrder_iff.mp

end OrderBy

theorem limitTo_none (rows : List Record) : limitTo none rows = rows := rfl

theorem limitTo_of_pos {n : Nat} (h : 0 < n) (rows : List Record) :
    limitTo (some n) rows = rows.take n := by
  cases n with
  | zero => cases h
  | succ n => rfl

/-! ## Selections -/

namespace Catalog

variable {catalog : Catalog} {name : String} {table : Table}

theorem select_eq_ok_iff {filter : Option Predicate} {order : Option OrderBy}
    {limit : Option Nat} {rows : List Record} :
    catalog.select name filter order limit = .ok rows ↔
      ∃ table found, catalog.tables.find? name = some table ∧
        passing filter table.records.entries = .ok found ∧
        rows = limitTo limit (OrderBy.sort order (found.map Prod.snd)) := by
  simp only [select, bind_eq_ok, table_eq_ok_iff, pure_eq_ok, Except.ok.injEq, exists_and_left,
    eq_comm (a := rows)]

theorem select_eq_error_iff (h : catalog.tables.find? name = some table)
    {filter : Option Predicate} {order : Option OrderBy} {limit : Option Nat} {fault : Fault} :
    catalog.select name filter order limit = .error fault ↔
      Predicate.FailsFirst filter fault table.records.values := by
  rw [PositionedMap.values, ← passing_eq_error_iff, select, table_eq_ok_iff.mpr h]
  simp only [ok_bind, bind_eq_error, pure_eq_ok, reduceCtorEq, and_false, exists_false, or_false]

end Catalog

/-- A selection fails exactly when the filter cannot be evaluated on some record of the table, with
the fault of the first such record. Otherwise its rows are the first ones, up to a positive limit, of
an arrangement of the records that pass, which is the same for every limit; so the rows for a smaller
positive limit are the beginning of the rows for a larger one. -/
theorem select_filters_arranges_cuts {catalog : Catalog} {name : String} {table : Table}
    (h : catalog.tables.find? name = some table) (filter : Option Predicate)
    (order : Option OrderBy) :
    (∀ limit fault, catalog.select name filter order limit = .error fault ↔
      Predicate.FailsFirst filter fault table.records.values) ∧
    ((∀ fault, ¬Predicate.FailsFirst filter fault table.records.values) →
      ∃ arranged, OrderBy.Arranged order
          (table.records.values.filter (Predicate.passes filter)) arranged ∧
        catalog.select name filter order none = .ok arranged ∧
        catalog.select name filter order (some 0) = .ok arranged ∧
        ∀ n, 0 < n → catalog.select name filter order (some n) = .ok (arranged.take n)) ∧
    ∀ m n fewer more, 0 < m → m ≤ n → catalog.select name filter order (some m) = .ok fewer →
      catalog.select name filter order (some n) = .ok more → fewer <+: more := by
  refine ⟨fun limit fault => Catalog.select_eq_error_iff h, fun hnone => ?_,
    fun m n fewer more hm hmn hfewer hmore => ?_⟩
  · have hdecides : ∀ entry ∈ table.records.entries, Predicate.Decides filter entry.2 :=
      fun entry he => Predicate.decides_of_forall_not_failsFirst hnone entry.2
        (List.mem_map_of_mem he)
    have hpassing := passing_eq_ok_iff.mpr ⟨hdecides, rfl⟩
    have hrows : (table.records.entries.filter fun entry =>
        Predicate.passes filter entry.2).map Prod.snd =
        table.records.values.filter (Predicate.passes filter) := by
      rw [PositionedMap.values, List.filter_map, Function.comp_def]
    have hselect : ∀ limit, catalog.select name filter order limit =
        .ok (limitTo limit (OrderBy.sort order
          (table.records.values.filter (Predicate.passes filter)))) := fun limit =>
      Catalog.select_eq_ok_iff.mpr ⟨table, _, h, hpassing, by rw [hrows]⟩
    refine ⟨_, OrderBy.arranged_sort order _, hselect none, hselect (some 0), fun n hn => ?_⟩
    rw [hselect, limitTo_of_pos hn]
  · obtain ⟨_, found, ht, hfound, rfl⟩ := Catalog.select_eq_ok_iff.mp hfewer
    obtain ⟨_, found', ht', hfound', rfl⟩ := Catalog.select_eq_ok_iff.mp hmore
    obtain rfl := Option.some.inj (ht.symm.trans ht')
    obtain rfl := Except.ok.inj (hfound.symm.trans hfound')
    rw [limitTo_of_pos hm, limitTo_of_pos (Nat.lt_of_lt_of_le hm hmn)]
    exact List.take_prefix_take_left hmn

/-- Games with scores, of which two are equal, one is much greater and one is missing. -/
def scoredGames : MemoryDatabase :=
  Database.replay
    [.createTable "games" (.ofColumns [⟨"id", .int, true, false, false, none⟩,
        ⟨"score", .int, false, false, false, none⟩]),
      .insertValues "games" none [.integer 1, .integer 20],
      .insertValues "games" none [.integer 2, .integer 5],
      .insertValues "games" none [.integer 3, .integer 20],
      .insertValues "games" none [.integer 4, .integer 100],
      .insertValues "games" (some ["id"]) [.integer 5]] ()

/-- Falling by text, the equal scores stay in the order of the table. -/
theorem select_filters_arranges_cuts_scores :
    ∃ table arranged,
      scoredGames.catalog.tables.find? "games" = some table ∧
      OrderBy.Arranged (some ⟨"score", true⟩)
        (table.records.values.filter (Predicate.passes (some (.compare ⟨"id", .ne, "4"⟩))))
        arranged ∧
      scoredGames.catalog.select "games"
        (some (.compare ⟨"id", .ne, "4"⟩)) (some ⟨"score", true⟩) (some 2) =
          .ok (arranged.take 2) ∧
      (arranged.filter (OrderBy.text ⟨"score", true⟩ · == "20")).map (·.find? "id") =
        [some (.integer 1), some (.integer 3)] := by
  have hties : (scoredGames.catalog.tables.find? "games").map
      (fun table => ((table.records.values.filter
        (Predicate.passes (some (.compare ⟨"id", .ne, "4"⟩)))).filter
          (OrderBy.text ⟨"score", true⟩ · == "20")).map (·.find? "id")) =
      some [some (.integer 1), some (.integer 3)] := by
    decide +kernel
  obtain ⟨table, ht, hties⟩ := Option.map_eq_some_iff.mp hties
  -- Whether the filter can be evaluated does not depend on the order, and without one it is computed.
  have hok : (scoredGames.catalog.select "games"
      (some (.compare ⟨"id", .ne, "4"⟩)) none none).isOk = true := by
    decide +kernel
  have hnone : ∀ fault, ¬Predicate.FailsFirst (some (.compare ⟨"id", .ne, "4"⟩)) fault
      table.records.values := by
    intro fault hfails
    rw [(Catalog.select_eq_error_iff ht).mpr hfails] at hok
    cases hok
  obtain ⟨arranged, harranged, _, _, htake⟩ := (select_filters_arranges_cuts ht
    (some (.compare ⟨"id", .ne, "4"⟩)) (some ⟨"score", true⟩)).2.1 hnone
  refine ⟨table, arranged, ht, harranged, htake 2 Nat.two_pos, ?_⟩
  rw [harranged.ties, hties]

end Rowfile
