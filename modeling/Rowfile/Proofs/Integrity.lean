import Rowfile.Proofs.Lifetimes

/-!
# Records and indexes after every history

After any history, over any store, each table holds records that its schema admits, under distinct
ids, and each index is over a column of a table and lists its records as they are: no id of a record
that was deleted, moved to another id or given another value stays behind in a bucket.
-/
namespace Rowfile

/-- Three records in a table with an index: an update moves the second to another id and gives it
another text, and the first is deleted. -/
def movingHistory : List Operation :=
  [.createTable "t" (.ofColumns [⟨"id", .int, true, false, false, none⟩,
      ⟨"tag", .text, false, false, false, none⟩]),
    .createIndex "t" "tag",
    .insert "t" (.ofList [("id", .integer 1), ("tag", .text "a")]),
    .insert "t" (.ofList [("id", .integer 2), ("tag", .text "a")]),
    .insert "t" (.ofList [("id", .integer 5), ("tag", .text "a")]),
    .update "t" [⟨"id", .integer 3⟩, ⟨"tag", .text "b"⟩] (some (.compare ⟨"id", .eq, "2"⟩)),
    .delete "t" (some (.compare ⟨"id", .eq, "1"⟩))]

section
variable {σ : Type} [Store σ]

/-- After every history an index is over a column of a table, its buckets are not empty and list no
id twice, the bucket of a text lists the records that show this text, and building the index anew
gives the same up to order. -/
theorem indexes_agree_with_records (history : List Operation) (store : σ)
    {name column : String} {index : Index}
    (h : (Database.replay history store).catalog.index? name column = some index) :
    ∃ table, (Database.replay history store).catalog.tables.find? name = some table ∧
      (table.schema.column? column).isSome = true ∧
      (∀ key ids, index.buckets.find? key = some ids → ids ≠ [] ∧ ids.Nodup) ∧
      (∀ key, (index.lookup key).Perm (Index.idsShowing column key table.records.entries)) ∧
      index.Agrees (Index.build column table.records.entries) := by
  obtain ⟨table, ht⟩ := table_of_index h
  have hlived := lived_of_replay ht
  obtain ⟨hcolumn, hcovers⟩ := hlived.covers h
  have hnodup : ∀ key ids, index.buckets.find? key = some ids → ids.Nodup := by
    intro key ids hids
    have := hcovers.nodup key
    rwa [Index.lookup, hids, Option.getD_some] at this
  refine ⟨table, ht, hcolumn, ?_, ?_, ?_⟩
  · exact fun key ids hids => ⟨hcovers.filled key ids hids, hnodup key ids hids⟩
  · exact hcovers.lookup_perm hlived.linked.distinct
  · exact hcovers.agrees (Index.covers_build _ _)

theorem indexes_agree_with_records_moving :
    ∃ index, (Database.replay movingHistory ()).catalog.index? "t" "tag" = some index ∧
      index.buckets.entries = [("a", ["5"]), ("b", ["3"])] ∧
      ∃ table, (Database.replay movingHistory ()).catalog.tables.find? "t" = some table ∧
        (table.schema.column? "tag").isSome = true ∧
        (∀ key ids, index.buckets.find? key = some ids → ids ≠ [] ∧ ids.Nodup) ∧
        (∀ key, (index.lookup key).Perm (Index.idsShowing "tag" key table.records.entries)) ∧
        index.Agrees (Index.build "tag" table.records.entries) := by
  have hbuckets : ((Database.replay movingHistory ()).catalog.index? "t" "tag").map
      (·.buckets.entries) = some [("a", ["5"]), ("b", ["3"])] := by decide +kernel
  obtain ⟨index, hi, hb⟩ := Option.map_eq_some_iff.mp hbuckets
  exact ⟨index, hi, hb, indexes_agree_with_records movingHistory () hi⟩

end

end Rowfile
