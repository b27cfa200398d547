import Rowfile.Proofs.Moves
import Rowfile.Proofs.SavingSteps

/-!
# Loading what was saved

A reached catalog that is saved and loaded shows the same content up to what storing keeps of its
values, in whatever layout it was saved, and saving the loaded catalog writes the same text again.
What is loaded is the catalog in which every record stands at its own place.
-/
namespace Rowfile

/-! ## Storing once is storing for good -/

theorem Value.toJson_stored (v : Value) : v.stored.toJson = v.toJson := by
  cases v with
  | float x => cases x <;> rfl
  | _ => rfl

theorem Record.toJson_stored (record : Record) : record.stored.toJson = record.toJson := by
  simp only [toJson, KeyedMap.toJson, stored, KeyedMap.mapWithKey, List.map_map,
    Function.comp_def, Value.toJson_stored]

theorem Column.toJson_stored (column : Column) : column.stored.toJson = column.toJson := by
  obtain ⟨name, type, primaryKey, notNull, unique, default?⟩ := column
  cases default? with
  | none => rfl
  | some value =>
    cases primaryKey <;> cases notNull <;> cases unique <;>
      simp [toJson, stored, Value.toJson_stored]

theorem Schema.toJson_stored (schema : Schema) : schema.stored.toJson = schema.toJson := by
  simp only [toJson, KeyedMap.toJson, stored, KeyedMap.mapWithKey, List.map_map,
    Function.comp_def, Column.toJson_stored]

namespace CatalogContent

def document (time : String) (content : CatalogContent) : Json :=
  .object [
    ("tables", Document.objectOf (fun table => Document.objectOf Record.toJson table.records)
      content.tables.entries),
    ("schemas", Document.objectOf (fun table => table.schema.toJson) content.tables.entries),
    ("indexes", KeyedMap.toJson (KeyedMap.toJson Index.toJson) content.indexes),
    ("metadata",
      .object [("last_updated", .text time), ("total_tables", .integer content.tables.size)])]

theorem document_stored (time : String) (content : CatalogContent) :
    content.stored.document time = content.document time := by
  simp only [document, stored, Document.objectOf, TableContent.stored, KeyedMap.mapWithKey,
    KeyedMap.size, List.map_map, List.length_map, Function.comp_def, Schema.toJson_stored,
    Record.toJson_stored]

/-- A content is that of its catalog, if the ids of every table are distinct. -/
theorem content_catalog {content : CatalogContent}
    (h : ∀ entry ∈ content.tables.entries, (entryKeys entry.2.records).Nodup) :
    content.catalog.content = content := by
  have htables : (content.tables.mapWithKey fun _ => TableContent.table).mapWithKey
      (fun _ => Table.content) = content.tables := by
    refine KeyedMap.ext ?_
    simp only [KeyedMap.mapWithKey, List.map_map]
    conv_rhs => rw [← List.map_id content.tables.entries]
    refine List.map_congr_left fun entry he => ?_
    have hrecords : (PositionedMap.ofList entry.2.records).entries = entry.2.records :=
      KeyedMap.entries_ofList (h entry he)
    simp only [Function.comp_apply, TableContent.table, Table.content, hrecords, id_eq]
  rw [catalog, Catalog.content, htables]

end CatalogContent

theorem Document.ofCatalog_eq (time : String) (catalog : Catalog) :
    ofCatalog time catalog = catalog.content.document time := by
  simp only [ofCatalog, CatalogContent.document, Catalog.content, objectOf, Table.content,
    KeyedMap.mapWithKey, KeyedMap.size, List.map_map, List.length_map, Function.comp_def]

namespace Catalog

variable {catalog : Catalog}

/-- Ids that storing keeps are as distinct as they were. -/
theorem Regular.nodup_stored (h : catalog.Regular) :
    ∀ entry ∈ catalog.content.stored.tables.entries, (entryKeys entry.2.records).Nodup := by
  intro entry he
  obtain ⟨⟨name, content⟩, hcontent, rfl⟩ := List.mem_map.mp he
  obtain ⟨⟨_, table⟩, htable, heq⟩ := List.mem_map.mp hcontent
  obtain ⟨rfl, rfl⟩ := Prod.mk.inj heq
  have hdistinct := (h.linked (KeyedMap.find?_eq_some_iff.mpr htable)).distinct
  simpa [TableContent.stored, Table.content, PositionedMap.keys, entryKeys,
    Function.comp_def] using hdistinct

theorem Regular.ofOctets?_toOctets [FloatReader] (h : catalog.Regular)
    (hfloats : catalog.FloatsReadBack) (indented : Bool) (time : String) :
    ofOctets? (catalog.toOctets indented time) = some catalog.content.stored.catalog ∧
      catalog.content.stored.catalog.content = catalog.content.stored := by
  refine ⟨Catalog.ofOctets?_toOctets (fun name hname => ?_) hfloats indented time,
    CatalogContent.content_catalog h.nodup_stored⟩
  exact KeyedMap.find?_isSome.mp (h.owned (KeyedMap.find?_isSome.mpr hname))

theorem fileText_of_content {saved loaded : Catalog} (h : loaded.content = saved.content.stored)
    (indented : Bool) (time : String) :
    loaded.fileText indented time = saved.fileText indented time := by
  rw [fileText, fileText, Document.ofCatalog_eq, Document.ofCatalog_eq, h,
    CatalogContent.document_stored]

end Catalog

/-! ## After every history -/

/-- A reached catalog whose floats are read back is loaded from every data file to which it was
saved, indented or not and at whatever time, with its content up to what storing keeps of values; and
the loaded catalog is written as the saved one. -/
theorem load_undoes_save [FloatReader] {catalog : Catalog} (h : catalog.Reached)
    (hfloats : catalog.FloatsReadBack) :
    ∃ loaded : Catalog, loaded.content = catalog.content.stored ∧
      (∀ indented time folder folder',
        FolderState.save indented time catalog folder = (.ok (), folder') →
          folder'.load = .ok loaded) ∧
      ∀ indented time, loaded.fileText indented time = catalog.fileText indented time := by
  have hread := h.regular.ofOctets?_toOctets hfloats
  refine ⟨catalog.content.stored.catalog, (hread true "").2, ?_, ?_⟩
  · intro indented time folder folder' hsave
    obtain ⟨entry, _, _, rfl⟩ := FolderState.save_eq_ok_iff.mp hsave
    simp only [FolderState.load, (hread indented time).1]
  · exact Catalog.fileText_of_content (hread true "").2

/-- A number that is not finite is put into a column of texts, beside one that is read back. -/
def endlessHistory : List Operation :=
  [.createTable "t" (.ofColumns [⟨"id", .int, true, false, false, none⟩,
      ⟨"note", .text, false, false, false, none⟩,
      ⟨"ratio", .float, false, false, false, some (.float (Decimal.toBinary64 false ⟨25, -1⟩))⟩]),
    .createIndex "t" "note",
    .insert "t" (.ofList [("id", .integer 1), ("note", .float (.infinite true))])]

/-- The number comes back as its text. -/
theorem load_undoes_save_endless :
    (Database.replay endlessHistory ()).catalog.FloatsReadBack ∧
      (∃ table, (Database.replay endlessHistory ()).catalog.content.tables.find? "t" = some table ∧
        table.stored.records = [("1", .ofList [("id", .integer 1), ("note", .text "-inf"),
          ("ratio", .float (Decimal.toBinary64 false ⟨25, -1⟩))])]) ∧
      ∃ loaded : Catalog,
        loaded.content = (Database.replay endlessHistory ()).catalog.content.stored ∧
        (∀ indented time folder folder', FolderState.save indented time
          (Database.replay endlessHistory ()).catalog folder = (.ok (), folder') →
            folder'.load = .ok loaded) ∧
        ∀ indented time, loaded.fileText indented time =
          (Database.replay endlessHistory ()).catalog.fileText indented time := by
  have hfloats : (Database.replay endlessHistory ()).catalog.FloatsReadBack := by decide +kernel
  have hrecords : ((Database.replay endlessHistory ()).catalog.content.tables.find? "t").map
      (·.stored.records) = some [("1", .ofList [("id", .integer 1), ("note", .text "-inf"),
        ("ratio", .float (Decimal.toBinary64 false ⟨25, -1⟩))])] := by decide +kernel
  exact ⟨hfloats, Option.map_eq_some_iff.mp hrecords,
    load_undoes_save (Database.reached_replay endlessHistory ()) hfloats⟩

end Rowfile
