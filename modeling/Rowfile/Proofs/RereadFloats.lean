import Rowfile.Proofs.FileMirror

/-!
# When a saved catalog is loaded exactly

The digits of a float are written so that the nearest number to them is the float again, but a reader
may take them to another number. So a catalog of finite values is loaded as it was saved if and only
if each of its floats, in defaults and in records, is read back to itself. With the reader that finds
the nearest number this is true of every catalog.
-/
namespace Rowfile

theorem KeyedMap.mapEntries?_eq_mapWithKey {V W : Type} {f : V → Option W} {m : KeyedMap V}
    {found : KeyedMap W} (h : mapEntries? f m.entries = some found) (absent : W) :
    (∀ entry ∈ m.entries, f entry.2 = some ((f entry.2).getD absent)) ∧
      found = m.mapWithKey fun _ v => (f v).getD absent := by
  have hall : ∀ entry ∈ m.entries, f entry.2 = some ((f entry.2).getD absent) := by
    intro entry he
    obtain ⟨_, _, hread⟩ :=
      exists_mem_of_forall₂ ((mapEntries?_eq_some_iff m.distinct).mp h) he
    obtain ⟨_, hvalue, _⟩ := Option.map_eq_some_iff.mp hread
    rw [hvalue, Option.getD_some]
  have hmap := @mapEntries?_eq_map V W f m.entries (fun v => (f v).getD absent) hall
  rw [ofList_map_entries m fun v => (f v).getD absent] at hmap
  exact ⟨hall, Option.some.inj (h.symm.trans hmap)⟩

section
variable [FloatReader]

/-- A table of finite values whose schema and records are read as they are has floats that are read
back. -/
theorem Table.floatsReadBack {table : Table} (hlinked : table.records.Linked)
    (hfinite : table.Finite) (hschema : table.readSchema? = some table.schema)
    {records : KeyedMap Record} (hrecords : table.readRecords? = some records)
    (hentries : records.entries = table.records.entries) : table.FloatsReadBack where
  defaults := Schema.ofJson?_toJson_iff.mp
    (hschema.trans (congrArg some hfinite.schema.stored.symm))
  values := by
    have hsame : KeyedMap.ofList
        (table.records.entries.map fun entry => (entry.1, entry.2.stored)) = records := by
      rw [← KeyedMap.ofList_entries records, hentries]
      refine congrArg KeyedMap.ofList ?_
      conv_rhs => rw [← List.map_id table.records.entries]
      exact List.map_congr_left fun entry he => by rw [(hfinite.records entry he).stored]; rfl
    rw [readRecords?, ← hsame, KeyedMap.mapEntries?_eq_map_iff hlinked.distinct] at hrecords
    exact fun entry he => Record.ofJson?_toJson_iff.mp (hrecords entry he)

/-- What a saved catalog of finite values is loaded as has its content exactly if its floats are read
back. -/
theorem Catalog.Plain.content_eq_iff {catalog loaded : Catalog} (h : catalog.Plain)
    {indented : Bool} {time : String}
    (hread : Catalog.ofOctets? (catalog.toOctets indented time) = some loaded) :
    loaded.content = catalog.content ↔ catalog.FloatsReadBack := by
  constructor
  · intro hcontent entry he
    rw [ofOctets?_toOctets_eq, ofJson?_ofCatalog] at hread
    obtain ⟨document, hdocument, rfl⟩ := Option.map_eq_some_iff.mp hread
    simp only [Option.bind_eq_bind, Option.bind_eq_some_iff] at hdocument
    obtain ⟨_, hrecords, _, hschemas, hdocument⟩ := hdocument
    obtain rfl := Option.some.inj hdocument
    obtain ⟨hrecord, rfl⟩ := KeyedMap.mapEntries?_eq_mapWithKey hrecords .empty
    obtain ⟨hschema, rfl⟩ := KeyedMap.mapEntries?_eq_mapWithKey hschemas .empty
    rw [Document.toCatalog_split catalog.tables _ _ fun name hname =>
      KeyedMap.find?_isSome.mp (h.regular.owned (KeyedMap.find?_isSome.mpr hname))] at hcontent
    -- The two contents agree at the table of this entry.
    have htables := congrArg (fun content => content.tables.entries) hcontent
    simp only [content, KeyedMap.mapWithKey, List.map_map] at htables
    have htable := (Prod.mk.inj (List.map_inj_left.mp htables entry he)).2
    obtain ⟨hsame, hentries⟩ := TableContent.mk.inj htable
    have hfind := KeyedMap.find?_eq_some_iff.mpr he
    exact Table.floatsReadBack (h.regular.linked hfind) (h.finite hfind)
      ((hschema entry he).trans (congrArg some hsame)) (hrecord entry he) hentries
  · intro hfloats
    obtain ⟨hloaded, hcontent⟩ := h.regular.ofOctets?_toOctets hfloats indented time
    obtain rfl := Option.some.inj (hread.symm.trans hloaded)
    exact hcontent.trans (stored_content h.finite)

end

theorem Catalog.floatsReadBack_exact (catalog : Catalog) :
    @FloatsReadBack FloatReader.exact catalog :=
  @floatsReadBack FloatReader.exact catalog Binary64.reread?_exact

end Rowfile
