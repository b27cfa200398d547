import Rowfile.Proofs.FileMirror
import Rowfile.Proofs.Forgetting

/-!
# Answers of catalogs that show the same

What a statement answers is decided by what the catalog shows, but for the ids that a table still
records and no record has. So two databases whose catalogs show the same give the same answers, to
one text and to a list of texts, until an operation asks for an id that was freed in the first of
them; and there their answers differ.
-/
namespace Rowfile

/-! ## Statements -/

/-- A change of a catalog that is kept in memory alone. -/
theorem Database.change_memory {α : Type} (operation : Catalog → Except Fault (Step α))
    (catalog : Catalog) : (⟨catalog, ()⟩ : MemoryDatabase).change operation =
      ((operation catalog).map Step.answer, ⟨catalog.after (operation catalog), ()⟩) := by
  simp only [change, commit]
  cases operation catalog with
  | error fault => rfl
  | ok step =>
    obtain ⟨answer, next, saves⟩ := step
    cases saves <;> rfl

theorem Agree.answered {α : Type} {P : Catalog → Catalog → Prop} {a b : Catalog}
    {f g : Catalog → Except Fault (Step α)} (h : Agree P a b (f a) (g b)) (render : α → String) :
    (Database.answer render ((⟨a, ()⟩ : MemoryDatabase).change f)).1 =
        (Database.answer render ((⟨b, ()⟩ : MemoryDatabase).change g)).1 ∧
      P (Database.answer render ((⟨a, ()⟩ : MemoryDatabase).change f)).2.catalog
        (Database.answer render ((⟨b, ()⟩ : MemoryDatabase).change g)).2.catalog := by
  rw [Database.change_memory, Database.change_memory]
  exact ⟨congrArg (Except.map _) h.answer, h.after⟩

/-- A fault of the first outcome that is not one of the second tells their answers apart. -/
theorem Database.answer_ne {α : Type} {a b : Catalog} {f g : Catalog → Except Fault (Step α)}
    (h : ∃ fault, f a = .error fault ∧ g b ≠ .error fault) (render : α → String) :
    (answer render ((⟨a, ()⟩ : MemoryDatabase).change f)).1 ≠
      (answer render ((⟨b, ()⟩ : MemoryDatabase).change g)).1 := by
  obtain ⟨fault, hf, hg⟩ := h
  rw [change_memory, change_memory, hf]
  intro hsame
  cases hb : g b with
  | ok step =>
    rw [hb] at hsame
    cases hsame
  | error other =>
    rw [hb] at hsame
    exact hg (hb.trans (congrArg Except.error (Except.error.inj hsame).symm))

namespace Catalog.Alike

variable {freed : String → List RecordId} {a b : Catalog}

theorem table (h : Alike freed a b) (name : String) :
    (∃ ta tb, a.table name = .ok ta ∧ b.table name = .ok tb ∧ ta.content = tb.content) ∨
      ∃ fault, a.table name = .error fault ∧ b.table name = .error fault := by
  cases ha : a.tables.find? name with
  | none =>
    obtain ⟨hb, _⟩ := h.tables.neither ha
    right
    exact ⟨.tableNotFound name, by simp [Catalog.table, ha], by simp [Catalog.table, hb]⟩
  | some ta =>
    obtain ⟨tb, hb, hr⟩ := h.tables.both ha
    exact .inl ⟨ta, tb, table_eq_ok_iff.mpr ha, table_eq_ok_iff.mpr hb, hr.content⟩

theorem select (h : Alike freed a b) (name : String) (filter : Option Predicate)
    (order : Option OrderBy) (limit : Option Nat) :
    a.select name filter order limit = b.select name filter order limit := by
  unfold Catalog.select
  rcases h.table name with ⟨ta, tb, ha, hb, hcontent⟩ | ⟨fault, ha, hb⟩
  · rw [ha, hb, ok_bind, ok_bind, Table.entries_eq_of_content hcontent]
  · rw [ha, hb]

theorem summary (h : Alike freed a b) (name : String) : a.summary name = b.summary name := by
  unfold Catalog.summary indexesOf
  rw [h.indexes]
  rcases h.table name with ⟨ta, tb, ha, hb, hcontent⟩ | ⟨fault, ha, hb⟩
  · rw [ha, hb, Except.map, Except.map, Table.schema_eq_of_content hcontent,
      Table.size_eq_of_content hcontent]
  · rw [ha, hb]

theorem summaries (h : Alike freed a b) : a.summaries = b.summaries := by
  have hseen : ∀ catalog : Catalog, catalog.summaries =
      catalog.content.tables.entries.map fun entry => ⟨entry.1, entry.2.schema.names,
        entry.2.records.length, (catalog.indexesOf entry.1).keys⟩ := by
    intro catalog
    simp only [Catalog.summaries, Catalog.content, KeyedMap.mapWithKey, List.map_map]
    rfl
  rw [hseen, hseen, h.content]
  simp only [indexesOf, h.indexes]

/-- A statement that asks for no freed id is answered alike, and the catalogs stay alike. -/
theorem run (h : Alike freed a b) {statement : Statement}
    (hasks : ∀ operation, statement.operation? = some operation → ¬operation.AsksFor a freed) :
    ((⟨a, ()⟩ : MemoryDatabase).run statement).1 = ((⟨b, ()⟩ : MemoryDatabase).run statement).1 ∧
      Alike (statement.operation?.elim freed (Ledger.carriedAfter ⟨a, freed⟩))
        ((⟨a, ()⟩ : MemoryDatabase).run statement).2.catalog
        ((⟨b, ()⟩ : MemoryDatabase).run statement).2.catalog := by
  cases statement with
  | createTable name schema => exact (h.createTable schema).answered _
  | dropTable name => exact h.dropTable.answered _
  | renameTable old new => exact h.renameTable.answered _
  | createIndex name column => exact h.createIndex.answered _
  | insert name columns values => exact (h.insertValues (hasks _ rfl)).answered _
  | update name assignments filter => exact (h.update (hasks _ rfl)).answered _
  | delete name filter => exact (h.delete _).answered _
  | select name filter order limit =>
    exact ⟨by simp only [Database.run, h.select], h⟩
  | describe name =>
    refine ⟨?_, h⟩
    simp only [Database.run]
    rcases h.table name with ⟨ta, tb, ha, hb, hcontent⟩ | ⟨fault, ha, hb⟩
    · rw [ha, hb, Except.map, Except.map, Table.schema_eq_of_content hcontent]
    · rw [ha, hb]
  | showTables => exact ⟨by simp only [Database.run, h.summaries], h⟩
  | showTable name => exact ⟨by simp only [Database.run, h.summary], h⟩

theorem run_ne (h : Alike freed a b) {statement : Statement} {operation : Operation}
    (ho : statement.operation? = some operation) (hasks : operation.AsksFor a freed) :
    ((⟨a, ()⟩ : MemoryDatabase).run statement).1 ≠
      ((⟨b, ()⟩ : MemoryDatabase).run statement).1 := by
  cases statement with
  | insert name columns values =>
    obtain rfl := Option.some.inj ho
    exact Database.answer_ne (h.insertValues_refused hasks) _
  | update name assignments filter =>
    obtain rfl := Option.some.inj ho
    exact Database.answer_ne (h.update_refused hasks) _
  | select | describe | showTables | showTable => cases ho
  | _ =>
    obtain rfl := Option.some.inj ho
    exact hasks.elim

/-! ## Texts -/

theorem query (h : Alike freed a b) {text : String}
    (hasks : ∀ operation, Operation.ofText? text = some operation → ¬operation.AsksFor a freed) :
    ((⟨a, ()⟩ : MemoryDatabase).query text).1 = ((⟨b, ()⟩ : MemoryDatabase).query text).1 ∧
      Alike ((Operation.ofText? text).elim freed (Ledger.carriedAfter ⟨a, freed⟩))
        ((⟨a, ()⟩ : MemoryDatabase).query text).2.catalog
        ((⟨b, ()⟩ : MemoryDatabase).query text).2.catalog := by
  unfold Operation.ofText? at hasks ⊢
  unfold Database.query
  cases hread : Statement.read text.toList with
  | error fault => exact ⟨rfl, h⟩
  | ok statement =>
    rw [hread] at hasks
    exact h.run hasks

theorem query_ne (h : Alike freed a b) {text : String} {operation : Operation}
    (ho : Operation.ofText? text = some operation) (hasks : operation.AsksFor a freed) :
    ((⟨a, ()⟩ : MemoryDatabase).query text).1 ≠
      ((⟨b, ()⟩ : MemoryDatabase).query text).1 := by
  unfold Operation.ofText? at ho
  unfold Database.query
  cases hread : Statement.read text.toList with
  | error fault =>
    rw [hread] at ho
    cases ho
  | ok statement =>
    rw [hread] at ho
    exact h.run_ne ho hasks

end Catalog.Alike

def Database.answers {σ : Type} [Store σ] : List String → Database σ → List (Except Fault Outcome)
  | [], _ => []
  | text :: texts, db => (db.query text).1 :: answers texts (db.query text).2

theorem Database.eq_memory (db : MemoryDatabase) : db = ⟨db.catalog, ()⟩ := rfl

theorem Database.answers_cons (text : String) (texts : List String) (catalog : Catalog) :
    answers (text :: texts) (⟨catalog, ()⟩ : MemoryDatabase) =
      ((⟨catalog, ()⟩ : MemoryDatabase).query text).1 ::
        answers texts ⟨((⟨catalog, ()⟩ : MemoryDatabase).query text).2.catalog, ()⟩ := by
  rw [answers, ← eq_memory]

theorem Database.queries_cons (text : String) (texts : List String) (catalog : Catalog) :
    (⟨catalog, ()⟩ : MemoryDatabase).queries (text :: texts) =
      queries texts ⟨((⟨catalog, ()⟩ : MemoryDatabase).query text).2.catalog, ()⟩ := by
  rw [queries, queries, List.foldl_cons, ← eq_memory]

/-- Catalogs that show the same answer alike and come to show the same, if and only if no operation
asks for an id that was freed in the first of them. -/
theorem Catalog.Alike.answers_eq_iff {freed : String → List RecordId} {a b : Catalog}
    (h : Alike freed a b) (texts : List String) :
    (Database.answers texts (⟨a, ()⟩ : MemoryDatabase) =
          Database.answers texts (⟨b, ()⟩ : MemoryDatabase) ∧
        (Database.queries texts (⟨a, ()⟩ : MemoryDatabase)).catalog.content =
          (Database.queries texts (⟨b, ()⟩ : MemoryDatabase)).catalog.content) ↔
      ¬(⟨a, freed⟩ : Ledger).Asked (texts.filterMap Operation.ofText?) := by
  induction texts generalizing freed a b with
  | nil => exact ⟨fun _ => id, fun _ => ⟨rfl, h.content⟩⟩
  | cons text texts ih =>
    -- The first operation that asks for a freed id is answered otherwise; up to it the catalogs stay
    -- alike, with the freed ids that the ledger carries on.
    rw [Database.answers_cons, Database.answers_cons, Database.queries_cons,
      Database.queries_cons, List.cons.injEq]
    by_cases hasks : ∃ operation, Operation.ofText? text = some operation ∧
        operation.AsksFor a freed
    · obtain ⟨operation, ho, hasks⟩ := hasks
      rw [List.filterMap_cons_some ho]
      constructor
      · rintro ⟨⟨hanswer, _⟩, _⟩
        exact (h.query_ne ho hasks hanswer).elim
      · exact fun hno => (hno (.inl hasks)).elim
    · have hfree : ∀ operation, Operation.ofText? text = some operation →
          ¬operation.AsksFor a freed := fun operation ho hop => hasks ⟨operation, ho, hop⟩
      obtain ⟨hanswer, hafter⟩ := h.query hfree
      rw [and_iff_right hanswer, ih hafter, Database.catalog_query]
      refine not_congr ?_
      cases ho : Operation.ofText? text with
      | none => rw [List.filterMap_cons_none ho, Option.elim_none, Option.elim_none]
      | some operation =>
        rw [List.filterMap_cons_some ho, Option.elim_some, Option.elim_some]
        exact (or_iff_right (hfree operation ho)).symm

end Rowfile
