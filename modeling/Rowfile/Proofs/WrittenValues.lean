import Rowfile.Proofs.DeclaredColumns
import Rowfile.Proofs.FiniteValues
import Rowfile.Proofs.Outcomes

/-!
# Written values

A statement writes finite values only: a literal with too many digits is a text, and so are the words
for infinities. The literals of a statement are its defaults, its listed values and its assignments,
and the operation of a statement brings no other values.
-/
namespace Rowfile

theorem Value.isFinite_ofLiteral (raw : List Char) : (Value.ofLiteral raw).isFinite = true := by
  unfold ofLiteral
  dsimp only
  repeat' split
  all_goals first | rfl | assumption

namespace Statement

theorem finite_readColumns {table : String} {schema schema' : Schema}
    {declarations : List (List Char)} (h : readColumns table schema declarations = .ok schema')
    (hs : schema.Finite) : schema'.Finite := by
  intro column hcolumn value hvalue
  rcases exists_read_of_mem_list h hcolumn with hbefore | ⟨text, hread⟩
  · exact hs column hbefore value hvalue
  · obtain ⟨word, rfl⟩ := ColumnText.exists_ofLiteral_of_read hread hvalue
    exact Value.isFinite_ofLiteral word

def Finite : Statement → Prop
  | .createTable _ schema => schema.Finite
  | .insert _ _ values => ∀ value ∈ values, value.isFinite = true
  | .update _ assignments _ => ∀ assignment ∈ assignments, assignment.value.isFinite = true
  | _ => True

theorem finite_readCreateTable {text : List Char} {statement : Statement}
    (h : readCreateTable text = .ok statement) : statement.Finite := by
  simp only [readCreateTable, bind_eq_ok] at h
  obtain ⟨_, _, _, _, _, _, _, _, schema, hschema, h⟩ := h
  obtain rfl := Except.ok.inj h
  exact finite_readColumns hschema fun _ hc => (List.not_mem_nil hc).elim

/-- What holds of every result of the steps holds of all that they list. -/
theorem forall_of_mapM {α β : Type} {f : α → Except Malformed β} {P : β → Prop}
    (hf : ∀ a b, f a = .ok b → P b) {l : List α} {l' : List β} (h : l.mapM f = .ok l') :
    ∀ b ∈ l', P b := by
  intro b hb
  obtain ⟨a, -, hab⟩ := exists_mem_of_forall₂ (mapM_eq_ok_iff.mp h).flip hb
  exact hf a b hab

theorem isFinite_readListedValue (text : List Char) (value : Value)
    (h : readListedValue text = .ok value) : value.isFinite = true := by
  unfold readListedValue at h
  split at h
  · cases h
  · split at h
    · cases h
    · obtain rfl := Except.ok.inj h
      exact Value.isFinite_ofLiteral text

theorem finite_readInsert {text : List Char} {statement : Statement}
    (h : readInsert text = .ok statement) : statement.Finite := by
  have hrest : ∀ {table : String} {columns : Option (List String)} {listed : List (List Char)},
      (do return Statement.insert table columns (← listed.mapM readListedValue) :
        Except Malformed Statement) = .ok statement → statement.Finite := by
    intro table columns listed h
    obtain ⟨values, hvalues, h⟩ := bind_eq_ok.mp h
    obtain rfl := Except.ok.inj h
    exact forall_of_mapM isFinite_readListedValue hvalues
  simp only [readInsert, bind_eq_ok] at h
  obtain ⟨_, _, _, _, h⟩ := h
  split at h
  · simp only [bind_eq_ok] at h
    obtain ⟨_, _, _, _, _, _, h⟩ := h
    exact hrest (of_check h)
  · simp only [bind_eq_ok] at h
    obtain ⟨_, _, _, _, _, _, h⟩ := h
    exact hrest (of_check h)

theorem isFinite_readAssignment (text : List Char) (assignment : Assignment)
    (h : readAssignment text = .ok assignment) : assignment.value.isFinite = true := by
  simp only [readAssignment, bind_eq_ok] at h
  obtain ⟨_, _, _, _, value, _, h⟩ := h
  obtain rfl := Except.ok.inj (of_check (of_check h))
  exact Value.isFinite_ofLiteral value

theorem finite_readUpdate {text : List Char} {statement : Statement}
    (h : readUpdate text = .ok statement) : statement.Finite := by
  simp only [readUpdate, bind_eq_ok] at h
  obtain ⟨_, _, _, _, _, _, _, _, assignments, hassignments, h⟩ := h
  obtain ⟨filter, _, h⟩ := bind_eq_ok.mp (of_check h)
  obtain rfl := Except.ok.inj h
  exact forall_of_mapM isFinite_readAssignment hassignments

theorem finite_read {text : List Char} {statement : Statement}
    (h : Statement.read text = .ok statement) : statement.Finite := by
  have hread := reader_of_read h
  cases statement with
  | createTable table schema => exact finite_readCreateTable hread
  | insert table columns values => exact finite_readInsert hread
  | update table assignments filter => exact finite_readUpdate hread
  | _ => trivial

theorem Finite.values {statement : Statement} {operation : Operation} (h : statement.Finite)
    (ho : statement.operation? = some operation) :
    ∀ value ∈ operation.values, value.isFinite = true := by
  cases statement with
  | createTable table schema =>
    obtain rfl := Option.some.inj ho
    intro value hv
    obtain ⟨column, hcolumn, hdefault⟩ := List.mem_filterMap.mp hv
    exact h column hcolumn value hdefault
  | insert table columns values =>
    obtain rfl := Option.some.inj ho
    exact h
  | update table assignments filter =>
    obtain rfl := Option.some.inj ho
    intro value hv
    obtain ⟨assignment, ha, rfl⟩ := List.mem_map.mp hv
    exact h assignment ha
  | select | describe | showTables | showTable => cases ho
  | dropTable | renameTable | delete | createIndex =>
    obtain rfl := Option.some.inj ho
    exact fun _ hv => (List.not_mem_nil hv).elim

end Statement

end Rowfile
