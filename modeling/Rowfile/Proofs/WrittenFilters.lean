import Rowfile.Proofs.KeywordCuts
import Rowfile.Proofs.Peeling
import Rowfile.Proofs.WrittenLiterals

/-!
# Written filters

A condition is written as three words: its column, its operator and its literal between quotes. Parts
are joined by AND and OR, of which AND binds more tightly. A filter that the reader can build has at
least two parts wherever parts are joined. Neither AND nor OR is then a word within a part, so a
filter is cut where its parts were joined, and is read back as it was.
-/
namespace Rowfile

open Masked Split Clause

/-- The words by which the clauses and the parts of a filter are found. -/
def reservedWords : List String := ["FROM", "WHERE", "AND", "OR", "ORDER", "LIMIT"]

/-- A plain name that is no reserved word in any case. -/
def isFreeName (name : String) : Bool :=
  isPlainName name && reservedWords.all fun word => !Text.asciiCaseEq name.toList word.toList

theorem isPlainName_of_isFreeName {name : String} (h : isFreeName name = true) :
    isPlainName name = true := by
  rw [isFreeName, Bool.and_eq_true] at h
  exact h.1

theorem solidWord_freeName {name : String} (h : isFreeName name = true) : SolidWord name.toList :=
  solidWord_name (isPlainName_of_isFreeName h)

theorem asciiCaseEq_of_isFreeName {name word : String} (h : isFreeName name = true)
    (hword : word ∈ reservedWords) : Text.asciiCaseEq name.toList word.toList = false := by
  rw [isFreeName, Bool.and_eq_true, List.all_eq_true] at h
  simpa using h.2 word hword

inductive Condition.Written (c : Condition) : List (List Char) → Prop
  | words {q : Char} : isFreeName c.column = true → isQuote q = true → q ∉ c.literal.toList →
      Written c [c.column.toList, c.operator.symbol.toList, inQuotes q c.literal.toList]

namespace Predicate

inductive WrittenConjunction : Predicate → List (List Char) → Prop
  | compare {c : Condition} {words : List (List Char)} :
      c.Written words → WrittenConjunction (.compare c) words
  | all {cs : List Condition} {parts : List (List (List Char))} :
      2 ≤ cs.length → List.Forall₂ Condition.Written cs parts →
      WrittenConjunction (.all (cs.map .compare)) (List.intercalate ["AND".toList] parts)

inductive Written : Predicate → List (List Char) → Prop
  | conjunction {p : Predicate} {words : List (List Char)} :
      p.WrittenConjunction words → Written p words
  | any {ps : List Predicate} {parts : List (List (List Char))} :
      2 ≤ ps.length → List.Forall₂ WrittenConjunction ps parts →
      Written (.any ps) (List.intercalate ["OR".toList] parts)

end Predicate

/-! ## The words of a filter -/

inductive ConditionWord : List Char → Prop
  | column {name : String} : isFreeName name = true → ConditionWord name.toList
  | operator (op : Operator) : ConditionWord op.symbol.toList
  | literal {q : Char} {cs : List Char} : isQuote q = true → q ∉ cs → ConditionWord (inQuotes q cs)

theorem Condition.Written.conditionWord {c : Condition} {words : List (List Char)}
    (h : c.Written words) : ∀ word ∈ words, ConditionWord word := by
  cases h with
  | words hcolumn hq hliteral =>
    simp only [List.forall_mem_cons]
    exact ⟨.column hcolumn, .operator c.operator, .literal hq hliteral, fun _ hword => nomatch hword⟩

theorem forall_mem_intercalate {P : List Char → Prop} {keyword : List Char} (hkeyword : P keyword)
    {parts : List (List (List Char))} (h : ∀ part ∈ parts, ∀ word ∈ part, P word) :
    ∀ word ∈ List.intercalate [keyword] parts, P word := by
  induction parts with
  | nil => exact fun _ hword => nomatch hword
  | cons part parts ih =>
    rw [List.forall_mem_cons] at h
    cases parts with
    | nil => rw [List.intercalate_singleton]; exact h.1
    | cons next parts =>
      rw [List.intercalate_cons_cons, List.forall_mem_append, List.forall_mem_append]
      exact ⟨⟨h.1, List.forall_mem_singleton.mpr hkeyword⟩, ih h.2⟩

theorem asciiCaseEq_of_starts {keyword cs : List Char}
    (h : starts Char.toUpper keyword (cs.map .plain) = true)
    (hlength : (cs.map Cell.plain).length = keyword.length) :
    Text.asciiCaseEq cs keyword = true := by
  induction keyword generalizing cs with
  | nil =>
    rw [List.length_map, List.length_nil, List.length_eq_zero_iff] at hlength
    rw [hlength]
    rfl
  | cons c keyword ih =>
    cases cs with
    | nil => cases hlength
    | cons d cs =>
      rw [List.map_cons, starts, Bool.and_eq_true, beq_iff_eq, Cell.shown_plain] at h
      have hrest := ih h.2 (Nat.succ.inj hlength)
      rw [Text.asciiCaseEq, beq_iff_eq] at hrest ⊢
      rw [List.map_cons, List.map_cons, hrest, h.1]

namespace ConditionWord

variable {word : List Char}

theorem visible (h : ConditionWord word) : VisibleWord word := by
  cases h with
  | column hname => exact (solidWord_freeName hname).visible
  | operator op => exact visible_of_isFixedWord (by cases op <;> decide)
  | literal hq hcs => exact (solidWord_inQuotes hq hcs).visible

/-- No word of a condition is one of the words that join conditions. -/
theorem other (h : ConditionWord word) {keyword : String} (hkeyword : keyword ∈ ["AND", "OR"]) :
    OtherWord keyword.toList word := by
  refine ⟨h.visible, ?_⟩
  rintro ⟨hstarts, hlength⟩
  cases h with
  | @column name hname =>
    have hreserved : keyword ∈ reservedWords :=
      (by decide : ∀ k ∈ ["AND", "OR"], k ∈ reservedWords) keyword hkeyword
    rw [mask_name (isPlainName_of_isFreeName hname)] at hstarts hlength
    have hequal := asciiCaseEq_of_starts hstarts hlength
    rw [asciiCaseEq_of_isFreeName hname hreserved] at hequal
    exact Bool.false_ne_true hequal
  | operator op =>
    have hnone : ∀ k ∈ ["AND", "OR"],
        starts Char.toUpper k.toList (mask op.symbol.toList) = false := by
      cases op <;> decide
    rw [hnone keyword hkeyword] at hstarts
    exact Bool.false_ne_true hstarts
  | @literal q cs hq hcs =>
    -- The keyword would have to begin with filler.
    have hfill : mask (inQuotes q cs) = .filler q :: (mask (inQuotes q cs)).tail := by
      rw [mask_inQuotes hq hcs]
      rfl
    have hnone : ∀ k ∈ ["AND", "OR"], ∀ l : List Cell,
        starts Char.toUpper k.toList (.filler q :: l) = false := by
      simp only [List.forall_mem_cons]
      exact ⟨fun _ => rfl, fun _ => rfl, fun _ hk => nomatch hk⟩
    rw [hfill, hnone keyword hkeyword] at hstarts
    exact Bool.false_ne_true hstarts

end ConditionWord

namespace Predicate

variable {p : Predicate} {words : List (List Char)} {P : List Char → Prop}

theorem WrittenConjunction.forall_word (h : p.WrittenConjunction words)
    (hcondition : ∀ word, ConditionWord word → P word) (hand : P "AND".toList) :
    ∀ word ∈ words, P word := by
  cases h with
  | compare hc => exact fun word hword => hcondition word (hc.conditionWord word hword)
  | all _ hcs =>
    exact forall_mem_intercalate hand <| forall_of_written
      (fun _ _ hc word hword => hcondition word (hc.conditionWord word hword)) hcs

theorem Written.forall_word (h : p.Written words)
    (hcondition : ∀ word, ConditionWord word → P word) (hand : P "AND".toList)
    (hor : P "OR".toList) : ∀ word ∈ words, P word := by
  cases h with
  | conjunction hp => exact hp.forall_word hcondition hand
  | any _ hps =>
    exact forall_mem_intercalate hor <| forall_of_written
      (fun _ _ hp => hp.forall_word hcondition hand) hps

end Predicate

/-! ## Reading a condition -/

theorem breakAt?_solid (op : Operator) {l : List Cell} (h : ∀ cell ∈ l, isSolid cell.shown = true)
    (r : List Cell) :
    breakAt? (operatorLetter op) (operatorWord op) (l ++ r) =
      (breakAt? (operatorLetter op) (operatorWord op) r).map fun cut => (l ++ cut.1, cut.2) := by
  have hne : ∀ {c : Char}, isSolid c = false → ∀ cell ∈ l, c ≠ cell.shown := by
    intro c hc cell hcell he
    rw [he, h cell hcell] at hc
    exact Bool.false_ne_true hc.symm
  have hblank : ∀ cell ∈ l, Char.toUpper ' ' ≠ cell.shown.toUpper := fun cell hcell => by
    simpa using forall_of_isSolid (p := fun c => Char.toUpper ' ' != c.toUpper) (by decide +kernel)
      (h cell hcell)
  cases op with
  | ge => exact breakAt?_append (c := '>') _ (hne (by decide)) r
  | le => exact breakAt?_append (c := '<') _ (hne (by decide)) r
  | ne => exact breakAt?_append (c := '!') _ (hne (by decide)) r
  | eq => exact breakAt?_append (c := '=') _ (hne (by decide)) r
  | gt => exact breakAt?_append (c := '>') _ (hne (by decide)) r
  | lt => exact breakAt?_append (c := '<') _ (hne (by decide)) r
  | like => exact breakAt?_append (c := ' ') _ hblank r

/-- Solid cells come before the first operator, as they hold none. -/
theorem findOperator?_solid {l : List Cell} (h : ∀ cell ∈ l, isSolid cell.shown = true)
    (r : List Cell) (operators : List Operator) :
    findOperator? (l ++ r) operators =
      (findOperator? r operators).map fun found => (found.1, l ++ found.2.1, found.2.2) := by
  induction operators with
  | nil => rfl
  | cons op rest ih =>
    rw [findOperator?, findOperator?, breakAt?_solid op h]
    cases breakAt? (operatorLetter op) (operatorWord op) r with
    | none => exact ih
    | some cut => rfl

def AtMostBlank (gap : List Char) : Prop := gap = [] ∨ gap = [' ']

/-- An operator between blanks is found. The blanks are a part of the operator that is a word. -/
theorem findOperator?_symbol (op : Operator) {m : List Cell}
    (h : ∀ cell ∈ m, isSolid cell.shown = true) :
    ∃ before after, AtMostBlank before ∧ AtMostBlank after ∧
      findOperator? (mask (spaced [op.symbol.toList, []]) ++ m) Operator.all =
        some (op, mask before, mask after ++ m) := by
  have hnone : ∀ op, breakAt? (operatorLetter op) (operatorWord op) m = none := by
    intro op
    have hm := breakAt?_solid op h []
    rw [List.append_nil] at hm
    rw [hm]
    cases op <;> rfl
  have hge : breakAt? id ['>', '='] m = none := hnone .ge
  have hle : breakAt? id ['<', '='] m = none := hnone .le
  have hne : breakAt? id ['!', '='] m = none := hnone .ne
  have heq : breakAt? id ['='] m = none := hnone .eq
  have hgt : breakAt? id ['>'] m = none := hnone .gt
  have hlt : breakAt? id ['<'] m = none := hnone .lt
  have hspace : mask [' '] = [.plain ' '] := rfl
  have hcells : mask (spaced [op.symbol.toList, []]) =
      .plain ' ' :: (op.symbol.toList.map .plain ++ [.plain ' ']) := by cases op <;> rfl
  rw [hcells]
  cases op with
  | like =>
    refine ⟨[], [], .inl rfl, .inl rfl, ?_⟩
    simp [findOperator?, Operator.all, operatorWord, operatorLetter, Operator.symbol, breakAt?,
      starts, hge, hle, hne, heq, hgt, hlt]
  | _ =>
    refine ⟨[' '], [' '], .inr rfl, .inr rfl, ?_⟩
    simp [findOperator?, Operator.all, operatorWord, operatorLetter, Operator.symbol, breakAt?,
      starts, hge, hle, hne, heq, hgt, hspace]

theorem readTrimmed_mask (cs : List Char) : readTrimmed (mask cs) = .ok (Text.trim cs) := by
  rw [readTrimmed, read?_mask]
  rfl

theorem AtMostBlank.blank {gap : List Char} (h : AtMostBlank gap) : Blank gap := by
  rcases h with rfl | rfl
  · decide
  · decide

/-- A written condition is read back. -/
theorem readCondition_of_written {c : Condition} {words : List (List Char)} (h : c.Written words) :
    readCondition (line words) = .ok c := by
  have htrimmed : Trimmed (line words) :=
    trimmed_line (by cases h; exact List.cons_ne_nil _ _)
      fun word hword => (h.conditionWord word hword).visible
  cases h with
  | @words q hcolumn hq hliteral =>
    have hname := solidWord_freeName hcolumn
    have hquoted := solidWord_inQuotes hq hliteral
    obtain ⟨before, after, hbefore, hafter, hfound⟩ :=
      findOperator?_symbol c.operator fun cell hcell => hquoted.shown cell hcell
    have hsymbol : Closed (spaced [c.operator.symbol.toList, []]) := by
      cases c.operator <;> decide
    have hline : line [c.column.toList, c.operator.symbol.toList, inQuotes q c.literal.toList] =
        c.column.toList ++
          (spaced [c.operator.symbol.toList, []] ++ inQuotes q c.literal.toList) := by
      simp [line, spaced]
    have hcells := findOperator?_solid (fun cell hcell => hname.shown cell hcell)
      (mask (spaced [c.operator.symbol.toList, []]) ++ mask (inQuotes q c.literal.toList))
      Operator.all
    rw [hfound, ← mask_append hsymbol, ← mask_append hname.closed, ← hline] at hcells
    have hcolumnEmpty : c.column.toList.isEmpty = false := by simpa using hname.nonempty
    unfold readCondition
    dsimp only
    rw [htrimmed.trim_eq, hcells]
    simp only [Option.map_some, ← mask_append hname.closed, ← mask_append hafter.blank.closed,
      readTrimmed_mask, hbefore.blank.trim_append, hafter.blank.append_trim, hname.visible.trimmed.trim_eq,
      hquoted.visible.trimmed.trim_eq, ok_bind, hcolumnEmpty, unquote_inQuotes hq,
      String.ofList_toList]
    rfl

/-! ## Reading a filter -/

theorem Condition.Written.group {c : Condition} {words : List (List Char)} (h : c.Written words) :
    Group "AND".toList words :=
  ⟨by cases h; exact List.cons_ne_nil _ _,
    fun word hword => (h.conditionWord word hword).other (by decide)⟩

theorem intercalate_ne_nil {keyword : List Char} {part : List (List Char)}
    {parts : List (List (List Char))} (h : part ≠ []) :
    List.intercalate [keyword] (part :: parts) ≠ [] := by
  cases parts with
  | nil => rwa [List.intercalate_singleton]
  | cons next parts => simp [List.intercalate_cons_cons]

/-- Two or more parts are wrapped. -/
theorem join_eq (combine : List Predicate → Predicate) {parts : List Predicate}
    (h : 2 ≤ parts.length) : join combine parts = combine parts := by
  match parts, h with
  | _ :: _ :: _, _ => rfl

namespace Predicate

variable {p : Predicate} {words : List (List Char)}

theorem WrittenConjunction.nonempty (h : p.WrittenConjunction words) : words ≠ [] := by
  cases h with
  | compare hc => exact hc.group.nonempty
  | all hlength hcs =>
    cases hcs with
    | nil => cases hlength
    | cons hc _ => exact intercalate_ne_nil hc.group.nonempty

theorem WrittenConjunction.group (h : p.WrittenConjunction words) : Group "OR".toList words :=
  ⟨h.nonempty, h.forall_word (fun _ hword => hword.other (by decide))
    ⟨visible_of_isFixedWord (by decide), by decide⟩⟩

theorem Written.nonempty (h : p.Written words) : words ≠ [] := by
  cases h with
  | conjunction hp => exact hp.nonempty
  | any hlength hps =>
    cases hps with
    | nil => cases hlength
    | cons hp _ => exact intercalate_ne_nil hp.nonempty

theorem Written.visible (h : p.Written words) : ∀ word ∈ words, VisibleWord word :=
  h.forall_word (fun _ hword => hword.visible) (visible_of_isFixedWord (by decide))
    (visible_of_isFixedWord (by decide))

end Predicate

theorem readConjunction_parts {cs : List Condition} {parts : List (List (List Char))}
    (hne : parts ≠ []) (h : List.Forall₂ Condition.Written cs parts) :
    readConjunction (line (List.intercalate ["AND".toList] parts)) =
      .ok (join .all (cs.map .compare)) := by
  have hcut := atKeyword?_groups "AND".toList (by decide) (by decide) (by decide) (fun _ => rfl) hne
    (forall_of_written (fun _ _ hc => hc.group) h)
  have hread : (parts.map line).mapM readCondition = .ok cs := by
    rw [List.mapM_map]
    exact mapM_of_written (fun _ _ hc => readCondition_of_written hc) h
  unfold readConjunction
  rw [hcut]
  simp only [orTorn, ok_bind, hread]
  rfl

theorem readConjunction_of_written {p : Predicate} {words : List (List Char)}
    (h : p.WrittenConjunction words) : readConjunction (line words) = .ok p := by
  cases h with
  | @compare c words hc =>
    have hread := readConjunction_parts (List.cons_ne_nil words []) (.cons hc .nil)
    rwa [List.intercalate_singleton] at hread
  | @all cs parts hlength hcs =>
    have hne : parts ≠ [] := by
      rintro rfl
      cases hcs
      cases hlength
    rw [readConjunction_parts hne hcs, join_eq _ (by rwa [List.length_map])]

theorem readWhere_parts {ps : List Predicate} {parts : List (List (List Char))} (hne : parts ≠ [])
    (h : List.Forall₂ Predicate.WrittenConjunction ps parts)
    (htrimmed : Trimmed (line (List.intercalate ["OR".toList] parts)))
    (hempty : line (List.intercalate ["OR".toList] parts) ≠ []) :
    readWhere (line (List.intercalate ["OR".toList] parts)) = .ok (join .any ps) := by
  have hcut := atKeyword?_groups "OR".toList (by decide) (by decide) (by decide) (fun _ => rfl) hne
    (forall_of_written (fun _ _ hp => hp.group) h)
  have hread : (parts.map line).mapM readConjunction = .ok ps := by
    rw [List.mapM_map]
    exact mapM_of_written (fun _ _ hp => readConjunction_of_written hp) h
  unfold readWhere
  dsimp only
  rw [htrimmed.trim_eq, hcut, List.isEmpty_eq_false_iff.mpr hempty]
  simp only [orTorn, ok_bind, hread]
  rfl

/-- A written filter is read back. -/
theorem readWhere_of_written {p : Predicate} {words : List (List Char)} (h : p.Written words) :
    readWhere (line words) = .ok p := by
  have htrimmed := trimmed_line h.nonempty h.visible
  have hempty := line_ne_nil h.nonempty h.visible
  cases h with
  | @conjunction p words hp =>
    have hread := readWhere_parts (List.cons_ne_nil words []) (.cons hp .nil)
    rw [List.intercalate_singleton] at hread
    exact hread htrimmed hempty
  | @any ps parts hlength hps =>
    have hne : parts ≠ [] := by
      rintro rfl
      cases hps
      cases hlength
    rw [readWhere_parts hne hps htrimmed hempty, join_eq _ hlength]

/-- A blank before a filter does not matter. -/
theorem readWhere_cons_blank {c : Char} (hc : Text.isBlank c = true) (cs : List Char) :
    readWhere (c :: cs) = readWhere cs := by
  unfold readWhere
  rw [Text.trim_cons_blank hc]

end Rowfile
