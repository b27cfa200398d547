import Rowfile.Proofs.RefilledForms
import Rowfile.Proofs.RespelledFilters

/-!
# Respelled statements

What a quoted span holds cannot change the structure of a statement. If a text is read as a statement
on records whose names contain no quote, then the text with any other content in one of its quoted
spans is read as a statement of the same form, with the same names, comparisons, order and limit. The
two differ only in values and literals that are read from a text with that span in it.
-/
namespace Rowfile

/-- Two values that are read from respelled texts. -/
def Value.Alike (q : Char) (s t : List Char) (v v' : Value) : Prop :=
  ∃ a b, Respelled q s t a b ∧ v = ofLiteral a ∧ v' = ofLiteral b

structure Assignment.Alike (q : Char) (s t : List Char) (a b : Assignment) : Prop where
  column : a.column = b.column
  value : a.value.Alike q s t b.value

namespace Statement

/-- Two statements of one form with the same names, order and limit, as many values and the same
comparisons. Their values and literals are alike one by one. -/
inductive Alike (q : Char) (s t : List Char) : Statement → Statement → Prop
  | insert (table : String) (columns : Option (List String)) {values values' : List Value} :
      List.Forall₂ (Value.Alike q s t) values values' →
      Alike q s t (.insert table columns values) (.insert table columns values')
  | select (table : String) (orderBy : Option OrderBy) (limit : Option Nat)
      {filter filter' : Option Predicate} :
      Option.Rel (Predicate.Alike q s t) filter filter' →
      Alike q s t (.select table filter orderBy limit) (.select table filter' orderBy limit)
  | update (table : String) {assignments assignments' : List Assignment}
      {filter filter' : Predicate} :
      List.Forall₂ (Assignment.Alike q s t) assignments assignments' →
      filter.Alike q s t filter' →
      Alike q s t (.update table assignments filter) (.update table assignments' filter')
  | delete (table : String) {filter filter' : Predicate} :
      filter.Alike q s t filter' →
      Alike q s t (.delete table filter) (.delete table filter')

def onRecords : Statement → Bool
  | .insert .. | .select .. | .update .. | .delete .. => true
  | _ => false

/-- The names in a statement on records: its table, its columns, the columns of its conditions and
the column that it is ordered by. -/
def names : Statement → List String
  | .insert table columns _ => table :: columns.getD []
  | .select table filter orderBy _ =>
    table :: ((filter.map Predicate.conditions).getD []).map Condition.column ++
      (orderBy.map OrderBy.column).toList
  | .update table assignments filter =>
    table :: assignments.map Assignment.column ++ filter.conditions.map Condition.column
  | .delete table filter => table :: filter.conditions.map Condition.column
  | _ => []

end Statement

open Masked Statement

variable {w : Swap}

/-- Two statements are alike, once it is known that no name of the first contains a quote. -/
abbrev Swap.StatementsAlike (w : Swap) (st st' : Statement) : Prop :=
  (∀ name ∈ st.names, Unquoted name.toList) → st.Alike w.quote w.old w.new st'

/-! ## Names -/

theorem isName_of_isQuote {q : Char} (hq : isQuote q = true) : Text.isName q = false := by
  rcases isQuote_cases hq with rfl | rfl
  · decide
  · decide

/-- An identifier contains no quote. -/
theorem unquoted_of_isIdentifier {cs : List Char} (h : isIdentifier cs = true) : Unquoted cs := by
  intro c hc
  rw [isIdentifier, Bool.and_eq_true, List.all_eq_true] at h
  cases hquote : isQuote c with
  | false => rfl
  | true =>
    have hname := h.2 c hc
    rw [isName_of_isQuote hquote] at hname
    exact absurd hname Bool.false_ne_true

namespace Respelled

variable {q : Char} {s t a b : List Char}

theorem symm (h : Respelled q s t a b) : Respelled q t s b a := by
  rcases h with rfl | ⟨x, y, hx, ha, hb⟩
  · exact .inl rfl
  · exact .inr ⟨x, y, hx, hb, ha⟩

theorem isIdentifier_eq (hq : isQuote q = true) (h : Respelled q s t a b) :
    isIdentifier a = isIdentifier b := by
  cases ha : isIdentifier a with
  | true => rw [← h.eq_of_unquoted hq (unquoted_of_isIdentifier ha), ha]
  | false =>
    cases hb : isIdentifier b with
    | false => rfl
    | true =>
      have hba := h.symm.eq_of_unquoted hq (unquoted_of_isIdentifier hb)
      rw [← hba, hb] at ha
      exact absurd ha.symm Bool.false_ne_true

end Respelled

theorem all_isIdentifier_eq {names names' : List (List Char)}
    (h : List.Forall₂ w.Respells names names') :
    names.all isIdentifier = names'.all isIdentifier := by
  induction h with
  | nil => rfl
  | cons hname _ ih =>
    rw [List.all_cons, List.all_cons, ih, hname.isIdentifier_eq w.isQuote_quote]

theorem eq_of_all_isIdentifier {names names' : List (List Char)}
    (h : List.Forall₂ w.Respells names names') (hall : names.all isIdentifier = true) :
    names = names' := by
  induction h with
  | nil => rfl
  | cons hname _ ih =>
    rw [List.all_cons, Bool.and_eq_true] at hall
    rw [ih hall.2, hname.eq_of_unquoted w.isQuote_quote (unquoted_of_isIdentifier hall.1)]

/-- The names are equal, once it is known that the first contains no quote. -/
abbrev NamesAlike (name name' : String) : Prop := Unquoted name.toList → name = name'

theorem Masked.Refilled.readName {l m : List Cell} (h : Refilled w l m) :
    Follows NamesAlike (Statement.readName l) (Statement.readName m) :=
  h.readPart.map fun a b hab ha => by
    rw [String.toList_ofList] at ha
    rw [hab.eq_of_unquoted w.isQuote_quote ha]

/-- A part that may be missing is read on both sides or on neither. -/
theorem Follows.optional {α β γ δ : Type} {R : α → β → Prop} {S : γ → δ → Prop}
    {x y : Option (List Cell)} {f : List Cell → Except Malformed α}
    {g : List Cell → Except Malformed β}
    (hfg : ∀ l m, Refilled w l m → Follows R (f l) (g m))
    {next : Option α → Except Malformed γ} {next' : Option β → Except Malformed δ}
    (hnext : ∀ a b, Option.Rel R a b → Follows S (next a) (next' b)) :
    Option.Rel (Refilled w) x y → Follows S
      (match x with
      | some part => (f part).map some >>= next
      | none => pure none >>= next)
      (match y with
      | some part => (g part).map some >>= next'
      | none => pure none >>= next') := by
  intro h
  cases h with
  | some hpart => exact ((hfg _ _ hpart).map fun _ _ h => .some h).bind hnext
  | none => exact hnext none none .none

/-! ## Lists of columns and values -/

namespace Respelled

variable {a b : List Char}

theorem readColumnList (h : w.Respells a b) :
    Follows (· = ·) (Statement.readColumnList a) (Statement.readColumnList b) := by
  unfold Statement.readColumnList
  refine (Follows.orTorn (h.atSeparator? (by decide))).bind fun names names' hnames => ?_
  have hempty : names.isEmpty = names'.isEmpty := by cases hnames <;> rfl
  refine .check (by rw [hempty, all_isIdentifier_eq hnames]) _ _ fun hgood => .ok ?_
  rw [Bool.or_eq_false_iff, Bool.not_eq_false'] at hgood
  rw [eq_of_all_isIdentifier hnames hgood.2]

theorem readListedValue (h : w.Respells a b) :
    Follows (Value.Alike w.quote w.old w.new) (Statement.readListedValue a)
      (Statement.readListedValue b) := by
  have hparenthesis : (mask a).any Split.isParenthesis = (mask b).any Split.isParenthesis :=
    h.refilled.any_eq (p := fun c => c == '(' || c == ')') (by decide)
  unfold Statement.readListedValue
  rw [h.isEmpty_eq, hparenthesis]
  split
  · exact .error _ _
  · split
    · exact .error _ _
    · exact .ok ⟨a, b, h, rfl, rfl⟩

theorem readAssignment (h : w.Respells a b) :
    Follows (Assignment.Alike w.quote w.old w.new) (Statement.readAssignment a)
      (Statement.readAssignment b) := by
  unfold Statement.readAssignment
  refine (Follows.orFault (h.refilled.breakAt? (c := '=') (by decide)) _ _).bind
    fun ⟨before, after⟩ ⟨before', after'⟩ ⟨hbefore, hafter⟩ => ?_
  refine hbefore.readTrimmed.bind fun column column' hcolumn => ?_
  refine hafter.readTrimmed.bind fun value value' hvalue => ?_
  refine .check (by rw [hcolumn.isIdentifier_eq w.isQuote_quote]) _ _ fun hgood => ?_
  refine .check hvalue.isEmpty_eq _ _ fun _ => .ok ?_
  rw [Bool.not_eq_false'] at hgood
  rw [hcolumn.eq_of_unquoted w.isQuote_quote (unquoted_of_isIdentifier hgood)]
  exact ⟨rfl, value, value', hvalue, rfl, rfl⟩

/-! ## The four forms -/

theorem readInsert (h : w.Respells a b) :
    Follows w.StatementsAlike (Statement.readInsert a) (Statement.readInsert b) := by
  unfold Statement.readInsert
  refine (Follows.orFault h.refilled.insertParts? _ _).bind
    fun ⟨name, columns, values⟩ ⟨name', columns', values'⟩ ⟨hname, hcolumns, hvalues⟩ => ?_
  refine hname.readName.bind fun table table' htable => ?_
  refine .optional (fun _ _ hlist => hlist.readPart.bind fun _ _ h => h.readColumnList)
    (fun columns columns' hcolumns => ?_) hcolumns
  refine hvalues.readPart.bind fun list list' hlist => ?_
  refine (Follows.orTorn (hlist.atSeparator? (by decide))).bind fun values values' hvalues => ?_
  have hempty : values.isEmpty = values'.isEmpty := by cases hvalues <;> rfl
  refine .check hempty _ _ fun _ => ?_
  refine (Follows.mapM hvalues fun _ _ h => h.readListedValue).bind
    fun values values' hvalues => .ok fun hnames => ?_
  obtain rfl := htable (hnames table List.mem_cons_self)
  obtain rfl := hcolumns.eq
  exact .insert table columns hvalues

theorem readDelete (h : w.Respells a b) :
    Follows w.StatementsAlike (Statement.readDelete a) (Statement.readDelete b) := by
  unfold Statement.readDelete
  refine (Follows.orFault h.refilled.deleteParts? _ _).bind
    fun ⟨name, filter⟩ ⟨name', filter'⟩ ⟨hname, hfilter⟩ => ?_
  refine hname.readName.bind fun table table' htable => ?_
  refine (hfilter.readPart.bind fun _ _ h => h.readWhere).bind
    fun filter filter' hfilter => .ok fun hnames => ?_
  obtain rfl := htable (hnames table List.mem_cons_self)
  refine .delete table (hfilter fun c hc => hnames _ ?_)
  exact List.mem_cons_of_mem _ (List.mem_map_of_mem hc)

theorem readUpdate (h : w.Respells a b) :
    Follows w.StatementsAlike (Statement.readUpdate a) (Statement.readUpdate b) := by
  unfold Statement.readUpdate
  refine (Follows.orFault h.refilled.updateParts? _ _).bind
    fun ⟨name, list, filter⟩ ⟨name', list', filter'⟩ ⟨hname, hlist, hfilter⟩ => ?_
  refine hname.readName.bind fun table table' htable => ?_
  refine hlist.readPart.bind fun list list' hlist => ?_
  refine (Follows.orTorn (hlist.atSeparator? (by decide))).bind fun parts parts' hparts => ?_
  refine (Follows.mapM hparts fun _ _ h => h.readAssignment).bind
    fun assignments assignments' hassignments => ?_
  have hempty : assignments.isEmpty = assignments'.isEmpty := by cases hassignments <;> rfl
  refine .check hempty _ _ fun _ => ?_
  refine (hfilter.readPart.bind fun _ _ h => h.readWhere).bind
    fun filter filter' hfilter => .ok fun hnames => ?_
  obtain rfl := htable (hnames table List.mem_cons_self)
  refine .update table hassignments (hfilter fun c hc => hnames _ ?_)
  exact List.mem_append_right _ (List.mem_map_of_mem hc)

end Respelled

namespace Masked.Refilled

variable {l m : List Cell}

theorem readOrderBy (h : Refilled w l m) :
    Follows (fun x y => (∀ order, x = some order → Unquoted order.column.toList) → x = y)
      (Statement.readOrderBy l) (Statement.readOrderBy m) := by
  unfold Statement.readOrderBy
  rw [h.mentionsOrderBy]
  split
  · refine (Follows.orFault h.orderByParts? _ _).bind
      fun ⟨column, direction⟩ ⟨column', direction'⟩ ⟨hcolumn, hdirection⟩ => ?_
    obtain rfl : direction = direction' := hdirection
    refine Follows.bind (R := (· = ·)) (fun direction h => ⟨direction, h, rfl⟩)
      fun direction direction' hdirection => ?_
    obtain rfl := hdirection
    refine hcolumn.readName.bind fun column column' hcolumn => .ok fun hunquoted => ?_
    rw [hcolumn (hunquoted _ rfl)]
  · exact .ok fun _ => rfl

theorem readLimit_eq (h : Refilled w l m) : Statement.readLimit l = Statement.readLimit m := by
  rw [Statement.readLimit, Statement.readLimit, h.mentionsLimit, h.limitPart?_eq]

end Masked.Refilled

namespace Respelled

variable {a b : List Char}

theorem readSelect (h : w.Respells a b) :
    Follows w.StatementsAlike (Statement.readSelect a) (Statement.readSelect b) := by
  unfold Statement.readSelect
  refine (Follows.orFault h.refilled.fromPart? _ _).bind fun name name' hname => ?_
  refine hname.readName.bind fun table table' htable => ?_
  refine .optional (fun _ _ hclause => hclause.readPart.bind fun _ _ h => h.readWhere)
    (fun filter filter' hfilter => ?_) h.refilled.wherePart?
  refine h.refilled.readOrderBy.bind fun order order' horder => ?_
  rw [h.refilled.readLimit_eq]
  refine Follows.bind (R := (· = ·)) (fun limit h => ⟨limit, h, rfl⟩)
    fun limit limit' hlimit => .ok fun hnames => ?_
  obtain rfl := hlimit
  obtain rfl := htable (hnames table (by simp [names]))
  obtain rfl := horder fun order horder => hnames _ (by simp [names, horder])
  refine .select table order limit ?_
  cases hfilter with
  | none => exact .none
  | some hfilter =>
    refine .some (hfilter fun c hc => hnames _ ?_)
    simp only [names, Option.map_some, Option.getD_some]
    exact List.mem_append_left _ (List.mem_cons_of_mem _ (List.mem_map_of_mem hc))

end Respelled

/-! ## Choosing the form -/

theorem Respelled.startsWith_eq {q : Char} {s t a b : List Char} (hq : isQuote q = true)
    (h : Respelled q s t a b) {word : String} (hword : Unquoted word.toList) :
    startsWith word a = startsWith word b := by
  have hnot : q ∉ word.toList := fun hm => by
    rw [hword q hm] at hq
    exact Bool.false_ne_true hq
  have hupper : q.toUpper = q := by
    rcases isQuote_cases hq with rfl | rfl
    · rfl
    · rfl
  -- A word without the quote ends before the span, if it is there at all.
  have hbefore : ∀ (word xs r : List Char), q ∉ word →
      word.isPrefixOf (xs ++ q :: r) = word.isPrefixOf xs := by
    intro word xs r hq
    induction word generalizing xs with
    | nil => rfl
    | cons c word ih =>
      rw [List.mem_cons, not_or] at hq
      cases xs with
      | nil => simp [List.isPrefixOf, Ne.symm hq.1]
      | cons x xs => rw [List.cons_append, List.isPrefixOf, List.isPrefixOf, ih xs hq.2]
  rcases h with rfl | ⟨x, y, _, rfl, rfl⟩
  · rfl
  · simp only [startsWith, inQuotes, List.map_append, List.map_cons, List.cons_append, hupper,
      hbefore _ _ _ hnot]

/-- A statement with a quoted span in it begins and ends outside that span. -/
theorem Statement.body_append_inQuotes {q : Char} (hq : isQuote q = true) (p u : List Char) :
    ∃ v, ∀ s, body (p ++ (inQuotes q s ++ u)) = Text.trimStart p ++ (inQuotes q s ++ v) := by
  have hsemicolon : q ≠ ';' := by
    rintro rfl
    exact absurd hq (by decide)
  refine ⟨if (Text.trimEnd u).getLast? = some ';' then Text.trimEnd (Text.trimEnd u).dropLast
    else Text.trimEnd u, fun s => ?_⟩
  have htrim : Text.trim (p ++ (inQuotes q s ++ u)) =
      Text.trimStart p ++ (inQuotes q s ++ Text.trimEnd u) := by
    rw [Text.trim, Text.trimStart_append_inQuotes hq, Text.trimEnd_append_inQuotes hq]
  unfold body
  dsimp only
  rw [htrim]
  generalize Text.trimEnd u = u
  cases u with
  | nil => simp [inQuotes, List.getLast?_cons, hsemicolon]
  | cons c u =>
    have hlast : (Text.trimStart p ++ (inQuotes q s ++ c :: u)).getLast? = (c :: u).getLast? := by
      simp [List.getLast?_append, List.getLast?_cons]
    have hdrop : (Text.trimStart p ++ (inQuotes q s ++ c :: u)).dropLast =
        Text.trimStart p ++ (inQuotes q s ++ (c :: u).dropLast) := by
      rw [List.dropLast_append_of_ne_nil (by simp), List.dropLast_append_of_ne_nil (by simp)]
    rw [hlast, hdrop]
    split
    · rw [Text.trimEnd_append_inQuotes hq]
    · rfl

/-- If the first outcome is a statement on records whose names contain no quote, then the second is a
statement that is alike. -/
def AlikeIfRead (w : Swap) (x y : Except Fault Statement) : Prop :=
  ∀ st, x = .ok st → st.onRecords = true → (∀ name ∈ st.names, Unquoted name.toList) →
    ∃ st', y = .ok st' ∧ st.Alike w.quote w.old w.new st'

namespace AlikeIfRead

variable {x x' y y' : Except Fault Statement}

theorem ite {c c' : Bool} (hc : c = c') (h : AlikeIfRead w x y) (h' : AlikeIfRead w x' y') :
    AlikeIfRead w (if c = true then x else x') (if c' = true then y else y') := by
  subst hc
  cases c with
  | true => exact h
  | false => exact h'

theorem of_follows {x y : Except Malformed Statement} (h : Follows w.StatementsAlike x y) :
    AlikeIfRead w (orMalformed x) (orMalformed y) := by
  intro st hst _ hnames
  cases x with
  | error problem => cases hst
  | ok first =>
    obtain rfl := Except.ok.inj hst
    obtain ⟨st', rfl, halike⟩ := h first rfl
    exact ⟨st', rfl, halike hnames⟩

end AlikeIfRead

def ReadsOthers {ε : Type} (x : Except ε Statement) : Prop :=
  ∀ st, x = .ok st → st.onRecords = false

namespace ReadsOthers

variable {ε : Type}

theorem ok {st : Statement} (h : st.onRecords = false) : ReadsOthers (ε := ε) (.ok st) := by
  rintro _ ⟨⟩
  exact h

theorem error (e : ε) : ReadsOthers (.error e) := fun _ hst => nomatch hst

theorem bind {α : Type} {x : Except ε α} {f : α → Except ε Statement}
    (h : ∀ a, ReadsOthers (f a)) : ReadsOthers (x >>= f) := by
  intro st hst
  obtain ⟨a, _, ha⟩ := bind_eq_ok.mp hst
  exact h a st ha

theorem orMalformed {x : Except Malformed Statement} (h : ReadsOthers x) :
    ReadsOthers (orMalformed x) := by
  cases x with
  | error problem => exact error _
  | ok st => exact ok (h st rfl)

theorem ite {x y : Except ε Statement} (c : Bool) (hx : ReadsOthers x) (hy : ReadsOthers y) :
    ReadsOthers (if c = true then x else y) := by
  cases c with
  | true => exact hx
  | false => exact hy

theorem alikeIfRead {x y : Except Fault Statement} (h : ReadsOthers x) : AlikeIfRead w x y := by
  intro st hst hrecords
  rw [h st hst] at hrecords
  exact absurd hrecords Bool.false_ne_true

variable (a : List Char)

theorem readCreateTable : ReadsOthers (readCreateTable a) :=
  bind fun _ => bind fun _ => bind fun _ => bind fun _ => bind fun _ => ok rfl

theorem readDropTable : ReadsOthers (readDropTable a) := bind fun _ => bind fun _ => ok rfl

theorem readRenameTable : ReadsOthers (readRenameTable a) :=
  bind fun _ => bind fun _ => bind fun _ => ok rfl

theorem readDescribe : ReadsOthers (readDescribe a) := bind fun _ => bind fun _ => ok rfl

theorem readShowTable : ReadsOthers (readShowTable a) := bind fun _ => bind fun _ => ok rfl

theorem readCreateIndex : ReadsOthers (readCreateIndex a) :=
  bind fun _ => bind fun _ => bind fun _ => ok rfl

end ReadsOthers

/-- The form is chosen by what stands before the first quote. -/
theorem alikeIfRead_of_body {text text' : List Char}
    (h : w.Respells (body text) (body text')) :
    AlikeIfRead w (Statement.read text) (Statement.read text') := by
  have hword : ∀ word : String, Unquoted word.toList →
      startsWith word (body text) = startsWith word (body text') :=
    fun word hunquoted => h.startsWith_eq w.isQuote_quote hunquoted
  unfold Statement.read
  dsimp only
  refine .ite (hword _ (by decide)) (ReadsOthers.readCreateTable _).orMalformed.alikeIfRead ?_
  refine .ite (hword _ (by decide)) (ReadsOthers.readDropTable _).orMalformed.alikeIfRead ?_
  refine .ite (hword _ (by decide)) (ReadsOthers.readRenameTable _).orMalformed.alikeIfRead ?_
  refine .ite (hword _ (by decide)) (.of_follows h.readInsert) ?_
  refine .ite (hword _ (by decide)) (.of_follows h.readSelect) ?_
  refine .ite (hword _ (by decide)) (.of_follows h.readUpdate) ?_
  refine .ite (hword _ (by decide)) (.of_follows h.readDelete) ?_
  -- No other form is a statement on records.
  exact (ReadsOthers.ite _ (ReadsOthers.readDescribe _).orMalformed
    (.ite _ (.ok rfl) (.ite _ (ReadsOthers.readShowTable _).orMalformed
      (.ite _ (ReadsOthers.readCreateIndex _).orMalformed (.error _))))).alikeIfRead

/-- What a quoted span holds cannot change the structure of a statement on records. -/
theorem Statement.read_inQuotes_alike {q : Char} (hq : isQuote q = true) {p : List Char}
    (hp : Closed p) {s t : List Char} (hs : q ∉ s) (ht : q ∉ t) (u : List Char) {st : Statement}
    (hread : Statement.read (p ++ (inQuotes q s ++ u)) = .ok st) (hrecords : st.onRecords = true)
    (hnames : ∀ name ∈ st.names, Unquoted name.toList) :
    ∃ st', Statement.read (p ++ (inQuotes q t ++ u)) = .ok st' ∧ st.Alike q s t st' := by
  obtain ⟨v, hbody⟩ := body_append_inQuotes hq p u
  let w : Swap := ⟨q, s, t, hq, hs, ht⟩
  have hbodies : w.Respells (body (p ++ (inQuotes q s ++ u))) (body (p ++ (inQuotes q t ++ u))) :=
    .inr ⟨Text.trimStart p, v, hp.trimStart, hbody s, hbody t⟩
  exact alikeIfRead_of_body hbodies st hread hrecords hnames

/-- A text that holds separators, keywords, an operator and the other quote leaves an UPDATE as it
was with an empty text in its place. -/
theorem Statement.read_inQuotes_alike_update :
    ∃ st st', Statement.read ("UPDATE t SET a = 'x', b = ".toList ++
        (inQuotes '"' "".toList ++ " WHERE k != 3 AND c = 1;".toList)) = .ok st ∧
      st.names = ["t", "a", "b", "k", "c"] ∧
      Statement.read ("UPDATE t SET a = 'x', b = ".toList ++
        (inQuotes '"' "), c = 'é\n WHERE a = 1 OR b; ".toList ++
          " WHERE k != 3 AND c = 1;".toList)) = .ok st' ∧
      st.Alike '"' "".toList "), c = 'é\n WHERE a = 1 OR b; ".toList st' := by
  have hfacts : (Statement.read ("UPDATE t SET a = 'x', b = ".toList ++
      (inQuotes '"' "".toList ++ " WHERE k != 3 AND c = 1;".toList))).toOption.map
        (fun st => (st.onRecords, st.names)) = some (true, ["t", "a", "b", "k", "c"]) := by
    decide +kernel
  cases hread : Statement.read ("UPDATE t SET a = 'x', b = ".toList ++
      (inQuotes '"' "".toList ++ " WHERE k != 3 AND c = 1;".toList)) with
  | error problem =>
    rw [hread] at hfacts
    exact absurd hfacts (by simp [Except.toOption])
  | ok st =>
    rw [hread] at hfacts
    obtain ⟨hrecords, hnames⟩ := Prod.mk.inj (Option.some.inj hfacts)
    have hunquoted : ∀ name ∈ st.names, Unquoted name.toList := by
      rw [hnames]
      decide
    obtain ⟨st', hread', halike⟩ := Statement.read_inQuotes_alike
      (t := "), c = 'é\n WHERE a = 1 OR b; ".toList) (by decide) (by decide) (by decide)
      (by decide) " WHERE k != 3 AND c = 1;".toList hread hrecords hunquoted
    exact ⟨st, st', rfl, hnames, hread', halike⟩

end Rowfile
