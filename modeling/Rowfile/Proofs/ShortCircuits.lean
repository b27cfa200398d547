import Rowfile.Predicate.Eval
import Rowfile.Proofs.Peeling

/-!
# Answers that come early

AND stops at the first part that does not hold and OR at the first that does, so a condition that
cannot be evaluated may be passed over, or met, depending on where it stands. An answer is right all
the same: it is what the predicate comes to whichever way the conditions that cannot be evaluated are
taken. Where every condition can be evaluated there is an answer, and it does not depend on the order
of the parts at any depth. A fault is that of a condition of the predicate.
-/
namespace Rowfile.Predicate

/-- What holds of conditions, and of a whole if it holds of all parts, holds of every predicate. -/
theorem parts_induction {motive : Predicate → Prop} (predicate : Predicate)
    (compare : ∀ condition, motive (.compare condition))
    (all : ∀ parts, (∀ part ∈ parts, motive part) → motive (.all parts))
    (any : ∀ parts, (∀ part ∈ parts, motive part) → motive (.any parts)) : motive predicate :=
  @Predicate.rec motive (fun parts => ∀ part ∈ parts, motive part) compare all any
    (List.forall_mem_nil _) (fun _ _ hpart hparts => List.forall_mem_cons.mpr ⟨hpart, hparts⟩)
    predicate

/-! ## Up to the first decisive part -/

/-- Parts are evaluated from left to right up to the first one with the decisive truth value. -/
def evalUpTo (record : Record) (decisive : Bool) : List Predicate → Except Fault Bool
  | [] => .ok !decisive
  | part :: parts =>
    match part.eval record with
    | .error fault => .error fault
    | .ok value => if value = decisive then .ok decisive else evalUpTo record decisive parts

section
variable {record : Record} {decisive : Bool} {parts : List Predicate}

theorem eval_all (record : Record) (parts : List Predicate) :
    (all parts).eval record = evalUpTo record false parts := by
  rw [eval]
  induction parts with
  | nil => rfl
  | cons part parts ih =>
    rw [evalAll, evalUpTo]
    cases part.eval record with
    | error fault => rfl
    | ok value =>
      cases value with
      | false => rfl
      | true => exact ih

theorem eval_any (record : Record) (parts : List Predicate) :
    (any parts).eval record = evalUpTo record true parts := by
  rw [eval]
  induction parts with
  | nil => rfl
  | cons part parts ih =>
    rw [evalAny, evalUpTo]
    cases part.eval record with
    | error fault => rfl
    | ok value =>
      cases value with
      | false => exact ih
      | true => rfl

/-- Some part decides, or all parts are evaluated and none decides, or some part cannot be
evaluated. -/
theorem evalUpTo_cases (record : Record) (decisive : Bool) (parts : List Predicate) :
    (evalUpTo record decisive parts = .ok decisive ∧
      ∃ part ∈ parts, part.eval record = .ok decisive) ∨
    (evalUpTo record decisive parts = .ok !decisive ∧
      ∀ part ∈ parts, part.eval record = .ok !decisive) ∨
    ∃ fault, evalUpTo record decisive parts = .error fault ∧
      ∃ part ∈ parts, part.eval record = .error fault := by
  induction parts with
  | nil => exact .inr (.inl ⟨rfl, List.forall_mem_nil _⟩)
  | cons part parts ih =>
    rw [evalUpTo]
    cases hpart : part.eval record with
    | error fault => exact .inr (.inr ⟨fault, rfl, part, List.mem_cons_self, hpart⟩)
    | ok value =>
      by_cases hvalue : value = decisive
      · subst hvalue
        exact .inl ⟨if_pos rfl, part, List.mem_cons_self, hpart⟩
      · simp only [hvalue, if_false]
        rcases ih with ⟨he, other, ho, hother⟩ | ⟨he, hall⟩ | ⟨fault, he, other, ho, hother⟩
        · exact .inl ⟨he, other, List.mem_cons_of_mem _ ho, hother⟩
        · rw [Bool.eq_not.mpr hvalue] at hpart
          exact .inr (.inl ⟨he, List.forall_mem_cons.mpr ⟨hpart, hall⟩⟩)
        · exact .inr (.inr ⟨fault, he, other, List.mem_cons_of_mem _ ho, hother⟩)

theorem evalUpTo_of_mem (hall : ∀ part ∈ parts, ∃ value, part.eval record = .ok value)
    {part : Predicate} (hmem : part ∈ parts) (hpart : part.eval record = .ok decisive) :
    evalUpTo record decisive parts = .ok decisive := by
  rcases evalUpTo_cases record decisive parts with ⟨he, _⟩ | ⟨_, hno⟩ | ⟨fault, _, other, ho, hother⟩
  · exact he
  · rw [hno part hmem] at hpart
    simp at hpart
  · obtain ⟨value, hvalue⟩ := hall other ho
    rw [hother] at hvalue
    cases hvalue

theorem evalUpTo_of_forall (hall : ∀ part ∈ parts, part.eval record = .ok !decisive) :
    evalUpTo record decisive parts = .ok !decisive := by
  rcases evalUpTo_cases record decisive parts with ⟨_, part, hp, hpart⟩ | ⟨he, _⟩ |
    ⟨fault, _, other, ho, hother⟩
  · rw [hall part hp] at hpart
    simp at hpart
  · exact he
  · rw [hall other ho] at hother
    cases hother

end

/-! ## Faults -/

/-- A part that cannot be evaluated has a condition that cannot, and it is one of the whole. -/
theorem exists_of_evalUpTo_eq_error {record : Record} {decisive : Bool} {parts : List Predicate}
    {fault : Fault} (h : evalUpTo record decisive parts = .error fault)
    (hparts : ∀ part ∈ parts, part.eval record = .error fault →
      ∃ condition ∈ part.conditions, condition.eval record = .error fault) :
    ∃ condition ∈ conditionsOfAll parts, condition.eval record = .error fault := by
  rcases evalUpTo_cases record decisive parts with ⟨he, _⟩ | ⟨he, _⟩ | ⟨_, he, part, hp, hpart⟩
  · rw [he] at h
    cases h
  · rw [he] at h
    cases h
  · obtain rfl := Except.error.inj (he.symm.trans h)
    obtain ⟨condition, hc, hcondition⟩ := hparts part hp hpart
    exact ⟨condition, mem_conditionsOfAll.mpr ⟨part, hp, hc⟩, hcondition⟩

/-- A fault is that of a condition. -/
theorem exists_of_eval_eq_error {record : Record} {predicate : Predicate} {fault : Fault}
    (h : predicate.eval record = .error fault) :
    ∃ condition ∈ predicate.conditions, condition.eval record = .error fault := by
  induction predicate using parts_induction with
  | compare condition =>
    rw [eval] at h
    exact ⟨condition, by simp [conditions], h⟩
  | all parts ih =>
    rw [eval_all] at h
    rw [conditions]
    exact exists_of_evalUpTo_eq_error h ih
  | any parts ih =>
    rw [eval_any] at h
    rw [conditions]
    exact exists_of_evalUpTo_eq_error h ih

/-- Where every condition can be evaluated there is an answer. -/
theorem exists_eval_eq_ok {record : Record} {predicate : Predicate}
    (h : ∀ condition ∈ predicate.conditions, ∃ value, condition.eval record = .ok value) :
    ∃ value, predicate.eval record = .ok value := by
  cases he : predicate.eval record with
  | ok value => exact ⟨value, rfl⟩
  | error fault =>
    obtain ⟨condition, hc, hfault⟩ := exists_of_eval_eq_error he
    obtain ⟨value, hvalue⟩ := h condition hc
    rw [hfault] at hvalue
    cases hvalue

/-! ## Completions -/

/-- A truth value to which a predicate comes when the conditions that cannot be evaluated are each
taken to hold or not, one and the same condition in two places perhaps differently. -/
inductive ComesTo (record : Record) : Predicate → Bool → Prop
  | evaluated {condition : Condition} {value : Bool} :
      condition.eval record = .ok value → ComesTo record (.compare condition) value
  | taken {condition : Condition} {fault : Fault} (value : Bool) :
      condition.eval record = .error fault → ComesTo record (.compare condition) value
  | all {parts : List Predicate} {values : List Bool} :
      List.Forall₂ (ComesTo record) parts values → ComesTo record (.all parts) values.and
  | any {parts : List Predicate} {values : List Bool} :
      List.Forall₂ (ComesTo record) parts values → ComesTo record (.any parts) values.or

theorem exists_comesTo (record : Record) (predicate : Predicate) :
    ∃ value, ComesTo record predicate value := by
  induction predicate using parts_induction with
  | compare condition =>
    cases h : condition.eval record with
    | ok value => exact ⟨value, .evaluated h⟩
    | error fault => exact ⟨true, .taken true h⟩
  | all parts ih =>
    obtain ⟨values, hvalues⟩ := exists_forall₂ ih
    exact ⟨_, .all hvalues⟩
  | any parts ih =>
    obtain ⟨values, hvalues⟩ := exists_forall₂ ih
    exact ⟨_, .any hvalues⟩

/-- The decisive truth value decides a list, wherever it stands. -/
def joined (decisive : Bool) (values : List Bool) : Bool :=
  if decisive ∈ values then decisive else !decisive

theorem and_eq_joined (values : List Bool) : values.and = joined false values := by
  induction values with
  | nil => rfl
  | cons value values ih => cases value <;> simp_all [joined, List.and]

theorem or_eq_joined (values : List Bool) : values.or = joined true values := by
  induction values with
  | nil => rfl
  | cons value values ih => cases value <;> simp_all [joined, List.or]

/-- The values of all parts come to the answer, if those of each part come to its answer. -/
theorem joined_of_evalUpTo {record : Record} {decisive answer : Bool} {parts : List Predicate}
    {values : List Bool} (h : evalUpTo record decisive parts = .ok answer)
    (hparts : ∀ part ∈ parts, ∀ answer, part.eval record = .ok answer →
      ∀ value, ComesTo record part value → value = answer)
    (hvalues : List.Forall₂ (ComesTo record) parts values) : joined decisive values = answer := by
  rcases evalUpTo_cases record decisive parts with ⟨he, part, hp, hpart⟩ | ⟨he, hall⟩ | ⟨_, he, _⟩
  · obtain rfl := Except.ok.inj (he.symm.trans h)
    obtain ⟨value, hv, hvalue⟩ := exists_mem_of_forall₂ hvalues hp
    obtain rfl := hparts part hp _ hpart value hvalue
    exact if_pos hv
  · obtain rfl := Except.ok.inj (he.symm.trans h)
    refine if_neg fun hd => ?_
    obtain ⟨part, hp, hvalue⟩ := exists_mem_of_forall₂ hvalues.flip hd
    have := hparts part hp _ (hall part hp) _ hvalue
    simp at this
  · rw [he] at h
    cases h

/-- Every completion comes to the answer. -/
theorem ComesTo.eq_of_eval {record : Record} {predicate : Predicate} {answer : Bool}
    (h : predicate.eval record = .ok answer) :
    ∀ value, ComesTo record predicate value → value = answer := by
  induction predicate using parts_induction generalizing answer with
  | compare condition =>
    rw [eval] at h
    rintro value (hvalue | ⟨_, hfault⟩)
    · exact Except.ok.inj (hvalue.symm.trans h)
    · rw [h] at hfault
      cases hfault
  | all parts ih =>
    rw [eval_all] at h
    rintro _ (_ | _ | hvalues | _)
    rw [and_eq_joined]
    exact joined_of_evalUpTo h (fun part hp answer => ih part hp) hvalues
  | any parts ih =>
    rw [eval_any] at h
    rintro _ (_ | _ | _ | hvalues)
    rw [or_eq_joined]
    exact joined_of_evalUpTo h (fun part hp answer => ih part hp) hvalues

/-! ## Orders of the parts -/

/-- The same predicate with the parts in another order, at any depth. -/
inductive Reordered : Predicate → Predicate → Prop
  | compare (condition : Condition) : Reordered (.compare condition) (.compare condition)
  | all {parts middle parts' : List Predicate} : List.Forall₂ Reordered parts middle →
      middle.Perm parts' → Reordered (.all parts) (.all parts')
  | any {parts middle parts' : List Predicate} : List.Forall₂ Reordered parts middle →
      middle.Perm parts' → Reordered (.any parts) (.any parts')

/-- Parts that can be evaluated may be exchanged for parts with the same answers in any order. -/
theorem evalUpTo_exchanged {record : Record} {parts middle parts' : List Predicate}
    (hall : ∀ part ∈ parts, ∃ value, part.eval record = .ok value)
    (hmiddle : List.Forall₂ (fun part part' => part'.eval record = part.eval record) parts middle)
    (hperm : middle.Perm parts') (decisive : Bool) :
    evalUpTo record decisive parts' = evalUpTo record decisive parts := by
  have hsource : ∀ part' ∈ parts', ∃ part ∈ parts, part'.eval record = part.eval record :=
    fun part' hp => exists_mem_of_forall₂ hmiddle.flip (hperm.mem_iff.mpr hp)
  have hall' : ∀ part' ∈ parts', ∃ value, part'.eval record = .ok value := by
    intro part' hp
    obtain ⟨part, hpart, he⟩ := hsource part' hp
    rw [he]
    exact hall part hpart
  rcases evalUpTo_cases record decisive parts with ⟨he, part, hp, hpart⟩ | ⟨he, hno⟩ |
    ⟨_, _, part, hp, hpart⟩
  · obtain ⟨part', hp', heval⟩ := exists_mem_of_forall₂ hmiddle hp
    rw [he, evalUpTo_of_mem hall' (hperm.mem_iff.mp hp') (heval.trans hpart)]
  · rw [he]
    refine evalUpTo_of_forall fun part' hp' => ?_
    obtain ⟨part, hp, heval⟩ := hsource part' hp'
    exact heval.trans (hno part hp)
  · obtain ⟨value, hvalue⟩ := hall part hp
    rw [hpart] at hvalue
    cases hvalue

/-- If each part of a list keeps its answer when it is reordered, so does the list. -/
theorem evalUpTo_reordered {record : Record} {parts middle parts' : List Predicate}
    (hall : ∀ condition ∈ conditionsOfAll parts, ∃ value, condition.eval record = .ok value)
    (hparts : ∀ part ∈ parts, ∀ part', Reordered part part' →
      (∀ condition ∈ part.conditions, ∃ value, condition.eval record = .ok value) →
      part'.eval record = part.eval record)
    (hmiddle : List.Forall₂ Reordered parts middle) (hperm : middle.Perm parts')
    (decisive : Bool) : evalUpTo record decisive parts' = evalUpTo record decisive parts := by
  have hpart : ∀ part ∈ parts, ∀ condition ∈ part.conditions,
      ∃ value, condition.eval record = .ok value := fun part hp condition hc =>
    hall condition (mem_conditionsOfAll.mpr ⟨part, hp, hc⟩)
  refine evalUpTo_exchanged (fun part hp => exists_eval_eq_ok (hpart part hp)) ?_ hperm decisive
  have hboth := (List.forall₂_and_left parts middle).mpr
    ⟨fun part hp part' hr => hparts part hp part' hr (hpart part hp), hmiddle⟩
  exact hboth.imp fun _ _ h => h.1 _ h.2

theorem Reordered.eval_eq {record : Record} {predicate predicate' : Predicate}
    (h : Reordered predicate predicate')
    (hall : ∀ condition ∈ predicate.conditions, ∃ value, condition.eval record = .ok value) :
    predicate'.eval record = predicate.eval record := by
  induction predicate using parts_induction generalizing predicate' with
  | compare condition => cases h; rfl
  | all parts ih =>
    rw [conditions] at hall
    obtain _ | ⟨hmiddle, hperm⟩ | _ := h
    rw [eval_all, eval_all]
    exact evalUpTo_reordered hall (fun part hp _ hr => ih part hp hr) hmiddle hperm false
  | any parts ih =>
    rw [conditions] at hall
    obtain _ | _ | ⟨hmiddle, hperm⟩ := h
    rw [eval_any, eval_any]
    exact evalUpTo_reordered hall (fun part hp _ hr => ih part hp hr) hmiddle hperm true

/-- If a predicate has an answer on a record, the answer is what the predicate comes to, and all that
it can come to, whichever way the conditions are taken that cannot be evaluated on the record. If all
conditions can be evaluated, what it comes to is the answer for every order of the parts. A fault is
that of a condition of the predicate. -/
theorem answer_right_for_all_completions (record : Record) (predicate : Predicate) :
    (∀ answer, predicate.eval record = .ok answer →
      ∀ value, ComesTo record predicate value ↔ value = answer) ∧
    ((∀ condition ∈ predicate.conditions, ∃ value, condition.eval record = .ok value) →
      ∃ answer, ComesTo record predicate answer ∧
        ∀ reordered, Reordered predicate reordered → reordered.eval record = .ok answer) ∧
    ∀ fault, predicate.eval record = .error fault →
      ∃ condition ∈ predicate.conditions, condition.eval record = .error fault := by
  have hanswer : ∀ answer, predicate.eval record = .ok answer →
      ∀ value, ComesTo record predicate value ↔ value = answer := by
    intro answer h value
    refine ⟨ComesTo.eq_of_eval h value, ?_⟩
    rintro rfl
    obtain ⟨value, hvalue⟩ := exists_comesTo record predicate
    exact ComesTo.eq_of_eval h value hvalue ▸ hvalue
  refine ⟨hanswer, fun hall => ?_, fun fault => exists_of_eval_eq_error⟩
  obtain ⟨answer, h⟩ := exists_eval_eq_ok hall
  exact ⟨answer, (hanswer answer h answer).mpr rfl, fun reordered hr => (hr.eval_eq hall).trans h⟩

def agelessRecord : Record := .ofList [("id", .integer 1)]

def idIsOne : Predicate := .compare ⟨"id", .eq, "1"⟩

def isGrown : Predicate := .compare ⟨"age", .gt, "17"⟩

/-- Behind a part that decides the age is passed over, before it the fault is met. With ids alone
the parts may stand in any order. -/
theorem answer_right_for_all_completions_ageless :
    ((any [idIsOne, isGrown]).eval agelessRecord = .ok true ∧
      ∀ value, ComesTo agelessRecord (any [idIsOne, isGrown]) value ↔ value = true) ∧
    ((any [isGrown, idIsOne]).eval agelessRecord = .error (.comparesNothing "age" .gt) ∧
      ∃ condition ∈ (any [isGrown, idIsOne]).conditions,
        condition.eval agelessRecord = .error (.comparesNothing "age" .gt)) ∧
    ∃ answer, ComesTo agelessRecord (all [any [], all [idIsOne]]) answer ∧
      (all [all [idIsOne], any []]).eval agelessRecord = .ok answer := by
  have hanswer : (any [idIsOne, isGrown]).eval agelessRecord = .ok true := by decide +kernel
  have hfault : (any [isGrown, idIsOne]).eval agelessRecord =
      .error (.comparesNothing "age" .gt) := by decide +kernel
  have hall : ∀ condition ∈ (all [any [], all [idIsOne]]).conditions,
      ∃ value, condition.eval agelessRecord = .ok value := by
    intro condition hc
    obtain rfl : condition = ⟨"id", .eq, "1"⟩ := by
      simpa [conditions, conditionsOfAll, idIsOne] using hc
    exact ⟨true, by decide +kernel⟩
  refine ⟨⟨hanswer, (answer_right_for_all_completions _ _).1 true hanswer⟩,
    ⟨hfault, (answer_right_for_all_completions _ _).2.2 _ hfault⟩, ?_⟩
  obtain ⟨answer, hcomes, horders⟩ := (answer_right_for_all_completions _ _).2.1 hall
  have hid : Reordered idIsOne idIsOne := .compare _
  refine ⟨answer, hcomes, horders _ (.all (.cons (.any .nil .nil)
    (.cons (.all (.cons hid .nil) (.refl _)) .nil)) (.swap _ _ _))⟩

end Rowfile.Predicate
