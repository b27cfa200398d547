import Rowfile.Proofs.JoinedPieces
import Rowfile.Proofs.Recognisers

/-!
# Written lists

Lists are written with a comma and a blank between the items. An item shows no comma and no
parenthesis and has no blanks around it, so a list is cut into just these items. The names and the
body of a statement are found by what stands behind them: a word ends at the first character that is
no word character, and a body at the last closing parenthesis.
-/
namespace Rowfile

open Masked Pattern Split

def commaJoin (items : List (List Char)) : List Char := List.intercalate [',', ' '] items

def isListed (c : Char) : Bool := c != ',' && c != '(' && c != ')'

structure ListItem (cs : List Char) : Prop extends Shown isListed cs, Trimmed cs where
  nonempty : cs ≠ []

theorem isListed_of_isSolid {c : Char} (hc : isSolid c = true) : isListed c = true :=
  forall_of_isSolid (by decide +kernel) hc

theorem SolidWord.listItem {cs : List Char} (h : SolidWord cs) : ListItem cs :=
  ⟨h.toShown.imp fun _ => isListed_of_isSolid, h.visible.trimmed, h.nonempty⟩

/-! ## Cutting a list into its items -/

theorem commaJoin_singleton (item : List Char) : commaJoin [item] = item :=
  List.intercalate_singleton

theorem commaJoin_cons_cons (item next : List Char) (items : List (List Char)) :
    commaJoin (item :: next :: items) = item ++ ([',', ' '] ++ commaJoin (next :: items)) := by
  rw [commaJoin, List.intercalate_cons_cons, List.append_assoc]
  rfl

theorem Shown.commaJoin {p : Char → Bool} (hcomma : p ',' = true) (hblank : p ' ' = true)
    {items : List (List Char)} (h : ∀ item ∈ items, Shown p item) : Shown p (commaJoin items) := by
  induction items with
  | nil => exact ⟨rfl, fun _ hcell => nomatch hcell⟩
  | cons item items ih =>
    rw [List.forall_mem_cons] at h
    cases items with
    | nil => rw [commaJoin_singleton]; exact h.1
    | cons next items =>
      rw [commaJoin_cons_cons]
      refine h.1.append (.append (shown_of_unquoted (by decide) fun c hc => ?_) (ih h.2))
      rcases List.mem_cons.mp hc with rfl | hc
      · exact hcomma
      · rw [List.mem_singleton.mp hc, hblank]

theorem isParenthesis_of_isListed {cell : Cell} (h : isListed cell.shown = true) :
    isParenthesis cell = false := by
  simp only [isListed, Bool.and_eq_true, bne_iff_ne] at h
  simp [isParenthesis, h]

theorem shown_ne_comma_of_isListed {cell : Cell} (h : isListed cell.shown = true) :
    (cell.shown == ',') = false := by
  simp only [isListed, Bool.and_eq_true, bne_iff_ne] at h
  exact beq_eq_false_iff_ne.mpr h.1.1

theorem piecesFrom_item {item : List Char} (h : Shown isListed item) (r : List Cell) :
    piecesFrom ',' 0 (mask item ++ r) =
      (mask item ++ (piecesFrom ',' 0 r).1, (piecesFrom ',' 0 r).2) :=
  piecesFrom_append (fun cell hcell => ⟨isParenthesis_of_isListed (h.shown cell hcell),
    beq_eq_false_iff_ne.mp (shown_ne_comma_of_isListed (h.shown cell hcell))⟩) 0 r

theorem ListItem.piece {cs : List Char} (h : ListItem cs) : Piece cs where
  trimmed := h.toTrimmed.trim_eq
  visible hblank := by
    obtain ⟨c, cs, rfl⟩ := List.exists_cons_of_ne_nil h.nonempty
    have hfirst := h.first c rfl
    rw [hblank c List.mem_cons_self] at hfirst
    cases hfirst
  balanced := balanced_of_forall h.closed fun cell hcell =>
    isParenthesis_of_isListed (h.shown cell hcell)
  commas := nested_of_forall fun cell hcell => shown_ne_comma_of_isListed (h.shown cell hcell)

theorem joined_commaJoin (items : List (List Char)) : Joined BlankComma items (commaJoin items) := by
  induction items with
  | nil => exact .nil
  | cons item items ih =>
    cases items with
    | nil =>
      rw [commaJoin_singleton]
      exact .last item
    | cons next items =>
      rw [commaJoin_cons_cons]
      exact .next item ⟨[], [' '], rfl, by decide, by decide⟩ (List.cons_ne_nil _ _) ih

theorem readTrimmed?_mask (texts : List (List Char)) :
    readTrimmed? (texts.map mask) = some (texts.map Text.trim) := by
  refine mapM_eq_some_iff.mpr (List.forall₂_map_left_iff.mpr (List.forall₂_map_right_iff.mpr ?_))
  exact List.forall₂_same.mpr fun text _ => congrArg (Option.map Text.trim) (read?_mask text)

/-- A written list is cut into its items. -/
theorem atSeparator?_commaJoin {items : List (List Char)} (h : ∀ cs ∈ items, ListItem cs) :
    atSeparator? ',' (commaJoin items) = some items :=
  atSeparator?_joined (joined_commaJoin items) fun cs hcs => (h cs hcs).piece

/-- A list shows no parenthesis. -/
theorem shown_commaJoin {items : List (List Char)} (h : ∀ cs ∈ items, ListItem cs) :
    Shown (fun c => c != '(' && c != ')') (commaJoin items) := by
  refine Shown.commaJoin (by decide) (by decide) fun cs hcs => (h cs hcs).toShown.imp fun c hc => ?_
  simp only [isListed, Bool.and_eq_true] at hc ⊢
  exact ⟨hc.1.2, hc.2⟩

/-! ## Lists read item by item -/

section
variable {α β : Type} {R : α → β → Prop} {as : List α} {texts : List β}

theorem mapM_of_written {f : β → Except Malformed α}
    (hf : ∀ a text, R a text → f text = .ok a) (h : List.Forall₂ R as texts) :
    texts.mapM f = .ok as :=
  mapM_eq_ok_iff.mpr (h.flip.imp fun text a ha => hf a text ha)

theorem forall_of_written {P : β → Prop} (hP : ∀ a text, R a text → P text)
    (h : List.Forall₂ R as texts) : ∀ text ∈ texts, P text := by
  intro text htext
  obtain ⟨a, -, ha⟩ := exists_mem_of_forall₂ h.flip htext
  exact hP a text ha

end

/-! ## Parts of a statement -/

section
variable {l : List Cell} (h : l.head?.any Cell.isBlank = false)
include h

theorem skipBlanks_space : skipBlanks (.plain ' ' :: l) = l :=
  skipBlanks_eq_iff.mpr ⟨[.plain ' '], rfl, by decide, h⟩

theorem takeWhile_isBlank_space : (.plain ' ' :: l).takeWhile Cell.isBlank = [.plain ' '] := by
  have hblank : ∀ cell ∈ [Cell.plain ' '], cell.isBlank = true := by decide
  exact (takeWhile_eq_iff.mpr ⟨rfl, hblank, h⟩).1

theorem blanks?_space : blanks? (.plain ' ' :: l) = some l :=
  blanks?_eq_some_iff.mpr ⟨[.plain ' '], rfl, by decide, by decide, h⟩

end

/-- A name is the word at its place. -/
theorem word?_name {name : String} (h : isPlainName name = true) {r : List Cell}
    (hr : r.head?.any Cell.isWord = false) :
    word? (mask name.toList ++ r) = some (mask name.toList, r) :=
  word?_eq_some_iff.mpr
    ⟨rfl, mask_ne_nil (toList_ne_nil_of_isPlainName h), isWord_cell_name h, hr⟩

theorem beforeLast?_concat (c : Char) (l : List Cell) :
    beforeLast? c (l ++ [.plain c]) = some l :=
  beforeLast?_eq_some_iff.mpr ⟨.plain c, [], rfl, rfl, fun _ hx => nomatch hx⟩

/-- A body in parentheses is found behind a blank. -/
theorem outerBody?_space (l : List Cell) :
    outerBody? (skipBlanks (.plain ' ' :: .plain '(' :: (l ++ [.plain ')']))) = some l := by
  have hopen : char? '(' (skipBlanks (.plain ' ' :: .plain '(' :: (l ++ [.plain ')']))) =
      some (l ++ [.plain ')']) := rfl
  rw [outerBody?, hopen, Option.bind_some, beforeLast?_concat]

theorem readPart_mask (cs : List Char) : Statement.readPart (mask cs) = .ok cs := by
  rw [Statement.readPart, read?_mask]
  rfl

theorem readName_mask (name : String) : Statement.readName (mask name.toList) = .ok name := by
  rw [Statement.readName, readPart_mask]
  exact congrArg Except.ok String.ofList_toList

/-! ## Statements as a whole -/

theorem getLast?_append_some {α : Type} (l : List α) {m : List α} {a : α}
    (h : m.getLast? = some a) : (l ++ m).getLast? = some a := by
  rw [List.getLast?_append, h]
  rfl

/-- A statement without blanks at its ends and without a semicolon is taken as it is. -/
theorem Statement.body_eq {text : List Char} {c d : Char} (hfirst : text.head? = some c)
    (hc : Text.isBlank c = false) (hlast : text.getLast? = some d) (hd : Text.isBlank d = false)
    (hsemicolon : d ≠ ';') : Statement.body text = text := by
  have htrimmed : Trimmed text := by
    refine ⟨fun c' hc' => ?_, fun d' hd' => ?_⟩
    · rw [hfirst] at hc'
      exact Option.some.inj hc' ▸ hc
    · rw [hlast] at hd'
      exact Option.some.inj hd' ▸ hd
  rw [Statement.body, htrimmed.trim_eq, hlast]
  exact if_neg fun h => hsemicolon (Option.some.inj h)

end Rowfile
