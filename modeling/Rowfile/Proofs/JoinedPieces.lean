import Rowfile.Proofs.Passing
import Rowfile.Proofs.Peeling
import Rowfile.Proofs.SolidWords

/-!
# Joined pieces

A cut looks at quotes and parentheses only. Where all of a piece's quotes and parentheses are closed in it,
and what the cut is made at stands within them only, the cut passes over the piece and goes on behind it as if
it began there. So pieces that are joined by commas are the pieces of the joined text, and likewise words that
are joined by blanks.
-/
namespace Rowfile

open Masked Split

/-! ## Balanced texts -/

def openings (cells : List Cell) : Nat := cells.countP fun cell => cell.shown == '('

def closings (cells : List Cell) : Nat := cells.countP fun cell => cell.shown == ')'

/-- The text closes all quotes that it opens, and outside quotes all parentheses. Nowhere has it closed more
parentheses than it has opened. -/
structure Balanced (cs : List Char) : Prop where
  closed : Closed cs
  opened : ∀ i ≤ (mask cs).length, closings ((mask cs).take i) ≤ openings ((mask cs).take i)
  even : closings (mask cs) = openings (mask cs)

/-- Outside quotes, characters of the kind stand within parentheses only. -/
def Nested (cut : Cell → Bool) (cs : List Char) : Prop :=
  ∀ i : Fin (mask cs).length, cut (mask cs)[i] = true →
    closings ((mask cs).take i) < openings ((mask cs).take i)

instance (cs : List Char) : Decidable (Balanced cs) :=
  decidable_of_iff (Closed cs ∧
      (∀ i ≤ (mask cs).length, closings ((mask cs).take i) ≤ openings ((mask cs).take i)) ∧
        closings (mask cs) = openings (mask cs))
    ⟨fun h => ⟨h.1, h.2.1, h.2.2⟩, fun h => ⟨h.closed, h.opened, h.even⟩⟩

instance (cut : Cell → Bool) (cs : List Char) : Decidable (Nested cut cs) :=
  inferInstanceAs (Decidable (∀ i : Fin (mask cs).length, cut (mask cs)[i] = true →
    closings ((mask cs).take i) < openings ((mask cs).take i)))

/-- Where no more parentheses are closed than were open, the nesting is the difference. -/
theorem nesting_add_closings {depth : Nat} {cell : Cell}
    (h : closings [cell] ≤ depth + openings [cell]) :
    nesting depth cell + closings [cell] = depth + openings [cell] := by
  simp only [closings, openings, List.countP_singleton, beq_iff_eq] at h ⊢
  unfold nesting
  by_cases hopen : cell.shown = '('
  · simp [hopen]
  · by_cases hclose : cell.shown = ')'
    · simp only [hclose, if_true] at h ⊢
      simp at h ⊢
      omega
    · simp [hopen, hclose]

theorem openings_cons (cell : Cell) (l : List Cell) :
    openings (cell :: l) = openings [cell] + openings l := by
  rw [← List.singleton_append]
  exact List.countP_append

theorem closings_cons (cell : Cell) (l : List Cell) :
    closings (cell :: l) = closings [cell] + closings l := by
  rw [← List.singleton_append]
  exact List.countP_append

/-- Cells whose parentheses are counted as nested are passed over, with the nesting that is counted. -/
theorem passed_of_counts {cut : Cell → Bool} {depth : Nat} {l : List Cell}
    (hopened : ∀ i ≤ l.length, closings (l.take i) ≤ depth + openings (l.take i))
    (hnested : ∀ i : Fin l.length, cut l[i] = true →
      closings (l.take i) < depth + openings (l.take i)) :
    Passed cut depth l ∧ l.foldl nesting depth + closings l = depth + openings l := by
  induction l generalizing depth with
  | nil => exact ⟨trivial, rfl⟩
  | cons cell l ih =>
    have hcell := nesting_add_closings (hopened 1 (by simp))
    have hrest := @ih (nesting depth cell) (fun i hi => ?_) (fun i hi => ?_)
    · refine ⟨⟨fun hcut => ?_, hrest.1⟩, ?_⟩
      · have hdepth := hnested ⟨0, by simp⟩ hcut
        exact Nat.ne_of_gt hdepth
      · have hafter := hrest.2
        rw [List.foldl_cons, openings_cons, closings_cons]
        omega
    · have hbefore := hopened (i + 1) (by simpa using hi)
      rw [List.take_succ_cons, openings_cons, closings_cons] at hbefore
      omega
    · have hbefore := hnested i.succ hi
      simp only [Fin.val_succ, List.take_succ_cons] at hbefore
      rw [openings_cons, closings_cons] at hbefore
      omega

/-- A cut passes over the cells and is not nested any deeper behind them. -/
structure PassedOver (cut : Cell → Bool) (l : List Cell) : Prop where
  passed : Passed cut 0 l
  level : l.foldl nesting 0 = 0

namespace PassedOver

variable {cut : Cell → Bool} {l r : List Cell}

theorem append (hl : PassedOver cut l) (hr : PassedOver cut r) : PassedOver cut (l ++ r) where
  passed := hl.passed.append (by rw [hl.level]; exact hr.passed)
  level := by rw [List.foldl_append, hl.level, hr.level]

theorem piecesFrom_eq {separator : Char} (h : PassedOver (fun cell => cell.shown == separator) l)
    (r : List Cell) : piecesFrom separator 0 (l ++ r) =
      (l ++ (piecesFrom separator 0 r).1, (piecesFrom separator 0 r).2) := by
  rw [piecesFrom_passed h.passed, h.level]

theorem tokensFrom_eq (h : PassedOver Cell.isBlank l) (r : List Cell) :
    tokensFrom 0 (l ++ r) = (l ++ (tokensFrom 0 r).1, (tokensFrom 0 r).2) := by
  rw [tokensFrom_passed h.passed, h.level]

end PassedOver

theorem Balanced.passedOver {cut : Cell → Bool} {cs : List Char} (h : Balanced cs)
    (hcut : Nested cut cs) : PassedOver cut (mask cs) := by
  have hcounts := @passed_of_counts cut 0 (mask cs)
    (fun i hi => by have := h.opened i hi; omega) (fun i hi => by have := hcut i hi; omega)
  have heven := h.even
  exact ⟨hcounts.1, by omega⟩

theorem balanced_of_forall {cs : List Char} (hclosed : Closed cs)
    (h : ∀ cell ∈ mask cs, isParenthesis cell = false) : Balanced cs := by
  have hparenthesis : ∀ cell ∈ mask cs, (cell.shown == '(') = false ∧ (cell.shown == ')') = false :=
    fun cell hcell => Bool.or_eq_false_iff.mp (h cell hcell)
  have hopen : openings (mask cs) = 0 :=
    List.countP_eq_zero.mpr fun cell hcell => by simp [(hparenthesis cell hcell).1]
  have hclose : ∀ i, closings ((mask cs).take i) = 0 := fun i =>
    List.countP_eq_zero.mpr fun cell hcell => by
      simp [(hparenthesis cell (List.mem_of_mem_take hcell)).2]
  refine ⟨hclosed, fun i _ => by rw [hclose]; exact Nat.zero_le _, ?_⟩
  have hall := hclose (mask cs).length
  rw [List.take_length] at hall
  rw [hall, hopen]

theorem nested_of_forall {cut : Cell → Bool} {cs : List Char}
    (h : ∀ cell ∈ mask cs, cut cell = false) : Nested cut cs := by
  intro i hcut
  have hcell : cut (mask cs)[i] = false := h _ (List.getElem_mem i.isLt)
  rw [hcell] at hcut
  cases hcut

/-! ## Blanks around pieces -/

def Blank (cs : List Char) : Prop := ∀ c ∈ cs, Text.isBlank c = true

instance (cs : List Char) : Decidable (Blank cs) := List.decidableBAll _ _

namespace Blank

variable {blanks : List Char}

theorem closed (h : Blank blanks) : Closed blanks :=
  Unquoted.closed fun c hc => isQuote_of_isBlank (h c hc)

theorem mask_eq (h : Blank blanks) : mask blanks = blanks.map .plain :=
  mask_of_unquoted fun c hc => isQuote_of_isBlank (h c hc)

/-- Blanks are no commas and no parentheses. -/
theorem passedOver (h : Blank blanks) : PassedOver (fun cell => cell.shown == ',') (mask blanks) := by
  have hother : ∀ c d : Char, Text.isBlank c = true → Text.isBlank d = false → (c == d) = false := by
    intro c d hc hd
    rw [beq_eq_false_iff_ne]
    rintro rfl
    rw [hc] at hd
    cases hd
  rw [h.mask_eq]
  constructor
  · refine passed_of_forall (List.forall_mem_map.mpr fun c hc => ?_) 0
    exact hother c ',' (h c hc) (by decide)
  · refine foldl_nesting_of_forall (List.forall_mem_map.mpr fun c hc => ?_) 0
    exact Bool.or_eq_false_iff.mpr
      ⟨hother c '(' (h c hc) (by decide), hother c ')' (h c hc) (by decide)⟩

theorem trim_append (h : Blank blanks) (cs : List Char) : Text.trim (cs ++ blanks) = Text.trim cs := by
  induction blanks generalizing cs with
  | nil => rw [List.append_nil]
  | cons c blanks ih =>
    obtain ⟨hc, hblanks⟩ := List.forall_mem_cons.mp h
    rw [List.append_cons, ih hblanks, Text.trim_concat_blank hc]

theorem append_trim (h : Blank blanks) (cs : List Char) : Text.trim (blanks ++ cs) = Text.trim cs := by
  induction blanks with
  | nil => rfl
  | cons c blanks ih =>
    obtain ⟨hc, hblanks⟩ := List.forall_mem_cons.mp h
    rw [List.cons_append, Text.trim_cons_blank hc, ih hblanks]

end Blank

/-! ## Joined texts -/

/-- The text is the pieces in order, with something of a kind between any two of them. -/
inductive Joined (Between : List Char → Prop) : List (List Char) → List Char → Prop
  | nil : Joined Between [] []
  | last (piece : List Char) : Joined Between [piece] piece
  | next (piece : List Char) {between text : List Char} {pieces : List (List Char)} :
      Between between → pieces ≠ [] → Joined Between pieces text →
        Joined Between (piece :: pieces) (piece ++ (between ++ text))

def BlankComma (between : List Char) : Prop :=
  ∃ before after, between = before ++ ',' :: after ∧ Blank before ∧ Blank after

def Blanks (between : List Char) : Prop := between ≠ [] ∧ Blank between

/-- A piece between commas: not blank, and with no blanks around it. -/
structure Piece (cs : List Char) : Prop where
  trimmed : Text.trim cs = cs
  visible : ¬Blank cs
  balanced : Balanced cs
  commas : Nested (fun cell => cell.shown == ',') cs

structure Token (cs : List Char) : Prop where
  nonempty : cs ≠ []
  balanced : Balanced cs
  blanks : Nested Cell.isBlank cs

namespace Split

theorem readTrimmed?_cons (cs : List Char) (parts : List (List Cell)) :
    readTrimmed? (mask cs :: parts) = (readTrimmed? parts).map (Text.trim cs :: ·) := by
  rw [readTrimmed?, List.mapM_cons, read?_mask]
  cases h : parts.mapM fun part => (read? part).map Text.trim with
  | none => simp [readTrimmed?, h]
  | some texts => simp [readTrimmed?, h]

/-- The pieces of a joined text are those it was joined from and the blanks beside the commas. -/
theorem readTrimmed?_joined {pieces : List (List Char)} {text : List Char}
    (h : Joined BlankComma pieces text) (hne : pieces ≠ []) (hpieces : ∀ piece ∈ pieces, Piece piece)
    (lead : List Char) (hlead : Blank lead) :
    readTrimmed? ((piecesFrom ',' 0 (mask (lead ++ text))).1 ::
      (piecesFrom ',' 0 (mask (lead ++ text))).2) = some pieces := by
  induction h generalizing lead with
  | nil => exact absurd rfl hne
  | last piece =>
    have hpiece := hpieces piece List.mem_cons_self
    have hover := hlead.passedOver.append (hpiece.balanced.passedOver hpiece.commas)
    rw [← mask_append hlead.closed] at hover
    have hcut := hover.piecesFrom_eq []
    rw [List.append_nil] at hcut
    have hends : piecesFrom ',' 0 [] = ([], []) := rfl
    rw [hcut, hends, List.append_nil, readTrimmed?_cons, hlead.append_trim, hpiece.trimmed]
    rfl
  | @next piece between text pieces hbetween hrest _ ih =>
    obtain ⟨before, after, rfl, hbefore, hafter⟩ := hbetween
    obtain ⟨hpiece, hpieces⟩ := List.forall_mem_cons.mp hpieces
    have hclosed : Closed (lead ++ (piece ++ before)) :=
      hlead.closed.append (hpiece.balanced.closed.append hbefore.closed)
    have hover := hlead.passedOver.append
      ((hpiece.balanced.passedOver hpiece.commas).append hbefore.passedOver)
    rw [← mask_append hpiece.balanced.closed, ← mask_append hlead.closed] at hover
    have htext : lead ++ (piece ++ (before ++ ',' :: after ++ text)) =
        lead ++ (piece ++ before) ++ ',' :: (after ++ text) := by simp
    have hcomma : ∀ r, piecesFrom ',' 0 (.plain ',' :: r) =
        ([], (piecesFrom ',' 0 r).1 :: (piecesFrom ',' 0 r).2) := fun _ => rfl
    rw [htext, mask_append hclosed, mask_cons (by decide), hover.piecesFrom_eq, hcomma,
      List.append_nil, readTrimmed?_cons, ih hrest hpieces after hafter, hlead.append_trim,
      hbefore.trim_append, hpiece.trimmed]
    rfl

theorem atSeparator?_joined {pieces : List (List Char)} {text : List Char}
    (h : Joined BlankComma pieces text) (hpieces : ∀ piece ∈ pieces, Piece piece) :
    atSeparator? ',' text = some pieces := by
  cases hlist : pieces with
  | nil =>
    subst hlist
    cases h
    rfl
  | cons piece rest =>
    have hne : pieces ≠ [] := by simp [hlist]
    have hread := readTrimmed?_joined h hne hpieces [] fun _ hc => nomatch hc
    have hvisible : pieces ≠ [[]] := by
      rintro rfl
      exact (hpieces [] List.mem_cons_self).visible fun _ hc => nomatch hc
    rw [List.nil_append] at hread
    simp only [atSeparator?, hread, Option.map_some, if_neg hvisible]
    rw [← hlist]

/-- The blanks before a word are passed over. -/
theorem tokensFrom_blanks {blanks : List Char} (h : Blanks blanks) (r : List Cell) :
    tokensFrom 0 (mask blanks ++ r) = ([], consToken (tokensFrom 0 r).1 (tokensFrom 0 r).2) := by
  obtain ⟨hne, hblank⟩ := h
  rw [hblank.mask_eq]
  induction blanks with
  | nil => exact absurd rfl hne
  | cons c blanks ih =>
    obtain ⟨hc, hblanks⟩ := List.forall_mem_cons.mp hblank
    have hcell : ∀ r, tokensFrom 0 (.plain c :: r) =
        ([], consToken (tokensFrom 0 r).1 (tokensFrom 0 r).2) := by
      intro r
      simp [tokensFrom, Cell.isBlank, hc]
    rw [List.map_cons, List.cons_append, hcell]
    cases blanks with
    | nil => rfl
    | cons c' blanks =>
      rw [ih (List.cons_ne_nil _ _) hblanks]
      rfl

theorem tokensFrom_joined {tokens : List (List Char)} {text : List Char}
    (h : Joined Blanks tokens text) (htokens : ∀ token ∈ tokens, Token token) :
    consToken (tokensFrom 0 (mask text)).1 (tokensFrom 0 (mask text)).2 = tokens.map mask := by
  have hcons : ∀ {token : List Char} {rest : List (List Cell)}, token ≠ [] →
      consToken (mask token) rest = mask token :: rest := by
    intro token rest hne
    rw [consToken, List.isEmpty_eq_false_iff.mpr (mask_ne_nil hne), if_neg Bool.false_ne_true]
  induction h with
  | nil => rfl
  | last token =>
    have htoken := htokens token List.mem_cons_self
    have hcut := (htoken.balanced.passedOver htoken.blanks).tokensFrom_eq []
    have hends : tokensFrom 0 [] = ([], []) := rfl
    rw [List.append_nil] at hcut
    rw [hcut, hends, List.append_nil, hcons htoken.nonempty]
    rfl
  | @next token between text tokens hbetween _ _ ih =>
    obtain ⟨htoken, htokens⟩ := List.forall_mem_cons.mp htokens
    rw [mask_append htoken.balanced.closed, mask_append hbetween.2.closed,
      (htoken.balanced.passedOver htoken.blanks).tokensFrom_eq, tokensFrom_blanks hbetween,
      List.append_nil, ih htokens, hcons htoken.nonempty]
    rfl

theorem mapM_read?_mask (texts : List (List Char)) :
    (texts.map mask).mapM read? = some texts :=
  mapM_eq_some_iff.mpr (List.forall₂_map_left_iff.mpr (List.forall₂_same.mpr fun text _ =>
    read?_mask text))

theorem atBlanks?_joined {tokens : List (List Char)} {text : List Char}
    (h : Joined Blanks tokens text) (htokens : ∀ token ∈ tokens, Token token) :
    atBlanks? text = some tokens := by
  have hcut := tokensFrom_joined h htokens
  simp only [atBlanks?]
  rw [hcut, mapM_read?_mask]

end Split

/-- A text that was joined from pieces by commas is cut into these pieces at its commas, and one that was
joined from words by blanks into these words at its blanks. -/
theorem cuts_undo_joining :
    (∀ pieces text, Joined BlankComma pieces text → (∀ piece ∈ pieces, Piece piece) →
      atSeparator? ',' text = some pieces) ∧
    ∀ tokens text, Joined Blanks tokens text → (∀ token ∈ tokens, Token token) →
      atBlanks? text = some tokens :=
  ⟨fun _ _ => atSeparator?_joined, fun _ _ => atBlanks?_joined⟩

/-- Quotes and parentheses hold commas, blanks, parentheses and the other quote. -/
theorem cuts_undo_joining_held :
    atSeparator? ',' ("'a, (b'".toList ++ (" ,\t".toList ++ ("f(x, (g, ')'))".toList ++
      (",".toList ++ "\"it's\" 'é'".toList)))) =
        some ["'a, (b'".toList, "f(x, (g, ')'))".toList, "\"it's\" 'é'".toList] ∧
    atBlanks? ("price".toList ++ ("  ".toList ++ ("DECIMAL(10, (2))".toList ++
      ("\n".toList ++ "'n, (é'".toList)))) =
        some ["price".toList, "DECIMAL(10, (2))".toList, "'n, (é'".toList] := by
  have hpieces : ∀ piece ∈ ["'a, (b'".toList, "f(x, (g, ')'))".toList, "\"it's\" 'é'".toList],
      Piece piece := by
    intro piece hpiece
    simp only [List.mem_cons, List.not_mem_nil, or_false] at hpiece
    rcases hpiece with rfl | rfl | rfl
    · exact ⟨by decide +kernel, by decide +kernel, by decide +kernel, by decide +kernel⟩
    · exact ⟨by decide +kernel, by decide +kernel, by decide +kernel, by decide +kernel⟩
    · exact ⟨by decide +kernel, by decide +kernel, by decide +kernel, by decide +kernel⟩
  have htokens : ∀ token ∈ ["price".toList, "DECIMAL(10, (2))".toList, "'n, (é'".toList],
      Token token := by
    intro token htoken
    simp only [List.mem_cons, List.not_mem_nil, or_false] at htoken
    rcases htoken with rfl | rfl | rfl
    · exact ⟨by decide +kernel, by decide +kernel, by decide +kernel⟩
    · exact ⟨by decide +kernel, by decide +kernel, by decide +kernel⟩
    · exact ⟨by decide +kernel, by decide +kernel, by decide +kernel⟩
  have hcommas : BlankComma " ,\t".toList ∧ BlankComma ",".toList :=
    ⟨⟨[' '], ['\t'], by decide, by decide, by decide⟩, [], [], by decide, by decide, by decide⟩
  have hblanks : Blanks "  ".toList ∧ Blanks "\n".toList :=
    ⟨⟨by decide, by decide⟩, by decide, by decide⟩
  exact ⟨cuts_undo_joining.1 _ _ (.next _ hcommas.1 (List.cons_ne_nil _ _)
      (.next _ hcommas.2 (List.cons_ne_nil _ _) (.last _))) hpieces,
    cuts_undo_joining.2 _ _ (.next _ hblanks.1 (List.cons_ne_nil _ _)
      (.next _ hblanks.2 (List.cons_ne_nil _ _) (.last _))) htokens⟩

end Rowfile
