import Rowfile.Proofs.WrittenLists

/-!
# Cuts between words

A line is cut at a keyword that stands between blanks. Where the line is made of groups of words with
the keyword between the groups, and no word of a group is the keyword itself, the pieces are just the
groups. The keyword may still be a part of a word.
-/
namespace Rowfile

open Masked Split

structure OtherWord (keyword word : List Char) : Prop extends VisibleWord word where
  other : ¬ (starts Char.toUpper keyword (mask word) = true ∧
    (mask word).length = keyword.length)

/-- No letter of the keyword is a blank up to case. -/
def NoBlank (keyword : List Char) : Prop := ∀ c ∈ keyword, c.toUpper ≠ ' '

instance (keyword : List Char) : Decidable (NoBlank keyword) := List.decidableBAll _ _

section
variable {keyword : List Char}

theorem starts_append_gap (h : NoBlank keyword) (l : List Cell) {r : List Cell} (hr : Gap r) :
    starts Char.toUpper keyword (l ++ r) = starts Char.toUpper keyword l := by
  induction keyword generalizing l with
  | nil => cases l <;> rfl
  | cons c keyword ih =>
    cases l with
    | nil =>
      rcases hr with rfl | ⟨r', rfl⟩
      · rfl
      · simp [starts, h c List.mem_cons_self]
    | cons cell l =>
      rw [List.cons_append, starts, starts, ih fun x hx => h x (List.mem_cons_of_mem _ hx)]

theorem length_le_of_starts {letter : Char → Char} {l : List Cell}
    (h : starts letter keyword l = true) : keyword.length ≤ l.length := by
  induction keyword generalizing l with
  | nil => exact Nat.zero_le _
  | cons c keyword ih =>
    cases l with
    | nil => cases h
    | cons cell l =>
      rw [starts, Bool.and_eq_true] at h
      exact Nat.succ_le_succ (ih h.2)

/-- Before a gap it does not matter whether a blank came before. -/
theorem partsFrom_gap {c : Char} (hc : c.toUpper ≠ ' ') {r : List Cell} (hr : Gap r)
    (blankBefore : Bool) :
    partsFrom (c :: keyword) blankBefore (.stay 0) r =
      partsFrom (c :: keyword) false (.stay 0) r := by
  rcases hr with rfl | ⟨r', rfl⟩
  · rfl
  · have hstarts : starts Char.toUpper (c :: keyword) (.plain ' ' :: r') = false := by
      simp [starts, hc]
    rw [partsFrom, partsFrom, hstarts, if_neg Bool.false_ne_true, if_neg Bool.false_ne_true]

/-- A keyword that begins a longer word is not followed by a blank. -/
theorem any_isAsciiBlank_drop {n : Nat} {l : List Cell} (hn : n < l.length)
    (hblank : ∀ cell ∈ l, isAsciiBlank cell = false) (r : List Cell) :
    ((l ++ r).drop n).head?.any isAsciiBlank = false := by
  have hhead : ((l ++ r).drop n).head? = some l[n] := by
    rw [List.drop_append_of_le_length hn.le, List.drop_eq_getElem_cons hn]
    rfl
  rw [hhead, Option.any_some]
  exact hblank _ (List.getElem_mem hn)

/-- A word is passed over as a whole. The keyword may begin within the word, and then its letters are
passed over first. -/
theorem partsFrom_word {c : Char} (hkeyword : NoBlank (c :: keyword)) {l : List Cell}
    (hblank : ∀ cell ∈ l, isAsciiBlank cell = false) {r : List Cell} (hr : Gap r)
    (blankBefore : Bool) {n : Nat} (hn : n ≤ l.length)
    (hother : n = 0 → blankBefore = true →
      ¬ (starts Char.toUpper (c :: keyword) l = true ∧ l.length = (c :: keyword).length)) :
    partsFrom (c :: keyword) blankBefore (.stay n) (l ++ r) =
      (l ++ (partsFrom (c :: keyword) false (.stay 0) r).1,
        (partsFrom (c :: keyword) false (.stay 0) r).2) := by
  induction l generalizing blankBefore n with
  | nil =>
    obtain rfl : n = 0 := Nat.le_zero.mp hn
    exact partsFrom_gap (hkeyword c List.mem_cons_self) hr blankBefore
  | cons cell l ih =>
    have hcell := hblank cell List.mem_cons_self
    have hrest : ∀ {m : Nat}, m ≤ l.length →
        partsFrom (c :: keyword) false (.stay m) (l ++ r) =
          (l ++ (partsFrom (c :: keyword) false (.stay 0) r).1,
            (partsFrom (c :: keyword) false (.stay 0) r).2) := fun hm =>
      ih (fun x hx => hblank x (List.mem_cons_of_mem _ hx)) false hm
        fun _ hfalse => absurd hfalse Bool.false_ne_true
    cases n with
    | succ n =>
      rw [List.cons_append, partsFrom, hcell, hrest (Nat.le_of_succ_le_succ hn)]
      rfl
    | zero =>
      have hstarts := starts_append_gap hkeyword (cell :: l) hr
      rw [List.cons_append] at hstarts ⊢
      rw [partsFrom, hstarts]
      by_cases hbegin : starts Char.toUpper (c :: keyword) (cell :: l) = true
      · have hlength := length_le_of_starts hbegin
        -- The word goes on behind the keyword, or there is no blank before it.
        have hcut : (blankBefore && ((cell :: (l ++ r)).drop (c :: keyword).length).head?.any
            isAsciiBlank) = false := by
          cases blankBefore with
          | false => rfl
          | true =>
            have hlonger : (c :: keyword).length < (cell :: l).length :=
              Nat.lt_of_le_of_ne hlength fun he => hother rfl rfl ⟨hbegin, he.symm⟩
            exact any_isAsciiBlank_drop hlonger hblank r
        rw [if_pos hbegin, hcut, if_neg Bool.false_ne_true, hcell, List.length_cons,
          Nat.add_sub_cancel, hrest (Nat.le_of_succ_le_succ hlength)]
        rfl
      · rw [if_neg hbegin, hcell, hrest (Nat.zero_le _)]
        rfl

theorem partsFrom_otherWord {c : Char} (hkeyword : NoBlank (c :: keyword)) {word : List Char}
    (h : OtherWord (c :: keyword) word) {r : List Cell} (hr : Gap r) (blankBefore : Bool) :
    partsFrom (c :: keyword) blankBefore (.stay 0) (mask word ++ r) =
      (mask word ++ (partsFrom (c :: keyword) false (.stay 0) r).1,
        (partsFrom (c :: keyword) false (.stay 0) r).2) := by
  have hblank : ∀ cell ∈ mask word, isAsciiBlank cell = false := fun cell hcell =>
    Text.isAsciiBlank_eq_false (h.isBlank_cell hcell)
  exact partsFrom_word hkeyword hblank hr blankBefore (Nat.zero_le _) fun _ _ => h.other

/-- Words that are not the keyword are passed over with the blanks before them. -/
theorem partsFrom_spaced {c : Char} (hkeyword : NoBlank (c :: keyword))
    {words : List (List Char)} (h : ∀ word ∈ words, OtherWord (c :: keyword) word)
    {r : List Cell} (hr : Gap r) :
    partsFrom (c :: keyword) false (.stay 0) (mask (spaced words) ++ r) =
      (mask (spaced words) ++ (partsFrom (c :: keyword) false (.stay 0) r).1,
        (partsFrom (c :: keyword) false (.stay 0) r).2) := by
  induction words with
  | nil => rfl
  | cons word words ih =>
    rw [List.forall_mem_cons] at h
    have hspace : ∀ l : List Cell, partsFrom (c :: keyword) false (.stay 0) (.plain ' ' :: l) =
        (.plain ' ' :: (partsFrom (c :: keyword) true (.stay 0) l).1,
          (partsFrom (c :: keyword) true (.stay 0) l).2) := by
      intro l
      have hstarts : starts Char.toUpper (c :: keyword) (.plain ' ' :: l) = false := by
        simp [starts, hkeyword c List.mem_cons_self]
      rw [partsFrom, hstarts, if_neg Bool.false_ne_true]
      rfl
    rw [mask_spaced_cons h.1.closed, List.cons_append, List.append_assoc, hspace,
      partsFrom_otherWord hkeyword h.1 (gap_spaced words hr), ih h.2]
    simp

theorem partsFrom_line {c : Char} (hkeyword : NoBlank (c :: keyword))
    {words : List (List Char)} (h : ∀ word ∈ words, OtherWord (c :: keyword) word)
    (blankBefore : Bool) {r : List Cell} (hr : Gap r) :
    partsFrom (c :: keyword) blankBefore (.stay 0) (mask (line words) ++ r) =
      (mask (line words) ++ (partsFrom (c :: keyword) false (.stay 0) r).1,
        (partsFrom (c :: keyword) false (.stay 0) r).2) := by
  cases words with
  | nil => exact partsFrom_gap (hkeyword c List.mem_cons_self) hr blankBefore
  | cons word words =>
    rw [List.forall_mem_cons] at h
    rw [mask_line_cons h.1.closed, List.append_assoc,
      partsFrom_otherWord hkeyword h.1 (gap_spaced words hr), partsFrom_spaced hkeyword h.2 hr,
      List.append_assoc]

/-- A keyword between blanks ends a piece. -/
def CutsAt (keyword : List Char) : Prop := ∀ l : List Cell,
  partsFrom keyword false (.stay 0) (.plain ' ' :: (mask keyword ++ .plain ' ' :: l)) =
    ([.plain ' '], (.plain ' ' :: (partsFrom keyword true (.stay 0) l).1) ::
      (partsFrom keyword true (.stay 0) l).2)

structure Group (keyword : List Char) (words : List (List Char)) : Prop where
  nonempty : words ≠ []
  other : ∀ word ∈ words, OtherWord keyword word

theorem Group.trim_line {words : List (List Char)} (h : Group keyword words) :
    Text.trim (line words) = line words :=
  (trimmed_line h.nonempty fun word hword => (h.other word hword).toVisibleWord).trim_eq

/-- The words between keywords are the pieces of a line. -/
theorem partsFrom_groups {c : Char} (hkeyword : NoBlank (c :: keyword))
    (hclosed : Closed (c :: keyword)) (hcut : CutsAt (c :: keyword)) {group : List (List Char)}
    {groups : List (List (List Char))} (h : ∀ words ∈ group :: groups, Group (c :: keyword) words)
    (blankBefore : Bool) :
    ∃ text texts,
      partsFrom (c :: keyword) blankBefore (.stay 0)
          (mask (line (List.intercalate [c :: keyword] (group :: groups)))) =
        (mask text, texts.map mask) ∧
      (text :: texts).map Text.trim = (group :: groups).map line := by
  induction groups generalizing group blankBefore with
  | nil =>
    rw [List.forall_mem_singleton] at h
    have hline := partsFrom_line hkeyword h.other blankBefore gap_nil
    rw [List.append_nil] at hline
    refine ⟨line group, [], ?_, by simp [h.trim_line]⟩
    rw [List.intercalate_singleton, hline]
    simp [partsFrom]
  | cons next groups ih =>
    rw [List.forall_mem_cons] at h
    obtain ⟨text, texts, hparts, htexts⟩ := ih h.2 true
    have hrest : List.intercalate [c :: keyword] (next :: groups) ≠ [] := by
      have hnext := (h.2 next List.mem_cons_self).nonempty
      cases groups with
      | nil => rwa [List.intercalate_singleton]
      | cons last groups => simp [List.intercalate_cons_cons]
    have hgroup : Closed (line group) := closed_line fun word hword => (h.1.other word hword).closed
    have hcells : mask (line (List.intercalate [c :: keyword] (group :: next :: groups))) =
        mask (line group) ++ .plain ' ' :: (mask (c :: keyword) ++
          .plain ' ' :: mask (line (List.intercalate [c :: keyword] (next :: groups)))) := by
      rw [List.intercalate_cons_cons, List.append_assoc, line_append h.1.nonempty,
        List.singleton_append, mask_append hgroup, mask_spaced_cons hclosed, mask_spaced hrest]
    refine ⟨line group ++ [' '], (' ' :: text) :: texts, ?_, ?_⟩
    · rw [hcells, partsFrom_line hkeyword h.1.other blankBefore (gap_space _), hcut, hparts,
        mask_append hgroup]
      simp [mask_cons (c := ' ') (by decide)]
    · rw [List.map_cons] at htexts
      rw [List.map_cons, List.map_cons, Text.trim_concat_blank Text.isBlank_space, h.1.trim_line,
        Text.trim_cons_blank Text.isBlank_space, htexts]
      rfl

end

/-- A line is cut where its groups were joined. -/
theorem atKeyword?_groups (keyword : List Char) (hletter : keyword ≠ []) (hkeyword : NoBlank keyword)
    (hclosed : Closed keyword) (hcut : CutsAt keyword) {groups : List (List (List Char))}
    (hne : groups ≠ []) (h : ∀ words ∈ groups, Group keyword words) :
    atKeyword? keyword (line (List.intercalate [keyword] groups)) = some (groups.map line) := by
  obtain ⟨c, keyword, rfl⟩ := List.exists_cons_of_ne_nil hletter
  obtain ⟨group, groups, rfl⟩ := List.exists_cons_of_ne_nil hne
  obtain ⟨text, texts, hparts, htexts⟩ := partsFrom_groups hkeyword hclosed hcut h false
  have hread := readTrimmed?_mask (text :: texts)
  rw [List.map_cons, htexts] at hread
  rw [atKeyword?, hparts]
  exact hread

end Rowfile
