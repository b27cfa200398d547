import Rowfile.Proofs.CutLengths
import Rowfile.Proofs.WrittenTables

/-!
# Printed columns

A column is printed by its name, its type and its constraints. Its default is printed by the text that
shows it, without quotes, so a column is read back from its print just when that text is one word of a
declaration and is read as the default. The numbers and truth values that a declaration can set are
such words; of the texts only those are that need no quotes. Nothing else is read back by chance: each
cut on the way to the default keeps a part of the text, and a default of full length is the whole of
it.
-/
namespace Rowfile

open Masked Pattern Split

/-! ## Lines with a last part of any kind -/

theorem line_concat {words : List (List Char)} (hne : words ≠ []) (last : List Char) :
    line (words ++ [last]) = line words ++ ([' '] ++ last) := by
  rw [line_append hne, spaced_cons]
  simp [spaced]

section
variable {words : List (List Char)} (h : ∀ word ∈ words, SolidWord word)
include h

theorem atBlanks?_line_concat (last : List Char) :
    atBlanks? (line (words ++ [last])) = (atBlanks? last).map (words ++ ·) := by
  induction words with
  | nil => simp [line, spaced]
  | cons word words ih =>
    rw [List.forall_mem_cons] at h
    have hblank : ∀ r : List Cell, tokensFrom 0 (.plain ' ' :: r) =
        ([], consToken (tokensFrom 0 r).1 (tokensFrom 0 r).2) := fun _ => rfl
    have hrest : atBlanks? (line (word :: (words ++ [last]))) =
        (atBlanks? (line (words ++ [last]))).map (word :: ·) := by
      rw [atBlanks?, atBlanks?, mask_line_cons h.1.closed, mask_spaced (by simp),
        tokensFrom_word h.1, hblank]
      simp only [List.append_nil]
      rw [consToken, List.isEmpty_eq_false_iff.mpr (mask_ne_nil h.1.nonempty),
        if_neg Bool.false_ne_true, List.mapM_cons, read?_mask]
      cases (consToken _ _).mapM read? <;> rfl
    rw [List.cons_append, hrest, ih h.2, Option.map_map]
    rfl

/-- The words in front and the blank behind them show no comma and no parenthesis. -/
theorem shown_line_blank : Shown isListed (line words ++ [' ']) :=
  (Shown.line (by decide) fun word hword => (h word hword).listItem.toShown).append
    (shown_of_all (by decide))

variable (hne : words ≠ [])
include hne

theorem mask_line_concat (last : List Char) :
    mask (line (words ++ [last])) = mask (line words ++ [' ']) ++ mask last := by
  rw [line_concat hne, ← List.append_assoc, mask_append (shown_line_blank h).closed]

/-- The body of a line in parentheses keeps the words in front and some text with closed quotes behind
them. -/
theorem beforeLast?_line_concat {last : List Char} {body : List Cell}
    (hbody : beforeLast? ')' (mask (line (words ++ [last]) ++ [')'])) = some body) :
    ∃ kept, body = mask (line (words ++ [kept])) ∧ Closed kept ∧ kept.length ≤ last.length ∧
      (kept.length = last.length → kept = last) := by
  have hshown := shown_line_blank h
  have hpass : ∀ cell ∈ mask (line words ++ [' ']), cell.shown ≠ ')' := by
    intro cell hcell
    have hlisted := hshown.shown cell hcell
    simp only [isListed, Bool.and_eq_true, bne_iff_ne] at hlisted
    exact hlisted.2
  rw [line_concat hne, ← List.append_assoc, List.append_assoc _ last, mask_append hshown.closed,
    beforeLast?_append hpass] at hbody
  obtain ⟨_, hlast, rfl⟩ := Option.map_eq_some_iff.mp hbody
  obtain ⟨kept, rfl, hkept⟩ := beforeLast?_mask_concat (by decide) hlast
  exact ⟨kept, (mask_line_concat h hne kept).symm, hkept⟩

/-- Trimming leaves the words in front, and behind them no more than the beginning of the last part. -/
theorem trim_line_concat (last : List Char) :
    ∃ kept, kept <+: last ∧ Text.trim (line (words ++ [last])) ≠ [] ∧
      atBlanks? (Text.trim (line (words ++ [last]))) = (atBlanks? kept).map (words ++ ·) := by
  have hline : Trimmed (line words) := trimmed_line hne fun word hword => (h word hword).visible
  have hlinene : line words ≠ [] := line_ne_nil hne fun word hword => (h word hword).visible
  rw [line_concat hne]
  induction last using List.reverseRecOn with
  | nil =>
    refine ⟨[], List.prefix_refl _, ?_, ?_⟩
    · rwa [List.append_nil, Text.trim_concat_blank Text.isBlank_space, hline.trim_eq]
    · rw [List.append_nil, Text.trim_concat_blank Text.isBlank_space, hline.trim_eq,
        atBlanks?_line h]
      simp [atBlanks?, tokensFrom, consToken]
  | append_singleton last c ih =>
    cases hc : Text.isBlank c with
    | true =>
      obtain ⟨kept, hprefix, hread⟩ := ih
      refine ⟨kept, hprefix.trans (List.prefix_append _ _), ?_⟩
      rwa [← List.append_assoc, ← List.append_assoc, Text.trim_concat_blank hc, List.append_assoc]
    | false =>
      have hlast : Trimmed [c] := ⟨by simp [hc], by simp [hc]⟩
      have htrimmed := hline.around hlinene ([' '] ++ last) hlast (List.cons_ne_nil _ _)
      rw [List.append_assoc] at htrimmed
      refine ⟨last ++ [c], List.prefix_refl _, ?_, ?_⟩
      · rw [htrimmed.trim_eq]
        exact List.append_ne_nil_of_left_ne_nil hlinene _
      · rw [htrimmed.trim_eq, ← line_concat hne, atBlanks?_line_concat h]

/-- A line is cut at the commas of its last part. -/
theorem atSeparator?_line_concat {last first : List Char}
    (hfirst : (piecesFrom ',' 0 (mask last)).1 = mask first) :
    atSeparator? ',' (line (words ++ [last])) =
      (readTrimmed? (piecesFrom ',' 0 (mask last)).2).map
        (Text.trim (line (words ++ [first])) :: ·) := by
  obtain ⟨_, _, hnonempty, _⟩ := trim_line_concat h hne first
  rw [atSeparator?, mask_line_concat h hne, piecesFrom_item (shown_line_blank h), hfirst,
    ← mask_line_concat h hne]
  simp only [readTrimmed?, List.mapM_cons, read?_mask, Option.map_some, Option.bind_eq_bind,
    Option.bind_some]
  cases (piecesFrom ',' 0 (mask last)).2.mapM fun piece => (read? piece).map Text.trim with
  | none => rfl
  | some pieces => simp [hnonempty]

end

/-- A text is a single piece of itself when no separator cuts it and no blanks stand around it. -/
theorem Split.atSeparator?_eq_singleton_iff {separator : Char} (hseparator : separator ≠ '_')
    {text : List Char} : atSeparator? separator text = some [text] ↔
      (piecesFrom separator 0 (mask text)).2 = [] ∧ Trimmed text ∧ text ≠ [] := by
  obtain ⟨first, hfirst, -, -, hwhole⟩ := piecesFrom_mask hseparator text
  rw [atSeparator?]
  generalize piecesFrom separator 0 (mask text) = cut at hfirst hwhole
  obtain ⟨piece, pieces⟩ := cut
  obtain rfl : piece = mask first := hfirst
  have hcons : readTrimmed? (mask first :: pieces) =
      (readTrimmed? pieces).map (Text.trim first :: ·) := by
    rw [readTrimmed?, List.mapM_cons, read?_mask, ← readTrimmed?]
    cases readTrimmed? pieces <;> rfl
  dsimp only at hwhole ⊢
  rw [hcons, Option.map_map]
  constructor
  · intro h
    obtain ⟨rest, hrest, heq⟩ := Option.map_eq_some_iff.mp h
    rw [Function.comp_apply] at heq
    split at heq
    · cases heq
    · next hne =>
      obtain ⟨htrim, rfl⟩ := List.cons.inj heq
      have hnone : pieces = [] := by
        cases pieces with
        | nil => rfl
        | cons piece pieces =>
          simp [readTrimmed?, List.mapM_cons, Option.bind_eq_some_iff] at hrest
      obtain rfl := hwhole hnone
      refine ⟨hnone, trimmed_of_trim_eq htrim, ?_⟩
      rintro rfl
      exact hne rfl
  · rintro ⟨rfl, htrimmed, hne⟩
    obtain rfl := hwhole rfl
    simp [readTrimmed?, htrimmed.trim_eq, hne]

/-! ## What is printed of a column -/

namespace Column

/-- The constraints of a column other than its default. -/
def imposed (column : Column) : List Constraint :=
  [.primaryKey, .notNull, .unique].filter column.has

/-- A column as it is printed: its name, its type and its constraints with a blank between them. -/
def printed (column : Column) : List Char :=
  line (column.name.toList :: column.type.name.toList :: column.constraints.map String.toList)

/-- The words of a declaration before the literal of its default. -/
def lead (column : Column) : List (List Char) :=
  column.name.toList :: column.type.name.toList ::
    (column.imposed.flatMap Constraint.words ++ ["DEFAULT".toList])

variable {column : Column}

theorem mem_imposed (column : Column) (constraint : Constraint) :
    constraint ∈ column.imposed ↔ column.has constraint = true := by
  rw [imposed, List.mem_filter]
  cases constraint <;> simp

/-- A column without a default is printed as one of its declarations. -/
theorem printed_of_none (h : column.default? = none) :
    column.printed = line (column.name.toList :: column.type.name.toList ::
      (column.imposed.flatMap Constraint.words ++ [])) := by
  obtain ⟨name, type, primaryKey, notNull, unique, default?⟩ := column
  obtain rfl : default? = none := h
  cases primaryKey <;> cases notNull <;> cases unique <;>
    simp [printed, imposed, constraints, has, Constraint.words, line, spaced, List.filter_cons]

theorem lead_append (column : Column) (rest : List (List Char)) :
    column.lead ++ rest = column.name.toList :: column.type.name.toList ::
      (column.imposed.flatMap Constraint.words ++ ("DEFAULT".toList :: rest)) := by
  simp [lead]

/-- A default is printed behind the constraints, by what shows it. -/
theorem printed_of_some {value : Value} (h : column.default? = some value) :
    column.printed = line (column.lead ++ [value.shownChars]) := by
  rw [lead_append]
  obtain ⟨name, type, primaryKey, notNull, unique, default?⟩ := column
  obtain rfl : default? = some value := h
  cases primaryKey <;> cases notNull <;> cases unique <;>
    simp [printed, imposed, constraints, has, Constraint.words, line, spaced, List.filter_cons,
      Value.shown]

theorem lead_ne_nil (column : Column) : column.lead ≠ [] := List.cons_ne_nil _ _

theorem solidWord_lead (column : Column) (hname : isPlainName column.name = true) :
    ∀ word ∈ column.lead, SolidWord word := by
  have hdefault : SolidWord "DEFAULT".toList := ⟨shown_of_all (by decide), by decide⟩
  have hwords := @ColumnText.solidWord_declaration { column with default? := none } column.imposed []
    hname .none
  rw [List.append_nil] at hwords
  exact List.forall_mem_append.mpr ⟨hwords, List.forall_mem_singleton.mpr hdefault⟩

/-- A column is printed as one of its declarations, if what shows its default is a literal of it. -/
theorem written_printed (hname : isPlainName column.name = true)
    (hwritten : ∀ value, column.default? = some value → value.Written value.shownChars)
    (hfits : ∀ value, column.default? = some value → value.fits column.type = true) :
    column.Written column.printed := by
  cases hdefault : column.default? with
  | none =>
    rw [printed_of_none hdefault]
    exact .declaration hname column.mem_imposed (hdefault ▸ .none) hfits
  | some value =>
    rw [printed_of_some hdefault, lead_append]
    exact .declaration hname column.mem_imposed (hdefault ▸ .some (hwritten value hdefault)) hfits

end Column

/-- A declaration that begins with the words of a column is read as this column with the default that
the words behind them leave. -/
theorem ColumnText.read_lead_iff {column found : Column} {text last : List Char}
    (h : atBlanks? text = (atBlanks? last).map (column.lead ++ ·)) :
    ColumnText.read text = .ok found ↔ ∃ words, atBlanks? last = some words ∧
      readWords { column with default? := none } ("DEFAULT".toList :: words) = found ∧
      ∀ value, found.default? = some value → value.fits found.type = true := by
  have htyped := fun words => readWords_typed column.mem_imposed ("DEFAULT".toList :: words)
  rw [read_eq_ok_iff, h]
  constructor
  · rintro ⟨name, rest, hcut, hread⟩
    obtain ⟨words, hwords, hcons⟩ := Option.map_eq_some_iff.mp hcut
    rw [column.lead_append] at hcons
    obtain ⟨rfl, rfl⟩ := List.cons.inj hcons
    rw [String.ofList_toList, htyped] at hread
    exact ⟨words, hwords, hread⟩
  · rintro ⟨words, hwords, hread⟩
    rw [← htyped] at hread
    refine ⟨column.name.toList, _, ?_, by rwa [String.ofList_toList]⟩
    rw [hwords, Option.map_some, column.lead_append]

/-- A default that is read behind DEFAULT is written by a word behind it. -/
theorem ColumnText.exists_word_of_default {column : Column} {words : List (List Char)}
    {value : Value} (hnone : column.default? = none)
    (h : (readWords column ("DEFAULT".toList :: words)).default? = some value) :
    ∃ word ∈ words, Value.ofLiteral word = value := by
  cases words with
  | nil =>
    have hsame : readWords column ["DEFAULT".toList] = column := rfl
    rw [hsame, hnone] at h
    cases h
  | cons first words =>
    rw [readWords_default_cons] at h
    rcases default?_readWords h with hfirst | ⟨word, hword, hliteral⟩
    · exact ⟨first, List.mem_cons_self, Option.some.inj hfirst⟩
    · exact ⟨word, List.mem_cons_of_mem _ hword, hliteral⟩

/-! ## Values that their print writes -/

/-- The text that shows the value is read as the value where it stands as a default: its quotes are
closed, it is cut neither at commas nor at blanks, and it is a literal of the value. -/
structure Value.ReadsBack (v : Value) : Prop where
  closed : Closed v.shownChars
  onePiece : atSeparator? ',' v.shownChars = some [v.shownChars]
  oneWord : atBlanks? v.shownChars = some [v.shownChars]
  literal : Value.ofLiteral v.shownChars = v

instance (v : Value) : Decidable v.ReadsBack :=
  decidable_of_iff (Closed v.shownChars ∧ atSeparator? ',' v.shownChars = some [v.shownChars] ∧
      atBlanks? v.shownChars = some [v.shownChars] ∧ Value.ofLiteral v.shownChars = v)
    ⟨fun ⟨hclosed, hpiece, hword, hliteral⟩ => ⟨hclosed, hpiece, hword, hliteral⟩,
      fun h => ⟨h.closed, h.onePiece, h.oneWord, h.literal⟩⟩

namespace Statement

variable {table : String} {column : Column}

/-- A declaration that is one piece makes up a table of one column. -/
theorem read_createTableText_singleton {text : List Char} (htable : isPlainName table = true)
    (hclosed : Closed text) (hpiece : atSeparator? ',' text = some [text])
    (hread : ColumnText.read text = .ok column) :
    Statement.read (createTableText table [text]) =
      .ok (.createTable table (.ofColumns [column])) := by
  obtain ⟨-, -, hne⟩ := (atSeparator?_eq_singleton_iff (by decide)).mp hpiece
  have hempty : text.isEmpty = false := by simpa using hne
  rw [← commaJoin_singleton text] at hclosed
  have hparts := createTableParts?_of_closed htable hclosed
  rw [commaJoin_singleton] at hparts
  have hcolumns : readColumns table .empty [text] = .ok (.ofColumns [column]) := by
    have hnew : column.name ∉ Schema.empty.names := List.not_mem_nil
    rw [readColumns, hempty, if_neg Bool.false_ne_true, hread, ok_bind, Schema.ofColumns,
      List.foldl_cons, Schema.add?_of_not_mem hnew]
    rfl
  rw [read_createTableText_eq, readCreateTable, hparts]
  simp only [orFault, ok_bind, readName_mask, readPart_mask, hpiece, Clause.orTorn, hcolumns]
  rfl

/-- A printed column with a default that its print writes is read back. -/
theorem read_printed_of_readsBack {value : Value} (htable : isPlainName table = true)
    (hname : isPlainName column.name = true) (hvalue : column.default? = some value)
    (hfits : value.fits column.type = true) (hback : value.ReadsBack) :
    Statement.read (createTableText table [column.printed]) =
      .ok (.createTable table (.ofColumns [column])) := by
  obtain ⟨hcut, htrimmed, hne⟩ := (atSeparator?_eq_singleton_iff (by decide)).mp hback.onePiece
  have hwords := column.solidWord_lead hname
  have hlead := column.lead_ne_nil
  have hline : Trimmed (line column.lead) :=
    trimmed_line hlead fun word hword => (hwords word hword).visible
  have hlinene : line column.lead ≠ [] :=
    line_ne_nil hlead fun word hword => (hwords word hword).visible
  rw [column.printed_of_some hvalue]
  refine read_createTableText_singleton htable ?_ ?_ ?_
  · refine closed_line (List.forall_mem_append.mpr ⟨fun word hword => (hwords word hword).closed, ?_⟩)
    exact List.forall_mem_singleton.mpr hback.closed
  · refine (atSeparator?_eq_singleton_iff (by decide)).mpr ⟨?_, ?_, ?_⟩
    · rw [mask_line_concat hwords hlead, piecesFrom_item (shown_line_blank hwords)]
      exact hcut
    · rw [line_concat hlead]
      exact hline.around hlinene [' '] htrimmed hne
    · rw [line_concat hlead]
      exact List.append_ne_nil_of_left_ne_nil hlinene _
  · refine (ColumnText.read_lead_iff (atBlanks?_line_concat hwords _)).mpr
      ⟨_, hback.oneWord, ?_, fun found hfound => ?_⟩
    · rw [ColumnText.readWords_default_cons, hback.literal, ← hvalue]
      rfl
    · obtain rfl := Option.some.inj (hvalue.symm.trans hfound)
      exact hfits

/-- A table of one column is read from a body that begins with the declaration of that column. -/
theorem exists_body_of_read {text : List Char} {schema : Schema} (htable : isPlainName table = true)
    (h : Statement.read (createTableText table [text]) = .ok (.createTable table schema))
    (hlist : schema.list = [column]) :
    ∃ body cs declarations, beforeLast? ')' (mask (text ++ [')'])) = some body ∧
      read? body = some cs ∧ atSeparator? ',' cs = some declarations ∧
      ∀ first rest, declarations = first :: rest → first ≠ [] →
        ColumnText.read first = .ok column := by
  rw [read_createTableText_eq, orMalformed_eq_ok] at h
  obtain ⟨_, _, _, cs, declarations, _, hparts, -, hcs, hcut, hschema, heq⟩ :=
    readCreateTable_eq_ok h
  obtain ⟨-, rfl⟩ := Statement.createTable.inj heq
  rw [createTableParts?_createTableText htable, commaJoin_singleton] at hparts
  obtain ⟨body, hbody, hsame⟩ := Option.map_eq_some_iff.mp hparts
  obtain ⟨-, rfl⟩ := Prod.mk.inj hsame
  refine ⟨body, cs, declarations, hbody, hcs, hcut, ?_⟩
  rintro first rest rfl hfirst
  obtain ⟨columns, hcolumn, hcolumns⟩ := readColumns_eq_ok hschema
  rw [List.filter_cons_of_pos (by simpa using hfirst)] at hcolumns
  cases hcolumns with
  | cons hread _ =>
    obtain ⟨rfl, -⟩ := List.cons.inj (hlist.symm.trans hcolumn)
    exact hread

/-- A printed column with a text as its default is read back only when its print writes the text. -/
theorem readsBack_of_read_printed {s : String} {schema : Schema} (htable : isPlainName table = true)
    (hname : isPlainName column.name = true) (hdefault : column.default? = some (.text s))
    (h : Statement.read (createTableText table [column.printed]) = .ok (.createTable table schema))
    (hlist : schema.list = [column]) : (Value.text s).ReadsBack := by
  have hwords := column.solidWord_lead hname
  have hlead := column.lead_ne_nil
  rw [column.printed_of_some hdefault] at h
  obtain ⟨body, cs, declarations, hbody, hcs, hcut, hread⟩ := exists_body_of_read htable h hlist
  obtain ⟨inner, rfl, hclosed, hinner, hinnereq⟩ := beforeLast?_line_concat hwords hlead hbody
  rw [read?_mask] at hcs
  obtain rfl := Option.some.inj hcs
  obtain ⟨piece, hpiece, hpiecele, hpieceeq, -⟩ := piecesFrom_mask (by decide : ',' ≠ '_') inner
  rw [atSeparator?_line_concat hwords hlead hpiece] at hcut
  obtain ⟨others, -, hpieces⟩ := Option.map_eq_some_iff.mp hcut
  obtain ⟨kept, hkept, hne, htokens⟩ := trim_line_concat hwords hlead piece
  obtain ⟨words, hcutwords, hleft, -⟩ :=
    (ColumnText.read_lead_iff htokens).mp (hread _ _ hpieces.symm hne)
  rw [← hleft] at hdefault
  obtain ⟨word, hword, hliteral⟩ := ColumnText.exists_word_of_default rfl hdefault
  -- the text is no longer than this word, and nothing on the way to it is longer than the text
  obtain ⟨hsle, hseq⟩ := Value.length_of_ofLiteral hliteral
  obtain ⟨hwordle, hwordeq⟩ := atBlanks?_eq_singleton hcutwords hword
  have hkeptle := hkept.length_le
  have hshown : (Value.text s).shownChars = s.toList := rfl
  rw [hshown] at hinner hinnereq
  obtain ⟨hsword, htrim⟩ := hseq (by omega)
  obtain ⟨rfl, rfl⟩ := hwordeq (by omega)
  obtain rfl := hkept.eq_of_length (by omega)
  obtain ⟨rfl, hnone⟩ := hpieceeq (by omega)
  constructor
  all_goals rw [hshown, hsword]
  · exact hclosed
  · refine (atSeparator?_eq_singleton_iff (by decide)).mpr ⟨hnone, trimmed_of_trim_eq htrim, ?_⟩
    exact ne_nil_of_mem_atBlanks? hcutwords _ hword
  · exact hcutwords
  · exact hliteral

/-- A column that a CREATE TABLE declares is read back from its print, whatever its type, its
constraints and its default are, unless its default is a text that its print does not write. -/
theorem printed_column_read_back_iff {text : List Char} {source : String} {schema : Schema}
    (hread : Statement.read text = .ok (.createTable source schema)) (hcolumn : column ∈ schema.list)
    (hname : isPlainName column.name = true) (htable : isPlainName table = true) :
    (∃ schema', Statement.read (createTableText table [column.printed]) =
        .ok (.createTable table schema') ∧ schema'.list = [column]) ↔
      ∀ s, column.default? = some (.text s) → (Value.text s).ReadsBack := by
  obtain ⟨_, _, _, _, declarations, _, _, _, _, _, hschema, heq⟩ :=
    readCreateTable_eq_ok (reader_of_read hread)
  obtain ⟨-, rfl⟩ := Statement.createTable.inj heq
  obtain hnone | ⟨declaration, hdeclaration⟩ := exists_read_of_mem_list hschema hcolumn
  · cases hnone
  have hdistinct : ([column].map Column.name).Nodup := List.nodup_singleton _
  constructor
  · rintro ⟨schema', hback, hlist⟩ s hdefault
    exact readsBack_of_read_printed htable hname hdefault hback hlist
  · intro htexts
    refine ⟨.ofColumns [column], ?_, Schema.list_ofColumns hdistinct⟩
    have hfits : ∀ value, column.default? = some value → value.fits column.type = true :=
      fun _ => ColumnText.fits_of_read hdeclaration
    by_cases hliterals : ∀ value, column.default? = some value → value.Written value.shownChars
    · have hwritten := column.written_printed hname hliterals hfits
      exact (read_createTableText htable hdistinct (.cons hwritten .nil)).1
    · push Not at hliterals
      obtain ⟨value, hdefault, hliteral⟩ := hliterals
      obtain ⟨word, rfl⟩ := ColumnText.exists_ofLiteral_of_read hdeclaration hdefault
      obtain ⟨s, htext⟩ := (Value.written_ofLiteral word).resolve_right hliteral
      rw [htext] at hdefault
      exact read_printed_of_readsBack htable hname hdefault (hfits _ hdefault) (htexts s hdefault)

def unitColumn : Column := ⟨"unit", .text, false, true, false, some (.text "mm")⟩

theorem printed_column_read_back_iff_unit :
    Statement.read "CREATE TABLE t (unit TEXT NOT NULL DEFAULT 'mm')".toList =
        .ok (.createTable "t" (.ofColumns [unitColumn])) ∧
      unitColumn ∈ (Schema.ofColumns [unitColumn]).list ∧ (Value.text "mm").ReadsBack ∧
      ((∃ schema', Statement.read (createTableText "t" [unitColumn.printed]) =
          .ok (.createTable "t" schema') ∧ schema'.list = [unitColumn]) ↔
        ∀ s, unitColumn.default? = some (.text s) → (Value.text s).ReadsBack) := by
  have htext : "CREATE TABLE t (unit TEXT NOT NULL DEFAULT 'mm')".toList =
      createTableText "t" [line ["unit".toList, "TEXT".toList, "NOT".toList, "NULL".toList,
        "DEFAULT".toList, inQuotes '\x27' "mm".toList]] := by decide +kernel
  have hwritten : unitColumn.Written (line ["unit".toList, "TEXT".toList, "NOT".toList,
      "NULL".toList, "DEFAULT".toList, inQuotes '\x27' "mm".toList]) :=
    @Column.Written.declaration unitColumn [.notNull] _ (by decide)
      (by intro constraint; cases constraint <;> decide)
      (.some (.text (by decide) (by decide))) (by simp [unitColumn])
  have hdistinct : ([unitColumn].map Column.name).Nodup := List.nodup_singleton _
  obtain ⟨hread, hlist⟩ := read_createTableText (by decide : isPlainName "t" = true) hdistinct
    (.cons hwritten .nil)
  have hcolumn : unitColumn ∈ (Schema.ofColumns [unitColumn]).list := by simp [hlist]
  rw [htext]
  exact ⟨hread, hcolumn, by decide +kernel,
    printed_column_read_back_iff hread hcolumn (by decide) (by decide)⟩

example : (Value.text "(a, b)").ReadsBack ∧ ¬ (Value.text "a, b").ReadsBack ∧
    ¬ (Value.text "it's").ReadsBack ∧ ¬ (Value.text "7").ReadsBack ∧
    ¬ (Value.text "true").ReadsBack := by decide +kernel

def noteColumn : Column := ⟨"note", .text, false, false, false, some (.text "hello world")⟩

/-- A default of two words is printed without its quotes and loses its second word. -/
theorem printed_default_loses_word :
    Statement.read "CREATE TABLE t (note TEXT DEFAULT 'hello world')".toList =
        .ok (.createTable "t" (.ofColumns [noteColumn])) ∧
      noteColumn.printed = "note TEXT DEFAULT hello world".toList ∧
      Statement.read (createTableText "t" [noteColumn.printed]) =
        .ok (.createTable "t" (.ofColumns [{ noteColumn with default? := some (.text "hello") }])) ∧
      (Schema.ofColumns [{ noteColumn with default? := some (.text "hello") }]).list ≠
        [noteColumn] := by
  have hprinted : noteColumn.printed = "note TEXT DEFAULT hello world".toList := by decide +kernel
  refine ⟨?_, hprinted, ?_, by decide +kernel⟩
  · have htext : "CREATE TABLE t (note TEXT DEFAULT 'hello world')".toList =
        createTableText "t" ["note TEXT DEFAULT 'hello world'".toList] := by decide +kernel
    rw [htext]
    refine read_createTableText_singleton (by decide) (by decide) (by decide +kernel) ?_
    exact ColumnText.read_eq_ok_iff.mpr ⟨"note".toList, ["TEXT".toList, "DEFAULT".toList,
      "'hello world'".toList], by decide +kernel, by decide +kernel, by simp [noteColumn]⟩
  · rw [hprinted]
    refine read_createTableText_singleton (by decide) (by decide) (by decide +kernel) ?_
    exact ColumnText.read_eq_ok_iff.mpr ⟨"note".toList, ["TEXT".toList, "DEFAULT".toList,
      "hello".toList, "world".toList], by decide +kernel, by decide +kernel, by simp [noteColumn]⟩

end Statement

end Rowfile
