import Flowchart.Grid

/-! Wide characters and the cells they cover. In a row without characters of three columns every
covered cell follows a wide character and every wide character is followed by a covered cell;
writing text keeps it so, wherever it is written, and therefore every row shows as many columns
as it has cells. -/
namespace Flowchart

namespace Cell

/-- The cell shows a character of two columns. -/
def Wide : Cell → Prop
  | shown c => Text.columns c = 2
  | covered => False

@[simp] theorem wide_shown : (shown c).Wide ↔ Text.columns c = 2 := .rfl

@[simp] theorem not_wide_covered : ¬covered.Wide := id

theorem not_wide_blank : ¬blank.Wide := by
  rw [blank, wide_shown]
  decide

/-- A cell is covered if and only if the one before it shows a wide character. -/
def Matched (before after : Option Cell) : Prop :=
  after = some covered ↔ ∃ cell, before = some cell ∧ cell.Wide

@[simp] theorem matched_none {after : Option Cell} :
    Matched none after ↔ after ≠ some covered := by
  simp [Matched]

@[simp] theorem matched_some {cell : Cell} {after : Option Cell} :
    Matched (some cell) after ↔ (after = some covered ↔ cell.Wide) := by
  simp [Matched]

theorem matched_of_narrow {before after : Option Cell} (uncovered : after ≠ some covered)
    (narrow : ∀ cell, before = some cell → ¬cell.Wide) : Matched before after :=
  iff_of_false uncovered fun ⟨cell, here, wide⟩ => narrow cell here wide

theorem matched_blank {after : Option Cell} (uncovered : after ≠ some covered) :
    Matched (some blank) after :=
  matched_of_narrow uncovered fun _ here => Option.some.inj here ▸ not_wide_blank

/-- Covered cells and wide characters come in pairs, and no character is wider. -/
structure Paired (cells : List Cell) : Prop where
  first : cells[0]? ≠ some covered
  pair : ∀ i, Matched cells[i]? cells[i + 1]?
  columns_le : ∀ c, shown c ∈ cells → Text.columns c ≤ 2

namespace Paired

variable {cells : List Cell}

theorem nil : Paired [] where
  first := by simp
  pair := by simp
  columns_le := by simp

theorem tail_of_narrow (paired : Paired (shown c :: cells)) (narrow : Text.columns c ≠ 2) :
    Paired cells where
  first covered := by
    obtain ⟨cell, here, wide⟩ := (paired.pair 0).mp (by simpa using covered)
    simp only [List.getElem?_cons_zero, Option.some.injEq] at here
    subst here
    exact narrow wide
  pair i := by simpa using paired.pair (i + 1)
  columns_le d member := paired.columns_le d (List.mem_cons_of_mem _ member)

theorem tail_of_wide (paired : Paired (shown c :: covered :: cells)) : Paired cells where
  first covered := by
    obtain ⟨cell, here, wide⟩ := (paired.pair 1).mp (by simpa using covered)
    simp only [List.getElem?_cons_succ, List.getElem?_cons_zero, Option.some.injEq] at here
    subst here
    exact wide
  pair i := by simpa using paired.pair (i + 2)
  columns_le d member := paired.columns_le d (by simp [member])

theorem succ_of_covered (paired : Paired cells) (here : cells[i]? = some covered) :
    cells[i + 1]? ≠ some covered := by
  intro next
  obtain ⟨cell, same, wide⟩ := (paired.pair i).mp next
  obtain rfl := Option.some.inj (same.symm.trans here)
  exact wide

/-- The characters that are shown take as many columns as there are cells. -/
theorem sum_columns : ∀ {cells : List Cell}, Paired cells →
    ((cells.filterMap char?).map Text.columns).foldr (· + ·) 0 = cells.length
  | [], _ => rfl
  | covered :: _, paired => absurd rfl paired.first
  | shown c :: rest, paired => by
    by_cases wide : Text.columns c = 2
    · have next : rest[0]? = some covered := by
        simpa using (paired.pair 0).mpr ⟨shown c, rfl, wide⟩
      match rest with
      | covered :: rest =>
        have ih := sum_columns paired.tail_of_wide
        simp only [List.filterMap_cons, char?, List.map_cons, List.foldr_cons, wide, ih,
          List.length_cons]
        omega
    · have ih := sum_columns (paired.tail_of_narrow wide)
      have bound := paired.columns_le c (by simp)
      have := Text.columns_pos c
      simp only [List.filterMap_cons, char?, List.map_cons, List.foldr_cons, ih, List.length_cons]
      omega
termination_by cells => cells.length

theorem append {more : List Cell} (paired : Paired cells) (paired' : Paired more) :
    Paired (cells ++ more) where
  first := by
    cases cells with
    | nil => exact paired'.first
    | cons cell cells => exact paired.first
  pair i := by
    rcases Nat.lt_trichotomy (i + 1) cells.length with inside | last | beyond
    · rw [List.getElem?_append_left inside, List.getElem?_append_left (by omega)]
      exact paired.pair i
    · have past : cells[i + 1]? ≠ some covered := by simp [last]
      rw [List.getElem?_append_left (by omega), last, List.getElem?_append_right (Nat.le_refl _),
        Nat.sub_self]
      exact matched_of_narrow paired'.first fun cell here wide =>
        past ((paired.pair i).mpr ⟨cell, here, wide⟩)
    · have shift : i + 1 - cells.length = i - cells.length + 1 := by omega
      rw [List.getElem?_append_right (by omega), List.getElem?_append_right (by omega), shift]
      exact paired'.pair _
  columns_le c member := by
    rcases List.mem_append.mp member with here | there
    · exact paired.columns_le c here
    · exact paired'.columns_le c there

theorem replicate_narrow {c : Char} (narrow : Text.columns c = 1) (n : Nat) :
    Paired (List.replicate n (shown c)) := by
  have shows {i : Nat} {cell : Cell} (here : (List.replicate n (shown c))[i]? = some cell) :
      cell = shown c := List.eq_of_mem_replicate (List.mem_of_getElem? here)
  refine ⟨fun here => ?_, fun i => ?_, fun d member => ?_⟩
  · cases shows here
  · refine matched_of_narrow (fun here => by cases shows here) fun cell here wide => ?_
    rw [shows here, wide_shown] at wide
    omega
  · rw [shown.inj (List.eq_of_mem_replicate member)]
    omega

theorem wide {c : Char} (wide : Text.columns c = 2) : Paired [shown c, covered] where
  first := by simp
  pair i := by
    match i with
    | 0 => simp [wide]
    | i + 1 => cases i <;> simp
  columns_le d member := by
    simp only [List.mem_cons, shown.injEq, reduceCtorEq, List.not_mem_nil, or_false] at member
    rw [member]
    omega

end Paired

/-- The cells of a character come in pairs, too. -/
theorem paired_ofChar {c : Char} (visible : c ≠ '\x00') (bound : Text.columns c ≤ 2) :
    Paired (ofChar c :: List.replicate (Text.columns c - 1) covered) := by
  rw [ofChar, if_neg visible]
  have positive := Text.columns_pos c
  obtain narrow | wide : Text.columns c = 1 ∨ Text.columns c = 2 := by omega
  · rw [narrow]
    exact .replicate_narrow narrow 1
  · rw [wide]
    exact .wide wide

theorem paired_ofText {s : String} (visible : '\x00' ∉ s.toList)
    (bound : ∀ c ∈ s.toList, Text.columns c ≤ 2) : Paired (ofText s) := by
  rw [ofText]
  revert visible bound
  induction s.toList with
  | nil => exact fun _ _ => .nil
  | cons c cs ih =>
    intro visible bound
    simp only [List.mem_cons, not_or, forall_eq_or_imp] at visible bound
    rw [List.flatMap_cons]
    exact .append (paired_ofChar (Ne.symm visible.1) bound.1) (ih visible.2 bound.2)

theorem mem_of_shown_mem_ofText {s : String} {c : Char} (member : shown c ∈ ofText s) :
    c ∈ s.toList := by
  obtain ⟨d, inside, here⟩ := List.mem_flatMap.mp member
  rcases List.mem_cons.mp here with first | rest
  · rw [ofChar] at first
    split at first
    · cases first
    · cases first
      exact inside
  · cases List.eq_of_mem_replicate rest

end Cell

namespace Row

variable {row : Row width} {column i : Nat}

theorem getElem?_put_before (row : Row width) (i : Nat) (cell : Cell) :
    (row.put (i + 1) cell)[i]? = if row[i + 1]? = some .covered then some .blank else row[i]? := by
  have after : i ≠ i + 1 + 1 := by omega
  simp [getElem?_put, after]

theorem getElem?_put_after (row : Row width) (column : Nat) (cell : Cell) :
    (row.put column cell)[column + 1]? =
      if row[column + 1]? = some .covered then some .blank else row[column + 1]? := by
  have before : column + 1 + 1 ≠ column := by omega
  simp [getElem?_put, before]

theorem getElem?_put_far (cell : Cell) (far : i + 1 < column ∨ column + 1 < i) :
    (row.put column cell)[i]? = row[i]? := by
  have here : i ≠ column := by omega
  have before : i + 1 ≠ column := by omega
  have after : i ≠ column + 1 := by omega
  simp [getElem?_put, here, before, after]

theorem blank_or_uncovered (cell : Option Cell) :
    (if cell = some .covered then some .blank else cell) ≠ some .covered := by
  split
  · simp [Cell.blank]
  · assumption

theorem getElem?_write_far (cells : List Cell)
    (far : i + 1 < column ∨ column + cells.length < i) :
    (row.write column cells)[i]? = row[i]? := by
  induction cells generalizing row column with
  | nil => rfl
  | cons cell cells ih =>
    rw [List.length_cons] at far
    rw [write, ih (by omega), getElem?_put_far cell (by omega)]

/-- The cell before a text is blanked if the text starts within its character. -/
theorem getElem?_write_before (row : Row width) (i : Nat) {cells : List Cell}
    (nonempty : cells ≠ []) :
    (row.write (i + 1) cells)[i]? =
      if row[i + 1]? = some .covered then some .blank else row[i]? := by
  obtain ⟨cell, cells, rfl⟩ := List.exists_cons_of_ne_nil nonempty
  rw [write, getElem?_write_far cells (by omega), getElem?_put_before]

/-- The cell after a text is blanked if the text ends within its character. -/
theorem getElem?_write_after (row : Row width) (column : Nat) {cells : List Cell}
    (nonempty : cells ≠ []) :
    (row.write column cells)[column + cells.length]? =
      if row[column + cells.length]? = some .covered then some .blank
      else row[column + cells.length]? := by
  induction cells generalizing row column with
  | nil => exact absurd rfl nonempty
  | cons cell cells ih =>
    cases cells with
    | nil => exact getElem?_put_after row column cell
    | cons next rest =>
      have shift : column + (cell :: next :: rest).length = column + 1 + (next :: rest).length := by
        simp only [List.length_cons]
        omega
      have far : column + 1 < column + 1 + (next :: rest).length := by simp
      rw [write, shift, ih _ _ (by simp), getElem?_put_far cell (.inr far)]

theorem getElem?_write_inside {cells : List Cell} {j : Nat} (within : j < cells.length)
    (inside : column + j < width) :
    (row.write column cells)[column + j]? = cells[j]? := by
  induction cells generalizing row column j with
  | nil => simp at within
  | cons cell cells ih =>
    rw [write]
    cases j with
    | zero =>
      have here : (row.put column cell)[column]? = some cell := by
        rw [getElem?_put, if_pos ⟨rfl, inside⟩]
      cases cells with
      | nil => exact here
      | cons next rest =>
        have settled : (row.put column cell)[column + 1]? ≠ some .covered := by
          rw [getElem?_put_after]
          exact blank_or_uncovered _
        have start := getElem?_write_before (row.put column cell) column (List.cons_ne_nil next rest)
        rw [if_neg settled] at start
        exact start.trans here
    | succ j =>
      have shift : column + (j + 1) = column + 1 + j := by omega
      rw [shift, ih (by simpa using within) (by omega), List.getElem?_cons_succ]

theorem mem_put {cell other : Cell} (member : other ∈ (row.put column cell).toList) :
    other = cell ∨ other = .blank ∨ other ∈ row.toList := by
  obtain ⟨i, found⟩ := List.mem_iff_getElem?.mp member
  rw [Vector.getElem?_toList, getElem?_put] at found
  split at found
  · exact .inl (Option.some.inj found).symm
  · split at found
    · exact .inr (.inl (Option.some.inj found).symm)
    · split at found
      · exact .inr (.inl (Option.some.inj found).symm)
      · exact .inr (.inr (List.mem_of_getElem? (by rwa [Vector.getElem?_toList])))

theorem mem_write {cells : List Cell} {other : Cell}
    (member : other ∈ (row.write column cells).toList) :
    other ∈ cells ∨ other = .blank ∨ other ∈ row.toList := by
  induction cells generalizing row column with
  | nil => exact .inr (.inr member)
  | cons cell cells ih =>
    rcases ih member with later | blank | before
    · exact .inl (List.mem_cons_of_mem _ later)
    · exact .inr (.inl blank)
    · rcases mem_put before with rfl | blank | old
      · exact .inl List.mem_cons_self
      · exact .inr (.inl blank)
      · exact .inr (.inr old)

section Writing

variable {cells : List Cell} (old : Cell.Paired row.toList) (new : Cell.Paired cells)
  (nonempty : cells ≠ []) (fits : column + cells.length ≤ width ∨ width ≤ column)

include old in
theorem matched_row (i : Nat) : Cell.Matched row[i]? row[i + 1]? := by
  simpa using old.pair i

include old in
theorem uncovered_after (cut : row[i]? = some .covered) : row[i + 1]? ≠ some .covered := by
  simpa using old.succ_of_covered (by simpa using cut)

include new nonempty in
theorem uncovered_write : (row.write column cells)[column]? ≠ some .covered := by
  by_cases inside : column < width
  · have here : (row.write column cells)[column]? = cells[0]? :=
      getElem?_write_inside (List.length_pos_iff.mpr nonempty) inside
    rw [here]
    exact new.first
  · simp [inside]

include old new nonempty in
theorem uncovered_write_zero : (row.write column cells)[0]? ≠ some .covered := by
  have first : row[0]? ≠ some .covered := by simpa using old.first
  match column with
  | 0 => exact uncovered_write new nonempty
  | 1 =>
    rw [getElem?_write_before row 0 nonempty]
    split
    · simp [Cell.blank]
    · exact first
  | column + 2 =>
    rw [getElem?_write_far cells (.inl (by omega))]
    exact first

include old new nonempty in
theorem matched_write_before (before : i < column) :
    Cell.Matched (row.write column cells)[i]? (row.write column cells)[i + 1]? := by
  obtain ⟨k, rfl⟩ := Nat.exists_eq_add_of_lt before
  match k with
  | 0 =>
    have start : (row.write (i + 1) cells)[i + 1]? ≠ some .covered :=
      uncovered_write new nonempty
    rw [getElem?_write_before row i nonempty]
    split
    · exact Cell.matched_blank start
    · next kept =>
      refine Cell.matched_of_narrow start fun cell here wide => ?_
      exact kept ((matched_row old i).mpr ⟨cell, here, wide⟩)
  | 1 =>
    rw [getElem?_write_before row (i + 1) nonempty, getElem?_write_far cells (.inl (by omega))]
    split
    · next cut =>
      refine Cell.matched_of_narrow (by simp [Cell.blank]) fun cell here wide => ?_
      exact uncovered_after old ((matched_row old i).mpr ⟨cell, here, wide⟩) cut
    · exact matched_row old i
  | k + 2 =>
    rw [getElem?_write_far cells (.inl (by omega)), getElem?_write_far cells (.inl (by omega))]
    exact matched_row old i

include new fits in
theorem matched_write_inside {j : Nat} (within : j + 1 < cells.length) :
    Cell.Matched (row.write column cells)[column + j]?
      (row.write column cells)[column + j + 1]? := by
  rcases fits with fits | out
  · rw [Nat.add_assoc, getElem?_write_inside within (by omega),
      getElem?_write_inside (by omega) (by omega)]
    exact new.pair j
  · have here : width ≤ column + j := by omega
    have next : width ≤ column + j + 1 := by omega
    simp [Cell.Matched, here, next]

include new in
theorem matched_write_last {j : Nat} (last : j + 1 = cells.length) :
    Cell.Matched (row.write column cells)[column + j]?
      (row.write column cells)[column + j + 1]? := by
  have nonempty : cells ≠ [] := List.ne_nil_of_length_eq_add_one last.symm
  have past : cells[j + 1]? ≠ some .covered := by simp [last]
  have next := getElem?_write_after row column nonempty
  rw [← last, ← Nat.add_assoc] at next
  rw [next]
  refine Cell.matched_of_narrow (blank_or_uncovered _) fun cell here wide => ?_
  have inside := (Vector.getElem?_eq_some_iff.mp here).1
  rw [getElem?_write_inside (by omega) inside] at here
  exact past ((new.pair j).mpr ⟨cell, here, wide⟩)

include old nonempty in
theorem matched_write_after {j : Nat} (after : cells.length ≤ j) :
    Cell.Matched (row.write column cells)[column + j]?
      (row.write column cells)[column + j + 1]? := by
  rw [getElem?_write_far (i := column + j + 1) cells (.inr (by omega))]
  by_cases edge : j = cells.length
  · subst edge
    rw [getElem?_write_after row column nonempty]
    split
    · next cut => exact Cell.matched_blank (uncovered_after old cut)
    · exact matched_row old _
  · rw [getElem?_write_far cells (.inr (by omega))]
    exact matched_row old _

include old new fits in
/-- Writing keeps covered cells and wide characters in pairs, unless the row ends within the text. -/
theorem paired_write : Cell.Paired (row.write column cells).toList := by
  by_cases empty : cells = []
  · subst empty
    exact old
  refine ⟨?_, fun i => ?_, fun c member => ?_⟩
  · simpa using uncovered_write_zero old new empty
  · simp only [Vector.getElem?_toList]
    -- Four stretches: up to the start of the text, within it, its last cell, and after it.
    rcases Nat.lt_or_ge i column with before | after
    · exact matched_write_before old new empty before
    · obtain ⟨j, rfl⟩ := Nat.exists_eq_add_of_le after
      rcases Nat.lt_trichotomy (j + 1) cells.length with within | last | beyond
      · exact matched_write_inside new fits within
      · exact matched_write_last new last
      · exact matched_write_after old empty (by omega)
  · rcases mem_write member with written | blank | kept
    · exact new.columns_le c written
    · rw [Cell.shown.inj blank]
      decide
    · exact old.columns_le c kept

end Writing

/-- What a row reads is shown in some cell. -/
theorem not_mem_text {c : Char} (absent : .shown c ∉ row.toList) : c ∉ row.text := by
  intro member
  obtain ⟨cell, inside, shows⟩ := List.mem_filterMap.mp member
  cases cell with
  | shown c =>
    cases shows
    exact absent inside
  | covered => cases shows

/-- The row reads as one line, with its wide characters in their places. -/
structure Aligned (row : Row width) : Prop where
  paired : Cell.Paired row.toList
  one_line : .shown '\n' ∉ row.toList

theorem aligned_blank : Aligned (.replicate width .blank) where
  paired := by
    rw [Vector.toList_replicate]
    exact .replicate_narrow (by decide) width
  one_line member := by
    rw [Vector.toList_replicate] at member
    cases List.eq_of_mem_replicate member

namespace Aligned

variable {row : Row width}

theorem write {column : Nat} {cells : List Cell} (aligned : row.Aligned)
    (paired : Cell.Paired cells) (one_line : .shown '\n' ∉ cells)
    (fits : column + cells.length ≤ width ∨ width ≤ column) :
    (row.write column cells).Aligned where
  paired := paired_write aligned.paired paired fits
  one_line member := by
    rcases mem_write member with written | blank | kept
    · exact one_line written
    · cases blank
    · exact aligned.one_line kept

/-- A character of one column may be put anywhere, also over half of a wide character. -/
theorem put {c : Char} (aligned : row.Aligned) (column : Nat) (visible : c ≠ '\x00')
    (narrow : Text.columns c = 1) (inline : c ≠ '\n') :
    (row.put column (.ofChar c)).Aligned := by
  rw [Cell.ofChar, if_neg visible]
  have one_line : Cell.shown '\n' ∉ [.shown c] := by simpa using inline.symm
  exact aligned.write (.replicate_narrow narrow 1) one_line (Nat.lt_or_ge column width)

theorem displayWidth_text (aligned : row.Aligned) :
    Text.displayWidth (String.ofList row.text) = width := by
  rw [Text.displayWidth, text, String.toList_ofList, aligned.paired.sum_columns, Vector.length_toList]

theorem not_mem_text (aligned : row.Aligned) : '\n' ∉ row.text :=
  Row.not_mem_text aligned.one_line

end Aligned

end Row

end Flowchart
