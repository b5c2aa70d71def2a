import Flowchart.Proofs.Pairing

/-! Rows in which no character is cut: every character is followed by just the cells that it covers,
however wide it is, so the row shows as many columns as it has cells. Such a row can be taken apart
before every cell that is not covered, and a text that is written from one such cell up to another
replaces what was between them. A text that starts or ends within a character of two columns leaves
one cell of it, which is blanked. -/
namespace Flowchart

namespace Cell

/-- The cells hold one character after another, each with all the cells that it covers. -/
inductive Whole : List Cell → Prop where
  | nil : Whole []
  | cons (c : Char) : Whole cells →
      Whole (shown c :: (List.replicate (Text.columns c - 1) covered ++ cells))

namespace Whole

variable {cells left right : List Cell}

theorem append (first : Whole left) (second : Whole right) : Whole (left ++ right) := by
  induction first with
  | nil => exact second
  | cons c _ ih =>
    rw [List.cons_append, List.append_assoc]
    exact .cons c ih

theorem replicate {c : Char} (narrow : Text.columns c = 1) (n : Nat) :
    Whole (List.replicate n (shown c)) := by
  induction n with
  | zero => exact .nil
  | succ n ih => simpa [narrow, List.replicate_succ] using ih.cons c

theorem ofText {s : String} (visible : '\x00' ∉ s.toList) : Whole (ofText s) := by
  rw [Cell.ofText]
  revert visible
  induction s.toList with
  | nil => exact fun _ => .nil
  | cons c cs ih =>
    intro visible
    simp only [List.mem_cons, not_or] at visible
    rw [List.flatMap_cons, ofChar, if_neg (Ne.symm visible.1)]
    exact .cons c (ih visible.2)

/-- The characters that are shown take as many columns as there are cells. -/
theorem displayWidth_eq (whole : Whole cells) :
    Text.displayWidth (String.ofList (cells.filterMap char?)) = cells.length := by
  rw [Text.displayWidth, String.toList_ofList]
  induction whole with
  | nil => rfl
  | @cons cells c _ ih =>
    have hidden : (List.replicate (Text.columns c - 1) covered).filterMap char? = [] := by
      simp [char?]
    have := Text.columns_pos c
    simp only [List.filterMap_cons, char?, List.filterMap_append, hidden, List.nil_append,
      List.map_cons, List.foldr_cons, ih, List.length_cons, List.length_append, List.length_replicate]
    omega

/-- A division lies between two characters or within one. -/
theorem split (whole : Whole (left ++ right)) :
    Whole left ∧ Whole right ∨ ∃ l c a b r, left = l ++ shown c :: List.replicate a covered ∧
      right = List.replicate (b + 1) covered ++ r ∧ a + b + 2 = Text.columns c ∧
      Whole l ∧ Whole r := by
  generalize parts : left ++ right = cells at whole
  induction whole generalizing left with
  | nil =>
    obtain ⟨rfl, rfl⟩ := List.append_eq_nil_iff.mp parts
    exact .inl ⟨.nil, .nil⟩
  | @cons cells c rest ih =>
    cases left with
    | nil =>
      rw [List.nil_append] at parts
      exact .inl ⟨.nil, parts ▸ rest.cons c⟩
    | cons cell left =>
      rw [List.cons_append, List.cons.injEq] at parts
      obtain ⟨rfl, parts⟩ := parts
      rcases List.append_eq_append_iff.mp parts with ⟨cut, hidden, start⟩ | ⟨more, rfl, onward⟩
      · obtain ⟨size, first, second⟩ := List.replicate_eq_append_iff.mp hidden
        cases cut with
        | nil =>
          rw [List.append_nil] at hidden
          exact .inl ⟨by simpa [hidden] using Whole.nil.cons c, start ▸ rest⟩
        | cons cell cut =>
          refine .inr ⟨[], c, left.length, cut.length, cells, ?_, ?_, ?_, .nil, rest⟩
          · rw [List.nil_append, ← first]
          · rw [start, second, List.length_cons]
          · have := Text.columns_pos c
            rw [List.length_cons] at size
            omega
      · rcases ih onward.symm with ⟨first, second⟩ | ⟨l, d, a, b, r, rfl, rfl, size, first, second⟩
        · exact .inl ⟨first.cons c, second⟩
        · exact .inr ⟨_, d, a, b, r, by simp, rfl, size, first.cons c, second⟩

theorem not_covered_zero (whole : Whole cells) : cells[0]? ≠ some covered := by
  cases whole <;> simp

/-- Before a cell that is not covered there is no part of a character without the rest of it. -/
theorem of_append (whole : Whole (left ++ right)) (uncovered : right[0]? ≠ some covered) :
    Whole left ∧ Whole right := by
  rcases whole.split with apart | ⟨_, _, _, _, _, _, rfl, _⟩
  · exact apart
  · exact absurd (by simp [List.replicate_succ]) uncovered

/-- Blanking the last cell before a division removes a character that reaches over the division,
unless it has two cells before it. -/
theorem repair_left (whole : Whole (left ++ right))
    (part : ¬(right[0]? = some covered ∧ left.getLast? = some covered)) :
    Whole (if right[0]? = some covered then left.set (left.length - 1) blank else left) := by
  split
  · next cut =>
    rcases whole.split with ⟨_, second⟩ | ⟨l, c, a, b, r, rfl, rfl, _, first, _⟩
    · exact absurd cut second.not_covered_zero
    · cases a with
      | zero =>
        have blank : Whole [blank] := .replicate (by decide) 1
        simpa using first.append blank
      | succ a => exact absurd ⟨cut, by simp [List.getLast?_cons, List.getLast?_replicate]⟩ part
  · next uncut => exact (whole.of_append uncut).1

/-- Blanking the first cell after a division removes a character that reaches over the division,
unless it has two cells after it. -/
theorem repair_right (whole : Whole (left ++ right))
    (part : ¬(right[0]? = some covered ∧ right[1]? = some covered)) :
    Whole (if right[0]? = some covered then right.set 0 blank else right) := by
  split
  · next cut =>
    rcases whole.split with ⟨_, second⟩ | ⟨l, c, a, b, r, rfl, rfl, _, _, second⟩
    · exact absurd cut second.not_covered_zero
    · cases b with
      | zero =>
        have blank : Whole [blank] := .replicate (by decide) 1
        simpa using blank.append second
      | succ b => exact absurd ⟨cut, by simp [List.replicate_succ]⟩ part
  · next uncut => exact (whole.of_append uncut).2

end Whole

theorem blank_ne_covered : blank ≠ covered := by simp [blank]

theorem filterMap_char?_ofText {s : String} (visible : '\x00' ∉ s.toList) :
    (ofText s).filterMap char? = s.toList := by
  rw [ofText]
  revert visible
  induction s.toList with
  | nil => exact fun _ => rfl
  | cons c cs ih =>
    intro visible
    simp only [List.mem_cons, not_or] at visible
    rw [List.flatMap_cons, ofChar, if_neg (Ne.symm visible.1), List.filterMap_append, ih visible.2]
    simp [char?]

end Cell

namespace Row

variable {row : Row width} {left old cells right : List Cell}

/-- Next to a text, a cell is blanked if it loses the rest of its character. Other cells that the
text does not take are kept. -/
theorem getElem?_write_outside (row : Row width) (nonempty : cells ≠ []) {column i : Nat}
    (outside : i < column ∨ column + cells.length ≤ i) :
    (row.write column cells)[i]? =
      if i + 1 = column ∧ row[column]? = some .covered ∨
          i = column + cells.length ∧ row[i]? = some .covered
        then some .blank else row[i]? := by
  have positive := List.length_pos_iff.mpr nonempty
  by_cases before : i + 1 = column
  · subst before
    have apart : i ≠ i + 1 + cells.length := by omega
    simp [getElem?_write_before row i nonempty, apart]
  · by_cases after : i = column + cells.length
    · subst after
      have apart : column + cells.length + 1 ≠ column := by omega
      simp [getElem?_write_after row column nonempty, apart]
    · have far : i + 1 < column ∨ column + cells.length < i := by omega
      simp [getElem?_write_far cells far, before, after]

theorem getElem?_ite_set {p : Prop} [Decidable p] (l : List Cell) (i j : Nat) (cell : Cell) :
    (if p then l.set j cell else l)[i]? = if i = j ∧ p ∧ i < l.length then some cell else l[i]? := by
  by_cases here : i = j
  · subst here
    by_cases inside : i < l.length <;> by_cases holds : p <;> simp [inside, holds]
  · by_cases holds : p <;> simp [here, Ne.symm here, holds]

/-- Writing replaces what was between its ends, and blanks the cell before or after that if its
character reaches over the end. -/
theorem toList_overwrite (parts : row.toList = left ++ (old ++ right)) {column : Nat}
    (place : left.length = column) (size : old.length = cells.length) (nonempty : cells ≠ []) :
    (row.write column cells).toList =
      (if (old ++ right)[0]? = some .covered then left.set (left.length - 1) .blank else left) ++
        (cells ++ if right[0]? = some .covered then right.set 0 .blank else right) := by
  subst place
  have before (i : Nat) (inside : i < left.length) : row[i]? = left[i]? := by
    rw [← Vector.getElem?_toList, parts, List.getElem?_append_left inside]
  have start : row[left.length]? = (old ++ right)[0]? := by
    rw [← Vector.getElem?_toList, parts, List.getElem?_append_right (Nat.le_refl _), Nat.sub_self]
  have after (k : Nat) : row[left.length + (cells.length + k)]? = right[k]? := by
    rw [← Vector.getElem?_toList, parts, List.getElem?_append_right (by omega),
      Nat.add_sub_cancel_left, List.getElem?_append_right (by omega), size, Nat.add_sub_cancel_left]
  have inside : left.length + cells.length ≤ width := by
    have := congrArg List.length parts
    simp only [Vector.length_toList, List.length_append] at this
    omega
  have length : (if (old ++ right)[0]? = some .covered then left.set (left.length - 1) .blank
      else left).length = left.length := by
    split <;> simp
  apply List.ext_getElem?
  intro i
  rw [Vector.getElem?_toList]
  rcases Nat.lt_or_ge i left.length with below | beyond
  · have last : i + 1 = left.length ↔ i = left.length - 1 := by omega
    have apart : i ≠ left.length + cells.length := by omega
    rw [List.getElem?_append_left (by rwa [length]), getElem?_write_outside row nonempty (.inl below),
      getElem?_ite_set, before i below, start]
    simp only [last, apart, below, and_true, false_and, or_false]
  · obtain ⟨j, rfl⟩ := Nat.exists_eq_add_of_le beyond
    rw [List.getElem?_append_right (by omega), length, Nat.add_sub_cancel_left]
    rcases Nat.lt_or_ge j cells.length with within | further
    · rw [getElem?_write_inside within (by omega), List.getElem?_append_left within]
    · obtain ⟨k, rfl⟩ := Nat.exists_eq_add_of_le further
      have inside (covered : right[0]? = some .covered) : 0 < right.length :=
        (List.getElem?_eq_some_iff.mp covered).1
      have apart : left.length + (cells.length + k) + 1 ≠ left.length := by omega
      rw [List.getElem?_append_right further, Nat.add_sub_cancel_left,
        getElem?_write_outside row nonempty (.inr (by omega)), getElem?_ite_set, after]
      simp only [apart, false_and, false_or]
      cases k with
      | zero => simp [and_iff_left_of_imp inside]
      | succ k => simp

/-- A text that starts and ends at cells that are not covered changes its own cells only. -/
theorem toList_write (parts : row.toList = left ++ (old ++ right)) {column : Nat}
    (place : left.length = column) (size : old.length = cells.length)
    (start : (old ++ right)[0]? ≠ some .covered) (finish : right[0]? ≠ some .covered) :
    (row.write column cells).toList = left ++ (cells ++ right) := by
  by_cases empty : cells = []
  · subst empty
    rw [List.eq_nil_of_length_eq_zero size] at parts
    exact parts
  · rw [toList_overwrite parts place size empty, if_neg start, if_neg finish]

theorem toList_put {column : Nat} {cell before : Cell} (parts : row.toList = left ++ before :: right)
    (place : left.length = column) (start : before ≠ .covered) (finish : right[0]? ≠ some .covered) :
    (row.put column cell).toList = left ++ cell :: right := by
  have split : row.toList = left ++ ([before] ++ right) := parts
  have size : [before].length = [cell].length := rfl
  exact toList_write split place size (by simpa using start) finish

/-- A row with known cells in some place is made of what comes before, these and what comes after. -/
theorem toList_eq_of_getElem? (row : Row width) (cells : List Cell) {column : Nat}
    (fits : column + cells.length ≤ width)
    (here : ∀ i < cells.length, row[column + i]? = cells[i]?) :
    row.toList = row.toList.take column ++ (cells ++ row.toList.drop (column + cells.length)) := by
  have start : (row.toList.take column).length = column := by
    rw [List.length_take, Vector.length_toList]
    omega
  apply List.ext_getElem?
  intro i
  rcases Nat.lt_or_ge i column with before | after
  · rw [List.getElem?_append_left (by omega), List.getElem?_take_of_lt before]
  · obtain ⟨j, rfl⟩ := Nat.exists_eq_add_of_le after
    rw [List.getElem?_append_right (by omega), start, Nat.add_sub_cancel_left]
    rcases Nat.lt_or_ge j cells.length with within | beyond
    · rw [List.getElem?_append_left within, Vector.getElem?_toList, here j within]
    · rw [List.getElem?_append_right beyond, List.getElem?_drop]
      congr 1
      omega

section Whole

variable {column : Nat} (whole : Cell.Whole row.toList)
include whole

/-- A text may be written over any part of the characters that are there, unless two cells of one
character are left before it or after it. -/
theorem whole_overwrite (new : Cell.Whole cells) (fits : column + cells.length ≤ width)
    (start : ∀ i, column = i + 1 → ¬(row[i]? = some .covered ∧ row[i + 1]? = some .covered))
    (finish : ¬(row[column + cells.length]? = some .covered ∧
      row[column + cells.length + 1]? = some .covered)) :
    Cell.Whole (row.write column cells).toList := by
  by_cases empty : cells = []
  · subst empty
    exact whole
  obtain ⟨left, rest, parts, size⟩ :
      ∃ left rest, row.toList = left ++ rest ∧ left.length = column := by
    refine ⟨_, _, (List.take_append_drop column _).symm, ?_⟩
    rw [List.length_take, Vector.length_toList]
    omega
  obtain ⟨old, right, rfl, size'⟩ : ∃ old right, rest = old ++ right ∧ old.length = cells.length := by
    have sum := congrArg List.length parts
    rw [Vector.length_toList, List.length_append] at sum
    refine ⟨_, _, (List.take_append_drop cells.length _).symm, ?_⟩
    rw [List.length_take]
    omega
  have after (k : Nat) : row[column + cells.length + k]? = right[k]? := by
    rw [← Vector.getElem?_toList, parts, ← size, ← size', ← List.append_assoc,
      ← List.length_append, List.getElem?_append_right (Nat.le_add_right _ _), Nat.add_sub_cancel_left]
  rw [toList_overwrite parts size size' empty]
  rw [parts] at whole
  refine (whole.repair_left ?_).append (new.append ?_)
  · rintro ⟨covered, last⟩
    rw [List.getLast?_eq_getElem?] at last
    obtain ⟨bound, _⟩ := List.getElem?_eq_some_iff.mp last
    refine start (column - 1) (by omega) ⟨?_, ?_⟩
    · rwa [← Vector.getElem?_toList, parts, ← size, List.getElem?_append_left bound]
    · rwa [← Vector.getElem?_toList, parts, List.getElem?_append_right (by omega),
        show column - 1 + 1 - left.length = 0 by omega]
  · rw [← List.append_assoc] at whole
    refine whole.repair_right fun ⟨first, second⟩ => finish ⟨?_, ?_⟩
    · rw [← first, ← after 0, Nat.add_zero]
    · rw [← second, ← after 1]

/-- Writing between cells that are not covered cuts no character. -/
theorem whole_write (new : Cell.Whole cells) (fits : column + cells.length ≤ width)
    (start : row[column]? ≠ some .covered) (finish : row[column + cells.length]? ≠ some .covered) :
    Cell.Whole (row.write column cells).toList :=
  whole_overwrite whole new fits (fun _ same cut => start (same ▸ cut.2)) fun cut => finish cut.1

theorem whole_put {c : Char} (narrow : Text.columns c = 1) (inside : column < width)
    (start : row[column]? ≠ some .covered) (finish : row[column + 1]? ≠ some .covered) :
    Cell.Whole (row.put column (.shown c)).toList :=
  whole_write whole (.replicate narrow 1) inside start finish

end Whole

end Row

end Flowchart
