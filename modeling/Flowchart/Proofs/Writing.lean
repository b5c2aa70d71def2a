import Flowchart.Proofs.Clipping

/-! What writing a text changes. Every character stands in its own cell and covers the cells after
it, what lies beyond the end of the row is dropped, and next to the text a cell changes only if its
character loses the rest. This holds if all columns of the text can be counted in 64 bits, and if
not, there is no result. -/
namespace Flowchart

namespace Cell

@[simp] theorem ofText_eq_nil_iff {s : String} : ofText s = [] ↔ s = "" := by
  constructor
  · intro empty
    cases chars : s.toList with
    | nil => exact String.toList_eq_nil_iff.mp chars
    | cons c cs => simp [ofText, chars] at empty
  · rintro rfl
    rfl

/-- The cells of one character in a text: the first one shows it, and it covers the others. -/
theorem getElem?_ofText {s : String} {before after : List Char} {c : Char}
    (split : s.toList = before ++ c :: after) {k : Nat} (within : k < Text.columns c) :
    (ofText s)[Text.displayWidth (String.ofList before) + k]? =
      some (if k = 0 then ofChar c else covered) := by
  have parts : ofText s = ofText (String.ofList before) ++
      (ofChar c ::
        (List.replicate (Text.columns c - 1) covered ++ ofText (String.ofList after))) := by
    simp [ofText, split]
  rw [parts, ← length_ofText, List.getElem?_append_right (Nat.le_add_right _ _),
    Nat.add_sub_cancel_left]
  cases k with
  | zero => rfl
  | succ k =>
    have rest : k < Text.columns c - 1 := by omega
    simp [List.getElem?_append_left, rest]

end Cell

namespace Grid

variable {g : Grid width height} {row column : Nat} {s : String}

theorem cell?_write_inside {k : Nat} (inside : row < height) (within : k < (Cell.ofText s).length)
    (fits : column + k < width) :
    (g.write row column s).cell? row (column + k) = (Cell.ofText s)[k]? := by
  rw [write, cell?_mapRow, if_pos rfl, Vector.getElem?_eq_getElem inside, Option.bind_some]
  exact Row.getElem?_write_inside within fits

/-- Each character of a text that is written stands in its own cell and covers the next ones. -/
theorem cell?_write_char {before after : List Char} {c : Char} {k : Nat} (inside : row < height)
    (split : s.toList = before ++ c :: after) (within : k < Text.columns c)
    (fits : column + Text.displayWidth (String.ofList before) + k < width) :
    (g.write row column s).cell? row (column + Text.displayWidth (String.ofList before) + k) =
      some (if k = 0 then .ofChar c else .covered) := by
  have cell := Cell.getElem?_ofText split within
  have bound := (List.getElem?_eq_some_iff.mp cell).1
  rw [Nat.add_assoc] at fits ⊢
  rw [cell?_write_inside inside bound fits, cell]

/-- A grid into which a text has been written from a column on. -/
structure Written (g : Grid width height) (row column : Nat) (s : String)
    (written : Grid width height) : Prop where
  /-- A character stands after the ones before it, unless that is beyond the end of the row. -/
  shown : ∀ before c after, s.toList = before ++ c :: after → row < height →
    column + Text.displayWidth (String.ofList before) < width →
    written.cell? row (column + Text.displayWidth (String.ofList before)) = some (.ofChar c)
  /-- It covers the rest of its columns. -/
  covered : ∀ before c after, s.toList = before ++ c :: after → row < height →
    ∀ k, 0 < k → k < Text.columns c →
      column + Text.displayWidth (String.ofList before) + k < width →
      written.cell? row (column + Text.displayWidth (String.ofList before) + k) = some .covered
  /-- A blank takes the place of what the text leaves of a character before it or after it. -/
  others : ∀ i j, ¬(i = row ∧ column ≤ j ∧ j < column + Text.displayWidth s) →
    written.cell? i j =
      if i = row ∧ s ≠ "" ∧ (j + 1 = column ∧ g.cell? i column = some .covered ∨
          j = column + Text.displayWidth s ∧ g.cell? i j = some .covered)
        then some .blank else g.cell? i j

theorem written_write (g : Grid width height) (row column : Nat) (s : String) :
    g.Written row column s (g.write row column s) where
  shown before c after split inside fits := by
    have first := cell?_write_char (g := g) inside split (Text.columns_pos c) fits
    rwa [if_pos rfl, Nat.add_zero] at first
  covered before c after split inside k positive within fits := by
    have next := cell?_write_char (g := g) inside split within fits
    rwa [if_neg positive.ne'] at next
  others i j outside := by
    rw [← Cell.length_ofText] at outside ⊢
    simp only [write, cell?_mapRow_write g outside, ne_eq, Cell.ofText_eq_nil_iff]

/-- Writing a text whose columns can be counted puts each of its characters into its own cell, drops
what lies beyond the end of the row, and changes another cell only if its character loses the rest.
Writing any other text has no result. -/
theorem written_exactly (g : Grid width height) (row column : UInt64) (s : String) :
    (column.toNat + Text.displayWidth s ≤ UInt64.size →
      ∃ written, g.writeWord row.toNat column.toNat s = some written ∧
        g.Written row.toNat column.toNat s written) ∧
    (UInt64.size < column.toNat + Text.displayWidth s →
      g.writeWord row.toNat column.toNat s = none) := by
  rw [writeWord_eq]
  constructor
  · intro countable
    exact ⟨_, if_pos countable, written_write g ..⟩
  · intro further
    exact if_neg (Nat.not_le_of_lt further)

/-- A wide character is cut by a text that is cut itself. The last two columns that can be counted
have room for another one, which is dropped, and the last one alone has not. -/
theorem written_exactly_cut :
    let g : Grid 6 1 := (blank 6 1).write 0 0 "日本語"
    let last : UInt64 := 18446744073709551615
    (3 : UInt64).toNat + Text.displayWidth "a世b" ≤ UInt64.size ∧
      (∃ written, g.writeWord 0 3 "a世b" = some written ∧ written.lines = ["日 a世".toList] ∧
        written.cell? 0 2 = some .blank ∧ written.cell? 0 1 = g.cell? 0 1) ∧
      g.writeWord 0 (last - 1).toNat "世" = some g ∧
      UInt64.size < last.toNat + Text.displayWidth "世" ∧
      g.writeWord 0 last.toNat "世" = none := by
  intro g last
  have countable : (3 : UInt64).toNat + Text.displayWidth "a世b" ≤ UInt64.size := by decide +kernel
  have further : UInt64.size < last.toNat + Text.displayWidth "世" := by decide +kernel
  obtain ⟨written, result, exact⟩ := (written_exactly g 0 3 "a世b").1 countable
  have lines : (g.writeWord 0 3 "a世b").map Grid.lines = some ["日 a世".toList] := by decide +kernel
  rw [show g.writeWord 0 3 "a世b" = some written from result, Option.map_some,
    Option.some.injEq] at lines
  have before := exact.others 0 2 (by decide)
  have far := exact.others 0 1 (by decide)
  exact ⟨countable, ⟨written, result, lines, before.trans (by decide +kernel),
    far.trans (by decide +kernel)⟩, by decide +kernel, further,
    (written_exactly g 0 last "世").2 further⟩

/-- Both characters lie far beyond the end of the row, and yet they are not just dropped. -/
theorem dropped_text_stops :
    let column : UInt64 := 18446744073709551615
    (∀ k < Text.displayWidth "ab", 3 ≤ column.toNat + k) ∧
      (blank 3 1).writeWord 0 column.toNat "ab" = none := by
  decide +kernel

end Grid

end Flowchart
