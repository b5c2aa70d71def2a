import Flowchart.Proofs.Alignment
import Flowchart.Proofs.Trails

/-! What strokes leave of a grid. A stroke writes its own cell, and it blanks a cell beside it whose
character it cuts. It covers no cell. So a cell stays as it is if no stroke is drawn over any part
of its character, and a mark stays until another one is drawn over it. -/
namespace Flowchart

namespace Grid

variable {g : Grid width height} {style : Style} {s : Stroke} {strokes : List Stroke}
  {i j : Nat} {p : Mark → Prop}

/-- A stroke sets the cell that it names, if that has a row and a column at all. -/
theorem plot_cases (g : Grid width height) (style : Style) (s : Stroke) :
    (∃ row column : Nat, s.cell = ((column : Int), (row : Int)) ∧
      g.plot s.x s.y (style.glyph s.mark) = g.set row column (style.glyph s.mark)) ∨
    (∀ i j : Nat, s.cell ≠ ((j : Int), (i : Int))) ∧
      g.plot s.x s.y (style.glyph s.mark) = g := by
  obtain ⟨x, y, mark⟩ := s
  rw [plot]
  split
  · next inside =>
    exact .inl ⟨y.toNat, x.toNat, by simp [Stroke.cell, inside], rfl⟩
  · next outside =>
    refine .inr ⟨fun i j here => outside ?_, rfl⟩
    obtain ⟨rfl, rfl⟩ := Prod.mk.inj here
    exact ⟨Int.natCast_nonneg j, Int.natCast_nonneg i⟩

theorem cell?_set_glyph (g : Grid width height) (style : Style) (mark : Mark)
    (row column i j : Nat) :
    (g.set row column (style.glyph mark)).cell? i j =
      if i = row ∧ j = column ∧ row < height ∧ column < width then
        some (.shown (style.glyph mark))
      else if i = row ∧ j + 1 = column ∧ g.cell? row column = some .covered then some .blank
      else if i = row ∧ j = column + 1 ∧ g.cell? i j = some .covered then some .blank
      else g.cell? i j := by
  rw [cell?_set, Cell.ofChar, if_neg (style.glyph_plain mark).2.1]

theorem covered_of_covered_plot
    (here : (g.plot s.x s.y (style.glyph s.mark)).cell? i j = some .covered) :
    g.cell? i j = some .covered := by
  rcases g.plot_cases style s with ⟨row, column, _, set⟩ | ⟨_, same⟩
  · rw [set, cell?_set_glyph] at here
    split at here
    · cases here
    · split at here
      · cases here
      · split at here
        · cases here
        · exact here
  · rwa [same] at here

theorem covered_of_covered_trace (here : (g.trace style strokes).cell? i j = some .covered) :
    g.cell? i j = some .covered := by
  induction strokes generalizing g with
  | nil => exact here
  | cons s strokes ih => exact covered_of_covered_plot (ih here)

/-- Rows without strokes stay as they are. -/
theorem cell?_trace_of_row (apart : ∀ s ∈ strokes, s.y ≠ i) :
    (g.trace style strokes).cell? i j = g.cell? i j := by
  induction strokes generalizing g with
  | nil => rfl
  | cons s strokes ih =>
    have kept : (g.plot s.x s.y (style.glyph s.mark)).cell? i j = g.cell? i j := by
      rcases g.plot_cases style s with ⟨row, column, place, set⟩ | ⟨_, same⟩
      · have other : i ≠ row := fun same =>
          apart s List.mem_cons_self (same ▸ (Prod.mk.inj place).2)
        rw [set, cell?_set_glyph]
        simp only [other, false_and, if_false]
      · rw [same]
    exact (ih fun t member => apart t (List.mem_cons_of_mem s member)).trans kept

/-- A cell of a row belongs to the character that is in another one. -/
def Shares (g : Grid width height) (i j k : Nat) : Prop :=
  k = j ∨ k + 1 = j ∧ g.cell? i j = some .covered ∨ k = j + 1 ∧ g.cell? i k = some .covered

theorem cell?_plot_of_shares
    (apart : ∀ k : Nat, g.Shares i j k → s.cell ≠ ((k : Int), (i : Int))) :
    (g.plot s.x s.y (style.glyph s.mark)).cell? i j = g.cell? i j := by
  rcases g.plot_cases style s with ⟨row, column, place, set⟩ | ⟨_, same⟩
  · rw [set, cell?_set_glyph]
    have other (same : i = row) (shared : g.Shares i j column) : False :=
      apart column shared (same ▸ place)
    split
    · next here => exact (other here.1 (.inl here.2.1.symm)).elim
    · split
      · next cut => exact (other cut.1 (.inr (.inr ⟨cut.2.1.symm, cut.1 ▸ cut.2.2⟩))).elim
      · split
        · next cut => exact (other cut.1 (.inr (.inl ⟨cut.2.1.symm, cut.2.2⟩))).elim
        · rfl
  · rw [same]

/-- Cells with no stroke in any part of their character stay as they are. -/
theorem cell?_trace_of_shares
    (apart : ∀ s ∈ strokes, ∀ k : Nat, g.Shares i j k → s.cell ≠ ((k : Int), (i : Int))) :
    (g.trace style strokes).cell? i j = g.cell? i j := by
  induction strokes generalizing g with
  | nil => rfl
  | cons s strokes ih =>
    refine (ih fun t member k shared => ?_).trans
      (cell?_plot_of_shares (apart s List.mem_cons_self))
    refine apart t (List.mem_cons_of_mem s member) k ?_
    exact shared.imp_right (.imp (.imp_right covered_of_covered_plot)
      (.imp_right covered_of_covered_plot))

/-- A cell shows one of some marks, and no character reaches from it into the next cell. -/
structure Shows (g : Grid width height) (style : Style) (i j : Nat) (p : Mark → Prop) : Prop where
  mark : ∃ mark, p mark ∧ g.cell? i j = some (.shown (style.glyph mark))
  whole : g.cell? i (j + 1) ≠ some .covered

theorem lt_of_cell?_eq_some {cell : Cell} (here : g.cell? i j = some cell) :
    i < height ∧ j < width := by
  obtain ⟨row, found, here⟩ := Option.bind_eq_some_iff.mp here
  exact ⟨(Vector.getElem?_eq_some_iff.mp found).1, (Vector.getElem?_eq_some_iff.mp here).1⟩

theorem shows_plot (here : s.cell = ((j : Int), (i : Int))) (row : i < height) (column : j < width)
    (fits : p s.mark) : (g.plot s.x s.y (style.glyph s.mark)).Shows style i j p := by
  rcases g.plot_cases style s with ⟨row', column', place, set⟩ | ⟨nowhere, _⟩
  · obtain ⟨rfl, rfl⟩ : column' = j ∧ row' = i := by
      have same := Prod.mk.inj (place.symm.trans here)
      omega
    rw [set]
    refine ⟨⟨s.mark, fits, ?_⟩, ?_⟩ <;> rw [cell?_set_glyph]
    · simp [row, column]
    · split
      · simp
      · split
        · simp [Cell.blank]
        · split
          · simp [Cell.blank]
          · next uncovered => exact fun covered => uncovered ⟨rfl, rfl, covered⟩
  · exact absurd here (nowhere i j)

namespace Shows

theorem plot (shows : g.Shows style i j p) (each : s.cell = ((j : Int), (i : Int)) → p s.mark) :
    (g.plot s.x s.y (style.glyph s.mark)).Shows style i j p := by
  obtain ⟨mark, fits, shown⟩ := shows.mark
  by_cases here : s.cell = ((j : Int), (i : Int))
  · obtain ⟨row, column⟩ := lt_of_cell?_eq_some shown
    exact shows_plot here row column (each here)
  · refine ⟨⟨mark, fits, ?_⟩, mt covered_of_covered_plot shows.whole⟩
    rw [cell?_plot_of_shares, shown]
    rintro k (rfl | ⟨_, covered⟩ | ⟨rfl, covered⟩)
    · exact here
    · cases shown.symm.trans covered
    · exact absurd covered shows.whole

theorem trace (shows : g.Shows style i j p)
    (each : ∀ s ∈ strokes, s.cell = ((j : Int), (i : Int)) → p s.mark) :
    (g.trace style strokes).Shows style i j p := by
  induction strokes generalizing g with
  | nil => exact shows
  | cons s strokes ih =>
    exact ih (shows.plot (each s List.mem_cons_self)) fun t member =>
      each t (List.mem_cons_of_mem s member)

end Shows

/-- A cell shows what was drawn there last. -/
theorem shows_trace {before after : List Stroke} (here : s.cell = ((j : Int), (i : Int)))
    (row : i < height) (column : j < width) (fits : p s.mark)
    (each : ∀ t ∈ after, t.cell = ((j : Int), (i : Int)) → p t.mark) :
    (g.trace style (before ++ s :: after)).Shows style i j p := by
  have drawn : ((g.trace style before).plot s.x s.y (style.glyph s.mark)).Shows style i j p :=
    shows_plot here row column fits
  rw [trace, List.foldl_append]
  exact drawn.trace each

end Grid

end Flowchart
