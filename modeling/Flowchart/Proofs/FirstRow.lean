import Flowchart.CommandLine
import Flowchart.Proofs.Alignment

/-! How a drawing starts. A label is written below the top of its box, so the first row of a drawing
holds nothing but marks and blanks, whatever the labels say and wherever the edges run. No drawing
is therefore taken for a failure, and the exit code tells whether a source was read. -/
namespace Flowchart

namespace Grid

/-- The first row shows nothing but marks and blanks. -/
def Topped (style : Style) (g : Grid width height) : Prop :=
  ∀ column cell, g.cell? 0 column = some cell →
    cell = .blank ∨ ∃ mark, cell = .shown (style.glyph mark)

theorem topped_blank (style : Style) : (blank width height).Topped style := by
  intro column cell here
  rw [cell?_blank] at here
  split at here
  · exact .inl (Option.some.inj here).symm
  · cases here

namespace Topped

variable {style : Style} {g : Grid width height}

theorem plot (topped : g.Topped style) (s : Stroke) :
    (g.plot s.x s.y (style.glyph s.mark)).Topped style := by
  rw [Grid.plot]
  split
  · intro column cell here
    rw [cell?_set] at here
    split at here
    · rw [Cell.ofChar, if_neg (style.glyph_plain s.mark).2.1] at here
      exact .inr ⟨s.mark, (Option.some.inj here).symm⟩
    · split at here
      · exact .inl (Option.some.inj here).symm
      · split at here
        · exact .inl (Option.some.inj here).symm
        · exact topped column cell here
  · exact topped

theorem trace (topped : g.Topped style) (strokes : List Stroke) :
    (g.trace style strokes).Topped style := by
  rw [Grid.trace]
  induction strokes generalizing g with
  | nil => exact topped
  | cons s strokes ih => exact ih (topped.plot s)

theorem write (topped : g.Topped style) (row column : Nat) (s : String) :
    (g.write (row + 1) column s).Topped style := by
  intro j cell here
  rw [Grid.write, cell?_mapRow, if_neg (Nat.succ_ne_zero row).symm] at here
  exact topped j cell here

/-- A drawing starts with a mark or a blank, or with the end of an empty row. -/
theorem head?_render (topped : g.Topped style) {c : Char} (head : g.render.toList.head? = some c) :
    c = '\n' ∨ c = ' ' ∨ ∃ mark, c = style.glyph mark := by
  rw [render, String.toList_ofList, lines] at head
  cases rows : g.rows.toList with
  | nil => simp [rows] at head
  | cons row rest =>
    have top : g.rows[0]? = some row := by rw [← Vector.getElem?_toList, rows]; rfl
    have shown (member : c ∈ row.text) : c = ' ' ∨ ∃ mark, c = style.glyph mark := by
      obtain ⟨cell, inside, shows⟩ := List.mem_filterMap.mp member
      obtain ⟨column, here⟩ := List.mem_iff_getElem?.mp inside
      have topmost : g.cell? 0 column = some cell := by
        rw [cell?, top, Option.bind_some, ← Vector.getElem?_toList, here]
      rcases topped column cell topmost with rfl | ⟨mark, rfl⟩
      · exact .inl (Option.some.inj shows).symm
      · exact .inr ⟨mark, (Option.some.inj shows).symm⟩
    cases rest with
    | nil =>
      rw [rows, List.map_singleton, List.intercalate_singleton] at head
      exact .inr (shown (List.mem_of_mem_head? head))
    | cons next rest =>
      rw [rows, List.map_cons, List.map_cons, List.intercalate_cons_cons, List.append_assoc,
        List.head?_append] at head
      cases text : row.text with
      | nil =>
        rw [text] at head
        exact .inl (Option.some.inj head).symm
      | cons first others =>
        rw [text] at head
        obtain rfl := Option.some.inj head
        exact .inr (shown (by simp [text]))

end Topped

end Grid

theorem Box.topped_draw {g : Grid columns rows} {style : Style} (topped : g.Topped style) (b : Box)
    (label : String) : (b.draw style g label).Topped style :=
  (topped.trace b.frame).write b.y _ label

namespace Chart

theorem topped_grid (c : Chart) (style : Style) : (c.grid style).Topped style := by
  have boxes : (c.boxLayer style).Topped style := by
    refine List.foldlRecOn c.nodes _ (Grid.topped_blank style) fun g topped n _ => ?_
    split
    · next box _ => exact box.topped_draw topped n.label
    · exact topped
  exact List.foldlRecOn c.routes _ boxes fun g topped strokes _ => topped.trace strokes

/-- A failure starts with a letter, and a drawing does not. -/
theorem not_failureMark_draw (c : Chart) (style : Style) :
    ¬ failureMark.toList <+: (c.draw style).toList := by
  rintro ⟨rest, same⟩
  have head : (c.draw style).toList.head? = some 'E' := by
    rw [← same]
    rfl
  rcases (c.topped_grid style).head?_render head with line | blank | ⟨mark, glyph⟩
  · cases line
  · cases blank
  · revert glyph
    cases mark with
    | arrow side => cases style <;> cases side <;> decide
    | _ => cases style <;> decide

end Chart

theorem failureMark_present_iff (options : Options) (source : String) :
    failureMark.toList <+: (present options source).toList ↔ ∃ e, Chart.read source = .error e := by
  unfold present render
  cases Chart.read source with
  | ok c => simpa [Except.map] using c.arrange.not_failureMark_draw options.style
  | error e => simp [Except.map]

namespace CommandLine

/-- Of the two exit codes of a run that has read a text, the one that tells what became of it. -/
theorem Settings.exit_outcome (settings : Settings) {bytes : ByteArray} {source : String}
    (readable : String.fromUTF8? bytes = some source) :
    (settings.outcome (.ok bytes)).exit =
      match Chart.read source with
      | .ok _ => 0
      | .error _ => 1 := by
  have marked := failureMark_present_iff settings.options source
  simp only [outcome, readable, Outcome.ofText, List.isPrefixOf_iff_prefix]
  cases read : Chart.read source with
  | ok c => rw [if_neg (by simp [marked, read])]
  | error e => rw [if_pos (by simp [marked, read])]

/-- The text for a source starts with the mark of a failure if and only if the source is refused.
So once a run has read a text, its exit code is one if that is refused and zero if not, for all
arguments that ask for a drawing and wherever the bytes come from. -/
theorem failure_iff_refused (source : String) :
    (∀ options, failureMark.toList <+: (present options source).toList ↔
      ∃ e, Chart.read source = .error e) ∧
    ∀ settings bytes, String.fromUTF8? bytes = some source →
      ((Settings.outcome settings (.ok bytes)).exit = 1 ↔ ∃ e, Chart.read source = .error e) ∧
      ((Settings.outcome settings (.ok bytes)).exit = 0 ↔ ∃ c, Chart.read source = .ok c) ∧
      ∀ (m : Type → Type) [Monad m] (input : Option String → m (Except String ByteArray)) args,
        parse args = .ok (.draw settings) →
          run input args = (do return settings.outcome (← input settings.file)) := by
  refine ⟨fun options => failureMark_present_iff options source,
    fun settings bytes readable => ⟨?_, ?_, fun m _ input args parsed => ?_⟩⟩
  · rw [settings.exit_outcome readable]
    cases Chart.read source <;> simp
  · rw [settings.exit_outcome readable]
    cases Chart.read source <;> simp
  · rw [run, parsed]

/-- A node that is labelled like an error. -/
theorem failure_iff_refused_labelled :
    let source := "flowchart TB\nA[Error: x]"
    let settings : Settings := .default
    String.fromUTF8? source.toUTF8 = some source ∧ parse [] = .ok (.draw settings) ∧
      (∃ c, Chart.read source = .ok c) ∧ (settings.outcome (.ok source.toUTF8)).exit = 0 ∧
      run (m := Id) (fun _ => .ok source.toUTF8) [] = settings.outcome (.ok source.toUTF8) := by
  intro source settings
  have readable : String.fromUTF8? source.toUTF8 = some source := by decide +kernel
  have accepted : ∃ c, Chart.read source = .ok c :=
    ⟨⟨.topBottom, [⟨"A", "Error: x", none⟩], [], by decide⟩, by decide +kernel⟩
  obtain ⟨_, success, drawn⟩ := (failure_iff_refused source).2 settings source.toUTF8 readable
  exact ⟨readable, rfl, accepted, success.mpr accepted,
    drawn Id (fun _ => .ok source.toUTF8) [] rfl⟩

end CommandLine

end Flowchart
