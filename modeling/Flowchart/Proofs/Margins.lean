import Flowchart.Document
import Flowchart.Proofs.Labels
import Flowchart.Proofs.Trimming
import Mathlib.Data.List.Forall2

/-! Sources that differ in their layout alone. Between the lines of a source there may be blank
lines and comments, around each line there may be blanks, and a carriage return may stand before
every line feed. All of this changes neither the chart that is read nor what a refusal says, but for
the number of its line: that one grows by the lines that were put above. -/
namespace Flowchart

namespace Text

/-- A line that is not read, being blank or a comment. -/
structure Skipped (cs : List Char) : Prop where
  one_line : '\n' ∉ cs
  blank_or_comment : trim cs = [] ∨ ['%', '%'] <+: trim cs

/-- What is put around a line: lines above it, and blanks at its ends. -/
structure Margin where
  above : List (List Char)
  before : List Char
  after : List Char
  skipped : ∀ cs ∈ above, Skipped cs
  blank_before : ∀ c ∈ before, isBlank c ∧ c ≠ '\n'
  blank_after : ∀ c ∈ after, isBlank c ∧ c ≠ '\n'

/-- What is put around the lines of a source: a margin for each line number, and lines at the end. -/
structure Layout where
  margin : Nat → Margin
  below : List (List Char)
  skipped : ∀ cs ∈ below, Skipped cs
  /-- A carriage return is put before every line feed. -/
  returns : Bool

namespace Layout

/-- Puts margins around lines that are numbered from `n` on. -/
def surround (layout : Layout) (n : Nat) : List (List Char) → List (List Char)
  | [] => layout.below
  | cs :: rest =>
    let margin := layout.margin n
    margin.above ++ (margin.before ++ (cs ++ margin.after)) :: layout.surround (n + 1) rest

/-- The lines that are put above line `n` or further up. -/
def added (layout : Layout) : Nat → Nat
  | 0 => 0
  | n + 1 => layout.added n + (layout.margin (n + 1)).above.length

def addReturns (cs : List Char) : List Char :=
  cs.flatMap fun c => if c = '\n' then ['\r', '\n'] else [c]

/-- The source with everything put around its lines. -/
def apply (layout : Layout) (source : String) : String :=
  let cs := List.intercalate ['\n'] (layout.surround 1 (source.toList.splitOn '\n'))
  String.ofList (if layout.returns then addReturns cs else cs)

end Layout

/-- The line with its number moved down. -/
def Line.moved (added : Nat → Nat) (line : Line) : Line :=
  ⟨line.number + added line.number, line.text⟩

/-- The content among lines that are numbered from `n` on. -/
def content (n : Nat) (ls : List (List Char)) : List Line :=
  ((ls.zipIdx n).map fun (text, number) => ⟨number, trim text⟩).filter Line.isContent

theorem contentLines_eq (source : String) :
    contentLines source = content 1 (source.toList.splitOn '\n') := rfl

theorem content_append (n : Nat) (ls ls' : List (List Char)) :
    content n (ls ++ ls') = content n ls ++ content (n + ls.length) ls' := by
  simp [content, List.zipIdx_append]

theorem content_cons (n : Nat) (cs : List Char) (ls : List (List Char)) :
    content n (cs :: ls) = [Line.mk n (trim cs)].filter Line.isContent ++ content (n + 1) ls :=
  content_append n [cs] ls

theorem content_eq_nil {ls : List (List Char)} (skipped : ∀ cs ∈ ls, Skipped cs) (n : Nat) :
    content n ls = [] := by
  rw [content, List.filter_eq_nil_iff, List.forall_mem_map]
  intro (cs, number) member
  rw [isContent_iff]
  rintro ⟨content, read⟩
  rcases (skipped cs (List.fst_mem_of_mem_zipIdx member)).blank_or_comment with blank | comment
  · exact content blank
  · exact read comment

theorem content_congr {ls ls' : List (List Char)} (same : ls.map trim = ls'.map trim) (n : Nat) :
    content n ls = content n ls' := by
  have trimmed (ls : List (List Char)) : content n ls =
      (((ls.map trim).zipIdx n).map fun (text, number) => Line.mk number text).filter
        Line.isContent := by
    rw [content, List.zipIdx_map, List.map_map]
    rfl
  rw [trimmed, trimmed, same]

namespace Layout

variable (layout : Layout)

/-- Every content line is found again, below what has been put above it. -/
theorem content_surround (n : Nat) (ls : List (List Char)) :
    content (n + 1 + layout.added n) (layout.surround (n + 1) ls) =
      (content (n + 1) ls).map (Line.moved layout.added) := by
  induction ls generalizing n with
  | nil => exact content_eq_nil layout.skipped _
  | cons cs ls ih =>
    -- The lines above this one are skipped but counted, and its own blanks are trimmed off.
    let margin := layout.margin (n + 1)
    have number : n + 1 + layout.added n + margin.above.length = n + 1 + layout.added (n + 1) :=
      Nat.add_assoc _ _ _
    have text : trim (margin.before ++ (cs ++ margin.after)) = trim cs :=
      trim_surrounded (fun c member => (margin.blank_before c member).1)
        (fun c member => (margin.blank_after c member).1) cs
    have line : [Line.mk (n + 1 + layout.added (n + 1)) (trim cs)].filter Line.isContent =
        ([Line.mk (n + 1) (trim cs)].filter Line.isContent).map (Line.moved layout.added) :=
      List.filter_map (f := Line.moved layout.added) (l := [Line.mk (n + 1) (trim cs)])
    rw [surround, content_append, content_eq_nil margin.skipped, List.nil_append, number,
      content_cons, text, line, Nat.add_right_comm, ih, content_cons, List.map_append]

theorem not_mem_surround {ls : List (List Char)} (one_line : ∀ cs ∈ ls, '\n' ∉ cs) (n : Nat) :
    ∀ cs ∈ layout.surround n ls, '\n' ∉ cs := by
  induction ls generalizing n with
  | nil => exact fun cs member => (layout.skipped cs member).one_line
  | cons cs ls ih =>
    let margin := layout.margin n
    have later := ih (fun cs' member => one_line cs' (List.mem_cons_of_mem cs member)) (n + 1)
    rw [surround]
    intro cs' member
    rcases List.mem_append.mp member with above | rest
    · exact (margin.skipped cs' above).one_line
    · rcases List.mem_cons.mp rest with rfl | below
      · intro inside
        rcases List.mem_append.mp inside with before | inside
        · exact (margin.blank_before _ before).2 rfl
        · rcases List.mem_append.mp inside with here | after
          · exact one_line cs List.mem_cons_self here
          · exact (margin.blank_after _ after).2 rfl
      · exact later cs' below

theorem surround_ne_nil {ls : List (List Char)} (nonempty : ls ≠ []) (n : Nat) :
    layout.surround n ls ≠ [] := by
  cases ls with
  | nil => exact absurd rfl nonempty
  | cons cs ls => simp [surround]

/-- Each line gets a carriage return at its end, but for the last one. -/
theorem forall₂_splitOn_addReturns (cs : List Char) :
    List.Forall₂ (fun l l' => l' = l ∨ l' = l ++ ['\r']) (cs.splitOn '\n')
      ((addReturns cs).splitOn '\n') := by
  induction cs with
  | nil => exact .cons (.inl rfl) .nil
  | cons c cs ih =>
    by_cases feed : c = '\n'
    · subst feed
      have more : addReturns ('\n' :: cs) = '\r' :: '\n' :: addReturns cs := rfl
      -- The carriage return is all that stands in the line that ends here.
      simp only [more, List.splitOn_cons_eq_if_modifyHead]
      exact .cons (.inr rfl) ih
    · have same : addReturns (c :: cs) = c :: addReturns cs := by simp [addReturns, feed]
      have other : ¬ (c == '\n') = true := by simpa using feed
      rw [same, List.splitOn_cons_eq_if_modifyHead, List.splitOn_cons_eq_if_modifyHead,
        if_neg other, if_neg other]
      generalize cs.splitOn '\n' = ls at ih ⊢
      generalize (addReturns cs).splitOn '\n' = ls' at ih ⊢
      cases ih with
      | nil => exact .nil
      | cons first rest =>
        refine .cons ?_ rest
        rcases first with rfl | rfl
        · exact .inl rfl
        · exact .inr rfl

theorem map_trim_splitOn_addReturns (cs : List Char) :
    ((addReturns cs).splitOn '\n').map trim = (cs.splitOn '\n').map trim := by
  have trimmed (l : List Char) : trim (l ++ ['\r']) = trim l :=
    trim_surrounded (List.forall_mem_nil _) (List.forall_mem_singleton.mpr (by decide)) l
  have same : List.Forall₂ (fun l l' => trim l = trim l') (cs.splitOn '\n')
      ((addReturns cs).splitOn '\n') := by
    refine (forall₂_splitOn_addReturns cs).imp ?_
    rintro l _ (rfl | rfl)
    · rfl
    · exact (trimmed l).symm
  have mapped := List.forall₂_map_left_iff.mpr (List.forall₂_map_right_iff.mpr same)
  rw [List.forall₂_eq_eq_eq] at mapped
  exact mapped.symm

theorem contentLines_apply (source : String) :
    contentLines (layout.apply source) = (contentLines source).map (Line.moved layout.added) := by
  have one_line : ∀ cs ∈ source.toList.splitOn '\n', '\n' ∉ cs := fun _ => not_mem_of_mem_splitOn
  have split := List.splitOn_intercalate '\n' (layout.not_mem_surround one_line 1)
    (layout.surround_ne_nil (List.splitOn_ne_nil '\n' _) 1)
  have moved := layout.content_surround 0 (source.toList.splitOn '\n')
  rw [apply, contentLines_eq, contentLines_eq, String.toList_ofList, ← moved]
  split
  · rw [content_congr (map_trim_splitOn_addReturns _), split]
    rfl
  · rw [split]
    rfl

end Layout

end Text

/-- The same refusal, with the number of its line moved down. -/
def ReadError.moved (added : Nat → Nat) : ReadError → ReadError
  | emptyInput => emptyInput
  | unsupportedDiagram line suggestion => unsupportedDiagram (line + added line) suggestion
  | invalidSyntax line text suggestion => invalidSyntax (line + added line) text suggestion

theorem mapM_map_eq_mapError {f : α → Except ε β} {g : α → α} {h : ε → ε}
    (same : ∀ x, f (g x) = (f x).mapError h) (xs : List α) :
    (xs.map g).mapM f = (xs.mapM f).mapError h := by
  induction xs with
  | nil => rfl
  | cons x xs ih =>
    rw [List.map_cons, List.mapM_cons, List.mapM_cons, same, ih]
    cases f x with
    | error e => rfl
    | ok y => cases xs.mapM f <;> rfl

variable (added : Nat → Nat)

theorem Statement.read_moved (line : Text.Line) :
    read (line.moved added) = (read line).mapError (.moved added) := by
  have blamed : blame (line.moved added) = (blame line).moved added := by
    simp only [blame, Text.Line.moved]
    cases badPiece? line.text <;> rfl
  simp only [read, blamed]
  simp only [Text.Line.moved]
  cases ofText? line.text <;> rfl

/-- What is read depends on the content lines, and their numbers are used for refusals only. -/
theorem Document.read_of_moved {source other : String}
    (moved : Text.contentLines other = (Text.contentLines source).map (.moved added)) :
    read other = (read source).mapError (.moved added) := by
  rw [read, read, moved]
  cases Text.contentLines source with
  | nil => rfl
  | cons header body =>
    simp only [List.map_cons, mapM_map_eq_mapError (Statement.read_moved added)]
    simp only [Text.Line.moved]
    cases Header.read? header.text with
    | none => rfl
    | some direction => cases body.mapM Statement.read <;> rfl

/-- Lines that are blank or comments, blanks around lines, and carriage returns do not matter: the
same chart is read, or else the source is refused in the same words, with the number of its line
moved by the lines that have been put above it. -/
theorem Chart.read_apply (layout : Text.Layout) (source : String) :
    read (layout.apply source) = (read source).mapError (.moved layout.added) := by
  have same := Document.read_of_moved layout.added (layout.contentLines_apply source)
  rw [read, read, same]
  cases Document.read source <;> rfl

/-- A comment above the second line, which is indented. -/
example :
    let plain : Text.Margin := ⟨[], [], [], by simp, by simp, by simp⟩
    let noted : Text.Margin :=
      ⟨["%% note".toList], ['\t'], [' '],
        List.forall_mem_singleton.mpr ⟨by decide, .inr (by decide)⟩,
        List.forall_mem_singleton.mpr (by decide), List.forall_mem_singleton.mpr (by decide)⟩
    let layout : Text.Layout := ⟨fun n => if n = 2 then noted else plain, [], by simp, true⟩
    layout.apply "flowchart LR\nA --> B(" = "flowchart LR\r\n%% note\r\n\tA --> B( " ∧
      layout.added 1 = 0 ∧ layout.added 2 = 1 := by
  decide +kernel

end Flowchart
