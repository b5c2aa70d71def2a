import Flowchart.Text.Lines
import Flowchart.Text.Word
import Mathlib.Data.List.TakeWhile

/-! Cutting a text where a class of characters ends. A run of a class is as long as it can be if
what follows does not go on with the class, and then the cut is the only one. The classes that
meet in a line are apart: no word character is blank, and none is a bracket or part of an arrow. -/
namespace Flowchart.Text

namespace Ranges

/-- No range of one table meets a range of the other. -/
def disjoint (a b : Ranges) : Bool :=
  a.all fun range => b.all fun other => range.2 < other.1 || other.2 < range.1

theorem contains_eq_false_of_disjoint {a b : Ranges} (left : a.ascending) (right : b.ascending)
    (apart : a.disjoint b) {code : Nat} (inside : a.contains code) : b.contains code = false := by
  obtain ⟨range, member, low, high⟩ := (contains_iff left code).mp inside
  apply Bool.eq_false_iff.mpr
  intro also
  obtain ⟨other, member', low', high'⟩ := (contains_iff right code).mp also
  have cut := List.all_eq_true.mp (List.all_eq_true.mp apart range member) other member'
  simp only [Bool.or_eq_true, decide_eq_true_eq] at cut
  omega

end Ranges

theorem isBlank_eq_false_of_isWord {c : Char} (word : isWord c) : isBlank c = false := by
  simp only [isWord, Bool.or_eq_true, decide_eq_true_eq] at word
  rcases word with rfl | letter
  · decide
  · have apart : alphanumeric.disjoint blank := by decide +kernel
    exact Ranges.contains_eq_false_of_disjoint alphanumeric_ascending blank_ascending apart letter

theorem isGap_eq_false_of_isWord {c : Char} (word : isWord c) : isGap c = false := by
  apply Bool.eq_false_iff.mpr
  intro gap
  have blank := isBlank_of_isGap gap
  rw [isBlank_eq_false_of_isWord word] at blank
  contradiction

/-- The characters with a meaning of their own in a line belong to no word. -/
theorem isWord_eq_false_of_mark {c : Char} (mark : c ∈ ['[', ']', '-', '%']) :
    isWord c = false := by
  simp only [List.mem_cons, List.not_mem_nil, or_false] at mark
  rcases mark with rfl | rfl | rfl | rfl <;> decide +kernel

theorem not_mem_of_forall {p : Char → Bool} {cs : List Char} {c : Char} (all : ∀ c ∈ cs, p c)
    (other : p c = false) : c ∉ cs := by
  intro member
  rw [all c member] at other
  contradiction

theorem isWord_newline : isWord '\n' = false := by decide +kernel

/-- A text does not begin with a character of a class. -/
def Stops (p : Char → Bool) (cs : List Char) : Prop := ∀ c ∈ cs.head?, p c = false

@[simp] theorem stops_nil (p : Char → Bool) : Stops p [] := by simp [Stops]

@[simp] theorem stops_cons {p : Char → Bool} {c : Char} {cs : List Char} :
    Stops p (c :: cs) ↔ p c = false := by simp [Stops]

instance (p : Char → Bool) : (cs : List Char) → Decidable (Stops p cs)
  | [] => .isTrue (stops_nil p)
  | _ :: _ => decidable_of_iff _ stops_cons.symm

section Runs

variable {p : Char → Bool} {run rest run' rest' : List Char}

theorem takeWhile_append_of_stops (all : ∀ c ∈ run, p c) (stops : Stops p rest) :
    (run ++ rest).takeWhile p = run := by
  rw [List.takeWhile_append_of_pos all]
  cases rest with
  | nil => simp
  | cons c cs => simp [stops_cons.mp stops]

theorem dropWhile_eq_self_of_stops (stops : Stops p rest) : rest.dropWhile p = rest := by
  cases rest with
  | nil => rfl
  | cons c cs => simp [stops_cons.mp stops]

theorem dropWhile_append_of_stops (all : ∀ c ∈ run, p c) (stops : Stops p rest) :
    (run ++ rest).dropWhile p = rest := by
  rw [List.dropWhile_append_of_pos all, dropWhile_eq_self_of_stops stops]

/-- A text is cut in one way into a run of a class and a rest that does not go on with it. -/
theorem run_append_inj (all : ∀ c ∈ run, p c) (all' : ∀ c ∈ run', p c) (stops : Stops p rest)
    (stops' : Stops p rest') (same : run ++ rest = run' ++ rest') : run = run' ∧ rest = rest' := by
  constructor
  · rw [← takeWhile_append_of_stops all stops, same, takeWhile_append_of_stops all' stops']
  · rw [← dropWhile_append_of_stops all stops, same, dropWhile_append_of_stops all' stops']

end Runs

theorem stops_reverse_append {p : Char → Bool} {ys : List Char} (xs : List Char)
    (nonempty : ys ≠ []) (last : Stops p ys.reverse) : Stops p (xs ++ ys).reverse := by
  rw [List.reverse_append]
  cases turned : ys.reverse with
  | nil => exact absurd (List.reverse_eq_nil_iff.mp turned) nonempty
  | cons c cs =>
    rw [turned, stops_cons] at last
    exact stops_cons.mpr last

/-- No end of a text is blank. -/
structure Trimmed (cs : List Char) : Prop where
  first : Stops isBlank cs
  last : Stops isBlank cs.reverse

theorem Trimmed.trim_eq {cs : List Char} (trimmed : Trimmed cs) : trim cs = cs := by
  rw [trim, trimStart, trimEnd, dropWhile_eq_self_of_stops trimmed.first,
    dropWhile_eq_self_of_stops trimmed.last, List.reverse_reverse]

theorem isContent_iff (line : Line) :
    line.isContent ↔ line.text ≠ [] ∧ ¬ ['%', '%'] <+: line.text := by
  unfold Line.isContent
  split
  · next empty => simp [empty]
  · next rest comment => simp [comment]
  · next nonempty other =>
    simp only [true_iff]
    refine ⟨nonempty, ?_⟩
    rintro ⟨rest, same⟩
    exact other rest same.symm

end Flowchart.Text
