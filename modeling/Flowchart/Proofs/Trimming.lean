import Flowchart.Proofs.Scanning

/-! What trimming takes away. A text is made of blanks, the trimmed text and blanks again, and more
blanks at its ends do not change what is left. -/
namespace Flowchart.Text

def blanksBefore (cs : List Char) : List Char := cs.takeWhile isBlank

def blanksAfter (cs : List Char) : List Char := ((trimStart cs).reverse.takeWhile isBlank).reverse

/-- The blank characters that trimming takes away at both ends of a text. -/
def trimmedOff (cs : List Char) : List Char := blanksBefore cs ++ blanksAfter cs

theorem blanksBefore_append (cs : List Char) :
    blanksBefore cs ++ (trim cs ++ blanksAfter cs) = cs := by
  have start : trim cs ++ blanksAfter cs = trimStart cs := by
    rw [trim, trimEnd, blanksAfter, ← List.reverse_append, List.takeWhile_append_dropWhile,
      List.reverse_reverse]
  rw [start, blanksBefore, trimStart, List.takeWhile_append_dropWhile]

theorem trim_isInfix (cs : List Char) : trim cs <:+: cs :=
  ⟨blanksBefore cs, blanksAfter cs, by rw [List.append_assoc, blanksBefore_append]⟩

theorem isBlank_blanksBefore (cs : List Char) : ∀ c ∈ blanksBefore cs, isBlank c :=
  fun _ => List.mem_takeWhile_imp

theorem isBlank_blanksAfter (cs : List Char) : ∀ c ∈ blanksAfter cs, isBlank c :=
  fun _ member => List.mem_takeWhile_imp (List.mem_reverse.mp member)

/-- Trimming keeps every character that is not blank. -/
theorem mem_trim_iff {cs : List Char} {c : Char} (visible : isBlank c = false) :
    c ∈ trim cs ↔ c ∈ cs := by
  have before := not_mem_of_forall (isBlank_blanksBefore cs) visible
  have after := not_mem_of_forall (isBlank_blanksAfter cs) visible
  have whole : c ∈ blanksBefore cs ++ (trim cs ++ blanksAfter cs) ↔ c ∈ cs := by
    rw [blanksBefore_append]
  simpa [before, after] using whole

section Blanks

variable {before after cs : List Char} (blank : ∀ c ∈ before, isBlank c)
  (blank' : ∀ c ∈ after, isBlank c)
include blank blank'

theorem trim_surrounded (cs : List Char) : trim (before ++ (cs ++ after)) = trim cs := by
  have dropped : after.dropWhile isBlank = [] := List.dropWhile_eq_nil_iff.mpr blank'
  rw [trim, trim, trimStart, trimStart, List.dropWhile_append_of_pos blank, List.dropWhile_append]
  split
  · next empty => rw [dropped, List.isEmpty_iff.mp empty]
  · have turned : ∀ c ∈ after.reverse, isBlank c := fun c member =>
      blank' c (List.mem_reverse.mp member)
    rw [trimEnd, trimEnd, List.reverse_append, List.dropWhile_append_of_pos turned]

theorem Trimmed.trim_surrounded (trimmed : Trimmed cs) : trim (before ++ (cs ++ after)) = cs :=
  (Text.trim_surrounded blank blank' cs).trans trimmed.trim_eq

/-- The blanks around a trimmed text are what trimming takes away. -/
theorem Trimmed.trimmedOff_eq (trimmed : Trimmed cs) (nonempty : cs ≠ []) :
    trimmedOff (before ++ (cs ++ after)) = before ++ after := by
  have first : Stops isBlank (cs ++ after) := by
    obtain ⟨c, cs, rfl⟩ := List.exists_cons_of_ne_nil nonempty
    exact stops_cons.mpr (stops_cons.mp trimmed.first)
  have turned : ∀ c ∈ after.reverse, isBlank c := fun c member =>
    blank' c (List.mem_reverse.mp member)
  rw [trimmedOff, blanksBefore, blanksAfter, trimStart, takeWhile_append_of_stops blank first,
    dropWhile_append_of_stops blank first, List.reverse_append,
    takeWhile_append_of_stops turned trimmed.last, List.reverse_reverse]

end Blanks

/-- A trimmed text does not begin with blanks. -/
theorem Trimmed.eq_nil_of_blanks_append {before cs : List Char} (trimmed : Trimmed (before ++ cs))
    (blank : ∀ c ∈ before, isBlank c) : before = [] := by
  cases before with
  | nil => rfl
  | cons c before =>
    have visible := stops_cons.mp trimmed.first
    rw [blank c List.mem_cons_self] at visible
    contradiction

theorem Trimmed.reverse {cs : List Char} (trimmed : Trimmed cs) : Trimmed cs.reverse :=
  ⟨trimmed.last, by rw [List.reverse_reverse]; exact trimmed.first⟩

theorem Trimmed.eq_nil_of_append_blanks {cs after : List Char} (trimmed : Trimmed (cs ++ after))
    (blank : ∀ c ∈ after, isBlank c) : after = [] := by
  have turned := trimmed.reverse
  rw [List.reverse_append] at turned
  have nothing := turned.eq_nil_of_blanks_append fun c member => blank c (List.mem_reverse.mp member)
  exact List.reverse_eq_nil_iff.mp nothing

end Flowchart.Text
