import Flowchart.Proofs.Faults
import Flowchart.Proofs.Trimming

/-! Two ways to take a line apart. The blame cuts a line at every arrow, while the grammar reads an
arrow in brackets as part of a label. A piece that ends within brackets is no reference, so where
all pieces are references both ways agree, but for blanks beside an arrow that are no gaps. -/
namespace Flowchart

namespace Statement

theorem exists_first_arrow {cs : List Char} (arrow : arrowSign <:+: cs) :
    ∃ front back, cs = front ++ (arrowSign ++ back) ∧ ¬ arrowSign <:+: front := by
  have cut := cut_pieces cs
  have several := cut.arrow_isInfix_iff.mp arrow
  match pieces cs, cut, several with
  | front :: next :: others, cut, _ =>
    refine ⟨front, List.intercalate arrowSign (next :: others), ?_, cut.clear front (by simp)⟩
    rw [← cut.joined, intercalate_cons arrowSign front (List.cons_ne_nil next others)]

section Blanks

variable {before after p : List Char} (clear : ¬ arrowSign <:+: p)
include clear

/-- No blank is part of an arrow. -/
theorem clear_append_blanks (blank : ∀ c ∈ after, Text.isBlank c) :
    ¬ arrowSign <:+: p ++ after := by
  induction after generalizing p with
  | nil => simpa using clear
  | cons c after ih =>
    have here := blank c List.mem_cons_self
    have next : ¬ arrowSign <:+: p ++ [c] := by
      rw [List.infix_concat_iff, List.suffix_concat_iff]
      rintro ((nothing | ⟨front, ends, _⟩) | inside)
      · cases nothing
      · have last : '>' = c := by simpa [arrowSign] using congrArg List.getLast? ends
        rw [← last] at here
        exact absurd here (by decide)
      · exact clear inside
    rw [List.append_cons]
    exact ih next fun d member => blank d (List.mem_cons_of_mem c member)

theorem clear_blanks_append (blank : ∀ c ∈ before, Text.isBlank c) :
    ¬ arrowSign <:+: before ++ p := by
  induction before with
  | nil => exact clear
  | cons c before ih =>
    have here := blank c List.mem_cons_self
    rw [List.cons_append, List.infix_cons_iff]
    rintro (⟨rest, starts⟩ | inside)
    · rw [← (List.cons.inj starts).1] at here
      exact absurd here (by decide)
    · exact ih (fun d member => blank d (List.mem_cons_of_mem c member)) inside

end Blanks

end Statement

open Statement (arrowSign pieces)

namespace Reference.Form

theorem not_mem_word (f : Form) {c : Char} (mark : c ∈ ['[', ']', '-', '%']) : c ∉ f.word :=
  Text.not_mem_of_forall f.isWord_of_mem (Text.isWord_eq_false_of_mark mark)

theorem close_mem_text (f : Form) (opened : '[' ∈ f.text) : ']' ∈ f.text := by
  cases bracket : f.bracket with
  | none =>
    rw [text, bracket, bracketText, List.append_nil] at opened
    exact absurd opened (f.not_mem_word (by simp))
  | some inside => simp [text, bracket, bracketText]

/-- An arrow in a reference stands in its brackets. -/
theorem open_mem_and_close_not_mem (f : Form) {front back : List Char}
    (split : f.text = front ++ (arrowSign ++ back)) : '[' ∈ front ∧ ']' ∉ front := by
  cases bracket : f.bracket with
  | none =>
    rw [text, bracket, bracketText, List.append_nil] at split
    exact absurd (by simp [split, arrowSign]) (f.not_mem_word (c := '-') (by simp))
  | some inside =>
    have whole : f.word ++ '[' :: (inside ++ [']']) = front ++ (arrowSign ++ back) := by
      simp [← split, text, bracket, bracketText]
    constructor
    · rcases List.append_eq_append_iff.mp whole with ⟨more, rfl, rest⟩ | ⟨more, word, rest⟩
      · cases more with
        | nil => simp [arrowSign] at rest
        | cons c more =>
          obtain rfl : '[' = c := (List.cons.inj rest).1
          simp
      · cases more with
        | nil => simp [arrowSign] at rest
        | cons c more =>
          obtain rfl : '-' = c := (List.cons.inj rest).1
          exact absurd (by simp [word]) (f.not_mem_word (c := '-') (by simp))
    · intro closed
      obtain ⟨label, more, rfl, unclosed⟩ := List.eq_append_cons_of_mem closed
      have open' : ']' ∉ f.word ++ '[' :: inside := by
        simp [f.not_mem_word, f.not_mem_bracket inside bracket]
      have same : label ++ ']' :: (more ++ (arrowSign ++ back)) =
          (f.word ++ '[' :: inside) ++ ']' :: [] := by simpa using whole.symm
      have nothing := (Text.run_append_inj (ne_close_of_mem unclosed) (ne_close_of_mem open')
        (stops_at_close _) (stops_at_close _) same).2
      simp [arrowSign] at nothing

/-- A reference that holds an arrow is cut in its brackets, and what comes before the cut is no
reference. -/
theorem exists_bad_piece (f : Form) (arrow : arrowSign <:+: f.text) {before : List Char}
    (blank : ∀ c ∈ before, Text.isBlank c) (rest : List Char) :
    ∃ front others, pieces (before ++ (f.text ++ rest)) = (before ++ front) :: others ∧
      front <+: f.text ∧ ¬ ∃ g : Form, g.text = Text.trim (before ++ front) := by
  obtain ⟨front, back, split, clear⟩ := Statement.exists_first_arrow arrow
  obtain ⟨opened, unclosed⟩ := f.open_mem_and_close_not_mem split
  refine ⟨front, pieces (back ++ rest), ?_, ⟨_, split.symm⟩, ?_⟩
  · have cut := Statement.pieces_append (Statement.clear_blanks_append clear blank) (back ++ rest)
    simpa [split] using cut
  · -- A reference with an opening bracket has a closing one, but the piece ends before it.
    rintro ⟨g, same⟩
    have mem_iff {c : Char} (visible : Text.isBlank c = false) : c ∈ g.text ↔ c ∈ front := by
      have outside := Text.not_mem_of_forall blank visible
      rw [same, Text.mem_trim_iff visible, List.mem_append, or_iff_right outside]
    have closed := g.close_mem_text ((mem_iff (by decide)).mpr opened)
    exact unclosed ((mem_iff (by decide)).mp closed)

end Reference.Form

namespace Statement

namespace Blamed

variable {cs : List Char} {text : String} {advice : Option String}

theorem exists_piece (blamed : Blamed cs text advice) (named : advice = some pieceSuggestion) :
    ∃ before bad after, (pieces cs).map Text.trim = before ++ bad :: after ∧
      text = String.ofList bad ∧ (∀ p ∈ before, ∃ f : Reference.Form, f.text = p) ∧
      ¬ ∃ f : Reference.Form, f.text = bad := by
  cases blamed with
  | piece cut arrow split good malformed =>
    exact ⟨_, _, _, cut.eq_pieces ▸ split, rfl, good, malformed⟩
  | whole => exact absurd named (by decide)

theorem forall_pieces (blamed : Blamed cs text advice) (unnamed : advice = some lineSuggestion)
    (arrow : arrowSign <:+: cs) :
    ∀ p ∈ pieces cs, ∃ f : Reference.Form, f.text = Text.trim p := by
  cases blamed with
  | piece => exact absurd unnamed (by decide)
  | whole cut good => exact cut.eq_pieces ▸ good arrow

end Blamed

/-- A refusal is the blame that its line gets. -/
theorem blamed_of_read {line : Text.Line} {number : Nat} {text : String} {advice : Option String}
    (refused : read line = .error (.invalidSyntax number text advice)) :
    Blamed line.text text advice := by
  obtain ⟨_, blamed⟩ := read_eq_error_iff.mp refused
  obtain ⟨_, _, same⟩ := exists_blame line
  have number : line.number = number := (ReadError.invalidSyntax.inj (same.symm.trans blamed)).1
  exact blamed_iff.mpr (number ▸ blamed)

section Named

variable {line : Text.Line} {f : Reference.Form} {gap rest : List Char}

/-- A line that begins with a reference and an arrow is cut right there, unless the reference holds
an arrow itself. -/
theorem map_trim_pieces_reference (clear : ¬ arrowSign <:+: f.text) (gaps : ∀ c ∈ gap, Text.isGap c)
    (rest : List Char) :
    (pieces (f.text ++ (gap ++ (arrowSign ++ rest)))).map Text.trim =
      f.text :: (pieces rest).map Text.trim := by
  have blank : ∀ c ∈ gap, Text.isBlank c := fun c member => Text.isBlank_of_isGap (gaps c member)
  have first : Text.trim (f.text ++ gap) = f.text :=
    f.trimmed_text.trim_surrounded (List.forall_mem_nil _) blank
  rw [← List.append_assoc, pieces_append (clear_append_blanks clear blank), List.map_cons, first]

/-- In a line that begins with a reference and an arrow, the text that is named stands after that
arrow: it is the first piece there that is no reference. But if the reference itself holds an arrow,
a part of it is named, although nothing is wrong with it. -/
theorem named_after_arrow {number : Nat} {text : String}
    (starts : line.text = f.text ++ (gap ++ (arrowSign ++ rest)))
    (gaps : ∀ c ∈ gap, Text.isGap c)
    (refused : read line = .error (.invalidSyntax number text (some pieceSuggestion))) :
    (¬ arrowSign <:+: f.text →
      ∃ before bad after, Cut rest (before ++ bad :: after) ∧ text = String.ofList (Text.trim bad) ∧
        (∀ p ∈ before, ∃ g : Reference.Form, g.text = Text.trim p) ∧
        ¬ ∃ g : Reference.Form, g.text = Text.trim bad) ∧
    (arrowSign <:+: f.text → text.toList <:+: f.text) := by
  obtain ⟨before, bad, after, split, rfl, good, malformed⟩ := (blamed_of_read refused).exists_piece rfl
  rw [starts] at split
  constructor
  · intro clear
    rw [map_trim_pieces_reference clear gaps] at split
    cases before with
    | nil => exact absurd ⟨f, (List.cons.inj split).1⟩ malformed
    | cons first before =>
      obtain ⟨front, back, found, rfl, others⟩ := List.map_eq_append_iff.mp (List.cons.inj split).2
      obtain ⟨p, after, rfl, rfl, _⟩ := List.map_eq_cons_iff.mp others
      refine ⟨front, p, after, found ▸ cut_pieces rest, rfl, fun q member => ?_, malformed⟩
      exact good _ (List.mem_cons_of_mem _ (List.mem_map_of_mem member))
  · intro arrow
    obtain ⟨front, others, cut, inside, bad'⟩ :=
      f.exists_bad_piece arrow (List.forall_mem_nil _) (gap ++ (arrowSign ++ rest))
    rw [List.nil_append, List.nil_append] at cut
    rw [cut, List.map_cons] at split
    cases before with
    | nil =>
      rw [String.toList_ofList, ← (List.cons.inj split).1]
      exact (Text.trim_isInfix front).trans inside.isInfix
    | cons first before =>
      exact absurd ((List.cons.inj split).1 ▸ good first List.mem_cons_self) bad'

theorem named_after_arrow_third :
    let line : Text.Line := ⟨4, "A[x]\t--> B --> C( --> D]".toList⟩
    let refusal := ReadError.invalidSyntax 4 "C(" (some pieceSuggestion)
    ∃ f : Reference.Form, f.reference = ⟨"A", some "x"⟩ ∧
      line.text = f.text ++ (['\t'] ++ (arrowSign ++ " B --> C( --> D]".toList)) ∧
      (∀ c ∈ ['\t'], Text.isGap c) ∧ read line = .error refusal ∧ ¬ arrowSign <:+: f.text ∧
      ∃ before bad after, Cut " B --> C( --> D]".toList (before ++ bad :: after) ∧
        "C(" = String.ofList (Text.trim bad) ∧
        (∀ p ∈ before, ∃ g : Reference.Form, g.text = Text.trim p) ∧
        ¬ ∃ g : Reference.Form, g.text = Text.trim bad := by
  intro line refusal
  have valid : Reference.ofText? "A[x]".toList = some ⟨"A", some "x"⟩ := by decide +kernel
  obtain ⟨f, spelled, meant⟩ := Reference.ofText?_eq_some_iff.mp valid
  have starts : line.text = f.text ++ (['\t'] ++ (arrowSign ++ " B --> C( --> D]".toList)) := by
    rw [spelled]
    rfl
  have gaps : ∀ c ∈ ['\t'], Text.isGap c := List.forall_mem_singleton.mpr rfl
  have refused : read line = .error refusal := by decide +kernel
  have clear : ¬ arrowSign <:+: f.text := by
    rw [spelled]
    decide
  exact ⟨f, meant, starts, gaps, refused, clear, (named_after_arrow starts gaps refused).1 clear⟩

/-- The label of the first reference holds an arrow, and the last reference is malformed. The first
one is named, and not what comes after it. -/
theorem valid_reference_named :
    let source := "flowchart LR\nA[x --> y] --> B("
    Reference.read? "A[x --> y] --> B(".toList = some (⟨"A", some "x --> y"⟩, " --> B(".toList) ∧
      Chart.read source = .error (.invalidSyntax 2 "A[x" (some pieceSuggestion)) ∧
      (∀ p ∈ pieces " B(".toList, String.ofList (Text.trim p) ≠ "A[x") ∧
      "A[x".toList <+: "A[x --> y]".toList := by
  decide +kernel

end Named

end Statement

end Flowchart
