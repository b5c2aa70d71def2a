import Flowchart.Proofs.Grammar

/-! What is said about a line that is no statement. Cutting a line at its arrows gives the only
list of texts without an arrow that make up the line when arrows are put between them. The blame
goes to the first of them that is no reference once it is trimmed, or else to the whole line. -/
namespace Flowchart

namespace Statement

def arrowSign : List Char := ['-', '-', '>']

/-- Texts that hold no arrow and make up a text when arrows are put between them. -/
structure Cut (cs : List Char) (ps : List (List Char)) : Prop where
  ne_nil : ps ≠ []
  joined : List.intercalate arrowSign ps = cs
  clear : ∀ p ∈ ps, ¬ arrowSign <:+: p

theorem intercalate_cons {ps : List (List Char)} (sign p : List Char) (ne_nil : ps ≠ []) :
    List.intercalate sign (p :: ps) = p ++ (sign ++ List.intercalate sign ps) := by
  cases ps with
  | nil => exact absurd rfl ne_nil
  | cons q ps => rw [List.intercalate_cons_cons, List.append_assoc]

theorem pieces_ne_nil (cs : List Char) : pieces cs ≠ [] := by
  fun_cases pieces cs <;> simp

namespace Cut

theorem nil : Cut [] [[]] := ⟨by simp, rfl, by simp [arrowSign]⟩

theorem arrow {rest : List Char} {ps : List (List Char)} (cut : Cut rest ps) :
    Cut ('-' :: '-' :: '>' :: rest) ([] :: ps) where
  ne_nil := by simp
  joined := by
    rw [intercalate_cons arrowSign [] cut.ne_nil, cut.joined]
    rfl
  clear := by
    intro p member
    rcases List.mem_cons.mp member with rfl | later
    · simp [arrowSign]
    · exact cut.clear p later

theorem isPrefix {cs p : List Char} {ps : List (List Char)} (cut : Cut cs (p :: ps)) : p <+: cs := by
  rw [← cut.joined]
  cases ps with
  | nil => simp
  | cons q ps =>
    rw [intercalate_cons arrowSign p (List.cons_ne_nil q ps)]
    exact List.prefix_append p _

theorem cons {c : Char} {rest p : List Char} {ps : List (List Char)} (cut : Cut rest (p :: ps))
    (other : ¬ arrowSign <+: c :: rest) : Cut (c :: rest) ((c :: p) :: ps) where
  ne_nil := by simp
  joined := by
    rw [← cut.joined]
    cases ps with
    | nil => simp
    | cons q ps =>
      rw [intercalate_cons arrowSign _ (List.cons_ne_nil q ps),
        intercalate_cons arrowSign _ (List.cons_ne_nil q ps), List.cons_append]
  clear := by
    intro q member
    rcases List.mem_cons.mp member with rfl | later
    · intro inside
      rcases List.infix_cons_iff.mp inside with first | later
      · exact other (first.trans ((List.prefix_cons_inj c).mpr cut.isPrefix))
      · exact cut.clear p (by simp) later
    · exact cut.clear q (by simp [later])

end Cut

/-- Cutting follows the text: an arrow ends a piece, and any other character extends one. -/
theorem cut_pieces (cs : List Char) : Cut cs (pieces cs) := by
  fun_induction pieces cs with
  | case1 => exact .nil
  | case2 rest ih => exact ih.arrow
  | case3 c rest other empty => exact absurd empty (pieces_ne_nil rest)
  | case4 c rest other piece others found ih =>
    rw [found] at ih
    apply ih.cons
    rintro ⟨after, same⟩
    simp only [arrowSign, List.cons_append, List.nil_append, List.cons.injEq] at same
    obtain ⟨rfl, rfl⟩ := same
    exact other after rfl rfl

theorem pieces_cons {c : Char} {rest p : List Char} {ps : List (List Char)}
    (other : ¬ arrowSign <+: c :: rest) (found : pieces rest = p :: ps) :
    pieces (c :: rest) = (c :: p) :: ps := by
  rw [pieces, found]
  rintro after rfl rfl
  exact other ⟨after, rfl⟩

theorem pieces_of_clear {p : List Char} (clear : ¬ arrowSign <:+: p) : pieces p = [p] := by
  induction p with
  | nil => rfl
  | cons c p ih =>
    rw [List.infix_cons_iff, not_or] at clear
    exact pieces_cons clear.1 (ih clear.2)

/-- An arrow ends at its only `>`, so the first one of a text does not begin before a piece ends. -/
theorem pieces_append {p : List Char} (clear : ¬ arrowSign <:+: p) (rest : List Char) :
    pieces (p ++ (arrowSign ++ rest)) = p :: pieces rest := by
  induction p with
  | nil => rfl
  | cons c p ih =>
    rw [List.infix_cons_iff, not_or] at clear
    refine pieces_cons ?_ (ih clear.2)
    rintro ⟨after, same⟩
    -- With two characters or fewer, the sign that starts here would end inside the one that follows.
    match p, clear, same with
    | [], _, same => simp [arrowSign] at same
    | [_], _, same => simp [arrowSign] at same
    | d :: e :: p, clear, same =>
      simp only [arrowSign, List.cons_append, List.nil_append, List.cons.injEq] at same
      obtain ⟨rfl, rfl, rfl, -⟩ := same
      exact clear.1 ⟨p, rfl⟩

namespace Cut

variable {cs : List Char} {ps : List (List Char)}

theorem eq_pieces (cut : Cut cs ps) : ps = pieces cs := by
  obtain ⟨ne_nil, rfl, clear⟩ := cut
  induction ps with
  | nil => exact absurd rfl ne_nil
  | cons p ps ih =>
    cases ps with
    | nil => rw [List.intercalate_singleton, pieces_of_clear (clear p (by simp))]
    | cons q ps =>
      rw [intercalate_cons arrowSign p (List.cons_ne_nil q ps),
        pieces_append (clear p (by simp)),
        ← ih (List.cons_ne_nil q ps) fun r member => clear r (by simp [member])]

theorem arrow_isInfix_iff (cut : Cut cs ps) : arrowSign <:+: cs ↔ 1 < ps.length := by
  match ps, cut with
  | [], cut => exact absurd rfl cut.ne_nil
  | [p], cut =>
    have same : p = cs := by simpa using cut.joined
    have clear := cut.clear p (by simp)
    rw [same] at clear
    simp [clear]
  | p :: q :: ps, cut =>
    rw [← cut.joined, intercalate_cons arrowSign p (List.cons_ne_nil q ps)]
    simp only [List.length_cons]
    constructor
    · intro _
      omega
    · intro _
      exact ⟨p, _, by rw [List.append_assoc]⟩

end Cut

/-- The text and the advice with which a line is refused. -/
inductive Blamed (cs : List Char) : String → Option String → Prop
  | piece {ps before after : List (List Char)} {bad : List Char} (cut : Cut cs ps)
      (arrow : arrowSign <:+: cs) (split : ps.map Text.trim = before ++ bad :: after)
      (good : ∀ p ∈ before, ∃ f : Reference.Form, f.text = p)
      (malformed : ¬ ∃ f : Reference.Form, f.text = bad) :
      Blamed cs (String.ofList bad) (some pieceSuggestion)
  | whole {ps : List (List Char)} (cut : Cut cs ps)
      (good : arrowSign <:+: cs → ∀ p ∈ ps, ∃ f : Reference.Form, f.text = Text.trim p) :
      Blamed cs (String.ofList cs) (some lineSuggestion)

theorem find?_malformed_eq_none_iff {ps : List (List Char)} :
    ps.find? (fun p => (Reference.ofText? p).isNone) = none ↔
      ∀ p ∈ ps, ∃ f : Reference.Form, f.text = p := by
  simp only [List.find?_eq_none, Reference.isNone_ofText?_iff, not_not]

theorem find?_malformed_eq_some_iff {ps : List (List Char)} {bad : List Char} :
    ps.find? (fun p => (Reference.ofText? p).isNone) = some bad ↔
      (¬ ∃ f : Reference.Form, f.text = bad) ∧ ∃ before after, ps = before ++ bad :: after ∧
        ∀ p ∈ before, ∃ f : Reference.Form, f.text = p := by
  have valid (p : List Char) :
      (!(Reference.ofText? p).isNone) = true ↔ ∃ f : Reference.Form, f.text = p := by
    rw [Bool.not_eq_true', ← Bool.not_eq_true, Reference.isNone_ofText?_iff, not_not]
  simp only [List.find?_eq_some_iff_append, Reference.isNone_ofText?_iff, valid]

theorem exists_blame (line : Text.Line) :
    ∃ text advice, blame line = .invalidSyntax line.number text advice := by
  rw [blame]
  cases badPiece? line.text with
  | none => exact ⟨_, _, rfl⟩
  | some piece => exact ⟨_, _, rfl⟩

/-- The relation is what the blame is computed to be, so every line gets one text and one advice. -/
theorem blamed_iff {line : Text.Line} {text : String} {advice : Option String} :
    Blamed line.text text advice ↔ blame line = .invalidSyntax line.number text advice := by
  have cut := cut_pieces line.text
  have arrows := cut.arrow_isInfix_iff
  constructor
  · intro blamed
    cases blamed with
    | piece found arrow split good malformed =>
      have named := find?_malformed_eq_some_iff.mpr ⟨malformed, _, _, split, good⟩
      rw [found.eq_pieces] at named
      rw [blame, badPiece?, if_pos (arrows.mp arrow), named]
    | whole found good =>
      rw [blame, badPiece?]
      by_cases several : 1 < (pieces line.text).length
      · have unnamed : ((pieces line.text).map Text.trim).find?
            (fun p => (Reference.ofText? p).isNone) = none := by
          rw [find?_malformed_eq_none_iff, ← found.eq_pieces]
          exact List.forall_mem_map.mpr (good (arrows.mpr several))
        rw [if_pos several, unnamed]
      · rw [if_neg several]
  · intro h
    by_cases several : 1 < (pieces line.text).length
    · rw [blame, badPiece?, if_pos several] at h
      split at h
      · next bad named =>
        cases h
        obtain ⟨malformed, before, after, split, good⟩ := find?_malformed_eq_some_iff.mp named
        exact .piece cut (arrows.mpr several) split good malformed
      · next unnamed =>
        cases h
        have good := find?_malformed_eq_none_iff.mp unnamed
        exact .whole cut fun _ p member => good _ (List.mem_map_of_mem member)
    · rw [blame, badPiece?, if_neg several] at h
      cases h
      exact .whole cut fun arrow => absurd (arrows.mp arrow) several

end Statement

end Flowchart
