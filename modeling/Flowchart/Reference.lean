import Flowchart.Text.Word

/-! A reference names a node and may label it: `id` or `id[label]`. Reading takes the longest
identifier, then a label if the bracket is closed; what follows is returned for the caller. -/
namespace Flowchart

structure Reference where
  id : String
  label : Option String
  deriving DecidableEq, Repr

namespace Reference

/-- A label in brackets at the start of a text, up to the first closing bracket, and the rest.
Empty brackets hold no label, and a bracket that is never closed is left to the rest. -/
def readLabel (cs : List Char) : Option String × List Char :=
  match cs with
  | '[' :: inside =>
    match inside.dropWhile (· ≠ ']') with
    | [] => (none, cs)
    | _ :: rest =>
      match inside.takeWhile (· ≠ ']') with
      | [] => (none, rest)
      | label => (some (String.ofList label), rest)
  | _ => (none, cs)

/-- A reference at the start of a text, and the rest. -/
def read? (cs : List Char) : Option (Reference × List Char) :=
  match cs.takeWhile Text.isWord with
  | [] => none
  | id =>
    let (label, rest) := readLabel (cs.dropWhile Text.isWord)
    some (⟨String.ofList id, label⟩, rest)

/-- Reads a whole text as one reference. -/
def ofText? (cs : List Char) : Option Reference :=
  match read? cs with
  | some (reference, []) => some reference
  | _ => none

/-- How a reference is written. -/
def spelling (r : Reference) : List Char :=
  match r.label with
  | none => r.id.toList
  | some label => r.id.toList ++ '[' :: label.toList ++ [']']

theorem length_readLabel_le (cs : List Char) : (readLabel cs).2.length ≤ cs.length := by
  unfold readLabel
  split
  · next inside =>
    have bound := (List.dropWhile_sublist (· ≠ ']') (l := inside)).length_le
    split
    · simp
    · next rest h =>
      rw [h] at bound
      simp only [List.length_cons] at bound ⊢
      split <;> simp only <;> omega
  · simp

theorem length_lt_of_read? {cs rest : List Char} {r : Reference}
    (h : read? cs = some (r, rest)) : rest.length < cs.length := by
  unfold read? at h
  split at h
  · cases h
  · next id nonempty =>
    simp only [Option.some.injEq, Prod.mk.injEq] at h
    have label := length_readLabel_le (cs.dropWhile Text.isWord)
    have whole := congrArg List.length
      (List.takeWhile_append_dropWhile (p := Text.isWord) (l := cs))
    have taken : 0 < (cs.takeWhile Text.isWord).length :=
      List.length_pos_iff.mpr nonempty
    rw [List.length_append] at whole
    rw [← h.2]
    omega

end Reference

end Flowchart
