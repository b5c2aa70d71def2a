import Flowchart.ReadError
import Flowchart.Reference
import Flowchart.Text.Lines

/-! A statement is a chain of references joined by arrows, `A --> B[label] --> C`; a single
reference declares a node. A line that is no statement is blamed on the first of its pieces
between arrows that is no reference, and on the whole line if there is none. -/
namespace Flowchart

structure Statement where
  first : Reference
  rest : List Reference
  deriving DecidableEq, Repr

namespace Statement

def references (s : Statement) : List Reference := s.first :: s.rest

/-- Each reference with the next one. -/
def links (s : Statement) : List (Reference × Reference) := s.references.zip s.rest

/-- Passes an arrow and the gaps on both of its sides. -/
def arrow? (cs : List Char) : Option (List Char) :=
  match cs.dropWhile Text.isGap with
  | '-' :: '-' :: '>' :: rest => some (rest.dropWhile Text.isGap)
  | _ => none

/-- An arrow and the reference it points at, and the rest of the text. -/
def readLink? (cs : List Char) : Option (Reference × List Char) := (arrow? cs).bind Reference.read?

theorem length_lt_of_arrow? {cs rest : List Char} (h : arrow? cs = some rest) :
    rest.length < cs.length := by
  unfold arrow? at h
  split at h
  · next tail eq =>
    have before := (List.dropWhile_sublist Text.isGap (l := cs)).length_le
    have after := (List.dropWhile_sublist Text.isGap (l := tail)).length_le
    rw [eq] at before
    simp only [List.length_cons, Option.some.injEq] at before h
    rw [← h]
    omega
  · cases h

theorem length_lt_of_readLink? {cs rest : List Char} {r : Reference}
    (h : readLink? cs = some (r, rest)) : rest.length < cs.length := by
  obtain ⟨after, arrow, reference⟩ := Option.bind_eq_some_iff.mp h
  exact Nat.lt_trans (Reference.length_lt_of_read? reference) (length_lt_of_arrow? arrow)

/-- Reads a whole text as arrows, each followed by a reference. -/
def readLinks? (cs : List Char) : Option (List Reference) :=
  if cs.isEmpty then some []
  else
    match _ : readLink? cs with
    | none => none
    | some (reference, rest) => (readLinks? rest).map (reference :: ·)
termination_by cs.length
decreasing_by exact length_lt_of_readLink? ‹_›

/-- Reads a whole text as a statement. -/
def ofText? (cs : List Char) : Option Statement := do
  let (first, rest) ← Reference.read? cs
  return ⟨first, ← readLinks? rest⟩

/-- Cuts a text at its arrows, from the left. -/
def pieces : List Char → List (List Char)
  | [] => [[]]
  | '-' :: '-' :: '>' :: rest => [] :: pieces rest
  | c :: rest =>
    match pieces rest with
    | [] => [[c]]
    | piece :: others => (c :: piece) :: others

def lineSuggestion : String := "Only 'A --> B' or 'A[Label]' are supported"

def pieceSuggestion : String := "Use 'ID' or 'ID[Label]'"

/-- The first piece of a line with arrows that is no reference. -/
def badPiece? (cs : List Char) : Option (List Char) :=
  if 1 < (pieces cs).length then
    ((pieces cs).map Text.trim).find? fun piece => (Reference.ofText? piece).isNone
  else none

/-- What is wrong with a line that is no statement. -/
def blame (line : Text.Line) : ReadError :=
  match badPiece? line.text with
  | some piece => .invalidSyntax line.number (String.ofList piece) (some pieceSuggestion)
  | none => .invalidSyntax line.number (String.ofList line.text) (some lineSuggestion)

def read (line : Text.Line) : Except ReadError Statement :=
  match ofText? line.text with
  | some statement => .ok statement
  | none => .error (blame line)

/-- How a statement is written. -/
def spelling (s : Statement) : List Char :=
  s.first.spelling ++ s.rest.flatMap fun r => [' ', '-', '-', '>', ' '] ++ r.spelling

end Statement

end Flowchart
