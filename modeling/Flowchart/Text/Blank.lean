import Flowchart.Text.Ranges

/-! Blank characters and trimming. Blank is the Unicode property White_Space; the narrower class
of gap characters is what may stand between the words of a line. -/
namespace Flowchart.Text

/-- The code points of White_Space. -/
def blank : Ranges :=
  [(0x09, 0x0D), (0x20, 0x20), (0x85, 0x85), (0xA0, 0xA0), (0x1680, 0x1680), (0x2000, 0x200A),
   (0x2028, 0x2029), (0x202F, 0x202F), (0x205F, 0x205F), (0x3000, 0x3000)]

def isBlank (c : Char) : Bool := blank.contains c.toNat

/-- A space or a tab. -/
def isGap (c : Char) : Bool := c = ' ' || c = '\t'

def trimStart (cs : List Char) : List Char := cs.dropWhile isBlank

def trimEnd (cs : List Char) : List Char := (cs.reverse.dropWhile isBlank).reverse

/-- Removes the blank characters at both ends. -/
def trim (cs : List Char) : List Char := trimEnd (trimStart cs)

theorem blank_ascending : blank.ascending = true := by decide

theorem isBlank_of_isGap {c : Char} (h : isGap c) : isBlank c := by
  simp only [isGap, Bool.or_eq_true, decide_eq_true_eq] at h
  rcases h with rfl | rfl <;> decide

end Flowchart.Text
