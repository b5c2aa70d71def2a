import Flowchart.Direction
import Flowchart.Text.Blank

/-! The first content line of a source: the word `flowchart`, a gap and a direction keyword. -/
namespace Flowchart.Header

def word : List Char := ['f', 'l', 'o', 'w', 'c', 'h', 'a', 'r', 't']

def suggestion : String := "Use 'flowchart LR', 'flowchart RL', 'flowchart TB', or 'flowchart BT'"

/-- The case of ASCII letters does not matter, and nothing may follow the keyword. -/
def read? (cs : List Char) : Option Direction :=
  if (cs.take word.length).map Char.toLower = word then
    match cs.drop word.length with
    | c :: rest => if Text.isGap c then Direction.ofKeyword? (rest.dropWhile Text.isGap) else none
    | [] => none
  else none

/-- The usual spelling of a header. -/
def spelling (d : Direction) : List Char := word ++ ' ' :: d.keyword.toList

@[simp] theorem read?_spelling (d : Direction) : read? (spelling d) = some d := by
  cases d <;> decide

end Flowchart.Header
