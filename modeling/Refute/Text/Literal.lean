namespace Refute.Text

/-- Words that stand for themselves, and integers, stay as they are. -/
def isPlainWord (word : String) : Bool :=
  ["true", "false", "null"].contains word || word.all fun c => c.isDigit || c == '-'

/-- A line that is read up to some place; `word` is what stands outside texts since the last
mark. -/
structure Reading where
  done : String
  word : String
  inText : Bool
  escaped : Bool

namespace Reading

def start : Reading :=
  ⟨"", "", false, false⟩

def endWord (r : Reading) : Reading :=
  { r with done := r.done ++ (if isPlainWord r.word then r.word else r.word.quote), word := "" }

def isInWord (c : Char) : Bool :=
  c.isAlphanum || c == '-' || c == '+' || c == '.'

/-- Texts are copied up to the quote that is not escaped. -/
def next (r : Reading) (c : Char) : Reading :=
  if r.inText then
    { r with
      done := r.done.push c, escaped := !r.escaped && c == '\\', inText := r.escaped || c != '"' }
  else if isInWord c then { r with word := r.word.push c }
  else
    let r := r.endWord
    { r with done := r.done.push c, inText := c == '"' }

end Reading

/-- Numbers that are no integers are quoted: as texts they keep the form they are written in. -/
def quoteReals (line : String) : String :=
  (line.toList.foldl Reading.next .start).endWord.done

end Refute.Text
