/-!
Lines of text. A line feed, a carriage return, and both together end a line.
-/

namespace SatLab

/-- A text cut into lines: those that are ended, and what follows the last end. -/
structure Lines where
  ended : List (List Char)
  rest : List Char
deriving DecidableEq

namespace Lines

/-- Cuts a text into lines. The ended lines are collected in `done` and the characters of the
open line in `line`, both with the last one first; `afterReturn` tells whether a carriage return
has just ended a line. -/
def ofCharsFrom (done : List (List Char)) (line : List Char) (afterReturn : Bool) :
    List Char → Lines
  | [] => { ended := done.reverse, rest := line.reverse }
  | c :: rest =>
    if c = '\n' then
      if afterReturn then ofCharsFrom done line false rest
      else ofCharsFrom (line.reverse :: done) [] false rest
    else if c = '\r' then ofCharsFrom (line.reverse :: done) [] true rest
    else ofCharsFrom done (c :: line) false rest

def ofChars (text : List Char) : Lines := ofCharsFrom [] [] false text

/-- All lines; what follows the last end is a line of its own. -/
def all (lines : Lines) : List (List Char) := lines.ended ++ [lines.rest]

end Lines

end SatLab
