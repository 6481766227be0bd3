import SatLab.Formula.Basic
import SatLab.Text.Blank

/-!
Formulas in brace notation, and results as text.

A clause is a list of literals in braces, a formula a list of clauses, all separated by commas,
and a dash stands in front of a negated variable. A result lists the values of an assignment in
the order of the names.
-/

namespace SatLab

/-- Texts joined with a separator between them. -/
def joined (separator : List Char) (texts : List (List Char)) : List Char :=
  (texts.intersperse separator).flatten

namespace Literal

def chars (l : Literal) : List Char :=
  if l.negated then '-' :: l.name.toList else l.name.toList

def text (l : Literal) : String := String.ofList l.chars

end Literal

namespace Clause

def chars (c : Clause) : List Char := '{' :: (joined [','] (c.map Literal.chars) ++ ['}'])

def text (c : Clause) : String := String.ofList (Clause.chars c)

end Clause

namespace Formula

def chars (f : Formula) : List Char := joined [','] (f.map Clause.chars)

def text (f : Formula) : String := String.ofList f.chars

end Formula

namespace Assignment

/-- One value of an assignment: the name and the digit of its truth value. -/
def entryChars (entry : String × Bool) : List Char :=
  entry.1.toList ++ ['=', if entry.2 then '1' else '0']

/-- The values of an assignment in the order of the names, separated by spaces. -/
def chars (a : Assignment) : List Char := joined [' '] (a.toList.map entryChars)

def text (a : Assignment) : String := String.ofList (Assignment.chars a)

end Assignment

/-- The outcome of a search: the model found, or that there is none. -/
def resultText : Option Assignment → String
  | none => "UNSAT"
  | some model => String.ofList (trimBlanksRight ("SAT: ".toList ++ Assignment.chars model))

end SatLab
