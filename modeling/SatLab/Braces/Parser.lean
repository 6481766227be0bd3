import SatLab.Formula.Basic
import SatLab.Text.Blank
import SatLab.Text.Quoted

/-!
Reading formulas in brace notation.

White space is dropped first. What is left is nothing, or clauses in braces separated by single
commas; inside the braces stand literals separated by single commas, each a name after any
number of dashes. The braces are checked in one pass and the clauses cut out in a second one, so
the literals are looked at only in texts whose braces are right.
-/

namespace SatLab

/-- Why a text is no formula. -/
inductive SyntaxFault where
  /-- The braces and the commas between them are wrong. -/
  | malformed (text : String)
  /-- A literal has no name, or a dash inside its name. -/
  | invalidLiteral (token : String)
  /-- A literal was made of the empty name. -/
  | emptyName
deriving DecidableEq

namespace SyntaxFault

def message : SyntaxFault → String
  | malformed text => "malformed formula " ++ quoted text
  | invalidLiteral token => "invalid literal " ++ quoted token
  | emptyName => Literal.emptyNameMessage

end SyntaxFault

/-- A text cut at every separator; a text without one is a single piece. -/
def cutAt (separator : Char) : List Char → List (List Char)
  | [] => [[]]
  | c :: rest =>
    if c = separator then [] :: cutAt separator rest
    else
      match cutAt separator rest with
      | [] => [[c]]
      | piece :: pieces => (c :: piece) :: pieces

namespace Literal

/-- A literal from its text. -/
def parse (token : List Char) : Except SyntaxFault Literal :=
  let name := token.dropWhile (· == '-')
  if name.isEmpty || name.contains '-' then .error (.invalidLiteral (String.ofList token))
  else
    match ofName? (String.ofList name) (token.head? == some '-') with
    | some l => .ok l
    | none => .error .emptyName

end Literal

namespace Clause

/-- A clause from the text between its braces. -/
def parse (body : List Char) : Except SyntaxFault Clause :=
  if body.isEmpty then .ok [] else (cutAt ',' body).mapM Literal.parse

/-- Where the check of the braces of a text is. -/
inductive Place where
  /-- An opening brace has to follow. -/
  | before
  /-- Any text may follow, up to a closing brace. -/
  | inside
  /-- A comma has to follow, or the end of the text. -/
  | after
deriving DecidableEq

/-- Whether the rest of a text completes clauses that are separated by single commas. -/
def completes (place : Place) : List Char → Bool
  | [] => place = .after
  | c :: rest =>
    match place with
    | .before => c = '{' && completes .inside rest
    | .inside => c ≠ '{' && completes (if c = '}' then .after else .inside) rest
    | .after => c = ',' && completes .before rest

/-- Whether a text is made up of clauses, one at least, that are separated by single commas. What
stands between the braces of a clause does not matter, but for braces. -/
def isBraced (text : List Char) : Bool := completes .before text

/-- The texts between an opening brace and a closing one with no other brace between them. After an
opening brace `body` holds what was read since then, the last character first. -/
def bodiesFrom (body : Option (List Char)) : List Char → List (List Char)
  | [] => []
  | c :: rest =>
    if c = '{' then bodiesFrom (some []) rest
    else
      match body with
      | none => bodiesFrom none rest
      | some read =>
        if c = '}' then read.reverse :: bodiesFrom none rest else bodiesFrom (some (c :: read)) rest

/-- The texts between the braces, from left to right, in whatever stands around them. -/
def bodies (text : List Char) : List (List Char) := bodiesFrom none text

end Clause

namespace Formula

/-- A formula from a text in brace notation. -/
def parse (text : String) : Except SyntaxFault Formula :=
  let compact := withoutBlanks text.toList
  if compact.isEmpty then .ok []
  else if Clause.isBraced compact then (Clause.bodies compact).mapM Clause.parse
  else .error (.malformed (String.ofList compact))

end Formula

end SatLab
