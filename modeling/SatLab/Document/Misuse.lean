import SatLab.Document.Basic
import SatLab.Text.Quoted

/-!
Operations on documents that do not have the shape an operation needs.

What is read back from a file is used as it is. An operation that meets a value of the wrong kind
says which operation and which kinds of value.
-/

namespace SatLab

/-- The kinds of documents. -/
inductive Kind where
  | null
  | flag
  | whole
  | real
  | text
  | list
  | record
deriving DecidableEq

namespace Kind

/-- The name of a kind in messages. -/
def name : Kind → String
  | null => "NoneType"
  | flag => "bool"
  | whole => "int"
  | real => "float"
  | text => "str"
  | list => "list"
  | record => "dict"

/-- The name of a kind in quotes. -/
def title (k : Kind) : String := "'" ++ k.name ++ "'"

end Kind

namespace Document

def kind : Document → Kind
  | null => .null
  | flag _ => .flag
  | number (.whole _) => .whole
  | number (.real _) => .real
  | text _ | unpaired _ => .text
  | list _ => .list
  | record _ => .record

end Document

/-- An operation on values it is not made for. -/
inductive Misuse where
  | fieldMissing (name : String)
  /-- A record has no field under a number. -/
  | placeMissing (place : Nat)
  | attributeMissing (kind : Kind) (name : String)
  | notIterable (kind : Kind)
  | noLength (kind : Kind)
  | notSubscriptable (kind : Kind)
  | operands (operator : String) (left right : Kind)
  | notJoined (kind other : Kind)
  | notOrdered (operator : String) (left right : Kind)
  | notCounted (kind : Kind)
  | notFormatted (kind : Kind)
  | formatCode (code : String) (kind : Kind)
  | outsideList
  | outsideText
  /-- A place that has no machine word. -/
  | placeTooLarge
  | notRational (kind : Kind)
  | notRow (kind : Kind)
  | wholeTooLarge
  | quotientTooLarge
  | nothingToAverage
  /-- An integer with more digits than are ever written. -/
  | tooManyDigits
  /-- Surrogates that stand alone have no place in a file: the first one, its place and how many
  there are in a row. -/
  | unpairedSurrogate (code place count : Nat)
deriving DecidableEq

namespace Misuse

def message : Misuse → String
  | fieldMissing name => quoted name
  | placeMissing place => toString place
  | attributeMissing kind name =>
    kind.title ++ " object has no attribute '" ++ name ++ "'"
  | notIterable kind => kind.title ++ " object is not iterable"
  | noLength kind => "object of type " ++ kind.title ++ " has no len()"
  | notSubscriptable kind => kind.title ++ " object is not subscriptable"
  | operands operator left right =>
    "unsupported operand type(s) for " ++ operator ++ ": " ++ left.title ++ " and " ++ right.title
  | notJoined kind other =>
    "can only concatenate " ++ kind.name ++ " (not \"" ++ other.name ++ "\") to " ++ kind.name
  | notOrdered operator left right =>
    "'" ++ operator ++ "' not supported between instances of " ++ left.title ++ " and " ++
      right.title
  | notCounted kind => kind.title ++ " object cannot be interpreted as an integer"
  | notFormatted kind =>
    "unsupported format string passed to " ++ kind.name ++ ".__format__"
  | formatCode code kind =>
    "Unknown format code '" ++ code ++ "' for object of type " ++ kind.title
  | outsideList => "list index out of range"
  | outsideText => "string index out of range"
  | placeTooLarge => "cannot fit 'int' into an index-sized integer"
  | notRational kind => "can't convert type " ++ kind.title ++ " to numerator/denominator"
  | notRow kind => "iterable expected, not " ++ kind.name
  | wholeTooLarge => "int too large to convert to float"
  | quotientTooLarge => "integer division result too large for a float"
  | nothingToAverage => "mean requires at least one data point"
  | tooManyDigits =>
    "Exceeds the limit (4300 digits) for integer string conversion; use " ++
      "sys.set_int_max_str_digits() to increase the limit"
  | unpairedSurrogate code place count =>
    let subject :=
      if count ≤ 1 then
        "character '\\u" ++ String.ofList (hexFilled 4 code) ++ "' in position " ++ toString place
      else "characters in position " ++ toString place ++ "-" ++ toString (place + count - 1)
    "'utf-8' codec can't encode " ++ subject ++ ": surrogates not allowed"

end Misuse

end SatLab
