import SatLab.Document.Arithmetic
import SatLab.Document.Shown
import SatLab.Number.Fixed
import SatLab.Text.Layout

/-!
The parts of documents, and documents as columns of text.
-/

namespace SatLab

namespace Document

/-- The field of a record. -/
def field (d : Document) (name : String) : Except Misuse Document :=
  match d with
  | record fields =>
    match fields.lookup name with
    | some value => .ok value
    | none => .error (.fieldMissing name)
  | _ => .error (.notSubscriptable d.kind)

/-- A record with a field set. -/
def setField (d : Document) (name : String) (value : Document) : Document :=
  match d with
  | record fields => record (putField fields name value)
  | _ => d

/-- The fields of a record; `view` names what is asked of it. -/
def fields (d : Document) (view : String) : Except Misuse (List (String × Document)) :=
  match d with
  | record fields => .ok fields
  | _ => .error (.attributeMissing d.kind view)

/-- The number of parts. -/
def length : Document → Except Misuse Nat
  | list items => .ok items.length
  | text value => .ok value.length
  | unpaired codes => .ok codes.length
  | record fields => .ok fields.length
  | d => .error (.noLength d.kind)

/-- The parts one after the other: items, characters or names. -/
def parts? : Document → Option (List Document)
  | list items => some items
  | text value => some (value.toList.map fun c => text c.toString)
  | unpaired codes => some (codes.map fun code => ofCodes [code])
  | record fields => some (fields.map fun (name, _) => text name)
  | _ => none

def parts (d : Document) : Except Misuse (List Document) :=
  match d.parts? with
  | some items => .ok items
  | none => .error (.notIterable d.kind)

/-- The part with a number, counted from zero. -/
def part (d : Document) (place : Nat) : Except Misuse Document :=
  match d with
  | list items =>
    match items[place]? with
    | some item => .ok item
    | none => .error .outsideList
  | text value =>
    match value.toList[place]? with
    | some c => .ok (text c.toString)
    | none => .error .outsideText
  | unpaired codes =>
    match codes[place]? with
    | some code => .ok (ofCodes [code])
    | none => .error .outsideText
  | record _ => .error (.placeMissing place)
  | _ => .error (.notSubscriptable d.kind)

/-- A list with one more item. -/
def appended (d item : Document) : Except Misuse Document :=
  match d with
  | list items => .ok (list (items ++ [item]))
  | _ => .error (.attributeMissing d.kind "append")

/-- The numbers in a list of documents. -/
def numbers (items : List Document) : Except Misuse (List Number) :=
  items.mapM fun d =>
    match d.number? with
    | some n => .ok n
    | none => .error (.notRational d.kind)

/-- A document at the right of a column. -/
def inColumn (width : Nat) (d : Document) : Except Misuse String :=
  match d with
  | text value => .ok (padLeft width value)
  | unpaired codes => .ok (padLeft width (lossyText codes))
  | _ =>
    match d.number? with
    | some n => return padLeft width (← n.shown?)
    | none => .error (.notFormatted d.kind)

/-- An integer at the right of a column. -/
def countInColumn (width : Nat) (d : Document) : Except Misuse String :=
  match d with
  | text _ | unpaired _ | number (.real _) => .error (.formatCode "d" d.kind)
  | _ =>
    match d.number? with
    | some n => return padLeft width (← n.shown?)
    | none => .error (.notFormatted d.kind)

/-- A number with a set number of places. -/
def fixed (places : Nat) (d : Document) : Except Misuse String :=
  match d with
  | text _ | unpaired _ => .error (.formatCode "f" d.kind)
  | _ =>
    match d.number? with
    | some n => return (← n.toReal).fixed places
    | none => .error (.notFormatted d.kind)

end Document

end SatLab
