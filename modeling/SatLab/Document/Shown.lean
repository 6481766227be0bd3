import SatLab.Document.Misuse
import SatLab.Number.Shortest
import SatLab.Text.DecimalDigit

/-!
Documents shown inside messages and table cells: on one line, with texts in quotes. An integer with
too many digits is never shown.
-/

namespace SatLab

namespace Number

/-- A number shown to a reader. -/
def shown : Number → String
  | .whole value => toString value
  | .real value => value.text

/-- The least natural number with too many digits. -/
def digitBound : Nat := Nat.pow 10 integerDigitLimit

theorem digitBound_pos : 0 < digitBound := by
  unfold digitBound
  apply Nat.pow_pos
  decide

/-- Whether a number is an integer with too many digits to be written. -/
def hasTooManyDigits : Number → Bool
  | .whole value => decide (digitBound ≤ value.natAbs)
  | .real _ => false

theorem hasTooManyDigits_whole {value : Int} :
    (whole value).hasTooManyDigits = false ↔ value.natAbs < digitBound := by
  rw [hasTooManyDigits, decide_eq_false_iff_not, Nat.not_le]

/-- A number shown to a reader, if it has not too many digits. -/
def shown? (n : Number) : Except Misuse String :=
  if n.hasTooManyDigits then .error .tooManyDigits else .ok n.shown

end Number

def flagText (value : Bool) : String := if value then "True" else "False"

namespace Document

mutual

/-- A document shown as a part of another text. -/
def shownChars : Document → List Char
  | null => "None".toList
  | flag value => (flagText value).toList
  | number value => value.shown.toList
  | text value => (quoted value).toList
  | unpaired codes => quotedCodes codes
  | list [] => ['[', ']']
  | list (item :: items) => '[' :: (item.shownChars ++ shownItems items ++ [']'])
  | record [] => ['{', '}']
  | record ((name, value) :: fields) =>
    '{' :: ((quoted name).toList ++ ':' :: ' ' :: value.shownChars ++ shownFields fields ++ ['}'])

def shownItems : List Document → List Char
  | [] => []
  | item :: items => ',' :: ' ' :: (item.shownChars ++ shownItems items)

def shownFields : List (String × Document) → List Char
  | [] => []
  | (name, value) :: fields =>
    ',' :: ' ' :: ((quoted name).toList ++ ':' :: ' ' :: value.shownChars ++ shownFields fields)

end

mutual

/-- Whether an integer with too many digits is somewhere inside. -/
def hasTooManyDigits : Document → Bool
  | number value => value.hasTooManyDigits
  | list items => anyTooManyDigits items
  | record fields => anyFieldTooManyDigits fields
  | _ => false

def anyTooManyDigits : List Document → Bool
  | [] => false
  | item :: items => item.hasTooManyDigits || anyTooManyDigits items

def anyFieldTooManyDigits : List (String × Document) → Bool
  | [] => false
  | (_, value) :: fields => value.hasTooManyDigits || anyFieldTooManyDigits fields

end

/-- A document on its own: a text stands without quotes. -/
def shown (d : Document) : Except Misuse String :=
  if d.hasTooManyDigits then .error .tooManyDigits
  else
    match d with
    | text value => .ok value
    | unpaired codes => .ok (lossyText codes)
    | d => .ok (String.ofList d.shownChars)

end Document

end SatLab
