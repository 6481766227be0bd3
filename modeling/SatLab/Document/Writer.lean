import SatLab.Document.Shown

/-!
Documents as text in plain ASCII, on one line or spread over lines with every level indented.
-/

namespace SatLab

/-- The code of a character in a text: two surrogates beyond the basic plane. -/
def escapedCode (code : Nat) : List Char :=
  if code < 0x10000 then '\\' :: 'u' :: hexFilled 4 code
  else
    let offset := code - 0x10000
    '\\' :: 'u' :: hexFilled 4 (0xd800 + offset / 0x400) ++
      '\\' :: 'u' :: hexFilled 4 (0xdc00 + offset % 0x400)

/-- A character inside the quotes of a text. -/
def escapedChar (c : Char) : List Char :=
  if c = '"' ∨ c = '\\' then ['\\', c]
  else if c = '\n' then ['\\', 'n']
  else if c = '\r' then ['\\', 'r']
  else if c = '\t' then ['\\', 't']
  else if c = '\x08' then ['\\', 'b']
  else if c = '\x0c' then ['\\', 'f']
  else if 0x20 ≤ c.toNat ∧ c.toNat ≤ 0x7e then [c]
  else escapedCode c.toNat

/-- A text in double quotes. -/
def escapedText (text : String) : List Char :=
  '"' :: (text.toList.flatMap escapedChar ++ ['"'])

/-- A text in double quotes, by its code points. -/
def escapedCodes (codes : List Nat) : List Char :=
  '"' :: (codes.flatMap (fun code =>
    if code.isValidChar then escapedChar (Char.ofNat code) else escapedCode code) ++ ['"'])

namespace Number

def chars : Number → List Char
  | whole value => (toString value).toList
  | real (.infinite negative) => if negative then "-Infinity".toList else "Infinity".toList
  | real .undefined => "NaN".toList
  | real value => value.text.toList

end Number

namespace Document

def isNumber : Document → Bool
  | number _ => true
  | _ => false

/-- How the parts of a list or record are set. -/
structure Layout where
  /-- What stands before a part at a given depth. -/
  lineStart : Nat → List Char
  /-- What stands after a comma that does not end a line. -/
  space : List Char

/-- Every part on a line of its own, indented by two spaces for each level. -/
def Layout.indented : Layout :=
  { lineStart := fun depth => '\n' :: List.replicate (2 * depth) ' ', space := [] }

/-- Everything on one line. -/
def Layout.oneLine : Layout := { lineStart := fun _ => [], space := [' '] }

mutual

/-- A document as text; `depth` is the number of lists and records around it. -/
def chars (layout : Layout) (depth : Nat) : Document → List Char
  | null => "null".toList
  | flag value => if value then "true".toList else "false".toList
  | number value => value.chars
  | text value => escapedText value
  | unpaired codes => escapedCodes codes
  | list [] => ['[', ']']
  | list (item :: items) =>
    '[' :: (layout.lineStart (depth + 1) ++ item.chars layout (depth + 1) ++
      itemsChars layout (depth + 1) items ++ layout.lineStart depth ++ [']'])
  | record [] => ['{', '}']
  | record ((name, value) :: fields) =>
    '{' :: (layout.lineStart (depth + 1) ++ escapedText name ++ ':' :: ' ' ::
      value.chars layout (depth + 1) ++ fieldsChars layout (depth + 1) fields ++
      layout.lineStart depth ++ ['}'])

def itemsChars (layout : Layout) (depth : Nat) : List Document → List Char
  | [] => []
  | item :: items =>
    ',' :: (layout.space ++ layout.lineStart depth ++ item.chars layout depth ++
      itemsChars layout depth items)

def fieldsChars (layout : Layout) (depth : Nat) : List (String × Document) → List Char
  | [] => []
  | (name, value) :: fields =>
    ',' :: (layout.space ++ layout.lineStart depth ++ escapedText name ++ ':' :: ' ' ::
      value.chars layout depth ++ fieldsChars layout depth fields)

end

mutual

/-- What can be written of a document before its first integer with too many digits, if it has
one. Such an integer in a list is left out together with the separator before it. -/
def writtenPart? (layout : Layout) (depth : Nat) : Document → Option (List Char)
  | number value => if value.hasTooManyDigits then some [] else none
  | list items => itemsPart? layout (depth + 1) ('[' :: layout.lineStart (depth + 1)) items
  | record fields =>
    fieldsPart? layout (depth + 1) ('{' :: layout.lineStart (depth + 1)) fields
  | _ => none

/-- The same for the items of a list; `start` stands before the first one. -/
def itemsPart? (layout : Layout) (depth : Nat) (start : List Char) :
    List Document → Option (List Char)
  | [] => none
  | item :: items =>
    match item.writtenPart? layout depth with
    | some part => some (if item.isNumber then [] else start ++ part)
    | none =>
      (itemsPart? layout depth (',' :: (layout.space ++ layout.lineStart depth)) items).map
        fun part => start ++ item.chars layout depth ++ part

/-- The same for the fields of a record. -/
def fieldsPart? (layout : Layout) (depth : Nat) (start : List Char) :
    List (String × Document) → Option (List Char)
  | [] => none
  | (name, value) :: fields =>
    match value.writtenPart? layout depth with
    | some part => some (start ++ escapedText name ++ ':' :: ' ' :: part)
    | none =>
      (fieldsPart? layout depth (',' :: (layout.space ++ layout.lineStart depth)) fields).map
        fun part => start ++ escapedText name ++ ':' :: ' ' :: value.chars layout depth ++ part

end

/-- A document spread over lines. -/
def indentedText (d : Document) : String := String.ofList (d.chars .indented 0)

/-- A document on one line. -/
def lineText (d : Document) : String := String.ofList (d.chars .oneLine 0)

end Document

end SatLab
