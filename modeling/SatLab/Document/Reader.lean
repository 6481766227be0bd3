import SatLab.Document.Token

/-!
Reading documents.

The reader goes through the words once. What it has still to close is a stack of unfinished
lists and records, and it must not grow beyond a limit, which is up to whoever reads. A name that
occurs twice in a record keeps its first place and its last value.

Texts keep the codes they are spelled with, but the names of fields are characters: a surrogate that
stands alone in a name becomes the replacement character, so names that differ in such codes only
are one name here.
-/

namespace SatLab

/-- Why a text is no document. -/
inductive DocumentFault where
  | malformed
  | tooLong (digits : Nat)
  /-- A list or a record stands inside too many others. -/
  | tooDeep (isRecord : Bool)
deriving DecidableEq

namespace Document

/-- A list or record that is not closed yet: the items read so far, the last one first, or the
fields read so far. -/
inductive Unfinished where
  | list (items : List Document)
  | record (fields : List (String × Document))
  | field (fields : List (String × Document)) (name : String)

/-- The most lists and records that may be open at once, where no other limit is given. -/
def nestingLimit : Nat := 985

/-- What may come next. -/
inductive Expected where
  | value
  | valueOrEnd
  | name
  | nameOrEnd
  | colon (name : String)
  | separator
  | nothing (d : Document)

/-- The state of the reader between two words. -/
structure Reading where
  expected : Expected
  stack : List Unfinished

namespace Reading

/-- One more list or record is opened. -/
def openInside (limit : Nat) (isRecord : Bool) (stack : List Unfinished) :
    Except DocumentFault Reading :=
  if limit ≤ stack.length then .error (.tooDeep isRecord)
  else if isRecord then .ok { expected := .nameOrEnd, stack := .record [] :: stack }
  else .ok { expected := .valueOrEnd, stack := .list [] :: stack }

/-- A value is complete and goes into what surrounds it. -/
def deliver (d : Document) : List Unfinished → Reading
  | .list items :: stack => { expected := .separator, stack := .list (d :: items) :: stack }
  | .field fields name :: stack =>
    { expected := .separator, stack := .record (putField fields name d) :: stack }
  | stack => { expected := .nothing d, stack }

/-- A word where a value has to be. -/
def readValue (limit : Nat) (stack : List Unfinished) : Token → Except DocumentFault Reading
  | .openList => openInside limit false stack
  | .openRecord => openInside limit true stack
  | .text codes => .ok (deliver (.ofCodes codes) stack)
  | .plain value => .ok (deliver value stack)
  | .tooLong digits => .error (.tooLong digits)
  | _ => .error .malformed

/-- The innermost list or record is closed. -/
def close : Token → List Unfinished → Except DocumentFault Reading
  | .closeList, .list items :: stack => .ok (deliver (.list items.reverse) stack)
  | .closeRecord, .record fields :: stack => .ok (deliver (.record fields) stack)
  | _, _ => .error .malformed

/-- Takes in a word. The name of a field loses the surrogates that stand alone in it. -/
def step (limit : Nat) (r : Reading) (t : Token) : Except DocumentFault Reading :=
  match r.expected with
  | .value => readValue limit r.stack t
  | .valueOrEnd =>
    match t with
    | .closeList => close t r.stack
    | _ => readValue limit r.stack t
  | .name =>
    match t with
    | .text codes => .ok { r with expected := .colon (lossyText codes) }
    | _ => .error .malformed
  | .nameOrEnd =>
    match t with
    | .text codes => .ok { r with expected := .colon (lossyText codes) }
    | _ => close t r.stack
  | .colon name =>
    match t, r.stack with
    | .colon, .record fields :: stack =>
      .ok { expected := .value, stack := .field fields name :: stack }
    | _, _ => .error .malformed
  | .separator =>
    match t, r.stack with
    | .comma, .list _ :: _ => .ok { r with expected := .value }
    | .comma, .record _ :: _ => .ok { r with expected := .name }
    | _, _ => close t r.stack
  | .nothing _ => .error .malformed

end Reading

/-- The document that a list of words spells. -/
def ofTokens (limit : Nat) (tokens : List Token) : Except DocumentFault Document := do
  let final ← tokens.foldlM (Reading.step limit) { expected := .value, stack := [] }
  match final.expected with
  | .nothing d => return d
  | _ => throw .malformed

/-- The document that a text spells, if it is not nested too deeply. -/
def parse (text : String) (limit : Nat := nestingLimit) : Except DocumentFault Document :=
  ofTokens limit (Token.scan text.toList)

end Document

end SatLab
