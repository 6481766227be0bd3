import SatLab.Text.Hexadecimal

/-!
UTF-8, read strictly: one byte at a time, with the bounds of the next byte kept while a character
is open. The first sequence that cannot be completed is reported with its place.

Long files are read in blocks. What a block leaves open is put in front of the next one, and
places are counted in the block that was being read.
-/

namespace SatLab

/-- What is wrong with a sequence of bytes. -/
inductive Utf8Problem where
  | start
  | continuation
  | ending
deriving DecidableEq

/-- A sequence of bytes that is no character: its place, its first byte, and the number of bytes
that belong to it. -/
structure Utf8Fault where
  place : Nat
  lead : Nat
  length : Nat
  problem : Utf8Problem
deriving DecidableEq

namespace Utf8Fault

def reason : Utf8Problem → String
  | .start => "invalid start byte"
  | .continuation => "invalid continuation byte"
  | .ending => "unexpected end of data"

def message (f : Utf8Fault) : String :=
  let subject :=
    if f.length = 1 then
      "byte 0x" ++ String.ofList (hexFilled 2 f.lead) ++ " in position " ++ toString f.place
    else
      "bytes in position " ++ toString f.place ++ "-" ++ toString (f.place + f.length - 1)
  "'utf-8' codec can't decode " ++ subject ++ ": " ++ reason f.problem

end Utf8Fault

namespace Utf8

/-- A character whose bytes are not complete: its place and first byte, the bytes taken and still
owed, the bits collected, and the bounds of the next byte. -/
structure Pending where
  place : Nat
  lead : Nat
  taken : Nat
  owed : Nat
  bits : Nat
  low : Nat
  high : Nat

/-- The open character that a first byte begins. -/
def pending? (place lead : Nat) : Option Pending :=
  if 0xc2 ≤ lead ∧ lead ≤ 0xdf then
    some { place, lead, taken := 1, owed := 1, bits := lead - 0xc0, low := 0x80, high := 0xbf }
  else if 0xe0 ≤ lead ∧ lead ≤ 0xef then
    some { place, lead, taken := 1, owed := 2, bits := lead - 0xe0,
           low := if lead = 0xe0 then 0xa0 else 0x80,
           high := if lead = 0xed then 0x9f else 0xbf }
  else if 0xf0 ≤ lead ∧ lead ≤ 0xf4 then
    some { place, lead, taken := 1, owed := 3, bits := lead - 0xf0,
           low := if lead = 0xf0 then 0x90 else 0x80,
           high := if lead = 0xf4 then 0x8f else 0xbf }
  else none

def Pending.fault (p : Pending) (problem : Utf8Problem) : Utf8Fault :=
  { place := p.place, lead := p.lead, length := p.taken, problem }

/-- Reads bytes on from a place. The characters read are collected in `read`, the last one
first; a character left open at the end is returned with them. -/
def decodeFrom (read : List Char) (place : Nat) (p : Option Pending) :
    List UInt8 → Except Utf8Fault (List Char × Option Pending)
  | [] => .ok (read, p)
  | byte :: rest =>
    let b := byte.toNat
    match p with
    | none =>
      if b < 0x80 then decodeFrom (Char.ofNat b :: read) (place + 1) none rest
      else
        match pending? place b with
        | some q => decodeFrom read (place + 1) (some q) rest
        | none => .error { place, lead := b, length := 1, problem := .start }
    | some q =>
      if q.low ≤ b ∧ b ≤ q.high then
        let bits := q.bits * 0x40 + (b - 0x80)
        if q.owed = 1 then decodeFrom (Char.ofNat bits :: read) (place + 1) none rest
        else
          decodeFrom read (place + 1)
            (some { q with taken := q.taken + 1, owed := q.owed - 1, bits,
                           low := 0x80, high := 0xbf }) rest
      else .error (q.fault .continuation)

/-- The text of a whole file. -/
def decode (bytes : List UInt8) : Except Utf8Fault (List Char) := do
  let (read, p) ← decodeFrom [] 0 none bytes
  match p with
  | some q => throw (q.fault .ending)
  | none => return read.reverse

/-- The bytes of a text. -/
def encode (text : String) : List UInt8 := text.toByteArray.toList

/-- The size of the blocks that long files are read in. -/
def blockSize : Nat := 8192

/-- A text as far as it could be read, and what stopped it. -/
structure Decoded where
  text : List Char
  fault : Option Utf8Fault

/-- Reads a file in blocks. A block that holds a fault contributes nothing to the text. The
bytes of a character left open by a block are in `carried`. -/
def decodeBlocks (carried bytes : List UInt8) : Decoded :=
  let block := carried ++ bytes.take blockSize
  match decodeFrom [] 0 none block with
  | .error fault => { text := [], fault := some fault }
  | .ok (read, p) =>
    match _ : bytes with
    | [] => { text := read.reverse, fault := p.map (·.fault .ending) }
    | _ :: _ =>
      let left := (p.map fun q => block.drop q.place).getD []
      let rest := decodeBlocks left (bytes.drop blockSize)
      { rest with text := read.reverse ++ rest.text }
termination_by bytes.length
decreasing_by
  subst_vars
  simp only [List.length_drop, List.length_cons, blockSize]
  omega

end Utf8

end SatLab
