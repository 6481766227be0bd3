import SatLab.Document.Basic
import SatLab.Document.Numeral
import SatLab.Document.QuotedText

/-!
The words of the text of a document: brackets, separators, texts and plain values.

A character that starts no word ends the list with an invalid one, so the words before it are
still seen.
-/

namespace SatLab

inductive Token where
  | openList
  | closeList
  | openRecord
  | closeRecord
  | comma
  | colon
  /-- A text by its code points. -/
  | text (codes : List Nat)
  | plain (value : Document)
  | tooLong (digits : Nat)
  | invalid

namespace Token

/-- The word that a numeral is. -/
def ofNumeral : Numeral → Token
  | .integer value => .plain (.int value)
  | .real value => .plain (.real value)
  | .tooLong digits => .tooLong digits

/-- The plain words. -/
def words : List (List Char × Document) :=
  [("null".toList, .null), ("true".toList, .flag true), ("false".toList, .flag false),
    ("NaN".toList, .real .undefined), ("Infinity".toList, .real (.infinite false)),
    ("-Infinity".toList, .real (.infinite true))]

/-- The plain word at the start of a text. -/
def word? (chars : List Char) : Option (List Char × Document) :=
  words.find? fun (spelling, _) => spelling.isPrefixOf chars

/-- A word of one character. -/
def mark? (c : Char) : Option Token :=
  [('[', openList), (']', closeList), ('\x7b', openRecord), ('\x7d', closeRecord),
    (',', comma), (':', colon)].lookup c

/-- The white space between words. -/
def isSpace (c : Char) : Bool := c == ' ' || c == '\t' || c == '\n' || c == '\r'

/-- The word at the start of a text that is not white space, and what follows it. -/
def next? (c : Char) (rest : List Char) : Option (Token × List Char) :=
  match mark? c with
  | some t => some (t, rest)
  | none =>
    if c = '"' then (QuotedText.body? [] rest).map fun (codes, after) => (.text codes, after)
    else
      match Numeral.read? (c :: rest) with
      | some (numeral, after) => some (ofNumeral numeral, after)
      | none => (word? (c :: rest)).map fun (spelling, value) =>
          (.plain value, rest.drop (spelling.length - 1))

theorem length_of_next? {c : Char} {rest after : List Char} {t : Token}
    (h : next? c rest = some (t, after)) : after.length < (c :: rest).length := by
  unfold next? at h
  split at h
  · obtain ⟨_, rfl⟩ := Prod.mk.inj (Option.some.inj h)
    simp
  · split at h
    · obtain ⟨⟨codes, left⟩, hText, hPair⟩ := Option.map_eq_some_iff.1 h
      obtain ⟨_, rfl⟩ := Prod.mk.inj hPair
      have := QuotedText.length_of_body? hText
      simp only [List.length_cons]
      omega
    · split at h
      · rename_i numeral left hRead
        obtain ⟨_, rfl⟩ := Prod.mk.inj (Option.some.inj h)
        exact Numeral.length_of_read? hRead
      · obtain ⟨⟨spelling, value⟩, hWord, hPair⟩ := Option.map_eq_some_iff.1 h
        obtain ⟨_, rfl⟩ := Prod.mk.inj hPair
        simp only [List.length_drop, List.length_cons]
        omega

/-- The words of a text. -/
def scan (chars : List Char) : List Token :=
  match chars with
  | [] => []
  | c :: rest =>
    if isSpace c then scan rest
    else
      match _ : next? c rest with
      | none => [invalid]
      | some (t, after) => t :: scan after
termination_by chars.length
decreasing_by
  · simp only [List.length_cons]
    omega
  · exact length_of_next? ‹_›

end Token

end SatLab
