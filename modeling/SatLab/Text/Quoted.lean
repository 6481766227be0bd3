import SatLab.Text.Hexadecimal
import SatLab.Text.Printable

/-!
Texts quoted for messages, on one line and in printable characters only.
-/

namespace SatLab

/-- A character inside quotes. The quote itself and the backslash get a backslash in front, and
characters that cannot be printed are written by their code. -/
def quotedChar (quote c : Char) : List Char :=
  if c = quote ∨ c = '\\' then ['\\', c]
  else if c = '\t' then ['\\', 't']
  else if c = '\n' then ['\\', 'n']
  else if c = '\r' then ['\\', 'r']
  else if isPrintable c then [c]
  else if c.toNat < 0x100 then '\\' :: 'x' :: hexFilled 2 c.toNat
  else if c.toNat < 0x10000 then '\\' :: 'u' :: hexFilled 4 c.toNat
  else '\\' :: 'U' :: hexFilled 8 c.toNat

/-- The quote around a text: the single one, unless the text holds it and no double one. -/
def quoteFor (text : List Char) : Char :=
  if text.contains '\'' && !text.contains '"' then '"' else '\''

/-- A text in quotes. -/
def quoted (text : String) : String :=
  let chars := text.toList
  let quote := quoteFor chars
  String.ofList (quote :: (chars.flatMap (quotedChar quote) ++ [quote]))

/-- A text in quotes, by its code points. A surrogate that stands alone is written by its code. -/
def quotedCodes (codes : List Nat) : List Char :=
  let quote := quoteFor (codes.map Char.ofNat)
  let codeChars (code : Nat) : List Char :=
    if code.isValidChar then quotedChar quote (Char.ofNat code)
    else '\\' :: 'u' :: hexFilled 4 code
  quote :: (codes.flatMap codeChars ++ [quote])

end SatLab
