/-!
White space of Unicode text: the separators, the line and paragraph breaks, and the control
characters that separate fields or lines.
-/

namespace SatLab

/-- The code points of white space. -/
def blankCodes : List Nat :=
  [
    0x9, 0xa, 0xb, 0xc, 0xd, 0x1c, 0x1d, 0x1e, 0x1f, 0x20, 0x85, 0xa0, 0x1680, 0x2000, 0x2001,
    0x2002, 0x2003, 0x2004, 0x2005, 0x2006, 0x2007, 0x2008, 0x2009, 0x200a, 0x2028, 0x2029,
    0x202f, 0x205f, 0x3000
  ]

/-- Whether a character is white space. -/
def isBlank (c : Char) : Bool := blankCodes.contains c.toNat

/-- A text without its white space. -/
def withoutBlanks (text : List Char) : List Char := text.filter fun c => !isBlank c

/-- A text without the white space at its end. -/
def trimBlanksRight (text : List Char) : List Char :=
  (text.reverse.dropWhile isBlank).reverse

end SatLab
