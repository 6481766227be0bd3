import SatLab.Text.Hexadecimal

/-!
Texts in double quotes, as documents hold them.

A backslash begins an escape: a letter for a control character, or `u` and the four hexadecimal
digits of a code. No control character stands for itself. A text is kept by its code points, as it
may hold surrogates that stand alone.
-/

namespace SatLab

namespace QuotedText

/-- The character that a letter stands for after a backslash. -/
def unescaped? (c : Char) : Option Char :=
  [('"', '"'), ('\\', '\\'), ('/', '/'), ('b', '\x08'), ('f', '\x0c'), ('n', '\n'),
    ('r', '\r'), ('t', '\t')].lookup c

/-- The code of four hexadecimal digits and the text after them. -/
def codeUnit? : List Char → Option (Nat × List Char)
  | a :: b :: c :: d :: rest => (hexValue? [a, b, c, d]).map (·, rest)
  | _ => none

theorem length_of_codeUnit? {chars rest : List Char} {code : Nat}
    (h : codeUnit? chars = some (code, rest)) : rest.length < chars.length := by
  unfold codeUnit? at h
  split at h
  · obtain ⟨value, hValue, hPair⟩ := Option.map_eq_some_iff.1 h
    obtain ⟨rfl, rfl⟩ := Prod.mk.inj hPair
    simp only [List.length_cons]
    omega
  · cases h

/-- The code point of a code unit and what is left: two surrogates in a row make one code
point. -/
def codePoint (code : Nat) (rest : List Char) : Nat × List Char :=
  if 0xd800 ≤ code ∧ code < 0xdc00 then
    match rest with
    | '\\' :: 'u' :: more =>
      match codeUnit? more with
      | some (low, after) =>
        if 0xdc00 ≤ low ∧ low < 0xe000 then
          (0x10000 + (code - 0xd800) * 0x400 + (low - 0xdc00), after)
        else (code, rest)
      | none => (code, rest)
    | _ => (code, rest)
  else (code, rest)

theorem length_codePoint_le (code : Nat) (rest : List Char) :
    (codePoint code rest).2.length ≤ rest.length := by
  unfold codePoint
  repeat' split
  all_goals try exact Nat.le_refl _
  rename_i more _ low after hUnit _
  have := length_of_codeUnit? hUnit
  simp only [List.length_cons]
  omega

/-- Reads a text up to its closing quote, and returns what follows it too. The code points read so
far are in `read`, the last one first. -/
def body? (read : List Nat) (chars : List Char) : Option (List Nat × List Char) :=
  match chars with
  | [] => none
  | '"' :: rest => some (read.reverse, rest)
  | '\\' :: 'u' :: rest =>
    match _ : codeUnit? rest with
    | none => none
    | some (code, after) => body? ((codePoint code after).1 :: read) (codePoint code after).2
  | '\\' :: c :: rest =>
    match unescaped? c with
    | some char => body? (char.toNat :: read) rest
    | none => none
  | c :: rest => if c.toNat < 0x20 then none else body? (c.toNat :: read) rest
termination_by chars.length
decreasing_by
  · have hUnit := length_of_codeUnit? ‹_›
    have hRest := length_codePoint_le code after
    simp only [List.length_cons]
    omega
  · simp only [List.length_cons]
    omega
  · simp only [List.length_cons]
    omega

theorem length_of_body? {read codes : List Nat} {chars rest : List Char}
    (h : body? read chars = some (codes, rest)) : rest.length < chars.length := by
  fun_induction body? read chars with
  | case1 => cases h
  | case2 read rest' =>
      obtain ⟨_, rfl⟩ := Prod.mk.inj (Option.some.inj h)
      simp
  | case3 => cases h
  | case4 read rest' code after hUnit ih =>
      have := ih h
      have := length_of_codeUnit? hUnit
      have := length_codePoint_le code after
      simp only [List.length_cons]
      omega
  | case5 read c rest' hNot plain hPlain ih =>
      have := ih h
      simp only [List.length_cons]
      omega
  | case6 => cases h
  | case7 => cases h
  | case8 read c rest' hQuote hEscape hBackslash hPrintable ih =>
      have := ih h
      simp only [List.length_cons]
      omega

end QuotedText

end SatLab
