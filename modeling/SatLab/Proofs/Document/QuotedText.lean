import SatLab.Document.QuotedText
import SatLab.Document.Writer

/-! A text in quotes is read back: every character is spelled in a way that stands for just this
character, and its spelling ends before the next one begins. -/

namespace SatLab

theorem hexDigit?_digitChar {d : Nat} (h : d < 16) : hexDigit? d.digitChar = some d := by
  have hAll : ∀ d < 16, hexDigit? d.digitChar = some d := by decide
  exact hAll d h

/-- Hexadecimal digits are read as the number they were written for. -/
theorem hexValue?_toDigits (n : Nat) : hexValue? (Nat.toDigits 16 n) = some n := by
  induction n using Nat.strongRecOn with
  | ind n ih =>
      have hDigit := hexDigit?_digitChar (Nat.mod_lt n (by decide : 0 < 16))
      rcases Nat.lt_or_ge n 16 with hLt | hGe
      · rw [Nat.mod_eq_of_lt hLt] at hDigit
        simp [Nat.toDigits_of_lt_base hLt, hexValue?, hDigit]
      · have hRest := ih (n / 16) (by omega)
        rw [hexValue?] at hRest
        rw [Nat.toDigits_of_base_le (by decide) hGe, hexValue?, List.foldlM_append, hRest]
        simp only [Option.bind_eq_bind, Option.bind_some, List.foldlM_cons, hDigit, Option.map_some,
          List.foldlM_nil]
        exact congrArg some (by omega)

/-- Leading zeros do not change the value of hexadecimal digits. -/
theorem hexValue?_zeros (zeros : Nat) (digits : List Char) :
    hexValue? (List.replicate zeros '0' ++ digits) = hexValue? digits := by
  induction zeros with
  | zero => rfl
  | succ zeros ih =>
      rw [List.replicate_succ, List.cons_append, hexValue?, List.foldlM_cons]
      exact ih

namespace QuotedText

/-- Four hexadecimal digits are read as one code unit. -/
theorem codeUnit?_hexFilled {n : Nat} (h : n < 0x10000) (rest : List Char) :
    codeUnit? (hexFilled 4 n ++ rest) = some (n, rest) := by
  have hShort : (Nat.toDigits 16 n).length ≤ 4 :=
    (Nat.length_toDigits_le_iff (by decide) (by decide)).2 h
  have hLength : (hexFilled 4 n).length = 4 := by
    rw [hexFilled, List.leftpad, List.length_append, List.length_replicate]
    omega
  have hValue : hexValue? (hexFilled 4 n) = some n := by
    rw [hexFilled, List.leftpad, hexValue?_zeros, hexValue?_toDigits]
  match hFilled : hexFilled 4 n, hLength with
  | [a, b, c, d], _ =>
      rw [hFilled] at hValue
      simp [codeUnit?, hValue]

section Step

variable {read : List Nat} {c : Char} {rest : List Char}

theorem body?_quote : body? read ('"' :: rest) = some (read.reverse, rest) := by
  rw [body?]

theorem body?_escape {char : Char} (hc : c ≠ 'u') (h : unescaped? c = some char) :
    body? read ('\\' :: c :: rest) = body? (char.toNat :: read) rest := by
  rw [body?]
  · rw [h]
  · simpa using hc

theorem body?_unit {code : Nat} {after : List Char} (h : codeUnit? rest = some (code, after)) :
    body? read ('\\' :: 'u' :: rest) =
      body? ((codePoint code after).1 :: read) (codePoint code after).2 := by
  rw [body?]
  split
  · simp_all
  · simp_all

theorem body?_plain (hQuote : c ≠ '"') (hBackslash : c ≠ '\\') (h : 0x20 ≤ c.toNat) :
    body? read (c :: rest) = body? (c.toNat :: read) rest := by
  rw [body?]
  · rw [if_neg (Nat.not_lt.2 h)]
  · simpa using hQuote
  · simp [hBackslash]
  · simp [hBackslash]

/-- A code unit that is a character by itself is not joined with the next one. -/
theorem codePoint_of_valid (c : Char) (rest : List Char) :
    codePoint c.toNat rest = (c.toNat, rest) := by
  have hValid : ¬(0xd800 ≤ c.toNat ∧ c.toNat < 0xdc00) := by
    have hRange : c.toNat < 0xd800 ∨ 0xdfff < c.toNat ∧ c.toNat < 0x110000 := c.valid
    omega
  simp only [codePoint, hValid, if_false]

/-- Two surrogates in a row stand for one character beyond the basic plane. -/
theorem codePoint_pair {high low : Nat} (hHigh : high < 0x400) (hLow : low < 0x400)
    (rest : List Char) :
    codePoint (0xd800 + high) ('\\' :: 'u' :: (hexFilled 4 (0xdc00 + low) ++ rest)) =
      (0x10000 + high * 0x400 + low, rest) := by
  have hUnit := codeUnit?_hexFilled (n := 0xdc00 + low) (by omega) rest
  have hFirst : 0xd800 ≤ 0xd800 + high ∧ 0xd800 + high < 0xdc00 := by omega
  have hSecond : 0xdc00 ≤ 0xdc00 + low ∧ 0xdc00 + low < 0xe000 := by omega
  simp only [codePoint, hFirst, and_self, if_true, hUnit, hSecond, Nat.add_sub_cancel_left]

/-- Two escaped surrogates are read as the one character they stand for. -/
theorem body?_pair {high low : Nat} (hHigh : high < 0x400) (hLow : low < 0x400) :
    body? read ('\\' :: 'u' :: (hexFilled 4 (0xd800 + high) ++
      '\\' :: 'u' :: (hexFilled 4 (0xdc00 + low) ++ rest))) =
      body? ((0x10000 + high * 0x400 + low) :: read) rest := by
  have hUnit := codeUnit?_hexFilled (n := 0xd800 + high) (by omega)
    ('\\' :: 'u' :: (hexFilled 4 (0xdc00 + low) ++ rest))
  rw [body?_unit hUnit, codePoint_pair hHigh hLow]

theorem body?_escapedCode_of_large {n : Nat} (hLarge : ¬n < 0x10000) (hRange : n < 0x110000) :
    body? read (escapedCode n ++ rest) = body? (n :: read) rest := by
  have hHigh : (n - 0x10000) / 0x400 < 0x400 := by omega
  have hLow : (n - 0x10000) % 0x400 < 0x400 := Nat.mod_lt _ (by decide)
  have hCode : 0x10000 + (n - 0x10000) / 0x400 * 0x400 + (n - 0x10000) % 0x400 = n := by omega
  rw [escapedCode, if_neg hLarge, List.append_assoc, List.cons_append, List.cons_append,
    List.cons_append, List.cons_append, body?_pair hHigh hLow, hCode]

/-- An escaped character is read back, whether it takes one escape or two. -/
theorem body?_escapedCode :
    body? read (escapedCode c.toNat ++ rest) = body? (c.toNat :: read) rest := by
  by_cases hBasic : c.toNat < 0x10000
  · rw [escapedCode, if_pos hBasic, List.cons_append, List.cons_append,
      body?_unit (codeUnit?_hexFilled hBasic rest), codePoint_of_valid]
  · refine body?_escapedCode_of_large hBasic ?_
    have hValid : c.toNat < 0xd800 ∨ 0xdfff < c.toNat ∧ c.toNat < 0x110000 := c.valid
    omega

/-- Every character of a text is read back as itself. -/
theorem body?_escapedChar :
    body? read (escapedChar c ++ rest) = body? (c.toNat :: read) rest := by
  rw [escapedChar]
  split
  · rename_i hMark
    rcases hMark with rfl | rfl
    · exact body?_escape (by decide) (by decide)
    · exact body?_escape (by decide) (by decide)
  iterate 5
    split
    · rename_i hControl
      subst hControl
      exact body?_escape (by decide) (by decide)
  split
  · rename_i hMark _ _ _ _ _ hPlain
    rw [not_or] at hMark
    exact body?_plain hMark.1 hMark.2 hPlain.1
  · exact body?_escapedCode

end Step

/-- A text is read back from its quotes. -/
theorem body?_escapedText (text : String) (rest : List Char) :
    body? [] (text.toList.flatMap escapedChar ++ '"' :: rest) =
      some (text.toList.map Char.toNat, rest) := by
  have hRead : ∀ (chars : List Char) read, body? read (chars.flatMap escapedChar ++ '"' :: rest) =
      some (read.reverse ++ chars.map Char.toNat, rest) := by
    intro chars
    induction chars with
    | nil => simp [body?_quote]
    | cons c chars ih =>
        intro read
        rw [List.flatMap_cons, List.append_assoc, body?_escapedChar, ih]
        simp
  exact hRead text.toList []

end QuotedText

end SatLab
