import Mathlib.Data.List.DropRight
import SatLab.Document.Numeral
import SatLab.Proofs.Number.Shortest

/-! Numerals are read back from the text they are written as, whatever follows them, as long as it
could not be a part of the numeral. -/

namespace SatLab

/-- The decimal of a number other than zero has no leading zero. -/
theorem head_toDigits_ne {n : Nat} (h : n ≠ 0) : (Nat.toDigits 10 n).head? ≠ some '0' := by
  induction n using Nat.strongRecOn with
  | ind n ih =>
      rcases Nat.lt_or_ge n 10 with hLt | hGe
      · rw [Nat.toDigits_of_lt_base hLt]
        simpa using h
      · have hRest := ih (n / 10) (by omega) (by omega)
        rwa [Nat.toDigits_of_base_le (by decide) hGe, List.head?_append_of_ne_nil _
          Nat.toDigits_ne_nil]

/-- Only zero is written with a zero in front. -/
theorem toDigits_eq_singleton {n : Nat} {rest : List Char} (h : Nat.toDigits 10 n = '0' :: rest) :
    rest = [] := by
  rcases Nat.eq_zero_or_pos n with rfl | hPos
  · simpa using h.symm
  · exact absurd (by rw [h]; rfl) (head_toDigits_ne hPos.ne')

theorem toList_toString (k : Int) :
    (toString k).toList = (if decide (k < 0) then ['-'] else []) ++ Nat.toDigits 10 k.natAbs := by
  cases k with
  | ofNat n =>
      have hSign : ¬(Int.ofNat n < 0) := Int.not_lt.2 (Int.natCast_nonneg n)
      rw [decide_eq_false hSign]
      exact Nat.toList_repr
  | negSucc n =>
      have hText : toString (Int.negSucc n) = "-" ++ (n + 1).repr := rfl
      rw [hText, String.toList_append, Nat.toList_repr, decide_eq_true (Int.negSucc_lt_zero n)]
      rfl

namespace Numeral

/-- A text that does not go on with a digit. -/
def NoDigit (rest : List Char) : Prop := ∀ c ∈ rest.head?, c.isDigit = false

/-- A text that cannot go on with a part of a numeral. -/
def Ends (rest : List Char) : Prop :=
  ∀ c ∈ rest.head?, c.isDigit = false ∧ c ≠ '.' ∧ c ≠ 'e' ∧ c ≠ 'E'

section Parts

variable {digits rest : List Char}

theorem Ends.noDigit (h : Ends rest) : NoDigit rest := fun c hc => (h c hc).1

/-- Taking digits stops where the digits end. -/
theorem span_digits (h : ∀ c ∈ digits, c.isDigit = true) (hRest : NoDigit rest) :
    (digits ++ rest).takeWhile Char.isDigit = digits ∧
      (digits ++ rest).dropWhile Char.isDigit = rest := by
  have hStop : rest.takeWhile Char.isDigit = [] ∧ rest.dropWhile Char.isDigit = rest := by
    cases rest with
    | nil => exact ⟨rfl, rfl⟩
    | cons c rest => simp [hRest c rfl]
  rw [List.takeWhile_append_of_pos h, List.dropWhile_append_of_pos h, hStop.1, hStop.2,
    List.append_nil]
  exact ⟨rfl, rfl⟩

theorem head_any_isDigit (hNil : digits ≠ []) (h : ∀ c ∈ digits, c.isDigit = true) :
    (digits ++ rest).head?.any Char.isDigit = true := by
  cases digits with
  | nil => exact absurd rfl hNil
  | cons c digits => exact h c List.mem_cons_self

/-- A point with digits after it is read as the fraction of a numeral. -/
theorem fraction_point (hNil : digits ≠ []) (h : ∀ c ∈ digits, c.isDigit = true)
    (hRest : NoDigit rest) : fraction ('.' :: (digits ++ rest)) = (digits, rest) := by
  obtain ⟨hTake, hDrop⟩ := span_digits h hRest
  rw [fraction, if_pos (head_any_isDigit hNil h), hTake, hDrop]

theorem fraction_of_ne (h : ∀ c ∈ rest.head?, c ≠ '.') : fraction rest = ([], rest) := by
  unfold fraction
  split
  · exact absurd rfl (h '.' rfl)
  · rfl

theorem powerOfTen_of_ends (h : Ends rest) : powerOfTen rest = (none, rest) := by
  cases rest with
  | nil => rfl
  | cons c rest =>
      obtain ⟨-, -, hSmall, hLarge⟩ := h c rfl
      simp [powerOfTen, hSmall, hLarge]

/-- A written exponent is read back. -/
theorem powerOfTen_exponentText (exponent : Int) (hRest : NoDigit rest) :
    powerOfTen ('e' :: (exponentText exponent ++ rest)) = (some exponent, rest) := by
  have hDigits : ∀ c ∈ (Nat.toDigits 10 exponent.natAbs).leftpad 2 '0', c.isDigit = true := by
    intro c hc
    rcases List.mem_append.1 hc with hZero | hDigit
    · rw [List.eq_of_mem_replicate hZero]
      rfl
    · exact Nat.isDigit_of_mem_toDigits (by decide) (by decide) hDigit
  have hNil : (Nat.toDigits 10 exponent.natAbs).leftpad 2 '0' ≠ [] := by simp [List.leftpad]
  have hValue : Nat.ofDigitChars 10 ((Nat.toDigits 10 exponent.natAbs).leftpad 2 '0') 0 =
      exponent.natAbs := by
    rw [List.leftpad, Nat.ofDigitChars_append, Nat.ofDigitChars_replicate_zero, Nat.mul_zero,
      Nat.ofDigitChars_ten_toDigits]
  have hWithout : withoutSign (exponentText exponent ++ rest) =
      (Nat.toDigits 10 exponent.natAbs).leftpad 2 '0' ++ rest := by
    rw [exponentText, List.cons_append, withoutSign]
    split_ifs <;> simp_all
  have hSign : (if (exponentText exponent ++ rest).head? = some '-' then
      -(exponent.natAbs : Int) else exponent.natAbs) = exponent := by
    rw [exponentText, List.cons_append, List.head?_cons]
    by_cases hNegative : exponent < 0
    · rw [if_pos hNegative, if_pos rfl]
      omega
    · rw [if_neg hNegative, if_neg (by decide)]
      omega
  obtain ⟨hTake, hDrop⟩ := span_digits hDigits hRest
  rw [powerOfTen, hWithout]
  simp only [head_any_isDigit hNil hDigits, hTake, hDrop, hValue, hSign]
  rfl

end Parts

/-- What a numeral with these parts spells. -/
def spell (negative : Bool) (whole places : List Char) (power : Option Int) : Numeral :=
  if places.isEmpty ∧ power.isNone then
    if integerDigitLimit < whole.length then .tooLong whole.length
    else
      let value : Int := Nat.ofDigitChars 10 whole 0
      .integer (if negative then -value else value)
  else
    .real (.ofDecimal negative (Nat.ofDigitChars 10 (whole ++ places) 0)
      (power.getD 0 - places.length))

/-- The parts of a numeral are read one after the other. -/
theorem read?_parts (negative : Bool) (c : Char) (whole : List Char)
    {after places afterPlaces rest : List Char} {power : Option Int}
    (hWhole : ∀ d ∈ c :: whole, d.isDigit = true)
    (hZero : c = '0' → whole = []) (hAfter : NoDigit after)
    (hFraction : fraction after = (places, afterPlaces))
    (hPower : powerOfTen afterPlaces = (power, rest)) :
    read? ((if negative then ['-'] else []) ++ c :: (whole ++ after)) =
      some (spell negative (c :: whole) places power, rest) := by
  rw [List.forall_mem_cons] at hWhole
  have hc : c.isDigit = true := hWhole.1
  have hMinus : c ≠ '-' := by
    rintro rfl
    exact absurd hc (by decide)
  have hSign : (((if negative then ['-'] else []) ++ c :: (whole ++ after)).head? == some '-') =
      negative := by
    cases negative <;> simp [hMinus]
  have hUnsigned : (if negative then ((if negative then ['-'] else []) ++ c :: (whole ++ after)).drop 1
      else (if negative then ['-'] else []) ++ c :: (whole ++ after)) = c :: (whole ++ after) := by
    cases negative <;> rfl
  obtain ⟨hTake, hDrop⟩ := span_digits hWhole.2 hAfter
  have hFirst : (if c = '0' then [c] else c :: whole) = c :: whole := by
    split_ifs with h
    · rw [hZero h]
    · rfl
  have hLeft : (if c = '0' then whole ++ after else after) = after := by
    split_ifs with h
    · rw [hZero h]
      rfl
    · rfl
  simp only [read?, hSign, hUnsigned, hc, if_true, hTake, hDrop, hFirst, hLeft, hFraction, hPower]
  rfl

/-- A whole number is read as its sign and digits. -/
theorem read?_digits (negative : Bool) (n : Nat) {rest : List Char} (hRest : Ends rest) :
    read? ((if negative then ['-'] else []) ++ (Nat.toDigits 10 n ++ rest)) =
      some (spell negative (Nat.toDigits 10 n) [] none, rest) := by
  obtain ⟨c, whole, hCons⟩ := List.exists_cons_of_ne_nil (Nat.toDigits_ne_nil (n := n) (b := 10))
  have hDigits : ∀ d ∈ c :: whole, d.isDigit = true := by
    rw [← hCons]
    exact fun d => Nat.isDigit_of_mem_toDigits (by decide) (by decide)
  rw [hCons, List.cons_append]
  refine read?_parts negative c whole hDigits ?_ hRest.noDigit ?_ (powerOfTen_of_ends hRest)
  · rintro rfl
    exact toDigits_eq_singleton hCons
  · exact fraction_of_ne fun c hc => (hRest c hc).2.1

/-- An integer that can be written is read back. -/
theorem read?_int {k : Int} {rest : List Char} (hShort : k.natAbs < 10 ^ integerDigitLimit)
    (hRest : Ends rest) : read? ((toString k).toList ++ rest) = some (.integer k, rest) := by
  have hLength : ¬integerDigitLimit < (Nat.toDigits 10 k.natAbs).length := by
    rw [Nat.not_lt, Nat.length_toDigits_le_iff (by decide) (by decide)]
    exact hShort
  rw [toList_toString, List.append_assoc, read?_digits _ _ hRest, spell]
  simp only [List.isEmpty_nil, Option.isNone_none, and_self, if_true, if_neg hLength,
    Nat.ofDigitChars_ten_toDigits, decide_eq_true_eq]
  congr 3
  split_ifs <;> omega

section Decimals

variable {d : Decimal}

/-- The digits of a decimal without the zeros at its end. -/
def significant (d : Decimal) : List Char :=
  ((Nat.toDigits 10 d.digits).reverse.dropWhile (· == '0')).reverse

/-- The number of zeros left away. -/
def dropped (d : Decimal) : Nat := (Nat.toDigits 10 d.digits).length - (significant d).length

/-- The decimal digits are the significant ones and the zeros dropped behind them. -/
theorem toDigits_eq_significant (d : Decimal) :
    Nat.toDigits 10 d.digits = significant d ++ List.replicate (dropped d) '0' := by
  have hSplit := (List.rdropWhile_append_rtakeWhile (p := (· == '0'))
    (l := Nat.toDigits 10 d.digits)).symm
  have hZeros : (Nat.toDigits 10 d.digits).rtakeWhile (· == '0') =
      List.replicate (dropped d) '0' := by
    refine List.eq_replicate_iff.2 ⟨?_, fun c hc => ?_⟩
    · have hLength := congrArg List.length hSplit
      rw [List.length_append] at hLength
      rw [dropped, significant, ← List.rdropWhile]
      omega
    · simpa using List.mem_rtakeWhile_imp hc
  rwa [hZeros] at hSplit

/-- Putting the dropped zeros back gives the digits of the decimal. -/
theorem ofDigitChars_significant (d : Decimal) :
    Nat.ofDigitChars 10 (significant d) 0 * 10 ^ dropped d = d.digits := by
  have hValue := Nat.ofDigitChars_ten_toDigits (n := d.digits)
  rw [toDigits_eq_significant, Nat.ofDigitChars_append, Nat.ofDigitChars_replicate_zero] at hValue
  rw [Nat.mul_comm, hValue]

/-- The significant digits of a positive decimal start with a digit other than zero. -/
theorem significant_cons (hPos : 0 < d.digits) :
    ∃ c rest, significant d = c :: rest ∧ c ≠ '0' ∧ ∀ e ∈ c :: rest, e.isDigit = true := by
  have hSplit := toDigits_eq_significant d
  cases hCons : significant d with
  | nil =>
      have hValue := ofDigitChars_significant d
      rw [hCons] at hValue
      simp at hValue
      omega
  | cons c rest =>
      rw [hCons] at hSplit
      refine ⟨c, rest, rfl, ?_, fun e he => ?_⟩
      · rintro rfl
        exact head_toDigits_ne hPos.ne' (by rw [hSplit]; rfl)
      · refine Nat.isDigit_of_mem_toDigits (b := 10) (n := d.digits) (by decide) (by decide) ?_
        rw [hSplit]
        exact List.mem_append_left _ he

theorem length_toDigits (d : Decimal) :
    (Nat.toDigits 10 d.digits).length = (significant d).length + dropped d := by
  conv => lhs; rw [toDigits_eq_significant]
  rw [List.length_append, List.length_replicate]

/-- A numeral that spells the significant digits at their place spells the decimal. -/
theorem spell_eq_real (negative : Bool) {whole places : List Char} {power : Option Int} (k : Nat)
    (hReal : places ≠ [] ∨ power ≠ none)
    (hDigits : Nat.ofDigitChars 10 (whole ++ places) 0 =
      Nat.ofDigitChars 10 (significant d) 0 * 10 ^ k)
    (hExponent : power.getD 0 - places.length = d.exponent + dropped d - k) :
    spell negative whole places power = .real (.ofDecimal negative d.digits d.exponent) := by
  have hPlain : ¬(places.isEmpty = true ∧ power.isNone = true) := by
    rw [List.isEmpty_iff, Option.isNone_iff_eq_none]
    exact fun h => hReal.elim (absurd h.1) (absurd h.2)
  have hValue : Binary64.ofDecimal negative d.digits d.exponent =
      .ofDecimal negative (Nat.ofDigitChars 10 (significant d) 0) (d.exponent + dropped d) := by
    have hShift := Binary64.ofDecimal_shift negative
      (Nat.ofDigitChars 10 (significant d) 0) (dropped d) (d.exponent + dropped d)
    rwa [ofDigitChars_significant, Int.add_sub_cancel] at hShift
  rw [spell, if_neg hPlain, hDigits, hExponent, Binary64.ofDecimal_shift, hValue]

end Decimals

section Texts

variable (negative : Bool) {d : Decimal} {rest : List Char}

/-- The sign and the text of a decimal. -/
def signed (text : List Char) : List Char := (if negative then ['-'] else []) ++ text

/-- A decimal below a tenth, written with zeros after the point, is read back. -/
theorem read?_small (hPos : 0 < d.digits) (hRest : Ends rest)
    (hPoint : d.exponent + (Nat.toDigits 10 d.digits).length ≤ 0) :
    read? (signed negative ('0' :: '.' :: (List.replicate
      (-(d.exponent + (Nat.toDigits 10 d.digits).length)).toNat '0' ++ significant d)) ++ rest) =
      some (.real (.ofDecimal negative d.digits d.exponent), rest) := by
  obtain ⟨c, tail, hCons, -, hDigits⟩ := significant_cons hPos
  have hLength := length_toDigits d
  generalize hZeros : (-(d.exponent + (Nat.toDigits 10 d.digits).length)).toNat = zeros
  have hPlaces : ∀ e ∈ List.replicate zeros '0' ++ significant d, e.isDigit = true := by
    intro e he
    rcases List.mem_append.1 he with hZero | hDigit
    · rw [List.eq_of_mem_replicate hZero]
      rfl
    · exact hDigits e (hCons ▸ hDigit)
  have hNil : List.replicate zeros '0' ++ significant d ≠ [] := by simp [hCons]
  have hSpell : spell negative ['0'] (List.replicate zeros '0' ++ significant d) none =
      .real (.ofDecimal negative d.digits d.exponent) := by
    refine spell_eq_real negative 0 (.inl hNil) ?_ ?_
    · simp [Nat.ofDigitChars_cons, Nat.ofDigitChars_append, Nat.ofDigitChars_replicate_zero]
    · rw [List.length_append, List.length_replicate, Option.getD_none]
      omega
  rw [← hSpell, signed, List.append_assoc]
  exact read?_parts negative '0' [] (List.forall_mem_singleton.2 rfl) (fun _ => rfl)
    (by simp [NoDigit]) (fraction_point hNil hPlaces hRest.noDigit) (powerOfTen_of_ends hRest)

/-- A decimal written with the point among its digits is read back. -/
theorem read?_placed (hPos : 0 < d.digits) (hRest : Ends rest) {point : Nat}
    (hPoint : d.exponent + (Nat.toDigits 10 d.digits).length = point) (hWhole : 0 < point) :
    read? (signed negative (((significant d).take point).rightpad point '0' ++ '.' ::
      (if ((significant d).drop point).isEmpty then ['0'] else (significant d).drop point)) ++
        rest) = some (.real (.ofDecimal negative d.digits d.exponent), rest) := by
  obtain ⟨c, tail, hCons, hFirst, hDigits⟩ := significant_cons hPos
  have hLength := length_toDigits d
  have hSig : ∀ e ∈ significant d, e.isDigit = true := fun e he => hDigits e (hCons ▸ he)
  obtain ⟨n, rfl⟩ := Nat.exists_eq_succ_of_ne_zero hWhole.ne'
  generalize hPad : n + 1 - ((significant d).take (n + 1)).length = zeros
  -- the whole part begins with the first significant digit
  have hSplit : ((significant d).take (n + 1)).rightpad (n + 1) '0' =
      c :: (tail.take n ++ List.replicate zeros '0') := by
    rw [List.rightpad, hPad, hCons]
    rfl
  have hAll : ∀ e ∈ c :: (tail.take n ++ List.replicate zeros '0'), e.isDigit = true := by
    intro e he
    rw [← hSplit, List.rightpad, hPad] at he
    rcases List.mem_append.1 he with hDigit | hZero
    · exact hSig e (List.mem_of_mem_take hDigit)
    · rw [List.eq_of_mem_replicate hZero]
      rfl
  generalize hPlaces : (if ((significant d).drop (n + 1)).isEmpty then ['0']
    else (significant d).drop (n + 1)) = places
  have hNil : places ≠ [] := by
    rw [← hPlaces]
    split_ifs with hEmpty
    · simp
    · simpa using hEmpty
  have hPlacesDigits : ∀ e ∈ places, e.isDigit = true := by
    rw [← hPlaces]
    split_ifs
    · exact List.forall_mem_singleton.2 rfl
    · exact fun e he => hSig e (List.mem_of_mem_drop he)
  have hSpell : spell negative (c :: (tail.take n ++ List.replicate zeros '0')) places none =
      .real (.ofDecimal negative d.digits d.exponent) := by
    rw [← hSplit, List.rightpad, hPad]
    rcases le_or_gt (significant d).length (n + 1) with hLe | hGt
    · have hDrop : (significant d).drop (n + 1) = [] := List.drop_eq_nil_of_le hLe
      rw [List.take_of_length_le hLe] at hPad ⊢
      rw [hDrop] at hPlaces
      refine spell_eq_real negative (zeros + 1) (.inl hNil) ?_ ?_
      · rw [← hPlaces, Nat.ofDigitChars_append, Nat.ofDigitChars_append,
          Nat.ofDigitChars_replicate_zero]
        simp [Nat.ofDigitChars_cons, Nat.pow_succ]
        ac_rfl
      · rw [← hPlaces]
        simp
        omega
    · have hZero : zeros = 0 := by
        rw [List.length_take] at hPad
        omega
      have hDrop : ((significant d).drop (n + 1)).isEmpty = false := by
        rw [List.isEmpty_eq_false_iff, ← List.length_pos_iff, List.length_drop]
        omega
      rw [hDrop] at hPlaces
      refine spell_eq_real negative 0 (.inl hNil) ?_ ?_
      · rw [← hPlaces, hZero, List.replicate_zero, List.append_nil]
        simp
      · rw [← hPlaces]
        simp
        omega
  rw [hSplit, ← hSpell, signed, List.append_assoc, List.append_assoc]
  exact read?_parts negative c (tail.take n ++ List.replicate zeros '0') hAll
    (fun h => absurd h hFirst) (by simp [NoDigit])
    (fraction_point hNil hPlacesDigits hRest.noDigit) (powerOfTen_of_ends hRest)

/-- A decimal written with an exponent is read back. -/
theorem read?_scaled (hPos : 0 < d.digits) (hRest : Ends rest) {point : Int}
    (hPoint : d.exponent + (Nat.toDigits 10 d.digits).length = point) :
    read? (signed negative ((significant d).take 1 ++
      (if ((significant d).drop 1).isEmpty then [] else '.' :: (significant d).drop 1) ++
        'e' :: exponentText (point - 1)) ++ rest) =
      some (.real (.ofDecimal negative d.digits d.exponent), rest) := by
  obtain ⟨c, tail, hCons, hFirst, hDigits⟩ := significant_cons hPos
  have hLength := length_toDigits d
  rw [hCons, List.length_cons] at hLength
  rw [List.forall_mem_cons] at hDigits
  have hSpell : spell negative [c] tail (some (point - 1)) =
      .real (.ofDecimal negative d.digits d.exponent) := by
    refine spell_eq_real negative 0 (.inr (by simp)) ?_ ?_
    · rw [hCons]
      simp
    · rw [Option.getD_some]
      omega
  have hPower := powerOfTen_exponentText (point - 1) hRest.noDigit
  rw [← hSpell, signed, hCons, List.append_assoc, List.append_assoc]
  cases tail with
  | nil =>
      refine read?_parts negative c [] (by simp [hDigits.1]) (fun h => absurd h hFirst)
        (by simp [NoDigit]) (fraction_of_ne (by simp)) hPower
  | cons e tail =>
      have hAfter : NoDigit ('e' :: (exponentText (point - 1) ++ rest)) := by simp [NoDigit]
      have hParts := read?_parts negative c [] (by simp [hDigits.1]) (fun h => absurd h hFirst)
        (by simp [NoDigit]) (fraction_point (List.cons_ne_nil e tail) hDigits.2 hAfter) hPower
      simpa using hParts

/-- However a positive decimal is written, it is read as a real of its digits and exponent. -/
theorem read?_decimal (hPos : 0 < d.digits) (hRest : Ends rest) :
    read? (signed negative d.text ++ rest) =
      some (.real (.ofDecimal negative d.digits d.exponent), rest) := by
  rw [Decimal.text]
  simp only
  split
  · split
    · rename_i hPoint
      exact read?_small negative hPos hRest hPoint
    · rename_i hPoint
      exact read?_placed negative hPos hRest (Int.toNat_of_nonneg (by omega)).symm (by omega)
  · exact read?_scaled negative hPos hRest rfl

end Texts

/-- A finite number is read back from its text. -/
theorem read?_text {units : Nat} {negative : Bool} {h : Binary64.Representable units}
    {rest : List Char} (hRest : Ends rest) :
    read? ((Binary64.finite negative units h).text.toList ++ rest) =
      some (.real (.finite negative units h), rest) := by
  have hText : (Binary64.finite negative units h).text.toList =
      signed negative (if units = 0 then ['0', '.', '0']
        else (Binary64.shortestDecimal units).text) := by
    rw [Binary64.text, String.toList_ofList, signed]
    cases negative <;> rfl
  rw [hText]
  by_cases hZero : units = 0
  · subst hZero
    have hValue : Nat.ofDigitChars 10 (['0'] ++ ['0']) 0 = 0 := by decide
    have hSpell : spell negative ['0'] ['0'] none = .real (.finite negative 0 h) := by
      rw [spell, if_neg (by decide), hValue, Binary64.ofDecimal, if_pos rfl, Binary64.ofRatio,
        Nat.zero_mul, Binary64.ofUnits_representable negative h]
    rw [if_pos rfl, signed, List.append_assoc, ← hSpell]
    exact read?_parts negative '0' [] (List.forall_mem_singleton.2 rfl) (fun _ => rfl)
      (by simp [NoDigit])
      (fraction_point (by simp) (List.forall_mem_singleton.2 rfl) hRest.noDigit)
      (powerOfTen_of_ends hRest)
  · rw [if_neg hZero, read?_decimal negative (Binary64.shortestDecimal_pos h hZero) hRest,
      Binary64.ofDecimal_shortestDecimal negative h]

end Numeral

end SatLab
