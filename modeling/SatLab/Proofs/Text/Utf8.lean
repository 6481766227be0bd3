import SatLab.Text.Utf8

/-! Reading UTF-8 gives back the text whose bytes are read, as a whole and in blocks. A block may
end inside a character: what is open then is put in front of the next block. Bytes of no text cannot
be read. -/

namespace SatLab

namespace Utf8

theorem toList_eq_data (bytes : ByteArray) : bytes.toList = bytes.data.toList := by
  have hLoop : ∀ i read, ByteArray.toList.loop bytes i read =
      read.reverse ++ bytes.data.toList.drop i := by
    intro i read
    fun_induction ByteArray.toList.loop bytes i read with
    | case1 i read hLt ih =>
        have hSize : i < bytes.data.toList.length := hLt
        rw [ih, List.drop_eq_getElem_cons hSize]
        simp [ByteArray.get!, hLt]
    | case2 i read hLe =>
        have hSize : bytes.data.toList.length ≤ i := Nat.le_of_not_lt hLe
        rw [List.drop_eq_nil_of_le hSize, List.append_nil]
  exact hLoop 0 []

/-- A text is encoded character by character. -/
theorem encode_eq_flatMap (text : String) :
    encode text = text.toList.flatMap String.utf8EncodeChar := by
  conv => lhs; rw [← String.ofList_toList (s := text)]
  rw [encode, toList_eq_data]
  exact List.toList_data_toByteArray

/-- The open character after one more of its bytes. -/
def Pending.next (q : Pending) (b : Nat) : Pending :=
  { q with taken := q.taken + 1, owed := q.owed - 1, bits := q.bits * 0x40 + (b - 0x80),
           low := 0x80, high := 0xbf }

section Step

variable (read : List Char) (place : Nat) {b : Nat} (rest : List UInt8) {q : Pending}

/-- A byte below 128 is a character by itself. -/
theorem decodeFrom_single (h : b < 0x80) :
    decodeFrom read place none (UInt8.ofNat b :: rest) =
      decodeFrom (Char.ofNat b :: read) (place + 1) none rest := by
  have hByte : (UInt8.ofNat b).toNat = b := UInt8.toNat_ofNat_of_lt (Nat.lt_trans h (by decide))
  simp only [decodeFrom, hByte, if_pos h]

/-- A leading byte announces how many bytes follow, and in which range. -/
theorem decodeFrom_lead (hLow : 0x80 ≤ b) (hHigh : b < 0x100) (hLead : pending? place b = some q) :
    decodeFrom read place none (UInt8.ofNat b :: rest) =
      decodeFrom read (place + 1) (some q) rest := by
  have hByte : (UInt8.ofNat b).toNat = b := UInt8.toNat_ofNat_of_lt hHigh
  simp only [decodeFrom, hByte, if_neg (Nat.not_lt.2 hLow), hLead]

/-- The last byte of a character completes it. -/
theorem decodeFrom_last (hByte : b < 0x100) (hLow : q.low ≤ b) (hHigh : b ≤ q.high)
    (hOwed : q.owed = 1) :
    decodeFrom read place (some q) (UInt8.ofNat b :: rest) =
      decodeFrom (Char.ofNat (q.next b).bits :: read) (place + 1) none rest := by
  have hNat : (UInt8.ofNat b).toNat = b := UInt8.toNat_ofNat_of_lt hByte
  simp only [decodeFrom, hNat, if_pos (And.intro hLow hHigh), if_pos hOwed]
  rfl

/-- A byte inside a character adds its bits. -/
theorem decodeFrom_more (hByte : b < 0x100) (hLow : q.low ≤ b) (hHigh : b ≤ q.high)
    (hOwed : q.owed ≠ 1) :
    decodeFrom read place (some q) (UInt8.ofNat b :: rest) =
      decodeFrom read (place + 1) (some (q.next b)) rest := by
  have hNat : (UInt8.ofNat b).toNat = b := UInt8.toNat_ofNat_of_lt hByte
  simp only [decodeFrom, hNat, if_pos (And.intro hLow hHigh), if_neg hOwed]
  rfl

end Step

/-- The bytes that an open character still needs, and the character they complete. -/
inductive Completes : Pending → List UInt8 → Char → Prop where
  | last {q : Pending} {b : Nat} (hByte : b < 0x100) (hLow : q.low ≤ b) (hHigh : b ≤ q.high)
      (hOwed : q.owed = 1) : Completes q [UInt8.ofNat b] (Char.ofNat (q.next b).bits)
  | more {q : Pending} {b : Nat} {bytes : List UInt8} {c : Char} (hByte : b < 0x100)
      (hLow : q.low ≤ b) (hHigh : b ≤ q.high) (hOwed : q.owed ≠ 1)
      (rest : Completes (q.next b) bytes c) : Completes q (UInt8.ofNat b :: bytes) c

namespace Completes

variable {q : Pending} {bytes : List UInt8} {c : Char}

/-- Bytes that complete a character are decoded as this character, whatever follows. -/
theorem decodeFrom_append (h : Completes q bytes c) (read : List Char) (place : Nat)
    (rest : List UInt8) :
    decodeFrom read place (some q) (bytes ++ rest) =
      decodeFrom (c :: read) (place + bytes.length) none rest := by
  induction h generalizing place with
  | last hByte hLow hHigh hOwed =>
      exact decodeFrom_last read place rest hByte hLow hHigh hOwed
  | more hByte hLow hHigh hOwed _ ih =>
      rw [List.cons_append, decodeFrom_more read place _ hByte hLow hHigh hOwed, ih,
        List.length_cons, Nat.add_assoc, Nat.add_comm 1]

/-- Before its last byte the character stays open. -/
theorem decodeFrom_take (h : Completes q bytes c) (read : List Char) (place : Nat) {n : Nat}
    (hn : n < bytes.length) :
    ∃ p : Pending, decodeFrom read place (some q) (bytes.take n) = .ok (read, some p) ∧
      p.place = q.place := by
  induction h generalizing place n with
  | @last q b =>
      have hZero : n = 0 := by simpa using hn
      exact ⟨q, by rw [hZero]; rfl, rfl⟩
  | @more q b bytes c hByte hLow hHigh hOwed _ ih =>
      cases n with
      | zero => exact ⟨q, rfl, rfl⟩
      | succ n =>
          obtain ⟨p, hRead, hPlace⟩ := ih (place + 1) (by simpa using hn)
          rw [List.take_succ_cons, decodeFrom_more read place _ hByte hLow hHigh hOwed]
          exact ⟨p, hRead, hPlace⟩

end Completes

theorem Completes.of_bits {q : Pending} {b : Nat} {c : Char} (hByte : b < 0x100)
    (hLow : q.low ≤ b) (hHigh : b ≤ q.high) (hOwed : q.owed = 1)
    (hBits : (q.next b).bits = c.toNat) : Completes q [UInt8.ofNat b] c := by
  have h := Completes.last hByte hLow hHigh hOwed
  rwa [hBits, Char.ofNat_toNat] at h

/-- A character is one byte, or a first byte with the bytes that complete it. -/
theorem utf8EncodeChar_cases (c : Char) :
    (c.toNat < 0x80 ∧ String.utf8EncodeChar c = [UInt8.ofNat c.toNat]) ∨
      ∃ lead bytes, String.utf8EncodeChar c = UInt8.ofNat lead :: bytes ∧ 0x80 ≤ lead ∧
        lead < 0x100 ∧ ∀ place, ∃ q : Pending, pending? place lead = some q ∧ q.place = place ∧
          Completes q bytes c := by
  have hValid : c.toNat < 0xd800 ∨ 0xdfff < c.toNat ∧ c.toNat < 0x110000 := c.valid
  have hEncode := String.utf8EncodeChar.eq_def c
  have hVal : c.val.toNat = c.toNat := rfl
  simp only [hVal] at hEncode
  generalize hv : c.toNat = v at *
  by_cases h1 : v ≤ 0x7f
  · rw [if_pos h1] at hEncode
    exact .inl ⟨by omega, hEncode⟩
  · right
    rw [if_neg h1] at hEncode
    by_cases h2 : v ≤ 0x7ff
    · rw [if_pos h2] at hEncode
      refine ⟨_, _, hEncode, by omega, by omega, fun place => ?_⟩
      rw [pending?, if_pos (by omega)]
      refine ⟨_, rfl, rfl, .of_bits (by omega) (by dsimp only; omega) (by dsimp only; omega) rfl ?_⟩
      simp only [Pending.next]
      omega
    · rw [if_neg h2] at hEncode
      by_cases h3 : v ≤ 0xffff
      · rw [if_pos h3] at hEncode
        refine ⟨_, _, hEncode, by omega, by omega, fun place => ?_⟩
        rw [pending?, if_neg (by omega), if_pos (by omega)]
        refine ⟨_, rfl, rfl, .more (by omega) ?_ ?_ (show 2 ≠ 1 by decide)
          (.of_bits (by omega) ?_ ?_ rfl ?_)⟩
        · dsimp only
          split <;> omega
        · dsimp only
          split <;> omega
        · simp only [Pending.next]
          omega
        · simp only [Pending.next]
          omega
        · simp only [Pending.next]
          omega
      · rw [if_neg h3] at hEncode
        refine ⟨_, _, hEncode, by omega, by omega, fun place => ?_⟩
        rw [pending?, if_neg (by omega), if_neg (by omega), if_pos (by omega)]
        refine ⟨_, rfl, rfl, .more (by omega) ?_ ?_ (show 3 ≠ 1 by decide)
          (.more (by omega) ?_ ?_ (show 2 ≠ 1 by decide) (.of_bits (by omega) ?_ ?_ rfl ?_))⟩
        · dsimp only
          split <;> omega
        · dsimp only
          split <;> omega
        · simp only [Pending.next]
          omega
        · simp only [Pending.next]
          omega
        · simp only [Pending.next]
          omega
        · simp only [Pending.next]
          omega
        · simp only [Pending.next]
          omega

/-- Reading a character that is complete. -/
theorem decodeFrom_char (c : Char) (read : List Char) (place : Nat) (rest : List UInt8) :
    decodeFrom read place none (String.utf8EncodeChar c ++ rest) =
      decodeFrom (c :: read) (place + (String.utf8EncodeChar c).length) none rest := by
  rcases utf8EncodeChar_cases c with ⟨hSmall, hBytes⟩ | ⟨lead, bytes, hBytes, hLow, hHigh, hLead⟩
  · rw [hBytes, List.singleton_append, decodeFrom_single read place rest hSmall, Char.ofNat_toNat]
    rfl
  · obtain ⟨q, hPending, -, hCompletes⟩ := hLead place
    rw [hBytes, List.cons_append, decodeFrom_lead read place _ hLow hHigh hPending,
      hCompletes.decodeFrom_append, List.length_cons, Nat.add_assoc, Nat.add_comm 1]

/-- By induction on the characters, encoded text is decoded as it was. -/
theorem decodeFrom_chars (chars : List Char) (read : List Char) (place : Nat)
    (rest : List UInt8) :
    decodeFrom read place none (chars.flatMap String.utf8EncodeChar ++ rest) =
      decodeFrom (chars.reverse ++ read)
        (place + (chars.flatMap String.utf8EncodeChar).length) none rest := by
  induction chars generalizing read place with
  | nil => rfl
  | cons c chars ih =>
      rw [List.flatMap_cons, List.append_assoc, decodeFrom_char, ih, List.reverse_cons,
        List.append_assoc, List.singleton_append, List.length_append, Nat.add_assoc]

/-- A file holds the text that was written into it. -/
theorem decode_encode (text : String) : decode (encode text) = .ok text.toList := by
  have hRead := decodeFrom_chars text.toList [] 0 []
  rw [List.append_nil, List.append_nil] at hRead
  rw [decode, encode_eq_flatMap, hRead]
  simp [decodeFrom, bind, Except.bind, pure, Except.pure]

/-- What a block that ends inside a character leaves open. -/
theorem decodeFrom_part (c : Char) (read : List Char) (place : Nat) {n : Nat}
    (hn : n < (String.utf8EncodeChar c).length) :
    ∃ p : Option Pending,
      decodeFrom read place none ((String.utf8EncodeChar c).take n) = .ok (read, p) ∧
        (n = 0 ∧ p = none ∨ ∃ q, p = some q ∧ q.place = place) := by
  cases n with
  | zero => exact ⟨none, rfl, .inl ⟨rfl, rfl⟩⟩
  | succ n =>
      rcases utf8EncodeChar_cases c with ⟨_, hBytes⟩ | ⟨lead, bytes, hBytes, hLow, hHigh, hLead⟩
      · rw [hBytes, List.length_singleton] at hn
        omega
      · obtain ⟨q, hPending, hPlace, hCompletes⟩ := hLead place
        rw [hBytes, List.length_cons] at hn
        obtain ⟨p, hRead, hSame⟩ := hCompletes.decodeFrom_take read (place + 1) (n := n) (by omega)
        rw [hBytes, List.take_succ_cons, decodeFrom_lead read place _ hLow hHigh hPending]
        exact ⟨some p, hRead, .inr ⟨p, rfl, hSame.trans hPlace⟩⟩

/-- A row of bytes of a text ends after a character or inside one. -/
theorem exists_cut (chars : List Char) {n : Nat}
    (hn : n ≤ (chars.flatMap String.utf8EncodeChar).length) :
    (chars.flatMap String.utf8EncodeChar).length = n ∨
      ∃ done c left m, chars = done ++ c :: left ∧ m < (String.utf8EncodeChar c).length ∧
        n = (done.flatMap String.utf8EncodeChar).length + m := by
  induction chars generalizing n with
  | nil => exact .inl (Nat.le_zero.1 hn).symm
  | cons c chars ih =>
      rw [List.flatMap_cons, List.length_append] at hn ⊢
      by_cases hInside : n < (String.utf8EncodeChar c).length
      · exact .inr ⟨[], c, chars, n, rfl, hInside, by simp⟩
      · rcases ih (n := n - (String.utf8EncodeChar c).length) (by omega) with hAll | hCut
        · exact .inl (by omega)
        · obtain ⟨done, d, left, m, rfl, hm, hLength⟩ := hCut
          refine .inr ⟨c :: done, d, left, m, rfl, hm, ?_⟩
          rw [List.flatMap_cons, List.length_append]
          omega

/-- A block gives the characters that are complete in it, and keeps the bytes of the one that it
ends in. -/
theorem decodeFrom_block {chars : List Char} {block after : List UInt8}
    (h : block ++ after = chars.flatMap String.utf8EncodeChar) :
    ∃ done left p, chars = done ++ left ∧
      decodeFrom [] 0 none block = .ok (done.reverse, p) ∧
      ((p.map fun q => block.drop q.place).getD []) ++ after =
        left.flatMap String.utf8EncodeChar ∧
      (after = [] → left = [] ∧ p = none) := by
  have hLength := congrArg List.length h
  rw [List.length_append] at hLength
  rcases exists_cut chars (n := block.length) (by omega) with hAll | hCut
  · have hNil : after = [] := List.length_eq_zero_iff.1 (by omega)
    rw [hNil, List.append_nil] at h
    have hRead := decodeFrom_chars chars [] 0 []
    rw [List.append_nil, List.append_nil, ← h] at hRead
    refine ⟨chars, [], none, (List.append_nil _).symm, ?_, by simp [hNil], fun _ => ⟨rfl, rfl⟩⟩
    simpa [decodeFrom] using hRead
  · obtain ⟨done, c, left, m, rfl, hm, hBlock⟩ := hCut
    obtain ⟨p, hPart, hOpen⟩ := decodeFrom_part c done.reverse
      (done.flatMap String.utf8EncodeChar).length hm
    rw [List.flatMap_append, List.flatMap_cons] at h
    have hTake : block =
        done.flatMap String.utf8EncodeChar ++ (String.utf8EncodeChar c).take m := by
      have hPrefix := congrArg (List.take block.length) h
      rw [List.take_left, hBlock, List.take_length_add_append,
        List.take_append_of_le_length (Nat.le_of_lt hm)] at hPrefix
      exact hPrefix
    have hRest : (String.utf8EncodeChar c).take m ++ after =
        String.utf8EncodeChar c ++ left.flatMap String.utf8EncodeChar := by
      rw [hTake, List.append_assoc] at h
      exact List.append_cancel_left h
    refine ⟨done, c :: left, p, rfl, ?_, ?_, ?_⟩
    · have hRead := decodeFrom_chars done [] 0 ((String.utf8EncodeChar c).take m)
      rwa [← hTake, List.append_nil, Nat.zero_add, hPart] at hRead
    · rw [List.flatMap_cons, ← hRest]
      rcases hOpen with ⟨rfl, rfl⟩ | ⟨q, rfl, hPlace⟩
      · rfl
      · rw [Option.map_some, Option.getD_some, hPlace, hTake, List.drop_left]
    · intro hNil
      have hRestLength := congrArg List.length hRest
      simp only [hNil, List.append_nil, List.length_take, List.length_append] at hRestLength
      omega

/-- Reading in blocks gives the text whose bytes are read. -/
theorem decodeBlocks_eq {chars : List Char} {carried bytes : List UInt8}
    (h : carried ++ bytes = chars.flatMap String.utf8EncodeChar) :
    decodeBlocks carried bytes = { text := chars, fault := none } := by
  fun_induction decodeBlocks carried bytes generalizing chars with
  | case1 =>
      rename_i carried bytes block fault hFault
      have hSplit : block ++ bytes.drop blockSize = chars.flatMap String.utf8EncodeChar := by
        rw [← h, List.append_assoc, List.take_append_drop]
      obtain ⟨done, left, p, -, hRead, -⟩ := decodeFrom_block hSplit
      rw [hRead] at hFault
      cases hFault
  | case2 =>
      rename_i carried read p block hBlock
      have hSplit : block ++ [] = chars.flatMap String.utf8EncodeChar := by
        rw [← h]
        simp [block]
      obtain ⟨done, left, p', rfl, hRead, -, hLast⟩ := decodeFrom_block hSplit
      obtain ⟨rfl, rfl⟩ := hLast rfl
      rw [hRead] at hBlock
      cases hBlock
      simp
  | case3 =>
      rename_i carried read p first more block hBlock left ih
      have hSplit : block ++ (first :: more).drop blockSize =
          chars.flatMap String.utf8EncodeChar := by
        rw [← h, List.append_assoc, List.take_append_drop]
      obtain ⟨done, rest, p', rfl, hRead, hLeft, -⟩ := decodeFrom_block hSplit
      rw [hRead] at hBlock
      cases hBlock
      simp only [ih hLeft, List.reverse_reverse]

/-- Reading a file in blocks gives back the text that was written into it. -/
theorem decodeBlocks_encode (text : String) :
    decodeBlocks [] (encode text) = { text := text.toList, fault := none } :=
  decodeBlocks_eq (encode_eq_flatMap text)

/-! ### Only texts can be read -/

/-- The bytes of the character with a code point. -/
theorem utf8EncodeChar_ofNat {v : Nat} (hValid : v.isValidChar) :
    String.utf8EncodeChar (Char.ofNat v) =
      if v ≤ 127 then [UInt8.ofNat v]
      else if v ≤ 2047 then [UInt8.ofNat (v / 64 % 32 + 192), UInt8.ofNat (v % 64 + 128)]
      else if v ≤ 65535 then
        [UInt8.ofNat (v / 4096 % 16 + 224), UInt8.ofNat (v / 64 % 64 + 128),
          UInt8.ofNat (v % 64 + 128)]
      else
        [UInt8.ofNat (v / 262144 % 8 + 240), UInt8.ofNat (v / 4096 % 64 + 128),
          UInt8.ofNat (v / 64 % 64 + 128), UInt8.ofNat (v % 64 + 128)] := by
  have hVal : (Char.ofNat v).val.toNat = v := by
    rw [Char.ofNat, dif_pos hValid]
    rfl
  rw [String.utf8EncodeChar.eq_def, hVal]

section Bytes

variable {v lead b b' b'' : Nat}

theorem utf8EncodeChar_two (hLead : 0xc2 ≤ lead ∧ lead ≤ 0xdf) (hb : 0x80 ≤ b ∧ b ≤ 0xbf)
    (hv : v = (lead - 0xc0) * 0x40 + (b - 0x80)) :
    String.utf8EncodeChar (Char.ofNat v) = [UInt8.ofNat lead, UInt8.ofNat b] := by
  have hFirst : v / 64 % 32 + 192 = lead := by omega
  have hSecond : v % 64 + 128 = b := by omega
  rw [utf8EncodeChar_ofNat (.inl (by omega)), if_neg (by omega), if_pos (by omega), hFirst, hSecond]

theorem utf8EncodeChar_three (hLead : 0xe0 ≤ lead ∧ lead ≤ 0xef) (hb : 0x80 ≤ b ∧ b ≤ 0xbf)
    (hLow : lead = 0xe0 → 0xa0 ≤ b) (hHigh : lead = 0xed → b ≤ 0x9f) (hb' : 0x80 ≤ b' ∧ b' ≤ 0xbf)
    (hv : v = ((lead - 0xe0) * 0x40 + (b - 0x80)) * 0x40 + (b' - 0x80)) :
    String.utf8EncodeChar (Char.ofNat v) =
      [UInt8.ofNat lead, UInt8.ofNat b, UInt8.ofNat b'] := by
  have hValid : v.isValidChar := by
    by_cases hSmall : lead ≤ 0xed
    · exact .inl (by omega)
    · exact .inr (by omega)
  have hFirst : v / 4096 % 16 + 224 = lead := by omega
  have hSecond : v / 64 % 64 + 128 = b := by omega
  have hThird : v % 64 + 128 = b' := by omega
  rw [utf8EncodeChar_ofNat hValid, if_neg (by omega), if_neg (by omega), if_pos (by omega), hFirst,
    hSecond, hThird]

theorem utf8EncodeChar_four (hLead : 0xf0 ≤ lead ∧ lead ≤ 0xf4) (hb : 0x80 ≤ b ∧ b ≤ 0xbf)
    (hLow : lead = 0xf0 → 0x90 ≤ b) (hHigh : lead = 0xf4 → b ≤ 0x8f) (hb' : 0x80 ≤ b' ∧ b' ≤ 0xbf)
    (hb'' : 0x80 ≤ b'' ∧ b'' ≤ 0xbf)
    (hv : v = (((lead - 0xf0) * 0x40 + (b - 0x80)) * 0x40 + (b' - 0x80)) * 0x40 + (b'' - 0x80)) :
    String.utf8EncodeChar (Char.ofNat v) =
      [UInt8.ofNat lead, UInt8.ofNat b, UInt8.ofNat b', UInt8.ofNat b''] := by
  have hValid : v.isValidChar := .inr (by omega)
  have hFirst : v / 262144 % 8 + 240 = lead := by omega
  have hSecond : v / 4096 % 64 + 128 = b := by omega
  have hThird : v / 64 % 64 + 128 = b' := by omega
  have hFourth : v % 64 + 128 = b'' := by omega
  rw [utf8EncodeChar_ofNat hValid, if_neg (by omega), if_neg (by omega), if_neg (by omega), hFirst,
    hSecond, hThird, hFourth]

/-- Where one byte is owed, a single byte of the range completes the character. -/
theorem Completes.of_owed_one {q : Pending} {bytes : List UInt8} {c : Char}
    (h : Completes q bytes c) (hOwed : q.owed = 1) :
    ∃ b, q.low ≤ b ∧ b ≤ q.high ∧ bytes = [UInt8.ofNat b] ∧ c = Char.ofNat (q.next b).bits := by
  cases h with
  | @last _ b _ hLow hHigh _ => exact ⟨b, hLow, hHigh, rfl, rfl⟩
  | more _ _ _ hMore => exact absurd hOwed hMore

/-- Where more bytes are owed, the first one is in the range and the others complete what is left
owed. -/
theorem Completes.of_owed_more {q : Pending} {bytes : List UInt8} {c : Char}
    (h : Completes q bytes c) (hOwed : q.owed ≠ 1) :
    ∃ b rest, q.low ≤ b ∧ b ≤ q.high ∧ bytes = UInt8.ofNat b :: rest ∧
      Completes (q.next b) rest c := by
  cases h with
  | last _ _ _ hOne => exact absurd hOne hOwed
  | @more _ b rest _ _ hLow hHigh _ h => exact ⟨b, rest, hLow, hHigh, rfl, h⟩

/-- What completes a first byte makes the bytes of a character with it. -/
theorem Completes.utf8EncodeChar_eq {place : Nat} {q : Pending} {bytes : List UInt8} {c : Char}
    (h : Completes q bytes c) (hLead : pending? place lead = some q) :
    String.utf8EncodeChar c = UInt8.ofNat lead :: bytes := by
  unfold pending? at hLead
  split at hLead
  · next hTwo =>
      obtain rfl := Option.some.inj hLead
      obtain ⟨b, hLow, hHigh, rfl, hc⟩ := h.of_owed_one rfl
      rw [hc]
      exact utf8EncodeChar_two hTwo (And.intro hLow hHigh) rfl
  · split at hLead
    · next hThree =>
        obtain rfl := Option.some.inj hLead
        obtain ⟨b, rest, hLow, hHigh, rfl, hRest⟩ := h.of_owed_more (by simp)
        obtain ⟨b', hLow', hHigh', rfl, hc⟩ := hRest.of_owed_one rfl
        dsimp only at hLow hHigh
        rw [hc]
        apply utf8EncodeChar_three hThree _ _ _ (And.intro hLow' hHigh') rfl
        · constructor <;> split at hLow <;> split at hHigh <;> omega
        · intro hEq
          rwa [if_pos hEq] at hLow
        · intro hEq
          rwa [if_pos hEq] at hHigh
    · split at hLead
      · next hFour =>
          obtain rfl := Option.some.inj hLead
          obtain ⟨b, rest, hLow, hHigh, rfl, hRest⟩ := h.of_owed_more (by simp)
          obtain ⟨b', rest', hLow', hHigh', rfl, hLast⟩ :=
            hRest.of_owed_more (by simp [Pending.next])
          obtain ⟨b'', hLow'', hHigh'', rfl, hc⟩ := hLast.of_owed_one rfl
          dsimp only at hLow hHigh
          rw [hc]
          apply utf8EncodeChar_four hFour _ _ _ (And.intro hLow' hHigh')
            (And.intro hLow'' hHigh'') rfl
          · constructor <;> split at hLow <;> split at hHigh <;> omega
          · intro hEq
            rwa [if_pos hEq] at hLow
          · intro hEq
            rwa [if_pos hEq] at hHigh
      · cases hLead

end Bytes

/-- An open character that does not stay open is completed. -/
theorem exists_completes {read chars : List Char} {place : Nat} {q : Pending} {bytes : List UInt8}
    (h : decodeFrom read place (some q) bytes = .ok (chars, none)) :
    ∃ head rest c, bytes = head ++ rest ∧ Completes q head c ∧
      decodeFrom (c :: read) (place + head.length) none rest = .ok (chars, none) := by
  induction bytes generalizing place q with
  | nil => simp [decodeFrom] at h
  | cons byte bytes ih =>
      have hByte : byte.toNat < 0x100 := byte.toNat_lt
      have hSame : UInt8.ofNat byte.toNat = byte := UInt8.ofNat_toNat
      rw [decodeFrom] at h
      simp only at h
      split at h
      · next hBounds =>
          split at h
          · next hOwed =>
              have hLast := Completes.last hByte hBounds.1 hBounds.2 hOwed
              rw [hSame] at hLast
              exact ⟨[byte], bytes, _, rfl, hLast, h⟩
          · next hOwed =>
              obtain ⟨head, rest, c, rfl, hCompletes, hRest⟩ := ih h
              have hMore := Completes.more hByte hBounds.1 hBounds.2 hOwed hCompletes
              rw [hSame] at hMore
              refine ⟨byte :: head, rest, c, rfl, hMore, ?_⟩
              rwa [List.length_cons, Nat.add_comm head.length, ← Nat.add_assoc]
      · cases h

/-- Bytes that can be read are those of a text. -/
theorem exists_chars {read chars : List Char} {place : Nat} {bytes : List UInt8}
    (h : decodeFrom read place none bytes = .ok (chars, none)) :
    ∃ more : List Char, chars = more.reverse ++ read ∧
      bytes = more.flatMap String.utf8EncodeChar := by
  induction hLength : bytes.length using Nat.strongRecOn generalizing read place bytes with
  | ind n ih =>
      cases bytes with
      | nil =>
          simp [decodeFrom] at h
          exact ⟨[], by simp [h], rfl⟩
      | cons byte bytes =>
          have hSame : UInt8.ofNat byte.toNat = byte := UInt8.ofNat_toNat
          rw [decodeFrom] at h
          split at h
          · next hSmall =>
              obtain ⟨more, hChars, hBytes⟩ := ih bytes.length (by simp [← hLength]) h rfl
              have hValid : byte.toNat.isValidChar := .inl (by omega)
              refine ⟨Char.ofNat byte.toNat :: more, by simp [hChars], ?_⟩
              rw [List.flatMap_cons, ← hBytes, utf8EncodeChar_ofNat hValid, if_pos (by omega),
                hSame]
              rfl
          · split at h
            · next q hLead =>
                obtain ⟨head, rest, c, rfl, hCompletes, hRest⟩ := exists_completes h
                have hShort : rest.length < n := by
                  rw [← hLength]
                  simp only [List.length_cons, List.length_append]
                  omega
                obtain ⟨more, hChars, hBytes⟩ := ih rest.length hShort hRest rfl
                refine ⟨c :: more, by simp [hChars], ?_⟩
                rw [List.flatMap_cons, ← hBytes, hCompletes.utf8EncodeChar_eq hLead, hSame]
                rfl
            · cases h

/-- A file can be read if and only if it holds a text. -/
theorem decode_eq_ok_iff {bytes : List UInt8} {chars : List Char} :
    decode bytes = .ok chars ↔ bytes = encode (String.ofList chars) := by
  constructor
  · intro h
    rw [decode] at h
    cases hRead : decodeFrom [] 0 none bytes with
    | error fault => simp [hRead, bind, Except.bind] at h
    | ok reached =>
        obtain ⟨read, p⟩ := reached
        cases p with
        | some q => simp [hRead, bind, Except.bind] at h
        | none =>
            obtain ⟨more, hMore, hBytes⟩ := exists_chars hRead
            simp [hRead, bind, Except.bind, pure, Except.pure, hMore] at h
            rw [encode_eq_flatMap, String.toList_ofList, hBytes, h]
  · intro h
    rw [h, decode_encode, String.toList_ofList]

end Utf8

end SatLab
