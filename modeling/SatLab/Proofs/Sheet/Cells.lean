import Mathlib
import SatLab.Proofs.Document.Numeral
import SatLab.Sheet.Column

/-! Cells as keys. Being the same key is an equivalence of the cells that are no undefined numbers,
and among cells of one type the text of a cell tells the cell. -/

namespace SatLab

namespace Number

/-- Numbers are equal exactly when they have a place and it is the same one. -/
theorem equal_iff {x y : Number} :
    x.equal y = true ↔ ∃ p, x.place = some p ∧ y.place = some p := by
  rw [equal]
  cases x.place <;> cases y.place <;> simp [eq_comm]

/-- Integers are equal numbers only if they are the same. -/
theorem equal_whole (m n : Int) : (whole m).equal (.whole n) = decide (m = n) := by
  have hUnits : (0 : Int) < Binary64.unitsPerOne := by
    unfold Binary64.unitsPerOne
    apply Int.natCast_pos.2
    apply Nat.pow_pos
    decide
  simp only [equal, place, Prod.mk.injEq, true_and, Int.mul_eq_mul_right_iff (Int.ne_of_gt hUnits)]

end Number

namespace Binary64

theorem ofInt_ne_undefined (n : Int) : Binary64.ofInt n ≠ .undefined := by
  rw [ofInt, ofRatio, ofUnits, dif_pos Nat.one_pos]
  split <;> simp

/-- Every real number that is defined has a place. -/
theorem exists_place {x : Binary64} (h : x ≠ .undefined) : ∃ p, (Number.real x).place = some p := by
  cases x with
  | finite | infinite => exact ⟨_, rfl⟩
  | undefined => exact absurd rfl h

/-- Only the text of a finite number is a numeral, and this numeral is the number. -/
theorem eq_of_text_eq {x y : Binary64} (hx : x ≠ .undefined) (hy : y ≠ .undefined)
    (h : x.text = y.text) : x = y := by
  have hRead : ∀ z : Binary64, z ≠ .undefined →
      Numeral.read? z.text.toList = if z.isFinite then some (.real z, []) else none := by
    intro z hz
    cases z with
    | finite negative units hUnits =>
        have hText : Numeral.read? ((finite negative units hUnits).text.toList ++ []) =
            some (.real (.finite negative units hUnits), []) := Numeral.read?_text nofun
        rwa [List.append_nil] at hText
    | infinite negative => cases negative <;> rfl
    | undefined => exact absurd rfl hz
  have hSame := hRead x hx
  rw [h, hRead y hy] at hSame
  cases x with
  | finite =>
      cases y with
      | finite => simpa [isFinite] using hSame.symm
      | infinite => simp [isFinite] at hSame
      | undefined => exact absurd rfl hy
  | infinite negative =>
      cases y with
      | finite => simp [isFinite] at hSame
      | infinite negative' => cases negative <;> cases negative' <;> simp_all [text]
      | undefined => exact absurd rfl hy
  | undefined => exact absurd rfl hx

end Binary64

namespace Sheet

namespace Cell

variable {a b c : Cell}

/-- A cell that is no undefined number. -/
def IsDefined (c : Cell) : Prop := c ≠ .real .undefined

/-- Cells that stand for the same key are the same cell, or equal numbers. -/
theorem same_iff : a.same b = true ↔
    (a.number? = none ∨ b.number? = none) ∧ a = b ∨
      ∃ x y, a.number? = some x ∧ b.number? = some y ∧ x.equal y = true := by
  rw [same]
  cases a.number? with
  | none => simp
  | some x =>
      cases b.number? with
      | none => simp
      | some y => simp

/-- A defined number has a place in the order of numbers. -/
theorem exists_place (h : c.IsDefined) {x : Number} (hx : c.number? = some x) :
    ∃ p, x.place = some p := by
  cases c with
  | missing | text => cases hx
  | flag | signed | unsigned =>
      cases hx
      exact ⟨_, rfl⟩
  | real y =>
      cases hx
      exact Binary64.exists_place fun hy => h (hy ▸ rfl)

/-- A defined cell is the same as itself. -/
theorem same_self (h : c.IsDefined) : c.same c = true := by
  rw [same_iff]
  cases hNumber : c.number? with
  | none => exact .inl ⟨.inl rfl, rfl⟩
  | some x =>
      obtain ⟨p, hp⟩ := exists_place h hNumber
      exact .inr ⟨x, x, rfl, rfl, Number.equal_iff.2 ⟨p, hp, hp⟩⟩

theorem same_symm (h : a.same b = true) : b.same a = true := by
  rw [same_iff] at h ⊢
  rcases h with ⟨hNone, rfl⟩ | ⟨x, y, hx, hy, hEqual⟩
  · exact .inl ⟨hNone, rfl⟩
  · obtain ⟨p, hp, hq⟩ := Number.equal_iff.1 hEqual
    exact .inr ⟨y, x, hy, hx, Number.equal_iff.2 ⟨p, hq, hp⟩⟩

theorem same_trans (h : a.same b = true) (h' : b.same c = true) : a.same c = true := by
  rcases same_iff.1 h with ⟨-, rfl⟩ | ⟨x, y, hx, hy, hEqual⟩
  · exact h'
  · rcases same_iff.1 h' with ⟨-, rfl⟩ | ⟨y', z, hy', hz, hEqual'⟩
    · exact h
    · obtain rfl : y = y' := Option.some.inj (hy.symm.trans hy')
      obtain ⟨p, hp, hq⟩ := Number.equal_iff.1 hEqual
      obtain ⟨q, hq', hr⟩ := Number.equal_iff.1 hEqual'
      obtain rfl : p = q := Option.some.inj (hq.symm.trans hq')
      exact same_iff.2 (.inr ⟨x, z, hx, hz, Number.equal_iff.2 ⟨p, hp, hr⟩⟩)

theorem same_signed (m n : Int64) : (signed m).same (signed n) = decide (m = n) := by
  simp only [same, number?, Number.equal_whole, Int64.toInt_inj]

/-- The type of the columns that hold a cell. -/
def kind? : Cell → Option ColumnType
  | missing => none
  | flag _ => some .flag
  | signed _ => some .signed
  | unsigned _ => some .unsigned
  | real _ => some .real
  | text _ => some .text

/-! ### Cells of one type -/

/-- A cell that is missing or of a type. -/
structure FitsIn (k : ColumnType) (c : Cell) : Prop where
  defined : c.IsDefined
  kind : c.kind? = none ∨ c.kind? = some k

/-- A cell that is missing or a number. -/
structure IsNumeric (c : Cell) : Prop where
  defined : c.IsDefined
  noText : c.isText = false

variable {k : ColumnType}

/-- A missing cell fits in every column. -/
theorem fitsIn_missing (k : ColumnType) : missing.FitsIn k := ⟨nofun, .inl rfl⟩

theorem isNumeric_missing : missing.IsNumeric := ⟨nofun, rfl⟩

theorem isDefined_of_kind? (h : c.kind? = some k) (hReal : k ≠ .real) : c.IsDefined := by
  rintro rfl
  exact hReal (Option.some.inj h).symm

theorem isDefined_real {x : Binary64} (h : x ≠ .undefined) : (real x).IsDefined :=
  fun hCell => h (Cell.real.inj hCell)

theorem real?_ne_undefined (h : c.IsDefined) {x : Binary64} (hx : c.real? = some x) :
    x ≠ .undefined := by
  cases c with
  | real y =>
      cases hx
      exact fun hy => h (hy ▸ rfl)
  | missing | text => cases hx
  | flag | signed | unsigned =>
      rw [← Option.some.inj hx]
      exact Binary64.ofInt_ne_undefined _

/-- Among cells of one type the text tells the cell. -/
theorem eq_of_shown (hKind : a.kind? = b.kind?) (ha : a.IsDefined) (hb : b.IsDefined)
    (h : a.shown = b.shown) : a = b := by
  cases a with
  | missing =>
      cases b with
      | missing => rfl
      | _ => cases hKind
  | flag x =>
      cases b with
      | flag y => cases x <;> cases y <;> simp_all [shown, flagText]
      | _ => cases hKind
  | signed x =>
      cases b with
      | signed y => rw [Int64.toInt_inj.1 (Int.repr_injective h)]
      | _ => cases hKind
  | unsigned x =>
      cases b with
      | unsigned y => rw [UInt64.toNat_inj.1 (Nat.repr_inj.1 h)]
      | _ => cases hKind
  | real x =>
      cases b with
      | real y =>
          rw [Binary64.eq_of_text_eq (fun hx => ha (hx ▸ rfl)) (fun hy => hb (hy ▸ rfl)) h]
      | _ => cases hKind
  | text x =>
      cases b with
      | text y => exact congrArg Cell.text h
      | _ => cases hKind

end Cell

end Sheet

end SatLab
