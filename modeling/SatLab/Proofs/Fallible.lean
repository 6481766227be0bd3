import Mathlib.Data.List.Forall2

/-! Computations that may fail: what their parts gave when the whole gave a value, and when the
whole does not fail. -/

namespace SatLab

variable {α β γ ε : Type}

/-- Two steps fail where the first one does, or where the second one does after the first. -/
theorem bind_eq_error_iff {x : Except ε α} {next : α → Except ε β} {e : ε} :
    (x >>= next) = .error e ↔ x = .error e ∨ ∃ a, x = .ok a ∧ next a = .error e := by
  cases x with
  | error e' => simp [bind, Except.bind]
  | ok a => simp [bind, Except.bind]

/-- Two steps succeed exactly when both do, one after the other. -/
theorem bind_eq_ok_iff {x : Except ε α} {next : α → Except ε β} {y : β} :
    (x >>= next) = .ok y ↔ ∃ a, x = .ok a ∧ next a = .ok y := by
  cases x with
  | error e => exact iff_of_false (fun h => nomatch h) fun ⟨_, h, _⟩ => nomatch h
  | ok a =>
      constructor
      · exact fun h => ⟨a, rfl, h⟩
      · rintro ⟨_, ⟨⟩, h⟩
        exact h

theorem eq_ok_of_toOption {x : Except ε α} {a : α} (h : x.toOption = some a) : x = .ok a := by
  cases x with
  | error e => cases h
  | ok b => exact congrArg Except.ok (Option.some.inj h)

/-- If each item is read back from what spells it, so is a list of items. -/
theorem mapM_eq_ok_iff {read : α → Except ε β} {text : γ → α} {value : γ → β} {xs : List α}
    (h : ∀ x ∈ xs, ∀ y, read x = .ok y ↔ ∃ d, text d = x ∧ value d = y) {ys : List β} :
    xs.mapM read = .ok ys ↔ ∃ ds : List γ, ds.map text = xs ∧ ds.map value = ys := by
  induction xs generalizing ys with
  | nil =>
      rw [List.mapM_nil]
      constructor
      · rintro ⟨⟩
        exact ⟨[], rfl, rfl⟩
      · rintro ⟨ds, hText, rfl⟩
        rw [List.map_eq_nil_iff.1 hText]
        rfl
  | cons x xs ih =>
      rw [List.forall_mem_cons] at h
      rw [List.mapM_cons, bind_eq_ok_iff]
      constructor
      · rintro ⟨y, hFirst, hBind⟩
        obtain ⟨ys', hRest, ⟨⟩⟩ := bind_eq_ok_iff.1 hBind
        obtain ⟨d, hx, hy⟩ := (h.1 y).1 hFirst
        obtain ⟨ds, hxs, hys⟩ := (ih h.2).1 hRest
        exact ⟨d :: ds, by rw [List.map_cons, hx, hxs], by rw [List.map_cons, hy, hys]⟩
      · rintro ⟨ds, hText, rfl⟩
        cases ds with
        | nil => cases hText
        | cons d ds =>
            rw [List.map_cons, List.cons.injEq] at hText
            refine ⟨value d, (h.1 _).2 ⟨d, hText.1, rfl⟩, ?_⟩
            rw [(ih h.2).2 ⟨ds, hText.2, rfl⟩]
            rfl

/-- A list fails with the fault of its first item that fails. -/
theorem mapM_eq_error_iff {read : α → Except ε β} {xs : List α} {e : ε} :
    xs.mapM read = .error e ↔ ∃ before x after, xs = before ++ x :: after ∧
      (∀ y ∈ before, ∃ b, read y = .ok b) ∧ read x = .error e := by
  induction xs with
  | nil =>
      rw [List.mapM_nil]
      refine iff_of_false (fun h => nomatch h) ?_
      rintro ⟨before, x, after, hSplit, -⟩
      exact List.cons_ne_nil _ _ (List.append_eq_nil_iff.1 hSplit.symm).2
  | cons x xs ih =>
      rw [List.mapM_cons, bind_eq_error_iff]
      constructor
      · rintro (hFirst | ⟨b, hFirst, hRest⟩)
        · exact ⟨[], x, xs, rfl, List.forall_mem_nil _, hFirst⟩
        · rcases bind_eq_error_iff.1 hRest with hTail | ⟨_, _, ⟨⟩⟩
          obtain ⟨before, y, after, rfl, hBefore, hy⟩ := ih.1 hTail
          exact ⟨x :: before, y, after, rfl, List.forall_mem_cons.2 ⟨⟨b, hFirst⟩, hBefore⟩, hy⟩
      · rintro ⟨before, y, after, hSplit, hBefore, hy⟩
        cases before with
        | nil =>
            rw [List.nil_append, List.cons.injEq] at hSplit
            exact .inl (hSplit.1 ▸ hy)
        | cons z before =>
            rw [List.cons_append, List.cons.injEq] at hSplit
            obtain ⟨⟨b, hb⟩, hRest⟩ := List.forall_mem_cons.1 hBefore
            refine .inr ⟨b, hSplit.1 ▸ hb, ?_⟩
            rw [bind_eq_error_iff]
            exact .inl (ih.2 ⟨before, y, after, hSplit.2, hRest, hy⟩)

/-- Steps that do not fail and keep a property do so together. -/
theorem foldlM_eq_ok {f : β → α → Except ε β} {P : β → Prop} {xs : List α}
    (hStep : ∀ x ∈ xs, ∀ b, P b → ∃ b', f b x = .ok b' ∧ P b') {b : β} (h : P b) :
    ∃ b', xs.foldlM f b = .ok b' ∧ P b' := by
  induction xs generalizing b with
  | nil => exact ⟨b, rfl, h⟩
  | cons x xs ih =>
      rw [List.forall_mem_cons] at hStep
      obtain ⟨next, hNext, hKept⟩ := hStep.1 b h
      obtain ⟨last, hLast, hEnd⟩ := ih hStep.2 hKept
      refine ⟨last, ?_, hEnd⟩
      rw [List.foldlM_cons, hNext]
      exact hLast

/-- If no item fails, neither does the list. -/
theorem mapM_of_forall {f : α → Except ε β} {xs : List α} (h : ∀ x ∈ xs, ∃ y, f x = .ok y) :
    ∃ ys, xs.mapM f = .ok ys ∧ List.Forall₂ (fun x y => f x = .ok y) xs ys := by
  induction xs with
  | nil => exact ⟨[], rfl, .nil⟩
  | cons x xs ih =>
      rw [List.forall_mem_cons] at h
      obtain ⟨y, hFirst⟩ := h.1
      obtain ⟨ys, hRest, hAll⟩ := ih h.2
      refine ⟨y :: ys, ?_, .cons hFirst hAll⟩
      rw [List.mapM_cons, hFirst, hRest]
      rfl

/-- If an item fails, the list fails with the fault of one of its items. -/
theorem exists_mapM_eq_error {f : α → Except ε β} {xs : List α} {x : α} (hx : x ∈ xs) {e : ε}
    (h : f x = .error e) : ∃ y ∈ xs, ∃ e', f y = .error e' ∧ xs.mapM f = .error e' := by
  induction xs with
  | nil => cases hx
  | cons first rest ih =>
      rw [List.mapM_cons]
      cases hFirst : f first with
      | error e' => exact ⟨first, List.mem_cons_self, e', hFirst, rfl⟩
      | ok b =>
          have hRest : x ∈ rest := by
            refine (List.mem_cons.1 hx).resolve_left ?_
            rintro rfl
            rw [h] at hFirst
            cases hFirst
          obtain ⟨y, hy, e', hFault, hTail⟩ := ih hRest
          refine ⟨y, List.mem_cons_of_mem _ hy, e', hFault, ?_⟩
          rw [hTail]
          rfl

/-- Going through a list succeeds exactly when every element does. -/
theorem forM_eq_ok_iff {f : α → Except ε Unit} {xs : List α} :
    forM xs f = .ok () ↔ ∀ x ∈ xs, f x = .ok () := by
  induction xs with
  | nil => exact iff_of_true rfl (List.forall_mem_nil _)
  | cons x xs ih =>
      rw [List.forM_cons, bind_eq_ok_iff, List.forall_mem_cons, ← ih]
      exact ⟨fun ⟨_, hFirst, hRest⟩ => ⟨hFirst, hRest⟩, fun ⟨hFirst, hRest⟩ => ⟨(), hFirst, hRest⟩⟩

theorem mapError_eq_error_iff {δ : Type} {f : ε → δ} {x : Except ε α} {d : δ} :
    x.mapError f = .error d ↔ ∃ e, x = .error e ∧ f e = d := by
  cases x <;> simp [Except.mapError]

theorem mapError_eq_ok_iff {δ : Type} {f : ε → δ} {x : Except ε α} {a : α} :
    x.mapError f = .ok a ↔ x = .ok a := by
  cases x <;> simp [Except.mapError]

end SatLab
