import Mathlib.Data.List.Forall2

/-!
# Results put together from results

When a result that depends on others is a value, and when it is an error: the result of a function on
a value, of one step behind another, and of the same step on each element of a list, which ends at
the first error.
-/

namespace RemoteDebugger

section Map

variable {ε α β : Type} {f : α → β} {result : Except ε α}

theorem map_eq_ok_iff {value : β} :
    f <$> result = .ok value ↔ ∃ read, result = .ok read ∧ f read = value := by
  constructor
  · intro h
    cases result with
    | ok read => exact ⟨read, rfl, Except.ok.inj h⟩
    | error reason => cases h
  · rintro ⟨read, rfl, rfl⟩
    rfl

theorem map_eq_error_iff {error : ε} : f <$> result = .error error ↔ result = .error error := by
  constructor
  · intro h
    cases result with
    | ok read => cases h
    | error reason =>
        cases h
        rfl
  · rintro rfl
    rfl

theorem mapError_eq_ok_iff {ε' : Type} {change : ε → ε'} {value : α} :
    result.mapError change = .ok value ↔ result = .ok value := by
  cases result with
  | ok read => simp [Except.mapError]
  | error reason => simp [Except.mapError]

end Map

section Bind

variable {ε α β : Type} {result : Except ε α}

theorem bind_eq_ok_iff {next : α → Except ε β} {value : β} :
    result >>= next = .ok value ↔ ∃ read, result = .ok read ∧ next read = .ok value := by
  constructor
  · intro h
    cases result with
    | error reason => cases h
    | ok read => exact ⟨read, rfl, h⟩
  · rintro ⟨read, rfl, h⟩
    exact h

theorem bind_eq_error_iff {next : α → Except ε β} {error : ε} :
    result >>= next = .error error ↔
      result = .error error ∨ ∃ read, result = .ok read ∧ next read = .error error := by
  cases result with
  | error reason =>
      constructor
      · intro h
        cases h
        exact .inl rfl
      · rintro (h | ⟨read, hread, -⟩)
        · cases h
          rfl
        · cases hread
  | ok read =>
      constructor
      · intro h
        exact .inr ⟨read, rfl, h⟩
      · rintro (h | ⟨_, hread, h⟩)
        · cases h
        · cases hread
          exact h

end Bind

section MapM

variable {ε α β : Type} {f : α → Except ε β}

theorem mapM_cons_eq_bind (x : α) (later : List α) :
    (x :: later).mapM f = f x >>= fun y => (y :: ·) <$> later.mapM f := by
  rw [List.mapM_cons]
  cases f x with
  | error reason => rfl
  | ok y => cases later.mapM f <;> rfl

/-- All elements of a list are read, one by one. -/
theorem mapM_eq_ok_iff {xs : List α} {ys : List β} :
    xs.mapM f = .ok ys ↔ List.Forall₂ (fun x y => f x = .ok y) xs ys := by
  induction xs generalizing ys with
  | nil =>
      rw [List.forall₂_nil_left_iff]
      constructor
      · intro h
        cases h
        rfl
      · rintro rfl
        rfl
  | cons x later ih =>
      simp only [mapM_cons_eq_bind, bind_eq_ok_iff, map_eq_ok_iff, ih, List.forall₂_cons_left_iff]
      constructor
      · rintro ⟨y, hfirst, ys, hlater, rfl⟩
        exact ⟨y, ys, hfirst, hlater, rfl⟩
      · rintro ⟨y, ys, hfirst, hlater, rfl⟩
        exact ⟨y, hfirst, ys, hlater, rfl⟩

/-- The error is that of the first element with one. -/
theorem mapM_eq_error_iff {xs : List α} {error : ε} :
    xs.mapM f = .error error ↔
      ∃ before x after, xs = before ++ x :: after ∧ (∀ earlier ∈ before, ∃ y, f earlier = .ok y) ∧
        f x = .error error := by
  induction xs with
  | nil =>
      constructor
      · intro h
        cases h
      · rintro ⟨before, x, after, hnil, -⟩
        simp at hnil
  | cons x later ih =>
      simp only [mapM_cons_eq_bind, bind_eq_error_iff, map_eq_error_iff, ih]
      constructor
      · rintro (hfirst | ⟨y, hfirst, before, other, after, rfl, hbefore, hother⟩)
        · exact ⟨[], x, later, rfl, by simp, hfirst⟩
        · refine ⟨x :: before, other, after, rfl, ?_, hother⟩
          exact List.forall_mem_cons.mpr ⟨⟨y, hfirst⟩, hbefore⟩
      · rintro ⟨before, other, after, hsplit, hbefore, hother⟩
        rcases before with _ | ⟨first, before⟩
        · obtain ⟨rfl, -⟩ := List.cons.inj hsplit
          exact .inl hother
        · obtain ⟨rfl, hlater⟩ := List.cons.inj hsplit
          obtain ⟨⟨y, hfirst⟩, hfront⟩ := List.forall_mem_cons.mp hbefore
          exact .inr ⟨y, hfirst, before, other, after, hlater, hfront, hother⟩

end MapM

section FoldlM

variable {ε α β : Type} {f : β → α → Except ε β}

/-- The error is that of the first element with one, behind those that are read without. -/
theorem foldlM_eq_error_iff {xs : List α} {init : β} {error : ε} :
    xs.foldlM f init = .error error ↔
      ∃ before x after state, xs = before ++ x :: after ∧ before.foldlM f init = .ok state ∧
        f state x = .error error := by
  induction xs generalizing init with
  | nil =>
      constructor
      · intro h
        cases h
      · intro h
        obtain ⟨before, x, after, state, hnil, -⟩ := h
        simp at hnil
  | cons x later ih =>
      rw [List.foldlM_cons, bind_eq_error_iff]
      constructor
      · intro h
        rcases h with hfirst | ⟨next, hnext, hlater⟩
        · exact ⟨[], x, later, init, rfl, rfl, hfirst⟩
        · obtain ⟨before, other, after, state, hsplit, hbefore, hother⟩ := ih.mp hlater
          refine ⟨x :: before, other, after, state, by rw [hsplit, List.cons_append], ?_, hother⟩
          rw [List.foldlM_cons]
          exact bind_eq_ok_iff.mpr ⟨next, hnext, hbefore⟩
      · intro h
        obtain ⟨before, other, after, state, hsplit, hbefore, hother⟩ := h
        rcases before with _ | ⟨first, before⟩
        · obtain ⟨rfl, -⟩ := List.cons.inj hsplit
          cases hbefore
          exact .inl hother
        · obtain ⟨rfl, hlater⟩ := List.cons.inj hsplit
          rw [List.foldlM_cons] at hbefore
          obtain ⟨next, hnext, hrest⟩ := bind_eq_ok_iff.mp hbefore
          exact .inr ⟨next, hnext, ih.mpr ⟨before, other, after, state, hlater, hrest, hother⟩⟩

end FoldlM

end RemoteDebugger
