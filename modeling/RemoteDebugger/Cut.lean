/-!
# Cutting a list at its first separator

`cut?` splits a list around the first element of a given kind.  Frames, listing lines and header
lines are all read through it, so its characterisation `cut?_eq_some_iff` is where their
uniqueness comes from.
-/

namespace RemoteDebugger

variable {α : Type}

/-- What precedes and what follows the first element of `xs` that satisfies `p`. -/
def cut? (p : α → Bool) (xs : List α) : Option (List α × List α) :=
  match xs.dropWhile (fun x => !p x) with
  | [] => none
  | _ :: after => some (xs.takeWhile (fun x => !p x), after)

@[simp] theorem cut?_nil (p : α → Bool) : cut? p [] = none := rfl

theorem cut?_cons (p : α → Bool) (x : α) (xs : List α) :
    cut? p (x :: xs) =
      if p x then some ([], xs)
      else (cut? p xs).map fun parts => (x :: parts.1, parts.2) := by
  by_cases hx : p x
  · simp [cut?, hx]
  · unfold cut?
    simp only [List.dropWhile_cons, List.takeWhile_cons, hx]
    simp only [Bool.not_false, if_true, Bool.false_eq_true, if_false]
    split <;> rfl

/-- A list without separators has no cut. -/
theorem cut?_eq_none_iff {p : α → Bool} {xs : List α} :
    cut? p xs = none ↔ ∀ x ∈ xs, p x = false := by
  induction xs with
  | nil => simp
  | cons x xs ih =>
    by_cases hx : p x
    · simp [cut?_cons, hx]
    · simp [cut?_cons, hx, ih]

/-- The cut is the one decomposition around a separator with none before it. -/
theorem cut?_eq_some_iff {p : α → Bool} {xs before after : List α} :
    cut? p xs = some (before, after) ↔
      ∃ x, p x = true ∧ (∀ y ∈ before, p y = false) ∧ xs = before ++ x :: after := by
  induction xs generalizing before with
  | nil => simp
  | cons x xs ih =>
    by_cases hx : p x
    · simp only [cut?_cons, hx, if_true, Option.some.injEq, Prod.mk.injEq]
      constructor
      · rintro ⟨rfl, rfl⟩
        exact ⟨x, hx, by simp, rfl⟩
      · rintro ⟨y, _, hbefore, heq⟩
        cases before with
        | nil => simpa using (List.cons.inj heq).2
        | cons z zs =>
          obtain ⟨rfl, _⟩ := List.cons.inj heq
          exact absurd (hbefore x (by simp)) (by simp [hx])
    · simp only [cut?_cons, hx, Bool.false_eq_true, if_false, Option.map_eq_some_iff, Prod.exists,
        Prod.mk.injEq]
      constructor
      · rintro ⟨front, back, hcut, rfl, rfl⟩
        obtain ⟨y, hy, hfront, rfl⟩ := ih.1 hcut
        exact ⟨y, hy, by simpa [hx] using hfront, rfl⟩
      · rintro ⟨y, hy, hbefore, heq⟩
        cases before with
        | nil =>
          obtain ⟨rfl, _⟩ := List.cons.inj heq
          exact absurd hy hx
        | cons z zs =>
          obtain ⟨rfl, hrest⟩ := List.cons.inj heq
          exact ⟨zs, after, ih.2 ⟨y, hy, fun w hw => hbefore w (by simp [hw]), hrest⟩, rfl, rfl⟩

/-! ## A given element as the separator -/

section Separator

variable [BEq α] [LawfulBEq α]

theorem cut?_of_not_mem {x : α} {before : List α} (h : x ∉ before) (after : List α) :
    cut? (· == x) (before ++ x :: after) = some (before, after) := by
  refine cut?_eq_some_iff.mpr ⟨x, by simp, ?_, rfl⟩
  intro y hy
  have hne : y ≠ x := fun heq => h (heq ▸ hy)
  simpa using hne

theorem cut?_eq_none_iff_not_mem {x : α} {xs : List α} :
    cut? (· == x) xs = none ↔ x ∉ xs := by
  rw [cut?_eq_none_iff]
  constructor
  · intro h hx
    simpa using h x hx
  · intro h y hy
    have hne : y ≠ x := fun heq => h (heq ▸ hy)
    simpa using hne

theorem not_mem_of_cut? {x : α} {xs before after : List α}
    (h : cut? (· == x) xs = some (before, after)) : x ∉ before ∧ xs = before ++ x :: after := by
  obtain ⟨y, hy, hbefore, rfl⟩ := cut?_eq_some_iff.mp h
  obtain rfl : y = x := by simpa using hy
  refine ⟨fun hmem => ?_, rfl⟩
  simpa using hbefore y hmem

end Separator

end RemoteDebugger
