import Mathlib.Data.List.Destutter

/-
  The changes in a sequence of values.

  Each value is compared with the one before it, and kept unless the comparison finds them the same.
  A comparison that is finer than equality under a reading keeps more values than the reading has
  changes, so the two agree only where the comparison does.

  Key definitions include:
    * `changes`

  Main results:
    * `map_changes_eq_iff`
    * `changes_eq_destutter`
    * `getLast_changes`
-/

----
-- Changes
----

variable {α β : Type}

/- The values that are not the same as the one before. -/
def changes (same : α → α → Bool) : Option α → List α → List α
| _, [] => []
| none, a :: as => a :: changes same (some a) as
| some p, a :: as =>
  if same p a then changes same (some a) as
  else a :: changes same (some a) as

theorem changes_cons {same : α → α → Bool} (prev : Option α) (a : α)
    (as : List α) : changes same prev (a :: as) =
    changes same prev [a] ++ changes same (some a) as := by
  cases prev with
  | none => rfl
  | some p =>
    simp only [changes]
    split
    · rfl
    · rfl

variable {same same' : α → α → Bool}

/- A coarser comparison keeps fewer values. -/
theorem changes_sublist (hCoarser : ∀ a b, same a b = true → same' a b = true) (prev : Option α)
    (as : List α) : (changes same' prev as).Sublist (changes same prev as) := by
  induction as generalizing prev with
  | nil => exact List.Sublist.refl _
  | cons a as ih =>
    cases prev with
    | none => exact (ih (some a)).cons_cons a
    | some p =>
      simp only [changes]
      by_cases hSame : same p a = true
      · rw [if_pos hSame, if_pos (hCoarser p a hSame)]
        exact ih (some a)
      · rw [if_neg hSame]
        split
        · exact (ih (some a)).cons a
        · exact (ih (some a)).cons_cons a

/- Two comparisons keep the same values if they agree on each value and the one before it. -/
theorem changes_eq_iff (hCoarser : ∀ a b, same a b = true → same' a b = true) (prev : Option α)
    (as : List α) : changes same prev as = changes same' prev as ↔ (prev.toList ++ as).IsChain
    (fun a b => same' a b = true → same a b = true) := by
  induction as generalizing prev with
  | nil =>
    cases prev with
    | none => simp [changes]
    | some p => simp [changes]
  | cons a as ih =>
    have hRest := ih (some a)
    rw [Option.toList_some, List.singleton_append] at hRest
    cases prev with
    | none =>
      simp only [changes, List.cons.injEq, true_and, Option.toList_none, List.nil_append]
      exact hRest
    | some p =>
      rw [Option.toList_some, List.singleton_append, List.isChain_cons_cons, ← hRest]
      simp only [changes]
      by_cases hSame : same p a = true
      · rw [if_pos hSame, if_pos (hCoarser p a hSame)]
        exact (and_iff_right (fun _ => hSame)).symm
      · rw [if_neg hSame]
        by_cases hSame' : same' p a = true
        · rw [if_pos hSame']
          constructor
          · intro hEqual
            -- one value more on the left
            have hLonger := (changes_sublist hCoarser (some a) as).length_le
            rw [← hEqual, List.length_cons] at hLonger
            omega
          · rintro ⟨hAgree, _⟩
            exact absurd (hAgree hSame') hSame
        · rw [if_neg hSame', List.cons.injEq]
          simp [hSame']

----
-- Changes Of A Reading
----

section

variable [DecidableEq β] (f : α → β)

theorem map_changes (prev : Option α) (as : List α) :
    (changes (fun a b => decide (f a = f b)) prev as).map f =
    changes (fun x y => decide (x = y)) (prev.map f) (as.map f) := by
  induction as generalizing prev with
  | nil => rfl
  | cons a as ih =>
    cases prev with
    | none =>
      simp only [changes, List.map_cons, Option.map_none]
      rw [ih (some a), Option.map_some]
    | some p =>
      simp only [changes, List.map_cons, Option.map_some, decide_eq_true_eq]
      split
      · exact ih (some a)
      · rw [List.map_cons, ih (some a), Option.map_some]

variable {same : α → α → Bool}

/-
  What is kept reads as the changes of the reading, if values in a row that read the same are found
  the same.
-/
theorem map_changes_eq_iff (hReads : ∀ a b, same a b = true → f a = f b) (prev : Option α)
    (as : List α) : (changes same prev as).map f =
    changes (fun x y => decide (x = y)) (prev.map f) (as.map f) ↔
    (prev.toList ++ as).IsChain (fun a b => f a = f b → same a b = true) := by
  have hCoarser : ∀ a b, same a b = true → decide (f a = f b) = true :=
    fun a b hSame => decide_eq_true (hReads a b hSame)
  have hChain := changes_eq_iff hCoarser prev as
  simp only [decide_eq_true_eq] at hChain
  rw [← map_changes, ← hChain]
  constructor
  · intro hMap
    have hLength := congrArg List.length hMap
    rw [List.length_map, List.length_map] at hLength
    exact ((changes_sublist hCoarser prev as).eq_of_length hLength.symm).symm
  · intro hEqual
    rw [hEqual]

omit [DecidableEq β] in
/- The last value that is kept reads as the last value. -/
theorem getLast_changes (hReads : ∀ a b, same a b = true → f a = f b) (as : List α) :
    (changes same none as).getLast?.map f = as.getLast?.map f := by
  have hAfter : ∀ (as : List α) (p : α), (p :: changes same (some p) as).getLast?.map f =
      (p :: as).getLast?.map f := by
    intro as
    induction as with
    | nil =>
      intro p
      rfl
    | cons a as ih =>
      intro p
      rw [List.getLast?_cons_cons, ← ih a]
      simp only [changes]
      by_cases hSame : same p a = true
      · rw [if_pos hSame]
        cases changes same (some a) as with
        | nil => simp [hReads p a hSame]
        | cons b bs =>
          rw [List.getLast?_cons_cons, List.getLast?_cons_cons]
      · rw [if_neg hSame, List.getLast?_cons_cons]
  cases as with
  | nil => rfl
  | cons a as => exact hAfter as a

end

/- The changes are the list without repetitions in a row. -/
theorem changes_eq_destutter [DecidableEq α] (as : List α) :
    changes (fun a b => decide (a = b)) none as = as.destutter (· ≠ ·) := by
  have hAfter : ∀ (as : List α) (p : α), p :: changes (fun a b => decide (a = b)) (some p) as =
      as.destutter' (· ≠ ·) p := by
    intro as
    induction as with
    | nil =>
      intro p
      rfl
    | cons a as ih =>
      intro p
      simp only [changes, decide_eq_true_eq]
      by_cases hSame : p = a
      · subst hSame
        rw [if_pos rfl, List.destutter'_cons_neg as (not_not.mpr rfl), ih]
      · rw [if_neg hSame, List.destutter'_cons_pos as hSame, ih]
  cases as with
  | nil => rfl
  | cons a as => exact hAfter as a
