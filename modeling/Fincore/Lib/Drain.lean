import Fincore.Lib.Serial

/-
  Reading a log to its end, batch by batch.

  A batch starts behind an offset and reports how many rows it has processed and the offset to go on
  from. What one batch does to any part of the log carries over to a run that only stops at an empty
  batch.

  Key definitions include:
    * `Engine.drain`
    * `Engine.Reads`

  Main results:
    * `Engine.offset_spec`
    * `Engine.drain_alone`
-/

----
-- Offsets
----

namespace Engine

section

variable {R : Type} {number : R → Nat}

/- The offset after some rows of an ordered log: the number of the last one, or where it was. -/
theorem offset_spec {earlier later : List R}
    (hOrder : (earlier ++ later).Pairwise (fun r r' => number r < number r'))
    {offset : Nat} (hEarlier : ∀ r ∈ earlier, number r ≤ offset)
    (hLater : ∀ r ∈ later, offset < number r) (limit : Nat) :
    (∀ r ∈ earlier ++ later.take limit, number r ≤
    ((later.take limit).map number).getLast?.getD offset) ∧
    ∀ r ∈ later.drop limit, ((later.take limit).map number).getLast?.getD offset < number r := by
  rw [← List.take_append_drop limit later, ← List.append_assoc] at hOrder
  rw [List.getLast?_map]
  cases hLast : (later.take limit).getLast? with
  | none =>
    rw [List.getLast?_eq_none_iff.mp hLast, List.append_nil]
    refine ⟨hEarlier, ?_⟩
    intro r hMem
    exact hLater r (List.mem_of_mem_drop hMem)
  | some last =>
    rcases List.getLast?_eq_some_iff.mp hLast with ⟨rows, hRows⟩
    rw [hRows, ← List.append_assoc] at hOrder
    rw [hRows, ← List.append_assoc]
    have hBefore := (List.pairwise_append.mp hOrder).1
    refine ⟨?_, ?_⟩
    · intro r hMem
      rcases List.mem_append.mp hMem with hOld | hNew
      · exact Nat.le_of_lt
          ((List.pairwise_append.mp hBefore).2.2 r hOld last (List.mem_singleton.mpr rfl))
      · rw [List.mem_singleton.mp hNew]
        exact Nat.le_refl _
    · intro r hMem
      exact (List.pairwise_append.mp hOrder).2.2 last
        (List.mem_append_right _ (List.mem_singleton.mpr rfl)) r hMem

end

----
-- Batch After Batch
----

variable {Db Stmt Write Row Err : Type} {Resp : Stmt → Type}

/- Batches until one reports 0 processed. `none` says that `fuel` batches were not enough. -/
def drain (batch : Nat → Prog Stmt Resp Err (Nat × Nat)) :
    Nat → Nat → Prog Stmt Resp Err (Option Nat)
| 0, _ => .ret none
| fuel + 1, offset =>
  batch offset >>= fun report =>
    if report.1 = 0 then .ret (some offset)
    else drain batch fuel report.2

variable {R : Type}

/-
  From any place in the log a batch takes up to `limit` rows and keeps what is said of the rows read
  and the rows left.
-/
def Reads (E : Engine Db Stmt Resp Write Row Err) (number : R → Nat)
    (limit : Nat) (log : List R) (batch : Nat → Prog Stmt Resp Err (Nat × Nat))
    (Inv : Db → List R → List R → Prop) : Prop :=
  ∀ db earlier later offset, earlier ++ later = log →
    (∀ r ∈ earlier, number r ≤ offset) → (∀ r ∈ later, offset < number r) →
    Inv db earlier later → ∃ db', E.alone (batch offset) db =
          (.ok ((later.take limit).length,
            ((later.take limit).map number).getLast?.getD offset), db') ∧
          Inv db' (earlier ++ later.take limit) (later.drop limit)

variable {E : Engine Db Stmt Resp Write Row Err} {number : R → Nat}
variable {batch : Nat → Prog Stmt Resp Err (Nat × Nat)} {Inv : Db → List R → List R → Prop}

/- Such batches get to the end of the log. -/
theorem drain_alone {log : List R}
    (hOrder : log.Pairwise (fun r r' => number r < number r')) {limit : Nat}
    (hLimit : 0 < limit) (hBatch : E.Reads number limit log batch Inv)
    {fuel offset : Nat} {db : Db} {earlier later : List R} (hLog : earlier ++ later = log)
    (hEarlier : ∀ r ∈ earlier, number r ≤ offset)
    (hLater : ∀ r ∈ later, offset < number r) (hInv : Inv db earlier later)
    (hFuel : later.length < fuel) : ∃ offset' db',
    E.alone (drain batch fuel offset) db = (.ok (some offset'), db') ∧ Inv db' log [] := by
  induction fuel generalizing db earlier later offset with
  | zero => omega
  | succ fuel ih =>
    rcases hBatch db earlier later offset hLog hEarlier hLater hInv with ⟨db', hRun, hNext⟩
    rw [drain, alone_bind _ hRun]
    by_cases hDone : later = []
    · subst hDone
      rw [List.append_nil] at hLog
      subst hLog
      rw [List.take_nil, List.drop_nil, List.append_nil] at hNext
      refine ⟨offset, db', ?_, hNext⟩
      rw [List.take_nil]
      rfl
    · have hLength := List.length_pos_of_ne_nil hDone
      have hSome : (later.take limit).length ≠ 0 := by
        rw [List.length_take]
        omega
      rw [if_neg hSome]
      have hOffset := offset_spec (hLog ▸ hOrder) hEarlier hLater limit
      have hWhole : earlier ++ later.take limit ++ later.drop limit = log := by
        rw [List.append_assoc, List.take_append_drop]
        exact hLog
      have hShorter : (later.drop limit).length < fuel := by
        rw [List.length_drop]
        omega
      exact ih hWhole hOffset.1 hOffset.2 hNext hShorter

end Engine
