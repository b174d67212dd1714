import Fincore.Lib.Journal
import Mathlib.Data.List.Sort

/-
  Rows numbered from a counter that no rollback turns back.

  A row gets its number when its transaction writes it, and others see it when the transaction
  commits, so numbers can become visible in another order than they were drawn in. Below a number
  under which nothing is outstanding, nothing is going to become visible any more.

  Key definitions include:
    * `Engine.Numbering`
    * `Engine.Config.outstanding`
    * `Engine.Config.Settled`
    * `Engine.page`
    * `Engine.Config.Caught`
    * `Engine.Numbering.Ascending`

  Main results:
    * `Engine.draws_step`
    * `Engine.Distinct.draws`
    * `Engine.Config.Settled.draws`
    * `Engine.mem_page_of_le`
    * `Engine.Config.Caught.page`
    * `Engine.Numbering.Ascending.withTx`
-/

----
-- Distinct Rows
----

namespace Engine

variable {Db ι Stmt Write Row Err α R : Type} {Resp : Stmt → Type}

/-
  `carried` is the row a write puts among the `stored` ones. A statement draws at most one number,
  from `last` on.
-/
structure Numbering (E : Engine Db Stmt Resp Write Row Err) (R : Type) where
  number : R → Nat
  last : Db → Nat
  stored : Db → List R
  carried : Write → Option R
  last_tick : ∀ s db, last db ≤ last (E.tick s db)
  last_tick_eq : ∀ s db db', last db = last db' → last (E.tick s db) = last (E.tick s db')
  last_apply : ∀ db w, last (E.apply db w) = last db
  stored_tick : ∀ s db, stored (E.tick s db) = stored db
  stored_apply : ∀ db w, stored (E.apply db w) = stored db ++ (carried w).toList
  drawn : ∀ began s db x ws w r, E.exec began s db = .ok (x, ws) →
        w ∈ ws → carried w = some r → last db < number r ∧ number r ≤ last (E.tick s db)
  single : ∀ began s db x ws, E.exec began s db = .ok (x, ws) → (ws.filterMap carried).length ≤ 1

variable {E : Engine Db Stmt Resp Write Row Err}

theorem Numbering.last_view (N : Numbering E R) (db : Db) (ws : List Write) :
    N.last (E.view db ws) = N.last db := by
  induction ws generalizing db with
  | nil => rfl
  | cons w ws ih => rw [view_cons, ih, N.last_apply]

theorem Numbering.stored_view (N : Numbering E R) (db : Db) (ws : List Write) :
    N.stored (E.view db ws) = N.stored db ++ ws.filterMap N.carried := by
  induction ws generalizing db with
  | nil => simp
  | cons w ws ih =>
    rw [view_cons, ih, N.stored_apply, List.append_assoc]
    congr 1
    cases hRow : N.carried w with
    | none => simp [hRow]
    | some r => simp [hRow]

/- The rows a call has written and not committed. -/
def Call.outstanding (N : Numbering E R) (call : Call ι Stmt Resp Write Err α) : List R :=
  match call.state with
  | .running t => t.writes.filterMap N.carried
  | .returned _ => []

/- The rows that are written and not committed. -/
def Config.outstanding (N : Numbering E R) (cfg : Config Db ι Stmt Resp Write Err α) : List R :=
  cfg.calls.flatMap (Call.outstanding N)

theorem Config.mem_outstanding {N : Numbering E R}
    {cfg : Config Db ι Stmt Resp Write Err α} {r : R} : r ∈ cfg.outstanding N ↔
    ∃ i c t w, cfg.Running i c t ∧ w ∈ t.writes ∧ N.carried w = some r := by
  constructor
  · intro hMem
    rcases List.mem_flatMap.mp hMem with ⟨call, hCall, hRow⟩
    rcases call with ⟨c, state⟩
    rcases List.getElem?_of_mem hCall with ⟨i, hAt⟩
    cases state with
    | running t =>
      rcases List.mem_filterMap.mp hRow with ⟨w, hWrite, hCarried⟩
      exact ⟨i, c, t, w, hAt, hWrite, hCarried⟩
    | returned _ => cases hRow
  · rintro ⟨i, c, t, w, hCall, hWrite, hCarried⟩
    refine List.mem_flatMap.mpr ⟨_, List.mem_of_getElem? hCall, ?_⟩
    exact List.mem_filterMap.mpr ⟨w, hWrite, hCarried⟩

----
-- What A Step Draws
----

variable {N : Numbering E R}
variable {cfg cfg' : Config Db ι Stmt Resp Write Err α}

/-
  At most the row `new` is written, with a number past the counter; only what is outstanding becomes
  visible.
-/
structure Draws (N : Numbering E R)
    (cfg cfg' : Config Db ι Stmt Resp Write Err α) (new : Option R) : Prop where
  last : N.last cfg.db ≤ N.last cfg'.db
  fresh : ∀ r, new = some r → N.last cfg.db < N.number r ∧ N.number r ≤ N.last cfg'.db
  kept : ∀ r ∈ N.stored cfg.db, r ∈ N.stored cfg'.db
  stored : ∀ r ∈ N.stored cfg'.db, r ∈ N.stored cfg.db ∨ r ∈ cfg.outstanding N
  outstanding : ∀ r ∈ cfg'.outstanding N, r ∈ cfg.outstanding N ∨ new = some r

/- Calls that only end, on a database that only ticks. -/
theorem draws_of_ended (hDb : cfg'.db = cfg.db ∨ ∃ s, cfg'.db = E.tick s cfg.db)
    (hRunning : ∀ i c t, cfg'.Running i c t →
    cfg.Running i c t ∨ t.writes = []) : Draws N cfg cfg' none := by
  have hLast : N.last cfg.db ≤ N.last cfg'.db := by
    rcases hDb with hSame | ⟨s, hTick⟩
    · rw [hSame]
    · rw [hTick]
      exact N.last_tick s _
  have hStored : N.stored cfg'.db = N.stored cfg.db := by
    rcases hDb with hSame | ⟨s, hTick⟩
    · rw [hSame]
    · rw [hTick, N.stored_tick]
  refine ⟨hLast, ?_, ?_, ?_, ?_⟩
  · intro r hNone
    cases hNone
  · intro r hMem
    rwa [hStored]
  · intro r hMem
    rw [hStored] at hMem
    exact Or.inl hMem
  · intro r hMem
    rcases Config.mem_outstanding.mp hMem with ⟨i, c, t, w, hCall, hWrite, hCarried⟩
    rcases hRunning i c t hCall with hOld | hNil
    · exact Or.inl (Config.mem_outstanding.mpr ⟨i, c, t, w, hOld, hWrite, hCarried⟩)
    · rw [hNil] at hWrite
      cases hWrite

theorem Draws.refl (N : Numbering E R)
    (cfg : Config Db ι Stmt Resp Write Err α) : Draws N cfg cfg none :=
  draws_of_ended (Or.inl rfl) (fun _ _ _ hCall => Or.inl hCall)

variable {t : Txn Stmt Resp Write Err α}

theorem draws_commit {i : Nat} {input : ι} (hCall : cfg.Running i input t) (r : Except Err α) :
    Draws N cfg (cfg.commit E i input t.writes r) none := by
  have hStored : N.stored (cfg.commit E i input t.writes r).db =
      N.stored cfg.db ++ t.writes.filterMap N.carried := N.stored_view cfg.db t.writes
  refine ⟨?_, ?_, ?_, ?_, ?_⟩
  · exact Nat.le_of_eq (N.last_view cfg.db t.writes).symm
  · intro r hNone
    cases hNone
  · intro r hMem
    rw [hStored]
    exact List.mem_append_left _ hMem
  · intro r hMem
    rw [hStored] at hMem
    rcases List.mem_append.mp hMem with hOld | hNew
    · exact Or.inl hOld
    · rcases List.mem_filterMap.mp hNew with ⟨w, hWrite, hCarried⟩
      exact Or.inr (Config.mem_outstanding.mpr ⟨i, input, t, w, hCall, hWrite, hCarried⟩)
  · intro r hMem
    rcases Config.mem_outstanding.mp hMem with ⟨j, c, t', w, hOther, hWrite, hCarried⟩
    exact Or.inl (Config.mem_outstanding.mpr
      ⟨j, c, t', w, (running_commit hOther).2, hWrite, hCarried⟩)

variable {ws : List Write}

theorem draws_answered {i : Nat} {input : ι} {s : Stmt} {p : Prog Stmt Resp Err α} {x : Resp s}
    (hCall : cfg.Running i input t)
    (hExec : E.exec t.began s (E.view cfg.db t.writes) = .ok (x, ws)) : ∃ new, Draws N cfg
    (cfg.advance (E.tick s cfg.db) i input ⟨t.began, t.writes ++ ws, p⟩) new := by
  refine ⟨(ws.filterMap N.carried).head?, ?_, ?_, ?_, ?_, ?_⟩
  · exact N.last_tick s cfg.db
  · intro r hNew
    rcases List.mem_filterMap.mp (List.mem_of_mem_head? hNew) with ⟨w, hWrite, hCarried⟩
    have hDrawn := N.drawn _ _ _ _ _ _ _ hExec hWrite hCarried
    rw [N.last_view] at hDrawn
    refine ⟨hDrawn.1, Nat.le_trans hDrawn.2 ?_⟩
    exact Nat.le_of_eq (N.last_tick_eq s _ _ (N.last_view cfg.db t.writes))
  · intro r hMem
    show r ∈ N.stored (E.tick s cfg.db)
    rwa [N.stored_tick]
  · intro r hMem
    have hMem : r ∈ N.stored (E.tick s cfg.db) := hMem
    rw [N.stored_tick] at hMem
    exact Or.inl hMem
  · intro r hMem
    rcases Config.mem_outstanding.mp hMem with ⟨j, c, t', w, hOther, hWrite, hCarried⟩
    rcases running_advance hOther with ⟨rfl, rfl, rfl⟩ | ⟨_, hOld⟩
    · rcases List.mem_append.mp hWrite with hOld | hNew
      · exact Or.inl (Config.mem_outstanding.mpr ⟨j, c, t, w, hCall, hOld, hCarried⟩)
      · right
        have hMem := List.mem_filterMap.mpr ⟨w, hNew, hCarried⟩
        have hSingle := N.single _ _ _ _ _ hExec
        generalize ws.filterMap N.carried = rows at hMem hSingle ⊢
        match rows, hSingle with
        | [row], _ =>
          rw [List.mem_singleton.mp hMem]
          rfl
    · exact Or.inl (Config.mem_outstanding.mpr ⟨j, c, t', w, hOld, hWrite, hCarried⟩)

variable [DecidableEq Row]

theorem draws_step {handler : ι → Prog Stmt Resp Err α} {a : Action ι}
    (N : Numbering E R) (hStep : E.step handler cfg a = some cfg') :
    ∃ new, Draws N cfg cfg' new := by
  cases step_spec hStep with
  | started input =>
    refine ⟨none, draws_of_ended (Or.inl rfl) ?_⟩
    intro i c t hCall
    rcases running_started hCall with hOld | ⟨_, hFresh⟩
    · exact Or.inl hOld
    · cases hFresh
      exact Or.inr rfl
  | answered hCall hProg hFree hExec =>
    exact draws_answered hCall hExec
  | refused hCall hProg hExec =>
    refine ⟨none, draws_of_ended (Or.inr ⟨_, rfl⟩) ?_⟩
    intro i c t hOther
    exact Or.inl (running_settle hOther).2
  | committed hCall hProg =>
    exact ⟨none, draws_commit hCall _⟩
  | rejected hCall hProg =>
    refine ⟨none, draws_of_ended (Or.inl rfl) ?_⟩
    intro i c t hOther
    exact Or.inl (running_settle hOther).2
  | unacked hCall hProg =>
    exact ⟨none, draws_commit hCall _⟩
  | broke hCall =>
    refine ⟨none, draws_of_ended (Or.inl rfl) ?_⟩
    intro i c t hOther
    exact Or.inl (running_settle hOther).2

omit [DecidableEq Row] in
/- Statements outside all calls that write no such row. -/
theorem draws_outside (N : Numbering E R) (cfg : Config Db ι Stmt Resp Write Err α) (s : Stmt)
    (hNone : ws.filterMap N.carried = []) : Draws N cfg (cfg.outside E s ws) none := by
  have hStored : N.stored (cfg.outside E s ws).db = N.stored cfg.db := by
    show N.stored (E.view (E.tick s cfg.db) ws) = _
    rw [N.stored_view, hNone, List.append_nil, N.stored_tick]
  refine ⟨?_, ?_, ?_, ?_, ?_⟩
  · show N.last cfg.db ≤ N.last (E.view (E.tick s cfg.db) ws)
    rw [N.last_view]
    exact N.last_tick s cfg.db
  · intro r hNone
    cases hNone
  · intro r hMem
    rwa [hStored]
  · intro r hMem
    rw [hStored] at hMem
    exact Or.inl hMem
  · intro r hMem
    exact Or.inl hMem

----
-- One Number For Each Row
----

variable {Db ι Stmt Write Row Err α R : Type} {Resp : Stmt → Type}
variable {E : Engine Db Stmt Resp Write Row Err} {N : Numbering E R}
variable {cfg cfg' : Config Db ι Stmt Resp Write Err α} {new : Option R}

/- A row with a number, committed or not. -/
def Config.Issued (N : Numbering E R) (cfg : Config Db ι Stmt Resp Write Err α)
    (r : R) : Prop := r ∈ N.stored cfg.db ∨ r ∈ cfg.outstanding N

/- Numbers start at 1, and no two rows share one. -/
structure Distinct (N : Numbering E R) (cfg : Config Db ι Stmt Resp Write Err α) : Prop where
  pos : ∀ r, cfg.Issued N r → 0 < N.number r
  le_last : ∀ r, cfg.Issued N r → N.number r ≤ N.last cfg.db
  unique : ∀ r r', cfg.Issued N r → cfg.Issued N r' → N.number r = N.number r' → r = r'

variable {db : Db}

theorem distinct_start (hStored : N.stored db = []) : Distinct N
    (⟨db, [], []⟩ : Config Db ι Stmt Resp Write Err α) := by
  have hNone : ∀ r, ¬ Config.Issued N (⟨db, [], []⟩ : Config Db ι Stmt Resp Write Err α) r := by
    rintro r (hMem | hMem)
    · have hMem : r ∈ N.stored db := hMem
      rw [hStored] at hMem
      cases hMem
    · cases hMem
  refine ⟨?_, ?_, ?_⟩
  · intro r hIssued
    exact absurd hIssued (hNone r)
  · intro r hIssued
    exact absurd hIssued (hNone r)
  · intro r r' hIssued
    exact absurd hIssued (hNone r)

variable {r : R}

theorem Draws.issued (hDraws : Draws N cfg cfg' new)
    (hIssued : cfg'.Issued N r) : cfg.Issued N r ∨ new = some r := by
  rcases hIssued with hMem | hMem
  · exact Or.inl (hDraws.stored r hMem)
  · rcases hDraws.outstanding r hMem with hOld | hNew
    · exact Or.inl (Or.inr hOld)
    · exact Or.inr hNew

theorem Distinct.draws (hInv : Distinct N cfg) (hDraws : Draws N cfg cfg' new) :
    Distinct N cfg' := by
  refine ⟨?_, ?_, ?_⟩
  · intro r hIssued
    rcases hDraws.issued hIssued with hOld | hNew
    · exact hInv.pos r hOld
    · exact Nat.zero_lt_of_lt (hDraws.fresh r hNew).1
  · intro r hIssued
    rcases hDraws.issued hIssued with hOld | hNew
    · exact Nat.le_trans (hInv.le_last r hOld) hDraws.last
    · exact (hDraws.fresh r hNew).2
  · intro r r' hIssued hIssued' hSame
    rcases hDraws.issued hIssued with hOld | hNew
    · rcases hDraws.issued hIssued' with hOld' | hNew'
      · exact hInv.unique r r' hOld hOld' hSame
      · have hLe := hInv.le_last r hOld
        have hLt := (hDraws.fresh r' hNew').1
        omega
    · rcases hDraws.issued hIssued' with hOld' | hNew'
      · have hLe := hInv.le_last r' hOld'
        have hLt := (hDraws.fresh r hNew).1
        omega
      · rw [hNew] at hNew'
        exact Option.some.inj hNew'

/- Nothing up to `n` can become visible any more. -/
structure Config.Settled (N : Numbering E R)
    (cfg : Config Db ι Stmt Resp Write Err α) (n : Nat) : Prop where
  drawn : n ≤ N.last cfg.db
  later : ∀ r ∈ cfg.outstanding N, n < N.number r

theorem Config.Settled.draws {n : Nat} (hSettled : cfg.Settled N n)
    (hDraws : Draws N cfg cfg' new) : cfg'.Settled N n := by
  refine ⟨Nat.le_trans hSettled.drawn hDraws.last, ?_⟩
  intro r hMem
  rcases hDraws.outstanding r hMem with hOld | hNew
  · exact hSettled.later r hOld
  · exact Nat.lt_of_le_of_lt hSettled.drawn (hDraws.fresh r hNew).1

/- What is visible up to `n` later is visible already. -/
theorem Config.Settled.stored {n : Nat} (hSettled : cfg.Settled N n)
    (hDraws : Draws N cfg cfg' new) (hMem : r ∈ N.stored cfg'.db)
    (hLe : N.number r ≤ n) : r ∈ N.stored cfg.db := by
  rcases hDraws.stored r hMem with hOld | hHeld
  · exact hOld
  · exact absurd hLe (Nat.not_le.mpr (hSettled.later r hHeld))

----
-- Pages
----

/- The first rows past an offset, by their numbers. -/
def page (number : R → Nat) (offset limit : Nat) (rows : List R) : List R :=
  ((rows.filter (fun r => offset < number r)).insertionSort
    (fun r r' => number r ≤ number r')).take limit

variable {number : R → Nat} {offset limit : Nat} {rows : List R}

theorem mem_sorted_iff : r ∈ (rows.filter (fun r => offset < number r)).insertionSort
    (fun r r' => number r ≤ number r') ↔ r ∈ rows ∧ offset < number r := by
  rw [List.mem_insertionSort]
  simp

theorem mem_of_mem_page (hMem : r ∈ page number offset limit rows) :
    r ∈ rows ∧ offset < number r := mem_sorted_iff.mp (List.mem_of_mem_take hMem)

/- A page ends where the next one begins. -/
theorem mem_page_of_le (hUnique : ∀ r ∈ rows, ∀ r' ∈ rows, number r = number r' → r = r')
    {last r : R} (hLast : (page number offset limit rows).getLast? = some last)
    (hMem : r ∈ rows) (hPast : offset < number r)
    (hLe : number r ≤ number last) : r ∈ page number offset limit rows := by
  have : Std.Total (fun r r' : R => number r ≤ number r') :=
    ⟨fun r r' => Nat.le_total (number r) (number r')⟩
  have : IsTrans R (fun r r' : R => number r ≤ number r') := ⟨fun _ _ _ => Nat.le_trans⟩
  have hSorted :=
    List.pairwise_insertionSort (fun r r' : R => number r ≤ number r')
      (rows.filter (fun r => offset < number r))
  have hLastMem := List.mem_of_getLast? hLast
  have hFound := mem_sorted_iff.mpr ⟨hMem, hPast⟩
  rw [← List.take_append_drop limit (List.insertionSort _ _)] at hSorted hFound
  rcases List.mem_append.mp hFound with hTaken | hLeft
  · exact hTaken
  · -- a row past the page has the number of its last one
    have hGe := (List.pairwise_append.mp hSorted).2.2 last hLastMem r hLeft
    rw [hUnique r hMem last (mem_of_mem_page hLastMem).1 (Nat.le_antisymm hLe hGe)]
    exact hLastMem

theorem page_of_perm {earlier later : List R} (hPerm : rows.Perm (earlier ++ later))
    (hOrder : (earlier ++ later).Pairwise (fun r r' => number r < number r'))
    (hEarlier : ∀ r ∈ earlier, number r ≤ offset) (hLater : ∀ r ∈ later, offset < number r) :
    page number offset limit rows = later.take limit := by
  have : Std.Total (fun r r' : R => number r ≤ number r') :=
    ⟨fun r r' => Nat.le_total (number r) (number r')⟩
  have : IsTrans R (fun r r' : R => number r ≤ number r') := ⟨fun _ _ _ => Nat.le_trans⟩
  have hFilter : (earlier ++ later).filter (fun r => offset < number r) = later := by
    rw [List.filter_append, List.filter_eq_nil_iff.mpr, List.filter_eq_self.mpr, List.nil_append]
    · simpa using hLater
    · simpa using hEarlier
  have hStrict := (List.pairwise_append.mp hOrder).2.1
  have hPast := hPerm.filter (fun r => decide (offset < number r))
  rw [hFilter] at hPast
  have hSorted : (rows.filter (fun r => offset < number r)).insertionSort
          (fun r r' => number r ≤ number r') = later := by
    refine List.Perm.eq_of_pairwise ?_ (List.pairwise_insertionSort _ _)
      (hStrict.imp Nat.le_of_lt) ((List.perm_insertionSort _ _).trans hPast)
    -- rows of one number are one row
    intro r r' hMem hMem' hLe hGe
    have hNodup : (later.map number).Nodup := List.pairwise_map.mpr (hStrict.imp Nat.ne_of_lt)
    exact List.inj_on_of_nodup_map hNodup (hPast.subset ((List.mem_insertionSort _).mp hMem))
      hMem' (Nat.le_antisymm hLe hGe)
  unfold page
  rw [hSorted]

/- An empty page says that there is nothing more. -/
theorem le_of_page_eq_nil (hLimit : 0 < limit)
    (hNil : page number offset limit rows = []) (hMem : r ∈ rows) : number r ≤ offset := by
  by_contra hPast
  have hFound := mem_sorted_iff.mpr ⟨hMem, Nat.lt_of_not_le hPast⟩
  rcases List.take_eq_nil_iff.mp hNil with hZero | hNone
  · omega
  · rw [hNone] at hFound
    cases hFound

----
-- Reading Page By Page
----

variable {seen : List R} {n : Nat}

/- All there will ever be up to `n` has been seen. -/
structure Config.Caught (N : Numbering E R)
    (cfg : Config Db ι Stmt Resp Write Err α) (seen : List R) (n : Nat) : Prop where
  settled : cfg.Settled N n
  all : ∀ r ∈ N.stored cfg.db, N.number r ≤ n → r ∈ seen

theorem Distinct.caught_zero (hInv : Distinct N cfg) (seen : List R) : cfg.Caught N seen 0 := by
  refine ⟨⟨Nat.zero_le _, ?_⟩, ?_⟩
  · intro r hMem
    exact hInv.pos r (Or.inr hMem)
  · intro r hMem hLe
    have hPos := hInv.pos r (Or.inl hMem)
    omega

theorem Config.Caught.draws {new : Option R} (hCaught : cfg.Caught N seen n)
    (hDraws : Draws N cfg cfg' new) (more : List R) : cfg'.Caught N (seen ++ more) n := by
  refine ⟨hCaught.settled.draws hDraws, ?_⟩
  intro r hMem hLe
  exact List.mem_append_left _ (hCaught.all r (hCaught.settled.stored hDraws hMem hLe) hLe)

/- The next page, read while nothing is behind a row. -/
theorem Config.Caught.page (hInv : Distinct N cfg) (hCaught : cfg.Caught N seen n)
    (hOrder : ∀ r ∈ cfg.outstanding N, ∀ r' ∈ N.stored cfg.db,
    N.number r' < N.number r) (limit : Nat) : cfg.Caught N
    (seen ++ page N.number n limit (N.stored cfg.db))
    (((page N.number n limit (N.stored cfg.db)).map N.number).getLast?.getD n) := by
  rw [List.getLast?_map]
  cases hLast : (Engine.page N.number n limit (N.stored cfg.db)).getLast? with
  | none =>
    refine ⟨hCaught.settled, ?_⟩
    intro r hMem hLe
    exact List.mem_append_left _ (hCaught.all r hMem hLe)
  | some last =>
    have hStored := (mem_of_mem_page (List.mem_of_getLast? hLast)).1
    refine ⟨⟨hInv.le_last last (Or.inl hStored), ?_⟩, ?_⟩
    · intro r hMem
      exact hOrder r hMem last hStored
    · intro r hMem hLe
      by_cases hOld : N.number r ≤ n
      · exact List.mem_append_left _ (hCaught.all r hMem hOld)
      · apply List.mem_append_right
        refine mem_page_of_le ?_ hLast hMem (Nat.lt_of_not_le hOld) hLe
        intro r hMem r' hMem' hSame
        exact hInv.unique r r' (Or.inl hMem) (Or.inl hMem') hSame

----
-- One Transaction After Another
----

/- The rows are stored in the order of their numbers. -/
structure Numbering.Ascending (N : Numbering E R) (db : Db) : Prop where
  order : (N.stored db).Pairwise (fun r r' => N.number r < N.number r')
  pos : ∀ r ∈ N.stored db, 0 < N.number r
  le_last : ∀ r ∈ N.stored db, N.number r ≤ N.last db

variable {N : Numbering E R}

theorem Numbering.Ascending.tick (hInv : N.Ascending db) (s : Stmt) :
    N.Ascending (E.tick s db) := by
  refine ⟨?_, ?_, ?_⟩
  · rw [N.stored_tick]
    exact hInv.order
  · rw [N.stored_tick]
    exact hInv.pos
  · rw [N.stored_tick]
    intro r hMem
    exact Nat.le_trans (hInv.le_last r hMem) (N.last_tick s db)

variable {ws : List Write}

theorem Numbering.Ascending.of_view (hInv : N.Ascending (E.view db ws)) : N.Ascending db := by
  have hStored := N.stored_view db ws
  refine ⟨?_, ?_, ?_⟩
  · have hOrder := hInv.order
    rw [hStored] at hOrder
    exact (List.pairwise_append.mp hOrder).1
  · intro r hMem
    apply hInv.pos r
    rw [hStored]
    exact List.mem_append_left _ hMem
  · intro r hMem
    rw [← N.last_view db ws]
    apply hInv.le_last r
    rw [hStored]
    exact List.mem_append_left _ hMem

/- One more statement of a transaction. -/
theorem Numbering.Ascending.exec {ws ws' : List Write} {began : Nat}
    {s : Stmt} {x : Resp s} (hInv : N.Ascending (E.view db ws))
    (hExec : E.exec began s (E.view db ws) = .ok (x, ws')) :
    N.Ascending (E.view (E.tick s db) (ws ++ ws')) := by
  have hStored : N.stored (E.view (E.tick s db) (ws ++ ws')) =
      N.stored (E.view db ws) ++ ws'.filterMap N.carried := by
    rw [N.stored_view, N.stored_view, N.stored_tick, List.filterMap_append, List.append_assoc]
  have hLast : N.last (E.view (E.tick s db) (ws ++ ws')) = N.last (E.tick s (E.view db ws)) := by
    rw [N.last_view]
    exact N.last_tick_eq s _ _ (N.last_view db ws).symm
  have hNew : ∀ r ∈ ws'.filterMap N.carried, N.last (E.view db ws) < N.number r ∧
      N.number r ≤ N.last (E.tick s (E.view db ws)) := by
    intro r hMem
    rcases List.mem_filterMap.mp hMem with ⟨w, hWrite, hCarried⟩
    exact N.drawn _ _ _ _ _ _ _ hExec hWrite hCarried
  have hSingle := N.single _ _ _ _ _ hExec
  rw [← hLast] at hNew
  refine ⟨?_, ?_, ?_⟩
  · rw [hStored]
    refine List.pairwise_append.mpr ⟨hInv.order, ?_, ?_⟩
    · generalize ws'.filterMap N.carried = rows at hSingle
      match rows, hSingle with
      | [], _ => exact .nil
      | [r], _ => exact List.pairwise_singleton _ r
    · intro r hOld r' hMem
      exact Nat.lt_of_le_of_lt (hInv.le_last r hOld) (hNew r' hMem).1
  · rw [hStored]
    intro r hMem
    rcases List.mem_append.mp hMem with hOld | hMem
    · exact hInv.pos r hOld
    · exact Nat.zero_lt_of_lt (hNew r hMem).1
  · rw [hStored]
    intro r hMem
    rcases List.mem_append.mp hMem with hOld | hMem
    · rw [hLast]
      exact Nat.le_trans (hInv.le_last r hOld) (N.last_tick s _)
    · exact (hNew r hMem).2

theorem Numbering.Ascending.serial {began : Nat} (p : Prog Stmt Resp Err α)
    (hInv : N.Ascending (E.view db ws)) :
    N.Ascending (E.serial began p ws db).2 := by
  induction p generalizing ws db with
  | ret a => exact hInv
  | fail e => exact hInv.of_view
  | ask s k ih =>
    cases hExec : E.exec began s (E.view db ws) with
    | error e =>
      simp only [Engine.serial, hExec]
      exact hInv.of_view.tick s
    | ok answer =>
      rcases answer with ⟨x, ws'⟩
      simp only [Engine.serial, hExec]
      exact ih x (hInv.exec hExec)

theorem Numbering.Ascending.withTx (p : Prog Stmt Resp Err α)
    (hInv : N.Ascending db) : N.Ascending (E.withTx p db).2 := Numbering.Ascending.serial p hInv

end Engine
