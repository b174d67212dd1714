import Fincore.Ledger.Calls

/-
  Overdrafts under concurrent calls.

  `Handle` reads the balance in one statement and applies the delta in a later one, and nothing
  keeps another withdrawal from committing in between. Balances stay non-negative in the runs in
  which every withdrawal that commits leaves enough for the withdrawals that have read the balance
  it changes.

  Key definitions include:
    * `Solvent`
    * `inWindow`
    * `Calls.covered`

  Main results:
    * `no_overdraft_of_covered`
-/

----
-- Solvent Databases
----

namespace Fincore.Ledger

/- Every balance fits its column and none is negative. -/
def Solvent (db : Database) : Prop := ∀ a, inBigint (db.balance a 1) = true ∧ 0 ≤ db.balance a 1

/- The balance covers a movement of the command's account. -/
def PostEntry.Covers (cmd : PostEntry) (db : Database) : Prop :=
  0 ≤ db.balance cmd.accountID 1 + cmd.delta.toInt

variable {db : Database}

theorem solvent_tick (hSolvent : Solvent db) (s : Stmt) : Solvent (postgres.tick s db) := by
  intro a
  rw [tick_balance]
  exact hSolvent a

/-
  The check in 64 bits is the check in the integers: a non-negative balance plus a negative delta
  does not wrap.
-/
theorem covers_of_check {b : Int} {d : Int64} (hRange : inBigint b = true)
    (hNonneg : 0 ≤ b) (hDelta : d.toInt < 0)
    (hCheck : ¬ Int64.ofInt b + d < 0) : 0 ≤ b + d.toInt := by
  have hBounds := inBigint_iff.mp hRange
  have hLower := d.le_toInt
  have hSum : inBigint (b + d.toInt) = true := by
    rw [inBigint_iff]
    omega
  rw [ofInt_add_neg_iff hRange hSum] at hCheck
  omega

variable {entryID : String}

variable {cmd : PostEntry}

theorem PostEntry.Post.solvent {env : Env} {ws : List Write} (hPost : cmd.Post env db ws entryID)
    (hFunded : ws ≠ [] → cmd.type = entryTypeWithdrawal → cmd.Covers db)
    (hSolvent : Solvent db) : Solvent (postgres.view db ws) := by
  rcases hPost with ⟨rfl, _⟩ | hPosts
  · exact hSolvent
  · rcases hPosts.writes with ⟨sequence, began, rfl⟩
    intro a
    rw [PostEntry.view_writes_balance]
    by_cases hAccount : a = cmd.accountID
    · subst hAccount
      rw [if_pos ⟨rfl, rfl⟩]
      refine ⟨hPosts.inRange, ?_⟩
      by_cases hType : cmd.type = entryTypeWithdrawal
      · exact hFunded (by simp [PostEntry.writes]) hType
      · have hPositive := hPosts.valid.delta_of_deposit hType
        have hOld := (hSolvent cmd.accountID).2
        omega
    · rw [if_neg (fun hRow => hAccount hRow.1), Int.add_zero]
      exact hSolvent a

----
-- Calls Between Reading And Writing The Balance
----

/- The call has read its balance and found it sufficient, and has not applied its delta yet. -/
def inWindow : Tx String → Bool
| .ask (.insertEvent _ _) _ => true
| .ask (.upsertBalance _ _ _) _ => true
| _ => false

/-
  What a call relies on for its funds check to stay true: while it is between the two statements, no
  commit takes away the money it has seen.
-/
def fundsRely (cmd : PostEntry) : Engine.Rely Database Stmt Resp Write GoError String where
  rel := fun t db db' =>
    (Solvent db → Solvent db') ∧
      (inWindow t.prog = true → cmd.type = entryTypeWithdrawal → cmd.Covers db → cmd.Covers db') ∧
      ∀ w ∈ t.writes, ∀ row ∈ w.holds, row.Same db db'
  refl := by
    intro t db
    exact ⟨id, fun _ _ => id, fun _ _ row _ => Row.Same.refl db row⟩
  trans := by
    intro t db₁ db₂ db₃ hFirst hSecond
    refine ⟨?_, ?_, ?_⟩
    · intro hSolvent
      exact hSecond.1 (hFirst.1 hSolvent)
    · intro hWindow hType hCovers
      exact hSecond.2.1 hWindow hType (hFirst.2.1 hWindow hType hCovers)
    · intro w hMem row hRow
      exact (hFirst.2.2 w hMem row hRow).trans (hSecond.2.2 w hMem row hRow)

theorem fundsRely_tick (cmd : PostEntry)
    (t : Engine.Txn Stmt Resp Write GoError String) (s : Stmt) (db : Database) :
    (fundsRely cmd).rel t db (postgres.tick s db) := by
  refine ⟨?_, ?_, ?_⟩
  · intro hSolvent
    exact solvent_tick hSolvent s
  · intro _ _ hCovers
    unfold PostEntry.Covers
    rw [tick_balance]
    exact hCovers
  · intro w _ row _
    exact Row.same_tick db s row

variable {t : Engine.Txn Stmt Resp Write GoError String}

theorem fundsRely_covers {db db' : Database} {d : Int} (hRely : (fundsRely cmd).rel t db db')
    (hMem : Write.balance cmd.accountID 1 d ∈ t.writes)
    (hCovers : cmd.Covers db) : cmd.Covers db' := by
  have hSame :=
    (hRely.2.2 _ hMem (.balance cmd.accountID 1) (List.mem_singleton.mpr rfl)).balance_eq
  unfold PostEntry.Covers
  rw [hSame]
  exact hCovers

/- Whatever a withdrawal commits, the balance covers it. -/
def PostEntry.Funded (cmd : PostEntry) (db : Database) (ws : List Write) (_ : String) : Prop :=
  ws ≠ [] → cmd.type = entryTypeWithdrawal → cmd.Covers db

theorem PostEntry.posting_funded (env : Env) (began : Nat)
    (hCovers : cmd.type = entryTypeWithdrawal → cmd.Covers db) :
    postgres.Wp (fundsRely cmd) cmd.Funded began (cmd.posting env) [] db := by
  have hTick : ∀ (s : Stmt) {db : Database}, cmd.Covers db → cmd.Covers (postgres.tick s db) := by
    intro s db hOld
    unfold PostEntry.Covers
    rw [tick_balance]
    exact hOld
  -- in the window: the rely keeps the balance covering
  intro db₁ hRely₁ _ ws₁ hExec₁
  rcases Stmt.exec_insertEvent hExec₁ with ⟨_, _, rfl⟩
  intro db₂ hRely₂ _ ws₂ hExec₂
  rcases Stmt.exec_upsertBalance hExec₂ with ⟨_, rfl⟩
  -- from here on the balance row is the call's own
  intro db₃ hRely₃ _ ws₃ hExec₃
  rcases Stmt.exec_insertKey hExec₃ with ⟨_, rfl⟩
  intro db₄ hRely₄ _ ws₄ hExec₄
  rcases Stmt.exec_insertMessage hExec₄ with ⟨_, rfl⟩
  intro db₅ hRely₅ _ hType
  have hCovers₁ : cmd.Covers db₁ := hRely₁.2.1 rfl hType (hCovers hType)
  have hCovers₂ : cmd.Covers db₂ := hRely₂.2.1 rfl hType (hTick _ hCovers₁)
  have hCovers₃ : cmd.Covers db₃ :=
    fundsRely_covers (d := cmd.delta.toInt) hRely₃ (by simp) (hTick _ hCovers₂)
  have hCovers₄ : cmd.Covers db₄ :=
    fundsRely_covers (d := cmd.delta.toInt) hRely₄ (by simp) (hTick _ hCovers₃)
  exact fundsRely_covers (d := cmd.delta.toInt) hRely₅ (by simp) (hTick _ hCovers₄)

theorem PostEntry.handle_funded (cmd : PostEntry) (env : Env) (began : Nat)
    (hSolvent : Solvent db) :
    postgres.Wp (fundsRely cmd) cmd.Funded began (cmd.handle env) [] db := by
  by_cases hValid : cmd.Valid
  · rw [handle_of_valid hValid env]
    intro db₁ hRely₁ found ws₁ hExec₁
    rcases Stmt.exec_selectKey hExec₁ with ⟨_, rfl⟩
    have hSolvent₁ : Solvent db₁ := hRely₁.1 hSolvent
    cases found with
    | some entryID =>
      intro db₂ _ hWrites
      exact absurd rfl hWrites
    | none =>
      intro db₂ hRely₂ row ws₂ hExec₂
      rcases Stmt.exec_selectBalance hExec₂ with ⟨hRow, rfl⟩
      have hSolvent₂ : Solvent db₂ := hRely₂.1 (solvent_tick hSolvent₁ _)
      dsimp only
      by_cases hFunds : cmd.type = entryTypeWithdrawal ∧ row.getD 0 + cmd.delta < 0
      · rw [if_pos hFunds]
        trivial
      · rw [if_neg hFunds]
        by_cases hTime : Json.TimeInRange (cmd.occurredAt env)
        · rw [if_pos hTime]
          apply posting_funded env began
          intro hType
          unfold PostEntry.Covers
          rw [tick_balance]
          apply covers_of_check (hSolvent₂ _).1 (hSolvent₂ _).2
          · rw [hValid.delta_of_withdrawal hType]
            have hPositive := hValid.amount.positive
            omega
          · intro hNegative
            apply hFunds
            refine ⟨hType, ?_⟩
            rw [hRow]
            exact hNegative
        · rw [if_neg hTime]
          trivial
  · rcases handle_of_not_valid hValid env with ⟨e, hFail⟩
    rw [hFail]
    trivial

----
-- Covered Runs
----

/-
  Call `call` commits while `other` runs. If both withdraw from one account and `other` is between
  reading and writing the balance, the balance has to cover both.
-/
def coversBoth (db : Database) (call other : PostEntry)
    (t t' : Engine.Txn Stmt Resp Write GoError String) :
    Bool :=
  if call.type = entryTypeWithdrawal ∧ other.type = entryTypeWithdrawal ∧
      call.accountID = other.accountID ∧ t.writes.isEmpty = false ∧ inWindow t'.prog = true then
    decide (0 ≤ db.balance call.accountID 1 + call.delta.toInt + other.delta.toInt)
  else true

/- The commit of call `i` is covered. -/
def Calls.commitCovered (cfg : Calls) (i : Nat) : Bool :=
  (List.range cfg.calls.length).all (fun j =>
    match cfg.running? i, cfg.running? j with
    | some (call, t), some (other, t') =>
      decide (i = j) || coversBoth cfg.db call.1 other.1 t t'
    | _, _ => true)

/-
  The condition on a step: a withdrawal commits only when the balance covers it together with each
  withdrawal from its account that has read the balance before.
-/
def Calls.covered (cfg : Calls) : Engine.Action (PostEntry × Env) → Bool
| .finish i => cfg.commitCovered i
| .unacked i => cfg.commitCovered i
| _ => true

variable {a : Engine.Action (PostEntry × Env)} {call other : PostEntry × Env} {cfg : Calls}
variable {i j : Nat}

theorem Calls.coversBoth_of_covered (hCovered : cfg.covered a = true)
    (hAction : a = .finish i ∨ a = .unacked i) (hNe : i ≠ j)
    {t t' : Engine.Txn Stmt Resp Write GoError String} (hCall : cfg.Running i call t) (hOther : cfg.Running j other t') :
    coversBoth cfg.db call.1 other.1 t t' = true := by
  have hCommit : cfg.commitCovered i = true := by
    rcases hAction with rfl | rfl
    · exact hCovered
    · exact hCovered
  unfold Calls.commitCovered at hCommit
  have hAt := List.all_eq_true.mp hCommit j (List.mem_range.mpr hOther.lt_length)
  rw [Engine.Config.running?_eq_some.mpr hCall, Engine.Config.running?_eq_some.mpr hOther] at hAt
  simpa [hNe] using hAt

/- The overdraft invariant of covered runs. -/
structure FundsInv (cfg : Calls) : Prop where
  calls : CallInv cfg
  funded : postgres.Guarded (fun call => fundsRely call.1) (fun call => call.1.Funded) cfg
  solvent : Solvent cfg.db

theorem FundsInv.solvent_commit (hInv : FundsInv cfg) {i : Nat}
    {call : PostEntry × Env} (hCall : cfg.Running i call t)
    (hProg : t.prog = .ret entryID) : Solvent (postgres.view cfg.db t.writes) :=
  (hInv.calls.post hCall hProg).solvent (hInv.funded.post hCall hProg) hInv.solvent

theorem FundsInv.rely_commit (hInv : FundsInv cfg)
    {t t' : Engine.Txn Stmt Resp Write GoError String}
    (hNe : i ≠ j) (hCall : cfg.Running i call t) (hProg : t.prog = .ret entryID)
    (hOther : cfg.Running j other t') (hCovered : coversBoth cfg.db call.1 other.1 t t' = true) :
    (fundsRely other.1).rel t' cfg.db (postgres.view cfg.db t.writes) := by
  refine ⟨?_, ?_, ?_⟩
  · intro _
    exact hInv.solvent_commit hCall hProg
  · intro hWindow hOtherType hCovers
    rcases hInv.calls.post hCall hProg with ⟨hNil, _⟩ | hPosts
    · rw [hNil]
      exact hCovers
    · rcases hPosts.writes with ⟨sequence, began, hWrites⟩
      unfold PostEntry.Covers
      rw [hWrites, PostEntry.view_writes_balance]
      by_cases hAccount : call.1.accountID = other.1.accountID
      · rw [if_pos ⟨hAccount.symm, rfl⟩]
        by_cases hType : call.1.type = entryTypeWithdrawal
        · have hBoth : 0 ≤ cfg.db.balance call.1.accountID 1 +
              call.1.delta.toInt + other.1.delta.toInt := by
            have hPremise : call.1.type = entryTypeWithdrawal ∧ other.1.type = entryTypeWithdrawal ∧
                call.1.accountID = other.1.accountID ∧
                t.writes.isEmpty = false ∧ inWindow t'.prog = true := by
              refine ⟨hType, hOtherType, hAccount, ?_, hWindow⟩
              rw [hWrites]
              rfl
            unfold coversBoth at hCovered
            rw [if_pos hPremise] at hCovered
            exact of_decide_eq_true hCovered
          rw [hAccount] at hBoth
          exact hBoth
        · have hPositive := hPosts.valid.delta_of_deposit hType
          unfold PostEntry.Covers at hCovers
          omega
      · rw [if_neg (fun hRow => hAccount hRow.1.symm)]
        unfold PostEntry.Covers at hCovers
        omega
  · exact (hInv.calls.rely_commit hNe hCall hProg hOther).2

theorem fundsInv_step {cfg cfg' : Calls} (hInv : FundsInv cfg) (hCovered : cfg.covered a = true)
    (hStep : callStep cfg a = some cfg') : FundsInv cfg' := by
  refine ⟨callInv_step hInv.calls hStep, ?_, ?_⟩
  · apply Engine.guarded_step _ _ _ hInv.funded hStep
    · intro call
      exact call.1.handle_funded call.2 _ hInv.solvent
    · intro call t s db
      exact fundsRely_tick call.1 t s db
    · intro i call t b j other t' hNe hAction hCall hProg hOther
      exact hInv.rely_commit hNe hCall hProg hOther
        (Calls.coversBoth_of_covered hCovered hAction hNe hCall hOther)
  · rcases Engine.step_quiet_or_commit hStep with
      hQuiet | ⟨i, call, t, b, r, hCall, hProg, _, _, rfl⟩
    · have hBalances : cfg'.db.balances = cfg.db.balances := hQuiet.observe tick_balances
      intro a
      unfold Database.balance
      rw [hBalances]
      exact hInv.solvent a
    · exact hInv.solvent_commit hCall hProg

theorem fundsInv_start (hSolvent : Solvent db) : FundsInv (Calls.start db) := by
  refine ⟨callInv_start db, ?_, hSolvent⟩
  intro i call t hCall
  cases hCall

/- From a solvent database, a run whose commits are all covered overdraws no account. -/
theorem no_overdraft_of_covered (db : Database) (hSolvent : Solvent db)
    (schedule : List (Engine.Action (PostEntry × Env)))
    (hCovered : Transition.Meets callStep (fun cfg a => cfg.covered a = true)
      (Calls.start db) schedule) (cfg : Calls)
    (hRun : Transition.run callStep (Calls.start db) schedule = some cfg)
    (accountID : String) : 0 ≤ cfg.db.balance accountID 1 := by
  have hInv : FundsInv cfg := by
    apply Transition.run_induction_of_meets _ _ hCovered hRun
    · intro s a s' hInv hCovered hStep
      exact fundsInv_step hInv hCovered hStep
    · exact fundsInv_start hSolvent
  exact (hInv.solvent accountID).2

/- One deposit, then one withdrawal of all of it, alone. -/
def depositThenWithdraw : List (Engine.Action (PostEntry × Env)) :=
  [.start (.of "d" "acc" entryTypeDeposit 100, .tagged "d"),
    .exec 0, .exec 0, .exec 0, .exec 0, .exec 0, .exec 0, .finish 0, .start
      (.of "w" "acc" entryTypeWithdrawal 100, .tagged "w"),
    .exec 1, .exec 1, .exec 1, .exec 1, .exec 1, .exec 1, .finish 1]

theorem no_overdraft_alone : ∃ cfg, Transition.run callStep
      (Calls.start (Database.empty ledgerSchema))
      depositThenWithdraw = some cfg ∧ 0 ≤ cfg.db.balance "acc" 1 := by
  refine ⟨_, rfl, ?_⟩
  exact no_overdraft_of_covered (Database.empty ledgerSchema)
    (fun _ => ⟨rfl, Int.le_refl 0⟩) depositThenWithdraw (by decide) _ rfl "acc"

/-
  One deposit of 100, then two withdrawals of 100 that both read the balance before either writes
  it.
-/
def racingWithdrawals : List (Engine.Action (PostEntry × Env)) :=
  [.start (.of "d" "acc" entryTypeDeposit 100, .tagged "d"),
    .exec 0, .exec 0, .exec 0, .exec 0, .exec 0, .exec 0, .finish 0, .start
      (.of "w1" "acc" entryTypeWithdrawal 100, .tagged "w1"), .start
      (.of "w2" "acc" entryTypeWithdrawal 100, .tagged "w2"), .exec 1, .exec 1, .exec 2, .exec 2,
    .exec 1, .exec 1, .exec 1, .exec 1, .finish 1, .exec 2, .exec 2, .exec 2, .exec 2, .finish 2]

theorem racing_withdrawals_overdraw : ∃ cfg, Transition.run callStep
      (Calls.start (Database.empty ledgerSchema))
      racingWithdrawals = some cfg ∧ cfg.db.balance "acc" 1 = -100 := ⟨_, rfl, by decide⟩

end Fincore.Ledger
