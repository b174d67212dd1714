import Fincore.Ledger.Worker
import Fincore.Pkg.Streams

/-
  Balances read with a required sequence number, as in `BalanceQuery.GetBalanceKobo` of
  `services/ledger-service/infrastructure/postgres`.

  The query polls the log until its highest visible sequence has reached the required one, and reads
  the balance with a statement of its own after that, while `PostEntry` calls go on. An event below
  the highest visible one may still be uncommitted.

  Key definitions include:
    * `BalanceQuery` and `BalanceQuery.reached`
    * `Reads` and `readsStep`
    * `Reads.pollsSettled`

  Main results:
    * `causalInv_step`
    * `read_includes_required`
-/

----
-- Balance Queries
----

namespace Fincore.Ledger

/- Waiting for the log, about to read, or done. -/
inductive QueryStage where
  | waiting
  | ready
  | returned (r : Except GoError Int64)

/- A call of `GetBalanceKobo`, its context's LSN with it. -/
structure BalanceQuery where
  accountID : String
  version : Nat
  requiredLSN : UInt64
  stage : QueryStage

/-
  `select sequence from event_store_events
    order by sequence desc limit 1`
-/
def lastSequence (db : Database) : Except GoError (Option Nat) :=
  if "sequence" ∈ db.schema "event_store_events" then
    .ok ((db.events.insertionSort (fun a b =>
      b.sequence ≤ a.sequence)).head?.map EventRow.sequence)
  else
    .error (.pg (.undefinedColumn "event_store_events" "sequence"))

namespace BalanceQuery

/- `GetBalanceKobo` up to its first select. -/
def begin (accountID : String) (version : Nat) (requiredLSN : UInt64) : BalanceQuery where
  accountID := accountID
  version := version
  requiredLSN := requiredLSN
  stage := if requiredLSN ≠ 0 then .waiting else .ready

/- `uint64(currentLSN) >= requiredLSN`; no row scans as 0. -/
def reached (q : BalanceQuery) (current : Option Nat) : Bool :=
  q.requiredLSN ≤ UInt64.ofNat (current.getD 0)

def isWaiting (q : BalanceQuery) : Bool :=
  match q.stage with
  | .waiting => true
  | _ => false

def isReady (q : BalanceQuery) : Bool :=
  match q.stage with
  | .ready => true
  | _ => false

/- One tick of the ticker. -/
def poll (q : BalanceQuery) (db : Database) : BalanceQuery :=
  match lastSequence db with
  | .error e => { q with stage := .returned (.error e) }
  | .ok current =>
    if q.reached current then { q with stage := .ready }
    else q

/- What comes after the label `READY`. -/
def read (q : BalanceQuery) (db : Database) : BalanceQuery :=
  { q with stage := .returned (postgres.withTx (getBalanceKobo q.accountID q.version) db).1 }

/- An early return. -/
def fail (q : BalanceQuery) (e : GoError) : BalanceQuery :=
  { q with stage := .returned (.error e) }

end BalanceQuery

----
-- Queries Beside Calls
----

/- The `PostEntry` calls and the queries. -/
structure Reads where
  calls : Calls
  queries : List BalanceQuery

/-
  A step of a call, or of a query: a request comes in, the ticker fires, the balance is read, the
  two seconds are over, or the context ends.
-/
inductive ReadsAction where
  | call (a : Engine.Action (PostEntry × Env))
  | query (accountID : String) (requiredLSN : UInt64)
  | poll (i : Nat)
  | read (i : Nat)
  | timeout (i : Nat)
  | done (i : Nat) (e : GoError)

def Reads.start (db : Database) : Reads := ⟨Calls.start db, []⟩

/- A query that is where `stage` says goes on. -/
def Reads.update (s : Reads) (i : Nat) (stage : BalanceQuery → Bool)
    (f : BalanceQuery → BalanceQuery) : Option Reads :=
  match s.queries[i]? with
  | none => none
  | some q =>
    if stage q then
      some { s with queries := s.queries.set i (f q) }
    else none

/- The server always asks for projection version 1. -/
def readsStep (s : Reads) : ReadsAction → Option Reads
| .call a =>
  (callStep s.calls a).map (fun calls =>
    { s with calls := calls })
| .query accountID requiredLSN =>
  some { s with queries := s.queries ++ [.begin accountID 1 requiredLSN] }
| .poll i =>
  s.update i BalanceQuery.isWaiting (fun q => q.poll s.calls.db)
| .read i =>
  s.update i BalanceQuery.isReady (fun q => q.read s.calls.db)
| .timeout i =>
  s.update i BalanceQuery.isWaiting
    (fun q => q.fail (.text "timeout waiting for causal consistency"))
| .done i e =>
  s.update i (fun q => q.isWaiting || q.isReady) (fun q => q.fail e)

/- When a poll sees the required sequence, no event up to it is still uncommitted. -/
def Reads.pollsSettled (s : Reads) : ReadsAction → Bool
| .poll i =>
  match s.queries[i]?, lastSequence s.calls.db with
  | some q, .ok current =>
    !q.reached current ||
      (s.calls.outstanding sequences).all (fun row =>
        q.requiredLSN.toNat < row.sequence)
  | _, _ => true
| _ => true

----
-- What A Step Does To The Queries
----

variable {q : BalanceQuery}

theorem BalanceQuery.drawn_of_reached {cfg : Calls}
    (hDistinct : Engine.Distinct sequences cfg) {current : Option Nat}
    (hLast : lastSequence cfg.db = .ok current) (hReached : q.reached current = true) :
    q.requiredLSN.toNat ≤ cfg.db.sequence := by
  have hLe : q.requiredLSN.toNat ≤ current.getD 0 := by
    have hWord : q.requiredLSN.toNat ≤ (UInt64.ofNat (current.getD 0)).toNat :=
      UInt64.le_iff_toNat_le.mp (of_decide_eq_true hReached)
    rw [UInt64.toNat_ofNat'] at hWord
    exact Nat.le_trans hWord (Nat.mod_le _ _)
  apply Nat.le_trans hLe
  unfold lastSequence at hLast
  split at hLast
  · cases hLast
    cases hHead : (cfg.db.events.insertionSort (fun a b =>
          b.sequence ≤ a.sequence)).head? with
    | none => exact Nat.zero_le _
    | some row =>
      have hMem := List.mem_of_mem_head? hHead
      rw [List.mem_insertionSort] at hMem
      exact hDistinct.le_last row (Or.inl hMem)
  · cases hLast

/- A poll changes nothing but the stage. -/
theorem BalanceQuery.poll_same (q : BalanceQuery) (db : Database) :
    (q.poll db).version = q.version ∧ (q.poll db).requiredLSN = q.requiredLSN := by
  unfold BalanceQuery.poll
  split
  · exact ⟨rfl, rfl⟩
  · split
    · exact ⟨rfl, rfl⟩
    · exact ⟨rfl, rfl⟩

theorem BalanceQuery.reached_of_ready {db : Database}
    (hWaiting : q.isWaiting = true) (hReady : (q.poll db).isReady = true) :
    ∃ current, lastSequence db = .ok current ∧ q.reached current = true := by
  unfold BalanceQuery.poll at hReady
  split at hReady
  · cases hReady
  · rename_i current hLast
    split at hReady
    · rename_i hReached
      exact ⟨current, hLast, hReached⟩
    · rcases q with ⟨accountID, version, requiredLSN, stage⟩
      cases stage with
      | waiting => cases hReady
      | _ => cases hWaiting

/- All that a step can do. -/
inductive ReadsSpec (s : Reads) : ReadsAction → Reads → Prop where
  | called (a : Engine.Action (PostEntry × Env)) {calls : Calls}
      (hCall : callStep s.calls a = some calls) : ReadsSpec s (.call a) { s with calls := calls }
  | queried (accountID : String) (requiredLSN : UInt64) : ReadsSpec s (.query accountID requiredLSN)
        { s with queries := s.queries ++ [.begin accountID 1 requiredLSN] }
  | polled {i : Nat} {q : BalanceQuery} (hQuery : s.queries[i]? = some q)
      (hWaiting : q.isWaiting = true) : ReadsSpec s (.poll i)
        { s with queries := s.queries.set i (q.poll s.calls.db) }
  | ended (a : ReadsAction) {i : Nat} {q : BalanceQuery}
      (hQuery : s.queries[i]? = some q) (r : Except GoError Int64) : ReadsSpec s a
        { s with queries := s.queries.set i { q with stage := .returned r } }

variable {s s' : Reads}

theorem Reads.update_eq_some {i : Nat}
    {stage : BalanceQuery → Bool} {f : BalanceQuery → BalanceQuery}
    (hUpdate : s.update i stage f = some s') : ∃ q, s.queries[i]? = some q ∧ stage q = true ∧
      s' = { s with queries := s.queries.set i (f q) } := by
  unfold Reads.update at hUpdate
  split at hUpdate
  · cases hUpdate
  · rename_i q hQuery
    split at hUpdate
    · rename_i hStage
      cases hUpdate
      exact ⟨q, hQuery, hStage, rfl⟩
    · cases hUpdate

variable {a : ReadsAction}

theorem readsStep_spec (hStep : readsStep s a = some s') : ReadsSpec s a s' := by
  cases a with
  | call a =>
    rcases Option.map_eq_some_iff.mp hStep with ⟨calls, hCall, rfl⟩
    exact .called a hCall
  | query accountID requiredLSN =>
    cases hStep
    exact .queried accountID requiredLSN
  | poll i =>
    rcases Reads.update_eq_some hStep with ⟨q, hQuery, hWaiting, rfl⟩
    exact .polled hQuery hWaiting
  | read i =>
    rcases Reads.update_eq_some hStep with ⟨q, hQuery, _, rfl⟩
    exact .ended _ hQuery _
  | timeout i =>
    rcases Reads.update_eq_some hStep with ⟨q, hQuery, _, rfl⟩
    exact .ended _ hQuery _
  | done i e =>
    rcases Reads.update_eq_some hStep with ⟨q, hQuery, _, rfl⟩
    exact .ended _ hQuery _

----
-- Runs
----

/- What a ready query requires is settled. -/
structure CausalInv (s : Reads) : Prop where
  calls : CallInv s.calls
  accounted : Accounted s.calls
  once : ∀ accountID, s.calls.reapplied accountID = 0
  distinct : Engine.Distinct sequences s.calls
  version : ∀ q ∈ s.queries, q.version = 1
  ready : ∀ q ∈ s.queries, q.isReady = true → s.calls.Settled sequences q.requiredLSN.toNat

theorem causalInv_start (schema : Schema) : CausalInv (Reads.start (Database.empty schema)) := by
  have hService := serviceInv_start schema
  refine ⟨hService.calls, hService.accounted, ?_, Engine.distinct_start rfl, ?_, ?_⟩
  · intro accountID
    rfl
  · intro q hMem
    cases hMem
  · intro q hMem
    cases hMem

/- No call's commit is counted as the worker's. -/
theorem reapplied_callStep {cfg cfg' : Calls}
    {a : Engine.Action (PostEntry × Env)} (hStep : callStep cfg a = some cfg')
    (accountID : String) : cfg'.reapplied accountID = cfg.reapplied accountID := by
  rcases Engine.step_quiet_or_commit hStep with hQuiet | ⟨i, call, t, b, r, hCall, _, _, _, rfl⟩
  · unfold Calls.reapplied
    rw [hQuiet.journal]
  · exact reapplied_commit cfg i call t.writes r accountID

theorem causalInv_step (hInv : CausalInv s)
    (hPolls : s.pollsSettled a = true) (hStep : readsStep s a = some s') : CausalInv s' := by
  cases readsStep_spec hStep with
  | called a hCall =>
    rcases Engine.draws_step sequences hCall with ⟨new, hDraws⟩
    refine ⟨callInv_step hInv.calls hCall,
      accounted_callsStep hInv.calls hInv.accounted (.call a hCall), ?_,
      hInv.distinct.draws hDraws, hInv.version, ?_⟩
    · intro accountID
      rw [← hInv.once accountID]
      exact reapplied_callStep hCall accountID
    · intro q hMem hReady
      exact (hInv.ready q hMem hReady).draws hDraws
  | queried accountID requiredLSN =>
    refine ⟨hInv.calls, hInv.accounted, hInv.once, hInv.distinct, ?_, ?_⟩
    · intro q hMem
      rcases List.mem_append.mp hMem with hOld | hNew
      · exact hInv.version q hOld
      · cases List.mem_singleton.mp hNew
        rfl
    · intro q hMem hReady
      rcases List.mem_append.mp hMem with hOld | hNew
      · exact hInv.ready q hOld hReady
      · cases List.mem_singleton.mp hNew
        have hZero : requiredLSN = 0 := by
          by_contra hNe
          simp [BalanceQuery.begin, BalanceQuery.isReady, hNe] at hReady
        rw [hZero]
        exact (hInv.distinct.caught_zero []).settled
  | @polled i q hQuery hWaiting =>
    have hQueryMem := List.mem_of_getElem? hQuery
    refine ⟨hInv.calls, hInv.accounted, hInv.once, hInv.distinct, ?_, ?_⟩
    · intro q' hMem
      rcases List.mem_or_eq_of_mem_set hMem with hOld | rfl
      · exact hInv.version q' hOld
      · rw [(q.poll_same s.calls.db).1]
        exact hInv.version q hQueryMem
    · intro q' hMem hReady
      rcases List.mem_or_eq_of_mem_set hMem with hOld | rfl
      · exact hInv.ready q' hOld hReady
      · rcases BalanceQuery.reached_of_ready hWaiting hReady with ⟨current, hLast, hReached⟩
        rw [(q.poll_same s.calls.db).2]
        have hLater : ∀ row ∈ s.calls.outstanding sequences,
            q.requiredLSN.toNat < row.sequence := by
          simpa [Reads.pollsSettled, hQuery, hLast, hReached] using hPolls
        exact ⟨BalanceQuery.drawn_of_reached hInv.distinct hLast hReached, hLater⟩
  | ended a hQuery r =>
    refine ⟨hInv.calls, hInv.accounted, hInv.once, hInv.distinct, ?_, ?_⟩
    · intro q' hMem
      rcases List.mem_or_eq_of_mem_set hMem with hOld | rfl
      · exact hInv.version q' hOld
      · have hSame := hInv.version _ (List.mem_of_getElem? hQuery)
        exact hSame
    · intro q' hMem hReady
      rcases List.mem_or_eq_of_mem_set hMem with hOld | rfl
      · exact hInv.ready q' hOld hReady
      · cases hReady

theorem settled_run {later : List ReadsAction}
    (hLater : Transition.run readsStep s later = some s') {n : Nat}
    (hSettled : s.calls.Settled sequences n) :
    ∀ row ∈ s'.calls.db.events, row.sequence ≤ n → row ∈ s.calls.db.events := by
  have hKeeps : ∀ (t : Reads) (a : ReadsAction) (t' : Reads),
      (t.calls.Settled sequences n ∧ ∀ row ∈ t.calls.db.events, row.sequence ≤ n →
      row ∈ s.calls.db.events) → readsStep t a = some t' → t'.calls.Settled sequences n ∧
      ∀ row ∈ t'.calls.db.events, row.sequence ≤ n → row ∈ s.calls.db.events := by
    rintro t a t' ⟨hSettled, hSoFar⟩ hStep
    cases readsStep_spec hStep with
    | called a hCall =>
      rcases Engine.draws_step sequences hCall with ⟨new, hDraws⟩
      refine ⟨hSettled.draws hDraws, ?_⟩
      intro row hMem hLe
      exact hSoFar row (hSettled.stored hDraws hMem hLe) hLe
    | queried accountID requiredLSN =>
      exact ⟨hSettled, hSoFar⟩
    | polled hQuery hWaiting => exact ⟨hSettled, hSoFar⟩
    | ended a hQuery r => exact ⟨hSettled, hSoFar⟩
  have hEnd := Transition.run_induction hKeeps ⟨hSettled, fun _ hMem _ => hMem⟩ hLater
  exact hEnd.2

/-
  If no poll has seen the required sequence while an event up to it was uncommitted, a balance read
  after it is the sum over the log at that time, and every event up to the required sequence that is
  ever committed is in that log.
-/
theorem read_includes_required (schema : Schema)
    (earlier later : List ReadsAction) (s t s' : Reads) (i : Nat) (q : BalanceQuery) (kobo : Int64)
    (hPolls : Transition.Meets readsStep (fun s a => s.pollsSettled a = true)
      (Reads.start (Database.empty schema)) earlier)
    (hEarlier : Transition.run readsStep (Reads.start (Database.empty schema)) earlier = some s)
    (hRead : readsStep s (.read i) = some t) (hQuery : t.queries[i]? = some q)
    (hReturned : q.stage = .returned (.ok kobo))
    (hLater : Transition.run readsStep t later = some s') :
    kobo.toInt = entrySum s.calls.db q.accountID ∧ ∀ row ∈ s'.calls.db.events,
      row.sequence ≤ q.requiredLSN.toNat → row ∈ s.calls.db.events := by
  have hInv : CausalInv s := by
    apply Transition.run_induction_of_meets _ _ hPolls hEarlier
    · intro s a s' hInv hPolls hStep
      exact causalInv_step hInv hPolls hStep
    · exact causalInv_start schema
  rcases Reads.update_eq_some hRead with ⟨q₀, hFound, hReady, rfl⟩
  have hLt := (List.getElem?_eq_some_iff.mp hFound).1
  have hEq : q₀.read s.calls.db = q := by
    have hQuery : (s.queries.set i (q₀.read s.calls.db))[i]? = some q := hQuery
    rw [List.getElem?_set_self hLt] at hQuery
    exact Option.some.inj hQuery
  subst hEq
  have hMem := List.mem_of_getElem? hFound
  refine ⟨?_, ?_⟩
  · have hBalance := hInv.accounted.balance q₀.accountID
    rw [hInv.once, Int.add_zero] at hBalance
    have hStage : (postgres.withTx (getBalanceKobo q₀.accountID 1) s.calls.db).1 = .ok kobo := by
      rw [← hInv.version q₀ hMem]
      exact QueryStage.returned.inj hReturned
    rw [getBalanceKobo_eq (hInv.accounted.inRange _) hStage]
    exact hBalance
  · exact settled_run hLater (hInv.ready q₀ hMem hReady)

/- A deposit, and a query that requires its sequence. -/
def depositThenQuery : List ReadsAction :=
  [.call (.start (.of "d" "acc" entryTypeDeposit 100, .tagged "d")),
    .call (.exec 0), .call (.exec 0), .call (.exec 0),
    .call (.exec 0), .call (.exec 0), .call (.exec 0), .call (.finish 0), .query "acc" 1, .poll 0]

theorem read_includes_deposit : ∃ s t, Transition.run readsStep
      (Reads.start (Database.empty ledgerSchema))
      depositThenQuery = some s ∧ readsStep s (.read 0) = some t ∧
      (100 : Int64).toInt = entrySum s.calls.db "acc" ∧
      ∀ row ∈ t.calls.db.events, row.sequence ≤ 1 → row ∈ s.calls.db.events := by
  have hKept := read_includes_required ledgerSchema depositThenQuery [] _ _ _ 0
    ⟨"acc", 1, 1, .returned (.ok 100)⟩ 100 (by decide) rfl rfl rfl rfl rfl
  exact ⟨_, _, rfl, rfl, hKept⟩

/-
  Call 0 has inserted its event, call 1 posts an entry on another account, and a query requires
  sequence 2.
-/
def queryBetween : List ReadsAction :=
  [.call (.start (.of "a" "first" entryTypeDeposit 100, .tagged "a")),
    .call (.exec 0), .call (.exec 0), .call (.exec 0),
    .call (.start (.of "b" "second" entryTypeDeposit 50, .tagged "b")),
    .call (.exec 1), .call (.exec 1), .call (.exec 1),
    .call (.exec 1), .call (.exec 1), .call (.exec 1), .call (.finish 1), .query "first" 2, .poll 0]

/- The query returns 0, and 100 was below what it required. -/
theorem read_misses_deposit : ∃ s t s', Transition.run readsStep
      (Reads.start (Database.empty ledgerSchema)) queryBetween = some s ∧
      readsStep s (.read 0) = some t ∧ t.queries[0]?.map BalanceQuery.stage =
      some (.returned (.ok 0)) ∧ Transition.run readsStep t
      [.call (.exec 0), .call (.exec 0), .call (.exec 0), .call (.finish 0)] = some s' ∧
      (s'.calls.db.events.map fun row =>
      (row.sequence, entryAmount "first" row)) =
      [(2, 0), (1, 100)] := by
  refine ⟨_, _, _, rfl, rfl, rfl, rfl, ?_⟩
  decide

end Fincore.Ledger
