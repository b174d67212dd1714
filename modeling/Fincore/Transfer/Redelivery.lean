import Fincore.Account.Movements
import Fincore.Payment.Transitions
import Fincore.Transfer.Books
import Fincore.Transfer.Outcome

/-
  A transfer that is delivered again and again, on the three services.

  The services follow the books of `Transfer/Books`: every call of the saga succeeds exactly when
  the order it stands for does, and leaves balances, keys, streams and projection as the books say.
  What many deliveries do is then read off the books.

  Key definitions include:
    * `Processes` and `Database.Reserves`
    * `Shows`
    * `deliver` and `deliveries`
    * `Repeats`

  Main results:
    * `serves_orders`
    * `redelivery_idempotent_iff`
-/

----
-- Processes
----

namespace Fincore

/-
  One process for every transaction: its clock can be written, and no two have an identifier in
  common.
-/
structure Processes (env : Nat → Env) : Prop where
  clock : ∀ i, Json.TimeInRange (env i).now
  distinct : ∀ i j, i ≠ j → ∀ m n, (env i).newID m ≠ (env j).newID n

/- The identifiers from the `i`-th process on are unused. -/
def Database.Reserves (env : Nat → Env) (i : Nat) (db : Database) : Prop :=
  ∀ j n, i ≤ j → db.Unused ((env j).newID n)

theorem Database.Reserves.succ {env : Nat → Env} {i : Nat} {db : Database}
    (hReserves : db.Reserves env i) : db.Reserves env (i + 1) := by
  intro j n hLe
  exact hReserves j n (Nat.le_of_succ_le hLe)

/- A process uses up its own identifiers only. -/
theorem Database.Reserves.uses {env : Nat → Env} {i : Nat} {db db' : Database}
    (hReserves : db.Reserves env i) (hProcesses : Processes env)
    (hUses : Database.Uses (env i) db db') : db'.Reserves env (i + 1) := by
  intro j n hLe
  refine hUses _ ?_ (hReserves.succ j n hLe)
  intro m
  exact hProcesses.distinct i j (Nat.ne_of_lt hLe) m n

end Fincore

----
-- Entries Of An Event
----

namespace Fincore.Posting

variable (ev : Payment.PaymentInitiated) (p : Posting)

def kind : Account.Movement :=
  if p.isWithdrawal then .withdrawal else .deposit

/- The account that the entry is posted to. -/
def account : String := (p.move (Orchestrator.saga ev).transfer).account

/- The command of the account service. -/
def money : Account.MoneyCommand := ⟨p.account ev, ev.amount, p.tag ++ ev.paymentID, ev.narration⟩

/- The command of the ledger. -/
def command : Ledger.PostEntry :=
  (Account.ledgerRequest p.kind (p.money ev)).command
    (if p.isWithdrawal then Ledger.entryTypeWithdrawal
      else Ledger.entryTypeDeposit)

theorem command_type : (p.command ev).type = Ledger.entryTypeWithdrawal ↔
    p.isWithdrawal = true := by
  show (if p.isWithdrawal = true then
      Ledger.entryTypeWithdrawal
    else Ledger.entryTypeDeposit) = _ ↔ _
  cases p.isWithdrawal with
  | true => decide
  | false => decide

variable {ev : Payment.PaymentInitiated} {p : Posting}

theorem key_ne_empty : p.tag ++ ev.paymentID ≠ "" := by
  intro hEmpty
  rw [String.append_eq_empty_iff] at hEmpty
  cases p <;> exact absurd hEmpty.1 (by decide)

theorem key_injective {q : Posting}
    (hKeys : p.tag ++ ev.paymentID = q.tag ++ ev.paymentID) : p = q := by
  have hTags : p.tag = q.tag := (String.append_left_inj _).mp hKeys
  revert hTags
  cases p <;> cases q <;> decide

variable (hAmount : ev.amount.PositiveNGN)

include hAmount

theorem command_valid (hName : p.account ev ≠ "") : (p.command ev).Valid := by
  refine ⟨key_ne_empty, hName, ?_, hAmount⟩
  unfold command
  cases p.isWithdrawal with
  | true => exact Or.inr rfl
  | false => exact Or.inl rfl

theorem command_delta : (p.command ev).delta.toInt =
    (p.move (Orchestrator.saga ev).transfer).kobo := by
  have hNeg := toInt_neg_of_pos hAmount.positive
  cases p <;> first | exact hNeg | rfl

theorem postEntry_eq (env : Env) (hName : trimSpace (p.account ev) ≠ "") :
    (Account.ledgerRequest p.kind (p.money ev)).postEntry env = (p.command ev).handle env := by
  have hCurrency : ev.amount.currency ≠ "" := by
    rw [hAmount.currency]
    decide
  have hNew : Money.new ev.amount.amountKobo ev.amount.currency = .ok ev.amount := if_neg hCurrency
  refine (if_neg hName).trans ?_
  simp only [Account.ledgerRequest, money, hNew]
  unfold command kind
  cases p.isWithdrawal with
  | true => rfl
  | false => rfl

end Fincore.Posting

----
-- The Services And The Books
----

namespace Fincore

/- The account is one of the two of the transfer. -/
def Payment.PaymentInitiated.Involves (ev : PaymentInitiated)
    (a : String) : Prop := a = ev.fromAccountID ∨ a = ev.toAccountID

theorem Posting.involves_account (ev : Payment.PaymentInitiated) (p : Posting) :
    ev.Involves (p.account ev) := by
  cases p <;> first | exact Or.inl rfl | exact Or.inr rfl

/-
  The terms are those of the event. The two balances stay in the range of their column, whatever is
  posted.
-/
structure Terms.Of (t : Terms) (ev : Payment.PaymentInitiated) (shown : Bool) : Prop where
  transfer : t.transfer = (Orchestrator.saga ev).transfer
  amount : ev.amount.PositiveNGN
  known : t.known = true ↔ ev.paymentID ≠ "" ∧ shown = true
  lower : ∀ a, ev.Involves a → -2 ^ 63 + 9 * t.transfer.kobo ≤ t.opening a
  upper : ∀ a, ev.Involves a → t.opening a + 9 * t.transfer.kobo < 2 ^ 63

/- The services are in the state that the books describe. -/
structure Shows (env : Nat → Env) (ev : Payment.PaymentInitiated) (t : Terms)
    (shown : Bool) (w : World) (b : Books) : Prop where
  once : b.posted.Nodup
  schema : w.ledger.schema = ledgerSchema
  balance : ∀ a, w.ledger.balance a 1 = t.balance b.posted a
  keys : ∀ p : Posting, (w.ledger.idempotency (p.tag ++ ev.paymentID)).isSome = true ↔ p ∈ b.posted
  accounts : Account.Standing w.account ev.Involves t.active
  payment : Payment.Standing w.payment ev.paymentID shown b.status
  ledgerIDs : w.ledger.Reserves env w.served
  entryIDs : ∀ j n, w.served ≤ j → ∀ row ∈ w.ledger.events, row.event.aggregateID ≠ (env j).newID n
  accountIDs : w.account.Reserves env w.served
  paymentIDs : w.payment.Reserves env w.served

variable {env : Nat → Env} {ev : Payment.PaymentInitiated} {t : Terms} {shown : Bool}
variable {w : World} {b : Books} {p : Posting}

/- A transaction on the ledger that leaves no trace. -/
theorem Shows.ledger_same (hShows : Shows env ev t shown w b) {db' : Database}
    (hCore : db'.core = w.ledger.core) : Shows env ev t shown
      { w with ledger := db', served := w.served + 1 } b := by
  have hEvents : db'.events = w.ledger.events := by
    show db'.core.events = w.ledger.core.events
    rw [hCore]
  refine ⟨hShows.once, ?_, ?_, ?_, hShows.accounts,
    hShows.payment, ?_, ?_, hShows.accountIDs.succ, hShows.paymentIDs.succ⟩
  · show db'.core.schema = ledgerSchema
    rw [hCore]
    exact hShows.schema
  · intro a
    show db'.core.balance a 1 = _
    rw [hCore]
    exact hShows.balance a
  · intro q
    show (db'.core.idempotency _).isSome = true ↔ _
    rw [hCore]
    exact hShows.keys q
  · intro j n hLe
    exact (hShows.ledgerIDs.succ j n hLe).of_core hCore
  · intro j n hLe
    show ∀ row ∈ db'.events, _
    rw [hEvents]
    exact hShows.entryIDs j n (Nat.le_of_succ_le hLe)

/- A transaction that posts an entry. -/
theorem Shows.ledger_posted (hProcesses : Processes env)
    (hTerms : t.Of ev shown) (hShows : Shows env ev t shown w b)
    (hNew : p ∉ b.posted) {db' : Database} {sequence began : Nat}
    (hCore : db'.core = postgres.view w.ledger.core
      ((p.command ev).writes (env w.served) sequence began)) :
    Shows env ev t shown { w with ledger := db', served := w.served + 1 }
      { b with posted := b.posted ++ [p] } := by
  have hEvents : db'.events = w.ledger.events ++
      [⟨sequence, (p.command ev).event (env w.served)⟩] := by
    show db'.core.events = _
    rw [hCore]
    rfl
  have hOutbox : db'.outbox = w.ledger.outbox ++
      [⟨(p.command ev).message (env w.served), began, none⟩] := by
    show db'.core.outbox = _
    rw [hCore]
    rfl
  refine ⟨?_, ?_, ?_, ?_, hShows.accounts,
    hShows.payment, ?_, ?_, hShows.accountIDs.succ, hShows.paymentIDs.succ⟩
  · exact hShows.once.append (List.nodup_singleton p) (by simpa using hNew)
  · show db'.core.schema = ledgerSchema
    rw [hCore]
    exact hShows.schema
  · intro a
    show db'.core.balance a 1 = _
    rw [hCore, Ledger.PostEntry.view_writes_balance,
      Posting.command_delta hTerms.amount, t.balance_append, ← hShows.balance a, ← hTerms.transfer]
    have hAccount : (p.command ev).accountID = (p.move t.transfer).account := by
      rw [hTerms.transfer]
      rfl
    simp only [hAccount, and_true, List.map_cons,
      List.map_nil, List.sum_singleton, Posting.effect, eq_comm]
    rfl
  · intro q
    show (db'.core.idempotency _).isSome = true ↔ _
    rw [hCore, Ledger.PostEntry.view_writes_idempotency,
      List.mem_append, List.mem_singleton, ← hShows.keys q]
    by_cases hSame : q = p
    · have hKey : q.tag ++ ev.paymentID = (p.command ev).idempotencyKey := by
        rw [hSame]
        rfl
      rw [if_pos hKey]
      exact iff_of_true rfl (Or.inr hSame)
    · have hKey : q.tag ++ ev.paymentID ≠ (p.command ev).idempotencyKey :=
        fun hKeys => hSame (Posting.key_injective hKeys)
      rw [if_neg hKey, or_iff_left hSame]
      rfl
  · intro j n hLe
    refine (hShows.ledgerIDs.succ j n hLe).append hEvents hOutbox ?_ ?_
    · exact hProcesses.distinct _ j (Nat.ne_of_lt hLe) 1 n
    · exact hProcesses.distinct _ j (Nat.ne_of_lt hLe) 2 n
  · intro j n hLe row hMem
    have hMem : row ∈ db'.events := hMem
    rw [hEvents] at hMem
    rcases List.mem_append.mp hMem with hOld | hAdded
    · exact hShows.entryIDs j n (Nat.le_of_succ_le hLe) row hOld
    · rw [List.mem_singleton.mp hAdded]
      exact hProcesses.distinct _ j (Nat.ne_of_lt hLe) 0 n

/- Balances of the transfer fit their column. -/
theorem Terms.Of.inBigint_balance (hTerms : t.Of ev shown)
    {posted : List Posting} (hOnce : posted.Nodup) {a : String}
    (hInvolved : ev.Involves a) : inBigint (t.balance posted a) = true := by
  have hKobo : 0 < t.transfer.kobo := by
    rw [hTerms.transfer]
    exact hTerms.amount.positive
  have hBounds := Terms.balance_bounds (Int.le_of_lt hKobo) hOnce a
  have hLower := hTerms.lower a hInvolved
  have hUpper := hTerms.upper a hInvolved
  rw [inBigint_iff]
  omega

----
-- The Ledger
----

/- Every transaction runs, in a process of its own. -/
def running (env : Nat → Env) (i : Nat) : Fate := .run (env i)

theorem serveTx_postEntry_running (env : Nat → Env) (req : Ledger.PostEntryRequest) (w : World) :
    serveTx (running env) (.postEntry req) w =
      ((postgres.withTx (req.postEntry (env w.served)) w.ledger).1,
        { w with
          ledger := (postgres.withTx (req.postEntry (env w.served)) w.ledger).2
          served := w.served + 1 }) := by
  simp only [serveTx, running, ServiceTx.exec]

/- The services answer as the books do. -/
structure Answered {α : Type} (env : Nat → Env) (ev : Payment.PaymentInitiated)
    (t : Terms) (shown : Bool) (r : Except GoError α × World) (a : Bool × Books) : Prop where
  succeeds : (∃ x, r.1 = .ok x) ↔ a.1 = true
  shows : Shows env ev t shown r.2 a.2

section

variable {env : Nat → Env} {ev : Payment.PaymentInitiated} {t : Terms} {shown : Bool}

theorem Answered.ok {α : Type} {r : Except GoError α} {x : α} (hOk : r = .ok x)
    {w : World} {b : Books} (hShows : Shows env ev t shown w b) :
    Answered env ev t shown (r, w) (true, b) := ⟨iff_of_true ⟨x, hOk⟩ rfl, hShows⟩

theorem Answered.error {α : Type} {r : Except GoError α} {e : GoError}
    (hError : r = .error e) {w : World} {b : Books} (hShows : Shows env ev t shown w b) :
    Answered env ev t shown (r, w) (false, b) := by
  refine ⟨iff_of_false ?_ Bool.false_ne_true, hShows⟩
  rintro ⟨x, hOk⟩
  cases hError.symm.trans hOk

theorem Terms.Of.account_eq (hTerms : t.Of ev shown) (p : Posting) :
    (p.move t.transfer).account = p.account ev := by
  rw [hTerms.transfer]
  rfl

variable {w : World} {b : Books} {p : Posting} (hShows : Shows env ev t shown w b)
variable (hTerms : t.Of ev shown)

include hShows

theorem Shows.absent (hNew : p ∉ b.posted) : w.ledger.idempotency (p.command ev).idempotencyKey =
    none := by
  rw [← Option.not_isSome_iff_eq_none]
  exact fun hSome => hNew ((hShows.keys p).mp hSome)

include hTerms

/- The sum that the ledger checks and stores. -/
theorem Shows.balance_add (p : Posting) : t.balance b.posted (p.account ev) +
    (p.move t.transfer).kobo = w.ledger.balance (p.account ev) 1 +
    (p.command ev).delta.toInt := by
  rw [hShows.balance, Posting.command_delta hTerms.amount, ← hTerms.transfer]

/- Before and after the entry, the balance can be stored. -/
theorem Shows.inBigint_balance (hNew : p ∉ b.posted) :
    inBigint (w.ledger.balance (p.account ev) 1) = true ∧ inBigint
    (w.ledger.balance (p.account ev) 1 + (p.command ev).delta.toInt) = true := by
  have hInvolved := Posting.involves_account ev p
  have hOnce : (b.posted ++ [p]).Nodup :=
    hShows.once.append (List.nodup_singleton p) (by simpa using hNew)
  have hSum : w.ledger.balance (p.account ev) 1 + (p.command ev).delta.toInt =
      t.balance (b.posted ++ [p]) (p.account ev) := by
    rw [← hShows.balance_add hTerms p, t.balance_append]
    simp [Posting.effect, hTerms.account_eq p]
  refine ⟨?_, ?_⟩
  · rw [hShows.balance]
    exact hTerms.inBigint_balance hShows.once hInvolved
  · rw [hSum]
    exact hTerms.inBigint_balance hOnce hInvolved

variable (hProcesses : Processes env)

include hProcesses

theorem Shows.handle_new (hName : p.account ev ≠ "") (hNew : p ∉ b.posted) : Answered env ev t shown
      ((postgres.withTx ((p.command ev).handle (env w.served)) w.ledger).1,
        { w with
          ledger := (postgres.withTx ((p.command ev).handle (env w.served)) w.ledger).2
          served := w.served + 1 })
      (if p.isWithdrawal = true ∧ w.ledger.balance (p.account ev) 1 +
            (p.command ev).delta.toInt < 0 then (false, b)
        else
          (true, { b with posted := b.posted ++ [p] })) := by
  have hValid := Posting.command_valid hTerms.amount hName
  have hAbsent := hShows.absent hNew
  rcases hShows.inBigint_balance hTerms hNew with ⟨hRange, hFits⟩
  have hType := Posting.command_type ev p
  by_cases hShort : p.isWithdrawal = true ∧ w.ledger.balance (p.account ev) 1 +
          (p.command ev).delta.toInt < 0
  · rw [if_pos hShort]
    rcases (Ledger.PostEntry.aborts_short hValid hShows.schema hAbsent hRange hFits
        (hType.mpr hShort.1) hShort.2).withTx core_tick with ⟨⟨e, hError⟩, hCore⟩
    exact .error hError (hShows.ledger_same hCore)
  · rw [if_neg hShort]
    have hCovered : (p.command ev).type = Ledger.entryTypeWithdrawal →
        0 ≤ w.ledger.balance (p.account ev) 1 + (p.command ev).delta.toInt := by
      intro hWithdrawal
      rw [not_and] at hShort
      exact Int.not_lt.mp (hShort (hType.mp hWithdrawal))
    rcases (Ledger.PostEntry.commits_posting hValid
        hShows.schema hAbsent hRange hFits (hProcesses.clock w.served) hCovered
        (hShows.ledgerIDs _ 1 (Nat.le_refl _)) (hShows.entryIDs _ 0 (Nat.le_refl _))
        (hShows.ledgerIDs _ 2 (Nat.le_refl _))).withTx core_tick core_apply with ⟨hOk, hCore⟩
    exact .ok hOk (hShows.ledger_posted hProcesses hTerms hNew hCore)

theorem Shows.post (p : Posting) : Answered env ev t shown
    (serveTx (running env) (.postEntry (Account.ledgerRequest p.kind (p.money ev))) w)
    (t.post p b) := by
  rw [serveTx_postEntry_running]
  unfold Terms.post
  dsimp only
  rw [hTerms.account_eq p, hShows.balance_add hTerms p]
  by_cases hBlank : trimSpace (p.account ev) = ""
  · have hFail : (Account.ledgerRequest p.kind (p.money ev)).postEntry
        (env w.served) = .fail (.text "account_id required") := if_pos hBlank
    rw [if_pos hBlank, hFail]
    exact .error rfl (hShows.ledger_same rfl)
  rw [if_neg hBlank, Posting.postEntry_eq hTerms.amount (env w.served) hBlank]
  have hName : p.account ev ≠ "" := by
    intro hEmpty
    rw [hEmpty] at hBlank
    exact hBlank rfl
  by_cases hOld : p ∈ b.posted
  · rw [if_pos hOld]
    rcases Option.isSome_iff_exists.mp ((hShows.keys p).mpr hOld) with ⟨entryID, hFound⟩
    rcases (Ledger.PostEntry.commits_found (Posting.command_valid hTerms.amount hName)
        hShows.schema hFound).withTx core_tick core_apply with ⟨hOk, hCore⟩
    exact .ok hOk (hShows.ledger_same hCore)
  · rw [if_neg hOld]
    exact hShows.handle_new hTerms hProcesses hName hOld

end

----
-- Movements
----

theorem runWith_transact_ofExcept {α W : Type}
    (server : (r : ServiceTx) → W → ServiceTx.Resp r × W) (r : ServiceTx)
    (f : ServiceTx.Resp r → Except GoError α) (w : W) : Prog.runWith server
    (transact r >>= fun resp => Prog.ofExcept (f resp))
    w = (f (server r w).1, (server r w).2) := by
  show Prog.runWith server (Prog.ofExcept (f (server r w).1)) (server r w).2 = _
  cases f (server r w).1 with
  | ok x => rfl
  | error e => rfl

section

variable {env : Nat → Env} {ev : Payment.PaymentInitiated} {t : Terms} {shown : Bool}

theorem Answered.mapError {α : Type} {r : Except GoError α × World}
    {a : Bool × Books} (hAnswered : Answered env ev t shown r a) (f : GoError → GoError) :
    Answered env ev t shown (r.1.mapError f, r.2) a := by
  refine ⟨?_, hAnswered.shows⟩
  rw [← hAnswered.succeeds]
  cases r.1 with
  | ok x => exact Iff.rfl
  | error e => exact iff_of_false nofun nofun

theorem Answered.discard {α : Type} {r : Except GoError α × World}
    {a : Bool × Books} (hAnswered : Answered env ev t shown r a) :
    Answered env ev t shown (r.1.map (fun _ => ()), r.2) a := by
  refine ⟨?_, hAnswered.shows⟩
  rw [← hAnswered.succeeds]
  cases r.1 with
  | ok x => exact iff_of_true ⟨(), rfl⟩ ⟨x, rfl⟩
  | error e => exact iff_of_false nofun nofun

variable {w : World} {b : Books} (hShows : Shows env ev t shown w b) (hTerms : t.Of ev shown)
variable (hProcesses : Processes env)

include hShows

theorem Shows.account_next (hProcesses : Processes env) {db' : Database}
    (hStanding : Account.Standing db' ev.Involves t.active)
    (hUses : Database.Uses (env w.served) w.account db') : Shows env ev t shown
      { w with account := db', served := w.served + 1 } b where
  once := hShows.once
  schema := hShows.schema
  balance := hShows.balance
  keys := hShows.keys
  accounts := hStanding
  payment := hShows.payment
  ledgerIDs := hShows.ledgerIDs.succ
  entryIDs j n hLe := hShows.entryIDs j n (Nat.le_of_succ_le hLe)
  accountIDs := hShows.accountIDs.uses hProcesses hUses
  paymentIDs := hShows.paymentIDs.succ

theorem Shows.payment_next (hProcesses : Processes env) {db' : Database} {status : Payment.Status}
    (hStanding : Payment.Standing db' ev.paymentID shown status)
    (hUses : Database.Uses (env w.served) w.payment db') : Shows env ev t shown
      { w with payment := db', served := w.served + 1 } { b with status := status } where
  once := hShows.once
  schema := hShows.schema
  balance := hShows.balance
  keys := hShows.keys
  accounts := hShows.accounts
  payment := hStanding
  ledgerIDs := hShows.ledgerIDs.succ
  entryIDs j n hLe := hShows.entryIDs j n (Nat.le_of_succ_le hLe)
  accountIDs := hShows.accountIDs.succ
  paymentIDs := hShows.paymentIDs.uses hProcesses hUses

theorem Shows.record (hProcesses : Processes env) (p : Posting)
    (entryID : String) : Answered env ev t shown
    (serveTx (running env) (.recordMovement p.kind (p.money ev) entryID) w)
    (t.active (p.account ev), b) := by
  rcases Account.recordMovement_standing p.kind
      (p.money ev) entryID hShows.accounts (Posting.involves_account ev p)
      (hProcesses.clock w.served) (hShows.accountIDs _ 0 (Nat.le_refl _))
      (hShows.accountIDs _ 1 (Nat.le_refl _)) with ⟨hOk, hStanding, hUses⟩
  refine ⟨?_, hShows.account_next hProcesses hStanding hUses⟩
  refine Iff.trans ?_ hOk
  constructor
  · rintro ⟨x, hSome⟩
    exact hSome
  · intro hUnit
    exact ⟨(), hUnit⟩

include hTerms hProcesses

/- A deposit or a withdrawal: the ledger first, and then the account, if it is active. -/
theorem Shows.moveMoney (p : Posting) : Answered env ev t shown
    ((Account.moveMoney p.kind (p.money ev)).runWith
    (serveTx (running env)) w) (t.answer (.movement p) b) := by
  have hActive : t.active (p.move t.transfer).account = t.active (p.account ev) := by
    rw [hTerms.account_eq p]
  by_cases hName : p.account ev = ""
  · have hFail : Account.moveMoney p.kind (p.money ev) =
        .fail (.text "account id required") := if_pos hName
    have hPost : t.post p b = (false, b) := by
      refine if_pos ?_
      rw [hTerms.account_eq p, hName]
      rfl
    rw [hFail, Terms.movement_refused hPost (Or.inl rfl)]
    exact .error rfl hShows
  have hValid : (p.money ev).Valid := ⟨hName, Posting.key_ne_empty, hTerms.amount⟩
  have hPosted := hShows.post hTerms hProcesses p
  rw [Account.moveMoney_run hValid]
  revert hPosted
  rcases serveTx (running env)
    (.postEntry (Account.ledgerRequest p.kind (p.money ev))) w with ⟨r, w₁⟩
  rcases hPost : t.post p b with ⟨r', b₁⟩
  intro hPosted
  rw [Terms.answer_movement hPost, hActive]
  cases r with
  | error e =>
    have hRefused : r' = false := by
      rw [← Bool.not_eq_true, ← hPosted.succeeds]
      exact nofun
    rw [hRefused, Bool.false_and]
    exact .error rfl hPosted.shows
  | ok entryID =>
    have hOk : r' = true := hPosted.succeeds.mp ⟨_, rfl⟩
    have hRecord := Shows.record hPosted.shows hProcesses p entryID
    rw [hOk, Bool.true_and]
    dsimp only
    revert hRecord
    rcases serveTx (running env) (.recordMovement p.kind (p.money ev) entryID) w₁ with ⟨r₂, w₂⟩
    intro hRecord
    cases r₂ with
    | error e =>
      have hNot : t.active (p.account ev) = false := by
        rw [← Bool.not_eq_true, ← hRecord.succeeds]
        exact nofun
      rw [hNot]
      exact .error rfl hRecord.shows
    | ok u =>
      have hYes : t.active (p.account ev) = true := hRecord.succeeds.mp ⟨_, rfl⟩
      rw [hYes]
      exact .ok rfl hRecord.shows

theorem Shows.movement (context : String) (p : Posting) : Answered env ev t shown
    ((ServiceCall.movement p.kind context (p.account ev) ev.amount (p.tag ++ ev.paymentID)
    ev.narration).runWith (serveTx (running env)) w) (t.answer (.movement p) b) := by
  have hNew : Money.new ev.amount.amountKobo ev.amount.currency = .ok ev.amount := by
    refine if_neg ?_
    rw [hTerms.amount.currency]
    decide
  unfold ServiceCall.movement Account.serveMovement
  rw [Prog.runWith_mapError, hNew]
  exact (hShows.moveMoney hTerms hProcesses p).mapError _

theorem Shows.entry {entryType : String} {p : Posting}
    (hType : ServiceCall.wireEntryType entryType = some p.kind.wire) : Answered env ev t shown
    ((ServiceCall.ledgerEntry (p.account ev) ev.amount entryType (p.tag ++ ev.paymentID)
    ev.narration).runWith (serveTx (running env)) w) (t.answer (.entry p) b) := by
  have hProg : ServiceCall.ledgerEntry (p.account ev) ev.amount
          entryType (p.tag ++ ev.paymentID) ev.narration =
        (transact (.postEntry (Account.ledgerRequest p.kind (p.money ev))) >>= fun resp =>
            Prog.ofExcept (resp.mapError (fun e =>
              .wrap "ledger post entry" (.rpc e)))) := by
    unfold ServiceCall.ledgerEntry
    rw [hType]
    rfl
  rw [t.answer_entry, hProg, runWith_transact_ofExcept]
  exact (hShows.post hTerms hProcesses p).mapError _

end

----
-- The Calls Of The Saga
----

section

variable {env : Nat → Env} {ev : Payment.PaymentInitiated} {t : Terms} {shown : Bool}

/- A transition that takes place, or is refused. -/
theorem Answered.status {α : Type} {r : Except GoError α × World} {b : Books}
    {c : Prop} [Decidable c] {next : Payment.Status} (hOk : (∃ x, r.1 = .ok x) ↔ c)
    (hShows : Shows env ev t shown r.2
      { b with status := if c then next else b.status }) : Answered env ev t shown r
      (if c then (true, { b with status := next })
        else (false, b)) := by
  by_cases hHolds : c
  · rw [if_pos hHolds] at hShows ⊢
    exact ⟨iff_of_true (hOk.mpr hHolds) rfl, hShows⟩
  · rw [if_neg hHolds] at hShows ⊢
    exact ⟨iff_of_false (fun hSome => hHolds (hOk.mp hSome)) Bool.false_ne_true, hShows⟩

section

variable {w : World} {b : Books} {key : String} (hShows : Shows env ev t shown w b)
variable (hTerms : t.Of ev shown) (hProcesses : Processes env) (hKey : key ≠ "")

include hShows hTerms hProcesses hKey

theorem Shows.authorize : Answered env ev t shown
    (serveTx (running env) (.authorizePayment ev.paymentID key) w) (t.answer .authorize b) := by
  rcases Payment.transition_standing Payment.authorize_leads hShows.payment
      (hProcesses.clock w.served) hKey (hShows.paymentIDs _ 0 (Nat.le_refl _))
      (hShows.paymentIDs _ 1 (Nat.le_refl _))
      (by rintro hStatus; rw [hStatus]; decide) hTerms.known with ⟨hOk, hStanding, hUses⟩
  exact .status hOk (hShows.payment_next hProcesses hStanding hUses)

theorem Shows.settle : Answered env ev t shown
    (serveTx (running env) (.settlePayment ev.paymentID key) w) (t.answer .settle b) := by
  rcases Payment.transition_standing Payment.settle_leads hShows.payment
      (hProcesses.clock w.served) hKey (hShows.paymentIDs _ 0 (Nat.le_refl _))
      (hShows.paymentIDs _ 1 (Nat.le_refl _))
      (by rintro hStatus; rw [hStatus]; decide) hTerms.known with ⟨hOk, hStanding, hUses⟩
  exact .status hOk (hShows.payment_next hProcesses hStanding hUses)

theorem Shows.fail (reason : String) : Shows env ev t shown
    (serveTx (running env) (.failPayment ev.paymentID key reason) w).2 (t.answer .fail b).2 := by
  rcases Payment.failPayment_standing hShows.payment reason
      (hProcesses.clock w.served) hKey (hShows.paymentIDs _ 0 (Nat.le_refl _))
      (hShows.paymentIDs _ 1 (Nat.le_refl _)) hTerms.known with ⟨hStanding, hUses⟩
  have hNext := hShows.payment_next hProcesses hStanding hUses
  have hBooks : (t.answer .fail b).2 =
        ⟨b.posted,
          if t.known = true ∧ b.status ≠ .settled then
            .failed else b.status⟩ := by
    simp only [Terms.answer]
    split
    · rfl
    · rfl
  rw [hBooks]
  exact hNext

end

section

variable (hTerms : t.Of ev shown) (hProcesses : Processes env)

omit hTerms hProcesses in
theorem answers_of_prog {α : Type} {c : ServiceCall} {o : Order} {q : Service α}
    (hProg : c.prog = q >>= fun _ => pure ())
    (hAnswered : ∀ w b, Shows env ev t shown w b → Answered env ev t shown
    (q.runWith (serveTx (running env)) w) (t.answer o b)) :
    Saga.Answers (Shows env ev t shown) t.answer (serveCall (running env)) c o := by
  have hCall : ∀ w b, Shows env ev t shown w b → Answered env ev t shown
      (serveCall (running env) c w) (t.answer o b) := by
    intro w b hShows
    unfold serveCall
    rw [hProg, Prog.runWith_discard]
    exact (hAnswered w b hShows).discard
  refine ⟨?_, ?_⟩
  · intro w b hShows
    exact (hCall w b hShows).shows
  · intro w b hShows
    rw [← (hCall w b hShows).succeeds]
    constructor
    · intro hOk
      exact ⟨(), hOk⟩
    · rintro ⟨u, hOk⟩
      exact hOk

include hTerms hProcesses

theorem withdraw_answers {p : Posting} (hKind : p.kind = .withdrawal) :
    Saga.Answers (Shows env ev t shown) t.answer (serveCall (running env))
    (.withdraw (p.account ev) ev.amount (p.tag ++ ev.paymentID) ev.narration) (.movement p) := by
  refine answers_of_prog rfl ?_
  intro w b hShows
  rw [← hKind]
  exact hShows.movement hTerms hProcesses _ p

theorem deposit_answers {p : Posting} (hKind : p.kind = .deposit) :
    Saga.Answers (Shows env ev t shown) t.answer (serveCall (running env))
    (.deposit (p.account ev) ev.amount (p.tag ++ ev.paymentID) ev.narration) (.movement p) := by
  refine answers_of_prog rfl ?_
  intro w b hShows
  rw [← hKind]
  exact hShows.movement hTerms hProcesses _ p

theorem postEntry_answers {entryType : String} {p : Posting}
    (hType : ServiceCall.wireEntryType entryType = some p.kind.wire) :
    Saga.Answers (Shows env ev t shown) t.answer (serveCall (running env))
    (.postEntry (p.account ev) ev.amount entryType
    (p.tag ++ ev.paymentID) ev.narration) (.entry p) := by
  refine answers_of_prog rfl ?_
  intro w b hShows
  exact hShows.entry hTerms hProcesses hType

theorem authorize_answers : Saga.Answers (Shows env ev t shown) t.answer (serveCall (running env))
    (.authorize ev.paymentID ("auth-" ++ ev.paymentID))
    .authorize := by
  refine answers_of_prog
    (q := transact (.authorizePayment ev.paymentID ("auth-" ++ ev.paymentID)) >>= fun res =>
      Prog.ofExcept res) rfl ?_
  intro w b hShows
  rw [runWith_transact_ofExcept]
  exact hShows.authorize hTerms hProcesses (by simp)

theorem settle_answers : Saga.Answers (Shows env ev t shown) t.answer (serveCall (running env))
    (.settle ev.paymentID ("settle-" ++ ev.paymentID))
    .settle := by
  refine answers_of_prog
    (q := transact (.settlePayment ev.paymentID ("settle-" ++ ev.paymentID)) >>= fun res =>
      Prog.ofExcept res) rfl ?_
  intro w b hShows
  rw [runWith_transact_ofExcept]
  exact hShows.settle hTerms hProcesses (by simp)

theorem fail_follows {tag : String} (hTag : tag ≠ "") (reason : String) :
    Saga.Follows (Shows env ev t shown) t.answer (serveCall (running env))
    (.fail ev.paymentID (tag ++ ev.paymentID) reason)
    .fail := by
  intro w b hShows
  have hKey : tag ++ ev.paymentID ≠ "" := by
    intro hEmpty
    exact hTag (String.append_eq_empty_iff.mp hEmpty).1
  have hProg : (ServiceCall.fail ev.paymentID (tag ++ ev.paymentID) reason).prog =
        ((transact (.failPayment ev.paymentID (tag ++ ev.paymentID) reason) >>= fun res =>
            Prog.ofExcept res) >>= fun _ => pure ()) := rfl
  unfold serveCall
  rw [hProg, Prog.runWith_discard, runWith_transact_ofExcept]
  exact hShows.fail hTerms hProcesses hKey reason

/- The clean-up after a failed stage. -/
theorem undo_follows {p : Posting} {refundTag failTag : String}
    (hKind : p.kind = .deposit) (hAccount : p.account ev = ev.fromAccountID)
    (hRefund : p.tag = refundTag) (hFail : failTag ≠ "") (context : String)
    (err : GoError) : List.Forall₂
    (Saga.Follows (Shows env ev t shown) t.answer (serveCall (running env)))
    (TransferSaga.undo ev refundTag failTag context err) [.movement p, .fail] := by
  unfold TransferSaga.undo
  rw [← hAccount, ← hRefund]
  exact .cons (deposit_answers hTerms hProcesses hKind).follows
    (.cons (fail_follows hTerms hProcesses hFail _) .nil)

/- The services serve the saga as the books say. -/
theorem serves_orders : List.Forall₂
      (fun s s' =>
      Saga.Answers (Shows env ev t shown) t.answer
      (serveCall (running env)) s.call s'.1 ∧ ∀ e, List.Forall₂
      (Saga.Follows (Shows env ev t shown) t.answer
      (serveCall (running env))) (s.undo e) s'.2) (TransferSaga.steps ev) orders := by
  refine .cons ⟨?_, ?_⟩ (.cons ⟨?_, ?_⟩ (.cons ⟨?_, ?_⟩
    (.cons ⟨?_, ?_⟩ (.cons ⟨?_, ?_⟩ (.cons ⟨?_, ?_⟩ .nil)))))
  · exact withdraw_answers (p := .wdr) hTerms hProcesses rfl
  · intro e
    exact .cons (fail_follows hTerms hProcesses (by decide) _) .nil
  · exact postEntry_answers (p := .ldgWdr) hTerms hProcesses rfl
  · exact undo_follows (p := .refundLedgerWdr) hTerms hProcesses rfl rfl rfl (by decide) _
  · exact deposit_answers (p := .dep) hTerms hProcesses rfl
  · exact undo_follows (p := .refundDep) hTerms hProcesses rfl rfl rfl (by decide) _
  · exact postEntry_answers (p := .ldgDep) hTerms hProcesses rfl
  · exact undo_follows (p := .refundLedgerDep) hTerms hProcesses rfl rfl rfl (by decide) _
  · exact authorize_answers hTerms hProcesses
  · exact undo_follows (p := .refundAuth) hTerms hProcesses rfl rfl rfl (by decide) _
  · exact settle_answers hTerms hProcesses
  · exact undo_follows (p := .refundSettle) hTerms hProcesses rfl rfl rfl (by decide) _

end

end

end Fincore

----
-- Many Deliveries
----

namespace Fincore.TransferSaga

/- One delivery of a decoded event. -/
def deliver (fates : Nat → Fate) (ev : Payment.PaymentInitiated)
    (w : World) : World := ((handle ev).runWith (serveCall fates) w).2

/- Balances and status, on the stream and as projected. -/
structure SameOutcome (ev : Payment.PaymentInitiated) (w w' : World) : Prop where
  balance : ∀ a, w.ledger.balance a 1 = w'.ledger.balance a 1
  status : (Payment.loaded w.payment ev.paymentID).map (fun p => p.status) =
      (Payment.loaded w'.payment ev.paymentID).map (fun p => p.status)
  projected : (w.payment.payments ev.paymentID).map (fun row => row.status) =
      (w'.payment.payments ev.paymentID).map (fun row => row.status)

/-
  Before the first delivery: nothing was posted under the keys of the payment, both accounts and the
  payment can be written to, the balances are far from the limits of their column, and the processes
  to come have unused identifiers.
-/
structure Deliverable (env : Nat → Env) (ev : Payment.PaymentInitiated) (w : World) : Prop where
  processes : Processes env
  ledger : w.ledger.schema = ledgerSchema
  account : w.account.schema = accountMigrations
  unposted : ∀ p : Posting, w.ledger.idempotency (p.tag ++ ev.paymentID) = none
  inOrder : ∀ a, ev.Involves a → Account.Active w.account a → ∃ v, Account.InOrder w.account a v
  payment : ∃ shown status, Payment.Standing w.payment ev.paymentID shown status
  lower : ∀ a, ev.Involves a → -2 ^ 63 + 9 * ev.amount.amountKobo.toInt ≤ w.ledger.balance a 1
  upper : ∀ a, ev.Involves a → w.ledger.balance a 1 + 9 * ev.amount.amountKobo.toInt < 2 ^ 63
  ledgerIDs : w.ledger.Reserves env w.served
  entryIDs : ∀ j n, w.served ≤ j → ∀ row ∈ w.ledger.events, row.event.aggregateID ≠ (env j).newID n
  accountIDs : w.account.Reserves env w.served
  paymentIDs : w.payment.Reserves env w.served

/- The payment is projected, and waits to be authorized. -/
def Awaiting (ev : Payment.PaymentInitiated) (w : World) : Prop :=
  ev.paymentID ≠ "" ∧ ∃ row, w.payment.payments ev.paymentID = some row ∧
      row.status = Payment.Status.initiated.text

/-
  When one delivery is as good as many: the source takes no part, cannot pay, the destination has no
  name, or the source pays twice and the payment cannot be settled.
-/
def Repeats (ev : Payment.PaymentInitiated) (w : World) : Prop :=
  ¬ (trimSpace ev.fromAccountID ≠ "" ∧ Account.Active w.account ev.fromAccountID) ∨
    w.ledger.balance ev.fromAccountID 1 < ev.amount.amountKobo.toInt ∨
    trimSpace ev.toAccountID = "" ∨
    (2 * ev.amount.amountKobo.toInt ≤ w.ledger.balance ev.fromAccountID 1 ∧
      ¬ (Account.Active w.account ev.toAccountID ∧ Awaiting ev w))

/- The terms under which the event is delivered. -/
def terms (ev : Payment.PaymentInitiated) (w : World) (shown : Bool) : Terms where
  transfer := (Orchestrator.saga ev).transfer
  opening a := w.ledger.balance a 1
  active a := decide (Account.Active w.account a)
  known := decide (ev.paymentID ≠ "" ∧ shown = true)

section

variable {env : Nat → Env} {ev : Payment.PaymentInitiated} {w : World} {shown : Bool}
variable (hAmount : ev.amount.PositiveNGN) (hDeliverable : Deliverable env ev w)

include hDeliverable

theorem terms_of (hAmount : ev.amount.PositiveNGN) (shown : Bool) :
    (terms ev w shown).Of ev shown where
  transfer := rfl
  amount := hAmount
  known := decide_eq_true_iff
  lower := hDeliverable.lower
  upper := hDeliverable.upper

/- Before the first delivery nothing is posted. -/
theorem Deliverable.shows {status : Payment.Status}
    (hStanding : Payment.Standing w.payment ev.paymentID shown status) :
    Shows env ev (terms ev w shown) shown w ⟨[], status⟩ where
  once := List.nodup_nil
  schema := hDeliverable.ledger
  balance a := by simp [Terms.balance, terms]
  keys p := by simp [hDeliverable.unposted p]
  accounts := by
    refine ⟨hDeliverable.account, ?_, ?_⟩
    · intro a hInvolved hActive
      exact hDeliverable.inOrder a hInvolved (of_decide_eq_true hActive)
    · intro a _ hInactive
      exact of_decide_eq_false hInactive
  payment := hStanding
  ledgerIDs := hDeliverable.ledgerIDs
  entryIDs := hDeliverable.entryIDs
  accountIDs := hDeliverable.accountIDs
  paymentIDs := hDeliverable.paymentIDs

end

section

variable {env : Nat → Env} {ev : Payment.PaymentInitiated} {t : Terms} {shown : Bool}

theorem shows_deliver (hTerms : t.Of ev shown) (hProcesses : Processes env)
    {w : World} {b : Books} (hShows : Shows env ev t shown w b) :
    Shows env ev t shown (deliver (running env) ev w) (t.deliver b) := by
  unfold deliver
  rw [handle_eq_plan]
  exact Saga.related_plan (serves_orders hTerms hProcesses) hShows

/- So do any number of them. -/
theorem shows_deliveries (hTerms : t.Of ev shown) (hProcesses : Processes env)
    (n : Nat) {w : World} {b : Books} (hShows : Shows env ev t shown w b) :
    Shows env ev t shown ((deliver (running env) ev)^[n] w) (t.deliver^[n] b) := by
  induction n generalizing w b with
  | zero => exact hShows
  | succ n ih =>
    rw [Function.iterate_succ_apply, Function.iterate_succ_apply]
    exact ih (shows_deliver hTerms hProcesses hShows)

theorem sameOutcome_iff {w w' : World} {b b' : Books}
    (hShows : Shows env ev t shown w b) (hShows' : Shows env ev t shown w' b') :
    SameOutcome ev w w' ↔ t.Same b b' := by
  rcases hShows.payment.order with ⟨_, hOrder, _⟩
  rcases hOrder.loads with ⟨p, hLoaded, hStatus⟩
  rcases hShows'.payment.order with ⟨_, hOrder', _⟩
  rcases hOrder'.loads with ⟨p', hLoaded', hStatus'⟩
  constructor
  · intro hSame
    refine ⟨?_, ?_⟩
    · intro a
      rw [← hShows.balance, ← hShows'.balance]
      exact hSame.balance a
    · have hLoads := hSame.status
      rw [hLoaded, hLoaded'] at hLoads
      rw [← hStatus, ← hStatus']
      exact Except.ok.inj hLoads
  · intro hSame
    refine ⟨?_, ?_, ?_⟩
    · intro a
      rw [hShows.balance, hShows'.balance]
      exact hSame.balance a
    · rw [hLoaded, hLoaded']
      show Except.ok p.status = Except.ok p'.status
      rw [hStatus, hStatus', hSame.status]
    · rw [hShows.payment.projected_status, hShows'.payment.projected_status, hSame.status]

end

/- What the books call repeatable, on the services. -/
theorem repeatable_iff_repeats {ev : Payment.PaymentInitiated} {w : World}
    {shown : Bool} {status : Payment.Status}
    (hStanding : Payment.Standing w.payment ev.paymentID shown status) :
    (terms ev w shown).Repeatable status ↔ Repeats ev w := by
  have hOpen : ∀ a, (terms ev w shown).Open a ↔ trimSpace a ≠ "" ∧ Account.Active w.account a := by
    intro a
    constructor
    · intro hIs
      exact ⟨hIs.named, of_decide_eq_true hIs.active⟩
    · rintro ⟨hNamed, hActive⟩
      exact ⟨hNamed, decide_eq_true hActive⟩
  have hAwaiting : (terms ev w shown).known = true ∧ status = .initiated ↔ Awaiting ev w := by
    constructor
    · rintro ⟨hKnown, rfl⟩
      rcases of_decide_eq_true hKnown with ⟨hID, rfl⟩
      rcases Option.isSome_iff_exists.mp hStanding.shown with ⟨row, hRow⟩
      exact ⟨hID, row, hRow, (hStanding.projected row hRow).2⟩
    · rintro ⟨hID, row, hRow, hText⟩
      rw [(hStanding.projected row hRow).2] at hText
      have hShown := hStanding.shown
      rw [hRow] at hShown
      exact ⟨decide_eq_true ⟨hID, hShown.symm⟩, Payment.Status.text_injective hText⟩
  unfold Terms.Repeatable Repeats
  rw [hOpen]
  refine or_congr Iff.rfl (or_congr Iff.rfl (or_congr Iff.rfl (and_congr Iff.rfl (not_congr ?_))))
  exact and_congr decide_eq_true_iff hAwaiting

/- Processes numbered in unary. -/
def numbered (i : Nat) : Env := .tagged (String.ofList (List.replicate i 'x'))

theorem toList_newID_numbered (i n : Nat) : ∃ c, ((numbered i).newID n).toList =
    List.replicate i 'x' ++ ['-', c] := by
  match n with
  | 0 => exact ⟨'0', by simp [numbered, Env.tagged]⟩
  | 1 => exact ⟨'1', by simp [numbered, Env.tagged]⟩
  | n + 2 => exact ⟨'2', by simp [numbered, Env.tagged]⟩

theorem numbered_processes : Processes numbered := by
  refine ⟨?_, ?_⟩
  · intro i
    show Json.TimeInRange 0
    decide
  · intro i j hNe m n hSame
    rcases toList_newID_numbered i m with ⟨c, hFirst⟩
    rcases toList_newID_numbered j n with ⟨d, hSecond⟩
    rw [hSame, hSecond] at hFirst
    have hLength := congrArg List.length hFirst
    simp only [List.length_append, List.length_replicate,
      List.length_cons, List.length_nil] at hLength
    omega

/- Identifiers that no numbered process has. -/
def foreign (id : String) : Bool := id.toList.head? ≠ some 'x' ∧ id.toList.head? ≠ some '-'

theorem foreign_ne {id : String} (hForeign : foreign id = true) (i n : Nat) :
    id ≠ (numbered i).newID n := by
  rintro rfl
  unfold foreign at hForeign
  rcases toList_newID_numbered i n with ⟨c, hList⟩
  rw [hList] at hForeign
  cases i with
  | zero => simp at hForeign
  | succ i => simp [List.replicate_succ] at hForeign

theorem reserves_of_foreign {db : Database}
    (hEvents : ∀ row ∈ db.events, foreign row.event.id = true)
    (hMessages : ∀ row ∈ db.outbox, foreign row.message.id = true) (i : Nat) :
    db.Reserves numbered i := by
  intro j n _
  refine ⟨?_, ?_⟩
  · intro row hMem
    exact foreign_ne (hEvents row hMem) j n
  · intro row hMem
    exact foreign_ne (hMessages row hMem) j n

theorem twoAccounts_inOrder {a : String} (hInvolved : rentInitiated.Involves a) :
    Account.InOrder twoAccounts a 1 := by
  rcases hInvolved with rfl | rfl
  · exact ⟨⟨_, rfl, rfl, rfl⟩, by decide, by decide, by decide⟩
  · exact ⟨⟨_, rfl, rfl, rfl⟩, by decide, by decide, by decide⟩

theorem onePayment_standing : Payment.Standing onePayment "P-0" true .initiated := by
  refine ⟨rfl, ⟨1, ⟨⟨_, rfl, rfl⟩, rfl⟩, by decide⟩, ?_, rfl⟩
  intro cur hRow
  cases hRow
  exact ⟨rfl, rfl⟩

theorem rent_deliverable {kobo : Int64}
    (hSchema : (ledgerAfter [funding kobo]).schema = ledgerSchema)
    (hUnposted : ∀ p ∈ Posting.all, (ledgerAfter [funding kobo]).idempotency
    (p.tag ++ "P-0") = none)
    (hBalances : ∀ a ∈ ["A-0", "B-0"], 0 ≤ (ledgerAfter [funding kobo]).balance a 1 ∧
    (ledgerAfter [funding kobo]).balance a 1 ≤ 1000)
    (hEvents : ∀ row ∈ (ledgerAfter [funding kobo]).events,
    foreign row.event.id = true ∧ foreign row.event.aggregateID = true)
    (hMessages : ∀ row ∈ (ledgerAfter [funding kobo]).outbox,
    foreign row.message.id = true) : Deliverable numbered rentInitiated
    (before [funding kobo]) := by
  have hBoth : ∀ a, rentInitiated.Involves a → 0 ≤ (ledgerAfter [funding kobo]).balance a 1 ∧
      (ledgerAfter [funding kobo]).balance a 1 ≤ 1000 := by
    rintro a (rfl | rfl)
    · exact hBalances _ (by decide)
    · exact hBalances _ (by decide)
  have hKobo : rentInitiated.amount.amountKobo.toInt = 100 := rfl
  refine ⟨numbered_processes, hSchema, rfl, ?_, ?_,
    ⟨true, .initiated, onePayment_standing⟩, ?_, ?_, ?_, ?_, ?_, ?_⟩
  · intro p
    exact hUnposted p p.mem_all
  · intro a hInvolved _
    exact ⟨1, twoAccounts_inOrder hInvolved⟩
  · intro a hInvolved
    have hBalance := hBoth a hInvolved
    rw [hKobo]
    exact le_trans (by decide) hBalance.1
  · intro a hInvolved
    have hBalance := hBoth a hInvolved
    rw [hKobo]
    exact lt_of_le_of_lt (Int.add_le_add_right hBalance.2 _) (by decide)
  · exact reserves_of_foreign (fun row hMem => (hEvents row hMem).1) hMessages _
  · intro j n _ row hMem
    exact foreign_ne (hEvents row hMem).2 j n
  · show twoAccounts.Reserves numbered 0
    exact reserves_of_foreign (by decide) (by decide) 0
  · show onePayment.Reserves numbered 0
    exact reserves_of_foreign (by decide) (by decide) 0

end Fincore.TransferSaga
