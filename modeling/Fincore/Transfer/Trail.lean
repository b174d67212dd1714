import Fincore.Ledger.Recorded
import Fincore.Lib.Process
import Fincore.Outboxes
import Fincore.Transfer.Services

/-
  The account trail beside the ledger: any number of calls of `DepositMoneyHandler.Handle` and
  `WithdrawMoneyHandler.Handle`, retries with the same key among them.

  The ledger answers a retry with the entry it has, and the account service records whatever entry
  it is given. An entry is recorded once only if its key's transactions on the account database are
  opened one at a time, the next only after the last one has failed before it could commit.

  Key definitions include:
    * `Trail` and `movementStep`
    * `Movements.clear`
    * `namedEntry`

  Main results:
    * `trailInv_step`
    * `entries_recorded_once`
-/

----
-- The Two Databases Behind The Handlers
----

namespace Fincore

namespace Ledger

/- The command that `Server.PostEntry` hands on, or why not. -/
def PostEntryRequest.accepted (req : PostEntryRequest) : Except GoError PostEntry :=
  if trimSpace req.accountID = "" then
    .error (.text "account_id required")
  else
    match Money.new req.amountKobo req.currency with
    | .error e => .error e
    | .ok _ =>
      match req.entryType with
      | .unspecified =>
        .error (.text "unsupported entry type")
      | .deposit => .ok (req.command entryTypeDeposit)
      | .withdrawal => .ok (req.command entryTypeWithdrawal)

theorem PostEntryRequest.key_of_accepted {req : PostEntryRequest}
    {cmd : PostEntry} (hAccepted : req.accepted = .ok cmd) :
    cmd.idempotencyKey = req.idempotencyKey := by
  unfold accepted at hAccepted
  split at hAccepted
  · cases hAccepted
  · split at hAccepted
    · cases hAccepted
    · cases hType : req.entryType with
      | unspecified =>
        rw [hType] at hAccepted
        cases hAccepted
      | deposit =>
        rw [hType] at hAccepted
        cases hAccepted
        rfl
      | withdrawal =>
        rw [hType] at hAccepted
        cases hAccepted
        rfl

end Ledger

namespace Account

/- The ledger's calls and the account service's. -/
structure Trail where
  ledger : Ledger.Calls
  accounts : AccountCalls

inductive TrailAction where
  | ledger (a : Engine.Action (Ledger.PostEntry × Env))
  | account (a : Engine.Action AccountTx)

/-
  A request that the ledger's server turns down opens no transaction; the other services are not
  asked.
-/
def Trail.issue (env : Env) : ServiceTx → Trail → Option (Nat × Trail)
| .postEntry req, s =>
  match req.accepted with
  | .error _ => some (0, s)
  | .ok cmd =>
    (Ledger.callStep s.ledger (.start (cmd, env))).map
      (fun calls =>
        (s.ledger.calls.length, { s with ledger := calls }))
| .recordMovement kind cmd entryID, s =>
  (accountStep s.accounts (.start (.recordMovement kind cmd entryID env))).map
    (fun calls =>
      (s.accounts.calls.length, { s with accounts := calls }))
| .authorizePayment _ _, _ => none
| .settlePayment _ _, _ => none
| .failPayment _ _ _, _ => none

def Trail.reply : (r : ServiceTx) → Nat → Trail → Option (ServiceTx.Resp r)
| .postEntry req, i, s =>
  match req.accepted with
  | .error e => some (.error e)
  | .ok _ => s.ledger.answer? i
| .recordMovement _ _ _, i, s =>
  (s.accounts.answer? i).map (fun r => r.map (fun _ => ()))
| .authorizePayment _ _, _, _ => none
| .settlePayment _ _, _, _ => none
| .failPayment _ _ _, _, _ => none

/-
  The ledger serves others too, and accounts are opened; movements are recorded by the two handlers
  only.
-/
def Trail.step (s : Trail) : TrailAction → Option Trail
| .ledger a =>
  (Ledger.callStep s.ledger a).map (fun calls =>
    { s with ledger := calls })
| .account (.start (.recordMovement _ _ _ _)) => none
| .account a =>
  (accountStep s.accounts a).map (fun calls =>
    { s with accounts := calls })

def trail : Process.Backend Trail ServiceTx ServiceTx.Resp Env TrailAction where
  issue := Trail.issue
  reply := Trail.reply
  step := Trail.step

/- Any number of deposits and withdrawals. -/
abbrev Movements :=
  Process.Config Trail (Movement × MoneyCommand) ServiceTx ServiceTx.Resp GoError String

abbrev MovementAction := Process.Action (Movement × MoneyCommand) Env TrailAction

def Movements.start (ledger accounts : Database) : Movements :=
  ⟨⟨Ledger.Calls.start ledger, AccountCalls.start accounts⟩, []⟩

def movementStep (sys : Movements) (a : MovementAction) : Option Movements :=
  Process.step trail (fun c => moveMoney c.1 c.2) sys a

/- The key of the command that a movement is recorded for. -/
def AccountTx.movementKey : AccountTx → Option String
| .recordMovement _ cmd _ _ => some cmd.idempotencyKey
| .openAccount _ _ _ => none

/- The entry that a movement is recorded with. -/
def AccountTx.entry? : AccountTx → Option String
| .recordMovement _ _ entryID _ => some entryID
| .openAccount _ _ _ => none

/-
  When a handler opens its transaction on the account database, every such transaction opened before
  for the same key has failed and committed nothing.
-/
def Movements.clear (sys : Movements) : MovementAction → Bool
| .issue h _ =>
  match sys.next? h with
  | some (.recordMovement _ cmd _) =>
    sys.backend.accounts.clear AccountTx.movementKey cmd.idempotencyKey
  | _ => true
| _ => true

end Account

end Fincore

----
-- Entries In Events And Messages
----

namespace Fincore.Account

/- The entry of a deposit or withdrawal event. -/
def namedEntry (typ : String) (data : Json) : Option String :=
  match unmarshalAccountEvent typ data with
  | .ok (.moneyDeposited _ _ entryID _) => some entryID
  | .ok (.moneyWithdrawn _ _ entryID _) => some entryID
  | _ => none

def rowEntry (row : EventRow) : Option String := namedEntry row.event.type row.event.data

/- And of the event in a message's envelope. -/
def messageEntry (msg : OutboxRow) : Option String :=
  match Json.member? msg.message.value "event_type", Json.member? msg.message.value "data" with
  | some (.str typ), some (.bytes data) => namedEntry typ data
  | _, _ => none

theorem messageEntry_eq {row : EventRow} {msg : OutboxRow}
    (hEnveloped : Enveloped row msg) : messageEntry msg = rowEntry row := by
  unfold messageEntry rowEntry
  rw [hEnveloped.eventType, hEnveloped.data]

theorem messageEntries_eq {db : Database} (hPaired : db.Paired Enveloped) :
    db.outbox.map messageEntry = db.events.map rowEntry := by
  unfold Database.Paired at hPaired
  generalize db.events = rows, db.outbox = msgs at hPaired ⊢
  induction hPaired with
  | nil => rfl
  | cons hHead _ ih =>
    rw [List.map_cons, List.map_cons, messageEntry_eq hHead, ih]

theorem Record.rowEntry_event (rec : Record) (sequence : Nat) :
    rowEntry ⟨sequence, rec.event⟩ = some rec.entryID := by
  unfold rowEntry namedEntry
  rw [rec.unmarshal_event]
  unfold Record.raised
  cases rec.kind with
  | deposit => rfl
  | withdrawal => rfl

theorem rowEntry_opened (customerID : String) (env : Env) (sequence : Nat) :
    rowEntry ⟨sequence, (opening customerID env).event⟩ =
    none := by
  have hOpened : unmarshalAccountEvent (opening customerID env).event.type
      (opening customerID env).event.data = .ok (opened customerID env).withoutMoney :=
    unmarshalAccountEvent_document (opened customerID env)
  unfold rowEntry namedEntry
  rw [hOpened]
  rfl

theorem AccountTx.Commits.rowEntry {c : AccountTx} {ws : List Write}
    {a : AccountAnswer} (hCommits : c.Commits ws a) : ∃ row,
    ws.filterMap Write.event? = [row] ∧ Account.rowEntry row = c.entry? := by
  cases c with
  | openAccount customerID key env =>
    rcases hCommits with ⟨db, _, _, sequence, began, rfl⟩
    exact ⟨⟨sequence, (opening customerID env).event⟩, rfl, rowEntry_opened customerID env sequence⟩
  | recordMovement kind cmd entryID env =>
    rcases hCommits with ⟨db, _, ag, hMoved⟩
    rcases hMoved.writes with ⟨sequence, began, rfl⟩
    exact ⟨_, Record.events_writes _ _ _, Record.rowEntry_event _ sequence⟩

/- The events that name an entry. -/
def rowsNaming (db : Database) (entryID : String) : List EventRow :=
  db.events.filter (fun row => rowEntry row == some entryID)

----
-- What A Handler Does
----

/- What is left of a handler once it has its entry. -/
def recording (kind : Movement) (cmd : MoneyCommand) (entryID : String) : Service String := do
  let res : Except GoError Unit ← transact (.recordMovement kind cmd entryID)
  Prog.ofExcept res
  return entryID

/- A handler fails at once, or asks the ledger first. -/
theorem moveMoney_eq (kind : Movement) (cmd : MoneyCommand) :
    (∃ e, moveMoney kind cmd = .fail e) ∨ moveMoney kind cmd =
        .ask (.postEntry (ledgerRequest kind cmd))
          (fun resp =>
            match resp with
            | .error e => .fail (.rpc e)
            | .ok entryID => recording kind cmd entryID) := by
  by_cases hValid : cmd.Valid
  · right
    have hAmount : validateNGNAmountPositive cmd.amount = .ok () :=
      Money.check_eq_ok.mpr hValid.amount
    unfold moveMoney
    rw [if_neg hValid.account, if_neg hValid.key, hAmount]
    show Prog.ask (ServiceTx.postEntry (ledgerRequest kind cmd))
      _ = _
    congr 1
    funext resp
    cases resp with
    | error e => rfl
    | ok entryID => rfl
  · exact Or.inl (moveMoney_of_not_valid hValid kind)

/- A handler is where it began, or has the entry of its key, or has nothing left to ask. -/
inductive Follows (s : Trail) (c : Movement × MoneyCommand) : Service String → Prop where
  | began : Follows s c (moveMoney c.1 c.2)
  | posted {entryID : String} (hKey : s.ledger.db.idempotency c.2.idempotencyKey = some entryID) :
      Follows s c (recording c.1 c.2 entryID)
  | failed (e : GoError) : Follows s c (.fail e)
  | returned (entryID : String) : Follows s c (.ret entryID)

/- The ticket of a request to the ledger is its call. -/
def Ticketed (s : Trail) : ServiceTx → Nat → Prop
| .postEntry req, i =>
  ∀ cmd, req.accepted = .ok cmd → ∃ env, s.ledger.input? i = some (cmd, env)
| _, _ => True

theorem Follows.asks_record {s : Trail} {c : Movement × MoneyCommand}
    {kind : Movement} {cmd : MoneyCommand} {entryID : String}
    {k : ServiceTx.Resp (.recordMovement kind cmd entryID) → Service String}
    (hFollows : Follows s c (.ask (.recordMovement kind cmd entryID) k)) :
    s.ledger.db.idempotency cmd.idempotencyKey = some entryID := by
  generalize hAsk : Prog.ask (ServiceTx.recordMovement kind cmd entryID) k = p at hFollows
  cases hFollows with
  | began =>
    rcases moveMoney_eq c.1 c.2 with ⟨e, hFail⟩ | hPost
    · rw [hFail] at hAsk
      cases hAsk
    · rw [hPost] at hAsk
      cases hAsk
  | posted hKey =>
    cases hAsk
    exact hKey
  | failed e => cases hAsk
  | returned entryID => cases hAsk

----
-- What Goes On Behind A Handler
----

/-
  A step of one of the two databases. Only transactions that meet `opens` are opened on the
  accounts.
-/
inductive TrailStep (opens : AccountTx → Prop) (s : Trail) : Trail → Prop where
  | same : TrailStep opens s s
  | ledger {a : Engine.Action (Ledger.PostEntry × Env)} {calls : Ledger.Calls}
      (hStep : Ledger.callStep s.ledger a = some calls) :
      TrailStep opens s { s with ledger := calls }
  | account {a : Engine.Action AccountTx} {calls : AccountCalls}
      (hStep : accountStep s.accounts a = some calls) (hOpens : ∀ c, a = .start c → opens c) :
      TrailStep opens s { s with accounts := calls }

variable {s s' : Trail}

theorem TrailStep.mono {opens opens' : AccountTx → Prop}
    (hStep : TrailStep opens s s') (hOpens : ∀ c, opens c → opens' c) : TrailStep opens' s s' := by
  cases hStep with
  | same => exact .same
  | ledger hStep => exact .ledger hStep
  | account hStep hOld =>
    exact .account hStep (fun c hStart =>
      hOpens c (hOld c hStart))

/- By itself no movement is recorded. -/
theorem trailStep_of_step {a : TrailAction} (hStep : s.step a = some s') :
    TrailStep (fun c => c.entry? = none) s s' := by
  have hAccount : ∀ a, (∀ c, a = .start c → c.entry? = none) →
        (accountStep s.accounts a).map (fun calls =>
            { s with accounts := calls }) = some s' →
          TrailStep (fun c => c.entry? = none) s s' := by
    intro a hOpens hMap
    rcases Option.map_eq_some_iff.mp hMap with ⟨calls, hCalls, rfl⟩
    exact .account hCalls hOpens
  cases a with
  | ledger a =>
    rcases Option.map_eq_some_iff.mp hStep with ⟨calls, hCalls, rfl⟩
    exact .ledger hCalls
  | account a =>
    cases a with
    | start c =>
      cases c with
      | openAccount customerID key env =>
        refine hAccount (.start (.openAccount customerID key env)) ?_ hStep
        intro c hStart
        cases hStart
        rfl
      | recordMovement kind cmd entryID env => cases hStep
    | exec i => exact hAccount (.exec i) nofun hStep
    | finish i => exact hAccount (.finish i) nofun hStep
    | unacked i => exact hAccount (.unacked i) nofun hStep
    | broke i => exact hAccount (.broke i) nofun hStep

variable {ticket : Nat}

/- A handler opens the transaction that it asks for. -/
theorem trailStep_of_issue {env : Env} {r : ServiceTx} (hIssue : s.issue env r = some (ticket, s')) :
    TrailStep
      (fun c =>
      ∃ kind cmd entryID, r = .recordMovement kind cmd entryID ∧
      c = .recordMovement kind cmd entryID env) s s' := by
  cases r with
  | postEntry req =>
    simp only [Trail.issue] at hIssue
    split at hIssue
    · cases hIssue
      exact .same
    · rcases Option.map_eq_some_iff.mp hIssue with ⟨calls, hCalls, hEq⟩
      cases hEq
      exact .ledger hCalls
  | recordMovement kind cmd entryID =>
    simp only [Trail.issue] at hIssue
    rcases Option.map_eq_some_iff.mp hIssue with ⟨calls, hCalls, hEq⟩
    cases hEq
    refine .account hCalls ?_
    intro c hStart
    cases hStart
    exact ⟨kind, cmd, entryID, rfl, rfl⟩
  | authorizePayment paymentID key => cases hIssue
  | settlePayment paymentID key => cases hIssue
  | failPayment paymentID key reason => cases hIssue

theorem trailStep_of_grows (hGrows : trail.Grows s s') : TrailStep (fun _ => True) s s' := by
  rcases hGrows with ⟨a, hStep⟩ | ⟨env, r, ticket, hIssue⟩
  · exact (trailStep_of_step hStep).mono (fun _ _ => trivial)
  · exact (trailStep_of_issue hIssue).mono (fun _ _ => trivial)

/- What the ledger's calls keep. -/
structure LedgerInv (cfg : Ledger.Calls) : Prop where
  calls : Ledger.CallInv cfg
  recorded : Ledger.Recorded cfg
  oneKey : Ledger.OneKey cfg

theorem ledgerInv_start (schema : Schema) : LedgerInv
    (Ledger.Calls.start (Database.empty schema)) :=
  ⟨Ledger.callInv_start _, Ledger.recorded_start schema, Ledger.oneKey_start schema⟩

variable {a : Engine.Action (Ledger.PostEntry × Env)} {cfg cfg' : Ledger.Calls}

theorem ledgerInv_step (hInv : LedgerInv cfg)
    (hStep : Ledger.callStep cfg a = some cfg') : LedgerInv cfg' :=
  ⟨Ledger.callInv_step hInv.calls hStep,
    Ledger.recorded_callsStep hInv.calls hInv.recorded (.call a hStep),
    Ledger.oneKey_step hInv.calls hInv.oneKey hStep⟩

variable {k entryID : String}

/- A recorded key stays recorded. -/
theorem keys_step (hInv : Ledger.CallInv cfg) (hStep : Ledger.callStep cfg a = some cfg')
    (hKey : cfg.db.idempotency k = some entryID) : cfg'.db.idempotency k = some entryID := by
  rcases Engine.step_quiet_or_commit hStep with hQuiet | ⟨i, call, t, b, r, hCall, hProg, _, _, rfl⟩
  · rw [hQuiet.observe tick_idempotency]
    exact hKey
  · exact (hInv.post hCall hProg).keeps_keys hKey

variable {opens : AccountTx → Prop}

theorem keys_trailStep
    (hInv : Ledger.CallInv s.ledger) (hStep : TrailStep opens s s')
    (hKey : s.ledger.db.idempotency k = some entryID) :
    s'.ledger.db.idempotency k = some entryID := by
  cases hStep with
  | same => exact hKey
  | ledger hStep => exact keys_step hInv hStep hKey
  | account hStep _ => exact hKey

theorem key_of_reply {s : Trail} {req : Ledger.PostEntryRequest}
    {entryID : String} (hRecorded : Ledger.Recorded s.ledger)
    (hTicketed : Ticketed s (.postEntry req) ticket)
    (hReply : s.reply (.postEntry req) ticket = some (.ok entryID)) :
    s.ledger.db.idempotency req.idempotencyKey = some entryID := by
  simp only [Trail.reply] at hReply
  split at hReply
  · cases hReply
  · rename_i cmd hAccepted
    rcases hTicketed cmd hAccepted with ⟨env, hInput⟩
    rw [← Ledger.PostEntryRequest.key_of_accepted hAccepted]
    exact hRecorded.answers ticket (cmd, env) entryID
      (Engine.Config.returned_of_answer? hInput hReply)

theorem moveMoney_protocol : Process.Protocol trail (fun c => moveMoney c.1 c.2)
    (fun s => LedgerInv s.ledger) Follows Ticketed := by
  refine ⟨?_, ?_, ?_, ?_, ?_⟩
  · intro s c
    exact .began
  · intro env r s ticket s' hIssue
    cases r with
    | postEntry req =>
      intro cmd hAccepted
      have hIssue : s.issue env (.postEntry req) = some (ticket, s') := hIssue
      simp only [Trail.issue, hAccepted] at hIssue
      rcases Option.map_eq_some_iff.mp hIssue with ⟨calls, hCalls, hEq⟩
      cases hEq
      cases hCalls
      exact ⟨env, by simp [Engine.Config.input?]⟩
    | recordMovement kind cmd entryID => trivial
    | authorizePayment paymentID key => trivial
    | settlePayment paymentID key => trivial
    | failPayment paymentID key reason => trivial
  · intro s c r k ticket x hLedger hFollows hTicketed hReply
    generalize hAsk : Prog.ask r k = p at hFollows
    cases hFollows with
    | began =>
      rcases moveMoney_eq c.1 c.2 with ⟨e, hFail⟩ | hPost
      · rw [hFail] at hAsk
        cases hAsk
      rw [hPost] at hAsk
      cases hAsk
      cases x with
      | error e => exact .failed _
      | ok entryID =>
        exact .posted (key_of_reply hLedger.recorded hTicketed hReply)
    | posted hKey =>
      cases hAsk
      cases x with
      | error e => exact .failed e
      | ok u => exact .returned _
    | failed e => cases hAsk
    | returned entryID => cases hAsk
  · intro s s' c p hLedger hGrows hFollows
    cases hFollows with
    | began => exact .began
    | posted hKey =>
      exact .posted (keys_trailStep hLedger.calls (trailStep_of_grows hGrows) hKey)
    | failed e => exact .failed e
    | returned entryID => exact .returned entryID
  · intro s s' r ticket _ hGrows hTicketed
    cases r with
    | postEntry req =>
      intro cmd hAccepted
      rcases hTicketed cmd hAccepted with ⟨env, hInput⟩
      refine ⟨env, ?_⟩
      cases trailStep_of_grows hGrows with
      | same => exact hInput
      | ledger hStep => exact Engine.input?_mono hStep hInput
      | account hStep _ => exact hInput
    | recordMovement kind cmd entryID => trivial
    | authorizePayment paymentID key => trivial
    | settlePayment paymentID key => trivial
    | failPayment paymentID key reason => trivial

----
-- Entries That Are Recorded Once
----

/-
  The transactions on the account database keep to their entries, and the events that name an entry
  are those that were committed with it.
-/
structure RecordsInv (cfg : AccountCalls) : Prop where
  once : Engine.KeyedOnce postgres AccountTx.entry? AccountTx.Commits cfg
  named : ∀ entryID, rowsNaming cfg.db entryID =
      (cfg.committedFor AccountTx.entry? entryID).filterMap Write.event?
  paired : cfg.db.Paired Enveloped

theorem recordsInv_start (schema : Schema) : RecordsInv
    (AccountCalls.start (Database.empty schema)) := by
  refine ⟨Engine.keyedOnce_start _ _ _, ?_, .nil⟩
  intro entryID
  rfl

theorem recordsInv_step {cfg cfg' : AccountCalls} {a : Engine.Action AccountTx}
    (hInv : RecordsInv cfg) (hAdmits : cfg.admits AccountTx.entry? a = true)
    (hStep : accountStep cfg a = some cfg') : RecordsInv cfg' := by
  refine ⟨Engine.keyedOnce_step AccountTx.commits_wp hInv.once hAdmits hStep, ?_, ?_⟩
  · intro entryID
    have hSourced := hInv.once.keyed.sourced
    rcases Engine.step_quiet_or_commit hStep with hQuiet | ⟨i, c, t, b, r, hCall, hProg, _, _, rfl⟩
    · unfold rowsNaming Engine.Config.committedFor
      rw [hQuiet.observe tick_events, Engine.Config.writesOf_quiet hSourced hQuiet]
      exact hInv.named entryID
    · have hOld := hInv.named entryID
      rcases (hInv.once.guarded.post hCall hProg).rowEntry with ⟨row, hRow, hEntry⟩
      have hEvents : (cfg.commit postgres i c t.writes r).db.events = cfg.db.events ++ [row] := by
        rw [← hRow]
        exact view_events cfg.db t.writes
      unfold rowsNaming Engine.Config.committedFor at hOld ⊢
      rw [Engine.Config.writesOf_commit hSourced hCall,
        List.filterMap_append, ← hOld, hEvents, List.filter_append]
      congr 1
      by_cases hOwn : c.entry? = some entryID
      · simp [hEntry, hOwn, hRow]
      · simp [hEntry, hOwn]
  · apply paired_step _ hInv.paired hStep
    intro i c t b hCall hProg
    exact AccountTx.pairs_of_commits c t.writes b (hInv.once.guarded.post hCall hProg)

theorem RecordsInv.naming_le {cfg : AccountCalls} (hInv : RecordsInv cfg)
    (entryID : String) : (rowsNaming cfg.db entryID).length ≤ 1 := by
  rw [hInv.named]
  rcases hInv.once.committed entryID with hNone | ⟨c, a, _, hCommits⟩
  · rw [hNone]
    exact Nat.zero_le 1
  · rcases hCommits.rowEntry with ⟨row, hRow, _⟩
    rw [hRow]
    exact Nat.le_refl 1

/- Every movement is recorded with the entry that the ledger has under its key. -/
structure TrailInv (sys : Movements) : Prop where
  ledger : LedgerInv sys.backend.ledger
  records : RecordsInv sys.backend.accounts
  keyed : ∀ i c entryID, sys.backend.accounts.input? i = some c →
        c.entry? = some entryID → ∃ k, c.movementKey = some k ∧
            sys.backend.ledger.db.idempotency k = some entryID
  follows : Process.Holds Follows Ticketed sys

theorem trailInv_start (ledgerSchema accountSchema : Schema) : TrailInv
    (Movements.start (Database.empty ledgerSchema) (Database.empty accountSchema)) := by
  refine ⟨ledgerInv_start _, recordsInv_start _, ?_, Process.holds_start _⟩
  intro i c entryID hInput
  cases hInput

/-
  A step of the databases in which a movement is opened only with the entry of its key, and when the
  key is clear.
-/
theorem trailInv_trailStep {sys : Movements}
    {s : Trail} (hInv : TrailInv sys) (hStep : TrailStep opens sys.backend s)
    (hOpens : ∀ c entryID, opens c → c.entry? = some entryID →
    ∃ k, c.movementKey = some k ∧ sys.backend.ledger.db.idempotency k =
    some entryID ∧ sys.backend.accounts.clear AccountTx.movementKey
    k = true) : LedgerInv s.ledger ∧ RecordsInv s.accounts ∧
    ∀ i c entryID, s.accounts.input? i = some c → c.entry? = some entryID →
    ∃ k, c.movementKey = some k ∧ s.ledger.db.idempotency k = some entryID := by
  cases hStep with
  | same => exact ⟨hInv.ledger, hInv.records, hInv.keyed⟩
  | ledger hStep =>
    refine ⟨ledgerInv_step hInv.ledger hStep, hInv.records, ?_⟩
    intro i c entryID hInput hEntry
    rcases hInv.keyed i c entryID hInput hEntry with ⟨k, hKey, hFound⟩
    exact ⟨k, hKey, keys_step hInv.ledger.calls hStep hFound⟩
  | @account a calls hStep hAllowed =>
    refine ⟨hInv.ledger, ?_, ?_⟩
    · refine recordsInv_step hInv.records ?_ hStep
      cases a with
      | start c =>
        show c.entry?.all (sys.backend.accounts.clear AccountTx.entry?) = true
        cases hEntry : c.entry? with
        | none => rfl
        | some entryID =>
          rcases hOpens c entryID (hAllowed c rfl) hEntry with ⟨k, _, hFound, hClear⟩
          apply Engine.Config.clear_iff.mpr
          intro i c' hInput hEntry'
          -- the entry has one key only
          rcases hInv.keyed i c' entryID hInput hEntry' with ⟨k', hKey', hFound'⟩
          have hSame := hInv.ledger.oneKey.single k k' entryID hFound hFound'
          subst hSame
          exact Engine.Config.clear_iff.mp hClear i c' hInput hKey'
      | exec i => rfl
      | finish i => rfl
      | unacked i => rfl
      | broke i => rfl
    · intro i c entryID hInput hEntry
      rcases Engine.input?_step hStep hInput with hOld | ⟨hStart, _⟩
      · exact hInv.keyed i c entryID hOld hEntry
      · rcases hOpens c entryID (hAllowed c hStart) hEntry with ⟨k, hKey, hFound, _⟩
        exact ⟨k, hKey, hFound⟩

theorem trailInv_step {sys sys' : Movements} {a : MovementAction}
    (hInv : TrailInv sys) (hClear : sys.clear a = true)
    (hStep : movementStep sys a = some sys') : TrailInv sys' := by
  have hFollows := Process.holds_step moveMoney_protocol hInv.ledger hInv.follows hStep
  cases Process.step_spec hStep with
  | called input =>
    exact ⟨hInv.ledger, hInv.records, hInv.keyed, hFollows⟩
  | issued hProc hIssue =>
    have hAsk := hInv.follows _ (List.mem_of_getElem? hProc)
    have hNext := Process.next?_eq hProc
    rcases trailInv_trailStep hInv
        (trailStep_of_issue hIssue) (by
          rintro c x ⟨kind, cmd, entryID, rfl, rfl⟩ hEntry
          cases hEntry
          simp only [Movements.clear, hNext] at hClear
          exact ⟨cmd.idempotencyKey, rfl, Follows.asks_record hAsk, hClear⟩) with
      ⟨hLedger, hRecords, hKeyed⟩
    exact ⟨hLedger, hRecords, hKeyed, hFollows⟩
  | resumed hProc hReply =>
    exact ⟨hInv.ledger, hInv.records, hInv.keyed, hFollows⟩
  | served hServe =>
    rcases trailInv_trailStep hInv
        (trailStep_of_step hServe) (by
          intro c entryID hNone hEntry
          rw [hNone] at hEntry
          cases hEntry) with ⟨hLedger, hRecords, hKeyed⟩
    exact ⟨hLedger, hRecords, hKeyed, hFollows⟩

/-
  If every movement is recorded only when those of its key before have failed without committing, no
  entry of the ledger is in two events, or in two messages.
-/
theorem entries_recorded_once (ledgerSchema accountSchema : Schema) (schedule : List MovementAction)
    (hClear : Transition.Meets movementStep (fun sys a => sys.clear a = true)
      (Movements.start (Database.empty ledgerSchema)
      (Database.empty accountSchema)) schedule) (sys : Movements)
    (hRun : Transition.run movementStep
      (Movements.start (Database.empty ledgerSchema)
      (Database.empty accountSchema)) schedule = some sys)
    (entryID : String) : (sys.backend.accounts.db.events.map rowEntry).count (some entryID) ≤ 1 ∧
      (sys.backend.accounts.db.outbox.map messageEntry).count (some entryID) ≤ 1 := by
  have hInv : TrailInv sys := by
    apply Transition.run_induction_of_meets _ _ hClear hRun
    · intro s a s' hInv hClear hStep
      exact trailInv_step hInv hClear hStep
    · exact trailInv_start ledgerSchema accountSchema
  have hRows : (sys.backend.accounts.db.events.map rowEntry).count (some entryID) ≤ 1 := by
    rw [List.count, List.countP_map, List.countP_eq_length_filter]
    exact hInv.records.naming_le entryID
  refine ⟨hRows, ?_⟩
  rw [messageEntries_eq hInv.records.paired]
  exact hRows

/- An account is opened. -/
def openAccountFirst : List MovementAction :=
  [.serve (.account (.start (.openAccount "customer" "open" (.tagged "A")))),
    .serve (.account (.exec 0)), .serve (.account (.exec 0)),
    .serve (.account (.exec 0)), .serve (.account (.finish 0))]

def depositHundred : Movement × MoneyCommand := (.deposit, ⟨"A-0", ⟨100, NGN⟩, "k", ""⟩)

/- Handler `h` has an entry and records it, as call `i`. -/
def recordOnce (h i : Nat) (env : Env) : List MovementAction :=
  [.resume h, .issue h env] ++ List.replicate 5 (.serve (.account (.exec i))) ++
    [.serve (.account (.finish i)), .resume h]

/- A deposit to its end. -/
def firstMovement : List MovementAction :=
  openAccountFirst ++ [.call depositHundred, .issue 0 (.tagged "L")] ++
    List.replicate 6 (.serve (.ledger (.exec 0))) ++
    [.serve (.ledger (.finish 0))] ++ recordOnce 0 1 (.tagged "M")

/- The client sends it again; the ledger finds the key. -/
def repeatedMovement : List MovementAction :=
  firstMovement ++
    [.call depositHundred, .issue 1 (.tagged "N"), .serve (.ledger (.exec 1)),
      .serve (.ledger (.finish 1))] ++ recordOnce 1 2 (.tagged "O")

theorem firstMovement_recorded_once : ∃ sys, Transition.run movementStep
      (Movements.start (Database.empty ledgerSchema)
      (Database.empty accountMigrations)) firstMovement = some sys ∧
      sys.Returned 0 depositHundred "L-0" ∧
      (sys.backend.accounts.db.events.map rowEntry).count (some "L-0") ≤ 1 ∧
      (sys.backend.accounts.db.outbox.map messageEntry).count (some "L-0") ≤ 1 := by
  refine ⟨_, rfl, rfl, ?_⟩
  exact entries_recorded_once ledgerSchema accountMigrations firstMovement (by decide) _ rfl "L-0"

/- One entry of the ledger, two deposits on the account. -/
theorem repeatedMovement_recorded_twice : ∃ sys, Transition.run movementStep
      (Movements.start (Database.empty ledgerSchema)
      (Database.empty accountMigrations)) repeatedMovement = some sys ∧
      sys.backend.ledger.db.events.length = 1 ∧ sys.Returned 0 depositHundred "L-0" ∧
      sys.Returned 1 depositHundred "L-0" ∧
      (sys.backend.accounts.db.events.map rowEntry).count (some "L-0") = 2 ∧
      (sys.backend.accounts.db.outbox.map messageEntry).count (some "L-0") = 2 := by
  refine ⟨_, rfl, rfl, rfl, rfl, ?_, ?_⟩
  · decide
  · decide

end Fincore.Account
