import Fincore.Account.Calls
import Fincore.Ledger.Calls
import Fincore.Payment.Calls

/-
  The outboxes of the three services beside their events.

  Every command writes an event and its message in one transaction, so that after any run, whatever
  failed in it, the outbox has one message for each event, in the order of the events.

  Key definitions include:
    * `Enveloped` and `Ledger.NamesEntry`
    * `Pairs`

  Main results:
    * `paired_step`
    * `Account.accounts_paired`, `Payment.payments_paired`
      and `Ledger.entries_paired`
    * `outboxes_mirror_events`
-/

----
-- Messages And Events
----

namespace Fincore

/- A member of a JSON object. -/
def Json.member? (doc : Json) (name : String) : Option Json :=
  match doc with
  | .obj fields => Json.lookup fields name
  | _ => none

/-
  The message has the event's aggregate for its key, and its envelope the event's type, aggregate,
  version and data.
-/
structure Enveloped (row : EventRow) (msg : OutboxRow) : Prop where
  key : msg.message.key = row.event.aggregateID
  eventType : Json.member? msg.message.value "event_type" = some (.str row.event.type)
  aggregateID : Json.member? msg.message.value "aggregate_id" = some (.str row.event.aggregateID)
  version : Json.member? msg.message.value "version" = some (.num row.event.version)
  data : Json.member? msg.message.value "data" = some (.bytes row.event.data)

/- The amount of an entry with the sign of its type. -/
def Ledger.EntryPosted.signedAmount (e : Ledger.EntryPosted) : Int :=
  if e.entryType = Ledger.entryTypeWithdrawal then
    -e.amountKobo.toInt
  else e.amountKobo.toInt

/-
  The message names the entry that is stored in the event, and its account, and carries its signed
  amount.
-/
def Ledger.NamesEntry (row : EventRow) (msg : OutboxRow) : Prop :=
  ∃ e, Ledger.EntryPosted.unmarshal row.event.data = .ok e ∧ e.entryID = row.event.aggregateID ∧
      Json.member? msg.message.value "aggregate_id" = some (.str e.entryID) ∧
      Json.member? msg.message.value "account_id" = some (.str e.accountID) ∧
      Json.member? msg.message.value "delta_kobo" = some (.num e.signedAmount)

theorem enveloped_document (sequence began : Nat) (e : Event) (m : Message)
    (occurredAtUTC : Time) (hKey : m.key = e.aggregateID)
    (hValue : m.value = Outbox.envelopeDocument e.type e.aggregateID
    e.aggregateType e.version occurredAtUTC e.data) :
    Enveloped ⟨sequence, e⟩ ⟨m, began, none⟩ := by
  refine ⟨hKey, ?_, ?_, ?_, ?_⟩ <;> simp +decide [hValue, Json.member?,
      Outbox.envelopeDocument, Json.lookup]

----
-- Runs That Pair
----

/- The events and the messages among the writes correspond, and no message is taken away. -/
structure Pairs (R : EventRow → OutboxRow → Prop) (ws : List Write) : Prop where
  enqueues : ∀ w ∈ ws, w.Enqueues
  rows : List.Forall₂ R (ws.filterMap Write.event?) (ws.filterMap Write.message?)

/- All events and all messages of a database correspond. -/
def Database.Paired (R : EventRow → OutboxRow → Prop) (db : Database) : Prop :=
  List.Forall₂ R db.events db.outbox

theorem pairs_nil (R : EventRow → OutboxRow → Prop) : Pairs R [] := by
  refine ⟨?_, .nil⟩
  intro w hMem
  cases hMem

section

variable {ι α : Type} {handler : ι → Tx α} {R : EventRow → OutboxRow → Prop}
variable {cfg cfg' : Engine.Config Database ι Stmt Resp Write GoError α} {a : Engine.Action ι}

/- A step that commits, commits pairs. -/
theorem paired_step (hPairs : ∀ i c t b, cfg.Running i c t → t.prog = .ret b → Pairs R t.writes)
    (hPaired : cfg.db.Paired R)
    (hStep : postgres.step handler cfg a = some cfg') : cfg'.db.Paired R := by
  rcases Engine.step_quiet_or_commit hStep with hQuiet | ⟨i, c, t, b, r, hCall, hProg, _, _, rfl⟩
  · unfold Database.Paired
    rw [hQuiet.observe tick_events, hQuiet.observe tick_outbox]
    exact hPaired
  · have hNew := hPairs i c t b hCall hProg
    show List.Forall₂ R (postgres.view cfg.db t.writes).events
      (postgres.view cfg.db t.writes).outbox
    rw [view_events, view_outbox cfg.db hNew.enqueues]
    exact List.rel_append hPaired hNew.rows

/- When all that a handler can commit are pairs. -/
theorem paired_run {Q : ι → List Write → α → Prop}
    (hWp : ∀ c began db, postgres.Wp Engine.Rely.top (fun _ ws a => Q c ws a)
    began (handler c) [] db) (hPairs : ∀ c ws b, Q c ws b → Pairs R ws)
    {schema : Schema} {schedule : List (Engine.Action ι)}
    (hRun : Transition.run (postgres.step handler)
    ⟨Database.empty schema, [], []⟩ schedule = some cfg) : cfg.db.Paired R := by
  have hKeeps : ∀ (s : Engine.Config Database ι Stmt Resp Write GoError α) (a : Engine.Action ι)
        (s' : Engine.Config Database ι Stmt Resp Write GoError α),
        (postgres.Guarded (fun _ => Engine.Rely.top) (fun c _ ws b => Q c ws b) s ∧ s.db.Paired R) →
        postgres.step handler s a = some s' → postgres.Guarded (fun _ => Engine.Rely.top)
              (fun c _ ws b => Q c ws b) s' ∧ s'.db.Paired R := by
    rintro s a s' ⟨hGuarded, hPaired⟩ hStep
    refine ⟨Engine.guarded_top_step hWp hGuarded hStep, ?_⟩
    apply paired_step _ hPaired hStep
    intro i c t b hCall hProg
    exact hPairs c t.writes b (hGuarded.post hCall hProg)
  refine (Transition.run_induction hKeeps ?_ hRun).2
  refine ⟨?_, .nil⟩
  intro i c t hCall
  cases hCall

end

/- A new aggregate is committed with its message. -/
theorem pairs_creation (cr : Outbox.Creation) (projection : Write)
    (hEvent : projection.event? = none) (hMessage : projection.message? = none)
    (hEnqueues : projection.Enqueues) (sequence began : Nat) : Pairs Enveloped
    (cr.writes projection sequence began) := by
  have hEventRow : Write.event? (.event ⟨sequence, cr.event⟩) = some ⟨sequence, cr.event⟩ := rfl
  have hMessageRow : Write.message? (.message ⟨cr.message, began, none⟩) =
      some ⟨cr.message, began, none⟩ := rfl
  refine ⟨?_, ?_⟩
  · intro w hMem
    simp only [Outbox.Creation.writes, List.mem_cons, List.not_mem_nil, or_false] at hMem
    rcases hMem with rfl | rfl | rfl
    · trivial
    · trivial
    · exact hEnqueues
  · unfold Outbox.Creation.writes
    rw [List.filterMap_cons_none rfl, List.filterMap_cons_some hEventRow,
      List.filterMap_cons_none hEvent, List.filterMap_cons_some hMessageRow,
      List.filterMap_cons_none rfl, List.filterMap_cons_none hMessage]
    exact .cons
      (enveloped_document sequence began cr.event cr.message cr.occurredAtUTC rfl rfl) .nil

----
-- The Three Services
----

namespace Account

theorem Record.pairs_writes (rec : Record) (sequence began : Nat) :
    Pairs Enveloped (rec.writes sequence began) := by
  refine ⟨?_, ?_⟩
  · intro w hMem
    unfold Record.writes at hMem
    rcases List.mem_cons.mp hMem with rfl | hRest
    · trivial
    rcases List.mem_append.mp hRest with hSnap | hLast
    · rcases List.mem_map.mp hSnap with ⟨s, _, rfl⟩
      trivial
    · simp only [List.mem_cons, List.not_mem_nil, or_false] at hLast
      rcases hLast with rfl | rfl
      · trivial
      · trivial
  · rw [Record.events_writes, Record.messages_writes]
    exact .cons
      (enveloped_document sequence began rec.event
        rec.message rec.raised.occurredAtUTC rfl rfl) .nil

theorem AccountTx.pairs_of_commits (c : AccountTx) (ws : List Write)
    (a : AccountAnswer) (hCommits : c.Commits ws a) : Pairs Enveloped ws := by
  cases c with
  | openAccount customerID key env =>
    rcases hCommits with ⟨db, _, _, sequence, began, rfl⟩
    refine pairs_creation _ _ rfl rfl ?_ _ _
    trivial
  | recordMovement kind cmd entryID env =>
    rcases hCommits with ⟨db, _, ag, hMoved⟩
    rcases hMoved.writes with ⟨sequence, began, rfl⟩
    exact Record.pairs_writes _ _ _

theorem accounts_paired {schema : Schema}
    {schedule : List (Engine.Action AccountTx)} {cfg : AccountCalls}
    (hRun : Transition.run accountStep
    (AccountCalls.start (Database.empty schema)) schedule = some cfg) :
    cfg.db.Paired Enveloped := paired_run AccountTx.commits_wp AccountTx.pairs_of_commits hRun

end Account

namespace Payment

/- A transition is committed with its message. -/
theorem Moved.pairs {r : Database → Database → Prop} {paymentID : String}
    {env : Env} {allowed : Status → Prop} {next : Status} {db : Database}
    {ws : List Write} {a : PaymentAnswer} (hMoved : Moved r paymentID env allowed next db ws a) :
    Pairs Enveloped ws := by
  rcases hMoved.explained with ⟨_, _, p, ev, cur, sequence, began, _, _, _, _, _, _, _, rfl, _⟩
  refine ⟨?_, ?_⟩
  · intro w hMem
    simp only [Raise.writes, List.mem_cons, List.not_mem_nil, or_false] at hMem
    rcases hMem with rfl | rfl | rfl
    · trivial
    · trivial
    · trivial
  · exact .cons
      (enveloped_document sequence began (Raise.mk paymentID p ev env).event
        (Raise.mk paymentID p ev env).message ev.occurredAtUTC rfl rfl) .nil

theorem PaymentTx.pairs_of_commits (c : PaymentTx) (ws : List Write)
    (a : PaymentAnswer) (hCommits : c.Commits ws a) : Pairs Enveloped ws := by
  cases c with
  | create cmd env =>
    rcases hCommits with ⟨db, _, _, sequence, began, rfl⟩
    refine pairs_creation _ _ rfl rfl ?_ _ _
    trivial
  | record paymentID workflowID runID =>
    rcases hCommits with ⟨db, _, before, cur, _, _, rfl⟩
    refine ⟨?_, .nil⟩
    intro w hMem
    rw [List.mem_singleton.mp hMem]
    trivial
  | authorize paymentID key env =>
    rcases hCommits with ⟨db, hMoved⟩
    exact Moved.pairs hMoved
  | settle paymentID key env =>
    rcases hCommits with ⟨db, hMoved⟩
    exact Moved.pairs hMoved
  | fail paymentID key reason env =>
    rcases hCommits with ⟨db, hMoved⟩
    exact Moved.pairs hMoved

theorem payments_paired {schema : Schema}
    {schedule : List (Engine.Action PaymentTx)} {cfg : PaymentCalls}
    (hRun : Transition.run paymentStep
    (PaymentCalls.start (Database.empty schema)) schedule = some cfg) :
    cfg.db.Paired Enveloped := paired_run PaymentTx.commits_wp PaymentTx.pairs_of_commits hRun

end Payment

namespace Ledger

variable {cmd : PostEntry}

theorem PostEntry.Valid.signedAmount_eq (hValid : cmd.Valid)
    (env : Env) : (cmd.posted env).signedAmount = cmd.delta.toInt := by
  unfold EntryPosted.signedAmount PostEntry.posted
  by_cases hType : cmd.type = entryTypeWithdrawal
  · rw [if_pos hType, hValid.delta_of_withdrawal hType]
  · rw [if_neg hType]
    unfold PostEntry.delta
    rw [if_neg hType]

theorem PostEntry.Post.pairs {env : Env} {db : Database}
    {ws : List Write} {entryID : String} (hPost : cmd.Post env db ws entryID) :
    Pairs NamesEntry ws := by
  rcases hPost with ⟨rfl, _⟩ | hPosts
  · exact pairs_nil _
  · rcases hPosts.writes with ⟨sequence, began, rfl⟩
    refine ⟨?_, .cons ?_ .nil⟩
    · intro w hMem
      simp only [PostEntry.writes, List.mem_cons, List.not_mem_nil, or_false] at hMem
      rcases hMem with rfl | rfl | rfl | rfl
      · trivial
      · trivial
      · trivial
      · trivial
    · refine ⟨cmd.posted env, EntryPosted.unmarshal_document _, rfl, ?_⟩
      rw [hPosts.valid.signedAmount_eq env]
      simp +decide [Json.member?, PostEntry.message, PostEntry.posted, Json.lookup]

theorem entries_paired {schema : Schema}
    {schedule : List (Engine.Action (PostEntry × Env))} {cfg : Calls}
    (hRun : Transition.run callStep (Calls.start (Database.empty schema)) schedule = some cfg) :
    cfg.db.Paired NamesEntry := by
  have hBoth : CallInv cfg ∧ cfg.db.Paired NamesEntry := by
    apply Transition.run_induction _ _ hRun
    · rintro s a s' ⟨hCalls, hPaired⟩ hStep
      refine ⟨callInv_step hCalls hStep, ?_⟩
      apply paired_step _ hPaired hStep
      intro i c t b hCall hProg
      exact (hCalls.post hCall hProg).pairs
    · exact ⟨callInv_start _, .nil⟩
  exact hBoth.2

end Ledger

----
-- One Message For Each Event
----

open Account Payment Ledger

/-
  After any run of each service its messages correspond one to one to its events, in order: those of
  accounts and payments carry the event in an envelope, those of the ledger name the entry, its
  account and signed amount.
-/
theorem outboxes_mirror_events (accountSchema paymentSchema entrySchema : Schema)
    (accountRun : List (Engine.Action AccountTx)) (paymentRun : List (Engine.Action PaymentTx))
    (ledgerRun : List (Engine.Action (PostEntry × Env)))
    (accounts : AccountCalls) (payments : PaymentCalls) (entries : Calls)
    (hAccounts : Transition.run accountStep (AccountCalls.start (Database.empty accountSchema))
      accountRun = some accounts)
    (hPayments : Transition.run paymentStep (PaymentCalls.start (Database.empty paymentSchema))
      paymentRun = some payments)
    (hEntries : Transition.run callStep
      (Calls.start (Database.empty entrySchema)) ledgerRun = some entries) :
    List.Forall₂ Enveloped accounts.db.events accounts.db.outbox ∧
      List.Forall₂ Enveloped payments.db.events payments.db.outbox ∧
      List.Forall₂ NamesEntry entries.db.events
      entries.db.outbox :=
  ⟨accounts_paired hAccounts, payments_paired hPayments, entries_paired hEntries⟩

/- An account is opened and a deposit on it is recorded. -/
def openAndDeposit : List (Engine.Action AccountTx) :=
  [.start (.openAccount "customer" "open" (.tagged "A")),
    .exec 0, .exec 0, .exec 0, .finish 0, .start (.recordMovement .deposit
      ⟨"A-0", ⟨100, NGN⟩, "d", ""⟩ "e1" (.tagged "d")),
    .exec 1, .exec 1, .exec 1, .exec 1, .exec 1, .finish 1]

/- A payment is created; failing it breaks at the commit. -/
def createAndBreak : List (Engine.Action PaymentTx) :=
  [.start (.create ⟨"A-0", "B-0", ⟨100, NGN⟩, "rent", "pay"⟩ (.tagged "P")),
    .exec 0, .exec 0, .exec 0, .finish 0, .start (.fail "P-0" "f" "late" (.tagged "f")),
    .exec 1, .exec 1, .exec 1, .exec 1, .exec 1, .broke 1]

theorem three_outboxes_mirror : ∃ accounts payments entries, Transition.run accountStep
      (AccountCalls.start (Database.empty accountMigrations))
      openAndDeposit = some accounts ∧ Transition.run paymentStep
      (PaymentCalls.start (Database.empty paymentMigrations))
      createAndBreak = some payments ∧ Transition.run callStep
      (Calls.start (Database.empty ledgerSchema))
      lostAcknowledgement = some entries ∧ accounts.db.events.length = 2 ∧
      payments.db.events.length = 1 ∧ entries.db.events.length = 1 ∧
      List.Forall₂ Enveloped accounts.db.events accounts.db.outbox ∧
      List.Forall₂ Enveloped payments.db.events payments.db.outbox ∧
      List.Forall₂ NamesEntry entries.db.events
      entries.db.outbox := by
  refine ⟨_, _, _, rfl, rfl, rfl, rfl, rfl, rfl, ?_⟩
  exact outboxes_mirror_events accountMigrations paymentMigrations ledgerSchema openAndDeposit
    createAndBreak lostAcknowledgement _ _ _ rfl rfl rfl

end Fincore
