import Fincore.Account.Calls
import Fincore.Lib.Process
import Fincore.Payment.Calls
import Fincore.Payment.Relay

/-
  The two commands that create something, and their keys: `InitiatePaymentHandler.Handle` and
  `OpenAccountHandler.Handle`.

  Both require a key and neither looks at it. A key creates one payment or account only if its calls
  are made one at a time, the next only after the last one has failed before it could commit.

  Key definitions include:
    * `Payment.handle`
    * `Payment.Initiations` and `Payment.initiationStep`
    * `CreatesOnce`

  Main results:
    * `Payment.initiations_create_once`
    * `Account.openings_create_once`
    * `creates_once_of_clear_keys`
-/

----
-- Initiating A Payment
----

namespace Fincore.Payment

/- What `InitiatePaymentHandler.Handle` asks others to do. -/
inductive HandleReq where
  | create (cmd : InitiatePayment)
  | startTransferWorkflow (input : TransferWorkflowInput)
  | record (paymentID workflowID runID : String)

@[reducible] def HandleResp : HandleReq → Type
| .create _ => Except GoError PaymentProjection
| .startTransferWorkflow _ => Except GoError (String × String)
| .record _ _ _ => Except GoError Unit

def handleAsks (r : HandleReq) : Prog HandleReq HandleResp GoError (HandleResp r) := Prog.request r

/- `commands.InitiatePaymentResult` -/
structure InitiatePaymentResult where
  paymentID : String
  version : Nat
  status : String

/-
  `InitiatePaymentHandler.Handle`; `temporal` says whether the handler has a workflow starter. Its
  checks are those `initiatePayment` begins with.
-/
def handle (temporal : Bool) (cmd : InitiatePayment) : Prog HandleReq HandleResp GoError
      InitiatePaymentResult := do
  let created : Except GoError PaymentProjection ← handleAsks (.create cmd)
  let p ← Prog.ofExcept created
  let res : InitiatePaymentResult := ⟨p.paymentID, p.version, p.status⟩
  if temporal then
    let started : Except GoError (String × String) ← handleAsks (.startTransferWorkflow {
        paymentID := res.paymentID
        fromAccountID := p.fromAccountID
        toAccountID := p.toAccountID
        currency := p.currency
        amountKobo := p.amountKobo
        narration := p.narration
        idempotencyKey := cmd.idempotencyKey })
    let ids ← Prog.ofExcept started
    let recorded : Except GoError Unit ← handleAsks (.record res.paymentID ids.1 ids.2)
    Prog.ofExcept recorded
  return res

/-
  The payment database, and the workflows that were asked for, with Temporal's answers as far as
  they have come.
-/
structure Serving where
  calls : PaymentCalls
  workflows : List (TransferWorkflowInput × Option (Except GoError (String × String)))

/-
  What goes on behind the handlers: transactions, which the other commands open too, and answers of
  Temporal.
-/
inductive ServingAction where
  | tx (a : Engine.Action PaymentTx)
  | temporal (j : Nat) (r : Except GoError (String × String))

/- Open a transaction for a handler. -/
def Serving.open (s : Serving) (c : PaymentTx) : Option (Nat × Serving) :=
  (paymentStep s.calls (.start c)).map (fun calls =>
    (s.calls.calls.length, { s with calls := calls }))

def Serving.issue (env : Env) : HandleReq → Serving → Option (Nat × Serving)
| .create cmd, s => s.open (.create cmd env)
| .startTransferWorkflow input, s =>
  some (s.workflows.length, { s with workflows := s.workflows ++ [(input, none)] })
| .record paymentID workflowID runID, s =>
  s.open (.record paymentID workflowID runID)

def Serving.reply : (r : HandleReq) → Nat → Serving → Option (HandleResp r)
| .create _, i, s =>
  match s.calls.answer? i with
  | some (.ok (.created p)) => some (.ok p)
  | some (.error e) => some (.error e)
  | _ => none
| .startTransferWorkflow _, j, s =>
  s.workflows[j]?.bind Prod.snd
| .record _ _ _, i, s =>
  match s.calls.answer? i with
  | some (.ok _) => some (.ok ())
  | some (.error e) => some (.error e)
  | none => none

/- Only handlers open the two transactions of a payment. -/
def Serving.step (s : Serving) : ServingAction → Option Serving
| .tx (.start (.create _ _)) => none
| .tx (.start (.record _ _ _)) => none
| .tx a =>
  (paymentStep s.calls a).map (fun calls =>
    { s with calls := calls })
| .temporal j r =>
  match s.workflows[j]? with
  | some (input, none) =>
    some { s with workflows := s.workflows.set j (input, some r) }
  | _ => none

def serving : Process.Backend Serving HandleReq HandleResp Env ServingAction where
  issue := Serving.issue
  reply := Serving.reply
  step := Serving.step

/- Any number of calls of `Handle` on one service. -/
abbrev Initiations :=
  Process.Config Serving InitiatePayment HandleReq HandleResp GoError InitiatePaymentResult

abbrev InitiationAction := Process.Action InitiatePayment Env ServingAction

def Initiations.start (db : Database) : Initiations := ⟨⟨PaymentCalls.start db, []⟩, []⟩

def initiationStep (temporal : Bool) (sys : Initiations)
    (a : InitiationAction) : Option Initiations := Process.step serving (handle temporal) sys a

/- The key of a transaction that creates a payment. -/
def PaymentTx.key : PaymentTx → Option String
| .create cmd _ => some cmd.idempotencyKey
| _ => none

/-
  When a handler opens the transaction that creates its payment, every such transaction opened
  before for the same key has failed and committed nothing.
-/
def Initiations.clear (sys : Initiations) : InitiationAction → Bool
| .issue h _ =>
  match sys.next? h with
  | some (.create cmd) =>
    sys.backend.calls.clear PaymentTx.key cmd.idempotencyKey
  | _ => true
| _ => true

end Fincore.Payment

----
-- What Was Created And Answered
----

namespace Fincore

/- The events among committed writes. -/
def eventsOf (ws : List Write) : List Event := (ws.filterMap Write.event?).map EventRow.event

/-
  At most one aggregate has been created, and whoever was answered was answered with its identifier.
-/
def CreatesOnce (created : List Event) (answered : List String) : Prop :=
  created.length ≤ 1 ∧ ∀ id ∈ answered, created.map Event.aggregateID = [id]

namespace Payment

/- The creating events committed for a key. -/
def Initiations.created (sys : Initiations) (k : String) : List Event :=
  eventsOf (sys.backend.calls.committedFor PaymentTx.key k)

/- What a call of `Handle` has answered for a key. -/
def answeredFor (k : String)
    (proc : Process.Proc InitiatePayment HandleReq HandleResp
        GoError InitiatePaymentResult) : Option String :=
  match proc.state with
  | .ready (.ret res) =>
    if proc.input.idempotencyKey = k then
      some res.paymentID
    else none
  | _ => none

/- The payments that successful calls have answered with. -/
def Initiations.answered (sys : Initiations) (k : String) : List String :=
  sys.procs.filterMap (answeredFor k)

end Payment

namespace Account

/- The key of a transaction that opens an account. -/
def AccountTx.key : AccountTx → Option String
| .openAccount _ idempotencyKey _ => some idempotencyKey
| .recordMovement _ _ _ _ => none

/- The creating events committed for a key. -/
def AccountCalls.created (cfg : AccountCalls) (k : String) : List Event :=
  eventsOf (cfg.committedFor AccountTx.key k)

def openedFor (k : String)
    (call : Engine.Call AccountTx Stmt Resp Write GoError AccountAnswer) : Option String :=
  match call with
  | ⟨.openAccount _ key _, .returned (.ok (.opened id))⟩ =>
    if key = k then some id else none
  | _ => none

/- The accounts that successful calls have answered with. -/
def AccountCalls.answered (cfg : AccountCalls) (k : String) : List String :=
  cfg.calls.filterMap (openedFor k)

/- An account is opened only when its key is clear. -/
def AccountCalls.clearKeys (cfg : AccountCalls)
    (a : Engine.Action AccountTx) : Bool := cfg.admits AccountTx.key a

end Account

----
-- What A Key Creates
----

/- A new aggregate commits one event. -/
theorem eventsOf_creation (cr : Outbox.Creation) {projection : Write}
    (hProjection : projection.event? = none) (sequence began : Nat) :
    eventsOf (cr.writes projection sequence began) = [cr.event] := by
  unfold eventsOf Outbox.Creation.writes
  have hEvent : Write.event? (.event ⟨sequence, cr.event⟩) = some ⟨sequence, cr.event⟩ := rfl
  rw [List.filterMap_cons_none rfl, List.filterMap_cons_some hEvent,
    List.filterMap_cons_none hProjection]
  rfl

namespace Payment

variable {cmd : InitiatePayment}

theorem PaymentTx.Commits.events_create {env : Env}
    {ws : List Write} {a : PaymentAnswer} (hCommits : (PaymentTx.create cmd env).Commits ws a) :
    eventsOf ws = [(cmd.creation env).event] ∧ a = .created (cmd.projection env) := by
  rcases hCommits with ⟨db, _, hAnswer, sequence, began, rfl⟩
  exact ⟨eventsOf_creation _ rfl _ _, hAnswer⟩

/- The transaction that created the payment has returned. -/
def AnswersFor (s : Serving) (cmd : InitiatePayment) (res : InitiatePaymentResult) : Prop :=
  ∃ i env projection, s.calls.Returned i (.create cmd env)
        (.ok (.created projection)) ∧ res.paymentID = projection.paymentID

/-
  A handler that has not been answered yet is where it began; after that it can only return the
  payment that was created for it.
-/
def Follows (temporal : Bool) (s : Serving) (cmd : InitiatePayment)
    (p : Prog HandleReq HandleResp GoError InitiatePaymentResult) : Prop :=
  p = handle temporal cmd ∨ p.Returns (AnswersFor s cmd)

/- The ticket of a creating transaction is its number. -/
def Ticketed (s : Serving) : HandleReq → Nat → Prop
| .create cmd, i =>
  ∃ env, s.calls.input? i = some (.create cmd env)
| _, _ => True

variable {s s' : Serving}

variable {ticket : Nat}

/- The transaction that is opened comes last. -/
theorem input?_open {c : PaymentTx}
    (hOpen : s.open c = some (ticket, s')) : s'.calls.input? ticket = some c := by
  rcases Option.map_eq_some_iff.mp hOpen with ⟨calls, hStep, hEq⟩
  cases hEq
  cases hStep
  simp [Engine.Config.input?]

/- Behind the handlers only calls without a key are made. -/
theorem calls_of_step {a : ServingAction}
    (hStep : s.step a = some s') : s'.calls = s.calls ∨ ∃ a, s.calls.admits PaymentTx.key a = true ∧
    paymentStep s.calls a = some s'.calls := by
  have hTx : ∀ a, s.calls.admits PaymentTx.key a = true →
        (paymentStep s.calls a).map (fun calls =>
            { s with calls := calls }) = some s' → ∃ a, s.calls.admits PaymentTx.key a = true ∧
            paymentStep s.calls a = some s'.calls := by
    intro a hAdmits hMap
    rcases Option.map_eq_some_iff.mp hMap with ⟨calls, hCalls, rfl⟩
    exact ⟨a, hAdmits, hCalls⟩
  cases a with
  | tx a =>
    right
    cases a with
    | start c =>
      cases c with
      | create cmd env => cases hStep
      | record paymentID workflowID runID => cases hStep
      | authorize paymentID key env =>
        exact hTx (.start (.authorize paymentID key env)) rfl hStep
      | settle paymentID key env =>
        exact hTx (.start (.settle paymentID key env)) rfl hStep
      | fail paymentID key reason env =>
        exact hTx (.start (.fail paymentID key reason env)) rfl hStep
    | exec i => exact hTx _ rfl hStep
    | finish i => exact hTx _ rfl hStep
    | unacked i => exact hTx _ rfl hStep
    | broke i => exact hTx _ rfl hStep
  | temporal j r =>
    simp only [Serving.step] at hStep
    split at hStep
    · cases hStep
      exact Or.inl rfl
    · cases hStep

variable {r : HandleReq}

theorem calls_of_issue {env : Env} (hIssue : s.issue env r = some (ticket, s')) :
    s'.calls = s.calls ∨ ∃ c, paymentStep s.calls (.start c) = some s'.calls ∧
    ∀ k, c.key = some k → ∃ cmd, r = .create cmd ∧ cmd.idempotencyKey = k := by
  have hOpen : ∀ c, s.open c = some (ticket, s') →
      paymentStep s.calls (.start c) = some s'.calls := by
    intro c hOpen
    rcases Option.map_eq_some_iff.mp hOpen with ⟨calls, hStep, hEq⟩
    cases hEq
    exact hStep
  cases r with
  | create cmd =>
    refine Or.inr ⟨.create cmd env, hOpen _ hIssue, ?_⟩
    intro k hKey
    exact ⟨cmd, rfl, Option.some.inj hKey⟩
  | startTransferWorkflow input =>
    cases hIssue
    exact Or.inl rfl
  | record paymentID workflowID runID =>
    refine Or.inr ⟨_, hOpen _ hIssue, ?_⟩
    intro k hKey
    cases hKey

theorem calls_of_grows (hGrows : serving.Grows s s') :
    s'.calls = s.calls ∨ ∃ a, paymentStep s.calls a = some s'.calls := by
  rcases hGrows with ⟨a, hStep⟩ | ⟨env, r, ticket, hIssue⟩
  · rcases calls_of_step hStep with hSame | ⟨a, _, hCalls⟩
    · exact Or.inl hSame
    · exact Or.inr ⟨a, hCalls⟩
  · rcases calls_of_issue hIssue with hSame | ⟨c, hCalls, _⟩
    · exact Or.inl hSame
    · exact Or.inr ⟨.start c, hCalls⟩

variable {temporal : Bool}

theorem Follows.grows {p : Prog HandleReq HandleResp GoError InitiatePaymentResult}
    (hGrows : serving.Grows s s') (hFollows : Follows temporal s cmd p) :
    Follows temporal s' cmd p := by
  rcases hFollows with hStart | hReturns
  · exact Or.inl hStart
  · right
    apply hReturns.mono
    rintro res ⟨i, env, projection, hReturned, hSame⟩
    refine ⟨i, env, projection, ?_, hSame⟩
    rcases calls_of_grows hGrows with hCalls | ⟨a, hStep⟩
    · rw [hCalls]
      exact hReturned
    · exact hReturned.step hStep

theorem Ticketed.grows
    (hGrows : serving.Grows s s') (hTicketed : Ticketed s r ticket) : Ticketed s' r ticket := by
  cases r with
  | create cmd =>
    rcases hTicketed with ⟨env, hInput⟩
    refine ⟨env, ?_⟩
    rcases calls_of_grows hGrows with hSame | ⟨a, hStep⟩
    · rw [hSame]
      exact hInput
    · exact Engine.input?_mono hStep hInput
  | startTransferWorkflow input => trivial
  | record paymentID workflowID runID => trivial

theorem handle_rest_returns (temporal : Bool) (cmd : InitiatePayment)
    (k : HandleResp (.create cmd) → Prog HandleReq HandleResp GoError InitiatePaymentResult)
    (hHandle : .ask (.create cmd) k = handle temporal cmd)
    (created : Except GoError PaymentProjection) :
    (k created).Returns (fun res =>
      ∃ p, created = .ok p ∧ res.paymentID = p.paymentID) := by
  unfold handle at hHandle
  cases hHandle
  cases created with
  | error e => trivial
  | ok p =>
    cases temporal with
    | false => exact ⟨p, rfl, rfl⟩
    | true =>
      intro started
      refine Prog.returns_bind (Prog.ofExcept started) ?_
      intro ids recorded
      refine Prog.returns_bind (Prog.ofExcept recorded) ?_
      intro _
      exact ⟨p, rfl, rfl⟩

theorem handle_protocol (temporal : Bool) : Process.Protocol serving (handle temporal)
    (fun _ => True) (Follows temporal) Ticketed := by
  refine ⟨?_, ?_, ?_, ?_, ?_⟩
  · intro s cmd
    exact Or.inl rfl
  · intro env r s ticket s' hIssue
    cases r with
    | create cmd => exact ⟨env, input?_open hIssue⟩
    | startTransferWorkflow input => trivial
    | record paymentID workflowID runID => trivial
  · intro s cmd r k ticket x _ hFollows hTicketed hReply
    rcases hFollows with hStart | hReturns
    · -- the first reply is about the creating transaction
      cases r with
      | create cmd' =>
        have hSame : cmd' = cmd := by
          unfold handle at hStart
          cases hStart
          rfl
        subst hSame
        rcases hTicketed with ⟨env, hInput⟩
        right
        apply (handle_rest_returns temporal cmd' k hStart x).mono
        rintro res ⟨p, rfl, hID⟩
        refine ⟨ticket, env, p, ?_, hID⟩
        apply Engine.Config.returned_of_answer? hInput
        have hReply : s.reply (.create cmd') ticket = some (.ok p) := hReply
        simp only [Serving.reply] at hReply
        split at hReply
        · rename_i p' hAnswer
          cases hReply
          exact hAnswer
        · cases hReply
        · cases hReply
      | startTransferWorkflow input =>
        unfold handle at hStart
        cases hStart
      | record paymentID workflowID runID =>
        unfold handle at hStart
        cases hStart
    · exact Or.inr (hReturns x)
  · intro s s' cmd p _ hGrows hFollows
    exact hFollows.grows hGrows
  · intro s s' r ticket _ hGrows hTicketed
    exact hTicketed.grows hGrows

/-
  The transactions behind the handlers keep to their keys, and the handlers to what was created for
  them.
-/
structure InitiationInv (temporal : Bool) (sys : Initiations) : Prop where
  once : Engine.KeyedOnce postgres PaymentTx.key PaymentTx.Commits sys.backend.calls
  follows : Process.Holds (Follows temporal) Ticketed sys

theorem initiationInv_step {sys sys' : Initiations}
    {a : InitiationAction} (hInv : InitiationInv temporal sys) (hClear : sys.clear a = true)
    (hStep : initiationStep temporal sys a = some sys') : InitiationInv temporal sys' := by
  refine ⟨?_, Process.holds_step (handle_protocol temporal) trivial hInv.follows hStep⟩
  -- a step of the calls that keeps to the keys
  have hCalls : ∀ {calls : PaymentCalls} {a : Engine.Action PaymentTx},
      sys.backend.calls.admits PaymentTx.key a = true →
      paymentStep sys.backend.calls a = some calls → Engine.KeyedOnce postgres PaymentTx.key
      PaymentTx.Commits calls := by
    intro calls a hAdmits hCallStep
    exact Engine.keyedOnce_step PaymentTx.commits_wp hInv.once hAdmits hCallStep
  cases Process.step_spec hStep with
  | called input => exact hInv.once
  | issued hProc hIssue =>
    rcases calls_of_issue hIssue with hSame | ⟨c, hCallStep, hKeyed⟩
    · dsimp only
      rw [hSame]
      exact hInv.once
    · refine hCalls (a := .start c) ?_ hCallStep
      simp only [Initiations.clear, Process.next?_eq hProc] at hClear
      show c.key.all (sys.backend.calls.clear PaymentTx.key) = true
      cases hKey : c.key with
      | none => rfl
      | some k =>
        rcases hKeyed k hKey with ⟨cmd, rfl, rfl⟩
        exact hClear
  | resumed hProc hReply => exact hInv.once
  | served hServe =>
    rcases calls_of_step hServe with hSame | ⟨a, hAdmits, hCallStep⟩
    · dsimp only
      rw [hSame]
      exact hInv.once
    · exact hCalls hAdmits hCallStep

theorem initiationInv_start (temporal : Bool) (db : Database) :
    InitiationInv temporal (Initiations.start db) :=
  ⟨Engine.keyedOnce_start _ _ db, Process.holds_start _⟩

variable {sys : Initiations}

theorem InitiationInv.answers (hInv : InitiationInv temporal sys) {k id : String}
    (hAnswered : id ∈ sys.answered k) : ∃ i cmd env projection,
    sys.backend.calls.Returned i (.create cmd env)
    (.ok (.created projection)) ∧ cmd.idempotencyKey = k ∧ projection.paymentID = id := by
  rcases List.mem_filterMap.mp hAnswered with ⟨proc, hProc, hFor⟩
  have hHolds := hInv.follows proc hProc
  unfold answeredFor at hFor
  split at hFor
  · rename_i res hState
    rw [hState] at hHolds
    split at hFor
    · rename_i hKey
      cases hFor
      rcases hHolds with hStart | hReturns
      · unfold handle at hStart
        cases hStart
      · rcases hReturns with ⟨i, env, projection, hReturned, hSame⟩
        exact ⟨i, _, env, projection, hReturned, hKey, hSame.symm⟩
    · cases hFor
  · cases hFor

theorem InitiationInv.createsOnce (hInv : InitiationInv temporal sys) (k : String) :
    CreatesOnce (sys.created k) (sys.answered k) := by
  refine ⟨?_, ?_⟩
  · unfold Initiations.created
    rcases hInv.once.committed k with hNone | ⟨c, a, hKey, hCommits⟩
    · rw [hNone]
      exact Nat.zero_le 1
    · cases c with
      | create cmd env =>
        rw [hCommits.events_create.1]
        exact Nat.le_refl 1
      | record paymentID workflowID runID => cases hKey
      | authorize paymentID key env => cases hKey
      | settle paymentID key env => cases hKey
      | fail paymentID key reason env => cases hKey
  · intro id hAnswered
    rcases hInv.answers hAnswered with ⟨i, cmd, env, projection, hReturned, hKey, rfl⟩
    have hCommits := hInv.once.answered i _ _ k hReturned (congrArg some hKey)
    rcases hCommits.events_create with ⟨hEvents, hSame⟩
    cases hSame
    unfold Initiations.created
    rw [hEvents]
    rfl

/- A key whose calls wait for each other pays once. -/
theorem initiations_create_once (temporal : Bool) (db : Database) {schedule : List InitiationAction}
    (hClear : Transition.Meets (initiationStep temporal)
    (fun sys a => sys.clear a = true) (Initiations.start db) schedule)
    (hRun : Transition.run (initiationStep temporal)
    (Initiations.start db) schedule = some sys) (k : String) :
    CreatesOnce (sys.created k) (sys.answered k) := by
  have hInv : InitiationInv temporal sys := by
    apply Transition.run_induction_of_meets _ _ hClear hRun
    · intro s a s' hInv hClear hStep
      exact initiationInv_step hInv hClear hStep
    · exact initiationInv_start temporal db
  exact hInv.createsOnce k

end Payment

end Fincore

----
-- What A Key Opens
----

namespace Fincore.Account

theorem AccountTx.Commits.events_open {customerID key : String} {env : Env}
    {ws : List Write} {a : AccountAnswer}
    (hCommits : (AccountTx.openAccount customerID key env).Commits ws a) :
    eventsOf ws = [(opening customerID env).event] ∧ a = .opened (env.newID 0) := by
  rcases hCommits with ⟨db, _, hAnswer, sequence, began, rfl⟩
  exact ⟨eventsOf_creation _ rfl _ _, hAnswer⟩

variable {cfg : AccountCalls}

theorem AccountCalls.answers {k id : String}
    (hAnswered : id ∈ AccountCalls.answered cfg k) : ∃ i customerID env,
    cfg.Returned i (.openAccount customerID k env) (.ok (.opened id)) := by
  rcases List.mem_filterMap.mp hAnswered with ⟨call, hCall, hFor⟩
  unfold openedFor at hFor
  split at hFor
  · rename_i customerID key env id'
    split at hFor
    · rename_i hKey
      cases hFor
      subst hKey
      rcases List.getElem?_of_mem hCall with ⟨i, hAt⟩
      exact ⟨i, customerID, env, hAt⟩
    · cases hFor
  · cases hFor

/- A key whose calls wait for each other opens once. -/
theorem openings_create_once (db : Database) {schedule : List (Engine.Action AccountTx)}
    (hClear : Transition.Meets accountStep (fun cfg a => AccountCalls.clearKeys cfg a = true)
    (AccountCalls.start db) schedule)
    (hRun : Transition.run accountStep (AccountCalls.start db) schedule = some cfg) (k : String) :
    CreatesOnce (AccountCalls.created cfg k) (AccountCalls.answered cfg k) := by
  have hInv : Engine.KeyedOnce postgres AccountTx.key AccountTx.Commits cfg := by
    apply Transition.run_induction_of_meets _ _ hClear hRun
    · intro s a s' hInv hClear hStep
      exact Engine.keyedOnce_step AccountTx.commits_wp hInv hClear hStep
    · exact Engine.keyedOnce_start _ _ db
  refine ⟨?_, ?_⟩
  · unfold AccountCalls.created
    rcases hInv.committed k with hNone | ⟨c, a, hKey, hCommits⟩
    · rw [hNone]
      exact Nat.zero_le 1
    · cases c with
      | openAccount customerID key env =>
        rw [hCommits.events_open.1]
        exact Nat.le_refl 1
      | recordMovement kind cmd entryID env => cases hKey
  · intro id hAnswered
    rcases AccountCalls.answers hAnswered with ⟨i, customerID, env, hReturned⟩
    have hCommits := hInv.answered i _ _ k hReturned rfl
    rcases hCommits.events_open with ⟨hEvents, hSame⟩
    cases hSame
    unfold AccountCalls.created
    rw [hEvents]
    rfl

end Fincore.Account

----
-- Once For Each Key
----

namespace Fincore

open Payment Account

/-
  If every call with a key is made only after the earlier ones with it have failed without
  committing, each key creates at most one payment and at most one account, and every call that
  succeeds answers with it.
-/
theorem creates_once_of_clear_keys (temporal : Bool)
    (payments accounts : Database) (initiations : List InitiationAction)
    (openings : List (Engine.Action AccountTx))
    (hInitiations : Transition.Meets (initiationStep temporal) (fun sys a => sys.clear a = true)
      (Initiations.start payments) initiations)
    (hOpenings : Transition.Meets accountStep (fun cfg a => AccountCalls.clearKeys cfg a = true)
      (AccountCalls.start accounts) openings) (sys : Initiations) (cfg : AccountCalls)
    (hPayments : Transition.run (initiationStep temporal)
      (Initiations.start payments) initiations = some sys)
    (hAccounts : Transition.run accountStep (AccountCalls.start accounts)
      openings = some cfg) (k : String) : CreatesOnce (sys.created k) (sys.answered k) ∧
      CreatesOnce (AccountCalls.created cfg k) (AccountCalls.answered cfg k) :=
  ⟨initiations_create_once temporal payments hInitiations hPayments k,
    openings_create_once accounts hOpenings hAccounts k⟩

/- One call of `Handle` without a workflow, to its end. -/
def initiateOnce (h i : Nat) (env : Env) : List InitiationAction :=
  [.call initiateRent, .issue h env, .serve (.tx (.exec i)), .serve (.tx (.exec i)),
    .serve (.tx (.exec i)), .serve (.tx (.finish i)), .resume h]

/- One call for a new account, to its end. -/
def openOnce (i : Nat) (env : Env) : List (Engine.Action AccountTx) :=
  [.start (.openAccount "customer" "open" env), .exec i, .exec i, .exec i, .finish i]

theorem one_call_creates_once : ∃ sys cfg, Transition.run (initiationStep false)
      (Initiations.start (Database.empty paymentMigrations))
      (initiateOnce 0 0 (.tagged "P")) = some sys ∧ Transition.run accountStep
      (AccountCalls.start (Database.empty accountMigrations))
      (openOnce 0 (.tagged "A")) = some cfg ∧ CreatesOnce (sys.created "pay") (sys.answered "pay") ∧
      CreatesOnce (AccountCalls.created cfg "pay") (AccountCalls.answered cfg "pay") := by
  refine ⟨_, _, rfl, rfl, ?_⟩
  exact creates_once_of_clear_keys false (Database.empty paymentMigrations)
    (Database.empty accountMigrations) (initiateOnce 0 0 (.tagged "P"))
    (openOnce 0 (.tagged "A")) (by decide) (by decide) _ _ rfl rfl "pay"

/- The same command twice, one call after the other: two payments, and two accounts. -/
theorem repeated_key_creates_twice : ∃ sys cfg, Transition.run (initiationStep false)
      (Initiations.start (Database.empty paymentMigrations))
      (initiateOnce 0 0 (.tagged "P") ++ initiateOnce 1 1 (.tagged "Q")) = some sys ∧
      Transition.run accountStep (AccountCalls.start (Database.empty accountMigrations))
      (openOnce 0 (.tagged "A") ++ openOnce 1 (.tagged "B")) = some cfg ∧
      (sys.created "pay").map Event.aggregateID = ["P-0", "Q-0"] ∧
      sys.answered "pay" = ["P-0", "Q-0"] ∧ (AccountCalls.created cfg "open").map
      Event.aggregateID = ["A-0", "B-0"] ∧
      AccountCalls.answered cfg "open" = ["A-0", "B-0"] := ⟨_, _, rfl, rfl, rfl, rfl, rfl, rfl⟩

end Fincore
