import Fincore.Pkg.Stores

/-
  `services/payment-service/domain`: the payment aggregate and its events.

  Key definitions include:
    * `DomainEvent` with `DomainEvent.marshal` and
      `unmarshalPaymentEvent`
    * `Payment`, `newPayment`, `Payment.authorize`,
      `Payment.settle` and `Payment.fail`

  Main results:
    * `unmarshalPaymentEvent_document`
-/

----
-- Events
----

namespace Fincore

/- `domain.Status`. A payment without events has the empty status. -/
inductive Payment.Status where
  | unset
  | initiated
  | authorized
  | settled
  | failed
  deriving DecidableEq

namespace Payment

def Status.text : Status → String
| .unset => ""
| .initiated => "initiated"
| .authorized => "authorized"
| .settled => "settled"
| .failed => "failed"

theorem Status.text_injective : Function.Injective Status.text := by
  intro s s' hText
  cases s <;> cases s' <;> first | rfl | exact absurd hText (by decide)

def eventPaymentInitiated : String := "payment.initiated.v1"

def eventPaymentAuthorized : String := "payment.authorized.v1"

def eventPaymentSettled : String := "payment.settled.v1"

def eventPaymentFailed : String := "payment.failed.v1"

/- `domain.PaymentInitiated` -/
structure PaymentInitiated where
  paymentID : String
  fromAccountID : String
  toAccountID : String
  amount : Money
  narration : String
  occurredAt : Time
  deriving DecidableEq

/- The four event structs of the domain. -/
inductive DomainEvent where
  | paymentInitiated (ev : PaymentInitiated)
  | paymentAuthorized (paymentID : String) (occurredAt : Time)
  | paymentSettled (paymentID : String) (occurredAt : Time)
  | paymentFailed (paymentID reason : String) (occurredAt : Time)
  deriving DecidableEq

namespace DomainEvent

def eventType : DomainEvent → String
| .paymentInitiated _ => eventPaymentInitiated
| .paymentAuthorized _ _ => eventPaymentAuthorized
| .paymentSettled _ _ => eventPaymentSettled
| .paymentFailed _ _ _ => eventPaymentFailed

def occurredAtUTC : DomainEvent → Time
| .paymentInitiated ev => ev.occurredAt
| .paymentAuthorized _ occurredAt => occurredAt
| .paymentSettled _ occurredAt => occurredAt
| .paymentFailed _ _ occurredAt => occurredAt

/- The members in front of `occurred_at`. -/
def members : DomainEvent → List (String × Json)
| .paymentInitiated ev =>
  [("payment_id", .str ev.paymentID), ("from_account_id", .str ev.fromAccountID),
    ("to_account_id", .str ev.toAccountID), ("amount", ev.amount.marshal),
    ("narration", .str ev.narration)]
| .paymentAuthorized paymentID _ =>
  [("payment_id", .str paymentID)]
| .paymentSettled paymentID _ =>
  [("payment_id", .str paymentID)]
| .paymentFailed paymentID reason _ =>
  [("payment_id", .str paymentID), ("reason", .str reason)]

/- `json.Marshal`; the members carry the json tags. -/
def marshal (e : DomainEvent) : Except String Json := do
  let occurredAt ← Json.ofTime e.occurredAtUTC
  return .obj (e.members ++ [("occurred_at", occurredAt)])

/- The document of an event whose instant can be written. -/
def document (e : DomainEvent) : Json :=
  .obj (e.members ++ [("occurred_at", .time e.occurredAtUTC)])

theorem marshal_eq (e : DomainEvent) : e.marshal =
      if Json.TimeInRange e.occurredAtUTC then .ok e.document
      else .error Json.rangeError := by
  unfold marshal Json.ofTime
  split
  · rfl
  · rfl

/- The event with its money set to the zero value. -/
def withoutMoney : DomainEvent → DomainEvent
| .paymentInitiated ev =>
  .paymentInitiated { ev with amount := .zero }
| e => e

end DomainEvent

/- `json.Unmarshal` into a `PaymentInitiated` -/
def PaymentInitiated.unmarshal (data : Json) : Except String PaymentInitiated := do
  let fields ← data.struct
  return {
    paymentID := ← Json.strField fields "payment_id"
    fromAccountID := ← Json.strField fields "from_account_id"
    toAccountID := ← Json.strField fields "to_account_id"
    amount := ← Money.unmarshalField fields "amount"
    narration := ← Json.strField fields "narration"
    occurredAt := ← Json.timeField zeroTime fields "occurred_at" }

/- `UnmarshalPaymentEvent` -/
def unmarshalPaymentEvent (typ : String) (data : Json) : Except GoError DomainEvent :=
  if typ = eventPaymentInitiated then
    Except.mapError .text ((PaymentInitiated.unmarshal data).map .paymentInitiated)
  else if typ = eventPaymentAuthorized then
    Except.mapError .text do
      let fields ← data.struct
      return .paymentAuthorized (← Json.strField fields "payment_id")
        (← Json.timeField zeroTime fields "occurred_at")
  else if typ = eventPaymentSettled then
    Except.mapError .text do
      let fields ← data.struct
      return .paymentSettled (← Json.strField fields "payment_id")
        (← Json.timeField zeroTime fields "occurred_at")
  else if typ = eventPaymentFailed then
    Except.mapError .text do
      let fields ← data.struct
      return .paymentFailed (← Json.strField fields "payment_id") (← Json.strField fields "reason")
        (← Json.timeField zeroTime fields "occurred_at")
  else .error (.text "unknown event type")

/- A stored event comes back without its money. -/
theorem unmarshalPaymentEvent_document (e : DomainEvent) :
    unmarshalPaymentEvent e.eventType e.document = .ok e.withoutMoney := by
  cases e <;> simp +decide [unmarshalPaymentEvent,
      PaymentInitiated.unmarshal, eventPaymentInitiated,
      eventPaymentAuthorized, eventPaymentSettled, eventPaymentFailed, DomainEvent.eventType,
      DomainEvent.document, DomainEvent.members,
      DomainEvent.occurredAtUTC, DomainEvent.withoutMoney,
      Json.struct, Json.strField, Json.timeField, Json.lookup, Money.unmarshalField, Money.marshal,
      Json.emptyStructField, bind, Except.bind, Except.map, pure, Except.pure, Except.mapError]

end Payment

----
-- The Payment Aggregate
----

/- `domain.Payment` -/
structure Payment where
  id : String
  fromAccountID : String
  toAccountID : String
  amount : Money
  narration : String
  status : Payment.Status
  version : Nat
  changes : List Payment.DomainEvent

namespace Payment

/- `&Payment{}` -/
def zero : Payment := ⟨"", "", "", Money.zero, "", .unset, 0, []⟩

/- `Payment.Apply`, which counts the version itself -/
def apply (p : Payment) : DomainEvent → Payment
| .paymentInitiated ev =>
  { p with
    id := ev.paymentID
    fromAccountID := ev.fromAccountID
    toAccountID := ev.toAccountID
    amount := ev.amount
    narration := ev.narration
    status := .initiated
    version := p.version + 1 }
| .paymentAuthorized _ _ =>
  { p with
    status := .authorized
    version := p.version + 1 }
| .paymentSettled _ _ =>
  { p with
    status := .settled
    version := p.version + 1 }
| .paymentFailed _ _ _ =>
  { p with
    status := .failed
    version := p.version + 1 }

/- `Payment.raise` -/
def raise (p : Payment) (e : DomainEvent) : Payment :=
  let p := p.apply e
  { p with changes := p.changes ++ [e] }

/- `validateAmount` -/
def validateAmount (m : Money) : Except GoError Unit :=
  m.check (.text "unsupported currency") (.text "amount must be positive")

/- `NewPayment` -/
def newPayment (fromAccountID toAccountID : String) (amount : Money)
    (narration : String) (env : Env) : Except GoError Payment :=
  if trimSpace fromAccountID = "" then
    .error (.text "from_account_id required")
  else if trimSpace toAccountID = "" then
    .error (.text "to_account_id required")
  else if fromAccountID = toAccountID then
    .error (.text "from_account_id and to_account_id must differ")
  else do
    validateAmount amount
    let p : Payment :=
      ⟨env.newID 0, fromAccountID, toAccountID, amount, narration, .initiated, 0, []⟩
    return p.raise (.paymentInitiated {
      paymentID := p.id
      fromAccountID := fromAccountID
      toAccountID := toAccountID
      amount := amount
      narration := narration
      occurredAt := env.now })

/- `Payment.Authorize` -/
def authorize (p : Payment) (env : Env) : Except GoError Payment :=
  if p.status ≠ .initiated then
    .error (.text "payment not in initiated state")
  else .ok (p.raise (.paymentAuthorized p.id env.now))

/- `Payment.Settle` -/
def settle (p : Payment) (env : Env) : Except GoError Payment :=
  if p.status ≠ .authorized then
    .error (.text "payment not in authorized state")
  else .ok (p.raise (.paymentSettled p.id env.now))

/- `Payment.Fail` -/
def fail (p : Payment) (reason : String) (env : Env) : Except GoError Payment :=
  if p.status = .settled then
    .error (.text "cannot fail a settled payment")
  else
    let reason := trimSpace reason
    let reason := if reason = "" then "failed" else reason
    .ok (p.raise (.paymentFailed p.id reason env.now))

end Payment

end Fincore
