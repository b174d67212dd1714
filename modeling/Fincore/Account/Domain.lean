import Fincore.Pkg.Stores

/-
  `services/account-service/domain`: the account aggregate and its events.

  Key definitions include:
    * `DomainEvent` with `DomainEvent.marshal` and
      `unmarshalAccountEvent`
    * `Account`, `newAccount`, `Account.freeze` and
      `Account.close`
    * `rehydrate` and `rehydrateFromSnapshot`

  Main results:
    * `unmarshalAccountEvent_document`
-/

----
-- Events
----

namespace Fincore.Account

/- `domain.Status` is an open string type. -/
abbrev Status := String

def statusPending : Status := "PENDING"

def statusActive : Status := "ACTIVE"

def statusFrozen : Status := "FROZEN"

def statusClosed : Status := "CLOSED"

def errInvalidAmount : GoError := .text "invalid amount"

def errAccountNotActive : GoError := .text "account not active"

def errAccountClosed : GoError := .text "account closed"

def errCurrencyNotNGN : GoError := .text "currency must be NGN"

/- The five event structs of the domain. -/
inductive DomainEvent where
  | accountOpened (accountID customerID : String) (occurredAt : Time)
  | accountFrozen (accountID : String) (occurredAt : Time)
  | accountClosed (accountID : String) (occurredAt : Time)
  | moneyDeposited (accountID : String) (amount : Money) (entryID : String) (occurredAt : Time)
  | moneyWithdrawn (accountID : String) (amount : Money) (entryID : String) (occurredAt : Time)
  deriving DecidableEq

namespace DomainEvent

def eventType : DomainEvent → String
| .accountOpened _ _ _ => "account.opened.v1"
| .accountFrozen _ _ => "account.frozen.v1"
| .accountClosed _ _ => "account.closed.v1"
| .moneyDeposited _ _ _ _ => "account.money_deposited.v1"
| .moneyWithdrawn _ _ _ _ => "account.money_withdrawn.v1"

def occurredAtUTC : DomainEvent → Time
| .accountOpened _ _ occurredAt => occurredAt
| .accountFrozen _ occurredAt => occurredAt
| .accountClosed _ occurredAt => occurredAt
| .moneyDeposited _ _ _ occurredAt => occurredAt
| .moneyWithdrawn _ _ _ occurredAt => occurredAt

/- The members in front of `OccurredAt`. -/
def members : DomainEvent → List (String × Json)
| .accountOpened accountID customerID _ =>
  [("AccountID", .str accountID), ("CustomerID", .str customerID)]
| .accountFrozen accountID _ => [("AccountID", .str accountID)]
| .accountClosed accountID _ => [("AccountID", .str accountID)]
| .moneyDeposited accountID amount entryID _ =>
  [("AccountID", .str accountID), ("Amount", amount.marshal), ("EntryID", .str entryID)]
| .moneyWithdrawn accountID amount entryID _ =>
  [("AccountID", .str accountID), ("Amount", amount.marshal), ("EntryID", .str entryID)]

/- `json.Marshal`; the members carry the field names. -/
def marshal (e : DomainEvent) : Except String Json := do
  let occurredAt ← Json.ofTime e.occurredAtUTC
  return .obj (e.members ++ [("OccurredAt", occurredAt)])

/- The document of an event whose instant can be written. -/
def document (e : DomainEvent) : Json := .obj (e.members ++ [("OccurredAt", .time e.occurredAtUTC)])

theorem marshal_eq (e : DomainEvent) : e.marshal =
      if Json.TimeInRange e.occurredAtUTC then .ok e.document
      else .error Json.rangeError := by
  unfold marshal Json.ofTime
  split
  · rfl
  · rfl

/- The event with its money set to the zero value. -/
def withoutMoney : DomainEvent → DomainEvent
| .moneyDeposited accountID _ entryID occurredAt =>
  .moneyDeposited accountID .zero entryID occurredAt
| .moneyWithdrawn accountID _ entryID occurredAt =>
  .moneyWithdrawn accountID .zero entryID occurredAt
| e => e

end DomainEvent

/- `UnmarshalAccountEvent` -/
def unmarshalAccountEvent (typ : String) (data : Json) : Except GoError DomainEvent :=
  if typ = "account.opened.v1" then
    Except.mapError .text do
      let fields ← data.struct
      return .accountOpened (← Json.strField fields "AccountID")
        (← Json.strField fields "CustomerID") (← Json.timeField zeroTime fields "OccurredAt")
  else if typ = "account.frozen.v1" then
    Except.mapError .text do
      let fields ← data.struct
      return .accountFrozen (← Json.strField fields "AccountID")
        (← Json.timeField zeroTime fields "OccurredAt")
  else if typ = "account.closed.v1" then
    Except.mapError .text do
      let fields ← data.struct
      return .accountClosed (← Json.strField fields "AccountID")
        (← Json.timeField zeroTime fields "OccurredAt")
  else if typ = "account.money_deposited.v1" then
    Except.mapError .text do
      let fields ← data.struct
      return .moneyDeposited (← Json.strField fields "AccountID")
        (← Money.unmarshalField fields "Amount") (← Json.strField fields "EntryID")
        (← Json.timeField zeroTime fields "OccurredAt")
  else if typ = "account.money_withdrawn.v1" then
    Except.mapError .text do
      let fields ← data.struct
      return .moneyWithdrawn (← Json.strField fields "AccountID")
        (← Money.unmarshalField fields "Amount") (← Json.strField fields "EntryID")
        (← Json.timeField zeroTime fields "OccurredAt")
  else
    .error (.text ("unknown account event type: " ++ typ))

/- A stored event comes back without its money. -/
theorem unmarshalAccountEvent_document (e : DomainEvent) :
    unmarshalAccountEvent e.eventType e.document = .ok e.withoutMoney := by
  cases e <;> simp +decide [unmarshalAccountEvent, DomainEvent.eventType, DomainEvent.document,
      DomainEvent.members, DomainEvent.occurredAtUTC,
      DomainEvent.withoutMoney, Json.struct, Json.strField,
      Json.timeField, Json.lookup, Money.unmarshalField,
      Money.marshal, Json.emptyStructField, bind, Except.bind,
      Except.map, pure, Except.pure, Except.mapError]

end Fincore.Account

----
-- The Account Aggregate
----

namespace Fincore

/- `domain.Account` -/
structure Account where
  id : String
  customerID : String
  status : Account.Status
  version : Nat
  changes : List Account.DomainEvent

namespace Account

/- `&Account{}` -/
def zero : Account := ⟨"", "", "", 0, []⟩

/- `Account.apply`; money events are kept for the audit. -/
def apply (a : Account) : DomainEvent → Account
| .accountOpened accountID customerID _ =>
  { a with
    id := accountID
    customerID := customerID
    status := statusActive }
| .accountFrozen _ _ => { a with status := statusFrozen }
| .accountClosed _ _ => { a with status := statusClosed }
| .moneyDeposited _ _ _ _ => a
| .moneyWithdrawn _ _ _ _ => a

/- `Account.raise` -/
def raise (a : Account) (e : DomainEvent) : Account :=
  let a := { a with changes := a.changes ++ [e] }
  { a.apply e with version := a.version + 1 }

/- `NewAccount` -/
def newAccount (customerID : String) (env : Env) : Except GoError Account :=
  if customerID = "" then .error (.text "customer id required")
  else
    .ok (zero.raise (.accountOpened (env.newID 0) customerID env.now))

/- `Account.Freeze` -/
def freeze (a : Account) (env : Env) : Except GoError Account :=
  if a.status = statusClosed then .error errAccountClosed
  else if a.status ≠ statusActive then
    .error errAccountNotActive
  else .ok (a.raise (.accountFrozen a.id env.now))

/- `Account.Close` -/
def close (a : Account) (env : Env) : Except GoError Account :=
  if a.status = statusClosed then .ok a
  else if a.status ≠ statusActive then
    .error errAccountNotActive
  else .ok (a.raise (.accountClosed a.id env.now))

/- `ValidateNGNAmountPositive` -/
def validateNGNAmountPositive (amt : Money) : Except GoError Unit :=
  amt.check errCurrencyNotNGN errInvalidAmount

/- One event of the loop that rebuilds an account. -/
def replay (a : Account) (e : DomainEvent) : Account :=
  { a.apply e with version := a.version + 1 }

/- `Rehydrate` -/
def rehydrate (events : List DomainEvent) : Account := events.foldl replay zero

/- `domain.Snapshot` -/
structure State where
  accountID : String
  customerID : String
  status : Status
  version : Nat

/- `Account.Snapshot` -/
def snapshot (a : Account) : State := ⟨a.id, a.customerID, a.status, a.version⟩

/- `RehydrateFromSnapshot` -/
def rehydrateFromSnapshot (s : State) (events : List DomainEvent) : Account :=
  events.foldl replay ⟨s.accountID, s.customerID, s.status, s.version, []⟩

def State.marshal (s : State) : Json :=
  .obj
    [("AccountID", .str s.accountID), ("CustomerID", .str s.customerID),
      ("Status", .str s.status), ("Version", .num s.version)]

def State.unmarshal (doc : Json) : Except String State := do
  let fields ← doc.struct
  return {
    accountID := ← Json.strField fields "AccountID"
    customerID := ← Json.strField fields "CustomerID"
    status := ← Json.strField fields "Status"
    version := ← Json.natField fields "Version" }

/- A snapshot comes back as it was stored. -/
theorem State.unmarshal_marshal (s : State) : State.unmarshal s.marshal = .ok s := by
  simp +decide [State.unmarshal, State.marshal, Json.struct,
    Json.strField, Json.natField, Json.lookup, bind, Except.bind, pure, Except.pure]

end Account

end Fincore
