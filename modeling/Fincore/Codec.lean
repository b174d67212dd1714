import Fincore.Account.Domain
import Fincore.Ledger.Domain
import Fincore.Payment.Domain

/-
  The events of the three services, through the event store and back.

  `Money` has no exported field: it is written as an empty object and read as its zero value. Every
  other field of every event comes back as it was.

  Key definitions include:
    * `StoredEvent`
    * `StoredEvent.roundTrip`
    * `StoredEvent.Admitted`

  Main results:
    * `StoredEvent.roundTrip_eq`
    * `stored_event_decodes_iff`
-/

----
-- Stored Events
----

namespace Fincore

/- An event of one of the event-sourced services. -/
inductive StoredEvent where
  | payment (e : Payment.DomainEvent)
  | account (e : Account.DomainEvent)
  | ledger (e : Ledger.EntryPosted)
  deriving DecidableEq

namespace StoredEvent

def eventType : StoredEvent → String
| .payment e => e.eventType
| .account e => e.eventType
| .ledger _ => Ledger.EntryPosted.eventType

def occurredAt : StoredEvent → Time
| .payment e => e.occurredAtUTC
| .account e => e.occurredAtUTC
| .ledger e => e.occurredAt

/- `json.Marshal` -/
def marshal : StoredEvent → Except String Json
| .payment e => e.marshal
| .account e => e.marshal
| .ledger e => e.marshal

/- Which service's decoder reads an event. -/
inductive Reader where
  | payment
  | account
  | ledger

def reader : StoredEvent → Reader
| .payment _ => .payment
| .account _ => .account
| .ledger _ => .ledger

/-
  `UnmarshalPaymentEvent`, `UnmarshalAccountEvent`, and what the ledger's worker does with an event;
  it skips events of another type.
-/
def decode (typ : String) (doc : Json) : Reader → Except GoError (Option StoredEvent)
| .payment =>
  (Payment.unmarshalPaymentEvent typ doc).map (fun e => some (.payment e))
| .account =>
  (Account.unmarshalAccountEvent typ doc).map (fun e => some (.account e))
| .ledger =>
  if typ ≠ "ledger.entry_posted.v1" then .ok none
  else
    ((Ledger.EntryPosted.unmarshal doc).map (fun e => some (.ledger e))).mapError .text

/- Encode an event and decode it under its type. -/
def roundTrip (e : StoredEvent) : Except GoError (Option StoredEvent) := do
  let doc ← e.marshal.mapError .text
  decode e.eventType doc e.reader

/- The money an event carries, if it has such a field. -/
def money : StoredEvent → Option Money
| .payment (.paymentInitiated ev) => some ev.amount
| .account (.moneyDeposited _ amount _ _) => some amount
| .account (.moneyWithdrawn _ amount _ _) => some amount
| _ => none

/- The amounts the domain constructors let through. -/
def Admitted (e : StoredEvent) : Prop := ∀ m, e.money = some m → m.PositiveNGN

/- The event with its money set to the zero value. -/
def withoutMoney : StoredEvent → StoredEvent
| .payment e => .payment e.withoutMoney
| .account e => .account e.withoutMoney
| .ledger e => .ledger e

----
-- Round Trips
----

/- The document of an event whose instant can be written. -/
def document : StoredEvent → Json
| .payment e => e.document
| .account e => e.document
| .ledger e => e.document

variable (e : StoredEvent)

theorem marshal_eq : e.marshal =
      if Json.TimeInRange e.occurredAt then .ok e.document
      else .error Json.rangeError := by
  cases e with
  | payment e => exact e.marshal_eq
  | account e => exact e.marshal_eq
  | ledger e => exact e.marshal_eq

theorem decode_document : decode e.eventType e.document e.reader = .ok (some e.withoutMoney) := by
  cases e with
  | payment e =>
    show (Payment.unmarshalPaymentEvent e.eventType e.document).map _ = _
    rw [Payment.unmarshalPaymentEvent_document]
    rfl
  | account e =>
    show (Account.unmarshalAccountEvent e.eventType e.document).map _ = _
    rw [Account.unmarshalAccountEvent_document]
    rfl
  | ledger e =>
    have hDecoded := Ledger.EntryPosted.unmarshal_document e
    show (((Ledger.EntryPosted.unmarshal e.document).map _).mapError _) = _
    rw [hDecoded]
    rfl

/- What comes back from the store. -/
theorem roundTrip_eq : e.roundTrip =
      if Json.TimeInRange e.occurredAt then
        .ok (some e.withoutMoney)
      else .error (.text Json.rangeError) := by
  unfold roundTrip
  rw [marshal_eq]
  by_cases hRange : Json.TimeInRange e.occurredAt
  · rw [if_pos hRange, if_pos hRange]
    exact e.decode_document
  · rw [if_neg hRange, if_neg hRange]
    rfl

theorem ne_zero_of_positiveNGN {m : Money} (hAmount : m.PositiveNGN) : Money.zero ≠ m := by
  rintro rfl
  exact absurd hAmount.positive (by decide)

theorem withoutMoney_eq_iff {e : StoredEvent} (hAdmitted : e.Admitted) :
    e.withoutMoney = e ↔ e.money = none := by
  have hLost : ∀ m, e.money = some m → Money.zero ≠ m :=
    fun m hMoney =>
      ne_zero_of_positiveNGN (hAdmitted m hMoney)
  cases e with
  | ledger e => exact iff_of_true rfl rfl
  | payment e =>
    cases e with
    | paymentInitiated ev =>
      refine iff_of_false ?_ (Option.some_ne_none _)
      intro hSame
      injection hSame with hEvent
      injection hEvent with hFields
      exact hLost _ rfl (congrArg Payment.PaymentInitiated.amount hFields)
    | _ => exact iff_of_true rfl rfl
  | account e =>
    cases e with
    | moneyDeposited accountID amount entryID occurredAt =>
      refine iff_of_false ?_ (Option.some_ne_none _)
      intro hSame
      injection hSame with hEvent
      injection hEvent with _ hAmount
      exact hLost _ rfl hAmount
    | moneyWithdrawn accountID amount entryID occurredAt =>
      refine iff_of_false ?_ (Option.some_ne_none _)
      intro hSame
      injection hSame with hEvent
      injection hEvent with _ hAmount
      exact hLost _ rfl hAmount
    | _ => exact iff_of_true rfl rfl

end StoredEvent

/-
  An event that the domain constructors admit decodes to itself exactly if it carries no money and
  its instant can be written.
-/
theorem stored_event_decodes_iff (e : StoredEvent) (hAdmitted : e.Admitted) :
    e.roundTrip = .ok (some e) ↔ e.money = none ∧ Json.TimeInRange e.occurredAt := by
  rw [e.roundTrip_eq, ← StoredEvent.withoutMoney_eq_iff hAdmitted]
  by_cases hRange : Json.TimeInRange e.occurredAt
  · rw [if_pos hRange]
    constructor
    · intro hSame
      injection hSame with hSome
      exact ⟨Option.some.inj hSome, hRange⟩
    · rintro ⟨hSame, _⟩
      rw [hSame]
  · rw [if_neg hRange]
    constructor
    · intro hSame
      cases hSame
    · rintro ⟨_, hIn⟩
      exact absurd hIn hRange

/- An entry of the ledger. -/
def depositPosted : StoredEvent := .ledger ⟨"e", "acc", Ledger.entryTypeDeposit, 100, NGN, "", 0⟩

theorem deposit_posted_decodes : depositPosted.Admitted ∧
      depositPosted.roundTrip = .ok (some depositPosted) := by
  have hAdmitted : depositPosted.Admitted := by
    intro m hMoney
    cases hMoney
  refine ⟨hAdmitted, ?_⟩
  refine (stored_event_decodes_iff _ hAdmitted).mpr ?_
  exact ⟨rfl, by decide⟩

/- A payment of 100 kobo, and what is read of it. -/
def initiatedWith (amount : Money) : StoredEvent :=
  .payment (.paymentInitiated ⟨"p", "a", "b", amount, "rent", 0⟩)

theorem initiated_payment_loses_money : (initiatedWith ⟨100, NGN⟩).Admitted ∧
      (initiatedWith ⟨100, NGN⟩).roundTrip = .ok (some (initiatedWith ⟨0, ""⟩)) ∧
      initiatedWith ⟨0, ""⟩ ≠ initiatedWith ⟨100, NGN⟩ := by
  refine ⟨?_, rfl, by decide⟩
  intro m hMoney
  cases hMoney
  exact ⟨rfl, by decide⟩

end Fincore
