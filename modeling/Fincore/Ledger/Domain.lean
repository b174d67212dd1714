import Fincore.Pkg.Stores

/-
  `services/ledger-service/domain`: the entry aggregate and its one event.

  Key definitions include:
    * `EntryPosted` with `EntryPosted.marshal` and
      `EntryPosted.unmarshal`
    * `Entry`
    * `newEntry`

  Main results:
    * `EntryPosted.marshal_eq`
    * `EntryPosted.unmarshal_document`
    * `validateAmount_eq_ok`
-/

----
-- Events
----

namespace Fincore.Ledger

/- `domain.EntryType` is an open string type. -/
abbrev EntryType := String

def entryTypeDeposit : EntryType := "DEPOSIT"

def entryTypeWithdrawal : EntryType := "WITHDRAWAL"

def errInvalidAmount : GoError := .text "invalid amount"

def errCurrencyNotNGN : GoError := .text "currency must be NGN"

def errInsufficientFunds : GoError := .text "insufficient funds"

/- `domain.EntryPosted` -/
structure EntryPosted where
  entryID : String
  accountID : String
  entryType : EntryType
  amountKobo : Int64
  currency : String
  narration : String
  occurredAt : Time
  deriving DecidableEq

namespace EntryPosted

def eventType : String := "ledger.entry_posted.v1"

/- `json.Marshal`; the members carry the field names. -/
def marshal (e : EntryPosted) : Except String Json := do
  let occurredAt ← Json.ofTime e.occurredAt
  return .obj
    [("EntryID", .str e.entryID), ("AccountID", .str e.accountID),
      ("EntryType", .str e.entryType), ("AmountKobo", .num e.amountKobo.toInt),
      ("Currency", .str e.currency), ("Narration", .str e.narration), ("OccurredAt", occurredAt)]

/- The document of an entry whose instant can be written. -/
def document (e : EntryPosted) : Json :=
  .obj
    [("EntryID", .str e.entryID), ("AccountID", .str e.accountID),
      ("EntryType", .str e.entryType), ("AmountKobo", .num e.amountKobo.toInt),
      ("Currency", .str e.currency), ("Narration", .str e.narration),
      ("OccurredAt", .time e.occurredAt)]

/- `json.Unmarshal` into an `EntryPosted` -/
def unmarshal (doc : Json) : Except String EntryPosted := do
  let fields ← doc.struct
  return {
    entryID := ← Json.strField fields "EntryID"
    accountID := ← Json.strField fields "AccountID"
    entryType := ← Json.strField fields "EntryType"
    amountKobo := ← Json.intField fields "AmountKobo"
    currency := ← Json.strField fields "Currency"
    narration := ← Json.strField fields "Narration"
    occurredAt := ← Json.timeField zeroTime fields "OccurredAt" }

/- What the event adds to its account's balance. -/
def delta (e : EntryPosted) : Int64 :=
  if e.entryType = entryTypeWithdrawal then -e.amountKobo
  else e.amountKobo

theorem marshal_eq (e : EntryPosted) : e.marshal =
      if Json.TimeInRange e.occurredAt then .ok e.document
      else .error Json.rangeError := by
  unfold marshal Json.ofTime
  split
  · rfl
  · rfl

/- A stored entry decodes to the entry that was encoded. -/
theorem unmarshal_document (e : EntryPosted) : unmarshal e.document = .ok e := by
  simp +decide [unmarshal, document, Json.struct, Json.strField, Json.intField, Json.timeField,
    Json.lookup, bind, Except.bind]
  rfl

end EntryPosted

----
-- The Entry Aggregate
----

/- `domain.Entry` -/
structure Entry where
  id : String
  accountID : String
  entryType : EntryType
  amount : Money
  narration : String
  occurredAtUTC : Time
  version : Nat
  changes : List EntryPosted

/- `&Entry{}` -/
def Entry.zero : Entry := ⟨"", "", "", Money.zero, "", zeroTime, 0, []⟩

/- `Entry.apply` -/
def Entry.apply (e : Entry) (ev : EntryPosted) : Entry :=
  { e with
    id := ev.entryID
    accountID := ev.accountID
    entryType := ev.entryType
    amount := ⟨ev.amountKobo, ev.currency⟩
    narration := ev.narration
    occurredAtUTC := ev.occurredAt }

/- `Entry.raise` -/
def Entry.raise (e : Entry) (ev : EntryPosted) : Entry :=
  let e := { e with changes := e.changes ++ [ev] }
  { e.apply ev with version := e.version + 1 }

/- `validateAmount`, and `validateMoney` of the handler -/
def validateAmount (amt : Money) : Except GoError Unit :=
  amt.check errCurrencyNotNGN errInvalidAmount

/- `NewEntry`; the first identifier becomes the entry's. -/
def newEntry (accountID : String) (typ : EntryType) (amt : Money)
    (narration : String) (occurredAtUTC : Time) (env : Env) : Except GoError Entry :=
  if accountID = "" then .error (.text "account id required")
  else do
    validateAmount amt
    let occurredAtUTC :=
      if occurredAtUTC = zeroTime then env.now
      else occurredAtUTC
    return Entry.zero.raise {
      entryID := env.newID 0
      accountID := accountID
      entryType := typ
      amountKobo := amt.amountKobo
      currency := amt.currency
      narration := narration
      occurredAt := occurredAtUTC }

theorem validateAmount_eq_ok {amt : Money} :
    validateAmount amt = .ok () ↔ amt.PositiveNGN := Money.check_eq_ok

end Fincore.Ledger
