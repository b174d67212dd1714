import Fincore.Lib.Json
import Mathlib.Data.List.DropRight

/-
  Values shared by the services: identifiers and text, errors, time, and `pkg/money`.

  Key definitions include:
    * `trimSpace`
    * `GoError`
    * `Env`
    * `Money` and `Money.check`
-/

----
-- Text And Time
----

namespace Fincore

/- `unicode.IsSpace` -/
def isSpace (c : Char) : Bool :=
  c.toNat ∈
    [0x09, 0x0a, 0x0b, 0x0c, 0x0d, 0x20, 0x85, 0xa0, 0x1680,
      0x2000, 0x2001, 0x2002, 0x2003, 0x2004, 0x2005,
      0x2006, 0x2007, 0x2008, 0x2009, 0x200a, 0x2028, 0x2029, 0x202f, 0x205f, 0x3000]

/- `strings.TrimSpace` -/
def trimSpace (s : String) : String :=
  String.ofList (((s.toList.dropWhile isSpace).reverse.dropWhile isSpace).reverse)

@[simp] theorem trimSpace_trimSpace (s : String) : trimSpace (trimSpace s) = trimSpace s := by
  have hTrim : ∀ s : String, (trimSpace s).toList =
      (s.toList.dropWhile isSpace).rdropWhile isSpace := by
    intro s
    unfold trimSpace
    rw [String.toList_ofList, List.rdropWhile]
  -- the first character that is left is no space
  have hHead : ((s.toList.dropWhile isSpace).rdropWhile isSpace).dropWhile isSpace =
      (s.toList.dropWhile isSpace).rdropWhile isSpace := by
    rw [List.dropWhile_eq_self_iff]
    intro hLength
    rw [List.IsPrefix.getElem (List.rdropWhile_prefix ..)]
    exact List.dropWhile_eq_self_iff.mp (List.dropWhile_idempotent _ _) _
  rw [← String.toList_inj, hTrim, hTrim, hHead]
  exact List.rdropWhile_idempotent _ _

/- What is left of a text that is not all spaces. -/
theorem trimSpace_ne_empty {s : String} {c : Char} (hMem : c ∈ s.toList)
    (hChar : isSpace c = false) : trimSpace s ≠ "" := by
  intro hEmpty
  have hNil : ((s.toList.dropWhile isSpace).reverse.dropWhile isSpace).reverse = [] := by
    have hList := congrArg String.toList hEmpty
    unfold trimSpace at hList
    rwa [String.toList_ofList] at hList
  have hSpaces := List.dropWhile_eq_nil_iff.mp (List.reverse_eq_nil_iff.mp hNil)
  have hNone : s.toList.dropWhile isSpace = [] := by
    rw [← List.dropWhile_idempotent]
    exact List.dropWhile_eq_nil_iff.mpr (fun x hIn => hSpaces x (List.mem_reverse.mpr hIn))
  have hSpace := List.dropWhile_eq_nil_iff.mp hNone c hMem
  rw [hChar] at hSpace
  cases hSpace

/- An instant, in nanoseconds since the Unix epoch. -/
abbrev Time := Int

/- The zero `time.Time`, January 1 of the year 1. -/
def zeroTime : Time := -62135596800 * 1000000000

/-
  What a handler takes from its process: the clock, and the identifiers `ids.New` hands out, in call
  order.
-/
structure Env where
  now : Time
  newID : Nat → String

/- A process at the epoch whose identifiers carry a tag. -/
def Env.tagged (tag : String) : Env where
  now := 0
  newID
    | 0 => tag ++ "-0"
    | 1 => tag ++ "-1"
    | _ => tag ++ "-2"

----
-- Errors
----

/- Errors the database reports. -/
inductive PgError where
  | undefinedColumn (table column : String)
  | uniqueViolation (constraint : String)
  | outOfRange
  | connection
  deriving DecidableEq

/-
  Go errors: a plain text, a database error, an error wrapped by `fmt.Errorf` with `%w`, and the
  status error that a gRPC client makes of the server's error.
-/
inductive GoError where
  | text (msg : String)
  | pg (e : PgError)
  | wrap (context : String) (inner : GoError)
  | rpc (inner : GoError)
  deriving DecidableEq

def PgError.message : PgError → String
| .undefinedColumn table column =>
  "ERROR: column " ++ column ++ " of relation " ++ table ++ " does not exist (SQLSTATE 42703)"
| .uniqueViolation constraint =>
  "ERROR: duplicate key value violates unique constraint " ++ constraint ++ " (SQLSTATE 23505)"
| .outOfRange => "ERROR: bigint out of range (SQLSTATE 22003)"
| .connection => "conn closed"

/- The text of an error, as `%v` prints it. -/
def GoError.message : GoError → String
| .text msg => msg
| .pg e => e.message
| .wrap context inner => context ++ ": " ++ inner.message
| .rpc inner =>
  "rpc error: code = Unknown desc = " ++ inner.message

----
-- Money
----

/- `money.NGN` -/
def NGN : String := "NGN"

/- `money.Money`; both fields are unexported. -/
structure Money where
  amountKobo : Int64
  currency : String
  deriving DecidableEq

namespace Money

/- `money.New` -/
def new (amountKobo : Int64) (currency : String) : Except GoError Money :=
  if currency = "" then .error (.text "currency required")
  else .ok ⟨amountKobo, currency⟩

def isNegativeOrZero (m : Money) : Bool := m.amountKobo ≤ 0

/- `Money{}` -/
def zero : Money := ⟨0, ""⟩

/- `json.Marshal`: no field is exported, none is written. -/
def marshal (_ : Money) : Json := .obj []

/-
  A money member decoded into a fresh struct. No field is exported, so whatever the document holds
  there leaves the zero value.
-/
def unmarshalField (fields : List (String × Json)) (name : String) : Except String Money :=
  (Json.emptyStructField fields name).map (fun _ => zero)

end Money

/- A positive amount in naira. -/
structure Money.PositiveNGN (m : Money) : Prop where
  currency : m.currency = NGN
  positive : 0 < m.amountKobo.toInt

theorem Money.PositiveNGN.not_isNegativeOrZero {m : Money}
    (hAmount : m.PositiveNGN) : m.isNegativeOrZero = false := by
  have hLt : (0 : Int64) < m.amountKobo := by
    rw [Int64.lt_iff_toInt_lt]
    simpa using hAmount.positive
  simpa [isNegativeOrZero, Int64.not_le] using hLt

/- The two checks on an amount leave exactly these. -/
theorem Money.positiveNGN_iff {m : Money} : m.PositiveNGN ↔
    m.currency = NGN ∧ m.isNegativeOrZero = false := by
  constructor
  · intro hAmount
    exact ⟨hAmount.currency, hAmount.not_isNegativeOrZero⟩
  · rintro ⟨hCurrency, hSign⟩
    refine ⟨hCurrency, ?_⟩
    have hLt : (0 : Int64) < m.amountKobo := by
      simpa [isNegativeOrZero, Int64.not_le] using hSign
    rw [Int64.lt_iff_toInt_lt] at hLt
    simpa using hLt

/- The amount check of the services, with their own errors. -/
def Money.check (errCurrency errAmount : GoError) (amt : Money) : Except GoError Unit :=
  if amt.currency ≠ NGN then .error errCurrency
  else if amt.isNegativeOrZero then .error errAmount
  else .ok ()

theorem Money.check_eq_ok {errCurrency errAmount : GoError} {amt : Money} :
    amt.check errCurrency errAmount = .ok () ↔
    amt.PositiveNGN := by
  rw [Money.positiveNGN_iff]
  unfold Money.check
  by_cases hCurrency : amt.currency = NGN
  · by_cases hSign : amt.isNegativeOrZero = true
    · simp [hCurrency, hSign]
    · simp [hCurrency, hSign]
  · simp [hCurrency]

/- Negating a positive amount does not overflow. -/
theorem toInt_neg_of_pos {x : Int64} (hPos : 0 < x.toInt) : (-x).toInt = -x.toInt := by
  have hUpper := x.toInt_lt
  rw [Int64.toInt_neg]
  apply Int.bmod_eq_of_le <;> omega

end Fincore
