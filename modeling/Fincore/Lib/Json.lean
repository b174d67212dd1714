import Mathlib.Data.List.Basic

/-
  JSON documents as a struct encoder writes them and a struct decoder reads them.

  A document is kept as a tree. A timestamp stands for its RFC 3339 text and is kept as an instant,
  in nanoseconds since the Unix epoch; a byte slice stands for its base64 text and is kept as the
  document its bytes spell.

  The decoder is lenient as `encoding/json` is: keys match without regard to case, the last of
  several matching keys wins, unknown keys are skipped, an absent key or `null` leaves the zero
  value.

  Key definitions include:
    * `Json`
    * `Json.ofTime`
    * `Json.struct`
    * `Json.lookup`
    * `Json.strField`, `Json.intField`, `Json.natField`,
      `Json.timeField`
-/

----
-- Documents
----

inductive Json where
  | null
  | num (n : Int)
  | str (s : String)
  | time (nanos : Int)
  | bytes (doc : Json)
  | obj (fields : List (String × Json))

namespace Json

/- First instant of the year 0. -/
def minTime : Int := -62167219200 * 1000000000

/- First instant of the year 10000. -/
def endTime : Int := 253402300800 * 1000000000

/- Instants that RFC 3339 can write: years 0 to 9999. -/
def TimeInRange (nanos : Int) : Prop := minTime ≤ nanos ∧ nanos < endTime

instance (nanos : Int) : Decidable (TimeInRange nanos) :=
  inferInstanceAs (Decidable (minTime ≤ nanos ∧ nanos < endTime))

def rangeError : String := "year outside of range [0,9999]"

/- Encode an instant, refused outside the writable years. -/
def ofTime (nanos : Int) : Except String Json :=
  if TimeInRange nanos then .ok (.time nanos)
  else .error rangeError

----
-- Decoding
----

/- Keys are compared without regard to case. -/
def foldEq (a b : String) : Bool := a.toList.map Char.toLower == b.toList.map Char.toLower

/- The members of a document decoded into a struct. -/
def struct : Json → Except String (List (String × Json))
| .obj fields => .ok fields
| .null => .ok []
| _ => .error "cannot unmarshal into struct"

/- The last member whose key matches. -/
def lookup (fields : List (String × Json)) (name : String) : Option Json :=
  (fields.reverse.find? (fun field => foldEq field.1 name)).map Prod.snd

def strField (fields : List (String × Json)) (name : String) : Except String String :=
  match lookup fields name with
  | none => .ok ""
  | some .null => .ok ""
  | some (.str s) => .ok s
  | some _ => .error "cannot unmarshal into string"

/- Numbers are read into 64 bits, refused if they do not fit. -/
def intField (fields : List (String × Json)) (name : String) : Except String Int64 :=
  match lookup fields name with
  | none => .ok 0
  | some .null => .ok 0
  | some (.num n) =>
    if (Int64.ofInt n).toInt = n then .ok (Int64.ofInt n)
    else .error "number does not fit in int64"
  | some _ => .error "cannot unmarshal into int64"

/- A counter, for which the model has no bound. -/
def natField (fields : List (String × Json)) (name : String) : Except String Nat :=
  match lookup fields name with
  | none => .ok 0
  | some .null => .ok 0
  | some (.num n) => .ok n.toNat
  | some _ => .error "cannot unmarshal into int64"

/- `zero` is the zero value of the target's time type. -/
def timeField (zero : Int) (fields : List (String × Json)) (name : String) : Except String Int :=
  match lookup fields name with
  | none => .ok zero
  | some .null => .ok zero
  | some (.time nanos) => .ok nanos
  | some _ => .error "cannot unmarshal into time"

/- A struct without exported members takes nothing in. -/
def emptyStructField (fields : List (String × Json)) (name : String) : Except String Unit :=
  match lookup fields name with
  | none => .ok ()
  | some doc => (struct doc).map (fun _ => ())

end Json
