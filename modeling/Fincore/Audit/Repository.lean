import Fincore.Lib.Autocommit
import Fincore.Lib.HashChain
import Fincore.Pkg.Money

/-
  `infrastructure/postgres/audit_repository.go` of the audit service: `Save`, `CalculateHash` and
  `ValidateIntegrity`.

  The rows of `audit_logs` are kept in the order of their sequence, which is the order they were
  inserted in.

  Key definitions include:
    * `Hashing.calculateHash`
    * `Hashing.save`
    * `Hashing.validateIntegrity`

  Main results:
    * `validateFrom_valid`
    * `validateFrom_of_chained`
-/

----
-- Entries And Hashes
----

namespace Fincore.Audit

/- `auditv1.AuditLogEntry`, as far as it is stored -/
structure AuditLogEntry (Payload : Type) where
  userID : String
  action : String
  resourceType : String
  resourceID : String
  payload : Option Payload
  correlationID : String
  traceID : String
  serviceName : String
  deriving DecidableEq

/-
  What `CalculateHash` takes from its libraries: the hash in hexadecimal digits, and the JSON text
  of a payload, which is refused when a number in it is not finite.
-/
structure Hashing (Payload : Type) where
  sha256 : String → String
  marshal : Payload → Except GoError String
  sha256_hex : ∀ s, '|' ∉ (sha256 s).toList
  marshal_injective : ∀ p p' text, marshal p = .ok text → marshal p' = .ok text → p = p'

variable {Payload : Type}

namespace Hashing

/- The JSON text of the payload, or `{}` without one. -/
def payloadBytes (H : Hashing Payload) : Option Payload → String
| none => "\x7b\x7d"
| some p =>
  match H.marshal p with
  | .ok text => text
  | .error _ => ""

/- All that is hashed except the previous hash. -/
def body (H : Hashing Payload) (e : AuditLogEntry Payload) : String :=
  e.userID ++ "|" ++ e.action ++ "|" ++ e.resourceType ++
    "|" ++ e.resourceID ++ "|" ++ H.payloadBytes e.payload

def dataToHash (H : Hashing Payload) (e : AuditLogEntry Payload)
    (previousHash : String) : String := H.body e ++ "|" ++ previousHash

/- `AuditRepository.CalculateHash` -/
def calculateHash (H : Hashing Payload) (e : AuditLogEntry Payload)
    (previousHash : String) : String := H.sha256 (H.dataToHash e previousHash)

/- What a `jsonb` column can hold of payloads. -/
def Document (H : Hashing Payload) : Type :=
  { p : Payload // ∃ text, H.marshal p = .ok text }

end Hashing

----
-- Rows
----

/- A row of `audit_logs`; only `action` may not be null. -/
structure Row (H : Hashing Payload) where
  id : String
  userID : Option String
  action : String
  resourceType : Option String
  resourceID : Option String
  payload : Option H.Document
  correlationID : Option String
  traceID : Option String
  serviceName : Option String
  previousHash : Option String
  currentHash : Option String

/- `Scan` of a column into a string -/
def scanString (column : String) : Option String → Except GoError String
| some s => .ok s
| none =>
  .error (.text ("can't scan into dest (col: " ++ column ++ "): cannot scan NULL into *string"))

/- An entry that was read, with the hashes of its row. -/
abbrev Link (Payload : Type) := HashChain.Link (AuditLogEntry Payload) String

/- `rows.Scan` in the loop of `ValidateIntegrity` -/
def Row.scan {H : Hashing Payload} (row : Row H) : Except GoError (Link Payload) := do
  let userID ← scanString "user_id" row.userID
  let resourceType ← scanString "resource_type" row.resourceType
  let resourceID ← scanString "resource_id" row.resourceID
  let correlationID ← scanString "correlation_id" row.correlationID
  let traceID ← scanString "trace_id" row.traceID
  let serviceName ← scanString "service_name" row.serviceName
  let prevHash ← scanString "previous_hash" row.previousHash
  let currHash ← scanString "current_hash" row.currentHash
  return {
    content := {
      userID := userID
      action := row.action
      resourceType := resourceType
      resourceID := resourceID
      payload := row.payload.map Subtype.val
      correlationID := correlationID
      traceID := traceID
      serviceName := serviceName }
    previous := prevHash
    current := currHash }

theorem scanString_bind_ok {α : Type} {column : String} {value : Option String}
    {f : String → Except GoError α} {a : α} (hOk : (scanString column value >>= f) = .ok a) :
    ∃ s, value = some s ∧ f s = .ok a := by
  cases value with
  | none => cases hOk
  | some s => exact ⟨s, rfl, hOk⟩

/- What the columns of a row that can be read hold. -/
structure Row.Holds {H : Hashing Payload} (row : Row H) (l : Link Payload) : Prop where
  userID : row.userID = some l.content.userID
  action : row.action = l.content.action
  resourceType : row.resourceType = some l.content.resourceType
  resourceID : row.resourceID = some l.content.resourceID
  payload : row.payload.map Subtype.val = l.content.payload
  correlationID : row.correlationID = some l.content.correlationID
  traceID : row.traceID = some l.content.traceID
  serviceName : row.serviceName = some l.content.serviceName
  previousHash : row.previousHash = some l.previous
  currentHash : row.currentHash = some l.current

theorem Row.holds_of_scan {H : Hashing Payload} {row : Row H} {l : Link Payload}
    (hScan : row.scan = .ok l) : row.Holds l := by
  unfold Row.scan at hScan
  rcases scanString_bind_ok hScan with ⟨_, hUser, hScan⟩
  rcases scanString_bind_ok hScan with ⟨_, hType, hScan⟩
  rcases scanString_bind_ok hScan with ⟨_, hID, hScan⟩
  rcases scanString_bind_ok hScan with ⟨_, hCorrelation, hScan⟩
  rcases scanString_bind_ok hScan with ⟨_, hTrace, hScan⟩
  rcases scanString_bind_ok hScan with ⟨_, hService, hScan⟩
  rcases scanString_bind_ok hScan with ⟨_, hPrev, hScan⟩
  rcases scanString_bind_ok hScan with ⟨_, hCurr, hScan⟩
  cases hScan
  exact ⟨hUser, rfl, hType, hID, rfl, hCorrelation, hTrace, hService, hPrev, hCurr⟩

/- What `ValidateIntegrity` returns. -/
structure Verdict where
  valid : Bool
  count : Int32
  brokenID : String
  err : Option GoError
  deriving DecidableEq

/- The loop of `ValidateIntegrity` -/
def Hashing.validateFrom (H : Hashing Payload) : String → Int32 → List (Row H) → Verdict
| _, count, [] => ⟨true, count, "", none⟩
| expectedPrevHash, count, row :: rows =>
  match row.scan with
  | .error e => ⟨false, count, "", some e⟩
  | .ok l =>
    if l.previous ≠ expectedPrevHash then
      ⟨false, count, row.id, none⟩
    else if H.calculateHash l.content l.previous ≠ l.current then
      ⟨false, count, row.id, none⟩
    else H.validateFrom l.current (count + 1) rows

/- `AuditRepository.ValidateIntegrity` -/
def Hashing.validateIntegrity (H : Hashing Payload)
    (rows : List (Row H)) : Verdict := H.validateFrom "" 0 rows

----
-- Saving
----

/- The two statements of `Save`. -/
inductive Stmt (Payload : Type) where
  | selectLast
  | insert (id : String) (e : AuditLogEntry Payload) (lastHash currentHash : String)

@[reducible] def Resp : Stmt Payload → Type
| .selectLast => Option String
| .insert _ _ _ _ => Unit

/- The row that `Save` inserts. -/
def Row.new {H : Hashing Payload} (id : String) (e : AuditLogEntry Payload)
    (payload : Option H.Document) (lastHash currentHash : String) : Row H where
  id := id
  userID := some e.userID
  action := e.action
  resourceType := some e.resourceType
  resourceID := some e.resourceID
  payload := payload
  correlationID := some e.correlationID
  traceID := some e.traceID
  serviceName := some e.serviceName
  previousHash := some lastHash
  currentHash := some currentHash

/- The payload as it is sent to the database. -/
def Hashing.encode (H : Hashing Payload) : Option Payload → Except GoError (Option H.Document)
| none => .ok none
| some p =>
  match hText : H.marshal p with
  | .ok text => .ok (some ⟨p, text, hText⟩)
  | .error e => .error e

/- What a statement answers, and the rows it leaves. -/
def Hashing.exec (H : Hashing Payload) : (s : Stmt Payload) → List (Row H) →
      Except GoError (Resp s) × List (Row H)
| .selectLast, rows =>
  match rows.getLast? with
  | none => (.ok none, rows)
  | some row =>
    ((scanString "current_hash" row.currentHash).map some, rows)
| .insert id e lastHash currentHash, rows =>
  match H.encode e.payload with
  | .ok payload =>
    (.ok (), rows ++ [.new id e payload lastHash currentHash])
  | .error err => (.error err, rows)

/- The table, under statements that stand alone. -/
def Hashing.table (H : Hashing Payload) :
    Autocommit (List (Row H)) (Stmt Payload) Resp GoError where
  exec := H.exec
  broken := .pg .connection

/- A call of `Save`, with the id the row is given. -/
structure SaveCall (Payload : Type) where
  entry : AuditLogEntry Payload
  id : String

/- The hash to link to; an error is only logged. -/
def lastHash : Except GoError (Option String) → String
| .ok (some h) => h
| .ok none => ""
| .error _ => ""

/- `Save`, once the last hash is read -/
def Hashing.insertAfter (H : Hashing Payload) (c : SaveCall Payload)
    (lastHash : String) : Autocommit.Script (Stmt Payload) Resp GoError Unit :=
  .ask (.insert c.id c.entry lastHash (H.calculateHash c.entry lastHash)) Prog.ofExcept

/- `AuditRepository.Save` -/
def Hashing.save (H : Hashing Payload) (c : SaveCall Payload) :
    Autocommit.Script (Stmt Payload) Resp GoError Unit :=
  .ask .selectLast (fun res => H.insertAfter c (lastHash res))

----
-- Valid Tables Are Chains
----

variable {H : Hashing Payload} {rows : List (Row H)} {h : String} {count : Int32}

/- The rows can be read, and are read as these links. -/
def Reads (rows : List (Row H)) (ls : List (Link Payload)) : Prop :=
  List.Forall₂ (fun row l => row.scan = .ok l) rows ls

/- A table that is found valid reads as a chain. -/
theorem validateFrom_valid (hValid : (H.validateFrom h count rows).valid = true) :
    ∃ ls, Reads rows ls ∧ HashChain.Chained H.calculateHash h ls := by
  induction rows generalizing h count with
  | nil => exact ⟨[], .nil, trivial⟩
  | cons row rows ih =>
    unfold Hashing.validateFrom at hValid
    split at hValid
    · cases hValid
    · rename_i l hScan
      split at hValid
      · cases hValid
      · rename_i hLinked
        split at hValid
        · cases hValid
        · rename_i hHash
          rcases ih hValid with ⟨ls, hReads, hChained⟩
          exact ⟨l :: ls, .cons hScan hReads, not_not.mp hLinked, (not_not.mp hHash).symm, hChained⟩

variable {ls : List (Link Payload)}

/- A table that reads as a chain is found valid. -/
theorem validateFrom_of_chained (hReads : Reads rows ls)
    (hChained : HashChain.Chained H.calculateHash h ls) : H.validateFrom h count rows =
    ⟨true, count + Int32.ofNat rows.length, "", none⟩ := by
  induction hReads generalizing h count with
  | nil => simp [Hashing.validateFrom]
  | cons hScan hRest ih =>
    rcases hChained with ⟨hLinked, hHash, hLater⟩
    simp only [Hashing.validateFrom, hScan]
    rw [if_neg (not_not.mpr hLinked), if_neg (not_not.mpr hHash.symm), ih hLater,
      List.length_cons, Int32.ofNat_add, Int32.add_assoc, Int32.add_comm 1]
    rfl

theorem tip_eq_currentHash (hReads : Reads rows ls) (h : String) : some (HashChain.tip h ls) =
    (rows.getLast?.map Row.currentHash).getD (some h) := by
  induction hReads generalizing h with
  | nil => rfl
  | @cons row l rows ls hScan hRest ih =>
    rw [HashChain.tip, ih, List.getLast?_cons]
    cases rows.getLast? with
    | none => exact (Row.holds_of_scan hScan).currentHash.symm
    | some last => rfl

----
-- A Hash To Look At
----

/- Every text, with its separators written otherwise. -/
def escape : List Char → List Char
| [] => []
| ch :: chs =>
  if ch = '|' then '/' :: 'b' :: escape chs
  else if ch = '/' then '/' :: '/' :: escape chs
  else ch :: escape chs

def unescape : List Char → List Char
| '/' :: 'b' :: chs => '|' :: unescape chs
| '/' :: '/' :: chs => '/' :: unescape chs
| ch :: chs => ch :: unescape chs
| [] => []

theorem unescape_escape (chs : List Char) : unescape (escape chs) = chs := by
  induction chs with
  | nil => rfl
  | cons ch chs ih =>
    unfold escape
    split
    · rename_i hBar
      rw [unescape, ih, hBar]
    · split
      · rename_i hSlash
        rw [unescape, ih, hSlash]
      · rename_i hSlash
        rw [unescape, ih]
        · intro _ hEq
          exact absurd hEq hSlash
        · intro _ hEq
          exact absurd hEq hSlash

theorem bar_not_mem_escape (chs : List Char) : '|' ∉ escape chs := by
  induction chs with
  | nil => exact List.not_mem_nil
  | cons ch chs ih =>
    unfold escape
    split
    · simpa using ih
    · split
      · simpa using ih
      · rename_i hBar _
        simpa using ⟨fun hEq => hBar hEq.symm, ih⟩

/- A hash that hides nothing and has no collisions. -/
def Hashing.plain : Hashing String where
  sha256 := fun s => String.ofList (escape s.toList)
  marshal := .ok
  sha256_hex := by
    intro s
    rw [String.toList_ofList]
    exact bar_not_mem_escape s.toList
  marshal_injective := by
    intro p p' text hText hText'
    cases hText
    cases hText'
    rfl

theorem plain_injective : Function.Injective Hashing.plain.sha256 := by
  intro s s' hEq
  have hChars := congrArg unescape (String.ofList_injective hEq)
  rw [unescape_escape, unescape_escape] at hChars
  exact String.toList_inj.mp hChars

end Fincore.Audit
