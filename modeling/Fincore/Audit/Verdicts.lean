import Fincore.Audit.Repository
import Mathlib

/-
  `ValidateIntegrity` over a stream of rows that may end for a failure of the connection.

  The loop ends when there is no next row, and the function does not ask why. The rows it has
  counted are an `int32`.

  Key definitions include:
    * `Stream` and `Hashing.validateStream`
    * `Verified` and `FirstBroken`
    * `Exact`

  Main results:
    * `validateFrom_append`
    * `exact_iff`
-/

----
-- Streams
----

namespace Fincore.Audit

variable {Payload : Type}

/-
  What `Query` gives: an error, or rows one by one and then `rows.Err()`, which is none at the end
  of the data.
-/
structure Stream (H : Hashing Payload) where
  query : Option GoError
  rows : List (Row H)
  failed : Option GoError

/- `ValidateIntegrity`, which does not ask `rows.Err()` -/
def Hashing.validateStream (H : Hashing Payload) (s : Stream H) : Verdict :=
  match s.query with
  | some e => ⟨false, 0, "", some e⟩
  | none => H.validateIntegrity s.rows

/- The rows read as a chain that begins with no hash. -/
def Verified {H : Hashing Payload} (rows : List (Row H)) (ls : List (Link Payload)) : Prop :=
  Reads rows ls ∧ HashChain.Chained H.calculateHash "" ls

/- The row is not what follows a chain. -/
def Violates (H : Hashing Payload) (ls : List (Link Payload)) (l : Link Payload) : Prop :=
  ¬ (l.previous = HashChain.tip "" ls ∧ l.current = H.calculateHash l.content l.previous)

/- A row that can be read and violates, after a chain. -/
structure FirstBroken {H : Hashing Payload} (rows pre : List (Row H)) (row : Row H) : Prop where
  split : ∃ post, rows = pre ++ row :: post
  broken : ∃ ls l, Verified pre ls ∧ row.scan = .ok l ∧ Violates H ls l

/- A row that cannot be read, after a chain. -/
def Unreadable {H : Hashing Payload} (rows : List (Row H)) : Prop :=
  ∃ pre row post ls e, rows = pre ++ row :: post ∧ Verified pre ls ∧ row.scan = .error e

/- The stream could not be read to its end. -/
def ReadFails {H : Hashing Payload} (s : Stream H) : Prop :=
  s.query ≠ none ∨ Unreadable s.rows ∨ s.failed ≠ none ∧ ∃ ls, Verified s.rows ls

/- What a verdict says is so, and what is so it says. -/
structure Exact {H : Hashing Payload} (s : Stream H) (v : Verdict) : Prop where
  valid : v.valid = true → v.err = none → s.query = none ∧ s.failed = none ∧
        (∃ ls, Verified s.rows ls) ∧ v.count.toInt = s.rows.length
  broken : s.query = none → ∀ pre row, FirstBroken s.rows pre row →
        v.valid = false ∧ v.brokenID = row.id ∧ v.count.toInt = pre.length ∧ v.err = none
  failure : ReadFails s → v.valid = false ∧ v.err ≠ none

----
-- What The Loop Returns
----

variable {H : Hashing Payload} {rows pre : List (Row H)} {ls : List (Link Payload)}
variable {row : Row H}

/- A chain at the front is counted, and the loop goes on. -/
theorem validateFrom_append {h : String} (hReads : Reads pre ls)
    (hChained : HashChain.Chained H.calculateHash h ls) (count : Int32)
    (rest : List (Row H)) : H.validateFrom h count (pre ++ rest) =
    H.validateFrom (HashChain.tip h ls) (count + Int32.ofNat pre.length) rest := by
  induction hReads generalizing h count with
  | nil => simp [HashChain.tip]
  | cons hScan hRest ih =>
    rcases hChained with ⟨hLinked, hHash, hLater⟩
    simp only [List.cons_append, Hashing.validateFrom, hScan]
    rw [if_neg (not_not.mpr hLinked), if_neg (not_not.mpr hHash.symm), ih hLater,
      List.length_cons, Int32.ofNat_add, Int32.add_assoc, Int32.add_comm 1]
    rfl

theorem validate_append (hVerified : Verified pre ls) (rest : List (Row H)) :
    H.validateIntegrity (pre ++ rest) = H.validateFrom (HashChain.tip "" ls)
    (Int32.ofNat pre.length) rest := by
  have hFront := validateFrom_append hVerified.1 hVerified.2 0 rest
  rw [Int32.zero_add] at hFront
  exact hFront

theorem validate_verified (hVerified : Verified rows ls) :
    H.validateIntegrity rows = ⟨true, Int32.ofNat rows.length, "", none⟩ := by
  have hAll := validate_append hVerified []
  rw [List.append_nil] at hAll
  exact hAll

theorem validate_broken (hBroken : FirstBroken rows pre row) : H.validateIntegrity rows =
    ⟨false, Int32.ofNat pre.length, row.id, none⟩ := by
  rcases hBroken.split with ⟨post, rfl⟩
  rcases hBroken.broken with ⟨ls, l, hVerified, hScan, hViolates⟩
  rw [validate_append hVerified]
  simp only [Hashing.validateFrom, hScan]
  split
  · rfl
  · rename_i hLinked
    rw [if_pos]
    intro hHash
    exact hViolates ⟨not_not.mp hLinked, hHash.symm⟩

theorem validate_unreadable (hUnreadable : Unreadable rows) :
    (H.validateIntegrity rows).valid = false ∧ (H.validateIntegrity rows).err ≠ none := by
  rcases hUnreadable with ⟨pre, row, post, ls, e, rfl, hVerified, hScan⟩
  have hVerdict : H.validateIntegrity (pre ++ row :: post) =
      ⟨false, Int32.ofNat pre.length, "", some e⟩ := by
    rw [validate_append hVerified]
    simp only [Hashing.validateFrom, hScan]
  rw [hVerdict]
  exact ⟨rfl, Option.some_ne_none e⟩

/- A number of rows that an `int32` can count. -/
theorem toInt_ofNat_iff (n : Nat) : (Int32.ofNat n).toInt = n ↔ n < 2 ^ 31 := by
  constructor
  · intro hSame
    have hLess := Int32.toInt_lt (Int32.ofNat n)
    omega
  · exact Int32.toInt_ofNat_of_lt

----
-- When The Verdict Is Exact
----

/-
  The verdict is exact if and only if the connection has not failed after rows that all verify, and
  the rows that verify can be counted.
-/
theorem exact_iff (s : Stream H) : Exact s (H.validateStream s) ↔
      (s.query = none → (∀ ls, Verified s.rows ls → s.failed = none ∧ s.rows.length < 2 ^ 31) ∧
      ∀ pre row, FirstBroken s.rows pre row → pre.length < 2 ^ 31) := by
  rcases s with ⟨query, rows, failed⟩
  cases query with
  | some e =>
    refine iff_of_true ⟨?_, ?_, ?_⟩ ?_
    · intro hValid
      cases hValid
    · intro hNone
      cases hNone
    · intro _
      exact ⟨rfl, fun hNone => nomatch hNone⟩
    · intro hNone
      cases hNone
  | none =>
    show Exact _ (H.validateIntegrity rows) ↔ _
    constructor
    · intro hExact _
      refine ⟨?_, ?_⟩
      · intro ls hVerified
        have hValid := hExact.valid
        rw [validate_verified hVerified] at hValid
        rcases hValid rfl rfl with ⟨_, hEnd, _, hCount⟩
        exact ⟨hEnd, (toInt_ofNat_iff _).mp hCount⟩
      · intro pre row hBroken
        have hFalse := hExact.broken rfl pre row hBroken
        rw [validate_broken hBroken] at hFalse
        exact (toInt_ofNat_iff _).mp hFalse.2.2.1
    · intro hGiven
      rcases hGiven rfl with ⟨hEnds, hCounts⟩
      refine ⟨?_, ?_, ?_⟩
      · intro hValid _
        rcases validateFrom_valid hValid with ⟨ls, hReads, hChained⟩
        have hVerified : Verified rows ls := ⟨hReads, hChained⟩
        rcases hEnds ls hVerified with ⟨hEnd, hCount⟩
        rw [validate_verified hVerified]
        exact ⟨rfl, hEnd, ⟨ls, hVerified⟩, (toInt_ofNat_iff _).mpr hCount⟩
      · intro _ pre row hBroken
        rw [validate_broken hBroken]
        exact ⟨rfl, rfl, (toInt_ofNat_iff _).mpr (hCounts pre row hBroken), rfl⟩
      · rintro (hQuery | hUnreadable | ⟨hFailed, ls, hVerified⟩)
        · exact absurd rfl hQuery
        · exact validate_unreadable hUnreadable
        · exact absurd (hEnds ls hVerified).1 hFailed

/- The first entry of a trail. -/
def firstRow : Row Hashing.plain :=
  let e : AuditLogEntry String := ⟨"u", "login", "session", "s", none, "c", "t", "auth"⟩
  .new "1" e none "" (Hashing.plain.calculateHash e "")

/- The connection fails after a row that verifies. -/
theorem cut_stream_valid : Hashing.plain.validateStream
      ⟨none, [firstRow], some (.pg .connection)⟩ = ⟨true, 1, "", none⟩ := by
  decide +kernel

end Fincore.Audit
