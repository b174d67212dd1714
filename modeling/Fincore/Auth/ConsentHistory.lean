import Fincore.Auth.Consents
import Fincore.Auth.Ownership
import Fincore.Lib.Changes
import Mathlib.Data.Finset.Dedup

/-
  The history of the consents of a user to a client.

  An entry is added when `equalStringSets` tells the scopes of a request from the ones stored. It
  counts how often a scope is listed, so a list that repeats a scope is not the same as one that
  does not, though both grant the same scopes.

  Key definitions include:
    * `scopeSet`
    * `Db.consentOf` and `Db.entriesOf`
    * `storeAll`

  Main results:
    * `equalStringSets_iff_perm`
    * `storeAll_spec`
    * `history_changes_iff`
-/

----
-- Sets Of Scopes
----

namespace Fincore.AuthService

open Auth

/- The scopes of a list, trimmed and not empty, as a set. -/
def scopeSet (scopes : List String) : Finset String := (registerScopes scopes).toFinset

/- The comparison is of lists up to order. -/
theorem equalStringSets_iff_perm (a b : List String) : equalStringSets a b = true ↔
    (registerScopes a).Perm (registerScopes b) := by
  unfold equalStringSets
  rw [Bool.or_eq_true, Bool.and_eq_true, List.all_eq_true]
  constructor
  · rintro (⟨hA, hB⟩ | hCounts)
    · rw [List.isEmpty_iff.mp hA, List.isEmpty_iff.mp hB]
    · rw [List.perm_iff_count]
      intro s
      by_cases hIn : s ∈ registerScopes a ++ registerScopes b
      · exact of_decide_eq_true (hCounts s hIn)
      · rw [List.mem_append, not_or] at hIn
        rw [List.count_eq_zero_of_not_mem hIn.1, List.count_eq_zero_of_not_mem hIn.2]
  · intro hPerm
    refine .inr ?_
    intro s _
    exact decide_eq_true (hPerm.count_eq s)

theorem scopeSet_of_equal (a b : List String)
    (hEqual : equalStringSets a b = true) : scopeSet a = scopeSet b :=
  List.toFinset_eq_of_perm _ _ ((equalStringSets_iff_perm a b).mp hEqual)

----
-- Runs Of Calls
----

/- A call of `StoreOAuthConsent`, and when it began. -/
structure ConsentCall where
  req : ConsentRequest
  began : Time

/- The user and the client that a call is for. -/
def ConsentCall.key (call : ConsentCall) : String × String :=
  (trimSpace call.req.userID, trimSpace call.req.clientID)

/- Calls one after the other: the scopes of those that are done, and the database they leave. -/
def storeAll : List ConsentCall → Db → List (List String) × Db
| [], db => ([], db)
| call :: calls, db =>
  match store.withTx (storeOAuthConsent call.req call.began) db with
  | (.ok _, db') =>
    let (consented, db'') := storeAll calls db'
    (call.req.scopes :: consented, db'')
  | (.error _, db') => storeAll calls db'

/- The scopes in `oauth_consents` for a user and a client. -/
def Db.consentOf (db : Db) (key : String × String) : Option (List String) :=
  (db.consents.lookup key).map Consent.scopes

/- The scopes in `oauth_consent_history`, in order. -/
def Db.entriesOf (db : Db) (key : String × String) : List (List String) :=
  (db.history.filter (fun e =>
    decide ((e.userID, e.clientID) = key))).map ConsentEntry.scopes

/- A user and a client that are registered. -/
def Db.Registered (db : Db) (key : String × String) : Prop :=
  key.1 ≠ "" ∧ key.2 ≠ "" ∧ (db.users.lookup key.1).isSome ∧ (db.clients.lookup key.2).isSome

instance (db : Db) (key : String × String) : Decidable (db.Registered key) := by
  unfold Db.Registered
  infer_instance

----
-- What A Run Leaves
----

variable {db : Db}

theorem registered_consented (req : ConsentRequest) (began : Time)
    (key : String × String) : (db.consented req began).Registered key ↔ db.Registered key := by
  unfold Db.consented
  dsimp only
  split
  · exact Iff.rfl
  · exact Iff.rfl

theorem consentOf_consented (call : ConsentCall) :
    (db.consented call.req call.began).consentOf call.key = some call.req.scopes := by
  unfold Db.consented Db.consentOf
  dsimp only
  cases hOld : db.consents.lookup (trimSpace call.req.userID, trimSpace call.req.clientID) with
  | none =>
    refine Option.map_eq_some_iff.mpr ⟨_, Table.lookup_eq_some_iff.mpr
        ⟨(Table.mem_insert hOld).mpr (.inr rfl), rfl⟩, rfl⟩
  | some old =>
    rcases Table.lookup_eq_some_iff.mp hOld with ⟨hRow, hKey⟩
    refine Option.map_eq_some_iff.mpr
      ⟨old.renew call.req.scopes (timestamptz call.began),
        Table.lookup_eq_some_iff.mpr ⟨?_, ?_⟩, rfl⟩
    · rw [Table.mem_modify]
      exact ⟨old, hRow, (if_pos hKey).symm⟩
    · exact (Consent.key_renew _ _ old).trans hKey

theorem entriesOf_append (call : ConsentCall) : Db.entriesOf
      { db with history := db.history ++ [call.req.entry call.began] } call.key =
      db.entriesOf call.key ++ [call.req.scopes] := by
  unfold Db.entriesOf
  rw [List.filter_append, List.map_append]
  simp [ConsentRequest.entry, ConsentCall.key]

/- An entry is added when the comparison finds a change. -/
theorem entriesOf_consented (call : ConsentCall) :
    (db.consented call.req call.began).entriesOf call.key =
    db.entriesOf call.key ++ changes equalStringSets (db.consentOf call.key)
    [call.req.scopes] := by
  unfold Db.consented Db.consentOf
  dsimp only
  cases hOld : db.consents.lookup (trimSpace call.req.userID, trimSpace call.req.clientID) with
  | none =>
    have hKey : db.consents.lookup call.key = none := hOld
    rw [hKey]
    exact entriesOf_append call
  | some old =>
    have hKey : db.consents.lookup call.key = some old := hOld
    rw [hKey]
    dsimp only [Option.map_some, changes]
    by_cases hSame : equalStringSets old.scopes call.req.scopes = true
    · rw [if_pos hSame, if_pos hSame, List.append_nil]
      rfl
    · rw [if_neg hSame, if_neg hSame]
      exact entriesOf_append call

variable {call : ConsentCall}

theorem storeAll_of_accepts
    (hAccepts : db.Accepts call.req) (calls : List ConsentCall) : storeAll (call :: calls) db =
    (call.req.scopes :: (storeAll calls (db.consented call.req call.began)).1,
    (storeAll calls (db.consented call.req call.began)).2) := by
  rw [storeAll, store_of_accepts hAccepts]

theorem storeAll_of_not_accepts (hNot : ¬ db.Accepts call.req) (calls : List ConsentCall) :
    storeAll (call :: calls) db = storeAll calls db := by
  rcases store_of_not_accepts hNot call.began with ⟨e, hTx⟩
  rw [storeAll, hTx]

variable {calls : List ConsentCall} {key : String × String}

/-
  After any calls for a user and a client, the history has the changes between the consents done,
  and the last of these is stored.
-/
theorem storeAll_spec (hCalls : ∀ call ∈ calls, call.key = key) (db : Db) :
    (storeAll calls db).2.entriesOf key = db.entriesOf key ++
    changes equalStringSets (db.consentOf key) (storeAll calls db).1 ∧
    (storeAll calls db).2.consentOf key =
    ((db.consentOf key).toList ++ (storeAll calls db).1).getLast? := by
  induction calls generalizing db with
  | nil =>
    refine ⟨?_, ?_⟩
    · exact (List.append_nil _).symm
    · show db.consentOf key = _
      cases db.consentOf key with
      | none => rfl
      | some scopes => rfl
  | cons call calls ih =>
    rcases List.forall_mem_cons.mp hCalls with ⟨rfl, hRest⟩
    by_cases hAccepts : db.Accepts call.req
    · rcases ih hRest (db.consented call.req call.began) with ⟨hEntries, hLast⟩
      rw [storeAll_of_accepts hAccepts]
      dsimp only
      rw [consentOf_consented, Option.toList_some, List.singleton_append] at hLast
      refine ⟨?_, ?_⟩
      · rw [hEntries, entriesOf_consented, consentOf_consented, List.append_assoc, ← changes_cons]
      · rw [hLast, List.getLast?_append_cons]
    · rw [storeAll_of_not_accepts hAccepts]
      exact ih hRest db

----
-- Consents That Are Done
----

theorem accepts_of_registered (hRegistered : db.Registered call.key) :
    db.Accepts call.req ↔ call.req.scopes ≠ [] := by
  rcases hRegistered with ⟨hUser, hClient, hKnown⟩
  constructor
  · intro hAccepts
    exact hAccepts.2.2.1
  · intro hScopes
    exact ⟨hUser, hClient, hScopes, .inl hKnown⟩

theorem not_accepts_of_not_registered
    (hNone : db.consentOf call.key = none) (hNot : ¬ db.Registered call.key) :
    ¬ db.Accepts call.req := by
  rintro ⟨hUser, hClient, _, hKnown | ⟨old, hOld, _⟩⟩
  · exact hNot ⟨hUser, hClient, hKnown⟩
  · have hKey : db.consents.lookup call.key = some old := hOld
    rw [Db.consentOf, hKey] at hNone
    cases hNone

theorem consented_of_registered (hCalls : ∀ call ∈ calls, call.key = key)
    (hRegistered : db.Registered key) : (storeAll calls db).1 =
    (calls.map (fun call => call.req.scopes)).filter (fun scopes => decide (scopes ≠ [])) := by
  induction calls generalizing db with
  | nil => rfl
  | cons call calls ih =>
    rcases List.forall_mem_cons.mp hCalls with ⟨rfl, hRest⟩
    have hAccepts := accepts_of_registered hRegistered
    rw [List.map_cons]
    by_cases hScopes : call.req.scopes = []
    · rw [storeAll_of_not_accepts (fun h => hAccepts.mp h hScopes),
        List.filter_cons_of_neg (by simpa using hScopes)]
      exact ih hRest hRegistered
    · rw [storeAll_of_accepts (hAccepts.mpr hScopes),
        List.filter_cons_of_pos (by simpa using hScopes)]
      dsimp only
      rw [ih hRest ((registered_consented _ _ _).mpr hRegistered)]

/- For any other user or client none is. -/
theorem consented_of_not_registered (hCalls : ∀ call ∈ calls, call.key = key)
    (hNone : db.consentOf key = none) (hNot : ¬ db.Registered key) :
    (storeAll calls db).1 = [] := by
  induction calls with
  | nil => rfl
  | cons call calls ih =>
    rcases List.forall_mem_cons.mp hCalls with ⟨rfl, hRest⟩
    rw [storeAll_of_not_accepts (not_accepts_of_not_registered hNone hNot)]
    exact ih hRest

----
-- The History As Sets
----

/-
  The history of a user and a client reads as the changes of the sets consented to, and its last
  entry as the set stored.
-/
def HistoryReads (key : String × String) (calls : List ConsentCall) (db : Db) : Prop :=
  let (consented, db') := storeAll calls db
  (db'.entriesOf key).map scopeSet = (consented.map scopeSet).destutter (· ≠ ·) ∧
    (db'.entriesOf key).getLast?.map scopeSet = (db'.consentOf key).map scopeSet

/- Lists with the same scopes have each as often. -/
def CountsAgree (a b : List String) : Prop :=
  scopeSet a = scopeSet b → (registerScopes a).Perm (registerScopes b)

/-
  The history reads as the changes if no two consents in a row list the same scopes and one of them
  another number of times. An empty list is refused, and so is every call for a user or a client
  that is not registered.
-/
theorem history_changes_iff (db : Db) (key : String × String)
    (hStored : db.consentOf key = none) (hHistory : db.entriesOf key = [])
    (calls : List ConsentCall) (hCalls : ∀ call ∈ calls, call.key = key) :
    HistoryReads key calls db ↔
      (db.Registered key →
      ((calls.map (fun call => call.req.scopes)).filter
      (fun scopes => decide (scopes ≠ []))).IsChain CountsAgree) := by
  have hSpec := storeAll_spec hCalls db
  rw [hStored, hHistory, List.nil_append, Option.toList_none, List.nil_append] at hSpec
  rcases hSpec with ⟨hEntries, hLast⟩
  have hReads : HistoryReads key calls db ↔ (storeAll calls db).1.IsChain CountsAgree := by
    have hChain := map_changes_eq_iff scopeSet scopeSet_of_equal none (storeAll calls db).1
    simp only [equalStringSets_iff_perm] at hChain
    rw [Option.map_none, Option.toList_none, List.nil_append, changes_eq_destutter] at hChain
    unfold HistoryReads
    dsimp only
    rw [hEntries, hLast, hChain]
    exact and_iff_left (getLast_changes scopeSet scopeSet_of_equal _)
  rw [hReads]
  by_cases hRegistered : db.Registered key
  · rw [consented_of_registered hCalls hRegistered]
    exact (imp_iff_right hRegistered).symm
  · rw [consented_of_not_registered hCalls hStored hRegistered]
    exact iff_of_true .nil (fun h => absurd h hRegistered)

/- Two consents to the same scopes, in another order. -/
theorem reordered_consent_adds_nothing : HistoryReads ("v", "app")
      [⟨⟨"v", "app", ["read", "pay"]⟩, 1000⟩,
      ⟨⟨" v", "app", ["pay", "", "read"]⟩, 2000⟩] Db.oneUser ∧
      (storeAll [⟨⟨"v", "app", ["read", "pay"]⟩, 1000⟩, ⟨⟨" v", "app", ["pay", "", "read"]⟩, 2000⟩]
      Db.oneUser).2.entriesOf ("v", "app") = [["read", "pay"]] := by
  refine ⟨(history_changes_iff Db.oneUser ("v", "app") (by decide +kernel) (by decide +kernel) _
    (by decide +kernel)).mpr ?_, by decide +kernel⟩
  intro _
  refine .cons_cons (fun _ => ?_) (.singleton _)
  decide +kernel

/- A scope listed twice is a change of the history. -/
theorem repeated_scope_adds_entry :
    let calls : List ConsentCall :=
      [⟨⟨"v", "app", ["pay"]⟩, 1000⟩, ⟨⟨"v", "app", ["pay", "pay"]⟩, 2000⟩]
    Db.oneUser.consentOf ("v", "app") = none ∧ Db.oneUser.entriesOf ("v", "app") = [] ∧
      (∀ call ∈ calls, call.key = ("v", "app")) ∧
      (storeAll calls Db.oneUser).2.entriesOf ("v", "app") = [["pay"], ["pay", "pay"]] ∧
      ¬ HistoryReads ("v", "app") calls Db.oneUser := by
  refine ⟨by decide +kernel, by decide +kernel, by decide +kernel, by decide +kernel, ?_⟩
  rintro ⟨hSets, _⟩
  revert hSets
  decide +kernel

end Fincore.AuthService
