import Fincore.Auth.Accounts

/-
  What `StoreOAuthConsent` leaves.

  The consent of a request is written if the user and the client are there, and an entry of the
  history with it, unless the scopes are the ones consented to before.

  Key definitions include:
    * `Db.Stores`
    * `Db.consented`
    * `Db.Accepts`

  Main results:
    * `store_of_accepts` and `store_of_not_accepts`
    * `consented_of_stores`
    * `kept_of_not_stores`
-/

----
-- Consents Of A Request
----

namespace Fincore.AuthService

open Auth

/- A consent of the request would be written. -/
def Db.Stores (db : Db) (req : ConsentRequest) (began : Time) : Prop :=
  trimSpace req.userID ≠ "" ∧ trimSpace req.clientID ≠ "" ∧ req.scopes ≠ [] ∧
    match db.consents.lookup (trimSpace req.userID, trimSpace req.clientID) with
    | some old =>
      if equalStringSets old.scopes req.scopes then
        old.scopes ≠ req.scopes ∨ old.updatedAt ≠ timestamptz began
      else
        (db.users.lookup (trimSpace req.userID)).isSome ∧
          (db.clients.lookup (trimSpace req.clientID)).isSome
    | none =>
      (db.users.lookup (trimSpace req.userID)).isSome ∧
        (db.clients.lookup (trimSpace req.clientID)).isSome

/- The entry of the history for a request. -/
def ConsentRequest.entry (req : ConsentRequest) (began : Time) : ConsentEntry :=
  ⟨trimSpace req.userID, trimSpace req.clientID, req.scopes, timestamptz began⟩

/- The database with the consent of a request. -/
def Db.consented (db : Db) (req : ConsentRequest) (began : Time) : Db :=
  let userID := trimSpace req.userID
  let clientID := trimSpace req.clientID
  match db.consents.lookup (userID, clientID) with
  | some old =>
    { db with
      consents := db.consents.modify (userID, clientID)
        (Consent.renew req.scopes (timestamptz began))
        (Consent.key_renew req.scopes (timestamptz began))
      history :=
        if equalStringSets old.scopes req.scopes then
          db.history
        else db.history ++ [req.entry began] }
  | none =>
    { db with
      consents := db.consents.insert
        ⟨userID, clientID, req.scopes, timestamptz began, timestamptz began⟩
      history := db.history ++ [req.entry began] }

----
-- Answers On Consents
----

variable {db : Db} {userID clientID : String} {scopes : List String} (now : Time)

theorem refers_ok (table : String) (hUser : (db.users.lookup userID).isSome)
    (hClient : (db.clients.lookup clientID).isSome) : db.refers table userID clientID = .ok () := by
  rcases Option.isSome_iff_exists.mp hUser with ⟨user, hUser⟩
  rcases Option.isSome_iff_exists.mp hClient with ⟨client, hClient⟩
  unfold Db.refers
  rw [hUser, hClient]

theorem refers_error (table : String)
    (hNot : ¬ ((db.users.lookup userID).isSome ∧ (db.clients.lookup clientID).isSome)) :
    ∃ e, db.refers table userID clientID = .error e := by
  unfold Db.refers
  cases hUser : db.users.lookup userID with
  | none => exact ⟨_, rfl⟩
  | some user =>
    cases hClient : db.clients.lookup clientID with
    | none => exact ⟨_, rfl⟩
    | some client =>
      rw [hUser, hClient] at hNot
      exact absurd ⟨rfl, rfl⟩ hNot

variable {old : Consent}

theorem exec_lockConsent_some (hOld : db.consents.lookup (userID, clientID) = some old) :
    (Stmt.lockConsent userID clientID).exec db = .ok (some old.scopes,
    [.lockConsent userID clientID]) := by
  simp only [Stmt.exec, hOld, Option.map_some]

theorem exec_lockConsent_none (hOld : db.consents.lookup (userID, clientID) = none) :
    (Stmt.lockConsent userID clientID).exec db = .ok (none, []) := by
  simp only [Stmt.exec, hOld, Option.map_none]

theorem exec_upsertConsent_some (hScopes : scopes ≠ [])
    (hOld : db.consents.lookup (userID, clientID) = some old) :
    (Stmt.upsertConsent userID clientID scopes now).exec db =
    .ok ((), [.updateConsent userID clientID scopes (timestamptz now)]) := by
  simp only [Stmt.exec, if_neg hScopes, hOld]

theorem exec_upsertConsent_none (hScopes : scopes ≠ [])
    (hOld : db.consents.lookup (userID, clientID) = none)
    (hRefers : db.refers "oauth_consents" userID clientID = .ok ()) :
    (Stmt.upsertConsent userID clientID scopes now).exec db =
    .ok ((), [.insertConsent ⟨userID, clientID, scopes, timestamptz now, timestamptz now⟩]) := by
  simp only [Stmt.exec, if_neg hScopes, hOld, hRefers]

theorem exec_upsertConsent_empty (hScopes : scopes = []) :
    ∃ e, (Stmt.upsertConsent userID clientID scopes now).exec db = .error e := by
  simp only [Stmt.exec, if_pos hScopes]
  exact ⟨_, rfl⟩

theorem exec_upsertConsent_error (hOld : db.consents.lookup (userID, clientID) = none)
    (hRefused : scopes = [] ∨ ¬ ((db.users.lookup userID).isSome ∧
    (db.clients.lookup clientID).isSome)) : ∃ e, (Stmt.upsertConsent userID clientID scopes
    now).exec db = .error e := by
  by_cases hScopes : scopes = []
  · exact exec_upsertConsent_empty now hScopes
  · rcases refers_error "oauth_consents" (hRefused.resolve_left hScopes) with ⟨e, hRefers⟩
    refine ⟨e, ?_⟩
    simp only [Stmt.exec, if_neg hScopes, hOld, hRefers]

theorem exec_insertConsentEntry (hScopes : scopes ≠ [])
    (hRefers : db.refers "oauth_consent_history" userID clientID = .ok ()) :
    (Stmt.insertConsentEntry userID clientID scopes now).exec db =
    .ok ((), [.insertConsentEntry ⟨userID, clientID, scopes, timestamptz now⟩]) := by
  simp only [Stmt.exec, if_neg hScopes, hRefers]

theorem exec_insertConsentEntry_error (hScopes : scopes ≠ [])
    (hRefused : ¬ ((db.users.lookup userID).isSome ∧ (db.clients.lookup clientID).isSome)) :
    ∃ e, (Stmt.insertConsentEntry userID clientID scopes now).exec db = .error e := by
  rcases refers_error "oauth_consent_history" hRefused with ⟨e, hRefers⟩
  refine ⟨e, ?_⟩
  simp only [Stmt.exec, if_neg hScopes, hRefers]

----
-- What A Call Leaves
----

theorem changed {old scopes : List String} (hOther : ¬ equalStringSets old scopes) :
    consentChanged scopes (some old) = true := by
  simpa [consentChanged] using hOther

theorem not_changed {old scopes : List String} (hSame : equalStringSets old scopes) :
    ¬ consentChanged scopes (some old) = true := by
  simp [consentChanged, hSame]

/- The request names a user and a client, and scopes. -/
def Db.Accepts (db : Db) (req : ConsentRequest) : Prop :=
  trimSpace req.userID ≠ "" ∧ trimSpace req.clientID ≠ "" ∧ req.scopes ≠ [] ∧
    (((db.users.lookup (trimSpace req.userID)).isSome ∧
        (db.clients.lookup (trimSpace req.clientID)).isSome) ∨
      ∃ old, db.consents.lookup (trimSpace req.userID, trimSpace req.clientID) =
            some old ∧ equalStringSets old.scopes req.scopes)

variable {req : ConsentRequest}

/- A request that is accepted is done. -/
theorem store_of_accepts (hAccepts : db.Accepts req)
    (began : Time) : store.withTx (storeOAuthConsent req began) db =
    (.ok (), db.consented req began) := by
  rcases hAccepts with ⟨hUser, hClient, hScopes, hKnown⟩
  unfold storeOAuthConsent Db.consented
  dsimp only
  rw [if_neg (not_or.mpr ⟨hUser, hClient⟩)]
  cases hOld : db.consents.lookup (trimSpace req.userID, trimSpace req.clientID) with
  | none =>
    rcases hKnown with hKnown | ⟨old, hFound, _⟩
    · refine (Engine.serial_ask_exec (exec_lockConsent_none hOld)).trans ?_
      refine (Engine.serial_ask_exec
        (exec_upsertConsent_none began hScopes hOld (refers_ok _ hKnown.1 hKnown.2))).trans ?_
      refine (Engine.serial_ask_exec
        (exec_insertConsentEntry began hScopes (refers_ok _ hKnown.1 hKnown.2))).trans ?_
      rfl
    · rw [hOld] at hFound
      cases hFound
  | some old =>
    refine (Engine.serial_ask_exec (exec_lockConsent_some hOld)).trans ?_
    refine (Engine.serial_ask_exec (exec_upsertConsent_some began hScopes hOld)).trans ?_
    dsimp only
    by_cases hSame : equalStringSets old.scopes req.scopes
    · rw [if_pos hSame, if_neg (not_changed hSame)]
      rfl
    · rw [if_neg hSame, if_pos (changed hSame)]
      rcases hKnown with hKnown | ⟨old', hFound, hEqual⟩
      · refine (Engine.serial_ask_exec
          (exec_insertConsentEntry began hScopes (refers_ok _ hKnown.1 hKnown.2))).trans ?_
        rfl
      · rw [hOld] at hFound
        cases hFound
        exact absurd hEqual hSame

/- Any other request is refused, and changes nothing. -/
theorem store_of_not_accepts (hNot : ¬ db.Accepts req)
    (began : Time) : ∃ e, store.withTx (storeOAuthConsent req began) db = (.error e, db) := by
  unfold storeOAuthConsent
  dsimp only
  by_cases hGiven : trimSpace req.userID = "" ∨ trimSpace req.clientID = ""
  · rw [if_pos hGiven]
    exact ⟨_, rfl⟩
  rw [if_neg hGiven]
  rcases not_or.mp hGiven with ⟨hUser, hClient⟩
  have hRefused : req.scopes = [] ∨ ¬ ((db.users.lookup (trimSpace req.userID)).isSome ∧
      (db.clients.lookup (trimSpace req.clientID)).isSome) := by
    by_contra hBoth
    rcases not_or.mp hBoth with ⟨hScopes, hKnown⟩
    exact hNot ⟨hUser, hClient, hScopes, .inl (not_not.mp hKnown)⟩
  cases hOld : db.consents.lookup (trimSpace req.userID, trimSpace req.clientID) with
  | none =>
    rcases exec_upsertConsent_error began hOld hRefused with ⟨e, hError⟩
    refine ⟨e, (Engine.serial_ask_exec (exec_lockConsent_none hOld)).trans ?_⟩
    exact Engine.serial_ask_error hError
  | some old =>
    by_cases hScopes : req.scopes = []
    · rcases exec_upsertConsent_empty began hScopes with ⟨e, hError⟩
      refine ⟨e, (Engine.serial_ask_exec (exec_lockConsent_some hOld)).trans ?_⟩
      exact Engine.serial_ask_error hError
    by_cases hSame : equalStringSets old.scopes req.scopes
    · exact absurd ⟨hUser, hClient, hScopes, .inr ⟨old, hOld, hSame⟩⟩ hNot
    · rcases exec_insertConsentEntry_error began hScopes
          (hRefused.resolve_left hScopes) with ⟨e, hError⟩
      refine ⟨e, (Engine.serial_ask_exec (exec_lockConsent_some hOld)).trans ?_⟩
      refine (Engine.serial_ask_exec (exec_upsertConsent_some began hScopes hOld)).trans ?_
      rw [if_pos (changed hSame)]
      exact Engine.serial_ask_error hError

variable {began : Time}

/- A request that would write a consent writes it. -/
theorem consented_of_stores (hStores : db.Stores req began) :
    (store.withTx (storeOAuthConsent req began) db).2 = db.consented req began := by
  rcases hStores with ⟨hUser, hClient, hScopes, hRow⟩
  have hAccepts : db.Accepts req := by
    refine ⟨hUser, hClient, hScopes, ?_⟩
    cases hOld : db.consents.lookup (trimSpace req.userID, trimSpace req.clientID) with
    | none =>
      rw [hOld] at hRow
      exact .inl hRow
    | some old =>
      rw [hOld] at hRow
      dsimp only at hRow
      by_cases hSame : equalStringSets old.scopes req.scopes
      · exact .inr ⟨old, rfl, hSame⟩
      · rw [if_neg hSame] at hRow
        exact .inl hRow
  rw [store_of_accepts hAccepts]

theorem modify_renewed {key : String × String}
    (hOld : db.consents.lookup key = some old) : db.consents.modify key
    (Consent.renew old.scopes old.updatedAt) (Consent.key_renew old.scopes old.updatedAt) =
    db.consents := by
  rcases Table.lookup_eq_some_iff.mp hOld with ⟨hRow, hKey⟩
  refine Table.modify_eq_self _ ?_
  intro c hOther hSame
  rw [Table.eq_of_key hOther hRow (hSame.trans hKey.symm)]
  rfl

/- Without that, it leaves everything as it was. -/
theorem kept_of_not_stores (hNot : ¬ db.Stores req began) :
    (store.withTx (storeOAuthConsent req began) db).2 =
    db := by
  by_cases hAccepts : db.Accepts req
  · rw [store_of_accepts hAccepts]
    rcases hAccepts with ⟨hUser, hClient, hScopes, hKnown⟩
    unfold Db.consented
    dsimp only
    cases hOld : db.consents.lookup (trimSpace req.userID, trimSpace req.clientID) with
    | none =>
      refine absurd ⟨hUser, hClient, hScopes, ?_⟩ hNot
      rw [hOld]
      rcases hKnown with hKnown | ⟨old, hFound, _⟩
      · exact hKnown
      · rw [hOld] at hFound
        cases hFound
    | some old =>
      by_cases hSame : equalStringSets old.scopes req.scopes
      · have hEqual : old.scopes = req.scopes ∧ old.updatedAt = timestamptz began := by
          by_contra hOther
          refine hNot ⟨hUser, hClient, hScopes, ?_⟩
          rw [hOld]
          dsimp only
          rw [if_pos hSame]
          exact not_and_or.mp hOther
        dsimp only
        rw [if_pos hSame, ← hEqual.1, ← hEqual.2]
        exact congrArg (fun t => { db with consents := t }) (modify_renewed hOld)
      · refine absurd ⟨hUser, hClient, hScopes, ?_⟩ hNot
        rw [hOld]
        dsimp only
        rw [if_neg hSame]
        rcases hKnown with hKnown | ⟨old', hFound, hEqual⟩
        · exact hKnown
        · rw [hOld] at hFound
          cases hFound
          exact absurd hEqual hSame
  · rcases store_of_not_accepts hAccepts began with ⟨e, hTx⟩
    rw [hTx]

end Fincore.AuthService
