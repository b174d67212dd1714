import Fincore.Identity.Challenges

/-
  The counters of passkeys, over calls one after the other.

  The library returns a credential whose counter has grown if the assertion's is greater, and as it
  was if not; either way without an error. `FinishLogin` does not look which of the two it was, and
  a registration overwrites the counter.

  Key definitions include:
    * `Assertions`
    * `Kept` and `Grows`
    * `Library.served`

  Main results:
    * `counted_finishLogin` and `counted_finishRegister`
    * `counters_kept`
-/

----
-- Assertions
----

namespace Fincore.WebAuthn

/-
  What the body of a login asserts: a credential and its counter. `UpdateCounter` keeps a counter
  that did not grow.
-/
structure Assertions (lib : Library) where
  credentialID : String → String
  counter : String → Nat
  finishLogin_ok : ∀ userID creds sessionData body cred,
      lib.finishLogin userID creds sessionData body = .ok cred → cred.id = credentialID body ∧
          ∃ known ∈ creds, known.id = credentialID body ∧ cred.signCount =
              if known.signCount < counter body then
                counter body
              else known.signCount

variable {lib : Library}

/- The asserted counter is greater, or there are none. -/
def Assertions.Fresh (as : Assertions lib) (body : String) (row : CredentialRow) : Prop :=
  row.signCount < as.counter body ∨ row.signCount = 0 ∧ as.counter body = 0

/- The columns of a row say the same. -/
def Consistent (db : WebAuthnDb) : Prop :=
  ∀ row ∈ db.credentials.rows, row.credential.id = row.credentialID ∧
      row.credential.signCount = row.signCount

/- No counter is lower than it was. -/
def Counted (db db' : WebAuthnDb) : Prop :=
  ∀ row ∈ db.credentials.rows, ∀ row' ∈ db'.credentials.rows,
      row'.credentialID = row.credentialID → row.signCount ≤ row'.signCount

/- A stored row has the asserted credential and is fresh. -/
def Assertions.Opens (as : Assertions lib) (db : WebAuthnDb) : Call → Prop
| .finishLogin r _ =>
  ∃ row ∈ db.credentials.rows, row.credentialID = as.credentialID r.body ∧ as.Fresh r.body row
| _ => False

/- What a call may make of the tables. -/
def Kept (as : Assertions lib) (db : WebAuthnDb) (c : Call) (db' : WebAuthnDb) : Prop :=
  (db'.browser.rows ≠ db.browser.rows → as.Opens db c) ∧ Counted db db'

/-
  The counter that the library accepts, in the session the request names, is fresh; the counter of a
  credential that is registered is not lower than that of one with its id.
-/
def Grows (as : Assertions lib) (db : WebAuthnDb) : Call → Prop
| .finishLogin r _ =>
  ∀ s ∈ db.sessions.rows, s.id = trimSpace (r.sessionCookie.getD "") → ∀ cred,
      lib.finishLogin s.userID ((db.rowsOf s.userID).map CredentialRow.credential)
          s.sessionData r.body = .ok cred → ∀ row ∈ db.credentials.rows,
          row.credentialID = as.credentialID r.body → as.Fresh r.body row
| .finishRegister r _ =>
  ∀ s ∈ db.sessions.rows, s.id = trimSpace (r.sessionCookie.getD "") → ∀ cred,
      lib.finishRegistration s.userID ((db.rowsOf s.userID).map CredentialRow.credential)
          s.sessionData r.body = .ok cred → ∀ row ∈ db.credentials.rows,
          row.credentialID = cred.id → row.signCount ≤ cred.signCount
| _ => True

/- A call alone, and how its statements end. -/
def Library.served (lib : Library) (db : WebAuthnDb)
    (c : Call × (Nat → Autocommit.Outcome)) : Option WebAuthnDb :=
  some (tables.alone (lib.prog c.1) c.2 db).2

----
-- What A Statement Keeps
----

variable {db₀ db : WebAuthnDb} {Q : Prop}

/- The tables since the call began, at `db₀`. -/
structure Since (db₀ : WebAuthnDb) (Q : Prop) (db : WebAuthnDb) : Prop where
  consistent : Consistent db
  counted : Counted db₀ db
  browser : db.browser.rows ≠ db₀.browser.rows → Q

/- A statement that keeps the counters, and `Q` if it opens. -/
def Keeping₀ (db₀ : WebAuthnDb) (Q : Prop) : Stmt → Prop
| .upsertCredential new =>
  new.credential.id = new.credentialID ∧
    new.credential.signCount = new.signCount ∧ ∀ row ∈ db₀.credentials.rows,
      row.credentialID = new.credentialID → row.signCount ≤ new.signCount
| .updateCredential _ id cred =>
  cred.id = id ∧ ∀ row ∈ db₀.credentials.rows, row.credentialID = id →
        row.signCount ≤ cred.signCount
| .insertBrowserSession _ => Q
| _ => True

theorem since_modify {id : String} {f : CredentialRow → CredentialRow}
    {hKey : ∀ row, (f row).credentialID = row.credentialID} (hSince : Since db₀ Q db)
    (hChanged : ∀ old ∈ db.credentials.rows, old.credentialID = id → (f old).credential.id = id ∧
      (f old).credential.signCount = (f old).signCount ∧
      ∀ row ∈ db₀.credentials.rows, row.credentialID = id →
      row.signCount ≤ (f old).signCount) : Since db₀ Q
      { db with credentials := db.credentials.modify id f hKey } := by
  refine ⟨?_, ?_, hSince.browser⟩
  · intro row hRow
    dsimp only at hRow
    rw [Table.mem_modify] at hRow
    rcases hRow with ⟨old, hOld, rfl⟩
    split
    · rename_i hId
      rcases hChanged old hOld hId with ⟨hSame, hCount, _⟩
      rw [hKey, hId]
      exact ⟨hSame, hCount⟩
    · exact hSince.consistent old hOld
  · intro row hRow row' hRow' hId
    dsimp only at hRow'
    rw [Table.mem_modify] at hRow'
    rcases hRow' with ⟨old, hOld, rfl⟩
    split at hId
    · rename_i hAt
      rw [if_pos hAt]
      rw [hKey, hAt] at hId
      exact (hChanged old hOld hAt).2.2 row hRow hId.symm
    · rename_i hAt
      rw [if_neg hAt]
      exact hSince.counted row hRow old hOld hId

theorem since_sublist {db' : WebAuthnDb} (hSince : Since db₀ Q db)
    (hRows : ∀ row ∈ db'.credentials.rows, row ∈ db.credentials.rows)
    (hBrowser : db'.browser = db.browser) : Since db₀ Q db' := by
  refine ⟨?_, ?_, ?_⟩
  · intro row hRow
    exact hSince.consistent row (hRows row hRow)
  · intro row hRow row' hRow'
    exact hSince.counted row hRow row' (hRows row' hRow')
  · rw [hBrowser]
    exact hSince.browser

theorem since_upsert {new : CredentialRow} (hSince : Since db₀ Q db)
    (hKeeping : Keeping₀ db₀ Q (.upsertCredential new)) : Since db₀ Q (upsert new db).2 := by
  rcases hKeeping with ⟨hId, hCount, hMore⟩
  unfold upsert
  split
  · refine since_modify hSince ?_
    intro old _ _
    exact ⟨hId, hCount, hMore⟩
  · split
    · exact hSince
    · split
      · exact hSince
      · refine ⟨?_, ?_, hSince.browser⟩
        · intro row hRow
          rcases Table.mem_of_mem_insert hRow with hOld | rfl
          · exact hSince.consistent row hOld
          · exact ⟨hId, hCount⟩
        · intro row hRow row' hRow' hSame
          rcases Table.mem_of_mem_insert hRow' with hOld | rfl
          · exact hSince.counted row hRow row' hOld hSame
          · exact hMore row hRow hSame.symm

/- The statements that leave passkeys and browsers alone. -/
def Stmt.aside : Stmt → Bool
| .upsertCredential _ => false
| .updateCredential _ _ _ => false
| .deleteCredential _ _ => false
| .insertBrowserSession _ => false
| _ => true

variable {s : Stmt}

theorem exec_aside (hAside : s.aside = true) (db : WebAuthnDb) :
    (exec s db).2.credentials = db.credentials ∧ (exec s db).2.browser = db.browser := by
  cases s with
  | upsertCredential row => cases hAside
  | updateCredential userID id cred => cases hAside
  | deleteCredential id userID => cases hAside
  | insertBrowserSession t => cases hAside
  | popSession id kind now =>
    simp only [exec, pop]
    split
    · split
      · exact ⟨rfl, rfl⟩
      · exact ⟨rfl, rfl⟩
    · exact ⟨rfl, rfl⟩
  | insertSession row =>
    simp only [exec]
    split
    · exact ⟨rfl, rfl⟩
    · split
      · exact ⟨rfl, rfl⟩
      · exact ⟨rfl, rfl⟩
  | insertUser id email =>
    simp only [exec]
    split
    · exact ⟨rfl, rfl⟩
    · exact ⟨rfl, rfl⟩
  | _ => exact ⟨rfl, rfl⟩

theorem since_aside (hSince : Since db₀ Q db)
    (hAside : s.aside = true) : Since db₀ Q (exec s db).2 := by
  rcases exec_aside hAside db with ⟨hRows, hBrowser⟩
  refine since_sublist hSince ?_ hBrowser
  rw [hRows]
  exact fun _ hRow => hRow

theorem since_exec (hSince : Since db₀ Q db)
    (hKeeping : Keeping₀ db₀ Q s) : Since db₀ Q (exec s db).2 := by
  cases s with
  | upsertCredential new => exact since_upsert hSince hKeeping
  | updateCredential userID id cred =>
    rcases hKeeping with ⟨hId, hMore⟩
    refine since_modify hSince ?_
    intro old hOld hAt
    split
    · exact ⟨hId, rfl, hMore⟩
    · rcases hSince.consistent old hOld with ⟨hSame, hCount⟩
      refine ⟨hSame.trans hAt, hCount, ?_⟩
      intro row hRow hRowID
      exact hSince.counted row hRow old hOld (hAt.trans hRowID.symm)
  | insertBrowserSession t =>
    simp only [exec]
    split
    · exact hSince
    · exact ⟨hSince.consistent, hSince.counted, fun _ => hKeeping⟩
  | deleteCredential id userID =>
    exact since_sublist hSince (fun row hRow => (Table.mem_filter.mp hRow).1) rfl
  | _ => exact since_aside hSince rfl

theorem since_send (hSince : Since db₀ Q db)
    (hKeeping : Keeping₀ db₀ Q s) (o : Autocommit.Outcome) :
    Since db₀ Q (tables.send s db o).2 := by
  rcases Autocommit.send_db (A := tables) s db o with hDb | hDb
  · rw [hDb]
    exact hSince
  · rw [hDb]
    exact since_exec hSince hKeeping

----
-- Calls
----

/- A call alone, from the tables it began with. -/
abbrev Counting (db₀ : WebAuthnDb) (Q : Prop) (p : Handler) (db : WebAuthnDb) : Prop :=
  Autocommit.Session tables Eq (Since db₀ Q) (fun _ => Keeping₀ db₀ Q) p db

variable {r : Request} {env : Env}

/- The passkeys are those of the beginning. -/
theorem counting_withSession {kind : SessionKind}
    {failed expired : String} {next : String → String → Handler}
    (hNext : ∀ s ∈ db₀.sessions.rows, s.id = trimSpace (r.sessionCookie.getD "") →
    ∀ db, db.credentials = db₀.credentials →
    Counting db₀ Q (next s.userID s.sessionData) db) : Counting db₀ Q
    (withSession kind r env failed expired next) db₀ := by
  unfold withSession
  dsimp only
  split
  · trivial
  · refine Autocommit.Session.ask (fun _ _ _ => trivial) (fun _ _ => trivial) ?_
    rintro db x rfl _ hAnswer
    cases x with
    | none => trivial
    | some found =>
      have hFound : (pop _ kind env.now db₀).1 = some found := Except.ok.inj hAnswer
      rcases pop_cases (trimSpace (r.sessionCookie.getD ""))
          kind env.now db₀ with hNone | ⟨row, hRow, hOf, hPop, _⟩
      · rw [hNone] at hFound
        cases hFound
      · rw [hPop] at hFound
        cases hFound
        exact hNext row hRow hOf.id _ (exec_aside rfl db₀).1

variable {userID : String}

theorem counting_withCredentials
    {next : List Credential → Handler} {db : WebAuthnDb} (hSame : db.credentials = db₀.credentials)
    (hNext : ∀ db, db.credentials = db₀.credentials → Counting db₀ Q
    (next ((db₀.rowsOf userID).map CredentialRow.credential)) db) :
    Counting db₀ Q (withCredentials userID next) db := by
  unfold withCredentials
  refine Autocommit.Session.ask (fun _ _ _ => trivial) (fun _ _ => trivial) ?_
  rintro db' creds rfl _ hAnswer
  have hCreds : (db.rowsOf userID).map CredentialRow.credential = creds := Except.ok.inj hAnswer
  unfold WebAuthnDb.rowsOf at hCreds
  rw [hSame] at hCreds
  rw [← hCreds]
  exact hNext _ hSame

theorem counting_openBrowser (hOpens : Q) (userID : String) (env : Env)
    (db : WebAuthnDb) : Counting db₀ Q (openBrowser userID env) db := by
  unfold openBrowser
  split
  · split
    · trivial
    · exact Autocommit.Session.ask (fun _ _ _ => hOpens)
        (fun _ _ => trivial) (fun _ _ _ _ _ => trivial)
  · trivial

/- The row that the library was given. -/
theorem row_of_known (hConsistent : Consistent db₀) {known : Credential}
    (hKnown : known ∈ (db₀.rowsOf userID).map CredentialRow.credential) :
    ∃ row ∈ db₀.credentials.rows, row.credentialID = known.id ∧
    row.signCount = known.signCount := by
  rcases List.mem_map.mp hKnown with ⟨row, hRow, rfl⟩
  have hRow := (List.mem_filter.mp hRow).1
  rcases hConsistent row hRow with ⟨hId, hCount⟩
  exact ⟨row, hRow, hId.symm, hCount.symm⟩

variable (as : Assertions lib)

theorem counted_finishLogin (hConsistent : Consistent db₀)
    (hGrows : Grows as db₀ (.finishLogin r env)) :
    Counting db₀ (as.Opens db₀ (.finishLogin r env)) (lib.handleFinishLogin r env) db₀ := by
  refine counting_withSession ?_
  intro s hSession hId db₁ hSame₁
  refine counting_withCredentials hSame₁ ?_
  intro db₂ hSame₂
  split
  · trivial
  · rename_i cred hChecked
    have hFresh := hGrows s hSession hId cred hChecked
    rcases as.finishLogin_ok _ _ _ _ _ hChecked with ⟨hCred, known, hKnown, hKnownID, hCount⟩
    rcases row_of_known hConsistent hKnown with ⟨row, hRow, hRowID, hRowCount⟩
    have hAsserted := hRowID.trans hKnownID
    intro db₃ _ _
    refine ⟨⟨rfl, ?_⟩, fun o => counting_openBrowser ?_ _ _ _⟩
    · -- there is one row with the id, the known one
      intro row' hRow' hRow'ID
      have hOne : row' = row :=
        Table.eq_of_key hRow' hRow (hRow'ID.trans (hCred.trans hAsserted.symm))
      rw [hOne, hRowCount, hCount]
      split
      · rename_i hLess
        exact Nat.le_of_lt hLess
      · exact Nat.le_refl _
    · exact ⟨row, hRow, hAsserted, hFresh row hRow hAsserted⟩

theorem counted_finishRegister (hGrows : Grows as db₀ (.finishRegister r env)) :
    Counting db₀ Q (lib.handleFinishRegister r env) db₀ := by
  refine counting_withSession ?_
  intro s hSession hId db₁ hSame₁
  refine counting_withCredentials hSame₁ ?_
  intro db₂ hSame₂
  split
  · trivial
  · rename_i cred hChecked
    split
    · trivial
    · refine Autocommit.Session.ask ?_ (fun _ _ => trivial) (fun _ _ _ _ _ => trivial)
      intro db₃ _ _
      exact ⟨rfl, rfl, hGrows s hSession hId cred hChecked⟩

variable {c : Call}

theorem counted_others (hLogin : ∀ r env, c ≠ .finishLogin r env)
    (hRegister : ∀ r env, c ≠ .finishRegister r env) (db : WebAuthnDb) :
    Counting db₀ Q (lib.prog c) db := by
  refine Autocommit.session_of_asks (allowed_prog lib c) ?_ db
  intro _ s hAllowed
  cases s with
  | upsertCredential row =>
    rcases hAllowed with ⟨r, env, hEq⟩
    exact absurd hEq (hRegister r env)
  | updateCredential userID id cred =>
    rcases hAllowed with ⟨r, env, hEq⟩
    exact absurd hEq (hLogin r env)
  | insertBrowserSession t =>
    rcases hAllowed with ⟨r, env, hEq⟩
    exact absurd hEq (hLogin r env)
  | _ => trivial

theorem counted_prog (hConsistent : Consistent db₀) (hGrows : Grows as db₀ c) : Counting db₀
    (as.Opens db₀ c) (lib.prog c) db₀ := by
  cases c with
  | finishLogin r env =>
    exact counted_finishLogin as hConsistent hGrows
  | finishRegister r env =>
    exact counted_finishRegister as hGrows
  | _ =>
    exact counted_others (fun _ _ hEq => by cases hEq) (fun _ _ hEq => by cases hEq) db₀

/- One call keeps the counters, and the columns in step. -/
theorem kept_served (hConsistent : Consistent db₀) (hGrows : Grows as db₀ c)
    (os : Nat → Autocommit.Outcome) :
    Since db₀ (as.Opens db₀ c) (tables.alone (lib.prog c) os db₀).2 := by
  have hStart : Since db₀ (as.Opens db₀ c) db₀ := by
    refine ⟨hConsistent, ?_, fun hNe => absurd rfl hNe⟩
    intro row hRow row' hRow' hId
    rw [Table.eq_of_key hRow' hRow hId]
  exact Autocommit.alone_keeps (J := Since db₀ (as.Opens db₀ c))
    (G := fun _ => Keeping₀ db₀ (as.Opens db₀ c))
    (fun _ _ o hSince hKeeping => since_send hSince hKeeping o)
    os (counted_prog as hConsistent hGrows) hStart

/-
  Calls one after the other, each from the tables that the last one left. If every counter that is
  accepted has grown, a browser session is opened for such a counter only, and no stored counter
  goes back.
-/
theorem counters_kept (as : Assertions lib) {start : WebAuthnDb}
    (hStart : Consistent start) {cs : List (Call × (Nat → Autocommit.Outcome))}
    (hGrows : Transition.Meets lib.served
      (fun db c => Grows as db c.1) start cs) : Transition.Meets lib.served
      (fun db c =>
      Kept as db c.1 (tables.alone (lib.prog c.1) c.2 db).2) start cs := by
  refine Transition.Meets.imp ?_ hStart hGrows
  intro db c hConsistent hGrows
  have hSince := kept_served as hConsistent hGrows c.2
  refine ⟨⟨hSince.browser, hSince.counted⟩, ?_⟩
  intro db' hServed
  cases hServed
  exact hSince.consistent

/- A library with one credential, counted by the body. -/
def Library.counting : Library where
  toLower := id
  beginLogin := fun userID _ => .ok userID
  beginRegistration := fun userID _ => .ok userID
  finishRegistration := fun _ _ _ body =>
    .ok ⟨"c", "key", body.length⟩
  finishLogin := fun _ creds _ body =>
    match creds.find? (fun known => known.id = "c") with
    | none => .error (.text "assertion")
    | some known =>
      .ok ⟨"c", known.publicKey,
        if known.signCount < body.length then body.length
        else known.signCount⟩
  finishLogin_key := by
    intro userID creds sessionData body cred hChecked
    split at hChecked
    · cases hChecked
    · rename_i known hFound
      cases hChecked
      exact ⟨known, List.mem_of_find?_eq_some hFound, rfl⟩

def Assertions.counting : Assertions Library.counting where
  credentialID := fun _ => "c"
  counter := String.length
  finishLogin_ok := by
    intro userID creds sessionData body cred hChecked
    simp only [Library.counting] at hChecked
    split at hChecked
    · cases hChecked
    · rename_i known hFound
      have hId := List.find?_some hFound
      cases hChecked
      exact ⟨rfl, known, List.mem_of_find?_eq_some hFound, of_decide_eq_true hId, rfl⟩

/- A passkey that has counted to two, and two challenges. -/
def countedToTwo : WebAuthnDb where
  users := [("v", "v@x")]
  credentials := (Table.empty _).insert ⟨"r", "v", "c", ⟨"c", "key", 2⟩, 2⟩
  sessions :=
    ((Table.empty _).insert ⟨"s", .login, "v", "v", 100⟩).insert ⟨"q", .register, "v", "v", 100⟩
  browser := Table.empty _
  popped := []

/- A login with a body, and every statement done. -/
def logsIn (body : String) : Call × (Nat → Autocommit.Outcome) :=
  (.finishLogin ⟨"", "", some "s", none, body⟩ ⟨0, fun _ => .ok "t"⟩, fun _ => .done)

/- The credential is registered again. -/
def registersAgain (body : String) : Call × (Nat → Autocommit.Outcome) :=
  (.finishRegister ⟨"", "", some "q", none, body⟩ ⟨0, fun _ => .ok "t"⟩, fun _ => .done)

theorem counters_kept_of_three : Transition.Meets Library.counting.served
      (fun db c =>
      Kept Assertions.counting db c.1 (tables.alone (Library.counting.prog c.1) c.2 db).2)
      countedToTwo [logsIn "xxx"] := by
  refine counters_kept Assertions.counting (by unfold Consistent; decide) ⟨?_, trivial⟩
  intro s _ _ cred _ row hRow _
  have hRow : row ∈ [(⟨"r", "v", "c", ⟨"c", "key", 2⟩, 2⟩ : CredentialRow)] := hRow
  rw [List.mem_singleton.mp hRow]
  exact .inl (by decide)

/-
  A counter of one opens a session, where two is stored; and a registration takes the stored counter
  back to one.
-/
theorem clone_logs_in :
    (tables.alone (Library.counting.prog (logsIn "x").1)
      (logsIn "x").2 countedToTwo).2.browser.rows.map BrowserSession.userID = ["v"] ∧
    countedToTwo.browser.rows.map BrowserSession.userID = [] ∧
    Assertions.counting.counter "x" = 1 ∧ countedToTwo.credentials.rows.map
      CredentialRow.signCount = [2] ∧
    (tables.alone (Library.counting.prog (registersAgain "x").1)
      (registersAgain "x").2 countedToTwo).2.credentials.rows.map
      CredentialRow.signCount = [1] := by
  decide +kernel

end Fincore.WebAuthn
