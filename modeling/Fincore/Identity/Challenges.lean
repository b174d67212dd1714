import Fincore.Identity.WebAuthn
import Mathlib.Data.List.Forall2
import Mathlib.Data.List.Perm.Subperm

/-
  Challenges, and the handlers they are handed to.

  A run is observed where a challenge is stored and where a handler is given one. What is still in
  the table and what was handed out is part of what was stored, row by row.

  Key definitions include:
    * `Event` and `observe`
    * `Handing.Of`
    * `Allowed`
    * `Challenged`

  Main results:
    * `sessions_spec`
    * `allowed_prog`
    * `challenged_step`
    * `challenges_once`
-/

----
-- What Is Observed
----

namespace Fincore.WebAuthn

/- What `popSession` was asked for, and what it returned. -/
structure Handing where
  id : String
  kind : SessionKind
  now : Time
  userID : String
  sessionData : String
  deriving DecidableEq

/- A challenge is stored by a call, or handed to one. -/
inductive Event where
  | stored (c : Call) (row : SessionRow)
  | handed (c : Call) (h : Handing)

def Event.row? : Event → Option SessionRow
| .stored _ row => some row
| .handed _ _ => none

def Event.handing? : Event → Option Handing
| .stored _ _ => none
| .handed _ h => some h

/- The row is inserted, acknowledged or not. -/
def stores (row : SessionRow) (db : WebAuthnDb) (o : Autocommit.Outcome) : Bool :=
  decide (o ≠ .lost) && (exec (.insertSession row) db).1.isOk

/- What a statement of a call shows. -/
def shows (c : Call) (db : WebAuthnDb) (o : Autocommit.Outcome) : Stmt → Option Event
| .insertSession row =>
  if stores row db o then some (.stored c row) else none
| .popSession id kind now =>
  match o, (pop id kind now db).1 with
  | .done, some (userID, sessionData) =>
    some (.handed c ⟨id, kind, now, userID, sessionData⟩)
  | _, _ => none
| _ => none

def observe (cfg : Config) : Autocommit.Action Call → Option Event
| .start _ => none
| .send i o =>
  match cfg.calls[i]? with
  | some (c, .ask s _) => shows c cfg.db o s
  | _ => none

/- The rows that a run has stored, and what it handed out. -/
def storings (es : List Event) : List SessionRow := es.filterMap Event.row?

def handings (es : List Event) : List Handing := es.filterMap Event.handing?

/- The row is handed out, to its kind and before its end. -/
structure Handing.Of (h : Handing) (row : SessionRow) : Prop where
  id : row.id = h.id
  kind : row.kind = h.kind
  userID : row.userID = h.userID
  sessionData : row.sessionData = h.sessionData
  live : h.now < row.expiresAt

----
-- Who Asks
----

/- The call begins a ceremony of the kind. -/
def Call.Begins (c : Call) (kind : SessionKind) : Prop :=
  match c with
  | .beginLogin _ _ => kind = .login
  | .beginRegister _ _ => kind = .register
  | _ => False

/- The call finishes one, with its cookie and its clock. -/
def Call.Finishes (c : Call) (id : String) (kind : SessionKind) (now : Time) : Prop :=
  match c with
  | .finishLogin r env =>
    kind = .login ∧ id = trimSpace (r.sessionCookie.getD "") ∧ now = env.now
  | .finishRegister r env =>
    kind = .register ∧ id = trimSpace (r.sessionCookie.getD "") ∧ now = env.now
  | _ => False

/-
  Which calls store challenges and which ask for them, and which write passkeys and open browser
  sessions.
-/
def Allowed (c : Call) : Stmt → Prop
| .insertSession row => c.Begins row.kind
| .popSession id kind now => c.Finishes id kind now
| .upsertCredential _ => ∃ r env, c = .finishRegister r env
| .updateCredential _ _ _ => ∃ r env, c = .finishLogin r env
| .insertBrowserSession _ => ∃ r env, c = .finishLogin r env
| _ => True

def Event.Proper : Event → Prop
| .stored c row => c.Begins row.kind
| .handed c h => c.Finishes h.id h.kind h.now

variable {lib : Library} {c : Call}

variable {kind : SessionKind}

theorem allowed_putSession (hBegins : c.Begins kind)
    (userID sessionData : String) (env : Env) (failed : String) :
    (putSession kind userID sessionData env failed).Asks (Allowed c) := by
  unfold putSession
  split
  · trivial
  · refine ⟨hBegins, ?_⟩
    intro stored
    cases stored with
    | error e => trivial
    | ok u => trivial

theorem allowed_withSession {r : Request} {env : Env}
    {failed expired : String} {next : String → String → Handler}
    (hFinishes : c.Finishes (trimSpace (r.sessionCookie.getD "")) kind env.now)
    (hNext : ∀ userID sessionData, (next userID sessionData).Asks (Allowed c)) :
    (withSession kind r env failed expired next).Asks (Allowed c) := by
  unfold withSession
  dsimp only
  split
  · trivial
  · refine ⟨hFinishes, ?_⟩
    intro x
    match x with
    | .error e => trivial
    | .ok none => trivial
    | .ok (some (userID, sessionData)) =>
      exact hNext userID sessionData

theorem allowed_withCredentials {userID : String} {next : List Credential → Handler}
    (hNext : ∀ creds, (next creds).Asks (Allowed c)) :
    (withCredentials userID next).Asks (Allowed c) := by
  refine ⟨trivial, ?_⟩
  intro x
  cases x with
  | error e => trivial
  | ok creds => exact hNext creds

theorem allowed_withBrowser {r : Request} {env : Env} {refused : String} {next : String → Handler}
    (hNext : ∀ userID, (next userID).Asks (Allowed c)) :
    (withBrowser r env refused next).Asks (Allowed c) := by
  unfold withBrowser
  dsimp only
  split
  · trivial
  · refine ⟨trivial, ?_⟩
    intro x
    match x with
    | .error e => trivial
    | .ok none => trivial
    | .ok (some s) => exact hNext s.userID

theorem allowed_openBrowser (hLogin : ∃ r env, c = .finishLogin r env)
    (userID : String) (env : Env) : (openBrowser userID env).Asks (Allowed c) := by
  unfold openBrowser
  split
  · split
    · trivial
    · refine ⟨hLogin, ?_⟩
      intro x
      cases x with
      | error e => trivial
      | ok u => trivial
  · trivial

variable (r : Request)

theorem allowed_beginLogin (env : Env) :
    (lib.handleBeginLogin r env).Asks (Allowed (.beginLogin r env)) := by
  have hBegins : (Call.beginLogin r env).Begins .login := rfl
  unfold Library.handleBeginLogin
  dsimp only
  split
  · trivial
  split
  · trivial
  refine ⟨trivial, ?_⟩
  intro x
  match x with
  | .error e => trivial
  | .ok none => trivial
  | .ok (some user) =>
    refine allowed_withCredentials ?_
    intro creds
    split
    · trivial
    split
    · trivial
    · exact allowed_putSession hBegins _ _ _ _

theorem allowed_finishLogin (env : Env) :
    (lib.handleFinishLogin r env).Asks (Allowed (.finishLogin r env)) := by
  unfold Library.handleFinishLogin
  refine allowed_withSession ⟨rfl, rfl, rfl⟩ ?_
  intro userID sessionData
  refine allowed_withCredentials ?_
  intro creds
  split
  · trivial
  · exact ⟨⟨r, env, rfl⟩, fun _ => allowed_openBrowser ⟨r, env, rfl⟩ _ _⟩

theorem allowed_beginRegister (env : Env) :
    (lib.handleBeginRegister r env).Asks (Allowed (.beginRegister r env)) := by
  have hBegins : (Call.beginRegister r env).Begins .register := rfl
  unfold Library.handleBeginRegister
  refine allowed_withBrowser ?_
  intro userID
  refine allowed_withCredentials ?_
  intro creds
  split
  · trivial
  · exact allowed_putSession hBegins _ _ _ _

theorem allowed_finishRegister (env : Env) : (lib.handleFinishRegister r env).Asks
    (Allowed (.finishRegister r env)) := by
  unfold Library.handleFinishRegister
  refine allowed_withSession ⟨rfl, rfl, rfl⟩ ?_
  intro userID sessionData
  refine allowed_withCredentials ?_
  intro creds
  split
  · trivial
  split
  · trivial
  · refine ⟨⟨r, env, rfl⟩, ?_⟩
    intro x
    cases x with
    | error e => trivial
    | ok u => trivial

theorem allowed_deleteCredential (env : Env) : (handleDeleteCredential r env).Asks (Allowed c) := by
  unfold handleDeleteCredential
  split
  · trivial
  · refine allowed_withBrowser ?_
    intro userID
    refine ⟨trivial, ?_⟩
    intro x
    match x with
    | .error e => trivial
    | .ok false => trivial
    | .ok true => trivial

/- Every call, from its start. -/
theorem allowed_prog (lib : Library) (c : Call) : (lib.prog c).Asks (Allowed c) := by
  cases c with
  | beginLogin r env => exact allowed_beginLogin r env
  | finishLogin r env => exact allowed_finishLogin r env
  | beginRegister r env => exact allowed_beginRegister r env
  | finishRegister r env => exact allowed_finishRegister r env
  | deleteCredential r env =>
    exact allowed_deleteCredential r env
  | cleanupSessions now => exact ⟨trivial, fun _ => trivial⟩
  | register id email => exact ⟨trivial, fun _ => trivial⟩

----
-- What A Statement Does To The Challenges
----

variable {db : WebAuthnDb}

theorem pop_cases (id : String) (kind : SessionKind) (now : Time)
    (db : WebAuthnDb) : pop id kind now db = (none, db) ∨ ∃ row ∈ db.sessions.rows, Handing.Of
    ⟨id, kind, now, row.userID, row.sessionData⟩ row ∧
    (pop id kind now db).1 = some (row.userID, row.sessionData) ∧
    (pop id kind now db).2.sessions = db.sessions.filter (fun t => t.id ≠ id) := by
  unfold pop
  split
  · rename_i row hFound
    rcases Table.lookup_eq_some_iff.mp hFound with ⟨hRow, hId⟩
    split
    · rename_i hLive
      exact .inr ⟨row, hRow, ⟨hId, hLive.1, rfl, rfl, hLive.2⟩, rfl, rfl⟩
    · exact .inl rfl
  · exact .inl rfl

theorem insertSession_cases (row : SessionRow) (db : WebAuthnDb) :
    (∃ e, exec (.insertSession row) db = (.error e, db)) ∨
    (exec (.insertSession row) db).1 = .ok () ∧ (exec (.insertSession row) db).2.sessions.rows =
    db.sessions.rows ++ [row] := by
  simp only [exec]
  split
  · exact .inl ⟨_, rfl⟩
  · split
    · exact .inl ⟨_, rfl⟩
    · rename_i hFree
      exact .inr ⟨rfl, Table.rows_insert hFree⟩

variable {s : Stmt}

/- Other statements leave the challenges or delete some. -/
theorem sessions_sublist (hInsert : ∀ row, s ≠ .insertSession row)
    (hPop : ∀ id kind now, s ≠ .popSession id kind now) (db : WebAuthnDb) :
    (exec s db).2.sessions.rows.Sublist db.sessions.rows := by
  cases s with
  | insertSession row => exact absurd rfl (hInsert row)
  | popSession id kind now => exact absurd rfl (hPop id kind now)
  | cleanupSessions now => exact List.filter_sublist
  | upsertCredential row =>
    simp only [exec, upsert]
    split
    · exact .refl _
    · split_ifs
      · exact .refl _
      · exact .refl _
      · exact .refl _
  | insertBrowserSession t =>
    simp only [exec]
    split
    · exact .refl _
    · exact .refl _
  | insertUser id email =>
    simp only [exec]
    split_ifs
    · exact .refl _
    · exact .refl _
  | _ => exact .refl _

/- A challenge is stored, one is handed out, or nothing is seen and no row is added. -/
inductive SentSpec (c : Call) (db : WebAuthnDb) (s : Stmt)
    (rows : List SessionRow) : Option Event → Prop where
  | stored {row : SessionRow} (hStmt : s = .insertSession row)
      (hRows : rows = db.sessions.rows ++ [row]) : SentSpec c db s rows (some (.stored c row))
  | handed {h : Handing} {row : SessionRow} (hStmt : s = .popSession h.id h.kind h.now)
      (hRow : row ∈ db.sessions.rows) (hOf : h.Of row)
      (hRows : rows = db.sessions.rows.filter (fun t => t.id ≠ h.id)) :
      SentSpec c db s rows (some (.handed c h))
  | silent (hRows : rows.Sublist db.sessions.rows) : SentSpec c db s rows none

theorem sent_insertSession (c : Call) (db : WebAuthnDb) (row : SessionRow)
    (o : Autocommit.Outcome) : SentSpec c db (.insertSession row)
    (tables.send (.insertSession row) db o).2.sessions.rows
    (shows c db o (.insertSession row)) := by
  show SentSpec c db (.insertSession row) _ (if stores row db o then _ else _)
  unfold stores
  rcases insertSession_cases row db with ⟨e, hError⟩ | ⟨hOk, hRows⟩
  · rw [hError, if_neg (by simp [Except.isOk, Except.toBool])]
    refine .silent ?_
    rcases Autocommit.send_db (A := tables) (.insertSession row) db o with hDb | hDb
    · rw [hDb]
    · have hSame : tables.exec (.insertSession row) db = (.error e, db) := hError
      rw [hDb, hSame]
  · rw [hOk]
    cases o with
    | lost => exact .silent (.refl _)
    | done => exact .stored rfl hRows
    | unacked => exact .stored rfl hRows

theorem sent_popSession (c : Call) (db : WebAuthnDb) (id : String)
    (kind : SessionKind) (now : Time) (o : Autocommit.Outcome) :
    SentSpec c db (.popSession id kind now)
    (tables.send (.popSession id kind now) db o).2.sessions.rows
    (shows c db o (.popSession id kind now)) := by
  rcases pop_cases id kind now db with hNone | ⟨row, hRow, hOf, hPop, hRows⟩
  · have hShows : shows c db o (.popSession id kind now) = none := by
      unfold shows
      dsimp only
      rw [hNone]
      cases o with
      | done => rfl
      | lost => rfl
      | unacked => rfl
    rw [hShows]
    refine .silent ?_
    rcases Autocommit.send_db (A := tables) (.popSession id kind now) db o with hDb | hDb
    · rw [hDb]
    · rw [hDb]
      show (pop id kind now db).2.sessions.rows.Sublist _
      rw [hNone]
  · cases o with
    | lost => exact .silent (.refl _)
    | unacked =>
      refine .silent ?_
      show (pop id kind now db).2.sessions.rows.Sublist _
      rw [hRows]
      exact List.filter_sublist
    | done =>
      have hShows : shows c db .done (.popSession id kind now) = some (.handed c
          ⟨id, kind, now, row.userID, row.sessionData⟩) := by
        unfold shows
        dsimp only
        rw [hPop]
      rw [hShows]
      exact .handed rfl hRow hOf (congrArg Table.rows hRows)

theorem sent_spec (c : Call) (db : WebAuthnDb) (s : Stmt) (o : Autocommit.Outcome) :
    SentSpec c db s (tables.send s db o).2.sessions.rows (shows c db o s) := by
  by_cases hInsert : ∃ row, s = .insertSession row
  · rcases hInsert with ⟨row, rfl⟩
    exact sent_insertSession c db row o
  by_cases hPop : ∃ id kind now, s = .popSession id kind now
  · rcases hPop with ⟨id, kind, now, rfl⟩
    exact sent_popSession c db id kind now o
  have hShows : shows c db o s = none := by
    cases s with
    | insertSession row => exact absurd ⟨row, rfl⟩ hInsert
    | popSession id kind now =>
      exact absurd ⟨id, kind, now, rfl⟩ hPop
    | _ => rfl
  rw [hShows]
  refine .silent ?_
  rcases Autocommit.send_db (A := tables) s db o with hDb | hDb
  · rw [hDb]
  · rw [hDb]
    exact sessions_sublist (fun row hEq => hInsert ⟨row, hEq⟩)
      (fun id kind now hEq => hPop ⟨id, kind, now, hEq⟩) db

----
-- Runs
----

/- What was handed out and what is left was stored. -/
structure Challenged (start : WebAuthnDb) (es : List Event) (cfg : Config) : Prop where
  asks : ∀ i c p, cfg.At i c p → p.Asks (Allowed c)
  proper : ∀ e ∈ es, e.Proper
  used : ∃ rows, List.Forall₂ Handing.Of (handings es) rows ∧ (rows ++ cfg.db.sessions.rows).Subperm
        (start.sessions.rows ++ storings es)

variable {start : WebAuthnDb} {es : List Event} {cfg : Config}

theorem storings_concat (es : List Event) (e : Event) :
    storings (es ++ [e]) = storings es ++ e.row?.toList := by
  unfold storings
  rw [List.filterMap_append]
  cases e with
  | stored c row => rfl
  | handed c h => rfl

theorem handings_concat (es : List Event) (e : Event) : handings (es ++ [e]) =
    handings es ++ e.handing?.toList := by
  unfold handings
  rw [List.filterMap_append]
  cases e with
  | stored c row => rfl
  | handed c h => rfl

variable {left : List SessionRow} {e? : Option Event}

/- The rows after a statement, and what it shows. -/
theorem used_sent {c : Call} {db : WebAuthnDb}
    (hUsed : ∃ rows, List.Forall₂ Handing.Of (handings es) rows ∧
    (rows ++ db.sessions.rows).Subperm (start.sessions.rows ++ storings es))
    (hSent : SentSpec c db s left e?) : ∃ rows,
    List.Forall₂ Handing.Of (handings (es ++ e?.toList)) rows ∧ (rows ++ left).Subperm
    (start.sessions.rows ++ storings (es ++ e?.toList)) := by
  rcases hUsed with ⟨rows, hMatched, hStored⟩
  cases hSent with
  | @stored row hStmt hRows =>
    refine ⟨rows, ?_, ?_⟩
    · rw [Option.toList_some, handings_concat]
      simpa [Event.handing?] using hMatched
    · rw [Option.toList_some, storings_concat, hRows, ← List.append_assoc, ← List.append_assoc]
      exact hStored.append (.refl _)
  | @handed h row hStmt hRow hOf hRows =>
    refine ⟨rows ++ [row], ?_, ?_⟩
    · rw [Option.toList_some, handings_concat]
      exact List.rel_append hMatched (.cons hOf .nil)
    · -- the row was there and is not there any more
      have hLess : (row :: left).Subperm db.sessions.rows := by
        refine List.cons_subperm_of_not_mem_of_mem ?_ hRow ?_
        · rw [hRows, List.mem_filter]
          rintro ⟨_, hOther⟩
          exact absurd hOf.id (of_decide_eq_true hOther)
        · rw [hRows]
          exact List.filter_sublist.subperm
      rw [Option.toList_some, storings_concat, List.append_assoc]
      simpa [Event.row?] using (List.Subperm.append (.refl rows) hLess).trans hStored
  | silent hRows =>
    refine ⟨rows, ?_, ?_⟩
    · rw [Option.toList_none, List.append_nil]
      exact hMatched
    · rw [Option.toList_none, List.append_nil]
      exact (List.Subperm.append (.refl rows) hRows.subperm).trans hStored

theorem proper_sent {c : Call} {db : WebAuthnDb} (hAllowed : Allowed c s)
    (hSent : SentSpec c db s left e?) : ∀ e ∈ e?, e.Proper := by
  intro e hEvent
  cases hSent with
  | stored hStmt =>
    cases hEvent
    subst hStmt
    exact hAllowed
  | handed hStmt =>
    cases hEvent
    subst hStmt
    exact hAllowed
  | silent => cases hEvent

theorem challenged_step {lib : Library} {cfg' : Config}
    {a : Autocommit.Action Call} (hInv : Challenged start es cfg)
    (hStep : lib.step cfg a = some cfg') :
    Challenged start (es ++ (observe cfg a).toList) cfg' := by
  rcases Autocommit.step_cases hStep with ⟨c, rfl, rfl⟩ | ⟨i, o, c, s, k, rfl, hAt, rfl⟩
  · have hNone : es ++ (observe cfg (.start c)).toList = es := List.append_nil es
    rw [hNone]
    refine ⟨?_, hInv.proper, hInv.used⟩
    intro j c' p hAt
    rcases Autocommit.at_started hAt with hOld | ⟨rfl, rfl⟩
    · exact hInv.asks j c' p hOld
    · exact allowed_prog lib c'
  · have hShows : observe cfg (.send i o) = shows c cfg.db o s := by
      have hFound : cfg.calls[i]? = some (c, .ask s k) := hAt
      unfold observe
      dsimp only
      rw [hFound]
    have hSent := sent_spec c cfg.db s o
    have hAsks := hInv.asks i c _ hAt
    rw [hShows]
    refine ⟨?_, ?_, used_sent hInv.used hSent⟩
    · intro j c' p hAt'
      rcases Autocommit.at_sent hAt' with ⟨_, rfl, rfl⟩ | ⟨_, hOld⟩
      · exact hAsks.2 _
      · exact hInv.asks j c' p hOld
    · intro e hMem
      rcases List.mem_append.mp hMem with hOld | hNew
      · exact hInv.proper e hOld
      · exact proper_sent hAsks.1 hSent e (Option.mem_toList.mp hNew)

/-
  In every run: what is handed out are different rows of those stored, each to the kind it was
  stored for, with its user and its data, and before its end. A pop that finds no row changes
  nothing.
-/
theorem challenges_once (lib : Library) {start : WebAuthnDb}
    {as : List (Autocommit.Action Call)} {cfg : Config}
    (hRun : Transition.run lib.step ⟨start, []⟩ as = some cfg) :
    (∃ rows, List.Forall₂ Handing.Of
      (handings (Transition.trace lib.step observe ⟨start, []⟩ as)) rows ∧
      rows.Subperm (start.sessions.rows ++ storings
      (Transition.trace lib.step observe ⟨start, []⟩ as))) ∧
    (∀ e ∈ Transition.trace lib.step observe ⟨start, []⟩ as, e.Proper) ∧
    ∀ i o c id kind now k cfg', cfg.At i c (.ask (.popSession id kind now) k) →
      (pop id kind now cfg.db).1 = none → lib.step cfg (.send i o) = some cfg' →
      cfg'.db = cfg.db := by
  have hBegin : Challenged start [] ⟨start, []⟩ := by
    refine ⟨?_, ?_, [], .nil, ?_⟩
    · intro i c p hAt
      cases hAt
    · intro e hMem
      cases hMem
    · rw [List.nil_append]
      exact (List.sublist_append_left _ _).subperm
  have hMeets : Transition.Meets lib.step (fun _ _ => True) ⟨start, []⟩
      as := Transition.meets_of_forall (fun _ _ => trivial) _
  have hInv := Transition.trace_induction
    (fun _ _ _ _ hInv _ hStep => challenged_step hInv hStep) hBegin hMeets hRun
  rw [List.nil_append] at hInv
  refine ⟨?_, hInv.proper, ?_⟩
  · rcases hInv.used with ⟨rows, hMatched, hStored⟩
    exact ⟨rows, hMatched, (List.sublist_append_left _ _).subperm.trans hStored⟩
  · intro i o c id kind now k cfg' hAt hNone hStep
    rcases Autocommit.step_cases hStep with ⟨c', hStart, _⟩ | ⟨j, o', c', s, k', hSend, hAt', rfl⟩
    · cases hStart
    cases hSend
    cases hAt.symm.trans hAt'
    have hPop : pop id kind now cfg.db = (none, cfg.db) := by
      rcases pop_cases id kind now cfg.db with hMiss | ⟨row, _, _, hSome, _⟩
      · exact hMiss
      · rw [hNone] at hSome
        cases hSome
    rcases Autocommit.send_db (A := tables) (.popSession id kind now) cfg.db o with hDb | hDb
    · exact hDb
    · exact hDb.trans (congrArg Prod.snd hPop)

/- A registration, and its cookie used once more. -/
def registersTwice : List (Autocommit.Action Call) :=
  registers "v" 0 ++
    [.start (.finishLogin ⟨"", "", some "sv", none, ""⟩ ⟨0, fun _ => .ok "r"⟩), .send 2 .done]

theorem challenge_used_once : handings
      (Transition.trace Library.plain.step observe
      ⟨twoUsers, []⟩ registersTwice) = [⟨"sv", .register, 0, "v", "v"⟩] ∧
    ∃ rows, List.Forall₂ Handing.Of
      (handings (Transition.trace Library.plain.step observe ⟨twoUsers, []⟩ registersTwice)) rows ∧
      rows.Subperm (twoUsers.sessions.rows ++ storings
      (Transition.trace Library.plain.step observe ⟨twoUsers, []⟩ registersTwice)) := by
  have hRuns : (Transition.run Library.plain.step ⟨twoUsers, []⟩ registersTwice).isSome = true := by
    decide +kernel
  rcases Option.isSome_iff_exists.mp hRuns with ⟨cfg, hRun⟩
  exact ⟨by decide +kernel, (challenges_once Library.plain hRun).1⟩

end Fincore.WebAuthn
