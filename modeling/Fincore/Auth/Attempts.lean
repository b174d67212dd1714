import Fincore.Auth.Accounts
import Fincore.Auth.Limiting
import Mathlib.Data.List.Induction
import Mathlib.Data.List.Infix

/-
  Calls of `Login` for one key, interleaved.

  The limiter is asked before the password is checked and told of the result after it. Calls that
  were let pass and have not reported yet are not counted, so that the failures stay within the
  limit only if there is room for these calls too.

  Key definitions include:
    * `Limits.Bounds` and `Limits.Room`
    * `LoginCall` and `Service.keyOf`
    * `Stage`
    * `sent` and `roomFor`

  Main results:
    * `stage_next`
    * `attempted_step`
    * `failures_bounded`
-/

----
-- The Bound
----

namespace Fincore.Auth

def LimiterCall.failure? : LimiterCall → Option Int
| .onFailure now _ => some now
| _ => none

def LimiterCall.succeeds : LimiterCall → Bool
| .onSuccess _ => true
| _ => false

def failureTimes (cs : List LimiterCall) : List Int := cs.filterMap LimiterCall.failure?

/- No success is among the calls. -/
def WithoutSuccess (cs : List LimiterCall) : Prop := ∀ c ∈ cs, c.succeeds = false

section

variable {cs : List LimiterCall} {c : LimiterCall}

theorem failureTimes_concat (cs : List LimiterCall) (c : LimiterCall) :
    failureTimes (cs ++ [c]) = failureTimes cs ++ c.failure?.toList := by
  unfold failureTimes
  rw [List.filterMap_append]
  cases hTime : c.failure? with
  | none => rw [List.filterMap_cons_none hTime]; rfl
  | some t => rw [List.filterMap_cons_some hTime]; rfl

theorem WithoutSuccess.left {xs ys : List LimiterCall}
    (hFree : WithoutSuccess (xs ++ ys)) : WithoutSuccess xs :=
  fun c hMem => hFree c (List.mem_append_left ys hMem)

theorem WithoutSuccess.last {xs : List LimiterCall}
    (hFree : WithoutSuccess (xs ++ [c])) : c.succeeds = false :=
  hFree c (List.mem_append_right xs (.head _))

theorem suffix_concat_cases {suf : List LimiterCall} (hSuffix : suf <:+ cs ++ [c]) :
    suf = [] ∨ ∃ pre, suf = pre ++ [c] ∧ pre <:+ cs := by
  rcases List.suffix_concat_iff.mp hSuffix with hNil | ⟨pre, hEq, hPre⟩
  · exact .inl hNil
  · exact .inr ⟨pre, by simpa using hEq, hPre⟩

end

namespace Limits

variable (k : Limits)

/- Between two successes, at most `maxAttempts` failures in any time span of length `window`. -/
def Bounds (cs : List LimiterCall) : Prop :=
  ∀ seg, seg <:+: cs → WithoutSuccess seg → ∀ a : Int,
      (((failureTimes seg).filter (fun t =>
        decide (a < t ∧ t ≤ a + k.window))).length : Int) ≤ k.maxAttempts

/- The window of `now` has room for `n` failures more. -/
def Room (cs : List LimiterCall) (now : Int) (n : Nat) : Prop :=
  ∀ suf, suf <:+ cs → WithoutSuccess suf →
    (((failureTimes suf).filter (fun t =>
      decide (t > now - k.window))).length : Int) + n ≤ k.maxAttempts

variable {k} {cs : List LimiterCall} {c : LimiterCall} {now t : Int} {n : Nat}

theorem Room.mono {now' : Int} {n' : Nat} (hRoom : k.Room cs now n)
    (hLe : now ≤ now') (hFewer : n' ≤ n) : k.Room cs now' n' := by
  intro suf hSuffix hFree
  have hOld := hRoom suf hSuffix hFree
  have hSub : ((failureTimes suf).filter (fun t =>
        decide (t > now' - k.window))).Sublist
      ((failureTimes suf).filter (fun t =>
        decide (t > now - k.window))) := by
    refine List.monotone_filter_right _ ?_
    intro t hLater
    have hLater := of_decide_eq_true hLater
    exact decide_eq_true (by omega)
  have hLength := hSub.length_le
  omega

theorem Room.concat (hRoom : k.Room cs now n) (hNone : c.failure? = none) :
    k.Room (cs ++ [c]) now n := by
  intro suf hSuffix hFree
  rcases suffix_concat_cases hSuffix with rfl | ⟨pre, rfl, hPre⟩
  · exact hRoom [] List.nil_suffix hFree
  · rw [failureTimes_concat, hNone]
    simpa using hRoom pre hPre hFree.left

theorem Room.onSuccess (hRoom : k.Room cs now n) (hMany : c.succeeds = true)
    (now' : Int) : k.Room (cs ++ [c]) now' n := by
  intro suf hSuffix hFree
  rcases suffix_concat_cases hSuffix with rfl | ⟨pre, rfl, _⟩
  · exact hRoom [] List.nil_suffix hFree
  · rw [hFree.last] at hMany
    cases hMany

theorem Room.onFailure (hRoom : k.Room cs now (n + 1)) (key : String) :
    k.Room (cs ++ [.onFailure t key]) now n := by
  intro suf hSuffix hFree
  rcases suffix_concat_cases hSuffix with rfl | ⟨pre, rfl, hPre⟩
  · have hOld := hRoom [] List.nil_suffix hFree
    push_cast at hOld
    omega
  · have hOld := hRoom pre hPre hFree.left
    rw [failureTimes_concat, List.filter_append, List.length_append]
    have hOne :
        (([t] : List Int).filter (fun t =>
          decide (t > now - k.window))).length ≤ 1 := List.length_filter_le _ _
    push_cast at hOld ⊢
    have hLast : (LimiterCall.onFailure t key).failure?.toList = [t] := rfl
    rw [hLast]
    omega

theorem Bounds.concat (hBounds : k.Bounds cs)
    (hRoom : ∀ t ∈ c.failure?, k.Room cs t 1) : k.Bounds (cs ++ [c]) := by
  intro seg hInfix hFree a
  rcases List.infix_concat_iff.mp hInfix with hSuffix | hOld
  · rcases suffix_concat_cases hSuffix with rfl | ⟨pre, rfl, hPre⟩
    · exact hBounds [] List.nil_infix hFree a
    · have hOld := hBounds pre hPre.isInfix hFree.left a
      rw [failureTimes_concat, List.filter_append, List.length_append]
      cases hTime : c.failure? with
      | none => simpa using hOld
      | some t =>
        have hNow := hRoom t hTime pre hPre hFree.left
        by_cases hIn : a < t ∧ t ≤ a + k.window
        · -- the span lies in the window of this failure
          have hSub :
              ((failureTimes pre).filter (fun u =>
                decide (a < u ∧ u ≤ a + k.window))).Sublist
              ((failureTimes pre).filter (fun u =>
                decide (u > t - k.window))) := by
            refine List.monotone_filter_right _ ?_
            intro u hSpan
            have hSpan := of_decide_eq_true hSpan
            exact decide_eq_true (by omega)
          have hLength := hSub.length_le
          rw [Option.toList_some, List.filter_cons_of_pos (by simpa using hIn),
            List.filter_nil, List.length_singleton]
          push_cast at hNow ⊢
          omega
        · rw [Option.toList_some, List.filter_cons_of_neg (by simpa using hIn),
            List.filter_nil, List.length_nil]
          exact hOld
  · exact hBounds seg hOld hFree a

theorem failureTimes_suffix (k : Limits) {suf : List LimiterCall}
    (hSuffix : suf <:+ cs) (hFree : WithoutSuccess suf) :
    failureTimes suf <:+ (k.history cs).failures := by
  induction cs using List.reverseRecOn generalizing suf with
  | nil =>
    rw [List.suffix_nil.mp hSuffix]
    exact List.nil_suffix
  | append_singleton cs c ih =>
    rcases suffix_concat_cases hSuffix with rfl | ⟨pre, rfl, hPre⟩
    · exact List.nil_suffix
    · have hOld := ih hPre hFree.left
      have hLast := hFree.last
      have hRecord : k.history (cs ++ [c]) = k.record (k.history cs) c := List.foldl_concat ..
      rw [hRecord, failureTimes_concat]
      cases c with
      | allow now key =>
        rw [LoginLimiter.failures_record_allow]
        exact (List.append_nil _).symm ▸ hOld
      | onFailure now key =>
        rw [LoginLimiter.failures_record_onFailure]
        rcases hOld with ⟨before, hEq⟩
        rw [← hEq, List.append_assoc]
        exact ⟨before, rfl⟩
      | onSuccess key => cases hLast

theorem room_of_agrees {fails : List Time}
    (hFails : Agrees k.window now fails (k.history cs).failures)
    (hFew :
      ((fails.filter (fun t =>
      decide (t > now - k.window))).length : Int) + n ≤ k.maxAttempts) : k.Room cs now n := by
  intro suf hSuffix hFree
  have hSub :=
    ((failureTimes_suffix k hSuffix hFree).sublist.filter
      (fun t => decide (t > now - k.window))).length_le
  have hSame := hFails (now - k.window) (Int.le_refl _)
  rw [← hSame] at hSub
  refine Int.le_trans ?_ hFew
  exact Int.add_le_add_right (Int.ofNat_le.mpr hSub) _

/- The calls on a key, with `n` attempts that were let pass and have not reported. -/
structure Accounted (k : Limits) (cs : List LimiterCall) (n : Nat) : Prop where
  bounds : CallsInOrder cs → k.Bounds cs
  room : CallsInOrder cs → 0 < n → ∀ now, (∀ u ∈ timesOf cs, u ≤ now) → k.Room cs now n

theorem timesOf_concat (cs : List LimiterCall) (c : LimiterCall) :
    timesOf (cs ++ [c]) = timesOf cs ++ c.time?.toList := by
  unfold timesOf
  rw [List.filterMap_append]
  cases hTime : c.time? with
  | none => rw [List.filterMap_cons_none hTime]; rfl
  | some t => rw [List.filterMap_cons_some hTime]; rfl

theorem callsInOrder_concat (hOrder : CallsInOrder (cs ++ [c])) :
    CallsInOrder cs ∧ ∀ t ∈ c.time?, ∀ u ∈ timesOf cs, u ≤ t := by
  unfold CallsInOrder at hOrder ⊢
  rw [timesOf_concat, List.pairwise_append] at hOrder
  refine ⟨hOrder.1, ?_⟩
  intro t hTime u hMem
  exact hOrder.2.2 u hMem t (Option.mem_toList.mpr hTime)

theorem le_of_concat (hLast : ∀ u ∈ timesOf (cs ++ [c]), u ≤ now) : ∀ u ∈ timesOf cs, u ≤ now := by
  intro u hMem
  rw [timesOf_concat] at hLast
  exact hLast u (List.mem_append_left _ hMem)

theorem Accounted.mono {n' : Nat} (hAccounted : k.Accounted cs n)
    (hFewer : n' ≤ n) : k.Accounted cs n' := by
  refine ⟨hAccounted.bounds, ?_⟩
  intro hOrder hSome now hLast
  have hRoom := hAccounted.room hOrder (Nat.lt_of_lt_of_le hSome hFewer)
  exact (hRoom now hLast).mono (Int.le_refl now) hFewer

theorem Accounted.denied (hAccounted : k.Accounted cs n) (t : Time)
    (key : String) : k.Accounted (cs ++ [.allow t key]) n := by
  refine ⟨?_, ?_⟩
  · intro hOrder
    have hBefore := (callsInOrder_concat hOrder).1
    exact (hAccounted.bounds hBefore).concat (fun t hNone => nomatch hNone)
  · intro hOrder hSome now hLast
    have hBefore := (callsInOrder_concat hOrder).1
    exact (hAccounted.room hBefore hSome now (le_of_concat hLast)).concat rfl

theorem Accounted.admitted {t : Time} (hAccounted : k.Accounted cs n) (key : String)
    (hRoom : CallsInOrder (cs ++ [.allow t key]) → k.Room cs t (n + 1)) :
    k.Accounted (cs ++ [.allow t key]) (n + 1) := by
  refine ⟨(hAccounted.denied t key).bounds, ?_⟩
  intro hOrder _ now hLast
  have hFrom : t ≤ now := by
    refine hLast t ?_
    rw [timesOf_concat]
    exact List.mem_append_right _ (.head _)
  exact ((hRoom hOrder).concat rfl).mono hFrom (Nat.le_refl _)

theorem Accounted.failed (hAccounted : k.Accounted cs (n + 1)) (t : Time)
    (key : String) : k.Accounted (cs ++ [.onFailure t key]) n := by
  refine ⟨?_, ?_⟩
  · intro hOrder
    rcases callsInOrder_concat hOrder with ⟨hBefore, hTime⟩
    refine (hAccounted.bounds hBefore).concat ?_
    intro u hEq
    cases hEq
    exact (hAccounted.room hBefore n.succ_pos t
      (hTime t rfl)).mono (Int.le_refl _) (Nat.succ_le_succ n.zero_le)
  · intro hOrder _ now hLast
    have hBefore := (callsInOrder_concat hOrder).1
    exact (hAccounted.room hBefore n.succ_pos now (le_of_concat hLast)).onFailure key

theorem Accounted.succeeded (hAccounted : k.Accounted cs (n + 1))
    (key : String) : k.Accounted (cs ++ [.onSuccess key]) n := by
  refine ⟨?_, ?_⟩
  · intro hOrder
    have hBefore := (callsInOrder_concat hOrder).1
    exact (hAccounted.bounds hBefore).concat (fun t hNone => nomatch hNone)
  · intro hOrder _ now hLast
    have hBefore := (callsInOrder_concat hOrder).1
    have hRoom := hAccounted.room hBefore n.succ_pos now (le_of_concat hLast)
    exact (hRoom.onSuccess rfl now).mono (Int.le_refl _) n.le_succ

theorem accounted_nil (k : Limits) (hMax : 0 ≤ k.maxAttempts) : k.Accounted [] 0 := by
  refine ⟨?_, fun _ hNone => absurd hNone (Nat.lt_irrefl 0)⟩
  intro _ seg hInfix _ a
  rw [List.infix_nil.mp hInfix]
  exact hMax

end Limits

end Fincore.Auth

----
-- What A Login Asks For
----

namespace Fincore.AuthService

open Auth

structure LoginCall where
  req : LoginRequest
  md : Metadata
  env : Auth.Env

def Service.loginCall (srv : Service) (c : LoginCall) : Tx Tokens := srv.login c.req c.md c.env

/- The key that a call is counted under, if it is. -/
def Service.keyOf (srv : Service) (c : LoginCall) : Option String :=
  match srv.normalizeEmail c.req.email with
  | .ok email => some (limiterKey email c.md)
  | .error _ => none

namespace Stmt

def limiterCall? : Stmt → Option LimiterCall
| .allow now key => some (.allow now key)
| .onFailure now key => some (.onFailure now key)
| .onSuccess key => some (.onSuccess key)
| _ => none

/- Sent by a call that was let pass and has not reported. -/
def attempts : Stmt → Bool
| .selectUser _ => true
| .onFailure _ _ => true
| .onSuccess _ => true
| _ => false

def Plain (s : Stmt) : Prop := s.limiterCall? = none ∧ s.attempts = false

end Stmt

/- The call was let pass and has not reported. -/
def attempting (p : Tx Tokens) : Bool := p.next?.any Stmt.attempts

variable (srv : Service) (c : LoginCall)

/- How far a call of `Login` has come. -/
inductive Stage : Tx Tokens → Prop where
  | start : Stage (srv.loginCall c)
  | passed {email : String} (hEmail : srv.normalizeEmail c.req.email = .ok email) :
      Stage (.ask (.selectUser email) (srv.loginAs
        (limiterKey email c.md) (trimSpace c.req.password) c.md c.env))
  | checked {email : String} (hEmail : srv.normalizeEmail c.req.email = .ok email)
      (row : Option User) : Stage (srv.loginAs (limiterKey email c.md)
        (trimSpace c.req.password) c.md c.env row)
  | done {p : Tx Tokens} (hPlain : p.Asks Stmt.Plain) : Stage p

/- What a call sends, and what it is afterwards. -/
inductive Sends : (s : Stmt) → (Resp s → Tx Tokens) → Prop where
  | allow {key : String} {k : Bool → Tx Tokens} (hKey : srv.keyOf c = some key)
      (hDenied : attempting (k false) = false) : Sends (.allow c.env.now key) k
  | select {email : String} {k : Option User → Tx Tokens} : Sends (.selectUser email) k
  | failed {key : String} {k : Unit → Tx Tokens} (hKey : srv.keyOf c = some key)
      (hDone : attempting (k ()) = false) : Sends (.onFailure c.env.accessNow key) k
  | succeeded {key : String} {k : Unit → Tx Tokens}
      (hKey : srv.keyOf c = some key) (hDone : attempting (k ()) = false) : Sends (.onSuccess key) k
  | plain {s : Stmt} {k : Resp s → Tx Tokens} (hPlain : s.Plain)
      (hDone : ∀ r, attempting (k r) = false) : Sends s k

theorem plain_openSession (userID : String) :
    (srv.openSession c.md c.env userID).Asks Stmt.Plain := by
  unfold Service.openSession
  refine Prog.Asks.bind (Prog.asks_embed _ ?_) ?_
  · exact fun _ => ⟨rfl, rfl⟩
  · intro granted
    refine Prog.Asks.bind (Prog.asks_ofExcept _ _) ?_
    intro access
    refine Prog.Asks.bind (Prog.asks_ofExcept _ _) ?_
    intro refresh
    exact ⟨⟨rfl, rfl⟩, fun _ => trivial⟩

theorem login_cases : (∃ e, srv.loginCall c = .fail e) ∨
      ∃ email, srv.normalizeEmail c.req.email = .ok email ∧ srv.loginCall c =
          .ask (.allow c.env.now (limiterKey email c.md))
            (fun allowed : Bool =>
              if ¬ allowed then
                .fail (rateLimited "too many login attempts")
              else
                .ask (.selectUser email) (srv.loginAs (limiterKey email c.md)
                  (trimSpace c.req.password) c.md c.env)) := by
  unfold Service.loginCall Service.login
  cases hEmail : srv.normalizeEmail c.req.email with
  | error e => exact .inl ⟨e, rfl⟩
  | ok email =>
    rw [Prog.ofExcept_ok, Prog.ret_bind]
    dsimp only
    split
    · exact .inl ⟨_, rfl⟩
    · exact .inr ⟨email, rfl, rfl⟩

variable {srv c}

theorem attempting_of_plain {p : Tx Tokens} (hPlain : p.Asks Stmt.Plain) :
    attempting p = false := by
  unfold attempting
  cases hNext : p.next? with
  | none => rfl
  | some s => exact (hPlain.next hNext).2

theorem keyOf_eq {email : String} (hEmail : srv.normalizeEmail c.req.email = .ok email) :
    srv.keyOf c = some (limiterKey email c.md) := by
  unfold Service.keyOf
  rw [hEmail]

theorem stage_next {s : Stmt} {k : Resp s → Tx Tokens} (hStage : Stage srv c (.ask s k)) :
    Sends srv c s k ∧ ∀ r, Stage srv c (k r) := by
  generalize hProg : Prog.ask s k = p at hStage
  cases hStage with
  | start =>
    rcases login_cases srv c with ⟨e, hFail⟩ | ⟨email, hEmail, hAsk⟩
    · rw [hFail] at hProg
      cases hProg
    · rw [hAsk] at hProg
      cases hProg
      refine ⟨.allow (keyOf_eq hEmail) rfl, ?_⟩
      intro allowed
      cases allowed with
      | false => exact .done trivial
      | true => exact .passed hEmail
  | passed hEmail =>
    cases hProg
    exact ⟨.select, fun row => .checked hEmail row⟩
  | checked hEmail row =>
    have hKey := keyOf_eq hEmail
    cases row with
    | none =>
      cases hProg
      exact ⟨.failed hKey rfl, fun _ => .done trivial⟩
    | some user =>
      unfold Service.loginAs at hProg
      dsimp only at hProg
      split at hProg
      · cases hProg
      · cases hProg
        exact ⟨.failed hKey rfl, fun _ => .done trivial⟩
      · cases hProg
        have hPlain := plain_openSession srv c user.id
        exact ⟨.succeeded hKey (attempting_of_plain hPlain), fun _ => .done hPlain⟩
  | done hPlain =>
    subst hProg
    exact ⟨.plain hPlain.1 (fun r =>
        attempting_of_plain (hPlain.2 r)), fun r => .done (hPlain.2 r)⟩

----
-- Runs
----

abbrev LoginConfig := Engine.Config Db LoginCall Stmt Resp Write Status Tokens

/- The statement that a call sends next. -/
def nextOf (cfg : LoginConfig) (i : Nat) : Option Stmt := cfg.seen (fun _ p => p.next?) i

/- The call of the limiter that a step is. -/
def sent (cfg : LoginConfig) : Engine.Action LoginCall → Option LimiterCall
| .exec i => (nextOf cfg i).bind Stmt.limiterCall?
| _ => none

/- The call is an attempt of the key that has not reported. -/
def inFlight (srv : Service) (key : String)
    (call : Engine.Call LoginCall Stmt Resp Write Status Tokens) : Bool :=
  match call.state with
  | .running t =>
    decide (srv.keyOf call.input = some key) && attempting t.prog
  | .returned _ => false

/-
  The limiter lets an attempt of the key pass only if it has room for it and for those that have not
  reported.
-/
def roomFor (srv : Service) (key : String) (cfg : LoginConfig) : Engine.Action LoginCall → Bool
| .exec i =>
  match nextOf cfg i, cfg.db.limiter with
  | some (.allow now key'), some l =>
    decide (key' ≠ key) || !(l.allow now key).1.1 || decide
        (((l.recent now (l.state key).fails).length : Int) +
          cfg.calls.countP (inFlight srv key) < l.maxAttempts)
  | _, _ => true
| _ => true

theorem limiter_apply (db : Db) (w : Write) : (w.apply db).limiter = db.limiter := by
  cases w with
  | core w => cases w <;> rfl
  | _ => rfl

theorem limiter_view (db : Db) (ws : List Write) : (store.view db ws).limiter = db.limiter := by
  induction ws generalizing db with
  | nil => rfl
  | cons w ws ih => exact (ih _).trans (limiter_apply db w)

variable {db : Db}

theorem limiter_tick {l : LoginLimiter}
    (hLimiter : db.limiter = some l) (s : Stmt) : (s.tick db).limiter =
    some (l.after s.limiterCall?.toList) := by
  cases s with
  | allow now key =>
    show db.limiter.map _ = _
    rw [hLimiter]
    rfl
  | onFailure now key =>
    show db.limiter.map _ = _
    rw [hLimiter]
    rfl
  | onSuccess key =>
    show db.limiter.map _ = _
    rw [hLimiter]
    rfl
  | _ => exact hLimiter

theorem LoginLimiter.after_append (l : LoginLimiter)
    (cs ds : List LimiterCall) : l.after (cs ++ ds) = (l.after cs).after ds := List.foldl_append ..

variable {i : Nat}

/- One call of the list in place of another. -/
theorem countP_set {α : Type} (p : α → Bool) {xs : List α} {x : α}
    (hAt : xs[i]? = some x) (y : α) : (xs.set i y).countP p + (p x).toNat =
    xs.countP p + (p y).toNat := by
  induction xs generalizing i with
  | nil => cases hAt
  | cons z zs ih =>
    cases i with
    | zero =>
      cases hAt
      rw [List.set_cons_zero, List.countP_cons, List.countP_cons]
      cases p x <;> cases p y <;> simp
    | succ i =>
      have hRest := ih hAt
      rw [List.set_cons_succ, List.countP_cons, List.countP_cons]
      omega

variable {srv : Service} {key : String} {l₀ : LoginLimiter}
variable {cs : List LimiterCall} {cfg cfg' : LoginConfig}

/- What holds after the calls `cs` of the limiter. -/
structure Attempted (srv : Service) (key : String) (l₀ : LoginLimiter)
    (cs : List LimiterCall) (cfg : LoginConfig) : Prop where
  limiter : cfg.db.limiter = some (l₀.after cs)
  stages : ∀ i c t, cfg.Running i c t → Stage srv c t.prog
  accounted : l₀.limits.Accounted (callsOn key cs) (cfg.calls.countP (inFlight srv key))

theorem callsOn_append (key : String) (cs ds : List LimiterCall) :
    callsOn key (cs ++ ds) = callsOn key cs ++ callsOn key ds := List.filter_append ..

theorem count_returned {c : LoginCall}
    {t : Engine.Txn Stmt Resp Write Status Tokens} (hCall : cfg.Running i c t)
    (r : Except Status Tokens) : (cfg.calls.set i ⟨c, .returned r⟩).countP
    (inFlight srv key) ≤ cfg.calls.countP (inFlight srv key) := by
  have hCount := countP_set (inFlight srv key) hCall ⟨c, .returned r⟩
  have hNone : inFlight srv key ⟨c, .returned r⟩ = false := rfl
  rw [hNone] at hCount
  exact Nat.le.intro hCount

theorem attempting_loginCall (srv : Service) (c : LoginCall) :
    attempting (srv.loginCall c) = false := by
  rcases login_cases srv c with ⟨e, hFail⟩ | ⟨_, _, hAsk⟩
  · rw [hFail]
    rfl
  · rw [hAsk]
    rfl

variable {s : Stmt}

theorem sent_exec {c : LoginCall} {t : Engine.Txn Stmt Resp Write Status Tokens}
    {k : Resp s → Tx Tokens} (hCall : cfg.Running i c t)
    (hProg : t.prog = .ask s k) : nextOf cfg i = some s ∧ sent cfg (.exec i) = s.limiterCall? := by
  have hNext : nextOf cfg i = some s := by
    unfold nextOf
    rw [Engine.seen_running hCall, hProg]
    rfl
  refine ⟨hNext, ?_⟩
  show (nextOf cfg i).bind Stmt.limiterCall? = _
  rw [hNext]
  rfl

theorem limiterCall_of_error {e : Status}
    (hExec : s.exec db = .error e) : s.limiterCall? = none := by
  cases s with
  | allow now key => cases hExec
  | onFailure now key => cases hExec
  | onSuccess key => cases hExec
  | _ => rfl

theorem attempted_quiet {a : Engine.Action LoginCall}
    (hQuiet : sent cfg a = none) (hInv : Attempted srv key l₀ cs cfg') :
    Attempted srv key l₀ (cs ++ (sent cfg a).toList) cfg' := by
  rw [hQuiet, Option.toList_none, List.append_nil]
  exact hInv

theorem attempted_returned {c : LoginCall} {t : Engine.Txn Stmt Resp Write Status Tokens}
    (hInv : Attempted srv key l₀ cs cfg) (hCall : cfg.Running i c t)
    (hLimiter : db.limiter = cfg.db.limiter) (r : Except Status Tokens)
    (journal : List (Option Nat × Write)) : Attempted srv key l₀ cs
    ⟨db, cfg.calls.set i ⟨c, .returned r⟩, journal⟩ := by
  refine ⟨hLimiter.trans hInv.limiter, ?_, ?_⟩
  · intro j c' t' hj
    exact hInv.stages j c' t' (Engine.running_set_returned hj).2
  · exact hInv.accounted.mono (count_returned hCall r)

theorem count_advance {c : LoginCall}
    {t u : Engine.Txn Stmt Resp Write Status Tokens} (hCall : cfg.Running i c t)
    (hKey : srv.keyOf c = some key) : (cfg.calls.set i ⟨c, .running u⟩).countP
    (inFlight srv key) + (attempting t.prog).toNat =
    cfg.calls.countP (inFlight srv key) + (attempting u.prog).toNat := by
  have hCount := countP_set (inFlight srv key) hCall ⟨c, .running u⟩
  simpa [inFlight, hKey] using hCount

theorem count_advance_ne {c : LoginCall} {t t' : Engine.Txn Stmt Resp Write Status Tokens}
    (hCall : cfg.Running i c t) (hKey : srv.keyOf c ≠ some key) :
    (cfg.calls.set i ⟨c, .running t'⟩).countP (inFlight srv key) =
    cfg.calls.countP (inFlight srv key) := by
  have hCount := countP_set (inFlight srv key) hCall ⟨c, .running t'⟩
  simpa [inFlight, hKey] using hCount

theorem room_of_allowed {maxAttempts window lockout : Int} {now : Time} {n : Nat}
    (hFew :
      let l := (newLoginLimiter maxAttempts window lockout).after cs
      ((l.recent now (l.state key).fails).length : Int) + n < l.maxAttempts)
    (hOrder : CallsInOrder (callsOn key cs ++ [.allow now key])) :
    (newLoginLimiter maxAttempts window lockout).limits.Room (callsOn key cs) now (n + 1) := by
  have hLimits := LoginLimiter.limits_after (newLoginLimiter maxAttempts window lockout) cs
  rcases exists_le_of_callsInOrder hOrder with ⟨t, hFrom⟩
  rcases Limits.callsInOrder_concat hOrder with ⟨hBefore, hTime⟩
  rw [Limits.timesOf_concat] at hFrom
  have hFails := LoginLimiter.agrees_after (l := newLoginLimiter maxAttempts window lockout)
    (r := Record.empty) rfl (.refl _ t []) hBefore
    (fun u hMem => hFrom u (List.mem_append_left _ hMem))
    (hFrom now (List.mem_append_right _ (.head _))) (hTime now rfl)
  refine Limits.room_of_agrees hFails ?_
  have hWindow : ((newLoginLimiter maxAttempts window lockout).after cs).window =
      (newLoginLimiter maxAttempts window lockout).window := congrArg Limits.window hLimits
  have hMax : ((newLoginLimiter maxAttempts window lockout).after cs).maxAttempts =
      (newLoginLimiter maxAttempts window lockout).maxAttempts :=
    congrArg Limits.maxAttempts hLimits
  dsimp only at hFew
  unfold LoginLimiter.recent at hFew
  rw [hWindow, hMax] at hFew
  push_cast
  rw [← Int.add_assoc]
  exact Int.add_one_le_of_lt hFew

theorem key_of_sends {c : LoginCall} {k : Resp s → Tx Tokens}
    (hSends : Sends srv c s k) : ∀ call ∈ s.limiterCall?, srv.keyOf c = some call.key := by
  intro call hCall
  cases hSends with
  | allow hKey =>
    cases hCall
    exact hKey
  | select => cases hCall
  | failed hKey =>
    cases hCall
    exact hKey
  | succeeded hKey =>
    cases hCall
    exact hKey
  | plain hPlain =>
    rw [hPlain.1] at hCall
    cases hCall

theorem callsOn_ne {call? : Option LimiterCall}
    (hNe : ∀ call ∈ call?, call.key ≠ key) (cs : List LimiterCall) :
    callsOn key (cs ++ call?.toList) = callsOn key cs := by
  cases call? with
  | none => rw [Option.toList_none, List.append_nil]
  | some call =>
    rw [callsOn_append, Option.toList_some]
    have hNone : callsOn key [call] = [] := List.filter_cons_of_neg (by simpa using hNe call rfl)
    rw [hNone, List.append_nil]

theorem callsOn_self (cs : List LimiterCall) (call : LimiterCall) :
    callsOn call.key (cs ++ [call]) = callsOn call.key cs ++ [call] := by
  rw [callsOn_append]
  have hOne : callsOn call.key [call] = [call] := List.filter_cons_of_pos (decide_eq_true rfl)
  rw [hOne]

section

variable {maxAttempts window lockout : Int}

variable {ws : List Write} {l : LoginLimiter}

theorem allowed_of_exec {db : Db} {now : Time}
    (hLimiter : db.limiter = some l) (hExec : (Stmt.allow now key).exec db = .ok (true, ws)) :
    (l.allow now key).1.1 = true := by
  simp only [Stmt.exec, hLimiter] at hExec
  exact congrArg Prod.fst (Except.ok.inj hExec)

theorem few_of_roomFor {i : Nat} {c : LoginCall}
    {t : Engine.Txn Stmt Resp Write Status Tokens} {now : Time} {k : Bool → Tx Tokens}
    (hLimiter : cfg.db.limiter = some l) (hCall : cfg.Running i c t)
    (hProg : t.prog = .ask (.allow now key) k) (hRoom : roomFor srv key cfg (.exec i) = true)
    (hExec : (Stmt.allow now key).exec (store.view cfg.db t.writes) = .ok (true, ws)) :
    ((l.recent now (l.state key).fails).length : Int) + cfg.calls.countP (inFlight srv key) <
    l.maxAttempts := by
  have hNext := (sent_exec hCall hProg).1
  have hAllowed := allowed_of_exec ((limiter_view _ _).trans hLimiter) hExec
  unfold roomFor at hRoom
  dsimp only at hRoom
  rw [hNext, hLimiter] at hRoom
  simpa [hAllowed] using hRoom

theorem accounted_answered
    (hLimiter : cfg.db.limiter = some ((newLoginLimiter maxAttempts window lockout).after cs))
    (hAccounted : (newLoginLimiter maxAttempts window lockout).limits.Accounted (callsOn key cs)
    (cfg.calls.countP (inFlight srv key))) {i : Nat} {c : LoginCall}
    {t t' : Engine.Txn Stmt Resp Write Status Tokens} {s : Stmt}
    {k : Resp s → Tx Tokens} {r : Resp s}
    (hKey : srv.keyOf c = some key) (hCall : cfg.Running i c t)
    (hProg : t.prog = .ask s k) (hProg' : t'.prog = k r)
    (hSends : Sends srv c s k) (hRoom : roomFor srv key cfg (.exec i) = true)
    (hExec : s.exec (store.view cfg.db t.writes) = .ok (r, ws)) :
    (newLoginLimiter maxAttempts window lockout).limits.Accounted
    (callsOn key (cs ++ s.limiterCall?.toList))
    ((cfg.calls.set i ⟨c, .running t'⟩).countP (inFlight srv key)) := by
  have hCount := count_advance (u := t') hCall hKey
  rw [hProg, hProg'] at hCount
  cases hSends with
  | @allow key' k hKey' hDenied =>
    obtain rfl : key = key' := by
      rw [hKey] at hKey'
      exact Option.some.inj hKey'
    have hBefore : attempting (.ask (.allow c.env.now key) k) = false := rfl
    have hCalls : callsOn key (cs ++ (Stmt.allow c.env.now key).limiterCall?.toList) =
        callsOn key cs ++ [.allow c.env.now key] := callsOn_self cs (.allow c.env.now key)
    rw [hBefore] at hCount
    rw [hCalls]
    cases r with
    | false =>
      rw [hDenied] at hCount
      rw [Nat.add_right_cancel hCount]
      exact hAccounted.denied _ _
    | true =>
      have hFew := few_of_roomFor hLimiter hCall hProg hRoom hExec
      have hMore := Bool.toNat_le (attempting (k true))
      exact (hAccounted.admitted key (room_of_allowed hFew)).mono (by omega)
  | @select email k =>
    have hMore := Bool.toNat_le (attempting (k r))
    have hBefore : attempting (.ask (.selectUser email) k) = true := rfl
    have hCalls : callsOn key (cs ++
        (Stmt.selectUser email).limiterCall?.toList) = callsOn key cs :=
      congrArg (callsOn key) (List.append_nil cs)
    rw [hBefore] at hCount
    rw [hCalls]
    exact hAccounted.mono (Nat.le_of_add_le_add_right
      (hCount.trans_le (Nat.add_le_add_left hMore _)))
  | @failed key' k hKey' hDone =>
    obtain rfl : key = key' := by
      rw [hKey] at hKey'
      exact Option.some.inj hKey'
    have hBefore : attempting (.ask (.onFailure c.env.accessNow key) k) =
        true := rfl
    rw [hBefore, hDone] at hCount
    rw [← show _ = cfg.calls.countP (inFlight srv key) from hCount] at hAccounted
    exact callsOn_self cs (.onFailure c.env.accessNow key) ▸ hAccounted.failed _ _
  | @succeeded key' k hKey' hDone =>
    obtain rfl : key = key' := by
      rw [hKey] at hKey'
      exact Option.some.inj hKey'
    have hBefore : attempting (.ask (.onSuccess key) k) = true := rfl
    rw [hBefore, hDone] at hCount
    rw [← show _ = cfg.calls.countP (inFlight srv key) from hCount] at hAccounted
    exact callsOn_self cs (.onSuccess key) ▸ hAccounted.succeeded _
  | @plain s k hPlain hDone =>
    rw [hPlain.1, Option.toList_none, List.append_nil]
    have hAfter := hDone r
    refine hAccounted.mono ?_
    rw [hAfter] at hCount
    exact Nat.le.intro hCount

theorem attempted_step {a : Engine.Action LoginCall}
    (hInv : Attempted srv key (newLoginLimiter maxAttempts window lockout) cs cfg)
    (hRoom : roomFor srv key cfg a = true)
    (hStep : store.step srv.loginCall cfg a = some cfg') : Attempted srv key
    (newLoginLimiter maxAttempts window lockout) (cs ++ (sent cfg a).toList) cfg' := by
  cases Engine.step_spec hStep with
  | started c =>
    refine attempted_quiet rfl ⟨hInv.limiter, ?_, ?_⟩
    · intro j c' t hj
      rcases Engine.running_started hj with hOld | ⟨_, hFresh⟩
      · exact hInv.stages j c' t hOld
      · cases hFresh
        exact .start
    · have hFresh : inFlight srv key
          ⟨c, .running ⟨store.now cfg.db, [], srv.loginCall c⟩⟩ = false := by
        show (_ && attempting (srv.loginCall c)) = false
        rw [attempting_loginCall, Bool.and_false]
      rw [List.countP_append, List.countP_singleton, if_neg (by rw [hFresh]; decide)]
      exact hInv.accounted
  | @answered i c t s k r ws hCall hProg hFree hExec =>
    have hStage := hInv.stages i c t hCall
    rw [hProg] at hStage
    rcases stage_next hStage with ⟨hSends, hStages⟩
    rw [(sent_exec hCall hProg).2]
    refine ⟨?_, ?_, ?_⟩
    · rw [LoginLimiter.after_append]
      exact limiter_tick hInv.limiter s
    · intro j c' t' hj
      rcases Engine.running_advance hj with ⟨rfl, rfl, rfl⟩ | ⟨_, hOld⟩
      · exact hStages r
      · exact hInv.stages j c' t' hOld
    · by_cases hKey : srv.keyOf c = some key
      · exact accounted_answered hInv.limiter hInv.accounted hKey hCall hProg rfl hSends hRoom hExec
      · have hCount :
            (cfg.calls.set i ⟨c, .running
            ⟨t.began, t.writes ++ ws, k r⟩⟩).countP (inFlight srv key) =
            cfg.calls.countP (inFlight srv key) := count_advance_ne hCall hKey
        have hOther : ∀ call ∈ s.limiterCall?, call.key ≠ key := by
          intro call hMem hEq
          rw [← hEq] at hKey
          exact hKey (key_of_sends hSends call hMem)
        rw [callsOn_ne hOther]
        exact hCount.symm ▸ hInv.accounted
  | @refused i c t s k e hCall hProg hExec =>
    have hNone := limiterCall_of_error hExec
    have hLimiter : (s.tick cfg.db).limiter = cfg.db.limiter := by
      rw [limiter_tick hInv.limiter, hNone, hInv.limiter]
      rfl
    exact attempted_quiet ((sent_exec hCall hProg).2.trans hNone)
      (attempted_returned hInv hCall hLimiter (.error e) _)
  | committed hCall hProg =>
    exact attempted_quiet rfl (attempted_returned hInv hCall (limiter_view cfg.db _) _ _)
  | rejected hCall hProg =>
    exact attempted_quiet rfl (attempted_returned hInv hCall rfl _ _)
  | unacked hCall hProg =>
    exact attempted_quiet rfl (attempted_returned hInv hCall (limiter_view cfg.db _) _ _)
  | broke hCall =>
    exact attempted_quiet rfl (attempted_returned hInv hCall rfl _ _)

/-
  The failures of a key stay within the limit, in every run in which the limiter has room for what
  it lets pass.
-/
theorem failures_bounded (srv : Service) (key : String) {db : Db}
    (hLimiter : db.limiter = some (newLoginLimiter maxAttempts window lockout))
    {as : List (Engine.Action LoginCall)} {cfg : LoginConfig}
    (hRun : Transition.run (store.step srv.loginCall) ⟨db, [], []⟩ as = some cfg)
    (hRoom : Transition.Meets (store.step srv.loginCall)
      (fun cfg a => roomFor srv key cfg a = true) ⟨db, [], []⟩ as)
    (hOrder : CallsInOrder (callsOn key
      (Transition.trace (store.step srv.loginCall) sent ⟨db, [], []⟩ as))) :
    (newLoginLimiter maxAttempts window lockout).limits.Bounds
      (callsOn key (Transition.trace (store.step srv.loginCall) sent ⟨db, [], []⟩ as)) := by
  have hMax := maxAttempts_newLoginLimiter maxAttempts window lockout
  have hStart : Attempted srv key (newLoginLimiter maxAttempts window lockout) [] ⟨db, [], []⟩ := by
    refine ⟨hLimiter, ?_, ?_⟩
    · intro i c t hCall
      cases hCall
    · exact Limits.accounted_nil _ (Int.le_of_lt hMax)
  have hInv := Transition.trace_induction
    (fun _ _ _ _ hInv hRoom hStep =>
      attempted_step hInv hRoom hStep) hStart hRoom hRun
  rw [List.nil_append] at hInv
  exact hInv.accounted.bounds hOrder

end

/- A user, and a limiter of so many attempts. -/
def Db.limited (maxAttempts : Int) : Db :=
  { Db.empty with
    users := (Table.empty _).insert ⟨"u", "v", "V", "secret"⟩
    limiter := some (newLoginLimiter maxAttempts 100 0) }

/- A login with a wrong password. -/
def guess : LoginCall := ⟨⟨"v", "wrong"⟩, Metadata.none, Env.drawing 1000 "r"⟩

/- The limiter is asked, the row is read, the result told. -/
def attempt (i : Nat) : List (Engine.Action LoginCall) := [.exec i, .exec i, .exec i, .finish i]

/- Two attempts of two, one after the other. -/
theorem failures_bounded_of_two : (newLoginLimiter 2 100 0).limits.Bounds
      (callsOn "v|"
      (Transition.trace (store.step Service.plain.loginCall) sent ⟨Db.limited 2, [], []⟩
      (.start guess :: attempt 0 ++ .start guess :: attempt 1))) := by
  have hRuns :
      (Transition.run (store.step Service.plain.loginCall) ⟨Db.limited 2, [], []⟩
      (.start guess :: attempt 0 ++ .start guess :: attempt 1)).isSome = true := by
    decide +kernel
  rcases Option.isSome_iff_exists.mp hRuns with ⟨cfg, hRun⟩
  exact failures_bounded Service.plain "v|" rfl hRun (by decide +kernel) (by decide +kernel)

/- Two attempts of one, both let pass before one reports. -/
theorem two_guesses_in_flight : callsOn "v|"
      (Transition.trace (store.step Service.plain.loginCall) sent ⟨Db.limited 1, [], []⟩
      ([.start guess, .start guess, .exec 0, .exec 1, .exec 0, .exec 0, .exec 1, .exec 1])) =
      [.allow 1000 "v|", .allow 1000 "v|", .onFailure 1000 "v|", .onFailure 1000 "v|"] ∧
    ¬ (newLoginLimiter 1 100 0).limits.Bounds
      [.allow 1000 "v|", .allow 1000 "v|", .onFailure 1000 "v|", .onFailure 1000 "v|"] := by
  refine ⟨by decide +kernel, ?_⟩
  intro hBounds
  have hTwo := hBounds _ (List.infix_refl _) (by unfold WithoutSuccess; decide) 950
  exact absurd hTwo (by decide)

end Fincore.AuthService
