import Fincore.Auth.Limiter
import Mathlib.Data.List.Basic
import Mathlib.Tactic.Common

/-
  Calls of the limiter, one after the other.

  The limiter drops failures that have left the window. The reference keeps all failures of a key
  since its last success. From the time of the last call on, the two agree on the failures that a
  window can still reach.

  Key definitions include:
    * `LimiterCall` and `LoginLimiter.after`
    * `Limits.denied` and `Limits.history`
    * `Agrees` and `Refines`

  Main results:
    * `allow_spec`
    * `refines_perform`
    * `decisions_unpruned`
    * `lock_ends_iff`
-/

----
-- Calls
----

namespace Fincore.Auth

inductive LimiterCall where
  | allow (now : Time) (key : String)
  | onFailure (now : Time) (key : String)
  | onSuccess (key : String)
  deriving DecidableEq

namespace LimiterCall

def key : LimiterCall → String
| .allow _ key => key
| .onFailure _ key => key
| .onSuccess key => key

def time? : LimiterCall → Option Time
| .allow now _ => some now
| .onFailure now _ => some now
| .onSuccess _ => none

end LimiterCall

/- The calls on one key. -/
def callsOn (key : String) (cs : List LimiterCall) : List LimiterCall :=
  cs.filter (fun c => decide (c.key = key))

/- The times of the calls, in the order of the calls. -/
def timesOf (cs : List LimiterCall) : List Time := cs.filterMap LimiterCall.time?

/- Times do not go back. -/
def CallsInOrder (cs : List LimiterCall) : Prop := (timesOf cs).Pairwise (· ≤ ·)

instance (cs : List LimiterCall) : Decidable (CallsInOrder cs) :=
  inferInstanceAs (Decidable (List.Pairwise _ _))

namespace LoginLimiter

def perform (l : LoginLimiter) : LimiterCall → LoginLimiter
| .allow now key => (l.allow now key).2
| .onFailure now key => l.onFailure now key
| .onSuccess key => l.onSuccess key

def after (l : LoginLimiter) (cs : List LimiterCall) : LoginLimiter := cs.foldl perform l

end LoginLimiter

----
-- The Reference
----

structure Limits where
  maxAttempts : Int
  window : Int
  lockout : Int

/- All failures since the last success, and the lock's end. -/
structure Record where
  failures : List Time
  lockEnd : Option Time

def Record.empty : Record := ⟨[], none⟩

def Record.locked (r : Record) (now : Time) : Bool := r.lockEnd.any (fun e => decide (now < e))

namespace Limits

/- So many failures are later than `now - window`. -/
def exceeded (k : Limits) (now : Time) (r : Record) : Bool :=
  decide (k.maxAttempts ≤ (r.failures.filter (fun t => decide (t > now - k.window))).length)

def denied (k : Limits) (now : Time) (r : Record) : Bool := r.locked now || k.exceeded now r

/- What a call on the key leaves of its record. -/
def record (k : Limits) (r : Record) : LimiterCall → Record
| .allow now _ =>
  if r.locked now = false ∧ k.exceeded now r = true then
    { r with lockEnd := some (now + k.lockout) }
  else r
| .onFailure now _ =>
  let r := { r with failures := r.failures ++ [now] }
  if k.exceeded now r then
    { r with lockEnd := some (now + k.lockout) }
  else r
| .onSuccess _ => Record.empty

/- The record after the calls on one key. -/
def history (k : Limits) (cs : List LimiterCall) : Record := cs.foldl k.record Record.empty

end Limits

----
-- What A Call Does
----

def LoginState.Locked (s : LoginState) (now : Time) : Prop :=
  s.lockedUntil ≠ zeroTime ∧ now < s.lockedUntil

instance (s : LoginState) (now : Time) : Decidable (s.Locked now) :=
  inferInstanceAs (Decidable (_ ∧ _))

namespace LoginLimiter

variable (l : LoginLimiter)

def limits : Limits := ⟨l.maxAttempts, l.window, l.lockout⟩

@[simp] theorem limits_put (key : String) (s : Option LoginState) :
    (l.put key s).limits = l.limits := rfl

@[simp] theorem state_put_some (key : String) (s : LoginState) :
    (l.put key (some s)).state key = s := by
  simp [state, put]

@[simp] theorem state_put_none (key : String) : (l.put key none).state key = LoginState.zero := by
  simp [state, put]

theorem state_put_ne {key key' : String} (hNe : key' ≠ key)
    (s : Option LoginState) : (l.put key s).state key' = l.state key' := by
  simp [state, put, hNe]

/- The lock holds, it is set, or the key may try. -/
inductive AllowSpec (now : Time) (key : String) : (Bool × Time) × LoginLimiter → Prop where
  | locked (hLocked : (l.state key).Locked now) : AllowSpec now key
        ((false, (l.state key).lockedUntil), l.put key (some
            { l.state key with lastSeenTime := now }))
  | exceeded (hFree : ¬ (l.state key).Locked now)
      (hMany : l.maxAttempts ≤ (l.recent now (l.state key).fails).length) : AllowSpec now key
        ((false,
            if 0 < l.lockout then now + l.lockout
            else zeroTime), l.put key (some
            ⟨l.recent now (l.state key).fails,
              if 0 < l.lockout then now + l.lockout
              else (l.state key).lockedUntil, now⟩))
  | allowed (hFree : ¬ (l.state key).Locked now)
      (hFew : ((l.recent now (l.state key).fails).length : Int) < l.maxAttempts) : AllowSpec now key
        ((true, zeroTime), l.put key (some
            ⟨l.recent now (l.state key).fails, (l.state key).lockedUntil, now⟩))

theorem allow_spec (now : Time) (key : String) : l.AllowSpec now key (l.allow now key) := by
  unfold allow
  dsimp only
  split
  · rename_i hLocked
    exact .locked hLocked
  · rename_i hFree
    split
    · rename_i hMany
      have hSpec := AllowSpec.exceeded hFree hMany
      split
      · rename_i hLockout
        rwa [if_pos hLockout, if_pos hLockout] at hSpec
      · rename_i hLockout
        rwa [if_neg hLockout, if_neg hLockout] at hSpec
    · rename_i hFew
      exact .allowed hFree (Int.not_le.mp hFew)

theorem onFailure_eq (now : Time) (key : String) : l.onFailure now key = l.put key (some
        ⟨l.recent now (l.state key).fails ++ [now],
          if l.maxAttempts ≤ (l.recent now (l.state key).fails ++ [now]).length ∧ 0 < l.lockout then
            now + l.lockout
          else (l.state key).lockedUntil, now⟩) := by
  unfold onFailure
  dsimp only
  split
  · rfl
  · rfl

theorem perform_put (c : LimiterCall) : ∃ s, l.perform c = l.put c.key s := by
  cases c with
  | allow now key =>
    show ∃ s, (l.allow now key).2 = l.put key s
    have hSpec := l.allow_spec now key
    generalize l.allow now key = answer at hSpec
    cases hSpec with
    | locked => exact ⟨_, rfl⟩
    | exceeded => exact ⟨_, rfl⟩
    | allowed => exact ⟨_, rfl⟩
  | onFailure now key => exact ⟨_, l.onFailure_eq now key⟩
  | onSuccess key => exact ⟨none, rfl⟩

theorem limits_perform (c : LimiterCall) : (l.perform c).limits = l.limits := by
  rcases l.perform_put c with ⟨s, hPut⟩
  rw [hPut, limits_put]

theorem state_perform_ne {c : LimiterCall} {key : String} (hNe : key ≠ c.key) :
    (l.perform c).state key = l.state key := by
  rcases l.perform_put c with ⟨s, hPut⟩
  rw [hPut, state_put_ne l hNe]

theorem limits_after (cs : List LimiterCall) : (l.after cs).limits = l.limits := by
  induction cs generalizing l with
  | nil => rfl
  | cons c cs ih => exact (ih _).trans (l.limits_perform c)

end LoginLimiter

----
-- Agreement
----

/- The same failures, as far as a window from `t` on sees. -/
def Agrees (window t : Int) (fails failures : List Int) : Prop :=
  ∀ x, t - window ≤ x → fails.filter (fun u => decide (u > x)) =
      failures.filter (fun u => decide (u > x))

section

variable {window t now : Int} {fails failures : List Int}

theorem Agrees.refl (window t : Int) (fails : List Int) :
    Agrees window t fails fails := fun _ _ => rfl

theorem Agrees.mono (hAgrees : Agrees window t fails failures) (hLe : t ≤ now) :
    Agrees window now fails failures := by
  intro x hFrom
  exact hAgrees x (by omega)

/- What the window from `now` on sees is still there. -/
theorem Agrees.pruned (hAgrees : Agrees window t fails failures) (hLe : t ≤ now) : Agrees window now
    (fails.filter (fun u => decide (u > now - window)))
    failures := by
  intro x hFrom
  rw [List.filter_filter, ← hAgrees x (by omega)]
  refine List.filter_congr ?_
  intro u _
  rw [Bool.and_eq_left_iff_imp]
  intro hLater
  exact decide_eq_true (Int.lt_of_le_of_lt hFrom (of_decide_eq_true hLater))

theorem Agrees.concat (hAgrees : Agrees window t fails failures) (u : Int) :
    Agrees window t (fails ++ [u]) (failures ++ [u]) := by
  intro x hFrom
  rw [List.filter_append, List.filter_append, hAgrees x hFrom]

end

/- A state of the limiter and a record decide the same. -/
structure Refines (k : Limits) (t : Int) (s : LoginState) (r : Record) : Prop where
  fails : Agrees k.window t s.fails r.failures
  lock : ∀ now, t ≤ now → (s.Locked now ↔ r.locked now = true)
  unlocked : ¬ 0 < k.lockout → s.lockedUntil = zeroTime

namespace LoginLimiter

variable {l : LoginLimiter} {r : Record} {t now : Int} {key : String}

theorem refines_zero (k : Limits) (t : Int) : Refines k t LoginState.zero Record.empty := by
  refine ⟨.refl _ _ _, ?_, fun _ => rfl⟩
  intro now _
  constructor
  · intro hLocked
    exact absurd rfl hLocked.1
  · intro hLocked
    cases hLocked

theorem exceeded_iff (hRefines : Refines l.limits t (l.state key) r)
    (hLe : t ≤ now) : l.limits.exceeded now r = true ↔ l.maxAttempts ≤
    (l.recent now (l.state key).fails).length := by
  have hSame := hRefines.fails (now - l.window) (show t - l.window ≤ _ by omega)
  unfold Limits.exceeded recent
  rw [decide_eq_true_iff, hSame]
  rfl

theorem allow_eq_denied (hRefines : Refines l.limits t (l.state key) r)
    (hLe : t ≤ now) : (l.allow now key).1.1 = !l.limits.denied now r := by
  have hLock := hRefines.lock now hLe
  have hMany := exceeded_iff hRefines hLe
  unfold Limits.denied
  have hSpec := l.allow_spec now key
  generalize l.allow now key = answer at hSpec
  cases hSpec with
  | locked hLocked => simp [hLock.mp hLocked]
  | exceeded hFree hExceeded => simp [hMany.mpr hExceeded]
  | allowed hFree hFew =>
    have hUnlocked : r.locked now = false := by
      rw [← Bool.not_eq_true, ← hLock]
      exact hFree
    have hBelow : l.limits.exceeded now r = false := by
      rw [← Bool.not_eq_true, hMany]
      exact Int.not_le.mpr hFew
    simp [hUnlocked, hBelow]

variable {k : Limits}

/- A lock that ends at `now + lockout`, seen from `now` on. -/
theorem refines_locked {fails failures : List Int} {s : LoginState}
    (hFails : Agrees k.window now fails failures)
    (hUnlocked : ¬ 0 < k.lockout → s.lockedUntil = zeroTime) (hNonneg : 0 ≤ k.lockout)
    (hZero : 0 < k.lockout → now + k.lockout ≠ zeroTime) : Refines k now
      ⟨fails,
        if 0 < k.lockout then now + k.lockout
        else s.lockedUntil, now⟩ ⟨failures, some (now + k.lockout)⟩ := by
  refine ⟨hFails, ?_, ?_⟩
  · intro u hLe
    unfold LoginState.Locked Record.locked
    rw [Option.any_some, decide_eq_true_iff]
    by_cases hLockout : 0 < k.lockout
    · rw [if_pos hLockout]
      exact and_iff_right (hZero hLockout)
    · rw [if_neg hLockout]
      constructor
      · intro hLocked
        exact absurd (hUnlocked hLockout) hLocked.1
      · intro hBefore
        have hEnd : u < now + k.lockout := hBefore
        omega
  · intro hLockout
    rw [if_neg hLockout]
    exact hUnlocked hLockout

theorem refines_mono {s s' : LoginState} {r' : Record}
    (hRefines : Refines k t s r) (hLe : t ≤ now) (hFails : Agrees k.window now s'.fails r'.failures)
    (hLock : s'.lockedUntil = s.lockedUntil) (hEnd : r'.lockEnd = r.lockEnd) :
    Refines k now s' r' := by
  refine ⟨hFails, ?_, ?_⟩
  · intro u hFrom
    have hSame := hRefines.lock u (Int.le_trans hLe hFrom)
    unfold LoginState.Locked Record.locked at hSame ⊢
    rw [hLock, hEnd]
    exact hSame
  · intro hLockout
    rw [hLock]
    exact hRefines.unlocked hLockout

theorem failures_record_allow (k : Limits) (r : Record) (now : Time)
    (key : String) : (k.record r (.allow now key)).failures = r.failures := by
  dsimp only [Limits.record]
  split
  · rfl
  · rfl

theorem failures_record_onFailure (k : Limits) (r : Record) (now : Time)
    (key : String) : (k.record r (.onFailure now key)).failures = r.failures ++ [now] := by
  dsimp only [Limits.record]
  split
  · rfl
  · rfl

theorem agrees_perform {c : LimiterCall}
    (hFails : Agrees l.window t (l.state c.key).fails r.failures)
    (hLater : ∀ u ∈ c.time?, t ≤ u) : Agrees l.window (c.time?.getD t)
    ((l.perform c).state c.key).fails (l.limits.record r c).failures := by
  cases c with
  | allow now key =>
    have hPruned := hFails.pruned (hLater now rfl)
    rw [failures_record_allow]
    show Agrees l.window now ((l.allow now key).2.state key).fails r.failures
    have hSpec := l.allow_spec now key
    generalize l.allow now key = answer at hSpec
    cases hSpec with
    | locked =>
      rw [state_put_some]
      exact hFails.mono (hLater now rfl)
    | exceeded =>
      rw [state_put_some]
      exact hPruned
    | allowed =>
      rw [state_put_some]
      exact hPruned
  | onFailure now key =>
    rw [failures_record_onFailure]
    show Agrees l.window now ((l.onFailure now key).state key).fails _
    rw [onFailure_eq, state_put_some]
    exact (hFails.pruned (hLater now rfl)).concat now
  | onSuccess key =>
    show Agrees l.window t ((l.put key none).state key).fails []
    rw [state_put_none]
    exact .refl _ _ _

theorem refines_allow (hRefines : Refines l.limits t (l.state key) r)
    (hNonneg : 0 ≤ l.lockout) (hLe : t ≤ now) (hZero : 0 < l.lockout → now + l.lockout ≠ zeroTime)
    (hFails : Agrees l.window now ((l.allow now key).2.state key).fails
    (l.limits.record r (.allow now key)).failures) :
    Refines l.limits now ((l.allow now key).2.state key) (l.limits.record r (.allow now key)) := by
  have hMany := exceeded_iff hRefines hLe
  have hLock := hRefines.lock now hLe
  have hSpec := l.allow_spec now key
  generalize l.allow now key = answer at hSpec hFails
  dsimp only [Limits.record] at hFails ⊢
  cases hSpec with
  | locked hLocked =>
    have hHolds : ¬ r.locked now = false := by
      simp [hLock.mp hLocked]
    rw [if_neg (fun hBoth => hHolds hBoth.1), state_put_some] at hFails ⊢
    exact refines_mono hRefines hLe hFails rfl rfl
  | exceeded hFree hExceeded =>
    have hUnlocked : r.locked now = false := by
      simpa [hLock] using hFree
    have hBoth : r.locked now = false ∧ l.limits.exceeded now r = true :=
      ⟨hUnlocked, hMany.mpr hExceeded⟩
    rw [if_pos hBoth, state_put_some] at hFails ⊢
    exact refines_locked hFails hRefines.unlocked hNonneg hZero
  | allowed hFree hFew =>
    have hBelow : ¬ l.limits.exceeded now r = true := by
      rw [hMany]
      exact Int.not_le.mpr hFew
    rw [if_neg (fun hBoth => hBelow hBoth.2), state_put_some] at hFails ⊢
    exact refines_mono hRefines hLe hFails rfl rfl

theorem refines_onFailure (hRefines : Refines l.limits t (l.state key) r)
    (hNonneg : 0 ≤ l.lockout) (hWindow : 0 < l.window) (hLe : t ≤ now)
    (hZero : 0 < l.lockout → now + l.lockout ≠ zeroTime) :
    Refines l.limits now ((l.onFailure now key).state key)
    (l.limits.record r (.onFailure now key)) := by
  have hFails := (hRefines.fails.pruned hLe).concat now
  have hMany : l.limits.exceeded now
          { r with failures := r.failures ++ [now] } = true ↔ l.maxAttempts ≤
          (l.recent now (l.state key).fails ++ [now]).length := by
    have hIn : now - l.window < now := by omega
    have hAll : (l.recent now (l.state key).fails ++ [now]).filter
            (fun u => decide (u > now - l.window)) = l.recent now (l.state key).fails ++ [now] := by
      rw [List.filter_append, recent, List.filter_filter]
      simp [hIn]
    have hSame := hFails (now - l.window) (Int.le_refl _)
    unfold Limits.exceeded
    rw [decide_eq_true_iff]
    exact iff_of_eq (congrArg (fun fails : List Time => l.maxAttempts ≤ fails.length)
      (hSame.symm.trans hAll))
  rw [onFailure_eq, state_put_some]
  dsimp only [Limits.record]
  by_cases hExceeded : l.limits.exceeded now { r with failures := r.failures ++ [now] } = true
  · rw [if_pos hExceeded]
    simp only [hMany.mp hExceeded, true_and]
    exact refines_locked hFails hRefines.unlocked hNonneg hZero
  · rw [if_neg hExceeded, if_neg (fun hBoth => hExceeded (hMany.mpr hBoth.1))]
    exact refines_mono hRefines hLe hFails rfl rfl

/- One call on the key, later than the ones before it. -/
theorem refines_perform {c : LimiterCall}
    (hRefines : Refines l.limits t (l.state c.key) r) (hNonneg : 0 ≤ l.lockout)
    (hWindow : 0 < l.window) (hLater : ∀ u ∈ c.time?, t ≤ u)
    (hZero : ∀ u ∈ c.time?, 0 < l.lockout → u + l.lockout ≠ zeroTime) :
    Refines l.limits (c.time?.getD t) ((l.perform c).state c.key) (l.limits.record r c) := by
  cases c with
  | allow now key =>
    exact refines_allow hRefines hNonneg (hLater now rfl)
      (hZero now rfl) (agrees_perform hRefines.fails hLater)
  | onFailure now key =>
    exact refines_onFailure hRefines hNonneg hWindow (hLater now rfl) (hZero now rfl)
  | onSuccess key =>
    show Refines l.limits t ((l.put key none).state key) Record.empty
    rw [state_put_none]
    exact refines_zero _ t

/- What the calls on the key keep, as long as their times do not go back, holds after any calls. -/
theorem after_induction {R : Int → LoginState → Record → Prop} {P : LimiterCall → Prop}
    (hMono : ∀ t now s r, R t s r → t ≤ now → R now s r)
    (hStep : ∀ (l : LoginLimiter) c t r, l.limits = k → P c →
    R t (l.state c.key) r → (∀ u ∈ c.time?, t ≤ u) →
    R (c.time?.getD t) ((l.perform c).state c.key) (k.record r c))
    {cs : List LimiterCall} (hLimits : l.limits = k)
    (hStart : R t (l.state key) r) (hOrder : CallsInOrder (callsOn key cs))
    (hFrom : ∀ u ∈ timesOf (callsOn key cs), t ≤ u) (hLe : t ≤ now)
    (hNow : ∀ u ∈ timesOf (callsOn key cs), u ≤ now)
    (hAll : ∀ c ∈ callsOn key cs, P c) : R now ((l.after cs).state key)
    ((callsOn key cs).foldl k.record r) := by
  induction cs generalizing l t r with
  | nil => exact hMono t now _ r hStart hLe
  | cons c cs ih =>
    have hLimits' := (l.limits_perform c).trans hLimits
    show R now (((l.perform c).after cs).state key) _
    by_cases hKey : c.key = key
    · subst hKey
      have hMine : callsOn c.key (c :: cs) = c :: callsOn c.key cs :=
        (List.filter_cons).trans (if_pos (decide_eq_true rfl))
      rw [hMine] at hOrder hFrom hNow hAll ⊢
      have hHead : ∀ u ∈ c.time?, u ∈ timesOf (c :: callsOn c.key cs) :=
        fun u hTime =>
          List.mem_filterMap.mpr ⟨c, .head _, hTime⟩
      have hTail : (timesOf (callsOn c.key cs)).Sublist (timesOf (c :: callsOn c.key cs)) :=
        (List.sublist_cons_self c _).filterMap _
      refine ih hLimits'
        (hStep l c t r hLimits (hAll c (.head _)) hStart (fun u hTime => hFrom u (hHead u hTime)))
        (hOrder.sublist hTail) ?_ ?_ (fun u hMem => hNow u (hTail.subset hMem))
        (fun c' hMem => hAll c' (.tail _ hMem))
      · intro u hMem
        cases hTime : c.time? with
        | none => exact hFrom u (hTail.subset hMem)
        | some v =>
          unfold CallsInOrder timesOf at hOrder
          rw [List.filterMap_cons_some hTime] at hOrder
          exact List.rel_of_pairwise_cons hOrder hMem
      · cases hTime : c.time? with
        | none => exact hLe
        | some v => exact hNow v (hHead v hTime)
    · have hOther : callsOn key (c :: cs) = callsOn key cs :=
        List.filter_cons_of_neg (by simpa using hKey)
      rw [hOther] at hOrder hFrom hNow hAll ⊢
      refine ih hLimits' ?_ hOrder hFrom hLe hNow hAll
      rw [state_perform_ne l (Ne.symm hKey)]
      exact hStart

theorem agrees_after {cs : List LimiterCall} (hLimits : l.limits = k)
    (hFails : Agrees k.window t (l.state key).fails r.failures)
    (hOrder : CallsInOrder (callsOn key cs))
    (hFrom : ∀ u ∈ timesOf (callsOn key cs), t ≤ u) (hLe : t ≤ now)
    (hNow : ∀ u ∈ timesOf (callsOn key cs), u ≤ now) :
    Agrees k.window now ((l.after cs).state key).fails
    ((callsOn key cs).foldl k.record r).failures :=
  after_induction (P := fun _ => True) (R := fun t s r => Agrees k.window t s.fails r.failures)
    (fun _ _ _ _ hFails hLe => hFails.mono hLe)
    (fun _ _ _ _ hLimits _ hFails hLater => by
      subst hLimits
      exact agrees_perform hFails hLater) hLimits hFails hOrder hFrom hLe hNow (fun _ _ => trivial)

theorem refines_after (hNonneg : 0 ≤ k.lockout)
    (hWindow : 0 < k.window) {cs : List LimiterCall} (hLimits : l.limits = k)
    (hRefines : Refines k t (l.state key) r) (hOrder : CallsInOrder (callsOn key cs))
    (hFrom : ∀ u ∈ timesOf (callsOn key cs), t ≤ u) (hLe : t ≤ now)
    (hNow : ∀ u ∈ timesOf (callsOn key cs), u ≤ now)
    (hZero : ∀ u ∈ timesOf (callsOn key cs), 0 < k.lockout →
    u + k.lockout ≠ zeroTime) : Refines k now ((l.after cs).state key)
    ((callsOn key cs).foldl k.record r) :=
  after_induction (P := fun c =>
      ∀ u ∈ c.time?, 0 < k.lockout → u + k.lockout ≠ zeroTime) (R := fun t s r => Refines k t s r)
    (fun _ _ _ _ hRefines hLe =>
      refines_mono hRefines hLe (hRefines.fails.mono hLe) rfl rfl)
    (fun _ _ _ _ hLimits hZero hRefines hLater => by
      subst hLimits
      exact refines_perform hRefines hNonneg hWindow hLater hZero)
    hLimits hRefines hOrder hFrom hLe hNow
    (fun c hMem u hTime =>
      hZero u (List.mem_filterMap.mpr ⟨c, hMem, hTime⟩))

end LoginLimiter

/- Where the configuration stands as it was given. -/
theorem limits_newLoginLimiter {maxAttempts window lockout : Int}
    (hMax : 1 ≤ maxAttempts) (hWindow : 0 < window) (hLockout : 0 ≤ lockout) :
    (newLoginLimiter maxAttempts window lockout).limits = ⟨maxAttempts, window, lockout⟩ := by
  unfold newLoginLimiter LoginLimiter.limits
  rw [if_neg (by omega), if_neg (by omega), if_neg (by omega)]

theorem exists_le_of_callsInOrder {cs : List LimiterCall}
    (hOrder : CallsInOrder cs) : ∃ t : Int, ∀ u ∈ timesOf cs, t ≤ u := by
  unfold CallsInOrder at hOrder
  cases hTimes : timesOf cs with
  | nil => exact ⟨0, fun u hMem => nomatch hMem⟩
  | cons t ts =>
    rw [hTimes] at hOrder
    refine ⟨t, ?_⟩
    intro u hMem
    rcases List.mem_cons.mp hMem with hHead | hTail
    · exact Int.le_of_eq hHead.symm
    · exact List.rel_of_pairwise_cons hOrder hTail

/-
  Every decision is that of the reference, as long as no lock ends at the zero time, which stands
  for no lock.
-/
theorem decisions_unpruned {maxAttempts window lockout : Int}
    (hMax : 1 ≤ maxAttempts) (hWindow : 0 < window) (hLockout : 0 ≤ lockout)
    {cs : List LimiterCall} {now : Time} {key : String}
    (hOrder : CallsInOrder (cs ++ [.allow now key]))
    (hZero : ∀ u ∈ timesOf cs, 0 < lockout → u + lockout ≠ zeroTime) :
    (((newLoginLimiter maxAttempts window lockout).after cs).allow now key).1.1 =
      !(Limits.mk maxAttempts window lockout).denied now
      ((Limits.mk maxAttempts window lockout).history (callsOn key cs)) := by
  have hLimits := limits_newLoginLimiter hMax hWindow hLockout
  have hTimes : timesOf (cs ++ [.allow now key]) = timesOf cs ++ [now] := List.filterMap_append
  rcases exists_le_of_callsInOrder hOrder with ⟨t, hFrom⟩
  unfold CallsInOrder at hOrder
  rw [hTimes] at hOrder hFrom
  rcases List.pairwise_append.mp hOrder with ⟨hBefore, _, hNow⟩
  have hMine : (timesOf (callsOn key cs)).Sublist (timesOf cs) := List.filter_sublist.filterMap _
  have hRefines : Refines ⟨maxAttempts, window, lockout⟩ now
      (((newLoginLimiter maxAttempts window lockout).after cs).state key)
      ((Limits.mk maxAttempts window lockout).history (callsOn key cs)) :=
    LoginLimiter.refines_after hLockout hWindow hLimits
      (LoginLimiter.refines_zero _ t) (hBefore.sublist hMine)
      (fun u hMem =>
        hFrom u (List.mem_append_left _ (hMine.subset hMem)))
      (hFrom now (List.mem_append_right _ (.head _)))
      (fun u hMem => hNow u (hMine.subset hMem) now (.head _))
      (fun u hMem => hZero u (hMine.subset hMem))
  have hSame := (LoginLimiter.limits_after _ cs).trans hLimits
  rw [← hSame] at hRefines ⊢
  exact LoginLimiter.allow_eq_denied hRefines (Int.le_refl _)

/- A failure that has left the window, and two that have not. -/
theorem decisions_unpruned_of_three_failures :
    (((newLoginLimiter 3 120 900).after
      [.onFailure 0 "a", .onFailure 100 "a", .allow 130 "a", .onFailure 140 "a",
      .onFailure 150 "b"]).allow 200 "a").1.1 = !(Limits.mk 3 120 900).denied 200
      ((Limits.mk 3 120 900).history
      [.onFailure 0 "a", .onFailure 100 "a", .allow 130 "a", .onFailure 140 "a"]) :=
  decisions_unpruned (by decide) (by decide) (by decide) (by decide) (by decide)

/- A lock that ends at the zero time is not seen. -/
theorem lock_missed_at_zero_time : CallsInOrder
      [.onFailure (zeroTime - 10) "a", .allow (zeroTime - 5) "a"] ∧
    (((newLoginLimiter 1 1 10).after [.onFailure (zeroTime - 10) "a"]).allow
      (zeroTime - 5) "a").1.1 = true ∧ (Limits.mk 1 1 10).denied (zeroTime - 5)
      ((Limits.mk 1 1 10).history [.onFailure (zeroTime - 10) "a"]) = true := by
  decide +kernel

----
-- When A Lock Ends
----

namespace LoginLimiter

/- What `allow` answers on the key, with the times it asks. -/
def answers (key : String) : LoginLimiter → List LimiterCall → List (Time × Bool)
| _, [] => []
| l, .allow now key' :: cs =>
  if key' = key then
    (now, (l.allow now key').1.1) :: answers key (l.allow now key').2 cs
  else answers key (l.allow now key').2 cs
| l, .onFailure now key' :: cs =>
  answers key (l.onFailure now key') cs
| l, .onSuccess key' :: cs =>
  answers key (l.onSuccess key') cs

/- From `u` on, the key may try. -/
def AllowsFrom (l : LoginLimiter) (key : String) (u : Time) (cs : List LimiterCall) : Prop :=
  ∀ d ∈ l.answers key cs, u ≤ d.1 → d.2 = true

/- The first try from `u` on, unless a success comes before. -/
def firstFrom (key : String) (u : Time) : List LimiterCall → Option Time
| [] => none
| .allow now key' :: cs =>
  if key' = key ∧ u ≤ now then some now
  else firstFrom key u cs
| .onFailure _ _ :: cs => firstFrom key u cs
| .onSuccess key' :: cs =>
  if key' = key then none else firstFrom key u cs

/- Too few of the failures are later than `now - window`. -/
def Few (l : LoginLimiter) (now : Time) (fails : List Time) : Prop :=
  ((l.recent now fails).length : Int) < l.maxAttempts

/- No lock reaches `u`, and too few failures are kept. -/
structure Open (l : LoginLimiter) (key : String) (u : Time) : Prop where
  free : ∀ t, u ≤ t → ¬ (l.state key).Locked t
  few : ((l.state key).fails.length : Int) < l.maxAttempts

variable {l : LoginLimiter} {key : String} {u : Time} {cs : List LimiterCall}

theorem length_recent_le (now : Time) (fails : List Time) :
    (l.recent now fails).length ≤ fails.length := List.length_filter_le _ _

theorem maxAttempts_perform (c : LimiterCall) : (l.perform c).maxAttempts = l.maxAttempts :=
  congrArg Limits.maxAttempts (l.limits_perform c)

theorem few_perform (c : LimiterCall) (now : Time) (fails : List Time) :
    (l.perform c).Few now fails ↔ l.Few now fails := by
  rcases l.perform_put c with ⟨s, hPut⟩
  rw [hPut]
  exact Iff.rfl

variable {c : LimiterCall}

theorem open_perform_ne (hOpen : l.Open key u) (hNe : key ≠ c.key) : (l.perform c).Open key u := by
  refine ⟨?_, ?_⟩
  · rw [state_perform_ne l hNe]
    exact hOpen.free
  · rw [state_perform_ne l hNe, maxAttempts_perform]
    exact hOpen.few

theorem open_onSuccess (hMax : 0 < l.maxAttempts) : (l.onSuccess key).Open key u := by
  refine ⟨?_, ?_⟩
  · intro t _ hLocked
    unfold onSuccess at hLocked
    rw [state_put_none] at hLocked
    exact hLocked.1 rfl
  · unfold onSuccess
    rw [state_put_none]
    exact hMax

theorem open_allow (hOpen : l.Open key u) (now : Time) : (l.allow now key).2.Open key u ∧
    (u ≤ now → (l.allow now key).1.1 = true) := by
  have hSpec := l.allow_spec now key
  generalize l.allow now key = answer at hSpec
  cases hSpec with
  | locked hLocked =>
    refine ⟨⟨?_, ?_⟩, ?_⟩
    · rw [state_put_some]
      exact hOpen.free
    · rw [state_put_some]
      exact hOpen.few
    · intro hFrom
      exact absurd hLocked (hOpen.free now hFrom)
  | exceeded hFree hMany =>
    have hFew := hOpen.few
    have hLe := l.length_recent_le now (l.state key).fails
    omega
  | allowed hFree hFew =>
    refine ⟨⟨?_, ?_⟩, fun _ => rfl⟩
    · rw [state_put_some]
      exact hOpen.free
    · rw [state_put_some]
      exact hFew

theorem eq_of_not_onFailure (hQuiet : ∀ t, c ≠ .onFailure t key) :
    key ≠ c.key ∨ (∃ now, c = .allow now key) ∨ c = .onSuccess key := by
  by_cases hKey : key = c.key
  · subst hKey
    cases c with
    | allow now key' => exact .inr (.inl ⟨now, rfl⟩)
    | onFailure now key' => exact absurd rfl (hQuiet now)
    | onSuccess key' => exact .inr (.inr rfl)
  · exact .inl hKey

theorem answers_cons_ne (hNe : key ≠ c.key) :
    l.answers key (c :: cs) = (l.perform c).answers key cs := by
  cases c with
  | allow now key' => exact if_neg (Ne.symm hNe)
  | onFailure now key' => rfl
  | onSuccess key' => rfl

theorem firstFrom_cons_ne (hNe : key ≠ c.key) : firstFrom key u (c :: cs) = firstFrom key u cs := by
  cases c with
  | allow now key' =>
    exact if_neg (fun hBoth => hNe hBoth.1.symm)
  | onFailure now key' => rfl
  | onSuccess key' => exact if_neg (Ne.symm hNe)

theorem le_of_mem_firstFrom {t : Time} (hFirst : t ∈ firstFrom key u cs) : u ≤ t := by
  fun_induction firstFrom key u cs with
  | case1 => cases hFirst
  | case2 now key' cs hBoth =>
    cases hFirst
    exact hBoth.2
  | case3 now key' cs hNot ih => exact ih hFirst
  | case4 now key' cs ih => exact ih hFirst
  | case5 => cases hFirst
  | case6 cs key' hNe ih => exact ih hFirst

theorem allowsFrom_allow (now : Time) : l.AllowsFrom key u (.allow now key :: cs) ↔
    (u ≤ now → (l.allow now key).1.1 = true) ∧ (l.allow now key).2.AllowsFrom key u cs := by
  unfold AllowsFrom
  rw [answers, if_pos rfl, List.forall_mem_cons]

theorem allowsFrom_of_open (hMax : 0 < l.maxAttempts) (hOpen : l.Open key u)
    (hQuiet : ∀ t, .onFailure t key ∉ cs) : l.AllowsFrom key u cs := by
  induction cs generalizing l with
  | nil => exact fun d hMem => nomatch hMem
  | cons c cs ih =>
    have hMax' : 0 < (l.perform c).maxAttempts := by
      rwa [maxAttempts_perform]
    have hQuiet' : ∀ t, .onFailure t key ∉ cs := fun t hMem => hQuiet t (.tail _ hMem)
    have hHead : ∀ t, c ≠ .onFailure t key := fun t hEq => hQuiet t (hEq ▸ .head _)
    rcases eq_of_not_onFailure hHead with hNe | ⟨now, rfl⟩ | rfl
    · unfold AllowsFrom
      rw [answers_cons_ne hNe]
      exact ih hMax' (open_perform_ne hOpen hNe) hQuiet'
    · rcases open_allow hOpen now with ⟨hStill, hAllowed⟩
      exact (allowsFrom_allow now).mpr ⟨hAllowed, ih hMax' hStill hQuiet'⟩
    · exact ih hMax' (open_onSuccess hMax) hQuiet'

theorem allow_of_locked {now : Time} (hLocked : (l.state key).Locked now) : l.allow now key =
      ((false, (l.state key).lockedUntil), l.put key (some
      { l.state key with lastSeenTime := now })) := if_pos hLocked

theorem allow_of_free {now : Time} (hFree : ¬ (l.state key).Locked now) :
    (l.allow now key).1.1 = true ↔ l.Few now (l.state key).fails := by
  have hSpec := l.allow_spec now key
  generalize l.allow now key = answer at hSpec
  cases hSpec with
  | locked hLocked => exact absurd hLocked hFree
  | exceeded _ hMany =>
    exact iff_of_false (fun hEq => nomatch hEq) (Int.not_lt.mpr hMany)
  | allowed _ hFew => exact iff_of_true rfl hFew

theorem open_of_allowed {now : Time} (hFree : ∀ t, u ≤ t → ¬ (l.state key).Locked t)
    (hAllowed : (l.allow now key).1.1 = true) : (l.allow now key).2.Open key u := by
  have hSpec := l.allow_spec now key
  generalize l.allow now key = answer at hSpec hAllowed
  cases hSpec with
  | locked => cases hAllowed
  | exceeded => cases hAllowed
  | allowed _ hFew =>
    refine ⟨?_, ?_⟩
    · rw [state_put_some]
      exact hFree
    · rw [state_put_some]
      exact hFew

/-
  Before the first try from `u` on, nothing changes. A try at that time either opens the key for
  good or locks it again.
-/
theorem allowsFrom_iff (hMax : 0 < l.maxAttempts) (hSet : u ≠ zeroTime)
    (hLock : (l.state key).lockedUntil = u)
    (hQuiet : ∀ t, .onFailure t key ∉ cs) : l.AllowsFrom key u cs ↔
    ∀ t ∈ firstFrom key u cs, l.Few t (l.state key).fails := by
  induction cs generalizing l with
  | nil =>
    exact iff_of_true (fun d hMem => nomatch hMem) (fun t hMem => nomatch hMem)
  | cons c cs ih =>
    have hMax' : 0 < (l.perform c).maxAttempts := by
      rwa [maxAttempts_perform]
    have hQuiet' : ∀ t, .onFailure t key ∉ cs := fun t hMem => hQuiet t (.tail _ hMem)
    have hHead : ∀ t, c ≠ .onFailure t key := fun t hEq => hQuiet t (hEq ▸ .head _)
    have hFree : ∀ t, u ≤ t → ¬ (l.state key).Locked t := by
      intro t hFrom hLocked
      exact Int.not_lt.mpr hFrom (hLock ▸ hLocked.2)
    rcases eq_of_not_onFailure hHead with hNe | ⟨now, rfl⟩ | rfl
    · have hState := state_perform_ne l hNe
      have hRest := ih hMax' (hState ▸ hLock) hQuiet'
      simp only [few_perform, hState] at hRest
      unfold AllowsFrom at hRest ⊢
      rw [answers_cons_ne hNe, firstFrom_cons_ne hNe]
      exact hRest
    · rw [allowsFrom_allow, firstFrom]
      by_cases hFrom : u ≤ now
      · rw [if_pos ⟨rfl, hFrom⟩]
        have hFirst := allow_of_free (hFree now hFrom)
        constructor
        · intro hAllows t hTime
          cases hTime
          exact hFirst.mp (hAllows.1 hFrom)
        · intro hFew
          have hAllowed := hFirst.mpr (hFew now rfl)
          exact ⟨fun _ => hAllowed, allowsFrom_of_open hMax'
              (open_of_allowed hFree hAllowed) hQuiet'⟩
      · rw [if_neg (fun hBoth => hFrom hBoth.2)]
        have hLocked : (l.state key).Locked now :=
          ⟨hLock.symm ▸ hSet, hLock.symm ▸ Int.not_le.mp hFrom⟩
        have hRest := @ih (l.allow now key).2 hMax'
        rw [allow_of_locked hLocked] at hRest ⊢
        rw [state_put_some] at hRest
        exact (and_iff_right (fun h => absurd h hFrom)).trans (hRest hLock hQuiet')
    · rw [firstFrom, if_pos rfl]
      exact iff_of_true
        (allowsFrom_of_open (l := l.onSuccess key) hMax'
          (open_onSuccess hMax) hQuiet') (fun t hMem => nomatch hMem)

theorem lockedUntil_of_denied {now : Time} (hLockout : 0 < l.lockout)
    (hDenied : (l.allow now key).1 = (false, u)) :
    ((l.allow now key).2.state key).lockedUntil = u ∧ ∀ t, u ≤ t →
    ((l.allow now key).2.Few t ((l.allow now key).2.state key).fails ↔
    l.Few t (l.state key).fails) := by
  have hSpec := l.allow_spec now key
  generalize l.allow now key = answer at hSpec hDenied
  cases hSpec with
  | locked hLocked =>
    cases hDenied
    rw [state_put_some]
    exact ⟨rfl, fun t _ => Iff.rfl⟩
  | exceeded hFree hMany =>
    rw [if_pos hLockout] at hDenied
    cases hDenied
    rw [state_put_some]
    refine ⟨if_pos hLockout, ?_⟩
    intro t hFrom
    have hLater : (now : Int) ≤ t :=
      Int.le_trans (Int.le_add_of_nonneg_right (Int.le_of_lt hLockout)) hFrom
    have hAgain := (Agrees.refl l.window now (l.state key).fails).pruned (Int.le_refl now)
    have hSame := hAgain (t - l.window) (Int.sub_le_sub_right hLater l.window)
    exact iff_of_eq (congrArg (fun fails : List Time =>
        (fails.length : Int) < l.maxAttempts) hSame)
  | allowed => cases hDenied

end LoginLimiter

theorem maxAttempts_newLoginLimiter (maxAttempts window lockout : Int) :
    0 < (newLoginLimiter maxAttempts window lockout).maxAttempts := by
  show 0 < if maxAttempts ≤ 0 then (5 : Int) else maxAttempts
  split
  · decide
  · omega

theorem lockout_newLoginLimiter {lockout : Int} (maxAttempts window : Int)
    (hLockout : 0 < lockout) : 0 < (newLoginLimiter maxAttempts window lockout).lockout := by
  show 0 < if lockout < 0 then 0 else lockout
  rw [if_neg (by omega)]
  exact hLockout

/-
  After a denial that reports a lock, and with no failure in between: every try from the lock's end
  on is allowed, if and only if too few of the failures that the limiter keeps are in the window of
  the first such try.
-/
theorem lock_ends_iff {maxAttempts window lockout : Int}
    (hLockout : 0 < lockout) {cs ds : List LimiterCall} {l : LoginLimiter}
    (hReached : l = (newLoginLimiter maxAttempts window lockout).after cs)
    {now u : Time} {key : String} (hDenied : (l.allow now key).1 = (false, u))
    (hReported : u ≠ zeroTime) (hQuiet : ∀ t, .onFailure t key ∉ ds) :
    (∀ d ∈ (l.allow now key).2.answers key ds, u ≤ d.1 → d.2 = true) ↔
      ∀ t ∈ LoginLimiter.firstFrom key u ds,
      (((l.state key).fails.filter (fun f => decide (f > t - l.window))).length : Int) <
      l.maxAttempts := by
  have hLimits := LoginLimiter.limits_after (newLoginLimiter maxAttempts window lockout) cs
  rw [← hReached] at hLimits
  have hMax : 0 < l.maxAttempts :=
    lt_of_lt_of_eq (maxAttempts_newLoginLimiter maxAttempts window lockout)
      (congrArg Limits.maxAttempts hLimits).symm
  have hPositive : 0 < l.lockout :=
    lt_of_lt_of_eq (lockout_newLoginLimiter maxAttempts window hLockout)
      (congrArg Limits.lockout hLimits).symm
  rcases LoginLimiter.lockedUntil_of_denied hPositive hDenied with ⟨hLock, hFew⟩
  have hIff := LoginLimiter.allowsFrom_iff (l := (l.allow now key).2)
    (lt_of_lt_of_eq hMax (LoginLimiter.maxAttempts_perform (.allow now key)).symm)
    hReported hLock hQuiet
  refine hIff.trans (forall₂_congr fun t hFirst => ?_)
  exact hFew t (LoginLimiter.le_of_mem_firstFrom hFirst)

/- The lock outlasts the window of its failure. -/
theorem lock_ends_after_window :
    (((newLoginLimiter 1 10 20).after [.onFailure 0 "a"]).allow 5 "a").1 = (false, 20) ∧ ∀ d ∈
      (((newLoginLimiter 1 10 20).after [.onFailure 0 "a"]).allow 5 "a").2.answers "a"
      [.allow 10 "a", .allow 20 "a", .allow 15 "a", .allow 30 "a"],
      (20 : Time) ≤ d.1 → d.2 = true :=
  ⟨by decide, (lock_ends_iff (by decide) rfl (by decide) (by decide) (by simp)).mpr (by decide)⟩

/- The failure is still in the window when the lock ends. -/
theorem lock_set_again :
    (((newLoginLimiter 1 10 1).after [.onFailure 0 "a"]).allow 0 "a").1 = (false, 1) ∧
    (((newLoginLimiter 1 10 1).after [.onFailure 0 "a"]).allow 0 "a").2.answers "a"
      [.allow 1 "a"] = [(1, false)] := by
  decide +kernel

end Fincore.Auth
