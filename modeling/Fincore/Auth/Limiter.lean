import Fincore.Pkg.Money

/-
  The limiter of `infrastructure/grpc/login_limiter.go`: it keeps the times of recent failures per
  key, and locks a key after too many of them.

  Key definitions include:
    * `LoginLimiter`
    * `LoginLimiter.allow`
    * `LoginLimiter.onFailure`
    * `LoginLimiter.onSuccess`
-/

----
-- Limiters
----

namespace Fincore.Auth

/- `loginState` -/
structure LoginState where
  fails : List Time
  lockedUntil : Time
  lastSeenTime : Time
  deriving DecidableEq

/- A key that was not seen before. -/
def LoginState.zero : LoginState := ⟨[], zeroTime, zeroTime⟩

/- `loginLimiter` -/
structure LoginLimiter where
  maxAttempts : Int
  window : Int
  lockout : Int
  states : String → Option LoginState

/- `newLoginLimiter` -/
def newLoginLimiter (maxAttempts window lockout : Int) : LoginLimiter where
  maxAttempts := if maxAttempts ≤ 0 then 5 else maxAttempts
  window := if window ≤ 0 then 300000000000 else window
  lockout := if lockout < 0 then 0 else lockout
  states := fun _ => none

namespace LoginLimiter

/- The state of a key, which is made if there is none. -/
def state (l : LoginLimiter) (key : String) : LoginState := (l.states key).getD LoginState.zero

def put (l : LoginLimiter) (key : String) (s : Option LoginState) : LoginLimiter :=
  { l with
    states := fun key' =>
      if key' = key then s else l.states key' }

/- The failures that are still in the window. -/
def recent (l : LoginLimiter) (now : Time) (fails : List Time) : List Time :=
  fails.filter (fun t => decide (t > now - l.window))

/-
  `allow`: whether the key may try, the end of its lock, and the limiter afterwards. A lock that
  still holds leaves the failures as they are.
-/
def allow (l : LoginLimiter) (now : Time) (key : String) : (Bool × Time) × LoginLimiter :=
  let s := { l.state key with lastSeenTime := now }
  if s.lockedUntil ≠ zeroTime ∧ now < s.lockedUntil then
    ((false, s.lockedUntil), l.put key (some s))
  else
    let s := { s with fails := l.recent now s.fails }
    if (s.fails.length : Int) ≥ l.maxAttempts then
      if l.lockout > 0 then
        ((false, now + l.lockout), l.put key (some { s with lockedUntil := now + l.lockout }))
      else ((false, zeroTime), l.put key (some s))
    else ((true, zeroTime), l.put key (some s))

/- `onFailure` -/
def onFailure (l : LoginLimiter) (now : Time) (key : String) : LoginLimiter :=
  let s := { l.state key with lastSeenTime := now }
  let s := { s with fails := l.recent now s.fails ++ [now] }
  l.put key (some
    (if (s.fails.length : Int) ≥ l.maxAttempts ∧ l.lockout > 0 then
      { s with lockedUntil := now + l.lockout }
    else s))

/- `onSuccess` -/
def onSuccess (l : LoginLimiter) (key : String) : LoginLimiter := l.put key none

end LoginLimiter

end Fincore.Auth
