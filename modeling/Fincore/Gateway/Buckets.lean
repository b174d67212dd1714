import Fincore.Gateway.Limits
import Mathlib.Tactic.Linarith

/-
  How many calls a bucket of the gateway's limiter allows.

  A bucket is filled when it is asked, with what its rate gives for the time since it was asked
  last. Whatever calls take out within some time was in the bucket at the first of them or has been
  filled in since. The requests of a run that name one bucket see no other one.

  Key definitions include:
    * `TokenBucket.accumulated`
    * `TokenBucket.answers`
    * `allowedWithin`
    * `Config.passes`

  Main results:
    * `TokenBucket.sound_allow`
    * `TokenBucket.allowed_le`
    * `bucket_bounds`
    * `passes_eq_answers`
    * `requests_limited`
-/

----
-- Calls Of A Bucket
----

namespace Fincore.Gateway

def seconds (d : Int) : ℚ := (d : ℚ) / 1000000000

/- The allowed calls in the `d` seconds from `lo` on. -/
def allowedWithin (lo : Time) (d : ℚ) (answers : List (Time × Bool)) : Nat :=
  answers.countP (fun answer =>
    answer.2 && decide (lo ≤ answer.1 ∧ seconds (answer.1 - lo) ≤ d))

namespace TokenBucket

/- The tokens that a call at this instant finds. -/
def accumulated (b : TokenBucket) (now : Time) : ℚ :=
  min b.capacity (b.tokens + seconds (now - b.last) * b.rate)

/- Calls at these instants, each with its answer. -/
def answers (b : TokenBucket) : List Time → List (Time × Bool)
| [] => []
| t :: ts => (t, (b.allow t).1) :: (b.allow t).2.answers ts

/- The bucket after calls at these instants. -/
def after (b : TokenBucket) : List Time → TokenBucket
| [] => b
| t :: ts => (b.allow t).2.after ts

/- The bucket fills up, holds one call at least, and is not overdrawn or too full. -/
structure Sound (b : TokenBucket) : Prop where
  rate_pos : 0 < b.rate
  one_le_capacity : 1 ≤ b.capacity
  nonneg : 0 ≤ b.tokens
  le_capacity : b.tokens ≤ b.capacity

end TokenBucket

----
-- One Call
----

theorem seconds_add (d d' : Int) : seconds (d + d') = seconds d + seconds d' := by
  unfold seconds
  rw [Int.cast_add, add_div]

theorem seconds_nonneg {d : Int} (hNonneg : 0 ≤ d) : 0 ≤ seconds d :=
  div_nonneg (Int.cast_nonneg hNonneg) (by norm_num)

theorem seconds_sub (t t' lo : Time) : seconds (t' - lo) = seconds (t' - t) + seconds (t - lo) := by
  rw [← seconds_add, sub_add_sub_cancel]

namespace TokenBucket

variable {b : TokenBucket} {t : Time}

theorem allow_of_lt (hFew : b.accumulated t < 1) :
    b.allow t = (false, { b with tokens := b.accumulated t, last := t }) := if_pos hFew

theorem allow_of_le (hEnough : 1 ≤ b.accumulated t) :
    b.allow t = (true, { b with tokens := b.accumulated t - 1, last := t }) :=
  if_neg (not_lt.mpr hEnough)

theorem allow_cases (b : TokenBucket) (t : Time) :
    (b.accumulated t < 1 ∧ b.allow t = (false, { b with tokens := b.accumulated t, last := t })) ∨
      (1 ≤ b.accumulated t ∧
        b.allow t = (true, { b with tokens := b.accumulated t - 1, last := t })) := by
  rcases lt_or_ge (b.accumulated t) 1 with hFew | hEnough
  · exact Or.inl ⟨hFew, allow_of_lt hFew⟩
  · exact Or.inr ⟨hEnough, allow_of_le hEnough⟩

theorem accumulated_le (b : TokenBucket) (t : Time) :
    b.accumulated t ≤ b.tokens + seconds (t - b.last) * b.rate := min_le_right _ _

theorem accumulated_le_capacity (b : TokenBucket) (t : Time) : b.accumulated t ≤ b.capacity :=
  min_le_left _ _

theorem Sound.filled_nonneg (hSound : b.Sound) (hLater : b.last ≤ t) :
    0 ≤ seconds (t - b.last) * b.rate :=
  mul_nonneg (seconds_nonneg (sub_nonneg.mpr hLater)) hSound.rate_pos.le

theorem Sound.accumulated_nonneg (hSound : b.Sound) (hLater : b.last ≤ t) :
    0 ≤ b.accumulated t := by
  have hFilled := hSound.filled_nonneg hLater
  have hNonneg := hSound.nonneg
  have hCapacity := hSound.one_le_capacity
  exact le_min (by linarith) (by linarith)

theorem allow_same (b : TokenBucket) (t : Time) : (b.allow t).2.rate = b.rate ∧
    (b.allow t).2.capacity = b.capacity ∧ (b.allow t).2.last = t := by
  rcases b.allow_cases t with ⟨_, hAllow⟩ | ⟨_, hAllow⟩
  · rw [hAllow]
    exact ⟨rfl, rfl, rfl⟩
  · rw [hAllow]
    exact ⟨rfl, rfl, rfl⟩

theorem sound_allow (hSound : b.Sound) (hLater : b.last ≤ t) : (b.allow t).2.Sound := by
  have hNonneg := hSound.accumulated_nonneg hLater
  have hLe := b.accumulated_le_capacity t
  rcases b.allow_cases t with ⟨_, hAllow⟩ | ⟨hEnough, hAllow⟩
  · rw [hAllow]
    exact ⟨hSound.rate_pos, hSound.one_le_capacity, hNonneg, hLe⟩
  · rw [hAllow]
    exact ⟨hSound.rate_pos, hSound.one_le_capacity, sub_nonneg.mpr hEnough,
      (sub_le_self _ zero_le_one).trans hLe⟩

----
-- Calls In An Interval
----

variable {b : TokenBucket} {t : Time} {ts : List Time} (lo : Time) {d : ℚ}

theorem sound_after (hSound : b.Sound) (hOrder : (b.last :: ts).Pairwise (· ≤ ·)) :
    (b.after ts).Sound ∧ (b.after ts).capacity = b.capacity := by
  induction ts generalizing b with
  | nil => exact ⟨hSound, rfl⟩
  | cons t ts ih =>
    rcases List.pairwise_cons.mp hOrder with ⟨hLater, hRest⟩
    rcases b.allow_same t with ⟨_, hCapacity, hLast⟩
    rw [← hLast] at hRest
    rcases ih (sound_allow hSound (hLater t List.mem_cons_self)) hRest with ⟨hAfter, hSame⟩
    exact ⟨hAfter, hSame.trans hCapacity⟩

/- The instants of the answers are those of the calls. -/
theorem mem_of_mem_answers {answer : Time × Bool} (hMem : answer ∈ b.answers ts) :
    answer.1 ∈ ts := by
  induction ts generalizing b with
  | nil => cases hMem
  | cons t ts ih =>
    rcases List.mem_cons.mp hMem with rfl | hRest
    · exact List.mem_cons_self
    · exact List.mem_cons_of_mem t (ih hRest)

theorem allowed_eq_zero (hOver : d < seconds (t - lo)) (hOrder : (t :: ts).Pairwise (· ≤ ·)) :
    allowedWithin lo d (b.answers (t :: ts)) = 0 := by
  refine List.countP_eq_zero.mpr ?_
  intro answer hMem hCounted
  have hIn := (Bool.and_eq_true _ _ ▸ hCounted).2
  have hTime : t ≤ answer.1 := by
    rcases List.mem_cons.mp (mem_of_mem_answers hMem) with hSame | hRest
    · exact hSame.ge
    · exact (List.pairwise_cons.mp hOrder).1 _ hRest
  have hLate := seconds_sub t answer.1 lo
  have hMore := seconds_nonneg (sub_nonneg.mpr hTime)
  have hEnd := (of_decide_eq_true hIn).2
  linarith

/- The first call in the interval, given what is left for the others. -/
theorem allowed_cons (hLo : lo ≤ t) (hIn : seconds (t - lo) ≤ d) {left : ℚ}
    (hRest : (allowedWithin lo d ((b.allow t).2.answers ts) : ℚ) ≤ (b.allow t).2.tokens + left) :
    (allowedWithin lo d (b.answers (t :: ts)) : ℚ) ≤ b.accumulated t + left := by
  have hCons : allowedWithin lo d (b.answers (t :: ts)) =
      allowedWithin lo d ((b.allow t).2.answers ts) + if (b.allow t).1 then 1 else 0 := by
    rw [answers, allowedWithin, List.countP_cons]
    simp only [hLo, hIn, and_self, decide_true, Bool.and_true]
    rfl
  rw [hCons]
  rcases b.allow_cases t with ⟨_, hAllow⟩ | ⟨_, hAllow⟩
  · rw [hAllow] at hRest ⊢
    simpa using hRest
  · rw [hAllow] at hRest ⊢
    push_cast
    have hTaken : ({ b with tokens := b.accumulated t - 1, last := t } : TokenBucket).tokens =
        b.accumulated t - 1 := rfl
    rw [hTaken] at hRest
    simp only [if_true]
    linarith

/- In the rest of an interval: what is there and what is filled in. -/
theorem allowed_le_tokens (hSound : b.Sound) (hOrder : (b.last :: ts).Pairwise (· ≤ ·))
    (hLo : lo ≤ b.last) (hIn : seconds (b.last - lo) ≤ d) :
    (allowedWithin lo d (b.answers ts) : ℚ) ≤ b.tokens + b.rate * (d - seconds (b.last - lo)) := by
  have hLeft : 0 ≤ b.rate * (d - seconds (b.last - lo)) :=
    mul_nonneg hSound.rate_pos.le (sub_nonneg.mpr hIn)
  have hNonneg := hSound.nonneg
  induction ts generalizing b with
  | nil =>
    show ((0 : Nat) : ℚ) ≤ _
    push_cast
    linarith
  | cons t ts ih =>
    rcases List.pairwise_cons.mp hOrder with ⟨hLater, hRest⟩
    have hNow : b.last ≤ t := hLater t List.mem_cons_self
    by_cases hOver : d < seconds (t - lo)
    · rw [allowed_eq_zero lo hOver hRest]
      push_cast
      linarith
    · have hSound' := sound_allow hSound hNow
      rcases b.allow_same t with ⟨hRate, _, hLast⟩
      have hStill : 0 ≤ b.rate * (d - seconds (t - lo)) :=
        mul_nonneg hSound.rate_pos.le (sub_nonneg.mpr (not_lt.mp hOver))
      have hTail := ih hSound'
      rw [hRate, hLast] at hTail
      have hTail := hTail hRest (hLo.trans hNow) (not_lt.mp hOver) hStill hSound'.nonneg
      have hAll := allowed_cons lo (hLo.trans hNow) (not_lt.mp hOver) hTail
      have hFilled := b.accumulated_le t
      have hSplit := congrArg (b.rate * ·) (seconds_sub b.last t lo)
      simp only [mul_add] at hSplit
      linarith

/- In an interval: what fits into the bucket and what is filled in. -/
theorem allowed_le (hSound : b.Sound) (hOrder : (b.last :: ts).Pairwise (· ≤ ·)) (hNonneg : 0 ≤ d) :
    (allowedWithin lo d (b.answers ts) : ℚ) ≤ b.capacity + b.rate * d := by
  have hAll : 0 ≤ b.rate * d := mul_nonneg hSound.rate_pos.le hNonneg
  have hCapacity := hSound.one_le_capacity
  induction ts generalizing b with
  | nil =>
    show ((0 : Nat) : ℚ) ≤ _
    push_cast
    linarith
  | cons t ts ih =>
    rcases List.pairwise_cons.mp hOrder with ⟨hLater, hRest⟩
    have hSound' := sound_allow hSound (hLater t List.mem_cons_self)
    rcases b.allow_same t with ⟨hRate, hSame, hLast⟩
    have hRest' : ((b.allow t).2.last :: ts).Pairwise (· ≤ ·) := by rwa [hLast]
    by_cases hLo : lo ≤ t
    · by_cases hOver : d < seconds (t - lo)
      · rw [allowed_eq_zero lo hOver hRest]
        push_cast
        linarith
      · have hTail := allowed_le_tokens (d := d) lo hSound' hRest'
        rw [hRate, hLast] at hTail
        have hTail := hTail hLo (not_lt.mp hOver)
        have hFirst := allowed_cons lo hLo (not_lt.mp hOver) hTail
        have hBound := b.accumulated_le_capacity t
        have hBefore : 0 ≤ b.rate * seconds (t - lo) :=
          mul_nonneg hSound.rate_pos.le (seconds_nonneg (sub_nonneg.mpr hLo))
        rw [mul_sub] at hFirst
        linarith
    · -- the call comes before the interval
      have hSkip : allowedWithin lo d (b.answers (t :: ts)) =
          allowedWithin lo d ((b.allow t).2.answers ts) := by
        rw [answers, allowedWithin, List.countP_cons_of_neg]
        · rfl
        · simp [hLo]
      have hTail := ih hSound' hRest' (by rwa [hRate]) (by rwa [hSame])
      rw [hRate, hSame] at hTail
      rw [hSkip]
      exact hTail

----
-- Denials
----

variable {b : TokenBucket} {t : Time} {ts : List Time}

theorem denied_few {n : Nat} (hDenied : (b.answers ts)[n]? = some (t, false)) :
    (b.after (ts.take n)).accumulated t < 1 := by
  induction ts generalizing b n with
  | nil => cases hDenied
  | cons t' ts ih =>
    cases n with
    | succ n => exact ih hDenied
    | zero =>
      rcases b.allow_cases t' with ⟨hFew, hAllow⟩ | ⟨_, hAllow⟩
      · rw [answers, hAllow] at hDenied
        cases hDenied
        exact hFew
      · rw [answers, hAllow] at hDenied
        cases hDenied

/- Calls that leave the bucket the time to fill in one token. -/
theorem spaced_allowed (hSound : b.Sound) (hEnough : 1 ≤ b.accumulated t)
    (hSpaced : (t :: ts).IsChain (fun t t' => 1 / b.rate ≤ seconds (t' - t))) :
    ∀ answer ∈ b.answers (t :: ts), answer.2 = true := by
  induction ts generalizing b t with
  | nil =>
    intro answer hMem
    rw [answers, allow_of_le hEnough] at hMem
    rw [List.mem_singleton.mp hMem]
  | cons t' ts ih =>
    rcases List.isChain_cons_cons.mp hSpaced with ⟨hGap, hRest⟩
    intro answer hMem
    rw [answers, allow_of_le hEnough] at hMem
    rcases List.mem_cons.mp hMem with rfl | hMem
    · rfl
    · have hLe := b.accumulated_le_capacity t
      have hSound' : Sound { b with tokens := b.accumulated t - 1, last := t } :=
        ⟨hSound.rate_pos, hSound.one_le_capacity, sub_nonneg.mpr hEnough,
          (sub_le_self _ zero_le_one).trans hLe⟩
      refine ih hSound' ?_ hRest answer hMem
      · have hFilled : 1 ≤ seconds (t' - t) * b.rate := (div_le_iff₀ hSound.rate_pos).mp hGap
        refine le_min hSound.one_le_capacity ?_
        show 1 ≤ b.accumulated t - 1 + seconds (t' - t) * b.rate
        linarith

end TokenBucket

theorem sound_newTokenBucket (reqPerSec : ℚ) (burst : Int) (now : Time) :
    (newTokenBucket reqPerSec burst now).Sound := by
  have hBurst : (1 : ℚ) ≤ ((if burst ≤ 0 then 40 else burst : Int) : ℚ) := by
    have hPos : 1 ≤ (if burst ≤ 0 then 40 else burst : Int) := by
      split_ifs <;> omega
    exact_mod_cast hPos
  refine ⟨?_, hBurst, zero_le_one.trans hBurst, le_refl _⟩
  show 0 < if reqPerSec ≤ 0 then 20 else reqPerSec
  split_ifs with hRate
  · norm_num
  · exact not_le.mp hRate

/-
  A new bucket, asked at nondecreasing instants: its tokens stay within its capacity; within any `d`
  seconds it allows its capacity and what its rate gives in this time at most; it denies a call only
  without a whole token; and calls far enough apart are all allowed.
-/
theorem bucket_bounds (reqPerSec : ℚ) (burst : Int) (start : Time) (times : List Time)
    (hOrder : (start :: times).Pairwise (· ≤ ·)) (b : TokenBucket)
    (hNew : newTokenBucket reqPerSec burst start = b) :
    ((0 < reqPerSec → b.rate = reqPerSec) ∧ (0 < burst → b.capacity = burst)) ∧
      (∀ n, 0 ≤ (b.after (times.take n)).tokens ∧ (b.after (times.take n)).tokens ≤ b.capacity) ∧
      (∀ lo d, 0 ≤ d → (allowedWithin lo d (b.answers times) : ℚ) ≤ b.capacity + b.rate * d) ∧
      (∀ n t, (b.answers times)[n]? = some (t, false) →
      (b.after (times.take n)).accumulated t < 1) ∧
      (times.IsChain (fun t t' => 1 / b.rate ≤ seconds (t' - t)) →
      ∀ answer ∈ b.answers times, answer.2 = true) := by
  subst hNew
  have hSound := sound_newTokenBucket reqPerSec burst start
  have hFrom : ((newTokenBucket reqPerSec burst start).last :: times).Pairwise (· ≤ ·) := hOrder
  refine ⟨⟨?_, ?_⟩, ?_, ?_, ?_, ?_⟩
  · intro hPos
    exact if_neg (not_le.mpr hPos)
  · intro hPos
    show ((if burst ≤ 0 then 40 else burst : Int) : ℚ) = burst
    rw [if_neg (not_le.mpr hPos)]
  · intro n
    rcases TokenBucket.sound_after hSound (hFrom.sublist ((List.take_sublist n times).cons_cons _)) with
      ⟨hAfter, hSame⟩
    exact ⟨hAfter.nonneg, hAfter.le_capacity.trans_eq hSame⟩
  · intro lo d hNonneg
    exact TokenBucket.allowed_le lo hSound hFrom hNonneg
  · intro n t hDenied
    exact TokenBucket.denied_few hDenied
  · intro hSpaced
    cases times with
    | nil => exact nofun
    | cons t ts =>
      refine TokenBucket.spaced_allowed hSound ?_ hSpaced
      have hFilled := hSound.filled_nonneg ((List.pairwise_cons.mp hOrder).1 t List.mem_cons_self)
      exact le_min hSound.one_le_capacity (le_add_of_le_of_nonneg hSound.one_le_capacity hFilled)

/- Three calls at once on a bucket for two. -/
theorem third_call_denied :
    (newTokenBucket 1 2 0).answers [0, 0, 0] = [(0, true), (0, true), (0, false)] ∧
      (allowedWithin 0 0 ((newTokenBucket 1 2 0).answers [0, 0, 0]) : ℚ) ≤
      (newTokenBucket 1 2 0).capacity + (newTokenBucket 1 2 0).rate * 0 :=
  ⟨by decide +kernel, (bucket_bounds 1 2 0 [0, 0, 0] (by decide) _ rfl).2.2.1 0 0 (le_refl 0)⟩

----
-- Requests
----

/- The limiter of a class of paths. -/
def Limiters.of (ls : Limiters) (strict : Bool) : RateLimiter :=
  if strict then ls.strict else ls.lim

/- The request names a bucket of a limiter. -/
def Config.names (g : Config) (strict : Bool) (key : String) (r : Request) : Bool :=
  decide (g.cleanPath r.path = r.path ∧ r.path ≠ "/healthz" ∧
    hasAnyPrefix strictPrefixes r.path = strict ∧ limitKey r = key)

/- The requests of a run that name one bucket, and whether they get past it. -/
def Config.passes (g : Config) (strict : Bool) (key : String) :
    Limiters → List (Env × Request) → List (Time × Bool)
| _, [] => []
| ls, (env, r) :: rest =>
  let later := g.passes strict key (g.serve ls env r).2 rest
  if g.names strict key r then (env.now, !(g.serve ls env r).1.rejected) :: later else later

/- When requests come that name the bucket. -/
def Config.timesOf (g : Config) (strict : Bool) (key : String) (calls : List (Env × Request)) :
    List Time :=
  (calls.filter (fun call => g.names strict key call.2)).map (fun call => call.1.now)

/- What a limiter answers to calls with one key. -/
def RateLimiter.answers (l : RateLimiter) (key : String) : List Time → List (Time × Bool)
| [] => []
| t :: ts => ((l.buckets key).getD (newTokenBucket l.reqPerSec l.burst t)).answers (t :: ts)

theorem answers_allow (l : RateLimiter) (key : String) (t : Time) (ts : List Time) :
    l.answers key (t :: ts) = (t, (l.allow key t).1) :: (l.allow key t).2.answers key ts := by
  cases ts <;> simp [RateLimiter.answers, RateLimiter.allow, TokenBucket.answers]

theorem answers_allow_ne {key key' : String} (hKey : key ≠ key') (l : RateLimiter) (t : Time)
    (ts : List Time) : (l.allow key' t).2.answers key ts = l.answers key ts := by
  cases ts <;> simp [RateLimiter.answers, RateLimiter.allow, hKey]

variable {g : Config} {strict : Bool} {key : String} {r : Request} (ls : Limiters) (env : Env)

theorem serve_of_names (hNames : g.names strict key r = true) :
    (!(g.serve ls env r).1.rejected) = ((ls.of strict).allow key env.now).1 ∧
    (g.serve ls env r).2.of strict = ((ls.of strict).allow key env.now).2 := by
  rcases of_decide_eq_true hNames with ⟨hClean, hHealth, hClass, rfl⟩
  have hChain := chain_not_rejected g env r
  unfold Config.serve withRateLimitByPath Limiters.allow
  cases strict <;> simp only [hClean, hHealth, hClass, Limiters.of] <;> grind [Response.rejected]

theorem answers_of_not_names (hNot : ¬ g.names strict key r = true) (ts : List Time) :
    ((g.serve ls env r).2.of strict).answers key ts = (ls.of strict).answers key ts := by
  unfold Config.names at hNot
  unfold Config.serve withRateLimitByPath Limiters.allow
  cases strict <;> grind [Limiters.of, answers_allow_ne]

/- The requests that name one bucket are answered as calls of that bucket alone. -/
theorem passes_eq_answers (calls : List (Env × Request)) :
    g.passes strict key ls calls = (ls.of strict).answers key (g.timesOf strict key calls) := by
  induction calls generalizing ls with
  | nil => rfl
  | cons call rest ih =>
    rcases call with ⟨env, r⟩
    rw [Config.passes, ih]
    by_cases hNames : g.names strict key r = true
    · rcases serve_of_names ls env hNames with ⟨hFirst, hLater⟩
      rw [if_pos hNames, hFirst, hLater, ← answers_allow]
      simp [Config.timesOf, hNames]
    · rw [if_neg hNames, answers_of_not_names ls env hNames]
      simp [Config.timesOf, hNames]

/- The bucket of a key that is new. -/
theorem answers_of_new (strict : Bool) (key : String) (t : Time) (ts : List Time) :
    ∃ b : TokenBucket, b.Sound ∧ b.last = t ∧ 1 ≤ b.accumulated t ∧
      b.capacity = (if strict then 10 else 40) ∧ b.rate = (if strict then 5 else 20) ∧
      (Limiters.start.of strict).answers key (t :: ts) = b.answers (t :: ts) := by
  cases strict with
  | true =>
    refine ⟨_, sound_newTokenBucket 5 10 t, rfl, ?_, ?_, ?_, rfl⟩ <;>
      norm_num [TokenBucket.accumulated, newTokenBucket, seconds]
  | false =>
    refine ⟨_, sound_newTokenBucket 20 40 t, rfl, ?_, ?_, ?_, rfl⟩ <;>
      norm_num [TokenBucket.accumulated, newTokenBucket, seconds]

variable (g : Config) (calls : List (Env × Request))

/-
  From the start of the gateway on, of the requests that name one bucket at most 40 and 20 a second
  get past the limiter in any `d` seconds, and at most 10 and 5 a second for the strict paths.
-/
theorem requests_limited (hOrder : (calls.map (fun call => call.1.now)).Pairwise (· ≤ ·))
    (strict : Bool) (key : String) (lo : Time) (d : ℚ) (hNonneg : 0 ≤ d) :
    (allowedWithin lo d (g.passes strict key .start calls) : ℚ) ≤
      (if strict then 10 else 40) + (if strict then 5 else 20) * d := by
  have hTimes : (g.timesOf strict key calls).Pairwise (· ≤ ·) :=
    hOrder.sublist (List.filter_sublist.map _)
  rw [passes_eq_answers]
  cases hEq : g.timesOf strict key calls with
  | nil =>
    show ((0 : Nat) : ℚ) ≤ _
    push_cast
    split_ifs <;> linarith
  | cons t ts =>
    rw [hEq] at hTimes
    rcases answers_of_new strict key t ts with ⟨b, hSound, hLast, _, hCapacity, hRate, hAnswers⟩
    have hFrom : (b.last :: t :: ts).Pairwise (· ≤ ·) := by
      rw [hLast]
      simpa using hTimes
    rw [hAnswers, ← hCapacity, ← hRate]
    exact TokenBucket.allowed_le lo hSound hFrom hNonneg

theorem two_logins_limited :
    (allowedWithin 0 0 (Config.plain.passes true "10.0.0.1:5000" .start (logins [[], []])) : ℚ) ≤
      (if true then 10 else 40) + (if true then 5 else 20) * 0 :=
  requests_limited Config.plain (logins [[], []]) (by decide) true "10.0.0.1:5000" 0 0 (le_refl 0)

/-
  Requests that name one bucket and leave it the time to fill in one token get past the limiter,
  whatever other requests come in between.
-/
theorem spaced_requests_pass (strict : Bool) (key : String)
    (hSpaced : (g.timesOf strict key calls).IsChain (fun t t' =>
      1 / (if strict then 5 else 20) ≤ seconds (t' - t))) :
    ∀ pass ∈ g.passes strict key .start calls, pass.2 = true := by
  rw [passes_eq_answers]
  cases hEq : g.timesOf strict key calls with
  | nil => exact nofun
  | cons t ts =>
    rcases answers_of_new strict key t ts with ⟨b, hSound, _, hEnough, _, hRate, hAnswers⟩
    rw [hEq, ← hRate] at hSpaced
    rw [hAnswers]
    exact TokenBucket.spaced_allowed hSound hEnough hSpaced

theorem one_login_passes :
    ∀ pass ∈ Config.plain.passes true "10.0.0.1:5000" .start (logins [[]]), pass.2 = true :=
  spaced_requests_pass Config.plain (logins [[]]) true "10.0.0.1:5000" (by decide +kernel)

end Fincore.Gateway
