import Mathlib.Data.List.Basic

/-
  Programs that talk to the outside by requests.

  A program returns, fails with an error, or sends one request and goes on with the response. The
  same program is then given several meanings: it can be run alone against a state, cut between any
  two requests and interleaved with others, or run by an orchestrator that repeats a request.

  Key definitions include:
    * `Prog`
    * `Prog.bind`
    * `Prog.request`
    * `Prog.ofExcept`
    * `Prog.mapError`
    * `Prog.Fails`, `Prog.Returns` and `Prog.Must`
    * `Prog.runWith`
    * `Prog.exchanges`
    * `Prog.after`
    * `Prog.next?` and `Prog.Asks`

  Main results:
    * `Prog.Asks.runWith`
    * `Prog.Asks.after`
-/

----
-- Syntax
----

/- A program over requests `Req` with responses `Resp`. -/
inductive Prog (Req : Type) (Resp : Req → Type) (Err α : Type) where
  | ret (a : α)
  | fail (e : Err)
  | ask (r : Req) (k : Resp r → Prog Req Resp Err α)

namespace Prog

variable {Req Err α β : Type} {Resp : Req → Type}

/- Sequence two programs; a failure ends both. -/
def bind (p : Prog Req Resp Err α) (f : α → Prog Req Resp Err β) : Prog Req Resp Err β :=
  match p with
  | .ret a => f a
  | .fail e => .fail e
  | .ask r k => .ask r (fun x => (k x).bind f)

instance : Monad (Prog Req Resp Err) where
  pure := .ret
  bind := bind

/- Send one request and return its response. -/
def request (r : Req) : Prog Req Resp Err (Resp r) := .ask r .ret

/- A pure computation that may fail. -/
def ofExcept : Except Err α → Prog Req Resp Err α
| .ok a => .ret a
| .error e => .fail e

@[simp] theorem ofExcept_ok (a : α) : (ofExcept (.ok a) : Prog Req Resp Err α) = .ret a := rfl

theorem ofExcept_map (r : Except Err α) (f : α → β) :
    ((ofExcept r : Prog Req Resp Err α) >>= fun a => .ret (f a)) = ofExcept (r.map f) := by
  cases r with
  | ok a => rfl
  | error e => rfl

@[simp] theorem ret_bind (a : α) (f : α → Prog Req Resp Err β) : (Prog.ret a >>= f) = f a := rfl

@[simp] theorem ask_bind (r : Req) (k : Resp r → Prog Req Resp Err α)
    (f : α → Prog Req Resp Err β) : (Prog.ask r k >>= f) = .ask r (fun x => k x >>= f) := rfl

theorem bind_ret (p : Prog Req Resp Err α) : (p >>= Prog.ret) = p := by
  induction p with
  | ret a => rfl
  | fail e => rfl
  | ask r k ih => exact congrArg (Prog.ask r) (funext ih)

theorem bind_assoc {γ : Type} (p : Prog Req Resp Err α)
    (f : α → Prog Req Resp Err β) (g : β → Prog Req Resp Err γ) :
    ((p >>= f) >>= g) = (p >>= fun a => f a >>= g) := by
  induction p with
  | ret a => rfl
  | fail e => rfl
  | ask r k ih => exact congrArg (Prog.ask r) (funext ih)

/- The same program with its own failures renamed. -/
def mapError {Err' : Type} (f : Err → Err') : Prog Req Resp Err α → Prog Req Resp Err' α
| .ret a => .ret a
| .fail e => .fail (f e)
| .ask r k => .ask r (fun x => (k x).mapError f)

----
-- Running Against A Server
----

variable {W : Type}

/- Run a program, every request served once by `serve`. -/
def runWith (serve : (r : Req) → W → Resp r × W) : Prog Req Resp Err α → W → Except Err α × W
| .ret a, w => (.ok a, w)
| .fail e, w => (.error e, w)
| .ask r k, w =>
  runWith serve (k (serve r w).1) (serve r w).2

/- One served request, with the state around it. -/
structure Exchange (Req : Type) (Resp : Req → Type) (W : Type) where
  request : Req
  before : W
  response : Resp request
  after : W

/- The requests that `runWith` serves, in order. -/
def exchanges (serve : (r : Req) → W → Resp r × W) :
    Prog Req Resp Err α → W → List (Exchange Req Resp W)
| .ret _, _ => []
| .fail _, _ => []
| .ask r k, w =>
  ⟨r, w, (serve r w).1, (serve r w).2⟩ :: exchanges serve (k (serve r w).1) (serve r w).2

section

variable {β Err' : Type} (serve : (r : Req) → W → Resp r × W)

@[simp] theorem runWith_ask (r : Req) (k : Resp r → Prog Req Resp Err α)
    (w : W) : runWith serve (.ask r k) w = runWith serve (k (serve r w).1) (serve r w).2 := rfl

/- Dropping the result drops the result of a run. -/
theorem runWith_discard (p : Prog Req Resp Err α) (w : W) :
    runWith serve (p >>= fun _ => pure ()) w =
    ((runWith serve p w).1.map (fun _ => ()), (runWith serve p w).2) := by
  induction p generalizing w with
  | ret a => rfl
  | fail e => rfl
  | ask r k ih => exact ih (serve r w).1 (serve r w).2

/- Renaming failures renames the failure of a run. -/
theorem runWith_mapError (f : Err → Err') (p : Prog Req Resp Err α) (w : W) :
    runWith serve (p.mapError f) w = ((runWith serve p w).1.mapError f, (runWith serve p w).2) := by
  induction p generalizing w with
  | ret a => rfl
  | fail e => rfl
  | ask r k ih => exact ih (serve r w).1 (serve r w).2

end

----
-- What A Program Asks For
----

/- The program fails, whatever it is answered. -/
def Fails : Prog Req Resp Err α → Prop
| .ret _ => False
| .fail _ => True
| .ask _ k => ∀ x, Fails (k x)

variable {f : α → Prog Req Resp Err β}

theorem fails_bind (p : Prog Req Resp Err α) (hFails : ∀ a, (f a).Fails) : (p >>= f).Fails := by
  induction p with
  | ret a => exact hFails a
  | fail e => trivial
  | ask r k ih => exact ih

variable {p : Prog Req Resp Err α}

/- What comes after a failure does not matter. -/
theorem Fails.bind (hFails : p.Fails) (f : α → Prog Req Resp Err β) : (p >>= f).Fails := by
  induction p with
  | ret a => exact hFails.elim
  | fail e => trivial
  | ask r k ih =>
    intro x
    exact ih x (hFails x)

/- Whatever it is answered, what it returns meets `P`. -/
def Returns (P : α → Prop) : Prog Req Resp Err α → Prop
| .ret a => P a
| .fail _ => True
| .ask _ k => ∀ x, Returns P (k x)

theorem Returns.mono {P Q : α → Prop}
    (hReturns : p.Returns P) (hSub : ∀ a, P a → Q a) : p.Returns Q := by
  induction p with
  | ret a => exact hSub a hReturns
  | fail e => trivial
  | ask r k ih =>
    intro x
    exact ih x (hReturns x)

theorem returns_bind {P : β → Prop} (p : Prog Req Resp Err α) (hReturns : ∀ a, (f a).Returns P) :
    (p >>= f).Returns P := by
  induction p with
  | ret a => exact hReturns a
  | fail e => trivial
  | ask r k ih => exact ih

/- Before it returns, the program sends a request of `P`. -/
def Must (P : Req → Prop) : Prog Req Resp Err α → Prop
| .ret _ => False
| .fail _ => True
| .ask r k => P r ∨ ∀ x, Must P (k x)

variable {P : Req → Prop}

theorem must_bind (p : Prog Req Resp Err α) (hMust : ∀ a, (f a).Must P) : (p >>= f).Must P := by
  induction p with
  | ret a => exact hMust a
  | fail e => trivial
  | ask r k ih => exact Or.inr ih

/- The request that the program sends next. -/
def next? : Prog Req Resp Err α → Option Req
| .ask r _ => some r
| _ => none

/- Every request of the program is one of `P`. -/
def Asks (P : Req → Prop) : Prog Req Resp Err α → Prop
| .ret _ => True
| .fail _ => True
| .ask r k => P r ∧ ∀ x, Asks P (k x)

theorem Asks.next {r : Req} (hAsks : p.Asks P) (hNext : p.next? = some r) : P r := by
  cases p with
  | ret a => cases hNext
  | fail e => cases hNext
  | ask s k =>
    cases hNext
    exact hAsks.1

theorem Asks.mono {P Q : Req → Prop} (hAsks : p.Asks P) (hSub : ∀ r, P r → Q r) : p.Asks Q := by
  induction p with
  | ret a => trivial
  | fail e => trivial
  | ask r k ih =>
    refine ⟨hSub r hAsks.1, ?_⟩
    intro x
    exact ih x (hAsks.2 x)

theorem Asks.bind (hFirst : p.Asks P) (hRest : ∀ a, (f a).Asks P) : (p >>= f).Asks P := by
  induction p with
  | ret a => exact hRest a
  | fail e => trivial
  | ask r k ih =>
    refine ⟨hFirst.1, ?_⟩
    intro x
    exact ih x (hFirst.2 x)

theorem asks_ofExcept (P : Req → Prop) (r : Except Err α) :
    (ofExcept r : Prog Req Resp Err α).Asks P := by
  cases r with
  | ok a => trivial
  | error e => trivial

theorem Asks.mapError {Err' : Type}
    (hAsks : p.Asks P) (f : Err → Err') : (p.mapError f).Asks P := by
  induction p with
  | ret a => trivial
  | fail e => trivial
  | ask r k ih =>
    refine ⟨hAsks.1, ?_⟩
    intro x
    exact ih x (hAsks.2 x)

/- The state once the first `n` requests were served. -/
def after (serve : (r : Req) → W → Resp r × W) : Nat → Prog Req Resp Err α → W → W
| n + 1, .ask r k, w =>
  after serve n (k (serve r w).1) (serve r w).2
| _, _, w => w

variable {serve : (r : Req) → W → Resp r × W}

/- What every request keeps is kept by a run. -/
theorem Asks.runWith {I : W → Prop}
    (hAsks : p.Asks P) (hStep : ∀ r w, P r → I w → I (serve r w).2) {w : W}
    (hInv : I w) : I (p.runWith serve w).2 := by
  induction p generalizing w with
  | ret a => exact hInv
  | fail e => exact hInv
  | ask r k ih =>
    exact ih (serve r w).1 (hAsks.2 _) (hStep r w hAsks.1 hInv)

/- And by a run that is cut short. -/
theorem Asks.after {I : W → Prop}
    (hAsks : p.Asks P) (hStep : ∀ r w, P r → I w → I (serve r w).2) {n : Nat}
    {w : W} (hInv : I w) : I (p.after serve n w) := by
  induction p generalizing n w with
  | ret a => cases n <;> exact hInv
  | fail e => cases n <;> exact hInv
  | ask r k ih =>
    cases n with
    | zero => exact hInv
    | succ n =>
      exact ih (serve r w).1 (hAsks.2 _) (hStep r w hAsks.1 hInv)

end Prog
