import Fincore.Lib.Prog
import Fincore.Lib.Transition
import Mathlib.Tactic.Common

/-
  Any number of programs whose requests a shared backend serves.

  A process issues its next request, the backend hands out a ticket for it, and the process goes on
  once the backend has a reply for the ticket. In between the backend and the other processes take
  any steps; a process may also never go on.

  Key definitions include:
    * `Process.Backend`
    * `Process.Config` and `Process.step`
    * `Process.Protocol` and `Process.Holds`

  Main results:
    * `Process.step_spec`
    * `Process.holds_step`
-/

----
-- Processes
----

namespace Process

/-
  Something that serves requests: `issue` accepts one, with what the environment adds to it, `reply`
  looks whether a ticket has been answered, `step` is what goes on by itself.
-/
structure Backend (B Req : Type) (Resp : Req → Type) (ν β : Type) where
  issue : ν → Req → B → Option (Nat × B)
  reply : (r : Req) → Nat → B → Option (Resp r)
  step : B → β → Option B

/- A process is about to go on, or waits for a reply. -/
inductive State (Req : Type) (Resp : Req → Type) (Err α : Type) where
  | ready (p : Prog Req Resp Err α)
  | waiting (r : Req) (k : Resp r → Prog Req Resp Err α) (ticket : Nat)

structure Proc (ι Req : Type) (Resp : Req → Type) (Err α : Type) where
  input : ι
  state : State Req Resp Err α

/- The backend and every process started so far. -/
structure Config (B ι Req : Type) (Resp : Req → Type) (Err α : Type) where
  backend : B
  procs : List (Proc ι Req Resp Err α)

inductive Action (ι ν β : Type) where
  | call (input : ι)
  | issue (h : Nat) (v : ν)
  | resume (h : Nat)
  | serve (b : β)

variable {B ι Req Err α ν β : Type} {Resp : Req → Type}

def step (bk : Backend B Req Resp ν β) (handler : ι → Prog Req Resp Err α)
    (cfg : Config B ι Req Resp Err α) : Action ι ν β → Option (Config B ι Req Resp Err α)
| .call input =>
  some { cfg with procs := cfg.procs ++ [⟨input, .ready (handler input)⟩] }
| .issue h v =>
  match cfg.procs[h]? with
  | some ⟨input, .ready (.ask r k)⟩ =>
    (bk.issue v r cfg.backend).map (fun res =>
      ⟨res.2, cfg.procs.set h ⟨input, .waiting r k res.1⟩⟩)
  | _ => none
| .resume h =>
  match cfg.procs[h]? with
  | some ⟨input, .waiting r k ticket⟩ =>
    (bk.reply r ticket cfg.backend).map (fun x =>
      { cfg with procs := cfg.procs.set h ⟨input, .ready (k x)⟩ })
  | _ => none
| .serve b =>
  (bk.step cfg.backend b).map (fun backend =>
    { cfg with backend := backend })

/- The request that process `h` is about to issue. -/
def Config.next? (cfg : Config B ι Req Resp Err α) (h : Nat) : Option Req :=
  match cfg.procs[h]? with
  | some ⟨_, .ready (.ask r _)⟩ => some r
  | _ => none

/- Process `h` was started with `input`, and has returned. -/
def Config.Returned (cfg : Config B ι Req Resp Err α) (h : Nat) (input : ι)
    (a : α) : Prop := cfg.procs[h]? = some ⟨input, .ready (.ret a)⟩

----
-- What A Step Can Do
----

inductive StepSpec (bk : Backend B Req Resp ν β)
    (handler : ι → Prog Req Resp Err α) (cfg : Config B ι Req Resp Err α) :
    Action ι ν β → Config B ι Req Resp Err α → Prop where
  | called (input : ι) : StepSpec bk handler cfg (.call input)
        { cfg with procs := cfg.procs ++ [⟨input, .ready (handler input)⟩] }
  | issued {h : Nat} {input : ι} {r : Req} {k : Resp r → Prog Req Resp Err α}
      {v : ν} {ticket : Nat} {b : B} (hProc : cfg.procs[h]? = some ⟨input, .ready (.ask r k)⟩)
      (hIssue : bk.issue v r cfg.backend = some (ticket, b)) : StepSpec bk handler cfg (.issue h v)
        ⟨b, cfg.procs.set h ⟨input, .waiting r k ticket⟩⟩
  | resumed {h : Nat} {input : ι} {r : Req} {k : Resp r → Prog Req Resp Err α}
      {ticket : Nat} {x : Resp r} (hProc : cfg.procs[h]? = some ⟨input, .waiting r k ticket⟩)
      (hReply : bk.reply r ticket cfg.backend = some x) : StepSpec bk handler cfg (.resume h)
        { cfg with procs := cfg.procs.set h ⟨input, .ready (k x)⟩ }
  | served {a : β} {b : B} (hStep : bk.step cfg.backend a = some b) :
      StepSpec bk handler cfg (.serve a) { cfg with backend := b }

variable {a : Action ι ν β}

theorem step_spec {bk : Backend B Req Resp ν β}
    {handler : ι → Prog Req Resp Err α} {cfg cfg' : Config B ι Req Resp Err α}
    (hStep : step bk handler cfg a = some cfg') :
    StepSpec bk handler cfg a cfg' := by
  cases a with
  | call input =>
    cases hStep
    exact .called input
  | issue h v =>
    simp only [step] at hStep
    split at hStep
    · rename_i input r k hProc
      rcases Option.map_eq_some_iff.mp hStep with ⟨⟨ticket, b⟩, hIssue, rfl⟩
      exact .issued hProc hIssue
    · cases hStep
  | resume h =>
    simp only [step] at hStep
    split at hStep
    · rename_i input r k ticket hProc
      rcases Option.map_eq_some_iff.mp hStep with ⟨x, hReply, rfl⟩
      exact .resumed hProc hReply
    · cases hStep
  | serve b =>
    rcases Option.map_eq_some_iff.mp hStep with ⟨backend, hServe, rfl⟩
    exact .served hServe

theorem next?_eq {cfg : Config B ι Req Resp Err α} {h : Nat} {input : ι}
    {r : Req} {k : Resp r → Prog Req Resp Err α}
    (hProc : cfg.procs[h]? = some ⟨input, .ready (.ask r k)⟩) : cfg.next? h = some r := by
  unfold Config.next?
  rw [hProc]

----
-- Protocols
----

/- The backend has gone on, or has accepted a request. -/
def Backend.Grows (bk : Backend B Req Resp ν β) (b b' : B) : Prop :=
  (∃ a, bk.step b a = some b') ∨ ∃ v r ticket, bk.issue v r b = some (ticket, b')

/-
  What is known of every process: `P` of the program it has left, `I` of the ticket it waits for.
  Both are kept by whatever the backend does, while it meets `J`.
-/
structure Protocol (bk : Backend B Req Resp ν β) (handler : ι → Prog Req Resp Err α) (J : B → Prop)
    (P : B → ι → Prog Req Resp Err α → Prop) (I : B → Req → Nat → Prop) : Prop where
  called : ∀ b c, P b c (handler c)
  issued : ∀ v r b ticket b', bk.issue v r b = some (ticket, b') → I b' r ticket
  replied : ∀ b c r k ticket x, J b → P b c (.ask r k) →
      I b r ticket → bk.reply r ticket b = some x → P b c (k x)
  keepsP : ∀ b b' c p, J b → bk.Grows b b' → P b c p → P b' c p
  keepsI : ∀ b b' r ticket, J b → bk.Grows b b' → I b r ticket → I b' r ticket

/- The protocol is kept by one process. -/
def State.Holds (P : B → ι → Prog Req Resp Err α → Prop)
    (I : B → Req → Nat → Prop) (b : B) (c : ι) : State Req Resp Err α → Prop
| .ready p => P b c p
| .waiting r k ticket => P b c (.ask r k) ∧ I b r ticket

/- And by all. -/
def Holds (P : B → ι → Prog Req Resp Err α → Prop) (I : B → Req → Nat → Prop)
    (cfg : Config B ι Req Resp Err α) : Prop :=
  ∀ proc ∈ cfg.procs, proc.state.Holds P I cfg.backend proc.input

variable {bk : Backend B Req Resp ν β} {handler : ι → Prog Req Resp Err α} {J : B → Prop}
variable {P : B → ι → Prog Req Resp Err α → Prop} {I : B → Req → Nat → Prop}
variable {cfg cfg' : Config B ι Req Resp Err α}

theorem holds_start (b : B) : Holds P I (⟨b, []⟩ : Config B ι Req Resp Err α) := by
  intro proc hMem
  cases hMem

/- What a process keeps while the backend goes on. -/
theorem Protocol.grows (hProtocol : Protocol bk handler J P I) {b b' : B}
    (hJ : J b) (hGrows : bk.Grows b b') {c : ι} {state : State Req Resp Err α}
    (hState : state.Holds P I b c) : state.Holds P I b' c := by
  cases state with
  | ready p => exact hProtocol.keepsP b b' c p hJ hGrows hState
  | waiting r k ticket =>
    exact ⟨hProtocol.keepsP b b' c _ hJ hGrows hState.1,
      hProtocol.keepsI b b' r ticket hJ hGrows hState.2⟩

theorem holds_step (hProtocol : Protocol bk handler J P I) (hJ : J cfg.backend)
    (hHolds : Holds P I cfg) (hStep : step bk handler cfg a = some cfg') : Holds P I cfg' := by
  intro proc hMem
  cases step_spec hStep with
  | called input =>
    rcases List.mem_append.mp hMem with hOld | hNew
    · exact hHolds proc hOld
    · rw [List.mem_singleton.mp hNew]
      exact hProtocol.called cfg.backend input
  | issued hProc hIssue =>
    have hGrows : bk.Grows cfg.backend _ := Or.inr ⟨_, _, _, hIssue⟩
    rcases List.mem_or_eq_of_mem_set hMem with hOld | rfl
    · exact hProtocol.grows hJ hGrows (hHolds proc hOld)
    · have hAsk := hHolds _ (List.mem_of_getElem? hProc)
      exact ⟨hProtocol.keepsP _ _ _ _ hJ hGrows hAsk, hProtocol.issued _ _ _ _ _ hIssue⟩
  | resumed hProc hReply =>
    rcases List.mem_or_eq_of_mem_set hMem with hOld | rfl
    · exact hHolds proc hOld
    · have hWait := hHolds _ (List.mem_of_getElem? hProc)
      exact hProtocol.replied _ _ _ _ _ _ hJ hWait.1 hWait.2 hReply
  | served hServe =>
    exact hProtocol.grows hJ (Or.inl ⟨_, hServe⟩) (hHolds proc hMem)

end Process
