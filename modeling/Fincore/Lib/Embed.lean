import Fincore.Lib.Engine

/-
  A store inside a larger one.

  The programs of the smaller store are programs of the larger one, statement by statement. Run
  alone they answer the same there, and leave the same in the part that the smaller store has.

  Key definitions include:
    * `Prog.embed`
    * `Engine.Embedding`

  Main results:
    * `Engine.Embedding.serial_embed`
    * `Engine.Embedding.withTx_embed`
-/

----
-- Programs
----

namespace Prog

variable {Req Req' Err α β : Type} {Resp : Req → Type} {Resp' : Req' → Type}

/- Send other requests, and read their responses. -/
def embed (f : Req → Req') (g : ∀ r, Resp' (f r) → Resp r) :
    Prog Req Resp Err α → Prog Req' Resp' Err α
| .ret a => .ret a
| .fail e => .fail e
| .ask r k => .ask (f r) (fun x => (k (g r x)).embed f g)

variable {f : Req → Req'} {g : ∀ r, Resp' (f r) → Resp r}

theorem embed_bind (p : Prog Req Resp Err α) (k : α → Prog Req Resp Err β) :
    (p >>= k).embed f g = p.embed f g >>= fun a => (k a).embed f g := by
  induction p with
  | ret a => rfl
  | fail e => rfl
  | ask r rest ih =>
    show Prog.ask (f r) _ = Prog.ask (f r) _
    congr 1
    funext x
    exact ih (g r x)

theorem Fails.embed {p : Prog Req Resp Err α} (hFails : p.Fails) :
    (p.embed f g : Prog Req' Resp' Err α).Fails := by
  induction p with
  | ret a => exact hFails.elim
  | fail e => trivial
  | ask r k ih =>
    intro x
    exact ih (g r x) (hFails (g r x))

/- What is asked after the embedding comes from it. -/
theorem asks_embed {P : Req' → Prop} (p : Prog Req Resp Err α)
    (hAll : ∀ r, P (f r)) : (p.embed f g : Prog Req' Resp' Err α).Asks P := by
  induction p with
  | ret a => trivial
  | fail e => trivial
  | ask r k ih =>
    refine ⟨hAll r, ?_⟩
    intro x
    exact ih (g r x)

end Prog

----
-- Stores
----

namespace Engine

/- Statements and writes go to ones that do the same. -/
structure Embedding {Db Stmt Write Row Db' Stmt' Write' Row' Err : Type}
    {Resp : Stmt → Type} {Resp' : Stmt' → Type} (E : Engine Db Stmt Resp Write Row Err)
    (E' : Engine Db' Stmt' Resp' Write' Row' Err) where
  part : Db' → Db
  stmt : Stmt → Stmt'
  resp : ∀ s, Resp' (stmt s) → Resp s
  write : Write → Write'
  now : ∀ db, E'.now db = E.now (part db)
  exec : ∀ began s db r ws', E'.exec began (stmt s) db = .ok (r, ws') →
        ∃ ws, ws' = ws.map write ∧ E.exec began s (part db) = .ok (resp s r, ws)
  refuse : ∀ began s db e, E'.exec began (stmt s) db = .error e →
        E.exec began s (part db) = .error e
  apply : ∀ db w, part (E'.apply db (write w)) = E.apply (part db) w
  tick : ∀ s db, part (E'.tick (stmt s) db) = E.tick s (part db)

namespace Embedding

variable {Db Stmt Write Row Db' Stmt' Write' Row' Err : Type} {α : Type}
variable {Resp : Stmt → Type} {Resp' : Stmt' → Type} {E : Engine Db Stmt Resp Write Row Err}
variable {E' : Engine Db' Stmt' Resp' Write' Row' Err}

/- A program of the smaller store in the larger one. -/
def lift (M : Embedding E E')
    (p : Prog Stmt Resp Err α) : Prog Stmt' Resp' Err α := p.embed M.stmt M.resp

variable (M : Embedding E E')

theorem part_view (db : Db') (ws : List Write) :
    M.part (E'.view db (ws.map M.write)) = E.view (M.part db) ws := by
  induction ws generalizing db with
  | nil => rfl
  | cons w ws ih =>
    rw [List.map_cons, view_cons, ih, M.apply, view_cons]

/- The same answer, and the same in the smaller part. -/
theorem serial_embed (began : Nat) (p : Prog Stmt Resp Err α) (ws : List Write) (db : Db') :
    (E'.serial began (M.lift p) (ws.map M.write) db).1 =
    (E.serial began p ws (M.part db)).1 ∧ M.part
    (E'.serial began (M.lift p) (ws.map M.write) db).2 = (E.serial began p ws (M.part db)).2 := by
  induction p generalizing ws db with
  | ret a => exact ⟨rfl, M.part_view db ws⟩
  | fail e => exact ⟨rfl, rfl⟩
  | ask s k ih =>
    have hLift : M.lift (.ask s k) = .ask (M.stmt s) (fun x =>
        M.lift (k (M.resp s x))) := rfl
    rw [hLift]
    simp only [serial]
    rw [← M.part_view]
    cases hExec : E'.exec began (M.stmt s) (E'.view db (ws.map M.write)) with
    | error e =>
      rw [M.refuse _ _ _ _ hExec]
      exact ⟨rfl, M.tick s db⟩
    | ok answer =>
      rcases answer with ⟨r, ws'⟩
      rcases M.exec _ _ _ _ _ hExec with ⟨new, rfl, hSmall⟩
      rw [hSmall]
      dsimp only
      rw [← List.map_append, ← M.tick]
      exact ih (M.resp s r) (ws ++ new) _

/- A transaction of its own. -/
theorem withTx_embed (p : Prog Stmt Resp Err α)
    (db : Db') : (E'.withTx (M.lift p) db).1 = (E.withTx p (M.part db)).1 ∧
    M.part (E'.withTx (M.lift p) db).2 = (E.withTx p (M.part db)).2 := by
  unfold withTx
  rw [M.now]
  exact M.serial_embed _ p [] db

end Embedding

end Engine
