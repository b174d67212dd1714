import Mathlib.Data.List.Forall2

/-
  Chains of records, each with the hash of the one before.

  A link stores what it records, the hash of the link before it and its own hash, which is computed
  from the two. The last hash commits to all that the hashes are computed from.

  Key definitions include:
    * `HashChain.Link`
    * `HashChain.Chained`
    * `HashChain.tip`

  Main results:
    * `HashChain.chained_concat`
    * `HashChain.forall₂_of_tip`
-/

----
-- Chains
----

namespace HashChain

/- What is recorded, with the hashes stored beside it. -/
structure Link (Content Hash : Type) where
  content : Content
  previous : Hash
  current : Hash

variable {Content Hash : Type}

/- From the hash `h` on, every link follows the one before. -/
def Chained (digest : Content → Hash → Hash) : Hash → List (Link Content Hash) → Prop
| _, [] => True
| h, l :: ls =>
  l.previous = h ∧ l.current = digest l.content l.previous ∧ Chained digest l.current ls

/- The last hash, or the one the chain starts from. -/
def tip : Hash → List (Link Content Hash) → Hash
| h, [] => h
| _, l :: ls => tip l.current ls

variable {digest : Content → Hash → Hash} {h h' : Hash} {l : Link Content Hash}
variable {ls ls' : List (Link Content Hash)}

/- A chain grows by a link that names its tip. -/
theorem chained_concat : Chained digest h (ls ++ [l]) ↔
    Chained digest h ls ∧ l.previous = tip h ls ∧ l.current = digest l.content l.previous := by
  induction ls generalizing h with
  | nil => simp [Chained, tip]
  | cons l' ls ih =>
    show _ ∧ _ ∧ Chained digest l'.current (ls ++ [l]) ↔
      (_ ∧ _ ∧ _) ∧ l.previous = tip l'.current ls ∧ _
    rw [ih, and_assoc, and_assoc]

theorem Chained.current (hChained : Chained digest h ls) :
    ∀ l ∈ ls, l.current = digest l.content l.previous := by
  induction ls generalizing h with
  | nil => exact List.forall_mem_nil _
  | cons l ls ih =>
    rcases hChained with ⟨_, hCurrent, hRest⟩
    exact List.forall_mem_cons.mpr ⟨hCurrent, ih hRest⟩

theorem Chained.previous {P : Hash → Prop} (hChained : Chained digest h ls)
    (hStart : P h) (hDigest : ∀ c h, P (digest c h)) : ∀ l ∈ ls, P l.previous := by
  induction ls generalizing h with
  | nil => exact List.forall_mem_nil _
  | cons l ls ih =>
    rcases hChained with ⟨hPrevious, hCurrent, hRest⟩
    refine List.forall_mem_cons.mpr ⟨?_, ?_⟩
    · rw [hPrevious]
      exact hStart
    · refine ih hRest ?_
      rw [hCurrent]
      exact hDigest l.content l.previous

/-
  Two chains of the same length with the same tip are related link by link, if equal hashes come
  from related links that name equal hashes.
-/
theorem forall₂_of_tip {R : Link Content Hash → Link Content Hash → Prop}
    (hSame : ∀ l ∈ ls, ∀ l' ∈ ls', l.current = l'.current →
    l.previous = l'.previous ∧ R l l') (hChained : Chained digest h ls)
    (hChained' : Chained digest h' ls') (hLength : ls.length = ls'.length)
    (hTip : tip h ls = tip h' ls') : h = h' ∧ List.Forall₂ R ls ls' := by
  induction ls generalizing h h' ls' with
  | nil =>
    cases ls' with
    | nil => exact ⟨hTip, .nil⟩
    | cons l' ls' => cases hLength
  | cons l ls ih =>
    cases ls' with
    | nil => cases hLength
    | cons l' ls' =>
      rcases hChained with ⟨hPrev, _, hRest⟩
      rcases hChained' with ⟨hPrev', _, hRest'⟩
      rcases ih
          (fun m hMem m' hMem' =>
            hSame m (List.mem_cons_of_mem l hMem) m' (List.mem_cons_of_mem l' hMem'))
          hRest hRest' (Nat.succ.inj hLength) hTip with ⟨hCurrent, hLater⟩
      rcases hSame l List.mem_cons_self l' List.mem_cons_self hCurrent with ⟨hPrevious, hRelated⟩
      rw [hPrev, hPrev'] at hPrevious
      exact ⟨hPrevious, .cons hRelated hLater⟩

end HashChain
