import FlowPilot.BaseCoroutine

/-! Programs that run alone while a call may fail. `Attempts` puts one failure at every call in turn:
it says how the program ends when all goes well and how it ends when one call, whichever it is, meets a
bad environment. `Throughout` speaks about every moment of a run, that is about the world together
with what is left of the program. -/

namespace Prog

variable {C : Type} {R : C → Type} {W E α β : Type} (exec : (c : C) → E → W → R c × W)

/-- With `good` environments for all calls the program ends as `post` says, and with a `bad` one for
a single call, whichever it is, as `undone` says. -/
def Attempts (good bad : E → Prop) (post undone : α → W → Prop) : Prog C R α → W → Prop
  | .done a, w => post a w
  | .call c k, w =>
      (∀ e, good e → Attempts good bad post undone (k (exec c e w).1) (exec c e w).2) ∧
      ∀ e, bad e → Ensures exec good undone (k (exec c e w).1) (exec c e w).2

/-- The moments of a run: before each call, and at the end. -/
def moments (env : Nat → E) : Nat → Prog C R α → W → List (Prog C R α × W)
  | _, .done a, w => [(.done a, w)]
  | n, .call c k, w =>
      (.call c k, w) :: moments env (n + 1) (k (exec c (env n) w).1) (exec c (env n) w).2

/-- At every moment of a run in `good` environments, `I` holds of what is left of the program and of
the world. -/
def Throughout (good : E → Prop) (I : Prog C R α → W → Prop) : Prog C R α → W → Prop
  | .done a, w => I (.done a) w
  | .call c k, w => I (.call c k) w ∧
      ∀ e, good e → Throughout good I (k (exec c e w).1) (exec c e w).2

variable {exec} {good bad : E → Prop} {w : W}

section Attempts

theorem Attempts.bind {mid undoneMid : α → W → Prop} {post undone : β → W → Prop} {p : Prog C R α}
    {f : α → Prog C R β} (hp : Attempts exec good bad mid undoneMid p w)
    (hf : ∀ a w', mid a w' → Attempts exec good bad post undone (f a) w')
    (hundo : ∀ a w', undoneMid a w' → Ensures exec good undone (f a) w') :
    Attempts exec good bad post undone (p >>= f) w := by
  induction p generalizing w with
  | done a => exact hf a w hp
  | call c k ih =>
      exact ⟨fun e he => ih _ (hp.1 e he), fun e he => Ensures.bind (hp.2 e he) hundo⟩

/-- The run in which the call `m` is the bad one: it counts only if the program makes that call. -/
theorem Attempts.runFrom {post undone : α → W → Prop} {p : Prog C R α}
    (hp : Attempts exec good bad post undone p w) {env : Nat → E} {m : Nat} (hbad : bad (env m))
    (hgood : ∀ n, n ≠ m → good (env n)) {n : Nat} (hn : n ≤ m)
    (hreached : m < (Prog.runFrom exec env n p w).1) :
    undone (Prog.runFrom exec env n p w).2.1 (Prog.runFrom exec env n p w).2.2 := by
  induction p generalizing w n with
  | done a => exact absurd hreached (not_lt.mpr hn)
  | call c k ih =>
      rw [Prog.runFrom] at hreached ⊢
      rcases Nat.lt_or_eq_of_le hn with hlt | rfl
      · exact ih _ (hp.1 _ (hgood n (Nat.ne_of_lt hlt))) hlt hreached
      -- the bad call is over, so that the environments that are left are good ones
      have hlater : ∀ i, n + 1 ≤ i → env i = Function.update env n (env (n + 1)) i := fun i hi =>
        (Function.update_of_ne (Nat.ne_of_gt hi) _ env).symm
      have hall : ∀ i, good (Function.update env n (env (n + 1)) i) := by
        intro i
        by_cases hi : i = n
        · rw [hi, Function.update_self]
          exact hgood (n + 1) (Nat.succ_ne_self n)
        · rw [Function.update_of_ne hi]
          exact hgood i hi
      rw [runFrom_congr hlater]
      exact (hp.2 _ hbad).runFrom _ hall (n + 1)

end Attempts

section Moments

variable {I : Prog C R α → W → Prop} {p : Prog C R α}

theorem Throughout.mono {J : Prog C R α → W → Prop}
    (hp : Throughout exec good I p w) (h : ∀ q v, I q v → J q v) : Throughout exec good J p w := by
  induction p generalizing w with
  | done a => exact h _ _ hp
  | call c k ih => exact ⟨h _ _ hp.1, fun e he => ih _ (hp.2 e he)⟩

theorem Throughout.bind {I : Prog C R β → W → Prop} {mid : α → W → Prop}
    {f : α → Prog C R β} (hp : Throughout exec good (fun q v => I (q >>= f) v) p w)
    (hmid : Ensures exec good mid p w)
    (hf : ∀ a v, mid a v → Throughout exec good I (f a) v) : Throughout exec good I (p >>= f) w := by
  induction p generalizing w with
  | done a => exact hf a w hmid
  | call c k ih => exact ⟨hp.1, fun e he => ih _ (hp.2 e he) (hmid e he)⟩

/-- A property of the world that every call of the program keeps holds at every moment. -/
theorem OnlyCalls.throughout {S : C → Prop} (hp : p.OnlyCalls S) {J : W → Prop}
    (hkeeps : ∀ c, S c → ∀ e w, J w → J (exec c e w).2) (hw : J w) :
    Throughout exec good (fun _ v => J v) p w := by
  induction p generalizing w with
  | done a => exact hw
  | call c k ih => exact ⟨hw, fun e _ => ih _ (hp.2 _) (hkeeps c hp.1 e w hw)⟩

theorem Throughout.and_ensures {post : α → W → Prop}
    (hp : Throughout exec good I p w) (hpost : Ensures exec good post p w) :
    Throughout exec good (fun q v => I q v ∧ ∀ a, q = .done a → post a v) p w := by
  induction p generalizing w with
  | done a => exact ⟨hp, fun _ ha => Prog.done.inj ha ▸ hpost⟩
  | call c k ih => exact ⟨⟨hp.1, nofun⟩, fun e he => ih _ (hp.2 e he) (hpost e he)⟩

theorem Throughout.ensures
    (hp : Throughout exec good I p w) : Ensures exec good (fun a v => I (.done a) v) p w := by
  induction p generalizing w with
  | done a => exact hp
  | call c k ih => exact fun e he => ih _ (hp.2 e he)

theorem Throughout.moments
    (hp : Throughout exec good I p w) {env : Nat → E} (henv : ∀ n, good (env n)) (n : Nat) :
    ∀ m ∈ Prog.moments exec env n p w, I m.1 m.2 := by
  induction p generalizing w n with
  | done a =>
      intro m hm
      rw [List.mem_singleton.mp hm]
      exact hp
  | call c k ih =>
      intro m hm
      rcases List.mem_cons.mp hm with rfl | hm
      · exact hp.1
      · exact ih _ (hp.2 _ (henv n)) (n + 1) m hm

end Moments

end Prog
