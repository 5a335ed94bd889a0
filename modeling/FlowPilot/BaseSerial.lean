import FlowPilot.BaseCoroutine

/-! Runs without interleaving. A program that was started goes on until it ends or comes to a call at
which programs may rest while others run; only then another program has its turn. A serial run is a run
of the pool, and a property of its states between two turns is shown turn by turn: `Prog.Yields` says
what holds when the program that has its turn comes to rest. -/

namespace Prog

variable {C : Type} {R : C → Type} {W E α β : Type}
  (exec : (c : C) → E → W → R c × W) (rests : C → Bool)

/-- The program run alone up to its end or to the next call at which it may rest, with the calls that
were served on the way; the `n`-th call is served in the environment `env n`. -/
def advance (env : Nat → E) : Nat → Prog C R α → W → List (Event C W E) × Prog C R α × W
  | _, .done a, w => ([], .done a, w)
  | n, .call c k, w =>
      if rests c then ([], .call c k, w)
      else
        let next := advance env (n + 1) (k (exec c (env n) w).1) (exec c (env n) w).2
        (⟨w, c, env n⟩ :: next.1, next.2)

/-- As long as the calls served are `good`, the program run alone ends as `post` says, or comes to rest
as `idle` says. -/
def Yields (good : Event C W E → Prop) (post : α → W → Prop) (idle : Prog C R α → W → Prop) :
    Prog C R α → W → Prop
  | .done a, w => post a w
  | .call c k, w =>
      (rests c = true → idle (.call c k) w) ∧
      (rests c = false → ∀ e, good ⟨w, c, e⟩ →
        Yields good post idle (k (exec c e w).1) (exec c e w).2)

variable {exec rests} {good : Event C W E → Prop}

variable {p : Prog C R α} {w : W}

theorem Yields.bind {mid : α → W → Prop} {post : β → W → Prop} {idle : Prog C R β → W → Prop}
    {f : α → Prog C R β} (hp : Yields exec rests good mid (fun p' w' => idle (p' >>= f) w') p w)
    (hf : ∀ a w', mid a w' → Yields exec rests good post idle (f a) w') :
    Yields exec rests good post idle (p >>= f) w := by
  induction p generalizing w with
  | done a => exact hf a w hp
  | call c k ih => exact ⟨hp.1, fun hc e he => ih _ (hp.2 hc e he)⟩

theorem Yields.perform_bind {post : β → W → Prop} {idle : Prog C R β → W → Prop} {c : C}
    {f : R c → Prog C R β} (hc : rests c = false)
    (h : ∀ e, good ⟨w, c, e⟩ → Yields exec rests good post idle (f (exec c e w).1) (exec c e w).2) :
    Yields exec rests good post idle (perform c >>= f) w :=
  ⟨fun hrests => absurd (hc.symm.trans hrests) Bool.false_ne_true, fun _ e he => h e he⟩

/-- What every call keeps holds whenever the program comes to rest, and at its end. -/
theorem OnlyCalls.yields {S : C → Prop} {I : W → Prop} (hp : p.OnlyCalls S)
    (hkeeps : ∀ c, S c → ∀ e w, I w → I (exec c e w).2) (hw : I w) :
    Yields exec rests good (fun _ w' => I w') (fun _ w' => I w') p w := by
  induction p generalizing w with
  | done a => exact hw
  | call c k ih => exact ⟨fun _ => hw, fun _ e _ => ih _ (hp.2 _) (hkeeps c hp.1 e w hw)⟩

theorem Ensures.yields {good' : E → Prop} {post : α → W → Prop} {idle : Prog C R α → W → Prop}
    (hp : Ensures exec good' post p w)
    (hbusy : p.OnlyCalls (fun c => rests c = false)) (h : ∀ ev, good ev → good' ev.env) :
    Yields exec rests good post idle p w := by
  induction p generalizing w with
  | done a => exact hp
  | call c k ih =>
      refine ⟨fun hc => ?_, fun _ e he => ih _ (hp e (h _ he)) (hbusy.2 _)⟩
      cases hc.symm.trans hbusy.1

theorem Yields.advance {post : α → W → Prop} {idle : Prog C R α → W → Prop}
    (hp : Yields exec rests good post idle p w) (env : Nat → E) (n : Nat)
    (hgood : ∀ ev ∈ (advance exec rests env n p w).1, good ev) :
    (∃ a, (Prog.advance exec rests env n p w).2.1 = .done a ∧
      post a (Prog.advance exec rests env n p w).2.2) ∨
    idle (Prog.advance exec rests env n p w).2.1 (Prog.advance exec rests env n p w).2.2 := by
  induction p generalizing w n with
  | done a => exact .inl ⟨a, rfl, hp⟩
  | call c k ih =>
      rw [Prog.advance] at hgood ⊢
      split
      · rename_i hc
        exact .inr (hp.1 hc)
      · rename_i hc
        rw [if_neg hc] at hgood
        have hnext := hp.2 ((Bool.not_eq_true _).mp hc) (env n)
          (hgood _ List.mem_cons_self)
        exact ih _ hnext (n + 1) (fun ev hev => hgood ev (List.mem_cons_of_mem _ hev))

end Prog

namespace System

variable {C : Type} {R : C → Type} {W E α : Type}

/-- One turn: a program is started or one that rests goes on, alone, until it rests again; or the
outside acts between two turns. -/
inductive SerialStep (S : System C R W E α) (rests : C → Bool) :
    Pool C R W α → List (Event C W E) → Pool C R W α → Prop where
  | start {w : W} {threads : List (Prog C R α)} {p : Prog C R α} (hp : S.program p)
      (env : Nat → E) :
      SerialStep S rests ⟨w, threads⟩ (p.advance S.exec rests env 0 w).1
        ⟨(p.advance S.exec rests env 0 w).2.2, (p.advance S.exec rests env 0 w).2.1 :: threads⟩
  | resume {w : W} {before after : List (Prog C R α)} {c : C} {k : R c → Prog C R α} (e : E)
      (env : Nat → E) :
      SerialStep S rests ⟨w, before ++ .call c k :: after⟩
        (⟨w, c, e⟩ :: ((k (S.exec c e w).1).advance S.exec rests env 0 (S.exec c e w).2).1)
        ⟨((k (S.exec c e w).1).advance S.exec rests env 0 (S.exec c e w).2).2.2,
          before ++
            ((k (S.exec c e w).1).advance S.exec rests env 0 (S.exec c e w).2).2.1 :: after⟩
  | outside {w w' : W} {threads : List (Prog C R α)} (hw : S.outside w w') :
      SerialStep S rests ⟨w, threads⟩ [] ⟨w', threads⟩

/-- Turns, one after the other. -/
inductive SerialRun (S : System C R W E α) (rests : C → Bool) :
    Pool C R W α → List (Event C W E) → Pool C R W α → Prop where
  | refl (σ : Pool C R W α) : SerialRun S rests σ [] σ
  | tail {σ σ₁ σ₂ : Pool C R W α} {log l : List (Event C W E)} (hrun : SerialRun S rests σ log σ₁)
      (hstep : SerialStep S rests σ₁ l σ₂) : SerialRun S rests σ (log ++ l) σ₂

variable {S : System C R W E α} {rests : C → Bool}

theorem advance_run (env : Nat → E) (n : Nat) (p : Prog C R α) (w : W)
    (before after : List (Prog C R α)) :
    S.Run ⟨w, before ++ p :: after⟩ (p.advance S.exec rests env n w).1
      ⟨(p.advance S.exec rests env n w).2.2,
        before ++ (p.advance S.exec rests env n w).2.1 :: after⟩ := by
  induction p generalizing w n with
  | done a => exact .refl _
  | call c k ih =>
      rw [Prog.advance]
      split
      · exact .refl _
      · exact Run.trans (Run.single (Step.serve (env n))) (ih _ (n + 1) _)

variable {σ σ' : Pool C R W α} {log : List (Event C W E)}

theorem SerialStep.run {l : List (Event C W E)} (h : S.SerialStep rests σ l σ') : S.Run σ l σ' := by
  cases h with
  | start hp env =>
      exact Run.trans (Run.single (Step.spawn hp)) (advance_run env 0 _ _ [] _)
  | resume e env => exact Run.trans (Run.single (Step.serve e)) (advance_run env 0 _ _ _ _)
  | outside hw => exact Run.single (Step.outside hw)

theorem SerialRun.run (h : S.SerialRun rests σ log σ') : S.Run σ log σ' := by
  induction h with
  | refl => exact .refl _
  | tail _ hstep ih => exact ih.trans hstep.run

/-- A property that programs have whenever they come to rest is one of all programs of the pool. -/
theorem SerialRun.threads {Idle : Prog C R α → Prop}
    (hstart : ∀ p, S.program p → ∀ w, Prog.Yields S.exec rests (fun _ => True)
      (fun a _ => Idle (.done a)) (fun p' _ => Idle p') p w)
    (hresume : ∀ c k, Idle (.call c k) → ∀ r w, Prog.Yields S.exec rests (fun _ => True)
      (fun a _ => Idle (.done a)) (fun p' _ => Idle p') (k r) w) (h : S.SerialRun rests σ log σ')
    (hσ : ∀ p ∈ σ.threads, Idle p) : ∀ p ∈ σ'.threads, Idle p := by
  have hidle : ∀ (p : Prog C R α) env w, Prog.Yields S.exec rests (fun _ => True)
      (fun a _ => Idle (.done a)) (fun p' _ => Idle p') p w →
      Idle (p.advance S.exec rests env 0 w).2.1 := by
    intro p env w hp
    rcases hp.advance env 0 (fun _ _ => trivial) with ⟨a, heq, ha⟩ | hidle
    · exact heq ▸ ha
    · exact hidle
  induction h with
  | refl => exact hσ
  | tail _ hstep ih =>
      cases hstep with
      | start hp env =>
          intro p hmem
          rcases List.mem_cons.mp hmem with rfl | hmem
          · exact hidle _ env _ (hstart _ hp _)
          · exact ih p hmem
      | @resume w before after c k e env =>
          intro p hmem
          rcases List.mem_append.mp hmem with hmem | hmem
          · exact ih p (List.mem_append_left _ hmem)
          rcases List.mem_cons.mp hmem with rfl | hmem
          · refine hidle _ env _ (hresume c k ?_ _ _)
            exact ih _ (List.mem_append_right _ List.mem_cons_self)
          · exact ih p (List.mem_append_right _ (List.mem_cons_of_mem _ hmem))
      | outside => exact ih

/-- A turn of a serial schedule: a program is started, or the `i`-th one goes on. -/
inductive SerialTurn (C : Type) (R : C → Type) (E : Type) (α : Type := Unit) where
  | start (p : Prog C R α) (env : Nat → E)
  | resume (i : Nat) (e : E) (env : Nat → E)

/-- The calls served in one turn, and the pool after it; a program that has ended does not go on. -/
def serialTurn (S : System C R W E α) (rests : C → Bool) (σ : Pool C R W α) :
    SerialTurn C R E α → List (Event C W E) × Pool C R W α
  | .start p env =>
      let next := p.advance S.exec rests env 0 σ.world
      (next.1, ⟨next.2.2, next.2.1 :: σ.threads⟩)
  | .resume i e env =>
      match σ.threads[i]? with
      | some (.call c k) =>
          let next := (k (S.exec c e σ.world).1).advance S.exec rests env 0 (S.exec c e σ.world).2
          (⟨σ.world, c, e⟩ :: next.1, ⟨next.2.2, σ.threads.set i next.2.1⟩)
      | _ => ([], σ)

/-- A serial schedule played from a pool. -/
def serialPlay (S : System C R W E α) (rests : C → Bool) :
    List (SerialTurn C R E α) → Pool C R W α → List (Event C W E) × Pool C R W α
  | [], σ => ([], σ)
  | t :: rest, σ =>
      ((S.serialTurn rests σ t).1 ++ (S.serialPlay rests rest (S.serialTurn rests σ t).2).1,
        (S.serialPlay rests rest (S.serialTurn rests σ t).2).2)

theorem SerialRun.trans {σ'' : Pool C R W α} {log' : List (Event C W E)}
    (h : S.SerialRun rests σ log σ') (h' : S.SerialRun rests σ' log' σ'') :
    S.SerialRun rests σ (log ++ log') σ'' := by
  induction h' with
  | refl => rwa [List.append_nil]
  | tail _ hstep ih =>
      rw [← List.append_assoc]
      exact .tail ih hstep

theorem serialTurn_run (σ : Pool C R W α) {t : SerialTurn C R E α}
    (h : ∀ p env, t = .start p env → S.program p) :
    S.SerialRun rests σ (S.serialTurn rests σ t).1 (S.serialTurn rests σ t).2 := by
  obtain ⟨w, threads⟩ := σ
  cases t with
  | start p env => exact .tail (.refl _) (.start (h p env rfl) env)
  | resume i e env =>
      rw [serialTurn]
      split
      · rename_i c k hi
        obtain ⟨hlt, hget⟩ := List.getElem?_eq_some_iff.mp hi
        have hsplit : threads = threads.take i ++ .call c k :: threads.drop (i + 1) := by
          rw [← hget, List.getElem_cons_drop, List.take_append_drop]
        have hstep : ∀ before after, S.SerialStep rests ⟨w, before ++ .call c k :: after⟩ _ _ :=
          fun before after => .resume (S := S) e env
        have hstep := hstep (threads.take i) (threads.drop (i + 1))
        rw [← hsplit, ← List.set_eq_take_cons_drop _ hlt] at hstep
        exact .tail (.refl _) hstep
      · exact .refl _

theorem serialPlay_run {turns : List (SerialTurn C R E α)}
    (h : ∀ p env, .start p env ∈ turns → S.program p) (σ : Pool C R W α) :
    S.SerialRun rests σ (S.serialPlay rests turns σ).1 (S.serialPlay rests turns σ).2 := by
  induction turns generalizing σ with
  | nil => exact .refl σ
  | cons t rest ih =>
      refine (serialTurn_run σ (fun p env hp => h p env (hp ▸ List.mem_cons_self))).trans ?_
      exact ih (fun p env hp => h p env (List.mem_cons_of_mem t hp)) _

end System
