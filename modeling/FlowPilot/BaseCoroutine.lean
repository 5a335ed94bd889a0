import Mathlib.Data.List.Forall2
import Mathlib.Data.Multiset.AddSub

/-! Coroutines that share one world. A program is a tree of calls: it issues a call, is suspended,
and goes on with the reply. A pool is a world with any number of suspended programs; one step serves
the call of one of them, so that every interleaving of the suspension points is a run.

A protocol assigns each suspended program a token that says what the program still has to do. The
rule `System.Run.covered` carries an invariant of the world and the multiset of tokens through every
run, from one obligation per call. -/

/-- A program that issues calls `c : C` and goes on with replies of type `R c`. -/
inductive Prog (C : Type) (R : C → Type) (α : Type) : Type where
  | done (a : α) : Prog C R α
  | call (c : C) (k : R c → Prog C R α) : Prog C R α

namespace Prog

variable {C : Type} {R : C → Type} {α β : Type}

/-- Runs the first program and hands its result to the second. -/
def bind : Prog C R α → (α → Prog C R β) → Prog C R β
  | .done a, f => f a
  | .call c k, f => .call c (fun r => (k r).bind f)

instance : Monad (Prog C R) where
  pure := .done
  bind := .bind

def perform (c : C) : Prog C R (R c) := .call c .done

@[simp] theorem pure_eq_done (a : α) : (pure a : Prog C R α) = .done a := rfl

@[simp] theorem done_bind (a : α) (f : α → Prog C R β) : (Prog.done a >>= f) = f a := rfl

@[simp] theorem call_bind (c : C) (k : R c → Prog C R α) (f : α → Prog C R β) :
    (Prog.call c k >>= f) = .call c (fun r => k r >>= f) := rfl

@[simp] theorem perform_bind (c : C) (f : R c → Prog C R β) :
    (perform c >>= f) = .call c f := rfl

/-- Runs the second program only if the first reports success. -/
def andThen (p q : Prog C R Bool) : Prog C R Bool := p >>= fun b => if b then q else .done false

/-- Runs the program if the condition holds, and otherwise reports success. -/
def onlyIf (b : Bool) (p : Prog C R Bool) : Prog C R Bool := if b then p else .done true

/-- The call a suspended program waits for. -/
def next? : Prog C R α → Option C
  | .done _ => none
  | .call c _ => some c

/-- Every call the program makes is one of `S`. -/
def OnlyCalls (S : C → Prop) : Prog C R α → Prop
  | .done _ => True
  | .call c k => S c ∧ ∀ r, OnlyCalls S (k r)

variable {S : C → Prop} {p : Prog C R α}

theorem OnlyCalls.bind {f : α → Prog C R β} (hp : p.OnlyCalls S)
    (hf : ∀ a, (f a).OnlyCalls S) : (p >>= f).OnlyCalls S := by
  induction p with
  | done a => exact hf a
  | call c k ih => exact ⟨hp.1, fun r => ih r (hp.2 r)⟩

theorem OnlyCalls.mono {S' : C → Prop} (hp : p.OnlyCalls S)
    (h : ∀ c, S c → S' c) : p.OnlyCalls S' := by
  induction p with
  | done a => trivial
  | call c k ih => exact ⟨h c hp.1, fun r => ih r (hp.2 r)⟩

theorem OnlyCalls.perform {c : C} (hc : S c) :
    (perform c : Prog C R (R c)).OnlyCalls S := ⟨hc, fun _ => trivial⟩

/-- The result of a program that has ended. -/
def result? : Prog C R α → Option α
  | .done a => some a
  | .call _ _ => none

/-- Every call the program makes before it makes one of `stop` is one of `S`. -/
def OnlyCallsUntil (stop : C → Bool) (S : C → Prop) : Prog C R α → Prop
  | .done _ => True
  | .call c k => stop c = true ∨ (S c ∧ ∀ r, OnlyCallsUntil stop S (k r))

theorem OnlyCallsUntil.of_next?_eq_none {stop : C → Bool}
    (h : p.next? = none) : p.OnlyCallsUntil stop S := by
  cases p with
  | done a => trivial
  | call c k => cases h

section Answered

variable (answer : Nat → (c : C) → R c)

/-- The calls of a complete run of the program in which the `n`-th call has the reply `answer n`. -/
def calls : Nat → Prog C R α → List C
  | _, .done _ => []
  | n, .call c k => c :: calls (n + 1) (k (answer n c))

/-- The result of such a run, with the number of calls served. -/
def answered : Nat → Prog C R α → Nat × α
  | n, .done a => (n, a)
  | n, .call c k => answered (n + 1) (k (answer n c))

/-- The first call of a run whose reply is known. -/
theorem calls_perform_bind {answer : Nat → (c : C) → R c} {c : C} {r : R c} {n : Nat}
    (hr : answer n c = r) (f : R c → Prog C R β) :
    (perform c >>= f).calls answer n = c :: (f r).calls answer (n + 1) := by
  rw [← hr]
  rfl

theorem calls_bind (p : Prog C R α) (f : α → Prog C R β) (n : Nat) :
    (p >>= f).calls answer n = p.calls answer n ++
      (f (p.answered answer n).2).calls answer (p.answered answer n).1 := by
  induction p generalizing n with
  | done a => rfl
  | call c k ih => exact congrArg (c :: ·) (ih _ (n + 1))

theorem OnlyCalls.mem_calls {S : C → Prop} {p : Prog C R α} (hp : p.OnlyCalls S) (n : Nat) :
    ∀ c ∈ p.calls answer n, S c := by
  induction p generalizing n with
  | done a => exact fun c hc => absurd hc List.not_mem_nil
  | call c k ih =>
      intro c' hc'
      rcases List.mem_cons.mp hc' with rfl | hc'
      · exact hp.1
      · exact ih _ (hp.2 _) (n + 1) c' hc'

end Answered

section Sequential

variable {W E : Type} (exec : (c : C) → E → W → R c × W)

/-- The program run alone: the calls are served one after the other, the `n`-th in the environment
`env n`. The result comes with the number of calls served. -/
def runFrom (env : Nat → E) : Nat → Prog C R α → W → Nat × α × W
  | n, .done a, w => (n, a, w)
  | n, .call c k, w => runFrom env (n + 1) (k (exec c (env n) w).1) (exec c (env n) w).2

def run (env : Nat → E) (p : Prog C R α) (w : W) : α × W := (runFrom exec env 0 p w).2

theorem runFrom_shift (env : Nat → E) (m n : Nat) (p : Prog C R α) (w : W) :
    (runFrom exec env (n + m) p w).2 = (runFrom exec (fun i => env (i + m)) n p w).2 := by
  induction p generalizing n w with
  | done a => rfl
  | call c k ih =>
      simp only [runFrom]
      rw [Nat.add_right_comm]
      exact ih _ (n + 1) _

theorem run_call_const (e : E) (c : C) (k : R c → Prog C R α) (w : W) :
    run exec (fun _ => e) (.call c k) w =
      run exec (fun _ => e) (k (exec c e w).1) (exec c e w).2 :=
  runFrom_shift exec (fun _ => e) 1 0 (k (exec c e w).1) (exec c e w).2

/-- Whatever the environments of the calls, as long as they are among the `good` ones, the program
run alone ends with a result and a world that meet `post`. -/
def Ensures (good : E → Prop) (post : α → W → Prop) : Prog C R α → W → Prop
  | .done a, w => post a w
  | .call c k, w => ∀ e, good e → Ensures good post (k (exec c e w).1) (exec c e w).2

variable {exec} {good : E → Prop}

variable {post : α → W → Prop} {p : Prog C R α} {w : W}

theorem Ensures.bind {mid : α → W → Prop} {post : β → W → Prop}
    {f : α → Prog C R β} (hp : Ensures exec good mid p w)
    (hf : ∀ a w', mid a w' → Ensures exec good post (f a) w') :
    Ensures exec good post (p >>= f) w := by
  induction p generalizing w with
  | done a => exact hf a w hp
  | call c k ih => exact fun e he => ih _ (hp e he)

theorem Ensures.mono {post' : α → W → Prop}
    (hp : Ensures exec good post p w) (hpost : ∀ a w', post a w' → post' a w') :
    Ensures exec good post' p w := by
  induction p generalizing w with
  | done a => exact hpost a w hp
  | call c k ih => exact fun e he => ih _ (hp e he)

theorem Ensures.and {post' : α → W → Prop}
    (hp : Ensures exec good post p w) (hp' : Ensures exec good post' p w) :
    Ensures exec good (fun a w' => post a w' ∧ post' a w') p w := by
  induction p generalizing w with
  | done a => exact ⟨hp, hp'⟩
  | call c k ih => exact fun e he => ih _ (hp e he) (hp' e he)

theorem Ensures.all {ι : Type} {post : ι → α → W → Prop}
    (hp : ∀ i, Ensures exec good (post i) p w) :
    Ensures exec good (fun a w' => ∀ i, post i a w') p w := by
  induction p generalizing w with
  | done a => exact fun i => hp i
  | call c k ih => exact fun e he => ih _ (fun i => hp i e he)

theorem OnlyCalls.ensures {S : C → Prop} (hp : p.OnlyCalls S) {I : W → Prop}
    (hkeeps : ∀ c, S c → ∀ e w, I w → I (exec c e w).2) (hw : I w) :
    Ensures exec good (fun _ w' => I w') p w := by
  induction p generalizing w with
  | done a => exact hw
  | call c k ih => exact fun e _ => ih _ (hp.2 _) (hkeeps c hp.1 e w hw)

theorem ensures_any (p : Prog C R α) (w : W) : Ensures exec good (fun _ _ => True) p w := by
  induction p generalizing w with
  | done a => trivial
  | call c k ih => exact fun e _ => ih _ _

/-- What is ensured holds of every run, also of one that starts with a later environment. -/
theorem Ensures.runFrom
    (hp : Ensures exec good post p w) (env : Nat → E) (henv : ∀ n, good (env n)) (n : Nat) :
    post (Prog.runFrom exec env n p w).2.1 (Prog.runFrom exec env n p w).2.2 := by
  induction p generalizing w n with
  | done a => exact hp
  | call c k ih => exact ih _ (hp (env n) (henv n)) (n + 1)

theorem Ensures.run (hp : Ensures exec good post p w) (env : Nat → E) (henv : ∀ n, good (env n)) :
    post (Prog.run exec env p w).1 (Prog.run exec env p w).2 := hp.runFrom env henv 0

theorem Ensures.anti {good' : E → Prop}
    (hp : Ensures exec good post p w) (h : ∀ e, good' e → good e) :
    Ensures exec good' post p w := by
  induction p generalizing w with
  | done a => exact hp
  | call c k ih => exact fun e he => ih _ (hp e (h e he))

theorem Ensures.of_bind {post : β → W → Prop} {f : α → Prog C R β}
    (h : Ensures exec good post (p >>= f) w) :
    Ensures exec good (fun a w' => Ensures exec good post (f a) w') p w := by
  induction p generalizing w with
  | done a => exact h
  | call c k ih => exact fun e he => ih _ (h e he)

theorem runFrom_congr {env env' : Nat → E} {n : Nat} (h : ∀ m, n ≤ m → env m = env' m)
    (p : Prog C R α) (w : W) : runFrom exec env n p w = runFrom exec env' n p w := by
  induction p generalizing w n with
  | done a => rfl
  | call c k ih =>
      rw [runFrom, runFrom, h n (le_refl n)]
      exact ih _ (fun m hm => h m (Nat.le_of_succ_le hm)) _

theorem ensures_of_runFrom (e₀ : E) (he₀ : good e₀)
    (n : Nat) (h : ∀ env : Nat → E, (∀ m, good (env m)) →
      post (Prog.runFrom exec env n p w).2.1 (Prog.runFrom exec env n p w).2.2) :
    Ensures exec good post p w := by
  induction p generalizing w n with
  | done a => exact h (fun _ => e₀) (fun _ => he₀)
  | call c k ih =>
      intro e he
      refine ih _ (n + 1) (fun env henv => ?_)
      have hgood : ∀ m, good (Function.update env n e m) := by
        intro m
        by_cases hm : m = n
        · rw [hm, Function.update_self]
          exact he
        · rw [Function.update_of_ne hm]
          exact henv m
      have hrun := h (Function.update env n e) hgood
      rw [Prog.runFrom, Function.update_self] at hrun
      rw [runFrom_congr (fun m hm => (Function.update_of_ne (Nat.ne_of_gt hm) e env).symm)]
      exact hrun

end Sequential

end Prog

/-- A world and the programs suspended in it. -/
structure Pool (C : Type) (R : C → Type) (W : Type) (α : Type := Unit) where
  world : W
  threads : List (Prog C R α)

/-- What a pool is made of: how a call is served in an environment, which programs may be started,
and what may happen to the world from outside. -/
structure System (C : Type) (R : C → Type) (W E : Type) (α : Type := Unit) where
  exec : (c : C) → E → W → R c × W
  program : Prog C R α → Prop
  outside : W → W → Prop

/-- One served call: the world it met, the call, and the environment it was served in. -/
structure Event (C W E : Type) where
  world : W
  call : C
  env : E

namespace System

variable {C : Type} {R : C → Type} {W E α : Type}

/-- One step of a pool, with the call it serves, if any. -/
inductive Step (S : System C R W E α) : Pool C R W α → Option (Event C W E) → Pool C R W α → Prop where
  | spawn {w : W} {threads : List (Prog C R α)} {p : Prog C R α} (hp : S.program p) :
      Step S ⟨w, threads⟩ none ⟨w, p :: threads⟩
  | outside {w w' : W} {threads : List (Prog C R α)} (hw : S.outside w w') :
      Step S ⟨w, threads⟩ none ⟨w', threads⟩
  | serve {w : W} {before after : List (Prog C R α)} {c : C} {k : R c → Prog C R α} (e : E) :
      Step S ⟨w, before ++ .call c k :: after⟩ (some ⟨w, c, e⟩)
        ⟨(S.exec c e w).2, before ++ k (S.exec c e w).1 :: after⟩

/-- A finite run, with the calls it served, oldest first. -/
inductive Run (S : System C R W E α) : Pool C R W α → List (Event C W E) → Pool C R W α → Prop where
  | refl (σ : Pool C R W α) : Run S σ [] σ
  | tail {σ σ₁ σ₂ : Pool C R W α} {log : List (Event C W E)} {ev : Option (Event C W E)}
      (hrun : Run S σ log σ₁) (hstep : Step S σ₁ ev σ₂) : Run S σ (log ++ ev.toList) σ₂

variable {S : System C R W E α} {σ : Pool C R W α}

theorem Run.single {σ' : Pool C R W α} {ev : Option (Event C W E)}
    (hstep : S.Step σ ev σ') : S.Run σ ev.toList σ' :=
  Run.tail (Run.refl σ) hstep

theorem Run.trans {σ₁ σ₂ : Pool C R W α} {log log' : List (Event C W E)}
    (h₁ : S.Run σ log σ₁) (h₂ : S.Run σ₁ log' σ₂) : S.Run σ (log ++ log') σ₂ := by
  induction h₂ with
  | refl => simpa using h₁
  | tail _ hstep ih =>
      rw [← List.append_assoc]
      exact Run.tail ih hstep

/-- A property of the calls served so far and the world that every call and the outside keep, whatever
the programs are. -/
theorem Run.logged (Inv : List (Event C W E) → W → Prop)
    (houtside : ∀ log w w', S.outside w w' → Inv log w → Inv log w')
    (hserve : ∀ log w c e, Inv log w → Inv (log ++ [⟨w, c, e⟩]) (S.exec c e w).2)
    {σ' : Pool C R W α} {log : List (Event C W E)} (hrun : S.Run σ log σ')
    (hstart : Inv [] σ.world) : Inv log σ'.world := by
  induction hrun with
  | refl => exact hstart
  | tail _ hstep ih =>
      cases hstep with
      | spawn _ => simpa using ih
      | outside hw => simpa using houtside _ _ _ hw ih
      | serve e => exact hserve _ _ _ e ih

/-- One turn of a schedule: a program is started, or the call of the `i`-th one is served. -/
inductive Turn (C : Type) (R : C → Type) (E : Type) (α : Type := Unit) where
  | spawn (p : Prog C R α)
  | serve (i : Nat) (e : E)

/-- The pool after one turn; a turn of a program that waits for nothing has no effect. -/
def turn (S : System C R W E α) (σ : Pool C R W α) :
    Turn C R E α → Option (Event C W E) × Pool C R W α
  | .spawn p => (none, ⟨σ.world, p :: σ.threads⟩)
  | .serve i e =>
      match σ.threads[i]? with
      | some (.call c k) =>
          (some ⟨σ.world, c, e⟩,
            ⟨(S.exec c e σ.world).2, σ.threads.set i (k (S.exec c e σ.world).1)⟩)
      | _ => (none, σ)

/-- A schedule played from a pool: the calls it served and the pool it ends in. -/
def play (S : System C R W E α) :
    List (Turn C R E α) → Pool C R W α → List (Event C W E) × Pool C R W α
  | [], σ => ([], σ)
  | t :: rest, σ =>
      ((S.turn σ t).1.toList ++ (S.play rest (S.turn σ t).2).1, (S.play rest (S.turn σ t).2).2)

/-- A schedule that starts programs of the system only. -/
def Allowed (S : System C R W E α) (turns : List (Turn C R E α)) : Prop :=
  ∀ p, .spawn p ∈ turns → S.program p

theorem turn_run (σ : Pool C R W α) {t : Turn C R E α}
    (h : ∀ p, t = .spawn p → S.program p) : S.Run σ (S.turn σ t).1.toList (S.turn σ t).2 := by
  cases t with
  | spawn p => exact Run.single (Step.spawn (h p rfl))
  | serve i e =>
      rw [turn]
      split
      · rename_i c k hi
        obtain ⟨w, threads⟩ := σ
        obtain ⟨hlt, hget⟩ := List.getElem?_eq_some_iff.mp hi
        have hsplit : threads = threads.take i ++ .call c k :: threads.drop (i + 1) := by
          rw [← hget, List.getElem_cons_drop, List.take_append_drop]
        have hstep : S.Step ⟨w, threads.take i ++ .call c k :: threads.drop (i + 1)⟩
            (some ⟨w, c, e⟩) ⟨(S.exec c e w).2,
              threads.take i ++ k (S.exec c e w).1 :: threads.drop (i + 1)⟩ := Step.serve e
        rw [← hsplit, ← List.set_eq_take_cons_drop _ hlt] at hstep
        exact Run.single hstep
      · exact Run.refl σ

theorem play_run {turns : List (Turn C R E α)} (h : S.Allowed turns)
    (σ : Pool C R W α) : S.Run σ (S.play turns σ).1 (S.play turns σ).2 := by
  induction turns generalizing σ with
  | nil => exact Run.refl σ
  | cons t rest ih =>
      refine Run.trans (turn_run σ (fun p hp => h p (hp ▸ List.mem_cons_self))) ?_
      exact ih (fun p hp => h p (List.mem_cons_of_mem t hp)) _

end System

/-- What a program may do at each token: the moves a reply makes, and the tokens it may end at. -/
structure Protocol (C : Type) (R : C → Type) (Tok : Type) where
  idle : Tok
  Move : (c : C) → R c → Tok → Tok → Prop
  Final : Tok → Prop

namespace Protocol

variable {C : Type} {R : C → Type} {Tok α β : Type}

/-- From the token `t` the program makes a move of the protocol at every reply, and its result and
last token meet `post`. -/
def FollowsTo (P : Protocol C R Tok) (post : α → Tok → Prop) : Prog C R α → Tok → Prop
  | .done a, t => post a t
  | .call c k, t => ∀ r, ∃ t', P.Move c r t t' ∧ FollowsTo P post (k r) t'

/-- The program follows the protocol to one of its final tokens. -/
def Follows (P : Protocol C R Tok) (p : Prog C R Unit) (t : Tok) : Prop :=
  P.FollowsTo (fun _ t' => P.Final t') p t

variable {P : Protocol C R Tok} {p : Prog C R α} {t : Tok}

/-- A sequence follows the protocol when its second part does from wherever the first part ends. -/
theorem FollowsTo.bind {mid : α → Tok → Prop} {post : β → Tok → Prop}
    {f : α → Prog C R β} (hp : P.FollowsTo mid p t)
    (hf : ∀ a t', mid a t' → P.FollowsTo post (f a) t') : P.FollowsTo post (p >>= f) t := by
  induction p generalizing t with
  | done a => exact hf a t hp
  | call c k ih =>
      intro r
      obtain ⟨t', hmove, hk⟩ := hp r
      exact ⟨t', hmove, ih r hk⟩

theorem FollowsTo.mono {post post' : α → Tok → Prop}
    (hp : P.FollowsTo post p t) (hpost : ∀ a t', post a t' → post' a t') :
    P.FollowsTo post' p t := by
  induction p generalizing t with
  | done a => exact hpost a t hp
  | call c k ih =>
      intro r
      obtain ⟨t', hmove, hk⟩ := hp r
      exact ⟨t', hmove, ih r hk⟩

theorem FollowsTo.of_onlyCalls {S : C → Prop}
    (hp : p.OnlyCalls S) (hmove : ∀ c, S c → ∀ r, P.Move c r t t) :
    P.FollowsTo (fun _ t' => t' = t) p t := by
  induction p with
  | done a => rfl
  | call c k ih => exact fun r => ⟨t, hmove c hp.1 r, ih r (hp.2 r)⟩

/-- The rule for a chain of programs of which each runs after the success of the one before. -/
theorem FollowsTo.andThen {mid bad : Tok → Prop} {post : Bool → Tok → Prop} {p q : Prog C R Bool}
    (hp : P.FollowsTo (fun b t' => if b then mid t' else bad t') p t)
    (hq : ∀ t', mid t' → P.FollowsTo post q t') (hbad : ∀ t', bad t' → post false t') :
    P.FollowsTo post (p.andThen q) t := by
  refine FollowsTo.bind hp ?_
  rintro (_ | _) t' ht
  · exact hbad t' ht
  · exact hq t' ht

/-- A protocol of finer tokens: `f` forgets what the coarser one does not tell apart. -/
structure Refines {Tok' : Type} (P : Protocol C R Tok) (Q : Protocol C R Tok') (f : Tok' → Tok) :
    Prop where
  idle : f Q.idle = P.idle
  move : ∀ c r q q', Q.Move c r q q' → P.Move c r (f q) (f q')
  final : ∀ q, Q.Final q → P.Final (f q)

theorem Refines.followsTo {Tok' : Type} {Q : Protocol C R Tok'}
    {f : Tok' → Tok} (h : P.Refines Q f) {post : α → Tok' → Prop} {post' : α → Tok → Prop}
    (hpost : ∀ a q, post a q → post' a (f q)) {q : Tok'}
    (hp : Q.FollowsTo post p q) : P.FollowsTo post' p (f q) := by
  induction p generalizing q with
  | done a => exact hpost a q hp
  | call c k ih =>
      intro r
      obtain ⟨q', hmove, hk⟩ := hp r
      exact ⟨f q', h.move c r q q' hmove, ih r hk⟩

theorem Refines.follows {Tok' : Type} {Q : Protocol C R Tok'}
    {f : Tok' → Tok} (h : P.Refines Q f) {p : Prog C R Unit} {q : Tok'} (hp : Q.Follows p q) :
    P.Follows p (f q) :=
  h.followsTo (fun _ q hq => h.final q hq) hp

end Protocol

section Coverage

variable {C : Type} {R : C → Type} {W E Tok : Type}

/-- Each program follows the protocol from a token of its own to a result and a token that meet
`post`, and the tokens together with the calls served so far and the world meet the invariant. -/
def CoveredTo {α : Type} (P : Protocol C R Tok) (post : α → Tok → Prop)
    (Inv : List (Event C W E) → W → Multiset Tok → Prop) (log : List (Event C W E))
    (σ : Pool C R W α) : Prop :=
  ∃ toks : List Tok, List.Forall₂ (P.FollowsTo post) σ.threads toks ∧
    Inv log σ.world (toks : Multiset Tok)

/-- Each suspended program follows the protocol from a token of its own, and the tokens together
with the calls served so far and the world meet the invariant. -/
def Covered (P : Protocol C R Tok) (Inv : List (Event C W E) → W → Multiset Tok → Prop)
    (log : List (Event C W E)) (σ : Pool C R W) : Prop :=
  ∃ toks : List Tok, List.Forall₂ P.Follows σ.threads toks ∧ Inv log σ.world (toks : Multiset Tok)

theorem forall₂_append_left {α β : Type} {rel : α → β → Prop} {before after : List α} {l : List β}
    (h : List.Forall₂ rel (before ++ after) l) :
    ∃ l₁ l₂, List.Forall₂ rel before l₁ ∧ List.Forall₂ rel after l₂ ∧ l = l₁ ++ l₂ := by
  induction before generalizing l with
  | nil => exact ⟨[], l, List.Forall₂.nil, h, rfl⟩
  | cons a before ih =>
      obtain ⟨b, rest, hab, hrest, rfl⟩ := List.forall₂_cons_left_iff.mp h
      obtain ⟨l₁, l₂, h₁, h₂, rfl⟩ := ih hrest
      exact ⟨b :: l₁, l₂, List.Forall₂.cons hab h₁, h₂, rfl⟩

theorem exists_of_forall₂ {α β : Type} {rel : α → β → Prop} {l : List α} {l' : List β}
    (h : List.Forall₂ rel l l') {a : α} (ha : a ∈ l) : ∃ b ∈ l', rel a b := by
  induction h with
  | nil => cases ha
  | cons hab _ ih =>
      rcases List.mem_cons.mp ha with rfl | ha
      · exact ⟨_, List.mem_cons_self, hab⟩
      · obtain ⟨b, hb, hrel⟩ := ih ha
        exact ⟨b, List.mem_cons_of_mem _ hb, hrel⟩

variable {S : System C R W E} {P : Protocol C R Tok}
  {Inv : List (Event C W E) → W → Multiset Tok → Prop} {σ σ' : Pool C R W}
  {log : List (Event C W E)}

/-- An invariant that survives the tokens of new programs, the outside and every move of the protocol
holds in every run of programs that follow it. -/
theorem System.Run.coveredTo {α : Type} {S : System C R W E α} {post : α → Tok → Prop}
    (hprogram : ∀ p, S.program p → ∃ t, P.FollowsTo post p t ∧
      ∀ log w T, Inv log w T → Inv log w (t ::ₘ T))
    (houtside : ∀ log w w' T, S.outside w w' → Inv log w T → Inv log w' T)
    (hserve : ∀ log w c e t t' T, P.Move c (S.exec c e w).1 t t' → Inv log w (t ::ₘ T) →
      Inv (log ++ [⟨w, c, e⟩]) (S.exec c e w).2 (t' ::ₘ T))
    {σ σ' : Pool C R W α} (hrun : S.Run σ log σ')
    (hstart : CoveredTo P post Inv [] σ) : CoveredTo P post Inv log σ' := by
  induction hrun with
  | refl => exact hstart
  | tail _ hstep ih =>
      obtain ⟨toks, hfollows, hinv⟩ := ih
      cases hstep with
      | spawn hp =>
          obtain ⟨t, hfollow, hnew⟩ := hprogram _ hp
          refine ⟨t :: toks, List.Forall₂.cons hfollow hfollows, ?_⟩
          simpa using hnew _ _ _ hinv
      | outside hw =>
          refine ⟨toks, hfollows, ?_⟩
          simpa using houtside _ _ _ _ hw hinv
      | @serve w before after c k e =>
          obtain ⟨tbefore, trest, hbefore, hrest, rfl⟩ :=
            forall₂_append_left hfollows
          obtain ⟨t, tafter, hcall, hafter, rfl⟩ := List.forall₂_cons_left_iff.mp hrest
          obtain ⟨t', hmove, hk⟩ := hcall (S.exec c e w).1
          refine ⟨tbefore ++ t' :: tafter,
            List.rel_append hbefore (List.Forall₂.cons hk hafter), ?_⟩
          have hperm : ∀ x, ((tbefore ++ x :: tafter : List Tok) : Multiset Tok) =
              x ::ₘ ((tbefore ++ tafter : List Tok) : Multiset Tok) := fun x =>
            Multiset.coe_eq_coe.mpr List.perm_middle
          rw [hperm] at hinv ⊢
          exact hserve _ _ _ _ _ _ _ hmove hinv

variable (hprogram : ∀ p, S.program p → P.Follows p P.idle)
  (hidle : ∀ log w T, Inv log w T → Inv log w (P.idle ::ₘ T))
  (houtside : ∀ log w w' T, S.outside w w' → Inv log w T → Inv log w' T)

include hprogram hidle houtside

/-- The invariant rule: every thread follows the protocol, and every served call keeps the invariant. -/
theorem System.Run.covered
    (hserve : ∀ log w c e t t' T, P.Move c (S.exec c e w).1 t t' → Inv log w (t ::ₘ T) →
      Inv (log ++ [⟨w, c, e⟩]) (S.exec c e w).2 (t' ::ₘ T)) (hrun : S.Run σ log σ')
    (hstart : Covered P Inv [] σ) : Covered P Inv log σ' :=
  hrun.coveredTo (fun p hp => ⟨P.idle, hprogram p hp, hidle⟩) houtside hserve hstart

/-- The same for runs of good calls. -/
theorem System.Run.covered_of_good {good : Event C W E → Prop}
    (hserve : ∀ log w c e t t' T, good ⟨w, c, e⟩ → P.Move c (S.exec c e w).1 t t' →
      Inv log w (t ::ₘ T) → Inv (log ++ [⟨w, c, e⟩]) (S.exec c e w).2 (t' ::ₘ T))
    (hrun : S.Run σ log σ')
    (hgood : ∀ ev ∈ log, good ev) (hstart : Covered P Inv [] σ) : Covered P Inv log σ' := by
  obtain ⟨toks, hfollows, hinv⟩ := hstart
  have hcovered : Covered P (fun log w T => (∀ ev ∈ log, good ev) → Inv log w T) log σ' := by
    refine System.Run.covered hprogram ?_ ?_ ?_ hrun ⟨toks, hfollows, fun _ => hinv⟩
    · exact fun log w T h hall => hidle log w T (h hall)
    · exact fun log w w' T hw h hall => houtside log w w' T hw (h hall)
    · intro log w c e t t' T hmove h hall
      obtain ⟨hbefore, hlast⟩ := List.forall_mem_append.mp hall
      exact hserve log w c e t t' T (List.forall_mem_singleton.mp hlast) hmove (h hbefore)
  obtain ⟨toks', hfollows', hinv'⟩ := hcovered
  exact ⟨toks', hfollows', hinv' hgood⟩

/-- What the invariant says of each call that is served from it holds of all calls of the run. -/
theorem System.Run.covered_events {Q : Event C W E → Prop}
    (hserve : ∀ log w c e t t' T, P.Move c (S.exec c e w).1 t t' → Inv log w (t ::ₘ T) →
      Inv (log ++ [⟨w, c, e⟩]) (S.exec c e w).2 (t' ::ₘ T))
    (hevent : ∀ log w c e t t' T, P.Move c (S.exec c e w).1 t t' → Inv log w (t ::ₘ T) → Q ⟨w, c, e⟩)
    (hrun : S.Run σ log σ') (hstart : Covered P Inv [] σ) : ∀ ev ∈ log, Q ev := by
  obtain ⟨toks, hfollows, hinv⟩ := hstart
  have hcovered : Covered P (fun log w T => Inv log w T ∧ ∀ ev ∈ log, Q ev) log σ' := by
    refine hrun.covered hprogram (fun log w T h => ⟨hidle log w T h.1, h.2⟩)
      (fun log w w' T hw h => ⟨houtside log w w' T hw h.1, h.2⟩) ?_
      ⟨toks, hfollows, hinv, fun ev hev => absurd hev List.not_mem_nil⟩
    intro log w c e t t' T hmove h
    refine ⟨hserve log w c e t t' T hmove h.1, List.forall_mem_append.mpr ⟨h.2, ?_⟩⟩
    exact List.forall_mem_singleton.mpr (hevent log w c e t t' T hmove h.1)
  obtain ⟨-, -, -, hQ⟩ := hcovered
  exact hQ

end Coverage
