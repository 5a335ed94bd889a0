import FlowPilot.RuntimeTasks

/-! Rules for programs that run alone: what they end with when the stores may fail at any call, and
what they end with when every call is answered. -/

namespace FlowPilot

/-- Whatever the stores answer, the program run alone ends as `post` says. -/
def Leads {α : Type} (p : Task α) (w : World) (post : α → World → Prop) : Prop :=
  Prog.Ensures Call.exec (fun _ => True) post p w

section Failing

variable {α β : Type} {w : World}

variable {post : α → World → Prop} {p : Task α}

theorem leads_pure {a : α} (h : post a w) :
    Leads (pure a) w post := h

theorem Leads.bind {f : α → Task β} {mid : α → World → Prop}
    {post : β → World → Prop} (hp : Leads p w mid) (hf : ∀ a w', mid a w' → Leads (f a) w' post) :
    Leads (p >>= f) w post := Prog.Ensures.bind hp hf

theorem Leads.mono {post' : α → World → Prop} (hp : Leads p w post)
    (h : ∀ a w', post a w' → post' a w') : Leads p w post' := Prog.Ensures.mono hp h

theorem leads_ask {c : Call} (hlocal : c.isLocal = false) {post : c.Reply → World → Prop}
    (hok : ∀ e, post (c.carryOut e w).1 (c.carryOut e w).2) (hfault : post c.failure w) :
    Leads (ask c) w post := by
  intro e _
  change post (c.exec e w).1 (c.exec e w).2
  rw [Call.exec, hlocal, Bool.or_false]
  split
  · exact hok e
  · exact hfault

theorem Leads.and {post' : α → World → Prop} (hp : Leads p w post)
    (hp' : Leads p w post') : Leads p w (fun a w' => post a w' ∧ post' a w') :=
  Prog.Ensures.and hp hp'

theorem Leads.run (h : Leads p w post) (env : Nat → Env) :
    post (Prog.run Call.exec env p w).1 (Prog.run Call.exec env p w).2 :=
  Prog.Ensures.run h env (fun _ => trivial)

theorem leads_keeps {S : Call → Prop} (hp : p.OnlyCalls S) {I : World → Prop}
    (hkeeps : ∀ c, S c → ∀ e w, I w → I (c.exec e w).2) (hw : I w) : Leads p w (fun _ w' => I w') :=
  Prog.OnlyCalls.ensures hp hkeeps hw

theorem leads_trivial (p : Task α) (w : World) : Leads p w (fun _ _ => True) :=
  Prog.ensures_any p w

end Failing

/-- Run alone, with every call answered, the program ends as `post` says. -/
def Settles {α : Type} (p : Task α) (w : World) (post : α → World → Prop) : Prop :=
  Prog.Ensures Call.exec (fun e => e.ok = true) post p w

section Answered

variable {α β : Type} {w : World}

variable {post : α → World → Prop} {p : Task α}

theorem settles_pure {a : α} (h : post a w) :
    Settles (pure a) w post := h

theorem Settles.bind {f : α → Task β} {mid : α → World → Prop}
    {post : β → World → Prop} (hp : Settles p w mid)
    (hf : ∀ a w', mid a w' → Settles (f a) w' post) : Settles (p >>= f) w post :=
  Prog.Ensures.bind hp hf

theorem Settles.mono {post' : α → World → Prop} (hp : Settles p w post)
    (h : ∀ a w', post a w' → post' a w') : Settles p w post' := Prog.Ensures.mono hp h

theorem Settles.and {post' : α → World → Prop} (hp : Settles p w post)
    (hp' : Settles p w post') : Settles p w (fun a w' => post a w' ∧ post' a w') :=
  Prog.Ensures.and hp hp'

theorem Settles.all {ι : Type} {post : ι → α → World → Prop}
    (hp : ∀ i, Settles p w (post i)) : Settles p w (fun a w' => ∀ i, post i a w') :=
  Prog.Ensures.all hp

theorem Leads.settles (h : Leads p w post) : Settles p w post :=
  Prog.Ensures.anti h (fun _ _ => trivial)

theorem settles_any (p : Task α) (w : World) : Settles p w (fun _ _ => True) :=
  Prog.ensures_any p w

theorem exec_answered {c : Call} {e : Env} (he : e.ok = true) : c.exec e w = c.carryOut e w := by
  rw [Call.exec, he, Bool.true_or, if_pos rfl]

theorem settles_ask {c : Call} {post : c.Reply → World → Prop}
    (h : ∀ e, post (c.carryOut e w).1 (c.carryOut e w).2) : Settles (ask c) w post := by
  intro e he
  change post (c.exec e w).1 (c.exec e w).2
  rw [exec_answered he]
  exact h e

theorem settles_keeps {S : Call → Prop} (hp : p.OnlyCalls S) {f : World → β}
    (hkeeps : ∀ c, S c → ∀ e w, f (c.exec e w).2 = f w) : Settles p w (fun _ w' => f w' = f w) :=
  Prog.OnlyCalls.ensures (I := fun w' => f w' = f w) hp
    (fun c hc e w' hw' => (hkeeps c hc e w').trans hw') rfl

end Answered

end FlowPilot
