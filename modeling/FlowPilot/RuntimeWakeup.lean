import FlowPilot.BaseCoroutine
import FlowPilot.StoreRedis
import Mathlib.Data.Multiset.Filter
import Mathlib.Data.Multiset.UnionInter

/-! How a completion handler waits for events. Each wait opens a connection of its own, subscribes to
the channel on which every append to the completion stream is published, then asks for the length of
the stream, and waits for a message only when the stream was empty. Handlers take entries from each
other, and messages may be left over, but no handler sleeps while there is an entry and no message on
its connection. -/

namespace FlowPilot

/-- Redis with the connections of the waiting handlers: how many messages of
`fp:job_completion_stream:ready` wait on a connection that is subscribed. -/
structure Bus where
  redis : Redis := {}
  nextConnection : Nat := 0
  messages : Nat → Option Nat := fun _ => none

/-- What a call meets: whether it is answered, and whether the timer of a wait has fired. -/
structure BusEnv where
  ok : Bool := true
  timedOut : Bool := false
  deriving DecidableEq, Repr

inductive JobCompletionWaitResult where
  | event | timeout | error
  deriving DecidableEq, Repr

/-- The calls of waiting handlers and of those who report completions. -/
inductive BusCall where
  | connect
  | subscribe (connection : Nat)
  | streamLength
  | receive (connection : Nat)
  | close (connection : Nat)
  | enqueueJobCompletion (e : JobCompletionData)
  | dequeueJobCompletion
  deriving DecidableEq, Repr

namespace BusCall

/-- The type of a call's reply; a call that fails or throws has the reply that leads to the same
branch. -/
abbrev Reply : BusCall → Type
  | connect => Option Nat
  | subscribe _ => Bool
  | streamLength => Option Nat
  | receive _ => JobCompletionWaitResult
  | close _ => Unit
  | enqueueJobCompletion _ => Bool
  | dequeueJobCompletion => Option (Option JobCompletionData)

end BusCall

namespace Bus

def pending (b : Bus) (connection : Nat) : Nat := (b.messages connection).getD 0

/-- `PUBLISH`: every connection that is subscribed is given the message. -/
def publish (b : Bus) : Bus := { b with messages := fun c => (b.messages c).map (· + 1) }

def setMessages (b : Bus) (connection : Nat) (n : Option Nat) : Bus :=
  { b with messages := Function.update b.messages connection n }

/-- Serves a call. A wait on a connection without messages ends by its timer only. -/
def exec : (c : BusCall) → BusEnv → Bus → c.Reply × Bus
  | .connect, e, b =>
      if e.ok then (some b.nextConnection, { b with nextConnection := b.nextConnection + 1 })
      else ((none : Option Nat), b)
  | .subscribe c, e, b => if e.ok then (true, b.setMessages c (some 0)) else (false, b)
  | .streamLength, e, b =>
      if e.ok then (some b.redis.jobCompletionStream.length, b) else ((none : Option Nat), b)
  | .receive c, e, b =>
      if !e.ok then (JobCompletionWaitResult.error, b)
      else if e.timedOut then (JobCompletionWaitResult.timeout, b)
      else
        match b.messages c with
        | some (n + 1) => (JobCompletionWaitResult.event, b.setMessages c (some n))
        | _ => (JobCompletionWaitResult.timeout, b)
  | .close c, _, b => ((), b.setMessages c none)
  | .enqueueJobCompletion m, e, b =>
      if e.ok then (true, ({ b with redis := b.redis.enqueueJobCompletion m } : Bus).publish)
      else (false, b)
  | .dequeueJobCompletion, e, b =>
      if e.ok then
        let (m, r) := b.redis.dequeueJobCompletion
        (some m, { b with redis := r })
      else ((none : Option (Option JobCompletionData)), b)

end Bus

abbrev BusTask := Prog BusCall BusCall.Reply

def BusTask.ask (c : BusCall) : BusTask c.Reply := Prog.perform c

open BusTask

/-- What `wait_for_job_completion_event_async` does on its connection. -/
def waitOn (subscriber : Nat) : BusTask JobCompletionWaitResult := do
  if ← ask (.subscribe subscriber) then
    match ← ask .streamLength with
    | none => pure .error
    | some streamSize => if streamSize > 0 then pure .event else ask (.receive subscriber)
  else pure .error

/-- `wait_for_job_completion_event_async`; the connection is closed on every way out. -/
def waitForJobCompletionEvent : BusTask JobCompletionWaitResult := do
  match ← ask .connect with
  | none => pure .error
  | some subscriber =>
      let result ← waitOn subscriber
      ask (.close subscriber)
      pure result

/-- `get_completed_jobs`, for a handler that is stopped after `rounds` rounds of its loop. -/
def getCompletedJobs : (rounds : Nat) → BusTask (Option JobCompletionData)
  | 0 => pure none
  | rounds + 1 => do
      match ← waitForJobCompletionEvent with
      | .timeout => getCompletedJobs rounds
      | .error => pure none
      | .event =>
          match ← ask .dequeueJobCompletion with
          | none => pure none
          | some none => getCompletedJobs rounds
          | some (some e) => pure (some e)

/-- Any number of handlers that wait and take events, and of workers and schedulers that report
them. -/
def busSystem : System BusCall BusCall.Reply Bus BusEnv where
  exec := Bus.exec
  program p :=
    (∃ rounds, p = getCompletedJobs rounds >>= fun _ => pure ()) ∨
      (∃ e, p = ask (.enqueueJobCompletion e) >>= fun _ => pure ())
  outside _ _ := False

/-! ### What a handler has done so far -/

/-- How far a wait has come on its connection. -/
inductive WaitStage where
  | idle
  | connected (connection : Nat)
  | subscribed (connection : Nat)
  | waiting (connection : Nat)
  deriving DecidableEq, Repr

def WaitStage.connection? : WaitStage → Option Nat
  | idle => none
  | connected c | subscribed c | waiting c => some c

/-- The moves of a wait: a handler waits only after its subscription, and only after it saw the
stream empty. -/
inductive WaitMove : (c : BusCall) → c.Reply → WaitStage → WaitStage → Prop where
  | connect (c : Nat) : WaitMove .connect (some c) .idle (.connected c)
  | connectFailed : WaitMove .connect none .idle .idle
  | subscribe (c : Nat) : WaitMove (.subscribe c) true (.connected c) (.subscribed c)
  | subscribeFailed (c : Nat) : WaitMove (.subscribe c) false (.connected c) (.connected c)
  | empty (c : Nat) : WaitMove .streamLength (some 0) (.subscribed c) (.waiting c)
  | leave (c : Nat) (n : Option Nat) : WaitMove .streamLength n (.subscribed c) (.connected c)
  | receive (c : Nat) (r : JobCompletionWaitResult) :
      WaitMove (.receive c) r (.waiting c) (.connected c)
  | close (c : Nat) : WaitMove (.close c) () (.connected c) .idle
  | enqueue (m : JobCompletionData) (r : Bool) :
      WaitMove (.enqueueJobCompletion m) r .idle .idle
  | dequeue (r : Option (Option JobCompletionData)) :
      WaitMove .dequeueJobCompletion r .idle .idle

def waitProtocol : Protocol BusCall BusCall.Reply WaitStage where
  idle := .idle
  Move := WaitMove
  Final t := t = .idle

theorem waitOn_follows (c : Nat) :
    waitProtocol.FollowsTo (fun _ t => t = .connected c) (waitOn c) (.connected c) := by
  rintro (_ | _)
  · exact ⟨.connected c, .subscribeFailed c, rfl⟩
  · refine ⟨.subscribed c, .subscribe c, ?_⟩
    rintro (_ | _ | n)
    · exact ⟨.connected c, .leave c none, rfl⟩
    · exact ⟨.waiting c, .empty c, fun r => ⟨.connected c, .receive c r, rfl⟩⟩
    · exact ⟨.connected c, .leave c _, rfl⟩

theorem waitForJobCompletionEvent_follows :
    waitProtocol.FollowsTo (fun _ t => t = .idle) waitForJobCompletionEvent .idle := by
  rintro (_ | c)
  · exact ⟨.idle, .connectFailed, rfl⟩
  · have hclose : waitProtocol.FollowsTo (fun _ t => t = .idle)
        (waitOn c >>= fun result => ask (.close c) >>= fun _ => pure result) (.connected c) := by
      refine Protocol.FollowsTo.bind (waitOn_follows c) ?_
      rintro result t rfl
      exact fun _ => ⟨.idle, .close c, rfl⟩
    exact ⟨.connected c, .connect c, hclose⟩

theorem getCompletedJobs_follows (rounds : Nat) :
    waitProtocol.FollowsTo (fun _ t => t = .idle) (getCompletedJobs rounds) .idle := by
  induction rounds with
  | zero => rfl
  | succ rounds ih =>
      refine Protocol.FollowsTo.bind waitForJobCompletionEvent_follows ?_
      rintro (_ | _ | _) t rfl
      · rintro (_ | _ | e)
        · exact ⟨.idle, .dequeue _, rfl⟩
        · exact ⟨.idle, .dequeue _, ih⟩
        · exact ⟨.idle, .dequeue _, rfl⟩
      · exact ih
      · rfl

theorem busSystem_follows {p : BusTask Unit} (hp : busSystem.program p) :
    waitProtocol.Follows p waitProtocol.idle := by
  rcases hp with ⟨rounds, rfl⟩ | ⟨e, rfl⟩
  · exact Protocol.FollowsTo.bind (getCompletedJobs_follows rounds) (fun _ _ ht => ht)
  · exact fun r => ⟨.idle, .enqueue e r, rfl⟩

/-! ### No wake-up is lost -/

/-- A wait that has come past its subscription is subscribed, and one that waits on a connection
without messages has nothing to wait for. -/
def WaitStage.Sound (b : Bus) : WaitStage → Prop
  | idle => True
  | connected c => c < b.nextConnection
  | subscribed c => c < b.nextConnection ∧ (b.messages c).isSome
  | waiting c =>
      c < b.nextConnection ∧ (b.messages c).isSome ∧
        (b.messages c = some 0 → b.redis.jobCompletionStream = [])

theorem WaitStage.Sound.lt {b : Bus} {t : WaitStage} (h : t.Sound b) {c : Nat}
    (hc : t.connection? = some c) : c < b.nextConnection := by
  cases t with
  | idle => cases hc
  | connected c' =>
      cases hc
      exact h
  | subscribed c' | waiting c' =>
      cases hc
      exact h.1

theorem WaitStage.Sound.frame {b b' : Bus} {t : WaitStage} (h : t.Sound b)
    (hnext : b.nextConnection ≤ b'.nextConnection)
    (hmessages : ∀ c, t.connection? = some c → (b.messages c).isSome → (b'.messages c).isSome)
    (hquiet : ∀ c, t.connection? = some c → b'.messages c = some 0 →
      b.messages c = some 0 ∧ (b.redis.jobCompletionStream = [] →
        b'.redis.jobCompletionStream = [])) : t.Sound b' := by
  cases t with
  | idle => trivial
  | connected c => exact Nat.lt_of_lt_of_le h hnext
  | subscribed c => exact ⟨Nat.lt_of_lt_of_le h.1 hnext, hmessages c rfl h.2⟩
  | waiting c =>
      refine ⟨Nat.lt_of_lt_of_le h.1 hnext, hmessages c rfl h.2.1, fun hzero => ?_⟩
      obtain ⟨hbefore, hstream⟩ := hquiet c rfl hzero
      exact hstream (h.2.2 hbefore)

/-- Every wait has a connection of its own and is sound. -/
structure Attentive (b : Bus) (T : Multiset WaitStage) : Prop where
  distinct : (T.filterMap WaitStage.connection?).Nodup
  sound : ∀ t ∈ T, t.Sound b

section Steps

variable {b b' : Bus} {t t' : WaitStage} {T : Multiset WaitStage}

theorem connections_cons (t : WaitStage) (T : Multiset WaitStage) :
    (t ::ₘ T).filterMap WaitStage.connection? =
      (t.connection?.toList : Multiset Nat) + T.filterMap WaitStage.connection? := by
  cases ht : t.connection? with
  | none => rw [Multiset.filterMap_cons_none _ _ ht]; simp
  | some c => rw [Multiset.filterMap_cons_some _ _ _ ht]; simp

theorem Attentive.idle (h : Attentive b T) : Attentive b (.idle ::ₘ T) where
  distinct := by
    rw [Multiset.filterMap_cons_none _ _ rfl]
    exact h.distinct
  sound := Multiset.forall_mem_cons.mpr ⟨trivial, h.sound⟩

theorem Attentive.ne (h : Attentive b (t ::ₘ T)) {c c' : Nat} (ht : t.connection? = some c)
    {s : WaitStage} (hs : s ∈ T) (hc : s.connection? = some c') : c' ≠ c := by
  rintro rfl
  have hdistinct := h.distinct
  rw [Multiset.filterMap_cons_some _ _ _ ht, Multiset.nodup_cons] at hdistinct
  exact hdistinct.1 ((Multiset.mem_filterMap _ _).mpr ⟨s, hs, hc⟩)

theorem Attentive.move (h : Attentive b (t ::ₘ T))
    (hconnection : t'.connection? = t.connection? ∨ t'.connection? = none)
    (hsound : t'.Sound b') (hothers : ∀ s ∈ T, s.Sound b → s.Sound b') :
    Attentive b' (t' ::ₘ T) where
  distinct := by
    have hdistinct := h.distinct
    rw [connections_cons] at hdistinct ⊢
    rcases hconnection with heq | hnone
    · rw [heq]
      exact hdistinct
    · rw [hnone]
      refine Multiset.nodup_of_le ?_ hdistinct
      rw [Option.toList_none, Multiset.coe_nil, Multiset.zero_add]
      exact Multiset.le_add_left _ _
  sound := by
    rw [Multiset.forall_mem_cons]
    exact ⟨hsound, fun s hs => hothers s hs (h.sound s (Multiset.mem_cons_of_mem hs))⟩

theorem Attentive.self (h : Attentive b (t ::ₘ T)) : t.Sound b :=
  h.sound t (Multiset.mem_cons_self t T)

theorem Attentive.connect (h : Attentive b (.idle ::ₘ T)) :
    Attentive { b with nextConnection := b.nextConnection + 1 }
      (.connected b.nextConnection ::ₘ T) where
  distinct := by
    have hdistinct := h.distinct
    rw [Multiset.filterMap_cons_none _ _ rfl] at hdistinct
    have hconnection : (WaitStage.connected b.nextConnection).connection? =
        some b.nextConnection := rfl
    rw [Multiset.filterMap_cons_some _ _ _ hconnection, Multiset.nodup_cons]
    refine ⟨fun hmem => ?_, hdistinct⟩
    obtain ⟨s, hs, hc⟩ := (Multiset.mem_filterMap _ _).mp hmem
    exact Nat.lt_irrefl _ ((h.sound s (Multiset.mem_cons_of_mem hs)).lt hc)
  sound := by
    rw [Multiset.forall_mem_cons]
    refine ⟨Nat.lt_succ_self _, fun s hs => ?_⟩
    exact (h.sound s (Multiset.mem_cons_of_mem hs)).frame (Nat.le_succ _) (fun _ _ hsome => hsome)
      (fun _ _ hzero => ⟨hzero, fun hstream => hstream⟩)

theorem Attentive.setMessages (h : Attentive b (t ::ₘ T)) {c : Nat} (ht : t.connection? = some c)
    (n : Option Nat) : ∀ s ∈ T, s.Sound b → s.Sound (b.setMessages c n) := by
  intro s hs hsound
  have hkept : ∀ c', s.connection? = some c' → (b.setMessages c n).messages c' = b.messages c' :=
    fun c' hc' => Function.update_of_ne (h.ne ht hs hc') ..
  refine hsound.frame (Nat.le_refl _) ?_ ?_
  · intro c' hc' hsome
    rwa [hkept c' hc']
  · intro c' hc' hzero
    rw [hkept c' hc'] at hzero
    exact ⟨hzero, fun hstream => hstream⟩

theorem WaitStage.Sound.publish {s : WaitStage} (h : s.Sound b) (m : JobCompletionData) :
    s.Sound ({ b with redis := b.redis.enqueueJobCompletion m } : Bus).publish := by
  have hmessages : ∀ c, ({ b with redis := b.redis.enqueueJobCompletion m } : Bus).publish.messages c
      = (b.messages c).map (· + 1) := fun _ => rfl
  refine h.frame (Nat.le_refl _) ?_ ?_
  · intro c _ hsome
    rwa [hmessages, Option.isSome_map]
  · intro c _ hzero
    rw [hmessages] at hzero
    obtain ⟨n, -, hn⟩ := Option.map_eq_some_iff.mp hzero
    exact absurd hn (Nat.succ_ne_zero n)

theorem WaitStage.Sound.dequeue {s : WaitStage} (h : s.Sound b) :
    s.Sound { b with redis := b.redis.dequeueJobCompletion.2 } := by
  refine h.frame (Nat.le_refl _) (fun _ _ hsome => hsome) ?_
  intro c _ hzero
  refine ⟨hzero, fun hstream => ?_⟩
  change b.redis.dequeueJobCompletion.2.jobCompletionStream = []
  rw [Redis.dequeueJobCompletion, hstream]
  exact hstream

/-- Whatever call is served, every wait stays sound. -/
theorem Attentive.exec {c : BusCall} {e : BusEnv} (hmove : WaitMove c (Bus.exec c e b).1 t t')
    (h : Attentive b (t ::ₘ T)) : Attentive (Bus.exec c e b).2 (t' ::ₘ T) := by
  generalize hreply : (Bus.exec c e b).1 = r at hmove
  have hsame : ∀ s ∈ T, s.Sound b → s.Sound b := fun _ _ hs => hs
  cases hmove with
  | connect c =>
      simp only [Bus.exec] at hreply ⊢
      split at hreply
      · cases hreply
        rw [if_pos ‹_›]
        exact h.connect
      · cases hreply
  | connectFailed =>
      simp only [Bus.exec] at hreply ⊢
      split at hreply
      · cases hreply
      · rw [if_neg ‹_›]
        exact h
  | subscribe c =>
      simp only [Bus.exec] at hreply ⊢
      split at hreply
      · rw [if_pos ‹_›]
        have hsubscribed : (b.setMessages c (some 0)).messages c = some 0 :=
          Function.update_self ..
        refine h.move (Or.inl rfl) ⟨h.self, ?_⟩ (h.setMessages rfl _)
        exact Option.isSome_of_eq_some hsubscribed
      · cases hreply
  | subscribeFailed c =>
      simp only [Bus.exec] at hreply ⊢
      split at hreply
      · cases hreply
      · rw [if_neg ‹_›]
        exact h
  | empty c =>
      simp only [Bus.exec] at hreply ⊢
      split at hreply
      · rw [if_pos ‹_›]
        have hempty := List.length_eq_zero_iff.mp (Option.some.inj hreply)
        exact h.move (Or.inl rfl) ⟨h.self.1, h.self.2, fun _ => hempty⟩ hsame
      · cases hreply
  | leave c n =>
      have hkept : (Bus.exec .streamLength e b).2 = b := by
        simp only [Bus.exec]
        split <;> rfl
      rw [hkept]
      exact h.move (Or.inl rfl) h.self.1 hsame
  | receive c r =>
      have hreceive : (Bus.exec (.receive c) e b).2 = b ∨
          ∃ n, (Bus.exec (.receive c) e b).2 = b.setMessages c (some n) := by
        simp only [Bus.exec]
        split
        · exact Or.inl rfl
        · split
          · exact Or.inl rfl
          · split
            · exact Or.inr ⟨_, rfl⟩
            · exact Or.inl rfl
      rcases hreceive with hkept | ⟨n, htaken⟩
      · rw [hkept]
        exact h.move (Or.inl rfl) h.self.1 hsame
      · rw [htaken]
        exact h.move (Or.inl rfl) h.self.1 (h.setMessages rfl _)
  | close c => exact h.move (Or.inr rfl) trivial (h.setMessages rfl _)
  | enqueue m r =>
      simp only [Bus.exec]
      split
      · exact h.move (Or.inl rfl) trivial (fun _ _ hs => hs.publish m)
      · exact h
  | dequeue r =>
      simp only [Bus.exec]
      split
      · exact h.move (Or.inl rfl) trivial (fun _ _ hs => hs.dequeue)
      · exact h

end Steps

/-- However handlers and reporters are interleaved, a handler that waits for a message on a connection
on which none is pending has found the completion stream empty, and it still is. -/
theorem completion_wakeup_not_lost (r : Redis) {log : List (Event BusCall Bus BusEnv)}
    {σ : Pool BusCall BusCall.Reply Bus} (hrun : busSystem.Run ⟨{ redis := r }, []⟩ log σ)
    {p : BusTask Unit} (hp : p ∈ σ.threads) {c : Nat} (hwaits : p.next? = some (.receive c))
    (hpending : σ.world.pending c = 0) : σ.world.redis.jobCompletionStream = [] := by
  have hstart : Covered waitProtocol
      (fun (_ : List (Event BusCall Bus BusEnv)) b T => Attentive b T) []
      ⟨{ redis := r }, []⟩ :=
    ⟨[], List.Forall₂.nil, Multiset.nodup_zero, fun t ht => absurd ht (Multiset.notMem_zero t)⟩
  obtain ⟨toks, hfollows, hattentive⟩ := hrun.covered (fun p hp => busSystem_follows hp)
    (fun _ _ _ h => h.idle) (fun _ _ _ _ h _ => h.elim)
    (fun _ _ _ _ _ _ _ hmove h => h.exec hmove) hstart
  obtain ⟨t, ht, hfollow⟩ := exists_of_forall₂ hfollows hp
  have hsound := hattentive.sound t ht
  cases p with
  | done a => cases hwaits
  | call d k =>
      cases hwaits
      -- only a handler at the last stage of its wait receives
      obtain ⟨t', hmove, -⟩ := hfollow .error
      cases hmove
      refine hsound.2.2 ?_
      obtain ⟨n, hn⟩ := Option.isSome_iff_exists.mp hsound.2.1
      rw [Bus.pending, hn] at hpending
      rw [hn]
      exact congrArg some hpending

/-- A handler waits on the empty stream, an event is appended, and the message is pending; when the
handler receives it, it goes on to take the event. -/
theorem completion_wakeup_not_lost_pending :
    let e : JobCompletionData := ⟨⟨"acme", "w1"⟩, "a", .completed, .ok⟩
    let waits := (busSystem.play [.spawn (getCompletedJobs 1 >>= fun _ => pure ()), .serve 0 {},
      .serve 0 {}, .serve 0 {}] ⟨{}, []⟩).2
    let wakes := (busSystem.play [.spawn (ask (.enqueueJobCompletion e) >>= fun _ => pure ()),
      .serve 0 {}] waits).2
    waits.world.redis.jobCompletionStream = [] ∧ wakes.world.pending 0 = 1 ∧
      wakes.world.redis.jobCompletionStream = [e] := by
  intro e waits wakes
  have hallowed : busSystem.Allowed [.spawn (getCompletedJobs 1 >>= fun _ => pure ()),
      .serve 0 {}, .serve 0 {}, .serve 0 {}] := by
    intro p hp
    simp only [List.mem_cons, System.Turn.spawn.injEq, reduceCtorEq, List.not_mem_nil, or_self,
      or_false] at hp
    exact Or.inl ⟨1, hp⟩
  refine ⟨?_, rfl, rfl⟩
  exact completion_wakeup_not_lost {} (System.play_run hallowed _) List.mem_cons_self
    (c := 0) rfl rfl

end FlowPilot
