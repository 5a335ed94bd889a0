import FlowPilot.RuntimeSystem
import Mathlib.Logic.Relation

/-! The threads that run the programs of one scheduler. With one Redis I/O thread,
`scheduler_main_loop`, the coroutines that the workers post and all others take turns on that thread.
`push` on the local queue blocks the thread it is called on while the queue is full; a worker blocks
on the future of the coroutine it has posted.

The I/O thread can therefore block for ever: in `push`, while every worker waits for it. This happens
from no push that was begun while the queue had a free place or some worker was free, and it can
happen from every other one. -/

namespace FlowPilot

/-- The coroutine of a scheduler, which the I/O thread runs, and the threads of its workers. -/
structure Threads where
  world : World := {}
  scheduler : Task Unit := Scheduler.mainLoop
  /-- The I/O thread is inside `push`. -/
  pushing : Bool := false
  workers : List (Task Unit)

/-- Where a worker's thread is: at `fetch_job`, in `execute_job`, or blocked on the future of a
coroutine. -/
inductive WorkerPlace where
  | idle | executing | waiting
  deriving DecidableEq, Repr

def workerPlace : Task Unit → WorkerPlace
  | .done _ | .call .popLocal _ => .idle
  | .call (.executeJob _) _ => .executing
  | .call _ _ => .waiting

/-- The call of a program is served; a loop whose turn has ended begins the next one. -/
def goOn (loop : Task Unit) (e : Env) (w : World) : Task Unit → World × Task Unit
  | .done _ => (w, loop)
  | .call c k =>
      let reply := c.exec e w
      (reply.2, k reply.1)

namespace Threads

/-- The threads as the constructor of `scheduler` starts them. -/
def start (workerThreadCount : Nat) : Threads where
  workers := List.replicate (if workerThreadCount = 0 then 1 else workerThreadCount)
    WorkerThread.runWorkerLoop

/-- The capacity the constructor gives the local queue. -/
def capacityOf (workerQueueCapacity : Nat) : Nat :=
  if workerQueueCapacity = 0 then 1 else workerQueueCapacity

inductive Turn where
  /-- The I/O thread resumes the scheduler's coroutine. -/
  | scheduler (e : Env)
  /-- `push` finds a free place and returns. -/
  | push
  /-- A worker's thread goes on, or the I/O thread resumes the coroutine it waits for. -/
  | worker (i : Nat) (e : Env)

/-- Whether the scheduler's coroutine has come to `push`. -/
def atPush : Task Unit → Bool
  | .call (.pushLocal _) _ => true
  | _ => false

/-- Whether a worker at a place can go on: `pop` waits for an entry, and a future for the I/O
thread. -/
def mayGoOn (s : Threads) : WorkerPlace → Bool
  | .idle => !s.world.localQueue.isEmpty
  | .executing => true
  | .waiting => !s.pushing

def workerTurn (s : Threads) (i : Nat) (e : Env) (p : Task Unit) : Threads :=
  let next := goOn WorkerThread.runWorkerLoop { e with slot := 0 } s.world p
  { s with world := next.1, workers := s.workers.set i next.2 }

/-- The threads after a turn; `none` when it is not possible. -/
def turn (capacity : Nat) (s : Threads) : Turn → Option Threads
  | .scheduler e =>
      if s.pushing then none
      else if atPush s.scheduler then some { s with pushing := true }
      else
        let next := goOn Scheduler.mainLoop e s.world s.scheduler
        some { s with world := next.1, scheduler := next.2 }
  | .push =>
      if s.pushing = true ∧ s.world.localQueue.length < capacity then
        let next := goOn Scheduler.mainLoop {} s.world s.scheduler
        some { s with world := next.1, scheduler := next.2, pushing := false }
      else none
  | .worker i e =>
      match s.workers[i]? with
      | none => none
      | some p =>
          if s.mayGoOn (workerPlace p) then some (s.workerTurn i e p) else none

/-- One step: a turn, or one of the other coroutines of the I/O thread, of a handler or a submission,
which leaves the stores in whatever state: the supply of queued jobs is not restricted. -/
inductive Step (capacity : Nat) (s : Threads) : Threads → Prop where
  | turn {s' : Threads} (t : Turn) (h : s.turn capacity t = some s') : Step capacity s s'
  | others (redis : Redis) (sqlite : Sqlite) (hfree : s.pushing = false) :
      Step capacity s { s with world := { s.world with redis := redis, sqlite := sqlite } }

/-- The I/O thread is blocked in `push` on a full queue, and every worker is blocked on a future that
only the I/O thread can fulfil. -/
def Stuck (capacity : Nat) (s : Threads) : Prop :=
  s.pushing = true ∧ capacity ≤ s.world.localQueue.length ∧
    ∀ p ∈ s.workers, workerPlace p = .waiting

instance (capacity : Nat) (s : Threads) : Decidable (s.Stuck capacity) :=
  inferInstanceAs (Decidable (_ ∧ _))

/-- The local queue has a free place, or a worker is free to take an entry from it. -/
def Room (capacity : Nat) (s : Threads) : Prop :=
  s.world.localQueue.length < capacity ∨ ∃ p ∈ s.workers, workerPlace p = .idle

/-- A step that begins a push only while there is room. -/
def CarefulStep (capacity : Nat) (s s' : Threads) : Prop :=
  Step capacity s s' ∧ (s.pushing = false → s'.pushing = true → s.Room capacity)

end Threads

/-- A worker that has executed a job reports it, and workers put nothing on the local queue. -/
def ReportsBack : Task Unit → Prop
  | .done _ => True
  | .call c k => (∀ job, c ≠ .pushLocal job) ∧
      (workerPlace (.call c k) = .executing → ∀ r, workerPlace (k r) = .waiting) ∧
      ∀ r, ReportsBack (k r)

section Worker

open WorkerThread

theorem reportsBack_updateCompletionHandler (e : JobCompletionData) :
    ReportsBack (updateCompletionHandler e) :=
  ⟨nofun, nofun, fun _ => trivial⟩

theorem reportsBack_runWorkerLoop : ReportsBack runWorkerLoop := by
  refine ⟨nofun, nofun, fun job => ?_⟩
  cases job with
  | none => trivial
  | some job =>
      have hexecuted : ReportsBack (do
          let succeeded ← (ask (.executeJob job) : Task Bool)
          if succeeded then updateCompletionHandler ⟨job.identity, job.jobId, .completed, .ok⟩
          else updateCompletionHandler ⟨job.identity, job.jobId, .failed, .jobExecutionFailure⟩) := by
        refine ⟨nofun, fun _ succeeded => ?_, fun succeeded => ?_⟩ <;> cases succeeded
        · rfl
        · rfl
        · exact reportsBack_updateCompletionHandler _
        · exact reportsBack_updateCompletionHandler _
      have hupdated : ∀ updated : Bool, ReportsBack (do
          if updated then
            let succeeded ← (ask (.executeJob job) : Task Bool)
            if succeeded then updateCompletionHandler ⟨job.identity, job.jobId, .completed, .ok⟩
            else updateCompletionHandler ⟨job.identity, job.jobId, .failed, .jobExecutionFailure⟩
          else
            updateCompletionHandler ⟨job.identity, job.jobId, .aborted, .statusUpdatedFailure⟩) := by
        intro updated
        cases updated with
        | false => exact reportsBack_updateCompletionHandler _
        | true => exact hexecuted
      refine ⟨nofun, nofun, fun result => ?_⟩
      cases result with
      | firstToStart =>
          refine ⟨nofun, nofun, fun recorded => ?_⟩
          cases recorded with
          | false => exact hupdated false
          | true => exact ⟨nofun, nofun, hupdated⟩
      | started => exact ⟨nofun, nofun, hupdated⟩
      | _ => exact hupdated false

end Worker

theorem exists_of_executing {p : Task Unit} (h : workerPlace p = .executing) :
    ∃ job k, p = .call (.executeJob job) k := by
  cases p with
  | done _ => cases h
  | call c k =>
      cases c with
      | executeJob job => exact ⟨job, k, rfl⟩
      | _ => cases h

theorem Threads.exists_of_atPush {p : Task Unit} (h : atPush p = true) :
    ∃ job k, p = .call (.pushLocal job) k := by
  cases p with
  | done _ => cases h
  | call c k =>
      cases c with
      | pushLocal job => exact ⟨job, k, rfl⟩
      | _ => cases h

section Queue

variable {c : Call} {w : World}

theorem Call.exec_popLocal (e : Env) :
    (Call.popLocal.exec { e with slot := 0 } w).2.localQueue = w.localQueue.tail := by
  rw [exec_of_isLocal rfl]
  show (popSlot 0 w.localQueue).2 = _
  cases w.localQueue <;> rfl

theorem length_goOn_le {loop p : Task Unit} (hp : Threads.atPush p = false) (e : Env) :
    (goOn loop e w p).1.localQueue.length ≤ w.localQueue.length := by
  cases p with
  | done _ => exact Nat.le_refl _
  | call c k =>
      have hpush : ∀ job, c ≠ .pushLocal job := by
        rintro job rfl
        cases hp
      show ((c.exec e w).2.localQueue).length ≤ _
      by_cases hpop : c = .popLocal
      · subst hpop
        rw [Call.exec_of_isLocal rfl]
        show ((Call.popSlot e.slot w.localQueue).2).length ≤ _
        rw [Call.popSlot]
        split
        · exact Nat.le_refl _
        · exact List.length_eraseIdx_le ..
      · rw [Call.exec_localQueue hpush hpop]

theorem length_goOn_le_succ (loop p : Task Unit) (e : Env) :
    (goOn loop e w p).1.localQueue.length ≤ w.localQueue.length + 1 := by
  cases hp : Threads.atPush p with
  | false => exact Nat.le_succ_of_le (length_goOn_le hp e)
  | true =>
      obtain ⟨job, k, rfl⟩ := Threads.exists_of_atPush hp
      show ((Call.pushLocal job).exec e w).2.localQueue.length ≤ _
      rw [Call.exec_of_isLocal rfl]
      exact Nat.le_of_eq (List.length_append ..)

end Queue

namespace Threads

/-- What holds of the threads at every moment: the local queue is within its capacity, and the workers
report what they execute. -/
structure Orderly (capacity : Nat) (s : Threads) : Prop where
  bounded : s.world.localQueue.length ≤ capacity
  reports : ∀ p ∈ s.workers, ReportsBack p

section Steps

variable {capacity : Nat} {s s' : Threads}

theorem turn_cases {t : Turn} (h : s.turn capacity t = some s') :
    (∃ e, s.pushing = false ∧ atPush s.scheduler = false ∧
      s' = { s with
        world := (goOn Scheduler.mainLoop e s.world s.scheduler).1
        scheduler := (goOn Scheduler.mainLoop e s.world s.scheduler).2 }) ∨
    (s.pushing = false ∧ s' = { s with pushing := true }) ∨
    (s.pushing = true ∧ s.world.localQueue.length < capacity ∧
      s' = { s with
        world := (goOn Scheduler.mainLoop {} s.world s.scheduler).1
        scheduler := (goOn Scheduler.mainLoop {} s.world s.scheduler).2
        pushing := false }) ∨
    (∃ i, ∃ e : Env, ∃ p, s.workers[i]? = some p ∧ s.mayGoOn (workerPlace p) = true ∧
      s' = s.workerTurn i e p) := by
  cases t with
  | scheduler e =>
      rw [turn] at h
      split at h
      · cases h
      · rename_i hfree
        have hfree := Bool.eq_false_iff.mpr hfree
        split at h
        · exact .inr (.inl ⟨hfree, (Option.some.inj h).symm⟩)
        · rename_i hcall
          exact .inl ⟨e, hfree, Bool.eq_false_iff.mpr hcall, (Option.some.inj h).symm⟩
  | push =>
      rw [turn] at h
      split at h
      · rename_i hroom
        exact .inr (.inr (.inl ⟨hroom.1, hroom.2, (Option.some.inj h).symm⟩))
      · cases h
  | worker i e =>
      rw [turn] at h
      split at h
      · cases h
      · rename_i p hp
        split at h
        · rename_i hmay
          exact .inr (.inr (.inr ⟨i, e, p, hp, hmay, (Option.some.inj h).symm⟩))
        · cases h

theorem reportsBack_goOn {p : Task Unit} (hp : ReportsBack p) (e : Env) (w : World) :
    ReportsBack (goOn WorkerThread.runWorkerLoop e w p).2 := by
  cases p with
  | done _ => exact reportsBack_runWorkerLoop
  | call c k => exact hp.2.2 _

theorem atPush_of_reportsBack {p : Task Unit} (hp : ReportsBack p) : atPush p = false := by
  cases h : atPush p with
  | false => rfl
  | true =>
      obtain ⟨job, k, rfl⟩ := exists_of_atPush h
      exact absurd rfl (hp.1 job)

theorem Orderly.step (h : Orderly capacity s) (hstep : Step capacity s s') :
    Orderly capacity s' := by
  cases hstep with
  | others redis sqlite hfree => exact ⟨h.bounded, h.reports⟩
  | turn t ht =>
      rcases turn_cases ht with ⟨e, -, hcall, rfl⟩ | ⟨-, rfl⟩ | ⟨-, hroom, rfl⟩ |
        ⟨i, e, p, hp, -, rfl⟩
      · exact ⟨(length_goOn_le hcall e).trans h.bounded, h.reports⟩
      · exact ⟨h.bounded, h.reports⟩
      · exact ⟨(length_goOn_le_succ _ _ _).trans hroom, h.reports⟩
      · have hreports := h.reports p (List.mem_of_getElem? hp)
        refine ⟨(length_goOn_le (atPush_of_reportsBack hreports) _).trans h.bounded, fun q hq => ?_⟩
        rcases List.mem_or_eq_of_mem_set hq with hq | rfl
        · exact h.reports q hq
        · exact reportsBack_goOn hreports _ _

theorem Room.turn (hroom : s.Room capacity) (h : Orderly capacity s) (hpushing : s.pushing = true)
    {i : Nat} {p : Task Unit} (hp : s.workers[i]? = some p)
    (hmay : s.mayGoOn (workerPlace p) = true) (e : Env) :
    (s.workerTurn i e p).Room capacity := by
  have hi : i < s.workers.length := (List.getElem?_eq_some_iff.mp hp).1
  match p with
  | .done _ => exact .inr ⟨_, List.mem_set hi _, rfl⟩
  | .call c k =>
      by_cases hpop : c = .popLocal
      · -- the worker makes a place free
        subst hpop
        have hnonempty : s.world.localQueue ≠ [] := by
          intro hempty
          rw [workerPlace, mayGoOn, hempty] at hmay
          cases hmay
        refine .inl ?_
        show ((Call.popLocal.exec { e with slot := 0 } s.world).2.localQueue).length < capacity
        rw [Call.exec_popLocal, List.length_tail]
        have := List.length_pos_iff.mpr hnonempty
        have := h.bounded
        omega
      · have hexecuting : workerPlace (.call c k) = .executing := by
          cases hplace : workerPlace (.call c k) with
          | executing => rfl
          | idle =>
              cases c with
              | popLocal => exact absurd rfl hpop
              | _ => cases hplace
          | waiting =>
              rw [hplace, mayGoOn, hpushing] at hmay
              cases hmay
        have hqueue : (c.exec { e with slot := 0 } s.world).2.localQueue = s.world.localQueue :=
          Call.exec_localQueue (by rintro job rfl; cases hexecuting) hpop _
        rcases hroom with hfree | ⟨q, hq, hidle⟩
        · refine .inl ?_
          show ((c.exec { e with slot := 0 } s.world).2.localQueue).length < capacity
          rw [hqueue]
          exact hfree
        · obtain ⟨j, hj⟩ := List.mem_iff_getElem?.mp hq
          have hij : i ≠ j := by
            rintro rfl
            cases hp.symm.trans hj
            cases hexecuting.symm.trans hidle
          exact .inr ⟨q, List.mem_of_getElem? ((List.getElem?_set_ne hij).trans hj), hidle⟩

theorem Room.step (hroom : s.pushing = true → s.Room capacity) (h : Orderly capacity s)
    (hstep : CarefulStep capacity s s') : s'.pushing = true → s'.Room capacity := by
  obtain ⟨hstep, hcareful⟩ := hstep
  intro hpushing
  cases hstep with
  | others redis sqlite hfree => cases hfree.symm.trans hpushing
  | turn t ht =>
      rcases turn_cases ht with ⟨e, hfree, -, rfl⟩ | ⟨hfree, rfl⟩ | ⟨-, -, rfl⟩ |
        ⟨i, e, p, hp, hmay, rfl⟩
      · cases hfree.symm.trans hpushing
      · exact hcareful hfree rfl
      · cases hpushing
      · exact (hroom hpushing).turn h hpushing hp hmay e

theorem orderly_start (workerThreadCount : Nat) (capacity : Nat) :
    Orderly capacity (start workerThreadCount) where
  bounded := Nat.zero_le _
  reports _ hp := List.eq_of_mem_replicate hp ▸ reportsBack_runWorkerLoop

theorem Room.not_stuck (hroom : s.Room capacity) : ¬ s.Stuck capacity := by
  rintro ⟨-, hfull, hwaiting⟩
  rcases hroom with hfree | ⟨p, hp, hidle⟩
  · exact absurd hfull (Nat.not_le.mpr hfree)
  · cases hidle.symm.trans (hwaiting p hp)

theorem exists_waiting (h : Orderly capacity s) {i : Nat} {p : Task Unit}
    (hp : s.workers[i]? = some p) (hbusy : workerPlace p ≠ .idle) :
    ∃ q, workerPlace q = .waiting ∧
      Relation.ReflTransGen (Step capacity) s { s with workers := s.workers.set i q } := by
  cases hplace : workerPlace p with
  | idle => exact absurd hplace hbusy
  | waiting =>
      refine ⟨p, hplace, ?_⟩
      obtain ⟨hi, rfl⟩ := List.getElem?_eq_some_iff.mp hp
      rw [List.set_getElem_self hi]
  | executing =>
      obtain ⟨job, k, rfl⟩ := exists_of_executing hplace
      have hreports := h.reports _ (List.mem_of_getElem? hp)
      refine ⟨k true, hreports.2.1 rfl true, .single (.turn (.worker i {}) ?_)⟩
      rw [turn, hp]
      rfl

theorem Orderly.run (h : Orderly capacity s)
    (hrun : Relation.ReflTransGen (Step capacity) s s') : Orderly capacity s' := by
  induction hrun with
  | refl => exact h
  | tail _ hstep ih => exact ih.step hstep

theorem exists_stuck (h : Orderly capacity s) (hpushing : s.pushing = true)
    (hroom : ¬ s.Room capacity) :
    ∃ s', Relation.ReflTransGen (Step capacity) s s' ∧ s'.Stuck capacity := by
  obtain ⟨hfull, hbusy⟩ := not_or.mp hroom
  have hfirst : ∀ n ≤ s.workers.length, ∃ workers : List (Task Unit),
      workers.length = s.workers.length ∧
      (∀ i p, workers[i]? = some p →
        workerPlace p ≠ .idle ∧ (i < n → workerPlace p = .waiting)) ∧
      Relation.ReflTransGen (Step capacity) s { s with workers := workers } := by
    intro n hn
    induction n with
    | zero =>
        refine ⟨s.workers, rfl, fun i p hp => ⟨fun hidle => ?_, nofun⟩, .refl⟩
        exact hbusy ⟨p, List.mem_of_getElem? hp, hidle⟩
    | succ n ih =>
        obtain ⟨workers, hlength, hplaces, hrun⟩ := ih (Nat.le_of_succ_le hn)
        have hlt : n < workers.length := by omega
        have hp : workers[n]? = some workers[n] := List.getElem?_eq_getElem hlt
        obtain ⟨q, hq, hnext⟩ := exists_waiting (h.run hrun) hp (hplaces n _ hp).1
        refine ⟨workers.set n q, (List.length_set ..).trans hlength, fun i p hi => ?_,
          hrun.trans hnext⟩
        by_cases hin : i = n
        · subst hin
          cases (List.getElem?_set_self hlt).symm.trans hi
          exact ⟨hq ▸ nofun, fun _ => hq⟩
        · rw [List.getElem?_set_ne (Ne.symm hin)] at hi
          exact ⟨(hplaces i p hi).1, fun hlast => (hplaces i p hi).2 (by omega)⟩
  obtain ⟨workers, hlength, hplaces, hrun⟩ := hfirst _ (Nat.le_refl _)
  refine ⟨_, hrun, hpushing, Nat.le_of_not_lt hfull, fun p hp => ?_⟩
  obtain ⟨i, hi⟩ := List.mem_iff_getElem?.mp hp
  exact (hplaces i p hi).2 (hlength ▸ (List.getElem?_eq_some_iff.mp hi).1)

end Steps

/-- In every run in which each push is begun while the local queue has a free place or some worker is
free, the I/O thread is never blocked in `push` with every worker waiting for it. After any other push
it can come to that. -/
theorem io_thread_unblocked_of_room (workerThreadCount workerQueueCapacity : Nat) :
    (∀ s, Relation.ReflTransGen (CarefulStep (capacityOf workerQueueCapacity))
        (start workerThreadCount) s → ¬ s.Stuck (capacityOf workerQueueCapacity)) ∧
    (∀ s s', Relation.ReflTransGen (Step (capacityOf workerQueueCapacity))
        (start workerThreadCount) s →
      Step (capacityOf workerQueueCapacity) s s' → s.pushing = false → s'.pushing = true →
      ¬ s.Room (capacityOf workerQueueCapacity) →
      ∃ s'', Relation.ReflTransGen (Step (capacityOf workerQueueCapacity)) s' s'' ∧
        s''.Stuck (capacityOf workerQueueCapacity)) := by
  generalize capacityOf workerQueueCapacity = capacity
  constructor
  · intro s hrun hstuck
    have hinv : Orderly capacity s ∧ (s.pushing = true → s.Room capacity) := by
      clear hstuck
      induction hrun with
      | refl => exact ⟨orderly_start _ _, nofun⟩
      | tail _ hstep ih => exact ⟨ih.1.step hstep.1, Room.step ih.2 ih.1 hstep⟩
    exact (hinv.2 hstuck.1).not_stuck hstuck
  · intro s s' hrun hstep hfree hpushing hroom
    have horderly := (orderly_start workerThreadCount capacity).run hrun
    have hentered : s' = { s with pushing := true } := by
      cases hstep with
      | others redis sqlite => cases hfree.symm.trans hpushing
      | turn t ht =>
          rcases turn_cases ht with ⟨e, -, -, rfl⟩ | ⟨-, rfl⟩ | ⟨hpushing, -, -⟩ |
            ⟨i, e, p, -, -, rfl⟩
          · cases hfree.symm.trans hpushing
          · rfl
          · cases hfree.symm.trans hpushing
          · cases hfree.symm.trans hpushing
    subst hentered
    exact exists_stuck (horderly.step hstep) rfl hroom

def play (capacity : Nat) : List Turn → Threads → Option Threads
  | [], s => some s
  | t :: rest, s => (s.turn capacity t).bind (play capacity rest)

theorem play_run {capacity : Nat} {turns : List Turn} {s s' : Threads}
    (h : play capacity turns s = some s') : Relation.ReflTransGen (Step capacity) s s' := by
  induction turns generalizing s with
  | nil =>
      cases h
      exact .refl
  | cons t rest ih =>
      obtain ⟨s₁, ht, hrest⟩ := Option.bind_eq_some_iff.mp h
      exact .head (.turn t ht) (ih hrest)

/-- A workflow of three jobs, all of which may run at once, is admitted. -/
def threeQueued : World :=
  (admission (serviceOf 3)
    (requestOf [{ jobId := "a" }, { jobId := "b" }, { jobId := "c" }])).2

/-- The scheduler hands the first two jobs over and comes to `push` with the third; the one worker has
taken the first. -/
def threeDispatched : List Turn :=
  List.replicate 5 (.scheduler {}) ++ [.push, .worker 0 {}] ++ List.replicate 6 (.scheduler {}) ++
    [.push] ++ List.replicate 6 (.scheduler {})

/-- With one worker and a queue of one place, three queued jobs are enough. -/
theorem io_thread_blocks :
    ∃ s, Relation.ReflTransGen (Step 1) (start 1) s ∧ s.Stuck 1 := by
  have hplayed : ∃ s ∈ play 1 threeDispatched { start 1 with world := threeQueued },
      s.Stuck 1 := by
    decide +kernel
  obtain ⟨s, hs, hstuck⟩ := hplayed
  have hqueued : Step 1 (start 1) { start 1 with world := threeQueued } :=
    .others threeQueued.redis threeQueued.sqlite rfl
  exact ⟨s, .head hqueued (play_run hs), hstuck⟩

end Threads

end FlowPilot
