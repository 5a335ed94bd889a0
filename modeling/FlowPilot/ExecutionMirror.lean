import FlowPilot.AdmissionMirror
import FlowPilot.BaseSerial
import FlowPilot.ExecutionAccounts
import FlowPilot.ExecutionQueues

/-! Executions in which the components have their turns one after the other. Every command is answered,
and a component that was called has ended, or waits for the execution of its job, before another one is
called. SQLite mirrors Redis between any two turns, as long as the success script does not find a
workflow past its `max_run_time`. -/

namespace FlowPilot

/-- A worker rests while its job is executed. -/
def Call.rests : Call → Bool
  | .executeJob _ => true
  | _ => false

/-- The stores agree about the workflow, but for jobs with an event in the completion stream. -/
def InStep (id : WorkflowIdentity) (w : World) : Prop := Mirrors (fun _ => False) (books id w)

/-- The success script is called for a job of the workflow while the workflow is RUNNING and past its
`max_run_time`, and the job is not the last one to be counted. -/
def Overdue (id : WorkflowIdentity) (ev : Event Call World Env) : Prop :=
  match ev.call with
  | .completeSuccessfulJob k => k.identity = id ∧
      (ev.world.redis.workflows id).status = some .running ∧
      (ev.world.redis.workflows id).runTimeExceeded ev.env.redisTime = true ∧
      ¬ ((ev.world.redis.workflows id).number WorkflowHash.totalJobs > 0 ∧
        (ev.world.redis.workflows id).number WorkflowHash.completedJobs + 1 =
          (ev.world.redis.workflows id).number WorkflowHash.totalJobs)
  | _ => False

instance (id : WorkflowIdentity) (ev : Event Call World Env) : Decidable (Overdue id ev) := by
  unfold Overdue
  induction ev.call using Call.casesOn <;> infer_instance

/-- The calls of the runs considered. -/
def OnTime (id : WorkflowIdentity) (ev : Event Call World Env) : Prop :=
  ev.env.ok = true ∧ ¬ Overdue id ev

/-- The program, run alone until it rests, leaves the stores in agreement. -/
def KeepsInStep {α : Type} (id : WorkflowIdentity) (p : Task α) (w : World) : Prop :=
  Prog.Yields Call.exec Call.rests (OnTime id) (fun _ w' => InStep id w') (fun _ w' => InStep id w') p w

theorem rests_of_handles {id : WorkflowIdentity} {c : Call} (h : HandlesAbout id c) :
    c.rests = false := by
  obtain ⟨hc, -⟩ := h
  cases c <;> first | rfl | cases hc

theorem rests_of_judges {id : WorkflowIdentity} {c : Call} (h : JudgesAbout id c) :
    c.rests = false := rests_of_handles h.handles

section Attendance

variable {p : Plan} {L : List String} {id : WorkflowIdentity} {w : World} {T : Multiset Token}
  {j : String} {s : Stage}

theorem Tidy.attended (h : Tidy p L (view id w T)) (hunfinished : Unfinished p (view id w T)) :
    Attended (books id w) where
  hash := hunfinished.hash
  active := hunfinished.active
  workflow := by
    refine (w.sqlite.any_workflow_iff id).mp ?_
    exact h.recorded
  rows := fun j hj => by
    have hrow : j ∈ w.sqlite.jobIds id := h.rows j (h.orderly.known j hj)
    obtain ⟨k, hk, rfl⟩ := List.mem_map.mp hrow
    obtain ⟨hk, hid⟩ := List.mem_filter.mp hk
    obtain ⟨row, hmem, rfl⟩ := List.mem_map.mp hk
    refine (w.sqlite.any_isOf_iff ⟨id, row.key.jobId⟩).mp (List.any_eq_true.mpr ⟨row, hmem, ?_⟩)
    refine decide_eq_true ?_
    rw [← of_decide_eq_true hid]
  waiting := h.orderly.waiting

theorem Tidy.holder (h : Tidy p L (view id w T)) (hmem : ((⟨id, j⟩, s) : Holding) ∈ w.holdings)
    (hleaves : ∀ st, s.leaves st = false) : j ∈ p.ids ∧ Unfinished p (view id w T) ∧
      ∃ st, s.asks = some st ∧ (w.redis.workflows id).jobStatus j = some st := by
  have hstage : s ∈ (view id w T).stages j := mem_stagesOf.mpr (Multiset.mem_add.mpr (.inl hmem))
  obtain ⟨rest, hrest⟩ := Multiset.exists_cons_of_mem hstage
  obtain ⟨-, hj, -, hunfinished, hasks⟩ := h.busy hrest hleaves
  exact ⟨hj, hunfinished, hasks⟩

end Attendance

section Quiet

variable {id : WorkflowIdentity} {w : World}

/-- The calls by which a job is passed on without a change of its status. -/
def Call.quiet : Call → Bool
  | .fetchJobPayload _ | .pushLocal _ | .enqueueJobCompletion _ => true
  | _ => false

theorem Call.rests_of_quiet {c : Call} (h : c.quiet = true) : c.rests = false := by
  cases c <;> first | rfl | cases h

theorem quiet_ask {c : Call} (hc : c.quiet = true) : (ask c).OnlyCalls (fun c => c.quiet = true) :=
  Prog.OnlyCalls.perform hc

theorem busy_ask {c : Call} (hc : c.rests = false) : (ask c).OnlyCalls (fun c => c.rests = false) :=
  Prog.OnlyCalls.perform hc

theorem InStep.quiet (h : InStep id w) {c : Call} (hc : c.quiet = true) (e : Env) :
    InStep id (c.exec e w).2 := by
  rw [Call.exec]
  split
  · cases c with
    | fetchJobPayload | pushLocal => exact h
    | enqueueJobCompletion event =>
        rw [InStep, books_enqueueJobCompletion]
        exact Mirrors.report h (by simp)
    | _ => cases hc
  · exact h

theorem InStep.settles (h : InStep id w) {α : Type} {p : Task α}
    (hp : p.OnlyCalls (fun c => c.quiet = true)) : Settles p w (fun _ w' => InStep id w') :=
  (leads_keeps (I := InStep id) hp (fun _ hc e _ hw => InStep.quiet hw hc e) h).settles

theorem InStep.exec_of_ne (h : InStep id w) {id' : WorkflowIdentity} {c : Call}
    (hc : HandlesAbout id' c) (hne : id ≠ id') (e : Env) : InStep id (c.exec e w).2 := by
  rw [InStep, books_exec_of_ne hc hne]
  exact h

theorem InStep.keeps_of_ne (h : InStep id w) {id' : WorkflowIdentity} (hne : id ≠ id') {α : Type}
    {p : Task α} (hp : p.OnlyCalls (HandlesAbout id')) : KeepsInStep id p w :=
  hp.yields (fun _ hc e _ hw => hw.exec_of_ne hc hne e) h

theorem Settles.keepsInStep {α : Type} {p : Task α} (h : Settles p w (fun _ w' => InStep id w'))
    (hp : p.OnlyCalls (fun c => c.rests = false)) : KeepsInStep id p w :=
  Prog.Ensures.yields h hp (fun _ hev => hev.1)

end Quiet

section Scheduling

open Scheduler

variable {p : Plan} {L : List String} {id : WorkflowIdentity} {w : World} {T : Multiset Token}

theorem reportPayloadFailure_quiet (k : JobKey) :
    (reportPayloadFailure k).OnlyCalls (fun c => c.quiet = true) :=
  (quiet_ask rfl).bind (fun _ => trivial)

theorem schedulerDispatch_quiet (k : JobKey) (size : Nat) : (if size > 0 then do
      let payload ← (ask (.fetchJobPayload k) : Task (Option (List UInt8)))
      match payload with
      | some bytes =>
          if bytes.length = size then ask (.pushLocal ⟨k.identity, k.jobId, bytes⟩)
          else reportPayloadFailure k
      | none => reportPayloadFailure k
    else ask (.pushLocal ⟨k.identity, k.jobId, []⟩) : Task Unit).OnlyCalls
      (fun c => c.quiet = true) := by
  split
  · refine (quiet_ask rfl).bind (fun payload => ?_)
    cases payload with
    | none => exact reportPayloadFailure_quiet k
    | some bytes =>
        dsimp only
        split
        · exact quiet_ask rfl
        · exact reportPayloadFailure_quiet k
  · exact quiet_ask rfl

theorem settles_blockingDequeueJobForExecution (htidy : Tidy p L (view id w T)) (h : InStep id w) :
    Settles blockingDequeueJobForExecution w (fun _ w' => InStep id w') := by
  have hpop : Settles (ask .popExecutionQueue) w (fun r w₁ => InStep id w₁ ∧ ∀ k, r = some k →
      k.identity = id → (w₁.redis.workflows id).jobStatus k.jobId = some .queued) := by
    refine settles_ask (fun e => ?_)
    simp only [Call.carryOut, Call.onRedis, Redis.popExecutionQueue]
    split
    · exact ⟨h, (by simp)⟩
    · rename_i k n rest hpop
      refine ⟨h, fun k' hk hid => ?_⟩
      cases hk
      subst hid
      have hmem : ((k, Stage.queued) : Holding) ∈ w.holdings := by
        refine Multiset.mem_add.mpr (.inl (Multiset.mem_add.mpr (.inl (Multiset.mem_add.mpr (.inl ?_)))))
        exact mem_setHoldings.mpr ⟨(SortedSet.popMax_eq_some hpop).1, rfl⟩
      obtain ⟨-, -, st, hasks, hst⟩ := htidy.holder (j := k.jobId) hmem (fun _ => rfl)
      cases hasks
      exact hst
  refine Settles.bind hpop (fun r w₁ h₁ => ?_)
  obtain ⟨h₁, hqueued⟩ := h₁
  cases r with
  | none => exact h₁
  | some k =>
      have htype : Settles (ask (.jobType k)) w₁ (fun _ w' => w' = w₁) := settles_ask (fun _ => rfl)
      refine Settles.bind htype (fun r w₂ h₂ => ?_)
      subst h₂
      have hclaim : Settles (ask (.claimJob k)) w₂ (fun _ w' => InStep id w') := by
        by_cases hid : k.identity = id
        · subst hid
          refine Settles.mono (posts_claimJob w₂ rfl) (fun _ w' hw' => ?_)
          rw [InStep, hw']
          exact h₁.claimJob (hqueued k rfl rfl)
        · refine settles_ask (fun e => ?_)
          have habout : HandlesAbout k.identity (.claimJob k) := ⟨rfl, rfl⟩
          rw [InStep, books_carryOut_of_ne habout (fun heq => hid heq.symm)]
          exact h₁
      rcases r with _ | _ | _
      · exact h₁
      · exact h₁
      · refine Settles.bind hclaim (fun r w₃ h₃ => ?_)
        rcases r with _ | _ | _ <;> exact h₃

theorem scheduler_rests : Scheduler.mainLoop.OnlyCalls (fun c => c.rests = false) := by
  refine Prog.OnlyCalls.bind (Prog.OnlyCalls.bind (Prog.OnlyCalls.bind (busy_ask rfl) (fun r => ?_))
    (fun r => ?_)) (fun r => ?_)
  · cases r with
    | none => trivial
    | some k =>
        refine (busy_ask rfl).bind (fun r => ?_)
        rcases r with _ | _ | _
        · trivial
        · trivial
        · refine (busy_ask rfl).bind (fun r => ?_)
          rcases r with _ | _ | _ <;> trivial
  · cases r with
    | none => trivial
    | some k =>
        refine (busy_ask rfl).bind (fun r => ?_)
        obtain ⟨fetched, runtime⟩ := r
        cases fetched <;> trivial
  · rcases r with _ | ⟨k, size⟩
    · trivial
    · exact (schedulerDispatch_quiet k size).mono (fun _ => Call.rests_of_quiet)

theorem keepsInStep_scheduler (htidy : Tidy p L (view id w T)) (h : InStep id w) :
    KeepsInStep id Scheduler.mainLoop w := by
  have hnext : Settles getNextReadyJob w (fun _ w' => InStep id w') := by
    refine Settles.bind (settles_blockingDequeueJobForExecution htidy h) (fun r w₁ h₁ => ?_)
    cases r with
    | none => exact h₁
    | some k =>
        have hfetch : Settles (ask (.fetchJobRuntime k)) w₁ (fun _ w' => w' = w₁) :=
          settles_ask (fun _ => rfl)
        refine Settles.bind hfetch (fun r w₂ h₂ => ?_)
        subst h₂
        obtain ⟨fetched, runtime⟩ := r
        cases fetched <;> exact h₁
  refine Settles.keepsInStep (Settles.bind hnext (fun r w₁ h₁ => ?_)) scheduler_rests
  rcases r with _ | ⟨k, size⟩
  · exact h₁
  · exact InStep.settles h₁ (schedulerDispatch_quiet k size)

end Scheduling

section Working

open WorkerThread

variable {p : Plan} {L : List String} {id : WorkflowIdentity} {w : World} {T : Multiset Token}

theorem updateCompletionHandler_quiet (event : JobCompletionData) :
    (updateCompletionHandler event).OnlyCalls (fun c => c.quiet = true) :=
  (quiet_ask rfl).bind (fun _ => trivial)

theorem InStep.keepsInStep (h : InStep id w) {α : Type} {q : Task α}
    (hq : q.OnlyCalls (fun c => c.quiet = true)) : KeepsInStep id q w :=
  Settles.keepsInStep (h.settles hq) (hq.mono (fun _ => Call.rests_of_quiet))

theorem Unfinished.startable (hunfinished : Unfinished p (view id w T)) :
    ((books id w).space.status = some .ready ∧ (books id w).space.counters.started = none) ∨
      (books id w).space.status = some .running ∨ (books id w).space.status = some .failed := by
  rcases hunfinished.phase with hlive | hfailed
  · rcases hlive.strong.unclosed with hready | hrunning
    · exact .inl ⟨hready, hlive.unstarted hready⟩
    · exact .inr (.inl hrunning)
  · exact .inr (.inr hfailed)

/-- The start of a job, whichever workflow it belongs to: a job of the workflow that is not started is
to be reported. -/
theorem settles_start (htidy : Tidy p L (view id w T)) (h : InStep id w) {job : JobExeData}
    (hjob : job ∈ w.localQueue) {w₁ : World} (hbooks : books id w₁ = books id w) :
    Settles (updateJobStatusToRunning job.key) w₁ (fun started w' =>
      Mirrors (fun j => started = false ∧ job.identity = id ∧ j = job.jobId) (books id w')) := by
  by_cases hid : job.identity = id
  · subst hid
    have hmem : ((job.key, Stage.dispatched) : Holding) ∈ w.holdings := by
      refine Multiset.mem_add.mpr (.inl (Multiset.mem_add.mpr (.inr ?_)))
      exact Multiset.mem_coe.mpr (List.mem_map.mpr ⟨job, hjob, rfl⟩)
    obtain ⟨-, hunfinished, st, hasks, hst⟩ := htidy.holder (j := job.jobId) hmem (fun _ => rfl)
    cases hasks
    refine Settles.mono (h.updateJobStatusToRunning (k := job.key) (htidy.attended hunfinished)
      hst hunfinished.startable w₁ hbooks) (fun started w' hw' => ?_)
    exact hw'.weaken (fun j hj => ⟨hj.1, rfl, hj.2⟩)
  · have hw₁ : InStep id w₁ := by
      rw [InStep, hbooks]
      exact h
    have hkept := leads_keeps (I := InStep id) (updateJobStatusToRunning_handles (k := job.key))
      (fun _ hc e _ hw => hw.exec_of_ne hc (fun heq => hid heq.symm) e) hw₁
    exact hkept.settles.mono (fun started w' hw' => Mirrors.weaken hw' (fun _ => False.elim))

theorem keepsInStep_worker (htidy : Tidy p L (view id w T)) (h : InStep id w) :
    KeepsInStep id WorkerThread.runWorkerLoop w := by
  refine Prog.Yields.perform_bind rfl (fun e he => ?_)
  rw [exec_answered he.1]
  cases hslot : w.localQueue[e.slot]? with
  | none =>
      simp only [Call.carryOut, Call.popSlot, hslot]
      exact h
  | some job =>
      simp only [Call.carryOut, Call.popSlot, hslot]
      have hbooks : books id { w with localQueue := w.localQueue.eraseIdx e.slot } = books id w := rfl
      have hstart := settles_start htidy h (List.mem_of_getElem? hslot) hbooks
      refine Prog.Yields.bind (hstart.yields (updateJobStatusToRunning_handles.mono
        (fun _ => rests_of_handles)) (fun _ hev => hev.1)) (fun started w₁ h₁ => ?_)
      cases started with
      | true =>
          rw [if_pos rfl]
          exact ⟨fun _ => h₁.weaken (fun j hj => by cases hj.1), (by rintro ⟨⟩)⟩
      | false =>
          rw [if_neg Bool.false_ne_true]
          refine Prog.Yields.perform_bind rfl (fun e he => ?_)
          rw [exec_answered he.1]
          change InStep id ((Call.enqueueJobCompletion _).carryOut e w₁).2
          rw [InStep, books_enqueueJobCompletion]
          refine h₁.report (fun j hj => ?_)
          rw [if_pos hj.2.1]
          exact List.mem_singleton.mpr hj.2.2

end Working

section Retrying

open RetryHandler

variable {p : Plan} {L : List String} {id : WorkflowIdentity} {w : World} {T : Multiset Token}

theorem Unfinished.started (hunfinished : Unfinished p (view id w T)) {j : String} {st : JobStatus}
    (hst : (books id w).space.jobStatus j = some st) (hkind : st = .running ∨ st = .retryDelay) :
    (books id w).space.status = some .running ∨ (books id w).space.status = some .failed := by
  rcases hunfinished.phase with hlive | hfailed
  · rcases hlive.strong.unclosed with hready | hrunning
    · obtain ⟨hrun, -, hdelay⟩ := hlive.strong.young hready j
      rcases hkind with rfl | rfl
      · exact absurd hst hrun
      · exact absurd hst hdelay
    · exact .inl hrunning
  · exact .inr hfailed

theorem keepsInStep_retryHandler (htidy : Tidy p L (view id w T)) (h : InStep id w) :
    KeepsInStep id RetryHandler.mainLoop w := by
  have hrests : ∀ k, (processRetryJob k).OnlyCalls (fun c => c.rests = false) := fun k =>
    processRetryJob_judges.mono (fun _ => rests_of_judges)
  refine Prog.Yields.perform_bind rfl (fun e he => ?_)
  rw [exec_answered he.1]
  simp only [Call.carryOut, Call.onRedis, Redis.dequeueDueJobRetry]
  cases hleast : w.redis.jobRetryStream.leastUpTo RedisKeys.laterKey e.nowMs with
  | none => exact h
  | some due =>
      obtain ⟨k, n⟩ := due
      dsimp only
      have hbooks : books id { w with redis := { w.redis with
          jobRetryStream := w.redis.jobRetryStream.remove k } } = books id w := rfl
      by_cases hid : k.identity = id
      · subst hid
        have hmem : ((k, Stage.retryWait) : Holding) ∈ w.holdings := by
          refine Multiset.mem_add.mpr (.inl (Multiset.mem_add.mpr (.inl (Multiset.mem_add.mpr (.inr ?_)))))
          exact mem_setHoldings.mpr ⟨SortedSet.leastUpTo_mem hleast, rfl⟩
        obtain ⟨-, hunfinished, st, hasks, hst⟩ := htidy.holder (j := k.jobId) hmem (fun _ => rfl)
        cases hasks
        have hrunning : (books k.identity w).space.status = some .running := by
          refine (hunfinished.started hst (.inr rfl)).resolve_right (fun hfailed => ?_)
          cases h.settled hfailed _ _ hst
        have hsettles := h.processRetryJob (htidy.attended hunfinished) hst hrunning _ hbooks
        refine Settles.keepsInStep (Settles.bind hsettles (fun _ w' hw' => hw')) ?_
        exact (hrests k).bind (fun _ => trivial)
      · have hstep : InStep id { w with redis := { w.redis with
            jobRetryStream := w.redis.jobRetryStream.remove k } } := h
        exact hstep.keeps_of_ne (fun heq => hid heq.symm)
          (((processRetryJob_judges (k := k)).mono (fun _ => JudgesAbout.handles)).bind (fun _ => trivial))

end Retrying

section Completing

open CompletionHandler

variable {p : Plan} {L : List String} {id : WorkflowIdentity} {w : World} {T : Multiset Token}

theorem Unfinished.successors_nodup (hunfinished : Unfinished p (view id w T)) {j : String}
    (hj : j ∈ p.ids) (hst : (books id w).space.jobStatus j = some .running)
    (hwf : (books id w).space.status = some .running) :
    ((books id w).space.successors j).Nodup := by
  rcases hunfinished.phase with hlive | hfailed
  · refine (hlive.strong.coherent.successors j hj (fun hdone => ?_)).1
    cases hst.symm.trans hdone
  · cases hwf.symm.trans hfailed

theorem Unfinished.fetchable (hunfinished : Unfinished p (view id w T)) {j : String}
    (hj : j ∈ p.ids) : ((books id w).space.fetchJobRuntime j).1 = true := by
  obtain ⟨hash, -, hjob, hreadable, -⟩ := hunfinished.provided j hj
  exact (WorkflowKeyspace.fetchJobRuntime_of_readable hjob hreadable).1

/-- `handle_job_completed`: if it reports failure, the event is treated as one of a failed job, and the
stores agree after that. -/
theorem yields_handleJobCompleted {k : JobKey} (h : Mirrors (· = k.jobId) (books k.identity w))
    (hb : Attended (books k.identity w))
    (hst : (books k.identity w).space.jobStatus k.jobId = some .running)
    (hwf : (books k.identity w).space.status = some .running ∨
      (books k.identity w).space.status = some .failed)
    (hnodup : (books k.identity w).space.status = some .running →
      ((books k.identity w).space.successors k.jobId).Nodup)
    (hfetch : ((books k.identity w).space.fetchJobRuntime k.jobId).1 = true) (workflow : WorkflowHash)
    {idle : Task Bool → World → Prop} :
    Prog.Yields Call.exec Call.rests (OnTime k.identity) (fun done w' => if done then
        InStep k.identity w' else
        Settles (processUncompleted k .failed .internalDbFailure workflow) w'
          (fun _ w'' => InStep k.identity w''))
      idle (handleJobCompleted k) w := by
  have hjob : (books k.identity w).space.jobStatus k.jobId ≠ none := fun hnone => by
    cases hst.symm.trans hnone
  refine Prog.Yields.perform_bind rfl (fun e he => ?_)
  rw [exec_answered he.1]
  have hreply : ((Call.completeSuccessfulJob k).carryOut e w).1 = Redis.CompletedJob.ofOutcome
      ((books k.identity w).space.completeSuccessfulJob e.redisTime k.jobId).1 := rfl
  have hbooks := books_completeSuccessfulJob k e w
  have hspace : w.redis.workflows k.identity = (books k.identity w).space := rfl
  rw [hspace] at hbooks
  generalize ((Call.completeSuccessfulJob k).carryOut e w).2 = w₁ at hbooks
  rw [hreply]
  cases hout : ((books k.identity w).space.completeSuccessfulJob e.redisTime k.jobId).1 with
  | missing =>
      obtain ⟨-, hnone⟩ := (WorkflowKeyspace.completeSuccessfulJob_refused hout).1 rfl
      rcases hnone with hnone | hnone
      · rcases hwf with hwf | hwf <;> cases hwf.symm.trans hnone
      · cases hst.symm.trans hnone
  | alreadyCompleted =>
      obtain ⟨-, hdone⟩ := (WorkflowKeyspace.completeSuccessfulJob_refused hout).2.2 rfl
      cases hst.symm.trans hdone
  | notRunning =>
      obtain ⟨hsame, hclosed⟩ := (WorkflowKeyspace.completeSuccessfulJob_refused hout).2.1 rfl
      rw [hsame] at hbooks
      refine posts_processRefused hfetch workflow (fun n => ?_) w₁ hbooks
      exact h.failJob hb hjob (.inr ⟨.inl rfl, hwf.resolve_left hclosed⟩) n
  | runTimeExceeded =>
      obtain ⟨hrunning, hexceeded, hfailed⟩ := WorkflowKeyspace.completeSuccessfulJob_expired hout
      have hlast : (books k.identity w).space.counters.total > 0 ∧
          (books k.identity w).space.counters.completed + 1 =
            (books k.identity w).space.counters.total := by
        by_contra hopen
        exact he.2 ⟨rfl, hrunning, hexceeded, hopen⟩
      rw [hfailed] at hbooks
      have hb' : Attended { books k.identity w with
          space := (books k.identity w).space.setStatus .failed } :=
        ⟨nofun, hb.active, hb.workflow, hb.rows, hb.waiting⟩
      have hcounters := WorkflowKeyspace.counters_setStatus (books k.identity w).space .failed
      refine posts_processRefused (by exact hfetch) workflow (fun n => ?_) w₁ hbooks
      exact hb'.failLastJob hjob (.inl rfl) nofun (by rw [hcounters]; exact hlast) n
  | counted done promoted ready =>
      obtain ⟨hrunning, -⟩ := WorkflowKeyspace.completeSuccessfulJob_counted hout
      have hposts := h.persistJobCompleted hb (hnodup hrunning) hout
      refine Prog.Ensures.yields (hposts w₁ hbooks |>.mono (fun r w' hr => ?_))
        ((persistJobCompleted_judges _).mono (fun _ => rests_of_judges)) (fun _ hev => hev.1)
      rw [hr.1, if_pos rfl]
      exact hr.2

theorem keepsInStep_processCompletedJobs {event : JobCompletionData}
    (htidy : Tidy p L (view event.identity w T)) (hstep : InStep event.identity w)
    {rest : List JobCompletionData} (hstream : w.redis.jobCompletionStream = event :: rest) :
    KeepsInStep event.identity (processCompletedJobs event)
      { w with redis := { w.redis with jobCompletionStream := rest } } := by
  have hmem : ((event.key, Stage.reported event.status) : Holding) ∈ w.holdings := by
    refine Multiset.mem_add.mpr (.inr (Multiset.mem_coe.mpr (List.mem_map.mpr ⟨event, ?_, rfl⟩)))
    rw [hstream]
    exact List.mem_cons_self
  obtain ⟨hj, hunfinished, st, hasks, hst⟩ := htidy.holder (j := event.jobId) hmem (fun _ => rfl)
  have hb := htidy.attended hunfinished
  generalize hw₁ : ({ w with redis := { w.redis with jobCompletionStream := rest } } : World) = w₁
  have hspace : (books event.identity w₁).space = (books event.identity w).space := hw₁ ▸ rfl
  have hb₁ : Attended (books event.identity w₁) :=
    hw₁ ▸ ⟨hb.hash, hb.active, hb.workflow, hb.rows, hb.waiting⟩
  have h₁ : Mirrors (· = event.jobId) (books event.identity w₁) := by
    have hreported : (books event.identity w).reported =
        event.jobId :: (books event.identity w₁).reported := by
      rw [← hw₁]
      simp only [books, hstream]
      rw [List.filter_cons_of_pos (by simp)]
      rfl
    refine ⟨fun j st hst hnot hX => ?_, hw₁ ▸ hstep.workflow, hw₁ ▸ hstep.settled⟩
    rw [hspace] at hst
    have hjob := hstep.jobs j st hst (by
      rw [hreported]
      exact fun hmem => (List.mem_cons.mp hmem).elim hX hnot) False.elim
    rw [← hw₁]
    exact hjob
  have hst₁ : (books event.identity w₁).space.jobStatus event.jobId = some st := hspace ▸ hst
  have hwf := fun hkind => hunfinished.started hst hkind
  rw [← hspace] at hwf
  obtain ⟨workflow, hworkflow⟩ := Option.ne_none_iff_exists'.mp hb₁.hash
  have hstatus : workflow.status = (books event.identity w₁).space.status := by
    rw [WorkflowKeyspace.status, hworkflow]
    rfl
  -- an event that is not COMPLETED is handled without the success script
  have hfail : ∀ st', Unsuccessful (books event.identity w₁) event.jobId st' → ∀ code,
      KeepsInStep event.identity (processUncompleted event.key st' code workflow) w₁ := by
    intro st' hst' code
    refine Settles.keepsInStep (h₁.processUncompleted (k := event.key) hb₁ hst' code hstatus w₁ rfl) ?_
    exact (processUncompleted_judges (k := event.key) st' code workflow).mono
      (fun _ => rests_of_judges)
  refine Prog.Yields.perform_bind rfl (fun e he => ?_)
  rw [exec_answered he.1]
  have hreply : (Call.fetchWorkflowRuntime event.identity).carryOut e w₁ = (some workflow, w₁) :=
    Prod.ext hworkflow rfl
  rw [hreply]
  dsimp only
  cases hevent : event.status with
  | completed =>
      rw [hevent] at hasks
      cases hasks
      have hnodup := fun hrun => hunfinished.successors_nodup (j := event.jobId) hj hst hrun
      have hfetch := hunfinished.fetchable hj
      rw [← hspace] at hnodup hfetch
      refine Prog.Yields.bind (yields_handleJobCompleted (k := event.key) h₁ hb₁ hst₁
        (hwf (.inl rfl)) hnodup hfetch workflow) (fun done w₂ h₂ => ?_)
      cases done with
      | true => exact h₂
      | false =>
          refine Settles.keepsInStep h₂ ?_
          exact (processUncompleted_judges (k := event.key) _ _ workflow).mono
            (fun _ => rests_of_judges)
  | failed =>
      rw [hevent] at hasks
      cases hasks
      exact hfail .failed (.failed hst₁ (hwf (.inl rfl))) event.errorCode
  | aborted =>
      rw [hevent] at hasks
      cases hasks
      refine hfail .aborted (.aborted (fun hnone => ?_) ?_) event.errorCode
      · cases hst₁.symm.trans hnone
      · rcases hunfinished.phase with hlive | hfailed
        · exact absurd hst (hlive.clean event.jobId).2
        · rw [hspace]
          exact hfailed
  | _ =>
      rw [hevent] at hasks
      cases hasks

theorem keepsInStep_completionHandler (htidy : Tidy p L (view id w T)) (h : InStep id w) :
    KeepsInStep id CompletionHandler.mainLoop w := by
  refine Prog.Yields.perform_bind rfl (fun e he => ?_)
  rw [exec_answered he.1]
  simp only [Call.carryOut, Call.onRedis, Redis.dequeueJobCompletion]
  cases hstream : w.redis.jobCompletionStream with
  | nil => exact h
  | cons event rest =>
      dsimp only
      by_cases hid : event.identity = id
      · subst hid
        exact Prog.Yields.bind (keepsInStep_processCompletedJobs htidy h hstream)
          (fun _ w' hw' => hw')
      · have hbooks : books id { w with redis := { w.redis with jobCompletionStream := rest } } =
            books id w := by
          simp only [books, hstream]
          rw [List.filter_cons_of_neg (by simpa using hid)]
        have hstep : InStep id { w with redis := { w.redis with jobCompletionStream := rest } } := by
          rw [InStep, hbooks]
          exact h
        exact hstep.keeps_of_ne (fun heq => hid heq.symm)
          (((processCompletedJobs_judges event).mono (fun _ => JudgesAbout.handles)).bind
            (fun _ => trivial))

end Completing

section Resting

/-- A program at rest has ended, or waits for the execution of a job and then only reports it. -/
def AtRest : Task Unit → Prop
  | .done _ => True
  | .call c k => c.rests = true ∧ ∀ r, (k r).OnlyCalls (fun c => c.quiet = true)

theorem atRest_of_busy {p : Task Unit} (hp : p.OnlyCalls (fun c => c.rests = false)) (w : World) :
    Prog.Yields Call.exec Call.rests (fun _ => True) (fun a _ => AtRest (.done a))
      (fun p' _ => AtRest p') p w := by
  have hany : Prog.Ensures Call.exec (fun _ => True) (fun a _ => AtRest (.done a)) p w :=
    (Prog.ensures_any p w).mono (fun _ _ _ => trivial)
  exact hany.yields hp (fun _ _ => trivial)

theorem completionHandler_busy :
    CompletionHandler.mainLoop.OnlyCalls (fun c => c.rests = false) := by
  refine (busy_ask rfl).bind (fun r => ?_)
  cases r with
  | none => trivial
  | some event =>
      exact ((processCompletedJobs_judges event).mono (fun _ => rests_of_judges)).bind
        (fun _ => trivial)

theorem retryHandler_busy : RetryHandler.mainLoop.OnlyCalls (fun c => c.rests = false) := by
  refine (busy_ask rfl).bind (fun r => ?_)
  cases r with
  | none => trivial
  | some k =>
      exact ((processRetryJob_judges (k := k)).mono (fun _ => rests_of_judges)).bind
        (fun _ => trivial)

theorem worker_atRest (w : World) :
    Prog.Yields Call.exec Call.rests (fun _ => True) (fun a _ => AtRest (.done a))
      (fun p' _ => AtRest p') WorkerThread.runWorkerLoop w := by
  have hquiet : ∀ event, (WorkerThread.updateCompletionHandler event).OnlyCalls
      (fun c => c.rests = false) := fun event =>
    (updateCompletionHandler_quiet event).mono (fun _ => Call.rests_of_quiet)
  refine Prog.Yields.perform_bind rfl (fun e _ => ?_)
  cases (Call.popLocal.exec e w).1 with
  | none => trivial
  | some job =>
      have hstart : Prog.Ensures Call.exec (fun _ => True) (fun _ _ => True)
          (WorkerThread.updateJobStatusToRunning job.key) (Call.popLocal.exec e w).2 :=
        Prog.ensures_any _ _
      refine Prog.Yields.bind (hstart.yields
        ((updateJobStatusToRunning_handles (k := job.key)).mono (fun _ => rests_of_handles))
        (fun _ _ => trivial)) (fun started w' _ => ?_)
      cases started with
      | false => exact atRest_of_busy (hquiet _) w'
      | true =>
          refine ⟨fun _ => ⟨rfl, fun r => ?_⟩, nofun⟩
          change (if r then WorkerThread.updateCompletionHandler _ else _ : Task Unit).OnlyCalls _
          split <;> exact updateCompletionHandler_quiet _

theorem engine_atRest (p : Task Unit) (hp : (engine Plain).program p) (w : World) :
    Prog.Yields Call.exec Call.rests (fun _ => True) (fun a _ => AtRest (.done a))
      (fun p' _ => AtRest p') p w := by
  obtain ⟨c, rfl⟩ := hp
  cases c with
  | scheduler => exact atRest_of_busy scheduler_rests w
  | worker => exact worker_atRest w
  | completionHandler => exact atRest_of_busy completionHandler_busy w
  | retryHandler => exact atRest_of_busy retryHandler_busy w

theorem serialRun_atRest {σ σ' : Pool Call Call.Reply World} {log : Log}
    (h : (engine Plain).SerialRun Call.rests σ log σ') (hσ : ∀ p ∈ σ.threads, AtRest p) :
    ∀ p ∈ σ'.threads, AtRest p :=
  h.threads engine_atRest (fun _ _ hk r w =>
    atRest_of_busy ((hk.2 r).mono (fun _ => Call.rests_of_quiet)) w) hσ

end Resting

section Executions

variable {svc : Service} {req : WorkflowRequest} {log : Log} {σ : Pool Call Call.Reply World}

/-- A run in which the components have their turns one after the other, after the admission of the
workflow of `req`. -/
def ExecutesSerially (ids : WorkflowIdentity → Prop) (svc : Service) (req : WorkflowRequest)
    (log : Log) (σ : Pool Call Call.Reply World) : Prop :=
  ∃ log₀ σ₀ w₁, (engine ids).SerialRun Call.rests ⟨{}, []⟩ log₀ σ₀ ∧ ids req.identity ∧
    AdmitsAnswered svc req σ₀.world w₁ ∧ (engine ids).SerialRun Call.rests ⟨w₁, σ₀.threads⟩ log σ

theorem AdmitsAnswered.admits {w w' : World} (h : AdmitsAnswered svc req w w') :
    Admits Call.exec svc req w w' := by
  obtain ⟨env, result, -, hrun, hvalid⟩ := h
  exact ⟨env, result, hrun, hvalid⟩

theorem ExecutesSerially.executes (h : ExecutesSerially Plain svc req log σ) :
    Executes Plain svc req log σ := by
  obtain ⟨log₀, σ₀, w₁, hbefore, hplain, hadmits, hrun⟩ := h
  exact ⟨log₀, σ₀, w₁, hbefore.run, hplain, hadmits.admits, hrun.run⟩

/-- The workflow is tidy in every state of an execution in which every command succeeds. -/
theorem keepsInStep_component {p : Plan} {L : List String} {id : WorkflowIdentity} {w : World}
    {T : Multiset Token} (htidy : Tidy p L (view id w T)) (h : InStep id w) (c : Component) :
    KeepsInStep id c.mainLoop w := by
  cases c with
  | scheduler => exact keepsInStep_scheduler htidy h
  | worker => exact keepsInStep_worker htidy h
  | completionHandler => exact keepsInStep_completionHandler htidy h
  | retryHandler => exact keepsInStep_retryHandler htidy h

theorem InStep.admitted {id : WorkflowIdentity} {w w' : World} (h : InStep id w) {svc' : Service}
    {req' : WorkflowRequest} (hadmits : Admits Call.exec svc' req' w w') (hne : id ≠ req'.identity) :
    InStep id w' := by
  have haccount := hadmits.account_of_ne (D := 0) hne
  have hledger : w'.sqlite.ledger id = w.sqlite.ledger id := congrArg Account.ledger haccount
  have hspace : w'.redis.workflows id = w.redis.workflows id :=
    congrArg (fun a => a.view.space) haccount
  obtain ⟨client, info, linked, ready, haccepted, -⟩ := hadmits.accepted
  have hstream : w'.redis.jobCompletionStream = w.redis.jobCompletionStream :=
    congrArg Visible.jobCompletionStream haccepted.stored
  obtain ⟨hjobs, hworkflow, hsettled⟩ := h
  refine ⟨?_, ?_, ?_⟩
  all_goals simp only [books, hledger, hspace, hstream] at *
  · exact hjobs
  · exact hworkflow
  · exact hsettled

theorem ExecutesSerially.inStep (h : ExecutesSerially Plain svc req log σ)
    (hontime : ∀ ev ∈ log, OnTime req.identity ev) : InStep req.identity σ.world := by
  obtain ⟨log₀, σ₀, w₁, hbefore, hplain, hadmits, hrun⟩ := h
  have hadmitted : InStep req.identity w₁ := by
    obtain ⟨toks, -, hsane⟩ := run_sane hbefore.run
    exact hadmits.mirrors (hsane.absent req.identity hadmits.admits.new)
  have hrest := serialRun_atRest hbefore nofun
  induction hrun with
  | refl => exact hadmitted
  | @tail σ₁ σ₂ log l hrun hstep ih =>
      have hprefix := ih (fun ev hev => hontime ev (List.mem_append_left _ hev))
      have hexec : ExecutesSerially Plain svc req log σ₁ :=
        ⟨log₀, σ₀, w₁, hbefore, hplain, hadmits, hrun⟩
      obtain ⟨p, -, T, -, -, htidy, -⟩ := hexec.executes.stated
        (fun ev hev => (hontime ev (List.mem_append_left _ hev)).1)
      have hgood : ∀ ev ∈ l, OnTime req.identity ev := fun ev hev =>
        hontime ev (List.mem_append_right _ hev)
      cases hstep with
      | start hp env =>
          obtain ⟨c, rfl⟩ := hp
          rcases (keepsInStep_component htidy hprefix c).advance env 0 hgood with ⟨_, -, h⟩ | h
          · exact h
          · exact h
      | @resume w before after c k e env =>
          obtain ⟨hrests, hk⟩ := serialRun_atRest hrun hrest (.call c k)
            (List.mem_append_right _ List.mem_cons_self)
          have hquiet : InStep req.identity (c.exec e w).2 := by
            cases c with
            | executeJob job =>
                rw [exec_answered (hgood _ List.mem_cons_self).1]
                exact hprefix
            | _ => cases hrests
          rcases (hquiet.keepsInStep (hk _)).advance env 0 (fun ev hev =>
            hgood ev (List.mem_cons_of_mem _ hev)) with ⟨_, -, h⟩ | h
          · exact h
          · exact h
      | outside hw =>
          obtain ⟨svc', req', -, hadmits'⟩ := hw
          exact hprefix.admitted hadmits' (hadmits'.ne_of_recorded htidy.recorded)

/-- SQLite mirrors Redis: every job whose hash exists and that has no event in the completion stream
has one status in both stores, where PENDING_EXECUTION is recorded as QUEUED, and so has the
workflow. -/
structure Mirrored (req : WorkflowRequest) (w : World) : Prop where
  job : ∀ job ∈ req.jobs, (w.redis.workflows req.identity).jobs job.jobId ≠ none →
    (∀ event ∈ w.redis.jobCompletionStream, event.key ≠ ⟨req.identity, job.jobId⟩) →
    ∃ st, (w.redis.workflows req.identity).jobStatus job.jobId = some st ∧
      w.sqlite.jobStatus ⟨req.identity, job.jobId⟩ = some st.recorded
  workflow : ∀ ws, (w.redis.workflows req.identity).status = some ws →
    w.sqlite.workflowStatus req.identity = some ws

end Executions

section Schedules

/-- One act of a serial schedule: a component is called, or the job that the `i`-th call waits for is
executed. All calls of the turn are made in one environment. -/
inductive SerialAct where
  | call (c : Component) (e : Env)
  | execute (i : Nat) (e : Env)

def SerialAct.turn : SerialAct → System.SerialTurn Call Call.Reply Env
  | .call c e => .start c.mainLoop (fun _ => e)
  | .execute i e => .resume i e (fun _ => e)

/-- A serial schedule played after the admission of a request in an empty engine. -/
def playedSerially (svc : Service) (req : WorkflowRequest) (acts : List SerialAct) :
    Log × Pool Call Call.Reply World :=
  (engine Plain).serialPlay Call.rests (acts.map SerialAct.turn) ⟨(admission svc req).2, []⟩

theorem executesSerially_played {svc : Service} {req : WorkflowRequest} (acts : List SerialAct)
    (hplain : req.identity.Plain)
    (hvalid : (admission svc req).1.map ValidationResult.valid = some true) :
    ExecutesSerially Plain svc req (playedSerially svc req acts).1
      (playedSerially svc req acts).2 := by
  obtain ⟨result, hresult, hvalid⟩ := Option.map_eq_some_iff.mp hvalid
  refine ⟨[], ⟨{}, []⟩, (admission svc req).2, .refl _, hplain,
    ⟨_, result, fun _ => rfl, Prod.ext hresult rfl, hvalid⟩,
    System.serialPlay_run (fun p env hp => ?_) _⟩
  obtain ⟨act, -, heq⟩ := List.mem_map.mp hp
  cases act with
  | call c e =>
      cases heq
      exact ⟨c, rfl⟩
  | execute i e => cases heq

/-- The first of two chained jobs is executed, and its completion is handled at a time of Redis. -/
def completesAt (time : Int) : List SerialAct :=
  [.call .scheduler {}, .call .worker { redisTime := 1 }, .execute 0 {},
    .call .completionHandler { redisTime := time }]

end Schedules

end FlowPilot
