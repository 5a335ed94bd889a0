import FlowPilot.RuntimeSystem
import FlowPilot.WorkflowInvariant

/-! What holds in every execution, whatever calls fail: a workflow never occupies more slots than
its limit allows, and the counters of open dependencies are exact as long as it is READY or
RUNNING, so that a job becomes READY when all that it depends on is COMPLETED and not before. -/

namespace FlowPilot

open WorkflowKeyspace WorkflowView

section Start

variable {p : Plan} {v : WorkflowView}

/-- The invariant holds of the workflow as it is admitted. -/
theorem Fresh.strong (h : Fresh p v) : Strong p v := by
  have hstatus : ∀ j st, v.jobStatus j = some st → st = .pending ∨ st = .ready ∨ st = .queued := by
    intro j st hst
    have hj : j ∈ p.ids := (h.coherent.known j).mp (fun hnone => by cases hst.symm.trans hnone)
    rcases h.untouched j hj with huntouched | huntouched | huntouched <;>
      cases hst.symm.trans huntouched <;> simp
  have hnone : p.tally JobStatus.isTerminal v.space = 0 := by
    refine List.countP_eq_zero.mpr (fun j hj => ?_)
    have hjob : v.space.jobStatus j = some .pending ∨ v.space.jobStatus j = some .ready ∨
      v.space.jobStatus j = some .queued := h.untouched j hj
    rcases hjob with hjob | hjob | hjob <;> simp [hjob, JobStatus.isTerminal]
  refine ⟨h.coherent, fun j => ?_, .inl ?_, ?_, ?_, ?_, ?_, ?_, fun hlimit => ?_,
    fun _ j => ⟨?_, ?_, ?_⟩⟩
  · rw [h.stages j]
    split
    · rename_i hqueued
      exact .inr ⟨.queued, .queued, rfl, hqueued, rfl⟩
    · exact .inl rfl
  · exact congrArg Counters.status h.counters
  · rw [h.counters]
  · rw [h.counters]
  · rw [h.counters, hnone]
    rfl
  · rw [hnone]
    exact List.length_pos_of_ne_nil p.nonempty
  · rw [h.counters]
  · rw [h.counters]
    exact h.capped hlimit
  all_goals
    intro hst
    have hcases := hstatus j _ hst
    simp at hcases

theorem Simulated.inv {c : Call} {e : Env} {w : World} {x : Served} {id : WorkflowIdentity}
    {v' : WorkflowView} (h : Inv p v) (hsim : Simulated c e w x id v v') : Inv p v' := by
  rcases hsim with ⟨rfl, -⟩ | ⟨-, hstep⟩
  · exact h
  · exact h.step hstep

theorem Inv.tally_active_le (h : Inv p v) (hlimit : 0 ≤ p.limit) :
    (p.tally JobStatus.isActive v.space : Int) ≤ p.limit := by
  rcases h with h | h
  · exact h.slots.trans (h.capped hlimit)
  · exact h.capped hlimit

/-- The dependencies of PENDING jobs are counted right in a workflow that is not closed. -/
theorem Inv.remaining_eq (h : Inv p v) (hstatus : v.status = some .ready ∨ v.status = some .running)
    {j : String} (hj : v.jobStatus j = some .pending) :
    v.space.remaining j = p.openDeps v.space j ∧ 1 ≤ p.openDeps v.space j := by
  rcases h with h | h
  · exact h.coherent.pending j hj
  · rcases hstatus with hready | hrunning
    · exact absurd hj ((h.idle hready).2 j)
    · exact absurd hrunning h.closed

end Start

section Concurrency

/-- The jobs of the request that occupy a slot: those that are QUEUED, PENDING_EXECUTION or
RUNNING. -/
def WorkflowRequest.occupied (req : WorkflowRequest) (ks : WorkflowKeyspace) : Nat :=
  req.jobs.countP (fun job => (ks.jobStatus job.jobId).any JobStatus.isActive)

variable {svc : Service} {req : WorkflowRequest} {log : Log} {σ : Pool Call Call.Reply World}

theorem Service.Plans.occupied_eq {p : Plan} (h : svc.Plans req p) (ks : WorkflowKeyspace) :
    req.occupied ks = p.tally JobStatus.isActive ks := by
  rw [Plan.tally, h.ids, List.countP_map]
  rfl

/-- The invariant of a workflow holds in every state of its execution. -/
theorem Executes.exists_inv (h : Executes Plain svc req log σ) :
    ∃ p, svc.Plans req p ∧ ∃ T, Inv p (view req.identity σ.world T) := by
  obtain ⟨p, hp, hrule⟩ := h.invariant_steps
  obtain ⟨⟨T, -, hinv⟩, -⟩ := hrule (Inv p) (fun _ => True) (fun _ => True)
    (fun v hfresh => .inl hfresh.strong)
    (fun _ _ _ _ hinv _ _ hsim => ⟨hsim.inv hinv, trivial⟩) (fun _ _ => trivial)
  exact ⟨p, hp, T, hinv⟩

/-- A workflow occupies at most as many slots as its client's policy allows. -/
theorem occupied_le_maxConcurrentJobs {client : ClientConfig} (h : Executes Plain svc req log σ)
    (hclient : svc.client req.clientId = some client) (hlimit : 0 ≤ client.policy.maxConcurrentJobs) :
    (req.occupied (σ.world.redis.workflows req.identity) : Int) ≤
      client.policy.maxConcurrentJobs := by
  obtain ⟨p, hp, T, hinv⟩ := h.exists_inv
  rw [hp.occupied_eq, ← hp.limit hclient]
  exact hinv.tally_active_le ((hp.limit hclient).symm ▸ hlimit)

def threeJobs : WorkflowRequest := requestOf [{ jobId := "a" }, { jobId := "b" }, { jobId := "c" }]

/-- With two slots for three jobs, one of them running and one queued, both slots are taken. -/
theorem occupied_threeJobs :
    threeJobs.occupied ((played (serviceOf 2) threeJobs
      (pass .scheduler 5 ++ pass .worker 2)).2.world.redis.workflows threeJobs.identity) = 2 ∧
    (threeJobs.occupied ((played (serviceOf 2) threeJobs
      (pass .scheduler 5 ++ pass .worker 2)).2.world.redis.workflows threeJobs.identity) : Int) ≤
        2 := by
  have hrun : Executes Plain (serviceOf 2) threeJobs _ _ :=
    executes_played (pass .scheduler 5 ++ pass .worker 2) (requestOf_plain _) (by decide +kernel)
  have hclient : (serviceOf 2).client threeJobs.clientId =
    some { policy := { maxConcurrentJobs := 2 } } := rfl
  exact ⟨by decide +kernel, occupied_le_maxConcurrentJobs hrun hclient (by decide)⟩

/-- Whichever commands fail, a RUNNING workflow counts the jobs that ended, has some left, and has
reserved every occupied slot. -/
theorem running_counters_exact (h : Executes Plain svc req log σ)
    (hrunning : (σ.world.redis.workflows req.identity).status = some .running) :
    let ks := σ.world.redis.workflows req.identity
    ks.counters.completed = req.jobs.countP (fun job => (ks.jobStatus job.jobId).any (·.isTerminal)) ∧
      ks.counters.completed < ks.counters.total ∧ ks.counters.total = req.jobs.length ∧
      req.occupied ks ≤ ks.counters.reserved ∧
      ∀ j, j ∈ ks.waitingReady.members ↔ ks.jobStatus j = some .ready := by
  obtain ⟨p, hp, T, hinv⟩ := h.exists_inv
  have hstrong := hinv.strong_of_running hrunning
  refine ⟨?_, ?_, ?_, ?_, hstrong.coherent.waiting⟩
  · refine hstrong.completed.trans ?_
    rw [Plan.tally, hp.ids, List.countP_map]
    rfl
  · have hunfinished := hstrong.unfinished
    exact lt_of_eq_of_lt hstrong.completed (hstrong.total ▸ by omega)
  · refine hstrong.total.trans ?_
    rw [hp.ids, List.length_map]
  · exact hp.occupied_eq _ ▸ hstrong.slots

theorem running_counters_threeJobs :
    let ks := (played (serviceOf 2) threeJobs
      (pass .scheduler 5 ++ pass .worker 2)).2.world.redis.workflows threeJobs.identity
    ks.status = some .running ∧ threeJobs.occupied ks = 2 ∧
      ks.counters.completed < ks.counters.total ∧ threeJobs.occupied ks ≤ ks.counters.reserved := by
  have hrun : Executes Plain (serviceOf 2) threeJobs _ _ :=
    executes_played (pass .scheduler 5 ++ pass .worker 2) (requestOf_plain _) (by decide +kernel)
  obtain ⟨-, hopen, -, hslots, -⟩ := running_counters_exact hrun (by decide +kernel)
  exact ⟨by decide +kernel, by decide +kernel, hopen, hslots⟩

end Concurrency

section Unlocking

/-- The jobs that the step lets out of PENDING, to be READY or QUEUED, depend on COMPLETED jobs
only. -/
def Plan.Unlocks (p : Plan) (ks ks' : WorkflowKeyspace) : Prop :=
  ∀ i, ks.jobStatus i = some .pending →
    ks'.jobStatus i = some .ready ∨ ks'.jobStatus i = some .queued →
    ∀ d ∈ p.deps i, ks'.jobStatus d = some .completed

variable {p : Plan} {x : Served} {v v' : WorkflowView} {j : String} {ks ks' : WorkflowKeyspace}

theorem Plan.unlocks_of_pending (p : Plan) (h : ∀ i, ks.jobStatus i = some .pending →
    ks'.jobStatus i ≠ some .ready ∧ ks'.jobStatus i ≠ some .queued) : p.Unlocks ks ks' :=
  fun i hi hout => hout.elim (fun hr => absurd hr (h i hi).1) (fun hq => absurd hq (h i hi).2)

theorem Plan.unlocks_of_same (p : Plan) (h : ∀ i, ks'.jobStatus i = ks.jobStatus i) :
    p.Unlocks ks ks' :=
  p.unlocks_of_pending (fun i hi => by rw [h i, hi]; exact ⟨nofun, nofun⟩)

/-- A step in which one job gets a status that no PENDING job gets from its dependencies. -/
theorem Plan.unlocks_of_jobStatus (p : Plan) {st : JobStatus}
    (h : ∀ i, ks'.jobStatus i = if i = j then some st else ks.jobStatus i)
    (hst : (st ≠ .ready ∧ st ≠ .queued) ∨ ks.jobStatus j ≠ some .pending) : p.Unlocks ks ks' := by
  refine p.unlocks_of_pending (fun i hi => ?_)
  rw [h i]
  by_cases hij : i = j
  · subst hij
    have hne := hst.resolve_right (fun hne => hne hi)
    simp [hne.1, hne.2]
  · simp [hij, hi]

theorem Plan.Unlocks.promoteWaiting (h : p.Unlocks ks ks')
    (hwaiting : ∀ i, i ∈ ks'.waitingReady.members → ks'.jobStatus i = some .ready) :
    p.Unlocks ks ks'.promoteWaiting.2 := by
  intro i hi hout d hd
  have hbefore : ks'.jobStatus i = some .ready ∨ ks'.jobStatus i = some .queued := by
    by_cases hmem : i ∈ ks'.waitingReady.members
    · exact .inl (hwaiting i hmem)
    · rwa [jobStatus_promoteWaiting_of_not_mem hmem] at hout
  have hdone := h i hi hbefore d hd
  rw [jobStatus_promoteWaiting_of_not_mem, hdone]
  intro hmem
  cases hdone.symm.trans (hwaiting d hmem)

/-- The success script makes those successors READY whose last open dependency completes. -/
theorem Coherent.finishJob_unlocks {ready : List String} (h : Coherent p ks) (hj : j ∈ p.ids)
    (hopen : ks.jobStatus j ≠ some .completed)
    (hfinished : Finished j ks ready ks') : p.Unlocks ks ks' := by
  intro i hi hout
  have hij : i ≠ j := by
    rintro rfl
    rw [hfinished.self] at hout
    rcases hout with hout | hout <;> cases hout
  rw [hfinished.jobStatus i hij] at hout
  split at hout
  · rename_i hlast
    have hdep := ((h.successors j hj hopen).2 i).mp hlast.1
    have hcount := p.openDeps_complete hdep hopen hfinished.self
      (fun _ hd => hfinished.completed_iff hd)
    obtain ⟨hremaining, -⟩ := h.pending i hi
    have hle := hlast.2.2
    exact p.openDeps_eq_zero_iff.mp (by omega)
  · rw [hi] at hout
    rcases hout with hout | hout <;> cases hout

theorem Strong.success_unlocks (h : Strong p v) {now : Int} {done : Bool} {rest : Multiset Stage}
    {promoted : Option (String × Int)} {ready : List String}
    (hs : v.stages j = .reported .completed ::ₘ rest)
    (hcounted : (v.space.completeSuccessfulJob now j).1 = .counted done promoted ready) :
    p.Unlocks v.space (v.space.completeSuccessfulJob now j).2 := by
  obtain ⟨hst, hfinished⟩ := h.finished hs
  have hopen : v.jobStatus j ≠ some .completed := fun hc => by cases hst.symm.trans hc
  have hwait : v.jobStatus j ≠ some .ready := fun hc => by cases hst.symm.trans hc
  have hunlocks := h.coherent.finishJob_unlocks (h.mem_ids hst) hopen hfinished
  have hcoherent := h.coherent.finishJob (h.mem_ids hst) hopen hwait hfinished
  have hcount : p.Unlocks v.space (v.space.finishJob j).2.countCompleted := hunlocks
  exact completeSuccessfulJob_rule hcounted hcount hunlocks
    (hcount.promoteWaiting (fun i hi => (hcoherent.waiting i).mp hi))

theorem trySetJobToRunning_unlocks (p : Plan) (now : Int) (j : String) (ks : WorkflowKeyspace) :
    p.Unlocks ks (ks.trySetJobToRunning now j).2 := by
  have hstarted := trySetJobToRunning_started now j ks
  generalize ks.trySetJobToRunning now j = r at hstarted
  obtain ⟨result, ks'⟩ := r
  dsimp only at hstarted ⊢
  cases hstarted with
  | canceledBefore => exact p.unlocks_of_same (fun _ => rfl)
  | wrongJob => exact p.unlocks_of_same (fun _ => rfl)
  | first _ _ _ _ hsame =>
      have hstatus : ∀ i, ks'.jobStatus i = if i = j then some .running else ks.jobStatus i :=
        fun i => (hsame.jobStatus i).trans (jobStatus_setJob ..)
      exact p.unlocks_of_jobStatus hstatus (.inl ⟨nofun, nofun⟩)
  | again =>
      have hstatus : ∀ i, (ks.setJob j (fun h => { h with
          status := some .running, startRunTime := some now })).jobStatus i =
            if i = j then some .running else ks.jobStatus i :=
        fun i => jobStatus_setJob ..
      exact p.unlocks_of_jobStatus hstatus (.inl ⟨nofun, nofun⟩)
  | _ =>
      exact p.unlocks_of_jobStatus (fun i => setJobStatus_jobStatus ks j i .aborted)
        (.inl ⟨nofun, nofun⟩)

theorem completeFailedJob_unlocks (p : Plan) (j : String) (n : Int) (js : List String)
    (ks : WorkflowKeyspace) : p.Unlocks ks (ks.completeFailedJob j n js).2 := by
  by_cases hrun : ks.status = some .running
  · have hfailed : FailedRunning j js ks _ _ :=
      completeFailedJob_running n hrun
    refine p.unlocks_of_pending (fun i hi => ?_)
    by_cases hij : i = j
    · subst hij
      rw [hfailed.self]
      exact ⟨nofun, nofun⟩
    · rw [hfailed.jobStatus i hij, hi]
      split <;> exact ⟨nofun, nofun⟩
  · have hfailed : FailedOther j ks _ (ks.completeFailedJob j n js).2 :=
      completeFailedJob_other n hrun
    exact p.unlocks_of_jobStatus hfailed.jobStatus (.inl ⟨nofun, nofun⟩)

theorem Inv.retry_unlocks (h : Inv p v) {st : JobStatus} {rest : Multiset Stage}
    (hs : v.stages j = .reported st ::ₘ rest) (n : Int) :
    p.Unlocks v.space (v.space.scheduleJobRetry j n).2 := by
  have hstatus := fun i => jobStatus_delayJob j i n v.space
  have hdelay : p.Unlocks v.space (v.space.delayJob j n) :=
    p.unlocks_of_jobStatus hstatus (.inl ⟨nofun, nofun⟩)
  rcases scheduleJobRetry_cases j n v.space with ⟨heq, -⟩ | ⟨hrun, -, heq⟩
  · rw [heq]
    exact hdelay
  · rw [heq]
    have hstrong := h.strong_of_running hrun
    refine hdelay.promoteWaiting (fun i hi => ?_)
    have hready := (hstrong.coherent.waiting i).mp hi
    rw [hstatus i, if_neg, hready]
    -- a job that waits for a slot has no holder
    rintro rfl
    have hnone := hstrong.tokens.eq_zero (.inr hready)
    rw [hs] at hnone
    exact Multiset.cons_ne_zero hnone

theorem Inv.promote_unlocks (h : Inv p v) (j : String) :
    p.Unlocks v.space (v.space.promoteRetryJob j).2 := by
  have hpromoted := promoteRetryJob_promoted j v.space
  generalize v.space.promoteRetryJob j = r at hpromoted
  obtain ⟨promoted, ks'⟩ := r
  dsimp only at hpromoted ⊢
  have hnot : v.space.jobStatus j = some .retryDelay ∨ v.space.jobStatus j = some .ready →
      v.space.jobStatus j ≠ some .pending := by
    rintro (hj | hj) <;> rw [hj] <;> exact nofun
  cases hpromoted with
  | missing => exact p.unlocks_of_same (fun _ => rfl)
  | refused => exact p.unlocks_of_same (fun _ => rfl)
  | stopped =>
      exact p.unlocks_of_jobStatus (fun i =>
        setJobStatus_jobStatus v.space j i .aborted) (.inl ⟨nofun, nofun⟩)
  | queued n hrun hjob =>
      exact p.unlocks_of_jobStatus (fun i =>
        setJobStatus_jobStatus v.space j i .queued) (.inr (hnot hjob))
  | waiting hrun hjob =>
      exact p.unlocks_of_jobStatus (fun i =>
        setJobStatus_jobStatus v.space j i .ready) (.inr (hnot hjob))
  | swapped hrun hjob =>
      have hwait : p.Unlocks v.space (v.space.waitAgain j) :=
        p.unlocks_of_jobStatus (fun i =>
          setJobStatus_jobStatus v.space j i .ready) (.inr (hnot hjob))
      refine hwait.promoteWaiting (fun i hi => ?_)
      rw [WorkflowKeyspace.waitAgain, SortedSet.mem_members_add] at hi
      refine (setJobStatus_jobStatus v.space j i .ready).trans ?_
      split
      · rfl
      · rename_i hij
        exact ((h.strong_of_running hrun).coherent.waiting i).mp (hi.resolve_left hij)

theorem Inv.unlocks {l : List String} (h : Inv p v) (hstep : WStep x v l v') :
    p.Unlocks v.space v'.space := by
  cases hstep with
  | claim => exact p.unlocks_of_jobStatus (fun i =>
      setJobStatus_jobStatus v.space _ i .pendingExecution) (.inl ⟨(by simp), (by simp)⟩)
  | start => exact trySetJobToRunning_unlocks p _ _ v.space
  | expire _ _ hexpired =>
      obtain ⟨-, -, hks⟩ := completeSuccessfulJob_expired hexpired
      refine p.unlocks_of_same (fun i => ?_)
      dsimp only [WorkflowView.setStages]
      rw [hks]
      rfl
  | success _ hs hcounted =>
      rw [enqueue_space]
      have hrun := (completeSuccessfulJob_counted hcounted).1
      exact (h.strong_of_running hrun).success_unlocks hs hcounted
  | fail =>
      rw [dropCanceled_space]
      exact completeFailedJob_unlocks p _ _ _ v.space
  | mark => exact p.unlocks_of_jobStatus (fun i =>
      setJobStatus_jobStatus v.space _ i .aborted) (.inl ⟨(by simp), (by simp)⟩)
  | retry _ _ hs =>
      rw [enqueue_space, delay_space]
      exact h.retry_unlocks hs _
  | promote =>
      rw [enqueue_space]
      exact h.promote_unlocks _
  | erase _ _ herased =>
      cases herased with
      | job k =>
          refine p.unlocks_of_pending (fun i hi => ?_)
          by_cases hik : i = k
          · subst hik
            simp [WorkflowKeyspace.jobStatus]
          · simp only [WorkflowKeyspace.jobStatus, Function.update_of_ne hik] at hi ⊢
            rw [hi]
            exact ⟨(by simp), (by simp)⟩
      | _ => exact p.unlocks_of_same (fun _ => rfl)
  | _ => exact p.unlocks_of_same (fun _ => rfl)

theorem Simulated.unlocks {c : Call} {e : Env} {w : World} {id : WorkflowIdentity} (h : Inv p v)
    (hsim : Simulated c e w x id v v') : p.Unlocks v.space v'.space := by
  rcases hsim with ⟨rfl, -⟩ | ⟨-, hstep⟩
  · exact p.unlocks_of_same (fun _ => rfl)
  · exact h.unlocks hstep

end Unlocking

section Dependencies

/-- How many of the jobs that a job depends on are not COMPLETED. -/
def JobRequest.openDependencies (job : JobRequest) (ks : WorkflowKeyspace) : Nat :=
  job.dependsOn.countP (fun d => decide (ks.jobStatus d ≠ some .completed))

variable {svc : Service} {req : WorkflowRequest} {log : Log} {σ : Pool Call Call.Reply World}

theorem Service.Plans.deps_job {p : Plan} (h : svc.Plans req p) {job : JobRequest}
    (hjob : job ∈ req.jobs) : p.deps job.jobId = job.dependsOn := by
  obtain ⟨client, -, hwf, rfl⟩ := h
  exact req.dependsOn_eq hwf.ids_nodup hjob

theorem Service.Plans.openDeps_job {p : Plan} (h : svc.Plans req p) {job : JobRequest}
    (hjob : job ∈ req.jobs) (ks : WorkflowKeyspace) :
    p.openDeps ks job.jobId = job.openDependencies ks := by
  rw [Plan.openDeps, h.deps_job hjob]
  rfl

/-- As long as the workflow is READY or RUNNING, the counters of its PENDING jobs are exact and not
zero. No step makes a job READY or QUEUED before all that it depends on is COMPLETED, and no job
whose dependencies are COMPLETED stays PENDING. -/
theorem remainingDependencies_exact (h : Executes Plain svc req log σ) :
    (∀ job ∈ req.jobs,
      (σ.world.redis.workflows req.identity).status = some .ready ∨
        (σ.world.redis.workflows req.identity).status = some .running →
      (σ.world.redis.workflows req.identity).jobStatus job.jobId = some .pending →
      (σ.world.redis.workflows req.identity).remaining job.jobId =
        job.openDependencies (σ.world.redis.workflows req.identity) ∧
      1 ≤ job.openDependencies (σ.world.redis.workflows req.identity)) ∧
    (∀ ev ∈ log, ∀ job ∈ req.jobs,
      (ev.world.redis.workflows req.identity).jobStatus job.jobId = some .pending →
      (after ev req.identity).jobStatus job.jobId = some .ready ∨
        (after ev req.identity).jobStatus job.jobId = some .queued →
      ∀ d ∈ job.dependsOn, (after ev req.identity).jobStatus d = some .completed) ∧
    (∀ job ∈ req.jobs,
      (σ.world.redis.workflows req.identity).status = some .ready ∨
        (σ.world.redis.workflows req.identity).status = some .running →
      (∀ d ∈ job.dependsOn,
        (σ.world.redis.workflows req.identity).jobStatus d = some .completed) →
      (σ.world.redis.workflows req.identity).jobStatus job.jobId ≠ some .pending) := by
  obtain ⟨p, hp, hrule⟩ := h.invariant_steps
  obtain ⟨⟨T, -, hinv⟩, hlog⟩ := hrule (Inv p)
    (fun ev => p.Unlocks (ev.world.redis.workflows req.identity) (after ev req.identity))
    (fun _ => True)
    (fun v hfresh => .inl hfresh.strong)
    (fun ev v v' _ hinv hbefore hafter hsim =>
      ⟨hsim.inv hinv, hbefore ▸ hafter ▸ hsim.unlocks hinv⟩) (fun _ _ => trivial)
  have hexact : ∀ job ∈ req.jobs,
      (σ.world.redis.workflows req.identity).status = some .ready ∨
        (σ.world.redis.workflows req.identity).status = some .running →
      (σ.world.redis.workflows req.identity).jobStatus job.jobId = some .pending →
      (σ.world.redis.workflows req.identity).remaining job.jobId =
        job.openDependencies (σ.world.redis.workflows req.identity) ∧
      1 ≤ job.openDependencies (σ.world.redis.workflows req.identity) := by
    intro job hjob hstatus hpending
    have heq := hinv.remaining_eq hstatus hpending
    rwa [hp.openDeps_job hjob] at heq
  refine ⟨hexact, fun ev hev job hjob hbefore hafter d hd => ?_, fun job hjob hstatus hall hp => ?_⟩
  · exact hlog ev hev job.jobId hbefore hafter d ((hp.deps_job hjob).symm ▸ hd)
  · have hpos := (hexact job hjob hstatus hp).2
    have hzero : job.openDependencies (σ.world.redis.workflows req.identity) = 0 :=
      List.countP_eq_zero.mpr (fun d hd => by simp [hall d hd])
    omega

def chainedJobs : WorkflowRequest :=
  requestOf [{ jobId := "a" }, { jobId := "b", dependsOn := ["a"] }]

/-- The run in which the first of the two jobs is scheduled, executed and completed: the second one
leaves PENDING, and at that step the first one is COMPLETED. -/
theorem remainingDependencies_chainedJobs :
    ((played (serviceOf 2) chainedJobs (pass .scheduler 5 ++ pass .worker 6 ++
      pass .completionHandler 3)).2.world.redis.workflows chainedJobs.identity).jobStatus "b" =
        some .queued ∧
    ∀ ev ∈ (played (serviceOf 2) chainedJobs (pass .scheduler 5 ++ pass .worker 6 ++
      pass .completionHandler 3)).1, ∀ job ∈ chainedJobs.jobs,
      (ev.world.redis.workflows chainedJobs.identity).jobStatus job.jobId = some .pending →
      (after ev chainedJobs.identity).jobStatus job.jobId = some .ready ∨
        (after ev chainedJobs.identity).jobStatus job.jobId = some .queued →
      ∀ d ∈ job.dependsOn, (after ev chainedJobs.identity).jobStatus d = some .completed := by
  have hrun : Executes Plain (serviceOf 2) chainedJobs _ _ := executes_played (pass .scheduler 5 ++
    pass .worker 6 ++ pass .completionHandler 3) (requestOf_plain _) (by decide +kernel)
  exact ⟨by decide +kernel, (remainingDependencies_exact hrun).2.1⟩

end Dependencies

end FlowPilot
