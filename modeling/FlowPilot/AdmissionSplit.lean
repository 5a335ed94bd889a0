import FlowPilot.AdmissionMirror

/-! The first split of the jobs that are ready. `initialize_runtime_data` takes the ready jobs in the
order of their priorities, queues as many as there are slots and lets the others wait, and says so in
the hashes, in the two sorted sets and in the rows of SQLite alike. -/

namespace FlowPilot

open WorkflowAdmissionService WorkflowRuntimeGenerator

/-- The status of a job is the same in both stores. -/
def InBothStores (id : WorkflowIdentity) (w : World) (j : String) (st : JobStatus) : Prop :=
  (w.redis.workflows id).jobStatus j = some st ∧ w.sqlite.jobStatus ⟨id, j⟩ = some st

/-- The job has a place in the execution queue, scored by its priority. -/
def HasSlot (id : WorkflowIdentity) (w : World) (j : String) (priority : Int) : Prop :=
  ⟨id, j⟩ ∈ w.redis.executionQueue.members ∧ w.redis.executionQueue.score ⟨id, j⟩ = some priority ∧
    InBothStores id w j .queued

/-- The job waits for a slot, scored by its priority. -/
def AwaitsSlot (id : WorkflowIdentity) (w : World) (j : String) (priority : Int) : Prop :=
  j ∈ (w.redis.workflows id).waitingReady.members ∧
    (w.redis.workflows id).waitingReady.score j = some priority ∧ InBothStores id w j .ready

def freeJobs (req : WorkflowRequest) : Nat :=
  req.jobs.countP (fun job => decide (job.dependsOn = []))

def queuedJobs (req : WorkflowRequest) (w : World) : Nat :=
  req.jobs.countP (fun job => decide (⟨req.identity, job.jobId⟩ ∈ w.redis.executionQueue.members))

def heldJobs (req : WorkflowRequest) (w : World) : Nat :=
  req.jobs.countP (fun job => decide ((w.redis.workflows req.identity).jobStatus job.jobId =
    some .pending))

/-- The jobs of a workflow as its admission leaves them. -/
structure InitialSplit (policy : PolicyPlan) (req : WorkflowRequest) (w : World) : Prop where
  free : ∀ job ∈ req.jobs, job.dependsOn = [] →
    (HasSlot req.identity w job.jobId (priorityOf policy job) ∧
      job.jobId ∉ (w.redis.workflows req.identity).waitingReady.members) ∨
    (AwaitsSlot req.identity w job.jobId (priorityOf policy job) ∧
      ⟨req.identity, job.jobId⟩ ∉ w.redis.executionQueue.members)
  held : ∀ job ∈ req.jobs, job.dependsOn ≠ [] → InBothStores req.identity w job.jobId .pending
  members : ∀ j, ⟨req.identity, j⟩ ∈ w.redis.executionQueue.members ∨
    j ∈ (w.redis.workflows req.identity).waitingReady.members →
    ∃ job ∈ req.jobs, job.jobId = j ∧ job.dependsOn = []
  queued : (queuedJobs req w : Int) = min policy.maxConcurrentJobs (freeJobs req)
  counters : ∃ hash, (w.redis.workflows req.identity).hash = some hash ∧
    hash.reservedExecutionSlots = some (queuedJobs req w : Int) ∧
    hash.pendingJobs = some (heldJobs req w : Int) ∧ hash.totalJobs = some (req.jobs.length : Int)
  order : ∀ job ∈ req.jobs, ∀ job' ∈ req.jobs,
    ⟨req.identity, job.jobId⟩ ∈ w.redis.executionQueue.members →
    job'.jobId ∈ (w.redis.workflows req.identity).waitingReady.members →
    priorityOf policy job' ≤ priorityOf policy job

section Keys

variable {svc : Service} {client : ClientConfig} {req : WorkflowRequest} {info linked : JobRuntimeMap}
  {ready : List PrioritizedJob}

theorem waitingReady_foldl_storeJob (recs : List JobRuntimeData) (ks : WorkflowKeyspace) :
    (recs.foldl storeJob ks).waitingReady = ks.waitingReady := by
  induction recs generalizing ks with
  | nil => rfl
  | cons d rest ih =>
      rw [List.foldl_cons, ih]
      rfl

theorem initialSpace_waitingReady (svc : Service) (policy : PolicyPlan) (req : WorkflowRequest)
    (ready : List PrioritizedJob) (info : JobRuntimeMap) :
    (initialSpace svc policy req ready info {}).waitingReady = addMembers .empty
      ((ready.drop (queuedCount policy ready.length)).map RedisDatabase.score) := by
  obtain ⟨payloads, heq, -⟩ := foldl_storePayload req.jobs (storeRuntime {}
    (workflowHash policy req.jobs.length ready.length
      (ready.take (queuedCount policy ready.length)).length)
    (svc.hash.order .jobsRuntimeInfo (markQueued (ready.take (queuedCount policy ready.length)) info))
    (ready.drop (queuedCount policy ready.length)))
  rw [initialSpace, heq, storeRuntime]
  simp only [waitingReady_foldl_storeJob]

theorem Planned.score_eq (h : Planned svc client req info linked ready)
    (hint : client.policy.maxJobPriority < 2 ^ 31)
    (hpriority : ∀ job ∈ req.jobs, 0 ≤ priorityOf client.policy job) {job : JobRequest}
    (hjob : job ∈ req.jobs) {x : PrioritizedJob} (hx : x ∈ ready) (hid : x.jobId = job.jobId) :
    RedisDatabase.score x = (job.jobId, priorityOf client.policy job) := by
  obtain ⟨hle, job', hjob', hid', heq⟩ := (buildJobsRuntimeInfo_prioritized h.built).ofJob x hx
  obtain rfl : job' = job :=
    List.inj_on_of_nodup_map h.wellFormed.ids_nodup hjob' hjob (hid'.trans hid)
  have hnonneg := hpriority job' hjob'
  rw [RedisDatabase.score, hid, ← heq, Int.emod_eq_of_lt (heq ▸ hnonneg) (by omega)]

end Keys

section Split

variable {svc : Service} {client : ClientConfig} {req : WorkflowRequest} {info linked : JobRuntimeMap}
  {ready : List PrioritizedJob} {w w' : World}

/-- What is known of the world when `initialize_runtime_data` has returned true. -/
structure Initialized (svc : Service) (client : ClientConfig) (req : WorkflowRequest)
    (linked : JobRuntimeMap) (ready : List PrioritizedJob) (w w' : World) : Prop where
  space : w'.redis.workflows req.identity = initialSpace svc client.policy req ready linked {}
  queue : w'.redis.executionQueue = addJobs req.identity w.redis.executionQueue
    (ready.take (queuedCount client.policy ready.length))
  ledger : w'.sqlite.ledger req.identity = (w.sqlite.ledger req.identity).setReady
    (queuedNow client ready) (waitingNow client ready)

theorem leads_initialized (hkeys : w.redis.workflows req.identity = {}) :
    Leads (initializeRuntimeData svc client.policy req ready linked) w (fun stored w' =>
      stored = true → Initialized svc client req linked ready w w') := by
  refine Leads.mono ((leads_initializeRuntimeData svc client.policy req ready linked).and
    leads_initializeRuntimeData_ledger) (fun stored w' h hstored => ?_)
  obtain ⟨hvisible, hledger⟩ := h
  replace hvisible := hvisible hstored
  refine ⟨?_, congrArg Visible.executionQueue hvisible, hledger hstored⟩
  refine (congrFun (congrArg Visible.workflows hvisible) req.identity).trans ?_
  refine (Function.update_self ..).trans ?_
  exact congrArg _ hkeys

namespace Initialized

variable (h : Initialized svc client req linked ready w w')

include h

theorem mem_queue_iff (hqueue : ∀ k ∈ w.redis.executionQueue.members, k.identity ≠ req.identity)
    (j : String) :
    ⟨req.identity, j⟩ ∈ w'.redis.executionQueue.members ↔ j ∈ queuedNow client ready := by
  have hnot : (⟨req.identity, j⟩ : JobKey) ∉ w.redis.executionQueue.members :=
    fun hmem => hqueue _ hmem rfl
  rw [h.queue, mem_addJobs, or_iff_right hnot, queuedNow]
  exact and_iff_right rfl

theorem queue_score (hnodup : (ready.map PrioritizedJob.jobId).Nodup)
    (hqueue : ∀ k ∈ w.redis.executionQueue.members, k.identity ≠ req.identity)
    {x : PrioritizedJob} (hx : x ∈ ready.take (queuedCount client.policy ready.length)) :
    w'.redis.executionQueue.score ⟨req.identity, x.jobId⟩ = some (RedisDatabase.score x).2 := by
  have hkeys : ((ready.take (queuedCount client.policy ready.length)).map RedisDatabase.score).map
      (fun m => (⟨req.identity, m.1⟩ : JobKey)) = ((ready.take (queuedCount client.policy
        ready.length)).map PrioritizedJob.jobId).map (fun j => ⟨req.identity, j⟩) := by
    simp only [List.map_map]
    rfl
  rw [h.queue, addJobs]
  refine (SortedSet.score_foldl_addNew (fun m => (⟨req.identity, m.1⟩ : JobKey)) Prod.snd ?_ _
    ?_).1 _ (List.mem_map_of_mem hx)
  · rw [hkeys]
    refine List.Nodup.map (fun i j hij => ?_) ?_
    · exact congrArg JobKey.jobId hij
    · exact hnodup.sublist ((List.take_sublist ..).map _)
  · exact fun m _ hmem => hqueue _ hmem rfl

theorem waiting_score (hnodup : (ready.map PrioritizedJob.jobId).Nodup) {x : PrioritizedJob}
    (hx : x ∈ ready.drop (queuedCount client.policy ready.length)) :
    (w'.redis.workflows req.identity).waitingReady.score x.jobId =
      some (RedisDatabase.score x).2 := by
  rw [h.space, initialSpace_waitingReady, addMembers]
  refine (SortedSet.score_foldl_addNew Prod.fst Prod.snd ?_ _ ?_).1 _ (List.mem_map_of_mem hx)
  · rw [List.map_map]
    exact hnodup.sublist ((List.drop_sublist ..).map _)
  · exact fun m _ hmem => absurd hmem List.not_mem_nil

theorem sqlite_jobStatus (j : String) : w'.sqlite.jobStatus ⟨req.identity, j⟩ =
    if j ∈ queuedNow client ready then some .queued
    else if j ∈ waitingNow client ready then some .ready
    else w.sqlite.jobStatus ⟨req.identity, j⟩ :=
  congrFun (congrArg Ledger.job h.ledger) j

end Initialized

/-- Jobs of the request that a list names once each are as many as the list is long. -/
theorem countP_eq_length {jobs : List JobRequest} (hids : (jobs.map JobRequest.jobId).Nodup)
    {p : JobRequest → Bool} {js : List String} (hjs : js.Nodup)
    (h : ∀ j, j ∈ js ↔ ∃ job ∈ jobs, job.jobId = j ∧ p job = true) : jobs.countP p = js.length := by
  rw [List.countP_eq_length_filter, ← List.length_map JobRequest.jobId]
  refine List.Perm.length_eq ((List.perm_ext_iff_of_nodup ?_ hjs).mpr (fun j => ?_))
  · exact hids.sublist (List.filter_sublist.map _)
  · rw [h j, List.mem_map]
    constructor
    · rintro ⟨job, hjob, rfl⟩
      obtain ⟨hmem, hp⟩ := List.mem_filter.mp hjob
      exact ⟨job, hmem, rfl, hp⟩
    · rintro ⟨job, hmem, rfl, hp⟩
      exact ⟨job, List.mem_filter.mpr ⟨hmem, hp⟩, rfl⟩

theorem queuedNow_append_waitingNow (client : ClientConfig) (ready : List PrioritizedJob) :
    queuedNow client ready ++ waitingNow client ready = ready.map PrioritizedJob.jobId := by
  rw [queuedNow, waitingNow, ← List.map_append, List.take_append_drop]

section Jobs

variable (h : Planned svc client req info linked ready)

include h

theorem Planned.queued_disjoint_waiting :
    (queuedNow client ready).Disjoint (waitingNow client ready) := by
  refine List.disjoint_of_nodup_append ?_
  rw [queuedNow_append_waitingNow]
  exact h.ready_nodup

theorem Planned.dependsOn_eq_nil_iff {job : JobRequest} (hjob : job ∈ req.jobs) :
    job.dependsOn = [] ↔
      job.jobId ∈ queuedNow client ready ∨ job.jobId ∈ waitingNow client ready := by
  rw [← List.mem_append, queuedNow_append_waitingNow, h.mem_ready]
  constructor
  · exact fun hnil => ⟨job, hjob, rfl, hnil⟩
  · rintro ⟨job', hjob', hid, hnil⟩
    rwa [List.inj_on_of_nodup_map h.wellFormed.ids_nodup hjob' hjob hid] at hnil

theorem Planned.countP_queued :
    req.jobs.countP (fun job => decide (job.jobId ∈ queuedNow client ready)) =
      (queuedNow client ready).length := by
  refine countP_eq_length h.wellFormed.ids_nodup ?_ (fun j => ?_)
  · rw [queuedNow, List.map_take]
    exact h.ready_nodup.sublist (List.take_sublist ..)
  · simp only [decide_eq_true_eq]
    constructor
    · intro hj
      have hmem : j ∈ ready.map PrioritizedJob.jobId := by
        rw [← queuedNow_append_waitingNow]
        exact List.mem_append_left _ hj
      obtain ⟨job, hjob, rfl, -⟩ := (h.mem_ready j).mp hmem
      exact ⟨job, hjob, rfl, hj⟩
    · rintro ⟨job, -, rfl, hj⟩
      exact hj

theorem Planned.freeJobs_eq : freeJobs req = ready.length := by
  rw [← List.length_map PrioritizedJob.jobId]
  refine countP_eq_length h.wellFormed.ids_nodup h.ready_nodup (fun j => ?_)
  simp only [decide_eq_true_eq]
  exact h.mem_ready j

theorem Planned.priority_le {job job' : JobRequest} (hjob : job ∈ req.jobs) (hjob' : job' ∈ req.jobs)
    (hq : job.jobId ∈ queuedNow client ready) (hwait : job'.jobId ∈ waitingNow client ready) :
    priorityOf client.policy job' ≤ priorityOf client.policy job := by
  obtain ⟨hsorted, hofJob⟩ := buildJobsRuntimeInfo_prioritized h.built
  have hpriority : ∀ {i : JobRequest}, i ∈ req.jobs → ∀ x ∈ ready, x.jobId = i.jobId →
      x.priority = priorityOf client.policy i := by
    intro i hi x hx hid
    obtain ⟨-, i', hi', hid', heq⟩ := hofJob x hx
    rwa [List.inj_on_of_nodup_map h.wellFormed.ids_nodup hi' hi (hid'.trans hid)] at heq
  obtain ⟨x, hx, hid⟩ := List.mem_map.mp hq
  obtain ⟨y, hy, hid'⟩ := List.mem_map.mp hwait
  rw [← hpriority hjob x (List.mem_of_mem_take hx) hid,
    ← hpriority hjob' y (List.mem_of_mem_drop hy) hid']
  rw [← List.take_append_drop (queuedCount client.policy ready.length) ready] at hsorted
  exact (List.pairwise_append.mp hsorted).2.2 x hx y hy

end Jobs

theorem Initialized.initialSplit (h : Initialized svc client req linked ready w w')
    (hplanned : Planned svc client req info linked ready)
    (hlimit : 0 ≤ client.policy.maxConcurrentJobs) (hint : client.policy.maxJobPriority < 2 ^ 31)
    (hpriority : ∀ job ∈ req.jobs, 0 ≤ priorityOf client.policy job)
    (hqueue : ∀ k ∈ w.redis.executionQueue.members, k.identity ≠ req.identity)
    (hrows : ∀ job ∈ req.jobs, w.sqlite.jobStatus ⟨req.identity, job.jobId⟩ = some .pending) :
    InitialSplit client.policy req w' := by
  have hkeys : InitialKeys client req ready (w'.redis.workflows req.identity) :=
    h.space ▸ hplanned.initialKeys
  have hapart := hplanned.queued_disjoint_waiting
  have hnodup := hplanned.ready_nodup
  have hmember := h.mem_queue_iff hqueue
  have hqueued : queuedJobs req w' = (queuedNow client ready).length := by
    rw [← hplanned.countP_queued, queuedJobs]
    simp only [hmember]
  refine ⟨fun job hjob hnil => ?_, fun job hjob hne => ?_, fun j hj => ?_, ?_, ?_,
    fun job hjob job' hjob' hq hwait => ?_⟩
  · rcases (hplanned.dependsOn_eq_nil_iff hjob).mp hnil with hq | hwait
    · obtain ⟨x, hx, hid⟩ := List.mem_map.mp hq
      refine .inl ⟨⟨(hmember _).mpr hq, ?_, ?_, ?_⟩, fun hmem => ?_⟩
      · rw [← hid, h.queue_score hnodup hqueue hx,
          hplanned.score_eq hint hpriority hjob (List.mem_of_mem_take hx) hid]
      · rw [hkeys.jobStatus hjob, if_pos hq]
      · rw [h.sqlite_jobStatus, if_pos hq]
      · exact hapart hq ((hkeys.waiting _).mp hmem)
    · have hq : job.jobId ∉ queuedNow client ready := fun hq => hapart hq hwait
      obtain ⟨x, hx, hid⟩ := List.mem_map.mp hwait
      refine .inr ⟨⟨(hkeys.waiting _).mpr hwait, ?_, ?_, ?_⟩, fun hmem => ?_⟩
      · rw [← hid, h.waiting_score hnodup hx,
          hplanned.score_eq hint hpriority hjob (List.mem_of_mem_drop hx) hid]
      · rw [hkeys.jobStatus hjob, if_neg hq, if_pos hnil]
      · rw [h.sqlite_jobStatus, if_neg hq, if_pos hwait]
      · exact hq ((hmember _).mp hmem)
  · obtain ⟨hq, hwait⟩ := not_or.mp (mt (hplanned.dependsOn_eq_nil_iff hjob).mpr hne)
    refine ⟨?_, ?_⟩
    · rw [hkeys.jobStatus hjob, if_neg hq, if_neg hne]
    · rw [h.sqlite_jobStatus, if_neg hq, if_neg hwait]
      exact hrows job hjob
  · rw [hmember, hkeys.waiting, ← List.mem_append, queuedNow_append_waitingNow] at hj
    exact (hplanned.mem_ready j).mp hj
  · rw [hqueued, hplanned.freeJobs_eq, queuedNow, List.length_map, List.length_take, queuedCount,
      if_pos hlimit]
    omega
  · have hheld : heldJobs req w' + freeJobs req = req.jobs.length := by
      rw [heldJobs, freeJobs, List.length_eq_countP_add_countP (p := fun job : JobRequest =>
        decide ((w'.redis.workflows req.identity).jobStatus job.jobId = some .pending)) (l := req.jobs)]
      congr 1
      refine List.countP_congr (fun job hjob => ?_)
      rw [hkeys.jobStatus hjob]
      by_cases hnil : job.dependsOn = []
      · by_cases hq : job.jobId ∈ queuedNow client ready <;> simp [hnil, hq]
      · have hq := (not_or.mp (mt (hplanned.dependsOn_eq_nil_iff hjob).mpr hnil)).1
        simp [hnil, hq]
    refine ⟨_, hkeys.hash, congrArg (fun n : Nat => some (n : Int)) hqueued.symm, ?_, rfl⟩
    refine congrArg some ?_
    rw [hplanned.freeJobs_eq] at hheld
    omega
  · rw [hmember] at hq
    rw [hkeys.waiting] at hwait
    exact hplanned.priority_le hjob hjob' hq hwait

/-- For every workflow that passed the checks of admission, with a limit that is not negative and
priorities that are not negative, `initialize_runtime_data` that finds no keys and no queue members of
the workflow and PENDING rows, and returns true, leaves the split that `InitialSplit` describes.
Priorities are machine integers, and so is the largest one that the policy allows. -/
theorem initializeRuntimeData_splits (hplanned : Planned svc client req info linked ready)
    (hlimit : 0 ≤ client.policy.maxConcurrentJobs) (hint : client.policy.maxJobPriority < 2 ^ 31)
    (hpriority : ∀ job ∈ req.jobs, 0 ≤ priorityOf client.policy job)
    (hkeys : w.redis.workflows req.identity = {})
    (hqueue : ∀ k ∈ w.redis.executionQueue.members, k.identity ≠ req.identity)
    (hrows : ∀ job ∈ req.jobs, w.sqlite.jobStatus ⟨req.identity, job.jobId⟩ = some .pending)
    (env : Nat → Env) (hstored : Prog.run Call.exec env
      (initializeRuntimeData svc client.policy req ready linked) w = (true, w')) :
    InitialSplit client.policy req w' := by
  have hleads : Leads (initializeRuntimeData svc client.policy req ready linked) w (fun stored w' =>
      stored = true → Initialized svc client req linked ready w w') := leads_initialized hkeys
  have hrun := hleads.run env
  rw [hstored] at hrun
  exact (hrun rfl).initialSplit hplanned hlimit hint hpriority hqueue hrows

/-- Two free jobs of different priority and one that depends on the first. -/
def contendedJobs : WorkflowRequest :=
  requestOf [{ jobId := "a", priority := some 1 }, { jobId := "b", priority := some 7 },
    { jobId := "c", dependsOn := ["a"] }]

/-- The world in which only the rows of the jobs exist. -/
def contendedRows : World where
  sqlite := { jobs := contendedJobs.jobs.map (fun job =>
    { jobUuid := 0, key := ⟨contendedJobs.identity, job.jobId⟩, status := .pending }) }

/-- With one slot, the job of the higher priority is queued. -/
theorem initializeRuntimeData_splits_contended : ∃ info linked ready w',
    Planned (serviceOf 1) { policy := { maxConcurrentJobs := 1 } } contendedJobs info linked ready ∧
    Prog.run Call.exec (fun _ => {}) (initializeRuntimeData (serviceOf 1)
      { maxConcurrentJobs := 1 } contendedJobs ready linked) contendedRows = (true, w') ∧
    w'.redis.executionQueue.members = [⟨contendedJobs.identity, "b"⟩] ∧
    InitialSplit { maxConcurrentJobs := 1 } contendedJobs w' := by
  have hplanned : Planned (serviceOf 1) { policy := { maxConcurrentJobs := 1 } } contendedJobs _ _ _ :=
    ⟨rfl, rfl⟩
  refine ⟨_, _, _, _, hplanned, rfl, by decide +kernel, ?_⟩
  have hqueue : ∀ k ∈ contendedRows.redis.executionQueue.members,
      k.identity ≠ contendedJobs.identity := by decide
  have hrows : ∀ job ∈ contendedJobs.jobs,
      contendedRows.sqlite.jobStatus ⟨contendedJobs.identity, job.jobId⟩ = some .pending := by decide
  exact initializeRuntimeData_splits hplanned (by decide) (by decide) (by decide) rfl hqueue hrows
    (fun _ => {}) rfl

end Split

end FlowPilot
