import FlowPilot.AdmissionEffects
import FlowPilot.WorkflowPlan

/-! The keys of a workflow that was just admitted: they agree with the plan that the request
describes, the first ready jobs are QUEUED and in the execution queue, as many as there are slots, and
nobody has acted on any of them. -/

namespace FlowPilot

open WorkflowAdmissionService WorkflowRuntimeGenerator

/-- The view of a workflow right after its admission. -/
structure Fresh (p : Plan) (v : WorkflowView) : Prop where
  counters : v.space.counters = ⟨some .ready, p.ids.length, p.limit,
    p.tally JobStatus.isActive v.space, 0, none⟩
  coherent : Coherent p v.space
  untouched : ∀ j ∈ p.ids, v.jobStatus j = some .pending ∨ v.jobStatus j = some .ready ∨
    v.jobStatus j = some .queued
  stages : ∀ j, v.stages j = if v.jobStatus j = some .queued then {.queued} else 0
  capped : 0 ≤ p.limit → (p.tally JobStatus.isActive v.space : Int) ≤ p.limit
  spare : v.space.waitingReady.members ≠ [] → p.limit ≤ p.tally JobStatus.isActive v.space
  rows : ∀ j ∈ p.ids, j ∈ v.rows
  recorded : v.recorded = true
  active : v.active = true
  provided : ∀ j ∈ p.ids, v.space.Provided j

/-- The dependencies that the request names for a job. -/
def WorkflowRequest.dependsOn (req : WorkflowRequest) (j : String) : List String :=
  ((req.jobs.find? (fun job => decide (job.jobId = j))).map JobRequest.dependsOn).getD []

theorem WorkflowRequest.dependsOn_eq {req : WorkflowRequest}
    (hnodup : (req.jobs.map JobRequest.jobId).Nodup) {job : JobRequest} (hjob : job ∈ req.jobs) :
    req.dependsOn job.jobId = job.dependsOn := by
  obtain ⟨found, hfound⟩ : ∃ found,
      req.jobs.find? (fun x => decide (x.jobId = job.jobId)) = some found := by
    rw [← Option.isSome_iff_exists, List.find?_isSome]
    exact ⟨job, hjob, decide_eq_true rfl⟩
  have hid : found.jobId = job.jobId := of_decide_eq_true
    (List.find?_some (p := fun x : JobRequest => decide (x.jobId = job.jobId)) hfound)
  rw [dependsOn, hfound, List.inj_on_of_nodup_map hnodup (List.mem_of_find?_eq_some hfound) hjob hid]
  rfl

theorem WorkflowRequest.dependsOn_of_not_mem {req : WorkflowRequest} {j : String}
    (hj : j ∉ req.jobs.map JobRequest.jobId) : req.dependsOn j = [] := by
  have hnone : req.jobs.find? (fun x => decide (x.jobId = j)) = none := by
    rw [List.find?_eq_none]
    intro job hjob hid
    exact hj (List.mem_map.mpr ⟨job, hjob, of_decide_eq_true hid⟩)
  rw [dependsOn, hnone]
  rfl

def WorkflowRequest.plan (req : WorkflowRequest) (h : WellFormed req.jobs) (limit : Int) : Plan where
  ids := req.jobs.map JobRequest.jobId
  deps := req.dependsOn
  limit := limit
  nodup := h.ids_nodup
  nonempty := fun hnil => h.nonempty (List.map_eq_nil_iff.mp hnil)
  deps_nodup := fun j => by
    by_cases hj : j ∈ req.jobs.map JobRequest.jobId
    · obtain ⟨job, hjob, rfl⟩ := List.mem_map.mp hj
      rw [req.dependsOn_eq h.ids_nodup hjob]
      exact h.deps_nodup job hjob
    · rw [req.dependsOn_of_not_mem hj]
      exact List.nodup_nil
  deps_known := fun j d hd => by
    by_cases hj : j ∈ req.jobs.map JobRequest.jobId
    · obtain ⟨job, hjob, rfl⟩ := List.mem_map.mp hj
      rw [req.dependsOn_eq h.ids_nodup hjob] at hd
      exact ⟨hj, h.deps_known job hjob d hd⟩
    · rw [req.dependsOn_of_not_mem hj] at hd
      cases hd

section Space

/-- The keys after the records of all jobs are stored. -/
structure StoredAll (recs : List JobRuntimeData) (ks ks' : WorkflowKeyspace) : Prop where
  hash : ks'.hash = ks.hash
  waiting : ks'.waitingReady = ks.waitingReady
  payloads : ks'.payloads = ks.payloads
  job : ∀ d ∈ recs, ks'.jobs d.jobId = some (RedisDatabase.jobHash d) ∧
    ks'.successors d.jobId = ks.successors d.jobId ++ d.successors
  other : ∀ j, j ∉ recs.map JobRuntimeData.jobId → ks'.jobs j = ks.jobs j

theorem foldl_storeJob {recs : List JobRuntimeData} (h : (recs.map JobRuntimeData.jobId).Nodup)
    (ks : WorkflowKeyspace) : StoredAll recs ks (recs.foldl storeJob ks) ∧
      ∀ j, j ∉ recs.map JobRuntimeData.jobId →
        (recs.foldl storeJob ks).successors j = ks.successors j := by
  induction recs generalizing ks with
  | nil => exact ⟨⟨rfl, rfl, rfl, by simp, fun _ _ => rfl⟩, fun _ _ => rfl⟩
  | cons d rest ih =>
      obtain ⟨hd, hrest⟩ := List.nodup_cons.mp h
      obtain ⟨hstored, hsuccessors⟩ := ih hrest (storeJob ks d)
      rw [List.foldl_cons]
      have hjobs : ∀ j, j ≠ d.jobId → (storeJob ks d).jobs j = ks.jobs j := fun j hj =>
        WorkflowKeyspace.setJob_jobs_of_ne ks (fun _ => RedisDatabase.jobHash d) d.jobId j hj
      have hsucc : ∀ j, j ≠ d.jobId → (storeJob ks d).successors j = ks.successors j :=
        fun j hj => Function.update_of_ne hj ..
      refine ⟨⟨hstored.hash, hstored.waiting, hstored.payloads, fun e he => ?_, fun j hj => ?_⟩,
        fun j hj => ?_⟩
      · rcases List.mem_cons.mp he with rfl | he
        · rw [hstored.other e.jobId hd, hsuccessors e.jobId hd]
          exact ⟨WorkflowKeyspace.setJob_jobs_self ks (fun _ => RedisDatabase.jobHash e) e.jobId,
            Function.update_self ..⟩
        · have hne : e.jobId ≠ d.jobId := fun heq => hd (heq ▸ List.mem_map_of_mem he)
          rw [← hsucc e.jobId hne]
          exact hstored.job e he
      · rw [List.map_cons, List.mem_cons, not_or] at hj
        rw [hstored.other j hj.2, hjobs j hj.1]
      · rw [List.map_cons, List.mem_cons, not_or] at hj
        rw [hsuccessors j hj.2, hsucc j hj.1]

theorem foldl_storePayload (jobs : List JobRequest) (ks : WorkflowKeyspace) :
    ∃ payloads, jobs.foldl storePayload ks = { ks with payloads } ∧
      ((jobs.map JobRequest.jobId).Nodup → ∀ job ∈ jobs,
        payloads job.jobId = some (job.payload.getD [])) ∧
      ∀ j, j ∉ jobs.map JobRequest.jobId → payloads j = ks.payloads j := by
  induction jobs generalizing ks with
  | nil => exact ⟨ks.payloads, rfl, by simp, fun _ _ => rfl⟩
  | cons job rest ih =>
      obtain ⟨payloads, heq, hstored, hother⟩ := ih (storePayload ks job)
      refine ⟨payloads, heq, fun hnodup job' hjob' => ?_, fun j hj => ?_⟩
      · obtain ⟨hjob, hrest⟩ := List.nodup_cons.mp hnodup
        rcases List.mem_cons.mp hjob' with rfl | hjob'
        · rw [hother _ hjob]
          exact Function.update_self ..
        · exact hstored hrest job' hjob'
      · rw [List.map_cons, List.mem_cons, not_or] at hj
        rw [hother j hj.2]
        exact Function.update_of_ne hj.1 ..

theorem mem_addMembers (s : SortedSet String) (members : List (String × Int)) (j : String) :
    j ∈ (addMembers s members).members ↔ j ∈ s.members ∨ j ∈ members.map Prod.fst := by
  rw [addMembers]
  induction members generalizing s with
  | nil => simp
  | cons m rest ih =>
      rw [List.foldl_cons, ih, SortedSet.mem_members_addNew, List.map_cons, List.mem_cons]
      tauto

theorem mem_addJobs (id : WorkflowIdentity) (q : SortedSet JobKey) (queued : List PrioritizedJob)
    (k : JobKey) : k ∈ (addJobs id q queued).members ↔
      k ∈ q.members ∨ (k.identity = id ∧ k.jobId ∈ queued.map PrioritizedJob.jobId) := by
  rw [addJobs]
  induction queued generalizing q with
  | nil => simp
  | cons x rest ih =>
      rw [List.map_cons, List.foldl_cons, ih, SortedSet.mem_members_addNew, List.map_cons,
        List.mem_cons]
      obtain ⟨kid, j⟩ := k
      simp only [RedisDatabase.score, JobKey.mk.injEq]
      tauto

theorem markQueued_eq (queued : List PrioritizedJob) (info : JobRuntimeMap) :
    markQueued queued info = info.map (fun d =>
      if d.jobId ∈ queued.map PrioritizedJob.jobId then { d with status := some .queued }
      else d) := by
  rw [markQueued]
  induction queued generalizing info with
  | nil => simp
  | cons x rest ih =>
      rw [List.foldl_cons, ih, JobRuntimeMap.modify, List.map_map]
      refine List.map_congr_left (fun d _ => ?_)
      simp only [Function.comp_apply, List.map_cons, List.mem_cons]
      by_cases hx : d.jobId = x.jobId
      · by_cases hrest : x.jobId ∈ rest.map PrioritizedJob.jobId <;>
          simp only [hx, hrest, true_or, if_true, if_false]
      · simp only [hx, false_or, if_false]

end Space

section Records

/-- The record stored for a job of the request, when `queued` are the jobs queued at once. -/
structure Record (req : WorkflowRequest) (queued : List String) (job : JobRequest)
    (d : JobRuntimeData) : Prop where
  jobId : d.jobId = job.jobId
  status : d.status = some (if job.jobId ∈ queued then .queued
    else if job.dependsOn = [] then .ready else .pending)
  remaining : d.remainingDependencies = job.dependsOn.length
  successors_nodup : d.successors.Nodup
  mem_successors : ∀ j, j ∈ d.successors ↔ job.jobId ∈ req.dependsOn j
  size : d.payloadSizeBytes = (job.payload.getD []).length

/-- The request passed `build_jobs_runtime_info` and `validate_workflow`. -/
structure Planned (svc : Service) (client : ClientConfig) (req : WorkflowRequest)
    (info linked : JobRuntimeMap) (ready : List PrioritizedJob) : Prop where
  built : buildJobsRuntimeInfo svc.uuids client.policy req.jobs = .built info ready
  validated : validateWorkflow svc.hash client.policy req.jobs info = .ok linked

variable {svc : Service} {client : ClientConfig} {req : WorkflowRequest} {info linked : JobRuntimeMap}
  {ready : List PrioritizedJob} {s s' : Visible}

theorem Accepted.planned (h : Accepted svc client req info linked ready s s') :
    Planned svc client req info linked ready := ⟨h.built, h.validated⟩

theorem Planned.wellFormed (h : Planned svc client req info linked ready) : WellFormed req.jobs :=
  (validateWorkflow_ok h.validated).1

theorem Accepted.wellFormed (h : Accepted svc client req info linked ready s s') :
    WellFormed req.jobs := h.planned.wellFormed

/-- The records that admission stores are those of the submitted jobs, in their order. -/
theorem Planned.records (h : Planned svc client req info linked ready)
    (queued : List PrioritizedJob) :
    List.Forall₂ (Record req (queued.map PrioritizedJob.jobId)) req.jobs
      (markQueued queued linked) := by
  obtain ⟨hwf, hlinked⟩ := validateWorkflow_ok h.validated
  obtain ⟨hdescribes, -⟩ := buildJobsRuntimeInfo_built h.built hwf.ids_nodup
  rw [markQueued_eq, hlinked, List.map_map, List.forall₂_map_right_iff]
  refine hdescribes.imp (fun job d => ?_)
  rintro ⟨uuid, hd⟩
  obtain ⟨-, hid, hstatus, hremaining, hsuccessors, hsize, -⟩ := jobRuntimeInfo_eq_some hd
  have hperm := svc.hash.perm .jobsMap (dependencyPairs req.jobs)
  have hnodup : ((svc.hash.order .jobsMap (dependencyPairs req.jobs)).map Prod.fst).Nodup := by
    refine (hperm.map Prod.fst).nodup_iff.mpr ?_
    rw [dependencyPairs, List.map_map]
    exact hwf.ids_nodup
  generalize svc.hash.order .jobsMap (dependencyPairs req.jobs) = pairs at hperm hnodup
  have hsucc : (addSuccessors pairs d).successors =
      (pairs.filter (fun x => decide (job.jobId ∈ x.2))).map Prod.fst := by
    rw [addSuccessors, hsuccessors, hid, List.nil_append]
  have hrecord : Record req [] job (addSuccessors pairs d) := by
    refine ⟨hid, ?_, hremaining, ?_, fun j => ?_, hsize⟩
    · rw [if_neg List.not_mem_nil]
      simp only [List.length_eq_zero_iff] at hstatus
      exact hstatus
    · rw [hsucc]
      exact hnodup.sublist (List.filter_sublist.map Prod.fst)
    · rw [hsucc, List.mem_map]
      constructor
      · rintro ⟨⟨j', deps⟩, hmem, rfl⟩
        obtain ⟨hpair, hdep⟩ := List.mem_filter.mp hmem
        obtain ⟨job', hjob', heq⟩ := List.mem_map.mp (hperm.mem_iff.mp hpair)
        cases heq
        rw [req.dependsOn_eq hwf.ids_nodup hjob']
        exact of_decide_eq_true hdep
      · intro hdep
        by_cases hj : j ∈ req.jobs.map JobRequest.jobId
        · obtain ⟨job', hjob', rfl⟩ := List.mem_map.mp hj
          rw [req.dependsOn_eq hwf.ids_nodup hjob'] at hdep
          refine ⟨(job'.jobId, job'.dependsOn), List.mem_filter.mpr ⟨?_, decide_eq_true hdep⟩, rfl⟩
          exact hperm.mem_iff.mpr (List.mem_map.mpr ⟨job', hjob', rfl⟩)
        · rw [req.dependsOn_of_not_mem hj] at hdep
          cases hdep
  obtain ⟨hid', hstatus', hremaining', hnodup', hmem', hsize'⟩ := hrecord
  simp only [Function.comp_apply, hid']
  by_cases hqueued : job.jobId ∈ queued.map PrioritizedJob.jobId
  · rw [if_pos hqueued]
    exact ⟨rfl, by rw [if_pos hqueued], hremaining', hnodup', hmem', hsize'⟩
  · rw [if_neg hqueued]
    refine ⟨hid', ?_, hremaining', hnodup', hmem', hsize'⟩
    rw [if_neg hqueued]
    rwa [if_neg List.not_mem_nil] at hstatus'

theorem Planned.mem_ready (h : Planned svc client req info linked ready) (j : String) :
    j ∈ ready.map PrioritizedJob.jobId ↔ ∃ job ∈ req.jobs, job.jobId = j ∧ job.dependsOn = [] := by
  obtain ⟨hdescribes, hready⟩ := buildJobsRuntimeInfo_built h.built h.wellFormed.ids_nodup
  rw [(hready.map PrioritizedJob.jobId).mem_iff, List.map_map]
  exact mem_readyRecords hdescribes j

theorem Planned.ready_nodup (h : Planned svc client req info linked ready) :
    (ready.map PrioritizedJob.jobId).Nodup := by
  obtain ⟨hdescribes, hready⟩ := buildJobsRuntimeInfo_built h.built h.wellFormed.ids_nodup
  rw [(hready.map PrioritizedJob.jobId).nodup_iff, List.map_map]
  refine List.Nodup.sublist (List.filter_sublist.map JobRuntimeData.jobId) ?_
  rw [map_jobId_of_describes hdescribes]
  exact h.wellFormed.ids_nodup

end Records

section Keys

variable {svc : Service} {client : ClientConfig} {req : WorkflowRequest} {info linked : JobRuntimeMap}
  {ready : List PrioritizedJob} {s s' : Visible}

/-- The ready jobs that are queued at once. -/
def queuedNow (client : ClientConfig) (ready : List PrioritizedJob) : List String :=
  (ready.take (queuedCount client.policy ready.length)).map PrioritizedJob.jobId

/-- The ready jobs that wait for a slot. -/
def waitingNow (client : ClientConfig) (ready : List PrioritizedJob) : List String :=
  (ready.drop (queuedCount client.policy ready.length)).map PrioritizedJob.jobId

/-- The keys that admission writes where none were before. -/
structure InitialKeys (client : ClientConfig) (req : WorkflowRequest) (ready : List PrioritizedJob)
    (ks : WorkflowKeyspace) : Prop where
  hash : ks.hash = some (workflowHash client.policy req.jobs.length ready.length
    (queuedNow client ready).length)
  job : ∀ job ∈ req.jobs, ∃ d, Record req (queuedNow client ready) job d ∧
    ks.jobs job.jobId = some (RedisDatabase.jobHash d) ∧
    ks.successors job.jobId = d.successors ∧ ks.payloads job.jobId = some (job.payload.getD [])
  other : ∀ j, j ∉ req.jobs.map JobRequest.jobId → ks.jobs j = none
  waiting : ∀ j, j ∈ ks.waitingReady.members ↔ j ∈ waitingNow client ready

/-- The records that admission stores, in the order in which it stores them. -/
def storedRecords (svc : Service) (client : ClientConfig) (ready : List PrioritizedJob)
    (linked : JobRuntimeMap) : List JobRuntimeData :=
  svc.hash.order .jobsRuntimeInfo
    (markQueued (ready.take (queuedCount client.policy ready.length)) linked)

theorem mem_storedRecords {d : JobRuntimeData} : d ∈ storedRecords svc client ready linked ↔
    d ∈ markQueued (ready.take (queuedCount client.policy ready.length)) linked :=
  (svc.hash.perm .jobsRuntimeInfo _).mem_iff

theorem Planned.jobIds_perm (h : Planned svc client req info linked ready) :
    ((storedRecords svc client ready linked).map JobRuntimeData.jobId).Perm
      (req.jobs.map JobRequest.jobId) := by
  have hrecords := h.records (ready.take (queuedCount client.policy ready.length))
  have hids : (markQueued (ready.take (queuedCount client.policy ready.length)) linked).map
      JobRuntimeData.jobId = req.jobs.map JobRequest.jobId := by
    generalize markQueued _ linked = recs at hrecords
    clear h
    generalize req.jobs = jobs at hrecords
    generalize req = r at hrecords
    induction hrecords with
    | nil => rfl
    | cons hd _ ih => rw [List.map_cons, List.map_cons, ih, hd.jobId]
  rw [← hids]
  exact (svc.hash.perm .jobsRuntimeInfo _).map JobRuntimeData.jobId

/-- The keys that admission writes into an empty keyspace. -/
theorem Planned.stored (h : Planned svc client req info linked ready) :
    ∃ payloads stored,
      initialSpace svc client.policy req ready linked {} = { stored with
        waitingReady := addMembers stored.waitingReady ((ready.drop
          (queuedCount client.policy ready.length)).map RedisDatabase.score)
        payloads } ∧
      StoredAll (storedRecords svc client ready linked) { ({} : WorkflowKeyspace) with
        hash := some (workflowHash client.policy req.jobs.length ready.length
          (ready.take (queuedCount client.policy ready.length)).length) } stored ∧
      ∀ job ∈ req.jobs, payloads job.jobId = some (job.payload.getD []) := by
  have hnodup := h.jobIds_perm.nodup_iff.mpr h.wellFormed.ids_nodup
  obtain ⟨payloads, heq, hpayloads, -⟩ := foldl_storePayload req.jobs (storeRuntime {}
    (workflowHash client.policy req.jobs.length ready.length
      (ready.take (queuedCount client.policy ready.length)).length)
    (storedRecords svc client ready linked)
    (ready.drop (queuedCount client.policy ready.length)))
  refine ⟨payloads, (storedRecords svc client ready linked).foldl storeJob _, ?_,
    (foldl_storeJob hnodup _).1, hpayloads h.wellFormed.ids_nodup⟩
  rw [initialSpace, ← storedRecords, heq]
  rfl

theorem Planned.initialKeys (h : Planned svc client req info linked ready) :
    InitialKeys client req ready (initialSpace svc client.policy req ready linked {}) := by
  have hrecords := h.records (ready.take (queuedCount client.policy ready.length))
  obtain ⟨payloads, stored, heq, hstored, hpayloads⟩ := h.stored
  rw [heq]
  refine ⟨?_, fun job hjob => ?_, fun j hj => ?_, fun j => ?_⟩
  · refine hstored.hash.trans ?_
    rw [queuedNow, List.length_map]
  · obtain ⟨d, hd, hrecord⟩ := exists_of_forall₂ hrecords hjob
    obtain ⟨hjobs, hsuccessors⟩ := hstored.job d (mem_storedRecords.mpr hd)
    rw [hrecord.jobId] at hjobs hsuccessors
    exact ⟨d, hrecord, hjobs, hsuccessors.trans (List.nil_append _), hpayloads job hjob⟩
  · exact hstored.other j (fun hj' => hj (h.jobIds_perm.mem_iff.mp hj'))
  · refine (mem_addMembers _ _ j).trans ?_
    rw [hstored.waiting, waitingNow, List.map_map]
    exact or_iff_right List.not_mem_nil

/-- A stored job has the number of retries that the request gives it, and used none. -/
theorem Planned.attempts (h : Planned svc client req info linked ready) {job : JobRequest}
    (hjob : job ∈ req.jobs) :
    ∃ maxRetries, job.maxRetries.read client.policy.maxJobRetries = some maxRetries ∧
      ∃ hash, (initialSpace svc client.policy req ready linked {}).jobs job.jobId = some hash ∧
        hash.currentRetryCount = some 0 ∧ hash.maxRetries = some maxRetries := by
  obtain ⟨hwf, hlinked⟩ := validateWorkflow_ok h.validated
  obtain ⟨hdescribes, -⟩ := buildJobsRuntimeInfo_built h.built hwf.ids_nodup
  obtain ⟨d, hd, uuid, hinfo⟩ := exists_of_forall₂ hdescribes hjob
  obtain ⟨payloads, stored, heq, hstored, -⟩ := h.stored
  obtain ⟨-, hid, -, -, -, -, -, hcount, hretries, -⟩ := jobRuntimeInfo_eq_some hinfo
  refine ⟨d.maxRetries, hretries, ?_⟩
  -- linking adds successors, and queueing sets the status
  have hlinked' : addSuccessors (svc.hash.order .jobsMap (dependencyPairs req.jobs)) d ∈ linked :=
    hlinked ▸ List.mem_map_of_mem hd
  have hmem := List.mem_map_of_mem (f := fun d : JobRuntimeData =>
    if d.jobId ∈ (ready.take (queuedCount client.policy ready.length)).map PrioritizedJob.jobId then
      { d with status := some .queued } else d) hlinked'
  rw [← markQueued_eq] at hmem
  obtain ⟨hjobs, -⟩ := hstored.job _ (mem_storedRecords.mpr hmem)
  rw [heq]
  dsimp only at hjobs ⊢
  split at hjobs
  · exact ⟨_, hid ▸ hjobs, congrArg some hcount, rfl⟩
  · exact ⟨_, hid ▸ hjobs, congrArg some hcount, rfl⟩

end Keys

section Freshness

variable {client : ClientConfig} {req : WorkflowRequest} {ready : List PrioritizedJob}
  {ks : WorkflowKeyspace}

variable (h : InitialKeys client req ready ks)

include h

theorem InitialKeys.jobStatus {job : JobRequest}
    (hjob : job ∈ req.jobs) : ks.jobStatus job.jobId =
      some (if job.jobId ∈ queuedNow client ready then .queued
        else if job.dependsOn = [] then .ready else .pending) := by
  obtain ⟨d, hrecord, hjobs, -⟩ := h.job job hjob
  rw [WorkflowKeyspace.jobStatus, hjobs]
  exact hrecord.status

theorem InitialKeys.jobStatus_of_not_mem {j : String}
    (hj : j ∉ req.jobs.map JobRequest.jobId) : ks.jobStatus j = none := by
  rw [WorkflowKeyspace.jobStatus, h.other j hj]
  rfl

theorem InitialKeys.queued_iff
    (hready : ∀ j ∈ ready.map PrioritizedJob.jobId, j ∈ req.jobs.map JobRequest.jobId) (j : String) :
    ks.jobStatus j = some .queued ↔ j ∈ queuedNow client ready := by
  have hsub : j ∈ queuedNow client ready → j ∈ req.jobs.map JobRequest.jobId := by
    intro hj
    rw [queuedNow, List.map_take] at hj
    exact hready j (List.mem_of_mem_take hj)
  by_cases hj : j ∈ req.jobs.map JobRequest.jobId
  · obtain ⟨job, hjob, rfl⟩ := List.mem_map.mp hj
    rw [h.jobStatus hjob]
    by_cases hq : job.jobId ∈ queuedNow client ready
    · simp [hq]
    · by_cases hdeps : job.dependsOn = [] <;> simp [hq, hdeps]
  · rw [h.jobStatus_of_not_mem hj]
    exact ⟨nofun, fun hq => absurd (hsub hq) hj⟩

theorem InitialKeys.tally_active
    (hready : ∀ j ∈ ready.map PrioritizedJob.jobId, j ∈ req.jobs.map JobRequest.jobId)
    (hnodup : (ready.map PrioritizedJob.jobId).Nodup) (p : Plan)
    (hids : p.ids = req.jobs.map JobRequest.jobId) :
    p.tally JobStatus.isActive ks = (queuedNow client ready).length := by
  have hqueued : (queuedNow client ready).Nodup := by
    rw [queuedNow, List.map_take]
    exact hnodup.sublist (List.take_sublist ..)
  have hactive : ∀ j, (ks.jobStatus j).any JobStatus.isActive = true ↔
      j ∈ queuedNow client ready := by
    intro j
    rw [← h.queued_iff hready j]
    by_cases hj : j ∈ req.jobs.map JobRequest.jobId
    · obtain ⟨job, hjob, rfl⟩ := List.mem_map.mp hj
      rw [h.jobStatus hjob]
      by_cases hq : job.jobId ∈ queuedNow client ready
      · simp [hq, JobStatus.isActive]
      · by_cases hdeps : job.dependsOn = [] <;> simp [hq, hdeps, JobStatus.isActive]
    · simp [h.jobStatus_of_not_mem hj]
  rw [Plan.tally, List.countP_eq_length_filter]
  refine List.Perm.length_eq ((List.perm_ext_iff_of_nodup (p.nodup.filter _) hqueued).mpr
    (fun j => ?_))
  rw [List.mem_filter, hactive j]
  refine and_iff_right_of_imp (fun hq => ?_)
  rw [queuedNow, List.map_take] at hq
  rw [hids]
  exact hready j (List.mem_of_mem_take hq)

theorem InitialKeys.counters : ks.counters =
    ⟨some .ready, req.jobs.length, client.policy.maxConcurrentJobs,
      (queuedNow client ready).length, 0, none⟩ := by
  simp only [WorkflowKeyspace.counters, WorkflowKeyspace.status, WorkflowKeyspace.number,
    WorkflowKeyspace.reserved, h.hash, workflowHash, Option.bind_some, Option.getD_some]

/-- The statuses and counters that admission stores agree with the dependencies. -/
theorem InitialKeys.coherent (hwf : WellFormed req.jobs)
    (hready : ∀ j, j ∈ ready.map PrioritizedJob.jobId ↔
      ∃ job ∈ req.jobs, job.jobId = j ∧ job.dependsOn = [])
    (hnodup : (ready.map PrioritizedJob.jobId).Nodup) (limit : Int) :
    Coherent (req.plan hwf limit) ks := by
  have hsplit : queuedNow client ready ++ waitingNow client ready =
      ready.map PrioritizedJob.jobId := by
    rw [queuedNow, waitingNow, ← List.map_append, List.take_append_drop]
  have hdisjoint := List.disjoint_of_nodup_append (hsplit ▸ hnodup)
  have hsub : ∀ j ∈ ready.map PrioritizedJob.jobId, j ∈ req.jobs.map JobRequest.jobId := by
    intro j hj
    obtain ⟨job, hjob, rfl, -⟩ := (hready j).mp hj
    exact List.mem_map_of_mem hjob
  -- no job is COMPLETED yet
  have hopen : ∀ j, ks.jobStatus j ≠ some .completed := by
    intro j
    by_cases hj : j ∈ req.jobs.map JobRequest.jobId
    · obtain ⟨job, hjob, rfl⟩ := List.mem_map.mp hj
      rw [h.jobStatus hjob]
      split
      · nofun
      · split <;> nofun
    · rw [h.jobStatus_of_not_mem hj]
      nofun
  refine ⟨fun j => ?_, fun j => ?_, fun j hj => ?_, fun i hi _ => ?_⟩
  · change _ ↔ j ∈ req.jobs.map JobRequest.jobId
    by_cases hj : j ∈ req.jobs.map JobRequest.jobId
    · obtain ⟨job, hjob, rfl⟩ := List.mem_map.mp hj
      simp [h.jobStatus hjob, hj]
    · simp [h.jobStatus_of_not_mem hj, hj]
  · rw [h.waiting]
    constructor
    · intro hj
      have hmem : j ∈ ready.map PrioritizedJob.jobId := by
        rw [← hsplit]
        exact List.mem_append_right _ hj
      obtain ⟨job, hjob, rfl, hdeps⟩ := (hready j).mp hmem
      rw [h.jobStatus hjob, if_neg (fun hq => hdisjoint hq hj), if_pos hdeps]
    · intro hj
      by_cases hmem : j ∈ req.jobs.map JobRequest.jobId
      · obtain ⟨job, hjob, rfl⟩ := List.mem_map.mp hmem
        rw [h.jobStatus hjob] at hj
        split at hj
        · cases hj
        · rename_i hq
          split at hj
          · rename_i hdeps
            have hmem' := (hready job.jobId).mpr ⟨job, hjob, rfl, hdeps⟩
            rw [← hsplit, List.mem_append] at hmem'
            exact hmem'.resolve_left hq
          · cases hj
      · rw [h.jobStatus_of_not_mem hmem] at hj
        cases hj
  · have hmem : j ∈ req.jobs.map JobRequest.jobId := by
      by_contra hmem
      rw [h.jobStatus_of_not_mem hmem] at hj
      cases hj
    obtain ⟨job, hjob, rfl⟩ := List.mem_map.mp hmem
    obtain ⟨d, hrecord, hjobs, -⟩ := h.job job hjob
    have hdeps : (req.plan hwf limit).deps job.jobId = job.dependsOn :=
      req.dependsOn_eq hwf.ids_nodup hjob
    have hcount : (req.plan hwf limit).openDeps ks job.jobId = job.dependsOn.length := by
      rw [Plan.openDeps, hdeps, List.countP_eq_length]
      exact fun d _ => decide_eq_true (hopen d)
    have hremaining : ks.remaining job.jobId = job.dependsOn.length := by
      rw [WorkflowKeyspace.remaining, WorkflowKeyspace.jobNumber, hjobs]
      exact hrecord.remaining
    rw [hcount, hremaining]
    refine ⟨rfl, List.length_pos_iff.mpr (fun hnil => ?_)⟩
    rw [h.jobStatus hjob, if_pos hnil] at hj
    split at hj <;> cases hj
  · obtain ⟨job, hjob, rfl⟩ := List.mem_map.mp hi
    obtain ⟨d, hrecord, -, hsuccessors, -⟩ := h.job job hjob
    rw [hsuccessors]
    exact ⟨hrecord.successors_nodup, hrecord.mem_successors⟩

end Freshness

section Views

variable {svc : Service} {client : ClientConfig} {req : WorkflowRequest} {info linked : JobRuntimeMap}
  {ready : List PrioritizedJob} {w w' : World}

theorem stagesOf_setHoldings (q : SortedSet JobKey) (s : Stage) (k : JobKey) :
    stagesOf (setHoldings q s) k = if k ∈ q.members then {s} else 0 := by
  have hzero : ∀ q : SortedSet JobKey, k ∉ q.members → stagesOf (setHoldings q s) k = 0 := by
    intro q hk
    refine Multiset.eq_zero_of_forall_notMem (fun t ht => hk ?_)
    exact (mem_setHoldings.mp (mem_stagesOf.mp ht)).1
  split
  · rename_i hk
    rw [setHoldings_remove q s hk, stagesOf_cons_self, hzero]
    · rfl
    · simp
  · rename_i hk
    exact hzero q hk

variable (h : Accepted svc client req info linked ready w.visible w'.visible)

include h

theorem Accepted.workflows : w'.redis.workflows = Function.update w.redis.workflows req.identity
      (initialSpace svc client.policy req ready linked (w.redis.workflows req.identity)) :=
  congrArg Visible.workflows h.stored

theorem Accepted.activeWorkflows :
    w'.redis.activeWorkflows = activate req.identity w.redis.activeWorkflows :=
  congrArg Visible.active h.stored

theorem Accepted.identities : w'.sqlite.workflows.map WorkflowRow.identity =
      w.sqlite.workflows.map WorkflowRow.identity ++ [req.identity] :=
  congrArg Visible.identities h.stored

theorem Accepted.jobKeys : w'.sqlite.jobs.map JobRow.key = w.sqlite.jobs.map JobRow.key ++
      (svc.hash.order .jobsRuntimeInfo linked).map (fun d => ⟨req.identity, d.jobId⟩) :=
  congrArg Visible.jobKeys h.stored

theorem Accepted.stagesOf (T : Multiset Token) (k : JobKey) : ∃ m, stagesOf (holdings w T) k =
        (if k ∈ w.redis.executionQueue.members then {.queued} else 0) + m ∧
      stagesOf (holdings w' T) k = (if k ∈ w.redis.executionQueue.members ∨
        (k.identity = req.identity ∧ k.jobId ∈ queuedNow client ready) then {.queued} else 0) + m := by
  have hqueue : w'.redis.executionQueue = addJobs req.identity w.redis.executionQueue
      (ready.take (queuedCount client.policy ready.length)) :=
    congrArg Visible.executionQueue h.stored
  have hretry : w'.redis.jobRetryStream = w.redis.jobRetryStream :=
    congrArg Visible.jobRetryStream h.stored
  have hstream : w'.redis.jobCompletionStream = w.redis.jobCompletionStream :=
    congrArg Visible.jobCompletionStream h.stored
  have hlocal : w'.localQueue = w.localQueue := congrArg Visible.localQueue h.stored
  refine ⟨FlowPilot.stagesOf (setHoldings w.redis.jobRetryStream .retryWait +
    localHoldings w.localQueue + streamHoldings w.redis.jobCompletionStream +
    (T.map Token.holdings).sum) k, ?_, ?_⟩
  · rw [← stagesOf_setHoldings, ← stagesOf_add]
    simp only [holdings, World.holdings, add_assoc]
  · have hmem := mem_addJobs req.identity w.redis.executionQueue
      (ready.take (queuedCount client.policy ready.length)) k
    simp only [queuedNow, ← hmem]
    rw [← stagesOf_setHoldings, ← stagesOf_add]
    simp only [holdings, World.holdings, add_assoc, hqueue, hretry, hstream, hlocal]

theorem Accepted.jobIds (id : WorkflowIdentity) : w'.sqlite.jobIds id = w.sqlite.jobIds id ++
      if id = req.identity then
        (svc.hash.order .jobsRuntimeInfo linked).map JobRuntimeData.jobId else [] := by
  rw [Sqlite.jobIds, h.jobKeys, List.filter_append, List.map_append]
  refine congrArg₂ (· ++ ·) rfl ?_
  rw [List.filter_map, List.map_map]
  split
  · rename_i hid
    subst hid
    have hall : (svc.hash.order .jobsRuntimeInfo linked).filter
        ((fun k : JobKey => decide (k.identity = req.identity)) ∘
          fun d => ⟨req.identity, d.jobId⟩) = svc.hash.order .jobsRuntimeInfo linked :=
      List.filter_eq_self.mpr (fun _ _ => decide_eq_true rfl)
    rw [hall]
    rfl
  · rename_i hid
    have hnone : (svc.hash.order .jobsRuntimeInfo linked).filter
        ((fun k : JobKey => decide (k.identity = id)) ∘
          fun d => ⟨req.identity, d.jobId⟩) = [] :=
      List.filter_eq_nil_iff.mpr (fun _ _ heq => hid (of_decide_eq_true heq).symm)
    rw [hnone]
    rfl

theorem Accepted.mem_order {j : String} (hj : j ∈ req.jobs.map JobRequest.jobId) :
    j ∈ (svc.hash.order .jobsRuntimeInfo linked).map JobRuntimeData.jobId := by
  rw [((svc.hash.perm .jobsRuntimeInfo linked).map JobRuntimeData.jobId).mem_iff]
  obtain ⟨hdescribes, -⟩ := buildJobsRuntimeInfo_built h.built h.wellFormed.ids_nodup
  rw [(validateWorkflow_ok h.validated).2, List.map_map]
  change j ∈ info.map JobRuntimeData.jobId
  rw [map_jobId_of_describes hdescribes]
  exact hj

theorem Accepted.view_of_ne (T : Multiset Token) {id : WorkflowIdentity} (hid : id ≠ req.identity) :
    view id w' T = view id w T := by
  have hspace : w'.redis.workflows id = w.redis.workflows id := by
    rw [h.workflows, Function.update_of_ne hid]
  have hrecorded : w'.sqlite.recorded id = w.sqlite.recorded id := by
    rw [Sqlite.recorded_eq, Sqlite.recorded_eq, h.identities]
    simp only [List.mem_append, List.mem_singleton, hid, or_false]
  have hactive : id.workflowId ∈ w'.redis.activeWorkflows id.clientId ↔
      id.workflowId ∈ w.redis.activeWorkflows id.clientId := by
    rw [h.activeWorkflows, activate]
    by_cases hclient : id.clientId = req.identity.clientId
    · rw [hclient, Function.update_self, Finset.mem_insert]
      refine or_iff_right (fun hworkflow => hid ?_)
      obtain ⟨c, wf⟩ := id
      cases hclient
      cases hworkflow
      rfl
    · rw [Function.update_of_ne hclient]
  have hrows := h.jobIds id
  rw [if_neg hid, List.append_nil] at hrows
  have hstages : (fun j => FlowPilot.stagesOf (holdings w' T) ⟨id, j⟩) =
      fun j => FlowPilot.stagesOf (holdings w T) ⟨id, j⟩ := by
    funext j
    obtain ⟨m, hbefore, hafter⟩ := h.stagesOf T ⟨id, j⟩
    rw [hbefore, hafter]
    simp only [hid, false_and, or_false]
  simp only [view, hspace, hrecorded, hactive, hrows, hstages]

/-- A workflow that nobody has heard of. -/
structure Absent (v : WorkflowView) : Prop where
  space : v.space = {}
  stages : ∀ j, v.stages j = 0

theorem Accepted.space_eq {T : Multiset Token} (habsent : Absent (view req.identity w T)) :
    (view req.identity w' T).space = initialSpace svc client.policy req ready linked {} := by
  refine (congrFun h.workflows req.identity).trans ?_
  rw [Function.update_self]
  exact congrArg _ habsent.space

/-- An admitted workflow starts where its machine starts. -/
theorem Accepted.fresh (T : Multiset Token) (habsent : Absent (view req.identity w T)) :
    Fresh (req.plan h.wellFormed client.policy.maxConcurrentJobs) (view req.identity w' T) := by
  have hready := h.planned.mem_ready
  have hnodup := h.planned.ready_nodup
  have hsub : ∀ j ∈ ready.map PrioritizedJob.jobId, j ∈ req.jobs.map JobRequest.jobId := by
    intro j hj
    obtain ⟨job, hjob, rfl, -⟩ := (hready j).mp hj
    exact List.mem_map_of_mem hjob
  have hkeys : InitialKeys client req ready (view req.identity w' T).space :=
    h.space_eq habsent ▸ h.planned.initialKeys
  have htally : (req.plan h.wellFormed client.policy.maxConcurrentJobs).tally JobStatus.isActive
      (view req.identity w' T).space = (queuedNow client ready).length :=
    hkeys.tally_active hsub hnodup _ rfl
  refine ⟨?_, hkeys.coherent h.wellFormed hready hnodup _, fun j hj => ?_, fun j => ?_,
    fun hlimit => ?_, fun hwaiting => ?_, fun j hj => ?_, ?_, ?_, fun j hj => ?_⟩
  · rw [hkeys.counters, htally]
    simp only [WorkflowRequest.plan, List.length_map]
  · obtain ⟨job, hjob, rfl⟩ := List.mem_map.mp hj
    have hst := hkeys.jobStatus hjob
    change (view req.identity w' T).space.jobStatus job.jobId = _ ∨
      (view req.identity w' T).space.jobStatus job.jobId = _ ∨
      (view req.identity w' T).space.jobStatus job.jobId = _
    rw [hst]
    by_cases hq : job.jobId ∈ queuedNow client ready
    · simp [hq]
    · by_cases hdeps : job.dependsOn = [] <;> simp [hq, hdeps]
  · obtain ⟨m, hbefore, hafter⟩ := h.stagesOf T ⟨req.identity, j⟩
    have hzero := habsent.stages j
    rw [show (view req.identity w T).stages j = _ from hbefore] at hzero
    obtain rfl : m = 0 := Multiset.le_zero.mp (hzero ▸ Multiset.le_add_left m _)
    rw [add_zero] at hzero
    have hnot : (⟨req.identity, j⟩ : JobKey) ∉ w.redis.executionQueue.members := by
      intro hmem
      rw [if_pos hmem] at hzero
      exact Multiset.singleton_ne_zero _ hzero
    refine hafter.trans ?_
    have hiff : (view req.identity w' T).jobStatus j = some .queued ↔
        j ∈ queuedNow client ready := hkeys.queued_iff hsub j
    simp only [hnot, false_or, true_and, hiff, add_zero]
  · rw [htally, queuedNow, List.length_map, List.length_take, queuedCount]
    change 0 ≤ client.policy.maxConcurrentJobs at hlimit
    change _ ≤ client.policy.maxConcurrentJobs
    rw [if_pos hlimit]
    omega
  · obtain ⟨j, hj⟩ := List.exists_mem_of_ne_nil _ hwaiting
    obtain ⟨job, hjob, -⟩ := List.mem_map.mp ((hkeys.waiting j).mp hj)
    have hlt := List.length_pos_of_mem hjob
    rw [List.length_drop] at hlt
    rw [htally, queuedNow, List.length_map, List.length_take]
    change client.policy.maxConcurrentJobs ≤ _
    rw [queuedCount] at hlt ⊢
    by_cases hlimit : 0 ≤ client.policy.maxConcurrentJobs
    · rw [if_pos hlimit] at hlt ⊢
      omega
    · omega
  · change j ∈ w'.sqlite.jobIds req.identity
    rw [h.jobIds, if_pos rfl, List.mem_append]
    exact .inr (h.mem_order hj)
  · change w'.sqlite.recorded req.identity = true
    rw [Sqlite.recorded_eq, h.identities]
    simp
  · change decide (req.identity.workflowId ∈ w'.redis.activeWorkflows req.identity.clientId) = true
    rw [h.activeWorkflows, activate, Function.update_self]
    simp
  · obtain ⟨job, hjob, rfl⟩ := List.mem_map.mp hj
    obtain ⟨d, hrecord, hjobs, -, hpayload⟩ := hkeys.job job hjob
    refine ⟨_, _, hjobs, ⟨?_, rfl, rfl, rfl, rfl, rfl, rfl, rfl⟩, hpayload, ?_⟩
    · change d.status.isSome = true
      rw [hrecord.status]
      rfl
    · exact congrArg some hrecord.size

theorem Accepted.whole (hwhole : w.redis.Whole) : w'.redis.Whole := by
  have hjob : ∀ (ks : WorkflowKeyspace) (d : JobRuntimeData), ks.Whole → (storeJob ks d).Whole := by
    intro ks d hks j hash hj
    by_cases hjd : j = d.jobId
    · subst hjd
      cases (WorkflowKeyspace.setJob_jobs_self ks (fun _ => RedisDatabase.jobHash d)
        d.jobId).symm.trans hj
      exact fun _ => ⟨rfl, rfl, rfl⟩
    · exact hks j hash ((WorkflowKeyspace.setJob_jobs_of_ne ks
        (fun _ => RedisDatabase.jobHash d) d.jobId j hjd).symm.trans hj)
  have hjobs : ∀ (recs : List JobRuntimeData) (ks : WorkflowKeyspace), ks.Whole →
      (recs.foldl storeJob ks).Whole := by
    intro recs
    induction recs with
    | nil => exact fun ks hks => hks
    | cons d rest ih => exact fun ks hks => ih _ (hjob ks d hks)
  intro id
  rw [h.workflows]
  by_cases hid : id = req.identity
  · subst hid
    rw [Function.update_self, initialSpace]
    obtain ⟨payloads, heq, -⟩ := foldl_storePayload req.jobs (storeRuntime
      (w.redis.workflows req.identity) (workflowHash client.policy req.jobs.length ready.length
        (ready.take (queuedCount client.policy ready.length)).length)
      (svc.hash.order .jobsRuntimeInfo (markQueued (ready.take
        (queuedCount client.policy ready.length)) linked))
      (ready.drop (queuedCount client.policy ready.length)))
    rw [heq]
    exact hjobs _ _ (hwhole req.identity)
  · rw [Function.update_of_ne hid]
    exact hwhole id

end Views

end FlowPilot
