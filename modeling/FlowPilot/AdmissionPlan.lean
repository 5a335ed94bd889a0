import FlowPilot.AdmissionValidation
import Mathlib.Data.List.Nodup
import Mathlib.Data.List.Forall2

/-! What the checks of admission leave of a request: distinct job ids, dependencies that name jobs of
the request once each, one runtime record per job, the jobs without dependencies sorted by priority,
and in each record the jobs that depend on it. -/

namespace FlowPilot

namespace WorkflowRuntimeGenerator

/-- The record is the one that `build_jobs_runtime_info` makes for the job. -/
def Describes (policy : PolicyPlan) (job : JobRequest) (d : JobRuntimeData) : Prop :=
  ∃ uuid, jobRuntimeInfo policy uuid job = some d

variable {policy : PolicyPlan} {d : JobRuntimeData} {uuids : UuidSource} {jobs : List JobRequest}
  {info : JobRuntimeMap} {ready : List PrioritizedJob}

theorem jobRuntimeInfo_eq_some {uuid : Nat} {job : JobRequest}
    (h : jobRuntimeInfo policy uuid job = some d) :
    d.jobUuid = uuid ∧ d.jobId = job.jobId ∧
      d.status = some (if job.dependsOn.length = 0 then .ready else .pending) ∧
      d.remainingDependencies = job.dependsOn.length ∧ d.successors = [] ∧
      d.payloadSizeBytes = (job.payload.getD []).length ∧
      d.priority = job.priority.getD policy.maxJobPriority ∧ d.currentRetryCount = 0 ∧
      job.maxRetries.read policy.maxJobRetries = some d.maxRetries ∧
      job.timeoutSec.read policy.maxJobRuntimeSec = some d.timeoutSec := by
  simp only [jobRuntimeInfo, Option.bind_eq_bind, Option.bind_eq_some_iff, Option.pure_def,
    Option.some.injEq] at h
  obtain ⟨_, htimeout, _, hretries, _, _, _, _, payload, hpayload, rfl⟩ := h
  simp [hpayload, hretries, htimeout]

/-- The entry of the ready queue for a record. -/
def prioritized (d : JobRuntimeData) : PrioritizedJob := ⟨d.jobId, d.jobUuid, d.priority⟩

def readyRecords (info : JobRuntimeMap) : JobRuntimeMap :=
  info.filter (fun d => decide (d.remainingDependencies = 0))

theorem emplace_perm {x : PrioritizedJob} {l : List PrioritizedJob}
    (h : ∀ y ∈ l, y.jobUuid ≠ x.jobUuid) : (emplace x l).Perm (x :: l) := by
  induction l with
  | nil => exact List.Perm.refl _
  | cons y rest ih =>
      have hrest := ih (fun z hz => h z (List.mem_cons_of_mem y hz))
      have hne := h y List.mem_cons_self
      rw [emplace]
      split
      · exact List.Perm.refl _
      · rename_i hxy
        split
        · exact (hrest.cons y).trans (List.Perm.swap x y rest)
        · rename_i hyx
          exfalso
          simp only [PrioritizedJob.precedes] at hxy hyx
          by_cases hp : x.priority = y.priority
          · simp [hp] at hxy hyx
            omega
          · have hp' : y.priority ≠ x.priority := fun heq => hp heq.symm
            simp [hp, hp'] at hxy hyx
            omega

theorem emplace_sorted {x : PrioritizedJob} {l : List PrioritizedJob}
    (h : l.Pairwise (fun a b => b.priority ≤ a.priority)) :
    (emplace x l).Pairwise (fun a b => b.priority ≤ a.priority) ∧
      ∀ y ∈ emplace x l, y = x ∨ y ∈ l := by
  have hprecedes : ∀ {a b : PrioritizedJob}, a.precedes b = true → b.priority ≤ a.priority := by
    intro a b hab
    rw [PrioritizedJob.precedes] at hab
    split at hab
    · exact Int.le_of_lt (of_decide_eq_true hab)
    · omega
  induction l with
  | nil => exact ⟨List.pairwise_singleton _ _, fun y hy => .inl (List.mem_singleton.mp hy)⟩
  | cons z rest ih =>
      obtain ⟨hz, hrest⟩ := List.pairwise_cons.mp h
      obtain ⟨hsorted, hmem⟩ := ih hrest
      rw [emplace]
      split
      · rename_i hxz
        have hle := hprecedes hxz
        refine ⟨List.pairwise_cons.mpr ⟨fun y hy => ?_, h⟩, fun y hy => List.mem_cons.mp hy⟩
        rcases List.mem_cons.mp hy with rfl | hy
        · exact hle
        · exact Int.le_trans (hz y hy) hle
      · split
        · rename_i hzx
          refine ⟨List.pairwise_cons.mpr ⟨fun y hy => ?_, hsorted⟩, fun y hy => ?_⟩
          · rcases hmem y hy with rfl | hy
            · exact hprecedes hzx
            · exact hz y hy
          · rcases List.mem_cons.mp hy with rfl | hy
            · exact .inr List.mem_cons_self
            · exact (hmem y hy).imp_right (List.mem_cons_of_mem _)
        · exact ⟨h, fun y hy => .inr hy⟩

/-- The priority of a job: the largest one allowed, unless the request gives another. -/
def priorityOf (policy : PolicyPlan) (job : JobRequest) : Int :=
  job.priority.getD policy.maxJobPriority

/-- The ready queue is in the order of the priorities, which are those of the jobs and allowed. -/
structure Prioritized (policy : PolicyPlan) (jobs : List JobRequest) (queue : List PrioritizedJob) :
    Prop where
  sorted : queue.Pairwise (fun a b => b.priority ≤ a.priority)
  ofJob : ∀ x ∈ queue, x.priority ≤ policy.maxJobPriority ∧
    ∃ job ∈ jobs, job.jobId = x.jobId ∧ x.priority = priorityOf policy job

theorem buildFrom_prioritized {all : List JobRequest}
    {n : Nat} {acc : JobRuntimeMap} {queue : List PrioritizedJob}
    (h : buildFrom uuids policy n jobs acc queue = .built info ready)
    (hall : ∀ job ∈ jobs, job ∈ all) (hqueue : Prioritized policy all queue) :
    Prioritized policy all ready := by
  induction jobs generalizing n acc queue with
  | nil =>
      cases h
      exact hqueue
  | cons job rest ih =>
      rw [buildFrom] at h
      split at h
      · cases h
      · rename_i d hd
        split at h
        · cases h
        · rename_i hallowed
          refine ih h (fun job' hjob' => hall job' (List.mem_cons_of_mem job hjob')) ?_
          split
          · obtain ⟨hsorted, hmem⟩ := emplace_sorted (x := ⟨d.jobId, d.jobUuid, d.priority⟩)
              hqueue.sorted
            refine ⟨hsorted, fun y hy => ?_⟩
            rcases hmem y hy with rfl | hy
            · obtain ⟨-, hid, -, -, -, -, hpriority, -⟩ := jobRuntimeInfo_eq_some hd
              refine ⟨?_, job, hall job List.mem_cons_self, hid.symm, hpriority⟩
              simp only [violatesPolicy, Bool.or_eq_true, decide_eq_true_eq, not_or] at hallowed
              exact Int.not_lt.mp hallowed.1.1.1.2
            · exact hqueue.ofJob y hy
          · exact hqueue

theorem buildJobsRuntimeInfo_prioritized
    (h : buildJobsRuntimeInfo uuids policy jobs = .built info ready) :
    Prioritized policy jobs ready :=
  buildFrom_prioritized h (fun _ hjob => hjob) ⟨List.Pairwise.nil, by simp⟩

theorem put_of_new {m : JobRuntimeMap} (h : d.jobId ∉ m.map (·.jobId)) :
    m.put d = m ++ [d] := by
  refine if_neg ?_
  simp only [List.any_eq_true, beq_iff_eq, not_exists, not_and]
  exact fun e he heq => h (List.mem_map.mpr ⟨e, he, heq⟩)

/-- The loop of `build_jobs_runtime_info` adds one record per job, and the jobs without dependencies
to the ready queue. -/
theorem buildFrom_built {n : Nat} {acc : JobRuntimeMap} {queue : List PrioritizedJob}
    (h : buildFrom uuids policy n jobs acc queue = .built info ready)
    (hnodup : (jobs.map JobRequest.jobId).Nodup)
    (hnew : ∀ job ∈ jobs, job.jobId ∉ acc.map (·.jobId))
    (hqueue : queue.Perm ((readyRecords acc).map prioritized))
    (huuids : ∀ d ∈ acc, ∃ k < n, d.jobUuid = uuids.next k) :
    ∃ added, info = acc ++ added ∧ List.Forall₂ (Describes policy) jobs added ∧
      ready.Perm ((readyRecords info).map prioritized) := by
  induction jobs generalizing n acc queue with
  | nil =>
      cases h
      exact ⟨[], (List.append_nil _).symm, List.Forall₂.nil, hqueue⟩
  | cons job rest ih =>
      rw [buildFrom] at h
      split at h
      · cases h
      · rename_i d hd
        split at h
        · cases h
        · obtain ⟨huuid, hid, -⟩ := jobRuntimeInfo_eq_some hd
          have hfresh : d.jobId ∉ acc.map (·.jobId) := by
            rw [hid]
            exact hnew job List.mem_cons_self
          rw [put_of_new hfresh] at h
          rw [List.map_cons, List.nodup_cons] at hnodup
          have hnew' : ∀ job' ∈ rest, job'.jobId ∉ (acc ++ [d]).map (·.jobId) := by
            intro job' hjob' hmem
            rw [List.map_append, List.mem_append] at hmem
            rcases hmem with hmem | hmem
            · exact hnew job' (List.mem_cons_of_mem job hjob') hmem
            · simp only [List.map_cons, List.map_nil, List.mem_singleton] at hmem
              rw [hid] at hmem
              exact hnodup.1 (List.mem_map.mpr ⟨job', hjob', hmem⟩)
          have huuids' : ∀ e ∈ acc ++ [d], ∃ k < n + 1, e.jobUuid = uuids.next k := by
            intro e he
            rcases List.mem_append.mp he with he | he
            · obtain ⟨k, hk, hek⟩ := huuids e he
              exact ⟨k, Nat.lt_succ_of_lt hk, hek⟩
            · rw [List.mem_singleton] at he
              exact ⟨n, Nat.lt_succ_self n, he ▸ huuid⟩
          obtain ⟨added, hinfo, hadded, hready⟩ := ih h hnodup.2 hnew' (by
            rw [readyRecords, List.filter_append, List.map_append]
            by_cases hzero : d.remainingDependencies = 0
            · rw [if_pos hzero]
              refine (emplace_perm (x := prioritized d) (fun y hy heq => ?_)).trans ?_
              · obtain ⟨e, he, rfl⟩ := List.mem_map.mp (hqueue.mem_iff.mp hy)
                obtain ⟨k, hk, hek⟩ := huuids e (List.mem_filter.mp he).1
                have hkn : uuids.next k = uuids.next n := hek.symm.trans (heq.trans huuid)
                exact absurd (uuids.injective hkn) (Nat.ne_of_lt hk)
              · simp only [List.filter_cons, hzero, decide_true, if_true, List.filter_nil,
                  List.map_cons, List.map_nil]
                exact (hqueue.cons _).trans (List.perm_append_singleton _ _).symm
            · simpa [hzero, readyRecords] using hqueue) huuids'
          refine ⟨d :: added, ?_, List.Forall₂.cons ⟨_, hd⟩ hadded, hready⟩
          rw [hinfo, List.append_assoc, List.singleton_append]

theorem buildJobsRuntimeInfo_built (h : buildJobsRuntimeInfo uuids policy jobs = .built info ready)
    (hnodup : (jobs.map JobRequest.jobId).Nodup) :
    List.Forall₂ (Describes policy) jobs info ∧
      ready.Perm ((readyRecords info).map prioritized) := by
  obtain ⟨added, hinfo, hadded, hready⟩ :=
    buildFrom_built h hnodup (by simp) (List.Perm.refl _) (by simp)
  rw [List.nil_append] at hinfo
  exact ⟨hinfo ▸ hadded, hready⟩

theorem map_jobId_of_describes (h : List.Forall₂ (Describes policy) jobs info) :
    info.map JobRuntimeData.jobId = jobs.map JobRequest.jobId := by
  induction h with
  | nil => rfl
  | cons hd _ ih =>
      obtain ⟨uuid, hd⟩ := hd
      rw [List.map_cons, List.map_cons, ih, (jobRuntimeInfo_eq_some hd).2.1]

theorem mem_readyRecords (h : List.Forall₂ (Describes policy) jobs info) (j : String) :
    j ∈ (readyRecords info).map JobRuntimeData.jobId ↔
      ∃ job ∈ jobs, job.jobId = j ∧ job.dependsOn = [] := by
  induction h with
  | nil => simp [readyRecords]
  | @cons job d rest info hd _ ih =>
      obtain ⟨uuid, hd⟩ := hd
      obtain ⟨-, hid, -, hremaining, -⟩ := jobRuntimeInfo_eq_some hd
      have hzero : d.remainingDependencies = 0 ↔ job.dependsOn = [] := by
        rw [hremaining, Int.natCast_eq_zero, List.length_eq_zero_iff]
      simp only [List.mem_cons, exists_eq_or_imp, ← ih]
      have hcons : readyRecords (d :: info) =
          if d.remainingDependencies = 0 then d :: readyRecords info else readyRecords info := by
        simp [readyRecords, List.filter_cons]
      rw [hcons]
      by_cases hdeps : job.dependsOn = []
      · rw [if_pos (hzero.mpr hdeps), List.map_cons, List.mem_cons, hid]
        simp only [hdeps, and_true, eq_comm]
      · rw [if_neg (fun h => hdeps (hzero.mp h))]
        simp only [hdeps, and_false, false_or]

end WorkflowRuntimeGenerator

namespace WorkflowAdmissionService

theorem insertDependencies_eq_some {deps seen all : List String}
    (h : insertDependencies deps seen = some all) (hseen : seen.Nodup) :
    all = seen ++ deps ∧ all.Nodup := by
  induction deps generalizing seen with
  | nil =>
      cases h
      exact ⟨(List.append_nil _).symm, hseen⟩
  | cons d rest ih =>
      rw [insertDependencies] at h
      split at h
      · cases h
      · rename_i hd
        obtain ⟨hall, hnodup⟩ := ih h (hseen.append (List.nodup_singleton d) (by simpa using hd))
        exact ⟨by rw [hall, List.append_assoc]; rfl, hnodup⟩

variable {jobs : List JobRequest} {info linked : JobRuntimeMap} {hash : HashOrder}

theorem validateSemanticFrom_ok {acc jobsMap : List (String × List String)}
    (h : validateSemanticFrom jobs acc = .ok jobsMap) (hacc : (acc.map Prod.fst).Nodup) :
    jobsMap = acc ++ jobs.map (fun job => (job.jobId, job.dependsOn)) ∧
      (jobsMap.map Prod.fst).Nodup ∧ ∀ job ∈ jobs, job.dependsOn.Nodup := by
  induction jobs generalizing acc with
  | nil =>
      cases h
      exact ⟨(List.append_nil _).symm, hacc, by simp⟩
  | cons job rest ih =>
      rw [validateSemanticFrom] at h
      split at h
      · cases h
      · rename_i deps hdeps
        obtain ⟨rfl, hdeps⟩ := insertDependencies_eq_some hdeps List.nodup_nil
        rw [List.nil_append] at hdeps h
        split at h
        · cases h
        · rename_i hnew
          have hjob : job.jobId ∉ acc.map Prod.fst := by
            intro hmem
            obtain ⟨e, he, heq⟩ := List.mem_map.mp hmem
            exact hnew (List.any_eq_true.mpr ⟨e, he, by simpa using heq⟩)
          have hnodup : ((acc ++ [(job.jobId, job.dependsOn)]).map Prod.fst).Nodup := by
            rw [List.map_append]
            exact hacc.append (List.nodup_singleton _) (by simpa using hjob)
          obtain ⟨hmap, hmapNodup, hrest⟩ := ih h hnodup
          refine ⟨?_, hmapNodup, ?_⟩
          · rw [hmap, List.append_assoc]
            rfl
          · intro j hj
            rcases List.mem_cons.mp hj with rfl | hj
            · exact hdeps
            · exact hrest j hj

def addSuccessor (job : String) (d : JobRuntimeData) : JobRuntimeData :=
  { d with successors := d.successors ++ [job] }

theorem linkDependencies_ok {known : List String} {job : String} {deps : List String}
    {info' : JobRuntimeMap} {edges edges' : List (String × String)}
    (h : linkDependencies known job deps info edges = .ok (info', edges')) (hdeps : deps.Nodup) :
    (∀ d ∈ deps, d ∈ known) ∧
      info' = info.map (fun e => if e.jobId ∈ deps then addSuccessor job e else e) := by
  induction deps generalizing info edges with
  | nil =>
      cases h
      simp
  | cons dep rest ih =>
      rw [linkDependencies] at h
      split at h
      · cases h
      · rename_i hknown
        obtain ⟨hnot, hrest⟩ := List.nodup_cons.mp hdeps
        obtain ⟨hall, rfl⟩ := ih h hrest
        refine ⟨?_, ?_⟩
        · intro d hd
          rcases List.mem_cons.mp hd with rfl | hd
          · exact not_not.mp hknown
          · exact hall d hd
        · rw [JobRuntimeMap.modify, List.map_map]
          refine List.map_congr_left (fun e _ => ?_)
          by_cases hdep : e.jobId = dep
          · simp [hdep, hnot, addSuccessor]
          · simp [hdep]

/-- The record of a job with the jobs of a list that depend on it. -/
def addSuccessors (jobs : List (String × List String)) (d : JobRuntimeData) : JobRuntimeData :=
  { d with successors :=
      d.successors ++ (jobs.filter (fun x => decide (d.jobId ∈ x.2))).map Prod.fst }

theorem linkJobs_ok {known : List String} {jobs : List (String × List String)}
    {edges edges' : List (String × String)} {queue queue' : List String}
    (h : linkJobs hash known jobs info edges queue = .ok (linked, edges', queue'))
    (hdeps : ∀ x ∈ jobs, x.2.Nodup) :
    (∀ x ∈ jobs, ∀ d ∈ x.2, d ∈ known) ∧ linked = info.map (addSuccessors jobs) := by
  induction jobs generalizing info edges queue with
  | nil =>
      cases h
      refine ⟨by simp, ?_⟩
      have hid : addSuccessors [] = id := by
        funext d
        simp [addSuccessors]
      rw [hid, List.map_id]
  | cons x rest ih =>
      obtain ⟨job, deps⟩ := x
      rw [linkJobs] at h
      have hperm := hash.perm .dependencies deps
      split at h
      · cases h
      · rename_i info₁ edges₁ hlink
        obtain ⟨hknown, rfl⟩ := linkDependencies_ok hlink
          (hperm.nodup_iff.mpr (hdeps _ List.mem_cons_self))
        obtain ⟨hall, rfl⟩ := ih h (fun y hy => hdeps y (List.mem_cons_of_mem _ hy))
        refine ⟨?_, ?_⟩
        · intro y hy d hd
          rcases List.mem_cons.mp hy with rfl | hy
          · exact hknown d (hperm.mem_iff.mpr hd)
          · exact hall y hy d hd
        · rw [List.map_map]
          refine List.map_congr_left (fun e _ => ?_)
          simp only [Function.comp_apply, hperm.mem_iff]
          by_cases hdep : e.jobId ∈ deps
          · simp [hdep, addSuccessors, addSuccessor]
          · simp [hdep, addSuccessors]

/-- What a request that passes `validate_workflow` looks like. -/
structure WellFormed (jobs : List JobRequest) : Prop where
  nonempty : jobs ≠ []
  ids_nodup : (jobs.map JobRequest.jobId).Nodup
  deps_nodup : ∀ job ∈ jobs, job.dependsOn.Nodup
  deps_known : ∀ job ∈ jobs, ∀ d ∈ job.dependsOn, d ∈ jobs.map JobRequest.jobId

/-- The pairs of job ids and dependencies that `validate_semantic` builds. -/
def dependencyPairs (jobs : List JobRequest) : List (String × List String) :=
  jobs.map (fun job => (job.jobId, job.dependsOn))

theorem validateWorkflow_checks {policy : PolicyPlan}
    (h : validateWorkflow hash policy jobs info = .ok linked) :
    jobs ≠ [] ∧ ((dependencyPairs jobs).map Prod.fst).Nodup ∧
      (∀ job ∈ jobs, job.dependsOn.Nodup) ∧
      validateDependencies hash (dependencyPairs jobs) info = .ok linked := by
  simp only [validateWorkflow] at h
  cases hpolicy : validateAdmissionClientWorkflowPolicy policy jobs with
  | error code =>
      rw [hpolicy] at h
      cases h
  | ok _ =>
      have hnonempty : jobs ≠ [] := by
        rintro rfl
        simp only [validateAdmissionClientWorkflowPolicy] at hpolicy
        split at hpolicy <;> simp at hpolicy
      rw [hpolicy] at h
      cases hsemantic : validateSemantic jobs with
      | error code =>
          rw [hsemantic] at h
          cases h
      | ok jobsMap =>
          rw [hsemantic] at h
          obtain ⟨hmap, hids, hdeps⟩ := validateSemanticFrom_ok hsemantic List.nodup_nil
          rw [List.nil_append] at hmap
          subst hmap
          exact ⟨hnonempty, hids, hdeps, h⟩

theorem validateWorkflow_ok {policy : PolicyPlan}
    (h : validateWorkflow hash policy jobs info = .ok linked) :
    WellFormed jobs ∧
      linked = info.map (addSuccessors (hash.order .jobsMap (dependencyPairs jobs))) := by
  obtain ⟨hnonempty, hids, hdeps, h⟩ := validateWorkflow_checks h
  rw [dependencyPairs, List.map_map] at hids
  have hperm := hash.perm .jobsMap (dependencyPairs jobs)
  rw [validateDependencies] at h
  split at h
  · cases h
  · rename_i linked' edges queue hlink
    dsimp only at h
    split at h
    · cases h
    · cases h
      obtain ⟨hknown, rfl⟩ := linkJobs_ok hlink (fun x hx => by
        obtain ⟨job, hjob, rfl⟩ := List.mem_map.mp (hperm.mem_iff.mp hx)
        exact hdeps job hjob)
      refine ⟨⟨hnonempty, hids, hdeps, fun job hjob d hd => ?_⟩, rfl⟩
      have hmem := hknown (job.jobId, job.dependsOn)
        (hperm.mem_iff.mpr (List.mem_map.mpr ⟨job, hjob, rfl⟩)) d hd
      rw [dependencyPairs, List.map_map] at hmem
      exact hmem

end WorkflowAdmissionService

end FlowPilot
