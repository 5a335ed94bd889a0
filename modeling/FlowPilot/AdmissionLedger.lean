import FlowPilot.AdmissionSubmit
import FlowPilot.RuntimeLedger

/-! The rows that admission writes. A submission writes to the rows of its own workflow only, whatever
comes of it. -/

namespace FlowPilot

section Calls

variable {α β : Type} {S : Call → Prop}

variable {c : Call} {id : WorkflowIdentity} {js : List String}

theorem onlyCalls_ask (hc : S c) : (ask c).OnlyCalls S := Prog.OnlyCalls.perform hc

/-- A program that writes to no row, but for the statuses of jobs that become READY or QUEUED. -/
def OnlyAdvances (id : WorkflowIdentity) (c : Call) : Prop :=
  c.writesRows = false ∨ ∃ queued ready, c = .updateReadyJobs id queued ready

theorem onlyAdvances_ask (hc : c.writesRows = false) :
    (ask c).OnlyCalls (OnlyAdvances id) := onlyCalls_ask (.inl hc)

/-- The calls by which admission stores the runtime data of a workflow in Redis or takes it back. -/
def Call.storesRuntime : Call → Bool
  | .setWorkflowRuntime _ _ | .setJobRuntime _ _ | .addSuccessors _ _ | .addWaitingReady _ _
  | .setJobPayload _ _ | .queueWorkflowJobs _ _ | .removeQueuedJobs _ _ | .deleteJobPayload _
  | .deleteJob _ | .removeFromRetryStream _ | .deleteSuccessors _ | .deleteWorkflow _
  | .deleteWaitingReady _ => true
  | _ => false

/-- A program that stores runtime data and writes to no row, but for the statuses of the jobs `js`
of the workflow that become READY or QUEUED. -/
def Prepares (id : WorkflowIdentity) (js : List String) (c : Call) : Prop :=
  (c.storesRuntime = true ∧ c.about = some id) ∨
    ∃ queued ready, c = .updateReadyJobs id queued ready ∧ ∀ j ∈ queued ++ ready, j ∈ js

theorem prepares_ask
    (hc : c.storesRuntime = true) (habout : c.about = some id) : (ask c).OnlyCalls (Prepares id js) :=
  onlyCalls_ask (.inl ⟨hc, habout⟩)

theorem Prepares.advances (h : Prepares id js c) : OnlyAdvances id c := by
  obtain ⟨hc, -⟩ | ⟨queued, ready, rfl, -⟩ := h
  · left
    cases c <;> first | rfl | cases hc
  · exact .inr ⟨queued, ready, rfl⟩

/-- The calls by which admission stores the keys of a workflow or takes them back; the execution queue
is not among them. -/
def Call.storesKeys : Call → Bool
  | .setWorkflowRuntime _ _ | .setJobRuntime _ _ | .addSuccessors _ _ | .addWaitingReady _ _
  | .setJobPayload _ _ | .deleteJobPayload _ | .deleteJob _ | .removeFromRetryStream _
  | .deleteSuccessors _ | .deleteWorkflow _ | .deleteWaitingReady _ => true
  | _ => false

/-- A call that stores or deletes keys of the workflow. -/
def StoresKeys (id : WorkflowIdentity) (c : Call) : Prop :=
  c.storesKeys = true ∧ c.about = some id

theorem stores_ask (hc : c.storesKeys = true)
    (habout : c.about = some id) : (ask c).OnlyCalls (StoresKeys id) := onlyCalls_ask ⟨hc, habout⟩

theorem StoresKeys.prepares (h : StoresKeys id c) : Prepares id js c := by
  obtain ⟨hc, habout⟩ := h
  refine .inl ⟨?_, habout⟩
  cases c <;> first | rfl | cases hc

end Calls

section Initialization

open RedisDatabase WorkflowRuntimeGenerator

variable (id : WorkflowIdentity)

theorem deleteAllJobsPayload_stores (jobIds : List String) :
    (deleteAllJobsPayload id jobIds).OnlyCalls (StoresKeys id) := by
  induction jobIds with
  | nil => trivial
  | cons j rest ih => exact (stores_ask rfl rfl).bind (fun _ => ih)

theorem deleteAllWorkflowJobs_stores (jobIds : List String) :
    (deleteAllWorkflowJobs id jobIds).OnlyCalls (StoresKeys id) := by
  induction jobIds with
  | nil => trivial
  | cons j rest ih =>
      exact (stores_ask rfl rfl).bind (fun _ => (stores_ask rfl rfl).bind (fun _ =>
        (stores_ask rfl rfl).bind (fun _ => ih)))

theorem setAllJobs_stores (jobs : List JobRuntimeData) :
    (setAllJobs id jobs).OnlyCalls (StoresKeys id) := by
  have hset : ∀ d, (setJobRuntime id d).OnlyCalls (StoresKeys id) := by
    intro d
    refine (stores_ask rfl rfl).bind (fun stored => ?_)
    split
    · trivial
    · split
      · trivial
      · exact stores_ask rfl rfl
  induction jobs with
  | nil => trivial
  | cons d rest ih =>
      refine (hset d).bind (fun stored => ?_)
      split
      · exact ih
      · trivial

theorem createWorkflowRuntimeData_stores (hash : WorkflowHash) (jobs : List JobRuntimeData)
    (ready : List PrioritizedJob) :
    (createWorkflowRuntimeData id hash jobs ready).OnlyCalls (StoresKeys id) := by
  have hundo : (do
      deleteAllWorkflowJobs id (jobs.map JobRuntimeData.jobId)
      let _ ← (ask (.deleteWorkflow id) : Task Bool)
      pure false : Task Bool).OnlyCalls (StoresKeys id) :=
    (deleteAllWorkflowJobs_stores id _).bind (fun _ => (stores_ask rfl rfl).bind (fun _ => trivial))
  refine (stores_ask rfl rfl).bind (fun stored => ?_)
  split
  · exact (stores_ask rfl rfl).bind (fun _ => trivial)
  refine (setAllJobs_stores id jobs).bind (fun stored => ?_)
  split
  · exact hundo
  split
  · trivial
  refine (stores_ask rfl rfl).bind (fun stored => ?_)
  split
  · trivial
  · exact hundo

theorem setPayloads_stores (jobs : List JobRequest) (added : List String) :
    (setPayloads id jobs added).OnlyCalls (StoresKeys id) := by
  induction jobs generalizing added with
  | nil => trivial
  | cons job rest ih =>
      refine (stores_ask rfl rfl).bind (fun stored => ?_)
      split
      · exact ih _
      · trivial

theorem rollback_stores (added jobIds : List String) :
    (rollback id added jobIds).OnlyCalls (StoresKeys id) := by
  refine (deleteAllJobsPayload_stores id added).bind (fun _ => ?_)
  refine Prog.OnlyCalls.bind ?_ (fun _ => trivial)
  exact (deleteAllWorkflowJobs_stores id jobIds).bind (fun _ => (stores_ask rfl rfl).bind
    (fun _ => (stores_ask rfl rfl).bind (fun _ => trivial)))

theorem initializeRuntimeData_prepares (svc : Service) (policy : PolicyPlan) (req : WorkflowRequest)
    (ready : List PrioritizedJob) (info : JobRuntimeMap) :
    (initializeRuntimeData svc policy req ready info).OnlyCalls
      (Prepares req.identity (ready.map PrioritizedJob.jobId)) := by
  have hstores : ∀ {α : Type} {p : Task α}, p.OnlyCalls (StoresKeys req.identity) →
      p.OnlyCalls (Prepares req.identity (ready.map PrioritizedJob.jobId)) :=
    fun h => h.mono (fun _ => StoresKeys.prepares)
  refine (hstores (createWorkflowRuntimeData_stores _ _ _ _)).bind (fun stored => ?_)
  split
  · trivial
  refine (hstores (setPayloads_stores _ _ _)).bind (fun r => ?_)
  obtain ⟨stored, added⟩ := r
  dsimp only
  split
  · exact (hstores (rollback_stores _ _ _)).bind (fun _ => trivial)
  have hids : ∀ j ∈ (ready.take (queuedCount policy ready.length)).map PrioritizedJob.jobId ++
      (ready.drop (queuedCount policy ready.length)).map PrioritizedJob.jobId,
      j ∈ ready.map PrioritizedJob.jobId := by
    intro j hj
    rw [← List.map_append, List.take_append_drop] at hj
    exact hj
  refine (onlyCalls_ask (.inr ⟨_, _, rfl, hids⟩)).bind (fun stored => ?_)
  split
  · exact (hstores (rollback_stores _ _ _)).bind (fun _ => trivial)
  split
  · trivial
  refine (prepares_ask rfl rfl).bind (fun stored => ?_)
  split
  · trivial
  · exact (prepares_ask rfl rfl).bind (fun _ => (hstores (rollback_stores _ _ _)).bind (fun _ => trivial))

end Initialization

section Submission

open WorkflowAdmissionService WorkflowRuntimeGenerator AdmissionFailureHandler

variable {id : WorkflowIdentity} {req : WorkflowRequest}

theorem initializeRuntimeData_advances (svc : Service) (policy : PolicyPlan) (req : WorkflowRequest)
    (ready : List PrioritizedJob) (info : JobRuntimeMap) :
    (initializeRuntimeData svc policy req ready info).OnlyCalls (OnlyAdvances req.identity) :=
  (initializeRuntimeData_prepares svc policy req ready info).mono (fun _ => Prepares.advances)

theorem updateRedisRequestStatus_advances (req : WorkflowRequest) (st : RequestStatus) :
    (updateRedisRequestStatus req st).OnlyCalls (OnlyAdvances req.identity) := by
  refine (onlyAdvances_ask rfl).bind (fun _ => ?_)
  split
  · exact (onlyAdvances_ask rfl).bind (fun _ => (onlyAdvances_ask rfl).bind (fun _ => trivial))
  · trivial

theorem handleRequestAccepted_advances (req : WorkflowRequest) :
    (handleRequestAccepted req).OnlyCalls (OnlyAdvances req.identity) :=
  (updateRedisRequestStatus_advances req .admitted).bind (fun _ =>
    (onlyAdvances_ask rfl).bind (fun _ => trivial))

/-- The calls of a submission but for those that store the runtime data: each is made with the ids of
the request. -/
def Call.Files (req : WorkflowRequest) : Call → Prop
  | .admitRequest args => (⟨args.clientId, args.workflowId⟩ : WorkflowIdentity) = req.identity
  | .setRequestStatus client request _ | .releaseRequestId client request
  | .updateRequestStatus client request _ _ => client = req.clientId ∧ request = req.requestId
  | .insertRequest row => row.clientId = req.clientId ∧ row.requestId = req.requestId
  | .getClientActiveWorkflowsCount client => client = req.clientId
  | .removeActiveWorkflow id | .updateWorkflowStatus id _ | .failAllJobsWaitingToRun id =>
      id = req.identity
  | .addWorkflow row => row.identity = req.identity
  | .addWorkflowJobs rows => ∀ row ∈ rows, row.key.identity = req.identity
  | _ => False

def Call.Submits (req : WorkflowRequest) (c : Call) : Prop :=
  c.Files req ∨ ∃ js, Prepares req.identity js c

theorem files_ask {c : Call} (hc : c.Files req) : (ask c).OnlyCalls (Call.Files req) :=
  onlyCalls_ask hc

variable (req)

theorem updateRedisRequestStatus_files (st : RequestStatus) :
    (updateRedisRequestStatus req st).OnlyCalls (Call.Files req) := by
  refine (files_ask (by exact ⟨rfl, rfl⟩)).bind (fun _ => ?_)
  split
  · exact (files_ask (by exact ⟨rfl, rfl⟩)).bind (fun _ =>
      (files_ask (by exact rfl)).bind (fun _ => trivial))
  · trivial

theorem handleRequestAccepted_files : (handleRequestAccepted req).OnlyCalls (Call.Files req) :=
  (updateRedisRequestStatus_files req .admitted).bind (fun _ =>
    (files_ask (by exact ⟨rfl, rfl⟩)).bind (fun _ => trivial))

theorem handleRejection_files (stage : AdmissionStage) (reason : StatusCode) :
    (handleRejection req stage reason).OnlyCalls (Call.Files req) := by
  have hfail : (failWorkflow req.identity).OnlyCalls (Call.Files req) :=
    (files_ask (by exact rfl)).bind (fun _ => (files_ask (by exact rfl)).bind (fun _ => trivial))
  have hrecord : (do
      let _ ← (ask (.updateRequestStatus req.clientId req.requestId .rejected reason.text) :
        Task Bool)
      failWorkflow req.identity
      pure ⟨false, reason, reason.text⟩ : Task ValidationResult).OnlyCalls (Call.Files req) :=
    (files_ask (by exact ⟨rfl, rfl⟩)).bind (fun _ => hfail.bind (fun _ => trivial))
  unfold handleRejection
  split <;> split
  · exact (updateRedisRequestStatus_files req .rejected).bind (fun _ => hrecord)
  · exact hrecord
  · exact (updateRedisRequestStatus_files req .rejected).bind (fun _ => trivial)
  · trivial

theorem persistRequest_files (client : ClientConfig) :
    (persistRequest client req).OnlyCalls (Call.Files req) := by
  refine (files_ask (by exact ⟨rfl, rfl⟩)).bind (fun r => ?_)
  cases r with
  | error code => trivial
  | ok _ =>
      refine (files_ask (by exact rfl)).bind (fun n => ?_)
      cases n with
      | none => trivial
      | some n =>
          dsimp only
          split
          · trivial
          · split <;> trivial

theorem persistWorkflow_files (svc : Service) (info : JobRuntimeMap) :
    (persistWorkflow svc req info).OnlyCalls (Call.Files req) := by
  refine (files_ask (by exact rfl)).bind (fun r => ?_)
  cases r with
  | error code => trivial
  | ok _ =>
      refine (files_ask ?_).bind (fun stored => ?_)
      · intro row hrow
        obtain ⟨d, -, rfl⟩ := List.mem_map.mp hrow
        rfl
      · split
        · exact (files_ask (by exact rfl)).bind (fun _ => trivial)
        · exact (files_ask (by exact rfl)).bind (fun _ => trivial)

theorem submitWorkflow_submits (svc : Service) :
    (submitWorkflow svc (.request req)).OnlyCalls (Call.Submits req) := by
  have hreject : ∀ stage reason, (some <$> handleRejection req stage reason).OnlyCalls
      (Call.Submits req) := fun stage reason =>
    ((handleRejection_files req stage reason).mono (fun _ => .inl)).bind (fun _ => trivial)
  unfold submitWorkflow
  dsimp only
  split
  · trivial
  rename_i client hclient
  refine ((files_ask (by exact rfl)).mono (fun _ => .inl)).bind (fun r => ?_)
  cases r with
  | error code => exact hreject _ _
  | ok _ =>
      refine ((persistRequest_files req client).mono (fun _ => .inl)).bind (fun r => ?_)
      cases r with
      | error code => exact hreject _ _
      | ok _ =>
          dsimp only
          unfold createWorkflow
          split
          · trivial
          · exact hreject _ _
          · split
            · exact hreject _ _
            · refine ((persistWorkflow_files req svc _).mono (fun _ => .inl)).bind (fun r => ?_)
              cases r with
              | error code => exact hreject _ _
              | ok _ =>
                  refine ((initializeRuntimeData_prepares svc _ req _ _).mono
                    (fun _ h => .inr ⟨_, h⟩)).bind (fun stored => ?_)
                  split
                  · refine ((handleRequestAccepted_files req).mono (fun _ => .inl)).bind
                      (fun _ => trivial)
                  · exact hreject _ _

variable {req}

theorem spares_of_submits (h : req.identity ≠ id) {c : Call} (hc : c.Submits req) : c.Spares id := by
  obtain hc | ⟨js, hc⟩ := hc
  · cases c <;> first
      | trivial
      | exact fun heq => h (hc.symm.trans heq)
      | exact fun row hrow heq => h ((hc row hrow).symm.trans heq)
  · obtain hc | ⟨queued, ready, rfl⟩ := hc.advances
    · exact Call.spares_of_writesRows hc
    · exact h

theorem submitWorkflow_spares (h : req.identity ≠ id) (svc : Service) :
    (submitWorkflow svc (.request req)).OnlyCalls (Call.Spares id) :=
  (submitWorkflow_submits req svc).mono (fun _ => spares_of_submits h)

end Submission

end FlowPilot
