import FlowPilot.AdmissionValidation
import FlowPilot.RuntimeTasks

/-! `submit_workflow`: the stages of admission, what each of them stores, and how a rejection is
cleaned up. The program makes the same calls as the source, in the same order, with every rollback;
it ends with `none` when reading the request throws, since nothing catches that exception. -/

namespace FlowPilot

/-- `status_code_to_string`. -/
def StatusCode.text : StatusCode → String
  | .invalidJsonFormat => "Invalid JSON format"
  | .schemaValidationFailed => "Schema validation failed"
  | .clientNotFound => "Client not found"
  | .workflowSizeExceeded => "Workflow size exceeds the maximum allowed by client's policy"
  | .jobPolicyViolation => "Job parameter values violates client's policy constraints"
  | .jobCountExceeded => "Number of jobs in workflow exceeds the maximum allowed by client's policy"
  | .jobCountZero => "Workflow must contain at least one job"
  | .jobSizeExceeded => "A job in the workflow exceeds the maximum allowed size by client's policy"
  | .missingDependency => "A job has a missing dependency"
  | .duplicateDependency => "Duplicate dependency found for job"
  | .duplicateJobId => "Duplicate job ID found for job"
  | .circularDependency => "Circular dependency detected in workflow"
  | .clientPolicyViolation => "Workflow violates client's policy constraints"
  | .internalDbFailure => "Internal DB failure"
  | .duplicateRequest => "Duplicate request"
  | .workflowIdExists => "Workflow ID already exists"
  | .rateLimitExceeded => "Rate limit exceeded"
  | .concurrentWorkflowLimitExceeded => "Concurrent workflow limit exceeded"
  | .requestAdmitted => "Request was admitted"
  | .workflowAdmitted => "Workflow was validated and admitted"
  | .statusUpdatedFailure => "Failed to update status"
  | .jobExecutionFailure => "Job execution failed"
  | .ok => "OK"

/-- `RateLimitConfig` and `PolicyPlan` of a client. -/
structure ClientConfig where
  maxConcurrentWorkflows : Int := 10
  maxRequests : Int := 100
  windowSec : Int := 10
  policy : PolicyPlan := {}
  deriving DecidableEq, Repr

/-- What the admission service reads besides the stores. -/
structure Service where
  hash : HashOrder := .insertion
  uuids : UuidSource := .counting
  version : String := "v1.0"
  keyRetentionTtl : Int := 900
  client : String → Option ClientConfig

/-- A request body as the JSON parser and the schema validator leave it; the texts are theirs. -/
inductive Body where
  | invalidJson (what : String)
  | schemaViolation (what : String)
  | request (req : WorkflowRequest)

structure ValidationResult where
  valid : Bool
  statusCode : StatusCode
  errorsMsg : String
  deriving DecidableEq, Repr

/-- `AdmissionStage`, as far as a rejection can name it. -/
inductive AdmissionStage where
  | admitRequest | persistRequest | validateWorkflow | persistWorkflow | generateRuntimeData
  deriving DecidableEq, Repr

namespace AdmissionStage

/-- The position in the enumeration of the source. -/
def index : AdmissionStage → Nat
  | admitRequest => 2
  | persistRequest => 3
  | validateWorkflow => 4
  | persistWorkflow => 5
  | generateRuntimeData => 6

end AdmissionStage

namespace AdmissionFailureHandler

def updateRedisRequestStatus (req : WorkflowRequest) (st : RequestStatus) : Task Unit := do
  let _ ← (ask (.setRequestStatus req.clientId req.requestId st) : Task Bool)
  if st ≠ .admitted then
    let _ ← (ask (.releaseRequestId req.clientId req.requestId) : Task Bool)
    let _ ← (ask (.removeActiveWorkflow req.identity) : Task Bool)
    pure ()
  else pure ()

/-- `fail_workflow`, by the client and the workflow id of the request. -/
def failWorkflow (id : WorkflowIdentity) : Task Unit := do
  let _ ← (ask (.failAllJobsWaitingToRun id) : Task Bool)
  let _ ← (ask (.updateWorkflowStatus id .failed) : Task Bool)
  pure ()

def handleRejection (req : WorkflowRequest) (stage : AdmissionStage) (reason : StatusCode) :
    Task ValidationResult := do
  if stage.index ≥ AdmissionStage.persistRequest.index then
    updateRedisRequestStatus req .rejected
  if stage.index > AdmissionStage.persistRequest.index then
    let _ ← (ask (.updateRequestStatus req.clientId req.requestId .rejected reason.text) :
      Task Bool)
    failWorkflow req.identity
  pure ⟨false, reason, reason.text⟩

end AdmissionFailureHandler

namespace RedisDatabase

/-- The fields `set_job_runtime_async` writes. -/
def jobHash (d : JobRuntimeData) : JobHash where
  status := d.status
  remainingDependencies := some d.remainingDependencies
  priority := some d.priority
  timeoutSec := some d.timeoutSec
  maxRetries := some d.maxRetries
  currentRetryCount := some d.currentRetryCount
  retryDelaySec := some d.retryDelaySec
  retryBackoffPolicy := some d.retryBackoffPolicy
  payloadSizeBytes := some d.payloadSizeBytes
  startRunTime := none

def setJobRuntime (id : WorkflowIdentity) (d : JobRuntimeData) : Task Bool := do
  if !(← (ask (.setJobRuntime ⟨id, d.jobId⟩ (jobHash d)) : Task Bool)) then return false
  if d.successors.isEmpty then pure true
  else ask (.addSuccessors ⟨id, d.jobId⟩ d.successors)

/-- The loop over the jobs in `create_workflow_runtime_data_async`. -/
def setAllJobs (id : WorkflowIdentity) : List JobRuntimeData → Task Bool
  | [] => pure true
  | d :: rest => do
      if (← setJobRuntime id d) then setAllJobs id rest else pure false

/-- The score of a job in a sorted set that admission fills; the source passes it as an unsigned
number. -/
def score (j : PrioritizedJob) : String × Int := (j.jobId, j.priority % 4294967296)

def createWorkflowRuntimeData (id : WorkflowIdentity) (hash : WorkflowHash)
    (jobs : List JobRuntimeData) (ready : List PrioritizedJob) : Task Bool := do
  if !(← (ask (.setWorkflowRuntime id hash) : Task Bool)) then
    let _ ← (ask (.deleteWorkflow id) : Task Bool)
    return false
  if !(← setAllJobs id jobs) then
    deleteAllWorkflowJobs id (jobs.map JobRuntimeData.jobId)
    let _ ← (ask (.deleteWorkflow id) : Task Bool)
    return false
  if ready.isEmpty then pure true
  else if (← (ask (.addWaitingReady id (ready.map score)) : Task Bool)) then pure true
  else
    deleteAllWorkflowJobs id (jobs.map JobRuntimeData.jobId)
    let _ ← (ask (.deleteWorkflow id) : Task Bool)
    pure false

end RedisDatabase

namespace WorkflowRuntimeGenerator

/-- How many ready jobs are queued at once. The limit is read as an unsigned number, so a negative
one does not limit. -/
def queuedCount (policy : PolicyPlan) (ready : Nat) : Nat :=
  if 0 ≤ policy.maxConcurrentJobs then min ready policy.maxConcurrentJobs.toNat else ready

/-- The runtime data with the first ready jobs set to QUEUED. -/
def markQueued (queued : List PrioritizedJob) (info : JobRuntimeMap) : JobRuntimeMap :=
  queued.foldl (fun m j => m.modify j.jobId (fun d => { d with status := some .queued })) info

/-- The fields `set_workflow_runtime_async` writes. -/
def workflowHash (policy : PolicyPlan) (totalJobs ready queued : Nat) : WorkflowHash where
  status := some .ready
  totalJobs := some totalJobs
  maxConcurrentJobs := some policy.maxConcurrentJobs
  reservedExecutionSlots := some queued
  pendingJobs := some (totalJobs - ready)
  completedJobs := some 0
  failedJobs := some 0
  maxRunTime := some policy.maxWorkflowRuntimeSec
  startRunTime := none

/-- The payload loop of `initialize_runtime_data`; `added` are the jobs done so far, whose payloads
are deleted when a later one fails. -/
def setPayloads (id : WorkflowIdentity) : List JobRequest → List String → Task (Bool × List String)
  | [], added => pure (true, added)
  | job :: rest, added => do
      if (← (ask (.setJobPayload ⟨id, job.jobId⟩ (job.payload.getD [])) : Task Bool)) then
        setPayloads id rest (added ++ [job.jobId])
      else pure (false, added)

/-- The rollback of `initialize_runtime_data`. -/
def rollback (id : WorkflowIdentity) (added jobIds : List String) : Task Unit := do
  RedisDatabase.deleteAllJobsPayload id added
  let _ ← RedisDatabase.deleteWorkflowRuntimeData id jobIds
  pure ()

def initializeRuntimeData (svc : Service) (policy : PolicyPlan) (req : WorkflowRequest)
    (ready : List PrioritizedJob) (info : JobRuntimeMap) : Task Bool := do
  let id := req.identity
  let queued := ready.take (queuedCount policy ready.length)
  let waiting := ready.drop (queuedCount policy ready.length)
  let hash := workflowHash policy req.jobs.length ready.length queued.length
  let jobs := svc.hash.order .jobsRuntimeInfo (markQueued queued info)
  let jobIds := jobs.map JobRuntimeData.jobId
  if !(← RedisDatabase.createWorkflowRuntimeData id hash jobs waiting) then return false
  let (stored, added) ← setPayloads id req.jobs []
  if !stored then
    rollback id added jobIds
    return false
  if !(← (ask (.updateReadyJobs id (queued.map PrioritizedJob.jobId)
      (waiting.map PrioritizedJob.jobId)) : Task Bool)) then
    rollback id added jobIds
    return false
  if queued.isEmpty then return true
  if (← (ask (.queueWorkflowJobs id (queued.map RedisDatabase.score)) : Task Bool)) then pure true
  else
    let _ ← (ask (.removeQueuedJobs id (queued.map PrioritizedJob.jobId)) : Task Bool)
    rollback id added jobIds
    pure false

end WorkflowRuntimeGenerator

namespace WorkflowAdmissionService

/-- `add_request` with its policy checks: the request row stays when one of them fails. -/
def persistRequest (client : ClientConfig) (req : WorkflowRequest) :
    Task (Except StatusCode Unit) := do
  let row : RequestRow :=
    ⟨req.clientId, req.requestId, req.workflowId, req.bodySize, .received, "", 0⟩
  match ← (ask (.insertRequest row) : Task (Except StatusCode Unit)) with
  | .error code => pure (.error code)
  | .ok _ =>
      match ← (ask (.getClientActiveWorkflowsCount req.clientId) : Task (Option Nat)) with
      | none => pure (.error .internalDbFailure)
      | some n =>
          if (n : Int) ≥ client.maxConcurrentWorkflows then pure (.error .rateLimitExceeded)
          else if req.bodySize > client.policy.maxWorkflowSizeKb * 1024 then
            pure (.error .workflowSizeExceeded)
          else pure (.ok ())

/-- The rows `persist_workflow` inserts for the jobs. -/
def jobRows (svc : Service) (id : WorkflowIdentity) (info : JobRuntimeMap) : List JobRow :=
  (svc.hash.order .jobsRuntimeInfo info).map (fun d =>
    { jobUuid := d.jobUuid, key := ⟨id, d.jobId⟩, status := .pending })

/-- `persist_workflow`. The status update that follows the inserts is not checked. -/
def persistWorkflow (svc : Service) (req : WorkflowRequest) (info : JobRuntimeMap) :
    Task (Except StatusCode Unit) := do
  let row : WorkflowRow :=
    { identity := req.identity, workflowType := req.workflowType, version := svc.version,
      status := .admitted, totalJobs := req.jobs.length, receivedAt := 0 }
  match ← (ask (.addWorkflow row) : Task (Except StatusCode Unit)) with
  | .error code => pure (.error code)
  | .ok _ =>
      if (← (ask (.addWorkflowJobs (jobRows svc req.identity info)) : Task Bool)) then
        let _ ← (ask (.updateWorkflowStatus req.identity .ready) : Task Bool)
        pure (.ok ())
      else
        let _ ← (ask (.updateWorkflowStatus req.identity .failed) : Task Bool)
        pure (.error .internalDbFailure)

def handleRequestAccepted (req : WorkflowRequest) : Task ValidationResult := do
  AdmissionFailureHandler.updateRedisRequestStatus req .admitted
  let _ ← (ask (.updateRequestStatus req.clientId req.requestId .admitted
    StatusCode.workflowAdmitted.text) : Task Bool)
  pure ⟨true, .workflowAdmitted, ""⟩

/-- `submit_workflow` from the point where the request is admitted and stored. -/
def createWorkflow (svc : Service) (client : ClientConfig) (req : WorkflowRequest) :
    Task (Option ValidationResult) := do
  match WorkflowRuntimeGenerator.buildJobsRuntimeInfo svc.uuids client.policy req.jobs with
  | .threw => pure none
  | .violation => some <$>
      AdmissionFailureHandler.handleRejection req .validateWorkflow .jobPolicyViolation
  | .built info ready =>
      match validateWorkflow svc.hash client.policy req.jobs info with
      | .error code => some <$>
          AdmissionFailureHandler.handleRejection req .validateWorkflow code
      | .ok linked =>
          match ← persistWorkflow svc req linked with
          | .error code => some <$>
              AdmissionFailureHandler.handleRejection req .persistWorkflow code
          | .ok _ =>
              if (← WorkflowRuntimeGenerator.initializeRuntimeData svc client.policy req ready
                  linked) then some <$> handleRequestAccepted req
              else some <$>
                AdmissionFailureHandler.handleRejection req .generateRuntimeData .internalDbFailure

def submitWorkflow (svc : Service) (body : Body) : Task (Option ValidationResult) := do
  match body with
  | .invalidJson what => pure (some ⟨false, .invalidJsonFormat, "JSON parse error: " ++ what⟩)
  | .schemaViolation what =>
      pure (some ⟨false, .schemaValidationFailed, "Schema validation error: " ++ what⟩)
  | .request req =>
      match svc.client req.clientId with
      | none => pure (some ⟨false, .clientNotFound, StatusCode.clientNotFound.text⟩)
      | some client =>
          let args : Redis.AdmitArgs :=
            ⟨req.clientId, req.requestId, req.workflowId, client.maxConcurrentWorkflows,
              client.maxRequests, client.windowSec, svc.keyRetentionTtl⟩
          match ← (ask (.admitRequest args) : Task (Except StatusCode Unit)) with
          | .error code => some <$>
              AdmissionFailureHandler.handleRejection req .admitRequest code
          | .ok _ =>
              match ← persistRequest client req with
              | .error code => some <$>
                  AdmissionFailureHandler.handleRejection req .persistRequest code
              | .ok _ => createWorkflow svc client req

end WorkflowAdmissionService

/-- A service whose clients may run `limit` jobs of a workflow at once. -/
def serviceOf (limit : Int) : Service where
  client := fun _ => some { policy := { maxConcurrentJobs := limit } }

def requestOf (jobs : List JobRequest) : WorkflowRequest where
  clientId := "client"
  requestId := "request"
  workflowId := "workflow"
  workflowType := "batch"
  jobs := jobs

end FlowPilot
