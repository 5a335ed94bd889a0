import FlowPilot.BaseSortedSet

/-! The values that the two stores of the workflow engine hold: the status enumerations, the
identity of a workflow and of a job, the runtime hashes of Redis with the fields the scripts read,
and the events that pass between workers, schedulers and completion handlers.

A hash field that may be missing is an `Option`; an integer field is `none` as well when its text is
empty, which every reader of such a field takes for missing. The fields `owned_by`, `creation_time`
and `last_update_time` are written by the source and read by none of its functions; they are left
out. -/

namespace FlowPilot

/-- `WorkflowStatus` of `database_models.h`. -/
inductive WorkflowStatus where
  | admitted | ready | running | completed | failed | canceled | unknown
  deriving DecidableEq, Repr

/-- `JobStatus` of `database_models.h`. -/
inductive JobStatus where
  | pending | ready | queued | pendingExecution | running | retryDelay | completed | failed
  | aborted | canceled | unknown
  deriving DecidableEq, Repr

/-- `RequestStatus` of `database_models.h`. -/
inductive RequestStatus where
  | received | rejected | admitted | unknown
  deriving DecidableEq, Repr

/-- `StatusCodes` of `flow_pilot_error_msgs.h`. -/
inductive StatusCode where
  | invalidJsonFormat | schemaValidationFailed | clientNotFound | workflowSizeExceeded
  | jobPolicyViolation | jobCountExceeded | jobCountZero | jobSizeExceeded | missingDependency
  | duplicateDependency | duplicateJobId | circularDependency | clientPolicyViolation
  | internalDbFailure | duplicateRequest | workflowIdExists | rateLimitExceeded
  | concurrentWorkflowLimitExceeded | requestAdmitted | workflowAdmitted | statusUpdatedFailure
  | jobExecutionFailure | ok
  deriving DecidableEq, Repr

/-- What `try_set_job_to_running_async` answers. -/
inductive StartJobResult where
  | firstToStart | started | canceledByWorkflowState | alreadyCanceled
  | invariantViolationJobStatus | invariantViolationWorkflowStatus
  | invariantViolationWorkflowTime | internalError
  deriving DecidableEq, Repr

namespace JobStatus

/-- The statuses in which a job occupies an execution slot of its workflow. -/
def isActive : JobStatus → Bool
  | queued | pendingExecution | running => true
  | _ => false

/-- The statuses in which a job is done. -/
def isTerminal : JobStatus → Bool
  | completed | failed | aborted => true
  | _ => false

/-- The statuses from which the failure script cancels a sibling, `is_waiting_to_run`. -/
def isWaitingToRun : JobStatus → Bool
  | pending | retryDelay | ready | queued => true
  | _ => false

theorem not_isActive_of_isTerminal {st : JobStatus} (h : st.isTerminal = true) :
    st.isActive = false := by
  cases st <;> simp_all [isTerminal, isActive]

theorem not_isTerminal_of_isWaitingToRun {st : JobStatus} (h : st.isWaitingToRun = true) :
    st.isTerminal = false := by
  cases st <;> simp_all [isTerminal, isWaitingToRun]

end JobStatus

/-- `WorkflowIdentity`: a workflow is named by its client and its workflow id. -/
structure WorkflowIdentity where
  clientId : String
  workflowId : String
  deriving DecidableEq, Repr

/-- A job of a workflow; Redis stores it as the text of `RedisKeys::job_key`. -/
structure JobKey where
  identity : WorkflowIdentity
  jobId : String
  deriving DecidableEq, Repr

/-- The fields of the Redis hash of a workflow. -/
structure WorkflowHash where
  status : Option WorkflowStatus := none
  totalJobs : Option Int := none
  maxConcurrentJobs : Option Int := none
  reservedExecutionSlots : Option Int := none
  pendingJobs : Option Int := none
  completedJobs : Option Int := none
  failedJobs : Option Int := none
  maxRunTime : Option Int := none
  startRunTime : Option Int := none
  deriving DecidableEq, Repr

/-- The fields of the Redis hash of a job. -/
structure JobHash where
  status : Option JobStatus := none
  remainingDependencies : Option Int := none
  priority : Option Int := none
  timeoutSec : Option Int := none
  maxRetries : Option Int := none
  currentRetryCount : Option Int := none
  retryDelaySec : Option Int := none
  retryBackoffPolicy : Option String := none
  payloadSizeBytes : Option Int := none
  startRunTime : Option Int := none
  deriving DecidableEq, Repr

/-- `JobRuntimeData`. A field that the source leaves uninitialised starts at 0 here; no path reads it
before it is filled. -/
structure JobRuntimeData where
  jobUuid : Nat := 0
  jobId : String := ""
  status : Option JobStatus := none
  remainingDependencies : Int := 0
  priority : Int := 0
  timeoutSec : Int := 0
  startRunTime : Int := 0
  maxRetries : Int := 0
  currentRetryCount : Int := 0
  retryDelaySec : Int := 0
  retryBackoffPolicy : String := ""
  payloadSizeBytes : Int := 0
  successors : List String := []
  deriving DecidableEq, Repr

/-- `JobCompletionData`: one entry of the completion stream. -/
structure JobCompletionData where
  identity : WorkflowIdentity
  jobId : String
  status : JobStatus
  errorCode : StatusCode
  deriving DecidableEq, Repr

def JobCompletionData.key (e : JobCompletionData) : JobKey := ⟨e.identity, e.jobId⟩

/-- `JobExeData`: a claimed job on its way from a scheduler to a worker. -/
structure JobExeData where
  identity : WorkflowIdentity
  jobId : String
  payload : List UInt8
  deriving DecidableEq, Repr

def JobExeData.key (e : JobExeData) : JobKey := ⟨e.identity, e.jobId⟩

end FlowPilot
