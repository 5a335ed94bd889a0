import FlowPilot.RuntimeCalls

/-! The programs of the engine's components, one pass of each main loop: `scheduler_main_loop`,
`run_worker_loop`, the completion handler's loop over `process_completed_jobs` and the retry
handler's loop over `process_retry_job`. A loop is any number of passes, so a system of any number of
schedulers, workers and handlers is a pool in which passes are started at will. -/

namespace FlowPilot

def ask (c : Call) : Task c.Reply := Prog.perform c

namespace RedisDatabase

/-- `delete_all_jobs_payload_async`, which reports success whatever the commands answer. -/
def deleteAllJobsPayload (id : WorkflowIdentity) : List String → Task Unit
  | [] => pure ()
  | j :: rest => do
      ask (.deleteJobPayload ⟨id, j⟩)
      deleteAllJobsPayload id rest

/-- `delete_all_workflow_jobs_async`, which reports success whatever the commands answer. -/
def deleteAllWorkflowJobs (id : WorkflowIdentity) : List String → Task Unit
  | [] => pure ()
  | j :: rest => do
      ask (.deleteJob ⟨id, j⟩)
      ask (.removeFromRetryStream ⟨id, j⟩)
      ask (.deleteSuccessors ⟨id, j⟩)
      deleteAllWorkflowJobs id rest

def deleteWorkflowRuntimeData (id : WorkflowIdentity) (jobIds : List String) : Task Bool := do
  deleteAllWorkflowJobs id jobIds
  let deleted ← (ask (.deleteWorkflow id) : Task Bool)
  let cleared ← (ask (.deleteWaitingReady id) : Task Bool)
  pure (deleted && cleared)

end RedisDatabase

namespace Scheduler

/-- One turn of the loop in `blocking_dequeue_job_for_execution_async`: the job it claimed, or
nothing when there was no job, a command failed or the popped job is not to be run any more. -/
def blockingDequeueJobForExecution : Task (Option JobKey) := do
  let some k ← (ask .popExecutionQueue : Task (Option JobKey)) | pure none
  let some true ← (ask (.jobType k) : Task (Option Bool)) | pure none
  let some true ← (ask (.claimJob k) : Task (Option Bool)) | pure none
  pure (some k)

/-- `get_next_ready_job`: the claimed job and the size of its payload. A job whose runtime data
cannot be read is dropped here, with its status left at PENDING_EXECUTION. -/
def getNextReadyJob : Task (Option (JobKey × Nat)) := do
  let some k ← blockingDequeueJobForExecution | pure none
  let (fetched, runtime) ← (ask (.fetchJobRuntime k) : Task (Bool × JobRuntimeData))
  if fetched then pure (some (k, runtime.payloadSizeBytes.toNat)) else pure none

/-- The event by which a scheduler reports a payload it could not fetch. -/
def payloadFailure (k : JobKey) : JobCompletionData :=
  ⟨k.identity, k.jobId, .aborted, .internalDbFailure⟩

/-- Enqueues that event; a failure to do so is only logged. -/
def reportPayloadFailure (k : JobKey) : Task Unit := do
  let _ ← (ask (.enqueueJobCompletion (payloadFailure k)) : Task Bool)
  pure ()

/-- One turn of `scheduler_main_loop`. -/
def mainLoop : Task Unit := do
  let some (k, size) ← getNextReadyJob | pure ()
  if size > 0 then
    let payload ← (ask (.fetchJobPayload k) : Task (Option (List UInt8)))
    match payload with
    | some bytes =>
        if bytes.length = size then ask (.pushLocal ⟨k.identity, k.jobId, bytes⟩)
        else reportPayloadFailure k
    | none => reportPayloadFailure k
  else ask (.pushLocal ⟨k.identity, k.jobId, []⟩)

end Scheduler

namespace WorkerThread

def updateJobStatusToRunning (k : JobKey) : Task Bool := do
  let result ← (ask (.trySetJobToRunning k) : Task StartJobResult)
  match result with
  | .firstToStart =>
      .andThen (ask (.updateWorkflowStatus k.identity .running)) (ask (.updateJobStatus k .running))
  | .started => ask (.updateJobStatus k .running)
  | _ => pure false

def updateCompletionHandler (e : JobCompletionData) : Task Unit := do
  let _ ← (ask (.enqueueJobCompletion e) : Task Bool)
  pure ()

/-- One turn of `run_worker_loop`. -/
def runWorkerLoop : Task Unit := do
  let some job ← (ask .popLocal : Task (Option JobExeData)) | pure ()
  let started ← updateJobStatusToRunning job.key
  if started then
    let succeeded ← (ask (.executeJob job) : Task Bool)
    if succeeded then updateCompletionHandler ⟨job.identity, job.jobId, .completed, .ok⟩
    else updateCompletionHandler ⟨job.identity, job.jobId, .failed, .jobExecutionFailure⟩
  else updateCompletionHandler ⟨job.identity, job.jobId, .aborted, .statusUpdatedFailure⟩

end WorkerThread

namespace CompletionHandler

def cleanupCompletedWorkflowRedisEntries (id : WorkflowIdentity) : Task Bool := do
  let some rows ← (ask (.getAllJobsForWorkflow id) : Task (Option (List JobRow))) | pure false
  let jobIds := rows.map (fun r => r.key.jobId)
  .andThen (ask (.removeActiveWorkflow id)) do
    RedisDatabase.deleteAllJobsPayload id jobIds
    RedisDatabase.deleteWorkflowRuntimeData id jobIds

/-- The part of `handle_job_completed` that follows the success script. -/
def persistJobCompleted (k : JobKey) (completed : Redis.CompletedJob) : Task Bool :=
  .andThen (ask (.updateJobStatus k .completed)) <|
  .andThen (.onlyIf completed.workflowCompleted
    (ask (.updateWorkflowStatus k.identity .completed))) <|
  .andThen (.onlyIf (completed.promoted.isSome || !completed.readyJobIds.isEmpty)
    (ask (.updateReadyJobs k.identity completed.promoted.toList completed.readyJobIds))) <|
  .onlyIf completed.workflowCompleted (cleanupCompletedWorkflowRedisEntries k.identity)

def handleJobCompleted (k : JobKey) : Task Bool := do
  let some completed ←
    (ask (.completeSuccessfulJob k) : Task (Option Redis.CompletedJob)) | pure false
  persistJobCompleted k completed

/-- The status a job that never ran to its end is given by the SQLite repairs. -/
def repairedStatus (st : JobStatus) : Option JobStatus :=
  if st.isWaitingToRun then some .aborted
  else if st = .running then some .failed
  else none

/-- The loop of the SQLite repairs over the jobs of a workflow. -/
def repairJobs (id : WorkflowIdentity) (skip : Option String) : List JobRow → Task Bool
  | [] => pure true
  | row :: rest => do
      match repairedStatus row.status with
      | none => repairJobs id skip rest
      | some st =>
          if some row.key.jobId = skip then repairJobs id skip rest
          else
            let updated ← (ask (.updateJobStatus ⟨id, row.key.jobId⟩ st) : Task Bool)
            let others ← repairJobs id skip rest
            pure (updated && others)

def persistFailedWorkflowAfterRuntimeFailure (k : JobKey) (terminalJobStatus : JobStatus) :
    Task Bool := do
  let updated ← (ask (.updateJobStatus k terminalJobStatus) : Task Bool)
  let rows ← (ask (.getAllJobsForWorkflow k.identity) : Task (Option (List JobRow)))
  let repaired ← repairJobs k.identity (some k.jobId) (rows.getD [])
  let failed ← (ask (.updateWorkflowStatus k.identity .failed) : Task Bool)
  pure (updated && rows.isSome && repaired && failed)

def persistFailedWorkflowAfterMissingRuntime (id : WorkflowIdentity) : Task Bool := do
  let rows ← (ask (.getAllJobsForWorkflow id) : Task (Option (List JobRow)))
  let repaired ← repairJobs id none (rows.getD [])
  let failed ← (ask (.updateWorkflowStatus id .failed) : Task Bool)
  pure (rows.isSome && repaired && failed)

def isJobRuntimeExpired (runtime : JobRuntimeData) (now : Int) : Bool :=
  decide (0 < runtime.startRunTime ∧ 0 < runtime.timeoutSec ∧
    now - runtime.startRunTime > runtime.timeoutSec)

def handleJobRetry (k : JobKey) (updatedRetryCount retryDelaySec : Int) : Task Bool := do
  let clock ← (ask (.readClock k.identity) : Task Clock)
  let retryAtMs := clock.nowMs + max 0 retryDelaySec * 1000 + clock.jitterMs
  let some promoted ← (ask (.scheduleJobRetry k updatedRetryCount retryAtMs) :
    Task (Option (Option String))) | pure false
  .andThen (ask (.updateJobStatus k .retryDelay)) <|
    .onlyIf promoted.isSome (ask (.updateReadyJobs k.identity promoted.toList []))

/-- The updates of the canceled siblings in `handle_job_failed`. -/
def updateCanceled (id : WorkflowIdentity) : List String → Task Bool
  | [] => pure true
  | j :: rest => do
      let updated ← (ask (.updateJobStatus ⟨id, j⟩ .aborted) : Task Bool)
      let others ← updateCanceled id rest
      pure (updated && others)

/-- The part of `handle_job_failed` that follows the failure script. -/
def persistJobFailed (k : JobKey) (terminalJobStatus : JobStatus) (failed : Redis.FailedJob) :
    Task Bool := do
  let marked ← .onlyIf (terminalJobStatus == .aborted) (ask (.setJobStatus k .aborted))
  let updated ← (ask (.updateJobStatus k terminalJobStatus) : Task Bool)
  let canceled ← updateCanceled k.identity failed.canceledJobIds
  let recorded ← .onlyIf failed.workflowFailed (ask (.updateWorkflowStatus k.identity .failed))
  let cleaned ← .onlyIf failed.workflowCompleted
    (cleanupCompletedWorkflowRedisEntries k.identity)
  pure (marked && updated && canceled && recorded && cleaned)

/-- `handle_job_failed` once the job is not to be retried. -/
def failJob (k : JobKey) (terminalJobStatus : JobStatus) (updatedRetryCount : Int) : Task Bool := do
  let some rows ← (ask (.getAllJobsForWorkflow k.identity) : Task (Option (List JobRow)))
    | persistFailedWorkflowAfterRuntimeFailure k .failed
  let some failed ←
    (ask (.completeFailedJob k updatedRetryCount (rows.map (fun r => r.key.jobId))) :
      Task (Option Redis.FailedJob))
    | persistFailedWorkflowAfterRuntimeFailure k terminalJobStatus
  persistJobFailed k terminalJobStatus failed

/-- `handle_job_failed`. The workflow status is the one that was read before the event was looked
at, not the one of this moment. -/
def handleJobFailed (k : JobKey) (status : JobStatus) (runtime : JobRuntimeData)
    (workflow : WorkflowHash) : Task Bool := do
  let updatedRetryCount := runtime.currentRetryCount + 1
  let terminalJobStatus := if status = .aborted then JobStatus.aborted else .failed
  if status = .failed ∧ workflow.status = some .running ∧
      updatedRetryCount ≤ runtime.maxRetries then
    let clock ← (ask (.readClock k.identity) : Task Clock)
    if isJobRuntimeExpired runtime clock.time then
      failJob k terminalJobStatus updatedRetryCount
    else handleJobRetry k updatedRetryCount runtime.retryDelaySec
  else failJob k terminalJobStatus updatedRetryCount

/-- The branch of `process_completed_jobs` for a job that did not complete. -/
def processUncompleted (k : JobKey) (status : JobStatus) (errorCode : StatusCode)
    (workflow : WorkflowHash) : Task Bool := do
  let (fetched, runtime) ← (ask (.fetchJobRuntime k) : Task (Bool × JobRuntimeData))
  if fetched ∧ errorCode = .internalDbFailure then
    handleJobFailed k status { runtime with currentRetryCount := runtime.maxRetries } workflow
  else handleJobFailed k status runtime workflow

/-- The repair that `process_completed_jobs` makes when Redis has no data of the workflow. -/
def repairMissingRuntime (id : WorkflowIdentity) : Task Bool := do
  let some rows ← (ask (.getAllWorkflowsForClient id) : Task (Option (List WorkflowRow)))
    | pure false
  let row := rows.find? (fun r => decide (r.identity.workflowId = id.workflowId))
  if row.any (fun r => r.status == .failed || r.status == .canceled) then pure false
  else
    let _ ← persistFailedWorkflowAfterMissingRuntime id
    pure false

def processCompletedJobs (e : JobCompletionData) : Task Bool := do
  let some workflow ← (ask (.fetchWorkflowRuntime e.identity) : Task (Option WorkflowHash))
    | repairMissingRuntime e.identity
  match e.status with
  | .completed =>
      if (← handleJobCompleted e.key) then pure true
      else processUncompleted e.key .failed .internalDbFailure workflow
  | .failed | .aborted => processUncompleted e.key e.status e.errorCode workflow
  | _ => processUncompleted e.key .failed .internalDbFailure workflow

/-- One turn of the completion handler's main loop. -/
def mainLoop : Task Unit := do
  let some e ← (ask .dequeueJobCompletion : Task (Option JobCompletionData)) | pure ()
  let _ ← processCompletedJobs e
  pure ()

end CompletionHandler

namespace RetryHandler

def processRetryJob (k : JobKey) : Task Bool := do
  let some promoted ← (ask (.promoteRetryJob k) : Task (Option (Option String))) | pure false
  let ready := if promoted = some k.jobId then [] else [k.jobId]
  ask (.updateReadyJobs k.identity promoted.toList ready)

/-- One turn of `retry_handler_main_loop`. -/
def mainLoop : Task Unit := do
  let some k ← (ask .dequeueDueJobRetry : Task (Option JobKey)) | pure ()
  let _ ← processRetryJob k
  pure ()

end RetryHandler

end FlowPilot
