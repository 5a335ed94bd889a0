import FlowPilot.StoreScripts
import Mathlib.Algebra.Ring.Int.Defs
import Mathlib.Data.Finset.Card

/-! The Redis database: the keys of every workflow, the global execution queue, the retry set, the
completion stream, and the keys of admission control. Each operation is one command or one script of
the source, carried out atomically. -/

namespace FlowPilot

/-- The Redis database. A request key carries the time at which it expires, and so may a rate
bucket, which is kept per client and second. -/
structure Redis where
  workflows : WorkflowIdentity → WorkflowKeyspace := fun _ => {}
  executionQueue : SortedSet JobKey := .empty
  jobRetryStream : SortedSet JobKey := .empty
  jobCompletionStream : List JobCompletionData := []
  activeWorkflows : String → Finset String := fun _ => ∅
  requests : List Char → Option (RequestStatus × Int) := fun _ => none
  rates : String → Int → Option (Int × Option Int) := fun _ _ => none

namespace Redis

def setWorkflow (r : Redis) (id : WorkflowIdentity) (ks : WorkflowKeyspace) : Redis :=
  { r with workflows := Function.update r.workflows id ks }

@[simp] theorem setWorkflow_workflows_self (r : Redis) (id : WorkflowIdentity)
    (ks : WorkflowKeyspace) : (r.setWorkflow id ks).workflows id = ks := Function.update_self ..

theorem setWorkflow_workflows_of_ne (r : Redis) {id id' : WorkflowIdentity} (h : id' ≠ id)
    (ks : WorkflowKeyspace) : (r.setWorkflow id ks).workflows id' = r.workflows id' :=
  Function.update_of_ne h ..

/-- `ZADD execution_queue` of the job that a script promoted, if it promoted one. -/
def enqueue (r : Redis) (id : WorkflowIdentity) : Option (String × Int) → Redis
  | none => r
  | some (j, score) => { r with executionQueue := r.executionQueue.add ⟨id, j⟩ score }

theorem enqueue_workflows (r : Redis) (id : WorkflowIdentity) (p : Option (String × Int)) :
    (r.enqueue id p).workflows = r.workflows := by
  cases p <;> rfl

/-- `BZPOPMAX execution_queue`; nothing when the queue stays empty. -/
def popExecutionQueue (r : Redis) : Option JobKey × Redis :=
  match r.executionQueue.popMax RedisKeys.laterKey with
  | none => (none, r)
  | some ((k, _), rest) => (some k, { r with executionQueue := rest })

/-- The claim script. -/
def claimJob (k : JobKey) (r : Redis) : Bool × Redis :=
  let (claimed, ks) := (r.workflows k.identity).claimJob k.jobId
  (claimed, r.setWorkflow k.identity ks)

def trySetJobToRunning (now : Int) (k : JobKey) (r : Redis) : StartJobResult × Redis :=
  let (result, ks) := (r.workflows k.identity).trySetJobToRunning now k.jobId
  (result, r.setWorkflow k.identity ks)

/-- `enqueue_job_completion_async`: the stream grows at its end. -/
def enqueueJobCompletion (e : JobCompletionData) (r : Redis) : Redis :=
  { r with jobCompletionStream := r.jobCompletionStream ++ [e] }

/-- `dequeue_job_completion_async`: the oldest entry, which leaves the stream. -/
def dequeueJobCompletion (r : Redis) : Option JobCompletionData × Redis :=
  match r.jobCompletionStream with
  | [] => (none, r)
  | e :: rest => (some e, { r with jobCompletionStream := rest })

/-- What the wrapper of the success script hands to its caller: whether the workflow is completed,
the promoted job, and the jobs made READY without the promoted one. -/
structure CompletedJob where
  workflowCompleted : Bool
  promoted : Option String
  readyJobIds : List String
  deriving DecidableEq, Repr

/-- The wrapper's reading of the script's answer; everything but `{1, ..}` is a failure. -/
def CompletedJob.ofOutcome : WorkflowKeyspace.SuccessOutcome → Option CompletedJob
  | .missing | .notRunning | .runTimeExceeded => none
  | .alreadyCompleted => some ⟨false, none, []⟩
  | .counted workflowCompleted promoted newlyReady =>
      some ⟨workflowCompleted, promoted.map Prod.fst,
        newlyReady.filter (fun j => decide (some j ≠ promoted.map Prod.fst))⟩

/-- The job the success script promotes to the execution queue. -/
def promotedBy : WorkflowKeyspace.SuccessOutcome → Option (String × Int)
  | .counted _ promoted _ => promoted
  | _ => none

/-- `complete_successful_job_runtime_async`. -/
def completeSuccessfulJob (now : Int) (k : JobKey) (r : Redis) : Option CompletedJob × Redis :=
  let (outcome, ks) := (r.workflows k.identity).completeSuccessfulJob now k.jobId
  (CompletedJob.ofOutcome outcome,
    (r.setWorkflow k.identity ks).enqueue k.identity (promotedBy outcome))

/-- `ZREM` of canceled siblings: one that was QUEUED leaves the execution queue, one that was in
RETRY_DELAY the retry set. -/
def dropCanceled (id : WorkflowIdentity) (canceled : List (String × JobStatus)) (r : Redis) : Redis :=
  canceled.foldl (fun r (j, st) =>
    if st = .queued then { r with executionQueue := r.executionQueue.remove ⟨id, j⟩ }
    else if st = .retryDelay then { r with jobRetryStream := r.jobRetryStream.remove ⟨id, j⟩ }
    else r) r

theorem dropCanceled_workflows (r : Redis) (id : WorkflowIdentity)
    (canceled : List (String × JobStatus)) :
    (r.dropCanceled id canceled).workflows = r.workflows := by
  induction canceled generalizing r with
  | nil => rfl
  | cons c rest ih =>
      obtain ⟨j, st⟩ := c
      refine (ih _).trans ?_
      dsimp only
      split
      · rfl
      · split <;> rfl

/-- What the wrapper of the failure script hands to its caller. -/
structure FailedJob where
  canceledJobIds : List String
  workflowFailed : Bool
  workflowCompleted : Bool
  deriving DecidableEq, Repr

/-- `complete_failed_job_runtime_async`. -/
def completeFailedJob (k : JobKey) (updatedRetryCount : Int) (jobIds : List String) (r : Redis) :
    FailedJob × Redis :=
  let (outcome, ks) := (r.workflows k.identity).completeFailedJob k.jobId updatedRetryCount jobIds
  (⟨outcome.canceled.map Prod.fst, outcome.workflowFailed, outcome.workflowCompleted⟩,
    (r.setWorkflow k.identity ks).dropCanceled k.identity outcome.canceled)

def scheduleJobRetry (k : JobKey) (updatedRetryCount retryAtMs : Int) (r : Redis) :
    Option String × Redis :=
  let (promoted, ks) := (r.workflows k.identity).scheduleJobRetry k.jobId updatedRetryCount
  let delayed := { r.setWorkflow k.identity ks with
    jobRetryStream := r.jobRetryStream.add k retryAtMs }
  (promoted.map Prod.fst, delayed.enqueue k.identity promoted)

/-- `dequeue_due_job_retry_async`: the job due first among those due at `nowMs`. -/
def dequeueDueJobRetry (nowMs : Int) (r : Redis) : Option JobKey × Redis :=
  match r.jobRetryStream.leastUpTo RedisKeys.laterKey nowMs with
  | none => (none, r)
  | some (k, _) => (some k, { r with jobRetryStream := r.jobRetryStream.remove k })

def promoteRetryJob (k : JobKey) (r : Redis) : Option String × Redis :=
  let (promoted, ks) := (r.workflows k.identity).promoteRetryJob k.jobId
  (promoted.map Prod.fst, (r.setWorkflow k.identity ks).enqueue k.identity promoted)

/-- `remove_active_workflow_async`: succeeds when the id was in the client's set. -/
def removeActiveWorkflow (id : WorkflowIdentity) (r : Redis) : Bool × Redis :=
  let others := (r.activeWorkflows id.clientId).erase id.workflowId
  (decide (id.workflowId ∈ r.activeWorkflows id.clientId),
    { r with activeWorkflows := Function.update r.activeWorkflows id.clientId others })

/-- `update_job_runtime_async` with the status as its only field that is read. -/
def setJobStatus (k : JobKey) (st : JobStatus) (r : Redis) : Redis :=
  r.setWorkflow k.identity ((r.workflows k.identity).setJobStatus k.jobId st)

/-- `DEL` of the hash of a job. -/
def deleteJob (k : JobKey) (r : Redis) : Redis :=
  let ks := r.workflows k.identity
  r.setWorkflow k.identity { ks with jobs := Function.update ks.jobs k.jobId none }

/-- `DEL` of the successor list of a job. -/
def deleteSuccessors (k : JobKey) (r : Redis) : Redis :=
  let ks := r.workflows k.identity
  r.setWorkflow k.identity { ks with successors := Function.update ks.successors k.jobId [] }

/-- `DEL` of the payload of a job. -/
def deleteJobPayload (k : JobKey) (r : Redis) : Redis :=
  let ks := r.workflows k.identity
  r.setWorkflow k.identity { ks with payloads := Function.update ks.payloads k.jobId none }

/-- `delete_workflow_runtime_async`: succeeds when there was a hash to delete. -/
def deleteWorkflow (id : WorkflowIdentity) (r : Redis) : Bool × Redis :=
  ((r.workflows id).hash.isSome, r.setWorkflow id { r.workflows id with hash := none })

/-- `delete_workflow_waiting_ready_jobs`. -/
def deleteWaitingReady (id : WorkflowIdentity) (r : Redis) : Redis :=
  r.setWorkflow id { r.workflows id with waitingReady := .empty }

section Admission

structure AdmitArgs where
  clientId : String
  requestId : String
  workflowId : String
  maxActiveWorkflows : Int
  maxRequests : Int
  windowSeconds : Int
  keyRetentionTtl : Int
  deriving DecidableEq, Repr

/-- `fp:req:client_id:request_id`. -/
def requestKey (clientId requestId : String) : List Char :=
  "fp:req:".toList ++ clientId.toList ++ ':' :: requestId.toList

/-- The status under a request key that has not expired. -/
def requestStatus (now : Int) (key : List Char) (r : Redis) : Option RequestStatus :=
  (r.requests key).bind (fun e => if now < e.2 then some e.1 else none)

/-- The count of a rate bucket that has not expired. -/
def rate (now : Int) (clientId : String) (second : Int) (r : Redis) : Option Int :=
  (r.rates clientId second).bind (fun e =>
    match e.2 with
    | none => some e.1
    | some expiry => if now < expiry then some e.1 else none)

def setRate (clientId : String) (second : Int) (bucket : Int × Option Int) (r : Redis) : Redis :=
  let buckets := Function.update (r.rates clientId) second (some bucket)
  { r with rates := Function.update r.rates clientId buckets }

/-- `INCR` of the bucket of this second; a bucket that comes to 1, also after a rollback, is set to
expire shortly after the window. -/
def incrementRate (now : Int) (args : AdmitArgs) (r : Redis) : Int × Redis :=
  let current := (r.rate now args.clientId now).getD 0 + 1
  let expiry :=
    if current = 1 then some (now + args.windowSeconds + 1)
    else (r.rates args.clientId now).bind Prod.snd
  (current, r.setRate args.clientId now (current, expiry))

/-- `DECR` of the bucket of this second. -/
def decrementRate (now : Int) (args : AdmitArgs) (r : Redis) : Redis :=
  match r.rate now args.clientId now with
  | none => r.setRate args.clientId now (-1, none)
  | some n => r.setRate args.clientId now (n - 1, (r.rates args.clientId now).bind Prod.snd)

/-- The requests of the client in the seconds before this one that belong to the window. -/
def earlierRequests (now : Int) (args : AdmitArgs) (r : Redis) : Int :=
  ((List.range (args.windowSeconds - 1).toNat).map (fun (i : Nat) =>
    (r.rate now args.clientId (now - (i + 1))).getD 0)).sum

/-- `SET request_key status KEEPTTL`. -/
def keepRequest (now : Int) (key : List Char) (st : RequestStatus) (r : Redis) : Redis :=
  match r.requestStatus now key, r.requests key with
  | some _, some e => { r with requests := Function.update r.requests key (some (st, e.2)) }
  | _, _ => r

/-- The script of `admit_request_async`. Its first command is an error when the time to live of the
request key is not positive. -/
def admitRequest (now : Int) (args : AdmitArgs) (r : Redis) : Except StatusCode Unit × Redis :=
  let key := requestKey args.clientId args.requestId
  if args.keyRetentionTtl ≤ 0 then (.error .internalDbFailure, r)
  else if (r.requestStatus now key).isSome then (.error .duplicateRequest, r)
  else
    let entry := (RequestStatus.received, now + args.keyRetentionTtl)
    let tracked := { r with requests := Function.update r.requests key (some entry) }
    let (current, counted) := tracked.incrementRate now args
    if current + counted.earlierRequests now args > args.maxRequests then
      (.error .rateLimitExceeded, (counted.decrementRate now args).keepRequest now key .rejected)
    else
      let active := counted.activeWorkflows args.clientId
      if args.workflowId ∈ active then
        (.error .workflowIdExists, (counted.decrementRate now args).keepRequest now key .rejected)
      else if ((insert args.workflowId active).card : Int) > args.maxActiveWorkflows then
        (.error .concurrentWorkflowLimitExceeded,
          (counted.decrementRate now args).keepRequest now key .rejected)
      else
        let added := insert args.workflowId active
        (.ok (), { counted with
          activeWorkflows := Function.update counted.activeWorkflows args.clientId added })

/-- `update_request_status_async`: the key is set anew, for 900 seconds. -/
def setRequestStatus (now : Int) (clientId requestId : String) (st : RequestStatus) (r : Redis) :
    Redis :=
  let key := requestKey clientId requestId
  { r with requests := Function.update r.requests key (some (st, now + 900)) }

def releaseRequestId (clientId requestId : String) (r : Redis) : Redis :=
  { r with requests := Function.update r.requests (requestKey clientId requestId) none }

/-- `ZADD waiting_ready NX` of the ready jobs beyond the first execution slots. -/
def addWaitingReady (id : WorkflowIdentity) (members : List (String × Int)) (r : Redis) : Redis :=
  let ks := r.workflows id
  r.setWorkflow id { ks with
    waitingReady := members.foldl (fun s m => s.addNew m.1 m.2) ks.waitingReady }

/-- `RPUSH` of the successors of a job. -/
def addSuccessors (k : JobKey) (jobs : List String) (r : Redis) : Redis :=
  let ks := r.workflows k.identity
  let pushed := ks.successors k.jobId ++ jobs
  r.setWorkflow k.identity { ks with successors := Function.update ks.successors k.jobId pushed }

/-- `SET` of the payload of a job. -/
def setJobPayload (k : JobKey) (payload : List UInt8) (r : Redis) : Redis :=
  let ks := r.workflows k.identity
  r.setWorkflow k.identity
    { ks with payloads := Function.update ks.payloads k.jobId (some payload) }

/-- `queue_workflow_jobs_for_execution_async`. -/
def queueWorkflowJobs (id : WorkflowIdentity) (members : List (String × Int)) (r : Redis) : Redis :=
  let queue := members.foldl (fun s m => s.addNew ⟨id, m.1⟩ m.2) r.executionQueue
  { r with executionQueue := queue }

/-- `remove_jobs_from_execution_queue_async`. -/
def removeQueuedJobs (id : WorkflowIdentity) (jobs : List String) (r : Redis) : Redis :=
  { r with executionQueue := jobs.foldl (fun s j => s.remove ⟨id, j⟩) r.executionQueue }

end Admission

end Redis

end FlowPilot
