import FlowPilot.StoreRedis
import FlowPilot.StoreSqlite
import FlowPilot.BaseCoroutine

/-! The calls at which the components of the engine are suspended. Each of them is one script, one
Redis command or one SQLite call, or a step of a worker on the local queue. `Call.exec` serves a
call in an environment that decides whether the store answers, what the clocks show, and how a job
ends; a call the store does not answer changes nothing and has the reply that the source's wrapper
gives in that case. -/

namespace FlowPilot

/-- The two stores and the local queues between schedulers and workers. -/
structure World where
  redis : Redis := {}
  sqlite : Sqlite := {}
  localQueue : List JobExeData := []

/-- What a call meets that the stores do not determine. -/
structure Env where
  /-- The store carries the call out and answers it. -/
  ok : Bool := true
  /-- The seconds of Redis' `TIME`. -/
  redisTime : Int := 0
  /-- `std::time`. -/
  time : Int := 0
  /-- The system clock in milliseconds. -/
  nowMs : Int := 0
  /-- `retry_jitter_ms`. -/
  jitterMs : Int := 1
  /-- The result of `execute_job`. -/
  jobSucceeds : Bool := true
  /-- Which entry of the local queues the next free worker is given. -/
  slot : Nat := 0
  deriving DecidableEq, Repr

/-- The clocks as a handler reads them between two calls. -/
structure Clock where
  time : Int
  nowMs : Int
  jitterMs : Int
  deriving DecidableEq, Repr

/-- The calls of schedulers, workers, completion handlers and the retry handler, and, from
`admitRequest` on, those that only admission makes. -/
inductive Call where
  | popExecutionQueue
  | jobType (k : JobKey)
  | claimJob (k : JobKey)
  | fetchJobRuntime (k : JobKey)
  | fetchJobPayload (k : JobKey)
  | pushLocal (e : JobExeData)
  | popLocal
  | trySetJobToRunning (k : JobKey)
  | executeJob (e : JobExeData)
  | enqueueJobCompletion (e : JobCompletionData)
  | dequeueJobCompletion
  | fetchWorkflowRuntime (id : WorkflowIdentity)
  | completeSuccessfulJob (k : JobKey)
  | completeFailedJob (k : JobKey) (updatedRetryCount : Int) (jobIds : List String)
  | setJobStatus (k : JobKey) (st : JobStatus)
  | readClock (id : WorkflowIdentity)
  | scheduleJobRetry (k : JobKey) (updatedRetryCount retryAtMs : Int)
  | dequeueDueJobRetry
  | promoteRetryJob (k : JobKey)
  | removeActiveWorkflow (id : WorkflowIdentity)
  | deleteJobPayload (k : JobKey)
  | deleteJob (k : JobKey)
  | removeFromRetryStream (k : JobKey)
  | deleteSuccessors (k : JobKey)
  | deleteWorkflow (id : WorkflowIdentity)
  | deleteWaitingReady (id : WorkflowIdentity)
  | getAllWorkflowsForClient (id : WorkflowIdentity)
  | getAllJobsForWorkflow (id : WorkflowIdentity)
  | updateJobStatus (k : JobKey) (st : JobStatus)
  | updateWorkflowStatus (id : WorkflowIdentity) (st : WorkflowStatus)
  | updateReadyJobs (id : WorkflowIdentity) (queued ready : List String)
  | admitRequest (args : Redis.AdmitArgs)
  | setRequestStatus (clientId requestId : String) (st : RequestStatus)
  | releaseRequestId (clientId requestId : String)
  | setWorkflowRuntime (id : WorkflowIdentity) (hash : WorkflowHash)
  | setJobRuntime (k : JobKey) (hash : JobHash)
  | addSuccessors (k : JobKey) (jobs : List String)
  | addWaitingReady (id : WorkflowIdentity) (members : List (String × Int))
  | setJobPayload (k : JobKey) (payload : List UInt8)
  | queueWorkflowJobs (id : WorkflowIdentity) (members : List (String × Int))
  | removeQueuedJobs (id : WorkflowIdentity) (jobs : List String)
  | insertRequest (row : RequestRow)
  | getClientActiveWorkflowsCount (clientId : String)
  | updateRequestStatus (clientId requestId : String) (st : RequestStatus) (reason : String)
  | addWorkflow (row : WorkflowRow)
  | addWorkflowJobs (rows : List JobRow)
  | failAllJobsWaitingToRun (id : WorkflowIdentity)

namespace Call

abbrev Reply : Call → Type
  | popExecutionQueue => Option JobKey
  | jobType _ => Option Bool
  | claimJob _ => Option Bool
  | fetchJobRuntime _ => Bool × JobRuntimeData
  | fetchJobPayload _ => Option (List UInt8)
  | pushLocal _ => Unit
  | popLocal => Option JobExeData
  | trySetJobToRunning _ => StartJobResult
  | executeJob _ => Bool
  | enqueueJobCompletion _ => Bool
  | dequeueJobCompletion => Option JobCompletionData
  | fetchWorkflowRuntime _ => Option WorkflowHash
  | completeSuccessfulJob _ => Option Redis.CompletedJob
  | completeFailedJob _ _ _ => Option Redis.FailedJob
  | setJobStatus _ _ => Bool
  | readClock _ => Clock
  | scheduleJobRetry _ _ _ => Option (Option String)
  | dequeueDueJobRetry => Option JobKey
  | promoteRetryJob _ => Option (Option String)
  | removeActiveWorkflow _ => Bool
  | deleteJobPayload _ => Unit
  | deleteJob _ => Unit
  | removeFromRetryStream _ => Unit
  | deleteSuccessors _ => Unit
  | deleteWorkflow _ => Bool
  | deleteWaitingReady _ => Bool
  | getAllWorkflowsForClient _ => Option (List WorkflowRow)
  | getAllJobsForWorkflow _ => Option (List JobRow)
  | updateJobStatus _ _ => Bool
  | updateWorkflowStatus _ _ => Bool
  | updateReadyJobs _ _ _ => Bool
  | admitRequest _ => Except StatusCode Unit
  | setRequestStatus _ _ _ => Bool
  | releaseRequestId _ _ => Bool
  | setWorkflowRuntime _ _ => Bool
  | setJobRuntime _ _ => Bool
  | addSuccessors _ _ => Bool
  | addWaitingReady _ _ => Bool
  | setJobPayload _ _ => Bool
  | queueWorkflowJobs _ _ => Bool
  | removeQueuedJobs _ _ => Bool
  | insertRequest _ => Except StatusCode Unit
  | getClientActiveWorkflowsCount _ => Option Nat
  | updateRequestStatus _ _ _ _ => Bool
  | addWorkflow _ => Except StatusCode Unit
  | addWorkflowJobs _ => Bool
  | failAllJobsWaitingToRun _ => Bool

/-- The workflow a call is about; the calls that wait for new work are about none. -/
def about : Call → Option WorkflowIdentity
  | popExecutionQueue | popLocal | dequeueJobCompletion | dequeueDueJobRetry => none
  | setRequestStatus _ _ _ | releaseRequestId _ _ | insertRequest _ | updateRequestStatus _ _ _ _
  | getClientActiveWorkflowsCount _ | addWorkflowJobs _ => none
  | jobType k | claimJob k | fetchJobRuntime k | fetchJobPayload k | trySetJobToRunning k
  | completeSuccessfulJob k | completeFailedJob k _ _ | setJobStatus k _ | scheduleJobRetry k _ _
  | promoteRetryJob k | deleteJobPayload k | deleteJob k | removeFromRetryStream k
  | deleteSuccessors k | updateJobStatus k _ | setJobRuntime k _ | addSuccessors k _
  | setJobPayload k _ => some k.identity
  | pushLocal e | executeJob e => some e.identity
  | enqueueJobCompletion e => some e.identity
  | fetchWorkflowRuntime id | readClock id | removeActiveWorkflow id | deleteWorkflow id
  | deleteWaitingReady id | getAllWorkflowsForClient id | getAllJobsForWorkflow id
  | updateWorkflowStatus id _ | updateReadyJobs id _ _ | setWorkflowRuntime id _
  | addWaitingReady id _ | queueWorkflowJobs id _ | removeQueuedJobs id _
  | failAllJobsWaitingToRun id => some id
  | admitRequest args => some ⟨args.clientId, args.workflowId⟩
  | addWorkflow row => some row.identity

/-- The calls that wait for new work. -/
def takesWork : Call → Bool
  | popExecutionQueue | popLocal | dequeueJobCompletion | dequeueDueJobRetry => true
  | _ => false

theorem about_of_takesWork {c : Call} (h : c.takesWork = true) : c.about = none := by
  cases c <;> first | rfl | cases h

/-- The reply of a call that the store does not answer. Steps of the local machine do not fail. -/
def failure : (c : Call) → c.Reply
  | popExecutionQueue => (none : Option JobKey)
  | jobType _ => (none : Option Bool)
  | claimJob _ => (none : Option Bool)
  | fetchJobRuntime _ => ((false, {}) : Bool × JobRuntimeData)
  | fetchJobPayload _ => (none : Option (List UInt8))
  | pushLocal _ => ()
  | popLocal => (none : Option JobExeData)
  | trySetJobToRunning _ => StartJobResult.internalError
  | executeJob _ => false
  | enqueueJobCompletion _ => false
  | dequeueJobCompletion => (none : Option JobCompletionData)
  | fetchWorkflowRuntime _ => (none : Option WorkflowHash)
  | completeSuccessfulJob _ => (none : Option Redis.CompletedJob)
  | completeFailedJob _ _ _ => (none : Option Redis.FailedJob)
  | setJobStatus _ _ => false
  | readClock _ => (⟨0, 0, 0⟩ : Clock)
  | scheduleJobRetry _ _ _ => (none : Option (Option String))
  | dequeueDueJobRetry => (none : Option JobKey)
  | promoteRetryJob _ => (none : Option (Option String))
  | removeActiveWorkflow _ => false
  | deleteJobPayload _ => ()
  | deleteJob _ => ()
  | removeFromRetryStream _ => ()
  | deleteSuccessors _ => ()
  | deleteWorkflow _ => false
  | deleteWaitingReady _ => false
  | getAllWorkflowsForClient _ => (none : Option (List WorkflowRow))
  | getAllJobsForWorkflow _ => (none : Option (List JobRow))
  | updateJobStatus _ _ => false
  | updateWorkflowStatus _ _ => false
  | updateReadyJobs _ _ _ => false
  | admitRequest _ => (.error .internalDbFailure : Except StatusCode Unit)
  | setRequestStatus _ _ _ => false
  | releaseRequestId _ _ => false
  | setWorkflowRuntime _ _ => false
  | setJobRuntime _ _ => false
  | addSuccessors _ _ => false
  | addWaitingReady _ _ => false
  | setJobPayload _ _ => false
  | queueWorkflowJobs _ _ => false
  | removeQueuedJobs _ _ => false
  | insertRequest _ => (.error .internalDbFailure : Except StatusCode Unit)
  | getClientActiveWorkflowsCount _ => (none : Option Nat)
  | updateRequestStatus _ _ _ _ => false
  | addWorkflow _ => (.error .internalDbFailure : Except StatusCode Unit)
  | addWorkflowJobs _ => false
  | failAllJobsWaitingToRun _ => false

/-- A step of the local machine, which no store has to answer. -/
def isLocal : Call → Bool
  | pushLocal _ | popLocal | executeJob _ | readClock _ => true
  | _ => false

/-- Carries a Redis operation out in the world. -/
def onRedis {ρ : Type} (w : World) (p : ρ × Redis) : ρ × World := (p.1, { w with redis := p.2 })

/-- Carries a SQLite call out in the world. -/
def onSqlite {ρ : Type} (w : World) (p : ρ × Sqlite) : ρ × World := (p.1, { w with sqlite := p.2 })

/-- The oldest entries of the local queues, each with what stays when it is taken. -/
def popSlot (slot : Nat) (queue : List JobExeData) : Option JobExeData × List JobExeData :=
  match queue[slot]? with
  | none => (none, queue)
  | some e => (some e, queue.eraseIdx slot)

def carryOut : (c : Call) → Env → World → c.Reply × World
  | popExecutionQueue, _, w => onRedis w w.redis.popExecutionQueue
  | jobType k, _, w => (some ((w.redis.workflows k.identity).jobs k.jobId).isSome, w)
  | claimJob k, _, w =>
      let (claimed, r) := w.redis.claimJob k
      onRedis w (some claimed, r)
  | fetchJobRuntime k, _, w => ((w.redis.workflows k.identity).fetchJobRuntime k.jobId, w)
  | fetchJobPayload k, _, w => ((w.redis.workflows k.identity).payloads k.jobId, w)
  | pushLocal e, _, w => ((), { w with localQueue := w.localQueue ++ [e] })
  | popLocal, e, w =>
      let (entry, rest) := popSlot e.slot w.localQueue
      (entry, { w with localQueue := rest })
  | trySetJobToRunning k, e, w => onRedis w (w.redis.trySetJobToRunning e.redisTime k)
  | executeJob _, e, w => (e.jobSucceeds, w)
  | enqueueJobCompletion ev, _, w => onRedis w (true, w.redis.enqueueJobCompletion ev)
  | dequeueJobCompletion, _, w => onRedis w w.redis.dequeueJobCompletion
  | fetchWorkflowRuntime id, _, w => ((w.redis.workflows id).hash, w)
  | completeSuccessfulJob k, e, w => onRedis w (w.redis.completeSuccessfulJob e.redisTime k)
  | completeFailedJob k count jobIds, _, w =>
      let (failed, r) := w.redis.completeFailedJob k count jobIds
      onRedis w (some failed, r)
  | setJobStatus k st, _, w => onRedis w (true, w.redis.setJobStatus k st)
  | readClock _, e, w => (⟨e.time, e.nowMs, e.jitterMs⟩, w)
  | scheduleJobRetry k count retryAtMs, _, w =>
      let (promoted, r) := w.redis.scheduleJobRetry k count retryAtMs
      onRedis w (some promoted, r)
  | dequeueDueJobRetry, e, w => onRedis w (w.redis.dequeueDueJobRetry e.nowMs)
  | promoteRetryJob k, _, w =>
      let (promoted, r) := w.redis.promoteRetryJob k
      onRedis w (some promoted, r)
  | removeActiveWorkflow id, _, w => onRedis w (w.redis.removeActiveWorkflow id)
  | deleteJobPayload k, _, w => onRedis w ((), w.redis.deleteJobPayload k)
  | deleteJob k, _, w => onRedis w ((), w.redis.deleteJob k)
  | removeFromRetryStream k, _, w =>
      onRedis w ((), { w.redis with jobRetryStream := w.redis.jobRetryStream.remove k })
  | deleteSuccessors k, _, w => onRedis w ((), w.redis.deleteSuccessors k)
  | deleteWorkflow id, _, w => onRedis w (w.redis.deleteWorkflow id)
  | deleteWaitingReady id, _, w => onRedis w (true, w.redis.deleteWaitingReady id)
  | getAllWorkflowsForClient id, _, w =>
      (some (w.sqlite.getAllWorkflowsForClient id.clientId), w)
  | getAllJobsForWorkflow id, _, w => (some (w.sqlite.getAllJobsForWorkflow id), w)
  | updateJobStatus k st, e, w => onSqlite w (w.sqlite.updateJobStatus e.time k st)
  | updateWorkflowStatus id st, e, w => onSqlite w (w.sqlite.updateWorkflowStatus e.time id st)
  | updateReadyJobs id queued ready, e, w =>
      onSqlite w (w.sqlite.updateReadyJobs e.time id queued ready)
  | admitRequest args, e, w => onRedis w (w.redis.admitRequest e.redisTime args)
  | setRequestStatus clientId requestId st, e, w =>
      onRedis w (true, w.redis.setRequestStatus e.redisTime clientId requestId st)
  | releaseRequestId clientId requestId, _, w =>
      onRedis w (true, w.redis.releaseRequestId clientId requestId)
  | setWorkflowRuntime id hash, _, w =>
      onRedis w (true, w.redis.setWorkflow id { w.redis.workflows id with hash := some hash })
  | setJobRuntime k hash, _, w =>
      onRedis w (true, w.redis.setWorkflow k.identity
        ((w.redis.workflows k.identity).setJob k.jobId (fun _ => hash)))
  | addSuccessors k jobs, _, w => onRedis w (true, w.redis.addSuccessors k jobs)
  | addWaitingReady id members, _, w => onRedis w (true, w.redis.addWaitingReady id members)
  | setJobPayload k payload, _, w => onRedis w (true, w.redis.setJobPayload k payload)
  | queueWorkflowJobs id members, _, w => onRedis w (true, w.redis.queueWorkflowJobs id members)
  | removeQueuedJobs id jobs, _, w => onRedis w (true, w.redis.removeQueuedJobs id jobs)
  | insertRequest row, e, w =>
      let (inserted, db) := w.sqlite.insertRequest { row with receivedAt := e.time }
      onSqlite w (if inserted then .ok () else .error .duplicateRequest, db)
  | getClientActiveWorkflowsCount clientId, _, w =>
      (some (w.sqlite.getClientActiveWorkflowsCount clientId), w)
  | updateRequestStatus clientId requestId st reason, _, w =>
      onSqlite w (true, w.sqlite.updateRequestStatus clientId requestId st reason)
  | addWorkflow row, e, w =>
      let (added, db) := w.sqlite.addWorkflow { row with receivedAt := e.time }
      onSqlite w (if added then .ok () else .error .workflowIdExists, db)
  | addWorkflowJobs rows, e, w =>
      onSqlite w (w.sqlite.addWorkflowJobs
        (rows.map (fun row => { row with submittedAt := some e.time })))
  | failAllJobsWaitingToRun id, _, w =>
      onSqlite w (true, w.sqlite.failAllJobsWaitingToRun id)

def exec (c : Call) (e : Env) (w : World) : c.Reply × World :=
  if e.ok || c.isLocal then c.carryOut e w else (c.failure, w)

theorem exec_localQueue {c : Call} {w : World} (hpush : ∀ job, c ≠ .pushLocal job) (hpop : c ≠ .popLocal)
    (e : Env) :
    (c.exec e w).2.localQueue = w.localQueue := by
  rw [exec]
  split
  · cases c with
    | pushLocal job => exact absurd rfl (hpush job)
    | popLocal => exact absurd rfl hpop
    | _ => rfl
  · rfl

theorem exec_of_isLocal {c : Call} {w : World} (h : c.isLocal = true) (e : Env) :
    c.exec e w = c.carryOut e w := by
  rw [exec, h, Bool.or_true, if_pos rfl]

end Call

/-- The programs of the engine's components. -/
abbrev Task := Prog Call Call.Reply

end FlowPilot
