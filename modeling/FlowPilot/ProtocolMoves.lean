import FlowPilot.RuntimeTasks

/-! Who is responsible for a job. From the moment a job enters the execution queue until its last
event has been handled, exactly one component or queue is to act on it next; the stage says at which
point of the engine's code that is. `Move` lists, for every call and every reply, how a component's
stage changes. It is the protocol that the programs of `RuntimeTasks` follow, and all that the
invariants use of those programs. -/

namespace FlowPilot

/-- How far the handler of a workflow's last event is with the cleanup. -/
inductive Closing where
  | no | due | released | deleted
  deriving DecidableEq, Repr

/-- Whether a counted event leaves the handler with the cleanup to do. -/
def Closing.ofCompleted (workflowCompleted : Bool) : Closing :=
  if workflowCompleted then .due else .no

/-- What is to be done next for a job. -/
inductive Stage where
  /-- in the execution queue -/
  | queued
  /-- taken from the execution queue by a scheduler, not claimed yet -/
  | popped
  /-- claimed by a scheduler -/
  | claimed
  /-- the scheduler has read the size of the payload -/
  | fetched (size : Nat)
  /-- the scheduler has the payload -/
  | verified
  /-- the scheduler could not get the payload -/
  | badPayload
  /-- in a local queue or with a worker that has not started it -/
  | dispatched
  /-- started by the script -/
  | started
  /-- started by the script, and SQLite did not record it -/
  | startFailed
  /-- the start script was not answered -/
  | unstarted
  /-- the start script refused -/
  | stopped
  /-- an event of this status is in the stream or with a handler -/
  | reported (st : JobStatus)
  /-- the handler is about to fail the job and has read the jobs of the workflow -/
  | listing (st : JobStatus) (jobIds : List String)
  /-- counted by the success script, which made these jobs READY or QUEUED -/
  | counted (closing : Closing) (advanced : List String)
  /-- counted by the success script, and a later call of the handler failed -/
  | broken (closing : Closing)
  /-- counted by the failure script -/
  | failed (closing : Closing)
  /-- in the retry set -/
  | retryWait
  /-- taken from the retry set by the retry handler -/
  | retryHeld
  deriving DecidableEq, Repr

/-- The token of a suspended program: the job it is responsible for. `stuck` stands for a reply that
no reachable state gives; `Move` allows everything after it. -/
inductive Token where
  | idle
  | hold (k : JobKey) (s : Stage)
  | stuck
  deriving DecidableEq, Repr

/-- The events that a worker or a scheduler sends from a stage. -/
inductive Reports : Stage → JobStatus → Prop where
  | completed : Reports .started .completed
  | failed : Reports .started .failed
  | badPayload : Reports .badPayload .aborted
  | startFailed : Reports .startFailed .aborted
  | unstarted : Reports .unstarted .aborted
  | stopped : Reports .stopped .aborted

/-- The stages from which a claimed job is handed to the workers. -/
inductive Dispatches : Stage → Prop where
  | verified : Dispatches .verified
  | empty : Dispatches (.fetched 0)

/-- The stage that the start script's answer leads to. -/
def Stage.ofStart : StartJobResult → Stage
  | .firstToStart | .started => .started
  | .internalError => .unstarted
  | _ => .stopped

/-- The stage after the payload was asked for. -/
def Stage.ofPayload (size : Nat) (payload : Option (List UInt8)) : Stage :=
  if payload.any (fun bytes => bytes.length == size) then .verified else .badPayload

/-- A runtime record that could not be read to its end and yet allows a retry. No reachable hash has
the retry limit without the retry count, so no reachable state answers with one. -/
def torn (r : Bool × JobRuntimeData) : Prop :=
  r.1 = false ∧ r.2.currentRetryCount < r.2.maxRetries

instance (r : Bool × JobRuntimeData) : Decidable (torn r) := inferInstanceAs (Decidable (_ ∧ _))

/-- The stage of a handler that reads the runtime record of its job. -/
def Token.afterRuntime (k : JobKey) (s : Stage) (r : Bool × JobRuntimeData) : Token :=
  if torn r then .stuck else .hold k s

namespace Call

/-- The calls that read or update the SQLite tables while jobs run. -/
def isSqlite : Call → Bool
  | getAllWorkflowsForClient _ | getAllJobsForWorkflow _ | updateJobStatus _ _
  | updateWorkflowStatus _ _ | updateReadyJobs _ _ _ => true
  | _ => false

/-- The deletions of the cleanup whose answer is ignored. -/
def isDeletion : Call → Bool
  | deleteJobPayload _ | deleteJob _ | removeFromRetryStream _ | deleteSuccessors _ => true
  | _ => false

end Call

/-- The moves of the engine's components. -/
inductive Move : (c : Call) → c.Reply → Token → Token → Prop where
  | stuck (c : Call) (r : c.Reply) : Move c r .stuck .stuck
  -- scheduler
  | popNone : Move .popExecutionQueue none .idle .idle
  | pop (k : JobKey) : Move .popExecutionQueue (some k) .idle (.hold k .popped)
  | typeHash (k : JobKey) : Move (.jobType k) (some true) (.hold k .popped) (.hold k .popped)
  | typeNone (k : JobKey) : Move (.jobType k) (some false) (.hold k .popped) .idle
  | typeFault (k : JobKey) : Move (.jobType k) none (.hold k .popped) .idle
  | claim (k : JobKey) : Move (.claimJob k) (some true) (.hold k .popped) (.hold k .claimed)
  | claimRefused (k : JobKey) : Move (.claimJob k) (some false) (.hold k .popped) .idle
  | claimFault (k : JobKey) : Move (.claimJob k) none (.hold k .popped) .idle
  | fetch (k : JobKey) (d : JobRuntimeData) :
      Move (.fetchJobRuntime k) (true, d) (.hold k .claimed)
        (.hold k (.fetched d.payloadSizeBytes.toNat))
  | fetchFault (k : JobKey) (d : JobRuntimeData) :
      Move (.fetchJobRuntime k) (false, d) (.hold k .claimed) .idle
  | payload (k : JobKey) (size : Nat) (hsize : 0 < size) (r : Option (List UInt8)) :
      Move (.fetchJobPayload k) r (.hold k (.fetched size)) (.hold k (.ofPayload size r))
  | push (e : JobExeData) {s : Stage} (hs : Dispatches s) :
      Move (.pushLocal e) () (.hold e.key s) .idle
  | enqueue (e : JobCompletionData) {s : Stage} (hs : Reports s e.status) :
      Move (.enqueueJobCompletion e) true (.hold e.key s) .idle
  | enqueueFault (e : JobCompletionData) {s : Stage} (hs : Reports s e.status) :
      Move (.enqueueJobCompletion e) false (.hold e.key s) .idle
  -- worker
  | popLocalNone : Move .popLocal none .idle .idle
  | popLocal (e : JobExeData) : Move .popLocal (some e) .idle (.hold e.key .dispatched)
  | start (k : JobKey) (r : StartJobResult) :
      Move (.trySetJobToRunning k) r (.hold k .dispatched) (.hold k (.ofStart r))
  | startWorkflow (k : JobKey) (b : Bool) :
      Move (.updateWorkflowStatus k.identity .running) b (.hold k .started)
        (.hold k (if b then .started else .startFailed))
  | startJob (k : JobKey) (b : Bool) :
      Move (.updateJobStatus k .running) b (.hold k .started)
        (.hold k (if b then .started else .startFailed))
  | execute (e : JobExeData) (b : Bool) :
      Move (.executeJob e) b (.hold e.key .started) (.hold e.key .started)
  -- completion handler
  | dequeueNone : Move .dequeueJobCompletion none .idle .idle
  | dequeue (e : JobCompletionData) :
      Move .dequeueJobCompletion (some e) .idle (.hold e.key (.reported e.status))
  | workflow (k : JobKey) (st : JobStatus) (h : WorkflowHash) :
      Move (.fetchWorkflowRuntime k.identity) (some h) (.hold k (.reported st))
        (.hold k (.reported st))
  | workflowMissing (k : JobKey) (st : JobStatus) :
      Move (.fetchWorkflowRuntime k.identity) none (.hold k (.reported st)) .idle
  | sqlite (c : Call) (hc : c.isSqlite = true) (r : c.Reply) : Move c r .idle .idle
  | success (k : JobKey) (r : Redis.CompletedJob) :
      Move (.completeSuccessfulJob k) (some r) (.hold k (.reported .completed))
        (.hold k (.counted (.ofCompleted r.workflowCompleted) (r.promoted.toList ++ r.readyJobIds)))
  | successRefused (k : JobKey) :
      Move (.completeSuccessfulJob k) none (.hold k (.reported .completed))
        (.hold k (.reported .failed))
  | countedJob (k : JobKey) (x : Closing) (l : List String) (b : Bool) :
      Move (.updateJobStatus k .completed) b (.hold k (.counted x l))
        (.hold k (if b then .counted x l else .broken x))
  | countedWorkflow (k : JobKey) (x : Closing) (l : List String) (b : Bool) :
      Move (.updateWorkflowStatus k.identity .completed) b (.hold k (.counted x l))
        (.hold k (if b then .counted x l else .broken x))
  | countedReady (k : JobKey) (x : Closing) (queued ready : List String) (b : Bool) :
      Move (.updateReadyJobs k.identity queued ready) b (.hold k (.counted x (queued ++ ready)))
        (.hold k (if b then .counted x (queued ++ ready) else .broken x))
  | countedList (k : JobKey) (l : List String) (r : Option (List JobRow)) :
      Move (.getAllJobsForWorkflow k.identity) r (.hold k (.counted .due l))
        (.hold k (if r.isSome then .counted .due l else .broken .due))
  | countedRelease (k : JobKey) (l : List String) (b : Bool) :
      Move (.removeActiveWorkflow k.identity) b (.hold k (.counted .due l))
        (.hold k (if b then .counted .released l else .broken .due))
  | countedDelete (k : JobKey) (l : List String) (c : Call) (hc : c.isDeletion = true)
      (habout : c.about = some k.identity) (r : c.Reply) :
      Move c r (.hold k (.counted .released l)) (.hold k (.counted .released l))
  | countedDeleteWorkflow (k : JobKey) (l : List String) (b : Bool) :
      Move (.deleteWorkflow k.identity) b (.hold k (.counted .released l))
        (.hold k (if b then .counted .deleted l else .broken .released))
  | countedDeleteWaiting (k : JobKey) (l : List String) (b : Bool) :
      Move (.deleteWaitingReady k.identity) b (.hold k (.counted .deleted l))
        (.hold k (if b then .counted .deleted l else .broken .deleted))
  | brokenDeleteWaiting (k : JobKey) (b : Bool) :
      Move (.deleteWaitingReady k.identity) b (.hold k (.broken .released))
        (.hold k (.broken .released))
  | runtime (k : JobKey) (st : JobStatus) (r : Bool × JobRuntimeData) :
      Move (.fetchJobRuntime k) r (.hold k (.reported st)) (.afterRuntime k (.reported st) r)
  | brokenRuntime (k : JobKey) (x : Closing) (r : Bool × JobRuntimeData) :
      Move (.fetchJobRuntime k) r (.hold k (.broken x)) (.afterRuntime k (.broken x) r)
  | clock (k : JobKey) (st : JobStatus) (r : Clock) :
      Move (.readClock k.identity) r (.hold k (.reported st)) (.hold k (.reported st))
  | list (k : JobKey) (st : JobStatus) (rows : List JobRow) :
      Move (.getAllJobsForWorkflow k.identity) (some rows) (.hold k (.reported st))
        (.hold k (.listing st (rows.map (fun r => r.key.jobId))))
  | listFault (k : JobKey) (st : JobStatus) :
      Move (.getAllJobsForWorkflow k.identity) none (.hold k (.reported st)) .idle
  | brokenList (k : JobKey) (x : Closing) (rows : List JobRow) :
      Move (.getAllJobsForWorkflow k.identity) (some rows) (.hold k (.broken x))
        (.hold k (.broken x))
  | brokenListFault (k : JobKey) (x : Closing) :
      Move (.getAllJobsForWorkflow k.identity) none (.hold k (.broken x)) .idle
  | fail (k : JobKey) (st : JobStatus) (jobIds : List String) (n : Int) (r : Redis.FailedJob) :
      Move (.completeFailedJob k n jobIds) (some r) (.hold k (.listing st jobIds))
        (.hold k (.failed (.ofCompleted r.workflowCompleted)))
  | failFault (k : JobKey) (st : JobStatus) (jobIds : List String) (n : Int) :
      Move (.completeFailedJob k n jobIds) none (.hold k (.listing st jobIds)) .idle
  | brokenFail (k : JobKey) (x : Closing) (jobIds : List String) (n : Int) (r : Redis.FailedJob) :
      Move (.completeFailedJob k n jobIds) (some r) (.hold k (.broken x))
        (.hold k (.failed (.ofCompleted r.workflowCompleted)))
  | brokenFailFault (k : JobKey) (x : Closing) (jobIds : List String) (n : Int) :
      Move (.completeFailedJob k n jobIds) none (.hold k (.broken x)) .idle
  | mark (k : JobKey) (x : Closing) (b : Bool) :
      Move (.setJobStatus k .aborted) b (.hold k (.failed x)) (.hold k (.failed x))
  | failedSqlite (k : JobKey) (x : Closing) (c : Call) (hc : c.isSqlite = true)
      (habout : c.about = some k.identity) (r : c.Reply) :
      Move c r (.hold k (.failed x)) (.hold k (.failed x))
  | failedListFault (k : JobKey) :
      Move (.getAllJobsForWorkflow k.identity) none (.hold k (.failed .due)) .idle
  | failedRelease (k : JobKey) :
      Move (.removeActiveWorkflow k.identity) true (.hold k (.failed .due))
        (.hold k (.failed .released))
  | failedReleaseFault (k : JobKey) :
      Move (.removeActiveWorkflow k.identity) false (.hold k (.failed .due)) .idle
  | failedDelete (k : JobKey) (c : Call) (hc : c.isDeletion = true)
      (habout : c.about = some k.identity) (r : c.Reply) :
      Move c r (.hold k (.failed .released)) (.hold k (.failed .released))
  | failedDeleteWorkflow (k : JobKey) (b : Bool) :
      Move (.deleteWorkflow k.identity) b (.hold k (.failed .released))
        (.hold k (.failed .released))
  | failedDeleteWaiting (k : JobKey) (b : Bool) :
      Move (.deleteWaitingReady k.identity) b (.hold k (.failed .released))
        (.hold k (.failed .released))
  | retry (k : JobKey) (st : JobStatus) (hst : st ≠ .aborted) (n retryAtMs : Int)
      (p : Option String) :
      Move (.scheduleJobRetry k n retryAtMs) (some p) (.hold k (.reported st)) .idle
  | retryFault (k : JobKey) (st : JobStatus) (hst : st ≠ .aborted) (n retryAtMs : Int) :
      Move (.scheduleJobRetry k n retryAtMs) none (.hold k (.reported st)) .idle
  -- retry handler
  | dueNone : Move .dequeueDueJobRetry none .idle .idle
  | due (k : JobKey) : Move .dequeueDueJobRetry (some k) .idle (.hold k .retryHeld)
  | promote (k : JobKey) (p : Option String) :
      Move (.promoteRetryJob k) (some p) (.hold k .retryHeld) .idle
  | promoteFault (k : JobKey) : Move (.promoteRetryJob k) none (.hold k .retryHeld) .idle

theorem Move.about {c : Call} {r : c.Reply} {k : JobKey} {s : Stage} {t : Token}
    (h : Move c r (.hold k s) t) : c.about = some k.identity := by
  cases h with
  | countedDelete _ _ _ _ habout | failedSqlite _ _ _ _ habout | failedDelete _ _ _ habout =>
      exact habout
  | _ => rfl

/-- The tokens at which a pass may end. -/
inductive Token.Final : Token → Prop where
  | stuck : Final .stuck
  | idle : Final .idle
  | counted (k : JobKey) (l : List String) : Final (.hold k (.counted .no l))
  | countedDeleted (k : JobKey) (l : List String) : Final (.hold k (.counted .deleted l))
  | failed (k : JobKey) : Final (.hold k (.failed .no))
  | failedReleased (k : JobKey) : Final (.hold k (.failed .released))

def protocol : Protocol Call Call.Reply Token where
  idle := .idle
  Move := Move
  Final := Token.Final

end FlowPilot
