import FlowPilot.ProtocolMoves

/-! What a component still has to write. The stages of `ProtocolMoves` say who is responsible for a
job; the duties say in addition what the program has read and which of its writes are left: the result
of an execution that a worker is to report, the runtime record by which a handler decides on a retry,
the rows that it is to update after its script, and the keys that a cleanup is still to delete. The
duties refine the stages: `Duty.token` forgets the difference. -/

namespace FlowPilot

/-- The calls of the cleanup of a finished workflow, in their order. -/
def cleanupCalls (id : WorkflowIdentity) (jobIds : List String) : List Call :=
  .removeActiveWorkflow id :: (jobIds.map (fun j => .deleteJobPayload ⟨id, j⟩) ++
    (jobIds.flatMap (fun j => [.deleteJob ⟨id, j⟩, .removeFromRetryStream ⟨id, j⟩,
      .deleteSuccessors ⟨id, j⟩]) ++ [.deleteWorkflow id, .deleteWaitingReady id]))

namespace Call

/-- The calls that `cleanup_completed_workflow_redis_entries` makes to Redis. -/
def isCleanup : Call → Bool
  | removeActiveWorkflow _ | deleteJobPayload _ | deleteJob _ | removeFromRetryStream _
  | deleteSuccessors _ | deleteWorkflow _ | deleteWaitingReady _ => true
  | _ => false

/-- The calls of schedulers, workers and the retry handler that say nothing more than the stage. -/
def isPassing : Call → Bool
  | popExecutionQueue | jobType _ | claimJob _ | fetchJobPayload _ | pushLocal _ | popLocal
  | trySetJobToRunning _ | dequeueJobCompletion | fetchWorkflowRuntime _ | dequeueDueJobRetry
  | promoteRetryJob _ => true
  | _ => false

end Call

/-- The status that `handle_job_failed` records for an event of the given status. -/
def JobStatus.recordedFailure (st : JobStatus) : JobStatus :=
  if st = .aborted then .aborted else .failed

/-- What a suspended program has to do. -/
inductive Duty where
  /-- all there is to say is the token -/
  | plain (t : Token)
  /-- a worker has executed the job and is to report the result -/
  | executed (k : JobKey) (succeeded : Bool)
  /-- a handler has run the success script and is to record the job as COMPLETED -/
  | recording (k : JobKey) (closing : Closing) (advanced : List String)
  /-- a handler has read the runtime record of the job -/
  | judging (k : JobKey) (s : Stage) (runtime : Bool × JobRuntimeData)
  /-- a handler has run the failure script -/
  | failed (k : JobKey) (st : JobStatus) (r : Redis.FailedJob)
  /-- a handler is to make these calls of the cleanup -/
  | cleaning (t : Token) (calls : List Call)
  /-- a handler repairs the rows of a workflow that has no runtime data -/
  | repair (id : WorkflowIdentity)

namespace Duty

def token : Duty → Token
  | plain t => t
  | executed k _ => .hold k .started
  | recording k x l => .hold k (.counted x l)
  | judging k s _ => .hold k s
  | failed k _ r => .hold k (.failed (.ofCompleted r.workflowCompleted))
  | cleaning t _ => t
  | repair _ => .idle

def clean (t : Token) : List Call → Duty
  | [] => plain t
  | c :: rest => cleaning t (c :: rest)

@[simp] theorem token_clean (t : Token) (calls : List Call) : (clean t calls).token = t := by
  cases calls <;> rfl

/-- The duty of a handler that reads the runtime record of its job. -/
def afterRuntime (k : JobKey) (s : Stage) (r : Bool × JobRuntimeData) : Duty :=
  if torn r then plain .stuck else judging k s r

/-- The calls at which a program has no duty but that of its token. -/
inductive Simple : Token → Call → Prop where
  | stuck (c : Call) : Simple .stuck c
  | passing (t : Token) {c : Call} (hc : c.isPassing = true) : Simple t c
  | fetch (k : JobKey) : Simple (.hold k .claimed) (.fetchJobRuntime k)
  | aborted (t : Token) (e : JobCompletionData) (he : e.status = .aborted) :
      Simple t (.enqueueJobCompletion e)
  | startWorkflow (k : JobKey) : Simple (.hold k .started) (.updateWorkflowStatus k.identity .running)
  | startJob (k : JobKey) : Simple (.hold k .started) (.updateJobStatus k .running)
  | delayed (k : JobKey) : Simple .idle (.updateJobStatus k .retryDelay)
  | advanced (id : WorkflowIdentity) (queued ready : List String) :
      Simple .idle (.updateReadyJobs id queued ready)
  | countedReady (k : JobKey) (x : Closing) (l queued ready : List String) :
      Simple (.hold k (.counted x l)) (.updateReadyJobs k.identity queued ready)
  | countedWorkflow (k : JobKey) (l : List String) :
      Simple (.hold k (.counted .due l)) (.updateWorkflowStatus k.identity .completed)

/-- The stages at which a handler reads the runtime record of its job. -/
inductive Judges : Stage → Prop where
  | reported {st : JobStatus} (hst : st ≠ .completed) : Judges (.reported st)
  | broken (x : Closing) : Judges (.broken x)

/-- The moves of the engine's components, with their duties. -/
inductive Moves : (c : Call) → c.Reply → Duty → Duty → Prop where
  | plain {c : Call} {r : c.Reply} {t t' : Token} (h : Move c r t t') (hc : Simple t c) :
      Moves c r (plain t) (plain t')
  -- worker
  | execute (e : JobExeData) (b : Bool) :
      Moves (.executeJob e) b (plain (.hold e.key .started)) (executed e.key b)
  | report (e : JobCompletionData) (b : Bool) (he : e.status = if b then .completed else .failed)
      (r : Bool) : Moves (.enqueueJobCompletion e) r (executed e.key b) (plain .idle)
  -- completion handler
  | missing (k : JobKey) (st : JobStatus) :
      Moves (.fetchWorkflowRuntime k.identity) none (plain (.hold k (.reported st)))
        (repair k.identity)
  | repairs (id : WorkflowIdentity) (c : Call) (hc : c.isSqlite = true)
      (habout : c.about = some id) (r : c.Reply) : Moves c r (repair id) (repair id)
  | success (k : JobKey) (r : Redis.CompletedJob) :
      Moves (.completeSuccessfulJob k) (some r) (plain (.hold k (.reported .completed)))
        (recording k (.ofCompleted r.workflowCompleted) (r.promoted.toList ++ r.readyJobIds))
  | refused (k : JobKey) :
      Moves (.completeSuccessfulJob k) none (plain (.hold k (.reported .completed)))
        (plain (.hold k (.reported .failed)))
  | record (k : JobKey) (x : Closing) (l : List String) (b : Bool) :
      Moves (.updateJobStatus k .completed) b (recording k x l)
        (plain (.hold k (if b then .counted x l else .broken x)))
  | list (k : JobKey) (l : List String) (rows : List JobRow) :
      Moves (.getAllJobsForWorkflow k.identity) (some rows) (plain (.hold k (.counted .due l)))
        (cleaning (.hold k (.counted .due l))
          (cleanupCalls k.identity (rows.map (fun r => r.key.jobId))))
  | listFault (k : JobKey) (l : List String) :
      Moves (.getAllJobsForWorkflow k.identity) none (plain (.hold k (.counted .due l)))
        (plain (.hold k (.broken .due)))
  | judge (k : JobKey) {s : Stage} (hs : Judges s) (r : Bool × JobRuntimeData) :
      Moves (.fetchJobRuntime k) r (plain (.hold k s)) (afterRuntime k s r)
  | clock (k : JobKey) (st : JobStatus) (d : Bool × JobRuntimeData) (r : Clock) :
      Moves (.readClock k.identity) r (judging k (.reported st) d) (judging k (.reported st) d)
  | retry (k : JobKey) {st : JobStatus} (hst : st ≠ .aborted) {d : Bool × JobRuntimeData} {n : Int}
      (hn : n = d.2.currentRetryCount + 1) (hmax : n ≤ d.2.maxRetries) (retryAtMs : Int)
      (r : Option (Option String)) :
      Moves (.scheduleJobRetry k n retryAtMs) r (judging k (.reported st) d) (plain .idle)
  | listing (k : JobKey) (st : JobStatus) (d : Bool × JobRuntimeData) (rows : List JobRow) :
      Moves (.getAllJobsForWorkflow k.identity) (some rows) (judging k (.reported st) d)
        (plain (.hold k (.listing st (rows.map (fun r => r.key.jobId)))))
  | listingBroken (k : JobKey) (x : Closing) (d : Bool × JobRuntimeData) (rows : List JobRow) :
      Moves (.getAllJobsForWorkflow k.identity) (some rows) (judging k (.broken x) d)
        (plain (.hold k (.broken x)))
  | unlisted (k : JobKey) {s : Stage} (hs : Judges s) (d : Bool × JobRuntimeData) :
      Moves (.getAllJobsForWorkflow k.identity) none (judging k s d) (repair k.identity)
  | fail (k : JobKey) (st : JobStatus) (jobIds : List String) (n : Int) (r : Redis.FailedJob) :
      Moves (.completeFailedJob k n jobIds) (some r) (plain (.hold k (.listing st jobIds)))
        (failed k st.recordedFailure r)
  | failBroken (k : JobKey) (x : Closing) (jobIds : List String) (n : Int) (r : Redis.FailedJob) :
      Moves (.completeFailedJob k n jobIds) (some r) (plain (.hold k (.broken x)))
        (failed k .failed r)
  | unfailed (k : JobKey) (st : JobStatus) (jobIds : List String) (n : Int) :
      Moves (.completeFailedJob k n jobIds) none (plain (.hold k (.listing st jobIds)))
        (repair k.identity)
  | unfailedBroken (k : JobKey) (x : Closing) (jobIds : List String) (n : Int) :
      Moves (.completeFailedJob k n jobIds) none (plain (.hold k (.broken x)))
        (repair k.identity)
  | mark (k : JobKey) (r : Redis.FailedJob) (b : Bool) :
      Moves (.setJobStatus k .aborted) b (failed k .aborted r) (failed k .aborted r)
  | recordFailed (k : JobKey) (st : JobStatus) (r : Redis.FailedJob) (b : Bool) :
      Moves (.updateJobStatus k st) b (failed k st r) (failed k st r)
  | recordCanceled (k : JobKey) (st : JobStatus) (r : Redis.FailedJob) {j : String}
      (hj : j ∈ r.canceledJobIds) (b : Bool) :
      Moves (.updateJobStatus ⟨k.identity, j⟩ .aborted) b (failed k st r) (failed k st r)
  | recordWorkflow (k : JobKey) (st : JobStatus) (r : Redis.FailedJob)
      (hr : r.workflowFailed = true) (b : Bool) :
      Moves (.updateWorkflowStatus k.identity .failed) b (failed k st r) (failed k st r)
  | listFailed (k : JobKey) (st : JobStatus) {r : Redis.FailedJob}
      (hr : r.workflowCompleted = true) (rows : List JobRow) :
      Moves (.getAllJobsForWorkflow k.identity) (some rows) (failed k st r)
        (cleaning (.hold k (.failed .due))
          (cleanupCalls k.identity (rows.map (fun r => r.key.jobId))))
  | unlistedFailed (k : JobKey) (st : JobStatus) {r : Redis.FailedJob}
      (hr : r.workflowCompleted = true) :
      Moves (.getAllJobsForWorkflow k.identity) none (failed k st r) (plain .idle)
  | clean {c : Call} (hc : c.isCleanup = true) {r : c.Reply} {t t' : Token} (h : Move c r t t')
      (calls : List Call) : Moves c r (cleaning t (c :: calls)) (clean t' calls)
  | unreleased (id : WorkflowIdentity) {t t' : Token}
      (h : Move (.removeActiveWorkflow id) false t t') (calls : List Call) :
      Moves (.removeActiveWorkflow id) false (cleaning t (.removeActiveWorkflow id :: calls))
        (plain t')

inductive Final : Duty → Prop where
  | plain {t : Token} (h : t.Final) : Final (plain t)
  | repair (id : WorkflowIdentity) : Final (repair id)
  | failed (k : JobKey) (st : JobStatus) {r : Redis.FailedJob} (hr : r.workflowCompleted = false) :
      Final (failed k st r)

/-- What a thread does about its duty is a move of the protocol. -/
theorem Moves.move {c : Call} {r : c.Reply} {q q' : Duty} (h : Moves c r q q') :
    Move c r q.token q'.token := by
  have hclosing : ∀ {r : Redis.FailedJob}, r.workflowCompleted = true →
      Closing.ofCompleted r.workflowCompleted = .due := fun hr => by
    rw [hr]
    rfl
  cases h with
  | plain h => exact h
  | execute e b => exact .execute e b
  | report e b he r =>
      have hreports : Reports .started e.status := by
        rw [he]
        cases b
        · exact .failed
        · exact .completed
      cases r
      · exact .enqueueFault e hreports
      · exact .enqueue e hreports
  | missing k st => exact .workflowMissing k st
  | repairs id c hc => exact .sqlite c hc r
  | success k r => exact .success k r
  | refused k => exact .successRefused k
  | record k x l b => exact .countedJob k x l b
  | list k l rows => exact .countedList k l (some rows)
  | listFault k l => exact .countedList k l none
  | judge k hs r =>
      have htoken : ∀ s, (afterRuntime k s r).token = Token.afterRuntime k s r := fun s => by
        rw [afterRuntime, Token.afterRuntime]
        split <;> rfl
      rw [htoken]
      cases hs with
      | reported => exact .runtime k _ r
      | broken x => exact .brokenRuntime k x r
  | clock k st d r => exact .clock k st r
  | retry k hst hn hmax retryAtMs r =>
      cases r
      · exact .retryFault k _ hst _ _
      · exact .retry k _ hst _ _ _
  | listing k st d rows => exact .list k st rows
  | listingBroken k x d rows => exact .brokenList k x rows
  | unlisted k hs d =>
      cases hs with
      | reported => exact .listFault k _
      | broken x => exact .brokenListFault k x
  | fail k st jobIds n r => exact .fail k st jobIds n r
  | failBroken k x jobIds n r => exact .brokenFail k x jobIds n r
  | unfailed k st jobIds n => exact .failFault k st jobIds n
  | unfailedBroken k x jobIds n => exact .brokenFailFault k x jobIds n
  | mark k r b => exact .mark k _ b
  | recordFailed k st r b => exact .failedSqlite k _ (.updateJobStatus k st) rfl rfl b
  | @recordCanceled k st r j hj b =>
      exact .failedSqlite k _ (.updateJobStatus ⟨k.identity, j⟩ .aborted) rfl rfl b
  | recordWorkflow k st r hr b =>
      exact .failedSqlite k _ (.updateWorkflowStatus k.identity .failed) rfl rfl b
  | listFailed k st hr rows =>
      rw [token, token, hclosing hr]
      exact .failedSqlite k .due (.getAllJobsForWorkflow k.identity) rfl rfl (some rows)
  | unlistedFailed k st hr =>
      rw [token, token, hclosing hr]
      exact .failedListFault k
  | clean hc h calls =>
      rw [token_clean]
      exact h
  | unreleased id h calls => exact h

end Duty

def duties : Protocol Call Call.Reply Duty where
  idle := .plain .idle
  Move := Duty.Moves
  Final := Duty.Final

theorem duties_refine : protocol.Refines duties Duty.token where
  idle := rfl
  move := fun _ _ _ _ h => h.move
  final := fun q hq => by
    cases hq with
    | plain h => exact h
    | repair id => exact .idle
    | failed k st hr =>
        rw [Duty.token, hr]
        exact .failed k

end FlowPilot
