import FlowPilot.StoreKeyspace

/-! The Lua scripts of `redis_db_async_jobs.cpp`, `redis_db_async_workflow.cpp`,
`redis_db_async_retry.cpp` and `redis_db_async.cpp`, as functions of the keys of one workflow. A
script that also touches the global execution queue or the retry set says in its result what it
adds and removes there; `StoreRedis` carries that out in the same atomic step. -/

namespace FlowPilot

namespace WorkflowKeyspace

/-- The claim script of `blocking_dequeue_job_for_execution_async`. -/
def claimJob (j : String) (ks : WorkflowKeyspace) : Bool × WorkflowKeyspace :=
  if ks.jobStatus j = some .ready ∨ ks.jobStatus j = some .queued then
    (true, ks.setJobStatus j .pendingExecution)
  else (false, ks)

/-- The script of `try_set_job_to_running_async`, at the Redis time `now`. -/
def trySetJobToRunning (now : Int) (j : String) (ks : WorkflowKeyspace) :
    StartJobResult × WorkflowKeyspace :=
  if ks.jobStatus j = some .aborted then (.alreadyCanceled, ks)
  else if ks.jobStatus j ≠ some .pendingExecution then
    (.invariantViolationJobStatus, ks.setStatus .failed)
  else if ks.status = some .ready then
    if (ks.hash.bind WorkflowHash.startRunTime).isSome then
      (.invariantViolationWorkflowTime, (ks.setJobStatus j .aborted).setStatus .failed)
    else
      let started := ks.setHash (fun h =>
        { h with status := some .running, startRunTime := some now })
      (.firstToStart, started.setJob j (fun h =>
        { h with status := some .running, startRunTime := some now }))
  else if ks.status = some .running then
    (.started, ks.setJob j (fun h => { h with status := some .running, startRunTime := some now }))
  else if ks.status = some .failed ∨ ks.status = some .canceled then
    (.canceledByWorkflowState, ks.setJobStatus j .aborted)
  else (.invariantViolationWorkflowStatus, (ks.setJobStatus j .aborted).setStatus .failed)

/-- The workflow has been running for longer than its `max_run_time`. -/
def runTimeExceeded (now : Int) (ks : WorkflowKeyspace) : Bool :=
  decide (ks.number WorkflowHash.startRunTime > 0 ∧ ks.number WorkflowHash.maxRunTime > 0 ∧
    now - ks.number WorkflowHash.startRunTime > ks.number WorkflowHash.maxRunTime)

/-- The body of the successor loop for a PENDING successor whose last dependency completed. -/
def makeReady (j : String) (ks : WorkflowKeyspace) : WorkflowKeyspace :=
  let ready := ks.setJob j (fun h =>
    { h with remainingDependencies := some 0, status := some .ready })
  let counted :=
    if ready.number WorkflowHash.pendingJobs > 0 then
      ready.setHash (fun h =>
        { h with pendingJobs := some (ready.number WorkflowHash.pendingJobs - 1) })
    else ready
  { counted with
    waitingReady := counted.waitingReady.add j (counted.jobNumber j JobHash.priority) }

/-- The successor loop of the success script, with the jobs it makes READY. -/
def advanceSuccessors : List String → WorkflowKeyspace → List String × WorkflowKeyspace
  | [], ks => ([], ks)
  | j :: rest, ks =>
      if ks.jobStatus j = some .pending then
        let remaining := ks.jobNumber j JobHash.remainingDependencies - 1
        let decremented := ks.setJob j (fun h => { h with remainingDependencies := some remaining })
        if remaining ≤ 0 then
          let (ready, done) := advanceSuccessors rest (decremented.makeReady j)
          (j :: ready, done)
        else advanceSuccessors rest decremented
      else advanceSuccessors rest ks

/-- The answers of the success script: `{0}` for a missing or a not running workflow, `{-1}` when
the run time is exceeded, and otherwise `{1, completed, promoted, newly ready jobs}`. -/
inductive SuccessOutcome where
  | missing | notRunning | runTimeExceeded | alreadyCompleted
  | counted (workflowCompleted : Bool) (promoted : Option (String × Int)) (newlyReady : List String)
  deriving DecidableEq, Repr

/-- The counters of the success script, once the job and its successors are updated: one more
completed job, one slot given back. -/
def countCompleted (ks : WorkflowKeyspace) : WorkflowKeyspace := (ks.addCompleted 1).releaseSlot

/-- `total_jobs > 0 and completed_jobs == total_jobs`. -/
def allCompleted (ks : WorkflowKeyspace) : Bool :=
  decide (ks.number WorkflowHash.totalJobs > 0 ∧
    ks.number WorkflowHash.completedJobs = ks.number WorkflowHash.totalJobs)

/-- The job and its successors are updated by the success script. -/
def finishJob (j : String) (ks : WorkflowKeyspace) : List String × WorkflowKeyspace :=
  let done := ks.setJobStatus j .completed
  advanceSuccessors (done.successors j)
    { done with successors := Function.update done.successors j [] }

/-- The script of `complete_successful_job_runtime_async`. -/
def completeSuccessfulJob (now : Int) (j : String) (ks : WorkflowKeyspace) :
    SuccessOutcome × WorkflowKeyspace :=
  match ks.status, ks.jobStatus j with
  | some ws, some js =>
      if js = .completed then (.alreadyCompleted, ks)
      else if ws ≠ .running then (.notRunning, ks)
      else if ks.runTimeExceeded now then (.runTimeExceeded, ks.setStatus .failed)
      else
        let (newlyReady, advanced) := ks.finishJob j
        let counted := advanced.countCompleted
        if counted.allCompleted then
          (.counted true none newlyReady, counted.setStatus .completed)
        else if counted.reserved < counted.number WorkflowHash.maxConcurrentJobs then
          let (promoted, done) := counted.promoteWaiting
          (.counted false promoted newlyReady, done)
        else (.counted false none newlyReady, counted)
  | _, _ => (.missing, ks)

theorem eq_none_or_of_unread {j : String} {ks : WorkflowKeyspace}
    (h : ∀ ws js, ks.status = some ws → ks.jobStatus j = some js → False) :
    ks.status = none ∨ ks.jobStatus j = none := by
  cases hs : ks.status with
  | none => exact .inl rfl
  | some ws => exact .inr (Option.eq_none_iff_forall_ne_some.mpr (fun js => h ws js hs))

/-- The answers of the success script that leave the keys as they are, with their reasons. -/
theorem completeSuccessfulJob_refused {now : Int} {j : String} {ks : WorkflowKeyspace}
    {outcome : SuccessOutcome} (h : (ks.completeSuccessfulJob now j).1 = outcome) :
    (outcome = .missing → (ks.completeSuccessfulJob now j).2 = ks ∧
      (ks.status = none ∨ ks.jobStatus j = none)) ∧
    (outcome = .notRunning → (ks.completeSuccessfulJob now j).2 = ks ∧
      ks.status ≠ some .running) ∧
    (outcome = .alreadyCompleted → (ks.completeSuccessfulJob now j).2 = ks ∧
      ks.jobStatus j = some .completed) := by
  subst h
  rw [completeSuccessfulJob]
  split
  · rename_i ws js hws hjs
    split
    · rename_i hcompleted
      simp [hjs, hcompleted]
    · split
      · rename_i hrunning
        simp [hws, hrunning]
      · split
        · simp
        · dsimp only
          split
          · simp
          · split <;> simp
  · rename_i hnone
    exact ⟨fun _ => ⟨rfl, eq_none_or_of_unread hnone⟩, by simp, by simp⟩

/-- The loop of the failure script over the jobs of the workflow. The result lists the canceled
jobs with the status each of them had. -/
def cancelSiblings (failedJob : String) :
    List String → WorkflowKeyspace → List (String × JobStatus) × WorkflowKeyspace
  | [], ks => ([], ks)
  | j :: rest, ks =>
      match ks.jobStatus j with
      | none => cancelSiblings failedJob rest ks
      | some st =>
          if j ≠ failedJob ∧ st.isWaitingToRun = true then
            let canceled := ks.setJobStatus j .aborted
            let (others, done) := cancelSiblings failedJob rest
              { canceled with waitingReady := canceled.waitingReady.remove j }
            ((j, st) :: others, done)
          else cancelSiblings failedJob rest ks

/-- The answer of the failure script. -/
structure FailureOutcome where
  workflowFailed : Bool
  workflowCompleted : Bool
  canceled : List (String × JobStatus)
  deriving DecidableEq, Repr

/-- The counters of the failure script, after `canceled` siblings were canceled. -/
def countFailed (canceled : Nat) (ks : WorkflowKeyspace) : WorkflowKeyspace :=
  (ks.addCompleted (1 + canceled)).addFailed

/-- The script of `complete_failed_job_runtime_async`. -/
def completeFailedJob (j : String) (updatedRetryCount : Int) (jobIds : List String)
    (ks : WorkflowKeyspace) : FailureOutcome × WorkflowKeyspace :=
  let failed := ks.setJob j (fun h =>
    { h with status := some .failed, currentRetryCount := some updatedRetryCount })
  if failed.status = some .running then
    let (canceled, done) := cancelSiblings j jobIds (failed.releaseSlot.setStatus .failed)
    let counted := done.countFailed canceled.length
    (⟨true, counted.allCompleted, canceled⟩, counted)
  else
    let counted := failed.countFailed 0
    (⟨false, counted.allCompleted, []⟩, counted)

/-- The script of `schedule_job_retry_async`, with the job it promotes. -/
def scheduleJobRetry (j : String) (updatedRetryCount : Int) (ks : WorkflowKeyspace) :
    Option (String × Int) × WorkflowKeyspace :=
  let delayed := ks.setJob j (fun h =>
    { h with status := some .retryDelay, currentRetryCount := some updatedRetryCount,
             startRunTime := none })
  let released := delayed.releaseSlot
  if released.status ≠ some .running then (none, released)
  else if released.reserved ≥ released.number WorkflowHash.maxConcurrentJobs then (none, released)
  else released.promoteWaiting

/-- The script of `promote_retry_job_async`, with the job it promotes. -/
def promoteRetryJob (j : String) (ks : WorkflowKeyspace) :
    Option (String × Int) × WorkflowKeyspace :=
  match ks.status, ks.jobStatus j with
  | some ws, some js =>
      if ws ≠ .running then (none, ks.setJobStatus j .aborted)
      else if js ≠ .retryDelay ∧ js ≠ .ready then (none, ks)
      else
        let hasSlot := decide (ks.reserved < ks.number WorkflowHash.maxConcurrentJobs)
        let priority := ks.jobNumber j JobHash.priority
        if hasSlot && decide (ks.waitingReady.card = 0) then
          let queued := ks.setJobStatus j .queued
          (some (j, priority), queued.setReserved (queued.reserved + 1))
        else
          let ready := ks.setJobStatus j .ready
          let waiting := { ready with waitingReady := ready.waitingReady.add j priority }
          if hasSlot then waiting.promoteWaiting else (none, waiting)
  | _, _ => (none, ks)

/-- The assignments of `fetch_job_runtime_async`, in the order of the source: the first missing
field ends them, and what was assigned before it stays. -/
def fetchJobRuntime (j : String) (ks : WorkflowKeyspace) : Bool × JobRuntimeData :=
  match ks.jobs j with
  | none => (false, {})
  | some h =>
      let d : JobRuntimeData := { jobId := j }
      match h.status with
      | none => (false, d)
      | some st =>
      let d := { d with status := some st }
      match h.remainingDependencies with
      | none => (false, d)
      | some n =>
      let d := { d with remainingDependencies := n }
      match h.priority with
      | none => (false, d)
      | some n =>
      let d := { d with priority := n }
      match h.timeoutSec with
      | none => (false, d)
      | some n =>
      let d := { d with timeoutSec := n, startRunTime := h.startRunTime.getD 0 }
      match h.maxRetries with
      | none => (false, d)
      | some n =>
      let d := { d with maxRetries := n }
      match h.currentRetryCount with
      | none => (false, d)
      | some n =>
      let d := { d with currentRetryCount := n }
      match h.retryDelaySec with
      | none => (false, d)
      | some n =>
      let d := { d with retryDelaySec := n }
      match h.retryBackoffPolicy with
      | none => (false, d)
      | some policy =>
          (true, { d with retryBackoffPolicy := policy,
                          payloadSizeBytes := h.payloadSizeBytes.getD 0 })

end WorkflowKeyspace

end FlowPilot
