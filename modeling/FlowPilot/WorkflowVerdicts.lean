import FlowPilot.StoreFields
import FlowPilot.WorkflowFailure

/-! What the completion handler makes of an event that did not go well: whether the job is retried, and
with which status it is recorded. Both results speak of complete runs of `process_completed_jobs` with
any replies, so of every state, every failing call and everything that other components do in
between. -/

namespace FlowPilot

open CompletionHandler

section Retrying

variable {id : WorkflowIdentity} {k : JobKey}

/-- The call of `schedule_job_retry_async`. -/
def Call.isRetry : Call → Bool
  | .scheduleJobRetry _ _ _ => true
  | _ => false

def NoRetry (c : Call) : Prop := c.isRetry = false

theorem FollowsAbout.noRetry {c : Call} (h : FollowsAbout id c) : NoRetry c := by
  cases c with
  | scheduleJobRetry k n retryAtMs => cases h.1
  | _ => rfl

theorem noRetry_ask {c : Call} (hc : c.isRetry = false) : (ask c).OnlyCalls NoRetry :=
  Prog.OnlyCalls.perform hc

theorem noRetry_of_sqlite {α : Type} {p : Task α} (h : p.OnlyCalls (SqliteAbout id)) :
    p.OnlyCalls NoRetry := by
  refine h.mono (fun c hc => ?_)
  cases c with
  | scheduleJobRetry k n retryAtMs => cases hc.1
  | _ => rfl

theorem handleJobCompleted_noRetry : (handleJobCompleted k).OnlyCalls NoRetry := by
  refine (noRetry_ask rfl).bind (fun completed => ?_)
  cases completed with
  | none => trivial
  | some completed =>
      exact onlyCalls_andThen (noRetry_ask rfl) <|
        onlyCalls_andThen (onlyCalls_onlyIf (noRetry_ask rfl) _) <|
        onlyCalls_andThen (onlyCalls_onlyIf (noRetry_ask rfl) _) <|
        onlyCalls_onlyIf (cleanup_follows.mono (fun _ => FollowsAbout.noRetry)) _

theorem failJob_noRetry (st : JobStatus) (n : Int) : (failJob k st n).OnlyCalls NoRetry := by
  refine (noRetry_ask rfl).bind (fun rows => ?_)
  cases rows with
  | none => exact noRetry_of_sqlite (persistAfterRuntimeFailure_onlyCalls k _)
  | some rows =>
      refine (noRetry_ask rfl).bind (fun failed => ?_)
      cases failed with
      | none => exact noRetry_of_sqlite (persistAfterRuntimeFailure_onlyCalls k _)
      | some failed => exact (persistJobFailed_follows st failed).mono (fun _ => FollowsAbout.noRetry)

variable {workflow : WorkflowHash}

theorem handleJobFailed_noRetry {st : JobStatus} {runtime : JobRuntimeData}
    (h : ¬ (st = .failed ∧ workflow.status = some .running ∧
      runtime.currentRetryCount + 1 ≤ runtime.maxRetries)) :
    (handleJobFailed k st runtime workflow).OnlyCalls NoRetry := by
  unfold handleJobFailed
  dsimp only
  rw [if_neg h]
  exact failJob_noRetry _ _

/-- What `fetch_job_runtime_async` hands to its caller, for the answer of `HGETALL`; a command that
fails leaves the record as it was. -/
def readRuntime (jobId : String) : Option Fields → Bool × JobRuntimeData
  | none => (false, {})
  | some fields => fields.fetchJobRuntime jobId

/-- The record of the job was read up to a point at which another attempt is allowed. -/
def BreaksOff (fields : Option Fields) : Prop := ∃ texts, fields = some texts ∧ texts.Torn

theorem breaksOff_iff (fields : Option Fields) (jobId : String) : BreaksOff fields ↔
    (readRuntime jobId fields).1 = false ∧ (readRuntime jobId fields).2.currentRetryCount + 1 ≤
      (readRuntime jobId fields).2.maxRetries := by
  cases fields with
  | none =>
      refine iff_of_false (fun ⟨_, h, _⟩ => by cases h) (fun h => absurd h.2 ?_)
      show ¬ (({} : JobRuntimeData).currentRetryCount + 1 ≤ ({} : JobRuntimeData).maxRetries)
      decide
  | some fields =>
      rw [readRuntime, ← Fields.torn_iff fields jobId, BreaksOff]
      simp only [Option.some.injEq, exists_eq_left']

/-- The event reports an internal failure, or one comes up while it is processed: the job was aborted,
the error code says so, the event is neither a failure nor an abortion (a completion that cannot be
recorded and an event of any other status get the code), or the job's record cannot be read. -/
def FailsInternally (e : JobCompletionData) (fields : Option Fields) : Prop :=
  e.status ≠ .failed ∨ e.errorCode = .internalDbFailure ∨ (readRuntime e.jobId fields).1 = false

/-- The count of the attempts can be raised, as it was read and when it is exhausted. It is an `int` in
the source, and raising the largest one is undefined. -/
def Countable (runtime : JobRuntimeData) : Prop :=
  runtime.currentRetryCount < 2147483647 ∧ runtime.maxRetries < 2147483647

instance (runtime : JobRuntimeData) : Decidable (Countable runtime) :=
  inferInstanceAs (Decidable (_ ∧ _))

variable {answer : Nat → (c : Call) → c.Reply} {fields : Option Fields}

theorem processUncompleted_noRetry {st : JobStatus} {code : StatusCode}
    (hfields : ∀ n, answer n (.fetchJobRuntime k) = readRuntime k.jobId fields)
    (hinternal : st = .aborted ∨ code = .internalDbFailure ∨ (readRuntime k.jobId fields).1 = false)
    (h : st = .aborted ∨ workflow.status ≠ some .running ∨ ¬ BreaksOff fields) (n : Nat) :
    ∀ c ∈ (processUncompleted k st code workflow).calls answer n, NoRetry c := by
  have hcalls : (processUncompleted k st code workflow).calls answer n =
      .fetchJobRuntime k :: Prog.calls answer (n + 1)
        (if (readRuntime k.jobId fields).1 = true ∧ code = .internalDbFailure then
          handleJobFailed k st { (readRuntime k.jobId fields).2 with
            currentRetryCount := (readRuntime k.jobId fields).2.maxRetries } workflow
        else handleJobFailed k st (readRuntime k.jobId fields).2 workflow) := by
    rw [← hfields n]
    rfl
  rw [hcalls]
  intro c hc
  rcases List.mem_cons.mp hc with rfl | hc
  · rfl
  · refine Prog.OnlyCalls.mem_calls answer ?_ (n + 1) c hc
    split
    · refine handleJobFailed_noRetry (fun hretry => ?_)
      have hle := hretry.2.2
      dsimp only at hle
      omega
    · rename_i hread
      refine handleJobFailed_noRetry (fun hretry => ?_)
      rcases h with rfl | hrunning | hwhole
      · cases hretry.1
      · exact hrunning hretry.2.1
      · refine hwhole ((breaksOff_iff fields k.jobId).mpr ⟨?_, hretry.2.2⟩)
        rcases hinternal with rfl | rfl | hunread
        · cases hretry.1
        · exact Bool.not_eq_true _ ▸ fun hok => hread ⟨hok, rfl⟩
        · exact hunread

/-- An event that is not about an abortion, with a record that breaks off, comes to a retry when no job
can be completed and the clock stands at the start of the job. -/
def retryingReplies (workflow : Option WorkflowHash) (jobId : String) (fields : Option Fields) :
    (c : Call) → c.Reply
  | .fetchWorkflowRuntime _ => workflow
  | .fetchJobRuntime _ => readRuntime jobId fields
  | .readClock _ => ⟨(readRuntime jobId fields).2.startRunTime, 0, 0⟩
  | c => c.failure

theorem handleJobFailed_retries (answer : Nat → (c : Call) → c.Reply) {runtime : JobRuntimeData}
    (hrunning : workflow.status = some .running)
    (hleft : runtime.currentRetryCount + 1 ≤ runtime.maxRetries) (n : Nat)
    (hclock : (answer n (.readClock k.identity) : Clock).time = runtime.startRunTime) :
    ∃ c ∈ (handleJobFailed k .failed runtime workflow).calls answer n, ¬ NoRetry c := by
  have hexpired : isJobRuntimeExpired runtime
      (answer n (.readClock k.identity) : Clock).time = false := by
    rw [hclock, isJobRuntimeExpired, decide_eq_false_iff_not]
    omega
  refine ⟨.scheduleJobRetry k (runtime.currentRetryCount + 1)
    ((answer (n + 1) (.readClock k.identity) : Clock).nowMs + max 0 runtime.retryDelaySec * 1000 +
      (answer (n + 1) (.readClock k.identity) : Clock).jitterMs), ?_, by simp [NoRetry, Call.isRetry]⟩
  unfold handleJobFailed
  dsimp only
  rw [if_pos ⟨rfl, hrunning, hleft⟩]
  refine List.mem_cons_of_mem _ ?_
  show _ ∈ Prog.calls answer (n + 1) (if isJobRuntimeExpired runtime
    (answer n (.readClock k.identity) : Clock).time = true then _ else _)
  rw [hexpired]
  exact List.mem_cons_of_mem _ List.mem_cons_self

theorem processUncompleted_retries {code : StatusCode}
    (hrunning : workflow.status = some .running) (hbreaks : BreaksOff fields) (n : Nat) :
    ∃ c ∈ (processUncompleted k .failed code workflow).calls
      (fun _ => retryingReplies (some workflow) k.jobId fields) n, ¬ NoRetry c := by
  obtain ⟨hunread, hleft⟩ := (breaksOff_iff fields k.jobId).mp hbreaks
  have hcalls : (processUncompleted k .failed code workflow).calls
      (fun _ => retryingReplies (some workflow) k.jobId fields) n =
      .fetchJobRuntime k :: Prog.calls (fun _ => retryingReplies (some workflow) k.jobId fields) (n + 1)
        (if (readRuntime k.jobId fields).1 = true ∧ code = .internalDbFailure then
          handleJobFailed k .failed { (readRuntime k.jobId fields).2 with
            currentRetryCount := (readRuntime k.jobId fields).2.maxRetries } workflow
        else handleJobFailed k .failed (readRuntime k.jobId fields).2 workflow) := rfl
  rw [hcalls, if_neg (by simp [hunread])]
  obtain ⟨c, hc, hretry⟩ := handleJobFailed_retries
    (fun _ => retryingReplies (some workflow) k.jobId fields) hrunning hleft (n + 1) rfl
  exact ⟨c, List.mem_cons_of_mem _ hc, hretry⟩

theorem processCompletedJobs_calls (answer : Nat → (c : Call) → c.Reply) {e : JobCompletionData}
    (hworkflow : answer 0 (.fetchWorkflowRuntime e.identity) = some workflow) :
    ∃ rest : Task Bool, (processCompletedJobs e).calls answer 0 =
        .fetchWorkflowRuntime e.identity :: rest.calls answer 1 ∧
      ((e.status = .failed ∨ e.status = .aborted) ∧
          rest = processUncompleted e.key e.status e.errorCode workflow ∨
        e.status ≠ .failed ∧ e.status ≠ .aborted ∧
          (rest = processUncompleted e.key .failed .internalDbFailure workflow ∨
            rest = handleJobCompleted e.key >>= fun handled => if handled = true then pure true
              else processUncompleted e.key .failed .internalDbFailure workflow)) := by
  refine ⟨_, Prog.calls_perform_bind hworkflow _, ?_⟩
  cases hst : e.status with
  | failed => exact .inl ⟨.inl rfl, rfl⟩
  | aborted => exact .inl ⟨.inr rfl, rfl⟩
  | completed => exact .inr ⟨(by simp), (by simp), .inr rfl⟩
  | _ => exact .inr ⟨(by simp), (by simp), .inl rfl⟩

theorem processCompletedJobs_calls_none (answer : Nat → (c : Call) → c.Reply) {e : JobCompletionData}
    (hworkflow : answer 0 (.fetchWorkflowRuntime e.identity) = none) :
    (processCompletedJobs e).calls answer 0 =
      .fetchWorkflowRuntime e.identity :: (repairMissingRuntime e.identity).calls answer 1 := by
  exact Prog.calls_perform_bind hworkflow _

/-- Internal failures are not retried, except where the workflow is running and the record of the job
breaks off while it still allows an attempt: `fetch_job_runtime_async` then returns false with the
bound on the attempts already written, and nothing exhausts the count. -/
theorem internal_failure_not_retried (e : JobCompletionData) (workflow : Option WorkflowHash)
    (fields : Option Fields) (_hcount : Countable (readRuntime e.jobId fields).2)
    (hinternal : FailsInternally e fields) :
    (∀ answer : Nat → (c : Call) → c.Reply,
      (∀ n, answer n (.fetchWorkflowRuntime e.identity) = workflow) →
      (∀ n, answer n (.fetchJobRuntime e.key) = readRuntime e.jobId fields) →
      ∀ c ∈ (processCompletedJobs e).calls answer 0, NoRetry c) ↔
    (e.status = .aborted ∨ workflow.bind WorkflowHash.status ≠ some .running ∨ ¬ BreaksOff fields) := by
  constructor
  · intro h
    by_contra hcon
    simp only [not_or, not_not] at hcon
    obtain ⟨haborted, hrunning, hbreaks⟩ := hcon
    obtain ⟨workflow, rfl, hrunning⟩ := Option.bind_eq_some_iff.mp hrunning
    let answer : Nat → (c : Call) → c.Reply := fun _ => retryingReplies (some workflow) e.jobId fields
    have hretries : ∀ code n, ∃ c ∈ (processUncompleted e.key .failed code workflow).calls answer n,
        ¬ NoRetry c := fun code n => processUncompleted_retries hrunning hbreaks n
    obtain ⟨rest, hcalls, hrest⟩ := processCompletedJobs_calls answer
      (rfl : answer 0 (.fetchWorkflowRuntime e.identity) = some workflow)
    have hnone : ∀ c ∈ rest.calls answer 1, NoRetry c := fun c hc =>
      h answer (fun _ => rfl) (fun _ => rfl) c (hcalls ▸ List.mem_cons_of_mem _ hc)
    rcases hrest with ⟨hst, rfl⟩ | ⟨-, -, rfl | rfl⟩
    · rw [hst.resolve_right haborted] at hnone
      obtain ⟨c, hc, hretry⟩ := hretries e.errorCode 1
      exact hretry (hnone c hc)
    · obtain ⟨c, hc, hretry⟩ := hretries .internalDbFailure 1
      exact hretry (hnone c hc)
    · -- the script is the one call of the handler that completes the job
      obtain ⟨c, hc, hretry⟩ := hretries .internalDbFailure 2
      exact hretry (hnone c (List.mem_cons_of_mem _ hc))
  · intro h answer hworkflow hfields
    cases workflow with
    | none =>
        rw [processCompletedJobs_calls_none answer (hworkflow 0)]
        exact List.forall_mem_cons.mpr ⟨rfl, Prog.OnlyCalls.mem_calls answer
          (noRetry_of_sqlite (repairMissingRuntime_onlyCalls e.identity)) 1⟩
    | some workflow =>
        obtain ⟨rest, hcalls, hrest⟩ := processCompletedJobs_calls answer (hworkflow 0)
        rw [hcalls]
        refine List.forall_mem_cons.mpr ⟨rfl, ?_⟩
        rcases hrest with ⟨hst, rfl⟩ | ⟨hfailed, haborted, rfl | rfl⟩
        · refine processUncompleted_noRetry hfields ?_ h 1
          rcases hinternal with hne | hinternal
          · exact .inl (hst.resolve_left hne)
          · exact .inr hinternal
        · exact processUncompleted_noRetry hfields (.inr (.inl rfl))
            (.inr (h.resolve_left haborted)) 1
        · rw [Prog.calls_bind]
          refine List.forall_mem_append.mpr
            ⟨Prog.OnlyCalls.mem_calls answer handleJobCompleted_noRetry 1, ?_⟩
          split
          · exact fun c hc => absurd hc List.not_mem_nil
          · exact processUncompleted_noRetry hfields (.inr (.inl rfl))
              (.inr (h.resolve_left haborted)) _

/-- The record of a job without its retry count. -/
def tornRecord : Fields :=
  [("status", ['R', 'U', 'N', 'N', 'I', 'N', 'G']), ("remaining_dependencies", ['0']),
   ("priority", ['5']), ("timeout_sec", ['6', '0']), ("max_retries", ['3'])]

/-- The record with the rest of its fields, which allows three more attempts. -/
def wholeRecord : Fields :=
  tornRecord ++ [("current_retry_count", ['0']), ("retry_delay_sec", ['1']),
    ("retry_backoff_policy", ['F', 'I', 'X', 'E', 'D']), ("payload_size_bytes", ['0'])]

/-- An event of that job, whose failure was an internal one. -/
def internalEvent : JobCompletionData := ⟨⟨"client", "workflow"⟩, "a", .failed, .internalDbFailure⟩

/-- The workflow is running and the record allows an attempt, but none is made. -/
theorem internal_failure_not_retried_whole :
    (readRuntime internalEvent.jobId (some wholeRecord)).1 = true ∧
    (readRuntime internalEvent.jobId (some wholeRecord)).2.currentRetryCount + 1 ≤
      (readRuntime internalEvent.jobId (some wholeRecord)).2.maxRetries ∧
    ∀ answer : Nat → (c : Call) → c.Reply,
      (∀ n, answer n (.fetchWorkflowRuntime internalEvent.identity) =
        some { status := some .running }) →
      (∀ n, answer n (.fetchJobRuntime internalEvent.key) =
        readRuntime internalEvent.jobId (some wholeRecord)) →
      ∀ c ∈ (processCompletedJobs internalEvent).calls answer 0, NoRetry c := by
  have hread : (readRuntime internalEvent.jobId (some wholeRecord)).1 = true := by decide +kernel
  refine ⟨hread, by decide +kernel, (internal_failure_not_retried internalEvent
    (some { status := some .running }) (some wholeRecord) (by decide +kernel) (.inr (.inl rfl))).mpr
      (.inr (.inr (fun hbreaks => ?_)))⟩
  exact Bool.noConfusion (hread.symm.trans ((breaksOff_iff _ internalEvent.jobId).mp hbreaks).1)

/-- An event of that job, which a worker ran without success. -/
def failedEvent : JobCompletionData := ⟨⟨"client", "workflow"⟩, "a", .failed, .jobExecutionFailure⟩

/-- The record cannot be read, and the job is retried all the same. -/
theorem torn_record_retried :
    (readRuntime failedEvent.jobId (some tornRecord)).1 = false ∧
    ((processCompletedJobs failedEvent).calls (fun _ => retryingReplies
      (some { status := some .running }) failedEvent.jobId (some tornRecord)) 0).any Call.isRetry = true := by
  refine ⟨by decide +kernel, ?_⟩
  decide +kernel

end Retrying

section Recording

variable {k : JobKey} {st : JobStatus}

/-- `update_job_status_async` of SQLite. -/
def Call.updatesJob : Call → Bool
  | .updateJobStatus _ _ => true
  | _ => false

/-- If the call ends the job in SQLite, then with this status. -/
def EndsAs (k : JobKey) (st : JobStatus) (c : Call) : Prop :=
  ∀ st', c = .updateJobStatus k st' → st'.isTerminal = true → st' = st

theorem endsAs_of_not_updatesJob {c : Call} (hc : c.updatesJob = false) : EndsAs k st c := by
  rintro st' rfl
  cases hc

theorem endsAs_ask {c : Call} (hc : c.updatesJob = false) : (ask c).OnlyCalls (EndsAs k st) :=
  Prog.OnlyCalls.perform (endsAs_of_not_updatesJob hc)

theorem CleansAbout.endsAs {id : WorkflowIdentity} {c : Call} (h : CleansAbout id c) :
    EndsAs k st c := by
  rintro st' rfl
  cases h.1

theorem endsAs_updateJobStatus (k : JobKey) (st : JobStatus) :
    (ask (.updateJobStatus k st)).OnlyCalls (EndsAs k st) :=
  Prog.OnlyCalls.perform (fun _ h _ => ((Call.updateJobStatus.inj h).2).symm)

theorem repairJobs_endsAs (rows : List JobRow) :
    (repairJobs k.identity (some k.jobId) rows).OnlyCalls (EndsAs k st) := by
  induction rows with
  | nil => trivial
  | cons row rest ih =>
      rw [repairJobs]
      split
      · exact ih
      · split
        · exact ih
        · rename_i hskip
          -- the job itself is left out, so the row is one of another job
          refine ⟨fun st' h => absurd (Call.updateJobStatus.inj h).1 (fun hk => hskip ?_),
            fun _ => ih.bind (fun _ => trivial)⟩
          rw [← hk]

theorem persistAfterRuntimeFailure_endsAs :
    (persistFailedWorkflowAfterRuntimeFailure k st).OnlyCalls (EndsAs k st) := by
  refine (endsAs_updateJobStatus k st).bind (fun _ => ?_)
  refine (endsAs_ask rfl).bind (fun rows => (repairJobs_endsAs _).bind (fun _ => ?_))
  exact (endsAs_ask rfl).bind (fun _ => trivial)

theorem updateCanceled_endsAs (canceled : List String) :
    (updateCanceled k.identity canceled).OnlyCalls (EndsAs k .aborted) := by
  induction canceled with
  | nil => trivial
  | cons j rest ih =>
      exact ⟨fun _ h _ => ((Call.updateJobStatus.inj h).2).symm, fun _ => ih.bind (fun _ => trivial)⟩

theorem persistJobFailed_endsAs (failed : Redis.FailedJob) :
    (persistJobFailed k .aborted failed).OnlyCalls (EndsAs k .aborted) := by
  refine (onlyCalls_onlyIf (endsAs_ask rfl) _).bind (fun _ => ?_)
  refine (endsAs_updateJobStatus k .aborted).bind (fun _ => ?_)
  refine (updateCanceled_endsAs _).bind (fun _ => ?_)
  refine (onlyCalls_onlyIf (endsAs_ask rfl) _).bind (fun _ => ?_)
  exact (onlyCalls_onlyIf (cleanup_cleans.mono (fun _ => CleansAbout.endsAs)) _).bind (fun _ => trivial)

variable (answer : Nat → (c : Call) → c.Reply) {e : JobCompletionData}

theorem aborted_calls {workflow : WorkflowHash} (haborted : e.status = .aborted)
    (hworkflow : answer 0 (.fetchWorkflowRuntime e.identity) = some workflow) :
    ∃ n, (processCompletedJobs e).calls answer 0 = .fetchWorkflowRuntime e.identity ::
      .fetchJobRuntime e.key :: (failJob e.key .aborted n).calls answer 2 := by
  obtain ⟨rest, hcalls, hrest⟩ := processCompletedJobs_calls answer hworkflow
  obtain ⟨-, rfl⟩ := hrest.resolve_right (fun h => h.2.1 haborted)
  rw [hcalls, haborted]
  let fetched : Bool × JobRuntimeData := answer 1 (.fetchJobRuntime e.key)
  have hfailed : ∀ runtime, ∃ n, handleJobFailed e.key .aborted runtime workflow =
      failJob e.key .aborted n := fun runtime => ⟨_, by
    unfold handleJobFailed
    dsimp only
    rw [if_neg (fun h => JobStatus.noConfusion h.1), if_pos rfl]⟩
  obtain ⟨n, hn⟩ := hfailed (if fetched.1 = true ∧ e.errorCode = .internalDbFailure then
    { fetched.2 with currentRetryCount := fetched.2.maxRetries } else fetched.2)
  refine ⟨n, congrArg _ ?_⟩
  rw [← hn]
  show _ :: Prog.calls answer 2 (if fetched.1 = true ∧ e.errorCode = .internalDbFailure then
    handleJobFailed e.key .aborted { fetched.2 with currentRetryCount := fetched.2.maxRetries } workflow
    else handleJobFailed e.key .aborted fetched.2 workflow) = _
  split <;> rfl

theorem failJob_calls_of_unread {n : Int} (hrows : answer 2 (.getAllJobsForWorkflow k.identity) = none) :
    (failJob k st n).calls answer 2 = .getAllJobsForWorkflow k.identity ::
      (persistFailedWorkflowAfterRuntimeFailure k .failed).calls answer 3 := by
  exact Prog.calls_perform_bind hrows _

theorem failJob_calls_of_read {n : Int} {rows : List JobRow}
    (hrows : answer 2 (.getAllJobsForWorkflow k.identity) = some rows) :
    ∀ c ∈ (failJob k .aborted n).calls answer 2, EndsAs k .aborted c := by
  have hcalls : (failJob k .aborted n).calls answer 2 = .getAllJobsForWorkflow k.identity :: _ :=
    Prog.calls_perform_bind hrows _
  rw [hcalls]
  refine List.forall_mem_cons.mpr ⟨endsAs_of_not_updatesJob rfl,
    Prog.OnlyCalls.mem_calls answer ?_ 3⟩
  refine (endsAs_ask rfl).bind (fun failed => ?_)
  cases failed with
  | none => exact persistAfterRuntimeFailure_endsAs
  | some failed => exact persistJobFailed_endsAs failed

/-- Whatever else fails, an aborted job is ended as ABORTED exactly when the list of the jobs could be
read: the fallback for that read takes FAILED, its default. -/
theorem aborted_job_recorded (workflow : WorkflowHash) (haborted : e.status = .aborted)
    (hworkflow : answer 0 (.fetchWorkflowRuntime e.identity) = some workflow) :
    (∀ st, .updateJobStatus e.key st ∈ (processCompletedJobs e).calls answer 0 →
      st.isTerminal = true → st = .aborted) ↔
    answer 2 (.getAllJobsForWorkflow e.identity) ≠ none := by
  obtain ⟨n, hcalls⟩ := aborted_calls answer haborted hworkflow
  rw [hcalls]
  constructor
  · intro h hrows
    have hfailed : JobStatus.failed = .aborted := by
      refine h .failed ?_ rfl
      rw [failJob_calls_of_unread answer hrows]
      exact List.mem_cons_of_mem _ (List.mem_cons_of_mem _ (List.mem_cons_of_mem _
        List.mem_cons_self))
    cases hfailed
  · intro hrows st hst
    obtain ⟨rows, hrows⟩ := Option.ne_none_iff_exists'.mp hrows
    have hall : ∀ c ∈ Call.fetchWorkflowRuntime e.identity :: .fetchJobRuntime e.key ::
        (failJob e.key .aborted n).calls answer 2, EndsAs e.key .aborted c :=
      List.forall_mem_cons.mpr ⟨endsAs_of_not_updatesJob rfl, List.forall_mem_cons.mpr
        ⟨endsAs_of_not_updatesJob rfl, failJob_calls_of_read answer hrows⟩⟩
    exact hall _ hst st rfl

/-- An event of a job that could not be started. -/
def abortedEvent : JobCompletionData := ⟨⟨"client", "workflow"⟩, "a", .aborted, .statusUpdatedFailure⟩

/-- Replies with which everything but the reads of the workflow and of its jobs fails. -/
def readingReplies (w : World) : (c : Call) → c.Reply
  | .fetchWorkflowRuntime id => (w.redis.workflows id).hash
  | .getAllJobsForWorkflow id => some (w.sqlite.getAllJobsForWorkflow id)
  | c => c.failure

/-- The failure script and the updates of SQLite fail while job `b` is running; the fallback tries to
record `a` as ABORTED. -/
theorem aborted_job_recorded_reading :
    let w := storedPair .running .pendingExecution .running
    .updateJobStatus abortedEvent.key .aborted ∈
        (processCompletedJobs abortedEvent).calls (fun _ => readingReplies w) 0 ∧
    ∀ st, .updateJobStatus abortedEvent.key st ∈
        (processCompletedJobs abortedEvent).calls (fun _ => readingReplies w) 0 →
      st.isTerminal = true → st = .aborted := by
  intro w
  obtain ⟨workflow, hworkflow⟩ : ∃ workflow, (w.redis.workflows abortedEvent.identity).hash =
      some workflow := ⟨_, rfl⟩
  refine ⟨?_, (aborted_job_recorded (e := abortedEvent) (fun _ => readingReplies w) workflow rfl
    hworkflow).mpr nofun⟩
  exact .tail _ (.tail _ (.tail _ (.tail _ (.head _))))

/-- When the list of the jobs cannot be read, the aborted job is FAILED in SQLite. -/
theorem unread_jobs_recorded_failed :
    ((storedPair .running .pendingExecution .running).redis.workflows abortedEvent.identity).hash ≠
      none ∧
    (Prog.run Call.exec (fun n => { ok := n != 2 }) (processCompletedJobs abortedEvent)
      (storedPair .running .pendingExecution .running)).2.sqlite.jobStatus abortedEvent.key =
        some .failed := by
  refine ⟨by decide, ?_⟩
  decide +kernel

end Recording

end FlowPilot
