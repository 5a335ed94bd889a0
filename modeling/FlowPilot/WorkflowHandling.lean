import FlowPilot.ProtocolTasks
import FlowPilot.WorkflowBooks

/-! What the handlers do to the books of a workflow when they run alone and every call is answered:
the writes that follow each script, and the calls they make at all. -/

namespace FlowPilot

/-- The calls of the components about the workflow they act for, but for the execution of a job. -/
def Call.handles : Call → Bool
  | .jobType _ | .claimJob _ | .fetchJobPayload _ | .pushLocal _ | .trySetJobToRunning _
  | .enqueueJobCompletion _ | .fetchWorkflowRuntime _ | .completeSuccessfulJob _ | .completeFailedJob _ _ _
  | .setJobStatus _ _ | .readClock _ | .fetchJobRuntime _ | .scheduleJobRetry _ _ _
  | .promoteRetryJob _ | .getAllWorkflowsForClient _ | .getAllJobsForWorkflow _
  | .updateJobStatus _ _ | .updateWorkflowStatus _ _ | .updateReadyJobs _ _ _ => true
  | c => c.isCleanup

def HandlesAbout (id : WorkflowIdentity) (c : Call) : Prop := c.handles = true ∧ c.about = some id

/-- The calls with which a handler follows a script up: the statements of SQLite, the status of a job
and the deletions of the cleanup. -/
def Call.followsScript : Call → Bool
  | .setJobStatus _ _ => true
  | c => c.isSqlite || c.isCleanup

/-- The calls of the cleanup: the list of the jobs and the deletions. -/
def Call.cleansUp : Call → Bool
  | .getAllJobsForWorkflow _ => true
  | c => c.isCleanup

def CleansAbout (id : WorkflowIdentity) (c : Call) : Prop := c.cleansUp = true ∧ c.about = some id

def FollowsAbout (id : WorkflowIdentity) (c : Call) : Prop :=
  c.followsScript = true ∧ c.about = some id

/-- The calls of the completion handlers and the retry handler. -/
def Call.judges : Call → Bool
  | .fetchWorkflowRuntime _ | .completeSuccessfulJob _ | .completeFailedJob _ _ _ | .readClock _
  | .fetchJobRuntime _ | .scheduleJobRetry _ _ _ | .promoteRetryJob _ => true
  | c => c.followsScript

def JudgesAbout (id : WorkflowIdentity) (c : Call) : Prop := c.judges = true ∧ c.about = some id

section Calls

open CompletionHandler

variable {id : WorkflowIdentity} {k : JobKey}

theorem handles_ask {c : Call} (hc : c.handles = true) (habout : c.about = some id) :
    (ask c).OnlyCalls (HandlesAbout id) := Prog.OnlyCalls.perform ⟨hc, habout⟩

theorem judges_ask {c : Call} (hc : c.judges = true) (habout : c.about = some id) :
    (ask c).OnlyCalls (JudgesAbout id) := Prog.OnlyCalls.perform ⟨hc, habout⟩

theorem JudgesAbout.handles {c : Call} (h : JudgesAbout id c) : HandlesAbout id c := by
  obtain ⟨hc, habout⟩ := h
  refine ⟨?_, habout⟩
  cases c <;> first | rfl | exact hc

theorem judges_of_sqlite {α : Type} {p : Task α} (h : p.OnlyCalls (SqliteAbout id)) :
    p.OnlyCalls (JudgesAbout id) := by
  refine h.mono (fun c hc => ⟨?_, hc.2⟩)
  have hsqlite := hc.1
  cases c <;> first | rfl | cases hsqlite

theorem onlyCalls_andThen {S : Call → Prop} {p q : Task Bool} (hp : p.OnlyCalls S)
    (hq : q.OnlyCalls S) : (p.andThen q).OnlyCalls S := by
  refine hp.bind (fun r => ?_)
  cases r with
  | false => trivial
  | true => exact hq

theorem onlyCalls_onlyIf {S : Call → Prop} {p : Task Bool} (hp : p.OnlyCalls S) (c : Bool) :
    (Prog.onlyIf c p).OnlyCalls S := by
  cases c with
  | false => trivial
  | true => exact hp

theorem follows_ask {c : Call} (hc : c.followsScript = true) (habout : c.about = some id) :
    (ask c).OnlyCalls (FollowsAbout id) := Prog.OnlyCalls.perform ⟨hc, habout⟩

theorem FollowsAbout.judges {c : Call} (h : FollowsAbout id c) : JudgesAbout id c := by
  obtain ⟨hc, habout⟩ := h
  refine ⟨?_, habout⟩
  cases c <;> first | rfl | exact hc

theorem cleans_ask {c : Call} (hc : c.cleansUp = true) (habout : c.about = some id) :
    (ask c).OnlyCalls (CleansAbout id) := Prog.OnlyCalls.perform ⟨hc, habout⟩

theorem CleansAbout.follows {c : Call} (h : CleansAbout id c) : FollowsAbout id c := by
  obtain ⟨hc, habout⟩ := h
  refine ⟨?_, habout⟩
  cases c <;> first | rfl | exact hc

theorem deleteAllJobsPayload_cleans (jobIds : List String) :
    (RedisDatabase.deleteAllJobsPayload id jobIds).OnlyCalls (CleansAbout id) := by
  induction jobIds with
  | nil => trivial
  | cons j rest ih => exact (cleans_ask rfl rfl).bind (fun _ => ih)

theorem deleteAllWorkflowJobs_cleans (jobIds : List String) :
    (RedisDatabase.deleteAllWorkflowJobs id jobIds).OnlyCalls (CleansAbout id) := by
  induction jobIds with
  | nil => trivial
  | cons j rest ih =>
      exact (cleans_ask rfl rfl).bind (fun _ => (cleans_ask rfl rfl).bind (fun _ =>
        (cleans_ask rfl rfl).bind (fun _ => ih)))

theorem cleanup_cleans :
    (cleanupCompletedWorkflowRedisEntries id).OnlyCalls (CleansAbout id) := by
  refine (cleans_ask rfl rfl).bind (fun rows => ?_)
  cases rows with
  | none => trivial
  | some rows =>
      refine onlyCalls_andThen (cleans_ask rfl rfl) ?_
      refine (deleteAllJobsPayload_cleans _).bind (fun _ => ?_)
      refine (deleteAllWorkflowJobs_cleans _).bind (fun _ => ?_)
      exact (cleans_ask rfl rfl).bind (fun _ => (cleans_ask rfl rfl).bind (fun _ => trivial))

theorem cleanup_follows :
    (cleanupCompletedWorkflowRedisEntries id).OnlyCalls (FollowsAbout id) :=
  cleanup_cleans.mono (fun _ => CleansAbout.follows)

theorem persistJobCompleted_judges (completed : Redis.CompletedJob) :
    (persistJobCompleted k completed).OnlyCalls (JudgesAbout k.identity) :=
  Prog.OnlyCalls.mono (S := FollowsAbout k.identity)
    (onlyCalls_andThen (follows_ask rfl rfl) <|
      onlyCalls_andThen (onlyCalls_onlyIf (follows_ask rfl rfl) _) <|
      onlyCalls_andThen (onlyCalls_onlyIf (follows_ask rfl rfl) _) <|
      onlyCalls_onlyIf cleanup_follows _) (fun _ => FollowsAbout.judges)

theorem handleJobCompleted_judges :
    (handleJobCompleted k).OnlyCalls (JudgesAbout k.identity) := by
  refine (judges_ask rfl rfl).bind (fun completed => ?_)
  cases completed with
  | none => trivial
  | some completed => exact persistJobCompleted_judges completed

theorem updateCanceled_follows (canceled : List String) :
    (updateCanceled id canceled).OnlyCalls (FollowsAbout id) := by
  induction canceled with
  | nil => trivial
  | cons j rest ih =>
      exact (follows_ask rfl rfl).bind (fun _ => ih.bind (fun _ => trivial))

theorem persistJobFailed_follows (st : JobStatus) (failed : Redis.FailedJob) :
    (persistJobFailed k st failed).OnlyCalls (FollowsAbout k.identity) := by
  refine (onlyCalls_onlyIf (follows_ask rfl rfl) _).bind (fun _ => ?_)
  refine (follows_ask rfl rfl).bind (fun _ => (updateCanceled_follows _).bind (fun _ => ?_))
  refine (onlyCalls_onlyIf (follows_ask rfl rfl) _).bind (fun _ => ?_)
  exact (onlyCalls_onlyIf cleanup_follows _).bind (fun _ => trivial)

theorem failJob_judges (st : JobStatus) (n : Int) :
    (failJob k st n).OnlyCalls (JudgesAbout k.identity) := by
  refine (judges_ask rfl rfl).bind (fun rows => ?_)
  cases rows with
  | none => exact judges_of_sqlite (persistAfterRuntimeFailure_onlyCalls k _)
  | some rows =>
      refine (judges_ask rfl rfl).bind (fun failed => ?_)
      cases failed with
      | none => exact judges_of_sqlite (persistAfterRuntimeFailure_onlyCalls k _)
      | some failed => exact (persistJobFailed_follows st failed).mono (fun _ => FollowsAbout.judges)

theorem handleJobRetry_judges (n delay : Int) :
    (handleJobRetry k n delay).OnlyCalls (JudgesAbout k.identity) := by
  refine (judges_ask rfl rfl).bind (fun _ => (judges_ask rfl rfl).bind (fun promoted => ?_))
  cases promoted with
  | none => trivial
  | some promoted =>
      exact onlyCalls_andThen (judges_ask rfl rfl) (onlyCalls_onlyIf (judges_ask rfl rfl) _)

theorem handleJobFailed_judges (st : JobStatus) (runtime : JobRuntimeData) (workflow : WorkflowHash) :
    (handleJobFailed k st runtime workflow).OnlyCalls (JudgesAbout k.identity) := by
  unfold handleJobFailed
  dsimp only
  split
  · refine (judges_ask rfl rfl).bind (fun clock => ?_)
    split
    · exact failJob_judges _ _
    · exact handleJobRetry_judges _ _
  · exact failJob_judges _ _

theorem processUncompleted_judges (st : JobStatus) (code : StatusCode) (workflow : WorkflowHash) :
    (processUncompleted k st code workflow).OnlyCalls (JudgesAbout k.identity) := by
  refine (judges_ask rfl rfl).bind (fun r => ?_)
  obtain ⟨fetched, runtime⟩ := r
  dsimp only
  split <;> exact handleJobFailed_judges ..

theorem processCompletedJobs_judges (e : JobCompletionData) :
    (processCompletedJobs e).OnlyCalls (JudgesAbout e.identity) := by
  refine (judges_ask rfl rfl).bind (fun workflow => ?_)
  cases workflow with
  | none => exact judges_of_sqlite (repairMissingRuntime_onlyCalls e.identity)
  | some workflow =>
      dsimp only
      split
      · refine (handleJobCompleted_judges (k := e.key)).bind (fun done => ?_)
        cases done with
        | false => exact processUncompleted_judges (k := e.key) ..
        | true => trivial
      all_goals exact processUncompleted_judges (k := e.key) ..

theorem updateJobStatusToRunning_handles :
    (WorkerThread.updateJobStatusToRunning k).OnlyCalls (HandlesAbout k.identity) := by
  refine (handles_ask rfl rfl).bind (fun result => ?_)
  cases result with
  | firstToStart => exact onlyCalls_andThen (handles_ask rfl rfl) (handles_ask rfl rfl)
  | started => exact handles_ask rfl rfl
  | _ => trivial

theorem processRetryJob_judges :
    (RetryHandler.processRetryJob k).OnlyCalls (JudgesAbout k.identity) := by
  refine (judges_ask rfl rfl).bind (fun promoted => ?_)
  cases promoted with
  | none => trivial
  | some promoted => exact judges_ask rfl rfl

end Calls

section Frames

variable {id id' : WorkflowIdentity} {w : World}

theorem books_setSpace_of_ne (hne : id ≠ id') (ks : WorkflowKeyspace) :
    books id (w.setSpace id' ks) = books id w := by
  have hspace : (w.setSpace id' ks).redis.workflows id = w.redis.workflows id :=
    Function.update_of_ne hne ..
  simp only [books, hspace]
  rfl

theorem books_enqueueJobCompletion (event : JobCompletionData) (e : Env) :
    books id ((Call.enqueueJobCompletion event).carryOut e w).2 = { books id w with
      reported := (books id w).reported ++ if event.identity = id then [event.jobId] else [] } := by
  have hstream : ((Call.enqueueJobCompletion event).carryOut e w).2.redis.jobCompletionStream =
      w.redis.jobCompletionStream ++ [event] := rfl
  have hone : ([event].filter (fun ev => decide (ev.identity = id))).map JobCompletionData.jobId =
      if event.identity = id then [event.jobId] else [] := by
    by_cases hid : event.identity = id <;> simp [hid]
  simp only [books, hstream, List.filter_append, List.map_append, hone]
  rfl

/-- What is done about one workflow does not show in the books of another one. -/
theorem books_carryOut_of_ne {c : Call} (hc : HandlesAbout id' c) (hne : id ≠ id') (e : Env)
    (w : World) : books id (c.carryOut e w).2 = books id w := by
  obtain ⟨hc, habout⟩ := hc
  have hspace := fun ks => books_setSpace_of_ne (w := w) hne ks
  have hledger : ∀ (c : Call) (db : Sqlite), c.Spares id → (c.carryOut e w).2 = { w with sqlite := db } →
      w.sqlite.SameRows db → books id (c.carryOut e w).2 = books id w := by
    intro c db hspares hworld hrows
    have hsame := hspares.carryOut e w
    rw [hworld] at hsame ⊢
    rw [books_sqlite id w hrows]
    exact congrArg (fun l => { books id w with ledger := l }) hsame
  cases c with
  | fetchWorkflowRuntime | readClock | fetchJobRuntime | getAllWorkflowsForClient
  | getAllJobsForWorkflow | removeFromRetryStream | jobType | fetchJobPayload | pushLocal => rfl
  | claimJob k | trySetJobToRunning k => cases habout; exact hspace _
  | enqueueJobCompletion event =>
      cases habout
      rw [books_enqueueJobCompletion, if_neg (fun heq => hne heq.symm), List.append_nil]
  | completeSuccessfulJob k =>
      cases habout
      exact (books_enqueue id k.identity (w.setSpace k.identity _) _).trans (hspace _)
  | completeFailedJob k n jobIds =>
      cases habout
      exact (books_dropCanceled id k.identity (w.setSpace k.identity _) _).trans (hspace _)
  | setJobStatus k st => cases habout; exact hspace _
  | scheduleJobRetry k n retryAtMs =>
      cases habout
      rw [books_scheduleJobRetry, books_enqueue]
      exact hspace _
  | promoteRetryJob k =>
      cases habout
      exact (books_enqueue id k.identity (w.setSpace k.identity _) _).trans (hspace _)
  | deleteJobPayload k | deleteJob k | deleteSuccessors k => cases habout; exact hspace _
  | deleteWorkflow _ | deleteWaitingReady _ => cases habout; exact hspace _
  | removeActiveWorkflow _ =>
      cases habout
      have hactive : id.workflowId ∈ Function.update w.redis.activeWorkflows id'.clientId
          ((w.redis.activeWorkflows id'.clientId).erase id'.workflowId) id.clientId ↔
          id.workflowId ∈ w.redis.activeWorkflows id.clientId := by
        by_cases hclient : id.clientId = id'.clientId
        · have hid : id.workflowId ≠ id'.workflowId := fun heq => hne (by
            cases id; cases id'; cases hclient; cases heq; rfl)
          rw [hclient, Function.update_self, Finset.mem_erase]
          exact and_iff_right hid
        · rw [Function.update_of_ne hclient]
      exact congrArg (fun a => { books id w with active := a }) (decide_eq_decide.mpr hactive)
  | updateJobStatus k st =>
      cases habout
      exact hledger _ _ hne.symm rfl (w.sqlite.sameRows_updateJobStatus e.time k st)
  | updateWorkflowStatus _ ws =>
      cases habout
      exact hledger _ _ hne.symm rfl (w.sqlite.sameRows_updateWorkflowStatus e.time _ ws)
  | updateReadyJobs _ queued ready =>
      cases habout
      exact hledger _ _ hne.symm rfl (w.sqlite.sameRows_updateReadyJobs e.time _ queued ready)
  | _ => cases hc

theorem books_exec_of_ne {c : Call} (hc : HandlesAbout id' c) (hne : id ≠ id') (e : Env)
    (w : World) : books id (c.exec e w).2 = books id w := by
  rw [Call.exec]
  split
  · exact books_carryOut_of_ne hc hne e w
  · rfl

end Frames

section Writes

open CompletionHandler

variable {id : WorkflowIdentity} {k : JobKey} {b : Books}

theorem posts_recordWorkflow {ws : WorkflowStatus} (hws : ∀ now, WorkflowRow.transition now ws ≠ none)
    (hworkflow : b.ledger.workflow ≠ none) (c : Bool) :
    Posts id (.onlyIf c (ask (.updateWorkflowStatus id ws))) b (fun r b' => r = true ∧
      b' = { b with ledger := if c then b.ledger.setWorkflow ws else b.ledger }) := by
  cases c with
  | false => exact posts_pure ⟨rfl, rfl⟩
  | true => exact posts_updateWorkflowStatus hws hworkflow

theorem posts_recordReady {queued : Option String} {ready : List String}
    (hrows : ∀ j ∈ queued.toList ++ ready, b.ledger.job j ≠ none) :
    Posts id (.onlyIf (queued.isSome || !ready.isEmpty)
      (ask (.updateReadyJobs id queued.toList ready))) b (fun r b' => r = true ∧
        b' = { b with ledger := b.ledger.setReady queued.toList ready }) := by
  refine posts_onlyIf (fun _ => posts_updateReadyJobs hrows) (fun hnone => ⟨rfl, ?_⟩)
  simp only [Bool.or_eq_false_iff, Option.isSome_eq_false_iff, Option.isNone_iff_eq_none,
    Bool.not_eq_false', List.isEmpty_iff] at hnone
  obtain ⟨rfl, rfl⟩ := hnone
  rw [Option.toList_none, Ledger.setReady_nil]

/-- The books of a workflow after the writes of `handle_job_completed`, up to the cleanup. -/
def completedBooks (b : Books) (j : String) (completed : Redis.CompletedJob) : Books where
  space := b.space
  ledger :=
    let l := b.ledger.setJob j .completed
    (if completed.workflowCompleted then l.setWorkflow .completed else l).setReady
      completed.promoted.toList completed.readyJobIds
  active := b.active
  reported := b.reported
  keyed := b.keyed

theorem posts_persistJobCompleted (completed : Redis.CompletedJob)
    (hself : b.ledger.job k.jobId ≠ none) (hworkflow : b.ledger.workflow ≠ none)
    (hrows : ∀ j ∈ completed.promoted.toList ++ completed.readyJobIds, b.ledger.job j ≠ none)
    (hactive : b.active = true) (hhash : b.space.hash ≠ none) :
    Posts k.identity (persistJobCompleted k completed) b (fun r b' => r = true ∧
      if completed.workflowCompleted then Cleared (completedBooks b k.jobId completed) b'
      else b' = completedBooks b k.jobId completed) := by
  obtain ⟨done, promoted, ready⟩ := completed
  refine Posts.andThen (posts_updateJobStatus (fun _ => nofun) hself) ?_
  rintro _ rfl
  refine Posts.andThen (posts_recordWorkflow (by nofun) (by exact hworkflow) done) ?_
  rintro _ rfl
  have hkept : ∀ j ∈ promoted.toList ++ ready, (if done then
      (b.ledger.setJob k.jobId .completed).setWorkflow .completed
      else b.ledger.setJob k.jobId .completed).job j ≠ none := by
    intro j hj
    have hjob := Ledger.setJob_job_ne_none .completed (hrows j hj) k.jobId
    cases done <;> exact hjob
  refine Posts.andThen (posts_recordReady hkept) ?_
  rintro _ rfl
  cases done with
  | false => exact posts_pure ⟨rfl, rfl⟩
  | true =>
      refine Posts.mono (posts_cleanup hactive) (fun r b' h => ?_)
      exact ⟨h.1.trans (Option.isSome_iff_ne_none.mpr hhash), h.2⟩

theorem posts_updateCanceled (canceled : List String)
    (hrows : ∀ j ∈ canceled, b.ledger.job j ≠ none) :
    Posts id (updateCanceled id canceled) b (fun r b' =>
      r = true ∧ b' = { b with ledger := b.ledger.setJobs canceled .aborted }) := by
  induction canceled generalizing b with
  | nil => exact posts_pure ⟨rfl, rfl⟩
  | cons j rest ih =>
      refine Posts.bind (posts_updateJobStatus (k := ⟨id, j⟩) (by nofun)
        (hrows j List.mem_cons_self)) (fun r b₁ h₁ => ?_)
      obtain ⟨rfl, rfl⟩ := h₁
      have hrest : ∀ i ∈ rest, (b.ledger.setJob j .aborted).job i ≠ none := fun i hi =>
        Ledger.setJob_job_ne_none .aborted (hrows i (List.mem_cons_of_mem _ hi)) j
      refine Posts.bind (ih hrest) (fun r b₂ h₂ => ?_)
      obtain ⟨rfl, rfl⟩ := h₂
      refine posts_pure ⟨rfl, ?_⟩
      rw [← Ledger.setJobs_cons]

/-- The books of a workflow after the writes of `handle_job_failed`, up to the cleanup. -/
def failedBooks (b : Books) (j : String) (st : JobStatus) (failed : Redis.FailedJob) : Books where
  space := if st = .aborted then b.space.setJobStatus j .aborted else b.space
  ledger :=
    let l := (b.ledger.setJob j st).setJobs failed.canceledJobIds .aborted
    if failed.workflowFailed then l.setWorkflow .failed else l
  active := b.active
  reported := b.reported
  keyed := b.keyed

/-- The writes of `handle_job_failed` after the failure script. A workflow that is not active is not
cleaned up. -/
theorem posts_persistJobFailed {st : JobStatus} (hst : st = .failed ∨ st = .aborted)
    (failed : Redis.FailedJob) (hself : b.ledger.job k.jobId ≠ none)
    (hworkflow : b.ledger.workflow ≠ none)
    (hrows : ∀ j ∈ failed.canceledJobIds, b.ledger.job j ≠ none) :
    Posts k.identity (persistJobFailed k st failed) b (fun _ b' =>
      if failed.workflowCompleted && b.active then Cleared (failedBooks b k.jobId st failed) b'
      else b' = failedBooks b k.jobId st failed) := by
  obtain ⟨canceled, workflowFailed, workflowCompleted⟩ := failed
  have hmark : Posts k.identity (.onlyIf (st == .aborted) (ask (.setJobStatus k .aborted))) b
      (fun _ b' => b' = { b with
        space := if st = .aborted then b.space.setJobStatus k.jobId .aborted else b.space }) := by
    rcases hst with rfl | rfl
    · exact posts_pure rfl
    · exact (posts_setJobStatus .aborted).mono (fun _ _ h => h.2)
  have hknown : ∀ now, JobRow.transition now st ≠ none := fun now => by
    rcases hst with rfl | rfl <;> nofun
  refine hmark.bind (fun _ b₁ h₁ => ?_)
  subst h₁
  refine Posts.bind (posts_updateJobStatus hknown hself) (fun _ b₂ h₂ => ?_)
  obtain ⟨-, rfl⟩ := h₂
  have hkept : ∀ j ∈ canceled, (b.ledger.setJob k.jobId st).job j ≠ none := fun j hj =>
    Ledger.setJob_job_ne_none st (hrows j hj) k.jobId
  refine Posts.bind (posts_updateCanceled canceled hkept) (fun _ b₃ h₃ => ?_)
  obtain ⟨-, rfl⟩ := h₃
  refine Posts.bind (posts_recordWorkflow (by nofun) (by exact hworkflow) workflowFailed)
    (fun _ b₄ h₄ => ?_)
  obtain ⟨-, rfl⟩ := h₄
  cases workflowCompleted with
  | false => exact posts_pure rfl
  | true =>
      by_cases hactive : b.active = true
      · refine Posts.bind (posts_cleanup hactive) (fun r b₅ h₅ => posts_pure ?_)
        rw [Bool.true_and, if_pos hactive]
        exact h₅.2
      · refine Posts.bind (posts_cleanup_inactive ((Bool.not_eq_true _).mp hactive))
          (fun r b₅ h₅ => posts_pure ?_)
        rw [Bool.true_and, if_neg hactive]
        exact h₅

end Writes

end FlowPilot
