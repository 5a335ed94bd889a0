import FlowPilot.StoreExactness
import FlowPilot.WorkflowMirror
import FlowPilot.WorkflowRepair

/-! What a job that fails for good does to its workflow. The failure script fails the workflow and
cancels the jobs that wait, but only if it finds the workflow RUNNING; what `handle_job_failed` then
writes to SQLite follows the answer of the script. -/

namespace FlowPilot

open WorkflowKeyspace

open CompletionHandler

section Queues

variable {id : WorkflowIdentity} {k : JobKey} {w : World}

/-- The calls that follow a script leave the execution queue alone and take nothing into the retry
set. -/
theorem queues_exec_followsScript {c : Call} (hc : c.followsScript = true) (e : Env) (w : World) :
    (c.exec e w).2.redis.executionQueue = w.redis.executionQueue ∧
    ∀ x ∈ (c.exec e w).2.redis.jobRetryStream.members, x ∈ w.redis.jobRetryStream.members := by
  rw [Call.exec]
  split
  · cases c with
    | removeFromRetryStream k =>
        exact ⟨rfl, fun x hx => ((SortedSet.mem_members_remove ..).mp hx).1⟩
    | _ => first | exact ⟨rfl, fun _ => id⟩ | cases hc
  · exact ⟨rfl, fun _ => id⟩

theorem settles_executionQueue {α : Type} {p : Task α} (hp : p.OnlyCalls (FollowsAbout id)) :
    Settles p w (fun _ w' => w'.redis.executionQueue = w.redis.executionQueue) :=
  settles_keeps hp (f := fun w : World => w.redis.executionQueue)
    (fun _ hc e w' => (queues_exec_followsScript hc.1 e w').1)

theorem settles_not_mem_retryStream {α : Type} {p : Task α} (hp : p.OnlyCalls (FollowsAbout id))
    {x : JobKey} (hx : x ∉ w.redis.jobRetryStream.members) :
    Settles p w (fun _ w' => x ∉ w'.redis.jobRetryStream.members) :=
  Prog.OnlyCalls.ensures (I := fun w' : World => x ∉ w'.redis.jobRetryStream.members) hp
    (fun _ hc e w' hx' hmem => hx' ((queues_exec_followsScript hc.1 e w').2 x hmem)) hx

/-- The calls of `handle_job_failed` between the failure script and the cleanup. -/
def Call.recordsFailure : Call → Bool
  | .setJobStatus _ _ => true
  | c => c.isSqlite

def RecordsFailure (c : Call) : Prop := c.recordsFailure = true

theorem records_ask {c : Call} (hc : c.recordsFailure = true) : (ask c).OnlyCalls RecordsFailure :=
  Prog.OnlyCalls.perform hc

/-- What these calls leave alone. -/
structure SameBesides (w w' : World) : Prop where
  retry : w'.redis.jobRetryStream = w.redis.jobRetryStream
  active : w'.redis.activeWorkflows = w.redis.activeWorkflows
  rows : w.sqlite.SameRows w'.sqlite

theorem SameBesides.trans {w w' w'' : World} (h : SameBesides w w') (h' : SameBesides w' w'') :
    SameBesides w w'' :=
  ⟨h'.retry.trans h.retry, h'.active.trans h.active, h'.rows.1.trans h.rows.1,
    h'.rows.2.trans h.rows.2⟩

theorem sameBesides_exec {c : Call} (hc : c.recordsFailure = true) (e : Env) (w : World) :
    SameBesides w (c.exec e w).2 := by
  rw [Call.exec]
  split
  · by_cases hsqlite : c.isSqlite = true
    · obtain ⟨db, hrows, hworld⟩ := carryOut_isSqlite hsqlite e w
      rw [hworld]
      exact ⟨rfl, rfl, hrows⟩
    · cases c with
      | setJobStatus k st => exact ⟨rfl, rfl, .refl _⟩
      | _ => exact absurd hc hsqlite
  · exact ⟨rfl, rfl, .refl _⟩

theorem settles_sameBesides {α : Type} {p : Task α} (hp : p.OnlyCalls RecordsFailure) :
    Settles p w (fun _ w' => SameBesides w w') :=
  Prog.OnlyCalls.ensures (I := SameBesides w) hp
    (fun _ hc e _ hw => hw.trans (sameBesides_exec hc e _)) ⟨rfl, rfl, .refl _⟩

theorem updateCanceled_recordsFailure (canceled : List String) :
    (updateCanceled id canceled).OnlyCalls RecordsFailure := by
  induction canceled with
  | nil => trivial
  | cons j rest ih => exact (records_ask rfl).bind (fun _ => ih.bind (fun _ => trivial))

/-- The cleanup takes every job of the workflow that has a row out of the retry set. -/
theorem settles_deleteAllWorkflowJobs_retry (jobIds : List String) {j : String} (hj : j ∈ jobIds) :
    Settles (RedisDatabase.deleteAllWorkflowJobs id jobIds) w
      (fun _ w' => ⟨id, j⟩ ∉ w'.redis.jobRetryStream.members) := by
  induction jobIds generalizing w with
  | nil => cases hj
  | cons i rest ih =>
      refine Settles.bind (settles_any _ _) (fun _ w₁ _ => ?_)
      have hremove : Settles (ask (.removeFromRetryStream ⟨id, i⟩)) w₁
          (fun _ w' => (⟨id, i⟩ : JobKey) ∉ w'.redis.jobRetryStream.members) :=
        settles_ask (fun _ hmem => ((SortedSet.mem_members_remove ..).mp hmem).2 rfl)
      refine Settles.bind hremove (fun _ w₂ h₂ => ?_)
      rcases List.mem_cons.mp hj with rfl | hj
      · have hrest : (ask (.deleteSuccessors ⟨id, j⟩) >>= fun _ =>
            RedisDatabase.deleteAllWorkflowJobs id rest).OnlyCalls (FollowsAbout id) :=
          (follows_ask rfl rfl).bind (fun _ =>
            (deleteAllWorkflowJobs_cleans rest).mono (fun _ => CleansAbout.follows))
        exact settles_not_mem_retryStream hrest h₂
      · exact Settles.bind (settles_any _ _) (fun _ w₃ _ => ih hj)

def isActive (id : WorkflowIdentity) (w : World) : Prop :=
  id.workflowId ∈ w.redis.activeWorkflows id.clientId

instance (id : WorkflowIdentity) (w : World) : Decidable (isActive id w) :=
  inferInstanceAs (Decidable (_ ∈ _))

theorem settles_cleanup_retry (j : String) :
    Settles (cleanupCompletedWorkflowRedisEntries id) w (fun _ w' =>
      (isActive id w → j ∈ w.sqlite.jobIds id → ⟨id, j⟩ ∉ w'.redis.jobRetryStream.members) ∧
      (¬ isActive id w → w'.redis.jobRetryStream = w.redis.jobRetryStream)) := by
  have hrows : Settles (ask (.getAllJobsForWorkflow id)) w (fun r w' =>
      r = some (w.sqlite.getAllJobsForWorkflow id) ∧ w' = w) := settles_ask (fun _ => ⟨rfl, rfl⟩)
  refine Settles.bind hrows ?_
  rintro r w₁ ⟨rfl, rfl⟩
  have hremove : Settles (ask (.removeActiveWorkflow id)) w₁ (fun r w' =>
      r = decide (isActive id w₁) ∧ w'.redis.jobRetryStream = w₁.redis.jobRetryStream) :=
    settles_ask (fun _ => ⟨rfl, rfl⟩)
  refine Settles.bind hremove ?_
  rintro r w₂ ⟨rfl, hretry⟩
  by_cases hactive : isActive id w₁
  · rw [decide_eq_true hactive, if_pos rfl]
    by_cases hj : j ∈ w₁.sqlite.jobIds id
    · refine Settles.bind (settles_any _ _) (fun _ w₃ _ => ?_)
      rw [← Sqlite.map_getAllJobsForWorkflow] at hj
      refine Settles.bind (settles_deleteAllWorkflowJobs_retry _ hj) (fun _ w₄ h₄ => ?_)
      have hrest : (ask (.deleteWorkflow id) >>= fun deleted =>
          ask (.deleteWaitingReady id) >>= fun cleared =>
            (pure (deleted && cleared) : Task Bool)).OnlyCalls (FollowsAbout id) :=
        (follows_ask rfl rfl).bind (fun _ => (follows_ask rfl rfl).bind (fun _ => trivial))
      exact (settles_not_mem_retryStream hrest h₄).mono
        (fun _ _ h => ⟨fun _ _ => h, absurd hactive⟩)
    · exact (settles_any _ _).mono (fun _ _ _ => ⟨fun _ hj' => absurd hj' hj, absurd hactive⟩)
  · rw [decide_eq_false hactive, if_neg (by decide)]
    exact settles_pure ⟨fun h => absurd h hactive, fun _ => hretry⟩

/-- What `handle_job_failed` does to the retry set after the failure script: the cleanup of the last job
of an active workflow takes its jobs out, and otherwise nothing changes. -/
theorem settles_persistJobFailed_retry (st : JobStatus) (failed : Redis.FailedJob) (j : String) :
    Settles (persistJobFailed k st failed) w (fun _ w' =>
      (failed.workflowCompleted = true ∧ isActive k.identity w → j ∈ w.sqlite.jobIds k.identity →
        ⟨k.identity, j⟩ ∉ w'.redis.jobRetryStream.members) ∧
      (¬ (failed.workflowCompleted = true ∧ isActive k.identity w) →
        w'.redis.jobRetryStream = w.redis.jobRetryStream)) := by
  refine Settles.bind (settles_sameBesides (onlyCalls_onlyIf (records_ask rfl) _)) (fun _ w₁ h₁ => ?_)
  refine Settles.bind (settles_sameBesides (records_ask rfl)) (fun _ w₂ h₂ => ?_)
  refine Settles.bind (settles_sameBesides (updateCanceled_recordsFailure _)) (fun _ w₃ h₃ => ?_)
  refine Settles.bind (settles_sameBesides (onlyCalls_onlyIf (records_ask rfl) _)) (fun _ w₄ h₄ => ?_)
  have hkept : SameBesides w w₄ := ((h₁.trans h₂).trans h₃).trans h₄
  have hactive : isActive k.identity w₄ ↔ isActive k.identity w := by
    rw [isActive, isActive, hkept.active]
  cases hdone : failed.workflowCompleted with
  | false => exact settles_pure ⟨fun h => absurd h.1 (by decide), fun _ => hkept.retry⟩
  | true =>
      refine Settles.bind (settles_cleanup_retry j) (fun _ w₅ h₅ => settles_pure ?_)
      rw [hactive, hkept.rows.jobIds] at h₅
      exact ⟨fun h => h₅.1 h.2, fun h => (h₅.2 (fun ha => h ⟨rfl, ha⟩)).trans hkept.retry⟩

end Queues

section Outcome

variable {k : JobKey} {w w' : World}

/-- SQLite mirrors Redis on the workflow of a job, but perhaps for the job itself. -/
structure MirroredFor (k : JobKey) (w : World) : Prop where
  workflow : w.sqlite.workflowStatus k.identity = (w.redis.workflows k.identity).status
  jobs : ∀ j st, j ≠ k.jobId → (w.redis.workflows k.identity).jobStatus j = some st →
    w.sqlite.jobStatus ⟨k.identity, j⟩ = some st.recorded
  self : w.sqlite.jobStatus k ≠ none

/-- The other jobs of the workflow that wait to be run. -/
def WaitsBeside (k : JobKey) (w : World) (i : String) (st : JobStatus) : Prop :=
  i ≠ k.jobId ∧ (w.redis.workflows k.identity).jobStatus i = some st ∧ st.isWaitingToRun = true

/-- The workflow of the job has failed: it is FAILED in both stores, or cleaned up in Redis, and the
jobs that waited beside the job are canceled and in none of the sorted sets. -/
structure FailsWorkflow (k : JobKey) (w w' : World) : Prop where
  redis : (w'.redis.workflows k.identity).status = some .failed ∨
    (w'.redis.workflows k.identity).hash = none
  sqlite : w'.sqlite.workflowStatus k.identity = some .failed
  aborted : ∀ i st, WaitsBeside k w i st →
    ((w'.redis.workflows k.identity).jobStatus i = some .aborted ∨
      ((w'.redis.workflows k.identity).hash = none ∧
        (w'.redis.workflows k.identity).jobStatus i = none)) ∧
    w'.sqlite.jobStatus ⟨k.identity, i⟩ = some .aborted
  removed : ∀ i st, WaitsBeside k w i st →
    i ∉ (w'.redis.workflows k.identity).waitingReady.members ∧
    ⟨k.identity, i⟩ ∉ w'.redis.executionQueue.members ∧
    ⟨k.identity, i⟩ ∉ w'.redis.jobRetryStream.members

def waitingBeside (k : JobKey) (w : World) : Nat :=
  ((w.sqlite.jobIds k.identity).dedup.filter (fun i => decide (i ≠ k.jobId) &&
    ((w.redis.workflows k.identity).jobStatus i).any JobStatus.isWaitingToRun)).length

/-- The failure of the job ends the workflow: no job is left once the waiting ones are canceled, and
the workflow is active, so that it is cleaned up. -/
def EndsWorkflow (k : JobKey) (w : World) : Prop :=
  ((w.redis.workflows k.identity).counters.total > 0 ∧
    (w.redis.workflows k.identity).counters.completed + (1 + waitingBeside k w : Int) =
      (w.redis.workflows k.identity).counters.total) ∧ isActive k.identity w

/-- No job that waits beside the job is in the execution queue with another status than QUEUED, or in
the retry set with another one than RETRY_DELAY, unless the workflow is cleaned up at once. -/
def WellPlaced (k : JobKey) (w : World) : Prop :=
  ∀ i st, WaitsBeside k w i st →
    (⟨k.identity, i⟩ ∈ w.redis.executionQueue.members → st = .queued) ∧
    (⟨k.identity, i⟩ ∈ w.redis.jobRetryStream.members → st = .retryDelay ∨ EndsWorkflow k w)

theorem MirroredFor.rows (h : MirroredFor k w) (j : String)
    (hj : (w.redis.workflows k.identity).jobStatus j ≠ none) :
    (books k.identity w).ledger.job j ≠ none := by
  by_cases hself : j = k.jobId
  · subst hself
    exact h.self
  · obtain ⟨st, hst⟩ := Option.ne_none_iff_exists'.mp hj
    change w.sqlite.jobStatus ⟨k.identity, j⟩ ≠ none
    rw [h.jobs j st hself hst]
    nofun

theorem mem_jobIds_iff (db : Sqlite) (id : WorkflowIdentity) (j : String) :
    j ∈ db.jobIds id ↔ db.jobStatus ⟨id, j⟩ ≠ none := by
  rw [← db.any_isOf_iff, List.any_eq_true, Sqlite.jobIds]
  simp only [List.mem_map, List.mem_filter, decide_eq_true_eq, JobRow.isOf]
  constructor
  · rintro ⟨key, ⟨⟨row, hrow, rfl⟩, hid⟩, rfl⟩
    exact ⟨row, hrow, by rw [← hid]⟩
  · rintro ⟨row, hrow, hkey⟩
    exact ⟨row.key, ⟨⟨row, hrow, rfl⟩, by rw [hkey]⟩, by rw [hkey]⟩

section Running

variable {jobIds : List String} {n : Int}

section Canceled

variable (hjobIds : ∀ j, (w.redis.workflows k.identity).jobStatus j ≠ none → j ∈ jobIds)
  (hrun : (w.redis.workflows k.identity).status = some .running)

include hjobIds hrun

theorem mem_canceled (i : String) (st : JobStatus) :
    (i, st) ∈ ((w.redis.workflows k.identity).completeFailedJob k.jobId n jobIds).1.canceled ↔
      WaitsBeside k w i st := by
  rw [(completeFailedJob_running n hrun).mem]
  constructor
  · exact And.right
  · rintro ⟨hne, hst, hwait⟩
    exact ⟨hjobIds i (fun hnone => by cases hst.symm.trans hnone), hne, hst, hwait⟩

theorem length_canceled (hm : MirroredFor k w) :
    ((w.redis.workflows k.identity).completeFailedJob k.jobId n jobIds).1.canceled.length =
      waitingBeside k w := by
  have hfailed : FailedRunning k.jobId jobIds (w.redis.workflows k.identity) _ _ :=
    completeFailedJob_running n hrun
  rw [← List.length_map Prod.fst, waitingBeside]
  refine List.Perm.length_eq ((List.perm_ext_iff_of_nodup hfailed.nodup
    ((List.nodup_dedup _).filter _)).mpr (fun i => ?_))
  rw [List.mem_filter, List.mem_dedup, mem_jobIds_iff, Bool.and_eq_true, decide_eq_true_eq,
    Option.any_eq_true]
  constructor
  · intro hi
    obtain ⟨⟨i, st⟩, hmem, rfl⟩ := List.mem_map.mp hi
    obtain ⟨hne, hst, hwait⟩ := (mem_canceled hjobIds hrun i st).mp hmem
    exact ⟨hm.rows i (fun hnone => by cases hst.symm.trans hnone), hne, st, hst, hwait⟩
  · rintro ⟨-, hne, st, hst, hwait⟩
    exact List.mem_map.mpr ⟨(i, st), (mem_canceled hjobIds hrun i st).mpr ⟨hne, hst, hwait⟩, rfl⟩

theorem workflowCompleted_iff (hm : MirroredFor k w) :
    ((w.redis.workflows k.identity).completeFailedJob k.jobId n jobIds).1.workflowCompleted = true ∧
      isActive k.identity w ↔ EndsWorkflow k w := by
  have hfailed : FailedRunning k.jobId jobIds (w.redis.workflows k.identity) _ _ :=
    completeFailedJob_running n hrun
  rw [hfailed.completed, hfailed.counters, length_canceled hjobIds hrun hm, decide_eq_true_eq]
  rfl

theorem mem_canceled_iff_eq {i : String} {st : JobStatus} (hi : WaitsBeside k w i st)
    {st' : JobStatus} :
    (i, st') ∈ ((w.redis.workflows k.identity).completeFailedJob k.jobId n jobIds).1.canceled ↔
      st' = st := by
  rw [mem_canceled hjobIds hrun]
  constructor
  · rintro ⟨-, hst', -⟩
    exact Option.some.inj (hst'.symm.trans hi.2.1)
  · rintro rfl
    exact hi

end Canceled

theorem settles_failJob_sets (hm : MirroredFor k w)
    (hrun : (w.redis.workflows k.identity).status = some .running) {i : String} {st : JobStatus}
    (hi : WaitsBeside k w i st) (terminal : JobStatus) (n : Int) :
    Settles (failJob k terminal n) w (fun _ w' =>
      (⟨k.identity, i⟩ ∈ w'.redis.executionQueue.members ↔
        ⟨k.identity, i⟩ ∈ w.redis.executionQueue.members ∧ st ≠ .queued) ∧
      (⟨k.identity, i⟩ ∈ w'.redis.jobRetryStream.members ↔
        ⟨k.identity, i⟩ ∈ w.redis.jobRetryStream.members ∧ st ≠ .retryDelay ∧
          ¬ EndsWorkflow k w)) := by
  have hrows : Settles (ask (.getAllJobsForWorkflow k.identity)) w (fun r w' =>
      r = some (w.sqlite.getAllJobsForWorkflow k.identity) ∧ w' = w) :=
    settles_ask (fun _ => ⟨rfl, rfl⟩)
  refine Settles.bind hrows ?_
  rintro r w₁ ⟨rfl, rfl⟩
  dsimp only
  rw [Sqlite.map_getAllJobsForWorkflow]
  have hjobIds : ∀ j, (w₁.redis.workflows k.identity).jobStatus j ≠ none →
      j ∈ w₁.sqlite.jobIds k.identity := fun j hj => (mem_jobIds_iff ..).mpr (hm.rows j hj)
  generalize w₁.sqlite.jobIds k.identity = jobIds at hjobIds
  have hscript : Settles (ask (.completeFailedJob k n jobIds)) w₁ (fun _ w' =>
      (⟨k.identity, i⟩ ∈ w'.redis.executionQueue.members ↔
        ⟨k.identity, i⟩ ∈ w₁.redis.executionQueue.members ∧ st ≠ .queued) ∧
      (⟨k.identity, i⟩ ∈ w'.redis.jobRetryStream.members ↔
        ⟨k.identity, i⟩ ∈ w₁.redis.jobRetryStream.members ∧ st ≠ .retryDelay) ∧
      w'.sqlite = w₁.sqlite) := by
    refine settles_ask (fun e => ?_)
    obtain ⟨hqueue, hretry⟩ := Redis.mem_dropCanceled k.identity
      ((w₁.redis.workflows k.identity).completeFailedJob k.jobId n jobIds).1.canceled
      (w₁.redis.setWorkflow k.identity
        ((w₁.redis.workflows k.identity).completeFailedJob k.jobId n jobIds).2) ⟨k.identity, i⟩
    rw [mem_canceled_iff_eq hjobIds hrun hi, and_iff_right rfl] at hqueue hretry
    exact ⟨hqueue.trans (and_congr_right' (not_congr eq_comm)),
      hretry.trans (and_congr_right' (not_congr eq_comm)), rfl⟩
  refine Settles.bind ((posts_completeFailedJob n jobIds w₁ rfl).and hscript) ?_
  rintro r w₂ ⟨⟨rfl, hbooks⟩, hqueue, hretry, hsqlite⟩
  have hactive : isActive k.identity w₂ ↔ isActive k.identity w₁ :=
    decide_eq_decide.mp (congrArg Books.active hbooks)
  have hrow : i ∈ w₂.sqlite.jobIds k.identity := by
    rw [hsqlite, mem_jobIds_iff]
    exact hm.rows i (fun hnone => by cases hi.2.1.symm.trans hnone)
  refine ((settles_executionQueue (persistJobFailed_follows terminal _)).and
    (settles_persistJobFailed_retry terminal _ i)).mono (fun _ w₃ h => ?_)
  obtain ⟨hqueue', hcleaned, hkept⟩ := h
  rw [hactive] at hcleaned hkept
  have hends := workflowCompleted_iff (n := n) hjobIds hrun hm
  refine ⟨by rw [hqueue', hqueue], ?_⟩
  by_cases h : EndsWorkflow k w₁
  · exact ⟨fun hmem => absurd hmem (hcleaned (hends.mpr h) hrow), fun hmem => absurd h hmem.2.2⟩
  · rw [hkept (fun h' => h (hends.mp h')), hretry, and_iff_left h]

/-- The books that `handle_job_failed` leaves of a running workflow, before the cleanup. -/
theorem finalBooks_running {b : Books} {j : String} (hrun : b.space.status = some .running)
    (hjobIds : ∀ i, b.space.jobStatus i ≠ none → i ∈ jobIds) (terminal : JobStatus) (n : Int) :
    (finalBooks b j terminal n jobIds).space.status = some .failed ∧
    (finalBooks b j terminal n jobIds).ledger.workflow = some .failed ∧
    ∀ i st, i ≠ j → b.space.jobStatus i = some st → st.isWaitingToRun = true →
      (finalBooks b j terminal n jobIds).space.jobStatus i = some .aborted ∧
      (finalBooks b j terminal n jobIds).ledger.job i = some .aborted ∧
      i ∉ (finalBooks b j terminal n jobIds).space.waitingReady.members := by
  have hfailed : FailedRunning j jobIds b.space _ _ :=
    completeFailedJob_running n hrun
  have hanswer : (failureAnswer b j n jobIds).workflowFailed = true :=
    (completeFailedJob_workflowFailed ..).mpr hrun
  have hledger : (finalBooks b j terminal n jobIds).ledger = ((b.ledger.setJob j terminal).setJobs
      (failureAnswer b j n jobIds).canceledJobIds .aborted).setWorkflow .failed := if_pos hanswer
  -- the job itself may be set to ABORTED after the script, which concerns no other job
  have hspace : (finalBooks b j terminal n jobIds).space.status =
        (b.space.completeFailedJob j n jobIds).2.status ∧
      (∀ i, i ≠ j → (finalBooks b j terminal n jobIds).space.jobStatus i =
        (b.space.completeFailedJob j n jobIds).2.jobStatus i) ∧
      (finalBooks b j terminal n jobIds).space.waitingReady =
        (b.space.completeFailedJob j n jobIds).2.waitingReady := by
    rw [finalBooks, failedBooks]
    dsimp only
    split
    · refine ⟨rfl, fun i hne => ?_, rfl⟩
      rw [setJobStatus_jobStatus, if_neg hne]
    · exact ⟨rfl, fun _ _ => rfl, rfl⟩
  obtain ⟨hstatus, hjobStatus, hwaiting⟩ := hspace
  refine ⟨?_, by rw [hledger]; rfl, fun i st hne hst hwait => ?_⟩
  · rw [hstatus]
    exact hfailed.status
  · have hi : i ∈ jobIds := hjobIds i (fun hnone => by cases hst.symm.trans hnone)
    have hany : (b.space.jobStatus i).any JobStatus.isWaitingToRun = true := by
      rw [hst]
      exact hwait
    have hcanceled : i ∈ (failureAnswer b j n jobIds).canceledJobIds :=
      List.mem_map.mpr ⟨(i, st), (hfailed.mem i st).mpr ⟨hi, hne, hst, hwait⟩, rfl⟩
    refine ⟨?_, ?_, ?_⟩
    · rw [hjobStatus i hne, hfailed.jobStatus i hne, if_pos ⟨hi, hany⟩]
    · rw [hledger]
      exact if_pos hcanceled
    · rw [hwaiting, waiting_completeFailedJob n hrun]
      exact fun h => h.2 ⟨hi, hne, hany⟩

/-- What both stores say of the workflow and of its waiting jobs after the failure of a job. -/
theorem settles_failJob_statuses (hm : MirroredFor k w)
    (hrun : (w.redis.workflows k.identity).status = some .running) {terminal : JobStatus}
    (hterminal : terminal = .failed ∨ terminal = .aborted) (n : Int) :
    Settles (failJob k terminal n) w (fun _ w' =>
      ((w'.redis.workflows k.identity).status = some .failed ∨
        (w'.redis.workflows k.identity).hash = none) ∧
      w'.sqlite.workflowStatus k.identity = some .failed ∧
      ∀ i st, WaitsBeside k w i st →
        (((w'.redis.workflows k.identity).jobStatus i = some .aborted ∨
          ((w'.redis.workflows k.identity).hash = none ∧
            (w'.redis.workflows k.identity).jobStatus i = none)) ∧
        w'.sqlite.jobStatus ⟨k.identity, i⟩ = some .aborted) ∧
        i ∉ (w'.redis.workflows k.identity).waitingReady.members) := by
  have hworkflow : (books k.identity w).ledger.workflow ≠ none := by
    change w.sqlite.workflowStatus k.identity ≠ none
    rw [hm.workflow, hrun]
    nofun
  refine Settles.mono (posts_failJob_books hworkflow hm.rows hm.self hterminal n w rfl)
    (fun _ w' h => ?_)
  obtain ⟨jobIds, hjobIds, hb'⟩ := h
  obtain ⟨hstatus, hrecorded, hsiblings⟩ := finalBooks_running (j := k.jobId) hrun hjobIds terminal n
  split at hb'
  · have hledger : w'.sqlite.ledger k.identity =
        (finalBooks (books k.identity w) k.jobId terminal n jobIds).ledger := hb'.ledger
    refine ⟨.inr hb'.hash, (congrArg Ledger.workflow hledger).trans hrecorded, fun i st hi => ?_⟩
    obtain ⟨-, hjob, -⟩ := hsiblings i st hi.1 hi.2.1 hi.2.2
    have hgone := hb'.jobs i
    rw [hjob, if_neg (by nofun)] at hgone
    refine ⟨⟨.inr ⟨hb'.hash, congrArg (Option.bind · JobHash.status) hgone⟩,
      (congrFun (congrArg Ledger.job hledger) i).trans hjob⟩, ?_⟩
    rw [show (w'.redis.workflows k.identity).waitingReady = .empty from hb'.waiting]
    exact List.not_mem_nil
  · have hspace := congrArg Books.space hb'
    have hledger := congrArg Books.ledger hb'
    refine ⟨.inl ((congrArg WorkflowKeyspace.status hspace).trans hstatus),
      (congrArg Ledger.workflow hledger).trans hrecorded, fun i st hi => ?_⟩
    obtain ⟨hredis, hjob, hnot⟩ := hsiblings i st hi.1 hi.2.1 hi.2.2
    refine ⟨⟨.inl ((congrArg (·.jobStatus i) hspace).trans hredis),
      (congrFun (congrArg Ledger.job hledger) i).trans hjob⟩, ?_⟩
    rw [← hspace] at hnot
    exact hnot

theorem settles_failJob_running (hm : MirroredFor k w)
    (hrun : (w.redis.workflows k.identity).status = some .running) {terminal : JobStatus}
    (hterminal : terminal = .failed ∨ terminal = .aborted) (n : Int) :
    Settles (failJob k terminal n) w (fun _ w' => FailsWorkflow k w w' ↔ WellPlaced k w) := by
  have hsets : Settles (failJob k terminal n) w (fun _ w' =>
      ∀ x : { x : String × JobStatus // WaitsBeside k w x.1 x.2 },
        (⟨k.identity, x.1.1⟩ ∈ w'.redis.executionQueue.members ↔
          ⟨k.identity, x.1.1⟩ ∈ w.redis.executionQueue.members ∧ x.1.2 ≠ .queued) ∧
        (⟨k.identity, x.1.1⟩ ∈ w'.redis.jobRetryStream.members ↔
          ⟨k.identity, x.1.1⟩ ∈ w.redis.jobRetryStream.members ∧ x.1.2 ≠ .retryDelay ∧
            ¬ EndsWorkflow k w)) :=
    Settles.all (fun x => settles_failJob_sets hm hrun x.2 terminal n)
  refine ((settles_failJob_statuses hm hrun hterminal n).and hsets).mono (fun _ w' h => ?_)
  obtain ⟨⟨hredis, hsqlite, hsiblings⟩, hplaces⟩ := h
  constructor
  · intro hfails i st hi
    obtain ⟨hqueue, hretry⟩ := hplaces ⟨(i, st), hi⟩
    obtain ⟨-, hnoqueue, hnoretry⟩ := hfails.removed i st hi
    refine ⟨fun hmem => ?_, fun hmem => ?_⟩
    · by_contra hst
      exact hnoqueue (hqueue.mpr ⟨hmem, hst⟩)
    · by_contra hst
      obtain ⟨hne, hends⟩ := not_or.mp hst
      exact hnoretry (hretry.mpr ⟨hmem, hne, hends⟩)
  · intro hplaced
    refine ⟨hredis, hsqlite, fun i st hi => (hsiblings i st hi).1,
      fun i st hi => ⟨(hsiblings i st hi).2, fun hmem => ?_, fun hmem => ?_⟩⟩
    · obtain ⟨hmem, hst⟩ := (hplaces ⟨(i, st), hi⟩).1.mp hmem
      exact hst ((hplaced i st hi).1 hmem)
    · obtain ⟨hmem, hst, hends⟩ := (hplaces ⟨(i, st), hi⟩).2.mp hmem
      exact ((hplaced i st hi).2 hmem).elim hst hends

end Running

/-- In a workflow that is not RUNNING, the failure of a job does not change the status that SQLite has
for the workflow. -/
theorem settles_failJob_notRunning (hne : (w.redis.workflows k.identity).status ≠ some .running)
    (hworkflow : w.sqlite.workflowStatus k.identity ≠ none)
    (hrows : ∀ j, (w.redis.workflows k.identity).jobStatus j ≠ none →
      w.sqlite.jobStatus ⟨k.identity, j⟩ ≠ none)
    (hself : w.sqlite.jobStatus k ≠ none) {terminal : JobStatus}
    (hterminal : terminal = .failed ∨ terminal = .aborted) (n : Int) :
    Settles (failJob k terminal n) w (fun _ w' =>
      w'.sqlite.workflowStatus k.identity = w.sqlite.workflowStatus k.identity) := by
  refine Settles.mono (posts_failJob_books (b := books k.identity w) hworkflow hrows hself hterminal n
    w rfl) (fun _ w' h => ?_)
  obtain ⟨jobIds, -, hb'⟩ := h
  have hanswer : ¬ (failureAnswer (books k.identity w) k.jobId n jobIds).workflowFailed = true :=
    fun hfailed => hne ((completeFailedJob_workflowFailed ..).mp hfailed)
  have hkept : (finalBooks (books k.identity w) k.jobId terminal n jobIds).ledger.workflow =
      w.sqlite.workflowStatus k.identity := congrArg Ledger.workflow (if_neg hanswer)
  have hledger : w'.sqlite.ledger k.identity =
      (finalBooks (books k.identity w) k.jobId terminal n jobIds).ledger := by
    split at hb'
    · exact hb'.ledger
    · exact congrArg Books.ledger hb'
  exact (congrArg Ledger.workflow hledger).trans hkept

end Outcome

section Event

variable {e : JobCompletionData} {w : World}

/-- A retry of the job of an event is allowed, as `handle_job_failed` decides it at the time `now`. -/
def retryAllowed (e : JobCompletionData) (w : World) (now : Int) : Bool :=
  let fetched := (w.redis.workflows e.identity).fetchJobRuntime e.jobId
  let retries := if fetched.1 ∧ e.errorCode = .internalDbFailure then fetched.2.maxRetries
    else fetched.2.currentRetryCount
  decide (e.status = .failed ∧ (w.redis.workflows e.identity).status = some .running ∧
    retries + 1 ≤ fetched.2.maxRetries) && !isJobRuntimeExpired fetched.2 now

theorem runFrom_ask {α : Type} (env : Nat → Env) (n : Nat) (c : Call) (f : c.Reply → Task α)
    (w : World) : Prog.runFrom Call.exec env n (ask c >>= f) w =
      Prog.runFrom Call.exec env (n + 1) (f (c.exec (env n) w).1) (c.exec (env n) w).2 := rfl

theorem runFrom_ask_bind {α β : Type} (env : Nat → Env) (n : Nat) (c : Call) (f : c.Reply → Task α)
    (g : α → Task β) (w : World) : Prog.runFrom Call.exec env n (ask c >>= f >>= g) w =
      Prog.runFrom Call.exec env (n + 1) (f (c.exec (env n) w).1 >>= g) (c.exec (env n) w).2 := rfl

/-- Without a retry, the event of a job that failed comes to the failure of the job. -/
theorem run_handleJobFailed {env : Nat → Env} (hanswered : ∀ n, (env n).ok = true) (k : JobKey)
    (st : JobStatus) (runtime : JobRuntimeData) (workflow : WorkflowHash) (n : Nat)
    (hretry : ¬ ((st = .failed ∧ workflow.status = some .running ∧
      runtime.currentRetryCount + 1 ≤ runtime.maxRetries) ∧
        isJobRuntimeExpired runtime (env n).time = false)) :
    ∃ m, Prog.runFrom Call.exec env n (handleJobFailed k st runtime workflow) w =
      Prog.runFrom Call.exec env m (failJob k (if st = .aborted then .aborted else .failed)
        (runtime.currentRetryCount + 1)) w := by
  unfold handleJobFailed
  dsimp only
  split
  · rename_i hallowed
    have hexpired : isJobRuntimeExpired runtime (env n).time = true := by
      rw [← Bool.not_eq_false]
      exact fun h => hretry ⟨hallowed, h⟩
    refine ⟨n + 1, ?_⟩
    rw [runFrom_ask, exec_answered (hanswered n)]
    exact congrArg (fun p => Prog.runFrom Call.exec env (n + 1) p w) (if_pos hexpired)
  · exact ⟨n, rfl⟩

theorem run_processCompletedJobs {env : Nat → Env} (hanswered : ∀ n, (env n).ok = true)
    {ws : WorkflowStatus} (hws : (w.redis.workflows e.identity).status = some ws)
    (hstatus : e.status = .aborted ∨ e.status = .failed)
    (hretry : retryAllowed e w (env 2).time = false) :
    ∃ m n, Prog.run Call.exec env (processCompletedJobs e) w = (Prog.runFrom Call.exec env m
      (failJob e.key e.status n) w).2 := by
  obtain ⟨workflow, hhash, hworkflow⟩ : ∃ workflow, (w.redis.workflows e.identity).hash =
      some workflow ∧ workflow.status = some ws := Option.bind_eq_some_iff.mp hws
  have hterminal : (if e.status = .aborted then JobStatus.aborted else .failed) = e.status := by
    rcases hstatus with hst | hst <;> rw [hst] <;> rfl
  have hfetched : Prog.run Call.exec env (processCompletedJobs e) w = (Prog.runFrom Call.exec env 1
      (processUncompleted e.key e.status e.errorCode workflow) w).2 := by
    rw [Prog.run, processCompletedJobs, runFrom_ask, exec_answered (hanswered 0)]
    dsimp only [Call.carryOut]
    rw [hhash]
    rcases hstatus with hst | hst <;> rw [hst]
  rw [hfetched, processUncompleted, runFrom_ask, exec_answered (hanswered 1)]
  dsimp only [Call.carryOut]
  generalize hruntime : (w.redis.workflows e.key.identity).fetchJobRuntime e.key.jobId = fetched
  have hallowed : retryAllowed e w (env 2).time = (decide (e.status = .failed ∧
      workflow.status = some .running ∧ (if fetched.1 ∧ e.errorCode = .internalDbFailure then
        fetched.2.maxRetries else fetched.2.currentRetryCount) + 1 ≤ fetched.2.maxRetries) &&
        !isJobRuntimeExpired fetched.2 (env 2).time) := by
    rw [← hruntime, hworkflow, ← hws]
    rfl
  obtain ⟨found, runtime⟩ := fetched
  rw [hallowed, Bool.and_eq_false_iff, decide_eq_false_iff_not, Bool.not_eq_false'] at hretry
  dsimp only at hretry ⊢
  have hnot : ∀ count, count = (if found ∧ e.errorCode = .internalDbFailure then runtime.maxRetries
      else runtime.currentRetryCount) → ¬ ((e.status = .failed ∧ workflow.status = some .running ∧
        count + 1 ≤ runtime.maxRetries) ∧ isJobRuntimeExpired { runtime with
          currentRetryCount := count } (env 2).time = false) := by
    rintro count rfl ⟨hcheck, htime⟩
    rcases hretry with hretry | hretry
    · exact hretry hcheck
    · cases hretry.symm.trans htime
  split
  · rename_i hinternal
    rw [if_pos hinternal] at hnot
    obtain ⟨m, hm⟩ := run_handleJobFailed hanswered e.key e.status
      { runtime with currentRetryCount := runtime.maxRetries } workflow 2 (hnot _ rfl)
    rw [hm, hterminal]
    exact ⟨m, _, rfl⟩
  · rename_i hinternal
    rw [if_neg hinternal] at hnot
    obtain ⟨m, hm⟩ := run_handleJobFailed hanswered e.key e.status runtime workflow 2 (hnot _ rfl)
    rw [hm, hterminal]
    exact ⟨m, _, rfl⟩

/-- For every state of a READY or RUNNING workflow that SQLite mirrors, and every event of one of its
jobs that is ABORTED, or FAILED without a retry being allowed, with every command answered: the workflow
fails as a whole exactly if it is RUNNING and its waiting jobs are in the sorted sets that go with their
statuses. The failure script leaves a READY workflow alone. -/
theorem jobFailure_failsWorkflow_iff (e : JobCompletionData) (w : World) (env : Nat → Env)
    (hanswered : ∀ n, (env n).ok = true) {ws : WorkflowStatus}
    (hws : (w.redis.workflows e.identity).status = some ws) (hopen : ws = .ready ∨ ws = .running)
    (hmirrored : MirroredFor e.key w)
    (hevent : e.status = .aborted ∨
      (e.status = .failed ∧ retryAllowed e w (env 2).time = false)) :
    FailsWorkflow e.key w (Prog.run Call.exec env (processCompletedJobs e) w).2 ↔
      ws = .running ∧ WellPlaced e.key w := by
  have hstatus : e.status = .aborted ∨ e.status = .failed := hevent.imp_right And.left
  have hretry : retryAllowed e w (env 2).time = false := by
    rcases hevent with hst | ⟨-, hretry⟩
    · rw [retryAllowed, Bool.and_eq_false_iff]
      refine .inl (decide_eq_false (fun h => ?_))
      cases hst.symm.trans h.1
    · exact hretry
  obtain ⟨m, n, hrun⟩ := run_processCompletedJobs hanswered hws hstatus hretry
  rw [hrun]
  by_cases hrunning : ws = .running
  · subst hrunning
    rw [and_iff_right rfl]
    exact Prog.Ensures.runFrom (settles_failJob_running hmirrored hws hstatus.symm n) env hanswered m
  · have hne : (w.redis.workflows e.identity).status ≠ some .running := by
      rw [hws]
      exact fun h => hrunning (Option.some.inj h)
    have hrecorded : w.sqlite.workflowStatus e.identity = some ws := hmirrored.workflow.trans hws
    have hkept := Prog.Ensures.runFrom (settles_failJob_notRunning (k := e.key) hne
      (by rw [show w.sqlite.workflowStatus e.key.identity = some ws from hrecorded]; nofun)
      hmirrored.rows hmirrored.self hstatus.symm n) env hanswered m
    refine ⟨fun hfails => ?_, fun h => absurd h.1 hrunning⟩
    cases (hkept.trans hrecorded).symm.trans hfails.sqlite
    rcases hopen with h | h <;> cases h

/-- The hash of a job; what is RUNNING was started in the second 1. -/
def storedJob (st : JobStatus) : JobHash where
  status := some st
  remainingDependencies := some (if st = .pending then 1 else 0)
  priority := some 5
  timeoutSec := some 60
  maxRetries := some 3
  currentRetryCount := some 0
  retryDelaySec := some 1
  retryBackoffPolicy := some "FIXED"
  payloadSizeBytes := some 1
  startRunTime := if st = .running then some 1 else none

/-- A workflow of the jobs `a` and `b` in both stores, which may run for 10 seconds. If `b` is PENDING it
depends on `a`, and otherwise each of them holds a slot; `b` is in the execution queue if it is
QUEUED. -/
def storedPair (ws : WorkflowStatus) (a b : JobStatus) : World where
  redis := {
    workflows := Function.update (fun _ => {}) ⟨"client", "workflow"⟩ {
      hash := some {
        status := some ws, totalJobs := some 2, maxConcurrentJobs := some 2,
        reservedExecutionSlots := some (if b = .pending then 1 else 2),
        pendingJobs := some (if b = .pending then 1 else 0), completedJobs := some 0,
        failedJobs := some 0, maxRunTime := some 10,
        startRunTime := if ws = .running then some 1 else none }
      jobs := Function.update (Function.update (fun _ => none) "a" (some (storedJob a))) "b"
        (some (storedJob b))
      successors := fun j => if b = .pending ∧ j = "a" then ["b"] else []
      payloads := fun j => if j = "a" ∨ j = "b" then some [0] else none }
    executionQueue := if b = .queued then .add .empty ⟨⟨"client", "workflow"⟩, "b"⟩ 5 else .empty
    activeWorkflows := fun _ => {"workflow"} }
  sqlite := (recordedPair ws a.recorded b.recorded).sqlite

def firstJob : JobKey := ⟨⟨"client", "workflow"⟩, "a"⟩

theorem storedPair_other {ws : WorkflowStatus} {a b st : JobStatus} {j : String} (hj : j ≠ "a")
    (hst : ((storedPair ws a b).redis.workflows firstJob.identity).jobStatus j = some st) :
    j = "b" ∧ st = b := by
  by_cases hb : j = "b"
  · subst hb
    exact ⟨rfl, (Option.some.inj hst).symm⟩
  · have hnone : ((storedPair ws a b).redis.workflows firstJob.identity).jobStatus j = none := by
      simp [WorkflowKeyspace.jobStatus, storedPair, firstJob, hj, hb]
    cases hnone.symm.trans hst

theorem storedPair_mirrored (ws : WorkflowStatus) (a b : JobStatus) :
    MirroredFor firstJob (storedPair ws a b) := by
  refine ⟨rfl, fun j st hj hst => ?_, nofun⟩
  obtain ⟨rfl, rfl⟩ := storedPair_other hj hst
  rfl

/-- In a RUNNING workflow a job that could not be started fails the workflow. -/
theorem jobFailure_failsWorkflow_running :
    FailsWorkflow firstJob (storedPair .running .running .queued)
      (Prog.run Call.exec (fun _ => {})
        (processCompletedJobs ⟨⟨"client", "workflow"⟩, "a", .aborted, .internalDbFailure⟩)
        (storedPair .running .running .queued)).2 := by
  refine (jobFailure_failsWorkflow_iff ⟨⟨"client", "workflow"⟩, "a", .aborted, .internalDbFailure⟩
    (storedPair .running .running .queued) (fun _ => {}) (fun _ => rfl) rfl (.inr rfl)
    (storedPair_mirrored ..) (.inl rfl)).mpr ⟨rfl, fun i st hi => ?_⟩
  obtain ⟨rfl, rfl⟩ := storedPair_other hi.1 hi.2.1
  exact ⟨fun _ => rfl, fun hmem => absurd hmem List.not_mem_nil⟩

/-- The payload of the first job cannot be fetched before any worker has started: the workflow stays
READY, although its job is ABORTED. -/
theorem jobFailure_ready_goesOn :
    ¬ FailsWorkflow firstJob (storedPair .ready .pendingExecution .pending)
      (Prog.run Call.exec (fun _ => {})
        (processCompletedJobs ⟨⟨"client", "workflow"⟩, "a", .aborted, .internalDbFailure⟩)
        (storedPair .ready .pendingExecution .pending)).2 := by
  intro hfails
  have hafter : (Prog.run Call.exec (fun _ => {})
      (processCompletedJobs ⟨⟨"client", "workflow"⟩, "a", .aborted, .internalDbFailure⟩)
      (storedPair .ready .pendingExecution .pending)).2.sqlite.workflowStatus firstJob.identity =
        some .ready := by decide +kernel
  cases hafter.symm.trans hfails.sqlite

end Event

section Timeout

variable {e : JobCompletionData} {w : World}

/-- The end of a workflow by its `max_run_time` is treated like any other failure: the workflow fails as
a whole, and the jobs that will never report are counted as completed. -/
structure HandledAsFailure (k : JobKey) (w w' : World) : Prop where
  fails : FailsWorkflow k w w'
  counted : (w'.redis.workflows k.identity).hash = none ∨
    (w'.redis.workflows k.identity).counters.completed =
      (w.redis.workflows k.identity).counters.completed + (1 + waitingBeside k w : Int)

/-- The calls of `handle_job_retry`. -/
def Call.retries : Call → Bool
  | .readClock _ | .scheduleJobRetry _ _ _ | .updateJobStatus _ _ | .updateReadyJobs _ _ _ => true
  | _ => false

def Retries (c : Call) : Prop := c.retries = true

theorem retries_ask {c : Call} (hc : c.retries = true) : (ask c).OnlyCalls Retries :=
  Prog.OnlyCalls.perform hc

theorem handleJobRetry_retries (k : JobKey) (n delay : Int) :
    (handleJobRetry k n delay).OnlyCalls Retries := by
  refine (retries_ask rfl).bind (fun _ => (retries_ask rfl).bind (fun promoted => ?_))
  cases promoted with
  | none => trivial
  | some promoted =>
      exact onlyCalls_andThen (retries_ask rfl) (onlyCalls_onlyIf (retries_ask rfl) _)

theorem workflowStatus_retries {c : Call} (hc : Retries c) (e : Env) (w : World)
    (id : WorkflowIdentity) :
    (c.exec e w).2.sqlite.workflowStatus id = w.sqlite.workflowStatus id := by
  rw [Call.exec]
  split
  · cases c with
    | readClock _ => rfl
    | scheduleJobRetry k n retryAtMs => rfl
    | updateJobStatus k st =>
        have hworkflows : (w.sqlite.updateJobStatus e.time k st).2.workflows = w.sqlite.workflows := by
          rw [Sqlite.updateJobStatus]
          split
          · rfl
          · split <;> rfl
        exact congrArg (fun rows => (rows.find? (WorkflowRow.isOf id)).map WorkflowRow.status) hworkflows
    | updateReadyJobs id' queued ready =>
        have hworkflows : (w.sqlite.updateReadyJobs e.time id' queued ready).2.workflows =
            w.sqlite.workflows := by
          rw [Sqlite.updateReadyJobs]
          split <;> rfl
        exact congrArg (fun rows => (rows.find? (WorkflowRow.isOf id)).map WorkflowRow.status) hworkflows
    | _ => cases hc
  · rfl

/-- The event of a job of a workflow that is not RUNNING leaves the status that SQLite has for the
workflow, whether the job is retried or not. -/
theorem settles_processUncompleted_notRunning {k : JobKey}
    (hne : (w.redis.workflows k.identity).status ≠ some .running)
    (hworkflow : w.sqlite.workflowStatus k.identity ≠ none)
    (hrows : ∀ j, (w.redis.workflows k.identity).jobStatus j ≠ none →
      w.sqlite.jobStatus ⟨k.identity, j⟩ ≠ none)
    (hself : w.sqlite.jobStatus k ≠ none) (st : JobStatus) (code : StatusCode)
    (workflow : WorkflowHash) :
    Settles (processUncompleted k st code workflow) w (fun _ w' =>
      w'.sqlite.workflowStatus k.identity = w.sqlite.workflowStatus k.identity) := by
  have hfail : ∀ n : Int, Settles (failJob k (if st = .aborted then .aborted else .failed) n) w
      (fun _ w' => w'.sqlite.workflowStatus k.identity = w.sqlite.workflowStatus k.identity) := by
    refine fun n => settles_failJob_notRunning hne hworkflow hrows hself ?_ n
    split
    · exact .inr rfl
    · exact .inl rfl
  have hhandle : ∀ runtime : JobRuntimeData, Settles (handleJobFailed k st runtime workflow) w
      (fun _ w' => w'.sqlite.workflowStatus k.identity = w.sqlite.workflowStatus k.identity) := by
    intro runtime
    unfold handleJobFailed
    dsimp only
    split
    · have hclock : Settles (ask (.readClock k.identity)) w (fun _ w' => w' = w) :=
        settles_ask (fun _ => rfl)
      refine Settles.bind hclock ?_
      rintro clock w₁ rfl
      split
      · exact hfail _
      · exact settles_keeps (f := fun w : World => w.sqlite.workflowStatus k.identity)
          (handleJobRetry_retries k _ _) (fun c hc e w' => workflowStatus_retries hc e w' k.identity)
    · exact hfail _
  have hfetch : Settles (ask (.fetchJobRuntime k)) w (fun _ w' => w' = w) := settles_ask (fun _ => rfl)
  refine Settles.bind hfetch ?_
  rintro ⟨fetched, runtime⟩ w₁ rfl
  dsimp only
  split <;> exact hhandle _

/-- A workflow that is past its `max_run_time` when one of its jobs completes is never treated like any
other failure, whatever state of a RUNNING workflow that SQLite mirrors it is in and with every command
answered. The success script has set the workflow to FAILED when the failure script looks at it, which
therefore cancels nothing and does not report that it failed the workflow. -/
theorem timeout_not_handledAsFailure (e : JobCompletionData) (w : World) (env : Nat → Env)
    (hanswered : ∀ n, (env n).ok = true)
    (hws : (w.redis.workflows e.identity).status = some .running)
    (hmirrored : MirroredFor e.key w) (hcompleted : e.status = .completed)
    (hjob : (w.redis.workflows e.identity).jobStatus e.jobId = some .running)
    (hexceeded : (w.redis.workflows e.identity).runTimeExceeded (env 1).redisTime = true) :
    ¬ HandledAsFailure e.key w (Prog.run Call.exec env (processCompletedJobs e) w).2 := by
  intro hhandled
  have hrecorded : w.sqlite.workflowStatus e.identity = some .running :=
    hmirrored.workflow.trans hws
  obtain ⟨workflow, hhash, -⟩ : ∃ workflow, (w.redis.workflows e.identity).hash =
      some workflow ∧ workflow.status = some .running := Option.bind_eq_some_iff.mp hws
  have hscript : (w.redis.workflows e.identity).completeSuccessfulJob (env 1).redisTime e.jobId =
      (.runTimeExceeded, (w.redis.workflows e.identity).setStatus .failed) := by
    simp [WorkflowKeyspace.completeSuccessfulJob, hws, hjob, hexceeded]
  have hcall : (Call.completeSuccessfulJob e.key).carryOut (env 1) w =
      (none, w.setSpace e.identity ((w.redis.workflows e.identity).setStatus .failed)) := by
    change Call.onRedis w (w.redis.completeSuccessfulJob (env 1).redisTime e.key) = _
    rw [Redis.completeSuccessfulJob, show (w.redis.workflows e.key.identity).completeSuccessfulJob
      (env 1).redisTime e.key.jobId = _ from hscript]
    rfl
  have hrun : Prog.run Call.exec env (processCompletedJobs e) w = (Prog.runFrom Call.exec env 2
      (processUncompleted e.key .failed .internalDbFailure workflow)
      (w.setSpace e.identity ((w.redis.workflows e.identity).setStatus .failed))).2 := by
    rw [Prog.run, processCompletedJobs, runFrom_ask, exec_answered (hanswered 0)]
    dsimp only [Call.carryOut]
    rw [hhash, hcompleted]
    dsimp only
    rw [handleJobCompleted, runFrom_ask_bind, exec_answered (hanswered 1), hcall]
    rfl
  have hstatus : ((w.setSpace e.identity ((w.redis.workflows e.identity).setStatus
      .failed)).redis.workflows e.key.identity) =
        (w.redis.workflows e.identity).setStatus .failed := Function.update_self ..
  have hkept := Prog.Ensures.runFrom (settles_processUncompleted_notRunning (k := e.key)
    (w := w.setSpace e.identity ((w.redis.workflows e.identity).setStatus .failed))
    (by rw [hstatus, setStatus_status]; simp)
    (by change w.sqlite.workflowStatus e.identity ≠ none; rw [hrecorded]; simp)
    (fun j hj => hmirrored.rows j (by rw [hstatus] at hj; exact hj)) hmirrored.self .failed
    .internalDbFailure workflow) env hanswered 2
  have hfails := hhandled.fails.sqlite
  rw [hrun] at hfails
  cases (hkept.trans hrecorded).symm.trans hfails

theorem timeout_not_handledAsFailure_late :
    ((storedPair .running .running .queued).redis.workflows firstJob.identity).runTimeExceeded 100 =
      true ∧ ¬ HandledAsFailure firstJob (storedPair .running .running .queued)
        (Prog.run Call.exec (fun _ => { redisTime := 100 }) (processCompletedJobs lateEvent)
          (storedPair .running .running .queued)).2 :=
  ⟨by decide, timeout_not_handledAsFailure lateEvent (storedPair .running .running .queued)
    (fun _ => { redisTime := 100 }) (fun _ => rfl) rfl (storedPair_mirrored ..) rfl rfl (by decide)⟩

/-- What is left of that workflow: Redis has it as FAILED, SQLite as RUNNING, and the other job is QUEUED
in both. -/
theorem timeout_leaves_siblings :
    let w := (Prog.run Call.exec (fun _ => { redisTime := 100 }) (processCompletedJobs lateEvent)
      (storedPair .running .running .queued)).2
    ¬ HandledAsFailure firstJob (storedPair .running .running .queued) w ∧
      (w.redis.workflows firstJob.identity).status = some .failed ∧
      w.sqlite.workflowStatus firstJob.identity = some .running ∧
      (w.redis.workflows firstJob.identity).jobStatus "b" = some .queued ∧
      w.sqlite.jobStatus ⟨firstJob.identity, "b"⟩ = some .queued := by
  intro w
  have hafter : (w.redis.workflows firstJob.identity).status = some .failed ∧
      w.sqlite.workflowStatus firstJob.identity = some .running ∧
      (w.redis.workflows firstJob.identity).jobStatus "b" = some .queued ∧
      w.sqlite.jobStatus ⟨firstJob.identity, "b"⟩ = some .queued := by decide +kernel
  refine ⟨fun hhandled => ?_, hafter⟩
  cases hafter.2.1.symm.trans hhandled.fails.sqlite

end Timeout

end FlowPilot
