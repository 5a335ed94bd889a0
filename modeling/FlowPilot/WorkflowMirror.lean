import FlowPilot.StoreEffects
import FlowPilot.WorkflowHandling

/-! SQLite as a mirror of Redis. The scripts change the statuses in Redis, and the component that ran a
script then writes the same change to SQLite, from what the script answered. `Mirrors` says that the two
stores agree; each triple here says that one component, run alone, makes them agree again. -/

namespace FlowPilot

open WorkflowKeyspace

/-- The status in SQLite of a job that has this status in Redis. The claim of a job by a scheduler is not
written to SQLite. -/
def JobStatus.recorded : JobStatus → JobStatus
  | .pendingExecution => .queued
  | st => st

/-- SQLite says what Redis says of the workflow and of its jobs, but for the jobs that have an event in
the completion stream and the exceptions `X`. -/
structure Mirrors (X : String → Prop) (b : Books) : Prop where
  jobs : ∀ j st, b.space.jobStatus j = some st → j ∉ b.reported → ¬ X j →
    b.ledger.job j = some st.recorded
  workflow : ∀ ws, b.space.status = some ws → b.ledger.workflow = some ws
  /-- no job of a failed workflow waits to be run -/
  settled : b.space.status = some .failed → ∀ j st, b.space.jobStatus j = some st →
    st.isWaitingToRun = false

/-- What the handlers rely on in the books of a workflow that is not finished. -/
structure Attended (b : Books) : Prop where
  hash : b.space.hash ≠ none
  active : b.active = true
  workflow : b.ledger.workflow ≠ none
  rows : ∀ j, b.space.jobStatus j ≠ none → b.ledger.job j ≠ none
  waiting : ∀ j, j ∈ b.space.waitingReady.members ↔ b.space.jobStatus j = some .ready

/-- What a component did about one job: nothing, or it gave the job one status in both stores. -/
inductive Follows (X X' : String → Prop) (b b' : Books) (j : String) : Prop where
  | kept (hspace : b'.space.jobStatus j = b.space.jobStatus j)
      (hledger : b'.ledger.job j = b.ledger.job j) (hX : X j → X' j)
  | set {st : JobStatus} (hspace : b'.space.jobStatus j = some st)
      (hledger : b'.ledger.job j = some st.recorded)

section Mirror

variable {X X' : String → Prop} {b b' : Books}

/-- The rule for the calls of the handlers: SQLite follows each job that Redis changes. -/
theorem Mirrors.follow (h : Mirrors X b) (hjobs : ∀ j, Follows X X' b b' j)
    (hreported : b'.reported = b.reported)
    (hworkflow : ∀ ws, b'.space.status = some ws → b'.ledger.workflow = some ws)
    (hsettled : b'.space.status = some .failed → ∀ j st, b'.space.jobStatus j = some st →
      st.isWaitingToRun = false) : Mirrors X' b' where
  jobs := fun j st hst hnot hX => by
    cases hjobs j with
    | kept hspace hledger hkeep =>
        rw [hspace] at hst
        rw [hreported] at hnot
        rw [hledger]
        exact h.jobs j st hst hnot (fun hj => hX (hkeep hj))
    | set hspace hledger =>
        cases hspace.symm.trans hst
        exact hledger
  workflow := hworkflow
  settled := hsettled

theorem Cleared.mirrors (h : Cleared b b')
    (hrows : ∀ j, b.space.jobStatus j ≠ none → b.ledger.job j ≠ none) : Mirrors X b' := by
  have hgone : ∀ j, b'.space.jobStatus j = none := by
    intro j
    have hjobs := h.jobs j
    split at hjobs
    · rename_i hrow
      refine (congrArg (Option.bind · JobHash.status) hjobs).trans ?_
      by_contra hst
      exact hrows j hst hrow
    · exact congrArg (Option.bind · JobHash.status) hjobs
  have hstatus : b'.space.status = none := congrArg (Option.bind · WorkflowHash.status) h.hash
  refine ⟨fun j st hst => ?_, fun ws hws => ?_, fun hws => ?_⟩
  · cases (hgone j).symm.trans hst
  · cases hstatus.symm.trans hws
  · cases hstatus.symm.trans hws

theorem Mirrors.weaken (h : Mirrors X b) (hX : ∀ j, X j → X' j) : Mirrors X' b :=
  ⟨fun j st hst hnot hj => h.jobs j st hst hnot (fun hX' => hj (hX j hX')), h.workflow, h.settled⟩

theorem Mirrors.report (h : Mirrors X b) {l : List String} (hX : ∀ j, X j → j ∈ l) :
    Mirrors (fun _ => False) { b with reported := b.reported ++ l } where
  jobs := fun j st hst hnot _ => by
    obtain ⟨hold, hnew⟩ := not_or.mp (fun hmem => hnot (List.mem_append.mpr hmem))
    exact h.jobs j st hst hold (fun hj => hnew (hX j hj))
  workflow := h.workflow
  settled := h.settled

theorem Mirrors.claimJob (h : Mirrors X b) {j : String}
    (hjob : b.space.jobStatus j = some .queued) :
    Mirrors X { b with space := (b.space.claimJob j).2 } := by
  rw [WorkflowKeyspace.claimJob, if_pos (.inr hjob)]
  have hstatus := fun i => setJobStatus_jobStatus b.space j i .pendingExecution
  refine ⟨fun i st hst hnot hX => ?_, h.workflow, fun hfail i st hst => ?_⟩
  · rw [hstatus i] at hst
    split at hst
    · rename_i hi
      cases hst
      exact h.jobs i .queued (hi ▸ hjob) hnot hX
    · exact h.jobs i st hst hnot hX
  · rw [hstatus i] at hst
    split at hst
    · cases hst
      rfl
    · exact h.settled hfail i st hst

end Mirror

section Failing

open CompletionHandler

variable {k : JobKey} {b : Books}

/-- The failure script for a job of a running workflow, and what `handle_job_failed` writes after it. -/
theorem Mirrors.failRunning (h : Mirrors (· = k.jobId) b) {jobIds : List String}
    (hjobIds : ∀ j, b.space.jobStatus j ≠ none → j ∈ jobIds) {outcome : FailureOutcome}
    {ks : WorkflowKeyspace} (hfailed : FailedRunning k.jobId jobIds b.space outcome ks)
    (done : Bool) : Mirrors (fun _ => False) (failedBooks { b with space := ks } k.jobId .failed
      ⟨outcome.canceled.map Prod.fst, true, done⟩) := by
  have hcanceled : ∀ i, i ∈ outcome.canceled.map Prod.fst ↔ i ≠ k.jobId ∧
      (b.space.jobStatus i).any JobStatus.isWaitingToRun = true := by
    intro i
    constructor
    · intro hi
      obtain ⟨⟨i, st⟩, hmem, rfl⟩ := List.mem_map.mp hi
      obtain ⟨-, hne, hst, hwait⟩ := (hfailed.mem i st).mp hmem
      exact ⟨hne, by rw [hst]; exact hwait⟩
    · rintro ⟨hne, hany⟩
      obtain ⟨st, hst, hwait⟩ := (Option.any_eq_true _ _).mp hany
      have hmem : i ∈ jobIds := hjobIds i (fun hnone => by cases hst.symm.trans hnone)
      exact List.mem_map.mpr ⟨(i, st), (hfailed.mem i st).mpr ⟨hmem, hne, hst, hwait⟩, rfl⟩
  have hstatus : ∀ i, i ≠ k.jobId → ks.jobStatus i =
      if i ∈ outcome.canceled.map Prod.fst then some .aborted else b.space.jobStatus i := by
    intro i hne
    rw [hfailed.jobStatus i hne]
    by_cases hi : i ∈ outcome.canceled.map Prod.fst
    · have hany := ((hcanceled i).mp hi).2
      obtain ⟨st, hst, -⟩ := (Option.any_eq_true _ _).mp hany
      rw [if_pos hi, if_pos ⟨hjobIds i (fun hnone => by cases hst.symm.trans hnone), hany⟩]
    · rw [if_neg hi, if_neg (fun hboth => hi ((hcanceled i).mpr ⟨hne, hboth.2⟩))]
  refine h.follow (fun i => ?_) rfl (fun ws hws => ?_) (fun _ i st hst => ?_)
  · by_cases hself : i = k.jobId
    · subst hself
      have hnot : k.jobId ∉ outcome.canceled.map Prod.fst := fun hi => ((hcanceled _).mp hi).1 rfl
      refine .set hfailed.self ?_
      change (if k.jobId ∈ _ then _ else _) = _
      rw [if_neg hnot, Ledger.setJob_job, if_pos rfl]
      rfl
    · by_cases hi : i ∈ outcome.canceled.map Prod.fst
      · exact .set ((hstatus i hself).trans (if_pos hi)) (if_pos hi)
      · refine .kept ((hstatus i hself).trans (if_neg hi)) ?_ (fun heq => hself heq)
        refine (if_neg hi).trans ?_
        rw [Ledger.setJob_job, if_neg hself]
  · have hks : ks.status = some .failed :=
      hfailed.status
    cases hks.symm.trans hws
    rfl
  · change ks.jobStatus i = some st at hst
    by_cases hself : i = k.jobId
    · subst hself
      cases hfailed.self.symm.trans hst
      rfl
    · rw [hstatus i hself] at hst
      split at hst
      · cases hst
        rfl
      · rename_i hi
        rw [hcanceled, hst] at hi
        exact (Bool.not_eq_true _).mp (fun hwait => hi ⟨hself, hwait⟩)

/-- The failure script for a job of a failed workflow, and what `handle_job_failed` writes after it. -/
theorem Mirrors.failOther (h : Mirrors (· = k.jobId) b) (hwf : b.space.status = some .failed)
    {outcome : FailureOutcome} {ks : WorkflowKeyspace}
    (hfailed : FailedOther k.jobId b.space outcome ks) {st : JobStatus}
    (hst : st = .failed ∨ st = .aborted) (done : Bool) : Mirrors (fun _ => False)
      (failedBooks { b with space := ks } k.jobId st ⟨outcome.canceled.map Prod.fst, false, done⟩) := by
  rw [hfailed.canceled, List.map_nil]
  have hjob : ∀ i, (failedBooks { b with space := ks } k.jobId st ⟨[], false, done⟩).space.jobStatus i =
      if i = k.jobId then some st else b.space.jobStatus i := by
    intro i
    rcases hst with rfl | rfl
    · exact hfailed.jobStatus i
    · refine (setJobStatus_jobStatus ks k.jobId i .aborted).trans ?_
      rw [hfailed.jobStatus i]
      split <;> rfl
  have hstatus : (failedBooks { b with space := ks } k.jobId st ⟨[], false, done⟩).space.status =
      some .failed := by
    have hks : ks.status = some .failed :=
      hfailed.status.trans hwf
    rcases hst with rfl | rfl <;> exact hks
  have hledger : ∀ i, (failedBooks { b with space := ks } k.jobId st ⟨[], false, done⟩).ledger.job i =
      if i = k.jobId then some st else b.ledger.job i := fun i => Ledger.setJob_job ..
  refine h.follow (fun i => ?_) rfl (fun ws hws => ?_) (fun _ i st' hi => ?_)
  · by_cases hself : i = k.jobId
    · refine .set ((hjob i).trans (if_pos hself)) ((hledger i).trans ((if_pos hself).trans ?_))
      rcases hst with rfl | rfl <;> rfl
    · exact .kept ((hjob i).trans (if_neg hself)) ((hledger i).trans (if_neg hself))
        (fun heq => hself heq)
  · cases hstatus.symm.trans hws
    exact h.workflow .failed hwf
  · rw [hjob i] at hi
    split at hi
    · cases hi
      rcases hst with rfl | rfl <;> rfl
    · exact h.settled hwf i st' hi

/-- The jobs of a workflow have rows after the writes of `handle_job_failed` as before. -/
theorem rows_failedBooks (hb : Attended b) (n : Int) (jobIds : List String) (st : JobStatus)
    (failed : Redis.FailedJob) (i : String) :
    let b' := failedBooks { b with space := (b.space.completeFailedJob k.jobId n jobIds).2 } k.jobId st
      failed
    b'.space.jobStatus i ≠ none → b'.ledger.job i ≠ none := by
  intro b' hi
  have hledger : i = k.jobId ∨ b.ledger.job i ≠ none → b'.ledger.job i ≠ none := by
    intro hrow
    have hjob : ((b.ledger.setJob k.jobId st).setJobs failed.canceledJobIds .aborted).job i ≠ none := by
      rw [Ledger.setJobs_job, Ledger.setJob_job]
      split
      · nofun
      · split
        · nofun
        · rename_i hne
          exact hrow.resolve_left hne
    change (if failed.workflowFailed then _ else _ : Ledger).job i ≠ none
    split <;> exact hjob
  refine hledger ?_
  by_contra hnone
  obtain ⟨hne, hrow⟩ := not_or.mp hnone
  have hold : b.space.jobStatus i = none := by
    by_contra hst
    exact hrow (hb.rows i hst)
  have hscript : (b.space.completeFailedJob k.jobId n jobIds).2.jobStatus i = none := by
    by_cases hrun : b.space.status = some .running
    · have hfailed : FailedRunning k.jobId jobIds b.space _ _ :=
        completeFailedJob_running n hrun
      rw [hfailed.jobStatus i hne, hold]
      simp
    · have hfailed : FailedOther k.jobId b.space
          (b.space.completeFailedJob k.jobId n jobIds).1
          (b.space.completeFailedJob k.jobId n jobIds).2 :=
        completeFailedJob_other n hrun
      rw [hfailed.jobStatus i, if_neg hne, hold]
  refine hi ?_
  change (if st = .aborted then _ else _ : WorkflowKeyspace).jobStatus i = none
  split
  · rw [setJobStatus_jobStatus, if_neg hne]
    exact hscript
  · exact hscript

/-- What the failure script answers about a job, given the ids that SQLite lists. -/
def failureAnswer (b : Books) (j : String) (n : Int) (jobIds : List String) : Redis.FailedJob :=
  ⟨(b.space.completeFailedJob j n jobIds).1.canceled.map Prod.fst,
    (b.space.completeFailedJob j n jobIds).1.workflowFailed,
    (b.space.completeFailedJob j n jobIds).1.workflowCompleted⟩

/-- The books after `handle_job_failed` for a job that is not retried, up to the cleanup. -/
def finalBooks (b : Books) (j : String) (st : JobStatus) (n : Int) (jobIds : List String) : Books :=
  failedBooks { b with space := (b.space.completeFailedJob j n jobIds).2 } j st
    (failureAnswer b j n jobIds)

theorem posts_failJob_books (hworkflow : b.ledger.workflow ≠ none)
    (hrows : ∀ j, b.space.jobStatus j ≠ none → b.ledger.job j ≠ none)
    (hself : b.ledger.job k.jobId ≠ none) {st : JobStatus} (hst : st = .failed ∨ st = .aborted)
    (n : Int) :
    Posts k.identity (failJob k st n) b (fun _ b' => ∃ jobIds,
      (∀ j, b.space.jobStatus j ≠ none → j ∈ jobIds) ∧
      if (failureAnswer b k.jobId n jobIds).workflowCompleted && b.active then
        Cleared (finalBooks b k.jobId st n jobIds) b'
      else b' = finalBooks b k.jobId st n jobIds) := by
  refine Posts.bind posts_getAllJobsForWorkflow (fun r b₁ h₁ => ?_)
  obtain ⟨rfl, rows, rfl, hlists⟩ := h₁
  refine Posts.bind (posts_completeFailedJob n _) (fun r b₂ h₂ => ?_)
  obtain ⟨rfl, rfl⟩ := h₂
  have hcanceled : ∀ j ∈ (b₁.space.completeFailedJob k.jobId n
      (rows.map (fun r => r.key.jobId))).1.canceled.map Prod.fst, b₁.ledger.job j ≠ none := by
    intro j hj
    obtain ⟨-, -, -, st', hst', -⟩ := completeFailedJob_canceled hj
    exact hrows j (fun hnone => by cases hst'.symm.trans hnone)
  refine Posts.mono (posts_persistJobFailed hst _ hself hworkflow hcanceled) (fun _ b' h' => ?_)
  exact ⟨_, fun j hj => (hlists.mem j).mpr (hrows j hj), h'⟩

/-- `handle_job_failed` for a job that is not retried, if the books agree after its writes or its job
was the last one. -/
theorem posts_failJob (hb : Attended b) (hjob : b.space.jobStatus k.jobId ≠ none) {st : JobStatus}
    (hst : st = .failed ∨ st = .aborted) (n : Int)
    (hmirrors : ∀ jobIds, (∀ j, b.space.jobStatus j ≠ none → j ∈ jobIds) →
      (b.space.completeFailedJob k.jobId n jobIds).1.workflowCompleted = false →
      Mirrors (fun _ => False) (finalBooks b k.jobId st n jobIds)) :
    Posts k.identity (failJob k st n) b (fun _ b' => Mirrors (fun _ => False) b') := by
  refine Posts.mono (posts_failJob_books hb.workflow hb.rows (hb.rows _ hjob) hst n)
    (fun _ b' h => ?_)
  obtain ⟨jobIds, hjobIds, hb'⟩ := h
  split at hb'
  · exact hb'.mirrors (rows_failedBooks hb n _ st _)
  · rename_i hopen
    rw [hb.active, Bool.and_true] at hopen
    rw [hb']
    exact hmirrors jobIds hjobIds ((Bool.not_eq_true _).mp hopen)

/-- A handler that fails a job brings SQLite back in step with Redis. -/
theorem Mirrors.failJob (h : Mirrors (· = k.jobId) b) (hb : Attended b)
    (hjob : b.space.jobStatus k.jobId ≠ none) {st : JobStatus}
    (hst : (st = .failed ∧ b.space.status = some .running) ∨
      ((st = .failed ∨ st = .aborted) ∧ b.space.status = some .failed)) (n : Int) :
    Posts k.identity (failJob k st n) b (fun _ b' => Mirrors (fun _ => False) b') := by
  refine posts_failJob hb hjob (hst.elim (fun h => .inl h.1) And.left) n (fun jobIds hjobIds _ => ?_)
  rcases hst with ⟨rfl, hwf⟩ | ⟨hst, hwf⟩
  · have hfailed : FailedRunning k.jobId jobIds b.space _ _ :=
      completeFailedJob_running n hwf
    rw [finalBooks, failureAnswer, (completeFailedJob_workflowFailed ..).mpr hwf]
    exact h.failRunning hjobIds hfailed _
  · have hne : b.space.status ≠ some .running := fun hrun => by cases hwf.symm.trans hrun
    have hfailed : FailedOther k.jobId b.space
        (b.space.completeFailedJob k.jobId n jobIds).1
        (b.space.completeFailedJob k.jobId n jobIds).2 :=
      completeFailedJob_other n hne
    rw [finalBooks, failureAnswer, (Bool.not_eq_true _).mp (fun hrun =>
      hne ((completeFailedJob_workflowFailed ..).mp hrun))]
    exact h.failOther hwf hfailed hst _

theorem Attended.failLastJob (hb : Attended b) (hjob : b.space.jobStatus k.jobId ≠ none)
    {st : JobStatus} (hst : st = .failed ∨ st = .aborted) (hwf : b.space.status ≠ some .running)
    (hlast : b.space.counters.total > 0 ∧ b.space.counters.completed + 1 = b.space.counters.total)
    (n : Int) :
    Posts k.identity (CompletionHandler.failJob k st n) b (fun _ b' => Mirrors (fun _ => False) b') := by
  refine posts_failJob hb hjob hst n (fun jobIds _ hopen => ?_)
  have hfailed : FailedOther k.jobId b.space
      (b.space.completeFailedJob k.jobId n jobIds).1
      (b.space.completeFailedJob k.jobId n jobIds).2 :=
    completeFailedJob_other n hwf
  rw [hfailed.completed, hfailed.counters] at hopen
  exact absurd hlast (of_decide_eq_false hopen)

end Failing

theorem mem_toList_iff {i : String} {o : Option String} : i ∈ o.toList ↔ some i = o := by
  rw [Option.mem_toList, eq_comm]

section Completing

open CompletionHandler

variable {k : JobKey} {b : Books}

theorem hash_completeSuccessfulJob {now : Int} {j : String} {ks : WorkflowKeyspace} {done : Bool}
    {promoted : Option (String × Int)} {ready : List String}
    (h : (ks.completeSuccessfulJob now j).1 = .counted done promoted ready) :
    (ks.completeSuccessfulJob now j).2.hash ≠ none := by
  cases done with
  | false =>
      exact hash_ne_none (status_completeSuccessfulJob_of_open h)
  | true =>
      obtain ⟨-, -, -, -, hcases⟩ := completeSuccessfulJob_counted h
      rcases hcases with ⟨-, -, -, hks⟩ | ⟨-, hopen, -⟩
      · rw [hks]
        exact hash_ne_none (setStatus_status _ .completed)
      · cases hopen

/-- So does a handler that counts a completion. -/
theorem Mirrors.persistJobCompleted (h : Mirrors (· = k.jobId) b) (hb : Attended b)
    (hnodup : (b.space.successors k.jobId).Nodup) {now : Int} {done : Bool}
    {promoted : Option (String × Int)} {ready : List String}
    (hcounted : (b.space.completeSuccessfulJob now k.jobId).1 = .counted done promoted ready) :
    Posts k.identity (persistJobCompleted k ⟨done, promoted.map Prod.fst,
        ready.filter (fun j => decide (some j ≠ promoted.map Prod.fst))⟩)
      { b with space := (b.space.completeSuccessfulJob now k.jobId).2 }
      (fun r b' => r = true ∧ Mirrors (fun _ => False) b') := by
  obtain ⟨hwf, hjob, -⟩ := completeSuccessfulJob_counted hcounted
  have hstatus := jobStatus_completeSuccessfulJob hcounted hnodup
  have hrow : ∀ i, i ∈ b.space.waitingReady.members ∨ i ∈ ready → b.ledger.job i ≠ none := by
    rintro i (hi | hi)
    · exact hb.rows i (fun hnone => by cases ((hb.waiting i).mp hi).symm.trans hnone)
    · have hpending := (ready_completeSuccessfulJob hcounted hnodup hi).2
      exact hb.rows i (fun hnone => by cases hpending.symm.trans hnone)
  have hpromoted : ∀ i, some i = promoted.map Prod.fst → b.ledger.job i ≠ none := fun i hi =>
    hrow i (promoted_completeSuccessfulJob hcounted hnodup hi)
  have hrows : ∀ j ∈ (promoted.map Prod.fst).toList ++
      ready.filter (fun j => decide (some j ≠ promoted.map Prod.fst)), b.ledger.job j ≠ none := by
    intro j hj
    rcases List.mem_append.mp hj with hj | hj
    · exact hpromoted j (mem_toList_iff.mp hj)
    · exact hrow j (.inr (List.mem_of_mem_filter hj))
  have hledger : ∀ i, (completedBooks { b with space := (b.space.completeSuccessfulJob now k.jobId).2 }
      k.jobId ⟨done, promoted.map Prod.fst,
        ready.filter (fun j => decide (some j ≠ promoted.map Prod.fst))⟩).ledger.job i =
      if some i = promoted.map Prod.fst then some .queued
      else if i ∈ ready then some .ready else if i = k.jobId then some .completed
      else b.ledger.job i := by
    intro i
    have hset : ((if done then (b.ledger.setJob k.jobId .completed).setWorkflow .completed
        else b.ledger.setJob k.jobId .completed)).job i =
          if i = k.jobId then some .completed else b.ledger.job i := by
      cases done <;> exact Ledger.setJob_job ..
    refine (Ledger.setReady_job ..).trans ?_
    rw [hset]
    by_cases hi : some i = promoted.map Prod.fst
    · rw [if_pos (mem_toList_iff.mpr hi), if_pos hi]
    · rw [if_neg (fun hmem => hi (mem_toList_iff.mp hmem)), if_neg hi]
      simp only [List.mem_filter, decide_eq_true hi, and_true]
  refine Posts.mono (posts_persistJobCompleted _ (hb.rows _ hjob) hb.workflow hrows hb.active
    (hash_completeSuccessfulJob hcounted)) (fun r b' h' => ⟨h'.1, ?_⟩)
  have hpost := h'.2
  split at hpost
  · refine hpost.mirrors (fun i hi => ?_)
    rw [hledger i]
    change (b.space.completeSuccessfulJob now k.jobId).2.jobStatus i ≠ none at hi
    rw [hstatus i] at hi
    by_cases hp : some i = promoted.map Prod.fst
    · rw [if_pos hp]
      nofun
    · by_cases hr : i ∈ ready
      · rw [if_neg hp, if_pos hr]
        nofun
      · rw [if_neg hp, if_neg hr] at hi ⊢
        split at hi
        · rename_i hj
          rw [if_pos hj]
          nofun
        · rename_i hj
          rw [if_neg hj]
          exact hb.rows i hi
  · rename_i hdone
    have hopen : done = false := (Bool.not_eq_true _).mp hdone
    subst hopen
    have hrunning := status_completeSuccessfulJob_of_open hcounted
    rw [hpost]
    refine h.follow (fun i => ?_) rfl (fun ws hws => ?_) (fun hfail => ?_)
    · by_cases hp : some i = promoted.map Prod.fst
      · exact .set ((hstatus i).trans (if_pos hp)) ((hledger i).trans (if_pos hp))
      · have hspace := (hstatus i).trans (if_neg hp)
        have hbook := (hledger i).trans (if_neg hp)
        by_cases hr : i ∈ ready
        · have hne := (ready_completeSuccessfulJob hcounted hnodup hr).1
          exact .set (hspace.trans ((if_neg hne).trans (if_pos hr))) (hbook.trans (if_pos hr))
        · by_cases hj : i = k.jobId
          · exact .set (hspace.trans (if_pos hj)) (hbook.trans ((if_neg hr).trans (if_pos hj)))
          · exact .kept (hspace.trans ((if_neg hj).trans (if_neg hr)))
              (hbook.trans ((if_neg hr).trans (if_neg hj))) (fun heq => hj heq)
    · cases hrunning.symm.trans hws
      exact h.workflow .running hwf
    · cases hrunning.symm.trans hfail

end Completing

section Retrying

open CompletionHandler RetryHandler

variable {k : JobKey} {b : Books}

/-- So does a handler that puts the job off. -/
theorem Mirrors.handleJobRetry (h : Mirrors (· = k.jobId) b) (hb : Attended b)
    (hjob : b.space.jobStatus k.jobId = some .running) (hwf : b.space.status = some .running)
    (n delay : Int) : Posts k.identity (handleJobRetry k n delay) b
      (fun _ b' => Mirrors (fun _ => False) b') := by
  refine Posts.bind posts_readClock (fun clock b₀ h₀ => ?_)
  subst h₀
  refine Posts.bind (posts_scheduleJobRetry n _) (fun r b₁ h₁ => ?_)
  obtain ⟨rfl, rfl⟩ := h₁
  have hspace : ∀ i, (b₀.space.scheduleJobRetry k.jobId n).2.jobStatus i =
      if some i = (b₀.space.scheduleJobRetry k.jobId n).1.map Prod.fst then some .queued
      else if i = k.jobId then some .retryDelay else b₀.space.jobStatus i := by
    intro i
    rcases scheduleJobRetry_cases k.jobId n b₀.space with ⟨heq, -⟩ | ⟨-, -, heq⟩
    · rw [heq]
      exact jobStatus_delayJob ..
    · rw [heq, jobStatus_promoteWaiting, jobStatus_delayJob]
  have hready : ∀ i, some i = (b₀.space.scheduleJobRetry k.jobId n).1.map Prod.fst →
      b₀.space.jobStatus i = some .ready := by
    intro i hi
    rcases scheduleJobRetry_cases k.jobId n b₀.space with ⟨heq, -⟩ | ⟨-, -, heq⟩
    · rw [heq] at hi
      cases hi
    · rw [heq] at hi
      have hmem : i ∈ (b₀.space.delayJob k.jobId n).waitingReady.members :=
        mem_waiting_of_promoteWaiting hi
      exact (hb.waiting i).mp hmem
  have hstatus : (b₀.space.scheduleJobRetry k.jobId n).2.status = some .running :=
    (status_scheduleJobRetry ..).trans hwf
  generalize b₀.space.scheduleJobRetry k.jobId n = p at hspace hready hstatus
  have hself : b₀.ledger.job k.jobId ≠ none :=
    hb.rows _ (fun hnone => by cases hjob.symm.trans hnone)
  refine Posts.andThen (posts_updateJobStatus (by nofun) (by exact hself)) ?_
  rintro _ rfl
  have hrows : ∀ j ∈ (p.1.map Prod.fst).toList ++ [],
      (b₀.ledger.setJob k.jobId .retryDelay).job j ≠ none := by
    intro j hj
    rw [List.append_nil, mem_toList_iff] at hj
    exact Ledger.setJob_job_ne_none _ (hb.rows j (fun hnone => by
      cases (hready j hj).symm.trans hnone)) _
  have hfinal : Mirrors (fun _ => False) { b₀ with
      space := p.2
      ledger := (b₀.ledger.setJob k.jobId .retryDelay).setReady (p.1.map Prod.fst).toList [] } := by
    refine h.follow (fun i => ?_) rfl (fun ws hws => ?_) (fun hfail => ?_)
    · by_cases hpromoted : some i = p.1.map Prod.fst
      · exact .set ((hspace i).trans (if_pos hpromoted)) (if_pos (mem_toList_iff.mpr hpromoted))
      · have hledger : ((b₀.ledger.setJob k.jobId .retryDelay).setReady
            (p.1.map Prod.fst).toList []).job i =
              if i = k.jobId then some .retryDelay else b₀.ledger.job i := by
          rw [Ledger.setReady_job, if_neg (fun hi => hpromoted (mem_toList_iff.mp hi)),
            if_neg List.not_mem_nil, Ledger.setJob_job]
        by_cases hi : i = k.jobId
        · exact .set ((hspace i).trans ((if_neg hpromoted).trans (if_pos hi)))
            (hledger.trans (if_pos hi))
        · exact .kept ((hspace i).trans ((if_neg hpromoted).trans (if_neg hi)))
            (hledger.trans (if_neg hi)) (fun heq => hi heq)
    · cases hstatus.symm.trans hws
      exact h.workflow .running hwf
    · cases hstatus.symm.trans hfail
  cases hp : p.1.map Prod.fst with
  | none =>
      rw [hp, Option.toList_none, Ledger.setReady_nil] at hfinal
      exact posts_pure hfinal
  | some i =>
      rw [hp] at hfinal hrows
      refine Posts.mono (posts_updateReadyJobs (by exact hrows)) (fun _ b' hb' => ?_)
      rw [hb'.2]
      exact hfinal

/-- The retry handler leaves SQLite in step with Redis. -/
theorem Mirrors.processRetryJob (h : Mirrors (fun _ => False) b) (hb : Attended b)
    (hjob : b.space.jobStatus k.jobId = some .retryDelay) (hwf : b.space.status = some .running) :
    Posts k.identity (processRetryJob k) b (fun _ b' => Mirrors (fun _ => False) b') := by
  refine Posts.bind posts_promoteRetryJob (fun r b₁ h₁ => ?_)
  obtain ⟨rfl, rfl⟩ := h₁
  have hself : b.ledger.job k.jobId ≠ none :=
    hb.rows _ (fun hnone => by cases hjob.symm.trans hnone)
  have hwait : ∀ i, i ∈ (b.space.waitAgain k.jobId).waitingReady.members →
      i = k.jobId ∨ b.space.jobStatus i = some .ready := by
    intro i hi
    rcases (SortedSet.mem_members_add ..).mp hi with hi | hi
    · exact .inl hi
    · exact .inr ((hb.waiting i).mp hi)
  -- the job that the script promotes is QUEUED, and the retried job READY if it is another one
  have hspace : (∀ i, (b.space.promoteRetryJob k.jobId).2.jobStatus i =
      if some i = (b.space.promoteRetryJob k.jobId).1.map Prod.fst then some .queued
      else if i = k.jobId then some .ready else b.space.jobStatus i) ∧
      (∀ i, some i = (b.space.promoteRetryJob k.jobId).1.map Prod.fst →
        i = k.jobId ∨ b.space.jobStatus i = some .ready) := by
    have hpromoted := promoteRetryJob_promoted k.jobId b.space
    generalize b.space.promoteRetryJob k.jobId = p at hpromoted
    obtain ⟨promoted, ks⟩ := p
    dsimp only at hpromoted ⊢
    have hready := fun i => jobStatus_waitAgain k.jobId i b.space
    cases hpromoted with
    | missing hnone =>
        rcases hnone with hnone | hnone
        · cases hwf.symm.trans hnone
        · cases hjob.symm.trans hnone
    | stopped hclosed => exact absurd hwf hclosed
    | refused _ hdelay => exact absurd hjob hdelay
    | queued n =>
        refine ⟨fun i => ?_, fun i hi => .inl (Option.some.inj hi)⟩
        refine (jobStatus_queueRetry k.jobId i b.space).trans ?_
        simp only [Option.map_some, Option.some.injEq]
        split <;> rfl
    | swapped =>
        refine ⟨fun i => ?_, fun i hi => ?_⟩
        · rw [jobStatus_promoteWaiting, hready]
        · exact hwait i (mem_waiting_of_promoteWaiting hi)
    | waiting => exact ⟨hready, nofun⟩
  have hstatus : (b.space.promoteRetryJob k.jobId).2.status = some .running :=
    (status_promoteRetryJob ..).trans hwf
  generalize b.space.promoteRetryJob k.jobId = p at hspace hstatus
  obtain ⟨hspace, hready⟩ := hspace
  have hrows : ∀ j ∈ (p.1.map Prod.fst).toList ++
      (if p.1.map Prod.fst = some k.jobId then [] else [k.jobId]), b.ledger.job j ≠ none := by
    intro j hj
    rcases List.mem_append.mp hj with hj | hj
    · rcases hready j (mem_toList_iff.mp hj) with rfl | hst
      · exact hself
      · exact hb.rows j (fun hnone => by cases hst.symm.trans hnone)
    · split at hj
      · cases hj
      · cases List.mem_singleton.mp hj
        exact hself
  refine Posts.mono (posts_updateReadyJobs (by exact hrows)) (fun _ b' hb' => ?_)
  rw [hb'.2]
  refine h.follow (fun i => ?_) rfl (fun ws hws => ?_) (fun hfail => ?_)
  · by_cases hpromoted : some i = p.1.map Prod.fst
    · exact .set ((hspace i).trans (if_pos hpromoted)) (if_pos (mem_toList_iff.mpr hpromoted))
    · have hnot : i ∉ (p.1.map Prod.fst).toList := fun hi => hpromoted (mem_toList_iff.mp hi)
      by_cases hi : i = k.jobId
      · subst hi
        refine .set ((hspace _).trans ((if_neg hpromoted).trans (if_pos rfl))) ?_
        refine (if_neg hnot).trans (if_pos ?_)
        rw [if_neg (fun heq => hpromoted heq.symm)]
        exact List.mem_singleton_self _
      · refine .kept ((hspace i).trans ((if_neg hpromoted).trans (if_neg hi))) ?_ id
        refine (if_neg hnot).trans (if_neg (fun hmem => ?_))
        split at hmem
        · cases hmem
        · exact hi (List.mem_singleton.mp hmem)
  · cases hstatus.symm.trans hws
    exact h.workflow .running hwf
  · cases hstatus.symm.trans hfail

end Retrying

section Handling

open CompletionHandler

variable {k : JobKey} {b : Books}

/-- What a handler finds that is called for a FAILED or an ABORTED job. -/
inductive Unsuccessful (b : Books) (j : String) : JobStatus → Prop where
  | failed (hjob : b.space.jobStatus j = some .running)
      (hwf : b.space.status = some .running ∨ b.space.status = some .failed) :
      Unsuccessful b j .failed
  | aborted (hjob : b.space.jobStatus j ≠ none) (hwf : b.space.status = some .failed) :
      Unsuccessful b j .aborted

theorem Mirrors.handleJobFailed (h : Mirrors (· = k.jobId) b) (hb : Attended b) {st : JobStatus}
    (hst : Unsuccessful b k.jobId st) (runtime : JobRuntimeData) {workflow : WorkflowHash}
    (hworkflow : workflow.status = b.space.status) :
    Posts k.identity (handleJobFailed k st runtime workflow) b
      (fun _ b' => Mirrors (fun _ => False) b') := by
  unfold CompletionHandler.handleJobFailed
  dsimp only
  cases hst with
  | failed hjob hwf =>
      have hknown : b.space.jobStatus k.jobId ≠ none := fun hnone => by cases hjob.symm.trans hnone
      have hfail : ∀ n, Posts k.identity (CompletionHandler.failJob k .failed n) b
          (fun _ b' => Mirrors (fun _ => False) b') := fun n =>
        h.failJob hb hknown (hwf.imp (fun hrun => ⟨rfl, hrun⟩) (fun hfail => ⟨.inl rfl, hfail⟩)) n
      split
      · rename_i hretry
        refine Posts.bind posts_readClock (fun clock b₁ h₁ => ?_)
        subst h₁
        split
        · exact hfail _
        · exact h.handleJobRetry hb hjob (hworkflow.symm.trans hretry.2.1) _ _
      · exact hfail _
  | aborted hjob hwf =>
      rw [if_neg (fun hretry => by cases hretry.1)]
      exact h.failJob hb hjob (.inr ⟨.inr rfl, hwf⟩) _

/-- The branch of `process_completed_jobs` for an event that says FAILED or ABORTED. -/
theorem Mirrors.processUncompleted (h : Mirrors (· = k.jobId) b) (hb : Attended b) {st : JobStatus}
    (hst : Unsuccessful b k.jobId st) (code : StatusCode) {workflow : WorkflowHash}
    (hworkflow : workflow.status = b.space.status) :
    Posts k.identity (processUncompleted k st code workflow) b
      (fun _ b' => Mirrors (fun _ => False) b') := by
  refine Posts.bind posts_fetchJobRuntime (fun r b₁ h₁ => ?_)
  obtain ⟨rfl, rfl⟩ := h₁
  dsimp only
  split
  · exact h.handleJobFailed hb hst _ hworkflow
  · exact h.handleJobFailed hb hst _ hworkflow

/-- An event that says COMPLETED and is refused by the success script is not retried. -/
theorem posts_processRefused {post : Bool → Books → Prop}
    (hfetch : (b.space.fetchJobRuntime k.jobId).1 = true) (workflow : WorkflowHash)
    (hfail : ∀ n, Posts k.identity (failJob k .failed n) b post) :
    Posts k.identity (processUncompleted k .failed .internalDbFailure workflow) b post := by
  refine Posts.bind posts_fetchJobRuntime (fun r b₁ h₁ => ?_)
  obtain ⟨rfl, rfl⟩ := h₁
  dsimp only
  rw [if_pos ⟨hfetch, rfl⟩]
  unfold CompletionHandler.handleJobFailed
  dsimp only
  rw [if_neg (fun hretry => by have := hretry.2.2; omega)]
  exact hfail _

end Handling

section Starting

open WorkerThread

variable {k : JobKey} {b : Books}

/-- `update_job_status_to_running`; a job that is not started is one for the completion stream. -/
theorem Mirrors.updateJobStatusToRunning (h : Mirrors (fun _ => False) b) (hb : Attended b)
    (hjob : b.space.jobStatus k.jobId = some .pendingExecution)
    (hwf : (b.space.status = some .ready ∧ b.space.counters.started = none) ∨
      b.space.status = some .running ∨ b.space.status = some .failed) :
    Posts k.identity (updateJobStatusToRunning k) b (fun r b' =>
      Mirrors (fun j => r = false ∧ j = k.jobId) b') := by
  have hself : b.ledger.job k.jobId ≠ none :=
    hb.rows _ (fun hnone => by cases hjob.symm.trans hnone)
  refine Posts.bind posts_trySetJobToRunning (fun r b₁ h₁ => ?_)
  obtain ⟨now, rfl, rfl⟩ := h₁
  have hstarted := trySetJobToRunning_started now k.jobId b.space
  have hbooks : ∀ ks : WorkflowKeyspace, (∀ i, ks.jobStatus i =
      if i = k.jobId then some .running else b.space.jobStatus i) → ks.status = some .running →
      ∀ l : Ledger, l.workflow = some .running → (∀ i, l.job i =
        if i = k.jobId then some .running else b.ledger.job i) →
      Mirrors (fun j => true = false ∧ j = k.jobId) { b with space := ks, ledger := l } := by
    intro ks hks hstatus l hworkflow hl
    refine h.follow (fun i => ?_) rfl (fun ws hws => ?_) (fun hfail => ?_)
    · by_cases hi : i = k.jobId
      · exact .set ((hks i).trans (if_pos hi)) ((hl i).trans (if_pos hi))
      · exact .kept ((hks i).trans (if_neg hi)) ((hl i).trans (if_neg hi)) False.elim
    · cases hstatus.symm.trans hws
      exact hworkflow
    · cases hstatus.symm.trans hfail
  generalize b.space.trySetJobToRunning now k.jobId = p at hstarted
  obtain ⟨result, ks⟩ := p
  dsimp only at hstarted ⊢
  cases hstarted with
  | canceledBefore haborted => cases hjob.symm.trans haborted
  | wrongJob _ hother => exact absurd hjob hother
  | wrongTime _ hready htime =>
      rcases hwf with ⟨-, hnone⟩ | hrun | hfail
      · exact absurd hnone htime
      · cases hready.symm.trans hrun
      · cases hready.symm.trans hfail
  | first _ _ _ hcounters hsame =>
      have hstatus : ∀ i, ks.jobStatus i =
          if i = k.jobId then some .running else b.space.jobStatus i := fun i =>
        (hsame.jobStatus i).trans (jobStatus_setJob ..)
      refine Posts.andThen (posts_updateWorkflowStatus (by nofun) (by exact hb.workflow)) ?_
      rintro _ rfl
      refine Posts.mono (posts_updateJobStatus (by nofun) (by exact hself)) (fun r b' hb' => ?_)
      obtain ⟨rfl, rfl⟩ := hb'
      exact hbooks ks hstatus (congrArg Counters.status hcounters) _ rfl
        (fun i => Ledger.setJob_job ..)
  | again _ hrun =>
      have hstatus : ∀ i, (b.space.setJob k.jobId (fun h => { h with
          status := some .running, startRunTime := some now })).jobStatus i =
            if i = k.jobId then some .running else b.space.jobStatus i := fun i =>
        jobStatus_setJob ..
      refine Posts.mono (posts_updateJobStatus (by nofun) (by exact hself)) (fun r b' hb' => ?_)
      obtain ⟨rfl, rfl⟩ := hb'
      exact hbooks _ hstatus hrun _ (h.workflow .running hrun) (fun i => Ledger.setJob_job ..)
  | canceled _ _ =>
      have hstatus : ∀ i, (b.space.setJobStatus k.jobId .aborted).jobStatus i =
          if i = k.jobId then some .aborted else b.space.jobStatus i := fun i =>
        setJobStatus_jobStatus ..
      refine posts_pure ⟨fun j st hst hnot hX => ?_, h.workflow, fun hfail j st hst => ?_⟩
      · have hne : j ≠ k.jobId := fun hj => hX ⟨rfl, hj⟩
        exact h.jobs j st (((hstatus j).trans (if_neg hne)).symm.trans hst) hnot False.elim
      · change (b.space.setJobStatus k.jobId .aborted).jobStatus j = some st at hst
        rw [hstatus j] at hst
        split at hst
        · cases hst
          rfl
        · exact h.settled hfail j st hst
  | wrongWorkflow _ hready hrun hfail =>
      rcases hwf with ⟨hwf, -⟩ | hwf | hwf
      · exact absurd hwf hready
      · exact absurd hwf hrun
      · exact absurd hwf hfail

end Starting

end FlowPilot
