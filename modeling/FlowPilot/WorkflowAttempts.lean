import FlowPilot.StoreRecords
import FlowPilot.WorkflowInvariant

/-! What a step of a workflow that is READY or RUNNING does to the attempts of one of its jobs. A job
is started only from PENDING_EXECUTION; it comes back to a status before that only by way of
RETRY_DELAY, and the retry count in its hash changes when it is put off and at no other time before
it ends. -/

namespace FlowPilot

open WorkflowKeyspace WorkflowView

/-- The statuses a job has between its admission, or the end of a retry delay, and its start. -/
def JobStatus.isBeforeStart : JobStatus → Bool
  | pending | ready | queued | pendingExecution => true
  | _ => false

theorem JobStatus.isTerminal_of_isBeforeStart {st : JobStatus} (h : st.isBeforeStart = true) :
    st.isTerminal = false := by
  cases st <;> first | rfl | cases h

namespace WorkflowKeyspace

/-- The retry count of a job and its limit, as its hash has them. -/
def attempts (ks : WorkflowKeyspace) (j : String) : Option Int × Option Int :=
  (((ks.jobs j).getD {}).currentRetryCount, ((ks.jobs j).getD {}).maxRetries)

variable {ks ks' : WorkflowKeyspace} {i j : String} {n : Int}

/-- The hash of one job keeps the retry count and the limit. -/
def SameAttempts (i : String) (j : String) (h h' : JobHash) : Prop :=
  j = i → h'.currentRetryCount = h.currentRetryCount ∧ h'.maxRetries = h.maxRetries

theorem tolerant_sameAttempts (i : String) : Tolerant (SameAttempts i) where
  refl := fun _ _ _ => ⟨rfl, rfl⟩
  trans := fun h h' hj => ⟨(h' hj).1.trans (h hj).1, (h' hj).2.trans (h hj).2⟩
  routine := fun _ _ _ hkept hcount _ => ⟨hcount, hkept.retries⟩

theorem Relates.attempts (h : ks.Relates (SameAttempts i) ks') : ks'.attempts i = ks.attempts i := by
  obtain ⟨hcount, hmax⟩ := (h i).2 rfl
  rw [WorkflowKeyspace.attempts, WorkflowKeyspace.attempts, hcount, hmax]

theorem attempts_setJobStatus (ks : WorkflowKeyspace) (j : String) (st : JobStatus) (i : String) :
    (ks.setJobStatus j st).attempts i = ks.attempts i :=
  ((Relates.refl (tolerant_sameAttempts i) ks).setJobStatus (tolerant_sameAttempts i) j st).attempts

theorem attempts_promoteWaiting (ks : WorkflowKeyspace) (i : String) :
    ks.promoteWaiting.2.attempts i = ks.attempts i :=
  ((Relates.refl (tolerant_sameAttempts i) ks).promoteWaiting (tolerant_sameAttempts i)).attempts

theorem attempts_trySetJobToRunning (ks : WorkflowKeyspace) (now : Int) (j i : String) :
    (ks.trySetJobToRunning now j).2.attempts i = ks.attempts i :=
  ((Relates.refl (tolerant_sameAttempts i) ks).trySetJobToRunning (tolerant_sameAttempts i) now
    j).attempts

theorem attempts_completeSuccessfulJob (ks : WorkflowKeyspace) (now : Int) (j i : String) :
    (ks.completeSuccessfulJob now j).2.attempts i = ks.attempts i :=
  ((Relates.refl (tolerant_sameAttempts i) ks).completeSuccessfulJob (tolerant_sameAttempts i) now
    j).attempts

theorem attempts_promoteRetryJob (ks : WorkflowKeyspace) (j i : String) :
    (ks.promoteRetryJob j).2.attempts i = ks.attempts i :=
  ((Relates.refl (tolerant_sameAttempts i) ks).promoteRetryJob (tolerant_sameAttempts i) j).attempts

theorem attempts_completeFailedJob (hij : i ≠ j) (ks : WorkflowKeyspace) (n : Int)
    (js : List String) : (ks.completeFailedJob j n js).2.attempts i = ks.attempts i :=
  ((Relates.refl (tolerant_sameAttempts i) ks).completeFailedJob (tolerant_sameAttempts i)
    (fun _ hji => absurd hji.symm hij) js).attempts

theorem attempts_scheduleJobRetry (hij : i ≠ j) (ks : WorkflowKeyspace) (n : Int) :
    (ks.scheduleJobRetry j n).2.attempts i = ks.attempts i :=
  ((Relates.refl (tolerant_sameAttempts i) ks).scheduleJobRetry (tolerant_sameAttempts i)
    (fun _ hji => absurd hji.symm hij)).attempts

theorem attempts_scheduleJobRetry_self (ks : WorkflowKeyspace) (j : String) (n : Int) :
    (ks.scheduleJobRetry j n).2.attempts j = (some n, (ks.attempts j).2) := by
  have hdelayed : (ks.delayJob j n).attempts j = (some n, (ks.attempts j).2) := by
    have hjobs := setJob_jobs_self ks (fun h => { h with
      status := some .retryDelay, currentRetryCount := some n, startRunTime := none }) j
    rw [attempts, show (ks.delayJob j n).jobs j = _ from hjobs]
    rfl
  rcases scheduleJobRetry_cases j n ks with ⟨heq, -⟩ | ⟨-, -, heq⟩
  · rw [heq]
    exact hdelayed
  · rw [heq, attempts_promoteWaiting]
    exact hdelayed

theorem attempts_of_fetchJobRuntime {d : JobRuntimeData} (h : ks.fetchJobRuntime j = (true, d)) :
    ks.attempts j = (some d.currentRetryCount, some d.maxRetries) := by
  rw [fetchJobRuntime] at h
  cases hjob : ks.jobs j with
  | none =>
      rw [hjob] at h
      cases h
  | some hash =>
      rw [hjob] at h
      rw [attempts, hjob]
      obtain ⟨st, deps, prio, timeout, limit, count, delay, policy, size, start⟩ := hash
      cases st <;> cases deps <;> cases prio <;> cases timeout <;> cases limit <;> cases count <;>
        cases delay <;> cases policy <;> cases h
      rfl

end WorkflowKeyspace

/-- The status of a job after a step that leaves its attempts alone. -/
inductive Advances (v : WorkflowView) (i : String) : Option JobStatus → Prop where
  | same : Advances v i (v.jobStatus i)
  /-- the job comes closer to its start -/
  | ahead {st st' : JobStatus} (hst : v.jobStatus i = some st) (hbefore : st.isBeforeStart = true)
      (hbefore' : st'.isBeforeStart = true) : Advances v i (some st')
  /-- the retry handler brings the job back -/
  | due {st' : JobStatus} (hs : .retryHeld ∈ v.stages i) (hst : v.jobStatus i = some .retryDelay)
      (hbefore' : st'.isBeforeStart = true) : Advances v i (some st')
  | started (hs : .dispatched ∈ v.stages i) (hst : v.jobStatus i = some .pendingExecution) :
      Advances v i (some .running)
  | ended {st' : JobStatus} (hended : st'.isTerminal = true) : Advances v i (some st')

/-- What a step does to the attempts of a job. -/
inductive Tracks (x : Served) (v : WorkflowView) (i : String) (ks : WorkflowKeyspace) : Prop where
  | kept (hsame : ks.attempts i = v.space.attempts i) (h : Advances v i (ks.jobStatus i)) :
      Tracks x v i ks
  | failed (hst : ks.jobStatus i = some .failed) : Tracks x v i ks
  | retried (hx : x.label = .retry i) (hst : v.jobStatus i = some .running)
      (hst' : ks.jobStatus i = some .retryDelay) : Tracks x v i ks

section Steps

variable {p : Plan} {x : Served} {v v' : WorkflowView} {l : List String} {i j : String} {s : Stage}
  {rest : Multiset Stage} {ks : WorkflowKeyspace} {now n : Int}

theorem Advances.setJob {st' : JobStatus} (hself : Advances v j (some st'))
    (hstatus : ∀ i, ks.jobStatus i = if i = j then some st' else v.jobStatus i) (i : String) :
    Advances v i (ks.jobStatus i) := by
  rw [hstatus i]
  split
  · rename_i hij
    exact hij ▸ hself
  · exact .same

theorem Advances.promoteWaiting (h : Advances v i (ks.jobStatus i))
    (hwaiting : i ∈ ks.waitingReady.members → Advances v i (some .queued)) :
    Advances v i (ks.promoteWaiting.2.jobStatus i) := by
  refine promoteWaiting_rule (P := fun ks' => Advances v i (ks'.jobStatus i)) h (fun k hk => ?_)
  rw [jobStatus_queueWaiting]
  split
  · rename_i hik
    exact hwaiting (hik ▸ hk)
  · exact h

theorem Advances.finish {ready : List String}
    (hfinished : Finished j v.space ready ks) (i : String) :
    Advances v i (ks.jobStatus i) := by
  by_cases hij : i = j
  · rw [hij, hfinished.self]
    exact .ended rfl
  · rw [hfinished.jobStatus i hij]
    split
    · rename_i hlast
      exact .ahead hlast.2.1 rfl rfl
    · exact .same

theorem Strong.advances_waiting (h : Strong p v) (hi : i ∈ v.space.waitingReady.members) :
    Advances v i (some .queued) :=
  .ahead ((h.coherent.waiting i).mp hi) rfl rfl

theorem tracks_start (hs : v.stages j = .dispatched ::ₘ rest) (i : String) :
    Tracks x v i (v.space.trySetJobToRunning now j).2 := by
  refine .kept (v.space.attempts_trySetJobToRunning now j i) ?_
  have hmem : .dispatched ∈ v.stages j := hs ▸ Multiset.mem_cons_self ..
  have hstarted := trySetJobToRunning_started now j v.space
  generalize v.space.trySetJobToRunning now j = r at hstarted
  obtain ⟨result, ks⟩ := r
  dsimp only at hstarted ⊢
  have haborted := Advances.setJob (v := v) (.ended rfl)
    (v.space.setJobStatus_jobStatus j · .aborted) i
  have hrunning : v.jobStatus j = some .pendingExecution →
      Advances v i ((v.space.setJob j (fun h =>
        { h with status := some .running, startRunTime := some now })).jobStatus i) := fun hst =>
    .setJob (.started hmem hst) (fun i => jobStatus_setJob ..) i
  cases hstarted with
  | canceledBefore | wrongJob => exact .same
  | wrongTime | wrongWorkflow => exact haborted
  | first hst _ _ _ hsame =>
      rw [hsame.jobStatus i]
      exact hrunning hst
  | again hst => exact hrunning hst
  | canceled => exact haborted

theorem Strong.tracks_success (h : Strong p v) {done : Bool} {promoted : Option (String × Int)}
    {ready : List String} (hs : v.stages j = .reported .completed ::ₘ rest)
    (hcounted : (v.space.completeSuccessfulJob now j).1 = .counted done promoted ready)
    (i : String) : Tracks x v i (v.space.completeSuccessfulJob now j).2 := by
  refine .kept (v.space.attempts_completeSuccessfulJob now j i) ?_
  obtain ⟨-, hfinished⟩ := h.finished hs
  have hfinish := Advances.finish hfinished i
  refine completeSuccessfulJob_rule (P := fun ks => Advances v i (ks.jobStatus i)) hcounted hfinish
    hfinish (.promoteWaiting hfinish (fun hmem => ?_))
  rcases (hfinished.waiting i).mp hmem with hmem | ⟨-, -, hlast⟩
  · exact h.advances_waiting hmem
  · exact .ahead hlast.1 rfl rfl

theorem Strong.tracks_fail (h : Strong p v) {js : List String} (i : String) :
    Tracks x v i (v.space.completeFailedJob j n js).2 := by
  rcases h.unclosed with hready | hrun
  · have hfailed : FailedOther j v.space (v.space.completeFailedJob j n js).1 _ :=
      completeFailedJob_other n (fun hr => by cases hready.symm.trans hr)
    have hst := hfailed.jobStatus i
    split at hst
    · exact .failed hst
    · rename_i hij
      refine .kept (attempts_completeFailedJob hij ..) ?_
      rw [hst]
      exact .same
  · have hfailed : FailedRunning j js v.space _ _ :=
      completeFailedJob_running n hrun
    by_cases hij : i = j
    · exact .failed (hij ▸ hfailed.self)
    · refine .kept (attempts_completeFailedJob hij ..) ?_
      rw [hfailed.jobStatus i hij]
      split
      · exact .ended rfl
      · exact .same

theorem Strong.tracks_retry (h : Strong p v) {st : JobStatus} (hx : x.label = .retry j)
    (hst : st ≠ .aborted) (hs : v.stages j = .reported st ::ₘ rest) (i : String) :
    Tracks x v i (v.space.scheduleJobRetry j n).2 := by
  obtain ⟨-, st', hjob, hfits⟩ := h.tokens.head hs
  have hrunning : st' = .running := by
    cases st <;> cases st' <;> simp_all [Stage.fits]
  subst hrunning
  by_cases hij : i = j
  · subst hij
    refine .retried hx hjob ?_
    have hdelayed : (v.space.delayJob i n).jobStatus i = some .retryDelay :=
      (jobStatus_delayJob i i n v.space).trans (if_pos rfl)
    rcases scheduleJobRetry_cases i n v.space with ⟨heq, -⟩ | ⟨-, -, heq⟩
    · rw [heq]
      exact hdelayed
    · -- a running job waits for no slot, so that the script promotes another one
      have hwait : i ∉ (v.space.delayJob i n).waitingReady.members := fun hmem => by
        cases hjob.symm.trans ((h.coherent.waiting i).mp hmem)
      rw [heq, jobStatus_promoteWaiting_of_not_mem hwait]
      exact hdelayed
  · refine .kept (attempts_scheduleJobRetry hij ..) ?_
    have hother : Advances v i ((v.space.delayJob j n).jobStatus i) := by
      rw [jobStatus_delayJob, if_neg hij]
      exact .same
    rcases scheduleJobRetry_cases j n v.space with ⟨heq, -⟩ | ⟨-, -, heq⟩
    · rw [heq]
      exact hother
    · rw [heq]
      exact hother.promoteWaiting h.advances_waiting

theorem Strong.tracks_promote (h : Strong p v) (hs : v.stages j = .retryHeld ::ₘ rest)
    (i : String) : Tracks x v i (v.space.promoteRetryJob j).2 := by
  refine .kept (v.space.attempts_promoteRetryJob j i) ?_
  obtain ⟨-, st, hst, hfits⟩ := h.tokens.head hs
  cases st <;> cases hfits
  have hmem : .retryHeld ∈ v.stages j := hs ▸ Multiset.mem_cons_self ..
  have hwait := Advances.setJob (v := v) (.due hmem hst rfl)
    (v.space.setJobStatus_jobStatus j · .ready) i
  have hpromoted := promoteRetryJob_promoted j v.space
  generalize v.space.promoteRetryJob j = r at hpromoted
  obtain ⟨q, ks⟩ := r
  dsimp only at hpromoted ⊢
  cases hpromoted with
  | missing | refused => exact .same
  | stopped => exact .setJob (.ended rfl) (v.space.setJobStatus_jobStatus j · .aborted) i
  | queued => exact .setJob (.due hmem hst rfl) (v.space.setJobStatus_jobStatus j · .queued) i
  | swapped =>
      refine .promoteWaiting hwait (fun hi => ?_)
      rcases (SortedSet.mem_members_add ..).mp hi with rfl | hi
      · exact .due hmem hst rfl
      · exact h.advances_waiting hi
  | waiting => exact hwait

/-- The attempts of a job change in the failure script and the retry script only. -/
theorem Strong.tracks (h : Strong p v) (hstep : WStep x v l v') (i : String) :
    Tracks x v i v'.space := by
  cases hstep with
  | shift | lose => exact .kept rfl .same
  | claim _ _ hst =>
      refine .kept (v.space.attempts_setJobStatus ..) ?_
      refine .setJob ?_ (v.space.setJobStatus_jobStatus _ · .pendingExecution) i
      rcases hst with hst | hst
      · exact .ahead hst rfl rfl
      · exact .ahead hst rfl rfl
  | start _ hs => exact tracks_start hs i
  | @expire j now rest _ _ hexpired =>
      obtain ⟨-, -, hks⟩ := completeSuccessfulJob_expired hexpired
      refine .kept (v.space.attempts_completeSuccessfulJob now j i) ?_
      change Advances v i ((v.space.completeSuccessfulJob now j).2.jobStatus i)
      rw [hks]
      exact .same
  | success _ hs hcounted =>
      rw [enqueue_space]
      exact h.tracks_success hs hcounted i
  | fail =>
      rw [dropCanceled_space]
      exact h.tracks_fail i
  | mark =>
      exact .kept (v.space.attempts_setJobStatus ..)
        (.setJob (.ended rfl) (v.space.setJobStatus_jobStatus _ · .aborted) i)
  | retry hx hst hs =>
      rw [enqueue_space, delay_space]
      exact h.tracks_retry hx hst hs i
  | promote _ hs =>
      rw [enqueue_space]
      exact h.tracks_promote hs i
  | releaseCounted hs | releaseFailed hs | deleteCounted hs =>
      cases h.closing_eq (hs ▸ Multiset.mem_cons_self ..)
  | erase hs hdel => cases hdel <;> cases h.closing_eq hs
  | deleteFailed hs => cases h.closing_eq hs

/-- A job of a workflow that is not closed is started from PENDING_EXECUTION, by a worker that got it
from a local queue. -/
theorem Strong.started (h : Strong p v) (hstep : WStep x v l v')
    (hbefore : v.jobStatus i ≠ some .running) (hafter : v'.jobStatus i = some .running) :
    .dispatched ∈ v.stages i ∧ v.jobStatus i = some .pendingExecution := by
  replace hafter : v'.space.jobStatus i = some .running := hafter
  cases h.tracks hstep i with
  | kept _ hadvances =>
      generalize v'.space.jobStatus i = st at hadvances hafter
      cases hadvances with
      | same => exact absurd hafter hbefore
      | started hs hst => exact ⟨hs, hst⟩
      | ahead _ _ hst' | due _ _ hst' | ended hst' =>
          cases hafter
          cases hst'
  | failed hst => cases hst.symm.trans hafter
  | retried _ _ hst => cases hst.symm.trans hafter

/-- Nothing is started in a closed workflow. -/
theorem Weak.not_started (h : Weak p v) (hstep : WStep x v l v')
    (hafter : v'.jobStatus i = some .running) : v.jobStatus i = some .running := by
  have hset : ∀ {ks : WorkflowKeyspace} {st : JobStatus} {j : String},
      (∀ i, ks.jobStatus i = if i = j then some st else v.jobStatus i) → st ≠ .running →
      ks.jobStatus i = some .running → v.jobStatus i = some .running := by
    intro ks st j hstatus hst hi
    rw [hstatus i] at hi
    split at hi
    · exact absurd (Option.some.inj hi) hst
    · exact hi
  cases hstep with
  | claim => exact hset (v.space.setJobStatus_jobStatus _ · .pendingExecution) (by simp) hafter
  | @start j now rest _ hs =>
      have hready : v.space.status ≠ some .ready := fun hr => by
        obtain ⟨c, hc⟩ := (h.idle hr).1 j .dispatched (hs ▸ Multiset.mem_cons_self ..)
        cases hc
      have hstarted := trySetJobToRunning_started now j v.space
      replace hafter : (v.space.trySetJobToRunning now j).2.jobStatus i = some .running := hafter
      generalize v.space.trySetJobToRunning now j = r at hstarted hafter
      obtain ⟨result, ks⟩ := r
      dsimp only at hstarted hafter
      cases hstarted with
      | canceledBefore | wrongJob => exact hafter
      | wrongTime _ hr | first _ hr => exact absurd hr hready
      | again _ hr => exact absurd hr h.closed
      | canceled | wrongWorkflow =>
          exact hset (v.space.setJobStatus_jobStatus j · .aborted) (by simp) hafter
  | expire _ _ hexpired =>
      exact absurd (completeSuccessfulJob_expired hexpired).1 h.closed
  | success _ _ hcounted =>
      exact absurd (completeSuccessfulJob_counted hcounted).1 h.closed
  | fail =>
      rw [WorkflowView.jobStatus, dropCanceled_space] at hafter
      exact hset (completeFailedJob_other _ h.closed).jobStatus (by simp) hafter
  | mark => exact hset (v.space.setJobStatus_jobStatus _ · .aborted) (by simp) hafter
  | @retry j st rest n _ _ _ =>
      rw [WorkflowView.jobStatus, enqueue_space, delay_space] at hafter
      rcases scheduleJobRetry_cases j n v.space with ⟨heq, -⟩ | ⟨hrun, -⟩
      · replace hafter : (v.space.scheduleJobRetry j n).2.jobStatus i = some .running := hafter
        rw [heq] at hafter
        exact hset (jobStatus_delayJob j · n v.space) (by simp) hafter
      · exact absurd hrun h.closed
  | @promote j rest _ hs =>
      rw [WorkflowView.jobStatus, enqueue_space] at hafter
      have hpromoted := promoteRetryJob_promoted j v.space
      replace hafter : (v.space.promoteRetryJob j).2.jobStatus i = some .running := hafter
      generalize v.space.promoteRetryJob j = r at hpromoted hafter
      obtain ⟨q, ks⟩ := r
      dsimp only at hpromoted hafter
      cases hpromoted with
      | missing => exact hafter
      | stopped => exact hset (v.space.setJobStatus_jobStatus j · .aborted) (by simp) hafter
      | refused hrun | queued _ hrun | swapped hrun | waiting hrun => exact absurd hrun h.closed
  | erase _ _ herased =>
      cases herased with
      | job k =>
          change (Function.update v.space.jobs k none i).bind JobHash.status = _ at hafter
          by_cases hik : i = k
          · rw [hik, Function.update_self] at hafter
            cases hafter
          · rw [Function.update_of_ne hik] at hafter
            exact hafter
      | _ => exact hafter
  | _ => exact hafter

end Steps

end FlowPilot
