import FlowPilot.StoreRecords
import FlowPilot.WorkflowClean
import FlowPilot.WorkflowCounting
import FlowPilot.WorkflowFresh

/-! The workflow in a run in which every call is answered. Each job that was not counted is where its
status says: without a holder while it is PENDING or READY, and otherwise with one holder, whose stage
asks for exactly this status. Nothing is left of a counted job but a stale key in the hands of a
scheduler or of the retry handler, or the handler that counted it. `TidyStep` says what a step can do
to such a workflow; it is far less than `WStep` allows. -/

namespace FlowPilot

open WorkflowKeyspace

/-- The status of a job that is not counted yet and is at the stage. No such job is at the stages that
have none. -/
def Stage.asks : Stage → Option JobStatus
  | .queued | .popped => some .queued
  | .claimed | .fetched _ | .verified | .dispatched => some .pendingExecution
  | .started | .reported .completed | .reported .failed | .listing .completed _
  | .listing .failed _ => some .running
  | .stopped | .reported .aborted | .listing .aborted _ => some .aborted
  | .retryWait | .retryHeld => some .retryDelay
  | _ => none

/-- The stages at which a counted job may be left, with the statuses it has there. -/
def Stage.leaves : Stage → JobStatus → Bool
  | .popped, st | .retryHeld, st => st == .aborted
  | .counted _ _, st => st == .completed
  | .failed _, st => st == .failed || st == .aborted
  | _, _ => false

theorem Stage.asks_eq_none_of_closing {s : Stage} (h : s.closing ≠ .no) : s.asks = none := by
  unfold closing at h
  split at h
  · rfl
  · rfl
  · rfl
  · exact absurd rfl h

theorem Stage.inert_of_leaves {s : Stage} {st : JobStatus} (h : s.leaves st = true) :
    s.inert = true ∧ st.isTerminal = true := by
  cases s <;> cases st <;> first | exact ⟨rfl, rfl⟩ | cases h

namespace WorkflowView

/-- Where a job is that was not counted. A job is stranded when the retry handler gave it up because
its workflow had failed. -/
inductive Held (v : WorkflowView) (j : String) : Prop where
  | idle (hs : v.stages j = 0) (hst : v.jobStatus j = some .pending ∨ v.jobStatus j = some .ready)
  | stranded (hs : v.stages j = 0) (hst : v.jobStatus j = some .aborted)
      (hwf : v.status = some .failed)
  | busy {s : Stage} {st : JobStatus} (hs : v.stages j = {s}) (hasks : s.asks = some st)
      (hst : v.jobStatus j = some st)

/-- What may be left of a job that was counted. -/
inductive Left (v : WorkflowView) (j : String) : Prop where
  | gone (hs : v.stages j = 0) (hdone : ∀ st, v.jobStatus j = some st → st.isTerminal = true)
  | kept {s : Stage} {st : JobStatus} (hs : v.stages j = {s}) (hleaves : s.leaves st = true)
      (hst : v.jobStatus j = some st ∨ v.jobStatus j = none)

theorem Left.done {v : WorkflowView} {j : String} (h : v.Left j) {st : JobStatus}
    (hst : v.jobStatus j = some st) : st.isTerminal = true := by
  cases h with
  | gone _ hdone => exact hdone st hst
  | kept _ hleaves hst' =>
      rcases hst' with hst' | hst'
      · cases hst'.symm.trans hst
        exact (Stage.inert_of_leaves hleaves).2
      · cases hst'.symm.trans hst

theorem Held.of_eq {v v' : WorkflowView} {j : String} (h : v.Held j)
    (hstages : v'.stages j = v.stages j) (hstatus : v'.jobStatus j = v.jobStatus j)
    (hwf : v.status = some .failed → v'.status = some .failed) : v'.Held j := by
  cases h with
  | idle hs hst => exact .idle (hstages.trans hs) (hstatus ▸ hst)
  | stranded hs hst hfailed => exact .stranded (hstages.trans hs) (hstatus.trans hst) (hwf hfailed)
  | busy hs hasks hst => exact .busy (hstages.trans hs) hasks (hstatus.trans hst)

theorem Left.of_eq {v v' : WorkflowView} {j : String} (h : v.Left j)
    (hstages : v'.stages j = v.stages j) (hstatus : v'.jobStatus j = v.jobStatus j) :
    v'.Left j := by
  cases h with
  | gone hs hdone => exact .gone (hstages.trans hs) (fun st hst => hdone st (hstatus ▸ hst))
  | kept hs hleaves hst => exact .kept (hstages.trans hs) hleaves (hstatus ▸ hst)

end WorkflowView

/-- Every job of the workflow is where it should be. -/
structure Orderly (p : Plan) (L : List String) (v : WorkflowView) : Prop where
  left : ∀ j ∈ L, v.Left j
  held : ∀ j ∈ p.ids, j ∉ L → v.Held j
  waiting : ∀ j, j ∈ v.space.waitingReady.members ↔ v.jobStatus j = some .ready
  known : ∀ j, v.jobStatus j ≠ none → j ∈ p.ids

/-- The reserved slots are the jobs that occupy one. -/
def SlotsExact (p : Plan) (ks : WorkflowKeyspace) : Prop :=
  ks.counters.reserved = p.tally JobStatus.isActive ks

/-- The workflow is READY or RUNNING, and no job of it has failed. -/
structure Live (p : Plan) (v : WorkflowView) : Prop where
  strong : Strong p v
  clean : v.space.Clean
  slots : SlotsExact p v.space
  unstarted : v.status = some .ready → v.space.counters.started = none

/-- What holds of a workflow until its last job is counted. -/
structure Unfinished (p : Plan) (v : WorkflowView) : Prop where
  hash : v.space.hash ≠ none
  active : v.active = true
  phase : Live p v ∨ v.status = some .failed
  provided : ∀ j ∈ p.ids, v.space.Provided j
  sized : ∀ j n, .fetched n ∈ v.stages j →
    ∃ bytes, v.space.payloads j = some bytes ∧ bytes.length = n

/-- What holds of the handlers of counted jobs. At most one of them has the cleanup to do. -/
structure Handled (p : Plan) (v : WorkflowView) : Prop where
  advanced : ∀ i c l, .counted c l ∈ v.stages i → ∀ k ∈ l, k ∈ p.ids
  listed : ∀ i st l, .listing st l ∈ v.stages i → ∀ k ∈ p.ids, k ∈ l
  sole : ∀ i j s t, s ∈ v.stages i → t ∈ v.stages j → s.closing ≠ .no → t.closing ≠ .no → i = j
  due : ∀ i s, s ∈ v.stages i → s.closing = .due → v.active = true ∧ v.space.hash ≠ none
  kept : ∀ i l, .counted .released l ∈ v.stages i → v.space.hash ≠ none

/-- The invariant of a workflow's execution when every call is answered; `L` are the jobs that were
counted. -/
structure Tidy (p : Plan) (L : List String) (v : WorkflowView) : Prop where
  inv : Inv p v
  counted : Counted p L v
  orderly : Orderly p L v
  handled : Handled p v
  rows : ∀ j ∈ p.ids, j ∈ v.rows
  recorded : v.recorded = true
  unfinished : L.length < p.ids.length → Unfinished p v

section Actors

variable {p : Plan} {L l : List String} {x : Served} {v v' : WorkflowView} {i j : String}
  {s s' : Stage} {st : JobStatus} {rest : Multiset Stage} {now n : Int}

theorem Counted.lt_of_not_mem (h : Counted p L v) (hj : j ∈ p.ids) (hnot : j ∉ L) :
    L.length < p.ids.length := by
  refine Nat.lt_of_le_of_ne h.length_le (fun hfull => hnot ?_)
  have hperm : L.Perm p.ids :=
    (h.nodup.subperm (fun i hi => (h.spent i hi).1)).perm_of_length_le hfull.ge
  exact hperm.mem_iff.mpr hj

/-- A job that was not counted and has a holder is at the stage that its status asks for. -/
theorem Tidy.asks (h : Tidy p L v) (hs : v.stages j = s ::ₘ rest) (hnot : j ∉ L) :
    Unfinished p v ∧ ∃ st, s.asks = some st ∧ v.jobStatus j = some st := by
  have hj := h.inv.mem_ids hs
  obtain rfl := h.inv.rest_eq_zero hs
  refine ⟨h.unfinished (h.counted.lt_of_not_mem hj hnot), ?_⟩
  cases h.orderly.held j hj hnot with
  | idle hzero => exact absurd (hs.symm.trans hzero) Multiset.cons_ne_zero
  | stranded hzero => exact absurd (hs.symm.trans hzero) Multiset.cons_ne_zero
  | busy hone hasks hst =>
      cases Multiset.singleton_inj.mp (hs.symm.trans hone)
      exact ⟨_, hasks, hst⟩

/-- A holder that is not at an end holds a job that was not counted, alone. -/
theorem Tidy.busy (h : Tidy p L v) (hs : v.stages j = s ::ₘ rest)
    (hleaves : ∀ st, s.leaves st = false) : rest = 0 ∧ j ∈ p.ids ∧ j ∉ L ∧ Unfinished p v ∧
      ∃ st, s.asks = some st ∧ v.jobStatus j = some st := by
  obtain rfl := h.inv.rest_eq_zero hs
  have hj := h.inv.mem_ids hs
  have hnot : j ∉ L := fun hmem => by
    cases h.orderly.left j hmem with
    | gone hzero => exact Multiset.cons_ne_zero (hs.symm.trans hzero)
    | kept hone hkept =>
        cases Multiset.singleton_inj.mp (hs.symm.trans hone)
        cases (hleaves _).symm.trans hkept
  exact ⟨rfl, hj, hnot, h.asks hs hnot⟩

/-- A holder at an end holds a job that was counted, alone. -/
theorem Tidy.settled (h : Tidy p L v) (hs : v.stages j = s ::ₘ rest) (hasks : s.asks = none) :
    rest = 0 ∧ j ∈ L ∧ ∃ st, s.leaves st = true ∧
      (v.jobStatus j = some st ∨ v.jobStatus j = none) := by
  obtain rfl := h.inv.rest_eq_zero hs
  have hmem : j ∈ L := by
    by_contra hnot
    obtain ⟨-, _, hasks', -⟩ := h.asks hs hnot
    cases hasks.symm.trans hasks'
  refine ⟨rfl, hmem, ?_⟩
  cases h.orderly.left j hmem with
  | gone hzero => exact absurd (hs.symm.trans hzero) Multiset.cons_ne_zero
  | kept hone hleaves hst =>
      cases Multiset.singleton_inj.mp (hs.symm.trans hone)
      exact ⟨_, hleaves, hst⟩

end Actors

/-- One step of a workflow when every call is answered. -/
inductive TidyStep (p : Plan) (L : List String) (x : Served) (v : WorkflowView) :
    List String → WorkflowView → Prop where
  /-- the holder of an uncounted job passes to another stage of the same status -/
  | move {j : String} {s s' : Stage} {st : JobStatus} (hj : j ∉ L) (hs : v.stages j = {s})
      (hasks : s.asks = some st) (hasks' : s'.asks = some st) (hst : v.jobStatus j = some st)
      (hsize : ∀ n, s' = .fetched n → ∃ bytes, v.space.payloads j = some bytes ∧ bytes.length = n)
      (hlist : ∀ st l, s' = .listing st l → l = v.rows) :
      TidyStep p L x v [] (v.setStages j {s'})
  /-- a stale key is dropped -/
  | drop {j : String} {s : Stage} (hj : j ∈ L) (hs : v.stages j = {s})
      (hstale : s = .popped ∨ s = .retryHeld) : TidyStep p L x v [] (v.setStages j 0)
  | claim {j : String} (hx : x.label = .claim j) (hj : j ∉ L) (hs : v.stages j = {Stage.popped})
      (hst : v.jobStatus j = some .queued) :
      TidyStep p L x v [] ({ v with space := v.space.setJobStatus j .pendingExecution }.setStages j
        {Stage.claimed})
  | first {j : String} {now : Int} {ks : WorkflowKeyspace} (hx : x.label = .start j now)
      (hj : j ∉ L) (hs : v.stages j = {Stage.dispatched})
      (hst : v.jobStatus j = some .pendingExecution) (hwf : v.status = some .ready)
      (hcounters : ks.counters =
        { v.space.counters with status := some .running, started := some now })
      (hsame : SameJobs (v.space.setJob j (fun h =>
        { h with status := some .running, startRunTime := some now })) ks) :
      TidyStep p L x v [] ({ v with space := ks }.setStages j {Stage.started})
  | again {j : String} {now : Int} (hx : x.label = .start j now) (hj : j ∉ L)
      (hs : v.stages j = {Stage.dispatched}) (hst : v.jobStatus j = some .pendingExecution)
      (hwf : v.status = some .running) :
      TidyStep p L x v [] ({ v with space := v.space.setJob j (fun h =>
        { h with status := some .running, startRunTime := some now }) }.setStages j
          {Stage.started})
  /-- the start script finds the workflow failed -/
  | cancel {j : String} {now : Int} (hx : x.label = .start j now) (hj : j ∉ L)
      (hs : v.stages j = {Stage.dispatched}) (hst : v.jobStatus j = some .pendingExecution)
      (hwf : v.status = some .failed) :
      TidyStep p L x v [] ({ v with space := v.space.setJobStatus j .aborted }.setStages j
        {Stage.stopped})
  /-- the success script finds the run time exceeded -/
  | expire {j : String} {now : Int} (hx : x.label = .success j now) (hj : j ∉ L)
      (hs : v.stages j = {Stage.reported .completed}) (hst : v.jobStatus j = some .running)
      (hwf : v.status = some .running) (hexceeded : v.space.runTimeExceeded now = true) :
      TidyStep p L x v [] ({ v with space := v.space.setStatus .failed }.setStages j
        {Stage.reported .failed})
  /-- the last job completes -/
  | last {j : String} {now : Int} {ks : WorkflowKeyspace} {ready : List String}
      (hx : x.label = .success j now) (hj : j ∉ L) (hs : v.stages j = {Stage.reported .completed})
      (hst : v.jobStatus j = some .running) (hwf : v.status = some .running)
      (hfinished : Finished j v.space ready ks) (hretains : v.space.Retains ks)
      (hfull : L.length + 1 = p.ids.length) {advanced : List String}
      (hadvanced : ∀ i ∈ advanced, i ∈ ready) :
      TidyStep p L x v [j] ({ v with space := ks.countCompleted.setStatus .completed }.setStages j
        {Stage.counted .due advanced})
  /-- a job completes, and nobody is promoted -/
  | success {j : String} {now : Int} {ks : WorkflowKeyspace} {ready : List String}
      (hx : x.label = .success j now) (hj : j ∉ L) (hs : v.stages j = {Stage.reported .completed})
      (hst : v.jobStatus j = some .running) (hwf : v.status = some .running)
      (hfinished : Finished j v.space ready ks) (hretains : v.space.Retains ks)
      (hopen : L.length + 1 < p.ids.length)
      (hslot : v.space.counters.limit ≤ ks.countCompleted.counters.reserved)
      {advanced : List String} (hadvanced : ∀ i ∈ advanced, i ∈ ready) :
      TidyStep p L x v [j] ({ v with space := ks.countCompleted }.setStages j
        {Stage.counted .no advanced})
  /-- a job completes, and a waiting job is promoted if there is one -/
  | successPromote {j : String} {now : Int} {ks : WorkflowKeyspace} {ready : List String}
      (hx : x.label = .success j now) (hj : j ∉ L) (hs : v.stages j = {Stage.reported .completed})
      (hst : v.jobStatus j = some .running) (hwf : v.status = some .running)
      (hfinished : Finished j v.space ready ks) (hretains : v.space.Retains ks)
      (hopen : L.length + 1 < p.ids.length)
      (hslot : ks.countCompleted.counters.reserved < v.space.counters.limit)
      {advanced : List String} (hadvanced : ∀ i ∈ advanced,
        i ∈ ready ∨ some i = ks.countCompleted.promoteWaiting.1.map Prod.fst) :
      TidyStep p L x v [j] (({ v with space := ks.countCompleted.promoteWaiting.2 }.setStages j
        {Stage.counted .no advanced}).enqueue ks.countCompleted.promoteWaiting.1)
  /-- a job of a running workflow fails -/
  | fail {j : String} {jobIds : List String} {st : JobStatus} {n : Int}
      {outcome : FailureOutcome} {ks : WorkflowKeyspace}
      (hx : x.label = .fail j n jobIds) (hj : j ∉ L) (hs : v.stages j = {Stage.listing st jobIds})
      (hst : v.jobStatus j = some .running) (hwf : v.status = some .running)
      (hfailed : FailedRunning j jobIds v.space outcome ks)
      (hretains : v.space.Retains ks)
      (hwaiting : ∀ i, i ∈ ks.waitingReady.members ↔ i ∈ v.space.waitingReady.members ∧
        ¬ (i ∈ jobIds ∧ v.space.Cancelable j i)) :
      TidyStep p L x v (j :: outcome.canceled.map Prod.fst)
        (({ v with space := ks }.setStages j
          {Stage.failed (.ofCompleted outcome.workflowCompleted)}).dropCanceled outcome.canceled)
  /-- a job fails or was stopped after its workflow failed -/
  | failAgain {j : String} {jobIds : List String} {st st' : JobStatus} {n : Int}
      {outcome : FailureOutcome} {ks : WorkflowKeyspace}
      (hx : x.label = .fail j n jobIds) (hj : j ∉ L) (hs : v.stages j = {Stage.listing st' jobIds})
      (hst : v.jobStatus j = some st) (hkind : st = .running ∨ st = .aborted)
      (hwf : v.status = some .failed)
      (hfailed : FailedOther j v.space outcome ks) (hretains : v.space.Retains ks) :
      TidyStep p L x v [j] ({ v with space := ks }.setStages j
        {Stage.failed (.ofCompleted outcome.workflowCompleted)})
  /-- a job is put off -/
  | retry {j : String} {st : JobStatus} {n : Int} (hx : x.label = .retry j) (hj : j ∉ L)
      (hs : v.stages j = {Stage.reported st}) (hst : v.jobStatus j = some .running)
      (hwf : v.status = some .failed ∨ (v.status = some .running ∧
        v.space.counters.limit ≤ (v.space.delayJob j n).counters.reserved)) :
      TidyStep p L x v [] ({ v with space := v.space.delayJob j n }.setStages j {Stage.retryWait})
  /-- a job is put off, and a waiting job is promoted if there is one -/
  | retryPromote {j : String} {st : JobStatus} {n : Int} (hx : x.label = .retry j) (hj : j ∉ L)
      (hs : v.stages j = {Stage.reported st}) (hst : v.jobStatus j = some .running)
      (hwf : v.status = some .running)
      (hslot : (v.space.delayJob j n).counters.reserved < v.space.counters.limit) :
      TidyStep p L x v [] (({ v with space := (v.space.delayJob j n).promoteWaiting.2 }.setStages j
        {Stage.retryWait}).enqueue (v.space.delayJob j n).promoteWaiting.1)
  /-- a retry is queued at once -/
  | requeue {j : String} (hx : x.label = .promote j) (hj : j ∉ L)
      (hs : v.stages j = {Stage.retryHeld}) (hst : v.jobStatus j = some .retryDelay)
      (hwf : v.status = some .running) (hslot : v.space.counters.reserved < v.space.counters.limit)
      (hwaiting : v.space.waitingReady.members = []) :
      TidyStep p L x v [] ({ v with space := v.space.queueRetry j }.setStages j {Stage.queued})
  /-- a retry waits for a slot -/
  | wait {j : String} (hx : x.label = .promote j) (hj : j ∉ L)
      (hs : v.stages j = {Stage.retryHeld}) (hst : v.jobStatus j = some .retryDelay)
      (hwf : v.status = some .running) (hslot : v.space.counters.limit ≤ v.space.counters.reserved) :
      TidyStep p L x v [] ({ v with space := v.space.waitAgain j }.setStages j 0)
  /-- a retry waits for a slot, and the first of the waiting jobs is promoted -/
  | waitPromote {j : String} (hx : x.label = .promote j) (hj : j ∉ L)
      (hs : v.stages j = {Stage.retryHeld}) (hst : v.jobStatus j = some .retryDelay)
      (hwf : v.status = some .running) (hslot : v.space.counters.reserved < v.space.counters.limit) :
      TidyStep p L x v [] (({ v with space := (v.space.waitAgain j).promoteWaiting.2 }.setStages j
        0).enqueue (v.space.waitAgain j).promoteWaiting.1)
  /-- the retry handler gives a job up because its workflow has failed -/
  | strand {j : String} (hx : x.label = .promote j) (hj : j ∉ L)
      (hs : v.stages j = {Stage.retryHeld}) (hst : v.jobStatus j = some .retryDelay)
      (hwf : v.status = some .failed) :
      TidyStep p L x v [] ({ v with space := v.space.setJobStatus j .aborted }.setStages j 0)
  /-- the retry handler gives a stale key up -/
  | abort {j : String} (hj : j ∈ L) (hs : v.stages j = {Stage.retryHeld})
      (hst : v.jobStatus j = some .aborted) :
      TidyStep p L x v [] ({ v with space := v.space.setJobStatus j .aborted }.setStages j 0)
  | mark {j : String} {c : Closing} (hx : x.label = .mark j) (hj : j ∈ L)
      (hs : v.stages j = {Stage.failed c}) :
      TidyStep p L x v [] { v with space := v.space.setJobStatus j .aborted }
  | releaseCounted {j : String} {l : List String} (hj : j ∈ L)
      (hs : v.stages j = {Stage.counted .due l}) :
      TidyStep p L x v [] ({ v with active := false }.setStages j {Stage.counted .released l})
  | releaseFailed {j : String} (hj : j ∈ L) (hs : v.stages j = {Stage.failed .due}) :
      TidyStep p L x v [] ({ v with active := false }.setStages j {Stage.failed .released})
  | erase {v' : WorkflowView} {j : String} {s : Stage} (hs : s ∈ v.stages j) (hdel : Deletes s)
      (hfull : L.length = p.ids.length) (h : Erased v v') (hx : x.label = .erase) :
      TidyStep p L x v [] v'
  | deleteCounted {j : String} {l : List String} (hj : j ∈ L)
      (hs : v.stages j = {Stage.counted .released l}) (hfull : L.length = p.ids.length) :
      TidyStep p L x v [] ({ v with space := { v.space with hash := none } }.setStages j
        {Stage.counted .deleted l})
  | deleteFailed {j : String} (hj : j ∈ L) (hs : v.stages j = {Stage.failed .released})
      (hfull : L.length = p.ids.length) :
      TidyStep p L x v [] { v with space := { v.space with hash := none } }

section Inversion

variable {p : Plan} {L l : List String} {x : Served} {v v' : WorkflowView} {i j : String}
  {s s' : Stage} {st : JobStatus} {rest : Multiset Stage} {now n : Int}

theorem Tidy.counts (h : Tidy p L v) (hopen : L.length < p.ids.length) :
    v.space.counters.total = p.ids.length ∧ v.space.counters.completed = L.length := by
  rcases h.counted.totals with htotals | ⟨hfull, -⟩
  · exact htotals
  · omega

theorem Tidy.lt_of_not_mem (h : Tidy p L v) (hj : j ∈ p.ids) (hnot : j ∉ L) :
    L.length < p.ids.length := h.counted.lt_of_not_mem hj hnot

/-- A job of a live workflow that did not end is at no stage that asks for ABORTED. -/
theorem Live.running_of_asks (h : Live p v) (hst : v.jobStatus j = some st)
    (hkind : st = .running ∨ st = .aborted) : st = .running :=
  hkind.resolve_right (fun haborted => (h.clean j).2 (haborted ▸ hst))

theorem Stage.asks_listing {st' : JobStatus} {l : List String}
    (h : (Stage.listing st' l).asks = some st) : st = .running ∨ st = .aborted := by
  cases st' <;> cases h <;> simp

/-- A shift of a tidy workflow is one of the tidy steps. -/
theorem Tidy.shift (h : Tidy p L v) (hok : x.ok = true) (hs : v.stages j = s ::ₘ rest)
    (hshift : Shift v x j s s') : TidyStep p L x v [] (v.setStages j (s' ::ₘ rest)) := by
  -- the move of a job that was not counted, to a stage that asks for the same status
  have hmove : (∀ st, s.leaves st = false) → (∀ st, s.asks = some st → s'.asks = some st) →
      (∀ n, s' = .fetched n → ∃ bytes, v.space.payloads j = some bytes ∧ bytes.length = n) →
      (∀ st l, s' = .listing st l → l = v.rows) →
      TidyStep p L x v [] (v.setStages j (s' ::ₘ rest)) := by
    intro hleaves hsame hsize hlist
    obtain ⟨rfl, -, hnot, -, st, hasks, hst⟩ := h.busy hs hleaves
    exact .move hnot hs hasks (hsame st hasks) hst hsize hlist
  cases hshift with
  | pop => exact hmove (fun _ => rfl) (fun _ => id) nofun nofun
  | @fetch d hfetch =>
      refine hmove (fun _ => rfl) (fun _ => id) (fun n hn => ?_) nofun
      obtain ⟨-, hj, -, hunfinished, -⟩ := h.busy hs (fun _ => rfl)
      obtain ⟨hash, bytes, hjob, hreadable, hpayload, hsize⟩ := hunfinished.provided j hj
      have hfetched := (fetchJobRuntime_of_readable hjob hreadable).2.1
      cases hn
      refine ⟨bytes, hpayload, ?_⟩
      rw [hfetch, hsize] at hfetched
      rw [show d.payloadSizeBytes = (bytes.length : Int) from hfetched]
      rfl
  | verify size => exact hmove (fun _ => rfl) (fun _ => id) nofun nofun
  | badPayload size _ hbad =>
      obtain ⟨-, hj, -, hunfinished, -⟩ := h.busy hs (fun _ => rfl)
      obtain ⟨bytes, hpayload, hlength⟩ :=
        hunfinished.sized j size (hs ▸ Multiset.mem_cons_self ..)
      rcases hbad with hfault | hbad
      · cases hok.symm.trans hfault
      · exact absurd hlength (hbad bytes hpayload)
  | dispatch hd => cases hd <;> exact hmove (fun _ => rfl) (fun _ => id) nofun nofun
  | unstarted hfault => cases hok.symm.trans hfault
  | startFailed hfault =>
      obtain ⟨-, hj, -⟩ := h.busy hs (fun _ => rfl)
      rcases hfault with hfault | hfault | hfault
      · cases hok.symm.trans hfault
      · cases h.recorded.symm.trans hfault
      · exact absurd (h.rows j hj) hfault
  | report hr =>
      obtain ⟨-, -, -, -, st, hasks, -⟩ := h.busy hs (by cases hr <;> exact fun _ => rfl)
      cases hr with
      | badPayload | startFailed | unstarted => cases hasks
      | completed | failed | stopped => exact hmove (fun _ => rfl) (fun _ => id) nofun nofun
  | refused => exact hmove (fun _ => rfl) (fun _ => id) nofun nofun
  | again hcompleted =>
      obtain ⟨-, -, -, -, st, hasks, hst⟩ := h.busy hs (fun _ => rfl)
      cases hasks
      cases hst.symm.trans hcompleted
  | list st =>
      refine hmove (fun _ => rfl) (fun st' hst' => ?_) nofun (fun _ _ heq => ?_)
      · cases st <;> exact hst'
      · cases heq
        rfl
  | broken c l _ hfault =>
      obtain ⟨-, hj, -⟩ := h.settled hs rfl
      have hmem : .counted c l ∈ v.stages j := hs ▸ Multiset.mem_cons_self ..
      have hids := h.inv.mem_ids hs
      rcases hfault with hfault | hfault | hfault | ⟨i, hi, hfault⟩ | ⟨rfl, hfault⟩ | ⟨rfl, hfault⟩
      · cases hok.symm.trans hfault
      · cases h.recorded.symm.trans hfault
      · exact absurd (h.rows j hids) hfault
      · exact absurd (h.rows i (h.handled.advanced j c l hmem i hi)) hfault
      · cases (h.handled.due j _ hmem rfl).1.symm.trans hfault
      · exact absurd hfault (h.handled.kept j l hmem)
  | due => exact hmove (fun _ => rfl) (fun _ => id) nofun nofun

theorem Tidy.lose (h : Tidy p L v) (hok : x.ok = true) (hs : v.stages j = s ::ₘ rest)
    (hlost : Lost v x j s) : TidyStep p L x v [] (v.setStages j rest) := by
  cases hlost with
  | fault hfault => cases hok.symm.trans hfault
  | unclaimable hst =>
      obtain rfl := h.inv.rest_eq_zero hs
      by_cases hj : j ∈ L
      · exact .drop hj hs (.inl rfl)
      · obtain ⟨-, st, hasks, hst'⟩ := h.asks hs hj
        cases hasks
        exact absurd hst' hst.2
  | unreadable hfetch =>
      obtain ⟨-, hj, -, hunfinished, -⟩ := h.busy hs (fun _ => rfl)
      obtain ⟨hash, bytes, hjob, hreadable, -⟩ := hunfinished.provided j hj
      cases (fetchJobRuntime_of_readable hjob hreadable).1.symm.trans hfetch
  | missing hnone =>
      obtain ⟨-, -, -, hunfinished, -⟩ := h.busy hs (fun _ => rfl)
      exact absurd hnone hunfinished.hash
  | released hactive =>
      obtain ⟨hdue, -⟩ := h.handled.due j _ (hs ▸ Multiset.mem_cons_self ..) rfl
      cases hdue.symm.trans hactive

theorem Tidy.starts (h : Tidy p L v) (hs : v.stages j = .dispatched ::ₘ rest) (now : Int) :
    rest = 0 ∧ j ∉ L ∧ v.jobStatus j = some .pendingExecution ∧
    ((v.status = some .ready ∧ (v.space.trySetJobToRunning now j).1 = .firstToStart) ∨
      (v.status = some .running ∧ (v.space.trySetJobToRunning now j).1 = .started) ∨
      (v.status = some .failed ∧
        (v.space.trySetJobToRunning now j).1 = .canceledByWorkflowState)) := by
  obtain ⟨rfl, hj, hnot, hunfinished, st, hasks, hst⟩ := h.busy hs (fun _ => rfl)
  cases hasks
  refine ⟨rfl, hnot, hst, ?_⟩
  have hstarted := trySetJobToRunning_started now j v.space
  generalize v.space.trySetJobToRunning now j = r at hstarted ⊢
  obtain ⟨result, ks⟩ := r
  dsimp only at hstarted ⊢
  cases hstarted with
  | canceledBefore hjob => cases hst.symm.trans hjob
  | wrongJob _ hjob => exact absurd hst hjob
  | wrongTime _ hready htime =>
      rcases hunfinished.phase with hlive | hfailed
      · exact absurd (hlive.unstarted hready) htime
      · cases hfailed.symm.trans hready
  | first _ hready => exact .inl ⟨hready, rfl⟩
  | again _ hrunning => exact .inr (.inl ⟨hrunning, rfl⟩)
  | canceled _ hclosed =>
      refine .inr (.inr ⟨?_, rfl⟩)
      rcases hunfinished.phase with hlive | hfailed
      · rcases hlive.strong.unclosed with hopen | hopen <;> rcases hclosed with hclosed | hclosed <;>
          cases hopen.symm.trans hclosed
      · exact hfailed
  | wrongWorkflow _ hready hrunning hfailed =>
      rcases hunfinished.phase with hlive | hfailed'
      · exact absurd hlive.strong.unclosed (not_or.mpr ⟨hready, hrunning⟩)
      · exact absurd hfailed' hfailed

theorem Tidy.start (h : Tidy p L v) (hx : x.label = .start j now)
    (hs : v.stages j = .dispatched ::ₘ rest) :
    TidyStep p L x v [] ({ v with space := (v.space.trySetJobToRunning now j).2 }.setStages j
      (.ofStart (v.space.trySetJobToRunning now j).1 ::ₘ rest)) := by
  obtain ⟨rfl, hnot, hst, hresult⟩ := h.starts hs now
  have hstarted := trySetJobToRunning_started now j v.space
  generalize v.space.trySetJobToRunning now j = r at hstarted hresult ⊢
  obtain ⟨result, ks⟩ := r
  rcases hresult with ⟨hwf, rfl⟩ | ⟨hwf, rfl⟩ | ⟨hwf, rfl⟩
  · cases hstarted with
    | first _ _ _ hcounters hsame => exact .first hx hnot hs hst hwf hcounters hsame
  · cases hstarted with
    | again => exact .again hx hnot hs hst hwf
  · cases hstarted with
    | canceled => exact .cancel hx hnot hs hst hwf

theorem Tidy.success (h : Tidy p L v) (hx : x.label = .success j now)
    (hs : v.stages j = .reported .completed ::ₘ rest) {done : Bool}
    {promoted : Option (String × Int)} {ready advanced : List String}
    (hcounted : (v.space.completeSuccessfulJob now j).1 = .counted done promoted ready)
    (hadvanced : ∀ i ∈ advanced, i ∈ ready ∨ some i = promoted.map Prod.fst) :
    TidyStep p L x v [j] (({ v with space := (v.space.completeSuccessfulJob now j).2 }.setStages j
      (.counted (.ofCompleted done) advanced ::ₘ rest)).enqueue promoted) := by
  obtain ⟨rfl, hj, hnot, hunfinished, st, hasks, hst⟩ := h.busy hs (fun _ => rfl)
  obtain ⟨hrun, -, -, hready, hcases⟩ := completeSuccessfulJob_counted hcounted
  obtain ⟨-, hfinished⟩ := (h.inv.strong_of_running hrun).finished hs
  obtain ⟨-, -, hdone⟩ := completeSuccessfulJob_counts hcounted
  have hlt := h.lt_of_not_mem hj hnot
  obtain ⟨htotal, hcompleted⟩ := h.counts hlt
  have hretains := (Retains.refl v.space).finishJob j
  cases hasks
  rw [hready] at hfinished
  have hlimit : (v.space.finishJob j).2.countCompleted.counters.limit = v.space.counters.limit := by
    rw [counters_countCompleted, hfinished.counters]
  rcases hcases with ⟨-, rfl, rfl, hks⟩ | ⟨-, rfl, hcases⟩
  · have hfull := hdone.mp rfl
    rw [hks]
    refine .last hx hnot hs hst hrun hfinished hretains (by omega) (fun i hi => ?_)
    exact (hadvanced i hi).resolve_right nofun
  · have hopen : L.length + 1 < p.ids.length := by
      have hnotfull := (not_congr hdone).mp Bool.false_ne_true
      omega
    rcases hcases with ⟨hslot, heq⟩ | ⟨⟨rfl, hslot⟩, hks⟩
    · rw [congrArg Prod.snd heq, show promoted = _ from congrArg Prod.fst heq]
      refine .successPromote hx hnot hs hst hrun hfinished hretains hopen (hlimit ▸ hslot)
        (fun i hi => ?_)
      rw [← show promoted = _ from congrArg Prod.fst heq]
      exact hadvanced i hi
    · rw [hks]
      refine .success hx hnot hs hst hrun hfinished hretains hopen (hlimit ▸ hslot) (fun i hi => ?_)
      exact (hadvanced i hi).resolve_right nofun

theorem Tidy.fail (h : Tidy p L v) {jobIds : List String} (hx : x.label = .fail j n jobIds)
    (hs : v.stages j = s ::ₘ rest) (hstage : (∃ st, s = .listing st jobIds) ∨ ∃ c, s = .broken c) :
    TidyStep p L x v (j :: (v.space.completeFailedJob j n jobIds).1.canceled.map Prod.fst)
      (({ v with space := (v.space.completeFailedJob j n jobIds).2 }.setStages j
        (.failed (.ofCompleted (v.space.completeFailedJob j n jobIds).1.workflowCompleted) ::ₘ
          rest)).dropCanceled (v.space.completeFailedJob j n jobIds).1.canceled) := by
  rcases hstage with ⟨st', rfl⟩ | ⟨c, rfl⟩
  · obtain ⟨rfl, hj, hnot, hunfinished, st, hasks, hst⟩ := h.busy hs (fun _ => rfl)
    have hkind := Stage.asks_listing hasks
    have hretains := (Retains.refl v.space).completeFailedJob j n jobIds
    rcases hunfinished.phase with hlive | hfailed
    · obtain rfl := hlive.running_of_asks hst hkind
      -- no job of a READY workflow runs
      have hrun : v.status = some .running :=
        hlive.strong.unclosed.resolve_left (fun hready => (hlive.strong.young hready j).1 hst)
      exact .fail hx hnot hs hst hrun (completeFailedJob_running n hrun) hretains
        (waiting_completeFailedJob n hrun)
    · have hclosed : v.space.status ≠ some .running := fun hrun => by cases hfailed.symm.trans hrun
      have hother : FailedOther j v.space
          (v.space.completeFailedJob j n jobIds).1 (v.space.completeFailedJob j n jobIds).2 :=
        completeFailedJob_other n hclosed
      rw [hother.canceled]
      exact .failAgain hx hnot hs hst hkind hfailed hother hretains
  · exact absurd (hs ▸ Multiset.mem_cons_self ..) (h.counted.unbroken j c)

theorem Tidy.retry (h : Tidy p L v) (hx : x.label = .retry j) (hst : st ≠ .aborted)
    (hs : v.stages j = .reported st ::ₘ rest) :
    TidyStep p L x v [] ((({ v with space := (v.space.scheduleJobRetry j n).2 }.setStages j
      rest).delay j).enqueue (v.space.scheduleJobRetry j n).1) := by
  obtain ⟨rfl, hj, hnot, hunfinished, st', hasks, hjob⟩ := h.busy hs (fun _ => rfl)
  have hrunning : st' = .running := by
    cases st <;> first | exact absurd rfl hst | cases hasks
    all_goals rfl
  subst hrunning
  rw [WorkflowView.delay_setStages_zero]
  rcases scheduleJobRetry_cases j n v.space with ⟨heq, hslot⟩ | ⟨hrun, hslot, heq⟩
  · rw [heq]
    refine .retry hx hnot hs hjob ?_
    rcases hunfinished.phase with hlive | hfailed
    · have hrun : v.status = some .running := hlive.strong.unclosed.resolve_left
        (fun hready => (hlive.strong.young hready j).1 hjob)
      exact .inr ⟨hrun, hslot.resolve_left (fun hclosed => hclosed hrun)⟩
    · exact .inl hfailed
  · rw [heq]
    exact .retryPromote hx hnot hs hjob hrun hslot

theorem Tidy.promote (h : Tidy p L v) (hx : x.label = .promote j)
    (hs : v.stages j = .retryHeld ::ₘ rest) :
    TidyStep p L x v [] (({ v with space := (v.space.promoteRetryJob j).2 }.setStages j
      rest).enqueue (v.space.promoteRetryJob j).1) := by
  obtain rfl := h.inv.rest_eq_zero hs
  have hpromoted := promoteRetryJob_promoted j v.space
  generalize v.space.promoteRetryJob j = r at hpromoted ⊢
  obtain ⟨promoted, ks⟩ := r
  dsimp only at hpromoted ⊢
  by_cases hj : j ∈ L
  · -- a stale key: the job was canceled in the meantime
    have hnot : ∀ st, st.isTerminal = false → v.space.jobStatus j ≠ some st := fun st hst hjob => by
      cases hst.symm.trans ((h.orderly.left j hj).done hjob)
    cases hpromoted with
    | missing | refused => exact .drop hj hs (.inr rfl)
    | stopped _ hjob =>
        refine .abort hj hs ?_
        cases h.orderly.left j hj with
        | gone hzero => exact absurd (hs.symm.trans hzero) Multiset.cons_ne_zero
        | kept hone hleaves hst =>
            cases Multiset.singleton_inj.mp (hs.symm.trans hone)
            rw [← eq_of_beq hleaves]
            exact hst.resolve_right hjob
    | queued _ _ hjob | swapped _ hjob | waiting _ hjob =>
        rcases hjob with hjob | hjob
        · exact absurd hjob (hnot _ rfl)
        · exact absurd hjob (hnot _ rfl)
  · obtain ⟨hunfinished, st, hasks, hst⟩ := h.asks hs hj
    cases hasks
    cases hpromoted with
    | missing hnone =>
        rcases hnone with hnone | hnone
        · rcases hunfinished.phase with hlive | hfailed
          · rcases hlive.strong.unclosed with hopen | hopen <;> cases hnone.symm.trans hopen
          · cases hnone.symm.trans hfailed
        · cases hnone.symm.trans hst
    | refused _ hdelay => exact absurd hst hdelay
    | stopped hclosed =>
        refine .strand hx hj hs hst ?_
        rcases hunfinished.phase with hlive | hfailed
        · have hready := hlive.strong.unclosed.resolve_right hclosed
          exact absurd hst (hlive.strong.young hready j).2.2
        · exact hfailed
    | queued n hrun _ hslot hwaiting =>
        rw [WorkflowView.enqueue_setStages_zero]
        exact .requeue hx hj hs hst hrun hslot hwaiting
    | swapped hrun _ hslot => exact .waitPromote hx hj hs hst hrun hslot
    | waiting hrun _ hslot => exact .wait hx hj hs hst hrun hslot

theorem Tidy.inversion (h : Tidy p L v) (hok : x.ok = true) (hstep : WStep x v l v') :
    TidyStep p L x v l v' := by
  cases hstep with
  | shift hs hshift => exact h.shift hok hs hshift
  | lose hs hlost => exact h.lose hok hs hlost
  | @claim j rest hx hs hst =>
      obtain rfl := h.inv.rest_eq_zero hs
      by_cases hj : j ∈ L
      · rcases hst with hst | hst <;> cases (h.orderly.left j hj).done hst
      · obtain ⟨-, st, hasks, hst'⟩ := h.asks hs hj
        cases hasks
        exact .claim hx hj hs hst'
  | start hx hs => exact h.start hx hs
  | @expire j now rest hx hs hexpired =>
      obtain ⟨rfl, -, hnot, -, st, hasks, hst⟩ := h.busy hs (fun _ => rfl)
      obtain ⟨hrun, hexceeded, hks⟩ := completeSuccessfulJob_expired hexpired
      cases hasks
      rw [hks]
      exact .expire hx hnot hs hst hrun hexceeded
  | success hx hs hcounted hadvanced => exact h.success hx hs hcounted hadvanced
  | fail hx hs hstage => exact h.fail hx hs hstage
  | @mark j c hx hs =>
      obtain ⟨rest, hcons⟩ := Multiset.exists_cons_of_mem hs
      obtain ⟨rfl, hj, -⟩ := h.settled hcons rfl
      exact .mark hx hj hcons
  | retry hx hst hs => exact h.retry hx hst hs
  | promote hx hs => exact h.promote hx hs
  | releaseCounted hs =>
      obtain ⟨rfl, hj, -⟩ := h.settled hs rfl
      exact .releaseCounted hj hs
  | releaseFailed hs =>
      obtain ⟨rfl, hj, -⟩ := h.settled hs rfl
      exact .releaseFailed hj hs
  | erase hs hdel herased hx =>
      exact .erase hs hdel (h.counted.closing _ _ hs (by cases hdel <;> exact nofun)) herased hx
  | @deleteCounted j l rest hs =>
      obtain ⟨rfl, hj, -⟩ := h.settled hs rfl
      have hmem : .counted .released l ∈ v.stages j := hs ▸ Multiset.mem_cons_self ..
      exact .deleteCounted hj hs (h.counted.closing _ _ hmem nofun)
  | deleteFailed hs =>
      obtain ⟨rest, hcons⟩ := Multiset.exists_cons_of_mem hs
      obtain ⟨rfl, hj, -⟩ := h.settled hcons rfl
      exact .deleteFailed hj hcons (h.counted.closing _ _ hs nofun)

end Inversion

end FlowPilot
