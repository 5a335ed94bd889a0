import FlowPilot.ProtocolMoves

/-! One workflow seen alone: its Redis keys, the stage of each of its jobs, and what SQLite and the
client's active set say of it. `WStep` lists everything that a step of the engine can do to this
view. It is the abstract machine of a workflow's execution; `WorkflowSimulation` proves that each
step of the whole engine is a step of this machine, or leaves the workflow as it is. -/

namespace FlowPilot

/-- The part of the engine's state that belongs to one workflow. -/
structure WorkflowView where
  space : WorkflowKeyspace
  stages : String → Multiset Stage
  /-- the jobs of the workflow in SQLite -/
  rows : List String
  /-- the workflow has a row in SQLite -/
  recorded : Bool
  /-- the workflow is in its client's active set -/
  active : Bool

namespace WorkflowView

def status (v : WorkflowView) : Option WorkflowStatus := v.space.status

def jobStatus (v : WorkflowView) (j : String) : Option JobStatus := v.space.jobStatus j

def setStages (v : WorkflowView) (j : String) (m : Multiset Stage) : WorkflowView :=
  { v with stages := Function.update v.stages j m }

/-- A job enters the execution queue, which holds it once. -/
def enqueue (v : WorkflowView) : Option (String × Int) → WorkflowView
  | none => v
  | some (j, _) =>
      if .queued ∈ v.stages j then v else v.setStages j (.queued ::ₘ v.stages j)

/-- A job enters the retry set, which holds it once. -/
def delay (v : WorkflowView) (j : String) : WorkflowView :=
  if .retryWait ∈ v.stages j then v else v.setStages j (.retryWait ::ₘ v.stages j)

/-- A canceled sibling leaves the queue that its status puts it in. -/
def dropCanceled (v : WorkflowView) (canceled : List (String × JobStatus)) : WorkflowView :=
  canceled.foldl (fun v (j, st) =>
    if st = .queued then v.setStages j ((v.stages j).erase .queued)
    else if st = .retryDelay then v.setStages j ((v.stages j).erase .retryWait)
    else v) v

section Updates

variable (v : WorkflowView) (i j : String) (m : Multiset Stage)

@[simp] theorem setStages_stages_self : (v.setStages j m).stages j = m :=
  Function.update_self ..

variable {i j} in
theorem setStages_stages_of_ne (h : i ≠ j) : (v.setStages j m).stages i = v.stages i :=
  Function.update_of_ne h ..

theorem enqueue_eq (q : Option (String × Int)) :
    v.enqueue q = { v with stages := (v.enqueue q).stages } := by
  rcases q with _ | ⟨i, n⟩
  · rfl
  · rw [enqueue]
    split <;> rfl

@[simp] theorem enqueue_space (q : Option (String × Int)) : (v.enqueue q).space = v.space := by
  rw [v.enqueue_eq q]

@[simp] theorem delay_space : (v.delay j).space = v.space := by
  rw [delay]
  split <;> rfl

@[simp] theorem enqueue_recorded (q : Option (String × Int)) :
    (v.enqueue q).recorded = v.recorded := by rw [v.enqueue_eq q]

theorem enqueue_rows (q : Option (String × Int)) : (v.enqueue q).rows = v.rows := by
  rw [v.enqueue_eq q]

theorem enqueue_active (q : Option (String × Int)) : (v.enqueue q).active = v.active := by
  rw [v.enqueue_eq q]

@[simp] theorem delay_recorded : (v.delay j).recorded = v.recorded := by
  rw [delay]
  split <;> rfl

variable {v i j m} in
theorem mem_setStages {s : Stage} :
    s ∈ (v.setStages j m).stages i ↔ (i = j ∧ s ∈ m) ∨ (i ≠ j ∧ s ∈ v.stages i) := by
  by_cases hij : i = j
  · subst hij
    simp
  · simp [setStages_stages_of_ne v m hij, hij]

variable {v i} in
theorem mem_of_mem_enqueue {q : Option (String × Int)} {s : Stage}
    (h : s ∈ (v.enqueue q).stages i) : s ∈ v.stages i ∨ s = .queued := by
  rcases q with _ | ⟨k, n⟩
  · exact .inl h
  · rw [enqueue] at h
    split at h
    · exact .inl h
    · rcases mem_setStages.mp h with ⟨rfl, hs⟩ | ⟨-, hs⟩
      · exact (Multiset.mem_cons.mp hs).symm
      · exact .inl hs

variable {v i j} in
theorem mem_of_mem_delay {s : Stage} (h : s ∈ (v.delay j).stages i) :
    s ∈ v.stages i ∨ s = .retryWait := by
  rw [delay] at h
  split at h
  · exact .inl h
  · rcases mem_setStages.mp h with ⟨rfl, hs⟩ | ⟨-, hs⟩
    · exact (Multiset.mem_cons.mp hs).symm
    · exact .inl hs

theorem dropCanceled_cons (st : JobStatus) (rest : List (String × JobStatus)) :
    ∃ m ≤ v.stages j, v.dropCanceled ((j, st) :: rest) = (v.setStages j m).dropCanceled rest := by
  have hself : v.setStages j (v.stages j) = v := by simp [setStages]
  by_cases hq : st = .queued
  · refine ⟨_, Multiset.erase_le .queued _, ?_⟩
    simp only [dropCanceled, List.foldl_cons, if_pos hq]
  · by_cases hr : st = .retryDelay
    · refine ⟨_, Multiset.erase_le .retryWait _, ?_⟩
      simp only [dropCanceled, List.foldl_cons, if_neg hq, if_pos hr]
    · refine ⟨_, le_rfl, ?_⟩
      rw [hself]
      simp only [dropCanceled, List.foldl_cons, if_neg hq, if_neg hr]

end Updates

/-- The cancellation of siblings only takes places in the queues. -/
structure Dropped (v v' : WorkflowView) (canceled : List (String × JobStatus)) : Prop where
  space : v'.space = v.space
  rows : v'.rows = v.rows
  recorded : v'.recorded = v.recorded
  active : v'.active = v.active
  le : ∀ i, v'.stages i ≤ v.stages i
  other : ∀ i, i ∉ canceled.map Prod.fst → v'.stages i = v.stages i

theorem dropCanceled_dropped (canceled : List (String × JobStatus)) (v : WorkflowView) :
    Dropped v (v.dropCanceled canceled) canceled := by
  induction canceled generalizing v with
  | nil => exact ⟨rfl, rfl, rfl, rfl, fun i => le_rfl, fun i _ => rfl⟩
  | cons c rest ih =>
      obtain ⟨j, st⟩ := c
      obtain ⟨m, hm, heq⟩ := v.dropCanceled_cons j st rest
      obtain ⟨hspace, hrows, hrecorded, hactive, hle, hother⟩ := ih (v.setStages j m)
      rw [heq]
      refine ⟨hspace, hrows, hrecorded, hactive, fun i => (hle i).trans ?_, fun i hi => ?_⟩
      · by_cases hij : i = j
        · subst hij
          rw [setStages_stages_self]
          exact hm
        · exact (v.setStages_stages_of_ne m hij).le
      · simp only [List.map_cons, List.mem_cons, not_or] at hi
        rw [hother i hi.2, v.setStages_stages_of_ne m hi.1]

theorem dropCanceled_space (canceled : List (String × JobStatus)) (v : WorkflowView) :
    (v.dropCanceled canceled).space = v.space :=
  (dropCanceled_dropped canceled v).space

theorem mem_of_mem_dropCanceled {canceled : List (String × JobStatus)} {v : WorkflowView}
    {i : String} {t : Stage} (h : t ∈ (v.dropCanceled canceled).stages i) : t ∈ v.stages i :=
  Multiset.mem_of_le ((dropCanceled_dropped canceled v).le i) h

end WorkflowView

/-- The scripts a step may run for a workflow, as far as conditions on runs speak of them. -/
inductive Label where
  | other
  | claim (j : String)
  | start (j : String) (now : Int)
  | success (j : String) (now : Int)
  | fail (j : String) (updatedRetryCount : Int) (jobIds : List String)
  | retry (j : String)
  | promote (j : String)
  | mark (j : String)
  | erase
  deriving DecidableEq, Repr

/-- What is known of the call that a step serves. -/
structure Served where
  label : Label
  /-- the store answered -/
  ok : Bool
  /-- the call belongs to those that follow the success script, and reports failure -/
  tailFailed : Bool

/-- The moves of a job's stage that leave the keys of the workflow as they are. -/
inductive Shift (v : WorkflowView) (x : Served) (j : String) : Stage → Stage → Prop where
  | pop : Shift v x j .queued .popped
  | fetch {d : JobRuntimeData} (h : v.space.fetchJobRuntime j = (true, d)) :
      Shift v x j .claimed (.fetched d.payloadSizeBytes.toNat)
  | verify (size : Nat) : Shift v x j (.fetched size) .verified
  | badPayload (size : Nat) (hsize : 0 < size)
      (h : x.ok = false ∨ ∀ bytes, v.space.payloads j = some bytes → bytes.length ≠ size) :
      Shift v x j (.fetched size) .badPayload
  | dispatch {s : Stage} (hs : Dispatches s) : Shift v x j s .dispatched
  | unstarted (h : x.ok = false) : Shift v x j .dispatched .unstarted
  | startFailed (h : x.ok = false ∨ v.recorded = false ∨ j ∉ v.rows) :
      Shift v x j .started .startFailed
  | report {s : Stage} {st : JobStatus} (hs : Reports s st) : Shift v x j s (.reported st)
  | refused (h : x.ok = false ∨ v.jobStatus j = none ∨ v.status ≠ some .running) :
      Shift v x j (.reported .completed) (.reported .failed)
  | again (h : v.jobStatus j = some .completed) :
      Shift v x j (.reported .completed) (.counted .no [])
  | list (st : JobStatus) : Shift v x j (.reported st) (.listing st v.rows)
  | broken (c : Closing) (l : List String) (htail : x.tailFailed = true)
      (h : x.ok = false ∨ v.recorded = false ∨ j ∉ v.rows ∨ (∃ i ∈ l, i ∉ v.rows) ∨
        (c = .due ∧ v.active = false) ∨ (c = .released ∧ v.space.hash = none)) :
      Shift v x j (.counted c l) (.broken c)
  | due : Shift v x j .retryWait .retryHeld

/-- The ways in which a component lets go of a job without passing it on. -/
inductive Lost (v : WorkflowView) (x : Served) (j : String) : Stage → Prop where
  | fault {s : Stage} (h : x.ok = false) : Lost v x j s
  | unclaimable (h : v.jobStatus j ≠ some .ready ∧ v.jobStatus j ≠ some .queued) :
      Lost v x j .popped
  | unreadable (h : (v.space.fetchJobRuntime j).1 = false) : Lost v x j .claimed
  | missing {st : JobStatus} (h : v.space.hash = none) : Lost v x j (.reported st)
  | released (h : v.active = false) : Lost v x j (.failed .due)

/-- The stages in which a handler deletes keys of the workflow. -/
inductive Deletes : Stage → Prop where
  | counted (l : List String) : Deletes (.counted .released l)
  | countedDeleted (l : List String) : Deletes (.counted .deleted l)
  | broken : Deletes (.broken .released)
  | failed : Deletes (.failed .released)

/-- One key of the workflow deleted by the cleanup, other than its hash. -/
inductive Erased (v : WorkflowView) : WorkflowView → Prop where
  | job (i : String) :
      Erased v { v with space := { v.space with jobs := Function.update v.space.jobs i none } }
  | retry (i : String) : Erased v (v.setStages i ((v.stages i).erase .retryWait))
  | successors (i : String) :
      Erased v { v with
        space := { v.space with successors := Function.update v.space.successors i [] } }
  | payload (i : String) :
      Erased v { v with
        space := { v.space with payloads := Function.update v.space.payloads i none } }
  | waiting : Erased v { v with space := { v.space with waitingReady := .empty } }

theorem Erased.mem_of_mem {v v' : WorkflowView} {i : String} {t : Stage} (h : Erased v v')
    (ht : t ∈ v'.stages i) : t ∈ v.stages i := by
  cases h with
  | retry =>
      rcases WorkflowView.mem_setStages.mp ht with ⟨rfl, hmem⟩ | ⟨-, hmem⟩
      · exact Multiset.mem_of_mem_erase hmem
      · exact hmem
  | _ => exact ht

/-- One step of the machine of a workflow, with the jobs it adds to `completed_jobs`. -/
inductive WStep (x : Served) : WorkflowView → List String → WorkflowView → Prop where
  | shift {v : WorkflowView} {j : String} {s s' : Stage} {rest : Multiset Stage}
      (hs : v.stages j = s ::ₘ rest) (h : Shift v x j s s') :
      WStep x v [] (v.setStages j (s' ::ₘ rest))
  | lose {v : WorkflowView} {j : String} {s : Stage} {rest : Multiset Stage}
      (hs : v.stages j = s ::ₘ rest) (h : Lost v x j s) : WStep x v [] (v.setStages j rest)
  | claim {v : WorkflowView} {j : String} {rest : Multiset Stage} (hx : x.label = .claim j)
      (hs : v.stages j = .popped ::ₘ rest)
      (hst : v.jobStatus j = some .ready ∨ v.jobStatus j = some .queued) :
      WStep x v [] ({ v with space := v.space.setJobStatus j .pendingExecution }.setStages j
        (.claimed ::ₘ rest))
  | start {v : WorkflowView} {j : String} {now : Int} {rest : Multiset Stage}
      (hx : x.label = .start j now) (hs : v.stages j = .dispatched ::ₘ rest) :
      WStep x v [] ({ v with space := (v.space.trySetJobToRunning now j).2 }.setStages j
        (.ofStart (v.space.trySetJobToRunning now j).1 ::ₘ rest))
  | expire {v : WorkflowView} {j : String} {now : Int} {rest : Multiset Stage}
      (hx : x.label = .success j now) (hs : v.stages j = .reported .completed ::ₘ rest)
      (h : (v.space.completeSuccessfulJob now j).1 = .runTimeExceeded) :
      WStep x v [] ({ v with space := (v.space.completeSuccessfulJob now j).2 }.setStages j
        (.reported .failed ::ₘ rest))
  | success {v : WorkflowView} {j : String} {now : Int} {rest : Multiset Stage} {done : Bool}
      {promoted : Option (String × Int)} {ready : List String} (hx : x.label = .success j now)
      (hs : v.stages j = .reported .completed ::ₘ rest)
      (h : (v.space.completeSuccessfulJob now j).1 = .counted done promoted ready)
      {advanced : List String}
      (hadvanced : ∀ i ∈ advanced, i ∈ ready ∨ some i = promoted.map Prod.fst) :
      WStep x v [j] (({ v with space := (v.space.completeSuccessfulJob now j).2 }.setStages j
        (.counted (.ofCompleted done) advanced ::ₘ rest)).enqueue promoted)
  | fail {v : WorkflowView} {j : String} {s : Stage} {rest : Multiset Stage} {n : Int}
      {jobIds : List String} (hx : x.label = .fail j n jobIds) (hs : v.stages j = s ::ₘ rest)
      (hstage : (∃ st, s = .listing st jobIds) ∨ ∃ c, s = .broken c) :
      WStep x v (j :: (v.space.completeFailedJob j n jobIds).1.canceled.map Prod.fst)
        (({ v with space := (v.space.completeFailedJob j n jobIds).2 }.setStages j
          (.failed (.ofCompleted (v.space.completeFailedJob j n jobIds).1.workflowCompleted) ::ₘ
            rest)).dropCanceled (v.space.completeFailedJob j n jobIds).1.canceled)
  | mark {v : WorkflowView} {j : String} {c : Closing} (hx : x.label = .mark j)
      (hs : .failed c ∈ v.stages j) :
      WStep x v [] { v with space := v.space.setJobStatus j .aborted }
  | retry {v : WorkflowView} {j : String} {st : JobStatus} {rest : Multiset Stage} {n : Int}
      (hx : x.label = .retry j) (hst : st ≠ .aborted) (hs : v.stages j = .reported st ::ₘ rest) :
      WStep x v [] ((({ v with space := (v.space.scheduleJobRetry j n).2 }.setStages j
        rest).delay j).enqueue (v.space.scheduleJobRetry j n).1)
  | promote {v : WorkflowView} {j : String} {rest : Multiset Stage} (hx : x.label = .promote j)
      (hs : v.stages j = .retryHeld ::ₘ rest) :
      WStep x v [] (({ v with space := (v.space.promoteRetryJob j).2 }.setStages j rest).enqueue
        (v.space.promoteRetryJob j).1)
  | releaseCounted {v : WorkflowView} {j : String} {l : List String} {rest : Multiset Stage}
      (hs : v.stages j = .counted .due l ::ₘ rest) (hactive : v.active = true) :
      WStep x v [] ({ v with active := false }.setStages j (.counted .released l ::ₘ rest))
  | releaseFailed {v : WorkflowView} {j : String} {rest : Multiset Stage}
      (hs : v.stages j = .failed .due ::ₘ rest) (hactive : v.active = true) :
      WStep x v [] ({ v with active := false }.setStages j (.failed .released ::ₘ rest))
  | erase {v v' : WorkflowView} {j : String} {s : Stage} (hs : s ∈ v.stages j) (hdel : Deletes s)
      (h : Erased v v') (hx : x.label = .erase) : WStep x v [] v'
  | deleteCounted {v : WorkflowView} {j : String} {l : List String} {rest : Multiset Stage}
      (hs : v.stages j = .counted .released l ::ₘ rest) :
      WStep x v [] ({ v with space := { v.space with hash := none } }.setStages j
        (.counted .deleted l ::ₘ rest))
  | deleteFailed {v : WorkflowView} {j : String} (hs : .failed .released ∈ v.stages j) :
      WStep x v [] { v with space := { v.space with hash := none } }

section Steps

variable {x : Served} {v v' : WorkflowView} {l : List String}

theorem WStep.recorded (h : WStep x v l v') : v'.recorded = v.recorded := by
  cases h with
  | success => exact WorkflowView.enqueue_recorded ..
  | fail => exact (WorkflowView.dropCanceled_dropped ..).recorded
  | retry => rw [WorkflowView.enqueue_recorded, WorkflowView.delay_recorded]; rfl
  | promote => exact WorkflowView.enqueue_recorded ..
  | erase _ _ herased => cases herased <;> rfl
  | _ => rfl

theorem WStep.exists_holder (h : WStep x v l v') : ∃ j, v.stages j ≠ 0 := by
  have hcons : ∀ {j : String} {s : Stage} {rest : Multiset Stage}, v.stages j = s ::ₘ rest →
      ∃ j, v.stages j ≠ 0 := fun {j _ _} hs => ⟨j, hs ▸ Multiset.cons_ne_zero⟩
  have hmem : ∀ {j : String} {s : Stage}, s ∈ v.stages j → ∃ j, v.stages j ≠ 0 :=
    fun {j _} hs => ⟨j, fun h0 => Multiset.notMem_zero _ (h0 ▸ hs)⟩
  cases h with
  | shift hs => exact hcons hs
  | lose hs => exact hcons hs
  | claim _ hs => exact hcons hs
  | start _ hs => exact hcons hs
  | expire _ hs => exact hcons hs
  | success _ hs => exact hcons hs
  | fail _ hs => exact hcons hs
  | mark _ hs => exact hmem hs
  | retry _ _ hs => exact hcons hs
  | promote _ hs => exact hcons hs
  | releaseCounted hs => exact hcons hs
  | releaseFailed hs => exact hcons hs
  | erase hs => exact hmem hs
  | deleteCounted hs => exact hcons hs
  | deleteFailed hs => exact hmem hs

end Steps

end FlowPilot
