import FlowPilot.StoreScripts

/-! What the scripts do, in terms of the values that invariants speak of: the counters of the
workflow hash, the status and the open dependencies of each job, and the set of waiting jobs. Each
script has one lemma here, and no later proof looks into its body. -/

namespace FlowPilot

namespace WorkflowKeyspace

/-- The fields of the workflow hash that scripts read, as they read them. -/
@[ext] structure Counters where
  status : Option WorkflowStatus
  total : Int
  limit : Int
  reserved : Int
  completed : Int
  started : Option Int

def counters (ks : WorkflowKeyspace) : Counters where
  status := ks.status
  total := ks.number WorkflowHash.totalJobs
  limit := ks.number WorkflowHash.maxConcurrentJobs
  reserved := ks.reserved
  completed := ks.number WorkflowHash.completedJobs
  started := ks.hash.bind WorkflowHash.startRunTime

/-- The dependencies a job still waits for. -/
def remaining (ks : WorkflowKeyspace) (j : String) : Int :=
  ks.jobNumber j JobHash.remainingDependencies

section Primitive

variable (ks : WorkflowKeyspace) (g : JobHash → JobHash) (i j : String) (st : JobStatus)
  (ws : WorkflowStatus) (n : Int)

theorem counters_congr {ks ks' : WorkflowKeyspace} (h : ks'.hash = ks.hash) :
    ks'.counters = ks.counters := by
  simp only [counters, status, number, reserved, h]

theorem counts_of_hash_none {ks : WorkflowKeyspace} (h : ks.hash = none) :
    ks.counters.total = 0 ∧ ks.counters.completed = 0 := by
  simp [counters, number, h]

@[simp] theorem counters_setJob : (ks.setJob j g).counters = ks.counters := rfl

@[simp] theorem counters_setJobStatus : (ks.setJobStatus j st).counters = ks.counters := rfl

@[simp] theorem counters_setStatus :
    (ks.setStatus ws).counters = { ks.counters with status := some ws } := by
  cases h : ks.hash <;> simp [counters, setStatus, status, number, reserved, h]

@[simp] theorem counters_addCompleted :
    (ks.addCompleted n).counters = { ks.counters with completed := ks.counters.completed + n } := by
  cases h : ks.hash <;> simp [counters, addCompleted, status, number, reserved, h]

@[simp] theorem counters_addFailed : ks.addFailed.counters = ks.counters := by
  cases h : ks.hash <;> simp [counters, addFailed, status, number, reserved, h]

@[simp] theorem counters_setReserved :
    (ks.setReserved n).counters = { ks.counters with reserved := n } := by
  cases h : ks.hash <;> simp [counters, setReserved, status, number, reserved, h]

@[simp] theorem counters_releaseSlot :
    ks.releaseSlot.counters = { ks.counters with
      reserved := if ks.counters.reserved > 0 then ks.counters.reserved - 1
        else ks.counters.reserved } := by
  rw [releaseSlot, counters_setReserved]
  rfl

theorem number_setHash_of_keeps (f : WorkflowHash → WorkflowHash) (field : WorkflowHash → Option Int)
    (hnone : field {} = none) (hf : ∀ h, field (f h) = field h) :
    (ks.setHash f).number field = ks.number field := by
  rw [number, number, setHash_hash, Option.bind_some, hf]
  cases hhash : ks.hash <;> simp [hnone]

theorem jobStatus_setJob : (ks.setJob j g).jobStatus i =
    if i = j then (g ((ks.jobs j).getD {})).status else ks.jobStatus i := by
  split
  · rename_i h
    subst h
    simp [jobStatus]
  · rename_i h
    exact setJob_jobStatus_of_ne ks g j i h

theorem remaining_setJob : (ks.setJob j g).remaining i =
    if i = j then ((g ((ks.jobs j).getD {})).remainingDependencies).getD 0
    else ks.remaining i := by
  split
  · rename_i h
    subst h
    simp [remaining, jobNumber]
  · rename_i h
    simp only [remaining, jobNumber, setJob_jobs_of_ne ks g j i h]

theorem jobNumber_setJob_of_keeps {field : JobHash → Option Int} (hnone : field {} = none)
    (hg : ∀ h, field (g h) = field h) : (ks.setJob j g).jobNumber i field = ks.jobNumber i field := by
  by_cases h : i = j
  · subst h
    rw [jobNumber, jobNumber, setJob_jobs_self, Option.bind_some, hg]
    cases hjob : ks.jobs i <;> simp [hnone]
  · rw [jobNumber, jobNumber, setJob_jobs_of_ne ks g j i h]

theorem remaining_setJob_of_keeps
    (hg : ∀ h, (g h).remainingDependencies = h.remainingDependencies) :
    (ks.setJob j g).remaining i = ks.remaining i :=
  jobNumber_setJob_of_keeps ks g i j rfl hg

@[simp] theorem remaining_setJobStatus : (ks.setJobStatus j st).remaining i = ks.remaining i :=
  remaining_setJob_of_keeps ks _ i j (fun _ => rfl)

@[simp] theorem setStatus_jobs : (ks.setStatus ws).jobs = ks.jobs := rfl
@[simp] theorem addCompleted_jobs : (ks.addCompleted n).jobs = ks.jobs := rfl
@[simp] theorem addFailed_jobs : ks.addFailed.jobs = ks.jobs := rfl
@[simp] theorem setReserved_jobs : (ks.setReserved n).jobs = ks.jobs := rfl
@[simp] theorem releaseSlot_jobs : ks.releaseSlot.jobs = ks.jobs := rfl

end Primitive

/-- The keys of two workflows agree up to the hash. -/
structure SameJobs (ks ks' : WorkflowKeyspace) : Prop where
  jobs : ks'.jobs = ks.jobs
  successors : ks'.successors = ks.successors
  waiting : ks'.waitingReady = ks.waitingReady
  payloads : ks'.payloads = ks.payloads

namespace SameJobs

variable {ks ks' ks'' : WorkflowKeyspace}

theorem jobStatus (h : SameJobs ks ks') (i : String) : ks'.jobStatus i = ks.jobStatus i := by
  simp only [WorkflowKeyspace.jobStatus, h.jobs]

theorem remaining (h : SameJobs ks ks') (i : String) : ks'.remaining i = ks.remaining i := by
  simp only [WorkflowKeyspace.remaining, jobNumber, h.jobs]

end SameJobs

/-- The script does not touch the counters of jobs. -/
structure SameCounts (ks ks' : WorkflowKeyspace) : Prop where
  total : ks'.counters.total = ks.counters.total
  completed : ks'.counters.completed = ks.counters.completed

theorem SameCounts.trans {ks ks' ks'' : WorkflowKeyspace} (h : SameCounts ks ks')
    (h' : SameCounts ks' ks'') : SameCounts ks ks'' :=
  ⟨h'.total.trans h.total, h'.completed.trans h.completed⟩

theorem sameCounts_of_counters {ks ks' : WorkflowKeyspace} {st : Option WorkflowStatus}
    {started : Option Int} {n : Int} (h : ks'.counters = { ks.counters with
      status := st, reserved := n, started := started }) : SameCounts ks ks' := by
  constructor <;> rw [h]

section Promotion

/-- A waiting job is taken from the waiting set and QUEUED, and a slot reserved for it. -/
def queueWaiting (i : String) (ks : WorkflowKeyspace) : WorkflowKeyspace :=
  let queued := { ks with waitingReady := ks.waitingReady.remove i }.setJobStatus i .queued
  queued.setReserved (queued.reserved + 1)

theorem promoteWaiting_cases (ks : WorkflowKeyspace) :
    (ks.promoteWaiting = (none, ks) ∧ ks.waitingReady.members = []) ∨
    ∃ i n, i ∈ ks.waitingReady.members ∧
      ks.promoteWaiting = (some (i, n), ks.queueWaiting i) := by
  rw [promoteWaiting]
  split
  · rename_i hpop
    exact .inl ⟨rfl, SortedSet.popMax_eq_none hpop⟩
  · rename_i i n rest hpop
    obtain ⟨hmem, rfl⟩ := SortedSet.popMax_eq_some hpop
    exact .inr ⟨i, n, hmem, rfl⟩

variable (ks : WorkflowKeyspace) (i x : String)

/-- What holds of the keys, and still does when a waiting job is QUEUED, holds after a promotion. -/
theorem promoteWaiting_rule {P : WorkflowKeyspace → Prop} {ks : WorkflowKeyspace} (h : P ks)
    (hqueue : ∀ i ∈ ks.waitingReady.members, P (ks.queueWaiting i)) : P ks.promoteWaiting.2 := by
  rcases ks.promoteWaiting_cases with ⟨heq, -⟩ | ⟨i, n, hi, heq⟩
  · rw [heq]
    exact h
  · rw [heq]
    exact hqueue i hi

@[simp] theorem counters_queueWaiting : (ks.queueWaiting i).counters =
    { ks.counters with reserved := ks.counters.reserved + 1 } := by
  rw [queueWaiting, counters_setReserved]
  rfl

theorem jobStatus_queueWaiting : (ks.queueWaiting i).jobStatus x =
    if x = i then some .queued else ks.jobStatus x :=
  setJobStatus_jobStatus { ks with waitingReady := ks.waitingReady.remove i } i x .queued

@[simp] theorem remaining_queueWaiting : (ks.queueWaiting i).remaining x = ks.remaining x :=
  remaining_setJobStatus { ks with waitingReady := ks.waitingReady.remove i } x i .queued

@[simp] theorem queueWaiting_successors : (ks.queueWaiting i).successors = ks.successors := rfl

@[simp] theorem queueWaiting_payloads : (ks.queueWaiting i).payloads = ks.payloads := rfl

@[simp] theorem queueWaiting_waitingReady :
    (ks.queueWaiting i).waitingReady = ks.waitingReady.remove i := rfl

theorem status_queueWaiting : (ks.queueWaiting i).status = ks.status :=
  congrArg Counters.status (counters_queueWaiting ks i)

theorem status_promoteWaiting (ks : WorkflowKeyspace) : ks.promoteWaiting.2.status = ks.status :=
  promoteWaiting_rule (P := fun ks' => ks'.status = ks.status) rfl
    (fun i _ => status_queueWaiting ks i)

theorem promoteWaiting_sameCounts (ks : WorkflowKeyspace) :
    SameCounts ks ks.promoteWaiting.2 :=
  promoteWaiting_rule ⟨rfl, rfl⟩ (fun i _ => sameCounts_of_counters (counters_queueWaiting ks i))

theorem jobStatus_promoteWaiting_of_not_mem {ks : WorkflowKeyspace} {i : String}
    (h : i ∉ ks.waitingReady.members) : ks.promoteWaiting.2.jobStatus i = ks.jobStatus i := by
  refine promoteWaiting_rule (P := fun ks' => ks'.jobStatus i = ks.jobStatus i) rfl (fun k hk => ?_)
  refine (jobStatus_queueWaiting ks k i).trans (if_neg ?_)
  rintro rfl
  exact h hk

theorem jobStatus_promoteWaiting (ks : WorkflowKeyspace) (x : String) :
    ks.promoteWaiting.2.jobStatus x =
      if some x = ks.promoteWaiting.1.map Prod.fst then some .queued else ks.jobStatus x := by
  rcases ks.promoteWaiting_cases with ⟨heq, -⟩ | ⟨i, n, -, heq⟩
  · rw [heq]
    rfl
  · rw [heq, jobStatus_queueWaiting]
    simp only [Option.map_some, Option.some.injEq]

theorem mem_waiting_of_promoteWaiting {ks : WorkflowKeyspace} {i : String}
    (h : some i = ks.promoteWaiting.1.map Prod.fst) : i ∈ ks.waitingReady.members := by
  rcases ks.promoteWaiting_cases with ⟨heq, -⟩ | ⟨j, n, hj, heq⟩
  · rw [heq] at h
    cases h
  · rw [heq] at h
    cases h
    exact hj

end Promotion

section Successors

/-- A PENDING job whose last open dependency is about to complete. -/
def LastOpen (ks : WorkflowKeyspace) (i : String) : Prop :=
  ks.jobStatus i = some .pending ∧ ks.remaining i ≤ 1

instance (ks : WorkflowKeyspace) (i : String) : Decidable (ks.LastOpen i) :=
  inferInstanceAs (Decidable (_ ∧ _))

variable (ks : WorkflowKeyspace) (i j : String)

@[simp] theorem counters_makeReady : (ks.makeReady j).counters = ks.counters := by
  rw [makeReady]
  split
  · cases h : ks.hash <;> simp [counters, status, number, reserved, setJob, setHash, h]
  · rfl

theorem makeReady_successors : (ks.makeReady j).successors = ks.successors := by
  rw [makeReady]
  split <;> rfl

theorem makeReady_payloads : (ks.makeReady j).payloads = ks.payloads := by
  rw [makeReady]
  split <;> rfl

theorem jobStatus_makeReady :
    (ks.makeReady j).jobStatus i = if i = j then some .ready else ks.jobStatus i := by
  have hjobs : (ks.makeReady j).jobStatus i = (ks.setJob j (fun h =>
      { h with remainingDependencies := some 0, status := some .ready })).jobStatus i := by
    rw [makeReady]
    split <;> rfl
  rw [hjobs, jobStatus_setJob]

theorem remaining_makeReady_of_ne (h : i ≠ j) : (ks.makeReady j).remaining i = ks.remaining i := by
  have hjobs : (ks.makeReady j).remaining i = (ks.setJob j (fun h =>
      { h with remainingDependencies := some 0, status := some .ready })).remaining i := by
    rw [makeReady]
    split <;> rfl
  rw [hjobs, remaining_setJob, if_neg h]

theorem mem_waiting_makeReady :
    i ∈ (ks.makeReady j).waitingReady.members ↔ i = j ∨ i ∈ ks.waitingReady.members := by
  rw [makeReady]
  split <;> exact SortedSet.mem_members_add ..

/-- What the loop over the successors of a completed job does. -/
structure Advanced (js : List String) (ks : WorkflowKeyspace) (ready : List String)
    (ks' : WorkflowKeyspace) : Prop where
  counters : ks'.counters = ks.counters
  successors : ks'.successors = ks.successors
  payloads : ks'.payloads = ks.payloads
  jobStatus : ∀ i, ks'.jobStatus i =
    if i ∈ js ∧ ks.LastOpen i then some .ready else ks.jobStatus i
  remaining : ∀ i, ks'.jobStatus i = some .pending →
    ks'.remaining i = if i ∈ js then ks.remaining i - 1 else ks.remaining i
  waiting : ∀ i, i ∈ ks'.waitingReady.members ↔
    i ∈ ks.waitingReady.members ∨ (i ∈ js ∧ ks.LastOpen i)
  ready : ∀ i, i ∈ ready ↔ i ∈ js ∧ ks.LastOpen i

/-- One turn of the loop over the successors. -/
def advanceOne (j : String) (ks : WorkflowKeyspace) : WorkflowKeyspace :=
  if ks.jobStatus j = some .pending then
    let decremented := ks.setJob j (fun h =>
      { h with remainingDependencies := some (ks.remaining j - 1) })
    if ks.remaining j ≤ 1 then decremented.makeReady j else decremented
  else ks

theorem advanceSuccessors_cons (j : String) (rest : List String) (ks : WorkflowKeyspace) :
    advanceSuccessors (j :: rest) ks =
      (if ks.LastOpen j then j :: (advanceSuccessors rest (ks.advanceOne j)).1
        else (advanceSuccessors rest (ks.advanceOne j)).1,
        (advanceSuccessors rest (ks.advanceOne j)).2) := by
  have hiff : ks.jobNumber j JobHash.remainingDependencies - 1 ≤ 0 ↔ ks.remaining j ≤ 1 := by
    rw [remaining]
    omega
  rw [advanceSuccessors, advanceOne]
  simp only [LastOpen, hiff]
  by_cases hpending : ks.jobStatus j = some .pending
  · by_cases hle : ks.remaining j ≤ 1
    · simp only [hpending, hle, if_true, and_self]
      rfl
    · simp only [hpending, hle, if_true, if_false, and_false]
      rfl
  · simp only [hpending, if_false, false_and]

structure AdvancedOne (j : String) (ks ks' : WorkflowKeyspace) : Prop where
  counters : ks'.counters = ks.counters
  successors : ks'.successors = ks.successors
  payloads : ks'.payloads = ks.payloads
  other : ∀ i, i ≠ j → ks'.jobStatus i = ks.jobStatus i ∧ ks'.remaining i = ks.remaining i
  self : ks'.jobStatus j = if ks.LastOpen j then some .ready else ks.jobStatus j
  count : ks'.jobStatus j = some .pending → ks'.remaining j = ks.remaining j - 1
  waiting : ∀ i, i ∈ ks'.waitingReady.members ↔
    i ∈ ks.waitingReady.members ∨ (i = j ∧ ks.LastOpen j)

theorem advanceOne_advanced (j : String) (ks : WorkflowKeyspace) :
    AdvancedOne j ks (ks.advanceOne j) := by
  have hdecremented : ∀ i, (ks.setJob j (fun h =>
      { h with remainingDependencies := some (ks.remaining j - 1) })).jobStatus i =
        ks.jobStatus i := by
    intro i
    rw [jobStatus_setJob]
    split
    · rename_i h
      subst h
      cases hjob : ks.jobs i <;> simp [jobStatus, hjob]
    · rfl
  rw [advanceOne]
  by_cases hpending : ks.jobStatus j = some .pending
  · rw [if_pos hpending]
    by_cases hle : ks.remaining j ≤ 1
    · have hlast : ks.LastOpen j := ⟨hpending, hle⟩
      rw [if_pos hle]
      refine ⟨by simp, makeReady_successors .., makeReady_payloads .., fun i hi => ⟨?_, ?_⟩, ?_,
        fun h => ?_, fun i => ?_⟩
      · rw [jobStatus_makeReady, if_neg hi, hdecremented]
      · rw [remaining_makeReady_of_ne _ _ _ hi, remaining_setJob, if_neg hi]
      · rw [jobStatus_makeReady, if_pos rfl, if_pos hlast]
      · rw [jobStatus_makeReady, if_pos rfl] at h
        cases h
      · rw [mem_waiting_makeReady]
        simp [hlast, or_comm]
    · have hlast : ¬ ks.LastOpen j := fun h => hle h.2
      rw [if_neg hle]
      refine ⟨rfl, rfl, rfl, fun i hi => ⟨hdecremented i, ?_⟩, ?_, fun _ => ?_, fun i => ?_⟩
      · rw [remaining_setJob, if_neg hi]
      · rw [hdecremented, if_neg hlast]
      · rw [remaining_setJob, if_pos rfl]
        rfl
      · simp [hlast]
  · have hlast : ¬ ks.LastOpen j := fun h => hpending h.1
    rw [if_neg hpending]
    refine ⟨rfl, rfl, rfl, fun i _ => ⟨rfl, rfl⟩, ?_, fun h => absurd h hpending, fun i => ?_⟩
    · rw [if_neg hlast]
    · simp [hlast]

theorem AdvancedOne.cons {ks ks₁ ks' : WorkflowKeyspace} {j : String} {js ready : List String}
    (hone : AdvancedOne j ks ks₁) (hj : j ∉ js) (hrest : Advanced js ks₁ ready ks') :
    Advanced (j :: js) ks (if ks.LastOpen j then j :: ready else ready) ks' := by
  have hlast : ∀ i, i ≠ j → (ks₁.LastOpen i ↔ ks.LastOpen i) := fun i hi => by
    rw [LastOpen, LastOpen, (hone.other i hi).1, (hone.other i hi).2]
  refine ⟨hrest.counters.trans hone.counters, hrest.successors.trans hone.successors,
    hrest.payloads.trans hone.payloads, fun i => ?_, fun i hi => ?_, fun i => ?_, fun i => ?_⟩
  · rw [hrest.jobStatus i]
    by_cases hij : i = j
    · subst hij
      simp only [hj, false_and, if_false, hone.self, List.mem_cons, true_or, true_and]
    · simp only [List.mem_cons, hij, false_or, hlast i hij, (hone.other i hij).1]
  · rw [hrest.remaining i hi]
    by_cases hij : i = j
    · subst hij
      rw [hrest.jobStatus i] at hi
      simp only [hj, false_and, if_false] at hi
      simp only [hj, if_false, List.mem_cons, true_or, if_true, hone.count hi]
    · simp only [List.mem_cons, hij, false_or, (hone.other i hij).2]
  · rw [hrest.waiting i, hone.waiting i]
    by_cases hij : i = j
    · subst hij
      simp [hj]
    · simp [hij, hlast i hij]
  · by_cases hij : i = j
    · subst hij
      by_cases hl : ks.LastOpen i <;> simp [hl, hrest.ready, hj]
    · by_cases hl : ks.LastOpen j <;> simp [hl, hrest.ready, hij, hlast i hij]

/-- The loop over the successors, by induction on their list. -/
theorem advanceSuccessors_advanced (js : List String) (hnodup : js.Nodup) (ks : WorkflowKeyspace) :
    Advanced js ks (advanceSuccessors js ks).1 (advanceSuccessors js ks).2 := by
  induction js generalizing ks with
  | nil =>
      refine ⟨rfl, rfl, rfl, fun i => ?_, fun i _ => ?_, fun i => ?_, fun i => ?_⟩ <;>
        simp [advanceSuccessors]
  | cons j rest ih =>
      obtain ⟨hj, hrest⟩ := List.nodup_cons.mp hnodup
      rw [advanceSuccessors_cons]
      exact (advanceOne_advanced j ks).cons hj (ih hrest _)

theorem counters_advanceSuccessors (js : List String) (ks : WorkflowKeyspace) :
    (advanceSuccessors js ks).2.counters = ks.counters := by
  induction js generalizing ks with
  | nil => rfl
  | cons j rest ih =>
      rw [advanceSuccessors_cons]
      exact (ih _).trans (advanceOne_advanced j ks).counters

end Successors

section Success

/-- What the success script does to the completed job and its successors. -/
structure Finished (j : String) (ks : WorkflowKeyspace) (ready : List String)
    (ks' : WorkflowKeyspace) : Prop where
  counters : ks'.counters = ks.counters
  successors : ∀ i, i ≠ j → ks'.successors i = ks.successors i
  payloads : ks'.payloads = ks.payloads
  self : ks'.jobStatus j = some .completed
  jobStatus : ∀ i, i ≠ j → ks'.jobStatus i =
    if i ∈ ks.successors j ∧ ks.LastOpen i then some .ready else ks.jobStatus i
  remaining : ∀ i, i ≠ j → ks'.jobStatus i = some .pending →
    ks'.remaining i = if i ∈ ks.successors j then ks.remaining i - 1 else ks.remaining i
  waiting : ∀ i, i ∈ ks'.waitingReady.members ↔
    i ∈ ks.waitingReady.members ∨ (i ≠ j ∧ i ∈ ks.successors j ∧ ks.LastOpen i)
  ready : ∀ i, i ∈ ready ↔ i ≠ j ∧ i ∈ ks.successors j ∧ ks.LastOpen i

theorem Finished.status {j : String} {ks ks' : WorkflowKeyspace} {ready : List String}
    (h : Finished j ks ready ks') : ks'.status = ks.status := congrArg Counters.status h.counters

theorem Finished.completed_iff {j d : String} {ks ks' : WorkflowKeyspace} {ready : List String}
    (h : Finished j ks ready ks') (hd : d ≠ j) :
    ks'.jobStatus d = some .completed ↔ ks.jobStatus d = some .completed := by
  rw [h.jobStatus d hd]
  split
  · rename_i hlast
    simp [hlast.2.1]
  · rfl

/-- What the success script does before it looks at the counters. -/
theorem finishJob_finished (j : String) (ks : WorkflowKeyspace) (hnodup : (ks.successors j).Nodup) :
    Finished j ks (ks.finishJob j).1 (ks.finishJob j).2 := by
  let ks₁ : WorkflowKeyspace :=
    { ks.setJobStatus j .completed with successors := Function.update ks.successors j [] }
  have hadvanced := advanceSuccessors_advanced (ks.successors j) hnodup ks₁
  have hstatus : ∀ i, ks₁.jobStatus i = if i = j then some .completed else ks.jobStatus i := fun i =>
    setJobStatus_jobStatus ks j i .completed
  have hremaining : ∀ i, ks₁.remaining i = ks.remaining i := fun i =>
    remaining_setJobStatus ks i j .completed
  have hlast : ∀ i, ks₁.LastOpen i ↔ i ≠ j ∧ ks.LastOpen i := by
    intro i
    rw [LastOpen, LastOpen, hstatus, hremaining]
    by_cases hij : i = j <;> simp [hij]
  refine ⟨hadvanced.counters, fun i hi => ?_, hadvanced.payloads, ?_, fun i hi => ?_,
    fun i hi hp => ?_, fun i => ?_, fun i => ?_⟩
  · exact (congrFun hadvanced.successors i).trans (Function.update_of_ne hi ..)
  · refine (hadvanced.jobStatus j).trans ?_
    simp [hlast, hstatus]
  · refine (hadvanced.jobStatus i).trans ?_
    simp [hlast, hstatus, hi]
  · refine (hadvanced.remaining i hp).trans ?_
    simp only [hremaining]
  · refine (hadvanced.waiting i).trans ?_
    rw [hlast]
    exact or_congr_right and_left_comm
  · refine (hadvanced.ready i).trans ?_
    rw [hlast]
    exact and_left_comm

@[simp] theorem counters_finishJob (j : String) (ks : WorkflowKeyspace) :
    (ks.finishJob j).2.counters = ks.counters :=
  counters_advanceSuccessors ..

@[simp] theorem counters_countCompleted (ks : WorkflowKeyspace) :
    ks.countCompleted.counters = { ks.counters with
      completed := ks.counters.completed + 1
      reserved := if ks.counters.reserved > 0 then ks.counters.reserved - 1
        else ks.counters.reserved } := by
  rw [countCompleted, counters_releaseSlot, counters_addCompleted]

theorem status_countCompleted (ks : WorkflowKeyspace) : ks.countCompleted.status = ks.status :=
  congrArg Counters.status (counters_countCompleted ks)

theorem allCompleted_eq (ks : WorkflowKeyspace) : ks.allCompleted =
    decide (ks.counters.total > 0 ∧ ks.counters.completed = ks.counters.total) := rfl

variable {now : Int} {j : String} {ks : WorkflowKeyspace} {done : Bool}
  {promoted : Option (String × Int)} {ready : List String}

/-- The success script, when it counts the job: the workflow is COMPLETED with the last job, and
otherwise a waiting job is promoted if a slot is free. -/
theorem completeSuccessfulJob_counted
    (h : (ks.completeSuccessfulJob now j).1 = .counted done promoted ready) :
    ks.status = some .running ∧ ks.jobStatus j ≠ none ∧ ks.jobStatus j ≠ some .completed ∧
    (ks.finishJob j).1 = ready ∧
    (((ks.finishJob j).2.countCompleted.allCompleted = true ∧ done = true ∧ promoted = none ∧
      (ks.completeSuccessfulJob now j).2 =
        (ks.finishJob j).2.countCompleted.setStatus .completed) ∨
    ((ks.finishJob j).2.countCompleted.allCompleted = false ∧ done = false ∧
      (((ks.finishJob j).2.countCompleted.counters.reserved <
          (ks.finishJob j).2.countCompleted.counters.limit ∧
        (promoted, (ks.completeSuccessfulJob now j).2) =
          (ks.finishJob j).2.countCompleted.promoteWaiting) ∨
      ((promoted = none ∧ (ks.finishJob j).2.countCompleted.counters.limit ≤
          (ks.finishJob j).2.countCompleted.counters.reserved) ∧
        (ks.completeSuccessfulJob now j).2 = (ks.finishJob j).2.countCompleted)))) := by
  rw [completeSuccessfulJob] at h ⊢
  split at h
  · rename_i ws js hws hjs
    dsimp only at h ⊢
    split at h
    · cases h
    · rename_i hcompleted
      split at h
      · cases h
      · rename_i hrunning
        split at h
        · cases h
        · rename_i hexceeded
          have hrun : ks.status = some .running := by rw [hws, not_not.mp hrunning]
          have hjob : ks.jobStatus j ≠ none ∧ ks.jobStatus j ≠ some .completed := by
            rw [hjs]
            exact ⟨(by simp), fun h => hcompleted (Option.some.inj h)⟩
          refine ⟨hrun, hjob.1, hjob.2, ?_⟩
          rw [if_neg hcompleted, if_neg hrunning, if_neg hexceeded]
          split at h
          · rename_i hall
            cases h
            exact ⟨rfl, .inl ⟨hall, rfl, rfl, by rw [if_pos hall]⟩⟩
          · rename_i hall
            rw [if_neg hall]
            rw [Bool.not_eq_true] at hall
            split at h
            · rename_i hslot
              cases h
              exact ⟨rfl, .inr ⟨hall, rfl, .inl ⟨hslot, by rw [if_pos hslot]⟩⟩⟩
            · rename_i hslot
              cases h
              exact ⟨rfl, .inr ⟨hall, rfl, .inr ⟨⟨rfl, Int.not_lt.mp hslot⟩,
                by rw [if_neg hslot]⟩⟩⟩
  · cases h

/-- What holds once the job and its successors are updated and counted, and still does after a
promotion or when the workflow is set to COMPLETED, holds after the success script. -/
theorem completeSuccessfulJob_rule {P : WorkflowKeyspace → Prop}
    (h : (ks.completeSuccessfulJob now j).1 = .counted done promoted ready)
    (hcount : P (ks.finishJob j).2.countCompleted)
    (hdone : P ((ks.finishJob j).2.countCompleted.setStatus .completed))
    (hpromote : P (ks.finishJob j).2.countCompleted.promoteWaiting.2) :
    P (ks.completeSuccessfulJob now j).2 := by
  obtain ⟨-, -, -, -, hcases⟩ := completeSuccessfulJob_counted h
  rcases hcases with ⟨-, -, -, hks⟩ | ⟨-, -, ⟨-, hks⟩ | ⟨-, hks⟩⟩
  · rw [hks]
    exact hdone
  · rw [congrArg Prod.snd hks]
    exact hpromote
  · rw [hks]
    exact hcount

theorem completeSuccessfulJob_expired (h : (ks.completeSuccessfulJob now j).1 = .runTimeExceeded) :
    ks.status = some .running ∧ ks.runTimeExceeded now = true ∧
      (ks.completeSuccessfulJob now j).2 = ks.setStatus .failed := by
  rw [completeSuccessfulJob] at h ⊢
  split at h
  · rename_i ws js hws hjs
    dsimp only at h ⊢
    split at h
    · cases h
    · rename_i hcompleted
      split at h
      · cases h
      · rename_i hrunning
        split at h
        · rename_i hexceeded
          rw [if_neg hcompleted, if_neg hrunning, if_pos hexceeded, hws, not_not.mp hrunning]
          exact ⟨rfl, hexceeded, rfl⟩
        · split at h
          · cases h
          · split at h <;> cases h
  · cases h

theorem completeSuccessfulJob_counts
    (h : (ks.completeSuccessfulJob now j).1 = .counted done promoted ready) :
    (ks.completeSuccessfulJob now j).2.counters.total = ks.counters.total ∧
    (ks.completeSuccessfulJob now j).2.counters.completed = ks.counters.completed + 1 ∧
    (done = true ↔ ks.counters.total > 0 ∧ ks.counters.completed + 1 = ks.counters.total) := by
  obtain ⟨-, -, -, -, hcases⟩ := completeSuccessfulJob_counted h
  have hcounted : (ks.finishJob j).2.countCompleted.counters.total = ks.counters.total ∧
      (ks.finishJob j).2.countCompleted.counters.completed = ks.counters.completed + 1 := by
    constructor <;> rw [counters_countCompleted, counters_finishJob]
  have hall : (ks.finishJob j).2.countCompleted.allCompleted = true ↔
      ks.counters.total > 0 ∧ ks.counters.completed + 1 = ks.counters.total := by
    rw [allCompleted_eq, decide_eq_true_iff, hcounted.1, hcounted.2]
  rcases hcases with ⟨hdone, rfl, -, hks⟩ | ⟨hdone, rfl, ⟨-, hks⟩ | ⟨-, hks⟩⟩
  · rw [hks, counters_setStatus]
    exact ⟨hcounted.1, hcounted.2, iff_of_true rfl (hall.mp hdone)⟩
  · have hsame := promoteWaiting_sameCounts (ks.finishJob j).2.countCompleted
    rw [← congrArg Prod.snd hks] at hsame
    refine ⟨hsame.total.trans hcounted.1, hsame.completed.trans hcounted.2, ?_⟩
    rw [← hall, hdone]
  · rw [hks]
    refine ⟨hcounted.1, hcounted.2, ?_⟩
    rw [← hall, hdone]

theorem status_completeSuccessfulJob_of_open
    (h : (ks.completeSuccessfulJob now j).1 = .counted false promoted ready) :
    (ks.completeSuccessfulJob now j).2.status = some .running := by
  obtain ⟨hrun, -, -, -, hcases⟩ := completeSuccessfulJob_counted h
  have hcounted : (ks.finishJob j).2.countCompleted.status = some .running := by
    refine (status_countCompleted _).trans ?_
    exact (congrArg Counters.status (counters_finishJob j ks)).trans hrun
  rcases hcases with ⟨-, hdone, -⟩ | ⟨-, -, ⟨-, hks⟩ | ⟨-, hks⟩⟩
  · cases hdone
  · rw [congrArg Prod.snd hks, status_promoteWaiting]
    exact hcounted
  · rw [hks]
    exact hcounted

theorem status_completeSuccessfulJob_of_done
    (h : (ks.completeSuccessfulJob now j).1 = .counted true promoted ready) :
    (ks.completeSuccessfulJob now j).2.status = some .completed := by
  obtain ⟨-, -, -, -, hcases⟩ := completeSuccessfulJob_counted h
  rcases hcases with ⟨-, -, -, hks⟩ | ⟨-, hdone, -⟩
  · rw [hks]
    rfl
  · cases hdone

variable (h : (ks.completeSuccessfulJob now j).1 = .counted done promoted ready)
  (hnodup : (ks.successors j).Nodup)

include h hnodup

/-- The statuses after the success script counted a job: the promoted job is QUEUED, and the other jobs
that it made READY are READY. -/
theorem jobStatus_completeSuccessfulJob (i : String) :
    (ks.completeSuccessfulJob now j).2.jobStatus i =
      if some i = promoted.map Prod.fst then some .queued
      else if i = j then some .completed else if i ∈ ready then some .ready else ks.jobStatus i := by
  obtain ⟨-, -, -, rfl, hcases⟩ := completeSuccessfulJob_counted h
  have hfinished := finishJob_finished j ks hnodup
  have hstatus : (ks.finishJob j).2.countCompleted.jobStatus i = if i = j then some .completed
      else if i ∈ (ks.finishJob j).1 then some .ready else ks.jobStatus i := by
    by_cases hi : i = j
    · subst hi
      exact hfinished.self.trans (if_pos rfl).symm
    · refine (hfinished.jobStatus i hi).trans ?_
      rw [if_neg hi]
      simp only [hfinished.ready i, ne_eq, hi, not_false_eq_true, true_and]
  rcases hcases with ⟨-, -, rfl, hks⟩ | ⟨-, -, ⟨-, hks⟩ | ⟨⟨rfl, -⟩, hks⟩⟩
  · rw [hks]
    exact hstatus
  · rw [congrArg Prod.snd hks, jobStatus_promoteWaiting, hstatus, ← congrArg Prod.fst hks]
  · rw [hks]
    exact hstatus

/-- The job that the success script promotes was waiting, or was made READY by the script. -/
theorem promoted_completeSuccessfulJob {i : String} (hi : some i = promoted.map Prod.fst) :
    i ∈ ks.waitingReady.members ∨ i ∈ ready := by
  obtain ⟨-, -, -, rfl, hcases⟩ := completeSuccessfulJob_counted h
  have hfinished := finishJob_finished j ks hnodup
  rcases hcases with ⟨-, -, rfl, -⟩ | ⟨-, -, ⟨-, hks⟩ | ⟨⟨rfl, -⟩, -⟩⟩
  · cases hi
  · have hfst : promoted = (ks.finishJob j).2.countCompleted.promoteWaiting.1 :=
      congrArg Prod.fst hks
    have hmem : i ∈ (ks.finishJob j).2.countCompleted.waitingReady.members :=
      mem_waiting_of_promoteWaiting (hi.trans (congrArg (Option.map Prod.fst) hfst))
    rw [hfinished.ready]
    exact (hfinished.waiting i).mp hmem
  · cases hi

theorem ready_completeSuccessfulJob {i : String} (hi : i ∈ ready) :
    i ≠ j ∧ ks.jobStatus i = some .pending := by
  obtain ⟨-, -, -, rfl, -⟩ := completeSuccessfulJob_counted h
  obtain ⟨hne, -, hlast⟩ := ((finishJob_finished j ks hnodup).ready i).mp hi
  exact ⟨hne, hlast.1⟩

end Success

section Failure

/-- The failure script cancels the job when another one fails. -/
def Cancelable (ks : WorkflowKeyspace) (failed i : String) : Prop :=
  i ≠ failed ∧ (ks.jobStatus i).any JobStatus.isWaitingToRun = true

instance (ks : WorkflowKeyspace) (failed i : String) : Decidable (ks.Cancelable failed i) :=
  inferInstanceAs (Decidable (_ ∧ _))

/-- What the loop over the siblings of a failed job does. -/
structure Canceled (failed : String) (js : List String) (ks : WorkflowKeyspace)
    (canceled : List (String × JobStatus)) (ks' : WorkflowKeyspace) : Prop where
  hash : ks'.hash = ks.hash
  successors : ks'.successors = ks.successors
  payloads : ks'.payloads = ks.payloads
  remaining : ∀ i, ks'.remaining i = ks.remaining i
  jobStatus : ∀ i, ks'.jobStatus i =
    if i ∈ js ∧ ks.Cancelable failed i then some .aborted else ks.jobStatus i
  mem : ∀ i st, (i, st) ∈ canceled ↔ i ∈ js ∧ ks.Cancelable failed i ∧ ks.jobStatus i = some st
  nodup : (canceled.map Prod.fst).Nodup

def cancelOne (i : String) (ks : WorkflowKeyspace) : WorkflowKeyspace :=
  { ks.setJobStatus i .aborted with waitingReady := ks.waitingReady.remove i }

theorem jobStatus_cancelOne (ks : WorkflowKeyspace) (i x : String) :
    (ks.cancelOne i).jobStatus x = if x = i then some .aborted else ks.jobStatus x :=
  setJobStatus_jobStatus ks i x .aborted

theorem cancelable_cancelOne (ks : WorkflowKeyspace) (failed i x : String) :
    (ks.cancelOne i).Cancelable failed x ↔ x ≠ i ∧ ks.Cancelable failed x := by
  rw [Cancelable, Cancelable, jobStatus_cancelOne]
  by_cases hx : x = i
  · simp [hx, JobStatus.isWaitingToRun]
  · simp [hx]

theorem cancelSiblings_cons (failed i : String) (rest : List String) (ks : WorkflowKeyspace)
    {st : JobStatus} (hst : ks.jobStatus i = some st) (h : ks.Cancelable failed i) :
    cancelSiblings failed (i :: rest) ks =
      ((i, st) :: (cancelSiblings failed rest (ks.cancelOne i)).1,
        (cancelSiblings failed rest (ks.cancelOne i)).2) := by
  have hwait : i ≠ failed ∧ st.isWaitingToRun = true := by
    rw [Cancelable, hst] at h
    exact h
  rw [cancelSiblings, hst]
  dsimp only
  rw [if_pos hwait]
  rfl

theorem cancelSiblings_cons_of_not (failed i : String) (rest : List String)
    (ks : WorkflowKeyspace) (h : ¬ ks.Cancelable failed i) :
    cancelSiblings failed (i :: rest) ks = cancelSiblings failed rest ks := by
  rw [cancelSiblings]
  split
  · rfl
  · rename_i st hst
    refine if_neg (fun hwait => h ?_)
    rw [Cancelable, hst]
    exact hwait

/-- The loop over the siblings, by induction on their list. -/
theorem cancelSiblings_canceled (failed : String) (js : List String) (ks : WorkflowKeyspace) :
    Canceled failed js ks (cancelSiblings failed js ks).1 (cancelSiblings failed js ks).2 := by
  induction js generalizing ks with
  | nil =>
      refine ⟨rfl, rfl, rfl, fun _ => rfl, fun i => ?_, fun i st => ?_, ?_⟩ <;>
        simp [cancelSiblings]
  | cons i rest ih =>
      by_cases hc : ks.Cancelable failed i
      · have hst : ∃ st, ks.jobStatus i = some st := by
          cases hs : ks.jobStatus i with
          | none =>
              rw [Cancelable, hs] at hc
              exact absurd hc.2 Bool.false_ne_true
          | some st => exact ⟨st, rfl⟩
        obtain ⟨st, hst⟩ := hst
        have hrest := ih (ks.cancelOne i)
        rw [cancelSiblings_cons failed i rest ks hst hc]
        refine ⟨hrest.hash, hrest.successors, hrest.payloads, fun x => ?_, fun x => ?_,
          fun x st' => ?_, ?_⟩
        · exact (hrest.remaining x).trans (remaining_setJobStatus ks x i .aborted)
        · rw [hrest.jobStatus x]
          simp only [cancelable_cancelOne, jobStatus_cancelOne]
          by_cases hx : x = i
          · simp [hx, hc]
          · simp [hx]
        · rw [List.mem_cons, hrest.mem x st', cancelable_cancelOne, jobStatus_cancelOne,
            Prod.mk.injEq]
          by_cases hx : x = i
          · subst hx
            simp [hc, hst, eq_comm]
          · simp [hx]
        · rw [List.map_cons, List.nodup_cons]
          refine ⟨fun hmem => ?_, hrest.nodup⟩
          obtain ⟨⟨x, st'⟩, hx, hxi⟩ := List.mem_map.mp hmem
          have hcancel := ((hrest.mem x st').mp hx).2.1
          exact ((cancelable_cancelOne ks failed i x).mp hcancel).1 hxi
      · have hrest := ih ks
        rw [cancelSiblings_cons_of_not failed i rest ks hc]
        refine ⟨hrest.hash, hrest.successors, hrest.payloads, hrest.remaining, fun x => ?_,
          fun x st => ?_, hrest.nodup⟩
        · rw [hrest.jobStatus x]
          by_cases hx : x = i
          · simp [hx, hc]
          · simp [hx]
        · rw [hrest.mem x st]
          by_cases hx : x = i
          · simp [hx, hc]
          · simp [hx]

theorem cancelSiblings_waiting (failed : String) (js : List String) (ks : WorkflowKeyspace)
    (x : String) : x ∈ (cancelSiblings failed js ks).2.waitingReady.members ↔
      x ∈ ks.waitingReady.members ∧ ¬ (x ∈ js ∧ ks.Cancelable failed x) := by
  induction js generalizing ks with
  | nil => simp [cancelSiblings]
  | cons i rest ih =>
      by_cases hc : ks.Cancelable failed i
      · obtain ⟨st, hst, -⟩ := (Option.any_eq_true _ _).mp hc.2
        have hremoved : x ∈ (ks.cancelOne i).waitingReady.members ↔
            x ∈ ks.waitingReady.members ∧ x ≠ i := SortedSet.mem_members_remove ..
        rw [cancelSiblings_cons failed i rest ks hst hc]
        rw [ih (ks.cancelOne i), hremoved, cancelable_cancelOne]
        by_cases hx : x = i
        · simp [hx, hc]
        · simp [hx]
      · rw [cancelSiblings_cons_of_not failed i rest ks hc, ih ks]
        by_cases hx : x = i
        · simp [hx, hc]
        · simp [hx]

@[simp] theorem counters_countFailed (n : Nat) (ks : WorkflowKeyspace) :
    (ks.countFailed n).counters =
      { ks.counters with completed := ks.counters.completed + (1 + n) } := by
  rw [countFailed, counters_addFailed, counters_addCompleted]

/-- What the failure script does to a workflow that is running. -/
structure FailedRunning (j : String) (js : List String) (ks : WorkflowKeyspace)
    (outcome : FailureOutcome) (ks' : WorkflowKeyspace) : Prop where
  counters : ks'.counters = { ks.counters with
    status := some .failed
    reserved := if ks.counters.reserved > 0 then ks.counters.reserved - 1 else ks.counters.reserved
    completed := ks.counters.completed + (1 + outcome.canceled.length) }
  successors : ks'.successors = ks.successors
  payloads : ks'.payloads = ks.payloads
  self : ks'.jobStatus j = some .failed
  jobStatus : ∀ i, i ≠ j → ks'.jobStatus i =
    if i ∈ js ∧ (ks.jobStatus i).any JobStatus.isWaitingToRun = true then some .aborted
    else ks.jobStatus i
  mem : ∀ i st, (i, st) ∈ outcome.canceled ↔
    i ∈ js ∧ i ≠ j ∧ ks.jobStatus i = some st ∧ st.isWaitingToRun = true
  nodup : (outcome.canceled.map Prod.fst).Nodup
  completed : outcome.workflowCompleted =
    decide (ks'.counters.total > 0 ∧ ks'.counters.completed = ks'.counters.total)

theorem FailedRunning.status {j : String} {js : List String} {ks ks' : WorkflowKeyspace}
    {outcome : FailureOutcome} (h : FailedRunning j js ks outcome ks') :
    ks'.status = some .failed := congrArg Counters.status h.counters

theorem jobStatus_setFailed (ks : WorkflowKeyspace) (j i : String) (n : Int) :
    (ks.setJob j (fun h =>
      { h with status := some .failed, currentRetryCount := some n })).jobStatus i =
      if i = j then some .failed else ks.jobStatus i := by
  rw [jobStatus_setJob]

variable {j : String} {js : List String} {ks : WorkflowKeyspace}

/-- What the failure script does in a RUNNING workflow. -/
theorem completeFailedJob_running (n : Int) (h : ks.status = some .running) :
    FailedRunning j js ks (ks.completeFailedJob j n js).1 (ks.completeFailedJob j n js).2 := by
  have hcanceled := cancelSiblings_canceled j js ((ks.setJob j (fun h =>
    { h with status := some .failed, currentRetryCount := some n })).releaseSlot.setStatus .failed)
  have hcounters := counters_congr hcanceled.hash
  have hstatus : ∀ i, ((ks.setJob j (fun h => { h with
      status := some .failed, currentRetryCount := some n })).releaseSlot.setStatus
        .failed).jobStatus i = if i = j then some .failed else ks.jobStatus i := fun i =>
    jobStatus_setFailed ks j i n
  rw [completeFailedJob]
  dsimp only
  rw [if_pos (show (ks.setJob j (fun h => { h with
    status := some .failed, currentRetryCount := some n })).status = some .running from h)]
  refine ⟨?_, hcanceled.successors, hcanceled.payloads, ?_, fun i hi => ?_, fun i st => ?_,
    hcanceled.nodup, rfl⟩
  · rw [counters_countFailed, hcounters]
    simp
  · refine (hcanceled.jobStatus j).trans ?_
    simp [Cancelable, hstatus]
  · refine (hcanceled.jobStatus i).trans ?_
    simp [Cancelable, hstatus, hi]
  · refine (hcanceled.mem i st).trans ?_
    by_cases hi : i = j
    · simp [Cancelable, hi]
    · simp only [Cancelable, hstatus, hi, if_false, ne_eq, not_false_iff, true_and]
      refine and_congr_right (fun _ => ?_)
      constructor
      · rintro ⟨hany, hst⟩
        rw [hst] at hany
        exact ⟨hst, hany⟩
      · rintro ⟨hst, hany⟩
        rw [hst]
        exact ⟨hany, rfl⟩

theorem waiting_completeFailedJob (n : Int) (h : ks.status = some .running) (i : String) :
    i ∈ (ks.completeFailedJob j n js).2.waitingReady.members ↔
      i ∈ ks.waitingReady.members ∧ ¬ (i ∈ js ∧ ks.Cancelable j i) := by
  rw [completeFailedJob]
  dsimp only
  rw [if_pos (show (ks.setJob j (fun h => { h with
    status := some .failed, currentRetryCount := some n })).status = some .running from h)]
  refine (cancelSiblings_waiting j js _ i).trans ?_
  by_cases hi : i = j
  · simp [Cancelable, hi, releaseSlot, setReserved, setStatus]
  · have hstatus : ((ks.setJob j (fun h => { h with
        status := some .failed, currentRetryCount := some n })).releaseSlot.setStatus
          .failed).jobStatus i = ks.jobStatus i :=
      (jobStatus_setFailed ks j i n).trans (if_neg hi)
    rw [Cancelable, Cancelable, hstatus]
    rfl

/-- What the failure script does to a workflow that is not running. -/
structure FailedOther (j : String) (ks : WorkflowKeyspace) (outcome : FailureOutcome)
    (ks' : WorkflowKeyspace) : Prop where
  counters : ks'.counters = { ks.counters with completed := ks.counters.completed + 1 }
  successors : ks'.successors = ks.successors
  payloads : ks'.payloads = ks.payloads
  waiting : ks'.waitingReady = ks.waitingReady
  remaining : ∀ i, ks'.remaining i = ks.remaining i
  jobStatus : ∀ i, ks'.jobStatus i = if i = j then some .failed else ks.jobStatus i
  canceled : outcome.canceled = []
  completed : outcome.workflowCompleted =
    decide (ks'.counters.total > 0 ∧ ks'.counters.completed = ks'.counters.total)

theorem FailedOther.status {ks' : WorkflowKeyspace} {outcome : FailureOutcome}
    (h : FailedOther j ks outcome ks') : ks'.status = ks.status :=
  congrArg Counters.status h.counters

theorem completeFailedJob_other (n : Int) (h : ks.status ≠ some .running) :
    FailedOther j ks (ks.completeFailedJob j n js).1 (ks.completeFailedJob j n js).2 := by
  rw [completeFailedJob]
  dsimp only
  rw [if_neg (show (ks.setJob j (fun h => { h with
    status := some .failed, currentRetryCount := some n })).status ≠ some .running from h)]
  refine ⟨?_, rfl, rfl, rfl, fun i => ?_, fun i => ?_, rfl, rfl⟩
  · rw [counters_countFailed]
    simp
  · exact remaining_setJob_of_keeps ks (fun h =>
      { h with status := some .failed, currentRetryCount := some n }) i j (fun _ => rfl)
  · exact jobStatus_setFailed ks j i n

theorem completeFailedJob_workflowFailed (j : String) (n : Int) (js : List String)
    (ks : WorkflowKeyspace) :
    (ks.completeFailedJob j n js).1.workflowFailed = true ↔ ks.status = some .running := by
  rw [completeFailedJob]
  dsimp only
  split
  · rename_i h
    exact iff_of_true rfl h
  · rename_i h
    exact iff_of_false nofun h

theorem completeFailedJob_canceled {i : String} {n : Int}
    (h : i ∈ (ks.completeFailedJob j n js).1.canceled.map Prod.fst) :
    ks.status = some .running ∧ i ∈ js ∧ i ≠ j ∧
      ∃ st, ks.jobStatus i = some st ∧ st.isWaitingToRun = true := by
  obtain ⟨⟨k, st⟩, hmem, rfl⟩ := List.mem_map.mp h
  by_cases hrun : ks.status = some .running
  · obtain ⟨hjs, hne, hst, hwait⟩ := ((completeFailedJob_running n hrun).mem k st).mp hmem
    exact ⟨hrun, hjs, hne, st, hst, hwait⟩
  · rw [(completeFailedJob_other n hrun).canceled] at hmem
    cases hmem

theorem completeFailedJob_nodup (j : String) (n : Int) (js : List String) (ks : WorkflowKeyspace) :
    (j :: (ks.completeFailedJob j n js).1.canceled.map Prod.fst).Nodup := by
  refine List.nodup_cons.mpr ⟨fun h => (completeFailedJob_canceled h).2.2.1 rfl, ?_⟩
  by_cases hrun : ks.status = some .running
  · exact (completeFailedJob_running n hrun).nodup
  · rw [(completeFailedJob_other n hrun).canceled]
    exact List.nodup_nil

theorem jobStatus_completeFailedJob_self (j : String) (n : Int) (js : List String)
    (ks : WorkflowKeyspace) : (ks.completeFailedJob j n js).2.jobStatus j = some .failed := by
  by_cases hrun : ks.status = some .running
  · exact (completeFailedJob_running n hrun).self
  · exact ((completeFailedJob_other n hrun).jobStatus j).trans (if_pos rfl)

theorem jobStatus_completeFailedJob {i : String} {n : Int}
    (h : i ∈ j :: (ks.completeFailedJob j n js).1.canceled.map Prod.fst) :
    (ks.completeFailedJob j n js).2.jobStatus i = some .failed ∨
      (ks.completeFailedJob j n js).2.jobStatus i = some .aborted := by
  rcases List.mem_cons.mp h with rfl | h
  · exact .inl (jobStatus_completeFailedJob_self i n js ks)
  · obtain ⟨hrun, hjs, hne, st, hst, hwait⟩ := completeFailedJob_canceled h
    refine .inr (((completeFailedJob_running n hrun).jobStatus i hne).trans (if_pos ⟨hjs, ?_⟩))
    rw [hst]
    exact hwait

theorem completeFailedJob_counts (j : String) (n : Int) (js : List String) (ks : WorkflowKeyspace) :
    (ks.completeFailedJob j n js).2.counters.total = ks.counters.total ∧
    (ks.completeFailedJob j n js).2.counters.completed =
      ks.counters.completed + (1 + (ks.completeFailedJob j n js).1.canceled.length) ∧
    ((ks.completeFailedJob j n js).1.workflowCompleted = true ↔
      (ks.completeFailedJob j n js).2.counters.total > 0 ∧
      (ks.completeFailedJob j n js).2.counters.completed =
        (ks.completeFailedJob j n js).2.counters.total) := by
  by_cases hrun : ks.status = some .running
  · have hfailed : FailedRunning j js ks _ _ := completeFailedJob_running n hrun
    refine ⟨?_, ?_, ?_⟩
    · rw [hfailed.counters]
    · rw [hfailed.counters]
    · rw [hfailed.completed, decide_eq_true_iff]
  · have hfailed : FailedOther j ks _ (ks.completeFailedJob j n js).2 :=
      completeFailedJob_other n hrun
    refine ⟨?_, ?_, ?_⟩
    · rw [hfailed.counters]
    · rw [hfailed.counters, hfailed.canceled]
      rfl
    · rw [hfailed.completed, decide_eq_true_iff]

theorem status_completeFailedJob (j : String) (n : Int) (js : List String)
    (ks : WorkflowKeyspace) : (ks.completeFailedJob j n js).2.status = ks.status ∨
      (ks.completeFailedJob j n js).2.status = some .failed := by
  by_cases hrun : ks.status = some .running
  · exact .inr ((completeFailedJob_running n hrun).status)
  · exact .inl ((completeFailedJob_other n hrun).status)

end Failure

section Starting

/-- What the start script may do. -/
inductive Started (now : Int) (j : String) (ks : WorkflowKeyspace) :
    StartJobResult → WorkflowKeyspace → Prop where
  | canceledBefore (hjob : ks.jobStatus j = some .aborted) : Started now j ks .alreadyCanceled ks
  | wrongJob (haborted : ks.jobStatus j ≠ some .aborted)
      (hjob : ks.jobStatus j ≠ some .pendingExecution) :
      Started now j ks .invariantViolationJobStatus (ks.setStatus .failed)
  | wrongTime (hjob : ks.jobStatus j = some .pendingExecution) (hstatus : ks.status = some .ready)
      (htime : ks.counters.started ≠ none) :
      Started now j ks .invariantViolationWorkflowTime
        ((ks.setJobStatus j .aborted).setStatus .failed)
  | first {ks' : WorkflowKeyspace} (hjob : ks.jobStatus j = some .pendingExecution)
      (hstatus : ks.status = some .ready) (htime : ks.counters.started = none)
      (hcounters : ks'.counters =
        { ks.counters with status := some .running, started := some now })
      (hsame : SameJobs (ks.setJob j (fun h =>
        { h with status := some .running, startRunTime := some now })) ks') :
      Started now j ks .firstToStart ks'
  | again (hjob : ks.jobStatus j = some .pendingExecution) (hstatus : ks.status = some .running) :
      Started now j ks .started (ks.setJob j (fun h =>
        { h with status := some .running, startRunTime := some now }))
  | canceled (hjob : ks.jobStatus j = some .pendingExecution)
      (hstatus : ks.status = some .failed ∨ ks.status = some .canceled) :
      Started now j ks .canceledByWorkflowState (ks.setJobStatus j .aborted)
  | wrongWorkflow (hjob : ks.jobStatus j = some .pendingExecution)
      (hready : ks.status ≠ some .ready) (hrunning : ks.status ≠ some .running)
      (hfailed : ks.status ≠ some .failed) :
      Started now j ks .invariantViolationWorkflowStatus
        ((ks.setJobStatus j .aborted).setStatus .failed)

/-- All that the start script can do, with the condition of each branch. -/
theorem trySetJobToRunning_started (now : Int) (j : String) (ks : WorkflowKeyspace) :
    Started now j ks (ks.trySetJobToRunning now j).1 (ks.trySetJobToRunning now j).2 := by
  rw [trySetJobToRunning]
  split
  · rename_i hjob
    exact .canceledBefore hjob
  · rename_i haborted
    split
    · rename_i hjob
      exact .wrongJob haborted hjob
    · rename_i hjob
      have hpending := not_not.mp hjob
      split
      · rename_i hready
        split
        · rename_i htime
          exact .wrongTime hpending hready (Option.isSome_iff_ne_none.mp htime)
        · rename_i htime
          refine .first hpending hready ?_ ?_ ⟨rfl, rfl, rfl, rfl⟩
          · exact Option.not_isSome_iff_eq_none.mp htime
          · cases h : ks.hash <;>
              simp [counters, status, number, reserved, setJob, setHash, h]
      · rename_i hready
        split
        · rename_i hrunning
          exact .again hpending hrunning
        · rename_i hrunning
          split
          · rename_i hfailed
            exact .canceled hpending hfailed
          · rename_i hfailed
            exact .wrongWorkflow hpending hready hrunning (fun h => hfailed (.inl h))

theorem jobStatus_trySetJobToRunning_of_ne {now : Int} {i j : String} {ks : WorkflowKeyspace}
    (h : i ≠ j) : (ks.trySetJobToRunning now j).2.jobStatus i = ks.jobStatus i := by
  have hset : ∀ st, (ks.setJobStatus j st).jobStatus i = ks.jobStatus i := fun st =>
    (setJobStatus_jobStatus ks j i st).trans (if_neg h)
  have hrun : (ks.setJob j (fun h =>
      { h with status := some .running, startRunTime := some now })).jobStatus i = ks.jobStatus i :=
    setJob_jobStatus_of_ne ks _ j i h
  have hstarted := trySetJobToRunning_started now j ks
  generalize ks.trySetJobToRunning now j = r at hstarted
  obtain ⟨result, ks'⟩ := r
  dsimp only at hstarted ⊢
  cases hstarted with
  | canceledBefore | wrongJob => rfl
  | first _ _ _ _ hsame => exact (hsame.jobStatus i).trans hrun
  | again => exact hrun
  | wrongTime | canceled | wrongWorkflow => exact hset .aborted

theorem trySetJobToRunning_sameCounts (now : Int) (j : String) (ks : WorkflowKeyspace) :
    SameCounts ks (ks.trySetJobToRunning now j).2 := by
  have hfailed : ∀ ks' : WorkflowKeyspace, SameCounts ks' (ks'.setStatus .failed) := fun ks' =>
    sameCounts_of_counters (counters_setStatus ks' .failed)
  have haborted : SameCounts ks (ks.setJobStatus j .aborted) := ⟨rfl, rfl⟩
  have hstarted := trySetJobToRunning_started now j ks
  generalize ks.trySetJobToRunning now j = r at hstarted
  obtain ⟨result, ks'⟩ := r
  dsimp only at hstarted ⊢
  cases hstarted with
  | canceledBefore | again | canceled => exact ⟨rfl, rfl⟩
  | wrongJob => exact hfailed ks
  | wrongTime | wrongWorkflow =>
      exact haborted.trans (hfailed _)
  | first _ _ _ hcounters => exact sameCounts_of_counters hcounters

theorem status_trySetJobToRunning (now : Int) (j : String) (ks : WorkflowKeyspace) :
    (ks.trySetJobToRunning now j).2.status = ks.status ∨
      (ks.trySetJobToRunning now j).2.status = some .failed ∨
      (ks.trySetJobToRunning now j).2.status = some .running := by
  have hstarted := trySetJobToRunning_started now j ks
  generalize ks.trySetJobToRunning now j = r at hstarted
  obtain ⟨result, ks'⟩ := r
  dsimp only at hstarted ⊢
  cases hstarted with
  | canceledBefore | again | canceled => exact .inl rfl
  | wrongJob | wrongTime | wrongWorkflow => exact .inr (.inl rfl)
  | first _ _ _ hcounters => exact .inr (.inr (congrArg Counters.status hcounters))

end Starting

section Retry

/-- The keys after a job was put off: its status, one slot given back. -/
def delayJob (j : String) (n : Int) (ks : WorkflowKeyspace) : WorkflowKeyspace :=
  (ks.setJob j (fun h => { h with
    status := some .retryDelay, currentRetryCount := some n, startRunTime := none })).releaseSlot

variable (j i : String) (n : Int) (ks : WorkflowKeyspace)

@[simp] theorem counters_delayJob :
    (ks.delayJob j n).counters = { ks.counters with
      reserved := if ks.counters.reserved > 0 then ks.counters.reserved - 1
        else ks.counters.reserved } := by
  rw [delayJob, counters_releaseSlot]
  rfl

theorem status_delayJob :
    (ks.delayJob j n).status = ks.status := congrArg Counters.status (counters_delayJob j n ks)

theorem jobStatus_delayJob :
    (ks.delayJob j n).jobStatus i = if i = j then some .retryDelay else ks.jobStatus i := by
  exact jobStatus_setJob ks (fun h => { h with
    status := some .retryDelay, currentRetryCount := some n, startRunTime := none }) i j

theorem remaining_delayJob : (ks.delayJob j n).remaining i = ks.remaining i := by
  exact remaining_setJob_of_keeps ks (fun h => { h with
    status := some .retryDelay, currentRetryCount := some n, startRunTime := none }) i j
    (fun _ => rfl)

/-- The retry script puts the job off and, in a running workflow with a free slot, promotes. -/
theorem scheduleJobRetry_cases :
    (ks.scheduleJobRetry j n = (none, ks.delayJob j n) ∧
      (ks.status ≠ some .running ∨ ks.counters.limit ≤ (ks.delayJob j n).counters.reserved)) ∨
    (ks.status = some .running ∧ (ks.delayJob j n).counters.reserved < ks.counters.limit ∧
      ks.scheduleJobRetry j n = (ks.delayJob j n).promoteWaiting) := by
  have hlimit : (ks.delayJob j n).number WorkflowHash.maxConcurrentJobs = ks.counters.limit :=
    congrArg Counters.limit (counters_delayJob j n ks)
  rw [show ks.scheduleJobRetry j n = if (ks.delayJob j n).status ≠ some .running then
      (none, ks.delayJob j n)
    else if (ks.delayJob j n).reserved ≥ (ks.delayJob j n).number WorkflowHash.maxConcurrentJobs
      then (none, ks.delayJob j n) else (ks.delayJob j n).promoteWaiting from rfl]
  rw [status_delayJob, hlimit]
  split
  · rename_i hclosed
    exact .inl ⟨rfl, .inl hclosed⟩
  · rename_i hrunning
    split
    · rename_i hslot
      exact .inl ⟨rfl, .inr hslot⟩
    · rename_i hslot
      exact .inr ⟨not_not.mp hrunning, Int.not_le.mp hslot, rfl⟩

/-- The keys after a retry came back to the waiting set. -/
def waitAgain (j : String) (ks : WorkflowKeyspace) : WorkflowKeyspace :=
  { ks.setJobStatus j .ready with
    waitingReady := ks.waitingReady.add j (ks.jobNumber j JobHash.priority) }

/-- The keys after a retry was queued at once. -/
def queueRetry (j : String) (ks : WorkflowKeyspace) : WorkflowKeyspace :=
  (ks.setJobStatus j .queued).setReserved (ks.reserved + 1)

theorem jobStatus_waitAgain :
    (ks.waitAgain j).jobStatus i = if i = j then some .ready else ks.jobStatus i :=
  setJobStatus_jobStatus ks j i .ready

theorem jobStatus_queueRetry :
    (ks.queueRetry j).jobStatus i = if i = j then some .queued else ks.jobStatus i :=
  setJobStatus_jobStatus ks j i .queued

@[simp] theorem counters_queueRetry :
    (ks.queueRetry j).counters =
      { ks.counters with reserved := ks.counters.reserved + 1 } := by
  rw [queueRetry, counters_setReserved]
  rfl

theorem status_queueRetry :
    (ks.queueRetry j).status = ks.status := congrArg Counters.status (counters_queueRetry j ks)

/-- What the promotion of a retry may do. -/
inductive Promoted (j : String) (ks : WorkflowKeyspace) :
    Option (String × Int) → WorkflowKeyspace → Prop where
  | missing (h : ks.status = none ∨ ks.jobStatus j = none) : Promoted j ks none ks
  | stopped (hstatus : ks.status ≠ some .running) (hjob : ks.jobStatus j ≠ none) :
      Promoted j ks none (ks.setJobStatus j .aborted)
  | refused (hstatus : ks.status = some .running) (hdelay : ks.jobStatus j ≠ some .retryDelay)
      (hready : ks.jobStatus j ≠ some .ready) : Promoted j ks none ks
  | queued (n : Int) (hstatus : ks.status = some .running)
      (hjob : ks.jobStatus j = some .retryDelay ∨ ks.jobStatus j = some .ready)
      (hslot : ks.counters.reserved < ks.counters.limit) (hwaiting : ks.waitingReady.members = []) :
      Promoted j ks (some (j, n)) (ks.queueRetry j)
  | swapped (hstatus : ks.status = some .running)
      (hjob : ks.jobStatus j = some .retryDelay ∨ ks.jobStatus j = some .ready)
      (hslot : ks.counters.reserved < ks.counters.limit) :
      Promoted j ks (ks.waitAgain j).promoteWaiting.1 (ks.waitAgain j).promoteWaiting.2
  | waiting (hstatus : ks.status = some .running)
      (hjob : ks.jobStatus j = some .retryDelay ∨ ks.jobStatus j = some .ready)
      (hslot : ks.counters.limit ≤ ks.counters.reserved) :
      Promoted j ks none (ks.waitAgain j)

/-- All that the retry script can do, with the condition of each branch. -/
theorem promoteRetryJob_promoted :
    Promoted j ks (ks.promoteRetryJob j).1 (ks.promoteRetryJob j).2 := by
  rw [promoteRetryJob]
  split
  · rename_i ws js hws hjs
    dsimp only
    split
    · rename_i hrunning
      refine .stopped (fun h => hrunning ?_) (fun h => ?_)
      · exact Option.some.inj (hws.symm.trans h)
      · cases hjs.symm.trans h
    · rename_i hrunning
      have hstatus : ks.status = some .running := by rw [hws, not_not.mp hrunning]
      split
      · rename_i hjob
        refine .refused hstatus (fun h => hjob.1 ?_) (fun h => hjob.2 ?_)
        · exact Option.some.inj (hjs.symm.trans h)
        · exact Option.some.inj (hjs.symm.trans h)
      · rename_i hjob
        have hback : ks.jobStatus j = some .retryDelay ∨ ks.jobStatus j = some .ready := by
          rw [hjs]
          by_cases hdelay : js = .retryDelay
          · exact .inl (congrArg some hdelay)
          · exact .inr (congrArg some (by_contra (fun hready => hjob ⟨hdelay, hready⟩)))
        split
        · rename_i hslot
          simp only [Bool.and_eq_true, decide_eq_true_eq] at hslot
          exact .queued _ hstatus hback hslot.1 ((SortedSet.card_eq_zero_iff _).mp hslot.2)
        · split
          · rename_i hslot
            exact .swapped hstatus hback (of_decide_eq_true hslot)
          · rename_i hslot
            rw [decide_eq_true_iff] at hslot
            exact .waiting hstatus hback (Int.not_lt.mp hslot)
  · rename_i hnone
    exact .missing (eq_none_or_of_unread hnone)

theorem status_scheduleJobRetry : (ks.scheduleJobRetry j n).2.status = ks.status := by
  rcases scheduleJobRetry_cases j n ks with ⟨heq, -⟩ | ⟨-, -, heq⟩
  · rw [heq]
    exact status_delayJob j n ks
  · rw [heq, status_promoteWaiting]
    exact status_delayJob j n ks

theorem status_promoteRetryJob : (ks.promoteRetryJob j).2.status = ks.status := by
  have hpromoted := promoteRetryJob_promoted j ks
  generalize (ks.promoteRetryJob j).1 = q, (ks.promoteRetryJob j).2 = ks' at hpromoted
  cases hpromoted with
  | missing | stopped | refused | waiting => rfl
  | queued => exact status_queueRetry j ks
  | swapped => exact status_promoteWaiting (ks.waitAgain j)

theorem scheduleJobRetry_sameCounts : SameCounts ks (ks.scheduleJobRetry j n).2 := by
  have hdelay : SameCounts ks (ks.delayJob j n) := sameCounts_of_counters (counters_delayJob j n ks)
  rcases scheduleJobRetry_cases j n ks with ⟨heq, -⟩ | ⟨-, -, heq⟩
  · rw [heq]
    exact hdelay
  · rw [heq]
    exact hdelay.trans (promoteWaiting_sameCounts _)

theorem promoteRetryJob_sameCounts : SameCounts ks (ks.promoteRetryJob j).2 := by
  have hpromoted := promoteRetryJob_promoted j ks
  generalize (ks.promoteRetryJob j).1 = q, (ks.promoteRetryJob j).2 = ks' at hpromoted
  cases hpromoted with
  | missing | stopped | refused | waiting => exact ⟨rfl, rfl⟩
  | queued => exact sameCounts_of_counters (counters_queueRetry j ks)
  | swapped =>
      have hwait : SameCounts ks (ks.waitAgain j) := ⟨rfl, rfl⟩
      exact hwait.trans (promoteWaiting_sameCounts _)

end Retry

end WorkflowKeyspace

end FlowPilot
