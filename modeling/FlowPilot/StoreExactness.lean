import FlowPilot.StoreEffects
import FlowPilot.StoreRedis
import Mathlib.Tactic.Tauto

/-! Everything the scripts do that end a job or bring a retry back: which jobs change their status,
which counters and scores change, what goes into the sorted sets and what leaves them, and what
stays as it was. -/

namespace FlowPilot

open WorkflowKeyspace

namespace WorkflowKeyspace

section Unblocking

/-- The `priority` of a job, as the scripts read it. -/
def priority (ks : WorkflowKeyspace) (j : String) : Int := ks.jobNumber j JobHash.priority

/-- The counter `pending_jobs` after `n` jobs left it one by one; the script does not go below
zero. -/
def drained (n : Nat) (p : Int) : Int := p - min (n : Int) (max p 0)

theorem drained_zero (p : Int) : drained 0 p = p := by
  unfold drained
  omega

theorem drained_one (p : Int) : drained 1 p = if p > 0 then p - 1 else p := by
  unfold drained
  split <;> omega

theorem drained_add (m n : Nat) (p : Int) : drained n (drained m p) = drained (m + n) p := by
  unfold drained
  omega

variable (ks : WorkflowKeyspace) (i j : String)

theorem priority_setJob_of_keeps (g : JobHash → JobHash) (hg : ∀ h, (g h).priority = h.priority) :
    (ks.setJob j g).priority i = ks.priority i :=
  jobNumber_setJob_of_keeps ks g i j rfl hg

theorem priority_setJobStatus (st : JobStatus) :
    (ks.setJobStatus j st).priority i = ks.priority i :=
  priority_setJob_of_keeps ks i j _ (fun _ => rfl)

theorem makeReady_jobs : (ks.makeReady j).jobs = (ks.setJob j (fun h =>
    { h with remainingDependencies := some 0, status := some .ready })).jobs := by
  rw [makeReady]
  split <;> rfl

theorem remaining_makeReady :
    (ks.makeReady j).remaining i = if i = j then 0 else ks.remaining i := by
  rw [remaining, jobNumber, makeReady_jobs]
  exact remaining_setJob ks _ i j

theorem priority_makeReady : (ks.makeReady j).priority i = ks.priority i := by
  rw [priority, jobNumber, makeReady_jobs]
  exact priority_setJob_of_keeps ks i j _ (fun _ => rfl)

theorem score_makeReady : (ks.makeReady j).waitingReady.score i =
    if i = j then some (ks.priority j) else ks.waitingReady.score i := by
  have hadd : (ks.makeReady j).waitingReady =
      ks.waitingReady.add j ((ks.makeReady j).priority j) := by
    rw [makeReady]
    split <;> rfl
  rw [hadd, priority_makeReady]
  split
  · rename_i h
    subst h
    exact SortedSet.score_add_self ..
  · rename_i h
    exact SortedSet.score_add_of_ne _ h _

theorem pendingJobs_makeReady : (ks.makeReady j).number WorkflowHash.pendingJobs =
    if ks.number WorkflowHash.pendingJobs > 0 then ks.number WorkflowHash.pendingJobs - 1
    else ks.number WorkflowHash.pendingJobs := by
  rw [makeReady]
  split
  · rename_i h
    exact (if_pos h).symm
  · rename_i h
    exact (if_neg h).symm

theorem maxRunTime_makeReady : (ks.makeReady j).number WorkflowHash.maxRunTime =
    ks.number WorkflowHash.maxRunTime := by
  rw [makeReady]
  split
  · exact number_setHash_of_keeps _ _ WorkflowHash.maxRunTime rfl (fun _ => rfl)
  · rfl

variable {ks i j}

/-- What the loop over the successors of a completed job does to the counts and the scores. -/
structure Unblocked (js : List String) (ks : WorkflowKeyspace) (ready : List String)
    (ks' : WorkflowKeyspace) : Prop where
  remaining : ∀ i, ks'.remaining i =
    if i ∈ js ∧ ks.jobStatus i = some .pending then max (ks.remaining i - 1) 0 else ks.remaining i
  priority : ∀ i, ks'.priority i = ks.priority i
  score : ∀ i, ks'.waitingReady.score i =
    if i ∈ js ∧ ks.LastOpen i then some (ks.priority i) else ks.waitingReady.score i
  pending : ks'.number WorkflowHash.pendingJobs =
    drained ready.length (ks.number WorkflowHash.pendingJobs)
  maxRunTime : ks'.number WorkflowHash.maxRunTime = ks.number WorkflowHash.maxRunTime
  nodup : ready.Nodup

theorem unblocked_nil (ks : WorkflowKeyspace) : Unblocked [] ks [] ks := by
  refine ⟨fun i => ?_, fun _ => rfl, fun i => ?_, ?_, rfl, List.nodup_nil⟩
  · simp
  · simp
  · exact (drained_zero _).symm

theorem advanceOne_unblocked (j : String) (ks : WorkflowKeyspace) :
    Unblocked [j] ks (if ks.LastOpen j then [j] else []) (ks.advanceOne j) := by
  have hpriority : ∀ i, (ks.setJob j (fun h =>
      { h with remainingDependencies := some (ks.remaining j - 1) })).priority i = ks.priority i :=
    fun i => priority_setJob_of_keeps ks i j _ (fun _ => rfl)
  rw [advanceOne]
  by_cases hpending : ks.jobStatus j = some .pending
  · rw [if_pos hpending]
    by_cases hle : ks.remaining j ≤ 1
    · rw [if_pos hle, if_pos (show ks.LastOpen j from ⟨hpending, hle⟩)]
      refine ⟨fun i => ?_, fun i => ?_, fun i => ?_, ?_, ?_, List.nodup_singleton j⟩
      · rw [remaining_makeReady, remaining_setJob]
        by_cases hi : i = j
        · subst hi
          simp only [List.mem_singleton, hpending, and_self, if_true]
          omega
        · simp [hi]
      · rw [priority_makeReady, hpriority]
      · rw [score_makeReady, hpriority]
        by_cases hi : i = j
        · subst hi
          simp [LastOpen, hpending, hle]
        · simp [hi]
      · rw [pendingJobs_makeReady]
        exact (drained_one _).symm
      · rw [maxRunTime_makeReady]
        rfl
    · rw [if_neg hle, if_neg (fun h : ks.LastOpen j => hle h.2)]
      refine ⟨fun i => ?_, hpriority, fun i => ?_, ?_, rfl, List.nodup_nil⟩
      · rw [remaining_setJob]
        by_cases hi : i = j
        · subst hi
          simp only [List.mem_singleton, hpending, and_self, if_true, Option.getD_some]
          omega
        · simp [hi]
      · rw [if_neg]
        · rfl
        · rintro ⟨hi, h⟩
          exact hle (List.mem_singleton.mp hi ▸ h.2)
      · exact (drained_zero _).symm
  · rw [if_neg hpending, if_neg (fun h : ks.LastOpen j => hpending h.1)]
    refine ⟨fun i => ?_, fun _ => rfl, fun i => ?_, ?_, rfl, List.nodup_nil⟩
    · rw [if_neg]
      rintro ⟨hi, h⟩
      exact hpending (List.mem_singleton.mp hi ▸ h)
    · rw [if_neg]
      rintro ⟨hi, h⟩
      exact hpending (List.mem_singleton.mp hi ▸ h.1)
    · exact (drained_zero _).symm

variable {ready : List String} {now : Int} {done : Bool} {promoted : Option (String × Int)}

theorem Unblocked.cons {ks₁ ks' : WorkflowKeyspace} {js : List String}
    (hone : AdvancedOne j ks ks₁) (hturn : Unblocked [j] ks (if ks.LastOpen j then [j] else []) ks₁)
    (hj : j ∉ js) (hadvanced : Advanced js ks₁ ready ks') (hrest : Unblocked js ks₁ ready ks') :
    Unblocked (j :: js) ks (if ks.LastOpen j then j :: ready else ready) ks' := by
  have hlast : ∀ i, i ≠ j → (ks₁.LastOpen i ↔ ks.LastOpen i) := fun i hi => by
    rw [LastOpen, LastOpen, (hone.other i hi).1, (hone.other i hi).2]
  have hnotready : j ∉ ready := fun h => hj ((hadvanced.ready j).mp h).1
  refine ⟨fun i => ?_, fun i => (hrest.priority i).trans (hturn.priority i), fun i => ?_, ?_,
    hrest.maxRunTime.trans hturn.maxRunTime, ?_⟩
  · rw [hrest.remaining i]
    by_cases hi : i = j
    · subst hi
      simp [hj, hturn.remaining]
    · simp only [List.mem_cons, hi, false_or, (hone.other i hi).1, (hone.other i hi).2]
  · rw [hrest.score i, hturn.score i, hturn.priority i]
    by_cases hi : i = j
    · subst hi
      simp [hj]
    · simp only [List.mem_cons, hi, false_or, hlast i hi, List.not_mem_nil, false_and, if_false]
  · rw [hrest.pending, hturn.pending, drained_add]
    by_cases h : ks.LastOpen j
    · simp [h, Nat.add_comm]
    · simp [h]
  · by_cases h : ks.LastOpen j
    · rw [if_pos h, List.nodup_cons]
      exact ⟨hnotready, hrest.nodup⟩
    · rw [if_neg h]
      exact hrest.nodup

theorem advanceSuccessors_unblocked (js : List String) (hnodup : js.Nodup) (ks : WorkflowKeyspace) :
    Unblocked js ks (advanceSuccessors js ks).1 (advanceSuccessors js ks).2 := by
  induction js generalizing ks with
  | nil => exact unblocked_nil ks
  | cons j rest ih =>
      obtain ⟨hj, hrest⟩ := List.nodup_cons.mp hnodup
      rw [advanceSuccessors_cons]
      exact Unblocked.cons (advanceOne_advanced j ks) (advanceOne_unblocked j ks) hj
        (advanceSuccessors_advanced rest hrest _) (ih hrest _)

/-- What the completion of a job does to the counts and the scores. -/
structure FinishedCounts (j : String) (ks : WorkflowKeyspace) (ready : List String)
    (ks' : WorkflowKeyspace) : Prop where
  remaining : ∀ i, ks'.remaining i =
    if i ≠ j ∧ i ∈ ks.successors j ∧ ks.jobStatus i = some .pending then
      max (ks.remaining i - 1) 0
    else ks.remaining i
  score : ∀ i, ks'.waitingReady.score i =
    if i ∈ ready then some (ks.priority i) else ks.waitingReady.score i
  pending : ks'.number WorkflowHash.pendingJobs =
    drained ready.length (ks.number WorkflowHash.pendingJobs)
  maxRunTime : ks'.number WorkflowHash.maxRunTime = ks.number WorkflowHash.maxRunTime
  nodup : ready.Nodup

theorem finishJob_counts (j : String) (ks : WorkflowKeyspace) (hnodup : (ks.successors j).Nodup) :
    FinishedCounts j ks (ks.finishJob j).1 (ks.finishJob j).2 := by
  let ks₁ : WorkflowKeyspace :=
    { ks.setJobStatus j .completed with successors := Function.update ks.successors j [] }
  have hunblocked := advanceSuccessors_unblocked (ks.successors j) hnodup ks₁
  have hstatus : ∀ i, ks₁.jobStatus i = if i = j then some .completed else ks.jobStatus i := fun i =>
    setJobStatus_jobStatus ks j i .completed
  have hremaining : ∀ i, ks₁.remaining i = ks.remaining i := fun i =>
    remaining_setJobStatus ks i j .completed
  have hpriority : ∀ i, ks₁.priority i = ks.priority i := fun i =>
    priority_setJobStatus ks i j .completed
  refine ⟨fun i => ?_, fun i => ?_,
    hunblocked.pending, hunblocked.maxRunTime, hunblocked.nodup⟩
  · refine (hunblocked.remaining i).trans ?_
    rw [hstatus, hremaining]
    by_cases hi : i = j
    · simp [hi]
    · simp [hi]
  · refine (hunblocked.score i).trans ?_
    rw [hpriority]
    exact if_congr ((advanceSuccessors_advanced _ hnodup ks₁).ready i).symm rfl rfl

/-- What the counters, the workflow status and a promotion do not touch is, after the success script
counted a job, what it was after the job and its successors were updated. -/
theorem completeSuccessfulJob_keeps {β : Type} {f : WorkflowKeyspace → β}
    (hcompleted : ∀ ks n, f (addCompleted ks n) = f ks)
    (hreserved : ∀ ks n, f (setReserved ks n) = f ks)
    (hstatus : ∀ ks st, f (setStatus ks st) = f ks) (hqueue : ∀ ks i, f (queueWaiting i ks) = f ks)
    (h : (ks.completeSuccessfulJob now j).1 = .counted done promoted ready) :
    f (ks.completeSuccessfulJob now j).2 = f (ks.finishJob j).2 := by
  have hcounted : ∀ ks : WorkflowKeyspace, f ks.countCompleted = f ks := fun ks =>
    (hreserved _ _).trans (hcompleted ks 1)
  refine completeSuccessfulJob_rule (P := fun ks' => f ks' = f (ks.finishJob j).2) h (hcounted _) ?_
    (promoteWaiting_rule (P := fun ks' => f ks' = f (ks.finishJob j).2) (hcounted _) ?_)
  · rw [hstatus, hcounted]
  · intro i _
    rw [hqueue, hcounted]

theorem remaining_completeSuccessfulJob
    (h : (ks.completeSuccessfulJob now j).1 = .counted done promoted ready) (i : String) :
    (ks.completeSuccessfulJob now j).2.remaining i = (ks.finishJob j).2.remaining i :=
  completeSuccessfulJob_keeps (f := fun ks => ks.remaining i) (fun _ _ => rfl) (fun _ _ => rfl)
    (fun _ _ => rfl) (fun ks x => remaining_queueWaiting ks x i) h

/-- The jobs that the success script makes READY leave the counter of pending jobs. -/
theorem pendingJobs_completeSuccessfulJob
    (h : (ks.completeSuccessfulJob now j).1 = .counted done promoted ready)
    (hnodup : (ks.successors j).Nodup) :
    (ks.completeSuccessfulJob now j).2.number WorkflowHash.pendingJobs =
      drained ready.length (ks.number WorkflowHash.pendingJobs) := by
  have hset : ∀ ks' f, (∀ h, (f h : WorkflowHash).pendingJobs = h.pendingJobs) →
      (setHash ks' f).number WorkflowHash.pendingJobs = ks'.number WorkflowHash.pendingJobs :=
    fun ks' f hf => number_setHash_of_keeps ks' f _ rfl hf
  refine (completeSuccessfulJob_keeps (f := fun ks => ks.number WorkflowHash.pendingJobs)
    (fun ks' _ => hset ks' _ (fun _ => rfl)) (fun ks' _ => hset ks' _ (fun _ => rfl))
    (fun ks' _ => hset ks' _ (fun _ => rfl)) (fun ks' i => hset _ _ (fun _ => rfl)) h).trans ?_
  obtain ⟨-, -, -, rfl, -⟩ := completeSuccessfulJob_counted h
  exact (finishJob_counts j ks hnodup).pending

theorem runTimeExceeded_completeSuccessfulJob
    (h : (ks.completeSuccessfulJob now j).1 = .counted done promoted ready)
    (hnodup : (ks.successors j).Nodup) (later : Int) :
    (ks.completeSuccessfulJob now j).2.runTimeExceeded later = ks.runTimeExceeded later := by
  have hset : ∀ ks' f, (∀ h, (f h : WorkflowHash).startRunTime = h.startRunTime ∧
      (f h).maxRunTime = h.maxRunTime) →
      (setHash ks' f).runTimeExceeded later = ks'.runTimeExceeded later := by
    intro ks' f hf
    rw [runTimeExceeded, runTimeExceeded,
      number_setHash_of_keeps ks' f WorkflowHash.startRunTime rfl (fun h => (hf h).1),
      number_setHash_of_keeps ks' f WorkflowHash.maxRunTime rfl (fun h => (hf h).2)]
  refine (completeSuccessfulJob_keeps (f := fun ks => ks.runTimeExceeded later)
    (fun ks' _ => hset ks' _ (fun _ => ⟨rfl, rfl⟩)) (fun ks' _ => hset ks' _ (fun _ => ⟨rfl, rfl⟩))
    (fun ks' _ => hset ks' _ (fun _ => ⟨rfl, rfl⟩)) (fun ks' i => hset _ _ (fun _ => ⟨rfl, rfl⟩))
    h).trans ?_
  have hstart : (ks.finishJob j).2.number WorkflowHash.startRunTime =
      ks.number WorkflowHash.startRunTime :=
    congrArg (fun c : Counters => c.started.getD 0) (counters_finishJob j ks)
  rw [runTimeExceeded, runTimeExceeded, hstart, (finishJob_counts j ks hnodup).maxRunTime]

end Unblocking

section Highest

variable {ks : WorkflowKeyspace}

theorem promoteWaiting_score {i : String} {n : Int} (h : ks.promoteWaiting.1 = some (i, n)) :
    ks.waitingReady.score i = some n ∧ ∀ x m, ks.waitingReady.score x = some m → m ≤ n := by
  rw [promoteWaiting] at h
  split at h
  · cases h
  · rename_i hpop
    cases h
    exact SortedSet.popMax_score hpop

theorem mem_waiting_promoteWaiting (ks : WorkflowKeyspace) (x : String) :
    x ∈ ks.promoteWaiting.2.waitingReady.members ↔
      x ∈ ks.waitingReady.members ∧ ks.promoteWaiting.1.map Prod.fst ≠ some x := by
  rcases ks.promoteWaiting_cases with ⟨heq, hnone⟩ | ⟨i, n, -, heq⟩
  · rw [heq]
    simp
  · rw [heq]
    refine (SortedSet.mem_members_remove ..).trans ?_
    simp [eq_comm]

end Highest

section Success

/-- The successors that the completion of `j` makes READY: the PENDING ones for which it was the last
open dependency. -/
def Unblocks (ks : WorkflowKeyspace) (j i : String) : Prop :=
  i ∈ ks.successors j ∧ ks.jobStatus i = some .pending ∧ ks.remaining i = 1

instance (ks : WorkflowKeyspace) (j i : String) : Decidable (ks.Unblocks j i) :=
  inferInstanceAs (Decidable (_ ∧ _ ∧ _))

/-- The jobs that may be promoted when `j` completes, with their scores: those that wait, and those
that the completion makes READY. -/
def Contends (ks : WorkflowKeyspace) (j i : String) (n : Int) : Prop :=
  (ks.Unblocks j i ∧ n = ks.priority i) ∨ ks.waitingReady.score i = some n

/-- What scripts keep true of a workflow: the waiting jobs are READY, and a PENDING job waits for
something. -/
structure Orderly (ks : WorkflowKeyspace) : Prop where
  waiting : ∀ i ∈ ks.waitingReady.members, ks.jobStatus i = some .ready
  pending : ∀ i, ks.jobStatus i = some .pending → 1 ≤ ks.remaining i

variable {ks : WorkflowKeyspace} {j : String} {now : Int}

theorem mem_finishJob_iff_unblocks (horderly : ks.Orderly) (hj : ks.jobStatus j = some .running)
    (hnodup : (ks.successors j).Nodup) (i : String) :
    i ∈ (ks.finishJob j).1 ↔ ks.Unblocks j i := by
  rw [(finishJob_finished j ks hnodup).ready i, LastOpen, Unblocks]
  constructor
  · rintro ⟨-, hmem, hpending, hle⟩
    exact ⟨hmem, hpending, le_antisymm hle (horderly.pending i hpending)⟩
  · rintro ⟨hmem, hpending, hone⟩
    refine ⟨?_, hmem, hpending, le_of_eq hone⟩
    rintro rfl
    rw [hj] at hpending
    cases hpending

theorem completeSuccessfulJob_of_running (hstatus : ks.status = some .running)
    (hj : ks.jobStatus j = some .running) (htime : ks.runTimeExceeded now = false) :
    ∃ done promoted ready, (ks.completeSuccessfulJob now j).1 = .counted done promoted ready := by
  rw [completeSuccessfulJob, hstatus, hj]
  simp only [reduceCtorEq, if_false, htime, Bool.false_eq_true, ne_eq, not_true_eq_false]
  split
  · exact ⟨_, _, _, rfl⟩
  · split <;> exact ⟨_, _, _, rfl⟩

variable {done : Bool} {ready : List String}

theorem waiting_completeSuccessfulJob {promoted : Option (String × Int)}
    (h : (ks.completeSuccessfulJob now j).1 = .counted done promoted ready)
    (hnodup : (ks.successors j).Nodup) (i : String) :
    i ∈ (ks.completeSuccessfulJob now j).2.waitingReady.members ↔
      (i ∈ ks.waitingReady.members ∨ i ∈ ready) ∧ promoted.map Prod.fst ≠ some i := by
  obtain ⟨-, -, -, rfl, hcases⟩ := completeSuccessfulJob_counted h
  have hfinished := finishJob_finished j ks hnodup
  have hwaiting : i ∈ (ks.finishJob j).2.countCompleted.waitingReady.members ↔
      i ∈ ks.waitingReady.members ∨ i ∈ (ks.finishJob j).1 := by
    rw [hfinished.ready i]
    exact hfinished.waiting i
  rcases hcases with ⟨-, -, rfl, hks⟩ | ⟨-, -, ⟨-, hks⟩ | ⟨⟨rfl, -⟩, hks⟩⟩
  · rw [hks]
    exact hwaiting.trans (by simp)
  · rw [congrArg Prod.snd hks, mem_waiting_promoteWaiting, hwaiting, ← congrArg Prod.fst hks]
  · rw [hks]
    exact hwaiting.trans (by simp)

/-- The promoted job has the highest score of the jobs that wait or were made READY. -/
theorem contends_of_promoted {i : String} {n : Int}
    (h : (ks.completeSuccessfulJob now j).1 = .counted done (some (i, n)) ready)
    (horderly : ks.Orderly) (hj : ks.jobStatus j = some .running)
    (hnodup : (ks.successors j).Nodup) :
    ks.Contends j i n ∧ ∀ x m, ks.Contends j x m → m ≤ n := by
  obtain ⟨-, -, -, -, hcases⟩ := completeSuccessfulJob_counted h
  rcases hcases with ⟨-, -, hnone, -⟩ | ⟨-, -, ⟨-, hks⟩ | ⟨⟨hnone, -⟩, -⟩⟩
  · cases hnone
  · have hcounts := finishJob_counts j ks hnodup
    have hscore : ∀ x m, (ks.finishJob j).2.countCompleted.waitingReady.score x = some m ↔
        ks.Contends j x m := by
      intro x m
      refine Iff.trans (by rw [← hcounts.score x]; rfl : _ ↔
        (if x ∈ (ks.finishJob j).1 then some (ks.priority x)
          else ks.waitingReady.score x) = some m) ?_
      rw [Contends, ← mem_finishJob_iff_unblocks horderly hj hnodup x]
      by_cases hx : x ∈ (ks.finishJob j).1
      · -- a job that was PENDING is not among the waiting ones
        have hpending := ((mem_finishJob_iff_unblocks horderly hj hnodup x).mp hx).2.1
        have hnot : x ∉ ks.waitingReady.members := fun hmem => by
          rw [horderly.waiting x hmem] at hpending
          cases hpending
        rw [if_pos hx, SortedSet.score_eq_none hnot]
        simp [hx, eq_comm]
      · simp [hx]
    obtain ⟨hself, hmax⟩ := promoteWaiting_score (congrArg Prod.fst hks).symm
    exact ⟨(hscore i n).mp hself, fun x m hx => hmax x m ((hscore x m).mpr hx)⟩
  · cases hnone

theorem advanceSuccessors_of_not_pending {x : String} (js : List String) {ks : WorkflowKeyspace}
    (hx : ks.jobStatus x ≠ some .pending) :
    (advanceSuccessors js ks).2.jobStatus x = ks.jobStatus x ∧
    (x ∈ (advanceSuccessors js ks).2.waitingReady.members ↔ x ∈ ks.waitingReady.members) := by
  induction js generalizing ks with
  | nil => exact ⟨rfl, Iff.rfl⟩
  | cons i rest ih =>
      have hone := advanceOne_advanced i ks
      have hlast : ¬ (x = i ∧ ks.LastOpen i) := fun h => hx (h.1 ▸ h.2.1)
      have hstatus : (ks.advanceOne i).jobStatus x = ks.jobStatus x := by
        by_cases hi : x = i
        · subst hi
          exact hone.self.trans (if_neg (fun h => hx h.1))
        · exact (hone.other x hi).1
      have hstays : (ks.advanceOne i).jobStatus x ≠ some .pending := hstatus ▸ hx
      rw [advanceSuccessors_cons]
      obtain ⟨hkept, hmem⟩ := ih hstays
      refine ⟨hkept.trans hstatus, hmem.trans ?_⟩
      rw [hone.waiting x, or_iff_left hlast]

/-- The answers with which the success script changes nothing. -/
def SuccessOutcome.isRefusal : SuccessOutcome → Bool
  | missing | notRunning | alreadyCompleted => true
  | runTimeExceeded | counted _ _ _ => false

/-- The success script refuses a job without a status, a job that is COMPLETED already, and a workflow
that is not RUNNING. -/
theorem completeSuccessfulJob_of_closed (now : Int)
    (h : ks.jobStatus j = none ∨ ks.jobStatus j = some .completed ∨ ks.status ≠ some .running) :
    ∃ outcome, outcome.isRefusal = true ∧ ks.completeSuccessfulJob now j = (outcome, ks) := by
  rw [completeSuccessfulJob]
  split
  · rename_i ws js hws hjs
    rw [hws, hjs] at h
    by_cases hdone : js = .completed
    · exact ⟨.alreadyCompleted, rfl, if_pos hdone⟩
    · have hrunning : ws ≠ .running := by
        rintro rfl
        rcases h with h | h | h
        · cases h
        · exact hdone (Option.some.inj h)
        · exact h rfl
      exact ⟨.notRunning, rfl, (if_neg hdone).trans (if_pos hrunning)⟩
  · exact ⟨.missing, rfl, rfl⟩

/-- The job that the success script counted is COMPLETED afterwards, unless it was waiting. -/
theorem jobStatus_completeSuccessfulJob_self {promoted : Option (String × Int)}
    (h : (ks.completeSuccessfulJob now j).1 = .counted done promoted ready)
    (hj : j ∉ ks.waitingReady.members) :
    (ks.completeSuccessfulJob now j).2.jobStatus j = some .completed := by
  have hset : jobStatus { ks.setJobStatus j .completed with
      successors := Function.update ks.successors j [] } j = some .completed :=
    (setJobStatus_jobStatus ks j j .completed).trans (if_pos rfl)
  obtain ⟨hstatus, hwaiting⟩ := advanceSuccessors_of_not_pending (ks.successors j)
    (fun hpending => by cases hset.symm.trans hpending)
  have hfinished : (ks.finishJob j).2.countCompleted.jobStatus j = some .completed :=
    hstatus.trans hset
  have hnot : j ∉ (ks.finishJob j).2.countCompleted.waitingReady.members := fun hmem =>
    hj (hwaiting.mp hmem)
  refine completeSuccessfulJob_rule (P := fun ks => ks.jobStatus j = some .completed) h hfinished
    hfinished ?_
  rw [jobStatus_promoteWaiting_of_not_mem hnot]
  exact hfinished

/-- A second call for a job that does not wait changes nothing: the first one was refused, failed the
workflow or left the job COMPLETED. -/
theorem completeSuccessfulJob_again (hj : j ∉ ks.waitingReady.members) (now later : Int) :
    ∃ outcome, outcome.isRefusal = true ∧
      (ks.completeSuccessfulJob now j).2.completeSuccessfulJob later j =
        (outcome, (ks.completeSuccessfulJob now j).2) := by
  by_cases hclosed : ks.jobStatus j = none ∨ ks.jobStatus j = some .completed ∨
      ks.status ≠ some .running
  · obtain ⟨outcome, -, heq⟩ := completeSuccessfulJob_of_closed now hclosed
    rw [heq]
    exact completeSuccessfulJob_of_closed later hclosed
  · apply completeSuccessfulJob_of_closed
    cases hout : (ks.completeSuccessfulJob now j).1 with
    | missing =>
        rw [((completeSuccessfulJob_refused hout).1 rfl).1]
        have hnone := ((completeSuccessfulJob_refused hout).1 rfl).2
        exact hnone.elim (fun h => .inr (.inr (by rw [h]; nofun))) .inl
    | notRunning =>
        rw [((completeSuccessfulJob_refused hout).2.1 rfl).1]
        exact .inr (.inr ((completeSuccessfulJob_refused hout).2.1 rfl).2)
    | alreadyCompleted =>
        rw [((completeSuccessfulJob_refused hout).2.2 rfl).1]
        exact .inr (.inl ((completeSuccessfulJob_refused hout).2.2 rfl).2)
    | runTimeExceeded =>
        rw [(completeSuccessfulJob_expired hout).2.2, setStatus_status]
        exact .inr (.inr nofun)
    | counted done promoted ready =>
        exact .inr (.inl (jobStatus_completeSuccessfulJob_self hout hj))

end Success

section Retry

variable {ks : WorkflowKeyspace} {j : String}

theorem setJobStatus_twice (ks : WorkflowKeyspace) (j : String) (st st' : JobStatus) :
    (ks.setJobStatus j st).setJobStatus j st' = ks.setJobStatus j st' := by
  simp only [setJobStatus, setJob, Function.update_self, Function.update_idem, Option.getD_some]

/-- A retry that is put into an empty waiting set is the one that is promoted, and the set is empty
again. -/
theorem promoteWaiting_waitAgain_of_empty (h : ks.waitingReady.members = []) :
    (ks.waitAgain j).promoteWaiting = (some (j, ks.priority j), ks.queueRetry j) := by
  have hpop : (ks.waitAgain j).waitingReady.popMax RedisKeys.laterId =
      some ((j, ks.priority j), ks.waitingReady) := SortedSet.popMax_add_of_empty _ h _ _
  rw [promoteWaiting, hpop]
  change (_, ((ks.setJobStatus j .ready).setJobStatus j .queued).setReserved
    (((ks.setJobStatus j .ready).setJobStatus j .queued).reserved + 1)) = _
  rw [setJobStatus_twice]
  rfl

/-- The job can be brought back: it waits for its retry, or did so before. -/
def Returns (ks : WorkflowKeyspace) (j : String) : Prop :=
  ks.jobStatus j = some .retryDelay ∨ ks.jobStatus j = some .ready

theorem Returns.exists_status (hj : ks.Returns j) :
    ∃ js, ks.jobStatus j = some js ∧ ¬ (js ≠ .retryDelay ∧ js ≠ .ready) := by
  rcases hj with h | h
  · exact ⟨_, h, fun hne => hne.1 rfl⟩
  · exact ⟨_, h, fun hne => hne.2 rfl⟩

/-- With a free slot both branches of the retry script come to the same: the job waits, and the first
of the waiting jobs is promoted. -/
theorem promoteRetryJob_of_slot (hstatus : ks.status = some .running) (hj : ks.Returns j)
    (hslot : ks.reserved < ks.number WorkflowHash.maxConcurrentJobs) :
    ks.promoteRetryJob j = (ks.waitAgain j).promoteWaiting := by
  obtain ⟨js, hjs, hback⟩ := hj.exists_status
  rw [promoteRetryJob, hstatus, hjs]
  dsimp only
  rw [if_neg (not_not.mpr rfl), if_neg hback, decide_eq_true hslot, Bool.true_and]
  by_cases hempty : ks.waitingReady.card = 0
  · rw [decide_eq_true hempty, if_pos rfl,
      promoteWaiting_waitAgain_of_empty ((SortedSet.card_eq_zero_iff _).mp hempty)]
    rfl
  · rw [decide_eq_false hempty]
    rfl

theorem promoteRetryJob_of_no_slot (hstatus : ks.status = some .running) (hj : ks.Returns j)
    (hslot : ¬ ks.reserved < ks.number WorkflowHash.maxConcurrentJobs) :
    ks.promoteRetryJob j = (none, ks.waitAgain j) := by
  obtain ⟨js, hjs, hback⟩ := hj.exists_status
  rw [promoteRetryJob, hstatus, hjs]
  dsimp only
  rw [if_neg (not_not.mpr rfl), if_neg hback, decide_eq_false hslot]
  rfl

theorem promoteRetryJob_of_not_returns (hstatus : ks.status = some .running) (hj : ¬ ks.Returns j) :
    ks.promoteRetryJob j = (none, ks) := by
  rw [promoteRetryJob, hstatus]
  cases hjs : ks.jobStatus j with
  | none => rfl
  | some js =>
      dsimp only
      rw [if_neg (not_not.mpr rfl), if_pos]
      rw [Returns, hjs, not_or] at hj
      exact ⟨fun h => hj.1 (congrArg some h), fun h => hj.2 (congrArg some h)⟩

end Retry

section Failure

theorem failedJobs_completeFailedJob (j : String) (n : Int) (js : List String)
    (ks : WorkflowKeyspace) :
    (ks.completeFailedJob j n js).2.number WorkflowHash.failedJobs =
      ks.number WorkflowHash.failedJobs + 1 := by
  have hcount : ∀ (m : Nat) (ks' : WorkflowKeyspace),
      (ks'.countFailed m).number WorkflowHash.failedJobs =
        ks'.number WorkflowHash.failedJobs + 1 := by
    intro m ks'
    have hadd : (ks'.addCompleted (1 + m)).number WorkflowHash.failedJobs =
        ks'.number WorkflowHash.failedJobs := number_setHash_of_keeps ks' _ _ rfl (fun _ => rfl)
    rw [countFailed, addFailed, hadd]
    rfl
  rw [completeFailedJob]
  dsimp only
  split
  · refine (hcount _ _).trans (congrArg (· + 1) ?_)
    rw [number, (cancelSiblings_canceled j js _).hash]
    refine (number_setHash_of_keeps _ _ WorkflowHash.failedJobs rfl (fun _ => rfl)).trans ?_
    exact number_setHash_of_keeps _ _ WorkflowHash.failedJobs rfl (fun _ => rfl)
  · exact hcount _ _

end Failure

end WorkflowKeyspace

namespace Redis

/-- A workflow that is running: `a` runs and `b` waits for it, `c` waits for a slot and `d` for its
retry. -/
def sampleSpace : WorkflowKeyspace where
  hash := some { status := some .running, totalJobs := some 4, maxConcurrentJobs := some 2
                 reservedExecutionSlots := some 1, pendingJobs := some 1 }
  jobs := fun j =>
    if j = "a" then some { status := some .running }
    else if j = "b" then some { status := some .pending, remainingDependencies := some 1
                                priority := some 5 }
    else if j = "c" then some { status := some .ready, priority := some 3 }
    else if j = "d" then some { status := some .retryDelay, priority := some 2 }
    else none
  successors := fun j => if j = "a" then ["b"] else []
  waitingReady := SortedSet.empty.add "c" 3

def sampleId : WorkflowIdentity := ⟨"client", "workflow"⟩

/-- A database with the sample workflow and its retry. -/
def sample : Redis where
  workflows := fun id => if id = sampleId then sampleSpace else {}
  jobRetryStream := SortedSet.empty.add ⟨sampleId, "d"⟩ 900

theorem sampleSpace_jobStatus (j : String) : sampleSpace.jobStatus j =
    if j = "a" then some .running else if j = "b" then some .pending
    else if j = "c" then some .ready else if j = "d" then some .retryDelay else none := by
  simp only [WorkflowKeyspace.jobStatus, sampleSpace]
  split_ifs <;> rfl

section Success

/-- Everything `complete_successful_job_runtime_async` does when it counts the job `k`. -/
structure SuccessEffect (k : JobKey) (r : Redis) (answer : CompletedJob) (r' : Redis) : Prop where
  completed : (r'.workflows k.identity).jobStatus k.jobId = some .completed
  statuses : ∀ i, i ≠ k.jobId → (r'.workflows k.identity).jobStatus i =
    if answer.promoted = some i then some .queued
    else if (r.workflows k.identity).Unblocks k.jobId i then some .ready
    else (r.workflows k.identity).jobStatus i
  remaining : ∀ i, (r'.workflows k.identity).remaining i =
    if i ∈ (r.workflows k.identity).successors k.jobId ∧
      (r.workflows k.identity).jobStatus i = some .pending
    then (r.workflows k.identity).remaining i - 1 else (r.workflows k.identity).remaining i
  waiting : ∀ i, i ∈ (r'.workflows k.identity).waitingReady.members ↔
    (i ∈ (r.workflows k.identity).waitingReady.members ∨
      (r.workflows k.identity).Unblocks k.jobId i) ∧ answer.promoted ≠ some i
  promoted : ∀ i, answer.promoted = some i → ∃ n,
    (r.workflows k.identity).Contends k.jobId i n ∧
    (∀ x m, (r.workflows k.identity).Contends k.jobId x m → m ≤ n) ∧
    r'.executionQueue = r.executionQueue.add ⟨k.identity, i⟩ n
  unpromoted : answer.promoted = none → r'.executionQueue = r.executionQueue
  ready : answer.readyJobIds.Nodup ∧ ∀ i, i ∈ answer.readyJobIds ↔
    (r.workflows k.identity).Unblocks k.jobId i ∧ answer.promoted ≠ some i
  others : ∀ id, id ≠ k.identity → r'.workflows id = r.workflows id

variable {k : JobKey} {r : Redis} {now : Int}

theorem completeSuccessfulJob_eq (now : Int) (k : JobKey) (r : Redis) :
    r.completeSuccessfulJob now k =
      (CompletedJob.ofOutcome ((r.workflows k.identity).completeSuccessfulJob now k.jobId).1,
        (r.setWorkflow k.identity ((r.workflows k.identity).completeSuccessfulJob now k.jobId).2).enqueue
          k.identity (promotedBy ((r.workflows k.identity).completeSuccessfulJob now k.jobId).1)) :=
  rfl

theorem completeSuccessfulJob_workflows (now : Int) (k : JobKey) (r : Redis) :
    (r.completeSuccessfulJob now k).2.workflows = Function.update r.workflows k.identity
      ((r.workflows k.identity).completeSuccessfulJob now k.jobId).2 :=
  enqueue_workflows ..

/-- The success script in the words of its purpose. -/
theorem completeSuccessfulJob_effect (hstatus : (r.workflows k.identity).status = some .running)
    (htime : (r.workflows k.identity).runTimeExceeded now = false)
    (horderly : (r.workflows k.identity).Orderly)
    (hj : (r.workflows k.identity).jobStatus k.jobId = some .running)
    (hnodup : ((r.workflows k.identity).successors k.jobId).Nodup) :
    ∃ answer, (r.completeSuccessfulJob now k).1 = some answer ∧
      SuccessEffect k r answer (r.completeSuccessfulJob now k).2 := by
  obtain ⟨done, promoted, ready, h⟩ :=
    completeSuccessfulJob_of_running hstatus hj htime
  have hspace : (r.completeSuccessfulJob now k).2.workflows k.identity =
      ((r.workflows k.identity).completeSuccessfulJob now k.jobId).2 := by
    rw [completeSuccessfulJob_workflows, Function.update_self]
  have hready : ∀ i, i ∈ ready ↔ (r.workflows k.identity).Unblocks k.jobId i := by
    obtain ⟨-, -, -, rfl, -⟩ := completeSuccessfulJob_counted h
    exact mem_finishJob_iff_unblocks horderly hj hnodup
  have hreadyNodup : ready.Nodup := by
    obtain ⟨-, -, -, rfl, -⟩ := completeSuccessfulJob_counted h
    exact (finishJob_counts k.jobId _ hnodup).nodup
  have hjobs := jobStatus_completeSuccessfulJob h hnodup
  -- the promoted job was READY or PENDING, the completed one was RUNNING
  have hself : promoted.map Prod.fst ≠ some k.jobId := by
    intro hprom
    rcases promoted_completeSuccessfulJob h hnodup hprom.symm with hwait | hmem
    · rw [horderly.waiting _ hwait] at hj
      cases hj
    · rw [((hready _).mp hmem).2.1] at hj
      cases hj
  have hqueue : (r.completeSuccessfulJob now k).2 = (r.setWorkflow k.identity
      ((r.workflows k.identity).completeSuccessfulJob now k.jobId).2).enqueue k.identity
        promoted := by
    rw [completeSuccessfulJob_eq, h]
    rfl
  refine ⟨⟨done, promoted.map Prod.fst, ready.filter (fun j =>
    decide (some j ≠ promoted.map Prod.fst))⟩, ?_, ?_, fun i hi => ?_, fun i => ?_, fun i => ?_,
    fun i hprom => ?_, fun hprom => ?_, ⟨hreadyNodup.filter _, fun i => ?_⟩, fun id hid => ?_⟩
  · rw [completeSuccessfulJob_eq, h]
    rfl
  · rw [hspace, hjobs, if_neg (Ne.symm hself), if_pos rfl]
  · rw [hspace, hjobs, if_neg hi]
    simp only [hready i, eq_comm]
  · rw [hspace, remaining_completeSuccessfulJob h,
      (finishJob_counts k.jobId _ hnodup).remaining i]
    by_cases hi : i = k.jobId
    · simp [hi, hj]
    · by_cases hsucc : i ∈ (r.workflows k.identity).successors k.jobId ∧
          (r.workflows k.identity).jobStatus i = some .pending
      · have hone := horderly.pending i hsucc.2
        rw [if_pos ⟨hi, hsucc⟩, if_pos hsucc]
        omega
      · rw [if_neg (fun hc => hsucc hc.2), if_neg hsucc]
  · rw [hspace, waiting_completeSuccessfulJob h hnodup i, hready i]
  · obtain ⟨⟨x, n⟩, rfl, rfl⟩ := Option.map_eq_some_iff.mp hprom
    obtain ⟨hcontends, hmax⟩ := contends_of_promoted h horderly hj hnodup
    exact ⟨n, hcontends, hmax, by rw [hqueue]; rfl⟩
  · rw [Option.map_eq_none_iff] at hprom
    rw [hqueue, hprom]
    rfl
  · rw [List.mem_filter, hready i, decide_eq_true_iff, ne_comm]
  · rw [completeSuccessfulJob_workflows, Function.update_of_ne hid]

/-- A second call for a job that does not wait leaves Redis as the first one left it. -/
theorem completeSuccessfulJob_twice (hj : k.jobId ∉ (r.workflows k.identity).waitingReady.members)
    (later : Int) :
    ((r.completeSuccessfulJob now k).2.completeSuccessfulJob later k).2 =
        (r.completeSuccessfulJob now k).2 ∧
    ∀ answer, ((r.completeSuccessfulJob now k).2.completeSuccessfulJob later k).1 = some answer →
      answer = ⟨false, none, []⟩ := by
  obtain ⟨outcome, hrefusal, heq⟩ :=
    WorkflowKeyspace.completeSuccessfulJob_again hj now later
  have hspace : (r.completeSuccessfulJob now k).2.workflows k.identity =
      ((r.workflows k.identity).completeSuccessfulJob now k.jobId).2 := by
    rw [completeSuccessfulJob_workflows, Function.update_self]
  rw [completeSuccessfulJob_eq later, hspace, heq]
  have hsame : (r.completeSuccessfulJob now k).2.setWorkflow k.identity
      ((r.workflows k.identity).completeSuccessfulJob now k.jobId).2 =
        (r.completeSuccessfulJob now k).2 := by
    rw [← hspace, setWorkflow, Function.update_eq_self]
  rw [hsame]
  cases outcome with
  | missing | notRunning => exact ⟨rfl, nofun⟩
  | alreadyCompleted => exact ⟨rfl, fun _ h => (Option.some.inj h).symm⟩
  | runTimeExceeded | counted => cases hrefusal

/-- The success script does exactly what it is for, to a RUNNING job of a workflow that is RUNNING in
time, and a second call for the same job does nothing, whatever the first one met. -/
theorem completeSuccessfulJob_exact (k : JobKey) (r : Redis) (now : Int) :
    ((r.workflows k.identity).status = some .running →
      (r.workflows k.identity).runTimeExceeded now = false →
      (r.workflows k.identity).Orderly →
      (r.workflows k.identity).jobStatus k.jobId = some .running →
      ((r.workflows k.identity).successors k.jobId).Nodup →
      ∃ answer, (r.completeSuccessfulJob now k).1 = some answer ∧
        SuccessEffect k r answer (r.completeSuccessfulJob now k).2) ∧
    (k.jobId ∉ (r.workflows k.identity).waitingReady.members → ∀ later,
      ((r.completeSuccessfulJob now k).2.completeSuccessfulJob later k).2 =
        (r.completeSuccessfulJob now k).2 ∧
      ∀ answer, ((r.completeSuccessfulJob now k).2.completeSuccessfulJob later k).1 = some answer →
        answer = ⟨false, none, []⟩) :=
  ⟨completeSuccessfulJob_effect, completeSuccessfulJob_twice⟩

theorem sampleSpace_orderly : sampleSpace.Orderly := by
  refine ⟨fun i hi => ?_, fun i hi => ?_⟩
  · obtain rfl : i = "c" := List.mem_singleton.mp hi
    rfl
  · by_cases hb : i = "b"
    · subst hb
      decide
    · rw [sampleSpace_jobStatus, if_neg hb] at hi
      split_ifs at hi <;> cases hi

theorem completeSuccessfulJob_exact_sample :
    SuccessEffect ⟨sampleId, "a"⟩ sample ⟨false, some "b", []⟩
      (sample.completeSuccessfulJob 10 ⟨sampleId, "a"⟩).2 ∧
    ((sample.completeSuccessfulJob 10 ⟨sampleId, "a"⟩).2.completeSuccessfulJob 11
      ⟨sampleId, "a"⟩).2 = (sample.completeSuccessfulJob 10 ⟨sampleId, "a"⟩).2 := by
  obtain ⟨heffect, htwice⟩ := completeSuccessfulJob_exact ⟨sampleId, "a"⟩ sample 10
  obtain ⟨answer, hanswer, heffect⟩ := heffect rfl rfl sampleSpace_orderly rfl (by decide)
  obtain rfl : (⟨false, some "b", []⟩ : CompletedJob) = answer :=
    Option.some.inj ((by decide +kernel : some (⟨false, some "b", []⟩ : CompletedJob) =
      (sample.completeSuccessfulJob 10 ⟨sampleId, "a"⟩).1).trans hanswer)
  exact ⟨heffect, (htwice (by decide) 11).1⟩

end Success

section Failure

/-- The canceled siblings leave the set that goes with the status they had, and no other one. -/
theorem mem_dropCanceled (id : WorkflowIdentity) (canceled : List (String × JobStatus)) (r : Redis)
    (x : JobKey) :
    (x ∈ (r.dropCanceled id canceled).executionQueue.members ↔
      x ∈ r.executionQueue.members ∧ ¬ (x.identity = id ∧ (x.jobId, .queued) ∈ canceled)) ∧
    (x ∈ (r.dropCanceled id canceled).jobRetryStream.members ↔
      x ∈ r.jobRetryStream.members ∧ ¬ (x.identity = id ∧ (x.jobId, .retryDelay) ∈ canceled)) := by
  induction canceled generalizing r with
  | nil => simp [dropCanceled]
  | cons c rest ih =>
      obtain ⟨j, st⟩ := c
      obtain ⟨xid, xj⟩ := x
      simp only [dropCanceled, List.foldl_cons] at ih ⊢
      rw [(ih _).1, (ih _).2]
      cases st with
      | queued | retryDelay =>
          simp only [SortedSet.mem_members_remove, List.mem_cons, Prod.mk.injEq, JobKey.mk.injEq,
            ne_eq, reduceCtorEq, if_true, if_false, and_true, and_false, false_or]
          tauto
      | _ => simp

theorem score_dropCanceled_of_ne {id : WorkflowIdentity} (canceled : List (String × JobStatus))
    (r : Redis) {x : JobKey} (hx : x.identity ≠ id) :
    (r.dropCanceled id canceled).executionQueue.score x = r.executionQueue.score x ∧
    (r.dropCanceled id canceled).jobRetryStream.score x = r.jobRetryStream.score x := by
  induction canceled generalizing r with
  | nil => exact ⟨rfl, rfl⟩
  | cons c rest ih =>
      obtain ⟨j, st⟩ := c
      have hne : x ≠ ⟨id, j⟩ := fun h => hx (congrArg JobKey.identity h)
      simp only [dropCanceled, List.foldl_cons] at ih ⊢
      split
      · rw [(ih _).1, (ih _).2]
        exact ⟨SortedSet.score_remove_of_ne _ hne, rfl⟩
      · split
        · rw [(ih _).1, (ih _).2]
          exact ⟨rfl, SortedSet.score_remove_of_ne _ hne⟩
        · exact ih r

/-- Each job of the workflow is only in the sorted set that goes with its status. -/
structure SetsMatch (id : WorkflowIdentity) (r : Redis) : Prop where
  waiting : ∀ i ∈ (r.workflows id).waitingReady.members, (r.workflows id).jobStatus i = some .ready
  queue : ∀ i, ⟨id, i⟩ ∈ r.executionQueue.members → (r.workflows id).jobStatus i = some .queued
  retry : ∀ i, ⟨id, i⟩ ∈ r.jobRetryStream.members → (r.workflows id).jobStatus i = some .retryDelay

/-- Everything the first `complete_failed_job_runtime_async` of a workflow does, for the job `k`. -/
structure FailureEffect (k : JobKey) (r : Redis) (answer : FailedJob) (r' : Redis) : Prop where
  job : (r'.workflows k.identity).jobStatus k.jobId = some .failed
  workflow : (r'.workflows k.identity).status = some .failed
  canceled : ∀ i, i ∈ answer.canceledJobIds ↔ i ≠ k.jobId ∧
    ∃ st, (r.workflows k.identity).jobStatus i = some st ∧ st.isWaitingToRun = true
  once : answer.canceledJobIds.Nodup
  statuses : ∀ i, i ≠ k.jobId → (r'.workflows k.identity).jobStatus i =
    if i ∈ answer.canceledJobIds then some .aborted else (r.workflows k.identity).jobStatus i
  completedJobs : (r'.workflows k.identity).number WorkflowHash.completedJobs =
    (r.workflows k.identity).number WorkflowHash.completedJobs + (1 + answer.canceledJobIds.length)
  failedJobs : (r'.workflows k.identity).number WorkflowHash.failedJobs =
    (r.workflows k.identity).number WorkflowHash.failedJobs + 1
  cleared : r.SetsMatch k.identity → ∀ i ∈ answer.canceledJobIds,
    i ∉ (r'.workflows k.identity).waitingReady.members ∧
    ⟨k.identity, i⟩ ∉ r'.executionQueue.members ∧ ⟨k.identity, i⟩ ∉ r'.jobRetryStream.members
  others : ∀ id, id ≠ k.identity → r'.workflows id = r.workflows id ∧
    ∀ j, r'.executionQueue.score ⟨id, j⟩ = r.executionQueue.score ⟨id, j⟩ ∧
      r'.jobRetryStream.score ⟨id, j⟩ = r.jobRetryStream.score ⟨id, j⟩

theorem completeFailedJob_eq (k : JobKey) (n : Int) (jobIds : List String) (r : Redis) :
    r.completeFailedJob k n jobIds =
      (⟨((r.workflows k.identity).completeFailedJob k.jobId n jobIds).1.canceled.map Prod.fst,
        ((r.workflows k.identity).completeFailedJob k.jobId n jobIds).1.workflowFailed,
        ((r.workflows k.identity).completeFailedJob k.jobId n jobIds).1.workflowCompleted⟩,
        (r.setWorkflow k.identity
          ((r.workflows k.identity).completeFailedJob k.jobId n jobIds).2).dropCanceled k.identity
            ((r.workflows k.identity).completeFailedJob k.jobId n jobIds).1.canceled) :=
  rfl

/-- The failure script, called for a job of a RUNNING workflow with all its job ids, fails the job and
the workflow and cancels every other job that waits to run, and nothing else. -/
theorem completeFailedJob_exact (k : JobKey) (r : Redis) (updatedRetryCount : Int)
    (jobIds : List String) (hstatus : (r.workflows k.identity).status = some .running)
    (hall : ∀ i, (r.workflows k.identity).jobStatus i ≠ none → i ∈ jobIds) :
    FailureEffect k r (r.completeFailedJob k updatedRetryCount jobIds).1
      (r.completeFailedJob k updatedRetryCount jobIds).2 := by
  have hfailed : FailedRunning k.jobId jobIds (r.workflows k.identity) _ _ :=
    completeFailedJob_running updatedRetryCount hstatus
  have hspace : (r.completeFailedJob k updatedRetryCount jobIds).2.workflows k.identity =
      ((r.workflows k.identity).completeFailedJob k.jobId updatedRetryCount jobIds).2 := by
    rw [completeFailedJob_eq, dropCanceled_workflows, setWorkflow_workflows_self]
  have hcanceled : ∀ i, i ∈ (r.completeFailedJob k updatedRetryCount jobIds).1.canceledJobIds ↔
      i ≠ k.jobId ∧
        ∃ st, (r.workflows k.identity).jobStatus i = some st ∧ st.isWaitingToRun = true := by
    intro i
    rw [completeFailedJob_eq, List.mem_map]
    constructor
    · rintro ⟨⟨i, st⟩, hmem, rfl⟩
      obtain ⟨-, hne, hst, hwait⟩ := (hfailed.mem i st).mp hmem
      exact ⟨hne, st, hst, hwait⟩
    · rintro ⟨hne, st, hst, hwait⟩
      refine ⟨(i, st), (hfailed.mem i st).mpr ⟨hall i ?_, hne, hst, hwait⟩, rfl⟩
      rw [hst]
      nofun
  have hany : ∀ i, i ∈ jobIds ∧
      ((r.workflows k.identity).jobStatus i).any JobStatus.isWaitingToRun = true ↔
        ∃ st, (r.workflows k.identity).jobStatus i = some st ∧ st.isWaitingToRun = true := by
    intro i
    rw [Option.any_eq_true]
    exact and_iff_right_of_imp (fun ⟨st, hst, _⟩ => hall i (by rw [hst]; nofun))
  refine ⟨?_, ?_, hcanceled, hfailed.nodup, fun i hi => ?_, ?_, ?_, fun hmatch i hi => ?_,
    fun id hid => ?_⟩
  · rw [hspace]
    exact hfailed.self
  · rw [hspace]
    exact hfailed.status
  · rw [hspace, hfailed.jobStatus i hi]
    exact if_congr ((hany i).trans ((hcanceled i).trans (and_iff_right hi)).symm) rfl rfl
  · rw [hspace]
    refine (congrArg Counters.completed hfailed.counters).trans ?_
    rw [completeFailedJob_eq, List.length_map]
    rfl
  · rw [hspace]
    exact failedJobs_completeFailedJob ..
  · obtain ⟨hne, hwaits⟩ := (hcanceled i).mp hi
    obtain ⟨hmem, hwait⟩ := (hany i).mpr hwaits
    -- with a status of its own set, the job is listed among the canceled ones under that status
    have hlisted : ∀ st : JobStatus, st.isWaitingToRun = true →
        (r.workflows k.identity).jobStatus i = some st → (i, st) ∈
          ((r.workflows k.identity).completeFailedJob k.jobId updatedRetryCount jobIds).1.canceled :=
      fun st hst hstatus => (hfailed.mem i st).mpr ⟨hmem, hne, hstatus, hst⟩
    refine ⟨?_, ?_, ?_⟩
    · rw [hspace, waiting_completeFailedJob updatedRetryCount hstatus i]
      exact fun h => h.2 ⟨hmem, hne, hwait⟩
    · rw [completeFailedJob_eq, (mem_dropCanceled ..).1]
      exact fun h => h.2 ⟨rfl, hlisted .queued rfl (hmatch.queue i h.1)⟩
    · rw [completeFailedJob_eq, (mem_dropCanceled ..).2]
      exact fun h => h.2 ⟨rfl, hlisted .retryDelay rfl (hmatch.retry i h.1)⟩
  · refine ⟨?_, fun j => ?_⟩
    · rw [completeFailedJob_eq, dropCanceled_workflows, setWorkflow_workflows_of_ne r hid]
    · rw [completeFailedJob_eq]
      exact score_dropCanceled_of_ne _ _ hid

theorem completeFailedJob_exact_sample :
    FailureEffect ⟨sampleId, "a"⟩ sample ⟨["c", "b", "d"], true, true⟩
      (sample.completeFailedJob ⟨sampleId, "a"⟩ 1 ["c", "b", "c", "a", "d"]).2 := by
  have heffect := completeFailedJob_exact ⟨sampleId, "a"⟩ sample 1 ["c", "b", "c", "a", "d"] rfl
    (fun i hi => by
      change sampleSpace.jobStatus i ≠ none at hi
      rw [sampleSpace_jobStatus] at hi
      split_ifs at hi with ha hb hc hd
      · simp [ha]
      · simp [hb]
      · simp [hc]
      · simp [hd]
      · exact absurd rfl hi)
  have hanswer : (sample.completeFailedJob ⟨sampleId, "a"⟩ 1 ["c", "b", "c", "a", "d"]).1 =
      ⟨["c", "b", "d"], true, true⟩ := by decide +kernel
  rwa [hanswer] at heffect

end Failure

section Retry

/-- The way through the waiting set: the retried job is READY and waits, and the waiting job of the
highest score is promoted. -/
def promoteThroughWaiting (k : JobKey) (r : Redis) : Option String × Redis :=
  let (promoted, ks) := ((r.workflows k.identity).waitAgain k.jobId).promoteWaiting
  (promoted.map Prod.fst, (r.setWorkflow k.identity ks).enqueue k.identity promoted)

/-- Everything `promote_retry_job_async` does to a job that comes back to a RUNNING workflow, with the
job it promotes. -/
structure RetryEffect (k : JobKey) (r : Redis) (promoted : Option String) (r' : Redis) : Prop where
  statuses : ∀ i, (r'.workflows k.identity).jobStatus i =
    if promoted = some i then some .queued
    else if i = k.jobId then some .ready else (r.workflows k.identity).jobStatus i
  slot : promoted.isSome = true ↔ (r.workflows k.identity).reserved <
    (r.workflows k.identity).number WorkflowHash.maxConcurrentJobs
  reserved : (r'.workflows k.identity).reserved =
    (r.workflows k.identity).reserved + if promoted.isSome then 1 else 0
  highest : ∀ i, promoted = some i → ∃ n,
    (i = k.jobId ∧ n = (r.workflows k.identity).priority k.jobId ∨
      i ≠ k.jobId ∧ (r.workflows k.identity).waitingReady.score i = some n) ∧
    (r.workflows k.identity).priority k.jobId ≤ n ∧
    (∀ x m, x ≠ k.jobId → (r.workflows k.identity).waitingReady.score x = some m → m ≤ n) ∧
    r'.executionQueue = r.executionQueue.add ⟨k.identity, i⟩ n
  unpromoted : promoted = none → r'.executionQueue = r.executionQueue
  back : (promoted = some k.jobId ∧ k ∈ r'.executionQueue.members ∧
      (r'.workflows k.identity).jobStatus k.jobId = some .queued) ∨
    (k.jobId ∈ (r'.workflows k.identity).waitingReady.members ∧
      (r'.workflows k.identity).jobStatus k.jobId = some .ready)

variable {k : JobKey} {r : Redis}

theorem promoteRetryJob_eq (k : JobKey) (r : Redis) :
    r.promoteRetryJob k = (((r.workflows k.identity).promoteRetryJob k.jobId).1.map Prod.fst,
      (r.setWorkflow k.identity ((r.workflows k.identity).promoteRetryJob k.jobId).2).enqueue
        k.identity ((r.workflows k.identity).promoteRetryJob k.jobId).1) :=
  rfl

theorem promoteRetryJob_space (k : JobKey) (r : Redis) :
    (r.promoteRetryJob k).2.workflows k.identity =
      ((r.workflows k.identity).promoteRetryJob k.jobId).2 := by
  rw [promoteRetryJob_eq, enqueue_workflows, setWorkflow_workflows_self]

theorem retryEffect_of_no_slot (hstatus : (r.workflows k.identity).status = some .running)
    (hj : (r.workflows k.identity).Returns k.jobId) (hslot : ¬ (r.workflows k.identity).reserved <
      (r.workflows k.identity).number WorkflowHash.maxConcurrentJobs) :
    RetryEffect k r (r.promoteRetryJob k).1 (r.promoteRetryJob k).2 := by
  have hwait := promoteRetryJob_of_no_slot hstatus hj hslot
  have hnone : (r.promoteRetryJob k).1 = none := by rw [promoteRetryJob_eq, hwait]; rfl
  have hspace := promoteRetryJob_space k r
  rw [hwait] at hspace
  have hjobs := fun i => jobStatus_waitAgain k.jobId i (r.workflows k.identity)
  rw [hnone]
  refine ⟨fun i => ?_, ?_, ?_, nofun, fun _ => ?_, .inr ⟨?_, ?_⟩⟩
  · rw [hspace]
    exact hjobs i
  · exact iff_of_false nofun hslot
  · rw [hspace]
    exact (Int.add_zero _).symm
  · rw [promoteRetryJob_eq, hwait]
    rfl
  · rw [hspace]
    exact (SortedSet.mem_members_add ..).mpr (.inl rfl)
  · rw [hspace, hjobs, if_pos rfl]

theorem retryEffect_of_slot (hstatus : (r.workflows k.identity).status = some .running)
    (hj : (r.workflows k.identity).Returns k.jobId) (hslot : (r.workflows k.identity).reserved <
      (r.workflows k.identity).number WorkflowHash.maxConcurrentJobs) :
    RetryEffect k r (r.promoteRetryJob k).1 (r.promoteRetryJob k).2 := by
  have hpromote := promoteRetryJob_of_slot hstatus hj hslot
  have hself : k.jobId ∈ ((r.workflows k.identity).waitAgain k.jobId).waitingReady.members :=
    (SortedSet.mem_members_add ..).mpr (.inl rfl)
  have hjobs := fun i => jobStatus_waitAgain k.jobId i (r.workflows k.identity)
  rcases ((r.workflows k.identity).waitAgain k.jobId).promoteWaiting_cases with
    ⟨-, hempty⟩ | ⟨i, n, hi, heq⟩
  · rw [hempty] at hself
    cases hself
  · obtain ⟨hscore, hmax⟩ := promoteWaiting_score (congrArg Prod.fst heq)
    have hown : ((r.workflows k.identity).waitAgain k.jobId).waitingReady.score k.jobId =
        some ((r.workflows k.identity).priority k.jobId) := SortedSet.score_add_self ..
    have hothers : ∀ x, x ≠ k.jobId →
        ((r.workflows k.identity).waitAgain k.jobId).waitingReady.score x =
          (r.workflows k.identity).waitingReady.score x := fun x hx =>
      SortedSet.score_add_of_ne _ hx _
    rw [heq] at hpromote
    have hsome : (r.promoteRetryJob k).1 = some i := by rw [promoteRetryJob_eq, hpromote]; rfl
    have hspace := promoteRetryJob_space k r
    rw [hpromote] at hspace
    have hqueue : (r.promoteRetryJob k).2.executionQueue =
        r.executionQueue.add ⟨k.identity, i⟩ n := by
      rw [promoteRetryJob_eq, hpromote]
      rfl
    have hstatuses : ∀ x, ((r.promoteRetryJob k).2.workflows k.identity).jobStatus x =
        if some i = some x then some .queued
        else if x = k.jobId then some .ready else (r.workflows k.identity).jobStatus x := by
      intro x
      rw [hspace, jobStatus_queueWaiting, hjobs]
      simp only [Option.some.injEq, eq_comm]
    rw [hsome]
    refine ⟨hstatuses, iff_of_true rfl hslot, ?_, fun x hx => ?_, nofun, ?_⟩
    · rw [hspace]
      exact congrArg Counters.reserved
        (counters_queueWaiting _ i)
    · obtain rfl : i = x := Option.some.inj hx
      refine ⟨n, ?_, hmax _ _ hown, fun x m hne hx => hmax x m ((hothers x hne).trans hx), hqueue⟩
      by_cases hk : i = k.jobId
      · rw [hk, hown] at hscore
        exact .inl ⟨hk, (Option.some.inj hscore).symm⟩
      · exact .inr ⟨hk, (hothers i hk).symm.trans hscore⟩
    · by_cases hk : i = k.jobId
      · refine .inl ⟨congrArg some hk, ?_, ?_⟩
        · rw [hqueue, SortedSet.mem_members_add, hk]
          exact .inl rfl
        · rw [hstatuses, hk, if_pos rfl]
      · refine .inr ⟨?_, ?_⟩
        · rw [hspace]
          exact (SortedSet.mem_members_remove ..).mpr ⟨hself, Ne.symm hk⟩
        · rw [hstatuses, if_neg (fun h => hk (Option.some.inj h)), if_pos rfl]

/-- The direct-queue branch of the retry script does what the way through the waiting set does, and in
every RUNNING workflow a job that comes back leads to one promotion if there is a free slot, and waits
otherwise. A job in any other status is left alone. -/
theorem promoteRetryJob_exact (k : JobKey) (r : Redis)
    (hstatus : (r.workflows k.identity).status = some .running) :
    ((r.workflows k.identity).jobStatus k.jobId = some .retryDelay →
      (r.workflows k.identity).reserved <
        (r.workflows k.identity).number WorkflowHash.maxConcurrentJobs →
      (r.workflows k.identity).waitingReady.members = [] →
      r.promoteRetryJob k = r.promoteThroughWaiting k) ∧
    ((r.workflows k.identity).Returns k.jobId →
      RetryEffect k r (r.promoteRetryJob k).1 (r.promoteRetryJob k).2) ∧
    (¬ (r.workflows k.identity).Returns k.jobId → r.promoteRetryJob k = (none, r)) := by
  refine ⟨fun hj hslot _ => ?_, fun hj => ?_, fun hj => ?_⟩
  · rw [promoteRetryJob_eq, promoteRetryJob_of_slot hstatus (.inl hj) hslot]
    rfl
  · by_cases hslot : (r.workflows k.identity).reserved <
        (r.workflows k.identity).number WorkflowHash.maxConcurrentJobs
    · exact retryEffect_of_slot hstatus hj hslot
    · exact retryEffect_of_no_slot hstatus hj hslot
  · rw [promoteRetryJob_eq, promoteRetryJob_of_not_returns hstatus hj]
    refine Prod.ext rfl ?_
    exact congrArg (fun w => { r with workflows := w }) (Function.update_eq_self ..)

theorem promoteRetryJob_exact_sample :
    RetryEffect ⟨sampleId, "d"⟩ sample (some "c") (sample.promoteRetryJob ⟨sampleId, "d"⟩).2 ∧
    (sample.deleteWaitingReady sampleId).promoteRetryJob ⟨sampleId, "d"⟩ =
      (sample.deleteWaitingReady sampleId).promoteThroughWaiting ⟨sampleId, "d"⟩ :=
  ⟨(promoteRetryJob_exact ⟨sampleId, "d"⟩ sample rfl).2.1 (.inl rfl),
    (promoteRetryJob_exact ⟨sampleId, "d"⟩ (sample.deleteWaitingReady sampleId) rfl).1 rfl
      (by decide) rfl⟩

end Retry

end Redis

end FlowPilot
