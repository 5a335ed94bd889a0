import FlowPilot.ExecutionSafety
import FlowPilot.StoreExactness

/-! The order in which jobs of a workflow complete. Which of the waiting jobs get the slots depends on
the order; everything that has to do with dependencies does not. After a number of completions it is a
function of the keys before and of the set of completed jobs, and this function is what is followed
through the calls. -/

namespace FlowPilot

open WorkflowKeyspace

section Success

/-- What a success does to the statuses of a workflow that agrees with its plan: one job completes, the
ones it made READY wait or are queued, and of the others only a waiting one may have moved. -/
structure Succeeds (p : Plan) (j : String) (ks : WorkflowKeyspace) (ready : List String)
    (ks' : WorkflowKeyspace) : Prop where
  coherent : Coherent p ks'
  self : ks.jobStatus j = some .running ∧ ks'.jobStatus j = some .completed
  unblocked : ∀ i ∈ ready, ks.jobStatus i = some .pending ∧
    (ks'.jobStatus i = some .ready ∨ ks'.jobStatus i = some .queued)
  others : ∀ i, i ≠ j → i ∉ ready → ks'.jobStatus i = ks.jobStatus i ∨
    (ks.jobStatus i = some .ready ∧ ks'.jobStatus i = some .queued)
  successors : (ks.successors j).Nodup ∧ ∀ i, i ∈ ks.successors j ↔ j ∈ p.deps i
  listed : ready.Nodup ∧ ∀ i, i ∈ ready ↔ ks.Unblocks j i

variable {p : Plan} {ks ks' : WorkflowKeyspace} {j : String} {now : Int} {done : Bool}
  {promoted : Option (String × Int)} {ready : List String}

theorem Coherent.orderly (h : Coherent p ks) : ks.Orderly :=
  ⟨fun i hi => (h.waiting i).mp hi, fun i hi => by
    obtain ⟨hremaining, hpos⟩ := h.pending i hi
    omega⟩

theorem Coherent.success (h : Coherent p ks) (hj : ks.jobStatus j = some .running)
    (hcounted : (ks.completeSuccessfulJob now j).1 = .counted done promoted ready) :
    Coherent p (ks.completeSuccessfulJob now j).2 := by
  have hmem : j ∈ p.ids := (h.known j).mp (by rw [hj]; nofun)
  have hopen : ks.jobStatus j ≠ some .completed := by
    rw [hj]
    nofun
  have hfinished := finishJob_finished j ks (h.successors j hmem hopen).1
  have hfinish : Coherent p (ks.finishJob j).2.countCompleted :=
    (h.finishJob hmem hopen (by rw [hj]; nofun) hfinished).of_sameJobs ⟨rfl, rfl, rfl, rfl⟩
  exact completeSuccessfulJob_rule hcounted hfinish (hfinish.of_sameJobs ⟨rfl, rfl, rfl, rfl⟩)
    (promoteWaiting_rule hfinish (fun i hi => hfinish.queueWaiting hi))

/-- The success script in a workflow that agrees with its plan. -/
theorem Coherent.succeeds (h : Coherent p ks) (hj : ks.jobStatus j = some .running)
    (hcounted : (ks.completeSuccessfulJob now j).1 = .counted done promoted ready) :
    Succeeds p j ks ready (ks.completeSuccessfulJob now j).2 := by
  have hmem : j ∈ p.ids := (h.known j).mp (by rw [hj]; nofun)
  have hsuccessors := h.successors j hmem (by rw [hj]; nofun)
  have hjobs := jobStatus_completeSuccessfulJob hcounted hsuccessors.1
  have hlisted : ready.Nodup ∧ ∀ i, i ∈ ready ↔ ks.Unblocks j i := by
    obtain ⟨-, -, -, rfl, -⟩ := completeSuccessfulJob_counted hcounted
    exact ⟨(finishJob_counts j ks hsuccessors.1).nodup,
      mem_finishJob_iff_unblocks h.orderly hj hsuccessors.1⟩
  have hpromoted : ∀ i, some i = promoted.map Prod.fst →
      ks.jobStatus i = some .ready ∨ i ∈ ready := fun i hi =>
    (promoted_completeSuccessfulJob hcounted hsuccessors.1 hi).imp_left
      (h.waiting i).mp
  refine ⟨h.success hj hcounted, ⟨hj, ?_⟩, fun i hi => ?_, fun i hij hi => ?_, hsuccessors, hlisted⟩
  · rw [hjobs, if_neg, if_pos rfl]
    intro hself
    rcases hpromoted j hself with hready | hready
    · cases hj.symm.trans hready
    · cases hj.symm.trans ((hlisted.2 j).mp hready).2.1
  · have hpending := ((hlisted.2 i).mp hi).2.1
    have hij : i ≠ j := by
      rintro rfl
      cases hj.symm.trans hpending
    refine ⟨hpending, ?_⟩
    rw [hjobs, if_neg hij, if_pos hi]
    split
    · exact .inr rfl
    · exact .inl rfl
  · rw [hjobs, if_neg hij, if_neg hi]
    split
    · rename_i hself
      exact .inr ⟨(hpromoted i hself).resolve_right hi, rfl⟩
    · exact .inl rfl

namespace Succeeds

variable (h : Succeeds p j ks ready ks')
include h

theorem ne_of_ready {i : String} (hi : i ∈ ready) : i ≠ j := by
  rintro rfl
  cases h.self.1.symm.trans (h.unblocked i hi).1

/-- The job that succeeded, a job of the returned list, or any other: an other job keeps its status,
unless it takes the freed slot. -/
theorem status_cases (i : String) :
    (i = j ∧ i ∉ ready ∧ ks.jobStatus i = some .running ∧ ks'.jobStatus i = some .completed) ∨
    (i ≠ j ∧ i ∈ ready ∧ ks.jobStatus i = some .pending ∧
      (ks'.jobStatus i = some .ready ∨ ks'.jobStatus i = some .queued)) ∨
    (i ≠ j ∧ i ∉ ready ∧ (ks'.jobStatus i = ks.jobStatus i ∨
      ks.jobStatus i = some .ready ∧ ks'.jobStatus i = some .queued)) := by
  by_cases hij : i = j
  · subst hij
    exact .inl ⟨rfl, fun hi => h.ne_of_ready hi rfl, h.self⟩
  · by_cases hi : i ∈ ready
    · exact .inr (.inl ⟨hij, hi, h.unblocked i hi⟩)
    · exact .inr (.inr ⟨hij, hi, h.others i hij hi⟩)

theorem completed_iff (i : String) :
    ks'.jobStatus i = some .completed ↔ ks.jobStatus i = some .completed ∨ i = j := by
  rcases h.status_cases i with
    ⟨rfl, -, hold, hnew⟩ | ⟨hij, -, hold, hnew | hnew⟩ | ⟨hij, -, hsame | ⟨hold, hnew⟩⟩ <;> simp [*]

theorem running_iff (i : String) :
    ks'.jobStatus i = some .running ↔ ks.jobStatus i = some .running ∧ i ≠ j := by
  rcases h.status_cases i with
    ⟨rfl, -, hold, hnew⟩ | ⟨hij, -, hold, hnew | hnew⟩ | ⟨hij, -, hsame | ⟨hold, hnew⟩⟩ <;> simp [*]

theorem pending_iff (i : String) :
    ks'.jobStatus i = some .pending ↔ ks.jobStatus i = some .pending ∧ i ∉ ready := by
  rcases h.status_cases i with
    ⟨-, hi, hold, hnew⟩ | ⟨-, hi, hold, hnew | hnew⟩ | ⟨-, hi, hsame | ⟨hold, hnew⟩⟩ <;> simp [*]

theorem unblocked_iff (i : String) :
    (ks'.jobStatus i = some .ready ∨ ks'.jobStatus i = some .queued) ↔
      (ks.jobStatus i = some .ready ∨ ks.jobStatus i = some .queued) ∨ i ∈ ready := by
  rcases h.status_cases i with
    ⟨-, hi, hold, hnew⟩ | ⟨-, hi, hold, hnew | hnew⟩ | ⟨-, hi, hsame | ⟨hold, hnew⟩⟩ <;> simp [*]

theorem openDeps (i : String) :
    p.openDeps ks i = p.openDeps ks' i + if j ∈ p.deps i then 1 else 0 := by
  have hothers : ∀ d, d ≠ j →
      (ks'.jobStatus d = some .completed ↔ ks.jobStatus d = some .completed) := fun d hd => by
    rw [h.completed_iff, or_iff_left hd]
  split
  · rename_i hdep
    exact (p.openDeps_complete hdep (by rw [h.self.1]; nofun) h.self.2 hothers).symm
  · rename_i hdep
    exact (p.openDeps_congr_of_not_mem hdep hothers).symm

theorem mem_ready_iff (hcoherent : Coherent p ks) (i : String) :
    i ∈ ready ↔ ks.jobStatus i = some .pending ∧ p.openDeps ks' i = 0 := by
  rw [h.listed.2 i, Unblocks, h.successors.2 i]
  have hopen := h.openDeps i
  constructor
  · rintro ⟨hdep, hpending, hone⟩
    have hremaining := (hcoherent.pending i hpending).1
    rw [if_pos hdep] at hopen
    exact ⟨hpending, by omega⟩
  · rintro ⟨hpending, hzero⟩
    obtain ⟨hremaining, hpos⟩ := hcoherent.pending i hpending
    by_cases hdep : j ∈ p.deps i
    · rw [if_pos hdep] at hopen
      exact ⟨hdep, hpending, by omega⟩
    · rw [if_neg hdep] at hopen
      omega

end Succeeds

end Success

section Completions

/-- What is known of the keys after the jobs of `S` completed, one after the other. The dependencies
that are open by then are a matter of `S` alone. -/
structure Completes (p : Plan) (ks : WorkflowKeyspace) (S : List String) (ks' : WorkflowKeyspace) :
    Prop where
  coherent : Coherent p ks'
  completed : ∀ i, ks'.jobStatus i = some .completed ↔ ks.jobStatus i = some .completed ∨ i ∈ S
  running : ∀ i, ks'.jobStatus i = some .running ↔ ks.jobStatus i = some .running ∧ i ∉ S
  pending : ∀ i, ks'.jobStatus i = some .pending ↔
    ks.jobStatus i = some .pending ∧ p.openDeps ks' i ≠ 0
  unblocked : ∀ i, (ks'.jobStatus i = some .ready ∨ ks'.jobStatus i = some .queued) ↔
    (ks.jobStatus i = some .ready ∨ ks.jobStatus i = some .queued) ∨
      (ks.jobStatus i = some .pending ∧ p.openDeps ks' i = 0)
  remaining : ∀ i, ks'.remaining i =
    if ks.jobStatus i = some .pending then (p.openDeps ks' i : Int) else ks.remaining i
  completedJobs : ks'.counters.completed = ks.counters.completed + S.length
  total : ks'.counters.total = ks.counters.total
  pendingJobs : ks'.number WorkflowHash.pendingJobs = WorkflowKeyspace.drained
    (p.ids.countP (fun i => decide (ks.jobStatus i = some .pending ∧ p.openDeps ks' i = 0)))
    (ks.number WorkflowHash.pendingJobs)
  time : ∀ now, ks'.runTimeExceeded now = ks.runTimeExceeded now
  status : ks'.status = if ks.counters.completed + S.length = ks.counters.total
    then some .completed else some .running

variable {p : Plan} {ks ks' : WorkflowKeyspace} {S : List String} {j : String} {now : Int}

theorem completes_nil (hcoherent : Coherent p ks) (hstatus : ks.status = some .running)
    (hunfinished : ks.counters.completed < ks.counters.total) : Completes p ks [] ks := by
  have hnone : ∀ i, ¬ (ks.jobStatus i = some .pending ∧ p.openDeps ks i = 0) := by
    rintro i ⟨hpending, hzero⟩
    have hpos := (hcoherent.pending i hpending).2
    omega
  refine ⟨hcoherent, by simp, by simp, fun i => ?_, fun i => ?_, fun i => ?_, by simp, rfl, ?_,
    fun _ => rfl, ?_⟩
  · exact ⟨fun h => ⟨h, fun hzero => hnone i ⟨h, hzero⟩⟩, And.left⟩
  · exact (or_iff_left (hnone i)).symm
  · split
    · rename_i hpending
      exact (hcoherent.pending i hpending).1
    · rfl
  · simp only [hnone, decide_false, List.countP_false]
    exact (drained_zero _).symm
  · rw [hstatus, if_neg]
    simp only [List.length_nil]
    omega

/-- The jobs that a success makes READY are new among those without an open dependency. -/
theorem Succeeds.countP_ready {ks₀ : WorkflowKeyspace} {ready : List String}
    (h : Completes p ks₀ S ks) (hs : Succeeds p j ks ready ks') :
    p.ids.countP (fun i => decide (ks₀.jobStatus i = some .pending ∧ p.openDeps ks' i = 0)) =
      p.ids.countP (fun i => decide (ks₀.jobStatus i = some .pending ∧ p.openDeps ks i = 0)) +
        ready.length := by
  have hready : ∀ i, i ∈ ready ↔
      ks₀.jobStatus i = some .pending ∧ p.openDeps ks i ≠ 0 ∧ p.openDeps ks' i = 0 := by
    intro i
    rw [hs.mem_ready_iff h.coherent, h.pending i, and_assoc]
  have hlength : p.ids.countP (fun i => decide (i ∈ ready)) = ready.length := by
    rw [List.countP_eq_length_filter]
    refine ((List.perm_ext_iff_of_nodup (p.nodup.filter _) hs.listed.1).mpr (fun i => ?_)).length_eq
    rw [List.mem_filter, decide_eq_true_iff]
    refine and_iff_right_of_imp (fun hi => (h.coherent.known i).mp ?_)
    rw [(hs.unblocked i hi).1]
    nofun
  rw [← hlength]
  refine List.countP_split _ (fun i => ?_)
  have hopen := hs.openDeps i
  by_cases hpending : ks₀.jobStatus i = some .pending
  · by_cases hzero : p.openDeps ks i = 0
    · have hzero' : p.openDeps ks' i = 0 := by omega
      simp [hready i, hpending, hzero, hzero']
    · simp [hready i, hpending, hzero]
  · simp [hready i, hpending]

/-- The next job of the set completes: what is open then is again a matter of the set alone. -/
theorem Completes.complete {ks₀ : WorkflowKeyspace} (h : Completes p ks₀ S ks)
    (hj : ks₀.jobStatus j = some .running) (hS : j ∉ S) (htime : ks₀.runTimeExceeded now = false)
    (hroom : ks₀.counters.completed + S.length < ks₀.counters.total)
    (hpos : 0 < ks₀.counters.total) :
    Completes p ks₀ (j :: S) (ks.completeSuccessfulJob now j).2 := by
  have hstatus : ks.status = some .running := by
    rw [h.status, if_neg (by omega)]
  have hrunning : ks.jobStatus j = some .running := (h.running j).mpr ⟨hj, hS⟩
  obtain ⟨done, promoted, ready, hcounted⟩ := completeSuccessfulJob_of_running
    hstatus hrunning ((h.time now).trans htime)
  have hs := h.coherent.succeeds hrunning hcounted
  have hready := hs.mem_ready_iff h.coherent
  obtain ⟨htotal, hcompleted, hdone⟩ := completeSuccessfulJob_counts hcounted
  have hmono : ∀ i, p.openDeps (ks.completeSuccessfulJob now j).2 i ≤ p.openDeps ks i := fun i => by
    have hopen := hs.openDeps i
    omega
  refine ⟨hs.coherent, fun i => ?_, fun i => ?_, fun i => ?_, fun i => ?_, fun i => ?_, ?_,
    htotal.trans h.total, ?_, fun later => ?_, ?_⟩
  · rw [hs.completed_iff, h.completed, List.mem_cons, or_assoc, or_comm (a := i ∈ S)]
  · rw [hs.running_iff, h.running, List.mem_cons, not_or, and_assoc, and_comm (a := i ∉ S)]
  · rw [hs.pending_iff, hready, h.pending]
    have hle := hmono i
    constructor
    · rintro ⟨hpending, hnot⟩
      exact ⟨hpending.1, fun hzero => hnot ⟨hpending, hzero⟩⟩
    · rintro ⟨hpending, hne⟩
      exact ⟨⟨hpending, by omega⟩, fun hc => hne hc.2⟩
  · rw [hs.unblocked_iff, hready, h.unblocked, h.pending]
    have hle := hmono i
    constructor
    · rintro ((hready | ⟨hpending, hzero⟩) | ⟨⟨hpending, -⟩, hzero⟩)
      · exact .inl hready
      · exact .inr ⟨hpending, by omega⟩
      · exact .inr ⟨hpending, hzero⟩
    · rintro (hready | ⟨hpending, hzero⟩)
      · exact .inl (.inl hready)
      · by_cases hbefore : p.openDeps ks i = 0
        · exact .inl (.inr ⟨hpending, hbefore⟩)
        · exact .inr ⟨⟨hpending, hbefore⟩, hzero⟩
  · rw [remaining_completeSuccessfulJob hcounted,
      (finishJob_counts j ks hs.successors.1).remaining i, h.remaining i]
    simp only [h.pending i, hs.successors.2 i]
    have hopen := hs.openDeps i
    by_cases hpending : ks₀.jobStatus i = some .pending
    · have hij : i ≠ j := by
        rintro rfl
        cases hj.symm.trans hpending
      by_cases hdep : j ∈ p.deps i
      · rw [if_pos hdep] at hopen
        simp only [hij, hdep, hpending, if_true, ne_eq, not_false_iff, true_and]
        rw [if_pos (by omega)]
        omega
      · rw [if_neg hdep] at hopen
        simp only [hdep, hpending, if_true, and_false, false_and, if_false]
        omega
    · simp only [hpending, false_and, and_false, if_false]
  · rw [hcompleted, h.completedJobs, List.length_cons]
    push_cast
    omega
  · rw [pendingJobs_completeSuccessfulJob hcounted hs.successors.1, h.pendingJobs,
      drained_add, hs.countP_ready h]
  · rw [runTimeExceeded_completeSuccessfulJob hcounted hs.successors.1, h.time]
  · rw [h.completedJobs, h.total] at hdone
    rw [List.length_cons]
    push_cast
    cases done with
    | true =>
        obtain ⟨-, heq⟩ := hdone.mp rfl
        rw [if_pos (by omega)]
        exact status_completeSuccessfulJob_of_done hcounted
    | false =>
        rw [if_neg, status_completeSuccessfulJob_of_open hcounted]
        intro heq
        exact Bool.false_ne_true (hdone.mpr ⟨hpos, by omega⟩)

/-- Both orders come to the same, as far as dependencies go. -/
structure SameDependencies (ks ks' : WorkflowKeyspace) : Prop where
  pending : ∀ i, ks.jobStatus i = some .pending ↔ ks'.jobStatus i = some .pending
  remaining : ∀ i, ks.remaining i = ks'.remaining i
  completed : ∀ i, ks.jobStatus i = some .completed ↔ ks'.jobStatus i = some .completed
  unblocked : ∀ i, (ks.jobStatus i = some .ready ∨ ks.jobStatus i = some .queued) ↔
    (ks'.jobStatus i = some .ready ∨ ks'.jobStatus i = some .queued)
  completedJobs : ks.number WorkflowHash.completedJobs = ks'.number WorkflowHash.completedJobs
  pendingJobs : ks.number WorkflowHash.pendingJobs = ks'.number WorkflowHash.pendingJobs
  status : ks.status = ks'.status

theorem Completes.same {ks₁ ks₂ : WorkflowKeyspace} {S₁ S₂ : List String}
    (h₁ : Completes p ks S₁ ks₁) (h₂ : Completes p ks S₂ ks₂) (hperm : S₁.Perm S₂) :
    SameDependencies ks₁ ks₂ := by
  have hcompleted : ∀ i, ks₁.jobStatus i = some .completed ↔ ks₂.jobStatus i = some .completed := by
    intro i
    rw [h₁.completed, h₂.completed, hperm.mem_iff]
  have hopen : ∀ i, p.openDeps ks₁ i = p.openDeps ks₂ i := p.openDeps_congr hcompleted
  refine ⟨fun i => ?_, fun i => ?_, hcompleted, fun i => ?_, ?_, ?_, ?_⟩
  · rw [h₁.pending, h₂.pending, hopen]
  · rw [h₁.remaining, h₂.remaining, hopen]
  · rw [h₁.unblocked, h₂.unblocked, hopen]
  · exact h₁.completedJobs.trans (h₂.completedJobs.trans (by rw [hperm.length_eq])).symm
  · rw [h₁.pendingJobs, h₂.pendingJobs]
    simp only [hopen]
  · rw [h₁.status, h₂.status, hperm.length_eq]

/-- `complete_successful_job_runtime_async` for one job of the workflow after the other, each at its
own time. -/
def Redis.completeAll (id : WorkflowIdentity) (calls : List (Int × String)) (r : Redis) : Redis :=
  calls.foldl (fun r c => (r.completeSuccessfulJob c.1 ⟨id, c.2⟩).2) r

/-- Any number of running jobs complete. The induction is on the calls; what has completed so far is
kept in `S`. -/
theorem Completes.completeAll {id : WorkflowIdentity} (calls : List (Int × String)) {r : Redis}
    (h : Completes p ks S (r.workflows id))
    (hcalls : ∀ c ∈ calls, ks.jobStatus c.2 = some .running ∧ ks.runTimeExceeded c.1 = false)
    (hnodup : (calls.map Prod.snd ++ S).Nodup)
    (hroom : ks.counters.completed + (S.length + calls.length) ≤ ks.counters.total)
    (hpos : 0 < ks.counters.total) :
    Completes p ks ((calls.map Prod.snd).reverse ++ S) ((r.completeAll id calls).workflows id) := by
  induction calls generalizing r S with
  | nil => exact h
  | cons c rest ih =>
      obtain ⟨now, j⟩ := c
      rw [List.map_cons, List.cons_append, List.nodup_cons, List.mem_append, not_or] at hnodup
      rw [List.length_cons] at hroom
      push_cast at hroom
      obtain ⟨hrunning, htime⟩ := hcalls _ List.mem_cons_self
      have hstep := h.complete hrunning hnodup.1.2 htime (by omega) hpos
      have hspace : (r.completeSuccessfulJob now ⟨id, j⟩).2.workflows id =
          ((r.workflows id).completeSuccessfulJob now j).2 := by
        rw [Redis.completeSuccessfulJob_workflows, Function.update_self]
      rw [← hspace] at hstep
      have hrest := ih hstep (fun c hc => hcalls c (List.mem_cons_of_mem _ hc))
        (List.nodup_middle.mpr (List.nodup_cons.mpr
          ⟨fun hmem => (List.mem_append.mp hmem).elim hnodup.1.1 hnodup.1.2, hnodup.2⟩))
        (by rw [List.length_cons]; push_cast; omega)
      rw [List.map_cons, List.reverse_cons, List.append_assoc, List.singleton_append]
      exact hrest

theorem Plan.length_add_tally_le {P : JobStatus → Bool} {L : List String} (hnodup : L.Nodup)
    (hL : ∀ i ∈ L, i ∈ p.ids ∧ (ks.jobStatus i).any P = false) :
    L.length + p.tally P ks ≤ p.ids.length := by
  have hsplit := List.length_eq_countP_add_countP (fun i => (ks.jobStatus i).any P) (l := p.ids)
  have hother : L.length ≤ p.ids.countP (fun i => ¬ (ks.jobStatus i).any P = true) := by
    rw [List.countP_eq_length_filter]
    refine (List.subperm_of_subset hnodup (fun i hi => ?_)).length_le
    rw [List.mem_filter]
    exact ⟨(hL i hi).1, by simp [(hL i hi).2]⟩
  rw [Plan.tally]
  omega

/-- Distinct running jobs of a running workflow complete. The workflow is not over before the last of
them, because they are not among the jobs that are counted already. -/
theorem Strong.completeAll {v : WorkflowView} (h : Strong p v) (hstatus : v.status = some .running)
    {id : WorkflowIdentity} {r : Redis} (hspace : r.workflows id = v.space)
    {calls : List (Int × String)} (hnodup : (calls.map Prod.snd).Nodup)
    (hcalls : ∀ c ∈ calls, v.jobStatus c.2 = some .running ∧ v.space.runTimeExceeded c.1 = false) :
    Completes p v.space (calls.map Prod.snd).reverse ((r.completeAll id calls).workflows id) := by
  have hcount : (calls.map Prod.snd).length + p.tally JobStatus.isTerminal v.space ≤
      p.ids.length := by
    refine Plan.length_add_tally_le hnodup (fun i hi => ?_)
    obtain ⟨c, hc, rfl⟩ := List.mem_map.mp hi
    have hrunning := (hcalls c hc).1
    exact ⟨h.mem_ids hrunning, congrArg (Option.any JobStatus.isTerminal) hrunning⟩
  have hunfinished := h.unfinished
  have hnil := completes_nil h.coherent hstatus (by rw [h.completed, h.total]; omega)
  rw [← hspace] at hnil
  rw [List.length_map] at hcount
  rw [← List.append_nil (calls.map Prod.snd).reverse, ← hspace]
  refine hnil.completeAll calls (fun c hc => ?_) (by rw [List.append_nil]; exact hnodup) ?_ ?_
  · rw [hspace]
    exact hcalls c hc
  · rw [hspace, h.completed, h.total, List.length_nil]
    push_cast
    omega
  · rw [hspace, h.total]
    omega

end Completions

section Orders

variable {svc : Service} {req : WorkflowRequest} {log : Log} {σ : Pool Call Call.Reply World}

/-- Jobs of a RUNNING workflow that are running themselves may complete in any order: which jobs are
PENDING, COMPLETED or unblocked afterwards, their open dependencies, the counters and the status of the
workflow are the same. -/
theorem completions_commute (h : Executes Plain svc req log σ)
    (hstatus : (σ.world.redis.workflows req.identity).status = some .running)
    (calls calls' : List (Int × String)) (hnodup : (calls.map Prod.snd).Nodup)
    (hperm : (calls.map Prod.snd).Perm (calls'.map Prod.snd))
    (hjobs : ∀ c ∈ calls,
      (σ.world.redis.workflows req.identity).jobStatus c.2 = some .running)
    (htime : ∀ c ∈ calls ++ calls',
      (σ.world.redis.workflows req.identity).runTimeExceeded c.1 = false) :
    SameDependencies ((σ.world.redis.completeAll req.identity calls).workflows req.identity)
      ((σ.world.redis.completeAll req.identity calls').workflows req.identity) := by
  obtain ⟨p, -, T, hinv⟩ := h.exists_inv
  rcases hinv with hstrong | hweak
  · refine Completes.same (hstrong.completeAll hstatus rfl hnodup (fun c hc => ?_))
      (hstrong.completeAll hstatus rfl (hperm.nodup_iff.mp hnodup) (fun c hc => ?_))
      ((List.reverse_perm _).trans (hperm.trans (List.reverse_perm _).symm))
    · exact ⟨hjobs c hc, htime c (List.mem_append_left _ hc)⟩
    · obtain ⟨c', hc', hsame⟩ := List.mem_map.mp (hperm.mem_iff.mpr (List.mem_map_of_mem hc))
      exact ⟨hsame ▸ hjobs c' hc', htime c (List.mem_append_right _ hc)⟩
  · exact absurd hstatus hweak.closed

def joinedJobs : WorkflowRequest :=
  requestOf [{ jobId := "a" }, { jobId := "b" }, { jobId := "c", dependsOn := ["a", "b"] }]

/-- Two workers start a job each. -/
def bothStarted : List Act :=
  pass .scheduler 5 ++ pass .worker 2 ++ pass .scheduler 5 ++ pass .worker 2

/-- The two running jobs complete in one order and in the other. -/
theorem completions_commute_joinedJobs :
    SameDependencies
      (((played (serviceOf 2) joinedJobs bothStarted).2.world.redis.completeAll joinedJobs.identity
        [(1, "a"), (2, "b")]).workflows joinedJobs.identity)
      (((played (serviceOf 2) joinedJobs bothStarted).2.world.redis.completeAll joinedJobs.identity
        [(1, "b"), (2, "a")]).workflows joinedJobs.identity) := by
  have hrun : Executes Plain (serviceOf 2) joinedJobs _ _ :=
    executes_played bothStarted (requestOf_plain _) (by decide +kernel)
  exact completions_commute hrun (by decide +kernel) [(1, "a"), (2, "b")] [(1, "b"), (2, "a")]
    (by decide) (.swap ..) (by decide +kernel) (by decide +kernel)

/-- The condition on the ids is needed. Job `w1:j` of workflow `eu` and job `j` of workflow `eu:w1` have
one key. -/
def euJobs : WorkflowRequest :=
  { requestOf [{ jobId := "w1:j" }, { jobId := "x", priority := some 1 },
      { jobId := "y", priority := some 1 }] with
    clientId := "acme", requestId := "r1", workflowId := "eu" }

/-- The workflow that is admitted while the other one runs. -/
def euW1Job : WorkflowRequest :=
  { requestOf [{ jobId := "j" }] with
    clientId := "acme", requestId := "r2", workflowId := "eu:w1" }

/-- A service whose generator is past its first `n` job ids. -/
def serviceFrom (n : Nat) : Service :=
  { serviceOf 3 with uuids := ⟨(· + n), fun _ _ => Nat.add_right_cancel⟩ }

namespace FlatWorld

/-- The admission of a request on the texts that Redis has. -/
def admission (svc : Service) (req : WorkflowRequest) (s : FlatWorld) :
    Option ValidationResult × FlatWorld :=
  Prog.run Call.serveFlat (fun _ => {}) (WorkflowAdmissionService.submitWorkflow svc (.request req)) s

/-- A schedule played on the texts that Redis has. -/
def resumed (acts : List Act) (σ : Pool Call Call.Reply FlatWorld) :
    List (Event Call FlatWorld Env) × Pool Call Call.Reply FlatWorld :=
  (engineOn Call.serveFlat (fun _ => True)).play (acts.map Act.turn) σ

theorem run_resumed (acts : List Act) (σ : Pool Call Call.Reply FlatWorld) :
    (engineOn Call.serveFlat (fun _ => True)).Run σ (resumed acts σ).1 (resumed acts σ).2 :=
  run_play acts σ

/-- Jobs of a workflow complete one after the other, each at a time of Redis. -/
def completeAll (id : WorkflowIdentity) (calls : List (Int × String)) (s : FlatWorld) : FlatWorld :=
  calls.foldl
    (fun s c => ((Call.completeSuccessfulJob ⟨id, c.2⟩).serveFlat { redisTime := c.1 } s).2) s

end FlatWorld

def oneCounted : List Act := pass .scheduler 5 ++ pass .worker 6 ++ pass .completionHandler 12

/-- Job `w1:j` of `eu` has been counted, `x` and `y` are running. -/
def euStarted : List (Event Call FlatWorld Env) × Pool Call Call.Reply FlatWorld :=
  FlatWorld.resumed (oneCounted ++ pass .scheduler 5 ++ pass .worker 3 ++ pass .scheduler 5 ++
    pass .worker 3) ⟨(FlatWorld.admission (serviceFrom 0) euJobs {}).2, []⟩

/-- The admission of `eu:w1` has written its job over `w1:j`, which has been counted again. -/
def euCountedTwice : List (Event Call FlatWorld Env) × Pool Call Call.Reply FlatWorld :=
  FlatWorld.resumed oneCounted
    ⟨(FlatWorld.admission (serviceFrom 3) euW1Job euStarted.2.world).2, euStarted.2.threads⟩

def euKeys (s : FlatWorld) : WorkflowKeyspace := s.keys.load euJobs.identity

/-- `eu` is RUNNING, and so are `x` and `y`; the time is not up. -/
def EuRuns (ks : WorkflowKeyspace) : Prop :=
  ks.status = some .running ∧ ks.jobStatus "x" = some .running ∧
    ks.jobStatus "y" = some .running ∧ ks.runTimeExceeded 0 = false

instance (ks : WorkflowKeyspace) : Decidable (EuRuns ks) := inferInstanceAs (Decidable (_ ∧ _))

/-- With the shared job counted twice, the first of `x` and `y` to complete makes the workflow
COMPLETED, and the other one is refused. -/
theorem completions_of_shared_key_differ :
    ExecutesOn Call.serveFlat (fun _ => True) {} (serviceFrom 0) euJobs
      (euStarted.1 ++ euCountedTwice.1) euCountedTwice.2 ∧
    EuRuns (euKeys euCountedTwice.2.world) ∧
    ¬ SameDependencies
      (euKeys (euCountedTwice.2.world.completeAll euJobs.identity [(0, "x"), (0, "y")]))
      (euKeys (euCountedTwice.2.world.completeAll euJobs.identity [(0, "y"), (0, "x")])) := by
  -- all that is to be computed, in one statement, so that the run is evaluated once
  have hplayed :
      (FlatWorld.admission (serviceFrom 0) euJobs {}).1.map ValidationResult.valid = some true ∧
      (FlatWorld.admission (serviceFrom 3) euW1Job euStarted.2.world).1.map
        ValidationResult.valid = some true ∧
      EuRuns (euKeys euCountedTwice.2.world) ∧
      (euKeys (euCountedTwice.2.world.completeAll euJobs.identity
        [(0, "x"), (0, "y")])).jobStatus "y" = some .running ∧
      (euKeys (euCountedTwice.2.world.completeAll euJobs.identity
        [(0, "y"), (0, "x")])).jobStatus "y" = some .completed := by
    decide +kernel
  obtain ⟨hfirst, hsecond, hruns, hrefused, hcompleted⟩ := hplayed
  refine ⟨?_, hruns, fun hsame => ?_⟩
  · have hadmits : Admits Call.serveFlat (serviceFrom 3) euW1Job euStarted.2.world _ :=
      admits_of_valid hsecond
    have hbefore : (engineOn Call.serveFlat (fun _ => True)).Run _ euStarted.1 euStarted.2 :=
      FlatWorld.run_resumed _ _
    have hafter : (engineOn Call.serveFlat (fun _ => True)).Run _ euCountedTwice.1 euCountedTwice.2 :=
      FlatWorld.run_resumed _ _
    have hrun := (hbefore.trans (hadmits.run trivial)).trans hafter
    rw [List.append_nil] at hrun
    exact ⟨[], ⟨{}, []⟩, _, .refl _, trivial, admits_of_valid hfirst, hrun⟩
  · cases hrefused.symm.trans ((hsame.completed "y").mpr hcompleted)

end Orders

end FlowPilot
