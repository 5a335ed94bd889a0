import FlowPilot.StoreEffects

/-! What an admitted workflow consists of, and how its keys agree with that: how many of its jobs are
in given statuses, which dependencies are open, and that the counters of PENDING jobs, the successor
lists and the waiting set say the same as the statuses do. -/

namespace FlowPilot

/-- The jobs of a workflow, what each depends on, and its limit of concurrent jobs. -/
structure Plan where
  ids : List String
  deps : String → List String
  limit : Int
  nodup : ids.Nodup
  nonempty : ids ≠ []
  deps_nodup : ∀ j, (deps j).Nodup
  deps_known : ∀ j d, d ∈ deps j → j ∈ ids ∧ d ∈ ids

namespace Plan

variable (p : Plan) {P : JobStatus → Bool} {ks ks' : WorkflowKeyspace} {j : String}

/-- How many jobs have a status of the kind. -/
def tally (P : JobStatus → Bool) (ks : WorkflowKeyspace) : Nat :=
  p.ids.countP (fun j => (ks.jobStatus j).any P)

theorem tally_congr (h : ∀ i, (ks'.jobStatus i).any P = (ks.jobStatus i).any P) :
    p.tally P ks' = p.tally P ks :=
  List.countP_congr (fun i _ => by rw [h i])

theorem tally_of_eq_off (hj : j ∈ p.ids)
    (h : ∀ i, i ≠ j → (ks'.jobStatus i).any P = (ks.jobStatus i).any P) :
    p.tally P ks' + ((ks.jobStatus j).any P).toNat =
      p.tally P ks + ((ks'.jobStatus j).any P).toNat :=
  List.countP_of_eq_off p.nodup hj (fun i _ hi => h i hi)

theorem tally_mono (h : ∀ i, (ks'.jobStatus i).any P = true → (ks.jobStatus i).any P = true) :
    p.tally P ks' ≤ p.tally P ks :=
  List.countP_mono_left (fun i _ => h i)

theorem tally_le (P : JobStatus → Bool) (ks : WorkflowKeyspace) :
    p.tally P ks ≤ p.ids.length := List.countP_le_length

theorem tally_eq_length_iff :
    p.tally P ks = p.ids.length ↔ ∀ j ∈ p.ids, (ks.jobStatus j).any P = true :=
  List.countP_eq_length

theorem tally_pos (hj : j ∈ p.ids) (h : (ks.jobStatus j).any P = true) : 0 < p.tally P ks :=
  List.countP_pos_iff.mpr ⟨j, hj, h⟩

/-- The dependencies of a job that are not COMPLETED. -/
def openDeps (ks : WorkflowKeyspace) (j : String) : Nat :=
  (p.deps j).countP (fun d => decide (ks.jobStatus d ≠ some .completed))

theorem openDeps_congr
    (h : ∀ i, ks'.jobStatus i = some .completed ↔ ks.jobStatus i = some .completed) (j : String) :
    p.openDeps ks' j = p.openDeps ks j :=
  List.countP_congr (fun d _ => by simp only [ne_eq, h d])

theorem openDeps_complete {i : String} (hi : i ∈ p.deps j)
    (hbefore : ks.jobStatus i ≠ some .completed) (hafter : ks'.jobStatus i = some .completed)
    (h : ∀ d, d ≠ i → (ks'.jobStatus d = some .completed ↔ ks.jobStatus d = some .completed)) :
    p.openDeps ks' j + 1 = p.openDeps ks j := by
  have hcount := List.countP_of_eq_off (p.deps_nodup j)
    (f := fun d => decide (ks'.jobStatus d ≠ some .completed))
    (g := fun d => decide (ks.jobStatus d ≠ some .completed)) hi
    (fun d _ hd => by simp only [ne_eq, h d hd])
  simp only [hafter, ne_eq, not_true_eq_false, decide_false, hbefore, not_false_eq_true,
    decide_true, Bool.toNat_true, Bool.toNat_false, Nat.add_zero] at hcount
  exact hcount

theorem openDeps_congr_of_not_mem {i : String} (hi : i ∉ p.deps j)
    (h : ∀ d, d ≠ i → (ks'.jobStatus d = some .completed ↔ ks.jobStatus d = some .completed)) :
    p.openDeps ks' j = p.openDeps ks j :=
  List.countP_congr (fun d hd => by
    simp only [ne_eq, h d (fun heq => hi (heq ▸ hd))])

theorem openDeps_eq_zero_iff :
    p.openDeps ks j = 0 ↔ ∀ d ∈ p.deps j, ks.jobStatus d = some .completed := by
  rw [openDeps, List.countP_eq_zero]
  simp

end Plan

/-- The keys of the workflow agree with its plan. -/
structure Coherent (p : Plan) (ks : WorkflowKeyspace) : Prop where
  known : ∀ j, ks.jobStatus j ≠ none ↔ j ∈ p.ids
  waiting : ∀ j, j ∈ ks.waitingReady.members ↔ ks.jobStatus j = some .ready
  pending : ∀ j, ks.jobStatus j = some .pending →
    ks.remaining j = p.openDeps ks j ∧ 1 ≤ p.openDeps ks j
  successors : ∀ i ∈ p.ids, ks.jobStatus i ≠ some .completed →
    (ks.successors i).Nodup ∧ ∀ j, j ∈ ks.successors i ↔ i ∈ p.deps j

namespace Coherent

variable {p : Plan} {ks ks' : WorkflowKeyspace} {j : String}

theorem of_change (h : Coherent p ks) (hknown : ∀ i, ks'.jobStatus i ≠ none ↔ ks.jobStatus i ≠ none)
    (hwaiting : ∀ i, i ∈ ks'.waitingReady.members ↔ ks'.jobStatus i = some .ready)
    (hpending : ∀ i, ks'.jobStatus i = some .pending →
      ks.jobStatus i = some .pending ∧ ks'.remaining i = ks.remaining i)
    (hcompleted : ∀ i, ks'.jobStatus i = some .completed ↔ ks.jobStatus i = some .completed)
    (hsuccessors : ks'.successors = ks.successors) : Coherent p ks' where
  known := fun i => (hknown i).trans (h.known i)
  waiting := hwaiting
  pending := fun i hi => by
    obtain ⟨hbefore, hremaining⟩ := hpending i hi
    rw [hremaining, p.openDeps_congr hcompleted]
    exact h.pending i hbefore
  successors := fun i hi hopen => by
    rw [hsuccessors]
    exact h.successors i hi (fun hc => hopen ((hcompleted i).mpr hc))

theorem of_sameJobs (h : Coherent p ks) (hsame : WorkflowKeyspace.SameJobs ks ks') :
    Coherent p ks' :=
  h.of_change (fun i => by rw [hsame.jobStatus]) (fun i => by
    rw [hsame.waiting, hsame.jobStatus]
    exact h.waiting i) (fun i hi => ⟨by rw [← hsame.jobStatus]; exact hi, hsame.remaining i⟩)
    (fun i => by rw [hsame.jobStatus]) hsame.successors

/-- A job that is not COMPLETED gets a status other than PENDING and COMPLETED. -/
theorem setJob (h : Coherent p ks) {st : JobStatus}
    (hstatus : ∀ i, ks'.jobStatus i = if i = j then some st else ks.jobStatus i)
    (hremaining : ∀ i, ks'.remaining i = ks.remaining i) (hsuccessors : ks'.successors = ks.successors)
    (hwaiting : ∀ i, i ∈ ks'.waitingReady.members ↔
      if i = j then st = .ready else i ∈ ks.waitingReady.members) (hj : ks.jobStatus j ≠ none)
    (hcompleted : ks.jobStatus j ≠ some .completed) (hst : st ≠ .pending ∧ st ≠ .completed) :
    Coherent p ks' := by
  refine h.of_change (fun i => ?_) (fun i => ?_) (fun i hi => ⟨?_, hremaining i⟩) (fun i => ?_)
    hsuccessors
  · rw [hstatus]
    by_cases hi : i = j <;> simp [hi, hj]
  · rw [hwaiting, h.waiting, hstatus]
    by_cases hi : i = j <;> simp [hi]
  · rw [hstatus] at hi
    by_cases hij : i = j
    · simp [hij, hst.1] at hi
    · simpa [hij] using hi
  · rw [hstatus]
    by_cases hi : i = j <;> simp [hi, hcompleted, hst.2]

theorem setStatus (h : Coherent p ks) {st : JobStatus}
    (hstatus : ∀ i, ks'.jobStatus i = if i = j then some st else ks.jobStatus i)
    (hremaining : ∀ i, ks'.remaining i = ks.remaining i) (hsuccessors : ks'.successors = ks.successors)
    (hwaiting : ks'.waitingReady = ks.waitingReady) (hj : ks.jobStatus j ≠ none)
    (hready : ks.jobStatus j ≠ some .ready) (hcompleted : ks.jobStatus j ≠ some .completed)
    (hst : st ≠ .ready ∧ st ≠ .pending ∧ st ≠ .completed) : Coherent p ks' := by
  refine h.setJob hstatus hremaining hsuccessors (fun i => ?_) hj hcompleted hst.2
  rw [hwaiting, h.waiting]
  by_cases hi : i = j <;> simp [hi, hready, hst.1]

theorem queueWaiting (h : Coherent p ks) (hj : j ∈ ks.waitingReady.members) :
    Coherent p (ks.queueWaiting j) := by
  have hready := (h.waiting j).mp hj
  refine h.setJob (fun i => WorkflowKeyspace.jobStatus_queueWaiting ks j i) (by simp) rfl
    (fun i => ?_) (by simp [hready]) (by simp [hready]) ⟨nofun, nofun⟩
  rw [WorkflowKeyspace.queueWaiting_waitingReady, SortedSet.mem_members_remove]
  by_cases hi : i = j <;> simp [hi]

theorem waitAgain (h : Coherent p ks) (hj : ks.jobStatus j = some .retryDelay) :
    Coherent p (ks.waitAgain j) := by
  refine h.setJob (fun i => WorkflowKeyspace.jobStatus_waitAgain j i ks)
    (fun i => WorkflowKeyspace.remaining_setJobStatus ks i j .ready) rfl (fun i => ?_)
    (by simp [hj]) (by simp [hj]) ⟨nofun, nofun⟩
  rw [WorkflowKeyspace.waitAgain, SortedSet.mem_members_add]
  by_cases hi : i = j <;> simp [hi]

/-- The completion of a job, with what it does to its successors. -/
theorem finishJob (h : Coherent p ks) {ready : List String} (hj : j ∈ p.ids)
    (hopen : ks.jobStatus j ≠ some .completed) (hwait : ks.jobStatus j ≠ some .ready)
    (hfinished : WorkflowKeyspace.Finished j ks ready ks') : Coherent p ks' := by
  have hcompleted := fun d (hd : d ≠ j) => hfinished.completed_iff hd
  have hsuccessors := h.successors j hj hopen
  refine ⟨fun i => ?_, fun i => ?_, fun i hi => ?_, fun i hi hi' => ?_⟩
  · rw [← h.known i]
    by_cases hij : i = j
    · subst hij
      simp [hfinished.self, (h.known i).mpr hj]
    · rw [hfinished.jobStatus i hij]
      split
      · rename_i hlast
        simp [hlast.2.1]
      · rfl
  · rw [hfinished.waiting, h.waiting]
    by_cases hij : i = j
    · subst hij
      simp [hfinished.self, hwait]
    · rw [hfinished.jobStatus i hij]
      by_cases hlast : i ∈ ks.successors j ∧ ks.LastOpen i <;> simp [hij, hlast]
  · have hij : i ≠ j := by
      rintro rfl
      rw [hfinished.self] at hi
      cases hi
    have hbefore : ¬ (i ∈ ks.successors j ∧ ks.LastOpen i) ∧ ks.jobStatus i = some .pending := by
      rw [hfinished.jobStatus i hij] at hi
      split at hi
      · cases hi
      · exact ⟨by assumption, hi⟩
    obtain ⟨hremaining, hpos⟩ := h.pending i hbefore.2
    rw [hfinished.remaining i hij hi]
    by_cases hsucc : i ∈ ks.successors j
    · have hdep := (hsuccessors.2 i).mp hsucc
      have hcount := p.openDeps_complete hdep hopen hfinished.self hcompleted
      have hlast : ¬ ks.remaining i ≤ 1 := fun hle => hbefore.1 ⟨hsucc, hbefore.2, hle⟩
      rw [if_pos hsucc]
      omega
    · have hdep : j ∉ p.deps i := fun hd => hsucc ((hsuccessors.2 i).mpr hd)
      rw [if_neg hsucc, p.openDeps_congr_of_not_mem hdep hcompleted]
      exact ⟨hremaining, hpos⟩
  · have hij : i ≠ j := fun heq => hi' (heq ▸ hfinished.self)
    rw [hfinished.successors i hij]
    exact h.successors i hi (fun hc => hi' ((hcompleted i hij).mpr hc))

end Coherent

end FlowPilot
