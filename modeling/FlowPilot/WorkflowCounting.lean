import FlowPilot.WorkflowInvariant

/-! Which jobs have been counted. Each step adds to `completed_jobs` exactly the jobs it is credited
with. A job that was counted is SPENT: it is done, and whoever still holds it cannot bring it to a
script that counts it again, unless a handler starts over after its success script was answered. As
long as no handler does, every job is counted once, and the counter reaches the number of jobs when
the last job is done. -/

namespace FlowPilot

open WorkflowKeyspace WorkflowView

/-- The stages from which a job that is done is not counted again. -/
def Stage.inert : Stage → Bool
  | .queued | .popped | .retryWait | .retryHeld | .counted _ _ | .failed _ => true
  | _ => false

theorem Stage.inert_of_fits {s : Stage} {st : JobStatus} (h : s.fits st = true)
    (hst : st.isWaitingToRun = true) : s.inert = true := by
  unfold fits at h
  split at h <;> simp_all [inert, JobStatus.isWaitingToRun]

/-- A job that was counted: it is done, and nobody who holds it can have it counted again. -/
structure WorkflowView.Spent (v : WorkflowView) (i : String) : Prop where
  inert : ∀ s ∈ v.stages i, s.inert = true
  done : ∀ st, v.jobStatus i = some st → st.isTerminal = true

section Spent

variable {p : Plan} {x : Served} {v v' : WorkflowView} {l : List String} {i j : String} {s : Stage}
  {rest : Multiset Stage} {now n : Int}

theorem WorkflowView.Spent.of_eq (h : v.Spent i) (hstages : v'.stages i = v.stages i)
    (hstatus : v'.jobStatus i = v.jobStatus i) : v'.Spent i :=
  ⟨fun s hs => h.inert s (hstages ▸ hs), fun st hst => h.done st (hstatus ▸ hst)⟩

theorem WorkflowView.Spent.change (h : v.Spent i)
    (hstages : ∀ s ∈ v'.stages i, s ∈ v.stages i ∨ s.inert = true)
    (hstatus : ∀ st, v'.jobStatus i = some st → v.jobStatus i = some st ∨ st.isTerminal = true) :
    v'.Spent i :=
  ⟨fun s hs => (hstages s hs).elim (h.inert s) id,
    fun st hst => (hstatus st hst).elim (h.done st) id⟩

theorem WorkflowView.Spent.ne_of_mem (h : v.Spent i) (hs : v.stages j = s ::ₘ rest)
    (hinert : s.inert = false) : i ≠ j := by
  rintro rfl
  rw [h.inert s (hs ▸ Multiset.mem_cons_self ..)] at hinert
  cases hinert

/-- A step in which a component that is not done with its job passes to another stage. -/
theorem WorkflowView.Spent.of_actor (h : v.Spent i) (hs : v.stages j = s ::ₘ rest)
    (hinert : s.inert = false) {m : Multiset Stage} (hstages : v'.stages = (v.setStages j m).stages)
    (hstatus : i ≠ j → v'.jobStatus i = v.jobStatus i) : v'.Spent i := by
  have hij := h.ne_of_mem hs hinert
  refine h.of_eq ?_ (hstatus hij)
  rw [hstages, setStages_stages_of_ne v m hij]

theorem WorkflowView.Spent.of_setStages (h : v.Spent i) (hs : v.stages j = s ::ₘ rest)
    {m : Multiset Stage} (hm : ∀ t ∈ m, t ∈ rest ∨ t.inert = true)
    (hstages : v'.stages = (v.setStages j m).stages)
    (hstatus : v'.jobStatus i = v.jobStatus i) : v'.Spent i := by
  refine h.change (fun t ht => ?_) (fun st hst => .inl (hstatus ▸ hst))
  rw [hstages] at ht
  rcases mem_setStages.mp ht with ⟨rfl, hmem⟩ | ⟨-, hmem⟩
  · exact (hm t hmem).imp_left (fun hrest => hs ▸ Multiset.mem_cons_of_mem hrest)
  · exact .inl hmem

theorem WorkflowView.Spent.not_ready (h : v.Spent i) : v.jobStatus i ≠ some .ready := fun hr => by
  cases h.done _ hr

theorem WorkflowView.Spent.promoteWaiting (h : v.Spent i) {ks : WorkflowKeyspace}
    (hsame : ks.jobStatus i = v.jobStatus i)
    (hwaiting : ∀ k, k ∈ ks.waitingReady.members → ks.jobStatus k = some .ready) :
    ks.promoteWaiting.2.jobStatus i = v.jobStatus i := by
  rw [jobStatus_promoteWaiting_of_not_mem, hsame]
  exact fun hmem => h.not_ready (hsame.symm.trans (hwaiting i hmem))

theorem WorkflowView.Spent.success (h : v.Spent i) (hstrong : Strong p v) (hij : i ≠ j) {done : Bool}
    {promoted : Option (String × Int)} {ready : List String}
    (hs : v.stages j = .reported .completed ::ₘ rest)
    (hcounted : (v.space.completeSuccessfulJob now j).1 = .counted done promoted ready) :
    (v.space.completeSuccessfulJob now j).2.jobStatus i = v.jobStatus i := by
  obtain ⟨hst, hfinished⟩ := hstrong.finished hs
  have hcoherent := hstrong.coherent.finishJob (hstrong.mem_ids hst)
    (fun hc => by cases hst.symm.trans hc) (fun hc => by cases hst.symm.trans hc) hfinished
  have hkeep : (v.space.finishJob j).2.jobStatus i = v.jobStatus i := by
    refine (hfinished.jobStatus i hij).trans (if_neg (fun hlast => ?_))
    cases h.done _ hlast.2.1
  exact completeSuccessfulJob_rule (P := fun ks => ks.jobStatus i = v.jobStatus i) hcounted hkeep
    hkeep (h.promoteWaiting hkeep (fun k hk => (hcoherent.waiting k).mp hk))

theorem WorkflowView.Spent.fail (h : v.Spent i) (hij : i ≠ j) (jobIds : List String) :
    (v.space.completeFailedJob j n jobIds).2.jobStatus i = v.jobStatus i := by
  by_cases hrun : v.space.status = some .running
  · refine ((completeFailedJob_running n hrun).jobStatus i hij).trans
      (if_neg (fun hwait => ?_))
    obtain ⟨st, hst, hkind⟩ := (Option.any_eq_true _ _).mp hwait.2
    have hdone := h.done st hst
    rw [JobStatus.not_isTerminal_of_isWaitingToRun hkind] at hdone
    cases hdone
  · exact ((completeFailedJob_other n hrun).jobStatus i).trans (if_neg hij)

theorem WorkflowView.Spent.retry (h : v.Spent i) (hinv : Inv p v) (hij : i ≠ j) {st : JobStatus}
    (hs : v.stages j = .reported st ::ₘ rest) :
    (v.space.scheduleJobRetry j n).2.jobStatus i = v.jobStatus i := by
  have hdelay : ∀ k, (v.space.delayJob j n).jobStatus k =
      if k = j then some .retryDelay else v.jobStatus k :=
    fun k => jobStatus_delayJob j k n v.space
  have hkeep := (hdelay i).trans (if_neg hij)
  rcases scheduleJobRetry_cases j n v.space with ⟨heq, -⟩ | ⟨hrun, -, heq⟩
  · rw [heq]
    exact hkeep
  · rw [heq]
    refine h.promoteWaiting hkeep (fun k hk => ?_)
    have hstrong := hinv.strong_of_running hrun
    have hready := (hstrong.coherent.waiting k).mp hk
    rw [hdelay, if_neg]
    · exact hready
    · rintro rfl
      exact Multiset.cons_ne_zero (hs.symm.trans (hstrong.tokens.eq_zero (.inr hready)))

theorem WorkflowView.Spent.promote (h : v.Spent i) (hinv : Inv p v) (st : JobStatus)
    (hst : (v.space.promoteRetryJob j).2.jobStatus i = some st) :
    v.jobStatus i = some st ∨ st.isTerminal = true := by
  have hpromoted := promoteRetryJob_promoted j v.space
  generalize v.space.promoteRetryJob j = r at hpromoted hst
  obtain ⟨promoted, ks⟩ := r
  dsimp only at hpromoted hst
  have hne : v.space.jobStatus j = some .retryDelay ∨ v.space.jobStatus j = some .ready →
      i ≠ j := by
    rintro hjob rfl
    rcases hjob with hjob | hjob <;> cases h.done _ hjob
  cases hpromoted with
  | missing | refused => exact .inl hst
  | stopped =>
      rw [setJobStatus_jobStatus] at hst
      split at hst
      · cases hst
        exact .inr rfl
      · exact .inl hst
  | queued _ _ hjob =>
      have hkeep := (setJobStatus_jobStatus v.space j i .queued).trans
        (if_neg (hne hjob))
      exact .inl (hkeep.symm.trans hst)
  | waiting _ hjob =>
      have hkeep := (setJobStatus_jobStatus v.space j i .ready).trans
        (if_neg (hne hjob))
      exact .inl (hkeep.symm.trans hst)
  | swapped hrun hjob =>
      have hkeep : (v.space.waitAgain j).jobStatus i = v.jobStatus i :=
        (setJobStatus_jobStatus v.space j i .ready).trans (if_neg (hne hjob))
      rw [h.promoteWaiting hkeep (fun k hk => ?_)] at hst
      · exact .inl hst
      · rw [WorkflowKeyspace.waitAgain, SortedSet.mem_members_add] at hk
        refine (setJobStatus_jobStatus v.space j k .ready).trans ?_
        split
        · rfl
        · rename_i hkj
          exact ((hinv.strong_of_running hrun).coherent.waiting k).mp (hk.resolve_left hkj)

/-- No handler has met a failed call after its success script. -/
def WorkflowView.Unbroken (v : WorkflowView) : Prop := ∀ i c, .broken c ∉ v.stages i

theorem Shift.inert {s' : Stage} (h : Shift v x j s s') (hs : s.inert = true) :
    s'.inert = true ∨ ∃ c, s' = .broken c := by
  cases h with
  | pop | due => exact .inl rfl
  | broken c => exact .inr ⟨c, rfl⟩
  | dispatch hd => cases hd <;> cases hs
  | report hr => cases hr <;> cases hs
  | _ => cases hs

theorem WorkflowView.Spent.shift {s' : Stage} {rest : Multiset Stage} (h : v.Spent i)
    (hs : v.stages j = s ::ₘ rest) (hshift : Shift v x j s s')
    (hunbroken : (v.setStages j (s' ::ₘ rest)).Unbroken) :
    (v.setStages j (s' ::ₘ rest)).Spent i := by
  by_cases hij : i = j
  · subst hij
    refine h.change (fun t ht => ?_) (fun st hst => .inl hst)
    rw [setStages_stages_self] at ht
    rcases Multiset.mem_cons.mp ht with rfl | ht
    · rcases hshift.inert (h.inert s (hs ▸ Multiset.mem_cons_self ..)) with hinert | ⟨c, rfl⟩
      · exact .inr hinert
      · refine absurd ?_ (hunbroken i c)
        rw [setStages_stages_self]
        exact Multiset.mem_cons_self ..
    · exact .inl (hs ▸ Multiset.mem_cons_of_mem ht)
  · exact h.of_eq (setStages_stages_of_ne _ _ hij) rfl

theorem WorkflowView.Spent.mark (h : v.Spent i) (j : String) :
    WorkflowView.Spent { v with space := v.space.setJobStatus j .aborted } i := by
  refine h.change (fun t ht => .inl ht) (fun st hst => ?_)
  have hst' : (v.space.setJobStatus j .aborted).jobStatus i = some st := hst
  rw [setJobStatus_jobStatus] at hst'
  split at hst'
  · cases hst'
    exact .inr rfl
  · exact .inl hst'

theorem WorkflowView.Spent.erase (h : v.Spent i) (herased : Erased v v') : v'.Spent i := by
  cases herased with
  | job k =>
      refine h.change (fun t ht => .inl ht) (fun st hst => .inl ?_)
      by_cases hik : i = k
      · subst hik
        simp [WorkflowView.jobStatus, WorkflowKeyspace.jobStatus] at hst
      · simpa [WorkflowView.jobStatus, WorkflowKeyspace.jobStatus, Function.update_of_ne hik]
          using hst
  | retry k =>
      refine h.change (fun t ht => .inl ?_) (fun st hst => .inl hst)
      rcases mem_setStages.mp ht with ⟨rfl, hmem⟩ | ⟨-, hmem⟩
      · exact Multiset.mem_of_mem_erase hmem
      · exact hmem
  | _ => exact h.of_eq rfl rfl

/-- A counted job stays spent, as long as no handler met a failed call after its success script. -/
theorem WStep.spent (hstep : WStep x v l v') (hinv : Inv p v) (hunbroken : v'.Unbroken)
    (h : v.Spent i) : v'.Spent i := by
  have hinert : ∀ {rest : Multiset Stage} (s : Stage), s.inert = true →
      ∀ t ∈ s ::ₘ rest, t ∈ rest ∨ t.inert = true := by
    intro rest s hs t ht
    rcases Multiset.mem_cons.mp ht with rfl | hmem
    · exact .inr hs
    · exact .inl hmem
  cases hstep with
  | shift hs hshift => exact h.shift hs hshift hunbroken
  | lose hs => exact h.of_setStages hs (fun t ht => .inl ht) rfl rfl
  | @claim j rest hx hs hst =>
      have hij : i ≠ j := by
        rintro rfl
        rcases hst with hst | hst <;> cases h.done _ hst
      exact h.of_eq (setStages_stages_of_ne _ _ hij)
        ((setJobStatus_jobStatus ..).trans (if_neg hij))
  | @start j now rest hx hs =>
      refine h.of_actor hs rfl rfl (fun hij => ?_)
      exact jobStatus_trySetJobToRunning_of_ne hij
  | @expire j now rest hx hs hexpired =>
      refine h.of_actor hs rfl rfl (fun hij => ?_)
      have hks := (completeSuccessfulJob_expired hexpired).2.2
      rw [WorkflowView.jobStatus, WorkflowView.setStages, hks]
      rfl
  | @success j now rest done promoted ready hx hs hcounted =>
      have hij := h.ne_of_mem hs rfl
      have hstrong := hinv.strong_of_running
        (completeSuccessfulJob_counted hcounted).1
      refine h.change (fun t ht => ?_) (fun st hst => .inl ?_)
      · rcases mem_of_mem_enqueue ht with ht | rfl
        · rw [setStages_stages_of_ne _ _ hij] at ht
          exact .inl ht
        · exact .inr rfl
      · rw [WorkflowView.jobStatus, enqueue_space] at hst
        exact (h.success hstrong hij hs hcounted).symm.trans hst
  | @fail j s rest n jobIds hx hs hstage =>
      have hij : i ≠ j := h.ne_of_mem hs (by rcases hstage with ⟨st, rfl⟩ | ⟨c, rfl⟩ <;> rfl)
      refine h.change (fun t ht => .inl ?_) (fun st hst => .inl ?_)
      · have ht' := mem_of_mem_dropCanceled ht
        rwa [setStages_stages_of_ne _ _ hij] at ht'
      · rw [WorkflowView.jobStatus, dropCanceled_space] at hst
        exact (h.fail hij jobIds).symm.trans hst
  | mark => exact h.mark _
  | @retry j st rest n hx hst hs =>
      have hij := h.ne_of_mem hs rfl
      refine h.change (fun t ht => ?_) (fun st hst => .inl ?_)
      · rcases mem_of_mem_enqueue ht with ht | rfl
        · rcases mem_of_mem_delay ht with ht | rfl
          · rw [setStages_stages_of_ne _ _ hij] at ht
            exact .inl ht
          · exact .inr rfl
        · exact .inr rfl
      · rw [WorkflowView.jobStatus, enqueue_space, delay_space] at hst
        exact (h.retry hinv hij hs).symm.trans hst
  | @promote j rest hx hs =>
      refine h.change (fun t ht => ?_) (fun st hst => ?_)
      · rcases mem_of_mem_enqueue ht with ht | rfl
        · rcases mem_setStages.mp ht with ⟨rfl, hmem⟩ | ⟨-, hmem⟩
          · exact .inl (hs ▸ Multiset.mem_cons_of_mem hmem)
          · exact .inl hmem
        · exact .inr rfl
      · rw [WorkflowView.jobStatus, enqueue_space] at hst
        exact h.promote hinv st hst
  | releaseCounted hs | releaseFailed hs | deleteCounted hs =>
      exact h.of_setStages hs (hinert _ rfl) rfl rfl
  | erase _ _ herased => exact h.erase herased
  | deleteFailed => exact h.of_eq rfl rfl

end Spent

section Credits

variable {p : Plan} {x : Served} {v v' : WorkflowView} {l : List String} {i j : String} {s : Stage}
  {rest : Multiset Stage} {now n : Int}

theorem WorkflowView.not_spent_of_mem (hs : v.stages j = s ::ₘ rest) (hinert : s.inert = false) :
    ¬ v.Spent j := fun h => h.ne_of_mem hs hinert rfl

theorem Inv.rest_eq_zero (h : Inv p v) (hs : v.stages j = s ::ₘ rest) : rest = 0 := by
  rcases h with h | h
  · exact (h.tokens.head hs).1
  · exact h.rest_eq_zero hs

theorem Inv.mem_ids (h : Inv p v) (hs : v.stages j = s ::ₘ rest) : j ∈ p.ids := by
  rcases h with h | h
  · obtain ⟨-, st, hst, -⟩ := h.tokens.head hs
    exact h.mem_ids hst
  · exact h.known j (hs ▸ Multiset.cons_ne_zero)

theorem Strong.success_spent (h : Strong p v) {done : Bool} {promoted : Option (String × Int)}
    {ready : List String} (hs : v.stages j = .reported .completed ::ₘ rest)
    (hcounted : (v.space.completeSuccessfulJob now j).1 = .counted done promoted ready)
    (c : Closing) (advanced : List String) :
    (({ v with space := (v.space.completeSuccessfulJob now j).2 }.setStages j
      (.counted c advanced ::ₘ rest)).enqueue promoted).Spent j := by
  obtain ⟨rfl, -⟩ := h.tokens.head hs
  obtain ⟨hst, hfinished⟩ := h.finished hs
  have hcoherent := h.coherent.finishJob (h.mem_ids hst) (fun hc => by cases hst.symm.trans hc)
    (fun hc => by cases hst.symm.trans hc) hfinished
  have hself : (v.space.completeSuccessfulJob now j).2.jobStatus j = some .completed := by
    refine completeSuccessfulJob_rule (P := fun ks => ks.jobStatus j = some .completed) hcounted
      hfinished.self hfinished.self ?_
    rw [jobStatus_promoteWaiting_of_not_mem]
    · exact hfinished.self
    · exact fun hmem => by cases hfinished.self.symm.trans ((hcoherent.waiting j).mp hmem)
  refine ⟨fun t ht => ?_, fun st hst => ?_⟩
  · rcases mem_of_mem_enqueue ht with ht | rfl
    · rw [setStages_stages_self, Multiset.mem_cons] at ht
      rcases ht with rfl | ht
      · rfl
      · exact absurd ht (Multiset.notMem_zero _)
    · rfl
  · rw [WorkflowView.jobStatus, enqueue_space] at hst
    cases hself.symm.trans hst
    rfl

theorem Inv.fail_spent (h : Inv p v) {jobIds : List String} (hs : v.stages j = s ::ₘ rest)
    (hi : i ∈ j :: (v.space.completeFailedJob j n jobIds).1.canceled.map Prod.fst) (c : Closing) :
    (({ v with space := (v.space.completeFailedJob j n jobIds).2 }.setStages j
      (.failed c ::ₘ rest)).dropCanceled (v.space.completeFailedJob j n jobIds).1.canceled).Spent
        i := by
  obtain rfl := h.rest_eq_zero hs
  refine ⟨fun t ht => ?_, fun st hst => ?_⟩
  · have ht' := mem_of_mem_dropCanceled ht
    rcases List.mem_cons.mp hi with rfl | hi
    · rw [setStages_stages_self, Multiset.mem_cons] at ht'
      rcases ht' with rfl | ht'
      · rfl
      · exact absurd ht' (Multiset.notMem_zero _)
    · obtain ⟨hrun, -, hij, st, hst, hwait⟩ := completeFailedJob_canceled hi
      rw [setStages_stages_of_ne _ _ hij] at ht'
      obtain ⟨st', -, hst', hfits⟩ := (h.strong_of_running hrun).tokens.of_mem ht'
      cases hst.symm.trans hst'
      exact Stage.inert_of_fits hfits hwait
  · rw [WorkflowView.jobStatus, dropCanceled_space] at hst
    rcases jobStatus_completeFailedJob hi with hdone | hdone <;>
      cases hdone.symm.trans hst <;> rfl

/-- The jobs that a step is credited with were not spent before it, and are afterwards. -/
theorem WStep.credits (hstep : WStep x v l v') (hinv : Inv p v) :
    l.Nodup ∧ ∀ i ∈ l, i ∈ p.ids ∧ ¬ v.Spent i ∧ v'.Spent i := by
  cases hstep with
  | success _ hs hcounted =>
      have hstrong := hinv.strong_of_running
        (completeSuccessfulJob_counted hcounted).1
      refine ⟨List.nodup_singleton _, fun i hi => ?_⟩
      cases List.mem_singleton.mp hi
      exact ⟨hinv.mem_ids hs, not_spent_of_mem hs rfl,
        hstrong.success_spent hs hcounted _ _⟩
  | @fail j s rest n jobIds hx hs hstage =>
      refine ⟨completeFailedJob_nodup .., fun i hi => ?_⟩
      have hspent := hinv.fail_spent hs hi
        (.ofCompleted (v.space.completeFailedJob j n jobIds).1.workflowCompleted)
      rcases List.mem_cons.mp hi with rfl | hi
      · refine ⟨hinv.mem_ids hs, not_spent_of_mem hs ?_, hspent⟩
        rcases hstage with ⟨st, rfl⟩ | ⟨c, rfl⟩ <;> rfl
      · obtain ⟨hrun, -, -, st, hst, hwait⟩ := completeFailedJob_canceled hi
        refine ⟨(hinv.strong_of_running hrun).mem_ids hst, fun h => ?_, hspent⟩
        have hdone := h.done st hst
        rw [JobStatus.not_isTerminal_of_isWaitingToRun hwait] at hdone
        cases hdone
  | _ => exact ⟨List.nodup_nil, fun i hi => by cases hi⟩

/-- The counters after a step: the credited jobs are added, unless the hash is deleted. -/
theorem WStep.totals (h : WStep x v l v') :
    (v'.space.counters.total = v.space.counters.total ∧
      v'.space.counters.completed = v.space.counters.completed + l.length) ∨
    (l = [] ∧ v'.space.hash = none ∧ ∃ j s, s ∈ v.stages j ∧ Deletes s) := by
  have hsame : ∀ {ks : WorkflowKeyspace}, SameCounts v.space ks →
      (ks.counters.total = v.space.counters.total ∧
        ks.counters.completed = v.space.counters.completed + ([] : List String).length) :=
    fun hcounts => ⟨hcounts.total, hcounts.completed.trans (Int.add_zero _).symm⟩
  cases h with
  | start => exact .inl (hsame (trySetJobToRunning_sameCounts ..))
  | expire _ _ hexpired =>
      have hks := (completeSuccessfulJob_expired hexpired).2.2
      refine .inl (hsame ?_)
      rw [WorkflowView.setStages, hks]
      exact sameCounts_of_counters (counters_setStatus ..)
  | success _ _ hcounted =>
      obtain ⟨htotal, hcompleted, -⟩ := completeSuccessfulJob_counts hcounted
      refine .inl ?_
      rw [enqueue_space]
      exact ⟨htotal, hcompleted⟩
  | @fail j s rest n jobIds hx hs hstage =>
      obtain ⟨htotal, hcompleted, -⟩ :=
        completeFailedJob_counts j n jobIds v.space
      refine .inl ?_
      rw [dropCanceled_space, List.length_cons, List.length_map]
      exact ⟨htotal, hcompleted.trans (by push_cast; omega)⟩
  | retry =>
      refine .inl ?_
      rw [enqueue_space, delay_space]
      exact hsame (scheduleJobRetry_sameCounts ..)
  | promote =>
      refine .inl ?_
      rw [enqueue_space]
      exact hsame (promoteRetryJob_sameCounts ..)
  | erase _ _ herased => cases herased <;> exact .inl (hsame ⟨rfl, rfl⟩)
  | deleteCounted hs =>
      exact .inr ⟨rfl, rfl, _, _, hs ▸ Multiset.mem_cons_self .., .counted _⟩
  | deleteFailed hs => exact .inr ⟨rfl, rfl, _, _, hs, .failed⟩
  | _ => exact .inl (hsame ⟨rfl, rfl⟩)

theorem Closing.ofCompleted_eq_no {b : Bool} : Closing.ofCompleted b = .no ↔ b = false := by
  cases b <;> simp [ofCompleted]

/-- The stages that the holder of a job passes to in a step. -/
inductive Passes (v : WorkflowView) (x : Served) (v' : WorkflowView) (j : String) :
    Stage → Stage → Prop where
  | shift {s s' : Stage} (h : Shift v x j s s') : Passes v x v' j s s'
  | claim : Passes v x v' j .popped .claimed
  | start (r : StartJobResult) : Passes v x v' j .dispatched (.ofStart r)
  | expire : Passes v x v' j (.reported .completed) (.reported .failed)
  | success {done : Bool} (l : List String) (h : done = true →
      v'.space.counters.total > 0 ∧ v'.space.counters.completed = v'.space.counters.total) :
      Passes v x v' j (.reported .completed) (.counted (.ofCompleted done) l)
  | fail {s : Stage} {done : Bool} (h : done = true →
      v'.space.counters.total > 0 ∧ v'.space.counters.completed = v'.space.counters.total) :
      Passes v x v' j s (.failed (.ofCompleted done))
  | releaseCounted (l : List String) : Passes v x v' j (.counted .due l) (.counted .released l)
  | releaseFailed : Passes v x v' j (.failed .due) (.failed .released)
  | deleteCounted (l : List String) :
      Passes v x v' j (.counted .released l) (.counted .deleted l)

theorem mem_of_mem_replace {t s' : Stage} {w : WorkflowView} (hs : v.stages j = s ::ₘ rest)
    (hw : w.stages = v.stages) (ht : t ∈ (w.setStages j (s' ::ₘ rest)).stages i) :
    t ∈ v.stages i ∨ (t = s' ∧ s ∈ v.stages i ∧ i = j) := by
  rcases mem_setStages.mp ht with ⟨rfl, hmem⟩ | ⟨-, hmem⟩
  · rcases Multiset.mem_cons.mp hmem with rfl | hmem
    · exact .inr ⟨rfl, hs ▸ Multiset.mem_cons_self .., rfl⟩
    · exact .inl (hs ▸ Multiset.mem_cons_of_mem hmem)
  · exact .inl (hw ▸ hmem)

theorem mem_of_mem_drop {t : Stage} {w : WorkflowView} (hs : v.stages j = s ::ₘ rest)
    (hw : w.stages = v.stages) (ht : t ∈ (w.setStages j rest).stages i) : t ∈ v.stages i := by
  rcases mem_setStages.mp ht with ⟨rfl, hmem⟩ | ⟨-, hmem⟩
  · exact hs ▸ Multiset.mem_cons_of_mem hmem
  · exact hw ▸ hmem

/-- Where a holder comes from: it was there, a script queued the job, or it passed on. -/
theorem WStep.mem_stages {t : Stage} (h : WStep x v l v') (ht : t ∈ v'.stages i) :
    t ∈ v.stages i ∨ t = .queued ∨ t = .retryWait ∨
      ∃ s₀ ∈ v.stages i, Passes v x v' i s₀ t := by
  have hactor : ∀ {j : String} {s₀ s' : Stage} {rest : Multiset Stage} {w : WorkflowView},
      v.stages j = s₀ ::ₘ rest → w.stages = v.stages →
      t ∈ (w.setStages j (s' ::ₘ rest)).stages i → Passes v x v' j s₀ s' →
      t ∈ v.stages i ∨ t = .queued ∨ t = .retryWait ∨
        ∃ s₀ ∈ v.stages i, Passes v x v' i s₀ t := by
    intro j s₀ s' rest w hs₀ hw hmem hpass
    rcases mem_of_mem_replace hs₀ hw hmem with hold | ⟨rfl, hold, rfl⟩
    · exact .inl hold
    · exact .inr (.inr (.inr ⟨s₀, hold, hpass⟩))
  cases h with
  | shift hs hshift => exact hactor hs rfl ht (.shift hshift)
  | lose hs => exact .inl (mem_of_mem_drop hs rfl ht)
  | claim _ hs => exact hactor hs rfl ht .claim
  | start _ hs => exact hactor hs rfl ht (.start _)
  | expire _ hs => exact hactor hs rfl ht .expire
  | success _ hs hcounted =>
      rcases mem_of_mem_enqueue ht with ht | rfl
      · obtain ⟨htotal, hcompleted, hdone⟩ := completeSuccessfulJob_counts hcounted
        refine hactor hs rfl ht (.success _ (fun hd => ?_))
        rw [enqueue_space]
        exact ⟨htotal ▸ (hdone.mp hd).1, (hcompleted.trans (hdone.mp hd).2).trans htotal.symm⟩
      · exact .inr (.inl rfl)
  | @fail j s₀ rest n jobIds hx hs hstage =>
      have ht' := mem_of_mem_dropCanceled ht
      refine hactor hs rfl ht' (.fail (fun hd => ?_))
      rw [dropCanceled_space]
      exact (completeFailedJob_counts j n jobIds v.space).2.2.mp hd
  | mark => exact .inl ht
  | retry _ _ hs =>
      rcases mem_of_mem_enqueue ht with ht | rfl
      · rcases mem_of_mem_delay ht with ht | rfl
        · exact .inl (mem_of_mem_drop hs rfl ht)
        · exact .inr (.inr (.inl rfl))
      · exact .inr (.inl rfl)
  | promote _ hs =>
      rcases mem_of_mem_enqueue ht with ht | rfl
      · exact .inl (mem_of_mem_drop hs rfl ht)
      · exact .inr (.inl rfl)
  | releaseCounted hs => exact hactor hs rfl ht (.releaseCounted _)
  | releaseFailed hs => exact hactor hs rfl ht .releaseFailed
  | erase _ _ herased => exact .inl (herased.mem_of_mem ht)
  | deleteCounted hs => exact hactor hs rfl ht (.deleteCounted _)
  | deleteFailed => exact .inl ht

theorem Stage.ofStart_closing (r : StartJobResult) : (Stage.ofStart r).closing = .no := by
  cases r <;> rfl

theorem WStep.closing (h : WStep x v l v') (hs : s ∈ v'.stages i) (hc : s.closing ≠ .no) :
    (∃ t ∈ v.stages i, t.closing ≠ .no) ∨
      (v'.space.counters.total > 0 ∧
        v'.space.counters.completed = v'.space.counters.total) := by
  rcases h.mem_stages hs with hold | rfl | rfl | ⟨t, ht, hpass⟩
  · exact .inl ⟨s, hold, hc⟩
  · exact absurd rfl hc
  · exact absurd rfl hc
  · cases hpass with
    | success l hdone =>
        exact .inr (hdone (by rwa [← Bool.not_eq_false, ← Closing.ofCompleted_eq_no]))
    | fail hdone =>
        exact .inr (hdone (by rwa [← Bool.not_eq_false, ← Closing.ofCompleted_eq_no]))
    | start r => exact absurd (Stage.ofStart_closing r) hc
    | shift hshift =>
        refine .inl ⟨t, ht, ?_⟩
        cases hshift with
        | broken => exact hc
        | dispatch hd => cases hd <;> exact absurd rfl hc
        | report hr => cases hr <;> exact absurd rfl hc
        | _ => exact absurd rfl hc
    | claim | expire => exact absurd rfl hc
    | releaseCounted | releaseFailed | deleteCounted => exact .inl ⟨_, ht, nofun⟩

end Credits

section Counted

variable {p : Plan} {x : Served} {v v' : WorkflowView} {l L : List String} {i j : String} {s : Stage}

/-- The jobs that were counted so far, each of them once, and what the counters say of them. -/
structure Counted (p : Plan) (L : List String) (v : WorkflowView) : Prop where
  nodup : L.Nodup
  spent : ∀ i ∈ L, i ∈ p.ids ∧ v.Spent i
  totals : (v.space.counters.total = p.ids.length ∧ v.space.counters.completed = L.length) ∨
    (L.length = p.ids.length ∧ v.space.counters.total = 0 ∧ v.space.counters.completed = 0)
  closing : ∀ i s, s ∈ v.stages i → s.closing ≠ .no → L.length = p.ids.length
  unbroken : v.Unbroken

theorem Counted.length_le (h : Counted p L v) : L.length ≤ p.ids.length :=
  (h.nodup.subperm (fun i hi => (h.spent i hi).1)).length_le

theorem Counted.spent_of_full (h : Counted p L v) (hfull : L.length = p.ids.length)
    (hi : i ∈ p.ids) : v.Spent i := by
  have hperm : L.Perm p.ids := (h.nodup.subperm (fun i hi => (h.spent i hi).1)).perm_of_length_le
    hfull.ge
  exact (h.spent i (hperm.mem_iff.mpr hi)).2

theorem Counted.eq_nil_of_full (h : Counted p L v) (hinv : Inv p v) (hstep : WStep x v l v')
    (hfull : L.length = p.ids.length) : l = [] := by
  refine List.eq_nil_iff_forall_not_mem.mpr (fun i hi => ?_)
  obtain ⟨hmem, hnot, -⟩ := (hstep.credits hinv).2 i hi
  exact hnot (h.spent_of_full hfull hmem)

/-- `completed_jobs` stays the number of jobs counted so far, each of them once. -/
theorem Counted.step (h : Counted p L v) (hinv : Inv p v) (hstep : WStep x v l v')
    (hunbroken : v'.Unbroken) : Counted p (L ++ l) v' := by
  obtain ⟨hnodup, hcredits⟩ := hstep.credits hinv
  have htotals : (v'.space.counters.total = p.ids.length ∧
        v'.space.counters.completed = (L ++ l).length) ∨
      ((L ++ l).length = p.ids.length ∧ v'.space.counters.total = 0 ∧
        v'.space.counters.completed = 0) := by
    rcases hstep.totals with ⟨htotal, hcompleted⟩ | ⟨rfl, hnone, j, s, hs, hdel⟩
    · rcases h.totals with ⟨hn, hL⟩ | ⟨hfull, hzero, hzero'⟩
      · refine .inl ⟨htotal.trans hn, ?_⟩
        rw [hcompleted, hL, List.length_append]
        push_cast
        rfl
      · cases h.eq_nil_of_full hinv hstep hfull
        rw [List.append_nil]
        exact .inr ⟨hfull, htotal.trans hzero, hcompleted.trans (by rw [hzero']; rfl)⟩
    · have hfull := h.closing j s hs (by cases hdel <;> exact nofun)
      rw [List.append_nil]
      exact .inr ⟨hfull, counts_of_hash_none hnone⟩
  refine ⟨?_, fun i hi => ?_, htotals, fun i s hs hc => ?_, hunbroken⟩
  · refine h.nodup.append hnodup (fun i hi hl => ?_)
    exact (hcredits i hl).2.1 (h.spent i hi).2
  · rcases List.mem_append.mp hi with hi | hi
    · exact ⟨(h.spent i hi).1, hstep.spent hinv hunbroken (h.spent i hi).2⟩
    · exact ⟨(hcredits i hi).1, (hcredits i hi).2.2⟩
  · rcases hstep.closing hs hc with ⟨t, ht, hct⟩ | ⟨hpos, heq⟩
    · have hfull := h.closing i t ht hct
      rw [h.eq_nil_of_full hinv hstep hfull, List.append_nil]
      exact hfull
    · rcases htotals with ⟨htotal, hcompleted⟩ | ⟨-, htotal, -⟩
      · omega
      · omega

theorem WStep.unbroken (h : WStep x v l v') (hv : v.Unbroken) (htail : x.tailFailed = false) :
    v'.Unbroken := by
  intro i c hs
  rcases h.mem_stages hs with hold | hq | hq | ⟨t, ht, hpass⟩
  · exact hv i c hold
  · cases hq
  · cases hq
  · generalize hb : Stage.broken c = s at hpass
    cases hpass with
    | start r => cases r <;> cases hb
    | shift hshift =>
        cases hshift with
        | broken _ _ hfailed => cases htail.symm.trans hfailed
        | _ => cases hb
    | _ => cases hb

end Counted

end FlowPilot
