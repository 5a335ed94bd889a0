import FlowPilot.WorkflowInvariant

/-! A workflow that is CLEAN has no job that ended other than COMPLETED. As long as it is READY or
RUNNING it stays so, unless the failure script runs while it is READY. -/

namespace FlowPilot

open WorkflowKeyspace WorkflowView

namespace WorkflowKeyspace

variable {ks ks' : WorkflowKeyspace} {j : String}

/-- No job has ended other than COMPLETED. -/
def Clean (ks : WorkflowKeyspace) : Prop :=
  ∀ j, ks.jobStatus j ≠ some .failed ∧ ks.jobStatus j ≠ some .aborted

theorem Clean.of_cases (h : ks.Clean) (hcases : ∀ i, ks'.jobStatus i = ks.jobStatus i ∨
    ∃ st, ks'.jobStatus i = some st ∧ st ≠ .failed ∧ st ≠ .aborted) : ks'.Clean := by
  intro i
  rcases hcases i with heq | ⟨st, heq, hfailed, haborted⟩
  · rw [heq]
    exact h i
  · rw [heq]
    exact ⟨fun h => hfailed (Option.some.inj h), fun h => haborted (Option.some.inj h)⟩

theorem Clean.of_jobStatus (h : ks.Clean) {st : JobStatus}
    (hstatus : ∀ i, ks'.jobStatus i = if i = j then some st else ks.jobStatus i)
    (hst : st ≠ .failed ∧ st ≠ .aborted) : ks'.Clean := by
  refine h.of_cases (fun i => ?_)
  rw [hstatus i]
  split
  · exact .inr ⟨st, rfl, hst⟩
  · exact .inl rfl

theorem Clean.promoteWaiting (h : ks.Clean) : ks.promoteWaiting.2.Clean := by
  exact promoteWaiting_rule h
    (fun i _ => h.of_jobStatus (jobStatus_queueWaiting ks i) ⟨nofun, nofun⟩)

theorem Clean.finishJob (h : ks.Clean) {ready : List String} (hfinished : Finished j ks ready ks') :
    ks'.Clean := by
  refine h.of_cases (fun i => ?_)
  by_cases hij : i = j
  · subst hij
    exact .inr ⟨.completed, hfinished.self, nofun, nofun⟩
  · rw [hfinished.jobStatus i hij]
    split
    · exact .inr ⟨.ready, rfl, nofun, nofun⟩
    · exact .inl rfl

theorem Clean.completed (h : ks.Clean) {i : String}
    (hdone : (ks.jobStatus i).any JobStatus.isTerminal = true) : ks.jobStatus i = some .completed := by
  obtain ⟨hfailed, haborted⟩ := h i
  cases hst : ks.jobStatus i with
  | none =>
      rw [hst] at hdone
      cases hdone
  | some st =>
      rw [hst] at hdone hfailed haborted
      cases st <;> simp_all [JobStatus.isTerminal]

end WorkflowKeyspace

variable {p : Plan} {x : Served} {v v' : WorkflowView} {l : List String} {j : String}
  {rest : Multiset Stage}

theorem Stage.fits_failed {c : Closing} {st : JobStatus} (h : (Stage.failed c).fits st = true) :
    st = .failed ∨ st = .aborted := by
  cases c <;> cases st <;> first | exact .inl rfl | exact .inr rfl | cases h

theorem Strong.start_clean (h : Strong p v) (hclean : v.space.Clean) (now : Int)
    (hopen : (v.space.trySetJobToRunning now j).2.status = some .ready ∨
      (v.space.trySetJobToRunning now j).2.status = some .running) :
    (v.space.trySetJobToRunning now j).2.Clean := by
  have hstarted := trySetJobToRunning_started now j v.space
  generalize v.space.trySetJobToRunning now j = r at hstarted hopen
  obtain ⟨result, ks⟩ := r
  dsimp only at hstarted hopen ⊢
  cases hstarted with
  | canceledBefore => exact hclean
  | first _ _ _ _ hsame =>
      have hstatus : ∀ i, ks.jobStatus i = if i = j then some .running else v.space.jobStatus i :=
        fun i => (hsame.jobStatus i).trans (jobStatus_setJob ..)
      exact hclean.of_jobStatus hstatus ⟨nofun, nofun⟩
  | again =>
      have hstatus : ∀ i, (v.space.setJob j (fun h => { h with
          status := some .running, startRunTime := some now })).jobStatus i =
            if i = j then some .running else v.space.jobStatus i :=
        fun i => jobStatus_setJob ..
      exact hclean.of_jobStatus hstatus ⟨nofun, nofun⟩
  | canceled _ hfailed =>
      rcases h.unclosed with hrun | hrun <;> rcases hfailed with hfailed | hfailed <;>
        cases hrun.symm.trans hfailed
  | _ => rcases hopen with hopen | hopen <;> cases hopen

theorem Strong.success_clean (h : Strong p v) (hclean : v.space.Clean) {now : Int} {done : Bool}
    {promoted : Option (String × Int)} {ready : List String}
    (hs : v.stages j = .reported .completed ::ₘ rest)
    (hcounted : (v.space.completeSuccessfulJob now j).1 = .counted done promoted ready) :
    (v.space.completeSuccessfulJob now j).2.Clean := by
  have hfinished : (v.space.finishJob j).2.Clean := hclean.finishJob (h.finished hs).2
  have hcount : (v.space.finishJob j).2.countCompleted.Clean := hfinished
  exact completeSuccessfulJob_rule hcounted hcount hfinished hcount.promoteWaiting

theorem Strong.promote_clean (h : Strong p v) (hclean : v.space.Clean)
    (hs : v.stages j = .retryHeld ::ₘ rest) : (v.space.promoteRetryJob j).2.Clean := by
  obtain ⟨-, st, hst, hfits⟩ := h.tokens.head hs
  cases st <;> cases hfits
  have hwait : ∀ st : JobStatus, st ≠ .failed ∧ st ≠ .aborted → (v.space.setJobStatus j st).Clean :=
    fun _ hne => hclean.of_jobStatus (fun i => setJobStatus_jobStatus ..) hne
  have hpromoted := promoteRetryJob_promoted j v.space
  generalize v.space.promoteRetryJob j = r at hpromoted
  obtain ⟨promoted, ks⟩ := r
  dsimp only at hpromoted ⊢
  cases hpromoted with
  | missing | refused => exact hclean
  | stopped hstatus =>
      -- no job of a READY workflow waits for a retry
      have hready := h.unclosed.resolve_right hstatus
      exact absurd hst (h.young hready j).2.2
  | queued => exact hwait .queued ⟨nofun, nofun⟩
  | waiting => exact hwait .ready ⟨nofun, nofun⟩
  | swapped =>
      have hagain : (v.space.waitAgain j).Clean := hwait .ready ⟨nofun, nofun⟩
      exact hagain.promoteWaiting

theorem Strong.retry_clean (hclean : v.space.Clean) (j : String) (n : Int) :
    (v.space.scheduleJobRetry j n).2.Clean := by
  have hdelay : (v.space.delayJob j n).Clean :=
    hclean.of_jobStatus (fun i => jobStatus_delayJob j i n v.space) ⟨nofun, nofun⟩
  rcases scheduleJobRetry_cases j n v.space with ⟨heq, -⟩ | ⟨-, -, heq⟩
  · rw [heq]
    exact hdelay
  · rw [heq]
    exact hdelay.promoteWaiting

/-- As long as the workflow is not closed, its jobs only end COMPLETED, unless the failure script runs
while it is READY. -/
theorem Strong.step_clean (h : Strong p v) (hclean : v.space.Clean) (hstep : WStep x v l v')
    (hready : ∀ j n js, x.label = .fail j n js → l ≠ [] → v.status ≠ some .ready)
    (hopen : v'.status = some .ready ∨ v'.status = some .running) : v'.space.Clean := by
  cases hstep with
  | claim => exact hclean.of_jobStatus (fun i =>
      setJobStatus_jobStatus v.space _ i .pendingExecution) ⟨nofun, nofun⟩
  | start => exact h.start_clean hclean _ hopen
  | expire _ _ hexpired =>
      have hks := (completeSuccessfulJob_expired hexpired).2.2
      have hstatus : (v.space.setStatus .failed).status = some .ready ∨
        (v.space.setStatus .failed).status = some .running := hks ▸ hopen
      rcases hstatus with hstatus | hstatus <;> cases hstatus
  | success _ hs hcounted =>
      rw [enqueue_space]
      exact h.success_clean hclean hs hcounted
  | @fail j s rest n jobIds hx hs hstage =>
      have hrun : v.space.status = some .running :=
        h.unclosed.resolve_left (hready _ _ _ hx (List.cons_ne_nil _ _))
      have hfailed : FailedRunning j jobIds v.space _ _ :=
        completeFailedJob_running n hrun
      have hstatus : (v.space.completeFailedJob j n jobIds).2.status = some .failed :=
        hfailed.status
      rw [WorkflowView.status, dropCanceled_space] at hopen
      rcases hopen with hopen | hopen <;> cases hstatus.symm.trans hopen
  | @mark j c _ hs =>
      obtain ⟨st, -, hst, hfits⟩ := h.tokens.of_mem hs
      rcases Stage.fits_failed hfits with rfl | rfl
      · exact absurd hst (hclean j).1
      · exact absurd hst (hclean j).2
  | retry =>
      rw [enqueue_space, delay_space]
      exact Strong.retry_clean hclean _ _
  | promote _ hs =>
      rw [enqueue_space]
      exact h.promote_clean hclean hs
  | erase hs hdel => cases hdel <;> cases h.closing_eq hs
  | _ => exact hclean

end FlowPilot
