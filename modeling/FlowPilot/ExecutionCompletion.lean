import FlowPilot.ExecutionSafety
import FlowPilot.WorkflowClean

/-! When a workflow is COMPLETED. The success script counts the jobs that are done and does not look
at how they ended. In a run in which no job fails while the workflow is still READY, a failed job
closes the workflow at once, so that a COMPLETED workflow has COMPLETED jobs only. A job that is
aborted earlier is counted and does not close it, and the workflow can complete without it. -/

namespace FlowPilot

open WorkflowKeyspace WorkflowView

/-- The step runs the failure script on the workflow while it is READY. -/
def FailsWhileReady (id : WorkflowIdentity) (ev : Event Call World Env) : Prop :=
  match ev.call with
  | .completeFailedJob k _ _ => k.identity = id ∧ ev.env.ok = true ∧
      (ev.world.redis.workflows id).status = some .ready
  | _ => False

instance (id : WorkflowIdentity) (ev : Event Call World Env) : Decidable (FailsWhileReady id ev) := by
  unfold FailsWhileReady
  cases ev.call <;> infer_instance

/-- The step is one in which the success script sets the status of the workflow to COMPLETED. -/
def SetsCompleted (id : WorkflowIdentity) (ev : Event Call World Env) : Prop :=
  match ev.call with
  | .completeSuccessfulJob _ => (ev.world.redis.workflows id).status ≠ some .completed ∧
      (after ev id).status = some .completed
  | _ => False

instance (id : WorkflowIdentity) (ev : Event Call World Env) : Decidable (SetsCompleted id ev) := by
  unfold SetsCompleted
  cases ev.call <;> infer_instance

theorem SetsCompleted.status {id : WorkflowIdentity} {ev : Event Call World Env}
    (h : SetsCompleted id ev) : (ev.world.redis.workflows id).status ≠ some .completed ∧
      (after ev id).status = some .completed := by
  unfold SetsCompleted at h
  split at h
  · exact h
  · exact h.elim

/-- A step of the machine that the failure script makes is a run of the failure script. -/
theorem failsWhileReady_of_label {ev : Event Call World Env} {id : WorkflowIdentity} {j : String}
    {n : Int} {jobIds : List String} (hlabel : labelOf ev.call ev.env = .fail j n jobIds)
    (hcredited : ev.call.credited ev.env ev.world id ≠ [])
    (hready : (ev.world.redis.workflows id).status = some .ready) : FailsWhileReady id ev := by
  obtain ⟨w, c, e⟩ := ev
  cases c with
  | completeFailedJob k n' jobIds' =>
      by_cases hown : e.ok = true ∧ k.identity = id
      · exact ⟨hown.2, hown.1, hready⟩
      · exact absurd (if_neg hown) hcredited
  | _ => cases hlabel

section Completion

variable {p : Plan} {x : Served} {v v' : WorkflowView} {l : List String}

theorem WStep.exists_last (h : WStep x v l v') (hbefore : v.status ≠ some .completed)
    (hafter : v'.status = some .completed) :
    ∃ j now rest promoted ready, v.stages j = .reported .completed ::ₘ rest ∧
      (v.space.completeSuccessfulJob now j).1 = .counted true promoted ready ∧
      v'.space = (v.space.completeSuccessfulJob now j).2 := by
  cases h with
  | @start j now rest hx hs =>
      rcases status_trySetJobToRunning now j v.space with heq | heq | heq
      · exact absurd (heq.symm.trans hafter) hbefore
      · cases heq.symm.trans hafter
      · cases heq.symm.trans hafter
  | @expire j now rest hx hs hexpired =>
      have hks := (completeSuccessfulJob_expired hexpired).2.2
      have hstatus : (v.space.setStatus .failed).status = some .completed := hks ▸ hafter
      cases hstatus
  | @success j now rest done promoted ready hx hs hcounted =>
      cases done with
      | true => exact ⟨j, now, rest, promoted, ready, hs, hcounted, enqueue_space ..⟩
      | false =>
          rw [WorkflowView.status, enqueue_space] at hafter
          have hstatus := status_completeSuccessfulJob_of_open hcounted
          exact absurd (hstatus.symm.trans hafter) (by simp)
  | @fail j s rest n jobIds hx hs hstage =>
      rw [WorkflowView.status, dropCanceled_space] at hafter
      rcases status_completeFailedJob j n jobIds v.space with heq | heq
      · exact absurd (heq.symm.trans hafter) hbefore
      · cases heq.symm.trans hafter
  | retry =>
      rw [WorkflowView.status, enqueue_space, delay_space] at hafter
      exact absurd ((status_scheduleJobRetry ..).symm.trans hafter) hbefore
  | promote =>
      rw [WorkflowView.status, enqueue_space] at hafter
      exact absurd ((status_promoteRetryJob ..).symm.trans hafter) hbefore
  | erase _ _ herased => cases herased <;> exact absurd hafter hbefore
  | deleteCounted | deleteFailed => cases hafter
  | _ => exact absurd hafter hbefore

/-- The counted jobs of a workflow that the success script completes are all its jobs. -/
theorem Strong.completed_of_last (h : Strong p v) (hclean : v.space.Clean) {j : String} {now : Int}
    {rest : Multiset Stage} {promoted : Option (String × Int)} {ready : List String}
    (hs : v.stages j = .reported .completed ::ₘ rest)
    (hlast : (v.space.completeSuccessfulJob now j).1 = .counted true promoted ready) :
    ∀ i ∈ p.ids, (v.space.completeSuccessfulJob now j).2.jobStatus i = some .completed := by
  intro i hi
  obtain ⟨-, -, -, -, hcases⟩ := completeSuccessfulJob_counted hlast
  rcases hcases with ⟨hall, -, -, hks⟩ | ⟨-, hdone, -⟩
  · rw [hks]
    have hfull := (h.allCompleted_iff hs).mp hall
    exact (hclean.finishJob (h.finished hs).2).completed (p.tally_eq_length_iff.mp hfull i hi)
  · cases hdone

variable {svc : Service} {req : WorkflowRequest} {log : Log} {σ : Pool Call Call.Reply World}

theorem Fresh.clean (h : Fresh p v) : v.space.Clean := by
  intro j
  cases hst : v.space.jobStatus j with
  | none => exact ⟨nofun, nofun⟩
  | some st =>
      have hj : j ∈ p.ids := (h.coherent.known j).mp (fun hnone => by cases hst.symm.trans hnone)
      rcases h.untouched j hj with huntouched | huntouched | huntouched <;>
        cases hst.symm.trans huntouched <;> exact ⟨nofun, nofun⟩

/-- One step: the workflow stays clean until it is closed, and is clean when it is completed. -/
theorem step_setsCompleted (hstep : WStep x v l v') (hinv : Strong p v ∧ v.space.Clean ∨ Weak p v)
    (hready : ∀ j n js, x.label = .fail j n js → l ≠ [] → v.status ≠ some .ready) :
    (Strong p v' ∧ v'.space.Clean ∨ Weak p v') ∧
      (v.status ≠ some .completed → v'.status = some .completed →
        ∀ i ∈ p.ids, v'.jobStatus i = some .completed) := by
  constructor
  · rcases hinv with ⟨hstrong, hclean⟩ | hweak
    · rcases hstrong.step hstep with hstrong' | hweak'
      · exact .inl ⟨hstrong', hstrong.step_clean hclean hstep hready hstrong'.unclosed⟩
      · exact .inr hweak'
    · exact .inr (hweak.step hstep)
  · intro hbefore hafter i hi
    obtain ⟨j, now, rest, promoted, ready, hs, hlast, hspace⟩ := hstep.exists_last hbefore hafter
    have hrun := (completeSuccessfulJob_counted hlast).1
    rcases hinv with ⟨hstrong, hclean⟩ | hweak
    · rw [WorkflowView.jobStatus, hspace]
      exact hstrong.completed_of_last hclean hs hlast i hi
    · exact absurd hrun hweak.closed

/-- In a run in which no job fails while the workflow is READY, all jobs of the workflow are COMPLETED
when the success script sets its status to COMPLETED. -/
theorem jobs_completed_of_setsCompleted (h : Executes Plain svc req log σ)
    (hready : ∀ ev ∈ log, ¬ FailsWhileReady req.identity ev) :
    ∀ ev ∈ log, SetsCompleted req.identity ev →
      ∀ job ∈ req.jobs, (after ev req.identity).jobStatus job.jobId = some .completed := by
  obtain ⟨p, hp, hrule⟩ := h.invariant_steps
  refine (hrule (fun v => Strong p v ∧ v.space.Clean ∨ Weak p v)
    (fun ev => SetsCompleted req.identity ev → ∀ job ∈ req.jobs,
      (after ev req.identity).jobStatus job.jobId = some .completed)
    (fun ev => ¬ FailsWhileReady req.identity ev)
    (fun v hfresh => .inl ⟨hfresh.strong, hfresh.clean⟩) ?_ hready).2
  rintro ev v v' hgood hinv hbefore hafter hsim
  rcases hsim with ⟨rfl, -⟩ | ⟨-, hstep⟩
  · refine ⟨hinv, fun hsets => absurd ?_ hsets.status.1⟩
    rw [← hbefore, hafter]
    exact hsets.status.2
  · obtain ⟨hinv', hcompleted⟩ := step_setsCompleted hstep hinv (fun j n js hlabel hl hr =>
      hgood (failsWhileReady_of_label hlabel hl (hbefore ▸ hr)))
    refine ⟨hinv', fun hsets job hjob => ?_⟩
    rw [← hafter]
    refine hcompleted ?_ ?_ job.jobId (hp.mem_ids hjob)
    · rw [WorkflowView.status, hbefore]
      exact hsets.status.1
    · rw [WorkflowView.status, hafter]
      exact hsets.status.2

/-- Two jobs, the first with a payload, that do not depend on each other. -/
def twoJobs : WorkflowRequest :=
  requestOf [{ jobId := "a", payload := some [1] }, { jobId := "b" }]

/-- Both jobs are scheduled, executed and completed one after the other. -/
def twoJobsCompleted : List Act :=
  pass .scheduler 5 ++ pass .worker 6 ++ pass .completionHandler 4 ++
    pass .scheduler 6 ++ pass .worker 6 ++ pass .completionHandler 3

theorem jobs_completed_twoJobs :
    (∃ ev ∈ (played (serviceOf 2) twoJobs twoJobsCompleted).1,
      SetsCompleted twoJobs.identity ev) ∧
    ∀ ev ∈ (played (serviceOf 2) twoJobs twoJobsCompleted).1, SetsCompleted twoJobs.identity ev →
      ∀ job ∈ twoJobs.jobs, (after ev twoJobs.identity).jobStatus job.jobId = some .completed := by
  have hrun : Executes Plain (serviceOf 2) twoJobs _ _ :=
    executes_played twoJobsCompleted (requestOf_plain _) (by decide +kernel)
  exact ⟨by decide +kernel, jobs_completed_of_setsCompleted hrun (by decide +kernel)⟩

/-- The payload of the first job cannot be fetched while the second one waits for a worker: the
scheduler reports the first job ABORTED, the handler counts it while the workflow is still READY, and
then the second job runs and completes. -/
def abortedWhileReady : List Act :=
  pass .scheduler 5 ++ pass .scheduler 4 ++ [.serve 0 { ok := false }, .serve 0 {}] ++
    pass .completionHandler 7 ++ pass .worker 6 ++ pass .completionHandler 3

/-- The success script completes a workflow with an ABORTED job. -/
theorem setsCompleted_with_aborted_job :
    Executes Plain (serviceOf 2) twoJobs (played (serviceOf 2) twoJobs abortedWhileReady).1
      (played (serviceOf 2) twoJobs abortedWhileReady).2 ∧
    ∃ ev ∈ (played (serviceOf 2) twoJobs abortedWhileReady).1,
      SetsCompleted twoJobs.identity ev ∧ ∃ job ∈ twoJobs.jobs,
        (after ev twoJobs.identity).jobStatus job.jobId = some .aborted :=
  ⟨executes_played abortedWhileReady (requestOf_plain _) (by decide +kernel), by decide +kernel⟩

end Completion

end FlowPilot
