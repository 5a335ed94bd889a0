import FlowPilot.ExecutionSafety
import FlowPilot.WorkflowCounting

/-! How often a job is counted. In a run in which no call fails that a handler makes after its
success script, every job adds at most one to `completed_jobs`, and the counter reaches `total_jobs`
when all jobs are done. When such a call fails, the handler turns to the failure script, which counts
the completed job a second time. -/

namespace FlowPilot

/-- The jobs that the served calls added to `completed_jobs` of the workflow. -/
def credits (id : WorkflowIdentity) (log : Log) : List String :=
  log.flatMap (fun ev => ev.call.credited ev.env ev.world id)

theorem credits_append (id : WorkflowIdentity) (log : Log) (ev : Event Call World Env) :
    credits id (log ++ [ev]) = credits id log ++ ev.call.credited ev.env ev.world id := by
  simp [credits]

/-- A call on the workflow, of those that follow a success script, reports failure. -/
def TailFails (id : WorkflowIdentity) (ev : Event Call World Env) : Prop :=
  ev.call.about = some id ∧ tailFailed ev.call (ev.call.exec ev.env ev.world).1 = true

instance (id : WorkflowIdentity) (ev : Event Call World Env) : Decidable (TailFails id ev) :=
  inferInstanceAs (Decidable (_ ∧ _))

theorem tailFailed_of_about_none {c : Call} (h : c.about = none) (r : c.Reply) :
    tailFailed c r = false := by
  cases c <;> first | rfl | cases h

section Counting

variable {svc : Service} {req : WorkflowRequest} {log : Log} {σ : Pool Call Call.Reply World}

variable {v v' : WorkflowView} {id : WorkflowIdentity}

theorem Fresh.counted {p : Plan} (h : Fresh p v) : Counted p [] v where
  nodup := List.nodup_nil
  spent := nofun
  totals := .inl (by rw [h.counters]; exact ⟨rfl, rfl⟩)
  closing := fun i s hs hc => by
    rw [h.stages i] at hs
    split at hs
    · cases Multiset.mem_singleton.mp hs
      exact absurd rfl hc
    · exact absurd hs (Multiset.notMem_zero _)
  unbroken := fun i c hs => by
    rw [h.stages i] at hs
    split at hs
    · cases Multiset.mem_singleton.mp hs
    · exact absurd hs (Multiset.notMem_zero _)

theorem Simulated.unbroken {ev : Event Call World Env}
    (hsim : Simulated ev.call ev.env ev.world (served ev.call ev.env ev.world) id v v')
    (hv : v.Unbroken) (htail : ¬ TailFails id ev) : v'.Unbroken := by
  rcases hsim with ⟨rfl, -⟩ | ⟨hsees, hstep⟩
  · exact hv
  · refine hstep.unbroken hv ?_
    rcases hsees with hnone | habout
    · exact tailFailed_of_about_none hnone _
    · exact Bool.eq_false_iff.mpr (fun hfailed => htail ⟨habout, hfailed⟩)

theorem Simulated.counted {c : Call} {e : Env} {w : World} {x : Served}
    {p : Plan} {L : List String} (hsim : Simulated c e w x id v v')
    (hinv : Inv p v) (h : Counted p L v) (hunbroken : v'.Unbroken) :
    Counted p (L ++ c.credited e w id) v' := by
  rcases hsim with ⟨rfl, hnil⟩ | ⟨-, hstep⟩
  · rw [hnil, List.append_nil]
    exact h
  · exact h.step hinv hstep hunbroken

/-- Every step adds the jobs it is credited with to `completed_jobs`, unless it deletes the hash. -/
theorem Simulated.completed_eq {c : Call} {e : Env} {w : World} {x : Served}
    (hsim : Simulated c e w x id v v') : v'.space.hash = none ∨
      v'.space.counters.completed = v.space.counters.completed + (c.credited e w id).length := by
  rcases hsim with ⟨rfl, hnil⟩ | ⟨-, hstep⟩
  · rw [hnil]
    exact .inr (Int.add_zero _).symm
  · rcases hstep.totals with ⟨-, hcompleted⟩ | ⟨-, hnone, -⟩
    · exact .inr hcompleted
    · exact .inl hnone

theorem Executes.completed_eq (h : Executes Plain svc req log σ) :
    ∀ ev ∈ log, (after ev req.identity).hash = none ∨
      (after ev req.identity).counters.completed =
        (ev.world.redis.workflows req.identity).counters.completed +
          (ev.call.credited ev.env ev.world req.identity).length := by
  obtain ⟨p, -, hrule⟩ := h.invariant_steps
  refine (hrule (fun _ => True) _ (fun _ => True) (fun _ _ => trivial) ?_ (fun _ _ => trivial)).2
  intro ev v v' _ _ hbefore hafter hsim
  rw [← hbefore, ← hafter]
  exact ⟨trivial, hsim.completed_eq⟩

/-- The invariants of the workflow in a run in which no call that follows a success script fails. -/
theorem Executes.counted (h : Executes Plain svc req log σ)
    (htail : ∀ ev ∈ log, ¬ TailFails req.identity ev) :
    ∃ p : Plan, p.ids = req.jobs.map JobRequest.jobId ∧ ∃ T, Sane σ.world T ∧
      Counted p (credits req.identity log) (view req.identity σ.world T) := by
  obtain ⟨p, hp, hrule⟩ := h.invariant
  have hreaches := hrule (fun log v => Inv p v ∧ Counted p (credits req.identity log) v)
    (fun ev => ¬ TailFails req.identity ev)
    (fun v hfresh => ⟨.inl hfresh.strong, hfresh.counted⟩)
    (fun log ev v v' hgood hv _ _ hsim => by
      refine ⟨hsim.inv hv.1, ?_⟩
      rw [credits_append]
      exact hsim.counted hv.1 hv.2 (hsim.unbroken hv.2.unbroken hgood)) htail
  obtain ⟨toks, -, hsane, -, hcounted⟩ := hreaches
  exact ⟨p, hp.ids, _, hsane, hcounted⟩

/-- In a run in which no call that follows a success script fails, every job is counted at most once,
`completed_jobs` does not exceed `total_jobs`, and when it reaches it all jobs are done. -/
theorem job_counted_once (h : Executes Plain svc req log σ)
    (htail : ∀ ev ∈ log, ¬ TailFails req.identity ev) :
    (∀ ev ∈ log, (after ev req.identity).hash = none ∨
      (after ev req.identity).counters.completed =
        (ev.world.redis.workflows req.identity).counters.completed +
          (ev.call.credited ev.env ev.world req.identity).length) ∧
    (∀ j, (credits req.identity log).count j ≤ 1) ∧
    (σ.world.redis.workflows req.identity).counters.completed ≤
      (σ.world.redis.workflows req.identity).counters.total ∧
    ((σ.world.redis.workflows req.identity).counters.completed =
      (σ.world.redis.workflows req.identity).counters.total →
      ∀ job ∈ req.jobs, ∀ st,
        (σ.world.redis.workflows req.identity).jobStatus job.jobId = some st →
          st.isTerminal = true) := by
  obtain ⟨p, hids, T, -, hcounted⟩ := h.counted htail
  have hle := hcounted.length_le
  have htotals : ((σ.world.redis.workflows req.identity).counters.total = p.ids.length ∧
      (σ.world.redis.workflows req.identity).counters.completed =
        (credits req.identity log).length) ∨
      ((credits req.identity log).length = p.ids.length ∧
        (σ.world.redis.workflows req.identity).counters.total = 0 ∧
        (σ.world.redis.workflows req.identity).counters.completed = 0) := hcounted.totals
  refine ⟨h.completed_eq, List.nodup_iff_count_le_one.mp hcounted.nodup, ?_,
    fun hall job hjob st hst => ?_⟩
  · rcases htotals with ⟨htotal, hcompleted⟩ | ⟨-, htotal, hcompleted⟩ <;> omega
  · have hfull : (credits req.identity log).length = p.ids.length := by
      rcases htotals with ⟨htotal, hcompleted⟩ | ⟨hfull, -⟩
      · omega
      · exact hfull
    refine (hcounted.spent_of_full hfull ?_).done st hst
    rw [hids]
    exact List.mem_map_of_mem hjob

def firstCompleted : List Act := pass .scheduler 5 ++ pass .worker 6 ++ pass .completionHandler 5

theorem job_counted_once_threeJobs :
    credits threeJobs.identity (played (serviceOf 2) threeJobs firstCompleted).1 = ["b"] ∧
    ∀ j, (credits threeJobs.identity (played (serviceOf 2) threeJobs firstCompleted).1).count j ≤
      1 := by
  have hrun : Executes Plain (serviceOf 2) threeJobs _ _ :=
    executes_played firstCompleted (requestOf_plain _) (by decide +kernel)
  exact ⟨by decide +kernel, (job_counted_once hrun (by decide +kernel)).2.1⟩

/-- The first of three jobs completes; the SQLite update that follows the success script fails, and
the handler goes on to fail the job. -/
def updateFails : List Act :=
  pass .scheduler 5 ++ pass .worker 6 ++ pass .completionHandler 3 ++
    .serve 0 { ok := false } :: List.replicate 3 (.serve 0 {})

/-- The job is counted by both scripts, and `completed_jobs` exceeds `total_jobs`. -/
theorem job_counted_twice :
    Executes Plain (serviceOf 2) threeJobs (played (serviceOf 2) threeJobs updateFails).1
      (played (serviceOf 2) threeJobs updateFails).2 ∧
    (credits threeJobs.identity (played (serviceOf 2) threeJobs updateFails).1).count "b" = 2 ∧
    ((played (serviceOf 2) threeJobs updateFails).2.world.redis.workflows
      threeJobs.identity).counters.completed = 4 ∧
    ((played (serviceOf 2) threeJobs updateFails).2.world.redis.workflows
      threeJobs.identity).counters.total = 3 :=
  ⟨executes_played updateFails (requestOf_plain _) (by decide +kernel), by decide +kernel,
    by decide +kernel, by decide +kernel⟩

end Counting

end FlowPilot
