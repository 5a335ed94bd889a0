import FlowPilot.ExecutionTidy

/-! The start of jobs by the workers. The start script checks that the job was claimed and that its
workflow has not ended; when every command succeeds these checks never fire, and one job at most finds
that it is the first of its workflow. -/

namespace FlowPilot

section Starts

variable {ev : Event Call World Env} {id : WorkflowIdentity} {v v' : WorkflowView} {p : Plan}
  {L : List String} {x : Served} {l : List String}

/-- What a worker was told when it started a job of the workflow. -/
def startResult (id : WorkflowIdentity) : Event Call World Env → Option StartJobResult
  | ⟨w, .trySetJobToRunning k, e⟩ =>
      if k.identity = id then some ((Call.trySetJobToRunning k).exec e w).1 else none
  | _ => none

theorem Takes.starts (h : Takes ev id v v') (hok : ev.env.ok = true) {r : StartJobResult}
    (hr : startResult id ev = some r) :
    ∃ j rest now, v.stages j = .dispatched ::ₘ rest ∧ (v.space.trySetJobToRunning now j).1 = r ∧
      v'.space = (v.space.trySetJobToRunning now j).2 := by
  obtain ⟨w, c, e⟩ := ev
  cases c with
  | trySetJobToRunning k =>
      by_cases hk : k.identity = id
      · subst hk
        have hexec : (Call.trySetJobToRunning k).exec e w =
            Call.onRedis w (w.redis.trySetJobToRunning e.redisTime k) := by
          rw [Call.exec, show e.ok = true from hok]
          rfl
        rw [startResult, if_pos rfl] at hr
        obtain ⟨t, t', T, hsane, hmove, rfl, rfl⟩ := h
        dsimp only at hmove ⊢
        rw [hexec] at hmove hr ⊢
        refine ⟨k.jobId, (view k.identity w T).stages k.jobId, e.redisTime, ?_, Option.some.inj hr,
          Redis.setWorkflow_workflows_self ..⟩
        generalize (Call.onRedis w (w.redis.trySetJobToRunning e.redisTime k)).1 = r at hmove
        cases hmove with
        | stuck => exact absurd (Multiset.mem_cons_self ..) hsane.unstuck
        | start => exact view_hold_stages ..
        | sqlite _ hc | countedDelete _ _ _ hc | failedSqlite _ _ _ hc | failedDelete _ _ hc =>
            cases hc
      · rw [startResult, if_neg hk] at hr
        cases hr
  | _ => cases hr

/-- The start of a job found nothing that should not be. -/
def StartJobResult.IsRegular (r : StartJobResult) : Prop :=
  r ≠ .invariantViolationJobStatus ∧ r ≠ .invariantViolationWorkflowStatus ∧
    r ≠ .invariantViolationWorkflowTime

/-- The starts of a run so far: none met a violation, and the first one has taken the workflow out of
READY. -/
structure StartsWell (id : WorkflowIdentity) (log : Log) (v : WorkflowView) : Prop where
  regular : ∀ ev ∈ log, ∀ r, startResult id ev = some r → r.IsRegular
  first : log.countP (fun ev => startResult id ev == some .firstToStart) ≤
    if v.status = some .ready then 0 else 1

/-- No start meets a violation, and one at most takes the workflow out of READY. -/
theorem StartsWell.step {log : Log} (h : StartsWell id log v) (htidy : Tidy p L v)
    (hok : ev.env.ok = true) (htakes : Takes ev id v v')
    (hready : v'.status = some .ready → v.status = some .ready) :
    StartsWell id (log ++ [ev]) v' := by
  have hle : (if v.status = some .ready then 0 else 1) ≤
      if v'.status = some .ready then 0 else 1 := by
    by_cases hwf : v'.status = some .ready
    · rw [if_pos (hready hwf), if_pos hwf]
    · rw [if_neg hwf]
      split <;> decide
  have hstart : ∀ r, startResult id ev = some r → r.IsRegular ∧
      (r = .firstToStart → v.status = some .ready ∧ v'.status = some .running) := by
    intro r hr
    obtain ⟨j, rest, now, hs, hresult, hspace⟩ := htakes.starts hok hr
    obtain ⟨-, -, -, ⟨hwf, heq⟩ | ⟨-, heq⟩ | ⟨-, heq⟩⟩ := htidy.starts hs now
    · cases hresult.symm.trans heq
      refine ⟨⟨nofun, nofun, nofun⟩, fun _ => ⟨hwf, ?_⟩⟩
      have hstarted := WorkflowKeyspace.trySetJobToRunning_started now j v.space
      rw [heq, ← hspace] at hstarted
      cases hstarted with
      | first _ _ _ hcounters => exact congrArg WorkflowKeyspace.Counters.status hcounters
    · cases hresult.symm.trans heq
      exact ⟨⟨nofun, nofun, nofun⟩, nofun⟩
    · cases hresult.symm.trans heq
      exact ⟨⟨nofun, nofun, nofun⟩, nofun⟩
  constructor
  · intro ev' hev' r hr
    rcases List.mem_append.mp hev' with hev' | hev'
    · exact h.regular ev' hev' r hr
    · cases List.mem_singleton.mp hev'
      exact (hstart r hr).1
  · rw [List.countP_append, List.countP_singleton]
    split
    · rename_i hfirst
      obtain ⟨hwf, hwf'⟩ := (hstart _ (beq_iff_eq.mp hfirst)).2 rfl
      have hzero := h.first
      rw [if_pos hwf] at hzero
      rw [hwf', if_neg nofun]
      omega
    · exact h.first.trans hle

variable {svc : Service} {req : WorkflowRequest} {log : Log} {σ : Pool Call Call.Reply World}

/-- In every execution in which all commands succeed, no start of a job finds the job in a wrong
status, or its workflow in a wrong status or started already while it is READY; and at most one start
is the first of the workflow. -/
theorem start_checks_never_fire (h : Executes Plain svc req log σ) (hok : Answered log) :
    (∀ ev ∈ log, ∀ r, startResult req.identity ev = some r → r ≠ .invariantViolationJobStatus ∧
      r ≠ .invariantViolationWorkflowStatus ∧ r ≠ .invariantViolationWorkflowTime) ∧
    log.countP (fun ev => startResult req.identity ev == some .firstToStart) ≤ 1 := by
  obtain ⟨p, -, hrule⟩ := h.tidy hok
  have hreaches := hrule (StartsWell req.identity) (fun _ => True)
    (fun v _ => ⟨by simp, by simp⟩)
    (fun log ev v v' hev _ htidy _ hI htakes hserves => by
      refine hI.step htidy hev htakes (fun hready => ?_)
      rcases hserves with ⟨rfl, -⟩ | ⟨-, hstep⟩
      · exact hready
      · exact hstep.ready hready)
    (fun _ _ => trivial)
  obtain ⟨toks, -, -, -, hregular, hfirst⟩ := hreaches
  refine ⟨hregular, hfirst.trans ?_⟩
  split <;> decide

/-- Two jobs are started one after the other: the first start is the first of the workflow. -/
theorem start_checks_threeJobs :
    ((played (serviceOf 2) threeJobs (pass .scheduler 5 ++ pass .worker 6 ++ pass .scheduler 5 ++
      pass .worker 6)).1.filterMap (startResult threeJobs.identity) = [.firstToStart, .started]) ∧
    (played (serviceOf 2) threeJobs (pass .scheduler 5 ++ pass .worker 6 ++ pass .scheduler 5 ++
      pass .worker 6)).1.countP (fun ev =>
        startResult threeJobs.identity ev == some .firstToStart) ≤ 1 := by
  have hrun : Executes Plain (serviceOf 2) threeJobs _ _ := executes_played (pass .scheduler 5 ++
    pass .worker 6 ++ pass .scheduler 5 ++ pass .worker 6) (requestOf_plain _) (by decide +kernel)
  exact ⟨by decide +kernel, (start_checks_never_fire hrun (by decide +kernel)).2⟩

end Starts

end FlowPilot
