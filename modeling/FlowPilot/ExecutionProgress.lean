import FlowPilot.AdmissionOrder
import FlowPilot.ExecutionSlots

/-! Progress of a workflow in runs in which every command succeeds: as long as it is READY or RUNNING,
some job of it is QUEUED, PENDING_EXECUTION, RUNNING or put off for a retry. A READY job waits only if
a slot is taken, and a PENDING job waits for a job that is not COMPLETED; since the dependencies have
no cycle, some job is at work. -/

namespace FlowPilot

/-- The statuses of a job that goes on without another one being completed before. -/
def JobStatus.isUnderWay (st : JobStatus) : Bool := st.isActive || st == .retryDelay

section Work

variable {p : Plan} {L l order : List String} {x : Served} {v v' : WorkflowView} {j : String}

theorem Stage.isUnderWay_of_asks {s : Stage} {st : JobStatus} (h : s.asks = some st) :
    st.isUnderWay = true ∨ st = .aborted := by
  cases s with
  | reported r | listing r => cases r <;> cases h <;> simp [JobStatus.isUnderWay, JobStatus.isActive]
  | _ => cases h <;> simp [JobStatus.isUnderWay, JobStatus.isActive]

/-- In a live workflow in which a job waits only while a slot is taken, some job is under way. -/
theorem Tidy.exists_underWay (h : Tidy p L v) (hlive : Live p v) (hsat : Saturated 1 v.space)
    (horder : DependencyOrder p.deps order) (hall : ∀ j ∈ p.ids, j ∈ order) :
    ∃ j ∈ p.ids, (v.jobStatus j).any JobStatus.isUnderWay = true := by
  by_contra hnone
  have hrest : ∀ j ∈ p.ids, ∀ st, v.jobStatus j = some st → st.isUnderWay = false := by
    intro j hj st hst
    refine Bool.eq_false_iff.mpr (fun hunder => hnone ⟨j, hj, ?_⟩)
    rw [hst]
    exact hunder
  have hready : ∀ j ∈ p.ids, v.jobStatus j ≠ some .ready := by
    intro j hj hst
    have hreserved := hsat (List.ne_nil_of_mem ((h.orderly.waiting j).mpr hst))
    rw [hlive.slots] at hreserved
    obtain ⟨i, hi, hactive⟩ := List.countP_pos_iff.mp (Int.natCast_pos.mp hreserved)
    obtain ⟨st, hst', hactive⟩ := (Option.any_eq_true _ _).mp hactive
    have hunder := hrest i hi st hst'
    rw [JobStatus.isUnderWay, hactive] at hunder
    cases hunder
  have hterminal : ∀ j st, v.jobStatus j = some st → st.isTerminal = true → st = .completed := by
    intro j st hst hdone
    have hclean := hlive.clean j
    rw [show v.space.jobStatus j = some st from hst] at hclean
    cases st <;> first | rfl | exact absurd rfl hclean.1 | exact absurd rfl hclean.2 | cases hdone
  -- every job is COMPLETED if the jobs it depends on are
  have hcompleted : ∀ j ∈ order, j ∈ p.ids → v.jobStatus j = some .completed := by
    refine horder.induction (fun j _ hdeps hj => ?_)
    obtain ⟨st, hst⟩ := Option.ne_none_iff_exists'.mp ((hlive.strong.coherent.known j).mpr hj)
    by_cases hmem : j ∈ L
    · cases hterminal j st hst ((h.orderly.left j hmem).done hst)
      exact hst
    · cases h.orderly.held j hj hmem with
      | idle _ hidle =>
          rcases hidle with hpending | hidle
          · have hopen := (hlive.strong.coherent.pending j hpending).2
            have hzero : p.openDeps v.space j = 0 := p.openDeps_eq_zero_iff.mpr
              (fun d hd => hdeps d hd (p.deps_known j d hd).2)
            omega
          · exact absurd hidle (hready j hj)
      | stranded _ haborted => exact absurd haborted (hlive.clean j).2
      | @busy s st' _ hasks hst' =>
          rcases Stage.isUnderWay_of_asks hasks with hunder | rfl
          · cases hunder.symm.trans (hrest j hj _ hst')
          · exact absurd hst' (hlive.clean j).2
  have hfull : p.tally JobStatus.isTerminal v.space = p.ids.length := by
    refine p.tally_eq_length_iff.mpr (fun j hj => ?_)
    rw [show v.space.jobStatus j = some .completed from hcompleted j (hall j hj) hj]
    rfl
  have hunfinished := hlive.strong.unfinished
  omega

end Work

section Execution

variable {svc : Service} {req : WorkflowRequest} {log : Log} {σ : Pool Call Call.Reply World}

theorem Executes.acyclic (h : Executes Plain svc req log σ) :
    WorkflowAdmissionService.Acyclic req.jobs := by
  obtain ⟨_, _, _, -, -, hadmits, -⟩ := h
  obtain ⟨client, info, linked, ready, haccepted, -⟩ := hadmits.accepted
  exact WorkflowAdmissionService.validateWorkflow_acyclic haccepted.validated

theorem WorkflowRequest.dependenciesOf_eq (req : WorkflowRequest) :
    WorkflowAdmissionService.dependenciesOf (WorkflowAdmissionService.dependencyPairs req.jobs) =
      req.dependsOn := by
  funext j
  rw [WorkflowAdmissionService.dependenciesOf, WorkflowAdmissionService.dependencyPairs,
    List.find?_map, Option.map_map]
  rfl

/-- Until it has ended, a workflow of an execution in which all commands succeed is live, and one of
its jobs is under way. -/
theorem Executes.underWay {client : ClientConfig} (h : Executes Plain svc req log σ) (hok : Answered log)
    (hclient : svc.client req.clientId = some client) (hlimit : 1 ≤ client.policy.maxConcurrentJobs)
    (hopen : (σ.world.redis.workflows req.identity).status = some .ready ∨
      (σ.world.redis.workflows req.identity).status = some .running) :
    ∃ job ∈ req.jobs, ((σ.world.redis.workflows req.identity).jobStatus job.jobId).any
      JobStatus.isUnderWay = true := by
  obtain ⟨order, horder, hall⟩ := h.acyclic
  obtain ⟨p, hp, hrule⟩ := h.tidy hok
  rw [← hp.limit hclient] at hlimit
  have hreaches := hrule
    (fun log v => (v.status = some .ready ∨ v.status = some .running → Saturated 1 v.space) ∧
      (v.status = some .ready → credits req.identity log = []))
    (fun _ => True) (fun v hv => ⟨fun _ hwaiting => ?_, fun _ => rfl⟩)
    (fun log ev v v' hev _ htidy _ hI htakes hserves => ?_) (fun _ _ => trivial)
  · obtain ⟨toks, -, -, htidy, hsat, hready⟩ := hreaches
    have hlive : Live p (view req.identity σ.world toks) := by
      rcases hopen with hwf' | hwf'
      · have hlt := List.length_pos_of_ne_nil p.nonempty
        rw [hready hwf'] at htidy
        rcases (htidy.unfinished hlt).phase with hlive | hfailed
        · exact hlive
        · cases hwf'.symm.trans hfailed
      · exact htidy.live_of_running hwf'
    rw [req.dependenciesOf_eq, ← hp.deps] at horder
    obtain ⟨j, hj, hunder⟩ := htidy.exists_underWay hlive (hsat hopen) horder (fun j hj => by
      obtain ⟨job, hjob, rfl⟩ := hp.exists_job hj
      exact hall job hjob)
    obtain ⟨job, hjob, rfl⟩ := hp.exists_job hj
    exact ⟨job, hjob, hunder⟩
  · rw [hv.counters]
    exact hlimit.trans (hv.spare hwaiting)
  · obtain ⟨hsat, hready⟩ := hI
    rw [credits_append]
    rcases hserves with ⟨rfl, hnil⟩ | ⟨hsees, hstep⟩
    · rw [hnil, List.append_nil]
      exact ⟨hsat, hready⟩
    · refine ⟨fun hopen' => ?_, fun hready' => ?_⟩
      · refine htidy.saturated_step hstep hlimit (hsat (hstep.open_before hopen')) ?_ hopen'
        exact fun j hj hst hrel => (htidy.live_of_running hrel.running).slots.pos hj hst rfl
      · have hbefore := hstep.ready hready'
        rw [hready hbefore, hstep.eq_nil_of_ready hbefore]
        rfl

/-- In every execution in which all commands succeed, a workflow that is READY or RUNNING has a job
that is QUEUED, PENDING_EXECUTION, RUNNING or in RETRY_DELAY. -/
theorem live_workflow_has_work {client : ClientConfig} (h : Executes Plain svc req log σ)
    (hok : Answered log) (hclient : svc.client req.clientId = some client)
    (hlimit : 1 ≤ client.policy.maxConcurrentJobs)
    (hopen : (σ.world.redis.workflows req.identity).status = some .ready ∨
      (σ.world.redis.workflows req.identity).status = some .running) :
    ∃ job ∈ req.jobs, ∃ st ∈ [JobStatus.queued, .pendingExecution, .running, .retryDelay],
      (σ.world.redis.workflows req.identity).jobStatus job.jobId = some st := by
  obtain ⟨job, hjob, hunder⟩ := h.underWay hok hclient hlimit hopen
  obtain ⟨st, hst, hunder⟩ := (Option.any_eq_true _ _).mp hunder
  refine ⟨job, hjob, st, ?_, hst⟩
  revert hunder
  cases st <;> decide

/-- After the first of two chained jobs completed, the second one is under way. -/
theorem live_workflow_chainedJobs :
    ∃ job ∈ chainedJobs.jobs, ∃ st ∈ [JobStatus.queued, .pendingExecution, .running, .retryDelay],
      ((played (serviceOf 1) chainedJobs firstCompleted).2.world.redis.workflows
        chainedJobs.identity).jobStatus job.jobId = some st := by
  have hrun : Executes Plain (serviceOf 1) chainedJobs _ _ :=
    executes_played firstCompleted (requestOf_plain _) (by decide +kernel)
  have hclient : (serviceOf 1).client chainedJobs.clientId =
    some { policy := { maxConcurrentJobs := 1 } } := rfl
  exact live_workflow_has_work hrun (by decide +kernel) hclient (by decide) (by decide +kernel)

end Execution

end FlowPilot
