import FlowPilot.WorkflowFresh
import FlowPilot.WorkflowMirror

/-! The rows of a workflow that was admitted with every command answered: SQLite says of it and of its
jobs what Redis says. -/

namespace FlowPilot

open WorkflowAdmissionService WorkflowRuntimeGenerator

/-- The request is submitted and admitted, and every command on the way is answered. -/
def AdmitsAnswered (svc : Service) (req : WorkflowRequest) (w w' : World) : Prop :=
  ∃ env result, (∀ n, (env n).ok = true) ∧
    Prog.run Call.exec env (submitWorkflow svc (.request req)) w = (some result, w') ∧
    result.valid = true

section Rows

variable {svc : Service} {client : ClientConfig} {req : WorkflowRequest} {info linked : JobRuntimeMap}
  {ready : List PrioritizedJob} {w w' : World}

/-- The statuses that admission records for the jobs `js`. -/
structure Posted (client : ClientConfig) (ready : List PrioritizedJob) (js : List String) (l : Ledger) :
    Prop where
  workflow : l.workflow = some .ready
  job : ∀ j ∈ js, l.job j = some (if j ∈ queuedNow client ready then .queued
    else if j ∈ waitingNow client ready then .ready else .pending)

theorem posted_persistWorkflow : Settles (persistWorkflow svc req linked) w (fun r w' => r = .ok () →
    (w'.sqlite.ledger req.identity).workflow = some .ready ∧
    ∀ d ∈ svc.hash.order .jobsRuntimeInfo linked,
      (w'.sqlite.ledger req.identity).job d.jobId = some .pending) := by
  have hadd : ∀ row : WorkflowRow, Settles (ask (.addWorkflow row)) w (fun r w' => r = .ok () →
      w'.sqlite.workflowStatus row.identity ≠ none) := by
    refine fun row => settles_ask (fun e => ?_)
    have hstatus := Sqlite.workflowStatus_of_added w.sqlite { row with receivedAt := e.time }
    simp only [Call.carryOut, Call.onSqlite]
    cases hadded : (w.sqlite.addWorkflow { row with receivedAt := e.time }).1 with
    | false => simp
    | true =>
        intro _
        rw [hstatus hadded]
        simp
  refine Settles.bind (hadd _) (fun r w₁ h₁ => ?_)
  cases r with
  | error code => exact settles_pure (by simp)
  | ok _ =>
      replace h₁ := h₁ rfl
      have hjobs : ∀ rows : List JobRow, (∀ row ∈ rows, row.status = .pending) →
          Settles (ask (.addWorkflowJobs rows)) w₁ (fun r w' => r = true →
            w'.sqlite.workflows = w₁.sqlite.workflows ∧
            ∀ row ∈ rows, w'.sqlite.jobStatus row.key = some .pending) := by
        refine fun rows hpending => settles_ask (fun e hadded => ?_)
        have hstatus := Sqlite.jobStatus_addWorkflowJobs w₁.sqlite
          (rows.map (fun r => { r with submittedAt := some e.time })) .pending
        simp only [Call.carryOut, Call.onSqlite] at hadded ⊢
        refine ⟨?_, fun row hrow => ?_⟩
        · rw [Sqlite.addWorkflowJobs] at hadded ⊢
          split <;> rfl
        · refine hstatus (fun r hr => ?_) hadded { row with submittedAt := some e.time }
            (List.mem_map_of_mem hrow)
          obtain ⟨r', hr', rfl⟩ := List.mem_map.mp hr
          exact hpending r' hr'
      have hpending : ∀ row ∈ jobRows svc req.identity linked, row.status = .pending := by
        intro row hrow
        obtain ⟨d, -, rfl⟩ := List.mem_map.mp hrow
        rfl
      refine Settles.bind (hjobs _ hpending) ?_
      rintro (_ | _) w₂ h₂
      · exact Settles.bind (settles_any _ _) (fun _ _ _ => settles_pure (by simp))
      · obtain ⟨hworkflows, hrows⟩ := h₂ rfl
        have hrecorded : w₂.sqlite.workflowStatus req.identity ≠ none := by
          rw [Sqlite.workflowStatus, hworkflows]
          exact h₁
        have hstatus : Settles (ask (.updateWorkflowStatus req.identity .ready)) w₂ (fun _ w' =>
            w'.sqlite.ledger req.identity =
              (w₂.sqlite.ledger req.identity).setWorkflow .ready) :=
          settles_ask (fun e => (w₂.sqlite.updateWorkflowStatus_ledger e.time (by rintro ⟨⟩) hrecorded).2)
        refine Settles.bind hstatus (fun _ w₃ h₃ => settles_pure (fun _ => ?_))
        rw [h₃]
        exact ⟨rfl, fun d hd => hrows _ (List.mem_map_of_mem hd)⟩

/-- `initialize_runtime_data` records the jobs that it queues and those that wait for a slot. -/
theorem leads_initializeRuntimeData_ledger :
    Leads (initializeRuntimeData svc client.policy req ready linked) w (fun stored w' =>
      stored = true → w'.sqlite.ledger req.identity = (w.sqlite.ledger req.identity).setReady
        (queuedNow client ready) (waitingNow client ready)) := by
  refine leads_initializeRuntimeData_rule (fun w' => w'.sqlite.ledger req.identity =
    (w.sqlite.ledger req.identity).setReady (queuedNow client ready) (waitingNow client ready))
    (leads_ask rfl (fun e hupdated => ?_) nofun) (fun _ hw' _ => hw')
  exact (w.sqlite.updateReadyJobs_ledger e.time
    (w.sqlite.jobStatus_ne_none_of_updateReadyJobs e.time hupdated)).2

theorem handleRequestAccepted_silent (req : WorkflowRequest) :
    (handleRequestAccepted req).OnlyCalls (fun c => c.writesRows = false) := by
  have hask : ∀ c : Call, c.writesRows = false → (ask c).OnlyCalls (fun c => c.writesRows = false) :=
    fun c hc => onlyCalls_ask hc
  refine Prog.OnlyCalls.bind ?_ (fun _ => (hask _ rfl).bind (fun _ => trivial))
  refine (hask _ rfl).bind (fun _ => ?_)
  rw [if_neg (by decide)]
  trivial

/-- After an accepted submission SQLite has the rows of the workflow as Redis has its jobs. -/
theorem settles_submitWorkflow (svc : Service) (req : WorkflowRequest) (w : World) :
    Settles (submitWorkflow svc (.request req)) w (fun r w' =>
      (∃ v, r = some v ∧ v.valid = true) → ∀ client info linked ready,
      Accepted svc client req info linked ready w.visible w'.visible →
      Posted client ready (req.jobs.map JobRequest.jobId) (w'.sqlite.ledger req.identity)) := by
  have hreject : ∀ (stage : AdmissionStage) (reason : StatusCode) (w₁ : World)
      {post : Option ValidationResult → World → Prop},
      Settles (some <$> AdmissionFailureHandler.handleRejection req stage reason) w₁ (fun r w' =>
        (∃ v, r = some v ∧ v.valid = true) → post r w') := by
    intro stage reason w₁ post
    refine (leads_reject req stage reason w₁ ?_).settles
    rintro r w' hr ⟨v, hv, hvalid⟩
    cases hv
    cases hr.symm.trans hvalid
  unfold submitWorkflow
  dsimp only
  split
  · refine settles_pure ?_
    rintro ⟨v, hv, hvalid⟩
    cases hv
    cases hvalid
  rename_i client hclient
  refine Settles.bind (settles_any _ _) (fun r w₁ _ => ?_)
  cases r with
  | error code => exact hreject _ _ _
  | ok _ =>
      refine Settles.bind (settles_any _ _) (fun r w₂ _ => ?_)
      cases r with
      | error code => exact hreject _ _ _
      | ok _ =>
          dsimp only
          unfold createWorkflow
          split
          · exact settles_pure nofun
          · exact hreject _ _ _
          · rename_i info ready hbuilt
            split
            · exact hreject _ _ _
            · rename_i linked hvalid
              refine Settles.bind posted_persistWorkflow (fun r w₃ h₃ => ?_)
              cases r with
              | error code => exact hreject _ _ _
              | ok _ =>
                  obtain ⟨hworkflow, hjobs⟩ := h₃ rfl
                  refine Settles.bind leads_initializeRuntimeData_ledger.settles ?_
                  rintro (_ | _) w₄ h₄
                  · exact hreject _ _ _
                  have hkept : Settles (handleRequestAccepted req) w₄ (fun _ w' =>
                      w'.sqlite.ledger req.identity = w₄.sqlite.ledger req.identity) :=
                    settles_keeps (handleRequestAccepted_silent req) (fun c hc e w' =>
                      (Call.spares_of_writesRows hc).exec e w')
                  refine Settles.bind hkept (fun r w₅ h₅ => settles_pure (fun _ => ?_))
                  intro client' info' linked' ready' haccepted
                  cases hclient.symm.trans haccepted.configured
                  cases hbuilt.symm.trans haccepted.built
                  cases hvalid.symm.trans haccepted.validated
                  rw [h₅, h₄ rfl]
                  refine ⟨hworkflow, fun j hj => ?_⟩
                  obtain ⟨d, hd, rfl⟩ := List.mem_map.mp (haccepted.mem_order hj)
                  rw [Ledger.setReady_job, hjobs d hd]
                  split
                  · rfl
                  · split <;> rfl

end Rows

section Admission

variable {svc : Service} {req : WorkflowRequest} {w w' : World}

/-- After an admission with every command answered the stores agree about the workflow. -/
theorem AdmitsAnswered.mirrors (h : AdmitsAnswered svc req w w') {T : Multiset Token}
    (habsent : Absent (view req.identity w T)) :
    Mirrors (fun _ => False) (books req.identity w') := by
  obtain ⟨env, result, hok, hrun, hvalid⟩ := h
  have hleads := (leads_submitWorkflow (w := w) svc req).run env
  rw [hrun] at hleads
  obtain ⟨client, info, linked, ready, haccepted, -⟩ := hleads ⟨result, rfl, hvalid⟩
  have hsettles := Prog.Ensures.run (settles_submitWorkflow svc req w) env hok
  rw [hrun] at hsettles
  have hposted := hsettles ⟨result, rfl, hvalid⟩ client info linked ready haccepted
  have hspace : (books req.identity w').space =
      initialSpace svc client.policy req ready linked {} := by
    refine (congrFun haccepted.workflows req.identity).trans ?_
    rw [Function.update_self]
    exact congrArg _ habsent.space
  have hkeys : InitialKeys client req ready (books req.identity w').space :=
    hspace ▸ haccepted.planned.initialKeys
  have hcoherent := hkeys.coherent haccepted.wellFormed haccepted.planned.mem_ready
    haccepted.planned.ready_nodup 0
  have hstatus : (books req.identity w').space.status = some .ready :=
    congrArg WorkflowKeyspace.Counters.status hkeys.counters
  refine ⟨fun j st hst _ _ => ?_, fun ws hws => ?_, fun hfail => ?_⟩
  · have hj : j ∈ req.jobs.map JobRequest.jobId := by
      by_contra hj
      cases (hkeys.jobStatus_of_not_mem hj).symm.trans hst
    refine (hposted.job j hj).trans (congrArg some ?_)
    have hwaiting : j ∈ waitingNow client ready ↔ st = .ready := by
      rw [← hkeys.waiting, hcoherent.waiting, hst, Option.some.injEq]
    obtain ⟨job, hjob, rfl⟩ := List.mem_map.mp hj
    have hinitial := Option.some.inj (hst.symm.trans (hkeys.jobStatus hjob))
    by_cases hq : job.jobId ∈ queuedNow client ready
    · rw [if_pos hq] at hinitial ⊢
      rw [hinitial]
      rfl
    · rw [if_neg hq] at hinitial ⊢
      by_cases hdeps : job.dependsOn = []
      · rw [if_pos hdeps] at hinitial
        rw [if_pos (hwaiting.mpr hinitial), hinitial]
        rfl
      · rw [if_neg hdeps] at hinitial
        rw [if_neg (fun hmem => by cases hinitial.symm.trans (hwaiting.mp hmem)), hinitial]
        rfl
  · cases hstatus.symm.trans hws
    exact hposted.workflow
  · cases hstatus.symm.trans hfail

end Admission

end FlowPilot
