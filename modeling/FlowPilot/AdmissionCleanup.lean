import FlowPilot.AdmissionOutcome
import FlowPilot.AdmissionPlan

/-! A rejected submission and the work that was there before it. The cleanup of a rejection selects
rows by the workflow id of the request and not by what the request has stored, so it writes to earlier
rows exactly when the id has such rows already. The stores may fail at any call here. -/

namespace FlowPilot

theorem prefix_updateWhere {α : Type} {selected : α → Bool} (change : α → α) {old rows : List α}
    (h : old <+: rows) (hfree : ∀ r ∈ old, selected r = false) :
    old <+: updateWhere selected change rows := by
  obtain ⟨rest, rfl⟩ := h
  have hsame : updateWhere selected change old = old :=
    updateWhere_eq_self_iff.mpr (fun r hr hselected => nomatch (hfree r hr).symm.trans hselected)
  rw [updateWhere, List.map_append]
  change old <+: updateWhere selected change old ++ _
  rw [hsame]
  exact List.prefix_append _ _

theorem eq_of_prefix_updateWhere {α : Type} {selected : α → Bool} {change : α → α} {rows : List α}
    (h : rows <+: updateWhere selected change rows) :
    ∀ r ∈ rows, selected r = true → change r = r :=
  updateWhere_eq_self_iff.mp (h.eq_of_length (List.length_map _).symm).symm

/-- A row that `fail_all_jobs_waiting_to_run` selects. -/
def JobRow.Waiting (row : JobRow) : Prop :=
  row.status = .pending ∨ row.status = .ready ∨ row.status = .queued

/-- There is no row that the cleanup after a rejection of the workflow writes to. -/
structure FreeOf (id : WorkflowIdentity) (db : Sqlite) : Prop where
  workflow : id ∉ db.workflowIds
  jobs : ∀ row ∈ db.jobs, row.key.identity = id → ¬ row.Waiting

/-- Every row of a workflow or of a job is as it was. -/
structure KeepsRows (db db' : Sqlite) : Prop where
  workflows : db.workflows <+: db'.workflows
  jobs : db.jobs <+: db'.jobs

/-- Earlier work is as it was: no row has changed, and no workflow has become inactive. -/
structure Undisturbed (w w' : World) : Prop where
  rows : KeepsRows w.sqlite w'.sqlite
  active : ∀ client, w.redis.activeWorkflows client ⊆ w'.redis.activeWorkflows client

/-! ## The calls of a submission -/

section Calls

variable {db : Sqlite} {req : WorkflowRequest} {c : Call}

theorem KeepsRows.refl (db : Sqlite) : KeepsRows db db := ⟨List.prefix_rfl, List.prefix_rfl⟩

theorem rows_exec (hc : c.writesRows = false) (e : Env) (w : World) :
    (c.exec e w).2.sqlite.workflows = w.sqlite.workflows ∧
      (c.exec e w).2.sqlite.jobs = w.sqlite.jobs := by
  rw [Call.exec]
  split
  swap
  · exact ⟨rfl, rfl⟩
  cases c with
  | insertRequest row =>
      change (w.sqlite.insertRequest _).2.workflows = _ ∧ (w.sqlite.insertRequest _).2.jobs = _
      rw [Sqlite.insertRequest]
      split <;> exact ⟨rfl, rfl⟩
  | updateJobStatus | updateWorkflowStatus | updateReadyJobs | failAllJobsWaitingToRun => cases hc
  | addWorkflow | addWorkflowJobs => cases hc
  | _ => exact ⟨rfl, rfl⟩

theorem KeepsRows.exec {w : World} (h : KeepsRows db w.sqlite) (hc : c.writesRows = false) (e : Env) :
    KeepsRows db (c.exec e w).2.sqlite := by
  obtain ⟨hworkflows, hjobs⟩ := rows_exec hc e w
  exact ⟨hworkflows ▸ h.workflows, hjobs ▸ h.jobs⟩

/-- When the id has no rows to clean up, the calls that file the request keep all earlier rows. -/
theorem KeepsRows.files (hfree : FreeOf req.identity db) (hc : c.Files req) (e : Env) (w : World)
    (h : KeepsRows db w.sqlite) : KeepsRows db (c.exec e w).2.sqlite := by
  by_cases hwrites : c.writesRows = false
  · exact h.exec hwrites e
  have hworkflow : ∀ row ∈ db.workflows, WorkflowRow.isOf req.identity row = false := by
    intro row hrow
    exact decide_eq_false (fun hid => hfree.workflow (List.mem_map.mpr ⟨row, hrow, hid⟩))
  rw [Call.exec]
  split
  swap
  · exact h
  cases c with
  | updateWorkflowStatus id st =>
      cases (hc : id = req.identity)
      refine ⟨?_, (w.sqlite.jobs_updateWorkflowStatus e.time _ st).symm ▸ h.jobs⟩
      change db.workflows <+: (w.sqlite.updateWorkflowStatus e.time _ st).2.workflows
      rw [Sqlite.updateWorkflowStatus]
      split
      · exact h.workflows
      · split
        · exact prefix_updateWhere _ h.workflows hworkflow
        · exact h.workflows
  | failAllJobsWaitingToRun id =>
      cases (hc : id = req.identity)
      refine ⟨h.workflows, prefix_updateWhere _ h.jobs (fun row hrow => ?_)⟩
      by_cases hid : row.key.identity = req.identity
      · have hwaiting := hfree.jobs row hrow hid
        simp only [JobRow.Waiting, not_or] at hwaiting
        simp [hwaiting]
      · simp [hid]
  | addWorkflow row =>
      change KeepsRows db (w.sqlite.addWorkflow _).2
      rw [Sqlite.addWorkflow]
      split
      · exact h
      · exact ⟨h.workflows.trans (List.prefix_append _ _), h.jobs⟩
  | addWorkflowJobs rows =>
      change KeepsRows db (w.sqlite.addWorkflowJobs _).2
      rw [Sqlite.addWorkflowJobs]
      split
      · exact h
      · rename_i all hall
        refine ⟨h.workflows, h.jobs.trans ?_⟩
        rw [Sqlite.insertJobs_eq_some hall]
        exact List.prefix_append _ _
  | updateJobStatus | updateReadyJobs => cases hc
  | _ => exact absurd rfl hwrites

/-- The calls that store the runtime data keep all earlier rows, when the ready jobs have none. -/
theorem KeepsRows.prepares {id : WorkflowIdentity} {js : List String}
    (hnew : ∀ row ∈ db.jobs, ∀ j ∈ js, row.key ≠ ⟨id, j⟩) (hc : Prepares id js c) (e : Env) (w : World)
    (h : KeepsRows db w.sqlite) : KeepsRows db (c.exec e w).2.sqlite := by
  obtain ⟨hc, -⟩ | ⟨queued, ready, rfl, hids⟩ := hc
  · refine h.exec ?_ e
    cases c <;> first | rfl | cases hc
  · have hfold : ∀ (change : JobRow → JobRow) (ids : List String) (rows : List JobRow),
        (∀ j ∈ ids, j ∈ js) → db.jobs <+: rows →
        db.jobs <+: ids.foldl (fun rows j => updateWhere (JobRow.isOf ⟨id, j⟩) change rows) rows := by
      intro change ids
      induction ids with
      | nil => exact fun _ _ hrows => hrows
      | cons j rest ih =>
          intro rows hmem hrows
          obtain ⟨hj, hrest⟩ := List.forall_mem_cons.mp hmem
          refine ih _ hrest (prefix_updateWhere _ hrows (fun row hrow => ?_))
          exact decide_eq_false (hnew row hrow j hj)
    rw [Call.exec]
    split
    swap
    · exact h
    change KeepsRows db (w.sqlite.updateReadyJobs e.time id queued ready).2
    rw [Sqlite.updateReadyJobs]
    split
    · refine ⟨h.workflows, hfold _ queued _ ?_ (hfold _ ready _ ?_ h.jobs)⟩
      · exact fun j hj => hids j (List.mem_append_left _ hj)
      · exact fun j hj => hids j (List.mem_append_right _ hj)
    · exact h

theorem active_submits {active : String → Finset String}
    (hinactive : req.workflowId ∉ active req.clientId) (hc : c.Submits req) (e : Env) (w : World)
    (h : ∀ client, active client ⊆ w.redis.activeWorkflows client) (client : String) :
    active client ⊆ (c.exec e w).2.redis.activeWorkflows client := by
  obtain ⟨wf, -, -, hset⟩ | ⟨wf, hremoves, hset⟩ | ⟨-, hset⟩ := activeWorkflows_exec client c e w
  · rw [hset]
    exact (h client).trans (Finset.subset_insert _ _)
  · obtain ⟨hcall, -⟩ := hremoves
    dsimp only at hcall
    subst hcall
    have hid : (⟨client, wf⟩ : WorkflowIdentity) = req.identity := by
      obtain hfiles | ⟨js, ⟨hstores, -⟩ | ⟨_, _, heq, -⟩⟩ := hc
      · exact hfiles
      · cases hstores
      · cases heq
    cases hid
    rw [hset]
    exact Finset.subset_erase.mpr ⟨h _, hinactive⟩
  · rw [hset]
    exact h client

end Calls

/-! ## When nothing is disturbed -/

section Undisturbed

open WorkflowAdmissionService WorkflowRuntimeGenerator AdmissionFailureHandler

variable {w : World} {req : WorkflowRequest}

/-- The admission script makes no workflow inactive, and admits only what passes its checks. -/
theorem leads_admitRequest_checks (args : Redis.AdmitArgs) :
    Leads (ask (.admitRequest args)) w (fun r w' => Undisturbed w w' ∧ w'.sqlite = w.sqlite ∧
      (r = .ok () → ∃ now, PassesRedis now args w.redis)) := by
  refine leads_ask rfl (fun e => ?_) ⟨⟨.refl _, fun _ => subset_rfl⟩, rfl, nofun⟩
  refine ⟨⟨.refl _, fun client => ?_⟩, rfl, fun h => ⟨e.redisTime, Redis.admitRequest_ok_iff.mp h⟩⟩
  change _ ⊆ (w.redis.admitRequest e.redisTime args).2.activeWorkflows client
  by_cases hok : (w.redis.admitRequest e.redisTime args).1 = .ok ()
  · obtain ⟨-, -, -, hactive, -⟩ := Redis.admitRequest_admitted hok
    rw [hactive]
    by_cases hclient : client = args.clientId
    · rw [hclient, Function.update_self]
      exact Finset.subset_insert _ _
    · rw [Function.update_of_ne hclient]
  · rw [(Redis.admitRequest_rejected hok).1]

/-- `persist_request` succeeds only when its checks pass, and stores no workflow and no job. -/
theorem leads_persistRequest_checks (client : ClientConfig) :
    Leads (persistRequest client req) w (fun r w' => w'.sqlite.workflows = w.sqlite.workflows ∧
      w'.sqlite.jobs = w.sqlite.jobs ∧ (r = .ok () → PassesSqlite client req w.sqlite)) := by
  have hinsert : Leads (ask (.insertRequest (receivedRow req 0))) w (fun r w' =>
      w'.sqlite.workflows = w.sqlite.workflows ∧ w'.sqlite.jobs = w.sqlite.jobs ∧
      (r = .ok () → (req.clientId, req.requestId) ∉ w.sqlite.requestKeys)) := by
    intro e _
    obtain ⟨hworkflows, hjobs⟩ := rows_exec (c := .insertRequest (receivedRow req 0)) rfl e w
    refine ⟨hworkflows, hjobs, fun hok hmem => ?_⟩
    cases he : e.ok with
    | false =>
        rw [Call.exec, he] at hok
        cases hok
    | true =>
        have hrefused := Sqlite.insertRequest_of_mem (receivedRow req e.time) hmem
        rw [exec_answered he, Call.carryOut] at hok
        change (if (w.sqlite.insertRequest (receivedRow req e.time)).1 = true then _ else _) = _ at hok
        rw [hrefused] at hok
        cases hok
  refine hinsert.bind (fun r w₁ h₁ => ?_)
  obtain ⟨hworkflows, hjobs, hkey⟩ := h₁
  cases r with
  | error code => exact ⟨hworkflows, hjobs, (by simp)⟩
  | ok _ =>
      have hcount : Leads (ask (.getClientActiveWorkflowsCount req.clientId)) w₁ (fun n w' =>
          w' = w₁ ∧ (n = none ∨ n = some (w₁.sqlite.getClientActiveWorkflowsCount req.clientId))) :=
        leads_ask rfl (fun _ => ⟨rfl, .inr rfl⟩) ⟨rfl, .inl rfl⟩
      refine hcount.bind (fun n w₂ h₂ => ?_)
      obtain ⟨rfl, rfl | rfl⟩ := h₂
      · exact ⟨hworkflows, hjobs, (by simp)⟩
      dsimp only
      have hactive : w₂.sqlite.getClientActiveWorkflowsCount req.clientId =
          w.sqlite.getClientActiveWorkflowsCount req.clientId := by
        rw [Sqlite.getClientActiveWorkflowsCount, hworkflows, Sqlite.getClientActiveWorkflowsCount]
      rw [hactive]
      split
      · exact ⟨hworkflows, hjobs, (by simp)⟩
      · rename_i hroom
        split
        · exact ⟨hworkflows, hjobs, (by simp)⟩
        · rename_i hsize
          exact ⟨hworkflows, hjobs, fun _ => ⟨hkey rfl, not_le.mp hroom, not_lt.mp hsize⟩⟩

theorem leads_persistWorkflow_new (svc : Service) (info : JobRuntimeMap) :
    Leads (persistWorkflow svc req info) w (fun r _ => r = .ok () →
      ∀ row ∈ w.sqlite.jobs, ∀ d ∈ info, row.key ≠ ⟨req.identity, d.jobId⟩) := by
  have hadd : ∀ row, Leads (ask (.addWorkflow row)) w (fun _ w' => w'.sqlite.jobs = w.sqlite.jobs) := by
    refine fun row => leads_ask rfl (fun e => ?_) rfl
    change (w.sqlite.addWorkflow _).2.jobs = _
    rw [Sqlite.addWorkflow]
    split <;> rfl
  refine (hadd _).bind (fun r w₁ h₁ => ?_)
  cases r with
  | error code => exact leads_pure (by simp)
  | ok _ =>
      have hjobs : Leads (ask (.addWorkflowJobs (jobRows svc req.identity info))) w₁ (fun stored _ =>
          stored = true → ∀ row ∈ w₁.sqlite.jobs, ∀ d ∈ info, row.key ≠ ⟨req.identity, d.jobId⟩) := by
        refine leads_ask rfl (fun e => ?_) (by rintro ⟨⟩)
        change (w₁.sqlite.addWorkflowJobs _).1 = true → _
        rw [Sqlite.addWorkflowJobs]
        split
        · simp
        · rename_i all hall
          intro _ row hrow d hd
          have hmem : d ∈ svc.hash.order .jobsRuntimeInfo info :=
            (svc.hash.perm .jobsRuntimeInfo info).mem_iff.mpr hd
          exact Sqlite.insertJobs_new hall _ (List.mem_map_of_mem (List.mem_map_of_mem hmem)) row hrow
      refine hjobs.bind (fun stored w₂ h₂ => ?_)
      rw [h₁] at h₂
      split
      · rename_i hstored
        exact (leads_trivial (ask _) w₂).bind (fun _ _ _ _ => h₂ hstored)
      · exact (leads_trivial (ask _) w₂).bind (fun _ _ _ => (by rintro ⟨⟩))

theorem ready_stored {svc : Service} {policy : PolicyPlan} {info linked : JobRuntimeMap}
    {ready : List PrioritizedJob} (hbuilt : buildJobsRuntimeInfo svc.uuids policy req.jobs =
      .built info ready) (hvalid : validateWorkflow svc.hash policy req.jobs info = .ok linked) :
    ∀ j ∈ ready.map PrioritizedJob.jobId, ∃ d ∈ linked, d.jobId = j := by
  obtain ⟨hwell, rfl⟩ := validateWorkflow_ok hvalid
  obtain ⟨-, hready⟩ := buildJobsRuntimeInfo_built hbuilt hwell.ids_nodup
  intro j hj
  obtain ⟨p, hp, rfl⟩ := List.mem_map.mp hj
  obtain ⟨d, hd, rfl⟩ := List.mem_map.mp (hready.mem_iff.mp hp)
  exact ⟨_, List.mem_map_of_mem (List.mem_filter.mp hd).1, rfl⟩

/-- From the point where the request is stored, no row is disturbed if the id has none to clean up. -/
theorem leads_createWorkflow_rows {svc : Service} {client : ClientConfig} {db : Sqlite}
    (hkeeps : KeepsRows db w.sqlite)
    (hfree : ¬ Throws client.policy req.jobs → FreeOf req.identity db) :
    Leads (createWorkflow svc client req) w (fun _ w' => KeepsRows db w'.sqlite) := by
  have hbuild : buildJobsRuntimeInfo svc.uuids client.policy req.jobs = .threw ↔ _ :=
    buildJobsRuntimeInfo_threw_iff
  have hfiles : ∀ {α : Type} {p : Task α} {w₁ : World}, p.OnlyCalls (Call.Files req) →
      ¬ Throws client.policy req.jobs → KeepsRows db w₁.sqlite →
      Leads p w₁ (fun _ w' => KeepsRows db w'.sqlite) := by
    intro α p w₁ hp hreads h₁
    exact leads_keeps (I := fun w' => KeepsRows db w'.sqlite) hp
      (fun c hc e w' => KeepsRows.files (hfree hreads) hc e w') h₁
  have hreject : ∀ stage reason {w₁ : World}, ¬ Throws client.policy req.jobs →
      KeepsRows db w₁.sqlite → Leads (some <$> handleRejection req stage reason) w₁
        (fun _ w' => KeepsRows db w'.sqlite) := by
    intro stage reason w₁ hreads h₁
    exact (hfiles (handleRejection_files req stage reason) hreads h₁).bind (fun _ _ h => h)
  unfold createWorkflow
  split
  · exact hkeeps
  · rename_i hviolation
    rw [hviolation] at hbuild
    exact hreject _ _ (fun h => nomatch hbuild.mpr h) hkeeps
  · rename_i info ready hbuilt
    have hreads : ¬ Throws client.policy req.jobs := fun h => nomatch hbuilt.symm.trans (hbuild.mpr h)
    split
    · exact hreject _ _ hreads hkeeps
    · rename_i linked hvalid
      refine ((hfiles (persistWorkflow_files req svc linked) hreads hkeeps).and
        (leads_persistWorkflow_new svc linked)).bind (fun r w₁ h₁ => ?_)
      obtain ⟨h₁, hnew⟩ := h₁
      cases r with
      | error code => exact hreject _ _ hreads h₁
      | ok _ =>
          have hready : ∀ row ∈ db.jobs, ∀ j ∈ ready.map PrioritizedJob.jobId,
              row.key ≠ ⟨req.identity, j⟩ := by
            intro row hrow j hj
            obtain ⟨d, hd, rfl⟩ := ready_stored hbuilt hvalid j hj
            exact hnew rfl row (hkeeps.jobs.subset hrow) d hd
          have hinit : Leads (initializeRuntimeData svc client.policy req ready linked) w₁
              (fun _ w' => KeepsRows db w'.sqlite) :=
            leads_keeps (I := fun w' => KeepsRows db w'.sqlite)
              (initializeRuntimeData_prepares svc client.policy req ready linked)
              (fun c hc e w' => KeepsRows.prepares hready hc e w') h₁
          refine hinit.bind (fun stored w₂ h₂ => ?_)
          split
          · exact (hfiles (handleRequestAccepted_files req) hreads h₂).bind (fun _ _ h => h)
          · exact hreject _ _ hreads h₂

/-- No submission disturbs earlier work when the id has no rows to clean up, or when it is rejected
before anything is cleaned up. -/
theorem leads_submitWorkflow_undisturbed {svc : Service} {client : ClientConfig}
    (hclient : svc.client req.clientId = some client)
    (hfree : (∃ now, PassesRedis now (svc.admitArgs client req) w.redis) →
      PassesSqlite client req w.sqlite → ¬ Throws client.policy req.jobs →
      FreeOf req.identity w.sqlite) :
    Leads (submitWorkflow svc (.request req)) w (fun _ w' => Undisturbed w w') := by
  have hcalls := submitWorkflow_submits req svc
  rw [submitWorkflow_eq hclient] at hcalls ⊢
  refine (leads_admitRequest_checks _).bind (fun r w₁ h₁ => ?_)
  obtain ⟨hkept, hsqlite, hredis⟩ := h₁
  cases r with
  | error code => exact hkept
  | ok _ =>
      obtain ⟨now, hpasses⟩ := hredis rfl
      have hinactive : req.workflowId ∉ w.redis.activeWorkflows req.clientId := hpasses.inactive
      have hactive : Leads (afterAdmission svc client req (.ok ())) w₁ (fun _ w' =>
          ∀ c, w.redis.activeWorkflows c ⊆ w'.redis.activeWorkflows c) :=
        leads_keeps (I := fun w' => ∀ c, w.redis.activeWorkflows c ⊆
          w'.redis.activeWorkflows c) (hcalls.2 (.ok ()))
          (fun c hc e w' => active_submits hinactive hc e w') hkept.active
      have hrows : Leads (afterAdmission svc client req (.ok ())) w₁ (fun _ w' =>
          KeepsRows w.sqlite w'.sqlite) := by
        refine (leads_persistRequest_checks client).bind (fun r w₂ h₂ => ?_)
        obtain ⟨hworkflows, hjobs, hpassed⟩ := h₂
        rw [hsqlite] at hworkflows hjobs hpassed
        have hkeeps : KeepsRows w.sqlite w₂.sqlite :=
          ⟨hworkflows ▸ List.prefix_rfl, hjobs ▸ List.prefix_rfl⟩
        cases r with
        | error code =>
            intro e₁ _ e₂ _ e₃ _
            exact ((hkeeps.exec rfl e₁).exec rfl e₂).exec rfl e₃
        | ok _ => exact leads_createWorkflow_rows hkeeps (hfree ⟨now, hpasses⟩ (hpassed rfl))
      exact (hrows.and hactive).mono (fun _ _ h => ⟨h.1, h.2⟩)

end Undisturbed

/-! ## When a rejection disturbs earlier work -/

section Disturbed

open WorkflowAdmissionService WorkflowRuntimeGenerator AdmissionFailureHandler

variable {w : World} {req : WorkflowRequest}

/-- What the cleanup writes to the row of the workflow. -/
def failedAt (now : Int) (row : WorkflowRow) : WorkflowRow :=
  { row with status := .failed, completedAt := some now }

theorem workflows_updateWorkflowStatus_failed (now : Int) (id : WorkflowIdentity) (db : Sqlite) :
    (db.updateWorkflowStatus now id .failed).2.workflows =
      updateWhere (WorkflowRow.isOf id) (failedAt now) db.workflows := by
  rw [Sqlite.updateWorkflowStatus, WorkflowRow.transition]
  dsimp only
  split
  · rfl
  · rename_i hnone
    refine (updateWhere_eq_self_iff.mpr (fun row hrow hid => ?_)).symm
    exact absurd (List.any_eq_true.mpr ⟨row, hrow, hid⟩) hnone

/-- A rejection past `persist_request` writes to every row that goes by the id of the request. -/
theorem ensures_handleRejection (now : Int) {stage : AdmissionStage} (reason : StatusCode)
    (hstage : AdmissionStage.persistRequest.index < stage.index) :
    Prog.Ensures Call.exec (fun e => e.ok = true ∧ e.time = now) (fun r w' => r.valid = false ∧
      w'.sqlite.workflows =
        updateWhere (WorkflowRow.isOf req.identity) (failedAt now) w.sqlite.workflows ∧
      w'.sqlite.jobs = (w.sqlite.failAllJobsWaitingToRun req.identity).jobs)
      (handleRejection req stage reason) w := by
  unfold handleRejection
  rw [if_pos hstage.le, if_pos hstage]
  intro e₁ h₁ e₂ h₂ e₃ h₃ e₄ h₄ e₅ h₅ e₆ h₆
  rw [exec_answered h₁.1, exec_answered h₂.1, exec_answered h₃.1, exec_answered h₄.1,
    exec_answered h₅.1, exec_answered h₆.1]
  refine ⟨rfl, ?_, Sqlite.jobs_updateWorkflowStatus ..⟩
  rw [← h₆.2]
  exact workflows_updateWorkflowStatus_failed ..

/-- If no rejection past `persist_request` disturbs earlier work, the id had no rows to clean up. -/
theorem freeOf_of_undisturbed {w₁ : World} {stage : AdmissionStage} {reason : StatusCode}
    (hstage : AdmissionStage.persistRequest.index < stage.index)
    (hworkflows : w₁.sqlite.workflows = w.sqlite.workflows) (hjobs : w₁.sqlite.jobs = w.sqlite.jobs)
    (h : Leads (some <$> handleRejection req stage reason) w₁ (fun result w' =>
      ∀ r, result = some r → r.valid = false → Undisturbed w w')) :
    FreeOf req.identity w.sqlite := by
  have hkeeps : ∀ now : Int,
      w.sqlite.workflows <+:
        updateWhere (WorkflowRow.isOf req.identity) (failedAt now) w.sqlite.workflows ∧
      w.sqlite.jobs <+: (w.sqlite.failAllJobsWaitingToRun req.identity).jobs := by
    intro now
    have hrows : Prog.Ensures Call.exec _ _ (handleRejection req stage reason) w₁ :=
      ensures_handleRejection now reason hstage
    have hquiet := Prog.Ensures.of_bind (h.anti (fun e (_ : e.ok = true ∧ e.time = now) => trivial))
    obtain ⟨⟨hvalid, hworkflow, hjob⟩, hundisturbed⟩ :=
      (hrows.and hquiet).run (fun _ => { time := now }) (fun _ => ⟨rfl, rfl⟩)
    obtain ⟨hkept, -⟩ := hundisturbed _ rfl hvalid
    have hworkflowRows := hkept.workflows
    have hjobRows := hkept.jobs
    rw [hworkflow, hworkflows] at hworkflowRows
    rw [hjob, Sqlite.failAllJobsWaitingToRun, hjobs] at hjobRows
    exact ⟨hworkflowRows, hjobRows⟩
  constructor
  · intro hmem
    obtain ⟨row, hrow, hid⟩ := List.mem_map.mp hmem
    -- The cleanup at another time than the one that is recorded changes the row.
    have hsame := eq_of_prefix_updateWhere (hkeeps (row.completedAt.getD 0 + 1)).1 row hrow
      (decide_eq_true hid)
    have hcompleted : some (row.completedAt.getD 0 + 1) = row.completedAt :=
      congrArg WorkflowRow.completedAt hsame
    rw [← hcompleted, Option.getD_some] at hcompleted
    exact absurd (Option.some.inj hcompleted) (by omega)
  · intro row hrow hid hwaiting
    have hsame := eq_of_prefix_updateWhere (hkeeps 0).2 row hrow (by
      rcases hwaiting with h | h | h <;> simp [hid, h])
    have hstatus : JobStatus.aborted = row.status := congrArg JobRow.status hsame
    rw [JobRow.Waiting, ← hstatus] at hwaiting
    rcases hwaiting with h | h | h <;> cases h

theorem freeOf_of_leads {svc : Service} {client : ClientConfig}
    (hclient : svc.client req.clientId = some client)
    (hredis : ∃ now, PassesRedis now (svc.admitArgs client req) w.redis)
    (hsqlite : PassesSqlite client req w.sqlite) (hreads : ¬ Throws client.policy req.jobs)
    (h : Leads (submitWorkflow svc (.request req)) w (fun result w' =>
      ∀ r, result = some r → r.valid = false → Undisturbed w w')) :
    FreeOf req.identity w.sqlite := by
  obtain ⟨now, hredis⟩ := hredis
  rw [submitWorkflow_eq hclient] at h
  have hok : (Call.exec (.admitRequest (svc.admitArgs client req)) { redisTime := now } w).1 = .ok () :=
    Redis.admitRequest_ok_iff.mpr hredis
  replace h := Prog.Ensures.of_bind h { redisTime := now } trivial
  change Leads (afterAdmission svc client req
    (Call.exec (.admitRequest (svc.admitArgs client req)) { redisTime := now } w).1)
    { w with redis := (w.redis.admitRequest now (svc.admitArgs client req)).2 } _ at h
  rw [hok] at h
  have hanswered : ∀ e : Env, e.ok = true → True := fun _ _ => trivial
  have hstored := ((settles_persistRequest client).and
    ((leads_persistRequest_checks client).anti hanswered)).and ((Prog.Ensures.of_bind h).anti hanswered)
  obtain ⟨⟨⟨-, hstored, -⟩, hworkflows, hjobs, -⟩, h⟩ := hstored.run (fun _ => {}) (fun _ => rfl)
  rw [hstored.mpr hsqlite] at h
  change Leads (createWorkflow svc client req) _ _ at h
  have hbuild : buildJobsRuntimeInfo svc.uuids client.policy req.jobs = .threw ↔ _ :=
    buildJobsRuntimeInfo_threw_iff
  unfold createWorkflow at h
  split at h
  · rename_i hthrew
    exact absurd (hbuild.mp hthrew) hreads
  · exact freeOf_of_undisturbed (by decide) hworkflows hjobs h
  · split at h
    · exact freeOf_of_undisturbed (by decide) hworkflows hjobs h
    · -- the insert of the workflow fails
      exact freeOf_of_undisturbed (by decide) hworkflows hjobs (h { ok := false } trivial)

end Disturbed

/-- A rejected submission leaves earlier work as it was, whatever the stores answer, exactly when the id
of a request that is stored and read has no row that the cleanup writes to. -/
theorem rejection_undisturbed_iff (svc : Service) (body : Body) (w : World) :
    (∀ (env : Nat → Env) (r : ValidationResult) (w' : World),
      Prog.run Call.exec env (WorkflowAdmissionService.submitWorkflow svc body) w = (some r, w') →
      r.valid = false → Undisturbed w w') ↔
    ∀ req client, body = .request req → svc.client req.clientId = some client →
      (∃ now, PassesRedis now (svc.admitArgs client req) w.redis) →
      PassesSqlite client req w.sqlite → ¬ Throws client.policy req.jobs →
      FreeOf req.identity w.sqlite := by
  constructor
  · rintro h req client rfl hclient hredis hsqlite hreads
    refine freeOf_of_leads hclient hredis hsqlite hreads ?_
    refine Prog.ensures_of_runFrom {} trivial 0 (fun env _ r hr hvalid => ?_)
    exact h env r _ (Prod.ext hr rfl) hvalid
  · intro hfree env r w' hrun _
    have hquiet : Leads (WorkflowAdmissionService.submitWorkflow svc body) w
        (fun _ w' => Undisturbed w w') := by
      cases body with
      | invalidJson what => exact ⟨.refl _, fun _ => subset_rfl⟩
      | schemaViolation what => exact ⟨.refl _, fun _ => subset_rfl⟩
      | request req =>
          cases hclient : svc.client req.clientId with
          | some client =>
              exact leads_submitWorkflow_undisturbed hclient (hfree req client rfl hclient)
          | none =>
              unfold WorkflowAdmissionService.submitWorkflow
              dsimp only
              rw [hclient]
              exact ⟨.refl _, fun _ => subset_rfl⟩
    have hend := hquiet.run env
    rw [hrun] at hend
    exact hend

/-- The stores after a workflow has finished. -/
def afterFinished : World where
  sqlite := {
    workflows := [{ identity := ⟨"client", "workflow"⟩, workflowType := "batch", version := "v1.0",
                    status := .completed, totalJobs := 1, receivedAt := 1, completedAt := some 9 }]
    jobs := [{ jobUuid := 0, key := ⟨⟨"client", "workflow"⟩, "a"⟩, status := .completed }] }

/-- A finished workflow whose id is submitted once more under a new request id: the submission is
rejected because the id exists, and the row of the finished workflow becomes FAILED. -/
theorem rejection_fails_finished :
    let result := Prog.run Call.exec (fun _ => { time := 20 }) (WorkflowAdmissionService.submitWorkflow
      (serviceOf 2) (.request { requestOf [{ jobId := "a" }] with requestId := "again" })) afterFinished
    result.1 = some ⟨false, .workflowIdExists, StatusCode.workflowIdExists.text⟩ ∧
      afterFinished.sqlite.workflows.map (fun row => (row.status, row.completedAt)) =
        [(.completed, some 9)] ∧
      result.2.sqlite.workflows.map (fun row => (row.status, row.completedAt)) =
        [(.failed, some 20)] := by
  decide +kernel

end FlowPilot
