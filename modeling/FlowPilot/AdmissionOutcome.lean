import FlowPilot.AdmissionLedger
import FlowPilot.AdmissionStages
import FlowPilot.RuntimeAlone

/-! What a submission leaves behind when it does not end with an accepted workflow: the slot it took in
the client's active set, and the row it wrote to `workflow_requests`. Every store answers every call
here; what is looked at are the exits of `submit_workflow`. -/

namespace FlowPilot

/-! ## The exits -/

section Exits

open WorkflowAdmissionService WorkflowRuntimeGenerator AdmissionFailureHandler

variable {w : World} {req : WorkflowRequest}

theorem inactive_exec {client wf : String} {c : Call} (hc : c.admitArgs = none) (e : Env)
    (h : wf ∉ w.redis.activeWorkflows client) :
    wf ∉ (c.exec e w).2.redis.activeWorkflows client := by
  obtain ⟨wf', hadmitted, -⟩ | ⟨wf', -, hset⟩ | ⟨-, hset⟩ := activeWorkflows_exec client c e w
  · obtain ⟨args, hcall, -⟩ := admittedWorkflow_eq_some.mp hadmitted
    rw [show c = .admitRequest args from hcall] at hc
    cases hc
  · rw [hset]
    exact fun hmem => h (Finset.mem_of_mem_erase hmem)
  · rw [hset]
    exact h

/-- The selection of the row of a request, and what a conclusion writes to it. -/
def isRequest (req : WorkflowRequest) (row : RequestRow) : Bool :=
  row.clientId == req.clientId && row.requestId == req.requestId

def conclude (st : RequestStatus) (reason : String) (row : RequestRow) : RequestRow :=
  { row with status := st, rejectReason := reason }

/-- A rejection after the request was stored gives the slot back; past `persist_request` it is also
recorded. -/
theorem settles_handleRejection {stage : AdmissionStage} (reason : StatusCode)
    (hstage : AdmissionStage.persistRequest.index ≤ stage.index) :
    Settles (handleRejection req stage reason) w (fun r w' =>
      r = ⟨false, reason, reason.text⟩ ∧ req.workflowId ∉ w'.redis.activeWorkflows req.clientId ∧
      w'.sqlite.requests =
        if AdmissionStage.persistRequest.index < stage.index then
          updateWhere (isRequest req) (conclude .rejected reason.text) w.sqlite.requests
        else w.sqlite.requests) := by
  have hrelease : Settles (updateRedisRequestStatus req .rejected) w (fun _ w' =>
      req.workflowId ∉ w'.redis.activeWorkflows req.clientId ∧ w'.sqlite = w.sqlite) := by
    intro e₁ h₁ e₂ h₂ e₃ h₃
    rw [exec_answered h₁, exec_answered h₂, exec_answered h₃]
    refine ⟨?_, rfl⟩
    rw [show (Call.carryOut (.removeActiveWorkflow req.identity) e₃ _).2.redis.activeWorkflows
      req.clientId = Finset.erase _ _ from Function.update_self ..]
    exact Finset.notMem_erase _ _
  have hrecord : ∀ w₁ : World, req.workflowId ∉ w₁.redis.activeWorkflows req.clientId →
      Settles (do
        let _ ← (ask (.updateRequestStatus req.clientId req.requestId .rejected reason.text) :
          Task Bool)
        failWorkflow req.identity
        pure ⟨false, reason, reason.text⟩ : Task ValidationResult) w₁ (fun r w' =>
          r = ⟨false, reason, reason.text⟩ ∧
          req.workflowId ∉ w'.redis.activeWorkflows req.clientId ∧
          w'.sqlite.requests =
            updateWhere (isRequest req) (conclude .rejected reason.text) w₁.sqlite.requests) := by
    intro w₁ hw₁ e₁ h₁ e₂ h₂ e₃ h₃
    refine ⟨rfl, inactive_exec rfl e₃ (inactive_exec rfl e₂ (inactive_exec rfl e₁ hw₁)), ?_⟩
    rw [exec_answered h₁, exec_answered h₂, exec_answered h₃]
    exact Sqlite.requests_updateWorkflowStatus ..
  unfold handleRejection
  rw [if_pos hstage]
  refine hrelease.bind (fun _ w₁ hw₁ => ?_)
  split
  · rw [← hw₁.2]
    exact hrecord w₁ hw₁.1
  · exact ⟨rfl, hw₁.1, by rw [hw₁.2]⟩

/-- What `update_request_status` records of a result. -/
def recorded (r : ValidationResult) : RequestRow → RequestRow :=
  if r.valid then conclude .admitted StatusCode.workflowAdmitted.text
  else conclude .rejected r.errorsMsg

theorem settles_handleRequestAccepted : Settles (handleRequestAccepted req) w (fun r w' =>
    r.valid = true ∧
      w'.sqlite.requests = updateWhere (isRequest req) (recorded r) w.sqlite.requests) := by
  intro e₁ h₁ e₂ h₂
  refine ⟨rfl, ?_⟩
  rw [exec_answered h₁, exec_answered h₂]
  rfl

theorem settles_persistWorkflow (svc : Service) (info : JobRuntimeMap) :
    Settles (persistWorkflow svc req info) w (fun _ w' => w'.sqlite.requests = w.sqlite.requests) := by
  have hcalls : (persistWorkflow svc req info).OnlyCalls (fun c => c.writesRequests = false) := by
    have hask : ∀ {c : Call}, c.writesRequests = false →
        (ask c).OnlyCalls (fun c => c.writesRequests = false) := fun h => onlyCalls_ask h
    refine (hask rfl).bind (fun r => ?_)
    cases r with
    | error code => trivial
    | ok _ =>
        refine (hask rfl).bind (fun stored => ?_)
        split
        · exact (hask rfl).bind (fun _ => trivial)
        · exact (hask rfl).bind (fun _ => trivial)
  exact settles_keeps hcalls (fun _ hc e w => requests_exec hc e w)

theorem settles_initializeRuntimeData (svc : Service) (policy : PolicyPlan)
    (ready : List PrioritizedJob) (info : JobRuntimeMap) :
    Settles (initializeRuntimeData svc policy req ready info) w
      (fun _ w' => w'.sqlite.requests = w.sqlite.requests) := by
  refine settles_keeps (initializeRuntimeData_prepares svc policy req ready info)
    (fun c hc e w => requests_exec ?_ e w)
  obtain ⟨hc, -⟩ | ⟨queued, waiting, rfl, -⟩ := hc
  · cases c <;> first | rfl | cases hc
  · rfl

/-- Reading the jobs throws, or the workflow is accepted, or the slot is given back; what is returned
is recorded. -/
def Created (client : ClientConfig) (req : WorkflowRequest) (w : World)
    (result : Option ValidationResult) (w' : World) : Prop :=
  (result = none ∧ Throws client.policy req.jobs ∧ w' = w) ∨
  ∃ r, result = some r ∧ ¬ Throws client.policy req.jobs ∧
    (r.valid = true ∨ req.workflowId ∉ w'.redis.activeWorkflows req.clientId) ∧
    w'.sqlite.requests = updateWhere (isRequest req) (recorded r) w.sqlite.requests

theorem settles_createWorkflow (svc : Service) (client : ClientConfig) :
    Settles (createWorkflow svc client req) w (Created client req w) := by
  have hreject : ∀ stage reason (w₁ : World), AdmissionStage.persistRequest.index < stage.index →
      w₁.sqlite.requests = w.sqlite.requests → ¬ Throws client.policy req.jobs →
      Settles (some <$> handleRejection req stage reason) w₁ (Created client req w) := by
    intro stage reason w₁ hstage hsame hreads
    refine (settles_handleRejection reason hstage.le).bind (fun r w' hr => ?_)
    obtain ⟨rfl, hreleased, hrequests⟩ := hr
    rw [if_pos hstage, hsame] at hrequests
    exact .inr ⟨_, rfl, hreads, .inr hreleased, hrequests⟩
  have hbuild : buildJobsRuntimeInfo svc.uuids client.policy req.jobs = .threw ↔ _ :=
    buildJobsRuntimeInfo_threw_iff
  unfold createWorkflow
  split
  · rename_i hthrew
    exact .inl ⟨rfl, hbuild.mp hthrew, rfl⟩
  · rename_i hviolation
    rw [hviolation] at hbuild
    exact hreject _ _ w (by decide) rfl (fun h => nomatch hbuild.mpr h)
  · rename_i info ready hbuilt
    rw [hbuilt] at hbuild
    have hreads : ¬ Throws client.policy req.jobs := fun h => nomatch hbuild.mpr h
    split
    · exact hreject _ _ w (by decide) rfl hreads
    · refine (settles_persistWorkflow svc _).bind (fun r w₁ h₁ => ?_)
      cases r with
      | error code => exact hreject _ _ w₁ (by decide) h₁ hreads
      | ok _ =>
          refine (settles_initializeRuntimeData svc _ _ _).bind (fun stored w₂ h₂ => ?_)
          split
          · refine settles_handleRequestAccepted.bind (fun r w' hr => ?_)
            rw [h₂, h₁] at hr
            exact .inr ⟨r, rfl, hreads, .inl hr.1, hr.2⟩
          · exact hreject _ _ w₂ (by decide) (h₂.trans h₁) hreads

/-- The row `add_request` inserts. -/
def receivedRow (req : WorkflowRequest) (now : Int) : RequestRow :=
  ⟨req.clientId, req.requestId, req.workflowId, req.bodySize, .received, "", now⟩

theorem settles_insertRequest (row : RequestRow) :
    Settles (ask (.insertRequest row)) w (fun r w' =>
      if Sqlite.requestKey row ∈ w.sqlite.requestKeys then r = .error .duplicateRequest ∧ w' = w
      else r = .ok () ∧ ∃ now, w' = { w with sqlite := { w.sqlite with
        requests := w.sqlite.requests ++ [{ row with receivedAt := now }] } }) := by
  refine settles_ask (fun e => ?_)
  rw [Call.carryOut]
  by_cases hmem : Sqlite.requestKey row ∈ w.sqlite.requestKeys
  · rw [if_pos hmem, Sqlite.insertRequest_of_mem { row with receivedAt := e.time } hmem]
    exact ⟨rfl, rfl⟩
  · rw [if_neg hmem, Sqlite.insertRequest_of_notMem { row with receivedAt := e.time } hmem]
    exact ⟨rfl, e.time, rfl⟩

/-- `persist_request` touches SQLite only. It inserts the row when the key is free, and succeeds when
its other checks pass too. -/
theorem settles_persistRequest (client : ClientConfig) :
    Settles (persistRequest client req) w (fun r w' =>
      w'.redis = w.redis ∧ (r = .ok () ↔ PassesSqlite client req w.sqlite) ∧
      if (req.clientId, req.requestId) ∈ w.sqlite.requestKeys then
        w'.sqlite.requests = w.sqlite.requests
      else ∃ now, w'.sqlite.requests = w.sqlite.requests ++ [receivedRow req now]) := by
  refine (settles_insertRequest (receivedRow req 0)).bind (fun r w₁ h₁ => ?_)
  by_cases hmem : (req.clientId, req.requestId) ∈ w.sqlite.requestKeys
  · rw [if_pos (show Sqlite.requestKey (receivedRow req 0) ∈ _ from hmem)] at h₁
    obtain ⟨rfl, rfl⟩ := h₁
    simp only [if_pos hmem]
    exact ⟨rfl, ⟨nofun, fun h => absurd hmem h.request⟩, rfl⟩
  · rw [if_neg (show ¬ Sqlite.requestKey (receivedRow req 0) ∈ _ from hmem)] at h₁
    obtain ⟨rfl, now, rfl⟩ := h₁
    simp only [if_neg hmem]
    intro e he
    rw [exec_answered he]
    change Settles (ite _ _ _) _ _
    split
    · rename_i hcount
      exact ⟨rfl, ⟨nofun, fun h => absurd h.active (not_lt.mpr hcount)⟩, now, rfl⟩
    · rename_i hcount
      split
      · rename_i hsize
        exact ⟨rfl, ⟨nofun, fun h => absurd h.size (not_le.mpr hsize)⟩, now, rfl⟩
      · rename_i hsize
        exact ⟨rfl, ⟨fun _ => ⟨hmem, not_le.mp hcount, not_lt.mp hsize⟩, fun _ => rfl⟩, now, rfl⟩

/-- What a submission does with the answer of the admission script. -/
def afterAdmission (svc : Service) (client : ClientConfig) (req : WorkflowRequest) :
    Except StatusCode Unit → Task (Option ValidationResult)
  | .error code => some <$> handleRejection req .admitRequest code
  | .ok _ => do
      match ← persistRequest client req with
      | .error code => some <$> handleRejection req .persistRequest code
      | .ok _ => createWorkflow svc client req

theorem submitWorkflow_eq {svc : Service} {client : ClientConfig} {req : WorkflowRequest}
    (hclient : svc.client req.clientId = some client) :
    submitWorkflow svc (.request req) =
      (ask (.admitRequest (svc.admitArgs client req)) >>= afterAdmission svc client req) := by
  unfold submitWorkflow
  dsimp only
  rw [hclient]
  refine congrArg (Prog.call _) (funext (fun r => ?_))
  cases r <;> rfl

/-- How a submission that Redis admitted ends, and what it leaves behind. -/
inductive Outcome (client : ClientConfig) (req : WorkflowRequest) (w w' : World) :
    Option ValidationResult → Prop where
  | threw {now : Int} (hsqlite : PassesSqlite client req w.sqlite)
      (hthrows : Throws client.policy req.jobs) (hredis : w'.redis = w.redis)
      (hrequests : w'.sqlite.requests = w.sqlite.requests ++ [receivedRow req now]) :
      Outcome client req w w' none
  | duplicate {r : ValidationResult} (hvalid : r.valid = false)
      (hkey : (req.clientId, req.requestId) ∈ w.sqlite.requestKeys)
      (hreleased : req.workflowId ∉ w'.redis.activeWorkflows req.clientId)
      (hrequests : w'.sqlite.requests = w.sqlite.requests) : Outcome client req w w' (some r)
  | refused {r : ValidationResult} {now : Int} (hvalid : r.valid = false)
      (hkey : (req.clientId, req.requestId) ∉ w.sqlite.requestKeys)
      (hsqlite : ¬ PassesSqlite client req w.sqlite)
      (hreleased : req.workflowId ∉ w'.redis.activeWorkflows req.clientId)
      (hrequests : w'.sqlite.requests = w.sqlite.requests ++ [receivedRow req now]) :
      Outcome client req w w' (some r)
  | concluded {r : ValidationResult} {now : Int} (hsqlite : PassesSqlite client req w.sqlite)
      (hreads : ¬ Throws client.policy req.jobs)
      (hslot : r.valid = true ∨ req.workflowId ∉ w'.redis.activeWorkflows req.clientId)
      (hrequests : w'.sqlite.requests = w.sqlite.requests ++ [recorded r (receivedRow req now)]) :
      Outcome client req w w' (some r)

theorem updateWhere_isRequest {rows : List RequestRow}
    (h : (req.clientId, req.requestId) ∉ rows.map Sqlite.requestKey) (change : RequestRow → RequestRow) :
    updateWhere (isRequest req) change rows = rows := by
  refine updateWhere_eq_self_iff.mpr (fun row hrow hsame => ?_)
  refine absurd (List.mem_map.mpr ⟨row, hrow, ?_⟩) h
  simpa [isRequest, Sqlite.requestKey] using hsame

theorem settles_afterAdmission (svc : Service) (client : ClientConfig) (req : WorkflowRequest)
    (w : World) :
    Settles (afterAdmission svc client req (.ok ())) w
      (fun result w' => Outcome client req w w' result) := by
  refine (settles_persistRequest client).bind (fun r w₁ h₁ => ?_)
  obtain ⟨hredis, hok, hrequests⟩ := h₁
  cases r with
  | error code =>
      have hsqlite : ¬ PassesSqlite client req w.sqlite := fun h => nomatch hok.mpr h
      refine (settles_handleRejection code (le_refl _)).bind (fun r w' hr => ?_)
      obtain ⟨rfl, hreleased, hsame⟩ := hr
      rw [if_neg (lt_irrefl _)] at hsame
      by_cases hkey : (req.clientId, req.requestId) ∈ w.sqlite.requestKeys
      · rw [if_pos hkey] at hrequests
        exact Outcome.duplicate rfl hkey hreleased (hsame.trans hrequests)
      · rw [if_neg hkey] at hrequests
        obtain ⟨now, hrow⟩ := hrequests
        exact Outcome.refused rfl hkey hsqlite hreleased (hsame.trans hrow)
  | ok _ =>
      have hsqlite := hok.mp rfl
      rw [if_neg hsqlite.request] at hrequests
      obtain ⟨now, hrow⟩ := hrequests
      refine (settles_createWorkflow svc client).mono (fun result w' h => ?_)
      obtain ⟨rfl, hthrows, rfl⟩ | ⟨r, rfl, hreads, hslot, hrecorded⟩ := h
      · exact Outcome.threw hsqlite hthrows hredis hrow
      · have hrequests : w'.sqlite.requests =
            w.sqlite.requests ++ [recorded r (receivedRow req now)] := by
          rw [hrecorded, hrow, updateWhere, List.map_append]
          refine congrArg₂ _ (updateWhere_isRequest hsqlite.request _) ?_
          simp [isRequest, receivedRow]
        exact Outcome.concluded hsqlite hreads hslot hrequests

end Exits

/-- How a submission of a known client ends when every call is answered: Redis rejects it and nothing
else happens, or it ends as one that Redis admitted. -/
theorem submitWorkflow_outcome {svc : Service} {client : ClientConfig} {req : WorkflowRequest}
    (hclient : svc.client req.clientId = some client) (env : Nat → Env)
    (henv : ∀ n, (env n).ok = true) (w : World) {result : Option ValidationResult} {w' : World}
    (hrun : Prog.run Call.exec env (WorkflowAdmissionService.submitWorkflow svc (.request req)) w =
      (result, w')) :
    (¬ PassesRedis (env 0).redisTime (svc.admitArgs client req) w.redis ∧
      (∃ r, result = some r ∧ r.valid = false) ∧
      w'.redis.activeWorkflows = w.redis.activeWorkflows ∧ w'.sqlite = w.sqlite) ∨
    (PassesRedis (env 0).redisTime (svc.admitArgs client req) w.redis ∧ ∃ w₁ : World,
      w₁.sqlite = w.sqlite ∧ req.workflowId ∈ w₁.redis.activeWorkflows req.clientId ∧
      Outcome client req w₁ w' result) := by
  rw [submitWorkflow_eq hclient] at hrun
  let args := svc.admitArgs client req
  have hfirst : Prog.run Call.exec env (ask (.admitRequest args) >>= afterAdmission svc client req) w =
      (Prog.runFrom Call.exec env 1 (afterAdmission svc client req
        (w.redis.admitRequest (env 0).redisTime args).1)
        { w with redis := (w.redis.admitRequest (env 0).redisTime args).2 }).2 := by
    have hexec : Call.exec (.admitRequest args) (env 0) w =
        ((w.redis.admitRequest (env 0).redisTime args).1,
          { w with redis := (w.redis.admitRequest (env 0).redisTime args).2 }) :=
      exec_answered (henv 0)
    change (Prog.runFrom Call.exec env 1 (afterAdmission svc client req
      (Call.exec (.admitRequest args) (env 0) w).1) (Call.exec (.admitRequest args) (env 0) w).2).2 = _
    rw [hexec]
  rw [hfirst] at hrun
  by_cases hok : (w.redis.admitRequest (env 0).redisTime args).1 = .ok ()
  · right
    obtain ⟨-, -, -, hactive, -⟩ := Redis.admitRequest_admitted hok
    let w₁ : World := { w with redis := (w.redis.admitRequest (env 0).redisTime args).2 }
    have hmem : req.workflowId ∈ w₁.redis.activeWorkflows req.clientId := by
      change req.workflowId ∈ (w.redis.admitRequest _ _).2.activeWorkflows args.clientId
      rw [hactive, Function.update_self]
      exact Finset.mem_insert_self ..
    have houtcome := Prog.Ensures.runFrom (settles_afterAdmission svc client req w₁) env henv 1
    rw [hok] at hrun
    rw [hrun] at houtcome
    exact ⟨Redis.admitRequest_ok_iff.mp hok, w₁, rfl, hmem, houtcome⟩
  · left
    refine ⟨fun h => hok (Redis.admitRequest_ok_iff.mpr h), ?_⟩
    obtain ⟨hactive, -⟩ := Redis.admitRequest_rejected hok
    cases hreply : (w.redis.admitRequest (env 0).redisTime args).1 with
    | ok _ => exact absurd hreply hok
    | error code =>
        rw [hreply] at hrun
        cases hrun
        exact ⟨⟨_, rfl, rfl⟩, hactive, rfl⟩

/-! ## The slot in the active set -/

/-- A submission that is not accepted gives its slot back, unless it passes the checks of Redis and of
`add_request` and has a job that cannot be read before any that violates the policy. -/
theorem admissionSlot_released_iff {svc : Service} {client : ClientConfig} {req : WorkflowRequest}
    (hclient : svc.client req.clientId = some client) (env : Nat → Env)
    (henv : ∀ n, (env n).ok = true) (w : World) {result : Option ValidationResult} {w' : World}
    (hrun : Prog.run Call.exec env (WorkflowAdmissionService.submitWorkflow svc (.request req)) w =
      (result, w')) :
    ((¬ ∃ r, result = some r ∧ r.valid = true) →
        req.workflowId ∈ w'.redis.activeWorkflows req.clientId →
        req.workflowId ∈ w.redis.activeWorkflows req.clientId) ↔
      ¬ (PassesRedis (env 0).redisTime (svc.admitArgs client req) w.redis ∧
        PassesSqlite client req w.sqlite ∧ Throws client.policy req.jobs) := by
  obtain ⟨hredis, -, hactive, -⟩ | ⟨hredis, w₁, hsame, hmem, houtcome⟩ :=
    submitWorkflow_outcome hclient env henv w hrun
  · rw [hactive]
    exact ⟨fun _ h => hredis h.1, fun _ _ h => h⟩
  · have hinactive : req.workflowId ∉ w.redis.activeWorkflows req.clientId := hredis.inactive
    cases houtcome with
    | threw hsqlite hthrows hkept _ =>
        rw [hsame] at hsqlite
        refine ⟨fun h => absurd (h nofun (by rwa [hkept])) hinactive, fun h => ?_⟩
        exact absurd ⟨hredis, hsqlite, hthrows⟩ h
    | duplicate _ hkey hreleased _ =>
        rw [hsame] at hkey
        exact ⟨fun _ h => h.2.1.request hkey, fun _ _ h => absurd h hreleased⟩
    | refused _ _ hsqlite hreleased _ =>
        rw [hsame] at hsqlite
        exact ⟨fun _ h => hsqlite h.2.1, fun _ _ h => absurd h hreleased⟩
    | concluded _ hreads hslot _ =>
        refine ⟨fun _ h => hreads h.2.2, fun _ hnot h => ?_⟩
        obtain hvalid | hreleased := hslot
        · exact absurd ⟨_, rfl, hvalid⟩ hnot
        · exact absurd h hreleased

/-- A submission run alone in an empty world. -/
def submitted (req : WorkflowRequest) : Option ValidationResult × World :=
  Prog.run Call.exec (fun _ => {})
    (WorkflowAdmissionService.submitWorkflow (serviceOf 2) (.request req)) {}

def largeBody : WorkflowRequest := { requestOf [{ jobId := "a" }] with bodySize := 2000000 }

theorem admissionSlot_released_largeBody :
    (submitted largeBody).1.map ValidationResult.valid = some false ∧
      "workflow" ∉ (submitted largeBody).2.redis.activeWorkflows "client" := by
  have hrun : Prog.run Call.exec (fun _ => {}) (WorkflowAdmissionService.submitWorkflow (serviceOf 2)
    (.request largeBody)) {} = ((submitted largeBody).1, (submitted largeBody).2) := rfl
  have hiff := admissionSlot_released_iff rfl (fun _ => {}) (fun _ => rfl) {} hrun
  have hrejected : (submitted largeBody).1.map ValidationResult.valid = some false := by
    decide +kernel
  refine ⟨hrejected, fun hmem => ?_⟩
  refine absurd (hiff.mpr (fun h => ?_) ?_ hmem) (by decide)
  · exact absurd h.2.1.size (by decide)
  · rintro ⟨r, hr, hvalid⟩
    rw [hr, Option.map_some, hvalid] at hrejected
    cases hrejected

/-- A job whose `timeout_sec` is no number: reading it throws after the slot was taken. -/
theorem admissionSlot_leaked :
    let req := requestOf [{ jobId := "a", timeoutSec := .illTyped }]
    (submitted req).1 = none ∧ req.workflowId ∈ (submitted req).2.redis.activeWorkflows req.clientId ∧
      req.workflowId ∉ ({} : World).redis.activeWorkflows req.clientId := by
  decide +kernel

/-! ## The record of the request -/

def RequestRow.Records (r : ValidationResult) (row : RequestRow) : Prop :=
  if r.valid then row.status = .admitted
  else row.status = .rejected ∧ row.rejectReason = r.errorsMsg

theorem recorded_records (r : ValidationResult) (row : RequestRow) :
    (recorded r row).Records r := by
  cases hvalid : r.valid with
  | true => simp [RequestRow.Records, recorded, hvalid, conclude]
  | false => simp [RequestRow.Records, recorded, hvalid, conclude]

/-- A row that a submission inserted records its result exactly when the checks that `add_request`
makes after the insert pass. The rows of earlier calls stay as they are. -/
theorem requestAudit_conclusive_iff (svc : Service) (body : Body) (env : Nat → Env)
    (henv : ∀ n, (env n).ok = true) (w : World) {result : Option ValidationResult} {w' : World}
    (hrun : Prog.run Call.exec env (WorkflowAdmissionService.submitWorkflow svc body) w =
      (result, w')) :
    w.sqlite.requests <+: w'.sqlite.requests ∧
      ((∀ req, body = .request req → (req.clientId, req.requestId) ∉ w.sqlite.requestKeys →
          ∀ row ∈ w'.sqlite.requests, Sqlite.requestKey row = (req.clientId, req.requestId) →
          ∀ r, result = some r → row.Records r) ↔
        ∀ req client, body = .request req → svc.client req.clientId = some client →
          PassesRedis (env 0).redisTime (svc.admitArgs client req) w.redis →
          (req.clientId, req.requestId) ∉ w.sqlite.requestKeys →
          (w.sqlite.getClientActiveWorkflowsCount req.clientId : Int) <
              client.maxConcurrentWorkflows ∧
            req.bodySize ≤ client.policy.maxWorkflowSizeKb * 1024) := by
  -- A submission that leaves SQLite alone has inserted no row.
  have hquiet : w'.sqlite = w.sqlite → w.sqlite.requests <+: w'.sqlite.requests ∧
      ∀ req, body = .request req → (req.clientId, req.requestId) ∉ w.sqlite.requestKeys →
        ∀ row ∈ w'.sqlite.requests, Sqlite.requestKey row = (req.clientId, req.requestId) →
        ∀ r, result = some r → row.Records r := by
    intro hsame
    rw [hsame]
    refine ⟨List.prefix_rfl, fun req _ hkey row hrow heq => ?_⟩
    exact absurd (List.mem_map.mpr ⟨row, hrow, heq⟩) hkey
  cases body with
  | invalidJson what =>
      obtain ⟨hrows, hrecords⟩ := hquiet (by cases hrun; rfl)
      exact ⟨hrows, fun _ _ _ => nofun, fun _ => hrecords⟩
  | schemaViolation what =>
      obtain ⟨hrows, hrecords⟩ := hquiet (by cases hrun; rfl)
      exact ⟨hrows, fun _ _ _ => nofun, fun _ => hrecords⟩
  | request req =>
      cases hclient : svc.client req.clientId with
      | none =>
          have hsame : w'.sqlite = w.sqlite := by
            unfold WorkflowAdmissionService.submitWorkflow at hrun
            dsimp only at hrun
            rw [hclient] at hrun
            cases hrun
            rfl
          obtain ⟨hrows, hrecords⟩ := hquiet hsame
          refine ⟨hrows, fun _ req' client hreq hclient' => ?_, fun _ => hrecords⟩
          cases hreq
          rw [hclient] at hclient'
          cases hclient'
      | some client =>
          obtain ⟨hredis, -, -, hsame⟩ | ⟨hredis, w₁, hsame, -, houtcome⟩ :=
            submitWorkflow_outcome hclient env henv w hrun
          · obtain ⟨hrows, hrecords⟩ := hquiet hsame
            refine ⟨hrows, fun _ req' client' hreq hclient' hredis' => ?_, fun _ => hrecords⟩
            cases hreq
            rw [hclient] at hclient'
            cases hclient'
            exact absurd hredis' hredis
          · have hcondition : (∀ req' client', Body.request req = .request req' →
                svc.client req'.clientId = some client' →
                PassesRedis (env 0).redisTime (svc.admitArgs client' req') w.redis →
                (req'.clientId, req'.requestId) ∉ w.sqlite.requestKeys →
                (w.sqlite.getClientActiveWorkflowsCount req'.clientId : Int) <
                    client'.maxConcurrentWorkflows ∧
                  req'.bodySize ≤ client'.policy.maxWorkflowSizeKb * 1024) ↔
                ((req.clientId, req.requestId) ∉ w.sqlite.requestKeys →
                  PassesSqlite client req w.sqlite) := by
              constructor
              · intro h hkey
                obtain ⟨hactive, hsize⟩ := h req client rfl hclient hredis hkey
                exact ⟨hkey, hactive, hsize⟩
              · intro h req' client' hreq hclient' _ hkey
                cases hreq
                rw [hclient] at hclient'
                cases hclient'
                exact ⟨(h hkey).active, (h hkey).size⟩
            rw [hcondition, ← hsame]
            cases houtcome with
            | threw hsqlite hthrows hkept hrequests =>
                rw [hrequests]
                exact ⟨List.prefix_append .., fun _ _ => hsqlite,
                  fun _ _ _ _ _ _ _ => nofun⟩
            | duplicate _ hkey _ hrequests =>
                rw [hrequests]
                refine ⟨List.prefix_rfl, fun _ hfree => absurd hkey hfree, fun _ req' hreq hfree => ?_⟩
                cases hreq
                exact absurd hkey hfree
            | @refused r now hvalid hkey hsqlite _ hrequests =>
                rw [hrequests]
                refine ⟨List.prefix_append .., fun h => ?_, fun h => absurd (h hkey) hsqlite⟩
                have hrecords := h req rfl hkey (receivedRow req now) (by simp) rfl r rfl
                simp [RequestRow.Records, hvalid, receivedRow] at hrecords
            | @concluded r now hsqlite _ _ hrequests =>
                rw [hrequests]
                refine ⟨List.prefix_append .., fun _ _ => hsqlite, ?_⟩
                intro _ req' hreq hfree row hrow hkey r' hr'
                cases hreq
                cases hr'
                obtain hrow | hrow := List.mem_append.mp hrow
                · exact absurd (List.mem_map.mpr ⟨row, hrow, hkey⟩) hfree
                · rw [List.mem_singleton.mp hrow]
                  exact recorded_records r _

theorem requestAudit_conclusive_oneJob :
    ∃ row r, row ∈ (submitted (requestOf [{ jobId := "a" }])).2.sqlite.requests ∧
      Sqlite.requestKey row = ("client", "request") ∧
      (submitted (requestOf [{ jobId := "a" }])).1 = some r ∧ row.Records r := by
  have haudit := requestAudit_conclusive_iff (serviceOf 2) (.request (requestOf [{ jobId := "a" }]))
    (fun _ => {}) (fun _ => rfl) {} rfl
  have hrow : ∃ row ∈ (submitted (requestOf [{ jobId := "a" }])).2.sqlite.requests,
      Sqlite.requestKey row = ("client", "request") := by decide +kernel
  obtain ⟨row, hmem, hkey⟩ := hrow
  obtain ⟨r, hr⟩ := Option.isSome_iff_exists.mp
    (show (submitted (requestOf [{ jobId := "a" }])).1.isSome = true by decide +kernel)
  refine ⟨row, r, hmem, hkey, hr, haudit.2.mpr (fun req client hreq hclient _ _ => ?_) _ rfl
    (by decide) row hmem hkey r hr⟩
  cases hreq
  cases hclient
  exact ⟨by decide, by decide⟩

/-- The body is too large, which `add_request` finds out after it has inserted the row; the rejection
does not record anything. -/
theorem requestAudit_left_received :
    (submitted largeBody).1 = some ⟨false, .workflowSizeExceeded, StatusCode.workflowSizeExceeded.text⟩ ∧
      (submitted largeBody).2.sqlite.requests = [receivedRow largeBody 0] := by
  decide +kernel

end FlowPilot
