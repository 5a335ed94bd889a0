import FlowPilot.AdmissionSubmit
import FlowPilot.BaseClaims
import FlowPilot.RuntimeRows

/-! A request id and a workflow id of a client are accepted at most once. Redis forgets: request keys
expire or are released, and the active set is emptied when workflows end. What decides are the two
primary keys of SQLite, whose rows are never deleted: a submission that is accepted has inserted both
rows itself. -/

namespace FlowPilot

/-! ## The claims of a submission -/

/-- The key that an insert into `workflow_requests` claims. -/
def requestClaim (c : Call) : c.Reply → Option (String × String) :=
  match c with
  | .insertRequest row => fun r : Except StatusCode Unit =>
      match r with
      | .ok _ => some (Sqlite.requestKey row)
      | .error _ => none
  | _ => fun _ => none

/-- The key that an insert into `workflows` claims. -/
def workflowClaim (c : Call) : c.Reply → Option WorkflowIdentity :=
  match c with
  | .addWorkflow row => fun r : Except StatusCode Unit =>
      match r with
      | .ok _ => some row.identity
      | .error _ => none
  | _ => fun _ => none

theorem requestClaim_exec {c : Call} {e : Env} {w : World} {key : String × String}
    (h : requestClaim c (c.exec e w).1 = some key) :
    key ∉ w.sqlite.requestKeys ∧ key ∈ (c.exec e w).2.sqlite.requestKeys := by
  cases c
  case insertRequest row =>
    cases hok : e.ok
    · simp [requestClaim, Call.exec, Call.isLocal, Call.failure, hok] at h
    · rw [Call.exec, hok, Bool.true_or, if_pos rfl, Call.carryOut] at h ⊢
      by_cases hmem : Sqlite.requestKey row ∈ w.sqlite.requestKeys
      · rw [Sqlite.insertRequest_of_mem { row with receivedAt := e.time } hmem] at h
        cases h
      · rw [Sqlite.insertRequest_of_notMem { row with receivedAt := e.time } hmem] at h ⊢
        cases h
        exact ⟨hmem, List.mem_map.mpr ⟨_, List.mem_append_right _ (List.mem_singleton_self _), rfl⟩⟩
  all_goals cases h

theorem workflowClaim_exec {c : Call} {e : Env} {w : World} {id : WorkflowIdentity}
    (h : workflowClaim c (c.exec e w).1 = some id) :
    id ∉ w.sqlite.workflowIds ∧ id ∈ (c.exec e w).2.sqlite.workflowIds := by
  cases c
  case addWorkflow row =>
    cases hok : e.ok
    · simp [workflowClaim, Call.exec, Call.isLocal, Call.failure, hok] at h
    · rw [Call.exec, hok, Bool.true_or, if_pos rfl, Call.carryOut] at h ⊢
      by_cases hmem : row.identity ∈ w.sqlite.workflowIds
      · rw [Sqlite.addWorkflow_of_mem { row with receivedAt := e.time } hmem] at h
        cases h
      · rw [Sqlite.addWorkflow_of_notMem { row with receivedAt := e.time } hmem] at h ⊢
        cases h
        exact ⟨hmem, List.mem_map.mpr ⟨_, List.mem_append_right _ (List.mem_singleton_self _), rfl⟩⟩
  all_goals cases h

section Submission

open WorkflowAdmissionService AdmissionFailureHandler

variable {K : Type} {claim : (c : Call) → c.Reply → Option K} {held : List K}

theorem handleRejection_claims (req : WorkflowRequest) (stage : AdmissionStage)
    (reason : StatusCode) :
    (Protocol.claims claim).FollowsTo (fun result _ => ∀ r, result = some r → r.valid = false)
      (some <$> handleRejection req stage reason) held := by
  have hrejected : (Protocol.claims claim).FollowsTo (fun r _ => r.valid = false)
      (handleRejection req stage reason) held := by
    have hrecord : ∀ held', (Protocol.claims claim).FollowsTo (fun r _ => r.valid = false) (do
        let _ ← (ask (.updateRequestStatus req.clientId req.requestId .rejected reason.text) :
          Task Bool)
        failWorkflow req.identity
        pure ⟨false, reason, reason.text⟩ : Task ValidationResult) held' := fun held' =>
      (Protocol.claims_any claim _ _).bind (fun _ _ _ =>
        (Protocol.claims_any claim _ _).bind (fun _ _ _ => rfl))
    unfold handleRejection
    split <;> split
    · exact (Protocol.claims_any claim _ _).bind (fun _ held' _ => hrecord held')
    · exact hrecord held
    · exact (Protocol.claims_any claim _ _).bind (fun _ _ _ => rfl)
    · exact rfl
  refine hrejected.bind (fun r _ hr => ?_)
  rintro _ ⟨⟩
  exact hr

/-- A submission that is accepted holds what storing the request and storing the workflow have
claimed. -/
theorem submitWorkflow_claims {svc : Service} {req : WorkflowRequest} {key : K} {A : List K → Prop}
    (hrequest : ∀ client held, (Protocol.claims claim).FollowsTo
      (fun r held' => r = .ok () → A held') (persistRequest client req) held)
    (hworkflow : ∀ info held, A held → (Protocol.claims claim).FollowsTo
      (fun r held' => r = .ok () → key ∈ held') (persistWorkflow svc req info) held) :
    (Protocol.claims claim).FollowsTo
      (fun result held' => ∀ r, result = some r → r.valid = true → key ∈ held')
      (submitWorkflow svc (.request req)) [] := by
  have hreject : ∀ stage reason held, (Protocol.claims claim).FollowsTo
      (fun result held' => ∀ r, result = some r → r.valid = true → key ∈ held')
      (some <$> handleRejection req stage reason) held := by
    intro stage reason held
    refine (handleRejection_claims req stage reason).mono (fun result held' hresult r hr hvalid => ?_)
    rw [hresult r hr] at hvalid
    cases hvalid
  unfold submitWorkflow
  dsimp only
  split
  · rintro _ ⟨⟩ ⟨⟩
  refine (Protocol.claims_any claim _ _).bind (fun r held _ => ?_)
  cases r with
  | error code => exact hreject _ _ _
  | ok _ =>
      refine (hrequest _ _).bind (fun r held hstored => ?_)
      cases r with
      | error code => exact hreject _ _ _
      | ok _ =>
          dsimp only
          unfold createWorkflow
          split
          · rintro _ ⟨⟩
          · exact hreject _ _ _
          · split
            · exact hreject _ _ _
            · refine (hworkflow _ _ (hstored rfl)).bind (fun r held hkey => ?_)
              cases r with
              | error code => exact hreject _ _ _
              | ok _ =>
                  refine (Protocol.claims_keeps claim _ (hkey rfl)).bind (fun stored held hkey => ?_)
                  split
                  · refine (Protocol.claims_keeps claim _ hkey).bind (fun _ _ hkey => ?_)
                    exact fun _ _ _ => hkey
                  · exact hreject _ _ _

theorem persistRequest_claims (client : ClientConfig) (req : WorkflowRequest)
    (held : List (String × String)) :
    (Protocol.claims requestClaim).FollowsTo
      (fun r held' => r = .ok () → (req.clientId, req.requestId) ∈ held')
      (persistRequest client req) held := by
  intro r
  refine ⟨_, rfl, ?_⟩
  cases r with
  | error code => exact nofun
  | ok _ =>
      refine (Protocol.claims_keeps requestClaim _ List.mem_cons_self).mono ?_
      exact fun _ _ hkey _ => hkey

theorem persistWorkflow_claims (svc : Service) (req : WorkflowRequest) (info : JobRuntimeMap)
    (held : List WorkflowIdentity) :
    (Protocol.claims workflowClaim).FollowsTo (fun r held' => r = .ok () → req.identity ∈ held')
      (persistWorkflow svc req info) held := by
  intro r
  refine ⟨_, rfl, ?_⟩
  cases r with
  | error code => exact nofun
  | ok _ =>
      refine (Protocol.claims_keeps workflowClaim _ List.mem_cons_self).mono ?_
      exact fun _ _ hkey _ => hkey

end Submission

/-! ## Any number of submissions -/

/-- A submission, whose result is kept with the body it was made for. -/
def submission (svc : Service) (body : Body) : Task (Body × Option ValidationResult) := do
  let result ← WorkflowAdmissionService.submitWorkflow svc body
  pure (body, result)

/-- Any number of submissions, now and later, under any configuration, in any interleaving of their
calls. Other components may make any call, and Redis may lose or change any key. -/
def desk : System Call Call.Reply World Env (Body × Option ValidationResult) where
  exec := Call.exec
  program := fun p => ∃ svc body, p = submission svc body
  outside := fun w w' => (∃ c e, w' = (Call.exec c e w).2) ∨ w'.sqlite = w.sqlite

/-- The submission returned valid = true for a request of this client with this request id. -/
def acceptsRequest (key : String × String) : Body × Option ValidationResult → Bool
  | (.request req, some r) => r.valid && decide ((req.clientId, req.requestId) = key)
  | _ => false

/-- The submission returned valid = true for a workflow of this id. -/
def acceptsWorkflow (id : WorkflowIdentity) : Body × Option ValidationResult → Bool
  | (.request req, some r) => r.valid && decide (req.identity = id)
  | _ => false

theorem requestKeys_kept {c : Call} {e : Env} {w : World} {key : String × String}
    (h : key ∈ w.sqlite.requestKeys) : key ∈ (c.exec e w).2.sqlite.requestKeys := by
  obtain hsame | ⟨row, -, -, hmore⟩ := requestKeys_exec c e w
  · rw [hsame]
    exact h
  · rw [hmore]
    exact List.mem_append_left _ h

theorem workflowIds_kept {c : Call} {e : Env} {w : World} {id : WorkflowIdentity}
    (h : id ∈ w.sqlite.workflowIds) : id ∈ (c.exec e w).2.sqlite.workflowIds := by
  obtain hsame | ⟨row, -, -, hmore⟩ := workflowIds_exec c e w
  · rw [hsame]
    exact h
  · rw [hmore]
    exact List.mem_append_left _ h

theorem submission_claims_request (svc : Service) (body : Body) :
    (Protocol.claims requestClaim).FollowsTo
      (fun a held => ∀ key, acceptsRequest key a = true → key ∈ held) (submission svc body) [] := by
  cases body with
  | invalidJson what => exact fun _ => nofun
  | schemaViolation what => exact fun _ => nofun
  | request req =>
      refine (submitWorkflow_claims (fun client held => persistRequest_claims client req held)
        (fun _ _ hkey => (Protocol.claims_keeps _ _ hkey).mono (fun _ _ h _ => h))).bind ?_
      intro result held hheld key haccepts
      cases result with
      | none => cases haccepts
      | some r =>
          rw [acceptsRequest, Bool.and_eq_true, decide_eq_true_eq] at haccepts
          exact haccepts.2 ▸ hheld r rfl haccepts.1

theorem submission_claims_workflow (svc : Service) (body : Body) :
    (Protocol.claims workflowClaim).FollowsTo
      (fun a held => ∀ id, acceptsWorkflow id a = true → id ∈ held) (submission svc body) [] := by
  cases body with
  | invalidJson what => exact fun _ => nofun
  | schemaViolation what => exact fun _ => nofun
  | request req =>
      refine (submitWorkflow_claims (A := fun _ => True)
        (fun _ _ => (Protocol.claims_any _ _ _).mono (fun _ _ _ _ => trivial))
        (fun info held _ => persistWorkflow_claims svc req info held)).bind ?_
      intro result held hheld id haccepts
      cases result with
      | none => cases haccepts
      | some r =>
          rw [acceptsWorkflow, Bool.and_eq_true, decide_eq_true_eq] at haccepts
          exact haccepts.2 ▸ hheld r rfl haccepts.1

/-- In every run of any number of submissions, from whatever is stored before, at most one of those
for a request id of a client and at most one of those for a workflow id of a client returns
valid = true. -/
theorem accepted_at_most_once {w : World} {log : List (Event Call World Env)}
    {σ : Pool Call Call.Reply World (Body × Option ValidationResult)}
    (hrun : desk.Run ⟨w, []⟩ log σ) :
    (∀ client request,
        σ.threads.countP (fun p => p.result?.any (acceptsRequest (client, request))) ≤ 1) ∧
      ∀ id, σ.threads.countP (fun p => p.result?.any (acceptsWorkflow id)) ≤ 1 := by
  constructor
  · intro client request
    refine hrun.claimed_once requestClaim (fun w key => key ∈ w.sqlite.requestKeys) acceptsRequest
      ?_ ?_ (fun _ _ _ _ => requestKeys_kept) (fun _ _ _ _ => requestClaim_exec) (client, request)
    · rintro p ⟨svc, body, rfl⟩
      exact submission_claims_request svc body
    · rintro w w' (⟨c, e, rfl⟩ | hsqlite) key hkey
      · exact requestKeys_kept hkey
      · rw [hsqlite]
        exact hkey
  · intro id
    refine hrun.claimed_once workflowClaim (fun w id => id ∈ w.sqlite.workflowIds) acceptsWorkflow
      ?_ ?_ (fun _ _ _ _ => workflowIds_kept) (fun _ _ _ _ => workflowClaim_exec) id
    · rintro p ⟨svc, body, rfl⟩
      exact submission_claims_workflow svc body
    · rintro w w' (⟨c, e, rfl⟩ | hsqlite) id hid
      · exact workflowIds_kept hid
      · rw [hsqlite]
        exact hid

/-- Two submissions with one request id. When the second one is served, the key of the request has
expired in Redis. -/
def twiceSubmitted : List (System.Turn Call Call.Reply Env (Body × Option ValidationResult)) :=
  let req := requestOf [{ jobId := "a" }]
  [.spawn (submission (serviceOf 2) (.request req))] ++ List.replicate 13 (.serve 0 {}) ++
    [.spawn (submission (serviceOf 2) (.request { req with workflowId := "other" }))] ++
    List.replicate 6 (.serve 0 { redisTime := 5000 })

theorem accepted_at_most_once_twiceSubmitted :
    (desk.play twiceSubmitted ⟨{}, []⟩).2.threads.map
        (fun p => p.result?.bind (fun a => a.2.map ValidationResult.statusCode)) =
      [some .duplicateRequest, some .workflowAdmitted] ∧
    (desk.play twiceSubmitted ⟨{}, []⟩).2.threads.countP
      (fun p => p.result?.any (acceptsRequest ("client", "request"))) ≤ 1 := by
  have hallowed : desk.Allowed twiceSubmitted := by
    intro p hp
    simp only [twiceSubmitted, List.mem_append, List.mem_singleton, List.mem_replicate,
      System.Turn.spawn.injEq, reduceCtorEq, and_false, or_false] at hp
    obtain rfl | rfl := hp
    · exact ⟨_, _, rfl⟩
    · exact ⟨_, _, rfl⟩
  have honce := accepted_at_most_once (System.play_run hallowed ⟨{}, []⟩)
  exact ⟨by decide +kernel, honce.1 "client" "request"⟩

end FlowPilot
