import FlowPilot.RuntimeLedger

/-! The rows of `workflow_requests` and `workflows` and their primary keys. No statement of the source
deletes a row, so a key that was inserted once stays taken. -/

namespace FlowPilot

namespace Sqlite

/-- The primary key of a row of `workflow_requests`. -/
def requestKey (row : RequestRow) : String × String := (row.clientId, row.requestId)

def requestKeys (db : Sqlite) : List (String × String) := db.requests.map requestKey

def workflowIds (db : Sqlite) : List WorkflowIdentity := db.workflows.map WorkflowRow.identity

variable (db : Sqlite)

variable {db}

theorem insertRequest_of_mem (row : RequestRow) (h : requestKey row ∈ db.requestKeys) :
    db.insertRequest row = (false, db) := by
  obtain ⟨r, hr, hkey⟩ := List.mem_map.mp h
  rw [insertRequest, if_pos]
  rw [List.any_eq_true]
  exact ⟨r, hr, by simpa [requestKey] using hkey⟩

theorem insertRequest_of_notMem (row : RequestRow) (h : requestKey row ∉ db.requestKeys) :
    db.insertRequest row = (true, { db with requests := db.requests ++ [row] }) := by
  rw [insertRequest, if_neg]
  rw [List.any_eq_true]
  rintro ⟨r, hr, hkey⟩
  exact h (List.mem_map.mpr ⟨r, hr, by simpa [requestKey] using hkey⟩)

theorem addWorkflow_of_mem (row : WorkflowRow) (h : row.identity ∈ db.workflowIds) :
    db.addWorkflow row = (false, db) := by
  obtain ⟨r, hr, hid⟩ := List.mem_map.mp h
  rw [addWorkflow, if_pos]
  rw [List.any_eq_true]
  exact ⟨r, hr, decide_eq_true hid⟩

theorem addWorkflow_of_notMem (row : WorkflowRow) (h : row.identity ∉ db.workflowIds) :
    db.addWorkflow row = (true, { db with workflows := db.workflows ++ [row] }) := by
  rw [addWorkflow, if_neg]
  rw [List.any_eq_true]
  rintro ⟨r, hr, hid⟩
  exact h (List.mem_map.mpr ⟨r, hr, of_decide_eq_true hid⟩)

variable (db)

theorem requests_updateWorkflowStatus (now : Int) (id : WorkflowIdentity) (st : WorkflowStatus) :
    (db.updateWorkflowStatus now id st).2.requests = db.requests := by
  rw [updateWorkflowStatus]
  split
  · rfl
  · split <;> rfl

theorem requests_updateJobStatus (now : Int) (k : JobKey) (st : JobStatus) :
    (db.updateJobStatus now k st).2.requests = db.requests := by
  rw [updateJobStatus]
  split
  · rfl
  · split <;> rfl

theorem requests_updateReadyJobs (now : Int) (id : WorkflowIdentity) (queued ready : List String) :
    (db.updateReadyJobs now id queued ready).2.requests = db.requests := by
  rw [updateReadyJobs]
  split <;> rfl

theorem requests_addWorkflow (row : WorkflowRow) :
    (db.addWorkflow row).2.requests = db.requests := by
  rw [addWorkflow]
  split <;> rfl

theorem requests_addWorkflowJobs (rows : List JobRow) :
    (db.addWorkflowJobs rows).2.requests = db.requests := by
  rw [addWorkflowJobs]
  split <;> rfl

theorem workflowIds_updateWorkflowStatus (now : Int) (id : WorkflowIdentity) (st : WorkflowStatus) :
    (db.updateWorkflowStatus now id st).2.workflowIds = db.workflowIds := by
  rw [updateWorkflowStatus]
  split
  · rfl
  · rename_i change hchange
    have hkeeps : ∀ r, (change r).identity = r.identity := by
      intro r
      cases st <;> cases hchange <;> rfl
    split
    · exact map_updateWhere hkeeps _
    · rfl

end Sqlite

/-- The calls that write to `workflow_requests`. -/
def Call.writesRequests : Call → Bool
  | .insertRequest _ | .updateRequestStatus _ _ _ _ => true
  | _ => false

theorem requests_exec {c : Call} (hc : c.writesRequests = false) (e : Env) (w : World) :
    (c.exec e w).2.sqlite.requests = w.sqlite.requests := by
  rw [Call.exec]
  split
  swap
  · rfl
  cases c with
  | insertRequest row => cases hc
  | updateRequestStatus client request st reason => cases hc
  | updateJobStatus k st => exact w.sqlite.requests_updateJobStatus e.time k st
  | updateWorkflowStatus id st => exact w.sqlite.requests_updateWorkflowStatus e.time id st
  | updateReadyJobs id queued ready => exact w.sqlite.requests_updateReadyJobs e.time id queued ready
  | addWorkflow row => exact w.sqlite.requests_addWorkflow _
  | addWorkflowJobs rows => exact w.sqlite.requests_addWorkflowJobs _
  | _ => rfl

/-- A call other than a successful insert leaves the keys of `workflow_requests` as they are. -/
theorem requestKeys_exec (c : Call) (e : Env) (w : World) :
    (c.exec e w).2.sqlite.requestKeys = w.sqlite.requestKeys ∨ ∃ row, c = .insertRequest row ∧
      Sqlite.requestKey row ∉ w.sqlite.requestKeys ∧
      (c.exec e w).2.sqlite.requestKeys = w.sqlite.requestKeys ++ [Sqlite.requestKey row] := by
  by_cases hc : c.writesRequests = false
  · exact .inl (congrArg (List.map Sqlite.requestKey) (requests_exec hc e w))
  rw [Call.exec]
  split
  swap
  · exact .inl rfl
  cases c with
  | insertRequest row =>
      by_cases hmem : Sqlite.requestKey row ∈ w.sqlite.requestKeys
      · left
        rw [Call.carryOut, Sqlite.insertRequest_of_mem { row with receivedAt := e.time } hmem]
        rfl
      · refine .inr ⟨row, rfl, hmem, ?_⟩
        rw [Call.carryOut, Sqlite.insertRequest_of_notMem { row with receivedAt := e.time } hmem]
        exact List.map_append
  | updateRequestStatus client request st reason =>
      have hkeeps : ∀ r : RequestRow, Sqlite.requestKey { r with status := st, rejectReason := reason } =
          Sqlite.requestKey r := fun _ => rfl
      exact .inl (map_updateWhere hkeeps _)
  | _ => exact absurd rfl hc

/-- A call other than a successful insert leaves the keys of `workflows` as they are. -/
theorem workflowIds_exec (c : Call) (e : Env) (w : World) :
    (c.exec e w).2.sqlite.workflowIds = w.sqlite.workflowIds ∨ ∃ row, c = .addWorkflow row ∧
      row.identity ∉ w.sqlite.workflowIds ∧
      (c.exec e w).2.sqlite.workflowIds = w.sqlite.workflowIds ++ [row.identity] := by
  rw [Call.exec]
  split
  swap
  · exact .inl rfl
  cases c with
  | addWorkflow row =>
      by_cases hmem : row.identity ∈ w.sqlite.workflowIds
      · left
        rw [Call.carryOut, Sqlite.addWorkflow_of_mem { row with receivedAt := e.time } hmem]
        rfl
      · refine .inr ⟨row, rfl, hmem, ?_⟩
        rw [Call.carryOut, Sqlite.addWorkflow_of_notMem { row with receivedAt := e.time } hmem]
        exact List.map_append
  | updateWorkflowStatus id st => exact .inl (w.sqlite.workflowIds_updateWorkflowStatus e.time id st)
  | updateJobStatus k st =>
      exact .inl (congrArg (List.map WorkflowRow.identity)
        (w.sqlite.workflows_updateJobStatus e.time k st))
  | updateReadyJobs id queued ready =>
      exact .inl (congrArg (List.map WorkflowRow.identity)
        (w.sqlite.workflows_updateReadyJobs e.time id queued ready))
  | insertRequest row =>
      refine .inl (congrArg (List.map WorkflowRow.identity) ?_)
      change (w.sqlite.insertRequest _).2.workflows = _
      rw [Sqlite.insertRequest]
      split <;> rfl
  | addWorkflowJobs rows =>
      refine .inl (congrArg (List.map WorkflowRow.identity) ?_)
      change (w.sqlite.addWorkflowJobs _).2.workflows = _
      rw [Sqlite.addWorkflowJobs]
      split <;> rfl
  | _ => exact .inl rfl

end FlowPilot
