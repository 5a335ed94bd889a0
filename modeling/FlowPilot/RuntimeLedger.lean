import FlowPilot.RuntimeCalls
import FlowPilot.StoreLedger

/-! Which calls change the statuses that SQLite records of a workflow and of its jobs. -/

namespace FlowPilot

/-- What SQLite records of a workflow: its status and the statuses of its jobs. -/
structure Ledger where
  workflow : Option WorkflowStatus
  job : String → Option JobStatus

def Sqlite.ledger (id : WorkflowIdentity) (db : Sqlite) : Ledger :=
  ⟨db.workflowStatus id, fun j => db.jobStatus ⟨id, j⟩⟩

namespace Call

/-- The call writes nothing to the rows of the workflow and of its jobs. -/
def Spares (id : WorkflowIdentity) : Call → Prop
  | updateJobStatus k _ => k.identity ≠ id
  | updateWorkflowStatus id' _ | updateReadyJobs id' _ _ | failAllJobsWaitingToRun id' => id' ≠ id
  | addWorkflow row => row.identity ≠ id
  | addWorkflowJobs rows => ∀ row ∈ rows, row.key.identity ≠ id
  | _ => True

/-- The calls that write to the rows of workflows and jobs. -/
def writesRows : Call → Bool
  | updateJobStatus _ _ | updateWorkflowStatus _ _ | updateReadyJobs _ _ _
  | failAllJobsWaitingToRun _ | addWorkflow _ | addWorkflowJobs _ => true
  | _ => false

/-- The calls by which admission stores a workflow in SQLite or gives it up. -/
def isAdmission : Call → Bool
  | addWorkflow _ | addWorkflowJobs _ | failAllJobsWaitingToRun _ => true
  | _ => false

end Call

section Frames

variable {id : WorkflowIdentity} {c : Call}

theorem Sqlite.ledger_of_jobs {db db' : Sqlite} (hworkflows : db'.workflows = db.workflows)
    (hjobs : ∀ j, db'.jobStatus ⟨id, j⟩ = db.jobStatus ⟨id, j⟩) : db'.ledger id = db.ledger id := by
  rw [ledger, ledger, workflowStatus, workflowStatus, hworkflows]
  exact congrArg _ (funext hjobs)

theorem Sqlite.ledger_of_workflows {db db' : Sqlite} (hjobs : db'.jobs = db.jobs)
    (hworkflow : db'.workflowStatus id = db.workflowStatus id) : db'.ledger id = db.ledger id := by
  rw [ledger, ledger, hworkflow]
  refine congrArg _ (funext (fun j => ?_))
  rw [jobStatus, jobStatus, hjobs]

theorem Sqlite.workflows_updateJobStatus (db : Sqlite) (now : Int) (k : JobKey) (st : JobStatus) :
    (db.updateJobStatus now k st).2.workflows = db.workflows := by
  rw [updateJobStatus]
  split
  · rfl
  · split <;> rfl

theorem Sqlite.workflows_updateReadyJobs (db : Sqlite) (now : Int) (id : WorkflowIdentity)
    (queued ready : List String) :
    (db.updateReadyJobs now id queued ready).2.workflows = db.workflows := by
  rw [updateReadyJobs]
  split <;> rfl

theorem Sqlite.jobs_updateWorkflowStatus (db : Sqlite) (now : Int) (id : WorkflowIdentity)
    (st : WorkflowStatus) : (db.updateWorkflowStatus now id st).2.jobs = db.jobs := by
  rw [updateWorkflowStatus]
  split
  · rfl
  · split <;> rfl

/-- Calls about other workflows leave the rows of this one as they are. -/
theorem Call.Spares.carryOut (h : c.Spares id) (e : Env) (w : World) :
    (c.carryOut e w).2.sqlite.ledger id = w.sqlite.ledger id := by
  cases c with
  | updateJobStatus k st =>
      refine Sqlite.ledger_of_jobs (Sqlite.workflows_updateJobStatus ..) (fun j => ?_)
      exact (Sqlite.jobStatus_updateJobStatus w.sqlite e.time k st ⟨id, j⟩).resolve_right
        (fun hk => h (congrArg JobKey.identity hk.1).symm)
  | updateWorkflowStatus id' st =>
      refine Sqlite.ledger_of_workflows (Sqlite.jobs_updateWorkflowStatus ..) ?_
      exact (Sqlite.workflowStatus_updateWorkflowStatus w.sqlite e.time id' st id).resolve_right
        (fun hid => h hid.1.symm)
  | updateReadyJobs id' queued ready =>
      refine Sqlite.ledger_of_jobs (Sqlite.workflows_updateReadyJobs ..) (fun j => ?_)
      exact (Sqlite.jobStatus_updateReadyJobs w.sqlite e.time id' queued ready
        ⟨id, j⟩).resolve_right (fun hid => h hid.1.symm)
  | failAllJobsWaitingToRun id' =>
      exact Sqlite.ledger_of_jobs rfl (fun j => Sqlite.jobStatus_failAllJobsWaitingToRun _ h.symm)
  | addWorkflow row =>
      refine Sqlite.ledger_of_workflows ?_ ?_
      · change (w.sqlite.addWorkflow _).2.jobs = _
        rw [Sqlite.addWorkflow]
        split <;> rfl
      · exact (Sqlite.workflowStatus_addWorkflow w.sqlite _ id).resolve_right
          (fun hid => h hid.1.symm)
  | addWorkflowJobs rows =>
      change ((w.sqlite.addWorkflowJobs _).2).ledger id = _
      rw [Sqlite.addWorkflowJobs]
      split
      · rfl
      · rename_i all hall
        refine Sqlite.ledger_of_jobs rfl (fun j => ?_)
        change Sqlite.statusIn all ⟨id, j⟩ = Sqlite.statusIn w.sqlite.jobs ⟨id, j⟩
        rw [Sqlite.insertJobs_eq_some hall]
        refine Sqlite.statusIn_append (fun row hrow hkey => ?_)
        obtain ⟨row', hrow', rfl⟩ := List.mem_map.mp hrow
        exact h row' hrow' (congrArg JobKey.identity hkey)
  | insertRequest row =>
      change ((w.sqlite.insertRequest _).2).ledger id = _
      rw [Sqlite.insertRequest]
      split <;> rfl
  | _ => rfl

theorem Call.Spares.exec (h : c.Spares id) (e : Env) (w : World) :
    (c.exec e w).2.sqlite.ledger id = w.sqlite.ledger id := by
  rw [Call.exec]
  split
  · exact h.carryOut e w
  · rfl

theorem Call.spares_of_writesRows (h : c.writesRows = false) : c.Spares id := by
  cases c <;> trivial

theorem Call.spares_of_about (hc : c.isAdmission = false) (habout : c.about ≠ some id) :
    c.Spares id := by
  cases c with
  | updateJobStatus k st => exact fun hid => habout (congrArg some hid)
  | updateWorkflowStatus id' st => exact fun hid => habout (congrArg some hid)
  | updateReadyJobs id' queued ready => exact fun hid => habout (congrArg some hid)
  | addWorkflow | addWorkflowJobs | failAllJobsWaitingToRun => cases hc
  | _ => trivial

theorem ledger_updateJobStatus (id : WorkflowIdentity) (k : JobKey) (st : JobStatus) (e : Env)
    (w : World) (j : String) :
    (((Call.updateJobStatus k st).exec e w).2.sqlite.ledger id).job j = (w.sqlite.ledger id).job j ∨
      (k = ⟨id, j⟩ ∧
        (((Call.updateJobStatus k st).exec e w).2.sqlite.ledger id).job j = some st) := by
  rw [Call.exec]
  split
  · exact (w.sqlite.jobStatus_updateJobStatus e.time k st ⟨id, j⟩).imp_right
      (fun hk => ⟨hk.1.symm, hk.2⟩)
  · exact .inl rfl

theorem ledger_updateReadyJobs (id : WorkflowIdentity) (queued ready : List String) (e : Env)
    (w : World) (j : String) :
    (((Call.updateReadyJobs id queued ready).exec e w).2.sqlite.ledger id).job j =
        (w.sqlite.ledger id).job j ∨
      (j ∈ queued ++ ready ∧
        ((((Call.updateReadyJobs id queued ready).exec e w).2.sqlite.ledger id).job j =
            some .queued ∨
          (((Call.updateReadyJobs id queued ready).exec e w).2.sqlite.ledger id).job j =
            some .ready)) := by
  rw [Call.exec]
  split
  · exact (w.sqlite.jobStatus_updateReadyJobs e.time id queued ready ⟨id, j⟩).imp_right
      (fun hj => hj.2)
  · exact .inl rfl

theorem ledger_updateWorkflowStatus (id : WorkflowIdentity) (st : WorkflowStatus) (e : Env)
    (w : World) :
    (((Call.updateWorkflowStatus id st).exec e w).2.sqlite.ledger id).job = (w.sqlite.ledger id).job ∧
      ((((Call.updateWorkflowStatus id st).exec e w).2.sqlite.ledger id).workflow =
          (w.sqlite.ledger id).workflow ∨
        (((Call.updateWorkflowStatus id st).exec e w).2.sqlite.ledger id).workflow = some st) := by
  rw [Call.exec]
  split
  · refine ⟨funext (fun j => ?_), ?_⟩
    · change (w.sqlite.updateWorkflowStatus e.time id st).2.jobStatus _ = _
      rw [Sqlite.jobStatus, Sqlite.jobs_updateWorkflowStatus]
      rfl
    · exact (w.sqlite.workflowStatus_updateWorkflowStatus e.time id st id).imp_right And.right
  · exact ⟨rfl, .inl rfl⟩

theorem ledger_workflow_of_job (id : WorkflowIdentity) (e : Env) (w : World)
    (hc : (∃ k st, c = .updateJobStatus k st) ∨ ∃ queued ready, c = .updateReadyJobs id queued ready) :
    ((c.exec e w).2.sqlite.ledger id).workflow = (w.sqlite.ledger id).workflow := by
  rcases hc with ⟨k, st, rfl⟩ | ⟨queued, ready, rfl⟩
  · rw [Call.exec]
    split
    · change (w.sqlite.updateJobStatus e.time k st).2.workflowStatus id = _
      rw [Sqlite.workflowStatus, Sqlite.workflows_updateJobStatus]
      rfl
    · rfl
  · rw [Call.exec]
    split
    · change (w.sqlite.updateReadyJobs e.time id queued ready).2.workflowStatus id = _
      rw [Sqlite.workflowStatus, Sqlite.workflows_updateReadyJobs]
      rfl
    · rfl

end Frames

end FlowPilot
