import FlowPilot.StoreTypes
import Mathlib.Tactic.NthRewrite

/-! The SQLite tables of `sqlite_db.cpp` and the statements the engine runs on them. A table is the
list of its rows in insertion order; foreign keys are declared by the source and not enforced by
SQLite's default, so they are not modelled. Each function is one call of the source's database
interface; a call that reaches no row reports failure, as `sqlite3_changes` makes it. -/

namespace FlowPilot

/-- A row of `workflow_requests`. -/
structure RequestRow where
  clientId : String
  requestId : String
  workflowId : String
  payloadSize : Int
  status : RequestStatus
  rejectReason : String
  receivedAt : Int
  deriving DecidableEq, Repr

/-- A row of `workflows`. -/
structure WorkflowRow where
  identity : WorkflowIdentity
  workflowType : String
  version : String
  status : WorkflowStatus
  totalJobs : Int
  receivedAt : Int
  startedAt : Option Int := none
  readyAt : Option Int := none
  completedAt : Option Int := none
  deriving DecidableEq, Repr

/-- A row of `jobs`. -/
structure JobRow where
  jobUuid : Nat
  key : JobKey
  status : JobStatus
  retryCount : Int := 0
  submittedAt : Option Int := none
  readyAt : Option Int := none
  queuedAt : Option Int := none
  startedAt : Option Int := none
  completedAt : Option Int := none
  deriving DecidableEq, Repr

/-- The tables of the engine. -/
structure Sqlite where
  requests : List RequestRow := []
  workflows : List WorkflowRow := []
  jobs : List JobRow := []

/-- `UPDATE rows SET change WHERE selected`. -/
def updateWhere {α : Type} (selected : α → Bool) (change : α → α) (rows : List α) : List α :=
  rows.map (fun r => if selected r then change r else r)

theorem map_updateWhere {α β : Type} {f : α → β} {selected : α → Bool} {change : α → α}
    (h : ∀ r, f (change r) = f r) (rows : List α) :
    (updateWhere selected change rows).map f = rows.map f := by
  rw [updateWhere, List.map_map]
  refine List.map_congr_left (fun r _ => ?_)
  rw [Function.comp_apply]
  split
  · exact h r
  · rfl

theorem updateWhere_eq_self_iff {α : Type} {selected : α → Bool} {change : α → α} {rows : List α} :
    updateWhere selected change rows = rows ↔ ∀ r ∈ rows, selected r = true → change r = r := by
  nth_rewrite 2 [← List.map_id rows]
  rw [updateWhere, List.map_inj_left]
  constructor
  · intro h r hr hselected
    have hrow := h r hr
    rwa [if_pos hselected] at hrow
  · intro h r hr
    split
    · rename_i hselected
      exact h r hr hselected
    · rfl

/-- `WHERE client_id = ? AND workflow_id = ?`. -/
def WorkflowRow.isOf (id : WorkflowIdentity) (r : WorkflowRow) : Bool := decide (r.identity = id)

/-- `WHERE client_id = ? AND workflow_id = ? AND job_id = ?`. -/
def JobRow.isOf (k : JobKey) (r : JobRow) : Bool := decide (r.key = k)

/-- The assignment of `update_workflow_status`; a status it does not know is refused. -/
def WorkflowRow.transition (now : Int) (st : WorkflowStatus) : Option (WorkflowRow → WorkflowRow) :=
  match st with
  | .completed | .failed | .canceled => some (fun r =>
      { r with status := st, completedAt := some now })
  | .running => some (fun r => { r with status := st, startedAt := some now })
  | .ready => some (fun r => { r with status := st, readyAt := some now })
  | .admitted | .unknown => none

/-- The assignment of `update_job_status`; a status it does not know is refused. -/
def JobRow.transition (now : Int) (st : JobStatus) : Option (JobRow → JobRow) :=
  match st with
  | .pending | .retryDelay => some (fun r => { r with status := st })
  | .completed | .failed | .aborted => some (fun r =>
      { r with status := st, completedAt := some now })
  | .running => some (fun r => { r with status := st, startedAt := r.startedAt.or (some now) })
  | .ready => some (fun r => { r with status := st, readyAt := r.readyAt.or (some now) })
  | .queued => some (fun r => { r with status := st, queuedAt := r.queuedAt.or (some now) })
  | .pendingExecution | .canceled | .unknown => none

namespace Sqlite

def updateWorkflowStatus (now : Int) (id : WorkflowIdentity) (st : WorkflowStatus) (db : Sqlite) :
    Bool × Sqlite :=
  match WorkflowRow.transition now st with
  | none => (false, db)
  | some change =>
      if db.workflows.any (WorkflowRow.isOf id) then
        (true, { db with workflows := updateWhere (WorkflowRow.isOf id) change db.workflows })
      else (false, db)

def updateJobStatus (now : Int) (k : JobKey) (st : JobStatus) (db : Sqlite) : Bool × Sqlite :=
  match JobRow.transition now st with
  | none => (false, db)
  | some change =>
      if db.jobs.any (JobRow.isOf k) then
        (true, { db with jobs := updateWhere (JobRow.isOf k) change db.jobs })
      else (false, db)

/-- The READY update of `update_ready_jobs`. -/
def markReady (now : Int) (r : JobRow) : JobRow :=
  { r with status := .ready, readyAt := r.readyAt.or (some now) }

/-- The QUEUED update of `update_ready_jobs`. -/
def markQueued (now : Int) (r : JobRow) : JobRow :=
  { r with status := .queued, readyAt := r.readyAt.or (some now),
           queuedAt := r.queuedAt.or (some now) }

/-- `update_ready_jobs`: one transaction, rolled back when one of the jobs has no row. -/
def updateReadyJobs (now : Int) (id : WorkflowIdentity) (queued ready : List String) (db : Sqlite) :
    Bool × Sqlite :=
  if (ready ++ queued).all (fun j => db.jobs.any (JobRow.isOf ⟨id, j⟩)) then
    let afterReady := ready.foldl
      (fun rows j => updateWhere (JobRow.isOf ⟨id, j⟩) (markReady now) rows) db.jobs
    let afterQueued := queued.foldl
      (fun rows j => updateWhere (JobRow.isOf ⟨id, j⟩) (markQueued now) rows) afterReady
    (true, { db with jobs := afterQueued })
  else (false, db)

def getAllJobsForWorkflow (id : WorkflowIdentity) (db : Sqlite) : List JobRow :=
  db.jobs.filter (fun r => decide (r.key.identity = id))

def getAllWorkflowsForClient (clientId : String) (db : Sqlite) : List WorkflowRow :=
  db.workflows.filter (fun r => decide (r.identity.clientId = clientId))

def getClientActiveWorkflowsCount (clientId : String) (db : Sqlite) : Nat :=
  db.workflows.countP (fun r => decide (r.identity.clientId = clientId) &&
    (r.status == .admitted || r.status == .ready || r.status == .running))

/-- The insert of `add_request`, refused when the client used the request id before. -/
def insertRequest (row : RequestRow) (db : Sqlite) : Bool × Sqlite :=
  if db.requests.any (fun r => r.clientId == row.clientId && r.requestId == row.requestId) then
    (false, db)
  else (true, { db with requests := db.requests ++ [row] })

def updateRequestStatus (clientId requestId : String) (st : RequestStatus) (reason : String)
    (db : Sqlite) : Sqlite :=
  let selected := fun r : RequestRow => r.clientId == clientId && r.requestId == requestId
  let change := fun r : RequestRow => { r with status := st, rejectReason := reason }
  { db with requests := updateWhere selected change db.requests }

/-- `add_workflow`, refused when the client has a workflow of that id. -/
def addWorkflow (row : WorkflowRow) (db : Sqlite) : Bool × Sqlite :=
  if db.workflows.any (WorkflowRow.isOf row.identity) then (false, db)
  else (true, { db with workflows := db.workflows ++ [row] })

/-- The inserts of `add_workflow_jobs`: `none` when one of them violates a key, which rolls the
transaction back. -/
def insertJobs : List JobRow → List JobRow → Option (List JobRow)
  | [], rows => some rows
  | row :: rest, rows =>
      if rows.any (fun r => r.jobUuid == row.jobUuid || r.key == row.key) then none
      else insertJobs rest (rows ++ [row])

def addWorkflowJobs (newRows : List JobRow) (db : Sqlite) : Bool × Sqlite :=
  match insertJobs newRows db.jobs with
  | none => (false, db)
  | some rows => (true, { db with jobs := rows })

/-- `fail_all_jobs_waiting_to_run`: a job in RETRY_DELAY is not among them. -/
def failAllJobsWaitingToRun (id : WorkflowIdentity) (db : Sqlite) : Sqlite :=
  let waiting := fun r : JobRow => decide (r.key.identity = id) &&
    (r.status == .pending || r.status == .ready || r.status == .queued)
  { db with jobs := updateWhere waiting (fun r => { r with status := .aborted }) db.jobs }

end Sqlite

/-- `sqlite3_bind_text(…, text.c_str(), -1, …)`, which ends at the first NUL. The functions above keep
the ids they are given whole: they are the source's for ids without NUL, or for ids that were bound. -/
def boundText (text : String) : String := String.ofList (text.toList.takeWhile (· != Char.ofNat 0))

end FlowPilot
