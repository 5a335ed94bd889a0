import FlowPilot.BaseTransactions
import FlowPilot.StoreSqlite

/-! The operations of `SQLiteDatabase` as programs of single statements. All of them use one
connection, on the threads of `AsyncDatabase`'s pool, so that statements of several operations mix
and a transaction that one of them began takes in the statements of the others. Run alone, each
operation does what the model of the tables says; run together, they do so in some order as long as
no statement falls into the transaction of another operation. -/

namespace FlowPilot

/-- The statements that change a table. -/
inductive SqlWrite where
  | updateJobs (k : JobKey) (change : JobRow → JobRow)
  | updateWorkflows (id : WorkflowIdentity) (change : WorkflowRow → WorkflowRow)
  | insertJob (row : JobRow)

namespace SqlWrite

/-- An update reports whether `sqlite3_changes` is positive, an insert whether it violates no key. -/
abbrev Reply (_ : SqlWrite) : Type := Bool

def apply : (q : SqlWrite) → Sqlite → q.Reply × Sqlite
  | updateJobs k change, db =>
      (db.jobs.any (JobRow.isOf k),
        { db with jobs := updateWhere (JobRow.isOf k) change db.jobs })
  | updateWorkflows id change, db =>
      (db.workflows.any (WorkflowRow.isOf id),
        { db with workflows := updateWhere (WorkflowRow.isOf id) change db.workflows })
  | insertJob row, db =>
      if db.jobs.any (fun r => r.jobUuid == row.jobUuid || r.key == row.key) then (false, db)
      else (true, { db with jobs := db.jobs ++ [row] })

end SqlWrite

abbrev SqlTask := Transaction SqlWrite.Reply Bool

namespace SqlTask

def ask (s : Statement SqlWrite) : Prog (Statement SqlWrite) (Statement.Reply SqlWrite.Reply)
    (s.Reply SqlWrite.Reply) := Prog.perform s

/-- The way out of a transaction that fails; whether the rollback succeeds is only logged. -/
def rollBack : SqlTask := do
  let _ ← ask .rollback
  pure false

/-- The way out of a transaction that succeeds, with the rollback that follows a failed commit. -/
def commit : SqlTask := do
  if ← ask .commit then pure true else rollBack

/-- The updates of a list of jobs in a transaction, of which `rest` is what follows. -/
def updateEach (id : WorkflowIdentity) (change : JobRow → JobRow) : List String → SqlTask → SqlTask
  | [], rest => rest
  | j :: jobs, rest => do
      if ← ask (.plain (.updateJobs ⟨id, j⟩ change)) then updateEach id change jobs rest
      else rollBack

def insertEach : List JobRow → SqlTask → SqlTask
  | [], rest => rest
  | row :: rows, rest => do
      if ← ask (.plain (.insertJob row)) then insertEach rows rest else rollBack

/-- `add_workflow_jobs`. The check after `BEGIN TRANSACTION` reads the return code of the statement
before it, so a failed begin goes unnoticed. -/
def addWorkflowJobs (rows : List JobRow) : SqlTask := do
  let _ ← ask .beginTransaction
  insertEach rows commit

def updateReadyJobs (now : Int) (id : WorkflowIdentity) (queued ready : List String) : SqlTask := do
  if ← ask .beginTransaction then
    updateEach id (Sqlite.markReady now) ready (updateEach id (Sqlite.markQueued now) queued commit)
  else pure false

/-- `update_job_status`: one statement, outside of any transaction of its own. -/
def updateJobStatus (now : Int) (k : JobKey) (st : JobStatus) : SqlTask :=
  match JobRow.transition now st with
  | none => pure false
  | some change => ask (.plain (.updateJobs k change))

def updateWorkflowStatus (now : Int) (id : WorkflowIdentity) (st : WorkflowStatus) : SqlTask :=
  match WorkflowRow.transition now st with
  | none => pure false
  | some change => ask (.plain (.updateWorkflows id change))

end SqlTask

/-- An operation as it is issued through `AsyncDatabase`, with the time it reads. -/
inductive SqlOperation where
  | addWorkflowJobs (rows : List JobRow)
  | updateReadyJobs (now : Int) (id : WorkflowIdentity) (queued ready : List String)
  | updateJobStatus (now : Int) (k : JobKey) (st : JobStatus)
  | updateWorkflowStatus (now : Int) (id : WorkflowIdentity) (st : WorkflowStatus)

namespace SqlOperation

def task : SqlOperation → SqlTask
  | addWorkflowJobs rows => SqlTask.addWorkflowJobs rows
  | updateReadyJobs now id queued ready => SqlTask.updateReadyJobs now id queued ready
  | updateJobStatus now k st => SqlTask.updateJobStatus now k st
  | updateWorkflowStatus now id st => SqlTask.updateWorkflowStatus now id st

/-- What the operation does to the tables when it runs by itself. -/
def run : SqlOperation → Sqlite → Bool × Sqlite
  | addWorkflowJobs rows, db => db.addWorkflowJobs rows
  | updateReadyJobs now id queued ready, db => db.updateReadyJobs now id queued ready
  | updateJobStatus now k st, db => db.updateJobStatus now k st
  | updateWorkflowStatus now id st, db => db.updateWorkflowStatus now id st

end SqlOperation

/-! ### An operation by itself -/

theorem updateWhere_of_any_eq_false {β : Type} {selected : β → Bool} {change : β → β} {rows : List β}
    (h : rows.any selected = false) : updateWhere selected change rows = rows :=
  updateWhere_eq_self_iff.mpr
    (fun r hr hselected => absurd hselected (List.any_eq_false.mp h r hr))

namespace SqlTask

open Transaction

variable {base : Sqlite}

theorem runs_rollBack (db : Sqlite) :
    runs SqlWrite.apply rollBack ⟨db, some base⟩ = (false, ⟨base, none⟩) := rfl

theorem any_isOf_updateWhere {selected : JobRow → Bool} {change : JobRow → JobRow}
    (hchange : ∀ r, (change r).key = r.key) (k : JobKey) (rows : List JobRow) :
    (updateWhere selected change rows).any (JobRow.isOf k) = rows.any (JobRow.isOf k) := by
  have hkeys : ∀ l : List JobRow,
      l.any (JobRow.isOf k) = (l.map JobRow.key).any (fun x => decide (x = k)) := by
    intro l
    rw [List.any_map]
    rfl
  rw [hkeys, hkeys, map_updateWhere hchange]

def updatedRows (id : WorkflowIdentity) (change : JobRow → JobRow) (jobs : List String)
    (rows : List JobRow) : List JobRow :=
  jobs.foldl (fun rows j => updateWhere (JobRow.isOf ⟨id, j⟩) change rows) rows

theorem any_isOf_updatedRows {change : JobRow → JobRow} (hchange : ∀ r, (change r).key = r.key)
    (id : WorkflowIdentity) (k : JobKey) (jobs : List String) (rows : List JobRow) :
    (updatedRows id change jobs rows).any (JobRow.isOf k) = rows.any (JobRow.isOf k) := by
  induction jobs generalizing rows with
  | nil => rfl
  | cons j jobs ih => exact (ih _).trans (any_isOf_updateWhere hchange k rows)

theorem runs_updateEach {id : WorkflowIdentity} {change : JobRow → JobRow}
    (hchange : ∀ r, (change r).key = r.key) (jobs : List String) (rest : SqlTask) (db : Sqlite) :
    runs SqlWrite.apply (updateEach id change jobs rest) ⟨db, some base⟩ =
      if jobs.all (fun j => db.jobs.any (JobRow.isOf ⟨id, j⟩)) then
        runs SqlWrite.apply rest ⟨{ db with jobs := updatedRows id change jobs db.jobs }, some base⟩
      else (false, ⟨base, none⟩) := by
  induction jobs generalizing db with
  | nil => rfl
  | cons j jobs ih =>
      have hstep : runs SqlWrite.apply (updateEach id change (j :: jobs) rest) ⟨db, some base⟩ =
          runs SqlWrite.apply
            (if db.jobs.any (JobRow.isOf ⟨id, j⟩) then updateEach id change jobs rest else rollBack)
            ⟨{ db with jobs := updateWhere (JobRow.isOf ⟨id, j⟩) change db.jobs }, some base⟩ :=
        runs_call ..
      rw [hstep, List.all_cons]
      cases hrow : db.jobs.any (JobRow.isOf ⟨id, j⟩) with
      | false => exact runs_rollBack _
      | true =>
          rw [if_pos rfl, ih, Bool.true_and]
          simp only [any_isOf_updateWhere hchange]
          rfl

theorem runs_insertEach (rows : List JobRow) (rest : SqlTask) (db : Sqlite) :
    runs SqlWrite.apply (insertEach rows rest) ⟨db, some base⟩ =
      match Sqlite.insertJobs rows db.jobs with
      | none => (false, ⟨base, none⟩)
      | some all => runs SqlWrite.apply rest ⟨{ db with jobs := all }, some base⟩ := by
  induction rows generalizing db with
  | nil => rfl
  | cons row rows ih =>
      rw [insertEach, Sqlite.insertJobs]
      refine (runs_call ..).trans ?_
      simp only [Connection.exec, SqlWrite.apply]
      split
      · exact runs_rollBack db
      · exact ih _

end SqlTask

/-- Run alone, the statements of an operation do what its model does at once. -/
theorem SqlOperation.alone_task (op : SqlOperation) (db : Sqlite) :
    op.task.alone SqlWrite.apply db = op.run db := by
  cases op with
  | addWorkflowJobs rows =>
      have hbegun : Transaction.runs SqlWrite.apply (SqlTask.addWorkflowJobs rows) ⟨db, none⟩ =
          Transaction.runs SqlWrite.apply (SqlTask.insertEach rows SqlTask.commit) ⟨db, some db⟩ :=
        Transaction.runs_call ..
      rw [task, Transaction.alone, hbegun, SqlTask.runs_insertEach, run, Sqlite.addWorkflowJobs]
      cases Sqlite.insertJobs rows db.jobs with
      | none => rfl
      | some all => rfl
  | updateReadyJobs now id queued ready =>
      have hbegun : Transaction.runs SqlWrite.apply (SqlTask.updateReadyJobs now id queued ready)
          ⟨db, none⟩ = Transaction.runs SqlWrite.apply (SqlTask.updateEach id (Sqlite.markReady now)
            ready (SqlTask.updateEach id (Sqlite.markQueued now) queued SqlTask.commit))
            ⟨db, some db⟩ := Transaction.runs_call ..
      have hready : ∀ r, (Sqlite.markReady now r).key = r.key := fun _ => rfl
      have hqueued : ∀ r, (Sqlite.markQueued now r).key = r.key := fun _ => rfl
      rw [task, Transaction.alone, hbegun, SqlTask.runs_updateEach hready,
        SqlTask.runs_updateEach hqueued, run, Sqlite.updateReadyJobs, List.all_append]
      simp only [SqlTask.any_isOf_updatedRows hready]
      cases ready.all (fun j => db.jobs.any (JobRow.isOf ⟨id, j⟩)) with
      | false => rfl
      | true =>
          cases queued.all (fun j => db.jobs.any (JobRow.isOf ⟨id, j⟩)) with
          | false => rfl
          | true => rfl
  | updateJobStatus now k st =>
      rw [task, SqlTask.updateJobStatus, run, Sqlite.updateJobStatus]
      cases JobRow.transition now st with
      | none => rfl
      | some change =>
          change (db.jobs.any (JobRow.isOf k),
            ({ db with jobs := updateWhere (JobRow.isOf k) change db.jobs } : Sqlite)) = _
          cases hrow : db.jobs.any (JobRow.isOf k) with
          | true => rfl
          | false => rw [updateWhere_of_any_eq_false hrow]; rfl
  | updateWorkflowStatus now id st =>
      rw [task, SqlTask.updateWorkflowStatus, run, Sqlite.updateWorkflowStatus]
      cases WorkflowRow.transition now st with
      | none => rfl
      | some change =>
          change (db.workflows.any (WorkflowRow.isOf id),
            ({ db with workflows := updateWhere (WorkflowRow.isOf id) change db.workflows } :
              Sqlite)) = _
          cases hrow : db.workflows.any (WorkflowRow.isOf id) with
          | true => rfl
          | false => rw [updateWhere_of_any_eq_false hrow]; rfl

/-! ### Operations on the shared connection -/

namespace SqlTask

open Transaction

theorem commit_closes : commit.Closes := ⟨true, rfl⟩

theorem rollBack_closes : rollBack.Closes := ⟨false, rfl⟩

theorem updateEach_closes {id : WorkflowIdentity} {change : JobRow → JobRow} {jobs : List String}
    {rest : SqlTask} (hrest : rest.Closes) : (updateEach id change jobs rest).Closes := by
  induction jobs with
  | nil => exact hrest
  | cons j jobs ih =>
      rintro (_ | _)
      · exact rollBack_closes
      · exact ih

theorem insertEach_closes {rows : List JobRow} {rest : SqlTask} (hrest : rest.Closes) :
    (insertEach rows rest).Closes := by
  induction rows with
  | nil => exact hrest
  | cons row rows ih =>
      rintro (_ | _)
      · exact rollBack_closes
      · exact ih

end SqlTask

theorem SqlOperation.task_whole (op : SqlOperation) : op.task.Whole := by
  cases op with
  | addWorkflowJobs rows => exact SqlTask.insertEach_closes SqlTask.commit_closes
  | updateReadyJobs now id queued ready =>
      exact SqlTask.updateEach_closes (SqlTask.updateEach_closes SqlTask.commit_closes)
  | updateJobStatus now k st =>
      rw [task, SqlTask.updateJobStatus]
      cases JobRow.transition now st with
      | none => trivial
      | some change => exact fun r => ⟨r, rfl⟩
  | updateWorkflowStatus now id st =>
      rw [task, SqlTask.updateWorkflowStatus]
      cases WorkflowRow.transition now st with
      | none => trivial
      | some change => exact fun r => ⟨r, rfl⟩

namespace SqlOperation

/-- The operations of the positions in `order`, one after the other: each with its result, and the
tables at the end. -/
def serial (ops : List SqlOperation) : List Nat → Sqlite → List (Nat × Bool) × Sqlite
  | [], db => ([], db)
  | i :: order, db =>
      match ops[i]? with
      | none => serial ops order db
      | some op =>
          let r := op.run db
          let later := serial ops order r.2
          ((i, r.1) :: later.1, later.2)

theorem serial_task (ops : List SqlOperation) (order : List Nat) (db : Sqlite) :
    Transaction.serial SqlWrite.apply (ops.map task) order db = serial ops order db := by
  induction order generalizing db with
  | nil => rfl
  | cons i order ih =>
      rw [Transaction.serial, serial, List.getElem?_map]
      cases ops[i]? with
      | none => exact ih db
      | some op => simp only [Option.map_some, alone_task, ih]

/-- The operations as they are issued, on a connection without a transaction. -/
def issued (ops : List SqlOperation) (db : Sqlite) : Session Sqlite SqlWrite.Reply Bool :=
  ⟨⟨⟨db, none⟩, ops.map task⟩, none⟩

/-- Operations whose statements never fall into the transaction of another operation have the
results, and leave the tables, of some sequential order. -/
theorem serializable_of_exclusive (ops : List SqlOperation) (db : Sqlite) (schedule : List Nat)
    (hexclusive : (issued ops db).Exclusive SqlWrite.apply schedule)
    (hended : ∀ p ∈ ((issued ops db).play SqlWrite.apply schedule).pool.threads, ∃ a, p = .done a) :
    ∃ order, order.Perm (List.range ops.length) ∧
      ((issued ops db).play SqlWrite.apply schedule).pool.world.tables = (serial ops order db).2 ∧
      ∀ r ∈ (serial ops order db).1,
        ((issued ops db).play SqlWrite.apply schedule).pool.threads[r.1]? = some (.done r.2) := by
  have hwhole : ∀ p ∈ ops.map task, p.Whole := by
    intro p hp
    obtain ⟨op, -, rfl⟩ := List.mem_map.mp hp
    exact op.task_whole
  obtain ⟨order, hperm, hworld, hresults⟩ :=
    Session.exists_serial (ops.map task) db hwhole rfl hexclusive hended
  rw [List.length_map] at hperm
  rw [serial_task] at hworld hresults
  exact ⟨order, hperm, congrArg Connection.tables hworld, hresults⟩

/-- A job that is RUNNING, the report that it has completed, and an update of jobs that have no
row. -/
def runningJob : JobRow := ⟨0, ⟨⟨"acme", "w1"⟩, "a"⟩, .running, 0, none, none, none, none, none⟩

def reportAndRepair : List SqlOperation :=
  [.updateReadyJobs 1 ⟨"acme", "w1"⟩ [] ["missing"], .updateJobStatus 2 runningJob.key .completed]

/-- The report before the transaction: the two operations end as if one ran after the other. -/
theorem serializable_of_exclusive_report :
    ∃ order, order.Perm [0, 1] ∧
      ((issued reportAndRepair { jobs := [runningJob] }).play SqlWrite.apply
        [1, 0, 0, 0]).pool.world.tables = (serial reportAndRepair order { jobs := [runningJob] }).2 := by
  have hended : ∀ p ∈ ((issued reportAndRepair { jobs := [runningJob] }).play SqlWrite.apply
      [1, 0, 0, 0]).pool.threads, ∃ a, p = .done a := by
    intro p hp
    rcases List.mem_cons.mp hp with rfl | hp
    · exact ⟨false, rfl⟩
    · rw [List.mem_singleton.mp hp]
      exact ⟨true, rfl⟩
  obtain ⟨order, hperm, htables, -⟩ := serializable_of_exclusive reportAndRepair
    { jobs := [runningJob] } [1, 0, 0, 0]
    ⟨Or.inl rfl, Or.inl rfl, Or.inr rfl, Or.inr rfl, trivial⟩ hended
  exact ⟨order, hperm, htables⟩

/-- The report inside the transaction: it returns true, and the rollback of the other operation undoes
it. No order of the two leaves the job RUNNING. -/
theorem report_undone_by_rollback :
    let s := (issued reportAndRepair { jobs := [runningJob] }).play SqlWrite.apply [0, 1, 0, 0]
    s.pool.threads = [.done false, .done true] ∧ s.pool.world.saved.isNone ∧
      s.pool.world.tables.jobs = [runningJob] ∧
      ∀ order, order.Perm (List.range reportAndRepair.length) →
        (serial reportAndRepair order { jobs := [runningJob] }).2.jobs ≠ [runningJob] := by
  refine ⟨rfl, rfl, rfl, fun order hperm => ?_⟩
  obtain ⟨i, j, rfl⟩ := List.length_eq_two.mp hperm.length_eq
  have hi : i < 2 := List.mem_range.mp (hperm.subset List.mem_cons_self)
  have hj : j < 2 := List.mem_range.mp (hperm.subset (List.mem_cons_of_mem _ List.mem_cons_self))
  have hne : i ≠ j := by simpa using hperm.nodup_iff.mpr List.nodup_range
  obtain ⟨rfl, rfl⟩ | ⟨rfl, rfl⟩ : (i = 0 ∧ j = 1) ∨ (i = 1 ∧ j = 0) := by omega
  · decide
  · decide

end SqlOperation

end FlowPilot
