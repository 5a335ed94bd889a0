import FlowPilot.StoreTransactions
import Mathlib.Data.List.Forall2

/-! The status updates of jobs, `update_ready_jobs` and `update_job_status`, as calls with the ids they
are given. A batch is one transaction: it updates all of its jobs or none. The statements write
`ready_at`, `queued_at` and `started_at` through `COALESCE`, so that the first value stays. -/

namespace FlowPilot

/-- A workflow as its ids are bound. -/
def boundIdentity (clientId workflowId : String) : WorkflowIdentity :=
  ⟨boundText clientId, boundText workflowId⟩

/-- The calls, with the time they read. -/
inductive StatusCall where
  | updateReadyJobs (now : Int) (clientId workflowId : String) (queuedJobIds readyJobIds : List String)
  | updateJobStatus (now : Int) (clientId workflowId jobId : String) (st : JobStatus)

namespace StatusCall

def operation : StatusCall → SqlOperation
  | updateReadyJobs now clientId workflowId queuedJobIds readyJobIds =>
      .updateReadyJobs now (boundIdentity clientId workflowId) (queuedJobIds.map boundText)
        (readyJobIds.map boundText)
  | updateJobStatus now clientId workflowId jobId st =>
      .updateJobStatus now ⟨boundIdentity clientId workflowId, boundText jobId⟩ st

/-- Executes a call by itself, statement by statement. -/
def perform (c : StatusCall) (db : Sqlite) : Bool × Sqlite :=
  c.operation.task.alone SqlWrite.apply db

def performAll (calls : List StatusCall) (db : Sqlite) : Sqlite :=
  calls.foldl (fun db c => (c.perform db).2) db

end StatusCall

/-- The assignments of the statement that `update_ready_jobs` prepares, with the values bound to it:
`COALESCE(ready_at, ?)` and `COALESCE(queued_at, ?)`. -/
def JobRow.coalesce (st : JobStatus) (readyAt queuedAt : Option Int) (r : JobRow) : JobRow :=
  { r with status := st, readyAt := r.readyAt.or readyAt, queuedAt := r.queuedAt.or queuedAt }

theorem Sqlite.markReady_eq (now : Int) : markReady now = JobRow.coalesce .ready (some now) none := by
  funext r
  rw [markReady, JobRow.coalesce, Option.or_none]

theorem Sqlite.markQueued_eq (now : Int) :
    markQueued now = JobRow.coalesce .queued (some now) (some now) := rfl

theorem JobRow.coalesce_coalesce (st st' : JobStatus) (a b a' b' : Option Int) (r : JobRow) :
    (r.coalesce st a b).coalesce st' a' b' = r.coalesce st' (a.or a') (b.or b') := by
  simp only [coalesce, Option.or_assoc]

/-- A row after the updates of a batch: QUEUED wins where a job is in both lists. -/
def JobRow.batched (now : Int) (id : WorkflowIdentity) (queued ready : List String) (r : JobRow) :
    JobRow :=
  if queued.any (fun j => r.isOf ⟨id, j⟩) then Sqlite.markQueued now r
  else if ready.any (fun j => r.isOf ⟨id, j⟩) then Sqlite.markReady now r
  else r

/-- Updates of a list of jobs touch their rows and no others; a job that is listed twice is as one
that is listed once. -/
theorem SqlTask.updatedRows_eq {id : WorkflowIdentity} {change : JobRow → JobRow}
    (hkey : ∀ r, (change r).key = r.key) (htwice : ∀ r, change (change r) = change r)
    (jobs : List String) (rows : List JobRow) :
    updatedRows id change jobs rows =
      updateWhere (fun r => jobs.any (fun j => r.isOf ⟨id, j⟩)) change rows := by
  induction jobs generalizing rows with
  | nil => exact (updateWhere_eq_self_iff.mpr (fun r _ hlisted => by cases hlisted)).symm
  | cons j jobs ih =>
      have hisOf : ∀ k r, (change r).isOf k = r.isOf k := by
        intro k r
        rw [JobRow.isOf, JobRow.isOf, hkey]
      change updatedRows id change jobs (updateWhere (JobRow.isOf ⟨id, j⟩) change rows) = _
      rw [ih, updateWhere, updateWhere, List.map_map]
      refine List.map_congr_left (fun r _ => ?_)
      rw [Function.comp_apply]
      by_cases hj : r.isOf ⟨id, j⟩ = true
      · simp only [List.any_cons, hj, if_true, hisOf, htwice, ite_self, Bool.true_or]
      · rw [Bool.not_eq_true] at hj
        simp only [List.any_cons, hj, Bool.false_eq_true, if_false, Bool.false_or]

theorem updatedRows_batch (now : Int) (id : WorkflowIdentity) (queued ready : List String)
    (rows : List JobRow) :
    SqlTask.updatedRows id (Sqlite.markQueued now) queued
        (SqlTask.updatedRows id (Sqlite.markReady now) ready rows) =
      rows.map (JobRow.batched now id queued ready) := by
  have hready : ∀ r, Sqlite.markReady now (Sqlite.markReady now r) = Sqlite.markReady now r := by
    intro r
    rw [Sqlite.markReady_eq, JobRow.coalesce_coalesce]
    rfl
  have hqueued : ∀ r, Sqlite.markQueued now (Sqlite.markQueued now r) = Sqlite.markQueued now r := by
    intro r
    rw [Sqlite.markQueued_eq, JobRow.coalesce_coalesce]
    rfl
  have hboth : ∀ r, Sqlite.markQueued now (Sqlite.markReady now r) = Sqlite.markQueued now r := by
    intro r
    rw [Sqlite.markReady_eq, Sqlite.markQueued_eq, JobRow.coalesce_coalesce]
    rfl
  have hreadyKey : ∀ r, (Sqlite.markReady now r).key = r.key := fun _ => rfl
  have hqueuedKey : ∀ r, (Sqlite.markQueued now r).key = r.key := fun _ => rfl
  rw [SqlTask.updatedRows_eq hreadyKey hready, SqlTask.updatedRows_eq hqueuedKey hqueued,
    updateWhere, updateWhere, List.map_map]
  refine List.map_congr_left (fun r _ => ?_)
  have hisOf : ∀ k, (Sqlite.markReady now r).isOf k = r.isOf k := fun _ => rfl
  rw [Function.comp_apply, JobRow.batched]
  by_cases hr : ready.any (fun j => r.isOf ⟨id, j⟩) = true
  · simp only [hr, if_true, hisOf, hboth]
  · rw [if_neg hr]

theorem StatusCall.perform_updateReadyJobs (now : Int) (clientId workflowId : String)
    (queuedJobIds readyJobIds : List String) (db : Sqlite) :
    (updateReadyJobs now clientId workflowId queuedJobIds readyJobIds).perform db =
      if (readyJobIds ++ queuedJobIds).all
          (fun j => db.jobs.any (JobRow.isOf ⟨boundIdentity clientId workflowId, boundText j⟩)) then
        (true, { db with jobs := db.jobs.map (JobRow.batched now (boundIdentity clientId workflowId)
          (queuedJobIds.map boundText) (readyJobIds.map boundText)) })
      else (false, db) := by
  rw [perform, SqlOperation.alone_task, operation, SqlOperation.run, Sqlite.updateReadyJobs,
    ← List.map_append, List.all_map]
  refine if_congr Iff.rfl ?_ rfl
  exact congrArg (fun rows => (true, { db with jobs := rows })) (updatedRows_batch ..)

/-! ### Times that are written once -/

/-- A row that is still the same job, with every time it had. -/
structure JobRow.KeepsTimes (r r' : JobRow) : Prop where
  jobUuid : r'.jobUuid = r.jobUuid
  key : r'.key = r.key
  readyAt : ∀ t, r.readyAt = some t → r'.readyAt = some t
  queuedAt : ∀ t, r.queuedAt = some t → r'.queuedAt = some t
  startedAt : ∀ t, r.startedAt = some t → r'.startedAt = some t

namespace JobRow.KeepsTimes

theorem refl (r : JobRow) : r.KeepsTimes r :=
  ⟨rfl, rfl, fun _ h => h, fun _ h => h, fun _ h => h⟩

theorem trans {r r' r'' : JobRow} (h : r.KeepsTimes r') (h' : r'.KeepsTimes r'') :
    r.KeepsTimes r'' where
  jobUuid := h'.jobUuid.trans h.jobUuid
  key := h'.key.trans h.key
  readyAt t ht := h'.readyAt t (h.readyAt t ht)
  queuedAt t ht := h'.queuedAt t (h.queuedAt t ht)
  startedAt t ht := h'.startedAt t (h.startedAt t ht)

theorem coalesce_eq {at' new : Option Int} (t : Int) (h : at' = some t) : at'.or new = some t := by
  rw [h, Option.some_or]

theorem coalesce (st : JobStatus) (readyAt queuedAt : Option Int) (r : JobRow) :
    r.KeepsTimes (r.coalesce st readyAt queuedAt) :=
  ⟨rfl, rfl, coalesce_eq, coalesce_eq, fun _ h => h⟩

theorem batched (now : Int) (id : WorkflowIdentity) (queued ready : List String) (r : JobRow) :
    r.KeepsTimes (r.batched now id queued ready) := by
  rw [JobRow.batched, Sqlite.markQueued_eq, Sqlite.markReady_eq]
  split
  · exact coalesce ..
  · split
    · exact coalesce ..
    · exact refl r

theorem transition {now : Int} {st : JobStatus} {change : JobRow → JobRow}
    (h : JobRow.transition now st = some change) (r : JobRow) : r.KeepsTimes (change r) := by
  cases st <;> cases h
  case ready => exact ⟨rfl, rfl, coalesce_eq, fun _ h => h, fun _ h => h⟩
  case queued => exact ⟨rfl, rfl, fun _ h => h, coalesce_eq, fun _ h => h⟩
  case running => exact ⟨rfl, rfl, fun _ h => h, fun _ h => h, coalesce_eq⟩
  all_goals exact ⟨rfl, rfl, fun _ h => h, fun _ h => h, fun _ h => h⟩

theorem forall₂_trans {rows rows' rows'' : List JobRow}
    (h : List.Forall₂ JobRow.KeepsTimes rows rows')
    (h' : List.Forall₂ JobRow.KeepsTimes rows' rows'') :
    List.Forall₂ JobRow.KeepsTimes rows rows'' := by
  induction h generalizing rows'' with
  | nil => exact h'
  | cons hrow _ ih =>
      cases h' with
      | cons hrow' hrest' => exact .cons (hrow.trans hrow') (ih hrest')

theorem forall₂_map {change : JobRow → JobRow} (h : ∀ r : JobRow, r.KeepsTimes (change r))
    (rows : List JobRow) : List.Forall₂ JobRow.KeepsTimes rows (rows.map change) :=
  List.forall₂_map_right_iff.mpr (List.forall₂_same.mpr (fun r _ => h r))

end JobRow.KeepsTimes

theorem StatusCall.perform_keepsTimes (c : StatusCall) (db : Sqlite) :
    List.Forall₂ JobRow.KeepsTimes db.jobs (c.perform db).2.jobs := by
  have hsame : List.Forall₂ JobRow.KeepsTimes db.jobs db.jobs :=
    List.forall₂_same.mpr (fun r _ => JobRow.KeepsTimes.refl r)
  cases c with
  | updateReadyJobs now clientId workflowId queuedJobIds readyJobIds =>
      rw [perform_updateReadyJobs]
      split
      · exact JobRow.KeepsTimes.forall₂_map (fun r => JobRow.KeepsTimes.batched _ _ _ _ r) db.jobs
      · exact hsame
  | updateJobStatus now clientId workflowId jobId st =>
      rw [perform, SqlOperation.alone_task, operation, SqlOperation.run, Sqlite.updateJobStatus]
      cases hchange : JobRow.transition now st with
      | none => exact hsame
      | some change =>
          dsimp only
          split
          · refine JobRow.KeepsTimes.forall₂_map (fun r => ?_) db.jobs
            split
            · exact JobRow.KeepsTimes.transition hchange r
            · exact JobRow.KeepsTimes.refl r
          · exact hsame

theorem StatusCall.performAll_keepsTimes (calls : List StatusCall) (db : Sqlite) :
    List.Forall₂ JobRow.KeepsTimes db.jobs (performAll calls db).jobs := by
  induction calls generalizing db with
  | nil => exact List.forall₂_same.mpr (fun r _ => JobRow.KeepsTimes.refl r)
  | cons c calls ih =>
      exact JobRow.KeepsTimes.forall₂_trans (c.perform_keepsTimes db) (ih _)

/-- A batch of status updates is all or nothing: it fails and changes nothing when one of its jobs has
no row, and otherwise it sets READY and QUEUED on the rows of its jobs, QUEUED where a job is in both
lists, and on no other. Over any sequence of calls a time of a job that is set stays as it is. -/
theorem statusUpdates_atomic :
    (∀ (now : Int) (clientId workflowId : String) (queuedJobIds readyJobIds : List String)
      (db : Sqlite),
      let rowOf := fun j => JobRow.isOf ⟨boundIdentity clientId workflowId, boundText j⟩
      let out := (StatusCall.updateReadyJobs now clientId workflowId queuedJobIds readyJobIds).perform db
      ((∃ j ∈ readyJobIds ++ queuedJobIds, ¬ ∃ r ∈ db.jobs, rowOf j r = true) → out = (false, db)) ∧
      ((∀ j ∈ readyJobIds ++ queuedJobIds, ∃ r ∈ db.jobs, rowOf j r = true) →
        out = (true, { db with jobs := db.jobs.map (fun r =>
          if ∃ j ∈ queuedJobIds, rowOf j r = true then
            { r with
              status := .queued
              readyAt := r.readyAt.or (some now)
              queuedAt := r.queuedAt.or (some now) }
          else if ∃ j ∈ readyJobIds, rowOf j r = true then
            { r with status := .ready, readyAt := r.readyAt.or (some now) }
          else r) }))) ∧
    ∀ (calls : List StatusCall) (db : Sqlite),
      List.Forall₂ JobRow.KeepsTimes db.jobs (StatusCall.performAll calls db).jobs := by
  refine ⟨fun now clientId workflowId queuedJobIds readyJobIds db => ⟨?_, ?_⟩,
    StatusCall.performAll_keepsTimes⟩
  · rintro ⟨j, hj, hnone⟩
    rw [StatusCall.perform_updateReadyJobs, if_neg]
    intro hall
    exact hnone (List.any_eq_true.mp (List.all_eq_true.mp hall j hj))
  · intro hrows
    rw [StatusCall.perform_updateReadyJobs, if_pos]
    · refine congrArg (fun rows => (true, { db with jobs := rows })) ?_
      refine List.map_congr_left (fun r _ => ?_)
      simp only [JobRow.batched, List.any_map, List.any_eq_true, Function.comp_apply]
      rfl
    · rw [List.all_eq_true]
      exact fun j hj => List.any_eq_true.mpr (hrows j hj)

/-- Two waiting jobs, of which one has become ready before. -/
def twoWaitingJobs : Sqlite where
  jobs := [{ jobUuid := 1, key := ⟨⟨"c", "w"⟩, "a"⟩, status := .pending },
    { jobUuid := 2, key := ⟨⟨"c", "w"⟩, "b"⟩, status := .pending, readyAt := some 3 }]

/-- A batch with a job in both lists, and one with a job that has no row. -/
theorem statusUpdates_atomic_twoRows :
    ((StatusCall.updateReadyJobs 5 "c" "w" ["a"] ["a", "b"]).perform twoWaitingJobs).1 = true ∧
      (StatusCall.updateReadyJobs 5 "c" "w" ["z"] ["a", "b"]).perform twoWaitingJobs =
        (false, twoWaitingJobs) := by
  constructor
  · exact congrArg Prod.fst
      ((statusUpdates_atomic.1 5 "c" "w" ["a"] ["a", "b"] twoWaitingJobs).2 (by decide +kernel))
  · exact (statusUpdates_atomic.1 5 "c" "w" ["z"] ["a", "b"] twoWaitingJobs).1 (by decide +kernel)

end FlowPilot
