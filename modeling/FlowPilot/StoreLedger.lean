import FlowPilot.StoreSqlite

/-! The statuses that SQLite records, and what each statement does to them. -/

namespace FlowPilot

theorem find?_updateWhere {α : Type} {selected wanted : α → Bool} {change : α → α}
    (hkeeps : ∀ r, wanted (change r) = wanted r) (rows : List α) :
    (updateWhere selected change rows).find? wanted =
      (rows.find? wanted).map (fun r => if selected r then change r else r) := by
  induction rows with
  | nil => rfl
  | cons r rest ih =>
      have hwanted : wanted (if selected r then change r else r) = wanted r := by
        split
        · exact hkeeps r
        · rfl
      rw [updateWhere, List.map_cons, List.find?_cons, List.find?_cons, hwanted]
      split
      · rfl
      · exact ih

namespace Sqlite

def jobStatus (k : JobKey) (db : Sqlite) : Option JobStatus :=
  (db.jobs.find? (JobRow.isOf k)).map JobRow.status

def workflowStatus (id : WorkflowIdentity) (db : Sqlite) : Option WorkflowStatus :=
  (db.workflows.find? (WorkflowRow.isOf id)).map WorkflowRow.status

variable (db : Sqlite) (now : Int)

/-- The status of a job in a list of rows. -/
def statusIn (rows : List JobRow) (k : JobKey) : Option JobStatus :=
  (rows.find? (JobRow.isOf k)).map JobRow.status

variable {k : JobKey} {change : JobRow → JobRow} {st : JobStatus} {newRows rows : List JobRow}

theorem statusIn_updateWhere
    (hchange : ∀ r, (change r).key = r.key ∧ (change r).status = st) (rows : List JobRow)
    (k' : JobKey) : statusIn (updateWhere (JobRow.isOf k) change rows) k' =
      if k' = k then (statusIn rows k').map (fun _ => st) else statusIn rows k' := by
  rw [statusIn, statusIn, find?_updateWhere (fun r => by rw [JobRow.isOf, JobRow.isOf, (hchange r).1])]
  cases hfind : rows.find? (JobRow.isOf k') with
  | none => simp
  | some r =>
      have hkey : r.key = k' := of_decide_eq_true (List.find?_some (p := JobRow.isOf k') hfind)
      simp only [Option.map_some]
      by_cases hk : k' = k
      · have hsel : JobRow.isOf k r = true := decide_eq_true (hkey.trans hk)
        rw [if_pos hk, if_pos hsel, (hchange r).2]
      · rw [if_neg hk]
        split
        · rename_i hsel
          exact absurd (hkey.symm.trans (of_decide_eq_true hsel)) hk
        · rfl

theorem statusIn_foldl_updateWhere (id : WorkflowIdentity)
    (hchange : ∀ r, (change r).key = r.key ∧ (change r).status = st)
    (js : List String) (rows : List JobRow) (k : JobKey) :
    statusIn (js.foldl (fun rows j => updateWhere (JobRow.isOf ⟨id, j⟩) change rows) rows) k =
      if k.identity = id ∧ k.jobId ∈ js then (statusIn rows k).map (fun _ => st)
      else statusIn rows k := by
  induction js generalizing rows with
  | nil => simp
  | cons j rest ih =>
      rw [List.foldl_cons, ih, statusIn_updateWhere hchange]
      obtain ⟨kid, kj⟩ := k
      by_cases hk : (⟨kid, kj⟩ : JobKey) = ⟨id, j⟩
      · cases hk
        simp [Function.comp_def]
      · have hiff : kid = id ∧ kj ∈ j :: rest ↔ kid = id ∧ kj ∈ rest := by
          refine and_congr_right (fun hid => ?_)
          rw [List.mem_cons]
          exact or_iff_right (fun hj => hk (by rw [hid, hj]))
        simp only [if_neg hk, hiff]

theorem transition_status {now : Int} (h : JobRow.transition now st = some change) (r : JobRow) :
    (change r).key = r.key ∧ (change r).status = st := by
  cases st <;> cases h <;> exact ⟨rfl, rfl⟩

/-- `update_job_status` sets the status of the job, if it has a row and the status is known, and that
of no other one. -/
theorem jobStatus_updateJobStatus (k : JobKey) (st : JobStatus) (k' : JobKey) :
    (db.updateJobStatus now k st).2.jobStatus k' = db.jobStatus k' ∨
      (k' = k ∧ (db.updateJobStatus now k st).2.jobStatus k' = some st) := by
  rw [updateJobStatus]
  split
  · exact .inl rfl
  rename_i change hchange
  split
  · have hupdate := statusIn_updateWhere (k := k) (transition_status hchange) db.jobs k'
    by_cases hk : k' = k
    · rw [if_pos hk] at hupdate
      cases hold : statusIn db.jobs k' with
      | none => exact .inl (hupdate.trans (by rw [hold]; exact hold.symm))
      | some st' => exact .inr ⟨hk, hupdate.trans (by rw [hold]; rfl)⟩
    · rw [if_neg hk] at hupdate
      exact .inl hupdate
  · exact .inl rfl

/-- `update_ready_jobs` sets the jobs it names to QUEUED or READY, or changes nothing. -/
theorem jobStatus_updateReadyJobs (id : WorkflowIdentity) (queued ready : List String) (k : JobKey) :
    (db.updateReadyJobs now id queued ready).2.jobStatus k = db.jobStatus k ∨
      (k.identity = id ∧ k.jobId ∈ queued ++ ready ∧
        ((db.updateReadyJobs now id queued ready).2.jobStatus k = some .queued ∨
          (db.updateReadyJobs now id queued ready).2.jobStatus k = some .ready)) := by
  rw [updateReadyJobs]
  split
  · have hmarkQueued : ∀ r, (markQueued now r).key = r.key ∧ (markQueued now r).status = .queued :=
      fun _ => ⟨rfl, rfl⟩
    have hmarkReady : ∀ r, (markReady now r).key = r.key ∧ (markReady now r).status = .ready :=
      fun _ => ⟨rfl, rfl⟩
    have hqueued := statusIn_foldl_updateWhere id hmarkQueued queued
      (ready.foldl (fun rows j => updateWhere (JobRow.isOf ⟨id, j⟩) (markReady now) rows) db.jobs) k
    have hready := statusIn_foldl_updateWhere id hmarkReady ready db.jobs k
    dsimp only
    change statusIn _ k = statusIn db.jobs k ∨ _ ∧ _ ∧ (statusIn _ k = _ ∨ statusIn _ k = _)
    rw [hqueued, hready]
    cases hold : statusIn db.jobs k with
    | none => exact .inl (by split <;> split <;> rfl)
    | some st =>
        by_cases hq : k.identity = id ∧ k.jobId ∈ queued
        · refine .inr ⟨hq.1, List.mem_append_left _ hq.2, .inl ?_⟩
          rw [if_pos hq]
          split <;> rfl
        · rw [if_neg hq]
          by_cases hr : k.identity = id ∧ k.jobId ∈ ready
          · exact .inr ⟨hr.1, List.mem_append_right _ hr.2, .inr (if_pos hr)⟩
          · exact .inl (if_neg hr)
  · exact .inl rfl

theorem workflowStatus_updateWorkflowStatus (id : WorkflowIdentity) (st : WorkflowStatus)
    (id' : WorkflowIdentity) :
    (db.updateWorkflowStatus now id st).2.workflowStatus id' = db.workflowStatus id' ∨
      (id' = id ∧ (db.updateWorkflowStatus now id st).2.workflowStatus id' = some st) := by
  rw [updateWorkflowStatus]
  split
  · exact .inl rfl
  rename_i change hchange
  have hkeeps : ∀ r, (change r).identity = r.identity ∧ (change r).status = st := fun r => by
    cases st <;> cases hchange <;> exact ⟨rfl, rfl⟩
  split
  · rw [workflowStatus, workflowStatus,
      find?_updateWhere (fun r => by rw [WorkflowRow.isOf, WorkflowRow.isOf, (hkeeps r).1])]
    cases hfind : db.workflows.find? (WorkflowRow.isOf id') with
    | none => exact .inl rfl
    | some r =>
        have hid : r.identity = id' :=
          of_decide_eq_true (List.find?_some (p := WorkflowRow.isOf id') hfind)
        simp only [Option.map_some]
        split
        · rename_i hsel
          exact .inr ⟨hid.symm.trans (of_decide_eq_true hsel), congrArg some (hkeeps r).2⟩
        · exact .inl rfl
  · exact .inl rfl

theorem jobStatus_failAllJobsWaitingToRun {id : WorkflowIdentity}
    (h : k.identity ≠ id) : (db.failAllJobsWaitingToRun id).jobStatus k = db.jobStatus k := by
  have hkeeps : ∀ r : JobRow, JobRow.isOf k { r with status := .aborted } = JobRow.isOf k r :=
    fun _ => rfl
  refine (congrArg (Option.map JobRow.status) (find?_updateWhere hkeeps db.jobs)).trans ?_
  rw [jobStatus]
  cases hfind : db.jobs.find? (JobRow.isOf k) with
  | none => rfl
  | some r =>
      have hkey : r.key = k := of_decide_eq_true (List.find?_some (p := JobRow.isOf k) hfind)
      rw [Option.map_some, if_neg]
      rw [Bool.and_eq_true]
      exact fun hsel => h (hkey ▸ of_decide_eq_true hsel.1)

theorem jobStatus_failAllJobsWaitingToRun_self
    (h : db.jobStatus k = some st) (hst : st = .pending ∨ st = .ready ∨ st = .queued) :
    (db.failAllJobsWaitingToRun k.identity).jobStatus k = some .aborted := by
  have hkeeps : ∀ r : JobRow, JobRow.isOf k { r with status := .aborted } = JobRow.isOf k r :=
    fun _ => rfl
  refine (congrArg (Option.map JobRow.status) (find?_updateWhere hkeeps db.jobs)).trans ?_
  obtain ⟨r, hfind, rfl⟩ := Option.map_eq_some_iff.mp h
  have hkey : r.key = k := of_decide_eq_true (List.find?_some (p := JobRow.isOf k) hfind)
  rw [hfind, Option.map_some, if_pos]
  · rfl
  · rw [hkey, decide_eq_true rfl, Bool.true_and]
    rcases hst with hst | hst | hst <;> rw [hst] <;> rfl

theorem workflowStatus_addWorkflow (row : WorkflowRow) (id : WorkflowIdentity) :
    (db.addWorkflow row).2.workflowStatus id = db.workflowStatus id ∨
      (id = row.identity ∧ (db.addWorkflow row).2.workflowStatus id = some row.status) := by
  rw [addWorkflow]
  split
  · exact .inl rfl
  rename_i hnew
  rw [workflowStatus, workflowStatus, List.find?_append, List.find?_singleton]
  by_cases hid : row.identity = id
  · have hnone : db.workflows.find? (WorkflowRow.isOf id) = none :=
      List.find?_eq_none.mpr (fun r hr hsel => hnew (List.any_eq_true.mpr ⟨r, hr, hid ▸ hsel⟩))
    have hsel : WorkflowRow.isOf id row = true := decide_eq_true hid
    refine .inr ⟨hid.symm, ?_⟩
    rw [hnone, if_pos hsel]
    rfl
  · have hsel : ¬ WorkflowRow.isOf id row = true := fun hsel => hid (of_decide_eq_true hsel)
    rw [if_neg hsel, Option.or_none]
    exact .inl rfl

theorem workflowStatus_of_added (row : WorkflowRow) (h : (db.addWorkflow row).1 = true) :
    (db.addWorkflow row).2.workflowStatus row.identity = some row.status := by
  rw [addWorkflow] at h ⊢
  split at h
  · cases h
  rename_i hnew
  have hnone : db.workflows.find? (WorkflowRow.isOf row.identity) = none :=
    List.find?_eq_none.mpr (fun r hr hsel => hnew (List.any_eq_true.mpr ⟨r, hr, hsel⟩))
  have hsel : WorkflowRow.isOf row.identity row = true := decide_eq_true rfl
  rw [if_neg hnew, workflowStatus, List.find?_append, List.find?_singleton, hnone, if_pos hsel]
  rfl

theorem statusIn_append
    (h : ∀ row ∈ newRows, row.key ≠ k) : statusIn (rows ++ newRows) k = statusIn rows k := by
  have hnone : newRows.find? (JobRow.isOf k) = none :=
    List.find?_eq_none.mpr (fun row hrow hsel => h row hrow (of_decide_eq_true hsel))
  rw [statusIn, statusIn, List.find?_append, hnone, Option.or_none]

theorem insertJobs_eq_some {all : List JobRow}
    (h : insertJobs newRows rows = some all) : all = rows ++ newRows := by
  induction newRows generalizing rows with
  | nil =>
      cases h
      exact (List.append_nil _).symm
  | cons row rest ih =>
      rw [insertJobs] at h
      split at h
      · cases h
      · rw [ih h, List.append_assoc, List.singleton_append]

theorem insertJobs_new {all : List JobRow} (h : insertJobs newRows rows = some all) :
    ∀ row ∈ newRows, ∀ r ∈ rows, r.key ≠ row.key := by
  induction newRows generalizing rows with
  | nil =>
      intro row hrow
      cases hrow
  | cons row rest ih =>
      rw [insertJobs] at h
      split at h
      · cases h
      · rename_i hnew
        intro row' hrow' r hr hkey
        rcases List.mem_cons.mp hrow' with rfl | hrest
        · refine hnew (List.any_eq_true.mpr ⟨r, hr, ?_⟩)
          rw [hkey, beq_self_eq_true, Bool.or_true]
        · exact ih h row' hrest r (List.mem_append_left _ hr) hkey

theorem jobStatus_addWorkflowJobs (newRows : List JobRow) (st : JobStatus)
    (hstatus : ∀ row ∈ newRows, row.status = st) (h : (db.addWorkflowJobs newRows).1 = true) :
    ∀ row ∈ newRows, (db.addWorkflowJobs newRows).2.jobStatus row.key = some st := by
  intro row hrow
  rw [addWorkflowJobs] at h ⊢
  split at h
  · cases h
  rename_i all hall
  have hold : db.jobs.find? (JobRow.isOf row.key) = none := List.find?_eq_none.mpr
    (fun r hr hsel => insertJobs_new hall row hrow r hr (of_decide_eq_true hsel))
  have hself : JobRow.isOf row.key row = true := decide_eq_true rfl
  obtain ⟨r, hr⟩ := Option.isSome_iff_exists.mp (List.find?_isSome.mpr ⟨row, hrow, hself⟩)
  change statusIn all row.key = some st
  rw [insertJobs_eq_some hall, statusIn, List.find?_append, hold, Option.none_or, hr,
    Option.map_some, hstatus r (List.mem_of_find?_eq_some hr)]

end Sqlite

end FlowPilot
