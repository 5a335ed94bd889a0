import FlowPilot.WorkflowHandling

/-! The repairs of SQLite. When Redis has no data of a workflow, or fails while an event is handled, the
completion handler sets the jobs that never ran to their end and the workflow itself to a final
status. -/

namespace FlowPilot

open CompletionHandler

def repaired (st : JobStatus) : JobStatus := (repairedStatus st).getD st

/-- The ledger after the repair of some jobs. -/
def Ledger.repair (l : Ledger) (js : List String) : Ledger :=
  { l with job := fun i => if i ∈ js then (l.job i).map repaired else l.job i }

@[simp] theorem Ledger.repair_job (l : Ledger) (js : List String) (i : String) :
    (l.repair js).job i = if i ∈ js then (l.job i).map repaired else l.job i := rfl

/-- The jobs of the rows that a repair does not skip. -/
def repairable (skip : Option String) (rows : List JobRow) : List String :=
  (rows.map (fun r => r.key.jobId)).filter (fun j => decide (some j ≠ skip))

theorem repairable_cons_of_ne {skip : Option String} {row : JobRow} (h : some row.key.jobId ≠ skip)
    (rows : List JobRow) :
    repairable skip (row :: rows) = row.key.jobId :: repairable skip rows := by
  rw [repairable, List.map_cons, List.filter_cons, if_pos (decide_eq_true h)]
  rfl

theorem repairable_cons_of_eq {skip : Option String} {row : JobRow} (h : some row.key.jobId = skip)
    (rows : List JobRow) : repairable skip (row :: rows) = repairable skip rows := by
  rw [repairable, List.map_cons, List.filter_cons, if_neg]
  · rfl
  · rw [decide_eq_true_eq, not_not]
    exact h

theorem Ledger.repair_cons_of_kept {l : Ledger} {j : String} {js : List String} {st : JobStatus}
    (hst : l.job j = some st) (hkept : repairedStatus st = none) : l.repair (j :: js) = l.repair js := by
  refine Ledger.ext rfl (fun i => ?_)
  rw [repair_job, repair_job]
  by_cases hi : i = j
  · subst hi
    rw [hst, Option.map_some, repaired, hkept]
    simp
  · simp [hi]

theorem Ledger.setJob_repair {l : Ledger} {j : String} {js : List String} {st st' : JobStatus}
    (hst : l.job j = some st) (hnew : repairedStatus st = some st') (hj : j ∉ js) :
    (l.setJob j st').repair js = l.repair (j :: js) := by
  refine Ledger.ext rfl (fun i => ?_)
  rw [repair_job, repair_job, setJob_job]
  by_cases hi : i = j
  · subst hi
    rw [if_neg hj, if_pos rfl, if_pos List.mem_cons_self, hst, Option.map_some, repaired, hnew]
    rfl
  · simp [hi]

section Repairs

variable {id : WorkflowIdentity} {b : Books} {skip : Option String}

theorem repairedStatus_known {st st' : JobStatus} (h : repairedStatus st = some st') (now : Int) :
    JobRow.transition now st' ≠ none := by
  rw [repairedStatus] at h
  split at h
  · cases h
    nofun
  · split at h
    · cases h
      nofun
    · cases h

/-- The loop of the repairs gives every job that it does not skip its repaired status. -/
theorem posts_repairJobs {rows : List JobRow}
    (hstatus : ∀ row ∈ rows, b.ledger.job row.key.jobId = some row.status)
    (hnodup : (rows.map (fun r => r.key.jobId)).Nodup) :
    Posts id (repairJobs id skip rows) b (fun r b' =>
      r = true ∧ b' = { b with ledger := b.ledger.repair (repairable skip rows) }) := by
  induction rows generalizing b with
  | nil =>
      refine posts_pure ⟨rfl, ?_⟩
      have hnone : b.ledger.repair (repairable skip []) = b.ledger := Ledger.ext rfl (fun i => rfl)
      rw [hnone]
  | cons row rest ih =>
      obtain ⟨hrow, hrest⟩ := List.nodup_cons.mp hnodup
      have hcurrent := hstatus row List.mem_cons_self
      have hothers := fun r hr => hstatus r (List.mem_cons_of_mem row hr)
      have hfresh : row.key.jobId ∉ repairable skip rest :=
        fun hmem => hrow (List.mem_filter.mp hmem).1
      rw [repairJobs]
      cases hnew : repairedStatus row.status with
      | none =>
          refine (ih hothers hrest).mono (fun r b' hb' => ⟨hb'.1, hb'.2.trans ?_⟩)
          by_cases hskip : some row.key.jobId = skip
          · rw [repairable_cons_of_eq hskip]
          · rw [repairable_cons_of_ne hskip, Ledger.repair_cons_of_kept hcurrent hnew]
      | some st =>
          dsimp only
          by_cases hskip : some row.key.jobId = skip
          · rw [if_pos hskip]
            refine (ih hothers hrest).mono (fun r b' hb' => ⟨hb'.1, hb'.2.trans ?_⟩)
            rw [repairable_cons_of_eq hskip]
          · rw [if_neg hskip]
            refine Posts.bind (posts_updateJobStatus (k := ⟨id, row.key.jobId⟩)
              (repairedStatus_known hnew) (by rw [hcurrent]; simp)) ?_
            rintro updated b₁ ⟨rfl, rfl⟩
            have hothers' : ∀ r ∈ rest, (b.ledger.setJob row.key.jobId st).job r.key.jobId =
                some r.status := by
              intro r hr
              rw [Ledger.setJob_job, if_neg]
              · exact hothers r hr
              · exact fun heq => hrow (List.mem_map.mpr ⟨r, hr, heq⟩)
            refine Posts.bind (ih hothers' hrest) ?_
            rintro others b₂ ⟨rfl, rfl⟩
            refine posts_pure ⟨rfl, ?_⟩
            rw [repairable_cons_of_ne hskip]
            exact congrArg (fun l => { b with ledger := l })
              (Ledger.setJob_repair hcurrent hnew hfresh)

/-- The ledger of a workflow that was failed because Redis has no data of it. -/
def Ledger.failMissing (l : Ledger) : Ledger where
  workflow := some .failed
  job := fun i => (l.job i).map repaired

theorem Lists.repair_eq {rows : List JobRow} (h : Lists b rows) :
    (b.ledger.repair (repairable none rows)).setWorkflow .failed = b.ledger.failMissing := by
  refine Ledger.ext rfl (fun i => ?_)
  have hmem : i ∈ repairable none rows ↔ b.ledger.job i ≠ none := by
    rw [← h.mem i, repairable, List.mem_filter]
    exact and_iff_left (decide_eq_true (by nofun))
  change (if i ∈ repairable none rows then (b.ledger.job i).map repaired else b.ledger.job i) =
    (b.ledger.job i).map repaired
  split
  · rfl
  · rename_i hi
    rw [not_not.mp (mt hmem.mpr hi)]
    rfl

theorem posts_persistAfterMissingRuntime (hkeyed : b.keyed = true) (hrow : b.ledger.workflow ≠ none) :
    Posts id (persistFailedWorkflowAfterMissingRuntime id) b (fun r b' =>
      r = true ∧ b' = { b with ledger := b.ledger.failMissing }) := by
  refine Posts.bind posts_getAllJobsForWorkflow ?_
  rintro r b₁ ⟨rfl, rows, rfl, hrows⟩
  refine Posts.bind (posts_repairJobs (hrows.status hkeyed) (hrows.nodup hkeyed)) ?_
  rintro r b₂ ⟨rfl, rfl⟩
  have hfailed : ∀ now, WorkflowRow.transition now .failed ≠ none := by nofun
  refine Posts.bind (posts_updateWorkflowStatus hfailed hrow) ?_
  rintro r b₃ ⟨rfl, rfl⟩
  exact posts_pure ⟨rfl, congrArg (fun l => { b₁ with ledger := l }) hrows.repair_eq⟩

theorem find?_getAllWorkflowsForClient (db : Sqlite) (id : WorkflowIdentity) :
    (db.getAllWorkflowsForClient id.clientId).find?
        (fun r => decide (r.identity.workflowId = id.workflowId)) =
      db.workflows.find? (WorkflowRow.isOf id) := by
  rw [Sqlite.getAllWorkflowsForClient, List.find?_filter]
  congr 1
  funext r
  refine decide_eq_decide.mpr ?_
  rw [decide_eq_true_eq, decide_eq_true_eq]
  constructor
  · rintro ⟨hclient, hworkflow⟩
    obtain ⟨clientId, workflowId⟩ := id
    cases hclient
    cases hworkflow
    rfl
  · rintro rfl
    exact ⟨rfl, rfl⟩

/-- What `process_completed_jobs` decides by the status that SQLite has for the workflow. -/
theorem settles_repairMissingRuntime {w : World} {ws : WorkflowStatus}
    (hws : w.sqlite.workflowStatus id = some ws) {P : World → Prop}
    (hended : ws = .failed ∨ ws = .canceled → P w) (hopen : ws ≠ .failed → ws ≠ .canceled →
      Settles (persistFailedWorkflowAfterMissingRuntime id) w (fun _ w' => P w')) :
    Settles (repairMissingRuntime id) w (fun _ w' => P w') := by
  have hask : Settles (ask (.getAllWorkflowsForClient id)) w (fun r w' =>
      r = some (w.sqlite.getAllWorkflowsForClient id.clientId) ∧ w' = w) :=
    settles_ask (fun _ => ⟨rfl, rfl⟩)
  refine Settles.bind hask ?_
  rintro r w' ⟨rfl, rfl⟩
  obtain ⟨row, hfind, hstatus⟩ := Option.map_eq_some_iff.mp hws
  dsimp only
  rw [find?_getAllWorkflowsForClient, hfind, Option.any_some, hstatus]
  split
  · rename_i hcheck
    refine settles_pure (hended ?_)
    rw [Bool.or_eq_true, beq_iff_eq, beq_iff_eq] at hcheck
    exact hcheck
  · rename_i hcheck
    rw [Bool.or_eq_true, beq_iff_eq, beq_iff_eq, not_or] at hcheck
    exact (hopen hcheck.1 hcheck.2).bind (fun _ w'' h => settles_pure h)

end Repairs

/-- What the repair of a workflow without runtime data is to leave in SQLite. -/
structure Repaired (id : WorkflowIdentity) (db db' : Sqlite) : Prop where
  workflow : db'.workflowStatus id = some .failed
  waiting : ∀ j st, db.jobStatus ⟨id, j⟩ = some st → st.isWaitingToRun = true →
    db'.jobStatus ⟨id, j⟩ = some .aborted
  running : ∀ j, db.jobStatus ⟨id, j⟩ = some .running → db'.jobStatus ⟨id, j⟩ = some .failed
  ended : ∀ j st, db.jobStatus ⟨id, j⟩ = some st → st = .completed ∨ st = .failed ∨ st = .aborted →
    db'.jobStatus ⟨id, j⟩ = some st
  others : ∀ id', id' ≠ id → db'.workflowStatus id' = db.workflowStatus id' ∧
    ∀ j, db'.jobStatus ⟨id', j⟩ = db.jobStatus ⟨id', j⟩

/-- A terminal workflow is left alone, and any other one repaired. -/
def RepairsMissing (id : WorkflowIdentity) (ws : WorkflowStatus) (db db' : Sqlite) : Prop :=
  if ws = .completed ∨ ws = .failed ∨ ws = .canceled then db' = db else Repaired id db db'

section Missing

variable {id : WorkflowIdentity} {w : World}

theorem settles_failMissing (hkeyed : (w.sqlite.jobs.map JobRow.key).Nodup)
    (hrow : w.sqlite.workflowStatus id ≠ none) :
    Settles (persistFailedWorkflowAfterMissingRuntime id) w (fun _ w' =>
      w'.sqlite.ledger id = (w.sqlite.ledger id).failMissing ∧
      ∀ id', id' ≠ id → w'.sqlite.ledger id' = w.sqlite.ledger id') := by
  have hmine : Settles (persistFailedWorkflowAfterMissingRuntime id) w (fun _ w' =>
      w'.sqlite.ledger id = (w.sqlite.ledger id).failMissing) :=
    Settles.mono (posts_persistAfterMissingRuntime (b := books id w) (decide_eq_true hkeyed) hrow w
      rfl) (fun _ _ h => congrArg Books.ledger h.2)
  have hothers : Settles (persistFailedWorkflowAfterMissingRuntime id) w (fun _ w' =>
      (fun id' => if id' = id then none else some (w'.sqlite.ledger id')) =
        fun id' => if id' = id then none else some (w.sqlite.ledger id')) := by
    refine settles_keeps (f := fun w : World => fun id' =>
      if id' = id then none else some (w.sqlite.ledger id'))
      ((judges_of_sqlite (persistAfterMissingRuntime_onlyCalls id)).mono
        (fun _ => JudgesAbout.handles)) (fun c hc e w' => ?_)
    funext id'
    split
    · rfl
    · rename_i hne
      exact congrArg (fun b : Books => some b.ledger) (books_exec_of_ne hc hne e w')
  refine (hmine.and hothers).mono (fun _ w' h => ⟨h.1, fun id' hne => ?_⟩)
  have hsame := congrFun h.2 id'
  rwa [if_neg hne, if_neg hne, Option.some.injEq] at hsame

theorem Repaired.of_ledger {db db' : Sqlite} (hmine : db'.ledger id = (db.ledger id).failMissing)
    (hothers : ∀ id', id' ≠ id → db'.ledger id' = db.ledger id') : Repaired id db db' := by
  have hjob : ∀ j, db'.jobStatus ⟨id, j⟩ = (db.jobStatus ⟨id, j⟩).map repaired :=
    fun j => congrFun (congrArg Ledger.job hmine) j
  refine ⟨congrArg Ledger.workflow hmine, fun j st hst hwait => ?_, fun j hst => ?_,
    fun j st hst hended => ?_, fun id' hne => ⟨congrArg Ledger.workflow (hothers id' hne), fun j => ?_⟩⟩
  · rw [hjob, hst, Option.map_some, repaired, repairedStatus, if_pos hwait]
    rfl
  · rw [hjob, hst]
    rfl
  · rw [hjob, hst]
    rcases hended with rfl | rfl | rfl <;> rfl
  · exact congrFun (congrArg Ledger.job (hothers id' hne)) j

/-- When Redis has no hash of the workflow of an event and every call is answered,
`process_completed_jobs` treats SQLite as promised exactly if SQLite does not have the workflow as
COMPLETED: it tests for FAILED and CANCELED only. The keys of `jobs` are distinct, as the table
demands. -/
theorem missingRuntime_repaired_iff (e : JobCompletionData) (w : World) {ws : WorkflowStatus}
    (hhash : (w.redis.workflows e.identity).hash = none)
    (hkeyed : (w.sqlite.jobs.map JobRow.key).Nodup)
    (hws : w.sqlite.workflowStatus e.identity = some ws) (env : Nat → Env)
    (hanswered : ∀ n, (env n).ok = true) :
    RepairsMissing e.identity ws w.sqlite
      (Prog.run Call.exec env (processCompletedJobs e) w).2.sqlite ↔ ws ≠ .completed := by
  have hrow : w.sqlite.workflowStatus e.identity ≠ none := by
    rw [hws]
    nofun
  have hsettles : Settles (processCompletedJobs e) w (fun _ w' =>
      RepairsMissing e.identity ws w.sqlite w'.sqlite ↔ ws ≠ .completed) := by
    have hfetch : Settles (ask (.fetchWorkflowRuntime e.identity)) w
        (fun r w' => r = none ∧ w' = w) := settles_ask (fun _ => ⟨hhash, rfl⟩)
    refine Settles.bind hfetch ?_
    rintro r w' ⟨rfl, rfl⟩
    refine settles_repairMissingRuntime (P := fun w₁ =>
      RepairsMissing e.identity ws w'.sqlite w₁.sqlite ↔ ws ≠ .completed) hws (fun hended => ?_)
      (fun hfailed hcanceled => (settles_failMissing hkeyed hrow).mono (fun _ w₁ h => ?_))
    · rw [RepairsMissing, if_pos (.inr hended)]
      rcases hended with rfl | rfl <;> simp
    · have hrepaired := Repaired.of_ledger h.1 h.2
      by_cases hcompleted : ws = .completed
      · -- the workflow was COMPLETED and is FAILED now
        rw [RepairsMissing, if_pos (.inl hcompleted)]
        refine ⟨fun hsame => ?_, fun hne => absurd hcompleted hne⟩
        have hstatus := hrepaired.workflow
        rw [hsame, hws, hcompleted] at hstatus
        cases hstatus
      · rw [RepairsMissing, if_neg (by tauto)]
        exact ⟨fun _ => hcompleted, fun _ => hrepaired⟩
  exact Prog.Ensures.run hsettles env hanswered

/-- A workflow of two jobs as SQLite has it, with the statuses of the workflow and of its jobs. -/
def recordedPair (ws : WorkflowStatus) (a b : JobStatus) : World where
  sqlite := {
    workflows := [{ identity := ⟨"client", "workflow"⟩, workflowType := "batch", version := "v1.0",
                    status := ws, totalJobs := 2, receivedAt := 0 }]
    jobs := [{ jobUuid := 0, key := ⟨⟨"client", "workflow"⟩, "a"⟩, status := a },
             { jobUuid := 1, key := ⟨⟨"client", "workflow"⟩, "b"⟩, status := b }] }

/-- A late event of the first job of that workflow. -/
def lateEvent : JobCompletionData := ⟨⟨"client", "workflow"⟩, "a", .completed, .ok⟩

/-- A running workflow is repaired. -/
theorem missingRuntime_repaired_running :
    RepairsMissing lateEvent.identity .running (recordedPair .running .running .queued).sqlite
      (Prog.run Call.exec (fun _ => {}) (processCompletedJobs lateEvent)
        (recordedPair .running .running .queued)).2.sqlite :=
  (missingRuntime_repaired_iff lateEvent (recordedPair .running .running .queued) rfl (by decide) rfl
    (fun _ => {}) (fun _ => rfl)).mpr (by decide)

/-- A workflow that is COMPLETED in SQLite, and whose data in Redis are gone because of it, is FAILED
after an event that comes late. -/
theorem missingRuntime_completed_failed :
    ¬ RepairsMissing lateEvent.identity .completed
      (recordedPair .completed .completed .completed).sqlite
      (Prog.run Call.exec (fun _ => {}) (processCompletedJobs lateEvent)
        (recordedPair .completed .completed .completed)).2.sqlite := by
  rw [RepairsMissing, if_pos (.inl rfl)]
  intro hsame
  have hbefore : (recordedPair .completed .completed .completed).sqlite.workflowStatus
      lateEvent.identity = some .completed := rfl
  have hafter : (Prog.run Call.exec (fun _ => {}) (processCompletedJobs lateEvent)
      (recordedPair .completed .completed .completed)).2.sqlite.workflowStatus
        lateEvent.identity = some .failed := by decide +kernel
  rw [hsame, hbefore] at hafter
  cases hafter

end Missing

end FlowPilot
