import FlowPilot.RuntimeAlone
import FlowPilot.RuntimeLedger
import FlowPilot.WorkflowSimulation

/-! What the two stores say about one workflow, and how a program that runs alone, with every call
answered, changes it. `Posts` is the judgement: from books `b` the program ends with books as `post`
says. Each call that a component makes about its workflow has one rule; a program about another
workflow leaves the books as they are. -/

namespace FlowPilot

/-- What the stores say about a workflow. -/
structure Books where
  /-- the keys of the workflow in Redis -/
  space : WorkflowKeyspace
  /-- the statuses in SQLite -/
  ledger : Ledger
  /-- the id is in the active set of the client -/
  active : Bool
  /-- the jobs with an event in the completion stream -/
  reported : List String
  /-- no two rows of `jobs` have one key -/
  keyed : Bool

def books (id : WorkflowIdentity) (w : World) : Books where
  space := w.redis.workflows id
  ledger := w.sqlite.ledger id
  active := decide (id.workflowId ∈ w.redis.activeWorkflows id.clientId)
  reported := (w.redis.jobCompletionStream.filter (fun e => decide (e.identity = id))).map
    JobCompletionData.jobId
  keyed := decide (w.sqlite.jobs.map JobRow.key).Nodup

namespace Ledger

def setJob (l : Ledger) (j : String) (st : JobStatus) : Ledger :=
  { l with job := Function.update l.job j (some st) }

def setWorkflow (l : Ledger) (ws : WorkflowStatus) : Ledger := { l with workflow := some ws }

def setReady (l : Ledger) (queued ready : List String) : Ledger :=
  { l with job := fun i =>
      if i ∈ queued then some .queued else if i ∈ ready then some .ready else l.job i }

def setJobs (l : Ledger) (js : List String) (st : JobStatus) : Ledger :=
  { l with job := fun i => if i ∈ js then some st else l.job i }

@[simp] theorem setJob_job (l : Ledger) (i j : String) (st : JobStatus) :
    (l.setJob j st).job i = if i = j then some st else l.job i :=
  Function.update_apply l.job j (some st) i

theorem setJob_job_ne_none {l : Ledger} {i : String} (st : JobStatus) (hi : l.job i ≠ none)
    (j : String) : (l.setJob j st).job i ≠ none := by
  rw [setJob_job]
  split
  · nofun
  · exact hi

@[simp] theorem setReady_job (l : Ledger) (queued ready : List String) (i : String) :
    (l.setReady queued ready).job i =
      if i ∈ queued then some .queued else if i ∈ ready then some .ready else l.job i := rfl

@[simp] theorem setJobs_job (l : Ledger) (js : List String) (st : JobStatus) (i : String) :
    (l.setJobs js st).job i = if i ∈ js then some st else l.job i := rfl

@[ext] theorem ext {l l' : Ledger} (hworkflow : l.workflow = l'.workflow)
    (hjob : ∀ j, l.job j = l'.job j) : l = l' := by
  cases l
  cases l'
  cases hworkflow
  cases funext hjob
  rfl

theorem setReady_nil (l : Ledger) : l.setReady [] [] = l :=
  ext rfl (fun j => by simp)

theorem setJobs_cons (l : Ledger) (j : String) (rest : List String) (st : JobStatus) :
    (l.setJob j st).setJobs rest st = l.setJobs (j :: rest) st :=
  ext rfl (fun i => by by_cases hi : i = j <;> simp [hi])

end Ledger

namespace Sqlite

variable (db : Sqlite) (now : Int)

theorem any_isOf_iff (k : JobKey) : db.jobs.any (JobRow.isOf k) = true ↔ db.jobStatus k ≠ none := by
  rw [jobStatus, Ne, Option.map_eq_none_iff, List.find?_eq_none, List.any_eq_true]
  simp only [not_forall, not_not, exists_prop]

theorem any_workflow_iff (id : WorkflowIdentity) :
    db.workflows.any (WorkflowRow.isOf id) = true ↔ db.workflowStatus id ≠ none := by
  rw [workflowStatus, Ne, Option.map_eq_none_iff, List.find?_eq_none, List.any_eq_true]
  simp only [not_forall, not_not, exists_prop]

theorem updateJobStatus_ledger {k : JobKey} {st : JobStatus} (hst : JobRow.transition now st ≠ none)
    (hrow : db.jobStatus k ≠ none) : (db.updateJobStatus now k st).1 = true ∧
      (db.updateJobStatus now k st).2.ledger k.identity =
        (db.ledger k.identity).setJob k.jobId st := by
  obtain ⟨change, hchange⟩ := Option.ne_none_iff_exists'.mp hst
  have heq : db.updateJobStatus now k st =
      (true, { db with jobs := updateWhere (JobRow.isOf k) change db.jobs }) := by
    rw [updateJobStatus, hchange]
    exact if_pos ((db.any_isOf_iff k).mpr hrow)
  rw [heq]
  refine ⟨rfl, Ledger.ext rfl (fun j => ?_)⟩
  refine (statusIn_updateWhere (k := k) (transition_status hchange) db.jobs ⟨k.identity, j⟩).trans ?_
  obtain ⟨st', hst'⟩ := Option.ne_none_iff_exists'.mp hrow
  rw [Ledger.setJob_job]
  by_cases hj : j = k.jobId
  · subst hj
    rw [if_pos rfl, if_pos rfl]
    exact congrArg (Option.map _) hst'
  · rw [if_neg (fun hk => hj (congrArg JobKey.jobId hk)), if_neg hj]
    rfl

theorem updateWorkflowStatus_ledger {id : WorkflowIdentity} {ws : WorkflowStatus}
    (hws : WorkflowRow.transition now ws ≠ none) (hrow : db.workflowStatus id ≠ none) :
    (db.updateWorkflowStatus now id ws).1 = true ∧
      (db.updateWorkflowStatus now id ws).2.ledger id = (db.ledger id).setWorkflow ws := by
  obtain ⟨change, hchange⟩ := Option.ne_none_iff_exists'.mp hws
  have hkeeps : ∀ r, (change r).identity = r.identity ∧ (change r).status = ws := fun r => by
    cases ws <;> cases hchange <;> exact ⟨rfl, rfl⟩
  have heq : db.updateWorkflowStatus now id ws =
      (true, { db with workflows := updateWhere (WorkflowRow.isOf id) change db.workflows }) := by
    rw [updateWorkflowStatus, hchange]
    exact if_pos ((db.any_workflow_iff id).mpr hrow)
  rw [heq]
  refine ⟨rfl, Ledger.ext ?_ (fun j => rfl)⟩
  change (List.find? _ (updateWhere _ _ _)).map _ = some ws
  rw [find?_updateWhere (fun r => by rw [WorkflowRow.isOf, WorkflowRow.isOf, (hkeeps r).1])]
  rw [workflowStatus, Ne, Option.map_eq_none_iff] at hrow
  obtain ⟨r, hr⟩ := Option.ne_none_iff_exists'.mp hrow
  have hsel : WorkflowRow.isOf id r = true := List.find?_some hr
  rw [hr, Option.map_some, Option.map_some, if_pos hsel, (hkeeps r).2]

theorem updateReadyJobs_ledger {id : WorkflowIdentity} {queued ready : List String}
    (hrows : ∀ j ∈ queued ++ ready, db.jobStatus ⟨id, j⟩ ≠ none) :
    (db.updateReadyJobs now id queued ready).1 = true ∧
      (db.updateReadyJobs now id queued ready).2.ledger id =
        (db.ledger id).setReady queued ready := by
  have hall : (ready ++ queued).all (fun j => db.jobs.any (JobRow.isOf ⟨id, j⟩)) = true := by
    refine List.all_eq_true.mpr (fun j hj => (db.any_isOf_iff _).mpr (hrows j ?_))
    exact List.mem_append.mpr (List.mem_append.mp hj).symm
  rw [updateReadyJobs, if_pos hall]
  refine ⟨rfl, Ledger.ext rfl (fun j => ?_)⟩
  have hqueued := statusIn_foldl_updateWhere id (fun r => (⟨rfl, rfl⟩ :
    (markQueued now r).key = r.key ∧ (markQueued now r).status = .queued)) queued
    (ready.foldl (fun rows j => updateWhere (JobRow.isOf ⟨id, j⟩) (markReady now) rows) db.jobs)
    ⟨id, j⟩
  have hready := statusIn_foldl_updateWhere id (fun r => (⟨rfl, rfl⟩ :
    (markReady now r).key = r.key ∧ (markReady now r).status = .ready)) ready db.jobs ⟨id, j⟩
  refine hqueued.trans ?_
  rw [hready]
  -- a job that is named has a row, so that its status is set
  have hmap : ∀ st : JobStatus, j ∈ queued ++ ready →
      (statusIn db.jobs ⟨id, j⟩).map (fun _ => st) = some st := fun st hj => by
    obtain ⟨st', hst'⟩ := Option.ne_none_iff_exists'.mp (hrows j hj)
    exact congrArg (Option.map _) hst'
  have hold : (db.ledger id).job j = statusIn db.jobs ⟨id, j⟩ := rfl
  by_cases hq : j ∈ queued
  · have hj := hmap .queued (List.mem_append_left _ hq)
    by_cases hr : j ∈ ready <;> simpa [hq, hr, Function.comp_def] using hj
  · by_cases hr : j ∈ ready
    · simpa [hq, hr] using hmap .ready (List.mem_append_right _ hr)
    · simp [hq, hr, hold]

theorem jobStatus_ne_none_of_updateReadyJobs {id : WorkflowIdentity} {queued ready : List String}
    (h : (db.updateReadyJobs now id queued ready).1 = true) :
    ∀ j ∈ queued ++ ready, db.jobStatus ⟨id, j⟩ ≠ none := by
  intro j hj
  rw [updateReadyJobs] at h
  split at h
  · rename_i hall
    refine (db.any_isOf_iff _).mp (List.all_eq_true.mp hall j ?_)
    exact List.mem_append.mpr (List.mem_append.mp hj).symm
  · cases h

end Sqlite

/-- With every call answered, the program run alone from a world with the books `b` ends as `post`
says of its result and the books. -/
def Posts {α : Type} (id : WorkflowIdentity) (p : Task α) (b : Books) (post : α → Books → Prop) :
    Prop :=
  ∀ w, books id w = b → Settles p w (fun a w' => post a (books id w'))

section Rules

variable {α β : Type} {id : WorkflowIdentity} {b : Books}

theorem posts_pure {post : α → Books → Prop} {a : α} (h : post a b) :
    Posts id (pure a) b post := by
  intro w hw
  change post a (books id w)
  rw [hw]
  exact h

theorem Posts.bind {p : Task α} {f : α → Task β} {mid : α → Books → Prop}
    {post : β → Books → Prop} (hp : Posts id p b mid)
    (hf : ∀ a b', mid a b' → Posts id (f a) b' post) : Posts id (p >>= f) b post :=
  fun w hw => (hp w hw).bind (fun a w' hmid => hf a _ hmid w' rfl)

theorem Posts.mono {p : Task α} {post post' : α → Books → Prop} (hp : Posts id p b post)
    (h : ∀ a b', post a b' → post' a b') : Posts id p b post' :=
  fun w hw => (hp w hw).mono (fun a _ hpost => h a _ hpost)

theorem Posts.andThen {p q : Task Bool} {mid : Books → Prop} {post : Bool → Books → Prop}
    (hp : Posts id p b (fun r b' => r = true ∧ mid b'))
    (hq : ∀ b', mid b' → Posts id q b' post) : Posts id (p.andThen q) b post := by
  refine hp.bind (fun r b' hr => ?_)
  rw [hr.1]
  exact hq b' hr.2

theorem posts_onlyIf {p : Task Bool} {post : Bool → Books → Prop} {c : Bool}
    (hp : c = true → Posts id p b post) (hskip : c = false → post true b) :
    Posts id (.onlyIf c p) b post := by
  cases c with
  | false => exact posts_pure (hskip rfl)
  | true => exact hp rfl

theorem posts_ask {c : Call} {post : c.Reply → Books → Prop}
    (h : ∀ e w, books id w = b → post (c.carryOut e w).1 (books id (c.carryOut e w).2)) :
    Posts id (ask c) b post := fun w hw => settles_ask (fun e => h e w hw)

end Rules

section Worlds

variable (id id' : WorkflowIdentity) (w : World)

theorem books_setSpace_self (ks : WorkflowKeyspace) :
    books id (w.setSpace id ks) = { books id w with space := ks } := by
  have hspace : (w.setSpace id ks).redis.workflows id = ks := Function.update_self ..
  simp only [books, hspace]
  rfl

theorem books_enqueue (p : Option (String × Int)) : books id (w.enqueue id' p) = books id w := by
  cases p <;> rfl

theorem books_dropCanceled (canceled : List (String × JobStatus)) :
    books id (w.dropCanceled id' canceled) = books id w := by
  induction canceled generalizing w with
  | nil => rfl
  | cons c rest ih =>
      obtain ⟨j, st⟩ := c
      simp only [World.dropCanceled, Redis.dropCanceled, List.foldl_cons] at ih ⊢
      split
      · exact ih { w with redis := { w.redis with executionQueue := _ } }
      · split
        · exact ih { w with redis := { w.redis with jobRetryStream := _ } }
        · exact ih w

theorem books_sqlite {db : Sqlite} (h : w.sqlite.SameRows db) :
    books id { w with sqlite := db } = { books id w with ledger := db.ledger id } := by
  simp only [books, h.1]

end Worlds

section Scripts

variable {id : WorkflowIdentity} {b : Books} {k : JobKey}

theorem posts_fetchWorkflowRuntime : Posts id (ask (.fetchWorkflowRuntime id)) b
    (fun r b' => r = b.space.hash ∧ b' = b) :=
  posts_ask (fun _ _ hw => hw ▸ ⟨rfl, rfl⟩)

theorem posts_fetchJobRuntime : Posts k.identity (ask (.fetchJobRuntime k)) b
    (fun r b' => r = b.space.fetchJobRuntime k.jobId ∧ b' = b) :=
  posts_ask (fun _ _ hw => hw ▸ ⟨rfl, rfl⟩)

theorem posts_readClock : Posts id (ask (.readClock id)) b (fun _ b' => b' = b) :=
  posts_ask (fun _ _ hw => hw)

theorem posts_claimJob : Posts k.identity (ask (.claimJob k)) b
    (fun _ b' => b' = { b with space := (b.space.claimJob k.jobId).2 }) := by
  refine posts_ask (fun e w hw => ?_)
  subst hw
  exact books_setSpace_self ..

theorem books_completeSuccessfulJob (k : JobKey) (e : Env) (w : World) :
    books k.identity ((Call.completeSuccessfulJob k).carryOut e w).2 = { books k.identity w with
      space := ((w.redis.workflows k.identity).completeSuccessfulJob e.redisTime k.jobId).2 } := by
  rw [carryOut_completeSuccessfulJob, books_enqueue, books_setSpace_self]

theorem posts_completeFailedJob (n : Int) (jobIds : List String) :
    Posts k.identity (ask (.completeFailedJob k n jobIds)) b (fun r b' =>
      r = some ⟨(b.space.completeFailedJob k.jobId n jobIds).1.canceled.map Prod.fst,
        (b.space.completeFailedJob k.jobId n jobIds).1.workflowFailed,
        (b.space.completeFailedJob k.jobId n jobIds).1.workflowCompleted⟩ ∧
      b' = { b with space := (b.space.completeFailedJob k.jobId n jobIds).2 }) := by
  refine posts_ask (fun e w hw => ?_)
  subst hw
  rw [carryOut_completeFailedJob, books_dropCanceled, books_setSpace_self]
  exact ⟨rfl, rfl⟩

theorem books_scheduleJobRetry (id : WorkflowIdentity) (k : JobKey) (n retryAtMs : Int) (e : Env)
    (w : World) : books id ((Call.scheduleJobRetry k n retryAtMs).carryOut e w).2 =
      books id ((w.setSpace k.identity
        ((w.redis.workflows k.identity).scheduleJobRetry k.jobId n).2).enqueue k.identity
          ((w.redis.workflows k.identity).scheduleJobRetry k.jobId n).1) := by
  cases hp : ((w.redis.workflows k.identity).scheduleJobRetry k.jobId n).1 <;>
    simp only [Call.carryOut, Redis.scheduleJobRetry, Call.onRedis, hp] <;> rfl

theorem posts_scheduleJobRetry (n retryAtMs : Int) :
    Posts k.identity (ask (.scheduleJobRetry k n retryAtMs)) b (fun r b' =>
      r = some ((b.space.scheduleJobRetry k.jobId n).1.map Prod.fst) ∧
      b' = { b with space := (b.space.scheduleJobRetry k.jobId n).2 }) := by
  refine posts_ask (fun e w hw => ?_)
  subst hw
  rw [books_scheduleJobRetry, books_enqueue, books_setSpace_self]
  exact ⟨rfl, rfl⟩

theorem posts_promoteRetryJob : Posts k.identity (ask (.promoteRetryJob k)) b (fun r b' =>
    r = some ((b.space.promoteRetryJob k.jobId).1.map Prod.fst) ∧
    b' = { b with space := (b.space.promoteRetryJob k.jobId).2 }) := by
  refine posts_ask (fun e w hw => ?_)
  subst hw
  rw [carryOut_promoteRetryJob, books_enqueue, books_setSpace_self]
  exact ⟨rfl, rfl⟩

theorem posts_trySetJobToRunning : Posts k.identity (ask (.trySetJobToRunning k)) b
    (fun r b' => ∃ now, r = (b.space.trySetJobToRunning now k.jobId).1 ∧
      b' = { b with space := (b.space.trySetJobToRunning now k.jobId).2 }) := by
  refine posts_ask (fun e w hw => ⟨e.redisTime, ?_⟩)
  subst hw
  have hworld : ((Call.trySetJobToRunning k).carryOut e w).2 = w.setSpace k.identity
      ((w.redis.workflows k.identity).trySetJobToRunning e.redisTime k.jobId).2 := rfl
  rw [hworld, books_setSpace_self]
  exact ⟨rfl, rfl⟩

theorem posts_setJobStatus (st : JobStatus) : Posts k.identity (ask (.setJobStatus k st)) b
    (fun r b' => r = true ∧ b' = { b with space := b.space.setJobStatus k.jobId st }) := by
  refine posts_ask (fun e w hw => ⟨rfl, ?_⟩)
  subst hw
  exact books_setSpace_self ..

end Scripts

section Records

variable {id : WorkflowIdentity} {b : Books} {k : JobKey}

/-- The rows of a workflow's jobs, as `get_all_jobs_for_workflow` returns them. -/
structure Lists (b : Books) (rows : List JobRow) : Prop where
  mem : ∀ j, j ∈ rows.map (fun r => r.key.jobId) ↔ b.ledger.job j ≠ none
  status : b.keyed = true → ∀ row ∈ rows, b.ledger.job row.key.jobId = some row.status
  nodup : b.keyed = true → (rows.map (fun r => r.key.jobId)).Nodup

theorem posts_getAllJobsForWorkflow : Posts id (ask (.getAllJobsForWorkflow id)) b
    (fun r b' => b' = b ∧ ∃ rows, r = some rows ∧ Lists b rows) := by
  refine posts_ask (fun e w hw => ?_)
  subst hw
  refine ⟨rfl, _, rfl, fun j => ?_, fun hkeyed row hrow => ?_, fun hkeyed => ?_⟩
  · have hany := w.sqlite.any_isOf_iff ⟨id, j⟩
    rw [List.any_eq_true] at hany
    refine Iff.trans ?_ hany
    constructor
    · intro hj
      obtain ⟨row, hrow, rfl⟩ := List.mem_map.mp hj
      obtain ⟨hmem, hid⟩ := List.mem_filter.mp hrow
      have hkey : row.key = ⟨id, row.key.jobId⟩ := by rw [← of_decide_eq_true hid]
      exact ⟨row, hmem, decide_eq_true hkey⟩
    · rintro ⟨row, hmem, hkey⟩
      have hkey : row.key = ⟨id, j⟩ := of_decide_eq_true hkey
      refine List.mem_map.mpr ⟨row, List.mem_filter.mpr ⟨hmem, decide_eq_true ?_⟩, ?_⟩
      · rw [hkey]
      · rw [hkey]
  · obtain ⟨hmem, hid⟩ := List.mem_filter.mp hrow
    have hkey : (⟨id, row.key.jobId⟩ : JobKey) = row.key := by rw [← of_decide_eq_true hid]
    have hself : JobRow.isOf row.key row = true := decide_eq_true rfl
    obtain ⟨found, hfound⟩ := Option.isSome_iff_exists.mp (List.find?_isSome.mpr ⟨row, hmem, hself⟩)
    have hsame : found = row := by
      refine List.inj_on_of_nodup_map (of_decide_eq_true hkeyed) (List.mem_of_find?_eq_some hfound)
        hmem ?_
      exact of_decide_eq_true (List.find?_some (p := JobRow.isOf row.key) hfound)
    change w.sqlite.jobStatus ⟨id, row.key.jobId⟩ = some row.status
    rw [hkey, Sqlite.jobStatus, hfound, hsame]
    rfl
  · have hkeys : (w.sqlite.jobs.map JobRow.key).Nodup := of_decide_eq_true hkeyed
    refine List.Nodup.map_on (fun r hr r' hr' heq => ?_) ((List.Nodup.of_map _ hkeys).filter _)
    obtain ⟨hmem, hid⟩ := List.mem_filter.mp hr
    obtain ⟨hmem', hid'⟩ := List.mem_filter.mp hr'
    refine List.inj_on_of_nodup_map hkeys hmem hmem' ?_
    have hidentity := (of_decide_eq_true hid).trans (of_decide_eq_true hid').symm
    rw [← show (⟨r.key.identity, r.key.jobId⟩ : JobKey) = r.key from rfl, hidentity,
      show r.key.jobId = r'.key.jobId from heq]

theorem posts_updateJobStatus {st : JobStatus} (hst : ∀ now, JobRow.transition now st ≠ none)
    (hrow : b.ledger.job k.jobId ≠ none) : Posts k.identity (ask (.updateJobStatus k st)) b
      (fun r b' => r = true ∧ b' = { b with ledger := b.ledger.setJob k.jobId st }) := by
  refine posts_ask (fun e w hw => ?_)
  subst hw
  obtain ⟨htrue, hledger⟩ := w.sqlite.updateJobStatus_ledger e.time (hst e.time) hrow
  refine ⟨htrue, (books_sqlite k.identity w (w.sqlite.sameRows_updateJobStatus e.time k st)).trans ?_⟩
  rw [hledger]
  rfl

theorem posts_updateWorkflowStatus {ws : WorkflowStatus}
    (hws : ∀ now, WorkflowRow.transition now ws ≠ none) (hrow : b.ledger.workflow ≠ none) :
    Posts id (ask (.updateWorkflowStatus id ws)) b
      (fun r b' => r = true ∧ b' = { b with ledger := b.ledger.setWorkflow ws }) := by
  refine posts_ask (fun e w hw => ?_)
  subst hw
  obtain ⟨htrue, hledger⟩ := w.sqlite.updateWorkflowStatus_ledger e.time (hws e.time) hrow
  refine ⟨htrue, (books_sqlite id w (w.sqlite.sameRows_updateWorkflowStatus e.time id ws)).trans ?_⟩
  rw [hledger]
  rfl

theorem posts_updateReadyJobs {queued ready : List String}
    (hrows : ∀ j ∈ queued ++ ready, b.ledger.job j ≠ none) :
    Posts id (ask (.updateReadyJobs id queued ready)) b
      (fun r b' => r = true ∧ b' = { b with ledger := b.ledger.setReady queued ready }) := by
  refine posts_ask (fun e w hw => ?_)
  subst hw
  obtain ⟨htrue, hledger⟩ := w.sqlite.updateReadyJobs_ledger e.time hrows
  refine ⟨htrue, (books_sqlite id w (w.sqlite.sameRows_updateReadyJobs e.time id queued ready)).trans ?_⟩
  rw [hledger]
  rfl

end Records

section Cleanup

open CompletionHandler RedisDatabase

variable {id : WorkflowIdentity} {b : Books}

theorem ite_mem_cons_update {β : Type} (g : String → β) (j : String) (rest : List String) (x : β) :
    (fun i => if i ∈ j :: rest then x else g i) =
      fun i => if i ∈ rest then x else Function.update g j x i := by
  funext i
  by_cases hi : i = j <;> simp [hi]

theorem posts_space {c : Call} {post : c.Reply → Prop} {f : WorkflowKeyspace → WorkflowKeyspace}
    (hreply : ∀ e w, books id w = b → post (c.carryOut e w).1)
    (hworld : ∀ e w, (c.carryOut e w).2 = w.setSpace id (f (w.redis.workflows id))) :
    Posts id (ask c) b (fun r b' => post r ∧ b' = { b with space := f b.space }) := by
  refine posts_ask (fun e w hw => ⟨hreply e w hw, ?_⟩)
  subst hw
  rw [hworld, books_setSpace_self]
  rfl

/-- A call that only changes the keys of the workflow. -/
theorem posts_effect {c : Call} {f : WorkflowKeyspace → WorkflowKeyspace}
    (hworld : ∀ e w, (c.carryOut e w).2 = w.setSpace id (f (w.redis.workflows id))) :
    Posts id (ask c) b (fun _ b' => b' = { b with space := f b.space }) := by
  refine posts_ask (fun e w hw => ?_)
  subst hw
  rw [hworld, books_setSpace_self]
  rfl

theorem posts_removeActiveWorkflow : Posts id (ask (.removeActiveWorkflow id)) b
    (fun r b' => r = b.active ∧ b' = { b with active := false }) := by
  refine posts_ask (fun e w hw => ?_)
  subst hw
  refine ⟨rfl, ?_⟩
  have hactive : ((Call.removeActiveWorkflow id).carryOut e w).2.redis.activeWorkflows id.clientId =
      (w.redis.activeWorkflows id.clientId).erase id.workflowId := Function.update_self ..
  simp only [books, hactive, Finset.notMem_erase, decide_false]
  rfl

/-- The keys of a workflow that the cleanup leaves: none but those of jobs that have no row. -/
structure Cleared (b b' : Books) : Prop where
  ledger : b'.ledger = b.ledger
  active : b'.active = false
  reported : b'.reported = b.reported
  keyed : b'.keyed = b.keyed
  hash : b'.space.hash = none
  jobs : ∀ j, b'.space.jobs j = if b.ledger.job j = none then b.space.jobs j else none
  waiting : b'.space.waitingReady = .empty

theorem posts_deleteAllJobsPayload (jobIds : List String) :
    Posts id (deleteAllJobsPayload id jobIds) b (fun _ b' =>
      b' = { b with space := { b.space with
        payloads := fun j => if j ∈ jobIds then none else b.space.payloads j } }) := by
  induction jobIds generalizing b with
  | nil => exact posts_pure (by simp)
  | cons j rest ih =>
      have hdelete : Posts id (ask (.deleteJobPayload ⟨id, j⟩)) b _ :=
        posts_effect (f := fun ks => { ks with payloads := Function.update ks.payloads j none })
          (fun _ _ => rfl)
      refine hdelete.bind (fun _ b₁ h₁ => ?_)
      subst h₁
      refine ih.mono (fun _ b₂ h₂ => ?_)
      rw [h₂, ← ite_mem_cons_update]

theorem posts_deleteAllWorkflowJobs (jobIds : List String) :
    Posts id (deleteAllWorkflowJobs id jobIds) b (fun _ b' =>
      b' = { b with space := { b.space with
        jobs := fun j => if j ∈ jobIds then none else b.space.jobs j
        successors := fun j => if j ∈ jobIds then [] else b.space.successors j } }) := by
  induction jobIds generalizing b with
  | nil => exact posts_pure (by simp)
  | cons j rest ih =>
      have hjob : Posts id (ask (.deleteJob ⟨id, j⟩)) b _ :=
        posts_effect (f := fun ks => { ks with jobs := Function.update ks.jobs j none })
          (fun _ _ => rfl)
      have hretry : ∀ b, Posts id (ask (.removeFromRetryStream ⟨id, j⟩)) b (fun _ b' => b' = b) :=
        fun b => posts_ask (fun _ _ hw => hw)
      have hsuccessors : ∀ b, Posts id (ask (.deleteSuccessors ⟨id, j⟩)) b _ := fun b =>
        posts_effect (f := fun ks => { ks with successors := Function.update ks.successors j [] })
          (fun _ _ => rfl)
      refine hjob.bind (fun _ b₁ h₁ => ?_)
      subst h₁
      refine (hretry _).bind (fun _ b₂ h₂ => ?_)
      subst h₂
      refine (hsuccessors _).bind (fun _ b₃ h₃ => ?_)
      subst h₃
      refine ih.mono (fun _ b₄ h₄ => ?_)
      rw [h₄, ← ite_mem_cons_update, ← ite_mem_cons_update]

theorem posts_deleteWorkflow : Posts id (ask (.deleteWorkflow id)) b (fun r b' =>
    r = b.space.hash.isSome ∧ b' = { b with space := { b.space with hash := none } }) :=
  posts_space (c := .deleteWorkflow id) (f := fun ks => { ks with hash := none })
    (fun _ _ hw => hw ▸ rfl) (fun _ _ => rfl)

theorem posts_deleteWorkflowRuntimeData (jobIds : List String) :
    Posts id (deleteWorkflowRuntimeData id jobIds) b (fun r b' => r = b.space.hash.isSome ∧
      b' = { b with space := { b.space with
        hash := none
        jobs := fun j => if j ∈ jobIds then none else b.space.jobs j
        successors := fun j => if j ∈ jobIds then [] else b.space.successors j
        waitingReady := .empty } }) := by
  refine (posts_deleteAllWorkflowJobs jobIds).bind (fun _ b₁ h₁ => ?_)
  subst h₁
  have hwaiting : ∀ b, Posts id (ask (.deleteWaitingReady id)) b (fun r b' =>
      r = true ∧ b' = { b with space := { b.space with waitingReady := .empty } }) :=
    fun b => posts_space (c := .deleteWaitingReady id)
      (f := fun ks => { ks with waitingReady := .empty }) (fun _ _ _ => rfl) (fun _ _ => rfl)
  refine posts_deleteWorkflow.bind (fun deleted b₂ h₂ => ?_)
  obtain ⟨rfl, rfl⟩ := h₂
  refine (hwaiting _).bind (fun cleared b₃ h₃ => ?_)
  obtain ⟨rfl, rfl⟩ := h₃
  exact posts_pure ⟨Bool.and_true _, rfl⟩

theorem posts_cleanup (hactive : b.active = true) :
    Posts id (cleanupCompletedWorkflowRedisEntries id) b
      (fun r b' => r = b.space.hash.isSome ∧ Cleared b b') := by
  refine posts_getAllJobsForWorkflow.bind (fun r b₁ h₁ => ?_)
  obtain ⟨rfl, rows, rfl, hrows⟩ := h₁
  refine posts_removeActiveWorkflow.bind (fun r b₂ h₂ => ?_)
  obtain ⟨rfl, rfl⟩ := h₂
  rw [hactive, if_pos rfl]
  refine (posts_deleteAllJobsPayload _).bind (fun _ b₃ h₃ => ?_)
  subst h₃
  refine (posts_deleteWorkflowRuntimeData _).mono (fun r b₄ h₄ => ?_)
  obtain ⟨hr, rfl⟩ := h₄
  refine ⟨hr, rfl, rfl, rfl, rfl, rfl, fun j => ?_, rfl⟩
  dsimp only
  by_cases hj : b₁.ledger.job j = none
  · rw [if_pos hj, if_neg (fun hmem => (hrows.mem j).mp hmem hj)]
  · rw [if_neg hj, if_pos ((hrows.mem j).mpr hj)]

theorem posts_cleanup_inactive (hactive : b.active = false) :
    Posts id (cleanupCompletedWorkflowRedisEntries id) b (fun _ b' => b' = b) := by
  refine posts_getAllJobsForWorkflow.bind (fun r b₁ h₁ => ?_)
  obtain ⟨rfl, rows, rfl, -⟩ := h₁
  refine posts_removeActiveWorkflow.bind (fun r b₂ h₂ => ?_)
  obtain ⟨rfl, rfl⟩ := h₂
  rw [hactive, if_neg (by decide)]
  refine posts_pure ?_
  obtain ⟨space, ledger, active, reported, keyed⟩ := b₁
  rw [show active = false from hactive]

end Cleanup

end FlowPilot
