import FlowPilot.AdmissionLedger
import FlowPilot.AdmissionPlan
import FlowPilot.RuntimeAlone
import FlowPilot.RuntimeRecords
import FlowPilot.WorkflowSimulation

/-! What an accepted submission stores. Each part of `submit_workflow` gets one lemma that says what
it has done when it reports success; the rollbacks need not be followed, since every one of them ends
in a rejection. -/

namespace FlowPilot

/-- All that a view of a workflow depends on, and nothing else. -/
structure Visible where
  workflows : WorkflowIdentity → WorkflowKeyspace
  executionQueue : SortedSet JobKey
  jobRetryStream : SortedSet JobKey
  jobCompletionStream : List JobCompletionData
  active : String → Finset String
  localQueue : List JobExeData
  jobKeys : List JobKey
  identities : List WorkflowIdentity

def World.visible (w : World) : Visible where
  workflows := w.redis.workflows
  executionQueue := w.redis.executionQueue
  jobRetryStream := w.redis.jobRetryStream
  jobCompletionStream := w.redis.jobCompletionStream
  active := w.redis.activeWorkflows
  localQueue := w.localQueue
  jobKeys := w.sqlite.jobs.map JobRow.key
  identities := w.sqlite.workflows.map WorkflowRow.identity

theorem Sqlite.SameRows.visible {db : Sqlite} {w : World} (h : w.sqlite.SameRows db) :
    { w with sqlite := db }.visible = w.visible := by
  simp only [World.visible, h.1, h.2]

section Rejection

theorem leads_handleRejection (req : WorkflowRequest) (stage : AdmissionStage) (reason : StatusCode)
    (w : World) : Leads (AdmissionFailureHandler.handleRejection req stage reason) w
      (fun r _ => r.valid = false) := by
  unfold AdmissionFailureHandler.handleRejection
  split <;> split
  all_goals
    repeat
      first
      | exact leads_pure rfl
      | refine Leads.bind (leads_trivial _ _) (fun _ _ _ => ?_)

theorem leads_reject (req : WorkflowRequest) (stage : AdmissionStage) (reason : StatusCode)
    (w : World) {post : Option ValidationResult → World → Prop}
    (hpost : ∀ r w', r.valid = false → post (some r) w') :
    Leads (some <$> AdmissionFailureHandler.handleRejection req stage reason) w post :=
  Leads.bind (leads_handleRejection req stage reason w) (fun r w' hr => leads_pure (hpost r w' hr))

end Rejection

section Storing

variable (id : WorkflowIdentity) {w : World}

@[simp] theorem setSpace_workflows_self (w : World) (id : WorkflowIdentity)
    (ks : WorkflowKeyspace) : (w.setSpace id ks).redis.workflows id = ks := Function.update_self ..

@[simp] theorem setSpace_setSpace (w : World) (id : WorkflowIdentity) (ks ks' : WorkflowKeyspace) :
    (w.setSpace id ks).setSpace id ks' = w.setSpace id ks' := by
  simp only [World.setSpace, Redis.setWorkflow, Function.update_idem]

/-- The keys of a workflow after the record of one job is stored. -/
def storeJob (ks : WorkflowKeyspace) (d : JobRuntimeData) : WorkflowKeyspace :=
  { ks.setJob d.jobId (fun _ => RedisDatabase.jobHash d) with
    successors := Function.update ks.successors d.jobId (ks.successors d.jobId ++ d.successors) }

theorem leads_setJobRuntime (d : JobRuntimeData) :
    Leads (RedisDatabase.setJobRuntime id d) w (fun stored w' => stored = true →
      w' = w.setSpace id (storeJob (w.redis.workflows id) d)) := by
  have hset : Leads (ask (.setJobRuntime ⟨id, d.jobId⟩ (RedisDatabase.jobHash d))) w
      (fun stored w' => stored = true → w' = w.setSpace id
        ((w.redis.workflows id).setJob d.jobId (fun _ => RedisDatabase.jobHash d))) :=
    leads_ask rfl (fun _ _ => rfl) nofun
  refine Leads.bind hset ?_
  rintro (_ | _) w' hw'
  · exact leads_pure nofun
  · obtain rfl := hw' rfl
    rw [if_neg (by decide)]
    split
    · rename_i hempty
      refine leads_pure (fun _ => ?_)
      rw [storeJob, List.isEmpty_iff.mp hempty, List.append_nil, Function.update_eq_self]
      rfl
    · refine leads_ask rfl (fun _ _ => ?_) nofun
      refine (setSpace_setSpace w id _ _).trans ?_
      rw [setSpace_workflows_self]
      rfl

theorem leads_setAllJobs (jobs : List JobRuntimeData) :
    Leads (RedisDatabase.setAllJobs id jobs) w (fun stored w' => stored = true →
      w' = w.setSpace id (jobs.foldl storeJob (w.redis.workflows id))) := by
  induction jobs generalizing w with
  | nil => exact leads_pure (fun _ => (setSpace_workflows w id).symm)
  | cons d rest ih =>
      refine Leads.bind (leads_setJobRuntime id d) ?_
      rintro (_ | _) w' hw'
      · exact leads_pure nofun
      · obtain rfl := hw' rfl
        refine Leads.mono ih (fun stored w'' hw'' hstored => ?_)
        rw [hw'' hstored, setSpace_setSpace, setSpace_workflows_self, List.foldl_cons]

def addMembers (s : SortedSet String) (members : List (String × Int)) : SortedSet String :=
  members.foldl (fun s m => s.addNew m.1 m.2) s

/-- The keys of a workflow after `create_workflow_runtime_data_async`. -/
def storeRuntime (ks : WorkflowKeyspace) (hash : WorkflowHash) (jobs : List JobRuntimeData)
    (ready : List PrioritizedJob) : WorkflowKeyspace :=
  let stored := jobs.foldl storeJob { ks with hash := some hash }
  { stored with waitingReady := addMembers stored.waitingReady (ready.map RedisDatabase.score) }

theorem leads_createWorkflowRuntimeData (hash : WorkflowHash) (jobs : List JobRuntimeData)
    (ready : List PrioritizedJob) :
    Leads (RedisDatabase.createWorkflowRuntimeData id hash jobs ready) w (fun stored w' =>
      stored = true → w' = w.setSpace id (storeRuntime (w.redis.workflows id) hash jobs ready)) := by
  have hset : Leads (ask (.setWorkflowRuntime id hash)) w (fun stored w' => stored = true →
      w' = w.setSpace id { w.redis.workflows id with hash := some hash }) :=
    leads_ask rfl (fun _ _ => rfl) nofun
  refine Leads.bind hset ?_
  rintro (_ | _) w' hw'
  · exact Leads.bind (leads_trivial _ _) (fun _ _ _ => leads_pure nofun)
  obtain rfl := hw' rfl
  rw [if_neg (by decide)]
  refine Leads.bind (leads_setAllJobs id jobs) ?_
  rintro (_ | _) w' hw'
  · exact Leads.bind (leads_trivial _ _) (fun _ _ _ =>
      Leads.bind (leads_trivial _ _) (fun _ _ _ => leads_pure nofun))
  obtain rfl := hw' rfl
  rw [setSpace_setSpace, setSpace_workflows_self, if_neg (by decide)]
  split
  · rename_i hempty
    refine leads_pure (fun _ => ?_)
    rw [List.isEmpty_iff.mp hempty]
    rfl
  · have hadd : ∀ ks : WorkflowKeyspace, Leads
        (ask (.addWaitingReady id (ready.map RedisDatabase.score))) (w.setSpace id ks)
        (fun stored w' => stored = true → w' = w.setSpace id { ks with
          waitingReady := addMembers ks.waitingReady (ready.map RedisDatabase.score) }) := by
      refine fun ks => leads_ask rfl (fun _ _ => ?_) nofun
      refine (setSpace_setSpace w id _ _).trans ?_
      rw [setSpace_workflows_self]
      rfl
    refine Leads.bind (hadd _) ?_
    rintro (_ | _) w' hw'
    · exact Leads.bind (leads_trivial _ _) (fun _ _ _ =>
        Leads.bind (leads_trivial _ _) (fun _ _ _ => leads_pure nofun))
    · exact leads_pure hw'

def storePayload (ks : WorkflowKeyspace) (job : JobRequest) : WorkflowKeyspace :=
  { ks with payloads := Function.update ks.payloads job.jobId (some (job.payload.getD [])) }

theorem leads_setPayloads (jobs : List JobRequest) (added : List String) :
    Leads (WorkflowRuntimeGenerator.setPayloads id jobs added) w (fun r w' => r.1 = true →
      w' = w.setSpace id (jobs.foldl storePayload (w.redis.workflows id))) := by
  induction jobs generalizing w added with
  | nil => exact leads_pure (fun _ => (setSpace_workflows w id).symm)
  | cons job rest ih =>
      have hset : Leads (ask (.setJobPayload ⟨id, job.jobId⟩ (job.payload.getD []))) w
          (fun stored w' => stored = true → w' = w.setSpace id
            (storePayload (w.redis.workflows id) job)) :=
        leads_ask rfl (fun _ _ => rfl) nofun
      refine Leads.bind hset ?_
      rintro (_ | _) w' hw'
      · exact leads_pure nofun
      · obtain rfl := hw' rfl
        refine Leads.mono (ih _) (fun r w'' hw'' hr => ?_)
        rw [hw'' hr, setSpace_setSpace, setSpace_workflows_self, List.foldl_cons]

end Storing

section Initialization

open WorkflowRuntimeGenerator

variable {w : World}

/-- The keys of a workflow after `initialize_runtime_data`. -/
def initialSpace (svc : Service) (policy : PolicyPlan) (req : WorkflowRequest)
    (ready : List PrioritizedJob) (info : JobRuntimeMap) (ks : WorkflowKeyspace) :
    WorkflowKeyspace :=
  let queued := ready.take (queuedCount policy ready.length)
  let waiting := ready.drop (queuedCount policy ready.length)
  req.jobs.foldl storePayload (storeRuntime ks
    (workflowHash policy req.jobs.length ready.length queued.length)
    (svc.hash.order .jobsRuntimeInfo (markQueued queued info)) waiting)

def addJobs (id : WorkflowIdentity) (q : SortedSet JobKey) (queued : List PrioritizedJob) :
    SortedSet JobKey :=
  (queued.map RedisDatabase.score).foldl (fun s m => s.addNew ⟨id, m.1⟩ m.2) q

/-- What `initialize_runtime_data` leads to when it returns true: the keys are stored, SQLite is told,
and the jobs that get a slot are queued. -/
theorem leads_initializeRuntimeData_rule {svc : Service} {policy : PolicyPlan} {req : WorkflowRequest}
    {ready : List PrioritizedJob} {info : JobRuntimeMap} (mid : World → Prop)
    {post : World → Prop} (hupdate : Leads (ask (.updateReadyJobs req.identity
        ((ready.take (queuedCount policy ready.length)).map PrioritizedJob.jobId)
        ((ready.drop (queuedCount policy ready.length)).map PrioritizedJob.jobId)))
      (w.setSpace req.identity
        (initialSpace svc policy req ready info (w.redis.workflows req.identity)))
      (fun stored w' => stored = true → mid w'))
    (hqueue : ∀ w', mid w' → ∀ e, post ((Call.queueWorkflowJobs req.identity
      ((ready.take (queuedCount policy ready.length)).map RedisDatabase.score)).carryOut e w').2) :
    Leads (initializeRuntimeData svc policy req ready info) w
      (fun stored w' => stored = true → post w') := by
  unfold initializeRuntimeData
  refine Leads.bind (leads_createWorkflowRuntimeData req.identity _ _ _) ?_
  rintro (_ | _) w' hw'
  · exact leads_pure nofun
  obtain rfl := hw' rfl
  rw [if_neg (by decide)]
  refine Leads.bind (leads_setPayloads req.identity req.jobs []) ?_
  rintro ⟨_ | _, added⟩ w' hw'
  · exact Leads.bind (leads_trivial _ _) (fun _ _ _ => leads_pure nofun)
  obtain rfl := hw' rfl
  rw [setSpace_setSpace, setSpace_workflows_self]
  dsimp only
  rw [if_neg (by decide)]
  refine Leads.bind hupdate ?_
  rintro (_ | _) w' hw'
  · exact Leads.bind (leads_trivial _ _) (fun _ _ _ => leads_pure nofun)
  have hqueued := hqueue w' (hw' rfl)
  rw [if_neg (by decide)]
  split
  · rename_i hempty
    rw [List.isEmpty_iff.mp hempty] at hqueued
    exact leads_pure (fun _ => hqueued {})
  · have hask : Leads (ask (.queueWorkflowJobs req.identity
        ((ready.take (queuedCount policy ready.length)).map RedisDatabase.score))) w'
        (fun stored w'' => stored = true → post w'') := leads_ask rfl (fun e _ => hqueued e) nofun
    refine hask.bind ?_
    rintro (_ | _) w'' hw''
    · exact Leads.bind (leads_trivial _ _) (fun _ _ _ =>
        Leads.bind (leads_trivial _ _) (fun _ _ _ => leads_pure nofun))
    · exact leads_pure (fun _ => hw'' rfl)

theorem leads_initializeRuntimeData (svc : Service) (policy : PolicyPlan) (req : WorkflowRequest)
    (ready : List PrioritizedJob) (info : JobRuntimeMap) :
    Leads (initializeRuntimeData svc policy req ready info) w (fun stored w' => stored = true →
      w'.visible = { w.visible with
        workflows := Function.update w.visible.workflows req.identity
          (initialSpace svc policy req ready info (w.visible.workflows req.identity))
        executionQueue := addJobs req.identity w.visible.executionQueue
          (ready.take (queuedCount policy ready.length)) }) := by
  refine leads_initializeRuntimeData_rule (fun w' => w'.visible = (w.setSpace req.identity
    (initialSpace svc policy req ready info (w.redis.workflows req.identity))).visible)
    (leads_ask rfl (fun e _ => ?_) nofun) (fun w' hw' e => ?_)
  · exact Sqlite.SameRows.visible (Sqlite.sameRows_updateReadyJobs _ e.time req.identity _ _)
  · exact congrArg (fun s : Visible => { s with
      executionQueue := addJobs req.identity s.executionQueue
        (ready.take (queuedCount policy ready.length)) }) hw'

end Initialization

section Submission

open WorkflowAdmissionService

variable {w : World}

def activate (id : WorkflowIdentity) (active : String → Finset String) : String → Finset String :=
  Function.update active id.clientId (insert id.workflowId (active id.clientId))

theorem leads_admitRequest (args : Redis.AdmitArgs) :
    Leads (ask (.admitRequest args)) w (fun r w' => r = .ok () →
      w'.visible = { w.visible with
        active := activate ⟨args.clientId, args.workflowId⟩ w.visible.active }) := by
  refine leads_ask rfl (fun e => ?_) (by rintro ⟨⟩)
  simp only [Call.carryOut, Call.onRedis, Redis.admitRequest]
  split
  · simp
  · split
    · simp
    · split
      · simp
      · split
        · simp
        · split
          · simp
          · exact fun _ => rfl

theorem leads_persistRequest (client : ClientConfig) (req : WorkflowRequest) :
    Leads (persistRequest client req) w (fun r w' => r = .ok () → w'.visible = w.visible) := by
  have hinsert : ∀ row, Leads (ask (.insertRequest row)) w
      (fun _ w' => w'.visible = w.visible) := by
    refine fun row => leads_ask rfl (fun e => ?_) rfl
    simp only [Call.carryOut, Call.onSqlite, Sqlite.insertRequest]
    split <;> rfl
  refine Leads.bind (hinsert _) (fun r w₁ h₁ => ?_)
  cases r with
  | error code => exact leads_pure (by simp)
  | ok _ =>
      have hcount : Leads (ask (.getClientActiveWorkflowsCount req.clientId)) w₁
          (fun _ w' => w'.visible = w₁.visible) := leads_ask rfl (fun _ => rfl) rfl
      refine Leads.bind hcount (fun n w₂ h₂ => ?_)
      cases n with
      | none => exact leads_pure (by simp)
      | some n =>
          dsimp only
          split
          · exact leads_pure (by simp)
          · split
            · exact leads_pure (by simp)
            · exact leads_pure (fun _ => h₂.trans h₁)

/-- The rows of a workflow that was just admitted. -/
structure FreshRows (svc : Service) (req : WorkflowRequest) (linked : JobRuntimeMap) (db : Sqlite) :
    Prop where
  workflow : db.workflowStatus req.identity = some .admitted ∨
    db.workflowStatus req.identity = some .ready
  jobs : ∀ d ∈ svc.hash.order .jobsRuntimeInfo linked, ∃ st : JobStatus,
    db.jobStatus ⟨req.identity, d.jobId⟩ = some st ∧ (st = .pending ∨ st = .ready ∨ st = .queued)

variable {svc : Service} {req : WorkflowRequest} {linked : JobRuntimeMap}

theorem FreshRows.exec {c : Call} (hc : OnlyAdvances req.identity c) (e : Env) (w : World)
    (h : FreshRows svc req linked w.sqlite) : FreshRows svc req linked (c.exec e w).2.sqlite := by
  rcases hc with hc | ⟨queued, ready, rfl⟩
  · have hspares : c.Spares req.identity := Call.spares_of_writesRows hc
    have hledger := hspares.exec e w
    have hworkflow := congrArg Ledger.workflow hledger
    have hjob := fun j => congrFun (congrArg Ledger.job hledger) j
    refine ⟨?_, fun d hd => ?_⟩
    · rw [show (c.exec e w).2.sqlite.workflowStatus req.identity = _ from hworkflow]
      exact h.workflow
    · rw [show (c.exec e w).2.sqlite.jobStatus ⟨req.identity, d.jobId⟩ = _ from hjob d.jobId]
      exact h.jobs d hd
  · rw [Call.exec]
    split
    · refine ⟨?_, fun d hd => ?_⟩
      · change (w.sqlite.updateReadyJobs ..).2.workflowStatus _ = _ ∨
          (w.sqlite.updateReadyJobs ..).2.workflowStatus _ = _
        rw [Sqlite.workflowStatus, Sqlite.workflows_updateReadyJobs]
        exact h.workflow
      · rcases Sqlite.jobStatus_updateReadyJobs w.sqlite e.time req.identity queued ready
          ⟨req.identity, d.jobId⟩ with heq | ⟨-, -, heq | heq⟩
        · obtain ⟨st, hst, hkind⟩ := h.jobs d hd
          exact ⟨st, heq.trans hst, hkind⟩
        · exact ⟨_, heq, .inr (.inr rfl)⟩
        · exact ⟨_, heq, .inr (.inl rfl)⟩
    · exact h

theorem FreshRows.leads (h : FreshRows svc req linked w.sqlite) {α : Type} {p : Task α}
    (hp : p.OnlyCalls (OnlyAdvances req.identity)) :
    Leads p w (fun _ w' => FreshRows svc req linked w'.sqlite) :=
  Prog.OnlyCalls.ensures (I := fun w' : World => FreshRows svc req linked w'.sqlite) hp
    (fun _ hc e w' hw' => hw'.exec hc e w') h

theorem FreshRows.ready {db : Sqlite} (h : FreshRows svc req linked db) (now : Int) :
    FreshRows svc req linked (db.updateWorkflowStatus now req.identity .ready).2 := by
  refine ⟨?_, fun d hd => ?_⟩
  · rcases db.workflowStatus_updateWorkflowStatus now req.identity .ready req.identity
      with heq | ⟨-, heq⟩
    · rw [heq]
      exact h.workflow
    · exact .inr heq
  · rw [Sqlite.jobStatus, Sqlite.jobs_updateWorkflowStatus]
    exact h.jobs d hd

theorem leads_persistWorkflow (svc : Service) (req : WorkflowRequest) (info : JobRuntimeMap) :
    Leads (persistWorkflow svc req info) w (fun r w' => r = .ok () →
      FreshRows svc req info w'.sqlite ∧
      req.identity ∉ w.visible.identities ∧ w'.visible = { w.visible with
        identities := w.visible.identities ++ [req.identity]
        jobKeys := w.visible.jobKeys ++
          (svc.hash.order .jobsRuntimeInfo info).map (fun d => ⟨req.identity, d.jobId⟩) }) := by
  have hadd : ∀ row : WorkflowRow, Leads (ask (.addWorkflow row)) w (fun r w' => r = .ok () →
      w'.sqlite.workflowStatus row.identity = some row.status ∧
      row.identity ∉ w.visible.identities ∧ w'.visible = { w.visible with
        identities := w.visible.identities ++ [row.identity] }) := by
    refine fun row => leads_ask rfl (fun e => ?_) (by rintro ⟨⟩)
    have hstatus := Sqlite.workflowStatus_of_added w.sqlite { row with receivedAt := e.time }
    simp only [Call.carryOut, Call.onSqlite]
    rw [Sqlite.addWorkflow] at hstatus ⊢
    split
    · simp
    · rename_i hnew
      rw [if_neg hnew] at hstatus
      refine fun _ => ⟨hstatus rfl, fun hmem => hnew ?_, ?_⟩
      · obtain ⟨r, hr, hid⟩ := List.mem_map.mp hmem
        exact List.any_eq_true.mpr ⟨r, hr, decide_eq_true hid⟩
      · simp only [World.visible, List.map_append, List.map_cons, List.map_nil]
  refine Leads.bind (hadd _) (fun r w₁ h₁ => ?_)
  cases r with
  | error code => exact leads_pure (by simp)
  | ok _ =>
      obtain ⟨hworkflow, hnew, h₁⟩ := h₁ rfl
      have hjobs : ∀ rows : List JobRow, Leads (ask (.addWorkflowJobs rows)) w₁ (fun r w' =>
          r = true → w'.sqlite.workflows = w₁.sqlite.workflows ∧
            (∀ st, (∀ row ∈ rows, row.status = st) →
              ∀ row ∈ rows, w'.sqlite.jobStatus row.key = some st) ∧
            w'.visible = { w₁.visible with
              jobKeys := w₁.visible.jobKeys ++ rows.map JobRow.key }) := by
        refine fun rows => leads_ask rfl (fun e => ?_) (by rintro ⟨⟩)
        have hstatus := fun (st : JobStatus) => Sqlite.jobStatus_addWorkflowJobs w₁.sqlite
          (rows.map (fun r => { r with submittedAt := some e.time })) st
        simp only [Call.carryOut, Call.onSqlite]
        rw [Sqlite.addWorkflowJobs] at hstatus ⊢
        split
        · simp
        · rename_i all hall
          rw [hall] at hstatus
          refine fun _ => ⟨rfl, fun st hst row hrow => ?_, ?_⟩
          · refine hstatus st (fun r hr => ?_) rfl
              { row with submittedAt := some e.time } (List.mem_map_of_mem hrow)
            obtain ⟨r', hr', rfl⟩ := List.mem_map.mp hr
            exact hst r' hr'
          · simp only [World.visible, Sqlite.insertJobs_eq_some hall, List.map_append, List.map_map]
            rfl
      refine Leads.bind (hjobs _) ?_
      rintro (_ | _) w₂ h₂
      · exact Leads.bind (leads_trivial _ _) (fun _ _ _ => leads_pure (by simp))
      · obtain ⟨hworkflows, hpending, h₂⟩ := h₂ rfl
        have hrows : FreshRows svc req info w₂.sqlite := by
          refine ⟨.inl ?_, fun d hd => ⟨.pending, ?_, .inl rfl⟩⟩
          · rw [Sqlite.workflowStatus, hworkflows]
            exact hworkflow
          · refine hpending .pending (fun row hrow => ?_) _ (List.mem_map_of_mem hd)
            obtain ⟨d', -, rfl⟩ := List.mem_map.mp hrow
            rfl
        have hstatus : Leads (ask (.updateWorkflowStatus req.identity .ready)) w₂
            (fun _ w' => FreshRows svc req info w'.sqlite ∧ w'.visible = w₂.visible) := by
          refine leads_ask rfl (fun e => ⟨hrows.ready e.time, ?_⟩) ⟨hrows, rfl⟩
          exact Sqlite.SameRows.visible
            (Sqlite.sameRows_updateWorkflowStatus _ e.time req.identity .ready)
        refine Leads.bind hstatus (fun _ w₃ h₃ => leads_pure (fun _ => ⟨h₃.1, hnew, ?_⟩))
        rw [h₃.2, h₂, h₁, jobRows, List.map_map]
        rfl

theorem leads_handleRequestAccepted (req : WorkflowRequest) :
    Leads (handleRequestAccepted req) w (fun _ w' => w'.visible = w.visible) := by
  have hredis : Leads (ask (.setRequestStatus req.clientId req.requestId .admitted)) w
      (fun _ w' => w'.visible = w.visible) := leads_ask rfl (fun _ => rfl) rfl
  have hupdate : Leads (AdmissionFailureHandler.updateRedisRequestStatus req .admitted) w
      (fun _ w' => w'.visible = w.visible) :=
    Leads.bind hredis (fun _ w₁ h₁ => by
      rw [if_neg (by decide)]
      exact leads_pure h₁)
  refine Leads.bind hupdate (fun _ w₁ h₁ => ?_)
  have hsqlite : Leads (ask (.updateRequestStatus req.clientId req.requestId .admitted
      StatusCode.workflowAdmitted.text)) w₁ (fun _ w' => w'.visible = w₁.visible) :=
    leads_ask rfl (fun _ => rfl) rfl
  exact Leads.bind hsqlite (fun _ w₂ h₂ => leads_pure (h₂.trans h₁))

/-- What an accepted submission has stored: `linked` are the records of the jobs with their
successors, `ready` the jobs that were ready at once. -/
structure Accepted (svc : Service) (client : ClientConfig) (req : WorkflowRequest)
    (info linked : JobRuntimeMap) (ready : List PrioritizedJob) (s s' : Visible) : Prop where
  configured : svc.client req.clientId = some client
  built : WorkflowRuntimeGenerator.buildJobsRuntimeInfo svc.uuids client.policy req.jobs =
    .built info ready
  validated : validateWorkflow svc.hash client.policy req.jobs info = .ok linked
  new : req.identity ∉ s.identities
  stored : s' = { s with
    active := activate req.identity s.active
    identities := s.identities ++ [req.identity]
    jobKeys := s.jobKeys ++
      (svc.hash.order .jobsRuntimeInfo linked).map (fun d => ⟨req.identity, d.jobId⟩)
    workflows := Function.update s.workflows req.identity
      (initialSpace svc client.policy req ready linked (s.workflows req.identity))
    executionQueue := addJobs req.identity s.executionQueue
      (ready.take (WorkflowRuntimeGenerator.queuedCount client.policy ready.length)) }

/-- A submission that is reported as valid is accepted, and its rows are fresh ones. -/
theorem leads_submitWorkflow (svc : Service) (req : WorkflowRequest) :
    Leads (submitWorkflow svc (.request req)) w (fun r w' => (∃ v, r = some v ∧ v.valid = true) →
      ∃ client info linked ready, Accepted svc client req info linked ready w.visible
        w'.visible ∧ FreshRows svc req linked w'.sqlite) := by
  have hreject : ∀ (r : ValidationResult) (w' : World), r.valid = false →
      (∃ v, some r = some v ∧ v.valid = true) → ∃ client info linked ready,
        Accepted svc client req info linked ready w.visible w'.visible ∧
          FreshRows svc req linked w'.sqlite := by
    rintro r w' hr ⟨v, hv, hvalid⟩
    cases hv
    cases hr.symm.trans hvalid
  unfold submitWorkflow
  dsimp only
  split
  · exact leads_pure (hreject _ w rfl)
  rename_i client hclient
  refine Leads.bind (leads_admitRequest _) (fun r w₁ h₁ => ?_)
  cases r with
  | error code => exact leads_reject _ _ _ _ hreject
  | ok _ =>
      replace h₁ := h₁ rfl
      refine Leads.bind (leads_persistRequest client req) (fun r w₂ h₂ => ?_)
      cases r with
      | error code => exact leads_reject _ _ _ _ hreject
      | ok _ =>
          replace h₂ := h₂ rfl
          dsimp only
          unfold createWorkflow
          split
          · exact leads_pure nofun
          · exact leads_reject _ _ _ _ hreject
          · rename_i info ready hbuilt
            split
            · exact leads_reject _ _ _ _ hreject
            · rename_i linked hvalid
              refine Leads.bind (leads_persistWorkflow svc req linked) (fun r w₃ h₃ => ?_)
              cases r with
              | error code => exact leads_reject _ _ _ _ hreject
              | ok _ =>
                  obtain ⟨hrows, hnew, h₃⟩ := h₃ rfl
                  have hrows₄ := FreshRows.leads hrows
                    (initializeRuntimeData_advances svc client.policy req ready linked)
                  refine Leads.bind ((leads_initializeRuntimeData svc client.policy req ready
                    linked).and hrows₄) ?_
                  rintro (_ | _) w₄ ⟨h₄, hrows₄⟩
                  · exact leads_reject _ _ _ _ hreject
                  · have hrows₅ := FreshRows.leads hrows₄ (handleRequestAccepted_advances req)
                    refine Leads.bind ((leads_handleRequestAccepted req).and hrows₅)
                      (fun r w₅ h₅ => leads_pure (fun _ => ⟨client, info, linked, ready,
                        ⟨hclient, hbuilt, hvalid, ?_, ?_⟩, h₅.2⟩))
                    · rw [h₂, h₁] at hnew
                      exact hnew
                    · rw [h₅.1, h₄ rfl, h₃, h₂, h₁]
                      rfl

end Submission

end FlowPilot
