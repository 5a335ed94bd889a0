import FlowPilot.AdmissionOutcome
import FlowPilot.AdmissionSplit
import FlowPilot.BaseFaults
import FlowPilot.WorkflowBooks

/-! A publication that fails. `initialize_runtime_data` stores the keys of a workflow one command after
the other, and each of its failure branches has a list of deletes of its own. Every such list undoes
what may have been stored before it, so that whichever command fails, the keys are gone in the end. The
jobs enter the execution queue with the last command only. -/

namespace FlowPilot

/-- No job of the workflow is in the execution queue. -/
def Unqueued (id : WorkflowIdentity) (r : Redis) : Prop :=
  ∀ j : String, ⟨id, j⟩ ∉ r.executionQueue.members

/-- No key of the workflow exists, and none of its jobs is queued. -/
structure NoTrace (id : WorkflowIdentity) (r : Redis) : Prop where
  keys : r.workflows id = {}
  queue : Unqueued id r

/-! ## One failing call -/

/-- Run alone from a world with the books `b`, the program ends as `post` says when every call is
answered, and as `undone` says when a single call fails, whichever it is. -/
def Tries {α : Type} (id : WorkflowIdentity) (p : Task α) (b : Books)
    (post undone : α → Books → Prop) : Prop :=
  ∀ w, books id w = b → Prog.Attempts Call.exec (fun e => e.ok = true) (fun e => e.ok = false)
    (fun a w' => post a (books id w')) (fun a w' => undone a (books id w')) p w

section Rules

variable {α β : Type} {id : WorkflowIdentity} {b : Books}

theorem tries_pure {post undone : α → Books → Prop} {a : α} (h : post a b) :
    Tries id (pure a) b post undone := by
  intro w hw
  change post a (books id w)
  rw [hw]
  exact h

theorem Tries.bind {p : Task α} {f : α → Task β} {mid undoneMid : α → Books → Prop}
    {post undone : β → Books → Prop} (hp : Tries id p b mid undoneMid)
    (hf : ∀ a b', mid a b' → Tries id (f a) b' post undone)
    (hundo : ∀ a b', undoneMid a b' → Posts id (f a) b' undone) :
    Tries id (p >>= f) b post undone :=
  fun w hw => (hp w hw).bind (fun a w' hmid => hf a _ hmid w' rfl)
    (fun a w' hmid => hundo a _ hmid w' rfl)

theorem tries_ask {c : Call} {post undone : c.Reply → Books → Prop} (hlocal : c.isLocal = false)
    (h : Posts id (ask c) b post) (hfail : undone c.failure b) : Tries id (ask c) b post undone := by
  intro w hw
  refine ⟨fun e he => h w hw e he, fun e he => ?_⟩
  change undone (c.exec e w).1 (books id (c.exec e w).2)
  rw [Call.exec, hlocal, he, Bool.or_false, if_neg Bool.false_ne_true, hw]
  exact hfail

end Rules

/-! ## What the deletes leave -/

/-- What the deletes of `create_workflow_runtime_data_async` leave of the keys. -/
def unstored (js : List String) (ks : WorkflowKeyspace) : WorkflowKeyspace :=
  { ks with
    hash := none
    jobs := fun j => if j ∈ js then none else ks.jobs j
    successors := fun j => if j ∈ js then [] else ks.successors j }

/-- What the rollback of `initialize_runtime_data` leaves of the keys. -/
def rolledBack (js added : List String) (ks : WorkflowKeyspace) : WorkflowKeyspace :=
  { unstored js ks with
    waitingReady := .empty
    payloads := fun j => if j ∈ added then none else ks.payloads j }

/-- The keys have changed, and `undo` leaves none of them. -/
def Undoable (undo : WorkflowKeyspace → WorkflowKeyspace) (b b' : Books) : Prop :=
  ∃ ks, b' = { b with space := ks } ∧ undo ks = {}

section Deletes

variable {js added : List String} {ks : WorkflowKeyspace}

theorem unstored_empty (js : List String) : unstored js {} = {} := by
  simp only [unstored, ite_self]

theorem unstored_setJob {j : String} (hj : j ∈ js) (f : JobHash → JobHash) :
    unstored js (ks.setJob j f) = unstored js ks := by
  simp only [unstored, WorkflowKeyspace.mk.injEq, true_and]
  refine ⟨funext fun i => ?_, rfl, rfl, rfl⟩
  split
  · rfl
  · rename_i hi
    exact WorkflowKeyspace.setJob_jobs_of_ne ks f j i (fun heq : i = j => hi (heq ▸ hj))

theorem unstored_addSuccessors {j : String} (hj : j ∈ js) (successors : List String) :
    unstored js { ks with successors := Function.update ks.successors j successors } =
      unstored js ks := by
  simp only [unstored, WorkflowKeyspace.mk.injEq, true_and, and_true]
  funext i
  split
  · rfl
  · rename_i hi
    exact Function.update_of_ne (fun heq : i = j => hi (heq ▸ hj)) ..

theorem rolledBack_of_unstored {waiting : SortedSet String} (h : unstored js ks = {}) :
    rolledBack js [] { ks with waitingReady := waiting } = {} := by
  have hkeys : rolledBack js [] { ks with waitingReady := waiting } =
      { unstored js ks with waitingReady := .empty } := rfl
  rw [hkeys, h]

theorem rolledBack_storePayload {job : JobRequest} (h : rolledBack js added ks = {}) :
    rolledBack js (added ++ [job.jobId]) (storePayload ks job) = {} := by
  have hpayloads : ∀ j, (if j ∈ added then none else ks.payloads j) = none := fun j =>
    congrFun (congrArg WorkflowKeyspace.payloads h) j
  have hnone : (fun j => if j ∈ added ++ [job.jobId] then none else
      (storePayload ks job).payloads j) = fun _ => none := by
    funext j
    split
    · rfl
    · rename_i hj
      rw [List.mem_append, List.mem_singleton, not_or] at hj
      have hold := hpayloads j
      rw [if_neg hj.1] at hold
      exact (Function.update_of_ne hj.2 ..).trans hold
  calc rolledBack js (added ++ [job.jobId]) (storePayload ks job)
      = { rolledBack js added ks with payloads := fun j =>
          if j ∈ added ++ [job.jobId] then none else (storePayload ks job).payloads j } := rfl
    _ = {} := by rw [h, hnone]

end Deletes

section Undoing

open RedisDatabase WorkflowRuntimeGenerator

variable {id : WorkflowIdentity} {b b' : Books} {js added : List String}

theorem posts_unstore (h : Undoable (unstored js) b b') :
    Posts id (do
      deleteAllWorkflowJobs id js
      let _ ← (ask (.deleteWorkflow id) : Task Bool)
      pure false : Task Bool) b' (fun r b'' => r = false ∧ b'' = { b with space := {} }) := by
  obtain ⟨ks, rfl, hks⟩ := h
  refine (posts_deleteAllWorkflowJobs js).bind (fun _ b₁ h₁ => ?_)
  subst h₁
  refine posts_deleteWorkflow.bind (fun _ b₂ h₂ => posts_pure ⟨rfl, ?_⟩)
  obtain ⟨-, rfl⟩ := h₂
  rw [← hks]
  rfl

theorem posts_rollback (h : Undoable (rolledBack js added) b b') :
    Posts id (rollback id added js) b' (fun _ b'' => b'' = { b with space := {} }) := by
  obtain ⟨ks, rfl, hks⟩ := h
  refine (posts_deleteAllJobsPayload added).bind (fun _ b₁ h₁ => ?_)
  subst h₁
  refine (posts_deleteWorkflowRuntimeData js).bind (fun _ b₂ h₂ => posts_pure ?_)
  obtain ⟨-, rfl⟩ := h₂
  rw [← hks]
  rfl

theorem posts_undo (h : Undoable (rolledBack js added) b b') :
    Posts id (do rollback id added js; pure false : Task Bool) b'
      (fun r b'' => r = false ∧ b''.space = {}) :=
  (posts_rollback h).bind (fun _ _ h' => posts_pure ⟨rfl, h' ▸ rfl⟩)

end Undoing

/-! ## Every failing command -/

section Storing

open RedisDatabase WorkflowRuntimeGenerator

variable {id : WorkflowIdentity} {b : Books} {js : List String}

theorem tries_setJobRuntime {d : JobRuntimeData} (hd : d.jobId ∈ js)
    (hb : unstored js b.space = {}) : Tries id (setJobRuntime id d) b
      (fun r b' => r = true ∧ Undoable (unstored js) b b')
      (fun r b' => r = false ∧ Undoable (unstored js) b b') := by
  have hset : Tries id (ask (.setJobRuntime ⟨id, d.jobId⟩ (jobHash d))) b
      (fun r b' => r = true ∧ b' = { b with space := b.space.setJob d.jobId (fun _ => jobHash d) })
      (fun r b' => r = false ∧ b' = b) :=
    tries_ask rfl (posts_space (f := fun ks => ks.setJob d.jobId (fun _ => jobHash d))
      (fun _ _ _ => rfl) (fun _ _ => rfl)) ⟨rfl, rfl⟩
  refine hset.bind ?_ ?_
  · rintro r b' ⟨rfl, rfl⟩
    have hstored : unstored js (b.space.setJob d.jobId (fun _ => jobHash d)) = {} :=
      (unstored_setJob hd _).trans hb
    rw [if_neg (by decide)]
    split
    · exact tries_pure ⟨rfl, _, rfl, hstored⟩
    · have hadd : ∀ b, Posts id (ask (.addSuccessors ⟨id, d.jobId⟩ d.successors)) b (fun r b' =>
          r = true ∧ b' = { b with space := { b.space with
            successors := Function.update b.space.successors d.jobId
              (b.space.successors d.jobId ++ d.successors) } }) :=
        fun b => posts_space (f := fun ks => { ks with
          successors := Function.update ks.successors d.jobId
            (ks.successors d.jobId ++ d.successors) }) (fun _ _ _ => rfl) (fun _ _ => rfl)
      refine tries_ask rfl ((hadd _).mono (fun r b' h => ⟨h.1, _, h.2, ?_⟩)) ⟨rfl, _, rfl, hstored⟩
      exact (unstored_addSuccessors hd _).trans hstored
  · rintro r b' ⟨rfl, rfl⟩
    exact posts_pure ⟨rfl, _, rfl, hb⟩

theorem tries_setAllJobs {jobs : List JobRuntimeData} (hjobs : ∀ d ∈ jobs, d.jobId ∈ js)
    (hb : unstored js b.space = {}) : Tries id (setAllJobs id jobs) b
      (fun r b' => r = true ∧ Undoable (unstored js) b b')
      (fun r b' => r = false ∧ Undoable (unstored js) b b') := by
  induction jobs generalizing b with
  | nil => exact tries_pure ⟨rfl, _, rfl, hb⟩
  | cons d rest ih =>
      obtain ⟨hd, hrest⟩ := List.forall_mem_cons.mp hjobs
      refine (tries_setJobRuntime hd hb).bind ?_ ?_
      · rintro r b' ⟨rfl, ks, rfl, hks⟩
        exact ih hrest hks
      · rintro r b' ⟨rfl, hundoable⟩
        exact posts_pure ⟨rfl, hundoable⟩

theorem tries_createWorkflowRuntimeData (hash : WorkflowHash) (jobs : List JobRuntimeData)
    (ready : List PrioritizedJob) (hb : b.space = {}) :
    Tries id (createWorkflowRuntimeData id hash jobs ready) b
      (fun r b' => r = true ∧ Undoable (rolledBack (jobs.map JobRuntimeData.jobId) []) b b')
      (fun r b' => r = false ∧ b'.space = {}) := by
  have hset : Tries id (ask (.setWorkflowRuntime id hash)) b
      (fun r b' => r = true ∧ b' = { b with space := { b.space with hash := some hash } })
      (fun r b' => r = false ∧ b' = b) :=
    tries_ask rfl (posts_space (f := fun ks => { ks with hash := some hash })
      (fun _ _ _ => rfl) (fun _ _ => rfl)) ⟨rfl, rfl⟩
  refine hset.bind ?_ ?_
  · rintro r b₁ ⟨rfl, rfl⟩
    have hstart : unstored (jobs.map JobRuntimeData.jobId) { b.space with hash := some hash } = {} := by
      rw [hb]
      exact unstored_empty _
    have hjobs : ∀ d ∈ jobs, d.jobId ∈ jobs.map JobRuntimeData.jobId :=
      fun d hd => List.mem_map_of_mem hd
    rw [if_neg (by decide)]
    refine Tries.bind (tries_setAllJobs
      (b := { b with space := { b.space with hash := some hash } }) hjobs hstart) ?_ ?_
    · rintro r b₂ ⟨rfl, ks, rfl, hks⟩
      rw [if_neg (by decide)]
      split
      · exact tries_pure ⟨rfl, ks, rfl, rolledBack_of_unstored hks⟩
      · have hadd : ∀ b, Posts id (ask (.addWaitingReady id (ready.map score))) b (fun r b' =>
            r = true ∧ b' = { b with space := { b.space with
              waitingReady := addMembers b.space.waitingReady (ready.map score) } }) :=
          fun b => posts_space (f := fun ks => { ks with
            waitingReady := addMembers ks.waitingReady (ready.map score) })
            (fun _ _ _ => rfl) (fun _ _ => rfl)
        have htry : Tries id (ask (.addWaitingReady id (ready.map score))) { b with space := ks }
            (fun r b' => r = true ∧
              Undoable (rolledBack (jobs.map JobRuntimeData.jobId) []) b b')
            (fun r b' => r = false ∧ Undoable (unstored (jobs.map JobRuntimeData.jobId)) b b') :=
          tries_ask rfl ((hadd _).mono (fun _ _ h => ⟨h.1, _, h.2, rolledBack_of_unstored hks⟩))
            ⟨rfl, ks, rfl, hks⟩
        refine htry.bind ?_ ?_
        · rintro r b₃ ⟨rfl, hundoable⟩
          exact tries_pure ⟨rfl, hundoable⟩
        · rintro r b₃ ⟨rfl, hundoable⟩
          exact (posts_unstore hundoable).mono (fun _ _ h => ⟨h.1, h.2 ▸ rfl⟩)
    · rintro r b₂ ⟨rfl, hundoable⟩
      exact (posts_unstore hundoable).mono (fun _ _ h => ⟨h.1, h.2 ▸ rfl⟩)
  · rintro r b₁ ⟨rfl, rfl⟩
    refine posts_deleteWorkflow.bind (fun _ b₂ h₂ => posts_pure ⟨rfl, ?_⟩)
    rw [h₂.2, hb]

theorem tries_setPayloads {added : List String} (jobs : List JobRequest)
    (hb : rolledBack js added b.space = {}) : Tries id (setPayloads id jobs added) b
      (fun r b' => r.1 = true ∧ Undoable (rolledBack js r.2) b b')
      (fun r b' => r.1 = false ∧ Undoable (rolledBack js r.2) b b') := by
  induction jobs generalizing b added with
  | nil => exact tries_pure ⟨rfl, _, rfl, hb⟩
  | cons job rest ih =>
      have hset : Tries id (ask (.setJobPayload ⟨id, job.jobId⟩ (job.payload.getD []))) b
          (fun r b' => r = true ∧ b' = { b with space := storePayload b.space job })
          (fun r b' => r = false ∧ b' = b) :=
        tries_ask rfl (posts_space (f := fun ks => storePayload ks job)
          (fun _ _ _ => rfl) (fun _ _ => rfl)) ⟨rfl, rfl⟩
      refine hset.bind ?_ ?_
      · rintro r b₁ ⟨rfl, rfl⟩
        exact ih (rolledBack_storePayload hb)
      · rintro r b₁ ⟨rfl, rfl⟩
        exact posts_pure ⟨rfl, _, rfl, hb⟩

/-- Whichever call fails, the keys stored before it are gone at the end. -/
theorem tries_initializeRuntimeData (svc : Service) (policy : PolicyPlan) (req : WorkflowRequest)
    (ready : List PrioritizedJob) (info : JobRuntimeMap) (hb : b.space = {})
    (hrows : ∀ j ∈ ready.map PrioritizedJob.jobId, b.ledger.job j ≠ none) :
    Tries req.identity (initializeRuntimeData svc policy req ready info) b (fun r _ => r = true)
      (fun r b' => r = false ∧ b'.space = {}) := by
  unfold initializeRuntimeData
  refine (tries_createWorkflowRuntimeData _ _ _ hb).bind ?_ ?_
  swap
  · rintro r b₁ ⟨rfl, hspace⟩
    exact posts_pure ⟨rfl, hspace⟩
  rintro r b₁ ⟨rfl, ks, rfl, hks⟩
  rw [if_neg (by decide)]
  refine (tries_setPayloads req.jobs hks).bind ?_ ?_
  swap
  · rintro ⟨r, added⟩ b₂ ⟨rfl, hundoable⟩
    exact posts_undo hundoable
  rintro ⟨r, added⟩ b₂ ⟨rfl, ks', rfl, hks'⟩
  dsimp only
  rw [if_neg (by decide)]
  set queued := (ready.take (queuedCount policy ready.length)).map PrioritizedJob.jobId with hqueued
  set waiting := (ready.drop (queuedCount policy ready.length)).map PrioritizedJob.jobId with hwaiting
  have hready : ∀ j ∈ queued ++ waiting, b.ledger.job j ≠ none := by
    intro j hj
    rw [hqueued, hwaiting, ← List.map_append, List.take_append_drop] at hj
    exact hrows j hj
  have hupdate : Tries req.identity (ask (.updateReadyJobs req.identity queued waiting))
      { b with space := ks' }
      (fun r b' => r = true ∧ b' = { b with space := ks', ledger := b.ledger.setReady queued waiting })
      (fun r b' => r = false ∧ b' = { b with space := ks' }) :=
    tries_ask rfl (posts_updateReadyJobs hready) ⟨rfl, rfl⟩
  refine hupdate.bind ?_ ?_
  swap
  · rintro r b₃ ⟨rfl, rfl⟩
    exact posts_undo ⟨ks', rfl, hks'⟩
  rintro r b₃ ⟨rfl, rfl⟩
  rw [if_neg (by decide)]
  split
  · exact tries_pure rfl
  -- the queue is not in the books
  have hqueue : ∀ (b : Books) (members : List (String × Int)), Tries req.identity
      (ask (.queueWorkflowJobs req.identity members)) b (fun r _ => r = true)
      (fun r b' => r = false ∧ b' = b) :=
    fun _ _ => tries_ask rfl (posts_ask (fun _ _ _ => rfl)) ⟨rfl, rfl⟩
  refine (hqueue _ _).bind ?_ ?_
  · rintro r b₄ rfl
    exact tries_pure rfl
  · rintro r b₄ ⟨rfl, rfl⟩
    have hremove : ∀ b : Books, Posts req.identity (ask (.removeQueuedJobs req.identity queued)) b
        (fun _ b' => b' = b) := fun b => posts_ask (fun _ _ hw => hw)
    refine (hremove _).bind (fun _ b₅ h₅ => ?_)
    subst h₅
    exact posts_undo (b := { b with ledger := b.ledger.setReady queued waiting }) ⟨ks', rfl, hks'⟩

end Storing

/-! ## The last command -/

section Publishing

open RedisDatabase WorkflowRuntimeGenerator

variable {id : WorkflowIdentity} {w : World}

/-- A call that puts no job of the workflow into the execution queue. -/
def KeepsOut (id : WorkflowIdentity) (c : Call) : Prop :=
  ∀ e (w : World), Unqueued id w.redis → Unqueued id (c.exec e w).2.redis

theorem StoresKeys.keepsOut {c : Call} (hc : StoresKeys id c) : KeepsOut id c := by
  intro e w hw
  obtain ⟨hc, -⟩ := hc
  have hqueue : (c.exec e w).2.redis.executionQueue = w.redis.executionQueue := by
    rw [Call.exec]
    split
    · cases c <;> first | rfl | cases hc
    · rfl
  intro j
  rw [hqueue]
  exact hw j

theorem keepsOut_updateReadyJobs (queued ready : List String) :
    KeepsOut id (.updateReadyJobs id queued ready) := by
  intro e w hw
  rw [Call.exec]
  split <;> exact hw

theorem keepsOut_removeQueuedJobs (js : List String) : KeepsOut id (.removeQueuedJobs id js) := by
  intro e w hw
  have hmem : ∀ (q : SortedSet JobKey) (k : JobKey),
      k ∈ (js.foldl (fun q j => q.remove ⟨id, j⟩) q).members → k ∈ q.members := by
    induction js with
    | nil => exact fun _ _ hk => hk
    | cons j rest ih =>
        intro q k hk
        exact ((q.mem_members_remove ⟨id, j⟩ k).mp (ih _ k hk)).1
  rw [Call.exec]
  split
  · exact fun j hj => hw j (hmem _ _ hj)
  · exact hw

/-- While a job of the workflow is queued, the program has nothing left to do. -/
def QueuesLast (id : WorkflowIdentity) (q : Task Bool) (v : World) : Prop :=
  Unqueued id v.redis ∨ q = .done true

theorem queuesLast_bind {α : Type} {p : Task α} {f : α → Task Bool}
    (hp : p.OnlyCalls (KeepsOut id)) (hw : Unqueued id w.redis) (hf : ∀ a v, Unqueued id v.redis →
      Prog.Throughout Call.exec (fun _ => True) (QueuesLast id) (f a) v) :
    Prog.Throughout Call.exec (fun _ => True) (QueuesLast id) (p >>= f) w := by
  have hkeeps : ∀ c, KeepsOut id c → ∀ e (w : World), Unqueued id w.redis →
      Unqueued id (c.exec e w).2.redis := fun _ hc => hc
  refine Prog.Throughout.bind ?_ (hp.ensures hkeeps hw) hf
  exact (hp.throughout hkeeps hw).mono (fun _ _ h => .inl h)

theorem queuesLast_pure (r : Bool) (hw : Unqueued id w.redis) :
    Prog.Throughout Call.exec (fun _ => True) (QueuesLast id) (pure r) w := .inl hw

theorem queuesLast_initializeRuntimeData (svc : Service) (policy : PolicyPlan)
    (req : WorkflowRequest) (ready : List PrioritizedJob) (info : JobRuntimeMap)
    (hw : Unqueued req.identity w.redis) :
    Prog.Throughout Call.exec (fun _ => True) (QueuesLast req.identity)
      (initializeRuntimeData svc policy req ready info) w := by
  have hstores : ∀ {α : Type} {p : Task α}, p.OnlyCalls (StoresKeys req.identity) →
      p.OnlyCalls (KeepsOut req.identity) := fun h => h.mono (fun _ => StoresKeys.keepsOut)
  have hundo : ∀ added js (v : World), Unqueued req.identity v.redis →
      Prog.Throughout Call.exec (fun _ => True) (QueuesLast req.identity)
        (do rollback req.identity added js; pure false : Task Bool) v := fun added js v hv =>
    queuesLast_bind (hstores (rollback_stores _ _ _)) hv (fun _ _ => queuesLast_pure false)
  unfold initializeRuntimeData
  refine queuesLast_bind (hstores (createWorkflowRuntimeData_stores _ _ _ _)) hw ?_
  rintro (_ | _) w₁ h₁
  · exact queuesLast_pure false h₁
  rw [if_neg (by decide)]
  refine queuesLast_bind (hstores (setPayloads_stores _ _ _)) h₁ ?_
  rintro ⟨_ | _, added⟩ w₂ h₂
  · exact hundo _ _ w₂ h₂
  dsimp only
  rw [if_neg (by decide)]
  refine queuesLast_bind (onlyCalls_ask (keepsOut_updateReadyJobs _ _)) h₂ ?_
  rintro (_ | _) w₃ h₃
  · exact hundo _ _ w₃ h₃
  rw [if_neg (by decide)]
  split
  · exact queuesLast_pure true h₃
  -- the command is carried out and the program is over, or nothing is queued
  refine ⟨.inl h₃, fun e _ => ?_⟩
  rw [Call.exec]
  split
  · exact .inr rfl
  · refine queuesLast_bind (p := ask (.removeQueuedJobs req.identity _))
      (onlyCalls_ask (keepsOut_removeQueuedJobs _)) h₃ ?_
    exact fun _ w₄ h₄ => hundo _ _ w₄ h₄

end Publishing

/-! ## The rejection that follows -/

section Rejection

open AdmissionFailureHandler WorkflowAdmissionService WorkflowRuntimeGenerator

variable {svc : Service} {client : ClientConfig} {req : WorkflowRequest} {info linked : JobRuntimeMap}
  {ready : List PrioritizedJob} {w : World}

/-- What a rejection leaves of a workflow that was stored. -/
structure Rejected (req : WorkflowRequest) (w : World) : Prop where
  workflow : w.sqlite.workflowStatus req.identity = some .failed
  jobs : ∀ job ∈ req.jobs, w.sqlite.jobStatus ⟨req.identity, job.jobId⟩ = some .aborted
  inactive : req.workflowId ∉ w.redis.activeWorkflows req.clientId

theorem settles_handleRejection_rows {stage : AdmissionStage} (reason : StatusCode)
    (hstage : AdmissionStage.persistRequest.index < stage.index)
    (hrow : w.sqlite.workflowStatus req.identity ≠ none) :
    Settles (handleRejection req stage reason) w (fun _ w' =>
      w'.sqlite.workflowStatus req.identity = some .failed ∧
      w'.sqlite.jobs = (w.sqlite.failAllJobsWaitingToRun req.identity).jobs) := by
  unfold handleRejection
  rw [if_pos hstage.le, if_pos hstage]
  intro e₁ h₁ e₂ h₂ e₃ h₃ e₄ h₄ e₅ h₅ e₆ h₆
  rw [exec_answered h₁, exec_answered h₂, exec_answered h₃, exec_answered h₄, exec_answered h₅,
    exec_answered h₆]
  have hfailed : WorkflowRow.transition e₆.time .failed ≠ none := nofun
  refine ⟨congrArg Ledger.workflow (Sqlite.updateWorkflowStatus_ledger _ e₆.time hfailed ?_).2,
    Sqlite.jobs_updateWorkflowStatus ..⟩
  exact hrow

theorem Planned.exists_record (h : Planned svc client req info linked ready) {job : JobRequest}
    (hjob : job ∈ req.jobs) :
    ∃ d ∈ svc.hash.order .jobsRuntimeInfo linked, d.jobId = job.jobId := by
  obtain ⟨d, hd, hrecord⟩ := exists_of_forall₂ (h.records []) hjob
  exact ⟨d, (svc.hash.perm .jobsRuntimeInfo linked).mem_iff.mpr hd, hrecord.jobId⟩

theorem settles_rejected (hplanned : Planned svc client req info linked ready)
    (hrows : FreshRows svc req linked w.sqlite) :
    Settles (handleRejection req .generateRuntimeData .internalDbFailure) w
      (fun _ w' => Rejected req w') := by
  have hrow : w.sqlite.workflowStatus req.identity ≠ none := by
    rcases hrows.workflow with h | h <;> rw [h] <;> exact nofun
  have hstage : AdmissionStage.persistRequest.index < AdmissionStage.generateRuntimeData.index := by
    decide
  refine ((settles_handleRejection .internalDbFailure hstage.le).and
    (settles_handleRejection_rows .internalDbFailure hstage hrow)).mono ?_
  rintro r w' ⟨⟨-, hinactive, -⟩, hworkflow, hjobs⟩
  refine ⟨hworkflow, fun job hjob => ?_, hinactive⟩
  obtain ⟨d, hd, hid⟩ := hplanned.exists_record hjob
  obtain ⟨st, hst, hwaiting⟩ := hrows.jobs d hd
  rw [hid] at hst
  rw [Sqlite.jobStatus, hjobs]
  exact Sqlite.jobStatus_failAllJobsWaitingToRun_self _ hst hwaiting

/-- A publication in which one command fails leaves no trace, and the rejection that follows it ends
the workflow. A job is in the execution queue only when the publication is over and every key is
stored. -/
theorem publication_leaves_no_trace (hplanned : Planned svc client req info linked ready)
    (hnone : NoTrace req.identity w.redis) (persisting : Nat → Env)
    (hpersisted : (Prog.run Call.exec persisting (persistWorkflow svc req linked) w).1 = .ok ()) :
    let w₁ := (Prog.run Call.exec persisting (persistWorkflow svc req linked) w).2
    let publish := initializeRuntimeData svc client.policy req ready linked
    (∀ (env : Nat → Env) (m : Nat), (env m).ok = false → (∀ n, n ≠ m → (env n).ok = true) →
      m < (Prog.runFrom Call.exec env 0 publish w₁).1 →
      (Prog.run Call.exec env publish w₁).1 = false ∧
      NoTrace req.identity (Prog.run Call.exec env publish w₁).2.redis ∧
      ∀ rejecting : Nat → Env, (∀ n, (rejecting n).ok = true) →
        Rejected req (Prog.run Call.exec rejecting
          (handleRejection req .generateRuntimeData .internalDbFailure)
          (Prog.run Call.exec env publish w₁).2).2) ∧
    ∀ (env : Nat → Env), ∀ moment ∈ Prog.moments Call.exec env 0 publish w₁,
      ¬ Unqueued req.identity moment.2.redis →
      moment.1 = .done true ∧ InitialKeys client req ready (moment.2.redis.workflows req.identity) := by
  obtain ⟨hrows, -, hvisible⟩ := (leads_persistWorkflow svc req linked).run persisting hpersisted
  intro w₁ publish
  have hkeys : w₁.redis.workflows req.identity = {} :=
    (congrFun (congrArg Visible.workflows hvisible) _).trans hnone.keys
  have hqueue : Unqueued req.identity w₁.redis := by
    intro j
    rw [show w₁.redis.executionQueue = w.redis.executionQueue from
      congrArg Visible.executionQueue hvisible]
    exact hnone.queue j
  have hlast := queuesLast_initializeRuntimeData svc client.policy req ready linked hqueue
  refine ⟨fun env m hfail hothers hreached => ?_, fun env moment hmoment hqueued => ?_⟩
  · have hready : ∀ j ∈ ready.map PrioritizedJob.jobId,
        (books req.identity w₁).ledger.job j ≠ none := by
      intro j hj
      obtain ⟨job, hjob, rfl, -⟩ := (hplanned.mem_ready j).mp hj
      obtain ⟨d, hd, hid⟩ := hplanned.exists_record hjob
      obtain ⟨st, hst, -⟩ := hrows.jobs d hd
      rw [hid] at hst
      exact fun hrow => nomatch hst.symm.trans hrow
    obtain ⟨hresult, hspace⟩ := (tries_initializeRuntimeData svc client.policy req ready linked
      (b := books req.identity w₁) hkeys hready w₁ rfl).runFrom hfail hothers (Nat.zero_le m) hreached
    have hend := hlast.ensures.run env (fun _ => trivial)
    have hfresh := (hrows.leads (initializeRuntimeData_advances svc client.policy req ready
      linked)).run env
    refine ⟨hresult, ⟨hspace, hend.resolve_right ?_⟩, fun rejecting hrejecting => ?_⟩
    · rw [show (Prog.run Call.exec env publish w₁).1 = false from hresult]
      nofun
    · exact (settles_rejected hplanned hfresh).run rejecting hrejecting
  · have hstored := (leads_initializeRuntimeData svc client.policy req ready linked (w := w₁))
    obtain ⟨hlast, hend⟩ := (hlast.and_ensures hstored).moments (fun _ => trivial) 0 moment hmoment
    have hdone : moment.1 = .done true := hlast.resolve_left hqueued
    refine ⟨hdone, ?_⟩
    have hspace : moment.2.redis.workflows req.identity = initialSpace svc client.policy req ready
        linked (w₁.redis.workflows req.identity) :=
      (congrFun (congrArg Visible.workflows (hend true hdone rfl)) _).trans (Function.update_self ..)
    rw [hspace, hkeys]
    exact hplanned.initialKeys

/-- Three jobs with one slot, and the command that queues the first of them fails. -/
theorem publication_leaves_no_trace_contended : ∃ info linked ready w₁,
    Planned (serviceOf 1) { policy := { maxConcurrentJobs := 1 } } contendedJobs info linked ready ∧
    Prog.run Call.exec (fun _ => {}) (persistWorkflow (serviceOf 1) contendedJobs linked) {} =
      (.ok (), w₁) ∧
    (Prog.run Call.exec (fun n => { ok := n != 10 }) (initializeRuntimeData (serviceOf 1)
      { maxConcurrentJobs := 1 } contendedJobs ready linked) w₁).1 = false ∧
    NoTrace contendedJobs.identity (Prog.run Call.exec (fun n => { ok := n != 10 })
      (initializeRuntimeData (serviceOf 1) { maxConcurrentJobs := 1 } contendedJobs ready
        linked) w₁).2.redis := by
  have hplanned : Planned (serviceOf 1) { policy := { maxConcurrentJobs := 1 } } contendedJobs _ _ _ :=
    ⟨rfl, rfl⟩
  refine ⟨_, _, _, _, hplanned, rfl, ?_⟩
  have hnone : NoTrace contendedJobs.identity ({} : World).redis :=
    ⟨rfl, fun _ => List.not_mem_nil⟩
  obtain ⟨hresult, htrace, -⟩ := (publication_leaves_no_trace hplanned hnone (fun _ => {}) rfl).1
    (fun n => { ok := n != 10 }) 10 rfl (fun n hn => bne_iff_ne.mpr hn) (by decide +kernel)
  exact ⟨hresult, htrace⟩

end Rejection

end FlowPilot
