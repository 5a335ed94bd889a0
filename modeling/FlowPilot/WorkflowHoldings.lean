import FlowPilot.WorkflowView
import FlowPilot.ProtocolTasks
import Mathlib.Algebra.BigOperators.Group.Multiset.Basic

/-! The holdings of the whole engine: which job is at which stage, over all queues and all suspended
programs, and the view of one workflow that they give. -/

namespace FlowPilot

abbrev Holding := JobKey × Stage

def Token.holdings : Token → Multiset Holding
  | .hold k s => {(k, s)}
  | _ => 0

/-- What a sorted set of jobs holds, at the stage it stands for. -/
def setHoldings (q : SortedSet JobKey) (s : Stage) : Multiset Holding :=
  (q.members.map (fun k => (k, s)) : List Holding)

def localHoldings (q : List JobExeData) : Multiset Holding :=
  (q.map (fun e => (e.key, Stage.dispatched)) : List Holding)

def streamHoldings (q : List JobCompletionData) : Multiset Holding :=
  (q.map (fun e => (e.key, Stage.reported e.status)) : List Holding)

def World.holdings (w : World) : Multiset Holding :=
  setHoldings w.redis.executionQueue .queued + setHoldings w.redis.jobRetryStream .retryWait +
    localHoldings w.localQueue + streamHoldings w.redis.jobCompletionStream

/-- What queues and programs hold together. -/
def holdings (w : World) (T : Multiset Token) : Multiset Holding :=
  w.holdings + (T.map Token.holdings).sum

def stagesOf (M : Multiset Holding) (k : JobKey) : Multiset Stage :=
  (M.filter (fun x => x.1 = k)).map Prod.snd

@[simp] theorem stagesOf_zero (k : JobKey) : stagesOf 0 k = 0 := rfl

@[simp] theorem stagesOf_add (M N : Multiset Holding) (k : JobKey) :
    stagesOf (M + N) k = stagesOf M k + stagesOf N k := by
  simp [stagesOf]

theorem stagesOf_cons (k : JobKey) (s : Stage) (M : Multiset Holding) (k' : JobKey) :
    stagesOf ((k, s) ::ₘ M) k' = if k = k' then s ::ₘ stagesOf M k' else stagesOf M k' := by
  by_cases h : k = k' <;> simp [stagesOf, h]

@[simp] theorem stagesOf_cons_self (k : JobKey) (s : Stage) (M : Multiset Holding) :
    stagesOf ((k, s) ::ₘ M) k = s ::ₘ stagesOf M k := by
  rw [stagesOf_cons, if_pos rfl]

theorem stagesOf_cons_of_ne {k k' : JobKey} (h : k ≠ k') (s : Stage) (M : Multiset Holding) :
    stagesOf ((k, s) ::ₘ M) k' = stagesOf M k' := by
  rw [stagesOf_cons, if_neg h]

theorem mem_stagesOf {M : Multiset Holding} {k : JobKey} {s : Stage} :
    s ∈ stagesOf M k ↔ (k, s) ∈ M := by
  simp only [stagesOf, Multiset.mem_map, Multiset.mem_filter]
  constructor
  · rintro ⟨⟨k', s'⟩, ⟨hmem, rfl⟩, rfl⟩
    exact hmem
  · exact fun h => ⟨(k, s), ⟨h, rfl⟩, rfl⟩

theorem holdings_cons (w : World) (t : Token) (T : Multiset Token) :
    holdings w (t ::ₘ T) = t.holdings + holdings w T := by
  simp only [holdings, Multiset.map_cons, Multiset.sum_cons]
  exact add_left_comm _ _ _

@[simp] theorem holdings_hold (w : World) (k : JobKey) (s : Stage) (T : Multiset Token) :
    holdings w (.hold k s ::ₘ T) = (k, s) ::ₘ holdings w T := by
  rw [holdings_cons, Token.holdings, Multiset.singleton_add]

@[simp] theorem holdings_idle (w : World) (T : Multiset Token) :
    holdings w (.idle ::ₘ T) = holdings w T := by
  rw [holdings_cons]
  exact zero_add _

/-- No program holds a job that is in the execution queue or in the retry set. -/
def Threaded (T : Multiset Token) : Prop :=
  ∀ k, Token.hold k .queued ∉ T ∧ Token.hold k .retryWait ∉ T

section Queues

theorem mem_setHoldings {q : SortedSet JobKey} {s : Stage} {x : Holding} :
    x ∈ setHoldings q s ↔ x.1 ∈ q.members ∧ x.2 = s := by
  obtain ⟨k, s'⟩ := x
  simp only [setHoldings, Multiset.mem_coe, List.mem_map, Prod.mk.injEq]
  constructor
  · rintro ⟨k', hk', rfl, rfl⟩
    exact ⟨hk', rfl⟩
  · rintro ⟨hk, rfl⟩
    exact ⟨k, hk, rfl, rfl⟩

variable {k : JobKey}

theorem setHoldings_remove (q : SortedSet JobKey) (s : Stage) (h : k ∈ q.members) :
    setHoldings q s = (k, s) ::ₘ setHoldings (q.remove k) s :=
  Multiset.coe_eq_coe.mpr ((q.members_perm_cons_remove h).map _)

theorem setHoldings_add (q : SortedSet JobKey) (s : Stage) (k : JobKey) (n : Int) :
    setHoldings (q.add k n) s = (k, s) ::ₘ setHoldings (q.remove k) s := rfl

theorem mem_threads {T : Multiset Token} {s : Stage} :
    (k, s) ∈ (T.map Token.holdings).sum ↔ Token.hold k s ∈ T := by
  induction T using Multiset.induction_on with
  | empty => simp
  | cons t T ih =>
      rw [Multiset.map_cons, Multiset.sum_cons, Multiset.mem_add, ih, Multiset.mem_cons]
      refine or_congr_left ?_
      cases t <;> simp [Token.holdings]

theorem mem_holdings_queued {w : World} {T : Multiset Token} (hT : Threaded T) :
    (k, Stage.queued) ∈ holdings w T ↔ k ∈ w.redis.executionQueue.members := by
  simp only [holdings, World.holdings, Multiset.mem_add, mem_setHoldings, localHoldings,
    streamHoldings, Multiset.mem_coe, List.mem_map, Prod.mk.injEq, reduceCtorEq, and_false,
    and_true, exists_false, or_false, mem_threads, (hT k).1]

theorem mem_holdings_retryWait {w : World} {T : Multiset Token} (hT : Threaded T) :
    (k, Stage.retryWait) ∈ holdings w T ↔ k ∈ w.redis.jobRetryStream.members := by
  simp only [holdings, World.holdings, Multiset.mem_add, mem_setHoldings, localHoldings,
    streamHoldings, Multiset.mem_coe, List.mem_map, Prod.mk.injEq, reduceCtorEq, and_false,
    and_true, exists_false, or_false, false_or, mem_threads, (hT k).2]

theorem mem_holdings_retryHeld {w : World} {T : Multiset Token} :
    (k, Stage.retryHeld) ∈ holdings w T ↔ Token.hold k .retryHeld ∈ T := by
  simp only [holdings, World.holdings, Multiset.mem_add, mem_setHoldings, localHoldings,
    streamHoldings, Multiset.mem_coe, List.mem_map, Prod.mk.injEq, reduceCtorEq, and_false,
    exists_false, or_false, false_or, mem_threads]

def World.setQueue (w : World) (q : SortedSet JobKey) : World :=
  { w with redis := { w.redis with executionQueue := q } }

def World.setRetry (w : World) (q : SortedSet JobKey) : World :=
  { w with redis := { w.redis with jobRetryStream := q } }

variable {w : World} {T : Multiset Token}

theorem holdings_setQueue_remove (h : k ∈ w.redis.executionQueue.members) :
    holdings w T = (k, .queued) ::ₘ
      holdings (w.setQueue (w.redis.executionQueue.remove k)) T := by
  simp only [holdings, World.holdings, World.setQueue, setHoldings_remove _ _ h,
    Multiset.cons_add]

theorem holdings_setRetry_remove (h : k ∈ w.redis.jobRetryStream.members) :
    holdings w T = (k, .retryWait) ::ₘ
      holdings (w.setRetry (w.redis.jobRetryStream.remove k)) T := by
  simp only [holdings, World.holdings, World.setRetry, setHoldings_remove _ _ h,
    Multiset.cons_add, Multiset.add_cons]

/-- Removing a job from the execution queue takes its QUEUED holding, if there is one. -/
theorem holdings_setQueue_erase (hT : Threaded T) (k : JobKey) :
    holdings (w.setQueue (w.redis.executionQueue.remove k)) T =
      (holdings w T).erase (k, .queued) := by
  by_cases h : k ∈ w.redis.executionQueue.members
  · rw [holdings_setQueue_remove h, Multiset.erase_cons_head]
  · rw [Multiset.erase_of_notMem (fun hmem => h ((mem_holdings_queued hT).mp hmem)),
      SortedSet.remove_of_not_mem _ h]
    rfl

theorem holdings_setRetry_erase (hT : Threaded T) (k : JobKey) :
    holdings (w.setRetry (w.redis.jobRetryStream.remove k)) T =
      (holdings w T).erase (k, .retryWait) := by
  by_cases h : k ∈ w.redis.jobRetryStream.members
  · rw [holdings_setRetry_remove h, Multiset.erase_cons_head]
  · rw [Multiset.erase_of_notMem (fun hmem => h ((mem_holdings_retryWait hT).mp hmem)),
      SortedSet.remove_of_not_mem _ h]
    rfl

theorem holdings_setQueue_add (hT : Threaded T) (k : JobKey) (n : Int) :
    holdings (w.setQueue (w.redis.executionQueue.add k n)) T =
      if (k, Stage.queued) ∈ holdings w T then holdings w T else (k, .queued) ::ₘ holdings w T := by
  have hadd : holdings (w.setQueue (w.redis.executionQueue.add k n)) T = (k, .queued) ::ₘ
      holdings (w.setQueue (w.redis.executionQueue.remove k)) T := by
    simp only [holdings, World.holdings, World.setQueue, setHoldings_add, Multiset.cons_add]
  rw [hadd, holdings_setQueue_erase hT]
  split
  · rename_i h
    exact Multiset.cons_erase h
  · rename_i h
    rw [Multiset.erase_of_notMem h]

theorem holdings_setRetry_add (hT : Threaded T) (k : JobKey) (n : Int) :
    holdings (w.setRetry (w.redis.jobRetryStream.add k n)) T =
      if (k, Stage.retryWait) ∈ holdings w T then holdings w T
      else (k, .retryWait) ::ₘ holdings w T := by
  have hadd : holdings (w.setRetry (w.redis.jobRetryStream.add k n)) T = (k, .retryWait) ::ₘ
      holdings (w.setRetry (w.redis.jobRetryStream.remove k)) T := by
    simp only [holdings, World.holdings, World.setRetry, setHoldings_add, Multiset.cons_add,
      Multiset.add_cons]
  rw [hadd, holdings_setRetry_erase hT]
  split
  · rename_i h
    exact Multiset.cons_erase h
  · rename_i h
    rw [Multiset.erase_of_notMem h]

end Queues

theorem stagesOf_erase (M : Multiset Holding) (k k' : JobKey) (s : Stage) :
    stagesOf (M.erase (k, s)) k' =
      if k = k' then (stagesOf M k').erase s else stagesOf M k' := by
  by_cases hmem : (k, s) ∈ M
  · obtain ⟨N, rfl⟩ := Multiset.exists_cons_of_mem hmem
    rw [Multiset.erase_cons_head]
    split
    · rename_i h
      subst h
      rw [stagesOf_cons_self, Multiset.erase_cons_head]
    · rename_i h
      rw [stagesOf_cons_of_ne h]
  · rw [Multiset.erase_of_notMem hmem]
    split
    · rename_i h
      subst h
      rw [Multiset.erase_of_notMem (fun h => hmem (mem_stagesOf.mp h))]
    · rfl

def Sqlite.jobIds (db : Sqlite) (id : WorkflowIdentity) : List String :=
  ((db.jobs.map JobRow.key).filter (fun k => decide (k.identity = id))).map JobKey.jobId

theorem Sqlite.map_getAllJobsForWorkflow (db : Sqlite) (id : WorkflowIdentity) :
    (db.getAllJobsForWorkflow id).map (fun r => r.key.jobId) = db.jobIds id := by
  simp only [getAllJobsForWorkflow, jobIds, List.filter_map, List.map_map]
  rfl

def Sqlite.recorded (db : Sqlite) (id : WorkflowIdentity) : Bool :=
  db.workflows.any (WorkflowRow.isOf id)

/-- One workflow seen alone. -/
def view (id : WorkflowIdentity) (w : World) (T : Multiset Token) : WorkflowView where
  space := w.redis.workflows id
  stages := fun j => stagesOf (holdings w T) ⟨id, j⟩
  rows := w.sqlite.jobIds id
  recorded := w.sqlite.recorded id
  active := decide (id.workflowId ∈ w.redis.activeWorkflows id.clientId)

section Rows

/-- Two databases with the same rows up to statuses and times. -/
def Sqlite.SameRows (db db' : Sqlite) : Prop :=
  db'.jobs.map JobRow.key = db.jobs.map JobRow.key ∧
    db'.workflows.map WorkflowRow.identity = db.workflows.map WorkflowRow.identity

theorem Sqlite.SameRows.refl (db : Sqlite) : db.SameRows db := ⟨rfl, rfl⟩

theorem Sqlite.SameRows.jobIds {db db' : Sqlite} (h : db.SameRows db') (id : WorkflowIdentity) :
    db'.jobIds id = db.jobIds id := by
  rw [Sqlite.jobIds, Sqlite.jobIds, h.1]

theorem Sqlite.recorded_eq (db : Sqlite) (id : WorkflowIdentity) :
    db.recorded id = decide (id ∈ db.workflows.map WorkflowRow.identity) := by
  rw [Bool.eq_iff_iff, decide_eq_true_iff]
  simp only [recorded, List.any_eq_true, WorkflowRow.isOf, decide_eq_true_eq, List.mem_map]

theorem Sqlite.SameRows.recorded {db db' : Sqlite} (h : db.SameRows db') (id : WorkflowIdentity) :
    db'.recorded id = db.recorded id := by
  rw [Sqlite.recorded_eq, Sqlite.recorded_eq, h.2]

theorem map_foldl_updateWhere {α β γ : Type} (key : α → β) {selected : γ → α → Bool}
    (change : α → α) (hchange : ∀ r, key (change r) = key r) (js : List γ) (rows : List α) :
    (js.foldl (fun rows j => updateWhere (selected j) change rows) rows).map key =
      rows.map key := by
  induction js generalizing rows with
  | nil => rfl
  | cons j rest ih => rw [List.foldl_cons, ih, map_updateWhere hchange]

theorem JobRow.transition_key {now : Int} {st : JobStatus} {change : JobRow → JobRow}
    (h : JobRow.transition now st = some change) (r : JobRow) : (change r).key = r.key := by
  cases st <;> simp only [JobRow.transition, Option.some.injEq, reduceCtorEq] at h <;> subst h <;> rfl

theorem WorkflowRow.transition_identity {now : Int} {st : WorkflowStatus}
    {change : WorkflowRow → WorkflowRow} (h : WorkflowRow.transition now st = some change)
    (r : WorkflowRow) : (change r).identity = r.identity := by
  cases st <;> simp only [WorkflowRow.transition, Option.some.injEq, reduceCtorEq] at h <;>
    subst h <;> rfl

theorem Sqlite.sameRows_updateJobStatus (db : Sqlite) (now : Int) (k : JobKey) (st : JobStatus) :
    db.SameRows (db.updateJobStatus now k st).2 := by
  rw [updateJobStatus]
  split
  · exact .refl db
  · rename_i change hchange
    split
    · exact ⟨map_updateWhere (JobRow.transition_key hchange) _, rfl⟩
    · exact .refl db

theorem Sqlite.sameRows_updateWorkflowStatus (db : Sqlite) (now : Int) (id : WorkflowIdentity)
    (st : WorkflowStatus) : db.SameRows (db.updateWorkflowStatus now id st).2 := by
  rw [updateWorkflowStatus]
  split
  · exact .refl db
  · rename_i change hchange
    split
    · exact ⟨rfl, map_updateWhere (WorkflowRow.transition_identity hchange) _⟩
    · exact .refl db

theorem Sqlite.sameRows_updateReadyJobs (db : Sqlite) (now : Int) (id : WorkflowIdentity)
    (queued ready : List String) : db.SameRows (db.updateReadyJobs now id queued ready).2 := by
  rw [updateReadyJobs]
  split
  · refine ⟨?_, rfl⟩
    dsimp only
    rw [map_foldl_updateWhere JobRow.key (markQueued now) (fun _ => rfl),
      map_foldl_updateWhere JobRow.key (markReady now) (fun _ => rfl)]
  · exact .refl db

end Rows

theorem view_sqlite (id : WorkflowIdentity) (w : World) {db : Sqlite} (h : w.sqlite.SameRows db)
    (T : Multiset Token) : view id { w with sqlite := db } T = view id w T := by
  simp only [view, h.jobIds id, h.recorded id]
  rfl

section Tokens

variable {w w' : World} {T T' : Multiset Token} {k : JobKey} {s s' : Stage} {M : Multiset Holding}

theorem stagesOf_other {id : WorkflowIdentity} (h : id ≠ k.identity) (s : Stage)
    (M : Multiset Holding) (j : String) : stagesOf ((k, s) ::ₘ M) ⟨id, j⟩ = stagesOf M ⟨id, j⟩ :=
  stagesOf_cons_of_ne (fun hk => h (by rw [hk])) s M

end Tokens

end FlowPilot
