import FlowPilot.ProtocolDuties

/-! The programs of the components follow the protocol of the duties, and with it that of the stages:
whatever the stores answer, each call is made by a program whose duty it is. -/

namespace FlowPilot

theorem reportPayloadFailure_duties (k : JobKey) :
    duties.Follows (Scheduler.reportPayloadFailure k) (.plain (.hold k .badPayload)) := by
  rintro (_ | _)
  · exact ⟨_, .plain (.enqueueFault (Scheduler.payloadFailure k) .badPayload) (.aborted _ _ rfl),
      .plain .idle⟩
  · exact ⟨_, .plain (.enqueue (Scheduler.payloadFailure k) .badPayload) (.aborted _ _ rfl),
      .plain .idle⟩

theorem scheduler_duties : duties.Follows Scheduler.mainLoop (.plain .idle) := by
  rintro (_ | k)
  · exact ⟨_, .plain .popNone (.passing _ rfl), .plain .idle⟩
  refine ⟨_, .plain (.pop k) (.passing _ rfl), ?_⟩
  rintro (_ | _ | _)
  · exact ⟨_, .plain (.typeFault k) (.passing _ rfl), .plain .idle⟩
  · exact ⟨_, .plain (.typeNone k) (.passing _ rfl), .plain .idle⟩
  refine ⟨_, .plain (.typeHash k) (.passing _ rfl), ?_⟩
  rintro (_ | _ | _)
  · exact ⟨_, .plain (.claimFault k) (.passing _ rfl), .plain .idle⟩
  · exact ⟨_, .plain (.claimRefused k) (.passing _ rfl), .plain .idle⟩
  refine ⟨_, .plain (.claim k) (.passing _ rfl), ?_⟩
  rintro ⟨_ | _, d⟩
  · exact ⟨_, .plain (.fetchFault k d) (.fetch k), .plain .idle⟩
  refine ⟨_, .plain (.fetch k d) (.fetch k), ?_⟩
  change duties.FollowsTo _ (ite (d.payloadSizeBytes.toNat > 0) _ _) _
  split
  · rename_i hsize
    intro payload
    refine ⟨_, .plain (.payload k _ hsize payload) (.passing _ rfl), ?_⟩
    cases payload with
    | none => exact reportPayloadFailure_duties k
    | some bytes =>
        change duties.FollowsTo _ (ite (bytes.length = d.payloadSizeBytes.toNat) _ _) _
        by_cases hlength : bytes.length = d.payloadSizeBytes.toNat
        · rw [if_pos hlength]
          simp only [Stage.ofPayload, Option.any_some, beq_iff_eq, hlength, if_true]
          exact fun _ => ⟨_, .plain (.push ⟨k.identity, k.jobId, bytes⟩ .verified) (.passing _ rfl),
            .plain .idle⟩
        · rw [if_neg hlength]
          simp only [Stage.ofPayload, Option.any_some, beq_iff_eq, hlength, if_false]
          exact reportPayloadFailure_duties k
  · rename_i hsize
    have hzero : d.payloadSizeBytes.toNat = 0 := by omega
    rw [hzero]
    exact fun _ => ⟨_, .plain (.push ⟨k.identity, k.jobId, []⟩ .empty) (.passing _ rfl),
      .plain .idle⟩

section Worker

theorem reportAborted_duties (e : JobCompletionData) (he : e.status = .aborted) {s : Stage}
    (hs : Reports s .aborted) :
    duties.Follows (WorkerThread.updateCompletionHandler e) (.plain (.hold e.key s)) := by
  have hreports : Reports s e.status := he.symm ▸ hs
  rintro (_ | _)
  · exact ⟨_, .plain (.enqueueFault e hreports) (.aborted _ e he), .plain .idle⟩
  · exact ⟨_, .plain (.enqueue e hreports) (.aborted _ e he), .plain .idle⟩

theorem reportExecuted_duties (e : JobCompletionData) (b : Bool)
    (he : e.status = if b then .completed else .failed) :
    duties.Follows (WorkerThread.updateCompletionHandler e) (.executed e.key b) :=
  fun r => ⟨_, .report e b he r, .plain .idle⟩

theorem updateJobStatusToRunning_duties (k : JobKey) :
    duties.FollowsTo
      (fun b q => if b then q = .plain (.hold k .started)
        else ∃ s, q = .plain (.hold k s) ∧ Reports s .aborted)
      (WorkerThread.updateJobStatusToRunning k) (.plain (.hold k .dispatched)) := by
  have hjob : duties.FollowsTo
      (fun b q => if b then q = .plain (.hold k .started)
        else ∃ s, q = .plain (.hold k s) ∧ Reports s .aborted)
      (ask (.updateJobStatus k .running)) (.plain (.hold k .started)) := by
    rintro (_ | _)
    · exact ⟨_, .plain (.startJob k false) (.startJob k), _, rfl, .startFailed⟩
    · exact ⟨_, .plain (.startJob k true) (.startJob k), rfl⟩
  intro r
  refine ⟨_, .plain (.start k r) (.passing _ rfl), ?_⟩
  cases r with
  | firstToStart =>
      rintro (_ | _)
      · exact ⟨_, .plain (.startWorkflow k false) (.startWorkflow k), _, rfl, .startFailed⟩
      · exact ⟨_, .plain (.startWorkflow k true) (.startWorkflow k), hjob⟩
  | started => exact hjob
  | internalError => exact ⟨_, rfl, .unstarted⟩
  | _ => exact ⟨_, rfl, .stopped⟩

theorem worker_duties : duties.Follows WorkerThread.runWorkerLoop (.plain .idle) := by
  rintro (_ | job)
  · exact ⟨_, .plain .popLocalNone (.passing _ rfl), .plain .idle⟩
  refine ⟨_, .plain (.popLocal job) (.passing _ rfl), ?_⟩
  change duties.FollowsTo _ (WorkerThread.updateJobStatusToRunning job.key >>= _) _
  refine Protocol.FollowsTo.bind (updateJobStatusToRunning_duties job.key) ?_
  rintro (_ | _) q hq
  · obtain ⟨s, rfl, hs⟩ := hq
    exact reportAborted_duties ⟨job.identity, job.jobId, .aborted, _⟩ rfl hs
  · obtain rfl : q = .plain (.hold job.key .started) := hq
    rintro (_ | _)
    · exact ⟨_, .execute job false,
        reportExecuted_duties ⟨job.identity, job.jobId, .failed, _⟩ false rfl⟩
    · exact ⟨_, .execute job true,
        reportExecuted_duties ⟨job.identity, job.jobId, .completed, _⟩ true rfl⟩

end Worker

section Repairs

/-- A SQLite call about the workflow. -/
def SqliteAbout (id : WorkflowIdentity) (c : Call) : Prop :=
  c.isSqlite = true ∧ c.about = some id

theorem repairJobs_onlyCalls (id : WorkflowIdentity) (skip : Option String) (rows : List JobRow) :
    (CompletionHandler.repairJobs id skip rows).OnlyCalls (SqliteAbout id) := by
  induction rows with
  | nil => trivial
  | cons row rest ih =>
      rw [CompletionHandler.repairJobs]
      split
      · exact ih
      · split
        · exact ih
        · exact ⟨⟨rfl, rfl⟩, fun _ => ih.bind (fun _ => trivial)⟩

theorem persistAfterRuntimeFailure_onlyCalls (k : JobKey) (st : JobStatus) :
    (CompletionHandler.persistFailedWorkflowAfterRuntimeFailure k st).OnlyCalls
      (SqliteAbout k.identity) :=
  ⟨⟨rfl, rfl⟩, fun _ => ⟨⟨rfl, rfl⟩, fun _ =>
    (repairJobs_onlyCalls _ _ _).bind (fun _ => ⟨⟨rfl, rfl⟩, fun _ => trivial⟩)⟩⟩

theorem persistAfterMissingRuntime_onlyCalls (id : WorkflowIdentity) :
    (CompletionHandler.persistFailedWorkflowAfterMissingRuntime id).OnlyCalls (SqliteAbout id) :=
  ⟨⟨rfl, rfl⟩, fun _ =>
    (repairJobs_onlyCalls _ _ _).bind (fun _ => ⟨⟨rfl, rfl⟩, fun _ => trivial⟩)⟩

theorem repairMissingRuntime_onlyCalls (id : WorkflowIdentity) :
    (CompletionHandler.repairMissingRuntime id).OnlyCalls (SqliteAbout id) := by
  refine ⟨⟨rfl, rfl⟩, ?_⟩
  rintro (_ | rows)
  · trivial
  · change Prog.OnlyCalls _ (ite _ _ _)
    split
    · trivial
    · exact (persistAfterMissingRuntime_onlyCalls id).bind (fun _ => trivial)

theorem repair_duties {id : WorkflowIdentity} {p : Task Bool} (hp : p.OnlyCalls (SqliteAbout id)) :
    duties.FollowsTo (fun _ q => q.Final) p (.repair id) :=
  (Protocol.FollowsTo.of_onlyCalls hp (fun c hc r => Duty.Moves.repairs id c hc.1 hc.2 r)).mono
    (fun _ _ hq => hq ▸ .repair id)

end Repairs

section Cleanup

open CompletionHandler

/-- A deletion of a key of the workflow. -/
def DeletionAbout (id : WorkflowIdentity) (c : Call) : Prop :=
  c.isDeletion = true ∧ c.about = some id

theorem Duty.clean_append (t : Token) (l : List Call) (c : Call) (rest : List Call) :
    Duty.clean t (l ++ c :: rest) = .cleaning t (l ++ c :: rest) := by
  cases l <;> rfl

variable {id : WorkflowIdentity} {t t' : Token}

theorem Duty.Moves.cleans {c : Call} (hc : c.isCleanup = true) {r : c.Reply} (h : Move c r t t')
    (l : List Call) (last : Call) (rest : List Call) :
    Duty.Moves c r (.cleaning t (c :: (l ++ last :: rest))) (.cleaning t' (l ++ last :: rest)) := by
  rw [← Duty.clean_append t']
  exact .clean hc h _

theorem deleteAllJobsPayload_duties (hdelete : ∀ c, DeletionAbout id c → ∀ r, Move c r t t)
    (jobIds : List String) (c : Call) (rest : List Call) :
    duties.FollowsTo (fun _ q => q = .cleaning t (c :: rest))
      (RedisDatabase.deleteAllJobsPayload id jobIds)
      (.cleaning t (jobIds.map (fun j => .deleteJobPayload ⟨id, j⟩) ++ c :: rest)) := by
  induction jobIds with
  | nil => rfl
  | cons j jobIds ih => exact fun r => ⟨_, .cleans rfl (hdelete _ ⟨rfl, rfl⟩ r) _ c rest, ih⟩

theorem deleteAllWorkflowJobs_duties (hdelete : ∀ c, DeletionAbout id c → ∀ r, Move c r t t)
    (jobIds : List String) (c : Call) (rest : List Call) :
    duties.FollowsTo (fun _ q => q = .cleaning t (c :: rest))
      (RedisDatabase.deleteAllWorkflowJobs id jobIds)
      (.cleaning t (jobIds.flatMap (fun j => [.deleteJob ⟨id, j⟩, .removeFromRetryStream ⟨id, j⟩,
        .deleteSuccessors ⟨id, j⟩]) ++ c :: rest)) := by
  induction jobIds with
  | nil => rfl
  | cons j jobIds ih =>
      have hstep : ∀ (c' : Call), DeletionAbout id c' → c'.isCleanup = true → ∀ r l,
          Duty.Moves c' r (.cleaning t (c' :: (l ++ c :: rest))) (.cleaning t (l ++ c :: rest)) :=
        fun c' hc' hclean r l => .cleans hclean (hdelete c' hc' r) l c rest
      exact fun r => ⟨_, hstep _ ⟨rfl, rfl⟩ rfl r (_ :: _ :: _), fun r => ⟨_,
        hstep _ ⟨rfl, rfl⟩ rfl r (_ :: _), fun r => ⟨_, hstep _ ⟨rfl, rfl⟩ rfl r _, ih⟩⟩⟩

theorem deletions_duties (hdelete : ∀ c, DeletionAbout id c → ∀ r, Move c r t t)
    (jobIds : List String) {post : Bool → Duty → Prop} (hlast : duties.FollowsTo post (do
      let deleted ← (ask (.deleteWorkflow id) : Task Bool)
      let cleared ← (ask (.deleteWaitingReady id) : Task Bool)
      pure (deleted && cleared)) (.cleaning t [.deleteWorkflow id, .deleteWaitingReady id])) :
    duties.FollowsTo post (do
      RedisDatabase.deleteAllJobsPayload id jobIds
      RedisDatabase.deleteWorkflowRuntimeData id jobIds) (.clean t (cleanupCalls id jobIds).tail) := by
  have hstart : Duty.clean t (cleanupCalls id jobIds).tail = .cleaning t
      (jobIds.map (fun j => .deleteJobPayload ⟨id, j⟩) ++ (jobIds.flatMap (fun j =>
        [.deleteJob ⟨id, j⟩, .removeFromRetryStream ⟨id, j⟩, .deleteSuccessors ⟨id, j⟩]) ++
          [.deleteWorkflow id, .deleteWaitingReady id])) := by
    rw [cleanupCalls, List.tail_cons, ← List.append_assoc, Duty.clean_append]
  rw [hstart]
  cases jobIds with
  | nil => exact hlast
  | cons j jobIds =>
      refine Protocol.FollowsTo.bind (deleteAllJobsPayload_duties hdelete (j :: jobIds) _ _) ?_
      rintro _ _ rfl
      refine Protocol.FollowsTo.bind (deleteAllWorkflowJobs_duties hdelete (j :: jobIds) _ _) ?_
      rintro _ _ rfl
      exact hlast

/-- The duties with which `handle_job_completed` reports failure. -/
def Uncounted (k : JobKey) (q : Duty) : Prop :=
  q = .plain (.hold k (.reported .failed)) ∨ ∃ x, q = .plain (.hold k (.broken x))

theorem uncounted_broken (k : JobKey) (x : Closing) : Uncounted k (.plain (.hold k (.broken x))) :=
  Or.inr ⟨x, rfl⟩

/-- The cleanup after the last success: the handler is done with it, or the event is broken. -/
theorem cleanup_duties_counted (k : JobKey) (l : List String) :
    duties.FollowsTo (fun b q => if b then q.Final else Uncounted k q)
      (cleanupCompletedWorkflowRedisEntries k.identity) (.plain (.hold k (.counted .due l))) := by
  rintro (_ | rows)
  · exact ⟨_, .listFault k l, uncounted_broken k _⟩
  refine ⟨_, .list k l rows, ?_⟩
  rintro (_ | _)
  · exact ⟨_, .unreleased _ (.countedRelease k l false) _, uncounted_broken k _⟩
  refine ⟨_, .clean rfl (.countedRelease k l true) _, ?_⟩
  refine deletions_duties (fun c hc r => .countedDelete k l c hc.1 hc.2 r) _ ?_
  rintro (_ | _)
  · exact ⟨_, .clean rfl (.countedDeleteWorkflow k l false) _, fun b =>
      ⟨_, .clean rfl (.brokenDeleteWaiting k b) _, uncounted_broken k _⟩⟩
  · refine ⟨_, .clean rfl (.countedDeleteWorkflow k l true) _, ?_⟩
    rintro (_ | _)
    · exact ⟨_, .clean rfl (.countedDeleteWaiting k l false) _, uncounted_broken k _⟩
    · exact ⟨_, .clean rfl (.countedDeleteWaiting k l true) _, .plain (.countedDeleted k l)⟩

/-- The cleanup after the last failure ends the handler's work, whatever the answers. -/
theorem cleanup_duties_failed (k : JobKey) (st : JobStatus) {r : Redis.FailedJob}
    (hr : r.workflowCompleted = true) :
    duties.FollowsTo (fun _ q => q.Final)
      (cleanupCompletedWorkflowRedisEntries k.identity) (.failed k st r) := by
  rintro (_ | rows)
  · exact ⟨_, .unlistedFailed k st hr, .plain .idle⟩
  refine ⟨_, .listFailed k st hr rows, ?_⟩
  rintro (_ | _)
  · exact ⟨_, .unreleased _ (.failedReleaseFault k) _, .plain .idle⟩
  refine ⟨_, .clean rfl (.failedRelease k) _, ?_⟩
  refine deletions_duties (fun c hc r => .failedDelete k c hc.1 hc.2 r) _ ?_
  exact fun b => ⟨_, .clean rfl (.failedDeleteWorkflow k b) _, fun b =>
    ⟨_, .clean rfl (.failedDeleteWaiting k b) _, .plain (.failedReleased k)⟩⟩

end Cleanup

section Handlers

open CompletionHandler

variable {k : JobKey} {st : JobStatus}

/-- A step of the chain after the success script keeps the event counted or breaks it. -/
theorem andThen_counted (x : Closing) (l : List String) {p q : Task Bool} {d : Duty}
    (hp : duties.FollowsTo (fun b q => if b then q = .plain (.hold k (.counted x l))
      else Uncounted k q) p d)
    (hq : duties.FollowsTo (fun b q => if b then q.Final else Uncounted k q) q
      (.plain (.hold k (.counted x l)))) :
    duties.FollowsTo (fun b q => if b then q.Final else Uncounted k q) (p.andThen q) d :=
  .andThen hp (fun _ hd => hd ▸ hq) (fun _ hd => hd)

theorem persistJobCompleted_duties (k : JobKey) (r : Redis.CompletedJob) :
    duties.FollowsTo (fun b q => if b then q.Final else Uncounted k q) (persistJobCompleted k r)
      (.recording k (.ofCompleted r.workflowCompleted) (r.promoted.toList ++ r.readyJobIds)) := by
  obtain ⟨completed, promoted, ready⟩ := r
  have hchain := fun {p q : Task Bool} {d : Duty} => andThen_counted (k := k) (p := p) (q := q)
    (d := d) (.ofCompleted completed) (promoted.toList ++ ready)
  refine hchain ?_ (hchain ?_ (hchain ?_ ?_))
  · rintro (_ | _)
    · exact ⟨_, .record k _ _ false, uncounted_broken k _⟩
    · exact ⟨_, .record k _ _ true, rfl⟩
  · cases completed with
    | false => rfl
    | true =>
        rintro (_ | _)
        · exact ⟨_, .plain (.countedWorkflow k _ _ false) (.countedWorkflow k _),
            uncounted_broken k _⟩
        · exact ⟨_, .plain (.countedWorkflow k _ _ true) (.countedWorkflow k _), rfl⟩
  · cases promoted.isSome || !ready.isEmpty with
    | false => rfl
    | true =>
        rintro (_ | _)
        · exact ⟨_, .plain (.countedReady k _ _ _ false) (.countedReady k _ _ _ _),
            uncounted_broken k _⟩
        · exact ⟨_, .plain (.countedReady k _ _ _ true) (.countedReady k _ _ _ _), rfl⟩
  · cases completed with
    | false => exact .plain (.counted k _)
    | true => exact cleanup_duties_counted k _

theorem handleJobCompleted_duties (k : JobKey) :
    duties.FollowsTo (fun b q => if b then q.Final else Uncounted k q)
      (handleJobCompleted k) (.plain (.hold k (.reported .completed))) := by
  rintro (_ | r)
  · exact ⟨_, .refused k, Or.inl rfl⟩
  · exact ⟨_, .success k r, persistJobCompleted_duties k r⟩

theorem followsTo_stuck {α : Type} (p : Task α) :
    duties.FollowsTo (fun _ q => q = .plain .stuck) p (.plain .stuck) := by
  induction p with
  | done a => rfl
  | call c k ih => exact fun r => ⟨_, .plain (.stuck c r) (.stuck c), ih r⟩

theorem followsTo_onlyIf {q : Duty} {p : Task Bool} (b : Bool)
    (hp : b = true → duties.FollowsTo (fun _ q' => q' = q) p q) :
    duties.FollowsTo (fun _ q' => q' = q) (.onlyIf b p) q := by
  cases b with
  | false => rfl
  | true => exact hp rfl

theorem updateCanceled_duties (k : JobKey) (st : JobStatus) (r : Redis.FailedJob)
    (canceled : List String) (hcanceled : ∀ j ∈ canceled, j ∈ r.canceledJobIds) :
    duties.FollowsTo (fun _ q => q = .failed k st r) (updateCanceled k.identity canceled)
      (.failed k st r) := by
  induction canceled with
  | nil => rfl
  | cons j rest ih =>
      intro b
      refine ⟨_, .recordCanceled k st r (hcanceled j List.mem_cons_self) b, ?_⟩
      change duties.FollowsTo _ (updateCanceled k.identity rest >>= _) _
      exact .bind (ih (fun i hi => hcanceled i (List.mem_cons_of_mem j hi))) (fun _ _ hq => hq)

theorem persistJobFailed_duties (k : JobKey) (st : JobStatus) (r : Redis.FailedJob) :
    duties.FollowsTo (fun _ q => q.Final) (persistJobFailed k st r) (.failed k st r) := by
  refine .bind (followsTo_onlyIf _ (fun hst b => ?_)) ?_
  · obtain rfl := eq_of_beq hst
    exact ⟨_, .mark k r b, rfl⟩
  rintro _ _ rfl
  refine .bind (fun b => ⟨_, .recordFailed k st r b, rfl⟩ : duties.FollowsTo
    (fun _ q => q = .failed k st r) (ask (.updateJobStatus k st)) _) ?_
  rintro _ _ rfl
  refine .bind (updateCanceled_duties k st r _ (fun _ => id)) ?_
  rintro _ _ rfl
  refine .bind (followsTo_onlyIf _ (fun hr b => ⟨_, .recordWorkflow k st r hr b, rfl⟩)) ?_
  rintro _ _ rfl
  cases hr : r.workflowCompleted with
  | false => exact .failed k st hr
  | true => exact .bind (cleanup_duties_failed k st hr) (fun _ _ hq => hq)

theorem failJob_duties {s : Stage} (d : Bool × JobRuntimeData)
    (hs : (∃ st', st' ≠ .completed ∧ s = .reported st' ∧ st = st'.recordedFailure) ∨
      (∃ x, s = .broken x ∧ st = .failed)) (n : Int) :
    duties.FollowsTo (fun _ q => q.Final) (failJob k st n) (.judging k s d) := by
  obtain ⟨st', hst, rfl, rfl⟩ | ⟨x, rfl, rfl⟩ := hs
  · rintro (_ | rows)
    · exact ⟨_, .unlisted k (.reported hst) d,
        repair_duties (persistAfterRuntimeFailure_onlyCalls k _)⟩
    refine ⟨_, .listing k st' d rows, ?_⟩
    rintro (_ | r)
    · exact ⟨_, .unfailed k st' _ n, repair_duties (persistAfterRuntimeFailure_onlyCalls k _)⟩
    · exact ⟨_, .fail k st' _ n r, persistJobFailed_duties k _ r⟩
  · rintro (_ | rows)
    · exact ⟨_, .unlisted k (.broken x) d,
        repair_duties (persistAfterRuntimeFailure_onlyCalls k _)⟩
    refine ⟨_, .listingBroken k x d rows, ?_⟩
    rintro (_ | r)
    · exact ⟨_, .unfailedBroken k x _ n, repair_duties (persistAfterRuntimeFailure_onlyCalls k _)⟩
    · exact ⟨_, .failBroken k x _ n r, persistJobFailed_duties k _ r⟩

theorem handleJobRetry_duties (hst : st ≠ .aborted)
    {d : Bool × JobRuntimeData} {n : Int} (hn : n = d.2.currentRetryCount + 1)
    (hmax : n ≤ d.2.maxRetries) (delay : Int) :
    duties.FollowsTo (fun _ q => q.Final) (handleJobRetry k n delay)
      (.judging k (.reported st) d) := by
  refine fun clock => ⟨_, .clock k st d clock, ?_⟩
  rintro (_ | promoted)
  · exact ⟨_, .retry k hst hn hmax _ none, .plain .idle⟩
  refine ⟨_, .retry k hst hn hmax _ (some promoted), ?_⟩
  have hdelayed : ∀ b, Duty.Moves (.updateJobStatus k .retryDelay) b (.plain .idle) (.plain .idle) :=
    fun b => .plain (.sqlite (.updateJobStatus k .retryDelay) rfl b) (.delayed k)
  rintro (_ | _)
  · exact ⟨_, hdelayed false, .plain .idle⟩
  refine ⟨_, hdelayed true, ?_⟩
  cases promoted with
  | none => exact .plain .idle
  | some j => exact fun b => ⟨_, .plain (.sqlite _ rfl b) (.advanced _ _ _), .plain .idle⟩

/-- A handler that read its job's record goes on to fail the job, or, when it may, to retry it. -/
theorem handleJobFailed_duties {s : Stage} {d : Bool × JobRuntimeData}
    {status : JobStatus} {runtime : JobRuntimeData} (workflow : WorkflowHash)
    (hs : (∃ st, st ≠ .completed ∧ s = .reported st ∧
        status.recordedFailure = st.recordedFailure) ∨
      (∃ x, s = .broken x ∧ status.recordedFailure = .failed))
    (hretry : status = .failed → runtime.currentRetryCount < runtime.maxRetries →
      runtime = d.2 ∧ ∃ st, st ≠ .aborted ∧ s = .reported st) :
    duties.FollowsTo (fun _ q => q.Final) (handleJobFailed k status runtime workflow)
      (.judging k s d) := by
  rw [handleJobFailed]
  split
  · rename_i h
    obtain ⟨rfl, st, hst, rfl⟩ := hretry h.1 (by omega)
    refine fun clock => ⟨_, .clock k st d clock, ?_⟩
    change duties.FollowsTo _ (ite _ _ _) _
    split
    · exact failJob_duties d hs _
    · exact handleJobRetry_duties hst rfl h.2.2 _
  · exact failJob_duties d hs _

theorem processUncompleted_duties_reported {status : JobStatus}
    (hst : st ≠ .completed) (hstatus : status.recordedFailure = st.recordedFailure)
    (code : StatusCode) (workflow : WorkflowHash) :
    duties.FollowsTo (fun _ q => q.Final) (processUncompleted k status code workflow)
      (.plain (.hold k (.reported st))) := by
  have hnot : status = .failed → st ≠ .aborted := by
    rintro rfl rfl
    cases hstatus
  intro r
  refine ⟨_, .judge k (.reported hst) r, ?_⟩
  rw [Duty.afterRuntime]
  split
  · exact (followsTo_stuck _).mono (fun _ _ hq => hq ▸ .plain .stuck)
  · change duties.FollowsTo _ (ite _ _ _) _
    split
    · exact handleJobFailed_duties _ (Or.inl ⟨st, hst, rfl, hstatus⟩)
        (fun _ hlt => absurd hlt (lt_irrefl _))
    · exact handleJobFailed_duties _ (Or.inl ⟨st, hst, rfl, hstatus⟩)
        (fun hfailed _ => ⟨rfl, st, hnot hfailed, rfl⟩)

/-- After a broken success the retry count is at its limit, so the job is not retried. -/
theorem processUncompleted_duties_broken (k : JobKey) (x : Closing) (workflow : WorkflowHash) :
    duties.FollowsTo (fun _ q => q.Final)
      (processUncompleted k .failed .internalDbFailure workflow) (.plain (.hold k (.broken x))) := by
  intro r
  refine ⟨_, .judge k (.broken x) r, ?_⟩
  rw [Duty.afterRuntime]
  split
  · exact (followsTo_stuck _).mono (fun _ _ hq => hq ▸ .plain .stuck)
  · rename_i htorn
    change duties.FollowsTo _ (ite _ _ _) _
    split
    · exact handleJobFailed_duties _ (Or.inr ⟨x, rfl, rfl⟩)
        (fun _ hlt => absurd hlt (lt_irrefl _))
    · rename_i hfetched
      refine handleJobFailed_duties _ (Or.inr ⟨x, rfl, rfl⟩) (fun _ hlt => absurd ⟨?_, hlt⟩ htorn)
      simpa using hfetched

theorem processCompletedJobs_duties (e : JobCompletionData) :
    duties.FollowsTo (fun _ q => q.Final) (processCompletedJobs e)
      (.plain (.hold e.key (.reported e.status))) := by
  rintro (_ | workflow)
  · exact ⟨_, .missing e.key e.status, repair_duties (repairMissingRuntime_onlyCalls e.identity)⟩
  refine ⟨_, .plain (.workflow e.key e.status workflow) (.passing _ rfl), ?_⟩
  obtain ⟨id, j, status, code⟩ := e
  cases status with
  | completed =>
      change duties.FollowsTo _ (handleJobCompleted ⟨id, j⟩ >>= _) _
      refine .bind (handleJobCompleted_duties ⟨id, j⟩) ?_
      rintro (_ | _) q hq
      · obtain rfl | ⟨x, rfl⟩ := hq
        · exact processUncompleted_duties_reported (by simp) (by rfl) _ _
        · exact processUncompleted_duties_broken _ x _
      · exact hq
  | failed => exact processUncompleted_duties_reported (by simp) (by rfl) _ _
  | aborted => exact processUncompleted_duties_reported (by simp) (by rfl) _ _
  | _ => exact processUncompleted_duties_reported (by simp) (by rfl) _ _

theorem completionHandler_duties : duties.Follows CompletionHandler.mainLoop (.plain .idle) := by
  rintro (_ | e)
  · exact ⟨_, .plain .dequeueNone (.passing _ rfl), .plain .idle⟩
  · refine ⟨_, .plain (.dequeue e) (.passing _ rfl), ?_⟩
    change duties.FollowsTo _ (processCompletedJobs e >>= _) _
    exact .bind (processCompletedJobs_duties e) (fun _ _ hq => hq)

theorem retryHandler_duties : duties.Follows RetryHandler.mainLoop (.plain .idle) := by
  rintro (_ | k)
  · exact ⟨_, .plain .dueNone (.passing _ rfl), .plain .idle⟩
  refine ⟨_, .plain (.due k) (.passing _ rfl), ?_⟩
  rintro (_ | p)
  · exact ⟨_, .plain (.promoteFault k) (.passing _ rfl), .plain .idle⟩
  · exact ⟨_, .plain (.promote k p) (.passing _ rfl), fun b =>
      ⟨_, .plain (.sqlite _ rfl b) (.advanced _ _ _), .plain .idle⟩⟩

end Handlers

end FlowPilot
