import FlowPilot.ExecutionAccounts
import FlowPilot.ExecutionDraining

/-! The outcomes that SQLite records of jobs and workflows, in executions in which every command
succeeds. A final status of a job is written only once the job is counted, and a final status of the
workflow only once Redis has it; what may overwrite them are the writes that lag behind. -/

namespace FlowPilot

/-- The rows of the workflow after the call of an event was served. -/
def ledgerAfter (ev : Event Call World Env) (id : WorkflowIdentity) : Ledger :=
  (ev.call.exec ev.env ev.world).2.sqlite.ledger id

section Duties

variable {ev : Event Call World Env} {id : WorkflowIdentity} {a a' : Account} {k : JobKey}
  {st : JobStatus} {r : Redis.FailedJob}

theorem Turns.ledger (h : Turns ev id a a') : a.ledger = ev.world.sqlite.ledger id := by
  obtain ⟨q, q', D, -, -, rfl, -⟩ := h
  rfl

theorem Turns.ledger_after (h : Turns ev id a a') : a'.ledger = ledgerAfter ev id := by
  obtain ⟨q, q', D, -, -, -, rfl⟩ := h
  rfl

theorem Turns.failed (h : Turns ev id a a') (hok : ev.env.ok = true)
    (hq : .failed k st r ∈ a'.duties) : .failed k st r ∈ a.duties ∨
      (st.isTerminal = true ∧ k.identity = id ∧ ∃ n jobIds,
        ev.call = .completeFailedJob k n jobIds ∧
          r = (ev.world.redis.completeFailedJob k n jobIds).1) := by
  obtain ⟨w, c, e⟩ := ev
  obtain ⟨q, q', D, -, hmove, rfl, rfl⟩ := h
  obtain ⟨hmem, habout⟩ := Multiset.mem_filter.mp hq
  have hk : k.identity = id := Option.some.inj habout
  rcases Multiset.mem_cons.mp hmem with hself | hother
  swap
  · exact .inl (account_duty (Multiset.mem_cons_of_mem hother) habout)
  have hsame : q = .failed k st r → .failed k st r ∈ (account id w (q ::ₘ D)).duties := fun hq => by
    rw [hq]
    exact account_duty (Multiset.mem_cons_self ..) habout
  have hexec : ∀ k n jobIds, ((Call.completeFailedJob k n jobIds).exec e w).1 =
      some (w.redis.completeFailedJob k n jobIds).1 := fun k n jobIds => by
    rw [Call.exec, if_pos (Bool.or_eq_true_iff.mpr (.inl hok))]
    rfl
  change Duty.Moves c (c.exec e w).1 q q' at hmove
  generalize hr : (c.exec e w).1 = reply at hmove
  cases hmove with
  | fail k' st' jobIds n r' =>
      cases hself
      refine .inr ⟨?_, hk, n, jobIds, rfl, Option.some.inj (hr.symm.trans (hexec k n jobIds))⟩
      rw [JobStatus.recordedFailure]
      split <;> rfl
  | failBroken k' x jobIds n r' =>
      cases hself
      exact .inr ⟨rfl, hk, n, jobIds, rfl, Option.some.inj (hr.symm.trans (hexec k n jobIds))⟩
  | mark | recordFailed | recordCanceled | recordWorkflow => exact .inl (hsame hself.symm)
  | judge k' hs d =>
      rw [Duty.afterRuntime] at hself
      split at hself <;> cases hself
  | clean hc hmove calls => cases calls <;> cases hself
  | _ => cases hself

theorem Turns.repair {p : Plan} {L : List String} (h : Turns ev id a a') (hok : ev.env.ok = true)
    (htidy : Tidy p L a.view) (hq : .repair id ∈ a'.duties) : .repair id ∈ a.duties := by
  obtain ⟨w, c, e⟩ := ev
  obtain ⟨q, q', D, -, hmove, rfl, rfl⟩ := h
  obtain ⟨hmem, habout⟩ := Multiset.mem_filter.mp hq
  rcases Multiset.mem_cons.mp hmem with hself | hother
  swap
  · exact account_duty (Multiset.mem_cons_of_mem hother) habout
  have hexec : ∀ c : Call, c.exec e w = c.carryOut e w := fun c => by
    rw [Call.exec, if_pos (Bool.or_eq_true_iff.mpr (.inl hok))]
  change Duty.Moves c (c.exec e w).1 q q' at hmove
  rw [hexec] at hmove
  generalize hr : (c.carryOut e w).1 = reply at hmove
  cases hmove with
  | repairs id' =>
      cases hself
      exact account_duty (Multiset.mem_cons_self ..) rfl
  | missing k st =>
      cases hself
      -- the handler of an event that is not counted finds the hash of the workflow
      have hs := account_stage (w := w)
        (Multiset.mem_cons_self (Duty.plain (.hold k (.reported st))) D) rfl rfl
      obtain ⟨rest, hcons⟩ := Multiset.exists_cons_of_mem hs
      exact absurd hr (htidy.busy hcons (fun _ => rfl)).2.2.2.1.hash
  | unlisted k hs d => cases hr
  | unfailed | unfailedBroken => cases hr
  | judge k hs d =>
      rw [Duty.afterRuntime] at hself
      split at hself <;> cases hself
  | clean hc hmove calls => cases calls <;> cases hself
  | _ => cases hself

end Duties

def isFinal (st : Option JobStatus) : Bool := st.any JobStatus.isTerminal

/-- What holds of the rows of jobs: only a job that was counted has a final status, and only such a
job is to be recorded as failed or canceled. -/
structure Recorded (p : Plan) (L : List String) (id : WorkflowIdentity) (a : Account) : Prop where
  final : ∀ j ∈ p.ids, isFinal (a.ledger.job j) = true → j ∈ L
  failed : ∀ k st r, .failed k st r ∈ a.duties →
    st.isTerminal = true ∧ k.jobId ∈ L ∧ ∀ j ∈ r.canceledJobIds, j ∈ L
  unrepaired : .repair id ∉ a.duties

section Jobs

variable {p : Plan} {L : List String} {ev : Event Call World Env} {id : WorkflowIdentity}
  {a a' : Account} {j : String}

theorem Begun.recorded (h : Begun p a) : Recorded p [] id a where
  final := fun j hj hfinal => by
    obtain ⟨st, hst, hopen⟩ := h.jobs j hj
    rw [hst] at hfinal
    cases hopen.symm.trans hfinal
  failed := fun k st r hq => by
    rw [h.duties] at hq
    exact absurd hq (Multiset.notMem_zero _)
  unrepaired := h.duties ▸ Multiset.notMem_zero _

theorem Tidy.mem_of_recording {k : JobKey} {x : Closing} {l : List String} (h : Tidy p L a.view)
    (hturns : Turns ev id a a') (hq : .recording k x l ∈ a.duties) : k.jobId ∈ L := by
  obtain ⟨q, q', D, -, -, rfl, -⟩ := hturns
  obtain ⟨hmem, habout⟩ := Multiset.mem_filter.mp hq
  obtain ⟨rest, hcons⟩ := Multiset.exists_cons_of_mem
    (account_stage (w := ev.world) hmem rfl (Option.some.inj habout))
  exact (h.settled hcons rfl).2.1

theorem Tidy.not_mem_of_started (h : Tidy p L a.view) (hs : .started ∈ a.view.stages j) : j ∉ L := by
  obtain ⟨rest, hcons⟩ := Multiset.exists_cons_of_mem hs
  exact (h.busy hcons (fun _ => rfl)).2.2.1

theorem Tidy.all_of_mem (h : Tidy p L a.view) (hj : j ∈ L) :
    (a.view.jobStatus j).all JobStatus.isTerminal = true := by
  cases hst : a.view.jobStatus j with
  | none => rfl
  | some st => exact (h.orderly.left j hj).done hst

/-- The row of a job after a step: as before, or with the status that the step writes. -/
inductive RowStep (id : WorkflowIdentity) (L : List String) (a : Account) (c : Call) (j : String) :
    Option JobStatus → Prop where
  | same : RowStep id L a c j (a.ledger.job j)
  | start (hj : j ∉ L) : RowStep id L a c j (some .running)
  | delay (hc : c = .updateJobStatus ⟨id, j⟩ .retryDelay) : RowStep id L a c j (some .retryDelay)
  | advance {queued ready : List String} {st : JobStatus} (hc : c = .updateReadyJobs id queued ready)
      (hj : j ∈ queued ++ ready) (hst : st = .queued ∨ st = .ready) : RowStep id L a c j (some st)
  | final {st : JobStatus} (hst : st.isTerminal = true) (hj : j ∈ L) : RowStep id L a c j (some st)

/-- The only ways in which the row of a job changes. -/
theorem Recorded.rowStep (h : Recorded p L id a) (htidy : Tidy p L a.view)
    (hturns : Turns ev id a a') (j : String) : RowStep id L a ev.call j (a'.ledger.job j) := by
  have hsame : a'.ledger.job j = a.ledger.job j → RowStep id L a ev.call j (a'.ledger.job j) :=
    fun heq => heq ▸ .same
  have hupdate : ∀ {k st}, ev.call = .updateJobStatus k st →
      (k = ⟨id, j⟩ → k.jobId = j → RowStep id L a ev.call j (some st)) →
      RowStep id L a ev.call j (a'.ledger.job j) := fun {k st} hc hself => by
    have hrow := ledger_updateJobStatus id k st ev.env ev.world j
    rw [← hc, ← hturns.ledger, ← ledgerAfter, ← hturns.ledger_after] at hrow
    rcases hrow with heq | ⟨hk, heq⟩
    · exact hsame heq
    · rw [heq]
      exact hself hk (congrArg JobKey.jobId hk)
  have hworkflow : ∀ {st}, ev.call = .updateWorkflowStatus id st →
      RowStep id L a ev.call j (a'.ledger.job j) := fun {st} hc => by
    have hrow := (ledger_updateWorkflowStatus id st ev.env ev.world).1
    rw [← hc, ← hturns.ledger, ← ledgerAfter, ← hturns.ledger_after] at hrow
    exact hsame (congrFun hrow j)
  rcases hturns.writes with hspares | hwrites
  · have hledger := hspares.exec ev.env ev.world
    rw [← hturns.ledger, ← ledgerAfter, ← hturns.ledger_after] at hledger
    exact hsame (congrFun (congrArg Ledger.job hledger) j)
  · obtain ⟨c, hc⟩ : ∃ c, ev.call = c := ⟨_, rfl⟩
    rw [hc] at hwrites
    cases hwrites with
    | start hk hs => exact hupdate hc (fun _ hself => .start (hself ▸ htidy.not_mem_of_started hs))
    | startWorkflow hs => exact hworkflow hc
    | delay hk => exact hupdate hc (fun hself _ => .delay (hself ▸ hc))
    | advance queued ready =>
        have hrow := ledger_updateReadyJobs id queued ready ev.env ev.world j
        rw [← hc, ← hturns.ledger, ← ledgerAfter, ← hturns.ledger_after] at hrow
        rcases hrow with heq | ⟨hj, heq | heq⟩
        · exact hsame heq
        · rw [heq]
          exact .advance hc hj (.inl rfl)
        · rw [heq]
          exact .advance hc hj (.inr rfl)
    | complete hk hq =>
        exact hupdate hc (fun _ hself => .final rfl (hself ▸ htidy.mem_of_recording hturns hq))
    | completeWorkflow hs => exact hworkflow hc
    | fail hk hq =>
        obtain ⟨hst, hj, -⟩ := h.failed _ _ _ hq
        exact hupdate hc (fun _ hself => .final hst (hself ▸ hj))
    | cancel hk hq hj =>
        have hcounted := (h.failed _ _ _ hq).2.2 _ hj
        exact hupdate hc (fun _ hself => .final rfl (hself ▸ hcounted))
    | failWorkflow hk hq => exact hworkflow hc
    | repair hq => exact absurd hq h.unrepaired

theorem Recorded.step (h : Recorded p L id a) (htidy : Tidy p L a.view) (hok : ev.env.ok = true)
    (hturns : Turns ev id a a') :
    Recorded p (L ++ ev.call.credited ev.env ev.world id) id a' where
  final := fun j hj hfinal => by
    have hrow := h.rowStep htidy hturns j
    generalize a'.ledger.job j = st at hrow hfinal
    cases hrow with
    | same => exact List.mem_append_left _ (h.final j hj hfinal)
    | advance _ _ hst => rcases hst with rfl | rfl <;> cases hfinal
    | final _ hmem => exact List.mem_append_left _ hmem
    | _ => cases hfinal
  failed := fun k st r hq => by
    rcases hturns.failed hok hq with hq | ⟨hst, hk, n, jobIds, hc, rfl⟩
    · obtain ⟨hst, hj, hcanceled⟩ := h.failed k st r hq
      exact ⟨hst, List.mem_append_left _ hj, fun j hj => List.mem_append_left _ (hcanceled j hj)⟩
    · have hcredited : ev.call.credited ev.env ev.world id =
          k.jobId :: (ev.world.redis.completeFailedJob k n jobIds).1.canceledJobIds := by
        rw [hc, Call.credited, if_pos ⟨hok, hk⟩, ← hk]
        rfl
      rw [hcredited]
      exact ⟨hst, List.mem_append_right _ List.mem_cons_self,
        fun j hj => List.mem_append_right _ (List.mem_cons_of_mem _ hj)⟩
  unrepaired := fun hq => h.unrepaired (hturns.repair hok htidy hq)

end Jobs

/-- The step writes READY, QUEUED or RETRY_DELAY to the row of a job that has ended in Redis or that
Redis does not know any more. -/
def WorkflowRequest.RecordsLate (req : WorkflowRequest) (ev : Event Call World Env) : Prop :=
  let ended := fun j =>
    ((ev.world.redis.workflows req.identity).jobStatus j).all JobStatus.isTerminal = true
  match ev.call with
  | .updateJobStatus k .retryDelay => k.identity = req.identity ∧ ended k.jobId
  | .updateReadyJobs id queued ready => id = req.identity ∧ ∃ j ∈ queued ++ ready, ended j
  | _ => False

instance (req : WorkflowRequest) (ev : Event Call World Env) : Decidable (req.RecordsLate ev) := by
  unfold WorkflowRequest.RecordsLate
  dsimp only
  induction ev.call using Call.casesOn
  case updateJobStatus k st => induction st using JobStatus.casesOn <;> infer_instance
  all_goals infer_instance

section JobOutcomes

variable {svc : Service} {req : WorkflowRequest} {log log' : Log}
  {σ σ' : Pool Call Call.Reply World} {p : Plan} {L : List String} {ev : Event Call World Env}
  {a a' : Account}

theorem Executes.extend (h : Executes Plain svc req log σ) (hrun : (engine Plain).Run σ log' σ') :
    Executes Plain svc req (log ++ log') σ' := by
  obtain ⟨log₀, σ₀, w₁, hbefore, hplain, hadmits, hrun₁⟩ := h
  exact ⟨log₀, σ₀, w₁, hbefore, hplain, hadmits, hrun₁.trans hrun⟩

/-- A property of the rows that every step keeps holds from the event on that brought it about. -/
theorem kept_append {P : Ledger → Prop} {id : WorkflowIdentity} (hkeeps : P a.ledger → P a'.ledger)
    (hturns : Turns ev id a a') (h : P a.ledger ↔ ∃ ev ∈ log, P (ledgerAfter ev id)) :
    P a'.ledger ↔ ∃ ev' ∈ log ++ [ev], P (ledgerAfter ev' id) := by
  constructor
  · exact fun hP => ⟨ev, List.mem_append_right _ (List.mem_singleton_self ev),
      hturns.ledger_after ▸ hP⟩
  · rintro ⟨ev', hmem, hP⟩
    rcases List.mem_append.mp hmem with hmem | hmem
    · exact hkeeps (h.mpr ⟨ev', hmem, hP⟩)
    · rw [List.mem_singleton.mp hmem] at hP
      rw [hturns.ledger_after]
      exact hP

theorem Recorded.final_kept {j : String} (h : Recorded p L req.identity a) (htidy : Tidy p L a.view)
    (hturns : Turns ev req.identity a a') (hgood : ¬ req.RecordsLate ev) (hj : j ∈ p.ids)
    (hfinal : isFinal (a.ledger.job j) = true) : isFinal (a'.ledger.job j) = true := by
  have hcounted := h.final j hj hfinal
  have hended : ((ev.world.redis.workflows req.identity).jobStatus j).all JobStatus.isTerminal =
      true := hturns.takes.before ▸ htidy.all_of_mem hcounted
  have hrow := h.rowStep htidy hturns j
  generalize a'.ledger.job j = st at hrow
  cases hrow with
  | same => exact hfinal
  | start hnot => exact absurd hcounted hnot
  | delay hc =>
      refine absurd ?_ hgood
      rw [WorkflowRequest.RecordsLate, hc]
      exact ⟨rfl, hended⟩
  | advance hc hmem _ =>
      refine absurd ?_ hgood
      rw [WorkflowRequest.RecordsLate, hc]
      exact ⟨rfl, j, hmem, hended⟩
  | final hst _ => exact hst

theorem Executes.finalRows (h : Executes Plain svc req log σ) (hok : Answered log)
    (hgood : ∀ ev ∈ log, ¬ req.RecordsLate ev) {job : JobRequest} (hjob : job ∈ req.jobs) :
    isFinal (σ.world.sqlite.jobStatus ⟨req.identity, job.jobId⟩) = true ↔
      ∃ ev ∈ log, isFinal ((ledgerAfter ev req.identity).job job.jobId) = true := by
  obtain ⟨p, hp, hrule⟩ := h.accounts hok
  have hids := hp.mem_ids hjob
  have hattains := hrule (fun log a => Recorded p (credits req.identity log) req.identity a ∧
      (isFinal (a.ledger.job job.jobId) = true ↔
        ∃ ev ∈ log, isFinal ((ledgerAfter ev req.identity).job job.jobId) = true))
    (fun ev => ¬ req.RecordsLate ev) (fun a ha => ?_)
    (fun log ev a a' hev hgood htidy _ hI hturns _ => ?_) hgood
  · obtain ⟨D, -, -, -, -, -, hiff⟩ := hattains
    exact hiff
  · have hrecorded : Recorded _ [] req.identity a := ha.recorded
    exact ⟨hrecorded, fun hfinal => absurd (hrecorded.final _ hids hfinal) List.not_mem_nil,
      fun ⟨ev, hev, _⟩ => absurd hev List.not_mem_nil⟩
  · rw [credits_append]
    exact ⟨hI.1.step htidy hev hturns, kept_append (P := fun l => isFinal (l.job job.jobId) = true)
      (hI.1.final_kept htidy hturns hgood hids) hturns hI.2⟩

/-- In every execution in which all commands succeed and no READY, QUEUED or RETRY_DELAY is recorded
late, a job that SQLite records as COMPLETED, FAILED or ABORTED stays so. -/
theorem jobOutcome_final (h : Executes Plain svc req log σ) (hrun : (engine Plain).Run σ log' σ')
    (hok : Answered (log ++ log')) (hgood : ∀ ev ∈ log ++ log', ¬ req.RecordsLate ev)
    {job : JobRequest} (hjob : job ∈ req.jobs)
    (hfinal : isFinal (σ.world.sqlite.jobStatus ⟨req.identity, job.jobId⟩) = true) :
    isFinal (σ'.world.sqlite.jobStatus ⟨req.identity, job.jobId⟩) = true := by
  have hbefore := h.finalRows (fun ev hev => hok ev (List.mem_append_left _ hev))
    (fun ev hev => hgood ev (List.mem_append_left _ hev)) hjob
  obtain ⟨ev, hev, hset⟩ := hbefore.mp hfinal
  exact ((h.extend hrun).finalRows hok hgood hjob).mpr ⟨ev, List.mem_append_left _ hev, hset⟩

def nextCompleted : List Act := pass .scheduler 5 ++ pass .worker 6 ++ pass .completionHandler 30

theorem jobOutcome_final_chainedJobs :
    isFinal ((resumed nextCompleted (played (serviceOf 1) chainedJobs
      firstCompleted).2).2.world.sqlite.jobStatus ⟨chainedJobs.identity, "a"⟩) = true := by
  have hrun : Executes Plain (serviceOf 1) chainedJobs _ _ :=
    executes_played firstCompleted (requestOf_plain _) (by decide +kernel)
  have hjob : ({ jobId := "a" } : JobRequest) ∈ chainedJobs.jobs := List.mem_cons_self
  have hfinal := jobOutcome_final hrun (run_resumed nextCompleted _) (by decide +kernel)
    (by decide +kernel) hjob
  exact hfinal (by decide +kernel)

/-- The handler of the first of two chained jobs has recorded that it completed, and not yet that the
second one is QUEUED; meanwhile the second one is executed and recorded as COMPLETED. -/
def overtakes : List Act := pass .scheduler 5 ++ pass .worker 6 ++ pass .completionHandler 4 ++
  nextCompleted

/-- The first handler goes on, and the second job is QUEUED again. -/
theorem jobOutcome_overwritten :
    Executes Plain (serviceOf 1) chainedJobs (played (serviceOf 1) chainedJobs overtakes).1
      (played (serviceOf 1) chainedJobs overtakes).2 ∧
    (engine Plain).Run (played (serviceOf 1) chainedJobs overtakes).2
      (resumed [.serve 3 {}] (played (serviceOf 1) chainedJobs overtakes).2).1
      (resumed [.serve 3 {}] (played (serviceOf 1) chainedJobs overtakes).2).2 ∧
    Answered ((played (serviceOf 1) chainedJobs overtakes).1 ++
      (resumed [.serve 3 {}] (played (serviceOf 1) chainedJobs overtakes).2).1) ∧
    (played (serviceOf 1) chainedJobs overtakes).2.world.sqlite.jobStatus
      ⟨chainedJobs.identity, "b"⟩ = some .completed ∧
    (resumed [.serve 3 {}] (played (serviceOf 1) chainedJobs
      overtakes).2).2.world.sqlite.jobStatus ⟨chainedJobs.identity, "b"⟩ = some .queued :=
  ⟨executes_played overtakes (requestOf_plain _) (by decide +kernel), run_resumed _ _,
    by decide +kernel, by decide +kernel, by decide +kernel⟩

end JobOutcomes

/-- Redis had the workflow at the status after one of the events. -/
def Reached (id : WorkflowIdentity) (log : Log) (ws : WorkflowStatus) : Prop :=
  ∃ ev ∈ log, (after ev id).status = some ws

/-- The step writes RUNNING to the row of the workflow when it is not RUNNING in Redis any more. -/
def WorkflowRequest.StartsLate (req : WorkflowRequest) (ev : Event Call World Env) : Prop :=
  match ev.call with
  | .updateWorkflowStatus id .running => id = req.identity ∧
      (ev.world.redis.workflows req.identity).status ≠ some .running
  | _ => False

instance (req : WorkflowRequest) (ev : Event Call World Env) : Decidable (req.StartsLate ev) := by
  unfold WorkflowRequest.StartsLate
  induction ev.call using Call.casesOn
  case updateWorkflowStatus id st => induction st using WorkflowStatus.casesOn <;> infer_instance
  all_goals infer_instance

/-- What is known of the end of a workflow: Redis comes to one of COMPLETED and FAILED at most and
stays there until the hash is deleted, and SQLite and those who are to write to it follow. -/
structure Concluded (id : WorkflowIdentity) (log : Log) (a : Account) : Prop where
  completed : Reached id log .completed → a.view.status = some .completed ∨ a.view.status = none
  failed : Reached id log .failed → a.view.status = some .failed ∨ a.view.status = none
  exclusive : Reached id log .completed → ¬ Reached id log .failed
  ledger : ∀ ws, a.ledger.workflow = some ws → ws = .completed ∨ ws = .failed ∨ ws = .canceled →
    Reached id log ws ∧ ws ≠ .canceled
  counted : ∀ j l, .counted .due l ∈ a.view.stages j → Reached id log .completed
  duty : ∀ k st r, .failed k st r ∈ a.duties → r.workflowFailed = true → Reached id log .failed

section WorkflowOutcomes

variable {svc : Service} {req : WorkflowRequest} {log log' : Log}
  {σ σ' : Pool Call Call.Reply World} {p : Plan} {L : List String} {ev : Event Call World Env}
  {id : WorkflowIdentity} {a a' : Account} {ws : WorkflowStatus}

theorem Reached.append (h : Reached id log ws) (ev : Event Call World Env) :
    Reached id (log ++ [ev]) ws := by
  obtain ⟨ev', hmem, hws⟩ := h
  exact ⟨ev', List.mem_append_left _ hmem, hws⟩

theorem reached_append (hturns : Turns ev id a a') :
    Reached id (log ++ [ev]) ws ↔ Reached id log ws ∨ a'.view.status = some ws := by
  have hafter : a'.view.status = (after ev id).status := by
    rw [WorkflowView.status, hturns.takes.after]
  rw [hafter]
  constructor
  · rintro ⟨ev', hmem, hws⟩
    rcases List.mem_append.mp hmem with hmem | hmem
    · exact .inl ⟨ev', hmem, hws⟩
    · exact .inr (List.mem_singleton.mp hmem ▸ hws)
  · rintro (h | hws)
    · exact h.append ev
    · exact ⟨ev, List.mem_append_right _ (List.mem_singleton_self ev), hws⟩

theorem Serves.ended {v v' : WorkflowView} (h : Serves p L ev id v v')
    (hws : ws = .completed ∨ ws = .failed) (hended : v.status = some ws ∨ v.status = none) :
    v'.status = some ws ∨ v'.status = none := by
  have hopen : ∀ {ws' : WorkflowStatus}, v.status = some ws' → ws' = ws := fun hws' => by
    rcases hended with hended | hended <;> cases hws'.symm.trans hended
    rfl
  rcases h with ⟨rfl, -⟩ | ⟨-, hstep⟩
  · exact hended
  · rcases hstep.status with heq | ⟨hwf, -⟩ | ⟨hwf, -⟩ | ⟨-, ⟨hwf, -⟩ | hwf⟩
    · rw [heq]
      exact hended
    · rcases hopen hwf with rfl
      rcases hws with hws | hws <;> cases hws
    · rcases hopen hwf with rfl
      rcases hws with hws | hws <;> cases hws
    · rcases hopen hwf with rfl
      rcases hws with hws | hws <;> cases hws
    · exact .inr hwf

/-- A handler that has the cleanup of a completed workflow before it has seen it COMPLETED. -/
theorem Serves.counted {v v' : WorkflowView} {j : String} {l : List String} (htidy : Tidy p L v)
    (h : Serves p L ev id v v') (hs : .counted .due l ∈ v'.stages j) :
    .counted .due l ∈ v.stages j ∨ v'.status = some .completed := by
  rcases h with ⟨rfl, -⟩ | ⟨-, hstep⟩
  · exact .inl hs
  · rcases htidy.mem_stages hstep hs with hs | harises
    · exact .inl hs
    · cases harises with
      | busy hasks => cases hasks
      | counted _ _ _ hc =>
          rcases hc with hc | ⟨-, -, hwf⟩
          · cases hc
          · exact .inr hwf

/-- The row of the workflow after a step. -/
inductive WorkflowRowStep (id : WorkflowIdentity) (a : Account) (c : Call) :
    Option WorkflowStatus → Prop where
  | same : WorkflowRowStep id a c a.ledger.workflow
  | start (hc : c = .updateWorkflowStatus id .running) : WorkflowRowStep id a c (some .running)
  | complete {j : String} {l : List String} (hs : .counted .due l ∈ a.view.stages j) :
      WorkflowRowStep id a c (some .completed)
  | fail {k : JobKey} {st : JobStatus} {r : Redis.FailedJob} (hq : .failed k st r ∈ a.duties)
      (hr : r.workflowFailed = true) : WorkflowRowStep id a c (some .failed)

theorem Turns.workflowRowStep (hturns : Turns ev id a a') (hunrepaired : .repair id ∉ a.duties) :
    WorkflowRowStep id a ev.call a'.ledger.workflow := by
  have hsame : a'.ledger.workflow = a.ledger.workflow →
      WorkflowRowStep id a ev.call a'.ledger.workflow := fun heq => heq ▸ .same
  have hjob : (∃ k st, ev.call = .updateJobStatus k st) ∨
      (∃ queued ready, ev.call = .updateReadyJobs id queued ready) →
      WorkflowRowStep id a ev.call a'.ledger.workflow := fun hc => by
    have hrow := ledger_workflow_of_job id ev.env ev.world hc
    rw [← hturns.ledger, ← ledgerAfter, ← hturns.ledger_after] at hrow
    exact hsame hrow
  have hupdate : ∀ {ws}, ev.call = .updateWorkflowStatus id ws →
      WorkflowRowStep id a ev.call (some ws) →
      WorkflowRowStep id a ev.call a'.ledger.workflow := fun {ws} hc hself => by
    have hrow := (ledger_updateWorkflowStatus id ws ev.env ev.world).2
    rw [← hc, ← hturns.ledger, ← ledgerAfter, ← hturns.ledger_after] at hrow
    rcases hrow with heq | heq
    · exact hsame heq
    · rw [heq]
      exact hself
  rcases hturns.writes with hspares | hwrites
  · have hledger := hspares.exec ev.env ev.world
    rw [← hturns.ledger, ← ledgerAfter, ← hturns.ledger_after] at hledger
    exact hsame (congrArg Ledger.workflow hledger)
  · obtain ⟨c, hc⟩ : ∃ c, ev.call = c := ⟨_, rfl⟩
    rw [hc] at hwrites
    cases hwrites with
    | startWorkflow => exact hupdate hc (.start hc)
    | completeWorkflow hs => exact hupdate hc (.complete hs)
    | failWorkflow hk hq hr => exact hupdate hc (.fail hq hr)
    | advance queued ready => exact hjob (.inr ⟨_, _, hc⟩)
    | start | delay | complete | fail | cancel => exact hjob (.inl ⟨_, _, hc⟩)
    | repair hq => exact absurd hq hunrepaired

theorem status_of_workflowFailed {k : JobKey} {n : Int} {jobIds : List String}
    (hc : ev.call = .completeFailedJob k n jobIds) (hok : ev.env.ok = true)
    (h : (ev.world.redis.completeFailedJob k n jobIds).1.workflowFailed = true) :
    (after ev k.identity).status = some .failed := by
  have hrun := (WorkflowKeyspace.completeFailedJob_workflowFailed ..).mp h
  have hspace : (ev.world.redis.completeFailedJob k n jobIds).2.workflows k.identity =
      ((ev.world.redis.workflows k.identity).completeFailedJob k.jobId n jobIds).2 := by
    rw [Redis.completeFailedJob]
    exact (congrFun (Redis.dropCanceled_workflows ..) _).trans (Redis.setWorkflow_workflows_self ..)
  have hafter : after ev k.identity =
      (ev.world.redis.completeFailedJob k n jobIds).2.workflows k.identity := by
    rw [after, hc, Call.exec, if_pos (Bool.or_eq_true_iff.mpr (.inl hok))]
    rfl
  rw [hafter, hspace]
  exact congrArg WorkflowKeyspace.Counters.status
    (WorkflowKeyspace.completeFailedJob_running n hrun).counters

theorem Begun.concluded (h : Begun p a) : Concluded id [] a := by
  have hnever : ∀ ws, ¬ Reached id [] ws := fun _ ⟨_, hev, _⟩ => List.not_mem_nil hev
  refine ⟨fun hend => absurd hend (hnever _), fun hend => absurd hend (hnever _),
    fun hend => absurd hend (hnever _), fun ws hws hfinal => ?_, fun j l hs => ?_,
    fun k st r hq => ?_⟩
  · rcases h.workflow with hrow | hrow <;> cases hrow.symm.trans hws <;>
      rcases hfinal with hfinal | hfinal | hfinal <;> cases hfinal
  · cases h.fresh.mem_stages hs
  · rw [h.duties] at hq
    exact absurd hq (Multiset.notMem_zero _)

/-- A step keeps what is known of the end of the workflow. -/
theorem Concluded.step (h : Concluded id log a) (hunrepaired : .repair id ∉ a.duties)
    (htidy : Tidy p L a.view) (hok : ev.env.ok = true) (hturns : Turns ev id a a')
    (hserves : Serves p L ev id a.view a'.view) : Concluded id (log ++ [ev]) a' := by
  -- a status that was not reached before is reached from RUNNING
  have hfrom : ∀ {ws ws' : WorkflowStatus}, ws = .completed ∨ ws = .failed →
      (Reached id log ws → a.view.status = some ws ∨ a.view.status = none) →
      Reached id log ws → a'.view.status = some ws' → ws' = ws := fun hws hended hreached hws' => by
    rcases hserves.ended hws (hended hreached) with hself | hself <;> cases hself.symm.trans hws'
    rfl
  have hstays : ∀ {ws : WorkflowStatus}, ws = .completed ∨ ws = .failed →
      (Reached id log ws → a.view.status = some ws ∨ a.view.status = none) →
      Reached id (log ++ [ev]) ws → a'.view.status = some ws ∨ a'.view.status = none :=
    fun hws hended hreached => by
      rcases (reached_append hturns).mp hreached with hreached | hnow
      · exact hserves.ended hws (hended hreached)
      · exact .inl hnow
  refine ⟨hstays (.inl rfl) h.completed, hstays (.inr rfl) h.failed, fun hcompleted hfailed => ?_,
    fun ws hws hfinal => ?_, fun j l hs => ?_, fun k st r hq hr => ?_⟩
  · rcases (reached_append hturns).mp hcompleted with hcompleted | hcompleted <;>
      rcases (reached_append hturns).mp hfailed with hfailed | hfailed
    · exact h.exclusive hcompleted hfailed
    · cases hfrom (.inl rfl) h.completed hcompleted hfailed
    · cases hfrom (.inr rfl) h.failed hfailed hcompleted
    · cases hcompleted.symm.trans hfailed
  · have hrow := hturns.workflowRowStep hunrepaired
    rw [hws] at hrow
    generalize hst : some ws = row at hrow
    cases hrow with
    | same =>
        obtain ⟨hreached, hne⟩ := h.ledger ws hst.symm hfinal
        exact ⟨hreached.append ev, hne⟩
    | start =>
        cases hst
        rcases hfinal with hfinal | hfinal | hfinal <;> cases hfinal
    | complete hs =>
        cases hst
        exact ⟨(h.counted _ _ hs).append ev, nofun⟩
    | fail hq hr =>
        cases hst
        exact ⟨(h.duty _ _ _ hq hr).append ev, nofun⟩
  · rcases hserves.counted htidy hs with hs | hnow
    · exact (h.counted j l hs).append ev
    · exact (reached_append hturns).mpr (.inr hnow)
  · rcases hturns.failed hok hq with hq | ⟨-, hk, n, jobIds, hc, rfl⟩
    · exact (h.duty k st r hq hr).append ev
    · refine ⟨ev, List.mem_append_right _ (List.mem_singleton_self ev), ?_⟩
      rw [← hk]
      exact status_of_workflowFailed hc hok hr

/-- A final status of the workflow is not changed by a step that starts nothing late. -/
theorem Concluded.final_kept (h : Concluded req.identity log a)
    (hunrepaired : .repair req.identity ∉ a.duties) (hturns : Turns ev req.identity a a')
    (hgood : ¬ req.StartsLate ev) (hws : ws = .completed ∨ ws = .failed ∨ ws = .canceled)
    (hfinal : a.ledger.workflow = some ws) : a'.ledger.workflow = some ws := by
  obtain ⟨hreached, hne⟩ := h.ledger ws hfinal hws
  have hrow := hturns.workflowRowStep hunrepaired
  generalize a'.ledger.workflow = row at hrow
  have hended : a.view.status ≠ some .running := fun hrun => by
    rcases hws with rfl | rfl | rfl
    · rcases h.completed hreached with hend | hend <;> cases hend.symm.trans hrun
    · rcases h.failed hreached with hend | hend <;> cases hend.symm.trans hrun
    · exact hne rfl
  cases hrow with
  | same => exact hfinal
  | start hc =>
      refine absurd ?_ hgood
      rw [WorkflowRequest.StartsLate, hc]
      rw [WorkflowView.status, hturns.takes.before] at hended
      exact ⟨rfl, hended⟩
  | complete hs =>
      have hcompleted := h.counted _ _ hs
      rcases hws with rfl | rfl | rfl
      · rfl
      · exact absurd hreached (h.exclusive hcompleted)
      · exact absurd rfl hne
  | fail hq hr =>
      have hfailed := h.duty _ _ _ hq hr
      rcases hws with rfl | rfl | rfl
      · exact absurd hfailed (h.exclusive hreached)
      · rfl
      · exact absurd rfl hne

theorem Executes.finalWorkflow (h : Executes Plain svc req log σ) (hok : Answered log)
    (hgood : ∀ ev ∈ log, ¬ req.StartsLate ev)
    (hws : ws = .completed ∨ ws = .failed ∨ ws = .canceled) :
    σ.world.sqlite.workflowStatus req.identity = some ws ↔
      ∃ ev ∈ log, (ledgerAfter ev req.identity).workflow = some ws := by
  obtain ⟨p, -, hrule⟩ := h.accounts hok
  have hattains := hrule (fun log a =>
      .repair req.identity ∉ a.duties ∧ Concluded req.identity log a ∧
      (a.ledger.workflow = some ws ↔ ∃ ev ∈ log, (ledgerAfter ev req.identity).workflow = some ws))
    (fun ev => ¬ req.StartsLate ev) (fun a ha => ?_)
    (fun log ev a a' hev hgood htidy _ hI hturns hserves => ?_) hgood
  · obtain ⟨D, -, -, -, -, -, -, hiff⟩ := hattains
    exact hiff
  · have hconcluded : Concluded req.identity [] a := ha.concluded
    refine ⟨ha.duties ▸ Multiset.notMem_zero _, hconcluded, fun hfinal => ?_,
      fun ⟨ev, hev, _⟩ => absurd hev List.not_mem_nil⟩
    obtain ⟨⟨ev, hev, -⟩, -⟩ := hconcluded.ledger ws hfinal hws
    cases hev
  · obtain ⟨hunrepaired, hconcluded, hiff⟩ := hI
    exact ⟨fun hq => hunrepaired (hturns.repair hev htidy hq),
      hconcluded.step hunrepaired htidy hev hturns hserves,
      kept_append (P := fun l => l.workflow = some ws)
        (hconcluded.final_kept hunrepaired hturns hgood hws) hturns hiff⟩

/-- In every execution in which all commands succeed and RUNNING is never recorded late, a workflow
that SQLite records as COMPLETED, FAILED or CANCELED stays so. -/
theorem workflowOutcome_final (h : Executes Plain svc req log σ) (hrun : (engine Plain).Run σ log' σ')
    (hok : Answered (log ++ log')) (hgood : ∀ ev ∈ log ++ log', ¬ req.StartsLate ev)
    (hws : ws = .completed ∨ ws = .failed ∨ ws = .canceled)
    (hfinal : σ.world.sqlite.workflowStatus req.identity = some ws) :
    σ'.world.sqlite.workflowStatus req.identity = some ws := by
  have hbefore := h.finalWorkflow (fun ev hev => hok ev (List.mem_append_left _ hev))
    (fun ev hev => hgood ev (List.mem_append_left _ hev)) hws
  obtain ⟨ev, hev, hset⟩ := hbefore.mp hfinal
  exact ((h.extend hrun).finalWorkflow hok hgood hws).mpr ⟨ev, List.mem_append_left _ hev, hset⟩

/-- The first of two jobs fails and its handler fails the workflow; a second scheduler then meets the
key of the canceled job. -/
theorem workflowOutcome_final_fragileJobs :
    (resumed (pass .scheduler 5) (played (serviceOf 2) fragileJobs
      failsAndCleansUp).2).2.world.sqlite.workflowStatus fragileJobs.identity = some .failed := by
  have hrun : Executes Plain (serviceOf 2) fragileJobs _ _ :=
    executes_played failsAndCleansUp (requestOf_plain _) (by decide +kernel)
  exact workflowOutcome_final hrun (run_resumed (pass .scheduler 5) _) (by decide +kernel)
    (by decide +kernel) (.inr (.inl rfl)) (by decide +kernel)

/-- The worker that starts the first of two jobs has not recorded the start of the workflow yet; the
second job fails meanwhile, and its handler fails the workflow. -/
def failsBeforeStart : List Act :=
  pass .scheduler 5 ++ pass .scheduler 5 ++ pass .worker 2 ++ workerFails 3 ++
  pass .completionHandler 10

/-- The worker goes on, and the failed workflow is RUNNING again. -/
theorem workflowOutcome_overwritten :
    Executes Plain (serviceOf 2) fragileJobs (played (serviceOf 2) fragileJobs failsBeforeStart).1
      (played (serviceOf 2) fragileJobs failsBeforeStart).2 ∧
    (engine Plain).Run (played (serviceOf 2) fragileJobs failsBeforeStart).2
      (resumed [.serve 2 {}] (played (serviceOf 2) fragileJobs failsBeforeStart).2).1
      (resumed [.serve 2 {}] (played (serviceOf 2) fragileJobs failsBeforeStart).2).2 ∧
    Answered ((played (serviceOf 2) fragileJobs failsBeforeStart).1 ++
      (resumed [.serve 2 {}] (played (serviceOf 2) fragileJobs failsBeforeStart).2).1) ∧
    (played (serviceOf 2) fragileJobs failsBeforeStart).2.world.sqlite.workflowStatus
      fragileJobs.identity = some .failed ∧
    (resumed [.serve 2 {}] (played (serviceOf 2) fragileJobs
      failsBeforeStart).2).2.world.sqlite.workflowStatus fragileJobs.identity = some .running :=
  ⟨executes_played failsBeforeStart (requestOf_plain _) (by decide +kernel), run_resumed _ _,
    by decide +kernel, by decide +kernel, by decide +kernel⟩

end WorkflowOutcomes

end FlowPilot
