import FlowPilot.ExecutionTidy
import FlowPilot.RuntimeLedger

/-! An execution with everything that is written about its workflow: the workflow itself, its rows in
SQLite, the times of its retries, and the duties of the programs that act for it. `Executes.turns` is
the rule for properties of this account, and `Executes.accounts` the same rule for executions in which
every command succeeds. -/

namespace FlowPilot

def Token.about : Token → Option WorkflowIdentity
  | .hold k _ => some k.identity
  | _ => none

def Duty.about : Duty → Option WorkflowIdentity
  | .repair id => some id
  | q => q.token.about

/-- What is written about a workflow, and what programs are still to do for it. -/
structure Account where
  view : WorkflowView
  ledger : Ledger
  /-- the times in the retry set -/
  retryAt : String → Option Int
  duties : Multiset Duty

def account (id : WorkflowIdentity) (w : World) (D : Multiset Duty) : Account where
  view := view id w (D.map Duty.token)
  ledger := w.sqlite.ledger id
  retryAt := fun j => w.redis.jobRetryStream.score ⟨id, j⟩
  duties := D.filter (fun q => q.about = some id)

section Accounts

variable {id : WorkflowIdentity} {w w' : World} {D : Multiset Duty} {q q' : Duty} {c : Call} {e : Env}

theorem account_idle : account id w (.plain .idle ::ₘ D) = account id w D := by
  have hview : view id w ((Duty.plain .idle ::ₘ D).map Duty.token) = view id w (D.map Duty.token) := by
    rw [Multiset.map_cons]
    exact view_idle ..
  have hduties : (Duty.plain .idle ::ₘ D).filter (fun q => q.about = some id) =
      D.filter (fun q => q.about = some id) := Multiset.filter_cons_of_neg _ nofun
  rw [account, account, hview, hduties]

theorem Admits.account_of_ne {svc : Service} {req : WorkflowRequest}
    (h : Admits Call.exec svc req w w') (hid : id ≠ req.identity) :
    account id w' D = account id w D := by
  obtain ⟨client, info, linked, ready, haccepted, -⟩ := h.accepted
  have hretry : w'.redis.jobRetryStream = w.redis.jobRetryStream :=
    congrArg Visible.jobRetryStream haccepted.stored
  have hledger : w'.sqlite.ledger id = w.sqlite.ledger id := by
    obtain ⟨env, result, hrun, -⟩ := h
    have hspares : Prog.Ensures Call.exec (fun _ => True)
        (fun _ w' => w'.sqlite.ledger id = w.sqlite.ledger id) _ w :=
      (submitWorkflow_spares hid.symm svc).ensures
        (fun c hc e w₁ hw₁ => (Call.Spares.exec hc e w₁).trans hw₁) rfl
    have hend := hspares.run env (fun _ => trivial)
    rw [hrun] at hend
    exact hend
  rw [account, account, haccepted.view_of_ne _ hid, hledger, hretry]

end Accounts

/-- What holds of the duties in every state of the engine. -/
structure Dutiful (w : World) (D : Multiset Duty) : Prop where
  sane : Sane w (D.map Duty.token)
  repairs : ∀ id, .repair id ∈ D → w.sqlite.recorded id = true

section Duties

variable {id : WorkflowIdentity} {w w' : World} {D : Multiset Duty} {q q' : Duty} {c : Call} {e : Env}

theorem Dutiful.idle (h : Dutiful w D) : Dutiful w (.plain .idle ::ₘ D) where
  sane := by
    rw [Multiset.map_cons]
    exact h.sane.idle
  repairs := fun id hmem => h.repairs id ((Multiset.mem_cons.mp hmem).resolve_left nofun)

theorem Dutiful.admitted (h : Dutiful w D) (hadmits : (engine Plain).outside w w') :
    Dutiful w' D where
  sane := h.sane.admitted hadmits
  repairs := fun id hmem => by
    obtain ⟨svc, req, -, hadmits⟩ := hadmits
    exact hadmits.recorded (h.repairs id hmem)

theorem Duty.Moves.repair {r : c.Reply} (h : Duty.Moves c r q (.repair id)) :
    q = .repair id ∨ ∃ k s, q.token = .hold k s ∧ k.identity = id := by
  generalize hq' : Duty.repair id = q' at h
  cases h with
  | repairs => cases hq'; exact .inl rfl
  | missing k st => cases hq'; exact .inr ⟨k, _, rfl, rfl⟩
  | unlisted k hs d => cases hq'; exact .inr ⟨k, _, rfl, rfl⟩
  | unfailed k st jobIds n => cases hq'; exact .inr ⟨k, _, rfl, rfl⟩
  | unfailedBroken k x jobIds n => cases hq'; exact .inr ⟨k, _, rfl, rfl⟩
  | judge k hs r =>
      rw [afterRuntime] at hq'
      split at hq' <;> cases hq'
  | clean hc h calls => cases calls <;> cases hq'
  | _ => cases hq'

/-- A served call keeps what holds of the duties in every state. -/
theorem Dutiful.serve (h : Dutiful w (q ::ₘ D)) (hmove : Duty.Moves c (c.exec e w).1 q q') :
    Dutiful (c.exec e w).2 (q' ::ₘ D) := by
  have hsane := h.sane
  rw [Multiset.map_cons] at hsane
  refine ⟨?_, fun id hmem => ?_⟩
  · rw [Multiset.map_cons]
    exact hsane.serve hmove.move
  · have hrecorded := (hsane.simulated hmove.move id).recorded
    refine hrecorded.trans ?_
    rcases Multiset.mem_cons.mp hmem with rfl | hmem
    · rcases hmove.repair with rfl | ⟨k, s, htoken, rfl⟩
      · exact h.repairs id (Multiset.mem_cons_self ..)
      · by_contra hnot
        have habsent := hsane.absent k.identity (Bool.eq_false_of_not_eq_true hnot)
        have hmem : s ∈ (view k.identity w (q.token ::ₘ D.map Duty.token)).stages k.jobId := by
          rw [htoken]
          exact mem_stagesOf.mpr (by rw [holdings_hold]; exact Multiset.mem_cons_self ..)
        rw [habsent.stages] at hmem
        exact Multiset.notMem_zero _ hmem
    · exact h.repairs id (Multiset.mem_cons_of_mem hmem)

end Duties

/-- What the account looks like before and after a served call: the program that made the call goes on
from one duty to the next, and the others keep theirs. -/
def Turns (ev : Event Call World Env) (id : WorkflowIdentity) (a a' : Account) : Prop :=
  ∃ q q' D, Dutiful ev.world (q ::ₘ D) ∧
    Duty.Moves ev.call (ev.call.exec ev.env ev.world).1 q q' ∧
    a = account id ev.world (q ::ₘ D) ∧ a' = account id (ev.call.exec ev.env ev.world).2 (q' ::ₘ D)

theorem Turns.takes {ev : Event Call World Env} {id : WorkflowIdentity} {a a' : Account}
    (h : Turns ev id a a') : Takes ev id a.view a'.view := by
  obtain ⟨q, q', D, hdutiful, hmove, rfl, rfl⟩ := h
  have hsane := hdutiful.sane
  refine ⟨q.token, q'.token, D.map Duty.token, ?_, hmove.move, ?_, ?_⟩
  · rw [← Multiset.map_cons]
    exact hsane
  · rw [← Multiset.map_cons]
    rfl
  · rw [← Multiset.map_cons]
    rfl

/-- The calls that write to the rows of a workflow, with the duties of their programs. -/
inductive Writes (id : WorkflowIdentity) (a : Account) : Call → Prop where
  | start {k : JobKey} (hk : k.identity = id) (hs : .started ∈ a.view.stages k.jobId) :
      Writes id a (.updateJobStatus k .running)
  | startWorkflow {j : String} (hs : .started ∈ a.view.stages j) :
      Writes id a (.updateWorkflowStatus id .running)
  | delay {k : JobKey} (hk : k.identity = id) : Writes id a (.updateJobStatus k .retryDelay)
  | advance (queued ready : List String) : Writes id a (.updateReadyJobs id queued ready)
  | complete {k : JobKey} (hk : k.identity = id) {x : Closing} {l : List String}
      (hq : .recording k x l ∈ a.duties) : Writes id a (.updateJobStatus k .completed)
  | completeWorkflow {j : String} {l : List String} (hs : .counted .due l ∈ a.view.stages j) :
      Writes id a (.updateWorkflowStatus id .completed)
  | fail {k : JobKey} (hk : k.identity = id) {st : JobStatus} {r : Redis.FailedJob}
      (hq : .failed k st r ∈ a.duties) : Writes id a (.updateJobStatus k st)
  | cancel {k : JobKey} (hk : k.identity = id) {st : JobStatus} {r : Redis.FailedJob} {j : String}
      (hq : .failed k st r ∈ a.duties) (hj : j ∈ r.canceledJobIds) :
      Writes id a (.updateJobStatus ⟨k.identity, j⟩ .aborted)
  | failWorkflow {k : JobKey} (hk : k.identity = id) {st : JobStatus} {r : Redis.FailedJob}
      (hq : .failed k st r ∈ a.duties) (hr : r.workflowFailed = true) :
      Writes id a (.updateWorkflowStatus id .failed)
  | repair {c : Call} (hq : .repair id ∈ a.duties) : Writes id a c

section Writes

variable {ev : Event Call World Env} {id : WorkflowIdentity} {a a' : Account} {w : World}
  {D : Multiset Duty} {q : Duty} {k : JobKey} {s : Stage}

theorem account_duty (hq : q ∈ D) (habout : q.about = some id) : q ∈ (account id w D).duties :=
  Multiset.mem_filter.mpr ⟨hq, habout⟩

theorem account_stage (hq : q ∈ D) (htoken : q.token = .hold k s) (hk : k.identity = id) :
    s ∈ (account id w D).view.stages k.jobId := by
  subst hk
  refine mem_stagesOf.mpr (Multiset.mem_add.mpr (.inr (mem_threads.mpr ?_)))
  rw [← htoken]
  exact Multiset.mem_map_of_mem _ hq

theorem Call.spares_of_isPassing {c : Call} (h : c.isPassing = true) : c.Spares id := by
  cases c <;> trivial

theorem Call.spares_of_isCleanup {c : Call} (h : c.isCleanup = true) : c.Spares id := by
  cases c <;> trivial

/-- A call of the engine leaves the rows of a workflow as they are, or writes to them as the duty of
its program says. -/
theorem Turns.writes (h : Turns ev id a a') : ev.call.Spares id ∨ Writes id a ev.call := by
  obtain ⟨w, c, e⟩ := ev
  obtain ⟨q, q', D, hdutiful, hmove, rfl, -⟩ := h
  have hmem : q ∈ q ::ₘ D := Multiset.mem_cons_self ..
  change c.Spares id ∨ Writes id (account id w (q ::ₘ D)) c
  change Duty.Moves c (c.exec e w).1 q q' at hmove
  generalize (c.exec e w).1 = r at hmove
  -- a call about a job of another workflow spares this one
  have hjob : ∀ (k : JobKey) (st : JobStatus),
      (k.identity = id → Writes id (account id w (q ::ₘ D)) (.updateJobStatus k st)) →
      (Call.updateJobStatus k st).Spares id ∨
        Writes id (account id w (q ::ₘ D)) (.updateJobStatus k st) := fun k st hself =>
    (em (k.identity = id)).elim (fun hk => .inr (hself hk)) .inl
  have hworkflow : ∀ (id' : WorkflowIdentity) (st : WorkflowStatus),
      (id' = id → Writes id (account id w (q ::ₘ D)) (.updateWorkflowStatus id' st)) →
      (Call.updateWorkflowStatus id' st).Spares id ∨
        Writes id (account id w (q ::ₘ D)) (.updateWorkflowStatus id' st) := fun id' st hself =>
    (em (id' = id)).elim (fun hk => .inr (hself hk)) .inl
  have hready : ∀ (id' : WorkflowIdentity) (queued ready : List String),
      (Call.updateReadyJobs id' queued ready).Spares id ∨
        Writes id (account id w (q ::ₘ D)) (.updateReadyJobs id' queued ready) :=
    fun id' queued ready => (em (id' = id)).elim (fun hk => .inr (hk ▸ .advance queued ready)) .inl
  cases hmove with
  | @plain c r t t' _ hsimple =>
      cases hsimple with
      | stuck =>
          refine absurd ?_ hdutiful.sane.unstuck
          exact Multiset.mem_map.mpr ⟨_, hmem, rfl⟩
      | passing _ hc => exact .inl (Call.spares_of_isPassing hc)
      | fetch | aborted => exact .inl trivial
      | startWorkflow k =>
          refine hworkflow _ _ (fun hk => ?_)
          rw [hk]
          exact .startWorkflow (account_stage hmem rfl hk)
      | startJob k => exact hjob _ _ (fun hk => .start hk (account_stage hmem rfl hk))
      | delayed k => exact hjob _ _ (fun hk => .delay hk)
      | advanced id' queued ready => exact hready _ _ _
      | countedReady k x l queued ready => exact hready _ _ _
      | countedWorkflow k l =>
          refine hworkflow _ _ (fun hk => ?_)
          rw [hk]
          exact .completeWorkflow (account_stage hmem rfl hk)
  | repairs id' c hc habout =>
      by_cases hid : id' = id
      · subst hid
        exact .inr (.repair (account_duty hmem rfl))
      · refine .inl (Call.spares_of_about ?_ (fun hself => hid ?_))
        · cases c <;> first | rfl | cases hc
        · exact Option.some.inj (habout.symm.trans hself)
  | record k x l b =>
      exact hjob _ _ (fun hk => .complete hk (account_duty hmem (congrArg some hk)))
  | recordFailed k st r b =>
      exact hjob _ _ (fun hk => .fail hk (account_duty hmem (congrArg some hk)))
  | recordCanceled k st r hj b =>
      exact hjob _ _ (fun hk => .cancel (k := k) hk (account_duty hmem (congrArg some hk)) hj)
  | recordWorkflow k st r hr b =>
      refine hworkflow _ _ (fun hk => ?_)
      rw [hk]
      exact .failWorkflow hk (account_duty hmem (congrArg some hk)) hr
  | clean hc => exact .inl (Call.spares_of_isCleanup hc)
  | _ => exact .inl trivial

end Writes

/-- The account of a workflow that was just admitted. -/
structure Begun (p : Plan) (a : Account) : Prop where
  fresh : Fresh p a.view
  workflow : a.ledger.workflow = some .admitted ∨ a.ledger.workflow = some .ready
  jobs : ∀ j ∈ p.ids, ∃ st, a.ledger.job j = some st ∧ st.isTerminal = false
  retryAt : ∀ j, a.retryAt j = none
  duties : a.duties = 0

section Executions

variable {svc : Service} {req : WorkflowRequest} {id : WorkflowIdentity} {log log' : Log}
  {σ σ' : Pool Call Call.Reply World} {I : Log → Account → Prop}

/-- The execution of a workflow has come to an account that meets a property. -/
def Attains (I : Log → Account → Prop) (id : WorkflowIdentity) (log : Log)
    (σ : Pool Call Call.Reply World) : Prop :=
  Covered duties (fun log w D => Dutiful w D ∧ w.sqlite.recorded id = true ∧
    I log (account id w D)) log σ

/-- A property of accounts that every call keeps holds along the run. -/
theorem Attains.run {good : Event Call World Env → Prop} (h : Attains I id log σ)
    (hrun : (engine Plain).Run σ log' σ')
    (hstep : ∀ log ev a a', good ev → I log a → Turns ev id a a' → I (log ++ [ev]) a')
    (hgood : ∀ ev ∈ log', good ev) : Attains I id (log ++ log') σ' := by
  have hcovered : Covered duties (fun log' w D => Dutiful w D ∧ w.sqlite.recorded id = true ∧
      ((∀ ev ∈ log', good ev) → I (log ++ log') (account id w D))) log' σ' := by
    refine hrun.covered engine_duties ?_ ?_ ?_ ?_
    · rintro log₁ w D ⟨hdutiful, hrecorded, hI⟩
      refine ⟨hdutiful.idle, hrecorded, ?_⟩
      rw [show duties.idle = Duty.plain .idle from rfl, account_idle]
      exact hI
    · rintro log₁ w w' D hadmits ⟨hdutiful, hrecorded, hI⟩
      refine ⟨hdutiful.admitted hadmits, ?_⟩
      obtain ⟨svc', req', -, hadmits⟩ := hadmits
      refine ⟨hadmits.recorded hrecorded, ?_⟩
      rw [hadmits.account_of_ne (hadmits.ne_of_recorded hrecorded)]
      exact hI
    · rintro log₁ w c e q q' D hmove ⟨hdutiful, hrecorded, hI⟩
      have hsane := hdutiful.sane
      rw [Multiset.map_cons] at hsane
      have hmove' : Duty.Moves c (c.exec e w).1 q q' := hmove
      refine ⟨hdutiful.serve hmove', (hsane.simulated hmove'.move id).recorded.trans hrecorded,
        fun hall => ?_⟩
      rw [← List.append_assoc]
      refine hstep _ ⟨w, c, e⟩ _ _ (hall _ (by simp)) (hI (fun ev hev => hall ev ?_))
        ⟨q, q', D, hdutiful, hmove', rfl, rfl⟩
      exact List.mem_append_left _ hev
    · obtain ⟨D, hfollows, hdutiful, hrecorded, hI⟩ := h
      refine ⟨D, hfollows, hdutiful, hrecorded, fun _ => ?_⟩
      rw [List.append_nil]
      exact hI
  obtain ⟨D, hfollows, hdutiful, hrecorded, hI⟩ := hcovered
  exact ⟨D, hfollows, hdutiful, hrecorded, hI hgood⟩

theorem run_dutiful (h : (engine Plain).Run ⟨{}, []⟩ log σ) :
    Covered duties (fun _ w D => Dutiful w D) log σ :=
  h.covered engine_duties (fun _ _ _ hD => hD.idle) (fun _ _ _ _ hadmits hD => hD.admitted hadmits)
    (fun _ _ _ _ _ _ _ hmove hD => hD.serve hmove)
    ⟨[], List.Forall₂.nil, sane_start, fun _ hmem => absurd hmem (Multiset.notMem_zero _)⟩

theorem Dutiful.duties_eq_zero {w : World} {D : Multiset Duty} (h : Dutiful w D)
    (hid : w.sqlite.recorded id = false) : D.filter (fun q => q.about = some id) = 0 := by
  refine Multiset.filter_eq_nil.mpr (fun q hq habout => ?_)
  have habsent := h.sane.absent id hid
  have htoken : ∀ k s, q.token = .hold k s → k.identity ≠ id := by
    rintro k s htoken rfl
    have hmem : s ∈ (view k.identity w (D.map Duty.token)).stages k.jobId := by
      refine mem_stagesOf.mpr (Multiset.mem_add.mpr (.inr (mem_threads.mpr ?_)))
      rw [← htoken]
      exact Multiset.mem_map_of_mem _ hq
    rw [habsent.stages] at hmem
    exact Multiset.notMem_zero _ hmem
  have hhold : q.token.about = some id → False := fun htoken' => by
    cases hq' : q.token with
    | hold k s =>
        rw [hq'] at htoken'
        exact htoken k s hq' (Option.some.inj htoken')
    | _ =>
        rw [hq'] at htoken'
        cases htoken'
  cases q with
  | repair id' =>
      cases habout
      rw [h.repairs id hq] at hid
      cases hid
  | _ => exact hhold habout

/-- No job of the request has been retried, and each may be as often as the request says. -/
def WorkflowRequest.Unretried (req : WorkflowRequest) (client : ClientConfig)
    (ks : WorkflowKeyspace) : Prop :=
  ∀ job ∈ req.jobs, ∃ maxRetries,
    job.maxRetries.read client.policy.maxJobRetries = some maxRetries ∧
      ∃ hash, ks.jobs job.jobId = some hash ∧ hash.currentRetryCount = some 0 ∧
        hash.maxRetries = some maxRetries

/-- An execution begins with the account of the admitted workflow, whose jobs have not been
retried. -/
theorem Executes.begins_unretried (h : Executes Plain svc req log σ) :
    ∃ client, svc.client req.clientId = some client ∧ ∃ p, svc.Plans req p ∧ ∃ σ₁,
      Attains (fun log a => log = [] ∧ Begun p a ∧ req.Unretried client a.view.space)
        req.identity [] σ₁ ∧ (engine Plain).Run σ₁ log σ := by
  obtain ⟨log₀, σ₀, w₁, hbefore, hplain, hadmits, hrun⟩ := h
  obtain ⟨client, info, linked, ready, haccepted, hrows⟩ := hadmits.accepted
  refine ⟨client, haccepted.configured, _,
    ⟨client, haccepted.configured, haccepted.wellFormed, rfl⟩, ⟨w₁, σ₀.threads⟩, ?_, hrun⟩
  obtain ⟨D, hfollows, hdutiful⟩ := run_dutiful hbefore
  have habsent := hdutiful.sane.absent _ hadmits.new
  have hfresh := haccepted.fresh ((D : Multiset Duty).map Duty.token) habsent
  refine ⟨D, hfollows, hdutiful.admitted ⟨svc, req, hplain, hadmits⟩, hfresh.recorded, rfl, ⟨hfresh,
    hrows.workflow, fun j hj => ?_, fun j => ?_, hdutiful.duties_eq_zero hadmits.new⟩,
    fun job hjob => ?_⟩
  · obtain ⟨d, hd, rfl⟩ := List.mem_map.mp (haccepted.mem_order hj)
    obtain ⟨st, hst, hkind⟩ := hrows.jobs d hd
    refine ⟨st, hst, ?_⟩
    rcases hkind with rfl | rfl | rfl <;> rfl
  · refine SortedSet.score_eq_none (fun hmem => ?_)
    have hwait : Stage.retryWait ∈ (view req.identity w₁ ((D : Multiset Duty).map
        Duty.token)).stages j :=
      mem_stagesOf.mpr ((mem_holdings_retryWait (hdutiful.sane.threaded)).mpr hmem)
    cases hfresh.mem_stages hwait
  · rw [show (account req.identity w₁ D).view.space = _ from haccepted.space_eq habsent]
    exact haccepted.planned.attempts hjob

/-- The rule for properties of every execution that speak of its account: the property holds of the
admitted workflow, and each served call keeps it, as long as the calls served are good ones. -/
theorem Executes.turns (h : Executes Plain svc req log σ) :
    ∃ p, svc.Plans req p ∧ ∀ (I : Log → Account → Prop) (good : Event Call World Env → Prop),
        (∀ a, Begun p a → I [] a) →
        (∀ log ev a a', good ev → I log a → Turns ev req.identity a a' → I (log ++ [ev]) a') →
        (∀ ev ∈ log, good ev) → Attains I req.identity log σ := by
  obtain ⟨client, -, p, hp, σ₁, hbegins, hrun⟩ := h.begins_unretried
  refine ⟨p, hp, fun I good hbegin hstep hgood => ?_⟩
  obtain ⟨D, hfollows, hdutiful, hrecorded, -, hbegun, -⟩ := hbegins
  exact Attains.run ⟨D, hfollows, hdutiful, hrecorded, hbegin _ hbegun⟩ hrun hstep hgood

/-- The same rule for executions in which every command succeeds, where the workflow is tidy. -/
theorem Executes.accounts (h : Executes Plain svc req log σ) (hok : Answered log) :
    ∃ p, svc.Plans req p ∧ ∀ (I : Log → Account → Prop) (good : Event Call World Env → Prop),
        (∀ a, Begun p a → I [] a) →
        (∀ log ev a a', ev.env.ok = true → good ev → Tidy p (credits req.identity log) a.view →
          Tidy p (credits req.identity (log ++ [ev])) a'.view → I log a →
          Turns ev req.identity a a' →
          Serves p (credits req.identity log) ev req.identity a.view a'.view →
          I (log ++ [ev]) a') →
        (∀ ev ∈ log, good ev) →
        Attains (fun log a => Tidy p (credits req.identity log) a.view ∧ I log a)
          req.identity log σ := by
  obtain ⟨p, hp, hrule⟩ := h.turns
  refine ⟨p, hp, fun I good hbegin hstep hgood => ?_⟩
  refine hrule _ (fun ev => ev.env.ok = true ∧ good ev)
    (fun a ha => ⟨ha.fresh.tidy, hbegin a ha⟩) (fun log ev a a' hev hI hturns => ?_)
    (fun ev hev => ⟨hok ev hev, hgood ev hev⟩)
  obtain ⟨htidy, hI⟩ := hI
  obtain ⟨htidy', hserves⟩ := htidy.takes hev.1 hturns.takes
  exact ⟨htidy', hstep log ev a a' hev.1 hev.2 htidy htidy' hI hturns hserves⟩

end Executions

end FlowPilot
