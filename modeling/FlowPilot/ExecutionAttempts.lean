import FlowPilot.BaseClaims
import FlowPilot.ExecutionAccounts
import FlowPilot.ExecutionSlots
import FlowPilot.WorkflowAttempts

/-! How often a job is started, and when. Every job has at most one holder; the history of its starts,
of its retries and of the retry handler's passes is followed next to that invariant. A job is started
once more than it is put off at most, is put off while its retry count allows it, and starts again only
after the retry handler took it from the retry set when it was due. The stores may fail at any call. -/

namespace FlowPilot

/-! ## The history of a job -/

namespace JobKey

/-- The event moves the job to RUNNING. -/
def StartedBy (k : JobKey) (ev : Event Call World Env) : Prop :=
  (ev.world.redis.workflows k.identity).jobStatus k.jobId ≠ some .running ∧
    (after ev k.identity).jobStatus k.jobId = some .running

instance (k : JobKey) (ev : Event Call World Env) : Decidable (k.StartedBy ev) :=
  inferInstanceAs (Decidable (_ ∧ _))

/-- `schedule_job_retry_async` puts the job off until the time `retryAtMs`. -/
def DelayedBy (k : JobKey) (retryAtMs : Int) (ev : Event Call World Env) : Prop :=
  (∃ n, ev.call = .scheduleJobRetry k n retryAtMs) ∧ ev.env.ok = true

/-- `dequeue_due_job_retry_async` returns the job, not before the time `retryAtMs`. -/
def DequeuedBy (k : JobKey) (retryAtMs : Int) (ev : Event Call World Env) : Prop :=
  ev.call = .dequeueDueJobRetry ∧ ev.env.ok = true ∧
    (ev.world.redis.dequeueDueJobRetry ev.env.nowMs).1 = some k ∧ retryAtMs ≤ ev.env.nowMs

/-- The job was put off until the time `retryAtMs` and has not been started since. -/
def PutOff (k : JobKey) (retryAtMs : Int) (log : Log) : Prop :=
  ∃ l₁ ev l₂, log = l₁ ++ ev :: l₂ ∧ k.DelayedBy retryAtMs ev ∧ ∀ ev' ∈ l₂, ¬ k.StartedBy ev'

/-- The job was put off, was dequeued when it was due, and has not been started since. -/
def Waited (k : JobKey) (log : Log) : Prop :=
  ∃ l₁ ev l₂ retryAtMs, log = l₁ ++ ev :: l₂ ∧ k.PutOff retryAtMs l₁ ∧ k.DequeuedBy retryAtMs ev ∧
    ∀ ev' ∈ l₂, ¬ k.StartedBy ev'

/-- Every start of the job but the first comes after a retry that was waited for. -/
def Spaced (k : JobKey) (log : Log) : Prop :=
  ∀ l₁ ev l₂, log = l₁ ++ ev :: l₂ → k.StartedBy ev → (∃ ev' ∈ l₁, k.StartedBy ev') → k.Waited l₁

def starts (k : JobKey) (log : Log) : Nat := log.countP (fun ev => decide (k.StartedBy ev))

section History

variable {k : JobKey} {log : Log} {ev : Event Call World Env} {retryAtMs : Int}

theorem starts_append_of_not (h : ¬ k.StartedBy ev) : k.starts (log ++ [ev]) = k.starts log := by
  rw [starts, List.countP_append, List.countP_singleton, if_neg (by simpa using h)]
  rfl

theorem starts_append (h : k.StartedBy ev) : k.starts (log ++ [ev]) = k.starts log + 1 := by
  rw [starts, List.countP_append, List.countP_singleton, if_pos (decide_eq_true h)]
  rfl

theorem starts_eq_zero_iff : k.starts log = 0 ↔ ∀ ev ∈ log, ¬ k.StartedBy ev := by
  rw [starts, List.countP_eq_zero]
  simp only [decide_eq_true_eq]

theorem putOff_append (h : k.DelayedBy retryAtMs ev) : k.PutOff retryAtMs (log ++ [ev]) :=
  ⟨log, ev, [], rfl, h, fun _ hmem => absurd hmem List.not_mem_nil⟩

theorem PutOff.append (h : k.PutOff retryAtMs log) (hev : ¬ k.StartedBy ev) :
    k.PutOff retryAtMs (log ++ [ev]) := by
  obtain ⟨l₁, ev₁, l₂, rfl, hdelayed, hnone⟩ := h
  refine ⟨l₁, ev₁, l₂ ++ [ev], by simp, hdelayed, fun ev' hev' => ?_⟩
  rcases List.mem_append.mp hev' with hev' | hev'
  · exact hnone ev' hev'
  · exact List.mem_singleton.mp hev' ▸ hev

theorem PutOff.dequeued (h : k.PutOff retryAtMs log) (hev : k.DequeuedBy retryAtMs ev) :
    k.Waited (log ++ [ev]) :=
  ⟨log, ev, [], retryAtMs, rfl, h, hev, fun _ hmem => absurd hmem List.not_mem_nil⟩

theorem Waited.append (h : k.Waited log) (hev : ¬ k.StartedBy ev) : k.Waited (log ++ [ev]) := by
  obtain ⟨l₁, ev₁, l₂, retryAtMs, rfl, hput, hdequeued, hnone⟩ := h
  refine ⟨l₁, ev₁, l₂ ++ [ev], retryAtMs, by simp, hput, hdequeued, fun ev' hev' => ?_⟩
  rcases List.mem_append.mp hev' with hev' | hev'
  · exact hnone ev' hev'
  · exact List.mem_singleton.mp hev' ▸ hev

theorem Spaced.append (h : k.Spaced log) (hev : k.StartedBy ev → k.starts log = 0 ∨ k.Waited log) :
    k.Spaced (log ++ [ev]) := by
  intro l₁ ev₁ l₂ heq hstarted hearlier
  rcases List.eq_nil_or_concat l₂ with rfl | ⟨l₂, ev₂, rfl⟩
  · obtain ⟨rfl, hlast⟩ := List.append_inj' heq rfl
    cases hlast
    refine (hev hstarted).resolve_left (fun hnone => ?_)
    obtain ⟨ev', hmem, hstarted'⟩ := hearlier
    exact starts_eq_zero_iff.mp hnone ev' hmem hstarted'
  · rw [List.concat_eq_append, ← List.cons_append, ← List.append_assoc] at heq
    obtain ⟨rfl, -⟩ := List.append_inj' heq rfl
    exact h l₁ ev₁ l₂ rfl hstarted hearlier

end History

end JobKey

/-! ## The retry set -/

section Retries

variable {c : Call} {e : Env} {w : World} {k : JobKey} {retryAtMs : Int}

theorem Redis.enqueue_jobRetryStream (r : Redis) (id : WorkflowIdentity)
    (p : Option (String × Int)) : (r.enqueue id p).jobRetryStream = r.jobRetryStream := by
  cases p <;> rfl

theorem retryScore_dropCanceled {r : Redis} {id : WorkflowIdentity}
    {canceled : List (String × JobStatus)}
    (h : (r.dropCanceled id canceled).jobRetryStream.score k = some retryAtMs) :
    r.jobRetryStream.score k = some retryAtMs := by
  induction canceled generalizing r with
  | nil => exact h
  | cons c rest ih =>
      obtain ⟨j, st⟩ := c
      rw [Redis.dropCanceled, List.foldl_cons] at h
      dsimp only at h
      split at h
      · exact ih (r := { r with executionQueue := r.executionQueue.remove ⟨id, j⟩ }) h
      · split at h
        · exact SortedSet.score_of_score_remove
            (ih (r := { r with jobRetryStream := r.jobRetryStream.remove ⟨id, j⟩ }) h)
        · exact ih h

theorem retryScore_exec (h : (c.exec e w).2.redis.jobRetryStream.score k = some retryAtMs) :
    w.redis.jobRetryStream.score k = some retryAtMs ∨ k.DelayedBy retryAtMs ⟨w, c, e⟩ := by
  rw [Call.exec] at h
  split at h
  swap
  · exact .inl h
  rename_i hok
  cases c with
  | scheduleJobRetry k' n τ =>
      have hretry : ((Call.scheduleJobRetry k' n τ).carryOut e w).2.redis.jobRetryStream =
          w.redis.jobRetryStream.add k' τ := Redis.enqueue_jobRetryStream ..
      rw [hretry] at h
      by_cases hk : k = k'
      · subst hk
        rw [SortedSet.score_add_self] at h
        cases h
        exact .inr ⟨⟨n, rfl⟩, (Bool.or_false _).symm.trans hok⟩
      · rw [SortedSet.score_add_of_ne _ hk] at h
        exact .inl h
  | dequeueDueJobRetry =>
      simp only [Call.carryOut, Call.onRedis, Redis.dequeueDueJobRetry] at h
      split at h
      · exact .inl h
      · exact .inl (SortedSet.score_of_score_remove h)
  | removeFromRetryStream x => exact .inl (SortedSet.score_of_score_remove h)
  | completeSuccessfulJob k' =>
      have hsame : ((Call.completeSuccessfulJob k').carryOut e w).2.redis.jobRetryStream =
          w.redis.jobRetryStream := Redis.enqueue_jobRetryStream ..
      exact .inl (hsame ▸ h)
  | promoteRetryJob k' =>
      have hsame : ((Call.promoteRetryJob k').carryOut e w).2.redis.jobRetryStream =
          w.redis.jobRetryStream := Redis.enqueue_jobRetryStream ..
      exact .inl (hsame ▸ h)
  | completeFailedJob k' n js => exact .inl (retryScore_dropCanceled (r := Redis.setWorkflow ..) h)
  | popExecutionQueue =>
      simp only [Call.carryOut, Call.onRedis, Redis.popExecutionQueue] at h
      split at h <;> exact .inl h
  | dequeueJobCompletion =>
      simp only [Call.carryOut, Call.onRedis, Redis.dequeueJobCompletion] at h
      split at h <;> exact .inl h
  | admitRequest args =>
      have hsame : ((Call.admitRequest args).carryOut e w).2.redis.jobRetryStream =
          w.redis.jobRetryStream :=
        Redis.admitRequest_apart Redis.jobRetryStream (fun _ _ => rfl) (fun _ _ => rfl)
          (fun _ _ => rfl) w.redis e.redisTime args
      exact .inl (hsame ▸ h)
  | _ => exact .inl h

end Retries

/-! ## One step -/

/-- What is known of the attempts of a job while its workflow is READY or RUNNING. -/
structure Attempted (k : JobKey) (maxRetries : Int) (log : Log) (a : Account) : Prop where
  spent : ∀ st, a.view.jobStatus k.jobId = some st → st.isTerminal = false →
    ∃ n : Int, a.view.space.attempts k.jobId = (some n, some maxRetries) ∧ n ≤ max 0 maxRetries ∧
      (k.starts log : Int) ≤ n + if st = .running then 1 else 0
  judged : ∀ s r, .judging k s r ∈ a.duties → r.2.currentRetryCount < r.2.maxRetries →
    ∀ st, a.view.jobStatus k.jobId = some st → st.isTerminal = false →
      a.view.space.attempts k.jobId = (some r.2.currentRetryCount, some r.2.maxRetries)
  early : ∀ st, a.view.jobStatus k.jobId = some st → st.isBeforeStart = true →
    k.starts log = 0 ∨ k.Waited log
  putOff : ∀ retryAtMs, a.retryAt k.jobId = some retryAtMs → k.PutOff retryAtMs log
  held : .retryHeld ∈ a.view.stages k.jobId → k.Waited log

section Inversions

variable {c : Call} {e : Env} {w : World} {k : JobKey} {s : Stage} {q : Duty} {D : Multiset Duty}
  {r : Bool × JobRuntimeData}

theorem Duty.Moves.judging (h : Duty.Moves c (c.exec e w).1 q (.judging k s r)) :
    q = .judging k s r ∨ (r = ((Call.fetchJobRuntime k).exec e w).1 ∧ ¬ torn r) := by
  generalize hreply : (c.exec e w).1 = reply at h
  generalize hq' : Duty.judging k s r = q' at h
  cases h with
  | clock => cases hq'; exact .inl rfl
  | judge k' hs reply =>
      rw [afterRuntime] at hq'
      split at hq'
      · cases hq'
      · rename_i htorn
        cases hq'
        exact .inr ⟨hreply.symm, htorn⟩
  | clean hc h calls => cases calls <;> cases hq'
  | _ => cases hq'

theorem attempts_of_judged (hr : r = ((Call.fetchJobRuntime k).exec e w).1) (htorn : ¬ torn r)
    (hmore : r.2.currentRetryCount < r.2.maxRetries) :
    (w.redis.workflows k.identity).attempts k.jobId =
      (some r.2.currentRetryCount, some r.2.maxRetries) := by
  have hread : r.1 = true := by
    by_contra hfalse
    exact htorn ⟨Bool.eq_false_of_not_eq_true hfalse, hmore⟩
  rw [Call.exec] at hr
  split at hr
  · refine WorkflowKeyspace.attempts_of_fetchJobRuntime (d := r.2) ?_
    rw [← hread, hr]
    rfl
  · rw [hr] at hread
    cases hread

theorem Duty.Moves.retries {n retryAtMs : Int} {q' : Duty} {reply : Option (Option String)}
    (h : Duty.Moves (.scheduleJobRetry k n retryAtMs) reply q q') (hq : q.token ≠ .stuck) :
    ∃ st r, q = .judging k (.reported st) r ∧ q' = .plain .idle ∧ n = r.2.currentRetryCount + 1 ∧
      n ≤ r.2.maxRetries := by
  cases h with
  | plain h hc =>
      cases hc with
      | stuck => exact absurd rfl hq
      | passing _ hc => cases hc
  | retry k hst hn hmax => exact ⟨_, _, rfl, rfl, hn, hmax⟩
  | repairs id c hc => cases hc
  | clean hc => cases hc

theorem Move.retryHeld {t t' : Token} (h : Move c (c.exec e w).1 t t')
    (ht' : t' = .hold k .retryHeld) :
    c = .dequeueDueJobRetry ∧ (Call.dequeueDueJobRetry.exec e w).1 = some k := by
  generalize hreply : (c.exec e w).1 = reply at h
  cases h with
  | due k' =>
      cases ht'
      exact ⟨rfl, hreply⟩
  | payload k' size _ r =>
      rw [Stage.ofPayload] at ht'
      split at ht' <;> cases ht'
  | start k' r => cases r <;> cases ht'
  | runtime | brokenRuntime =>
      rw [Token.afterRuntime] at ht'
      split at ht' <;> cases ht'
  | startWorkflow k b | startJob k b | countedJob k y l b | countedWorkflow k y l b
  | countedReady k y q l b | countedRelease k l b | countedDeleteWorkflow k l b
  | countedDeleteWaiting k l b => cases b <;> cases ht'
  | countedList k l r => cases r <;> cases ht'
  | _ => cases ht'

theorem retryScore_of_dequeued (h : (Call.dequeueDueJobRetry.exec e w).1 = some k) :
    ∃ retryAtMs, w.redis.jobRetryStream.score k = some retryAtMs ∧
      k.DequeuedBy retryAtMs ⟨w, .dequeueDueJobRetry, e⟩ := by
  rw [Call.exec] at h
  split at h
  · rename_i hok
    have hdue : (w.redis.dequeueDueJobRetry e.nowMs).1 = some k := h
    have hfound := hdue
    rw [Redis.dequeueDueJobRetry] at hfound
    split at hfound
    · cases hfound
    · rename_i k' retryAtMs hleast
      cases hfound
      obtain ⟨hscore, hle⟩ := SortedSet.leastUpTo_score hleast
      exact ⟨retryAtMs, hscore, rfl, (Bool.or_false _).symm.trans hok, hdue, hle⟩
  · cases h

end Inversions

section Steps

variable {p : Plan} {k : JobKey} {maxRetries : Int} {log : Log} {ev : Event Call World Env}
  {a a' : Account} {v : WorkflowView} {i : String}

/-- A job that has not ended after a step had not ended before it, and a running one still runs. -/
theorem Advances.unended {o : Option JobStatus} {st' : JobStatus} (h : Advances v i o)
    (ho : o = some st') (hopen : st'.isTerminal = false) :
    ∃ st, v.jobStatus i = some st ∧ st.isTerminal = false ∧ (st = .running → st' = .running) := by
  cases h with
  | same => exact ⟨st', ho, hopen, id⟩
  | ahead hst hbefore =>
      refine ⟨_, hst, JobStatus.isTerminal_of_isBeforeStart hbefore, fun hrun => ?_⟩
      rw [hrun] at hbefore
      cases hbefore
  | due _ hst => exact ⟨_, hst, rfl, nofun⟩
  | started _ hst => exact ⟨_, hst, rfl, nofun⟩
  | ended hended =>
      cases ho
      cases hended.symm.trans hopen

theorem Turns.tracks (h : Turns ev k.identity a a') (hs : Strong p a.view) :
    Tracks (served ev.call ev.env ev.world) a.view k.jobId a'.view.space := by
  rcases h.takes.simulated with ⟨heq, -⟩ | ⟨-, hstep⟩
  · rw [heq]
    exact .kept rfl .same
  · exact hs.tracks hstep k.jobId

theorem Turns.startedBy_iff (h : Turns ev k.identity a a') : k.StartedBy ev ↔
    a.view.jobStatus k.jobId ≠ some .running ∧ a'.view.jobStatus k.jobId = some .running := by
  rw [JobKey.StartedBy, ← h.takes.before, ← h.takes.after]
  rfl

theorem Turns.started (h : Turns ev k.identity a a') (hs : Strong p a.view)
    (hev : k.StartedBy ev) : a.view.stages k.jobId = {.dispatched} ∧
      a.view.jobStatus k.jobId = some .pendingExecution := by
  obtain ⟨hbefore, hafter⟩ := h.startedBy_iff.mp hev
  rcases h.takes.simulated with ⟨heq, -⟩ | ⟨-, hstep⟩
  · exact absurd (heq ▸ hafter) hbefore
  · obtain ⟨hmem, hst⟩ := hs.started hstep hbefore hafter
    obtain ⟨-, hstages, -⟩ := hs.tokens.of_mem hmem
    exact ⟨hstages, hst⟩

theorem Call.eq_of_retry {c : Call} {e : Env} (h : labelOf c e = .retry i) :
    ∃ k n retryAtMs, c = .scheduleJobRetry k n retryAtMs ∧ k.jobId = i := by
  cases c <;> cases h
  exact ⟨_, _, _, rfl, rfl⟩

theorem space_scheduleJobRetry (k : JobKey) (n retryAtMs : Int) (e : Env) (w : World) :
    ((Call.scheduleJobRetry k n retryAtMs).exec e w).2.redis.workflows k.identity =
      if e.ok = true then ((w.redis.workflows k.identity).scheduleJobRetry k.jobId n).2
      else w.redis.workflows k.identity := by
  have hlocal : (e.ok || (Call.scheduleJobRetry k n retryAtMs).isLocal) = e.ok := Bool.or_false _
  rw [Call.exec, hlocal]
  split
  · exact (congrFun (Redis.enqueue_workflows ..) _).trans (Function.update_self ..)
  · rfl

theorem Dutiful.judging_alone {w : World} {q : Duty} {D : Multiset Duty} {s s' : Stage}
    {r : Bool × JobRuntimeData} (hs : Strong p (account k.identity w (q ::ₘ D)).view)
    (hq : q.token = .hold k s) : .judging k s' r ∉ D := by
  intro hmem
  have hstages : (account k.identity w (q ::ₘ D)).view.stages k.jobId =
      s ::ₘ (account k.identity w D).view.stages k.jobId := by
    rw [account, Multiset.map_cons, hq]
    exact view_hold_stages ..
  obtain ⟨hrest, -⟩ := hs.tokens.head hstages
  have hother : s' ∈ (account k.identity w D).view.stages k.jobId := account_stage hmem rfl rfl
  rw [hrest] at hother
  exact Multiset.notMem_zero _ hother

section Turn

variable (h : Turns ev k.identity a a')

include h

/-- A job is put off by the handler that judged it, and its count goes up by one. -/
theorem Turns.retried (hs : Strong p a.view) (hx : labelOf ev.call ev.env = .retry k.jobId)
    (hst : a.view.jobStatus k.jobId = some .running)
    (hst' : a'.view.space.jobStatus k.jobId = some .retryDelay) :
    ∃ s r, .judging k s r ∈ a.duties ∧ r.2.currentRetryCount + 1 ≤ r.2.maxRetries ∧
      a'.view.space.attempts k.jobId =
        (some (r.2.currentRetryCount + 1), (a.view.space.attempts k.jobId).2) ∧
      ∀ s' r', .judging k s' r' ∉ a'.duties := by
  have hsim := h.takes.simulated
  have hsees : Sees ev.call k.identity := by
    rcases hsim with ⟨heq, -⟩ | ⟨hsees, -⟩
    · rw [heq] at hst'
      cases hst.symm.trans hst'
    · exact hsees
  obtain ⟨w, c, e⟩ := ev
  obtain ⟨q, q', D, hdutiful, hmove, rfl, rfl⟩ := h
  obtain ⟨k', n, retryAtMs, rfl, hjob⟩ := Call.eq_of_retry hx
  have hk : k' = k := by
    rcases hsees with hnone | hself
    · cases hnone
    · obtain ⟨id, j⟩ := k'
      cases hself
      cases hjob
      rfl
  subst hk
  have hunstuck : q.token ≠ .stuck := fun hq => hdutiful.sane.unstuck (by
    rw [← hq]
    exact Multiset.mem_map_of_mem _ (Multiset.mem_cons_self ..))
  obtain ⟨st, r, rfl, rfl, rfl, hmax⟩ := hmove.retries hunstuck
  refine ⟨.reported st, r, account_duty (Multiset.mem_cons_self ..) rfl, hmax, ?_, ?_⟩
  · replace hst' : (((Call.scheduleJobRetry k' (r.2.currentRetryCount + 1) retryAtMs).exec e
        w).2.redis.workflows k'.identity).jobStatus k'.jobId = some .retryDelay := hst'
    change (((Call.scheduleJobRetry k' (r.2.currentRetryCount + 1) retryAtMs).exec e
      w).2.redis.workflows k'.identity).attempts k'.jobId = _
    rw [space_scheduleJobRetry] at hst' ⊢
    split at hst'
    · rename_i hok
      rw [if_pos hok]
      exact WorkflowKeyspace.attempts_scheduleJobRetry_self ..
    · cases hst.symm.trans hst'
  · intro s' r' hmem
    have hother := (Multiset.mem_cons.mp (Multiset.mem_filter.mp hmem).1).resolve_left nofun
    exact Dutiful.judging_alone hs rfl hother

theorem Turns.judging {s : Stage} {r : Bool × JobRuntimeData}
    (hmem : .judging k s r ∈ a'.duties) : .judging k s r ∈ a.duties ∨
      (r.2.currentRetryCount < r.2.maxRetries → a.view.space.attempts k.jobId =
        (some r.2.currentRetryCount, some r.2.maxRetries)) := by
  obtain ⟨q, q', D, hdutiful, hmove, rfl, rfl⟩ := h
  rcases Multiset.mem_cons.mp (Multiset.mem_filter.mp hmem).1 with rfl | hother
  · rcases hmove.judging with rfl | ⟨hread, htorn⟩
    · exact .inl (account_duty (Multiset.mem_cons_self ..) rfl)
    · exact .inr (attempts_of_judged hread htorn)
  · exact .inl (account_duty (Multiset.mem_cons_of_mem hother) rfl)

theorem Turns.retryAt {retryAtMs : Int} (hscore : a'.retryAt k.jobId = some retryAtMs) :
    a.retryAt k.jobId = some retryAtMs ∨ k.DelayedBy retryAtMs ev := by
  obtain ⟨q, q', D, -, -, rfl, rfl⟩ := h
  exact retryScore_exec hscore

theorem Turns.retryWait {retryAtMs : Int} (hscore : a.retryAt k.jobId = some retryAtMs) :
    .retryWait ∈ a.view.stages k.jobId := by
  obtain ⟨q, q', D, hdutiful, -, rfl, -⟩ := h
  refine mem_stagesOf.mpr ((mem_holdings_retryWait hdutiful.sane.threaded).mpr ?_)
  by_contra hnot
  cases (SortedSet.score_eq_none hnot).symm.trans hscore

theorem Turns.retryHeld (hmem : .retryHeld ∈ a'.view.stages k.jobId) :
    .retryHeld ∈ a.view.stages k.jobId ∨
      ∃ retryAtMs, a.retryAt k.jobId = some retryAtMs ∧ k.DequeuedBy retryAtMs ev := by
  obtain ⟨w, c, e⟩ := ev
  obtain ⟨q, q', D, -, hmove, rfl, rfl⟩ := h
  have htoken := mem_holdings_retryHeld.mp (mem_stagesOf.mp hmem)
  rw [Multiset.map_cons] at htoken
  rcases Multiset.mem_cons.mp htoken with hself | hother
  · obtain ⟨rfl, hreply⟩ := hmove.move.retryHeld hself.symm
    exact .inr (retryScore_of_dequeued hreply)
  · refine .inl (mem_stagesOf.mpr (mem_holdings_retryHeld.mpr ?_))
    rw [Multiset.map_cons]
    exact Multiset.mem_cons_of_mem hother

variable (hs : Strong p a.view) (ha : Attempted k maxRetries log a)

include hs ha

theorem Attempted.spent_step {st : JobStatus} (hst : a'.view.jobStatus k.jobId = some st)
    (hopen : st.isTerminal = false) :
    ∃ n : Int, a'.view.space.attempts k.jobId = (some n, some maxRetries) ∧ n ≤ max 0 maxRetries ∧
      (k.starts (log ++ [ev]) : Int) ≤ n + if st = .running then 1 else 0 := by
  cases h.tracks hs with
  | kept hsame hadvances =>
      obtain ⟨st₀, hst₀, hopen₀, hrun⟩ := hadvances.unended hst hopen
      obtain ⟨n, hn, hle, hcount⟩ := ha.spent st₀ hst₀ hopen₀
      refine ⟨n, hsame.trans hn, hle, ?_⟩
      by_cases hev : k.StartedBy ev
      · obtain ⟨-, hpending⟩ := h.started hs hev
        cases hst₀.symm.trans hpending
        cases hst.symm.trans (h.startedBy_iff.mp hev).2
        rw [JobKey.starts_append hev]
        simp only [reduceCtorEq, if_false, if_true] at hcount ⊢
        omega
      · rw [JobKey.starts_append_of_not hev]
        refine hcount.trans (Int.add_le_add_left ?_ n)
        split
        · rename_i hst₀
          rw [if_pos (hrun hst₀)]
        · split <;> decide
  | failed hfailed =>
      cases hst.symm.trans hfailed
      cases hopen
  | retried hx hrunning hdelayed =>
      obtain ⟨s, r, hq, hmax, hattempts, -⟩ := h.retried hs hx hrunning hdelayed
      obtain ⟨n, hn, -, hcount⟩ := ha.spent _ hrunning rfl
      cases hn.symm.trans (ha.judged s r hq (Int.lt_of_add_one_le hmax) _ hrunning rfl)
      refine ⟨_, hattempts.trans (by rw [hn]), hmax.trans (le_max_right ..), ?_⟩
      have hev : ¬ k.StartedBy ev := fun hev => (h.startedBy_iff.mp hev).1 hrunning
      rw [JobKey.starts_append_of_not hev]
      cases hst.symm.trans hdelayed
      rw [if_pos rfl] at hcount
      rw [if_neg nofun, add_zero]
      exact hcount

theorem Attempted.early_step {st : JobStatus} (hst : a'.view.jobStatus k.jobId = some st)
    (hbefore : st.isBeforeStart = true) :
    k.starts (log ++ [ev]) = 0 ∨ k.Waited (log ++ [ev]) := by
  have hev : ¬ k.StartedBy ev := fun hev => by
    cases hst.symm.trans (h.startedBy_iff.mp hev).2
    cases hbefore
  rw [JobKey.starts_append_of_not hev]
  refine (?_ : k.starts log = 0 ∨ k.Waited log).imp_right (fun hwaited => hwaited.append hev)
  cases h.tracks hs with
  | kept _ hadvances =>
      replace hst : a'.view.space.jobStatus k.jobId = some st := hst
      generalize a'.view.space.jobStatus k.jobId = o at hst hadvances
      cases hadvances with
      | same => exact ha.early st hst hbefore
      | ahead hst₀ hbefore₀ => exact ha.early _ hst₀ hbefore₀
      | due hheld => exact .inr (ha.held hheld)
      | started =>
          cases hst
          cases hbefore
      | ended hended =>
          cases hst
          cases hended.symm.trans (JobStatus.isTerminal_of_isBeforeStart hbefore)
  | failed hfailed =>
      cases hst.symm.trans hfailed
      cases hbefore
  | retried _ _ hdelayed =>
      cases hst.symm.trans hdelayed
      cases hbefore

/-- What is known of the attempts of a job is kept by every call while its workflow is not closed. -/
theorem Attempted.step : Attempted k maxRetries (log ++ [ev]) a' where
  spent := fun st hst hopen => ha.spent_step h hs hst hopen
  judged := fun s r hq hmore st hst hopen => by
    cases h.tracks hs with
    | kept hsame hadvances =>
        obtain ⟨st₀, hst₀, hopen₀, -⟩ := hadvances.unended hst hopen
        rw [hsame]
        rcases h.judging hq with hq | hread
        · exact ha.judged s r hq hmore st₀ hst₀ hopen₀
        · exact hread hmore
    | failed hfailed =>
        cases hst.symm.trans hfailed
        cases hopen
    | retried hx hrunning hdelayed =>
        obtain ⟨-, -, -, -, -, hnone⟩ := h.retried hs hx hrunning hdelayed
        exact absurd hq (hnone s r)
  early := fun st hst hbefore => ha.early_step h hs hst hbefore
  putOff := fun retryAtMs hscore => by
    rcases h.retryAt hscore with hscore | hdelayed
    · refine (ha.putOff retryAtMs hscore).append (fun hev => ?_)
      have hmem := h.retryWait hscore
      rw [(h.started hs hev).1] at hmem
      cases Multiset.mem_singleton.mp hmem
    · exact JobKey.putOff_append hdelayed
  held := fun hmem => by
    rcases h.retryHeld hmem with hmem | ⟨retryAtMs, hscore, hdequeued⟩
    · refine (ha.held hmem).append (fun hev => ?_)
      rw [(h.started hs hev).1] at hmem
      cases Multiset.mem_singleton.mp hmem
    · exact (ha.putOff retryAtMs hscore).dequeued hdequeued

theorem Attempted.starts_le (hle : (k.starts log : Int) ≤ 1 + max 0 maxRetries) :
    (k.starts (log ++ [ev]) : Int) ≤ 1 + max 0 maxRetries := by
  by_cases hev : k.StartedBy ev
  · obtain ⟨-, hpending⟩ := h.started hs hev
    obtain ⟨n, -, hn, hcount⟩ := ha.spent _ hpending rfl
    rw [if_neg nofun] at hcount
    rw [JobKey.starts_append hev]
    push_cast
    omega
  · rw [JobKey.starts_append_of_not hev]
    exact hle

end Turn

/-- The attempts of a job of a workflow, closed or not. -/
structure Paced (p : Plan) (k : JobKey) (maxRetries : Int) (log : Log) (a : Account) : Prop where
  inv : (Strong p a.view ∧ Attempted k maxRetries log a) ∨ Weak p a.view
  starts : (k.starts log : Int) ≤ 1 + max 0 maxRetries
  spaced : k.Spaced log

/-- Each call keeps the bound on the starts, and the distance between them. -/
theorem Paced.step (ha : Paced p k maxRetries log a) (h : Turns ev k.identity a a') :
    Paced p k maxRetries (log ++ [ev]) a' := by
  obtain ⟨⟨hs, hattempted⟩ | hweak, hstarts, hspaced⟩ := ha
  · refine ⟨?_, hattempted.starts_le h hs hstarts,
      hspaced.append (fun hev => hattempted.early _ (h.started hs hev).2 rfl)⟩
    rcases Simulated.inv (.inl hs) h.takes.simulated with hs' | hweak'
    · exact .inl ⟨hs', hattempted.step h hs⟩
    · exact .inr hweak'
  · have hev : ¬ k.StartedBy ev := fun hev => by
      obtain ⟨hbefore, hafter⟩ := h.startedBy_iff.mp hev
      rcases h.takes.simulated with ⟨heq, -⟩ | ⟨-, hstep⟩
      · exact hbefore (heq ▸ hafter)
      · exact hbefore (hweak.not_started hstep hafter)
    have hweak' : Weak p a'.view := by
      rcases h.takes.simulated with ⟨heq, -⟩ | ⟨-, hstep⟩
      · exact heq ▸ hweak
      · exact hweak.step hstep
    refine ⟨.inr hweak', ?_, hspaced.append (fun hstarted => absurd hstarted hev)⟩
    rw [JobKey.starts_append_of_not hev]
    exact hstarts

theorem Paced.card_stages_le (h : Paced p k maxRetries log a) : (a.view.stages k.jobId).card ≤ 1 := by
  rcases h.inv with ⟨hs, -⟩ | hweak
  · exact hs.tokens.card_le k.jobId
  · exact hweak.single k.jobId

theorem Begun.paced (h : Begun p a)
    (hattempts : a.view.space.attempts k.jobId = (some 0, some maxRetries)) :
    Paced p k maxRetries [] a := by
  have hnone : k.starts [] = 0 := rfl
  refine ⟨.inl ⟨h.fresh.strong, ?_⟩, ?_, fun l₁ ev l₂ hnil => ?_⟩
  · constructor
    · refine fun st _ _ => ⟨0, hattempts, le_max_left .., ?_⟩
      rw [hnone]
      split <;> decide
    · intro s r hq
      rw [h.duties] at hq
      exact absurd hq (Multiset.notMem_zero _)
    · exact fun _ _ _ => .inl rfl
    · intro retryAtMs hscore
      cases (h.retryAt k.jobId).symm.trans hscore
    · intro hmem
      cases h.fresh.mem_stages hmem
  · rw [hnone]
    have hmax := le_max_left 0 maxRetries
    omega
  · cases l₁ <;> cases hnil

end Steps

/-! ## Holders -/

/-- The job that a call moves on or reports. -/
def Call.actsOn : Call → Option JobKey
  | jobType k | claimJob k | fetchJobRuntime k | fetchJobPayload k | trySetJobToRunning k
  | completeSuccessfulJob k | completeFailedJob k _ _ | scheduleJobRetry k _ _
  | promoteRetryJob k => some k
  | pushLocal e | executeJob e => some e.key
  | enqueueJobCompletion e => some e.key
  | _ => none

/-- The program has the job in its hands: its next call is about the job, or one that it may make
before it takes new work, with the replies that the stores give in some run. -/
inductive Acts (k : JobKey) : Task Unit → Prop where
  | now {c : Call} {f : c.Reply → Task Unit} (hc : c.actsOn = some k) : Acts k (.call c f)
  | later {c : Call} {f : c.Reply → Task Unit} {log : Log} {σ : Pool Call Call.Reply World} {e : Env}
      (hc : c.takesWork = false) (hrun : (engine Plain).Run ⟨{}, []⟩ log σ)
      (h : Acts k (f (c.exec e σ.world).1)) : Acts k (.call c f)

open Classical in
/-- How many hold the job: the execution queue, the retry set, the local queues, the completion
stream and the suspended programs. -/
noncomputable def holders (k : JobKey) (σ : Pool Call Call.Reply World) : Nat :=
  σ.world.redis.executionQueue.members.count k + σ.world.redis.jobRetryStream.members.count k +
    (σ.world.localQueue.map JobExeData.key).count k +
    (σ.world.redis.jobCompletionStream.map JobCompletionData.key).count k +
    σ.threads.countP (fun p => decide (Acts k p))

section Holders

variable {c : Call} {t t' : Token} {k : JobKey} {s : Stage}

def Token.job : Token → Option JobKey
  | .hold k _ => some k
  | _ => none

theorem Move.job_of_actsOn {r : c.Reply} (h : Move c r t t') (hc : c.actsOn = some k)
    (ht : t ≠ .stuck) : t.job = some k := by
  cases h with
  | stuck => exact absurd rfl ht
  | sqlite _ hsql | failedSqlite _ _ _ hsql | countedDelete _ _ _ hsql | failedDelete _ _ hsql =>
      cases c <;> cases hsql <;> cases hc
  | _ => first | exact hc | cases hc

theorem Move.job_of_hold {r : c.Reply} (h : Move c r t t') (hc : c.takesWork = false)
    (ht' : t'.job = some k) : t.job = some k := by
  cases h with
  | pop | popLocal | dequeue | due => cases hc
  | runtime | brokenRuntime =>
      rw [Token.afterRuntime] at ht'
      split at ht'
      · cases ht'
      · exact ht'
  | _ => first | exact ht' | cases ht'

theorem Acts.job {p : Task Unit} (h : Acts k p) (hfollows : protocol.Follows p t)
    (ht : t ≠ .stuck) : t.job = some k := by
  induction h generalizing t with
  | @now c f hc =>
      obtain ⟨t', hmove, -⟩ := hfollows (c.exec {} {}).1
      exact Move.job_of_actsOn hmove hc ht
  | @later c f log σ e hc hrun _ ih =>
      obtain ⟨t', hmove, hrest⟩ := hfollows (c.exec e σ.world).1
      obtain ⟨toks, -, hsane⟩ := run_sane hrun
      exact Move.job_of_hold hmove hc (ih hrest (Move.ne_stuck hmove ht hsane.whole))

theorem card_stagesOf (M : Multiset Holding) (k : JobKey) :
    (stagesOf M k).card = M.countP (fun x => x.1 = k) := by
  rw [stagesOf, Multiset.card_map, Multiset.countP_eq_card_filter]

theorem countP_list {α : Type} (l : List α) (key : α → JobKey) (stage : α → Stage) (k : JobKey) :
    Multiset.countP (fun x : Holding => x.1 = k) (l.map (fun a => (key a, stage a)) : List Holding) =
      (l.map key).count k := by
  rw [Multiset.coe_countP, List.countP_map, List.count, List.countP_map]
  rfl

theorem countP_threads (T : Multiset Token) (k : JobKey) :
    (T.map Token.holdings).sum.countP (fun x => x.1 = k) = T.countP (fun t => t.job = some k) := by
  induction T using Multiset.induction_on with
  | empty => rfl
  | cons t T ih =>
      rw [Multiset.map_cons, Multiset.sum_cons, Multiset.countP_add, ih, Multiset.countP_cons,
        Nat.add_comm]
      congr 1
      cases t with
      | hold k' s =>
          rw [Token.holdings, Token.job, ← Multiset.cons_zero, Multiset.countP_cons]
          simp
      | _ => rfl

theorem holders_le {σ : Pool Call Call.Reply World} {toks : List Token}
    (hfollows : List.Forall₂ protocol.Follows σ.threads toks) (hstuck : .stuck ∉ toks) :
    holders k σ ≤ (stagesOf (holdings σ.world (toks : Multiset Token)) k).card := by
  classical
  have hunstuck : List.Forall₂ (fun p t => t ≠ Token.stuck ∧ protocol.Follows p t) σ.threads toks :=
    ((List.forall₂_and_left toks σ.threads).mpr
      ⟨fun t ht => ne_of_mem_of_not_mem ht hstuck, hfollows.flip⟩).flip
  have hthreads : σ.threads.countP (fun p => decide (Acts k p)) ≤
      toks.countP (fun t => decide (t.job = some k)) :=
    hunstuck.countP_le (fun p t hp hacts =>
      decide_eq_true ((of_decide_eq_true hacts).job hp.2 hp.1))
  rw [card_stagesOf, holdings, World.holdings, setHoldings, setHoldings, localHoldings,
    streamHoldings]
  simp only [Multiset.countP_add, countP_threads, countP_list, List.map_id']
  rw [holders]
  exact Nat.add_le_add_left hthreads _

end Holders

/-! ## Executions -/

section Executions

variable {svc : Service} {req : WorkflowRequest} {log : Log} {σ : Pool Call Call.Reply World}

theorem WorkflowRequest.Unretried.attempts {client : ClientConfig} {ks : WorkflowKeyspace}
    {job : JobRequest} (h : req.Unretried client ks) (hjob : job ∈ req.jobs) :
    ∃ maxRetries, job.maxRetries.read client.policy.maxJobRetries = some maxRetries ∧
      ks.attempts job.jobId = (some 0, some maxRetries) := by
  obtain ⟨maxRetries, hread, hash, hjobs, hcount, hlimit⟩ := h job hjob
  refine ⟨maxRetries, hread, ?_⟩
  rw [WorkflowKeyspace.attempts, hjobs, Option.getD_some, hcount, hlimit]

/-- In every execution, whatever calls fail, every job has at most one holder, it is moved to RUNNING
at most once and once more for each retry that the request allows, and each time but the first only
after it was put off and the retry handler took it from the retry set when it was due. -/
theorem attempts_exclusive_and_bounded (h : Executes Plain svc req log σ) :
    ∃ client, svc.client req.clientId = some client ∧ ∀ job ∈ req.jobs, ∃ maxRetries,
      job.maxRetries.read client.policy.maxJobRetries = some maxRetries ∧
      holders ⟨req.identity, job.jobId⟩ σ ≤ 1 ∧
      ((JobKey.mk req.identity job.jobId).starts log : Int) ≤ 1 + max 0 maxRetries ∧
      (JobKey.mk req.identity job.jobId).Spaced log := by
  obtain ⟨client, hclient, p, -, σ₁, hbegins, hrun⟩ := h.begins_unretried
  refine ⟨client, hclient, fun job hjob => ?_⟩
  obtain ⟨D₁, hfollows₁, hdutiful₁, hrecorded₁, -, hbegun, hunretried⟩ := hbegins
  obtain ⟨maxRetries, hread, hattempts⟩ := hunretried.attempts hjob
  refine ⟨maxRetries, hread, ?_⟩
  have hattains : Attains (Paced p ⟨req.identity, job.jobId⟩ maxRetries) req.identity
      ([] ++ log) σ :=
    Attains.run
      ⟨D₁, hfollows₁, hdutiful₁, hrecorded₁, hbegun.paced (k := ⟨req.identity, job.jobId⟩) hattempts⟩
      hrun (fun log ev a a' (_ : True) ha hturns => ha.step hturns) (fun _ _ => trivial)
  obtain ⟨D, hfollows, hdutiful, -, hpaced⟩ := hattains
  refine ⟨?_, hpaced.starts, hpaced.spaced⟩
  have htokens : List.Forall₂ protocol.Follows σ.threads (D.map Duty.token) :=
    List.forall₂_map_right_iff.mpr (hfollows.imp (fun _ _ hp => duties_refine.follows hp))
  exact (holders_le htokens hdutiful.sane.unstuck).trans hpaced.card_stages_le

def retriedJob : WorkflowRequest := requestOf [{ jobId := "a", maxRetries := .value 1 }]

/-- The job fails and is put off; when it is due, it is started again. -/
def failsAndStartsAgain : List Act :=
  pass .scheduler 5 ++ workerFails 4 ++ pass .completionHandler 6 ++
    .start .retryHandler :: List.replicate 3 (.serve 0 { nowMs := 100000 }) ++
    pass .scheduler 5 ++ pass .worker 3

theorem attempts_bounded_retriedJob :
    (JobKey.mk retriedJob.identity "a").starts
      (played (serviceOf 2) retriedJob failsAndStartsAgain).1 = 2 ∧
    holders ⟨retriedJob.identity, "a"⟩ (played (serviceOf 2) retriedJob failsAndStartsAgain).2 ≤ 1 ∧
    (JobKey.mk retriedJob.identity "a").Spaced
      (played (serviceOf 2) retriedJob failsAndStartsAgain).1 := by
  have hrun : Executes Plain (serviceOf 2) retriedJob _ _ :=
    executes_played failsAndStartsAgain (requestOf_plain _) (by decide +kernel)
  obtain ⟨client, -, hjobs⟩ := attempts_exclusive_and_bounded hrun
  obtain ⟨maxRetries, -, hholders, -, hspaced⟩ := hjobs _ (List.mem_singleton.mpr rfl)
  exact ⟨by decide +kernel, hholders, hspaced⟩

end Executions

end FlowPilot
