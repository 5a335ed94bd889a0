import FlowPilot.ExecutionOutcomes

/-! The final statuses of jobs in Redis. A step changes the status of a job that has not ended,
deletes a hash, or is one of two writes of a handler that reports a job as failed: the failure script
sets FAILED without a look at the status, and the handler of an ABORTED event sets ABORTED again
after it. The second one is made only after the first one has overwritten ABORTED. -/

namespace FlowPilot

open WorkflowKeyspace WorkflowView

inductive StatusStep (x : Served) (v : WorkflowView) (i : String) : Option JobStatus → Prop where
  | same : StatusStep x v i (v.jobStatus i)
  /-- a job that has not ended goes on -/
  | goesOn {st st' : JobStatus} (hst : v.jobStatus i = some st) (hopen : st.isTerminal = false) :
      StatusStep x v i (some st')
  /-- the failure script is run for a job that was stopped -/
  | overwrite {n : Int} {jobIds : List String} (hx : x.label = .fail i n jobIds)
      (hst : v.jobStatus i = some .aborted) : StatusStep x v i (some .failed)
  | mark (hx : x.label = .mark i) : StatusStep x v i (some .aborted)
  | delete (hx : x.label = .erase) : StatusStep x v i none

section Statuses

variable {p : Plan} {L l : List String} {x : Served} {v v' : WorkflowView} {i j : String}
  {ks : WorkflowKeyspace}

theorem StatusStep.setJob {st' : JobStatus} (hself : StatusStep x v j (some st'))
    (hstatus : ∀ i, ks.jobStatus i = if i = j then some st' else v.jobStatus i) (i : String) :
    StatusStep x v i (ks.jobStatus i) := by
  rw [hstatus i]
  split
  · rename_i hij
    exact hij ▸ hself
  · exact .same

theorem StatusStep.promoteWaiting (hstep : StatusStep x v i (ks.jobStatus i))
    (hwaiting : i ∈ ks.waitingReady.members →
      ∃ st, v.jobStatus i = some st ∧ st.isTerminal = false) :
    StatusStep x v i (ks.promoteWaiting.2.jobStatus i) := by
  refine promoteWaiting_rule (P := fun ks => StatusStep x v i (ks.jobStatus i)) hstep
    (fun k hk => ?_)
  rw [jobStatus_queueWaiting]
  split
  · rename_i hik
    obtain ⟨st, hst, hopen⟩ := hwaiting (hik ▸ hk)
    exact .goesOn hst hopen
  · exact hstep

theorem StatusStep.finish {ready : List String} (hst : v.jobStatus j = some .running)
    (hfinished : Finished j v.space ready ks) (i : String) :
    StatusStep x v i (ks.jobStatus i) := by
  by_cases hij : i = j
  · rw [hij, hfinished.self]
    exact .goesOn hst rfl
  · rw [hfinished.jobStatus i hij]
    split
    · rename_i hlast
      exact .goesOn hlast.2.1 rfl
    · exact .same

theorem Orderly.open_of_waiting (h : Orderly p L v) (hi : i ∈ v.space.waitingReady.members) :
    ∃ st, v.jobStatus i = some st ∧ st.isTerminal = false :=
  ⟨.ready, (h.waiting i).mp hi, rfl⟩

/-- The only ways in which the Redis status of a job changes. -/
theorem Tidy.statusStep (h : Tidy p L v) (hstep : TidyStep p L x v l v') (i : String) :
    StatusStep x v i (v'.jobStatus i) := by
  cases hstep with
  | move | drop | expire | releaseCounted | releaseFailed | deleteCounted | deleteFailed =>
      exact .same
  | claim hx hj hs hst =>
      exact .setJob (.goesOn hst rfl) (v.space.setJobStatus_jobStatus _ · _) i
  | first hx hj hs hst hwf hcounters hsame =>
      exact .setJob (.goesOn hst rfl) (fun i => (hsame.jobStatus i).trans
        (jobStatus_setJob ..)) i
  | @again j now hx hj hs hst =>
      exact .setJob (.goesOn hst rfl) (v.space.jobStatus_setJob (fun h =>
        { h with status := some .running, startRunTime := some now }) · j) i
  | cancel hx hj hs hst =>
      exact .setJob (.goesOn hst rfl) (v.space.setJobStatus_jobStatus _ · _) i
  | last hx hj hs hst hwf hfinished => exact .finish hst hfinished i
  | success hx hj hs hst hwf hfinished => exact .finish hst hfinished i
  | @successPromote j now ks ready hx hj hs hst hwf hfinished =>
      rw [WorkflowView.jobStatus, enqueue_space]
      refine .promoteWaiting (.finish hst hfinished i) (fun hmem => ?_)
      rcases (hfinished.waiting i).mp hmem with hmem | ⟨-, -, hlast⟩
      · exact h.orderly.open_of_waiting hmem
      · exact ⟨.pending, hlast.1, rfl⟩
  | @fail j jobIds st n outcome ks hx hj hs hst hwf hfailed =>
      rw [WorkflowView.jobStatus, dropCanceled_space]
      by_cases hij : i = j
      · have hself : ks.jobStatus i = some .failed := hij ▸ hfailed.self
        exact hself ▸ .goesOn (hij ▸ hst) rfl
      · have hother := hfailed.jobStatus i hij
        split at hother
        · rename_i hcanceled
          obtain ⟨st, hst, hwait⟩ := (Option.any_eq_true _ _).mp hcanceled.2
          exact hother ▸ .goesOn hst (JobStatus.not_isTerminal_of_isWaitingToRun hwait)
        · exact hother ▸ .same
  | failAgain hx hj hs hst hkind hwf hfailed =>
      refine .setJob ?_ hfailed.jobStatus i
      rcases hkind with rfl | rfl
      · exact .goesOn hst rfl
      · exact .overwrite hx hst
  | retry hx hj hs hst =>
      exact .setJob (.goesOn hst rfl) (jobStatus_delayJob _ · _ v.space) i
  | retryPromote hx hj hs hst =>
      rw [WorkflowView.jobStatus, enqueue_space]
      refine .promoteWaiting ?_ h.orderly.open_of_waiting
      exact .setJob (.goesOn hst rfl) (jobStatus_delayJob _ · _ v.space) i
  | requeue hx hj hs hst =>
      exact .setJob (.goesOn hst rfl) (v.space.setJobStatus_jobStatus _ · _) i
  | wait hx hj hs hst =>
      exact .setJob (.goesOn hst rfl) (v.space.setJobStatus_jobStatus _ · _) i
  | @waitPromote j hx hj hs hst =>
      rw [WorkflowView.jobStatus, enqueue_space]
      refine .promoteWaiting ?_ (fun hmem => ?_)
      · exact .setJob (.goesOn hst rfl) (v.space.setJobStatus_jobStatus j · .ready) i
      · rcases (SortedSet.mem_members_add ..).mp hmem with rfl | hmem
        · exact ⟨_, hst, rfl⟩
        · exact h.orderly.open_of_waiting hmem
  | strand hx hj hs hst =>
      exact .setJob (.goesOn hst rfl) (v.space.setJobStatus_jobStatus _ · _) i
  | abort hj hs hst =>
      refine .setJob ?_ (v.space.setJobStatus_jobStatus _ · _) i
      exact hst ▸ .same
  | mark hx => exact .setJob (.mark hx) (v.space.setJobStatus_jobStatus _ · _) i
  | erase _ _ _ herased hx =>
      cases herased with
      | job k =>
          change StatusStep x v i ((Function.update v.space.jobs k none i).bind JobHash.status)
          by_cases hik : i = k
          · rw [hik, Function.update_self]
            exact .delete hx
          · rw [Function.update_of_ne hik]
            exact .same
      | _ => exact .same

end Statuses

/-- The failure script is run for a job that is ABORTED. -/
def WorkflowRequest.FailsAborted (req : WorkflowRequest) (ev : Event Call World Env) : Prop :=
  match ev.call with
  | .completeFailedJob k _ _ => k.identity = req.identity ∧
      (ev.world.redis.workflows req.identity).jobStatus k.jobId = some .aborted
  | _ => False

instance (req : WorkflowRequest) (ev : Event Call World Env) : Decidable (req.FailsAborted ev) := by
  unfold WorkflowRequest.FailsAborted
  induction ev.call using Call.casesOn <;> infer_instance

/-- The final statuses that jobs have before the step `ev` are still there after the step `ev'`, as
far as the hashes of the jobs are. -/
def StayEnded (id : WorkflowIdentity) (ev ev' : Event Call World Env) : Prop :=
  ∀ j st, st.isTerminal = true → (ev.world.redis.workflows id).jobStatus j = some st →
    (after ev' id).jobStatus j = some st ∨ (after ev' id).jobStatus j = none

/-- Final statuses are absorbing in a run: no step changes one, and only the cleanup deletes one. -/
structure Absorbing (id : WorkflowIdentity) (log : Log) : Prop where
  step : ∀ ev ∈ log, StayEnded id ev ev
  later : log.Pairwise (StayEnded id)
  deleted : ∀ ev ∈ log, ∀ j st, st.isTerminal = true →
    (ev.world.redis.workflows id).jobStatus j = some st → (after ev id).jobStatus j = none →
    ev.call.isCleanup = true

section Absorption

variable {svc : Service} {req : WorkflowRequest} {log : Log} {σ : Pool Call Call.Reply World}
  {p : Plan} {L : List String} {ev : Event Call World Env} {id : WorkflowIdentity} {a a' : Account}
  {i : String} {k : JobKey} {r : Redis.FailedJob}

theorem Call.eq_of_mark {c : Call} {e : Env} (h : labelOf c e = .mark i) :
    ∃ k st, c = .setJobStatus k st := by
  cases c <;> first | exact ⟨_, _, rfl⟩ | cases h

theorem Call.eq_of_fail {c : Call} {e : Env} {n : Int} {jobIds : List String}
    (h : labelOf c e = .fail i n jobIds) :
    ∃ k, c = .completeFailedJob k n jobIds ∧ k.jobId = i := by
  cases c <;> cases h
  exact ⟨_, rfl, rfl⟩

/-- Only a handler that has run the failure script for an ABORTED event marks a job as ABORTED. -/
theorem Turns.of_mark (h : Turns ev id a a') (hsees : Sees ev.call id)
    (hlabel : labelOf ev.call ev.env = .mark i) : ∃ k r, .failed k .aborted r ∈ a.duties := by
  obtain ⟨w, c, e⟩ := ev
  obtain ⟨q, q', D, hdutiful, hmove, rfl, -⟩ := h
  obtain ⟨k, st, rfl⟩ := Call.eq_of_mark hlabel
  change Duty.Moves (.setJobStatus k st) ((Call.setJobStatus k st).exec e w).1 q q' at hmove
  generalize ((Call.setJobStatus k st).exec e w).1 = reply at hmove
  have hk : k.identity = id := Option.some.inj (hsees.resolve_left nofun)
  cases hmove with
  | mark k r => exact ⟨k, r, account_duty (Multiset.mem_cons_self ..) (congrArg some hk)⟩
  | plain _ hsimple =>
      cases hsimple with
      | stuck =>
          refine absurd ?_ hdutiful.sane.unstuck
          exact Multiset.mem_map.mpr ⟨_, Multiset.mem_cons_self .., rfl⟩
      | passing _ hc => cases hc
  | repairs _ _ hc | clean hc => cases hc

/-- A handler is to mark a job as ABORTED only after the failure script was run for an ABORTED
job. -/
theorem Turns.aborted (h : Turns ev req.identity a a') (htidy : Tidy p L a.view)
    (hgood : ¬ req.FailsAborted ev) (hq : .failed k .aborted r ∈ a'.duties) :
    .failed k .aborted r ∈ a.duties := by
  have hbefore := h.takes.before
  obtain ⟨w, c, e⟩ := ev
  obtain ⟨q, q', D, -, hmove, rfl, rfl⟩ := h
  obtain ⟨hmem, habout⟩ := Multiset.mem_filter.mp hq
  have hk : k.identity = req.identity := Option.some.inj habout
  rcases Multiset.mem_cons.mp hmem with hself | hother
  swap
  · exact account_duty (Multiset.mem_cons_of_mem hother) habout
  have hsame : q = .failed k .aborted r →
      .failed k .aborted r ∈ (account req.identity w (q ::ₘ D)).duties := fun hq => by
    rw [hq]
    exact account_duty (Multiset.mem_cons_self ..) habout
  change Duty.Moves c (c.exec e w).1 q q' at hmove
  generalize (c.exec e w).1 = reply at hmove
  cases hmove with
  | fail k' st jobIds n r' =>
      have hst : st = .aborted := by
        injection hself with _ hst _
        rw [JobStatus.recordedFailure] at hst
        split at hst
        · assumption
        · cases hst
      subst hst
      cases hself
      -- the handler of an ABORTED event finds the job ABORTED
      have hs := account_stage (w := w)
        (Multiset.mem_cons_self (Duty.plain (.hold k (.listing .aborted jobIds))) D) rfl hk
      obtain ⟨rest, hcons⟩ := Multiset.exists_cons_of_mem hs
      obtain ⟨st, hasks, hst⟩ := (htidy.busy hcons (fun _ => rfl)).2.2.2.2
      cases hasks
      rw [WorkflowView.jobStatus, hbefore] at hst
      exact absurd ⟨hk, hst⟩ hgood
  | failBroken => cases hself
  | mark | recordFailed | recordCanceled | recordWorkflow => exact hsame hself.symm
  | judge k' hs d =>
      rw [Duty.afterRuntime] at hself
      split at hself <;> cases hself
  | clean hc hmove calls => cases calls <;> cases hself
  | _ => cases hself

theorem Call.isCleanup_of_erase {c : Call} {e : Env} (h : labelOf c e = .erase) :
    c.isCleanup = true := by
  cases c <;> first | rfl | cases h

theorem Tidy.stayEnded (h : Tidy p L a.view) (hserves : Serves p L ev req.identity a.view a'.view)
    (hturns : Turns ev req.identity a a') (hgood : ¬ req.FailsAborted ev)
    (hduties : ∀ k r, .failed k .aborted r ∉ a.duties) {st : JobStatus}
    (hended : st.isTerminal = true) (hst : a.view.jobStatus i = some st) :
    a'.view.jobStatus i = some st ∨ (a'.view.jobStatus i = none ∧ ev.call.isCleanup = true) := by
  rcases hserves with ⟨heq, -⟩ | ⟨hsees, htidy⟩
  · exact .inl (heq ▸ hst)
  have hstep := h.statusStep htidy i
  generalize a'.view.jobStatus i = st' at hstep
  cases hstep with
  | same => exact .inl hst
  | goesOn hst' hopen =>
      cases hst.symm.trans hst'
      cases hended.symm.trans hopen
  | overwrite hx haborted =>
      refine absurd ?_ hgood
      obtain ⟨k, hc, rfl⟩ := Call.eq_of_fail hx
      rw [hc] at hsees
      have hk : k.identity = req.identity := Option.some.inj (hsees.resolve_left nofun)
      rw [WorkflowView.jobStatus, hturns.takes.before] at haborted
      rw [WorkflowRequest.FailsAborted, hc]
      exact ⟨hk, haborted⟩
  | mark hx =>
      obtain ⟨k, r, hq⟩ := hturns.of_mark hsees hx
      exact absurd hq (hduties k r)
  | delete hx => exact .inr ⟨rfl, Call.isCleanup_of_erase hx⟩

theorem Tidy.stayGone (h : Tidy p L a.view) (hserves : Serves p L ev req.identity a.view a'.view)
    (hturns : Turns ev req.identity a a') (hduties : ∀ k r, .failed k .aborted r ∉ a.duties)
    (hst : a.view.jobStatus i = none) : a'.view.jobStatus i = none := by
  rcases hserves with ⟨heq, -⟩ | ⟨hsees, htidy⟩
  · exact heq ▸ hst
  have hstep := h.statusStep htidy i
  generalize a'.view.jobStatus i = st' at hstep
  cases hstep with
  | same => exact hst
  | goesOn hst' | overwrite _ hst' => cases hst.symm.trans hst'
  | mark hx =>
      obtain ⟨k, r, hq⟩ := hturns.of_mark hsees hx
      exact absurd hq (hduties k r)
  | delete => rfl

/-- What holds in a run that does not overwrite ABORTED. -/
structure Absorbed (id : WorkflowIdentity) (log : Log) (a : Account) : Prop where
  duties : ∀ k r, .failed k .aborted r ∉ a.duties
  absorbing : Absorbing id log
  ended : ∀ ev ∈ log, ∀ j st, st.isTerminal = true →
    (ev.world.redis.workflows id).jobStatus j = some st →
    a.view.jobStatus j = some st ∨ a.view.jobStatus j = none

/-- Final statuses stay, as long as the failure script does not meet an ABORTED job. -/
theorem Absorbed.step (h : Absorbed req.identity log a) (htidy : Tidy p L a.view)
    (hturns : Turns ev req.identity a a') (hserves : Serves p L ev req.identity a.view a'.view)
    (hgood : ¬ req.FailsAborted ev) : Absorbed req.identity (log ++ [ev]) a' := by
  have hbefore : a.view.space = ev.world.redis.workflows req.identity := hturns.takes.before
  have hafter : a'.view.space = after ev req.identity := hturns.takes.after
  have hself : ∀ j st, st.isTerminal = true →
      (ev.world.redis.workflows req.identity).jobStatus j = some st →
      a'.view.jobStatus j = some st ∨ (a'.view.jobStatus j = none ∧ ev.call.isCleanup = true) := by
    intro j st hended hst
    rw [← hbefore] at hst
    exact htidy.stayEnded hserves hturns hgood h.duties hended hst
  have hold : ∀ ev' ∈ log, ∀ j st, st.isTerminal = true →
      (ev'.world.redis.workflows req.identity).jobStatus j = some st →
      a'.view.jobStatus j = some st ∨ a'.view.jobStatus j = none := by
    intro ev' hev' j st hended hst
    rcases h.ended ev' hev' j st hended hst with hst | hst
    · exact (htidy.stayEnded hserves hturns hgood h.duties hended hst).imp_right And.left
    · exact .inr (htidy.stayGone hserves hturns h.duties hst)
  have hnew : ∀ j st, st.isTerminal = true →
      (ev.world.redis.workflows req.identity).jobStatus j = some st →
      a'.view.jobStatus j = some st ∨ a'.view.jobStatus j = none :=
    fun j st hended hst => (hself j st hended hst).imp_right And.left
  have hall : ∀ {P : Event Call World Env → Prop}, (∀ ev' ∈ log, P ev') → P ev →
      ∀ ev' ∈ log ++ [ev], P ev' := fun hlog hev ev' hmem => by
    rcases List.mem_append.mp hmem with hmem | hmem
    · exact hlog ev' hmem
    · exact List.mem_singleton.mp hmem ▸ hev
  refine ⟨fun k r hq => h.duties k r (hturns.aborted htidy hgood hq), ⟨?_, ?_, ?_⟩,
    hall hold hnew⟩
  · refine hall h.absorbing.step ?_
    rw [StayEnded, ← hafter]
    exact hnew
  · refine List.pairwise_append.mpr ⟨h.absorbing.later, List.pairwise_singleton .., ?_⟩
    intro ev' hev' ev'' hev''
    rw [List.mem_singleton.mp hev'', StayEnded, ← hafter]
    exact hold ev' hev'
  · refine hall h.absorbing.deleted (fun j st hended hst hgone => ?_)
    rw [← hafter] at hgone
    rcases hself j st hended hst with hkept | ⟨-, hcleanup⟩
    · cases hgone.symm.trans hkept
    · exact hcleanup

theorem after_completeFailedJob {w : World} {e : Env} {n : Int} {jobIds : List String}
    (hok : e.ok = true) : after ⟨w, .completeFailedJob k n jobIds, e⟩ k.identity =
      ((w.redis.workflows k.identity).completeFailedJob k.jobId n jobIds).2 := by
  rw [after, Call.exec, if_pos (Bool.or_eq_true_iff.mpr (.inl hok))]
  exact (congrFun (Redis.dropCanceled_workflows ..) _).trans (Function.update_self ..)

theorem WorkflowRequest.FailsAborted.not_stayEnded (h : req.FailsAborted ev)
    (hok : ev.env.ok = true) : ¬ StayEnded req.identity ev ev := by
  obtain ⟨w, c, e⟩ := ev
  cases c with
  | completeFailedJob k n jobIds =>
      obtain ⟨hk, hst⟩ : k.identity = req.identity ∧
        (w.redis.workflows req.identity).jobStatus k.jobId = some .aborted := h
      have hafter : (after ⟨w, .completeFailedJob k n jobIds, e⟩ req.identity).jobStatus k.jobId =
          some .failed := by
        rw [← hk, after_completeFailedJob hok]
        exact jobStatus_completeFailedJob_self ..
      intro hstay
      rcases hstay k.jobId .aborted rfl hst with hkept | hgone
      · cases hafter.symm.trans hkept
      · cases hafter.symm.trans hgone
  | _ => exact h.elim

/-- In an execution in which all commands succeed, the final statuses of jobs in Redis are absorbing
exactly if the failure script is never run for a job that is ABORTED. -/
theorem finalStatus_absorbing_iff (h : Executes Plain svc req log σ) (hok : Answered log) :
    Absorbing req.identity log ↔ ∀ ev ∈ log, ¬ req.FailsAborted ev := by
  constructor
  · exact fun habsorbing ev hev hfails =>
      hfails.not_stayEnded (hok ev hev) (habsorbing.step ev hev)
  · intro hgood
    obtain ⟨p, -, hrule⟩ := h.accounts hok
    have hattains := hrule (fun log a => Absorbed req.identity log a)
      (fun ev => ¬ req.FailsAborted ev) (fun a ha => ?_)
      (fun log ev a a' _ hev htidy _ hI hturns hserves => hI.step htidy hturns hserves hev) hgood
    · obtain ⟨D, -, -, -, -, habsorbed⟩ := hattains
      exact habsorbed.absorbing
    · refine ⟨fun k r hq => ?_, ⟨?_, .nil, ?_⟩, ?_⟩
      · rw [ha.duties] at hq
        exact Multiset.notMem_zero _ hq
      all_goals exact fun ev hev => absurd hev List.not_mem_nil

theorem finalStatus_absorbing_fragileJobs : Absorbing fragileJobs.identity
    (played (serviceOf 2) fragileJobs failsAndCleansUp).1 := by
  have hrun : Executes Plain (serviceOf 2) fragileJobs _ _ :=
    executes_played failsAndCleansUp (requestOf_plain _) (by decide +kernel)
  exact (finalStatus_absorbing_iff hrun (by decide +kernel)).mpr (by decide +kernel)

/-- Both jobs are dispatched when the second one fails. The worker of the first one finds the
workflow FAILED and reports the job as ABORTED, and a handler is about to run the failure script for
it. -/
def stopsWhileDispatched : List Act :=
  pass .scheduler 5 ++ pass .scheduler 5 ++ workerFails 4 ++ pass .completionHandler 30 ++
    pass .worker 3 ++ pass .completionHandler 4

/-- The failure script makes the ABORTED job a FAILED one, and the next call of the handler makes it
ABORTED again. -/
theorem finalStatus_overwritten :
    Executes Plain (serviceOf 2) fragileJobs (played (serviceOf 2) fragileJobs stopsWhileDispatched).1
      (played (serviceOf 2) fragileJobs stopsWhileDispatched).2 ∧
    (engine Plain).Run (played (serviceOf 2) fragileJobs stopsWhileDispatched).2
      (resumed [.serve 0 {}] (played (serviceOf 2) fragileJobs stopsWhileDispatched).2).1
      (resumed [.serve 0 {}] (played (serviceOf 2) fragileJobs stopsWhileDispatched).2).2 ∧
    Answered ((played (serviceOf 2) fragileJobs stopsWhileDispatched).1 ++
      (resumed [.serve 0 {}, .serve 0 {}] (played (serviceOf 2) fragileJobs
        stopsWhileDispatched).2).1) ∧
    ((played (serviceOf 2) fragileJobs stopsWhileDispatched).2.world.redis.workflows
      fragileJobs.identity).jobStatus "a" = some .aborted ∧
    ((resumed [.serve 0 {}] (played (serviceOf 2) fragileJobs
      stopsWhileDispatched).2).2.world.redis.workflows fragileJobs.identity).jobStatus "a" =
        some .failed ∧
    ((resumed [.serve 0 {}, .serve 0 {}] (played (serviceOf 2) fragileJobs
      stopsWhileDispatched).2).2.world.redis.workflows fragileJobs.identity).jobStatus "a" =
        some .aborted :=
  ⟨executes_played stopsWhileDispatched (requestOf_plain _) (by decide +kernel), run_resumed _ _,
    by decide +kernel, by decide +kernel, by decide +kernel, by decide +kernel⟩

end Absorption

end FlowPilot
