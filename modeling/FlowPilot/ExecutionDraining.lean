import FlowPilot.ExecutionSlots

/-! What becomes of a workflow that fails. The failure script cancels the siblings that have not
started, so that every job that is left will be reported and counted, and the handler of the last one
takes the workflow out of the client's active set. Two steps break this: a workflow whose run time is
exceeded is set to FAILED without its waiting jobs being canceled, and a retry that is scheduled after
the workflow failed is given up by the retry handler without being counted. -/

namespace FlowPilot

open WorkflowView

section Drain

variable {p : Plan} {L l : List String} {x : Served} {v v' : WorkflowView} {i j : String}

/-- The statuses of the jobs that only a completion or the retry handler moves on. -/
def JobStatus.isParked : JobStatus → Bool
  | .pending | .ready | .retryDelay => true
  | _ => false

theorem JobStatus.isParked_of_not_waiting {st : JobStatus} (h : st.isWaitingToRun = false) :
    st.isParked = false := by
  cases st <;> first | rfl | cases h

/-- The step leaves a job to nobody: the run time is exceeded while jobs are parked, or a retry is
scheduled after the workflow failed. -/
def Abandons (x : Served) (v : WorkflowView) : Prop :=
  match x.label with
  | .success _ now => v.status = some .running ∧ v.space.runTimeExceeded now = true ∧
      ∃ i, (v.jobStatus i).any JobStatus.isParked = true
  | .retry _ => v.status = some .failed
  | _ => False

/-- In a workflow that has failed, somebody is to report every job that was not counted. -/
def Draining (p : Plan) (L : List String) (v : WorkflowView) : Prop :=
  v.status = some .failed → ∀ i ∈ p.ids, i ∉ L → v.stages i ≠ 0 ∧ v.jobStatus i ≠ some .retryDelay

theorem Tidy.stages_ne_zero (h : Tidy p L v) (hwf : v.status ≠ some .failed) (hi : i ∈ p.ids)
    (hnot : i ∉ L) (hparked : ∀ st, v.jobStatus i = some st → st.isParked = false) :
    v.stages i ≠ 0 ∧ v.jobStatus i ≠ some .retryDelay := by
  refine ⟨fun hzero => ?_, fun hst => by cases hparked _ hst⟩
  cases h.orderly.held i hi hnot with
  | idle _ hst => rcases hst with hst | hst <;> cases hparked _ hst
  | stranded _ _ hfailed => exact hwf hfailed
  | busy hs => exact Multiset.singleton_ne_zero _ (hs.symm.trans hzero)

theorem Draining.moved (h : Draining p L v) (hwf : v.status = some .failed)
    (hstages : ∀ i, i ≠ j → v'.stages i = v.stages i)
    (hstatus : ∀ i, i ≠ j → v'.jobStatus i = v.jobStatus i)
    (hself : j ∉ L → v'.stages j ≠ 0 ∧ v'.jobStatus j ≠ some .retryDelay) :
    Draining p L v' := by
  intro _ i hi hnot
  by_cases hij : i = j
  · subst hij
    exact hself hnot
  · rw [hstages i hij, hstatus i hij]
    exact h hwf i hi hnot

/-- In a FAILED workflow a step that abandons no job leaves somebody to report every uncounted one. -/
theorem Tidy.draining_failed (h : Tidy p L v) (hstep : TidyStep p L x v l v')
    (hwf : v.status = some .failed) (hdrain : Draining p L v) (hgood : ¬ Abandons x v) :
    Draining p (L ++ l) v' := by
  have hclosed : ∀ {ws : WorkflowStatus} {α : Prop}, v.status = some ws → ws ≠ .failed → α :=
    fun hws hne => absurd (Option.some.inj (hws.symm.trans hwf)) hne
  -- the holder of a job that was not counted passes to another one
  have hmoved : ∀ {j : String} {s : Stage} {w : WorkflowView}, w.stages = v.stages →
      (∀ i, i ≠ j → w.jobStatus i = v.jobStatus i) → w.jobStatus j ≠ some .retryDelay →
      Draining p (L ++ []) (w.setStages j {s}) := by
    intro j s w hstages hstatus hself
    rw [List.append_nil]
    refine hdrain.moved (j := j) hwf (fun i hij => ?_) hstatus (fun _ => ⟨?_, hself⟩)
    · rw [setStages_stages_of_ne _ _ hij, hstages]
    · rw [setStages_stages_self]
      exact Multiset.singleton_ne_zero _
  -- a counted job loses its holder
  have hcounted : ∀ {j : String} {w : WorkflowView}, j ∈ L → (∀ i, i ≠ j → w.stages i = v.stages i) →
      (∀ i, i ≠ j → w.jobStatus i = v.jobStatus i) → Draining p (L ++ []) w := by
    intro j w hj hstages hstatus
    rw [List.append_nil]
    exact hdrain.moved (j := j) hwf hstages hstatus (fun hnot => absurd hj hnot)
  have hset : ∀ (j : String) (st : JobStatus) (i : String), i ≠ j →
      (v.space.setJobStatus j st).jobStatus i = v.jobStatus i := fun j st i hij => by
    rw [WorkflowKeyspace.setJobStatus_jobStatus, if_neg hij]
    rfl
  have hself : ∀ (j : String) {st : JobStatus}, st ≠ .retryDelay →
      (v.space.setJobStatus j st).jobStatus j ≠ some .retryDelay := fun j st hst => by
    rw [WorkflowKeyspace.setJobStatus_jobStatus, if_pos rfl]
    exact fun heq => hst (Option.some.inj heq)
  have hother : ∀ {j : String} {m : Multiset Stage} {w : WorkflowView}, w.stages = v.stages →
      ∀ i, i ≠ j → (w.setStages j m).stages i = v.stages i := fun hw i hij => by
    rw [setStages_stages_of_ne _ _ hij, hw]
  cases hstep with
  | @move j s s' st hj hs _ _ _ _ _ =>
      exact hmoved rfl (fun _ _ => rfl) (hdrain hwf j (h.mem_ids hs) hj).2
  | claim => exact hmoved rfl (hset _ _) (hself _ nofun)
  | cancel => exact hmoved rfl (hset _ _) (hself _ nofun)
  | first _ _ _ _ hrun | again _ _ _ _ hrun | expire _ _ _ _ hrun | last _ _ _ _ hrun
  | success _ _ _ _ hrun | successPromote _ _ _ _ hrun | fail _ _ _ _ hrun
  | retryPromote _ _ _ _ hrun | requeue _ _ _ _ hrun | wait _ _ _ _ hrun
  | waitPromote _ _ _ _ hrun => exact hclosed hrun nofun
  | @failAgain j jobIds st st' n outcome ks hx hj hs hst hkind _ hfailed hretains =>
      intro _ i hi hnot
      rw [List.mem_append, List.mem_singleton, not_or] at hnot
      obtain ⟨hstages, hstatus⟩ := hdrain hwf i hi hnot.1
      rw [setStages_stages_of_ne _ _ hnot.2]
      refine ⟨hstages, ?_⟩
      change ks.jobStatus i ≠ _
      rw [hfailed.jobStatus i, if_neg hnot.2]
      exact hstatus
  | retry hx => exact absurd (by rw [Abandons, hx]; exact hwf) hgood
  | @strand j hx hj hs hst _ => exact absurd hst (hdrain hwf j (h.mem_ids hs) hj).2
  | drop hj hs => exact hcounted hj (hother rfl) (fun _ _ => rfl)
  | abort hj hs => exact hcounted hj (hother rfl) (hset _ _)
  | mark _ hj hs => exact hcounted hj (fun _ _ => rfl) (hset _ _)
  | releaseCounted hj hs => exact hcounted hj (hother rfl) (fun _ _ => rfl)
  | releaseFailed hj hs => exact hcounted hj (hother rfl) (fun _ _ => rfl)
  | erase _ _ hfull | deleteCounted _ _ hfull | deleteFailed _ _ hfull =>
      intro _ i hi hnot
      rw [List.append_nil] at hnot
      exact absurd (h.counted.mem_of_full hfull hi) hnot

/-- Every step that does not abandon a job keeps a workflow that has failed draining. -/
theorem Tidy.draining_step (h : Tidy p L v) (hstep : TidyStep p L x v l v')
    (h' : Tidy p (L ++ l) v') (hdrain : Draining p L v) (hgood : ¬ Abandons x v) :
    Draining p (L ++ l) v' := by
  rcases hstep.status with heq | ⟨-, hrun⟩ | ⟨hrun, -, hfails⟩ | ⟨hfull, -⟩
  · intro hfailed
    exact h.draining_failed hstep (heq ▸ hfailed) hdrain hgood hfailed
  · intro hfailed
    cases hrun.symm.trans hfailed
  · intro hfailed i hi hnot
    have hbefore : v.status ≠ some .failed := fun hwf => by cases hrun.symm.trans hwf
    cases hfails with
    | @expired j now hx hs hst hexceeded =>
        rw [List.append_nil] at hnot
        have hparked : ∀ st, v.jobStatus i = some st → st.isParked = false := fun st hst =>
          Bool.eq_false_iff.mpr (fun hpark => hgood (by
            rw [Abandons, hx]
            exact ⟨hrun, hexceeded, i, by rw [hst]; exact hpark⟩))
        obtain ⟨hstages, hstatus⟩ := h.stages_ne_zero hbefore hi hnot hparked
        refine ⟨?_, hstatus⟩
        by_cases hij : i = j
        · subst hij
          rw [setStages_stages_self]
          exact Multiset.singleton_ne_zero _
        · rw [setStages_stages_of_ne _ _ hij]
          exact hstages
    | @failed j jobIds st outcome ks hs hfailure =>
        rw [List.mem_append, List.mem_cons, not_or, not_or] at hnot
        obtain ⟨hnot, hij, hcanceled⟩ := hnot
        obtain ⟨hstages, hstatus, hkept⟩ :=
          FailedRunning.untouched (c := .ofCompleted outcome.workflowCompleted) hfailure hij hcanceled
        have hlisted := h.handled.listed j st jobIds (hs ▸ Multiset.mem_singleton_self _) i hi
        rw [hstages, hstatus]
        refine h.stages_ne_zero hbefore hi hnot (fun st hst => ?_)
        exact JobStatus.isParked_of_not_waiting (hkept hlisted st hst)
  · intro _ i hi hnot
    exact absurd (h'.counted.mem_of_full hfull hi) hnot

/-- A workflow all of whose jobs are counted is in the active set only until the handler of the last
one has taken it out. -/
def Owed (p : Plan) (L : List String) (v : WorkflowView) : Prop :=
  L.length = p.ids.length → v.active = true → ∃ i s, s ∈ v.stages i ∧ s.closing = .due

theorem Tidy.owed_last (h : Tidy p L v) (hstep : TidyStep p L x v l v')
    (hopen : L.length < p.ids.length) (hfull : (L ++ l).length = p.ids.length) :
    ∃ i s, s ∈ v'.stages i ∧ s.closing = .due := by
  have hdue : ∀ {j : String} {s : Stage} {w : WorkflowView}, s.closing = .due →
      ∃ i t, t ∈ (w.setStages j {s}).stages i ∧ t.closing = .due := fun hs =>
    ⟨_, _, mem_setStages.mpr (.inl ⟨rfl, Multiset.mem_singleton_self _⟩), hs⟩
  obtain ⟨htotal, hcompleted⟩ := h.counts hopen
  rw [List.length_append] at hfull
  -- the answer of the failure script that counts the last job
  have hanswer : ∀ {b : Bool} {ks : WorkflowKeyspace}, b = decide (ks.counters.total > 0 ∧
      ks.counters.completed = ks.counters.total) → ks.counters.total = v.space.counters.total →
      ks.counters.completed = v.space.counters.completed + l.length →
      (Stage.failed (.ofCompleted b)).closing = .due := by
    intro b ks hb htotal' hcompleted'
    have hb' : b = true := hb.trans (decide_eq_true (by omega))
    rw [hb']
    rfl
  cases hstep with
  | last => exact hdue rfl
  | success _ _ _ _ _ _ _ hlt | successPromote _ _ _ _ _ _ _ hlt =>
      rw [List.length_singleton] at hfull
      omega
  | @fail j jobIds st n outcome ks _ _ _ _ _ hfailed =>
      have hnot : j ∉ outcome.canceled.map Prod.fst := fun hmem => by
        obtain ⟨⟨i, st⟩, hi, rfl⟩ := List.mem_map.mp hmem
        exact ((hfailed.mem i st).mp hi).2.1 rfl
      refine ⟨j, _, ?_, hanswer hfailed.completed ?_ ?_⟩
      · rw [(dropCanceled_dropped ..).other j hnot, setStages_stages_self]
        exact Multiset.mem_singleton_self _
      · rw [hfailed.counters]
      · rw [hfailed.counters, List.length_cons, List.length_map]
        push_cast
        omega
  | failAgain _ _ _ _ _ _ hfailed =>
      refine hdue (hanswer hfailed.completed ?_ ?_)
      · rw [hfailed.counters]
      · rw [hfailed.counters]
        rfl
  | _ =>
      rw [List.length_nil] at hfull
      omega

/-- The cleanup stays with its handler until the workflow is out of the active set. -/
theorem Tidy.owed_step (h : Tidy p L v) (hstep : TidyStep p L x v l v') (howed : Owed p L v) :
    Owed p (L ++ l) v' := by
  intro hfull hactive
  by_cases hopen : L.length < p.ids.length
  · exact h.owed_last hstep hopen hfull
  have hall : L.length = p.ids.length := Nat.le_antisymm h.counted.length_le (Nat.le_of_not_lt hopen)
  have hkeep : v.active = true → (∀ i s, s ∈ v.stages i → s.closing = .due → s ∈ v'.stages i) →
      ∃ i s, s ∈ v'.stages i ∧ s.closing = .due := fun hbefore hkept => by
    obtain ⟨i, s, hs, hdue⟩ := howed hall hbefore
    exact ⟨i, s, hkept i s hs hdue, hdue⟩
  -- a stage that is not the cleanup's is given up
  have hgiven : ∀ {j : String} {s : Stage} {w : WorkflowView}, v.stages j = {s} →
      s.closing ≠ .due → w.stages = v.stages → ∀ i t, t ∈ v.stages i → t.closing = .due →
      t ∈ (w.setStages j 0).stages i := by
    intro j s w hs hne hw i t ht hdue
    refine mem_setStages.mpr (.inr ⟨?_, hw ▸ ht⟩)
    rintro rfl
    rw [hs] at ht
    exact hne (Multiset.mem_singleton.mp ht ▸ hdue)
  have huncounted : ∀ {j : String} {s : Stage} {α : Prop}, j ∉ L → v.stages j = {s} → α :=
    fun hj hs => absurd (h.counted.mem_of_full hall (h.mem_ids hs)) hj
  cases hstep with
  | move hj hs | claim _ hj hs | first _ hj hs | again _ hj hs | cancel _ hj hs | expire _ hj hs
  | last _ hj hs | success _ hj hs | successPromote _ hj hs | fail _ hj hs | failAgain _ hj hs
  | retry _ hj hs | retryPromote _ hj hs | requeue _ hj hs | wait _ hj hs | waitPromote _ hj hs
  | strand _ hj hs => exact huncounted hj hs
  | drop hj hs hstale =>
      exact hkeep hactive (hgiven hs (by rcases hstale with rfl | rfl <;> exact nofun) rfl)
  | abort hj hs => exact hkeep hactive (hgiven hs nofun rfl)
  | mark => exact hkeep hactive (fun _ _ hs _ => hs)
  | releaseCounted | releaseFailed => cases hactive
  | erase _ _ _ herased =>
      cases herased with
      | retry k =>
          refine hkeep hactive (fun i s hs hdue => ?_)
          by_cases hik : i = k
          · subst hik
            rw [setStages_stages_self]
            exact (Multiset.mem_erase_of_ne (fun heq => by rw [heq] at hdue; cases hdue)).mpr hs
          · rw [setStages_stages_of_ne _ _ hik]
            exact hs
      | _ => exact hkeep hactive (fun _ _ hs _ => hs)
  | @deleteCounted j l hj hs =>
      obtain ⟨i, s, hmem, hdue⟩ := howed hall hactive
      have hne : s.closing ≠ .no := fun hno => by cases hdue.symm.trans hno
      have hij := h.handled.sole i j s (.counted .released _) hmem
        (hs ▸ Multiset.mem_singleton_self _) hne nofun
      rw [hij, hs] at hmem
      rw [Multiset.mem_singleton.mp hmem] at hdue
      cases hdue
  | deleteFailed hj hs => exact hkeep hactive (fun _ _ hs _ => hs)

theorem Plan.exists_uncounted (p : Plan) (hopen : L.length < p.ids.length) : ∃ i ∈ p.ids, i ∉ L := by
  by_contra hall
  refine Nat.not_le_of_lt hopen (p.nodup.subperm (fun i hi => ?_)).length_le
  by_contra hnot
  exact hall ⟨i, hi, hnot⟩

theorem Tidy.totals_last (h : Tidy p L v) (hstep : WStep x v l v')
    (hopen : L.length < p.ids.length) (hfull : (L ++ l).length = p.ids.length) :
    v'.space.counters.total = p.ids.length ∧
      v'.space.counters.completed = v'.space.counters.total := by
  obtain ⟨htotal, hcompleted⟩ := h.counts hopen
  rw [List.length_append] at hfull
  rcases hstep.totals with ⟨htotal', hcompleted'⟩ | ⟨rfl, -⟩
  · omega
  · rw [List.length_nil] at hfull
    omega

theorem TidyStep.stays_failed (hstep : TidyStep p L x v l v') (hwf : v.status = some .failed) :
    v'.status = some .failed ∨ (L ++ l).length = p.ids.length := by
  rcases hstep.status with heq | ⟨hready, -⟩ | ⟨hrun, -⟩ | ⟨hfull, -⟩
  · exact .inl (heq.trans hwf)
  · cases hready.symm.trans hwf
  · cases hrun.symm.trans hwf
  · exact .inr hfull

end Drain

section Quiescence

/-- Nothing of the workflow is left in the queues, and no program goes on with it. -/
structure Quiescent (id : WorkflowIdentity) (σ : Pool Call Call.Reply World) : Prop where
  queued : ∀ k ∈ σ.world.redis.executionQueue.members, k.identity ≠ id
  delayed : ∀ k ∈ σ.world.redis.jobRetryStream.members, k.identity ≠ id
  dispatched : ∀ e ∈ σ.world.localQueue, e.identity ≠ id
  reported : ∀ e ∈ σ.world.redis.jobCompletionStream, e.identity ≠ id
  ended : ∀ p ∈ σ.threads, p.OnlyCallsUntil Call.takesWork (fun c => c.about ≠ some id)

variable {id : WorkflowIdentity} {σ : Pool Call Call.Reply World} {toks : List Token} {j : String}
  {s : Stage}

/-- A program that does not go on with the workflow has ended if it holds a job of it. -/
theorem final_of_ended {p : Task Unit} {k : JobKey} (h : protocol.Follows p (.hold k s))
    (hended : p.OnlyCallsUntil Call.takesWork (fun c => c.about ≠ some k.identity)) :
    (Token.hold k s).Final := by
  cases p with
  | done a => exact h
  | call c next =>
      obtain ⟨t', hmove, -⟩ := h c.failure
      have habout := hmove.about
      rcases hended with htakes | ⟨hne, -⟩
      · cases (Call.about_of_takesWork htakes).symm.trans habout
      · exact absurd habout hne

/-- In a quiescent state only programs that have ended are left at a stage of the workflow. -/
theorem Quiescent.final (h : Quiescent id σ)
    (hfollows : List.Forall₂ protocol.Follows σ.threads toks)
    (hs : s ∈ (view id σ.world (toks : Multiset Token)).stages j) :
    (Token.hold ⟨id, j⟩ s).Final := by
  have hmem : (⟨id, j⟩, s) ∈ holdings σ.world (toks : Multiset Token) := mem_stagesOf.mp hs
  rw [holdings, Multiset.mem_add, mem_threads] at hmem
  rcases hmem with hqueue | htoken
  · simp only [World.holdings, Multiset.mem_add, mem_setHoldings, localHoldings, streamHoldings,
      Multiset.mem_coe, List.mem_map, Prod.mk.injEq] at hqueue
    rcases hqueue with ((⟨hk, -⟩ | ⟨hk, -⟩) | ⟨e, he, hk, -⟩) | ⟨e, he, hk, -⟩
    · exact absurd rfl (h.queued _ hk)
    · exact absurd rfl (h.delayed _ hk)
    · exact absurd (congrArg JobKey.identity hk) (h.dispatched e he)
    · exact absurd (congrArg JobKey.identity hk) (h.reported e he)
  · obtain ⟨p, hp, hfollow⟩ := exists_of_forall₂ hfollows.flip htoken
    exact final_of_ended hfollow (h.ended p hp)

end Quiescence

section Executions

/-- The step leaves a job of the workflow to nobody: the success script finds the run time exceeded
while a job is PENDING, READY or in RETRY_DELAY, or a retry is scheduled after the workflow failed. -/
def WorkflowRequest.AbandonsJob (req : WorkflowRequest) (ev : Event Call World Env) : Prop :=
  let ks := ev.world.redis.workflows req.identity
  match ev.call with
  | .completeSuccessfulJob k => k.identity = req.identity ∧ ks.status = some .running ∧
      ks.runTimeExceeded ev.env.redisTime = true ∧
      ∃ job ∈ req.jobs, (ks.jobStatus job.jobId).any JobStatus.isParked = true
  | .scheduleJobRetry k _ _ => k.identity = req.identity ∧ ks.status = some .failed
  | _ => False

instance (req : WorkflowRequest) (ev : Event Call World Env) : Decidable (req.AbandonsJob ev) := by
  unfold WorkflowRequest.AbandonsJob
  dsimp only
  induction ev.call using Call.casesOn <;> infer_instance

variable {svc : Service} {req : WorkflowRequest} {log : Log} {σ : Pool Call Call.Reply World}
  {p : Plan} {v : WorkflowView} {ev : Event Call World Env}

theorem abandonsJob_of_abandons {p : Plan} {L : List String} (hp : svc.Plans req p)
    (h : Tidy p L v) (hsees : Sees ev.call req.identity)
    (hspace : v.space = ev.world.redis.workflows req.identity)
    (habandons : Abandons (served ev.call ev.env ev.world) v) : req.AbandonsJob ev := by
  obtain ⟨w, c, e⟩ := ev
  cases c with
  | completeSuccessfulJob k =>
      have hk : k.identity = req.identity := Option.some.inj (hsees.resolve_left (by rintro ⟨⟩))
      obtain ⟨hrun, hexceeded, i, hparked⟩ : v.status = some .running ∧
        v.space.runTimeExceeded e.redisTime = true ∧
        ∃ i, (v.jobStatus i).any JobStatus.isParked = true := habandons
      obtain ⟨job, hjob, rfl⟩ := hp.exists_job
        (h.orderly.known i (fun hnone => by rw [hnone] at hparked; cases hparked))
      rw [WorkflowView.status, hspace] at hrun
      rw [WorkflowView.jobStatus, hspace] at hparked
      exact ⟨hk, hrun, hspace ▸ hexceeded, job, hjob, hparked⟩
  | scheduleJobRetry k n retryAtMs =>
      have hk : k.identity = req.identity := Option.some.inj (hsees.resolve_left (by rintro ⟨⟩))
      have hfailed : v.status = some .failed := habandons
      rw [WorkflowView.status, hspace] at hfailed
      exact ⟨hk, hfailed⟩
  | _ => exact habandons.elim

/-- What is known of a workflow that may have failed: who is to report its jobs, who is to clean up,
and what the calls served so far have shown. -/
structure Drains (p : Plan) (id : WorkflowIdentity) (log : Log) (v : WorkflowView) : Prop where
  draining : Draining p (credits id log) v
  owed : Owed p (credits id log) v
  failed : (∃ ev ∈ log, (after ev id).status = some .failed) →
    v.status = some .failed ∨ (credits id log).length = p.ids.length
  reached : (credits id log).length = p.ids.length → ∃ ev ∈ log,
    (after ev id).counters.total = p.ids.length ∧
      (after ev id).counters.completed = (after ev id).counters.total

theorem Fresh.drains {id : WorkflowIdentity} (h : Fresh p v) : Drains p id [] v := by
  have hopen : ([] : List String).length ≠ p.ids.length := fun heq =>
    p.nonempty (List.length_eq_zero_iff.mp heq.symm)
  have hready : v.status = some .ready := congrArg WorkflowKeyspace.Counters.status h.counters
  refine ⟨fun hfailed => ?_, fun hfull => absurd hfull hopen, fun hfailed => ?_,
    fun hfull => absurd hfull hopen⟩
  · cases hready.symm.trans hfailed
  · obtain ⟨ev, hev, -⟩ := hfailed
    cases hev

/-- A step that abandons no job keeps what is known of a workflow that may have failed. -/
theorem Drains.step {id : WorkflowIdentity} {v' : WorkflowView} (h : Drains p id log v)
    (htidy : Tidy p (credits id log) v) (htidy' : Tidy p (credits id (log ++ [ev])) v')
    (htakes : Takes ev id v v') (hserves : Serves p (credits id log) ev id v v')
    (hgood : Sees ev.call id → ¬ Abandons (served ev.call ev.env ev.world) v) :
    Drains p id (log ++ [ev]) v' := by
  -- the workflow that this step sets to FAILED is FAILED after it
  have hnow : (after ev id).status = some .failed → v'.status = some .failed := fun hfailed => by
    rw [WorkflowView.status, htakes.after]
    exact hfailed
  have hexists : ∀ {P : Event Call World Env → Prop}, (∃ ev' ∈ log ++ [ev], P ev') →
      (∃ ev' ∈ log, P ev') ∨ P ev := by
    rintro P ⟨ev', hmem, hP⟩
    rcases List.mem_append.mp hmem with hmem | hmem
    · exact .inl ⟨ev', hmem, hP⟩
    · exact .inr (List.mem_singleton.mp hmem ▸ hP)
  have hreached : (∃ ev' ∈ log, (after ev' id).counters.total = p.ids.length ∧
      (after ev' id).counters.completed = (after ev' id).counters.total) →
      ∃ ev' ∈ log ++ [ev], (after ev' id).counters.total = p.ids.length ∧
        (after ev' id).counters.completed = (after ev' id).counters.total := by
    rintro ⟨ev', hmem, hev'⟩
    exact ⟨ev', List.mem_append_left _ hmem, hev'⟩
  rw [credits_append] at htidy'
  constructor <;> rw [credits_append]
  · rcases hserves with ⟨rfl, hnil⟩ | ⟨hsees, hstep⟩
    · rw [hnil, List.append_nil]
      exact h.draining
    · exact htidy.draining_step hstep htidy' h.draining (hgood hsees)
  · rcases hserves with ⟨rfl, hnil⟩ | ⟨hsees, hstep⟩
    · rw [hnil, List.append_nil]
      exact h.owed
    · exact htidy.owed_step hstep h.owed
  · intro hfailed
    rcases hexists hfailed with hbefore | hev
    · rcases hserves with ⟨rfl, hnil⟩ | ⟨hsees, hstep⟩
      · rw [hnil, List.append_nil]
        exact h.failed hbefore
      · rcases h.failed hbefore with hwf | hfull
        · exact hstep.stays_failed hwf
        · refine .inr (Nat.le_antisymm htidy'.counted.length_le ?_)
          rw [List.length_append]
          omega
    · exact .inl (hnow hev)
  · intro hfull
    by_cases hopen : (credits id log).length < p.ids.length
    · refine ⟨ev, List.mem_append_right _ (List.mem_singleton_self ev), ?_⟩
      rw [← htakes.after]
      rcases htakes.simulated with ⟨-, hnil⟩ | ⟨-, hstep⟩
      · rw [hnil, List.append_nil] at hfull
        omega
      · exact htidy.totals_last hstep hopen hfull
    · exact hreached (h.reached (Nat.le_antisymm htidy.counted.length_le (Nat.le_of_not_lt hopen)))

/-- In every execution in which all commands succeed and no step abandons a job, a workflow that
failed and on which nobody works any more was counted to its end and is not in the active set. -/
theorem failed_workflow_drains (h : Executes Plain svc req log σ) (hok : Answered log)
    (hgood : ∀ ev ∈ log, ¬ req.AbandonsJob ev) (hquiet : Quiescent req.identity σ)
    (hfailed : ∃ ev ∈ log, (after ev req.identity).status = some .failed) :
    (∃ ev ∈ log, (after ev req.identity).counters.total = req.jobs.length ∧
      (after ev req.identity).counters.completed = (after ev req.identity).counters.total) ∧
    req.workflowId ∉ σ.world.redis.activeWorkflows req.clientId := by
  obtain ⟨p, hp, hrule⟩ := h.tidy hok
  have hreaches := hrule (Drains p req.identity) (fun ev => ¬ req.AbandonsJob ev)
    (fun v hv => hv.drains)
    (fun log ev v v' hev hgood htidy htidy' hI htakes hserves =>
      hI.step htidy htidy' htakes hserves (fun hsees habandons =>
        hgood (abandonsJob_of_abandons hp htidy hsees htakes.before habandons)))
    hgood
  obtain ⟨toks, hfollows, -, htidy, hdrains⟩ := hreaches
  have hfinal := fun j s => hquiet.final (j := j) (s := s) hfollows
  have hfull : (credits req.identity log).length = p.ids.length := by
    refine (hdrains.failed hfailed).elim (fun hstatus => ?_) id
    by_contra hopen
    obtain ⟨i, hi, hnot⟩ := Plan.exists_uncounted _
      (Nat.lt_of_le_of_ne htidy.counted.length_le hopen)
    obtain ⟨s, hs⟩ := Multiset.exists_mem_of_ne_zero (hdrains.draining hstatus i hi hnot).1
    obtain ⟨rest, hcons⟩ := Multiset.exists_cons_of_mem hs
    obtain ⟨-, st, hasks, -⟩ := htidy.asks hcons hnot
    have hended := hfinal i s hs
    cases hended <;> cases hasks
  constructor
  · obtain ⟨ev, hev, htotal, hcompleted⟩ := hdrains.reached hfull
    refine ⟨ev, hev, htotal.trans ?_, hcompleted⟩
    rw [hp.ids, List.length_map]
  · intro hactive
    obtain ⟨i, s, hs, hdue⟩ := hdrains.owed hfull (decide_eq_true hactive)
    have hended := hfinal i s hs
    cases hended <;> cases hdue

/-- A state in which all programs have ended and no queue holds a job of the workflow. -/
theorem quiescent_of_ended {id : WorkflowIdentity} (hended : ∀ p ∈ σ.threads, p.next? = none)
    (hqueued : ∀ k ∈ σ.world.redis.executionQueue.members, k.identity ≠ id)
    (hdelayed : ∀ k ∈ σ.world.redis.jobRetryStream.members, k.identity ≠ id)
    (hdispatched : ∀ e ∈ σ.world.localQueue, e.identity ≠ id)
    (hreported : ∀ e ∈ σ.world.redis.jobCompletionStream, e.identity ≠ id) : Quiescent id σ :=
  ⟨hqueued, hdelayed, hdispatched, hreported,
    fun p hp => Prog.OnlyCallsUntil.of_next?_eq_none (hended p hp)⟩

/-- The first of two jobs fails while the second one is QUEUED, and the handler cleans up. -/
def failsAndCleansUp : List Act := pass .scheduler 5 ++ workerFails 4 ++ pass .completionHandler 20

theorem failed_workflow_drains_fragileJobs :
    (∃ ev ∈ (played (serviceOf 2) fragileJobs failsAndCleansUp).1,
      (after ev fragileJobs.identity).counters.total = fragileJobs.jobs.length ∧
      (after ev fragileJobs.identity).counters.completed =
        (after ev fragileJobs.identity).counters.total) ∧
    fragileJobs.workflowId ∉ (played (serviceOf 2) fragileJobs
      failsAndCleansUp).2.world.redis.activeWorkflows fragileJobs.clientId := by
  have hrun : Executes Plain (serviceOf 2) fragileJobs _ _ :=
    executes_played failsAndCleansUp (requestOf_plain _) (by decide +kernel)
  exact failed_workflow_drains hrun (by decide +kernel) (by decide +kernel)
    (quiescent_of_ended (by decide +kernel) (by decide +kernel) (by decide +kernel)
      (by decide +kernel) (by decide +kernel)) (by decide +kernel)

/-- The first of two chained jobs completes after the run time of its workflow: the success script
fails the workflow, and the handler counts the job as failed. -/
def expiresWhilePending : List Act :=
  pass .scheduler 5 ++
  [.start .worker, .serve 0 {}, .serve 0 { redisTime := 1 }, .serve 0 {}, .serve 0 {}, .serve 0 {},
    .serve 0 {}] ++
  [.start .completionHandler, .serve 0 {}, .serve 0 {}, .serve 0 { redisTime := 1000000 }] ++
  List.replicate 6 (.serve 0 {})

/-- The second job stays PENDING for ever, and the workflow in the active set. -/
theorem failed_workflow_stays :
    Executes Plain (serviceOf 1) chainedJobs (played (serviceOf 1) chainedJobs expiresWhilePending).1
      (played (serviceOf 1) chainedJobs expiresWhilePending).2 ∧
    Answered (played (serviceOf 1) chainedJobs expiresWhilePending).1 ∧
    Quiescent chainedJobs.identity (played (serviceOf 1) chainedJobs expiresWhilePending).2 ∧
    ((played (serviceOf 1) chainedJobs expiresWhilePending).2.world.redis.workflows
      chainedJobs.identity).status = some .failed ∧
    ((played (serviceOf 1) chainedJobs expiresWhilePending).2.world.redis.workflows
      chainedJobs.identity).jobStatus "b" = some .pending ∧
    (∀ ev ∈ (played (serviceOf 1) chainedJobs expiresWhilePending).1,
      (after ev chainedJobs.identity).counters.completed ≠
        (after ev chainedJobs.identity).counters.total) ∧
    chainedJobs.workflowId ∈ (played (serviceOf 1) chainedJobs
      expiresWhilePending).2.world.redis.activeWorkflows chainedJobs.clientId :=
  ⟨executes_played expiresWhilePending (requestOf_plain _) (by decide +kernel), by decide +kernel,
    quiescent_of_ended (by decide +kernel) (by decide +kernel) (by decide +kernel)
      (by decide +kernel) (by decide +kernel), by decide +kernel, by decide +kernel,
    by decide +kernel, by decide +kernel⟩

end Executions

end FlowPilot
