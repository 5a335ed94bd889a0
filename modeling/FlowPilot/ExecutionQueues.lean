import FlowPilot.ExecutionTidy

/-! Where the keys of jobs are. When every command succeeds, the waiting set, the execution queue and
the retry set hold exactly the jobs whose status says so; a key that a scheduler or the retry handler
has taken out counts as held by it until its script has run. -/

namespace FlowPilot

/-- The calls that a scheduler makes from the pop of a key up to the claim script. -/
def Call.claims (k : JobKey) : Call → Bool
  | .jobType k' | .claimJob k' => decide (k' = k)
  | _ => false

/-- The call by which the retry handler gives a key back. -/
def Call.promotes (k : JobKey) : Call → Bool
  | .promoteRetryJob k' => decide (k' = k)
  | _ => false

/-- How many schedulers have popped the key and not run the claim script yet. -/
def schedulersHolding (k : JobKey) (σ : Pool Call Call.Reply World) : Nat :=
  σ.threads.countP (fun p => p.next?.any (Call.claims k))

/-- How many passes of the retry handler have taken the key out and not promoted it yet. -/
def retryHandlersHolding (k : JobKey) (σ : Pool Call Call.Reply World) : Nat :=
  σ.threads.countP (fun p => p.next?.any (Call.promotes k))

section Holders

variable {k : JobKey} {p : Prog Call Call.Reply Unit} {t t₀ : Token} {s : Stage}

theorem follows_next (h : protocol.Follows p t) :
    (p.next? = none ∧ t.Final) ∨ ∃ c r t', p.next? = some c ∧ Move c r t t' := by
  cases p with
  | done a => exact .inl ⟨rfl, h⟩
  | call c k =>
      obtain ⟨t', hmove, -⟩ := h c.failure
      exact .inr ⟨c, _, t', rfl, hmove⟩

theorem next_any_iff {P : Call → Bool} {t₀ : Token} (h : protocol.Follows p t) (hopen : ¬ t₀.Final)
    (hmove : ∀ c r t', Move c r t t' → (P c = true ↔ t = t₀)) :
    p.next?.any P = true ↔ t = t₀ := by
  rcases follows_next h with ⟨hnone, hfinal⟩ | ⟨c, r, t', hnext, hmoved⟩
  · rw [hnone]
    exact ⟨nofun, fun heq => absurd (heq ▸ hfinal) hopen⟩
  · rw [hnext, Option.any_some]
    exact hmove c r t' hmoved

theorem next_claims (h : protocol.Follows p t) (ht : t ≠ .stuck) :
    p.next?.any (Call.claims k) = true ↔ t = .hold k .popped := by
  refine next_any_iff h nofun (fun c r t' hmove => ⟨fun hclaims => ?_, ?_⟩)
  · unfold Call.claims at hclaims
    split at hclaims
    · cases of_decide_eq_true hclaims
      cases hmove with
      | stuck => exact absurd rfl ht
      | typeHash | typeNone | typeFault => rfl
      | sqlite _ hc | countedDelete _ _ _ hc | failedSqlite _ _ _ hc | failedDelete _ _ hc =>
          cases hc
    · cases of_decide_eq_true hclaims
      cases hmove with
      | stuck => exact absurd rfl ht
      | claim | claimRefused | claimFault => rfl
      | sqlite _ hc | countedDelete _ _ _ hc | failedSqlite _ _ _ hc | failedDelete _ _ hc =>
          cases hc
    · cases hclaims
  · rintro rfl
    cases hmove with
    | typeHash | typeNone | typeFault | claim | claimRefused | claimFault =>
        exact decide_eq_true rfl
    | push _ hs => cases hs
    | enqueue _ hs | enqueueFault _ hs => cases hs

theorem next_promotes (h : protocol.Follows p t) (ht : t ≠ .stuck) :
    p.next?.any (Call.promotes k) = true ↔ t = .hold k .retryHeld := by
  refine next_any_iff h nofun (fun c r t' hmove => ⟨fun hpromotes => ?_, ?_⟩)
  · unfold Call.promotes at hpromotes
    split at hpromotes
    · cases of_decide_eq_true hpromotes
      cases hmove with
      | stuck => exact absurd rfl ht
      | promote | promoteFault => rfl
      | sqlite _ hc | countedDelete _ _ _ hc | failedSqlite _ _ _ hc | failedDelete _ _ hc =>
          cases hc
    · cases hpromotes
  · rintro rfl
    cases hmove with
    | promote | promoteFault => exact decide_eq_true rfl
    | push _ hs => cases hs
    | enqueue _ hs | enqueueFault _ hs => cases hs

theorem countP_next {threads : List (Prog Call Call.Reply Unit)} {toks : List Token}
    (hfollows : List.Forall₂ protocol.Follows threads toks) (hstuck : .stuck ∉ toks)
    {P : Call → Bool} (hP : ∀ p t, protocol.Follows p t → t ≠ .stuck →
      (p.next?.any P = true ↔ t = t₀)) :
    threads.countP (fun p => p.next?.any P) = (toks : Multiset Token).count t₀ := by
  induction hfollows with
  | nil => rfl
  | @cons p t threads toks hp _ ih =>
      rw [List.mem_cons, not_or] at hstuck
      have hiff := hP p t hp (fun heq => hstuck.1 heq.symm)
      rw [List.countP_cons, ← Multiset.cons_coe, Multiset.count_cons, ih hstuck.2]
      congr 1
      by_cases ht : t = t₀
      · rw [if_pos (hiff.mpr ht), if_pos ht.symm]
      · rw [if_neg (fun hany => ht (hiff.mp hany)), if_neg (fun heq => ht heq.symm)]

theorem count_stages (w : World) (T : Multiset Token) (k : JobKey) (hs : s ≠ .queued ∧
    s ≠ .retryWait ∧ s ≠ .dispatched ∧ ∀ st, s ≠ .reported st) :
    (stagesOf (holdings w T) k).count s = T.count (.hold k s) := by
  have hnone : s ∉ stagesOf w.holdings k := by
    rw [mem_stagesOf]
    simp only [World.holdings, Multiset.mem_add, mem_setHoldings, localHoldings, streamHoldings,
      Multiset.mem_coe, List.mem_map, Prod.mk.injEq, not_or, not_and, not_exists]
    exact ⟨⟨⟨fun _ => hs.1, fun _ => hs.2.1⟩, fun _ _ _ heq => hs.2.2.1 heq.symm⟩,
      fun _ _ _ heq => hs.2.2.2 _ heq.symm⟩
  rw [holdings, stagesOf_add, Multiset.count_add, Multiset.count_eq_zero_of_notMem hnone, zero_add]
  induction T using Multiset.induction_on with
  | empty => rfl
  | cons t T ih =>
      rw [Multiset.map_cons, Multiset.sum_cons, stagesOf_add, Multiset.count_add, ih,
        Multiset.count_cons]
      cases t with
      | hold k' s' =>
          rw [Token.holdings, ← Multiset.cons_zero, stagesOf_cons]
          by_cases hk : k' = k
          · subst hk
            by_cases hss : s = s' <;> simp [hss, add_comm]
          · have hne : Token.hold k s ≠ .hold k' s' := fun heq => hk (by cases heq; rfl)
            simp [hk, hne]
      | _ => simp [Token.holdings]

end Holders

section Stated

variable {p : Plan} {L l : List String} {x : Served} {v v' : WorkflowView}

/-- Every job hash has a status. -/
def Stated (p : Plan) (v : WorkflowView) : Prop :=
  ∀ j ∈ p.ids, v.space.jobs j ≠ none → v.jobStatus j ≠ none

theorem WorkflowKeyspace.Provided.jobStatus_ne_none {ks : WorkflowKeyspace} {j : String}
    (h : ks.Provided j) : ks.jobStatus j ≠ none := by
  obtain ⟨hash, -, hjob, hreadable, -⟩ := h
  rw [WorkflowKeyspace.jobStatus, hjob, Option.bind_some]
  exact Option.isSome_iff_ne_none.mp hreadable.status

/-- The hashes of the jobs have statuses until they are deleted, and a hash that is written again gets
one. -/
theorem Tidy.stated_step (h : Tidy p L v) (hstep : TidyStep p L x v l v') (hv : Stated p v) :
    Stated p v' := by
  intro i hi hjob
  by_cases hlt : L.length < p.ids.length
  · obtain ⟨hretains, hpayloads⟩ := hstep.retains hlt
    exact (((h.unfinished hlt).provided i hi).of_retains hretains hpayloads).jobStatus_ne_none
  · have hset : ∀ j, (v.space.setJobStatus j .aborted).jobs i ≠ none →
        (v.space.setJobStatus j .aborted).jobStatus i ≠ none := by
      intro j hjob
      rw [WorkflowKeyspace.setJobStatus_jobStatus]
      split
      · exact nofun
      · rename_i hij
        rw [WorkflowKeyspace.setJobStatus, WorkflowKeyspace.setJob_jobs_of_ne _ _ _ _ hij] at hjob
        exact hv i hi hjob
    cases hstep with
    | move hj hs | claim _ hj hs | first _ hj hs | again _ hj hs | cancel _ hj hs | expire _ hj hs
    | last _ hj hs | success _ hj hs | successPromote _ hj hs | fail _ hj hs | failAgain _ hj hs
    | retry _ hj hs | retryPromote _ hj hs | requeue _ hj hs | wait _ hj hs | waitPromote _ hj hs
    | strand _ hj hs =>
        -- nobody holds a job that is left to count
        exact absurd (h.lt_of_not_mem (h.mem_ids hs) hj) hlt
    | drop | releaseCounted | releaseFailed | deleteCounted | deleteFailed => exact hv i hi hjob
    | abort | mark => exact hset _ hjob
    | erase _ _ _ herased =>
        cases herased with
        | job k =>
            have hik : i ≠ k := by
              rintro rfl
              exact hjob (Function.update_self ..)
            have hsame : Function.update v.space.jobs k none i = v.space.jobs i :=
              Function.update_of_ne hik ..
            refine fun hnone => hv i hi (fun h0 => hjob (hsame.trans h0)) ?_
            rw [← hnone]
            simp only [WorkflowView.jobStatus, WorkflowKeyspace.jobStatus, hsame]
        | _ => exact hv i hi hjob

theorem Fresh.stated (h : Fresh p v) : Stated p v :=
  fun j hj _ => (h.provided j hj).jobStatus_ne_none

end Stated

section Membership

variable {p : Plan} {L : List String} {v : WorkflowView} {j : String}

/-- The jobs of a tidy workflow in a status that two stages ask for: those at the first stage, and
those at the second that were not canceled. -/
theorem Tidy.status_iff (h : Tidy p L v) (hj : j ∈ p.ids) (hhash : v.jobStatus j ≠ none)
    {st : JobStatus} (hst : st.isWaitingToRun = true ∧ st ≠ .pending ∧ st ≠ .ready) {s₁ s₂ : Stage}
    (hne : s₁ ≠ s₂) (hasks : ∀ s, s.asks = some st ↔ s = s₁ ∨ s = s₂)
    (hleaves : ∀ s st', s.leaves st' = true → s ≠ s₁ ∧ (s = s₂ → st' = .aborted)) :
    (v.jobStatus j = some st ↔
      s₁ ∈ v.stages j ∨ ((v.stages j).count s₂ = 1 ∧ v.jobStatus j ≠ some .aborted)) ∧
    (v.stages j).count s₂ ≤ 1 := by
  by_cases hmem : j ∈ L
  · have hnot : v.jobStatus j ≠ some st := fun hjob => by
      have hdone := (h.orderly.left j hmem).done hjob
      rw [JobStatus.not_isTerminal_of_isWaitingToRun hst.1] at hdone
      cases hdone
    cases h.orderly.left j hmem with
    | gone hs => simp [hs, hnot]
    | @kept s st' hs hkept hjob =>
        have hjob := hjob.resolve_right hhash
        obtain ⟨hfirst, hsecond⟩ := hleaves s st' hkept
        by_cases hs₂ : s = s₂
        · simp [hs, hs₂, hjob, hsecond hs₂, hne]
          rintro rfl
          cases hst.1
        · simp [hs, hnot, Ne.symm hfirst, Ne.symm hs₂]
  · cases h.orderly.held j hj hmem with
    | idle hs hidle =>
        rw [hs]
        rcases hidle with hidle | hidle <;> simp [hidle, hst.2.1.symm, hst.2.2.symm]
    | stranded hs haborted =>
        have hne : st ≠ .aborted := by
          rintro rfl
          cases hst.1
        simp [hs, haborted, hne.symm]
    | @busy s st' hs hasks' hjob =>
        have hiff : st' = st ↔ s = s₁ ∨ s = s₂ := by
          rw [← hasks s, hasks']
          exact ⟨congrArg some, Option.some.inj⟩
        rw [hs, hjob, Option.some.injEq, hiff, Multiset.mem_singleton, Multiset.count_singleton]
        by_cases hs₁ : s = s₁
        · simp [hs₁, hne.symm]
        · by_cases hs₂ : s = s₂
          · have hst' : st' = st := hiff.mpr (.inr hs₂)
            have hne' : st' ≠ .aborted := by
              rintro rfl
              rw [← hst'] at hst
              cases hst.1
            simp [hs₂, hne']
          · simp [hs₁, hs₂, Ne.symm hs₁, Ne.symm hs₂]

theorem Stage.asks_queued (s : Stage) : s.asks = some .queued ↔ s = .queued ∨ s = .popped := by
  cases s with
  | reported r | listing r => cases r <;> simp [asks]
  | _ => simp [asks]

theorem Stage.asks_retryDelay (s : Stage) :
    s.asks = some .retryDelay ↔ s = .retryWait ∨ s = .retryHeld := by
  cases s with
  | reported r | listing r => cases r <;> simp [asks]
  | _ => simp [asks]

theorem Stage.leaves_popped (s : Stage) (st : JobStatus) (h : s.leaves st = true) :
    s ≠ .queued ∧ (s = .popped → st = .aborted) := by
  cases s <;> cases st <;> simp_all [leaves]

theorem Stage.leaves_retryHeld (s : Stage) (st : JobStatus) (h : s.leaves st = true) :
    s ≠ .retryWait ∧ (s = .retryHeld → st = .aborted) := by
  cases s <;> cases st <;> simp_all [leaves]

variable {svc : Service} {req : WorkflowRequest} {log : Log} {σ : Pool Call Call.Reply World}

/-- In an execution in which every command succeeds the workflow is tidy, and its job hashes have
statuses. -/
theorem Executes.stated (h : Executes Plain svc req log σ) (hok : Answered log) :
    ∃ p, svc.Plans req p ∧ Reaches (fun log v => Tidy p (credits req.identity log) v ∧ Stated p v)
      req.identity log σ := by
  obtain ⟨p, hp, hrule⟩ := h.tidy hok
  refine ⟨p, hp, hrule (fun _ v => Stated p v) (fun _ => True) (fun v hv => hv.stated) ?_
    (fun _ _ => trivial)⟩
  intro log ev v v' _ _ htidy _ hv _ hserves
  rcases hserves with ⟨rfl, -⟩ | ⟨-, hstep⟩
  · exact hv
  · exact htidy.stated_step hstep hv

/-- In every execution in which all commands succeed, the sets of keys agree with the statuses of the
jobs: the waiting set holds the READY jobs; the QUEUED ones are in the execution queue, or exactly one
scheduler has popped them and not claimed them yet; those in RETRY_DELAY are in the retry set, or the
retry handler has taken them out and not promoted them yet. The job of a key that is held in this way
and not in its status was canceled meanwhile: it is ABORTED. -/
theorem queues_match_statuses (h : Executes Plain svc req log σ) (hok : Answered log) :
    ∀ job ∈ req.jobs, (σ.world.redis.workflows req.identity).jobs job.jobId ≠ none →
      (job.jobId ∈ (σ.world.redis.workflows req.identity).waitingReady.members ↔
        (σ.world.redis.workflows req.identity).jobStatus job.jobId = some .ready) ∧
      ((σ.world.redis.workflows req.identity).jobStatus job.jobId = some .queued ↔
        ⟨req.identity, job.jobId⟩ ∈ σ.world.redis.executionQueue.members ∨
          (schedulersHolding ⟨req.identity, job.jobId⟩ σ = 1 ∧
            (σ.world.redis.workflows req.identity).jobStatus job.jobId ≠ some .aborted)) ∧
      schedulersHolding ⟨req.identity, job.jobId⟩ σ ≤ 1 ∧
      ((σ.world.redis.workflows req.identity).jobStatus job.jobId = some .retryDelay ↔
        ⟨req.identity, job.jobId⟩ ∈ σ.world.redis.jobRetryStream.members ∨
          (retryHandlersHolding ⟨req.identity, job.jobId⟩ σ = 1 ∧
            (σ.world.redis.workflows req.identity).jobStatus job.jobId ≠ some .aborted)) ∧
      retryHandlersHolding ⟨req.identity, job.jobId⟩ σ ≤ 1 := by
  obtain ⟨p, hp, toks, hfollows, hsane, htidy, hstated⟩ := h.stated hok
  intro job hjob hhash
  have hids := hp.mem_ids hjob
  have hst := hstated job.jobId hids hhash
  have hpopped : schedulersHolding ⟨req.identity, job.jobId⟩ σ =
      ((view req.identity σ.world toks).stages job.jobId).count .popped :=
    (countP_next hfollows hsane.unstuck (fun p t => next_claims)).trans
      (count_stages (s := .popped) σ.world toks _ ⟨nofun, nofun, nofun, nofun⟩).symm
  have hheld : retryHandlersHolding ⟨req.identity, job.jobId⟩ σ =
      ((view req.identity σ.world toks).stages job.jobId).count .retryHeld :=
    (countP_next hfollows hsane.unstuck (fun p t => next_promotes)).trans
      (count_stages (s := .retryHeld) σ.world toks _ ⟨nofun, nofun, nofun, nofun⟩).symm
  obtain ⟨hqueued, hqueued'⟩ := htidy.status_iff hids hst (by decide) (by decide)
    Stage.asks_queued Stage.leaves_popped
  obtain ⟨hdelayed, hdelayed'⟩ := htidy.status_iff hids hst (by decide) (by decide)
    Stage.asks_retryDelay Stage.leaves_retryHeld
  rw [hpopped, hheld]
  refine ⟨htidy.orderly.waiting job.jobId, hqueued.trans (or_congr_left ?_), hqueued',
    hdelayed.trans (or_congr_left ?_), hdelayed'⟩
  · exact mem_stagesOf.trans (mem_holdings_queued hsane.threaded)
  · exact mem_stagesOf.trans (mem_holdings_retryWait hsane.threaded)

/-- Of three jobs two are QUEUED: a scheduler has popped one of them and not claimed it yet, the other
is in the queue, and the third one waits. -/
theorem queues_match_threeJobs :
    (schedulersHolding ⟨threeJobs.identity, "b"⟩
      (played (serviceOf 2) threeJobs (pass .scheduler 1)).2 = 1 ∧
    ⟨threeJobs.identity, "a"⟩ ∈ (played (serviceOf 2) threeJobs
      (pass .scheduler 1)).2.world.redis.executionQueue.members) ∧
    ("c" ∈ ((played (serviceOf 2) threeJobs (pass .scheduler 1)).2.world.redis.workflows
      threeJobs.identity).waitingReady.members ↔
    ((played (serviceOf 2) threeJobs (pass .scheduler 1)).2.world.redis.workflows
      threeJobs.identity).jobStatus "c" = some .ready) := by
  have hrun : Executes Plain (serviceOf 2) threeJobs _ _ :=
    executes_played (pass .scheduler 1) (requestOf_plain _) (by decide +kernel)
  exact ⟨by decide +kernel, (queues_match_statuses hrun (by decide +kernel) { jobId := "c" }
    (by decide +kernel) (by decide +kernel)).1⟩

end Membership

end FlowPilot
