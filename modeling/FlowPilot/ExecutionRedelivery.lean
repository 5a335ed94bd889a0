import FlowPilot.ExecutionAccounts
import FlowPilot.WorkflowAttempts
import FlowPilot.WorkflowMirror
import FlowPilot.WorkflowRepair

/-! Completion events that are delivered once more. The success script answers for a job that is
COMPLETED already without writing anything; the failure script, the retry script and the repair of
SQLite have no such test. A copy of an event therefore leaves the workflow as it is only if it says
COMPLETED and both stores say so of the job, or if the data in Redis are gone and SQLite has the
workflow as FAILED or CANCELED. -/

namespace FlowPilot

open WorkflowKeyspace

open CompletionHandler

/-- What a copy of an event is not to change. -/
structure Standing where
  /-- `status`, `completed_jobs`, `failed_jobs` and `reserved_execution_slots` in Redis -/
  workflow : Option (Option WorkflowStatus × Option Int × Option Int × Option Int)
  /-- `status` and `current_retry_count` of the jobs in Redis -/
  jobs : String → Option (Option JobStatus × Option Int)
  /-- the statuses in SQLite -/
  ledger : Ledger

def Books.standing (b : Books) : Standing where
  workflow := b.space.hash.map (fun h =>
    (h.status, h.completedJobs, h.failedJobs, h.reservedExecutionSlots))
  jobs := fun j => (b.space.jobs j).map (fun h => (h.status, h.currentRetryCount))
  ledger := b.ledger

/-- A copy of the event changes nothing: the job is COMPLETED in both stores and the event says the
same, or the data in Redis are gone and SQLite has the workflow as FAILED or CANCELED. -/
def Harmless (e : JobCompletionData) (b : Books) : Prop :=
  (b.space.status ≠ none ∧ e.status = .completed ∧
    b.space.jobStatus e.jobId = some .completed ∧ b.ledger.job e.jobId = some .completed) ∨
  (b.space.hash = none ∧ (b.ledger.workflow = some .failed ∨ b.ledger.workflow = some .canceled))

instance (e : JobCompletionData) (b : Books) : Decidable (Harmless e b) :=
  inferInstanceAs (Decidable (_ ∨ _))

section Standings

variable {b b' : Books} {n : Int} {j : String}

/-- More jobs are counted as completed, or the hash is gone. -/
def MovedOn (n : Int) (ks : WorkflowKeyspace) : Prop := ks.hash = none ∨ n < ks.counters.completed

theorem standing_ne_of_movedOn (hhash : b.space.hash ≠ none)
    (h : MovedOn b.space.counters.completed b'.space) : b'.standing ≠ b.standing := by
  intro heq
  have hworkflow : b'.standing.workflow = b.standing.workflow := congrArg Standing.workflow heq
  rcases h with hnone | hlt
  · rw [Books.standing, hnone, Option.map_none, Books.standing, eq_comm,
      Option.map_eq_none_iff] at hworkflow
    exact hhash hworkflow
  · have hcompleted : ∀ b : Books,
        b.space.counters.completed = (b.standing.workflow.bind (·.2.1)).getD 0 := fun b => by
      rw [Books.standing, Option.bind_map]
      rfl
    rw [hcompleted b, hcompleted b', hworkflow] at hlt
    exact lt_irrefl _ hlt

theorem standing_ne_of_attempts (h : (b'.space.attempts j).1 ≠ (b.space.attempts j).1) :
    b'.standing ≠ b.standing := by
  intro heq
  have hattempts : ∀ b : Books, (b.space.attempts j).1 = (b.standing.jobs j).bind (·.2) := fun b => by
    change ((b.space.jobs j).getD {}).currentRetryCount =
      ((b.space.jobs j).map (fun h => (h.status, h.currentRetryCount))).bind (·.2)
    cases b.space.jobs j <;> rfl
  refine h ?_
  rw [hattempts b, hattempts b', heq]

theorem standing_ne_of_ledger (h : b'.ledger ≠ b.ledger) : b'.standing ≠ b.standing :=
  fun heq => h (congrArg Standing.ledger heq)

end Standings

section Programs

variable {α : Type} {id : WorkflowIdentity} {b : Books} {k : JobKey} {n : Int} {w : World} {c : Call}

theorem hash_exec_followsScript (hc : c.followsScript = true) (e : Env) (w : World)
    (id : WorkflowIdentity) :
    ((c.exec e w).2.redis.workflows id).hash = (w.redis.workflows id).hash ∨
      ((c.exec e w).2.redis.workflows id).hash = none := by
  have hset : ∀ (id' : WorkflowIdentity) (ks : WorkflowKeyspace),
      ks.hash = (w.redis.workflows id').hash ∨ ks.hash = none →
      ((w.setSpace id' ks).redis.workflows id).hash = (w.redis.workflows id).hash ∨
        ((w.setSpace id' ks).redis.workflows id).hash = none := by
    intro id' ks hks
    by_cases hid : id = id'
    · subst hid
      rw [show (w.setSpace id ks).redis.workflows id = ks from Function.update_self ..]
      exact hks
    · exact .inl (congrArg WorkflowKeyspace.hash (Function.update_of_ne hid ..))
  rw [Call.exec]
  split
  swap
  · exact .inl rfl
  by_cases hsqlite : c.isSqlite = true
  · obtain ⟨db, -, hworld⟩ := carryOut_isSqlite hsqlite e w
    rw [hworld]
    exact .inl rfl
  · cases c with
    | setJobStatus k st => exact hset k.identity _ (.inl rfl)
    | deleteJobPayload k | deleteJob k | deleteSuccessors k => exact hset k.identity _ (.inl rfl)
    | deleteWaitingReady id' => exact hset id' _ (.inl rfl)
    | deleteWorkflow id' => exact hset id' _ (.inr rfl)
    | removeActiveWorkflow id' | removeFromRetryStream k => exact .inl rfl
    | _ => first | exact absurd rfl hsqlite | cases hc

theorem posts_follows {p : Task α} (hp : p.OnlyCalls (FollowsAbout id)) :
    Posts id p b (fun _ b' => b'.space.hash = b.space.hash ∨ b'.space.hash = none) := by
  intro w hw
  subst hw
  refine Prog.OnlyCalls.ensures (I := fun w' : World =>
    (w'.redis.workflows id).hash = (w.redis.workflows id).hash ∨ (w'.redis.workflows id).hash = none)
    hp (fun c hc e w' hw' => ?_) (.inl rfl)
  rcases hash_exec_followsScript hc.1 e w' id with hsame | hnone
  · rw [hsame]
    exact hw'
  · exact .inr hnone

theorem posts_sqlite {p : Task α} (hp : p.OnlyCalls (SqliteAbout id)) :
    Posts id p b (fun _ b' => b'.space = b.space ∧ b'.active = b.active) := by
  intro w hw
  subst hw
  have hredis : Settles p w (fun _ w' => w'.redis = w.redis) := by
    refine settles_keeps (f := World.redis) hp (fun c hc e w' => ?_)
    rw [Call.exec]
    split
    · obtain ⟨db, -, hworld⟩ := carryOut_isSqlite hc.1 e w'
      rw [hworld]
    · rfl
  refine hredis.mono (fun _ w' hw' => ?_)
  rw [books, books, hw']
  exact ⟨rfl, rfl⟩

/-- Two steps of which the second one runs if the first one reports success, when all that is needed of
the first one is what it leaves alone. -/
theorem posts_andThen {p q : Task Bool} {P : Books → Prop} {post : Bool → Books → Prop}
    (hp : Posts id p b (fun _ b' => P b')) (hstop : ∀ b', P b' → post false b')
    (hq : ∀ b', P b' → Posts id q b' post) : Posts id (p.andThen q) b post := by
  refine hp.bind (fun r b' hb' => ?_)
  cases r with
  | false => exact posts_pure (hstop b' hb')
  | true => exact hq b' hb'

/-- The writes after the success script leave the keys of the workflow alone, or end with success after
the cleanup. -/
theorem posts_persistJobCompleted_hash (hhash : b.space.hash ≠ none)
    (completed : Redis.CompletedJob) : Posts k.identity (persistJobCompleted k completed) b
      (fun r b' => b'.space = b.space ∨ (r = true ∧ b'.space.hash = none)) := by
  have hask : ∀ {c : Call}, c.isSqlite = true → c.about = some k.identity →
      (ask c).OnlyCalls (SqliteAbout k.identity) := fun hc habout => Prog.OnlyCalls.perform ⟨hc, habout⟩
  refine posts_andThen (P := fun b' => b'.space = b.space)
    ((posts_sqlite (hask rfl rfl)).mono (fun _ _ h => h.1)) (fun _ h => .inl h) (fun b₁ h₁ => ?_)
  refine posts_andThen (P := fun b' => b'.space = b.space)
    ((posts_sqlite (onlyCalls_onlyIf (hask rfl rfl) _)).mono (fun _ _ h => h.1.trans h₁))
    (fun _ h => .inl h) (fun b₂ h₂ => ?_)
  refine posts_andThen (P := fun b' => b'.space = b.space)
    ((posts_sqlite (onlyCalls_onlyIf (hask rfl rfl) _)).mono (fun _ _ h => h.1.trans h₂))
    (fun _ h => .inl h) (fun b₃ h₃ => ?_)
  refine posts_onlyIf (fun _ => ?_) (fun _ => .inl h₃)
  by_cases hactive : b₃.active = true
  · refine (posts_cleanup hactive).mono (fun r b₄ h₄ => .inr ⟨h₄.1.trans ?_, h₄.2.hash⟩)
    rw [h₃]
    exact Option.isSome_iff_ne_none.mpr hhash
  · refine (posts_cleanup_inactive ((Bool.not_eq_true _).mp hactive)).mono (fun r b₄ h₄ => ?_)
    rw [h₄]
    exact .inl h₃

theorem posts_failJob_movedOn (hn : n ≤ b.space.counters.completed) (st : JobStatus) (m : Int) :
    Posts k.identity (failJob k st m) b (fun _ b' => MovedOn n b'.space) := by
  refine posts_getAllJobsForWorkflow.bind (fun r b₁ h₁ => ?_)
  obtain ⟨rfl, rows, rfl, -⟩ := h₁
  refine (posts_completeFailedJob m _).bind (fun r b₂ h₂ => ?_)
  obtain ⟨rfl, rfl⟩ := h₂
  refine (posts_follows (persistJobFailed_follows st _)).mono (fun _ b₃ h₃ => ?_)
  rcases h₃ with hsame | hnone
  · obtain ⟨-, hcompleted, -⟩ := completeFailedJob_counts k.jobId m
      (rows.map (fun r => r.key.jobId)) b₁.space
    refine .inr ?_
    rw [counters_congr hsame, hcompleted]
    omega
  · exact .inl hnone

theorem posts_handleJobRetry (m delay : Int) : Posts k.identity (handleJobRetry k m delay) b
    (fun _ b' => (b'.space.attempts k.jobId).1 = some m) := by
  refine posts_readClock.bind (fun clock b₁ h₁ => ?_)
  subst h₁
  refine (posts_scheduleJobRetry m _).bind (fun r b₂ h₂ => ?_)
  obtain ⟨rfl, rfl⟩ := h₂
  have hrecords : (Prog.andThen (ask (.updateJobStatus k .retryDelay))
      (.onlyIf ((b₁.space.scheduleJobRetry k.jobId m).1.map Prod.fst).isSome
        (ask (.updateReadyJobs k.identity ((b₁.space.scheduleJobRetry k.jobId m).1.map
          Prod.fst).toList [])))).OnlyCalls (SqliteAbout k.identity) :=
    onlyCalls_andThen (Prog.OnlyCalls.perform ⟨rfl, rfl⟩)
      (onlyCalls_onlyIf (Prog.OnlyCalls.perform ⟨rfl, rfl⟩) _)
  refine (posts_sqlite hrecords).mono (fun _ b₃ h₃ => ?_)
  rw [h₃.1, attempts_scheduleJobRetry_self]

theorem posts_handleJobFailed (hn : n ≤ b.space.counters.completed) {runtime : JobRuntimeData}
    (hread : runtime.currentRetryCount < runtime.maxRetries →
      (b.space.attempts k.jobId).1 = some runtime.currentRetryCount)
    (st : JobStatus) (workflow : WorkflowHash) :
    Posts k.identity (handleJobFailed k st runtime workflow) b (fun _ b' => MovedOn n b'.space ∨
      (runtime.currentRetryCount < runtime.maxRetries ∧
        (b'.space.attempts k.jobId).1 ≠ (b.space.attempts k.jobId).1)) := by
  rw [handleJobFailed]
  split
  · rename_i hretry
    have hmore : runtime.currentRetryCount < runtime.maxRetries := Int.lt_of_add_one_le hretry.2.2
    refine posts_readClock.bind (fun clock b₁ h₁ => ?_)
    subst h₁
    split
    · exact (posts_failJob_movedOn hn _ _).mono (fun _ _ h => .inl h)
    · refine (posts_handleJobRetry _ _).mono (fun _ b₂ h₂ => .inr ⟨hmore, ?_⟩)
      rw [h₂, hread hmore, Ne, Option.some.injEq]
      omega
  · exact (posts_failJob_movedOn hn _ _).mono (fun _ _ h => .inl h)

theorem posts_processUncompleted (hwhole : b.space.Whole) (hn : n ≤ b.space.counters.completed)
    (st : JobStatus) (code : StatusCode) (workflow : WorkflowHash) :
    Posts k.identity (processUncompleted k st code workflow) b (fun _ b' => MovedOn n b'.space ∨
      (code ≠ .internalDbFailure ∧
        (b'.space.attempts k.jobId).1 ≠ (b.space.attempts k.jobId).1)) := by
  refine posts_fetchJobRuntime.bind (fun r b₁ h₁ => ?_)
  obtain ⟨rfl, rfl⟩ := h₁
  have htorn := hwhole.not_torn k.jobId
  generalize hfetch : b₁.space.fetchJobRuntime k.jobId = r at htorn
  obtain ⟨fetched, runtime⟩ := r
  dsimp only
  split
  · -- the count is raised to the limit, so that the job is not retried
    refine (posts_handleJobFailed hn (fun hlt => absurd hlt (lt_irrefl _)) st workflow).mono
      (fun _ _ h => ?_)
    exact h.imp_right (fun hretried => absurd hretried.1 (lt_irrefl _))
  · rename_i hcode
    have hread : runtime.currentRetryCount < runtime.maxRetries → fetched = true := fun hlt =>
      Bool.eq_true_of_not_eq_false (fun hfalse => htorn ⟨hfalse, hlt⟩)
    refine (posts_handleJobFailed hn (fun hlt => ?_) st workflow).mono (fun _ _ h => ?_)
    · rw [hread hlt] at hfetch
      rw [attempts_of_fetchJobRuntime hfetch]
    · exact h.imp_right (fun hretried => ⟨fun hinternal => hcode ⟨hread hretried.1, hinternal⟩,
        hretried.2⟩)

theorem posts_completeSuccessfulJob : Posts k.identity (ask (.completeSuccessfulJob k)) b (fun r b' =>
    ∃ now, r = Redis.CompletedJob.ofOutcome (b.space.completeSuccessfulJob now k.jobId).1 ∧
      b' = { b with space := (b.space.completeSuccessfulJob now k.jobId).2 }) := by
  refine posts_ask (fun e w hw => ⟨e.redisTime, ?_⟩)
  subst hw
  exact ⟨rfl, books_completeSuccessfulJob k e w⟩

variable {ks : WorkflowKeyspace} {j : String}

theorem completeSuccessfulJob_again (hstatus : ks.status ≠ none)
    (hjob : ks.jobStatus j = some .completed) (now : Int) :
    ks.completeSuccessfulJob now j = (.alreadyCompleted, ks) := by
  obtain ⟨ws, hws⟩ := Option.ne_none_iff_exists'.mp hstatus
  simp [WorkflowKeyspace.completeSuccessfulJob, hws, hjob]

theorem alreadyCompleted_iff {now : Int} :
    (ks.completeSuccessfulJob now j).1 = .alreadyCompleted ↔
      ks.status ≠ none ∧ ks.jobStatus j = some .completed := by
  refine ⟨fun h => ?_, fun h => by rw [completeSuccessfulJob_again h.1 h.2]⟩
  refine ⟨fun hnone => ?_, ((completeSuccessfulJob_refused h).2.2 rfl).2⟩
  rw [WorkflowKeyspace.completeSuccessfulJob, hnone] at h
  cases h

/-- The success script counts the job or leaves the counter, unless the job is COMPLETED. -/
theorem completed_completeSuccessfulJob
    (hnew : ¬ (ks.status ≠ none ∧ ks.jobStatus j = some .completed)) (now : Int) :
    ks.counters.completed ≤ (ks.completeSuccessfulJob now j).2.counters.completed ∧
      (Redis.CompletedJob.ofOutcome (ks.completeSuccessfulJob now j).1 ≠ none →
        ks.counters.completed < (ks.completeSuccessfulJob now j).2.counters.completed ∧
          (ks.completeSuccessfulJob now j).2.hash ≠ none) := by
  cases houtcome : (ks.completeSuccessfulJob now j).1 with
  | missing =>
      rw [((completeSuccessfulJob_refused houtcome).1 rfl).1]
      exact ⟨le_refl _, fun h => absurd rfl h⟩
  | notRunning =>
      rw [((completeSuccessfulJob_refused houtcome).2.1 rfl).1]
      exact ⟨le_refl _, fun h => absurd rfl h⟩
  | runTimeExceeded =>
      rw [(completeSuccessfulJob_expired houtcome).2.2,
        counters_setStatus]
      exact ⟨le_refl _, fun h => absurd rfl h⟩
  | alreadyCompleted => exact absurd (alreadyCompleted_iff.mp houtcome) hnew
  | counted =>
      obtain ⟨-, hcompleted, -⟩ := completeSuccessfulJob_counts houtcome
      rw [hcompleted]
      exact ⟨by omega, fun _ => ⟨by omega, hash_completeSuccessfulJob houtcome⟩⟩

theorem posts_handleJobCompleted_new (hwhole : b.space.Whole)
    (hnew : ¬ (b.space.status ≠ none ∧ b.space.jobStatus k.jobId = some .completed)) :
    Posts k.identity (handleJobCompleted k) b (fun r b' =>
      if r = true then MovedOn b.space.counters.completed b'.space
      else b'.space.Whole ∧ b.space.counters.completed ≤ b'.space.counters.completed) := by
  refine posts_completeSuccessfulJob.bind (fun r b₁ h₁ => ?_)
  obtain ⟨now, rfl, rfl⟩ := h₁
  obtain ⟨hle, hlt⟩ := completed_completeSuccessfulJob hnew now
  have hwhole₁ : (b.space.completeSuccessfulJob now k.jobId).2.Whole :=
    hwhole.of_erodes (((Retains.refl b.space).completeSuccessfulJob now
      k.jobId).erodes (completeSuccessfulJob_payloads ..))
  cases hreply : Redis.CompletedJob.ofOutcome (b.space.completeSuccessfulJob now k.jobId).1 with
  | none => exact posts_pure ⟨hwhole₁, hle⟩
  | some completed =>
      obtain ⟨hmore, hhash₁⟩ := hlt (by rw [hreply]; nofun)
      refine (posts_persistJobCompleted_hash hhash₁ completed).mono (fun r b₂ h₂ => ?_)
      rcases h₂ with hsame | ⟨rfl, hnone⟩
      · rw [hsame]
        split
        · exact .inr hmore
        · exact ⟨hwhole₁, hle⟩
      · exact .inl hnone

/-- An event of a job that is COMPLETED already: all that is written is the status in SQLite. -/
theorem posts_handleJobCompleted_again (hstatus : b.space.status ≠ none)
    (hjob : b.space.jobStatus k.jobId = some .completed) :
    Posts k.identity (handleJobCompleted k) b (fun r b' => b'.space = b.space ∧
      (r = true → b.ledger.job k.jobId ≠ none ∧ b'.ledger = b.ledger.setJob k.jobId .completed) ∧
      (r = false → b.ledger.job k.jobId = none)) := by
  refine posts_completeSuccessfulJob.bind (fun r b₁ h₁ => ?_)
  obtain ⟨now, rfl, rfl⟩ := h₁
  rw [completeSuccessfulJob_again hstatus hjob now]
  by_cases hrow : b.ledger.job k.jobId = none
  · have hmissing : Posts k.identity (ask (.updateJobStatus k .completed)) b
        (fun r b' => r = false ∧ b' = b) := by
      refine posts_ask (fun e w hw => ?_)
      subst hw
      have hupdate : w.sqlite.updateJobStatus e.time k .completed = (false, w.sqlite) := by
        rw [Sqlite.updateJobStatus]
        exact if_neg (fun hany => (w.sqlite.any_isOf_iff k).mp hany hrow)
      have hworld : (Call.updateJobStatus k .completed).carryOut e w =
          ((w.sqlite.updateJobStatus e.time k .completed).1,
            { w with sqlite := (w.sqlite.updateJobStatus e.time k .completed).2 }) := rfl
      rw [hworld, hupdate]
      exact ⟨rfl, rfl⟩
    refine Posts.bind hmissing (fun r b₂ h₂ => ?_)
    obtain ⟨rfl, rfl⟩ := h₂
    exact posts_pure ⟨rfl, (by simp), fun _ => hrow⟩
  · refine Posts.andThen (posts_updateJobStatus (fun _ => (by rintro ⟨⟩)) hrow) ?_
    rintro _ rfl
    exact posts_pure ⟨rfl, fun _ => ⟨hrow, rfl⟩, (by simp)⟩

theorem posts_uncompleted_changes (hwhole : b.space.Whole) (hhash : b.space.hash ≠ none)
    (st : JobStatus) (code : StatusCode) (workflow : WorkflowHash) :
    Posts k.identity (processUncompleted k st code workflow) b
      (fun _ b' => b'.standing ≠ b.standing) := by
  refine (posts_processUncompleted hwhole (le_refl _) st code workflow).mono (fun _ b' h => ?_)
  rcases h with hmoved | ⟨-, hattempts⟩
  · exact standing_ne_of_movedOn hhash hmoved
  · exact standing_ne_of_attempts hattempts

theorem posts_rerouted (hwhole : b.space.Whole) (hn : n ≤ b.space.counters.completed)
    (workflow : WorkflowHash) :
    Posts k.identity (processUncompleted k .failed .internalDbFailure workflow) b
      (fun _ b' => MovedOn n b'.space) :=
  (posts_processUncompleted hwhole hn .failed .internalDbFailure workflow).mono
    (fun _ _ h => h.resolve_right (fun hretried => hretried.1 rfl))

theorem posts_completedEvent (hwhole : b.space.Whole) (hhash : b.space.hash ≠ none)
    (workflow : WorkflowHash) :
    Posts k.identity (handleJobCompleted k >>= fun r => if r = true then pure true
        else processUncompleted k .failed .internalDbFailure workflow) b (fun _ b' =>
      b'.standing = b.standing ↔ b.space.status ≠ none ∧
        b.space.jobStatus k.jobId = some .completed ∧ b.ledger.job k.jobId = some .completed) := by
  by_cases hdone : b.space.status ≠ none ∧ b.space.jobStatus k.jobId = some .completed
  · refine (posts_handleJobCompleted_again hdone.1 hdone.2).bind (fun r b₁ h₁ => ?_)
    obtain ⟨hspace, hsome, hnone⟩ := h₁
    cases r with
    | true =>
        obtain ⟨-, hledger⟩ := hsome rfl
        refine posts_pure ⟨fun hsame => ⟨hdone.1, hdone.2, ?_⟩, fun h => ?_⟩
        · have hkept : b₁.ledger = b.ledger := congrArg Standing.ledger hsame
          rw [← hkept, hledger, Ledger.setJob_job, if_pos rfl]
        · have hkept : b₁.ledger = b.ledger := by
            rw [hledger, Ledger.setJob, ← h.2.2, Function.update_eq_self]
          rw [Books.standing, Books.standing, hspace, hkept]
    | false =>
        have hrow := hnone rfl
        refine (posts_rerouted (n := b.space.counters.completed) (hspace ▸ hwhole)
          (by rw [hspace]) workflow).mono (fun _ b' hmoved => ?_)
        refine iff_of_false (standing_ne_of_movedOn hhash hmoved) (fun h => ?_)
        cases hrow.symm.trans h.2.2
  · refine (posts_handleJobCompleted_new hwhole hdone).bind (fun r b₁ h₁ => ?_)
    have hfalse : ∀ b' : Books, MovedOn b.space.counters.completed b'.space →
        (b'.standing = b.standing ↔ b.space.status ≠ none ∧
          b.space.jobStatus k.jobId = some .completed ∧ b.ledger.job k.jobId = some .completed) :=
      fun b' hmoved => iff_of_false (standing_ne_of_movedOn hhash hmoved)
        (fun h => hdone ⟨h.1, h.2.1⟩)
    cases r with
    | true => exact posts_pure (hfalse b₁ h₁)
    | false => exact (posts_rerouted h₁.1 h₁.2 workflow).mono (fun _ b' hmoved => hfalse b' hmoved)

theorem posts_event {e : JobCompletionData} {workflow : WorkflowHash} (hwhole : b.space.Whole)
    (hhash : b.space.hash = some workflow) :
    Posts e.identity (processCompletedJobs e) b (fun _ b' =>
      b'.standing = b.standing ↔ Harmless e b) := by
  have hsome : b.space.hash ≠ none := by
    rw [hhash]
    nofun
  have hharmless : Harmless e b ↔ b.space.status ≠ none ∧ e.status = .completed ∧
      b.space.jobStatus e.jobId = some .completed ∧ b.ledger.job e.jobId = some .completed :=
    or_iff_left (fun h => hsome h.1)
  refine posts_fetchWorkflowRuntime.bind (fun r b₁ h₁ => ?_)
  obtain ⟨rfl, rfl⟩ := h₁
  rw [hhash, hharmless]
  have hother : e.status ≠ .completed → ∀ (st : JobStatus) (code : StatusCode),
      Posts e.identity (processUncompleted e.key st code workflow) b₁ (fun _ b' =>
        b'.standing = b₁.standing ↔ b₁.space.status ≠ none ∧ e.status = .completed ∧
          b₁.space.jobStatus e.jobId = some .completed ∧
          b₁.ledger.job e.jobId = some .completed) := fun hne st code =>
    (posts_uncompleted_changes (k := e.key) hwhole hsome st code workflow).mono
      (fun _ b' hchanged => iff_of_false hchanged (fun h => hne h.2.1))
  cases hst : e.status with
  | completed =>
      refine (posts_completedEvent (k := e.key) hwhole hsome workflow).mono (fun _ b' h => ?_)
      rw [h]
      simp only [true_and]
      rfl
  | _ =>
      rw [hst] at hother
      exact hother nofun _ _

/-- The repair of a workflow without runtime data sets it to FAILED, if it has a row. -/
theorem posts_persistAfterMissing_failed (hrow : b.ledger.workflow ≠ none) :
    Posts id (persistFailedWorkflowAfterMissingRuntime id) b
      (fun _ b' => b'.ledger.workflow = some .failed) := by
  refine posts_getAllJobsForWorkflow.bind (fun r b₁ h₁ => ?_)
  obtain ⟨rfl, rows, rfl, -⟩ := h₁
  have hkept : Posts id (repairJobs id none rows) b₁ (fun _ b' => b'.ledger.workflow ≠ none) := by
    intro w hw
    subst hw
    refine Prog.OnlyCalls.ensures (I := fun w' : World => w'.sqlite.workflowStatus id ≠ none)
      (repairJobs_onlyCalls id none rows) (fun c hc e w' hw' => ?_) hrow
    rw [Call.exec]
    split
    · obtain ⟨db, hrows, hworld⟩ := carryOut_isSqlite hc.1 e w'
      rw [hworld, ← Sqlite.any_workflow_iff]
      rw [← Sqlite.any_workflow_iff] at hw'
      exact (hrows.recorded id).trans hw'
    · exact hw'
  refine Posts.bind hkept (fun _ b₂ h₂ => ?_)
  refine Posts.bind (posts_updateWorkflowStatus (by rintro _ ⟨⟩) h₂) (fun _ b₃ h₃ => ?_)
  obtain ⟨-, rfl⟩ := h₃
  exact posts_pure rfl

theorem settles_event_missing {e : JobCompletionData}
    (hhash : (w.redis.workflows e.identity).hash = none)
    (hrow : w.sqlite.workflowStatus e.identity ≠ none) :
    Settles (processCompletedJobs e) w (fun _ w' =>
      (books e.identity w').standing = (books e.identity w).standing ↔
        Harmless e (books e.identity w)) := by
  obtain ⟨ws, hws⟩ := Option.ne_none_iff_exists'.mp hrow
  have hharmless : Harmless e (books e.identity w) ↔ ws = .failed ∨ ws = .canceled := by
    have hbooks : (books e.identity w).space.hash = none := hhash
    have hstatus : (books e.identity w).space.status = none := by
      rw [WorkflowKeyspace.status, hbooks, Option.bind_none]
    rw [Harmless, or_iff_right (fun h => h.1 hstatus), and_iff_right hbooks,
      show (books e.identity w).ledger.workflow = some ws from hws, Option.some.injEq,
      Option.some.injEq]
  have hfetch : Settles (ask (.fetchWorkflowRuntime e.identity)) w
      (fun r w' => r = none ∧ w' = w) := settles_ask (fun _ => ⟨hhash, rfl⟩)
  refine Settles.bind hfetch ?_
  rintro r w₁ ⟨rfl, rfl⟩
  refine settles_repairMissingRuntime (P := fun w' => (books e.identity w').standing =
    (books e.identity w₁).standing ↔ Harmless e (books e.identity w₁)) hws
    (fun hended => iff_of_true rfl (hharmless.mpr hended)) (fun hfailed hcanceled => ?_)
  refine (posts_persistAfterMissing_failed (b := books e.identity w₁) hrow w₁ rfl).mono
    (fun _ w' h => iff_of_false (standing_ne_of_ledger (fun hsame => hfailed ?_))
      (fun hended => (hharmless.mp hended).elim hfailed hcanceled))
  have hledger : (books e.identity w').ledger.workflow = some .failed := h
  rw [hsame] at hledger
  exact Option.some.inj (hws.symm.trans hledger)

end Programs

section Executions

variable {svc : Service} {req : WorkflowRequest} {log : Log} {σ : Pool Call Call.Reply World}

def singleJob : WorkflowRequest := requestOf [{ jobId := "a" }]

/-- The job is executed and its event handled, up to the end of the cleanup. -/
def completesAndCleansUp : List Act :=
  pass .scheduler 5 ++ pass .worker 6 ++ pass .completionHandler 13

def singleEvent : JobCompletionData := ⟨singleJob.identity, "a", .completed, .ok⟩

end Executions

end FlowPilot
