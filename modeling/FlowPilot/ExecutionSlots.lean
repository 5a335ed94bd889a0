import FlowPilot.ExecutionTidy

/-! The execution slots of a workflow in runs in which every command succeeds. The counter
`reserved_execution_slots` is the number of jobs that occupy a slot until a script takes a job out of
its slot without giving the slot back, which happens to failing workflows only. While the workflow
runs, a job waits for a slot only if all slots are taken, until a completion makes several jobs READY
while slots are free: it promotes one of them. -/

namespace FlowPilot

open WorkflowKeyspace WorkflowView

section Leaks

/-- The step takes a job out of a slot and does not give the slot back: a job of a running workflow
fails while another one is QUEUED, a running job ends in a workflow that has failed already, or a
worker finds that the workflow of its job has failed. -/
def WorkflowRequest.LeaksSlot (req : WorkflowRequest) (ev : Event Call World Env) : Prop :=
  let ks := ev.world.redis.workflows req.identity
  match ev.call with
  | .completeFailedJob k _ _ => k.identity = req.identity ∧
      ((ks.status = some .running ∧
        ∃ job ∈ req.jobs, job.jobId ≠ k.jobId ∧ ks.jobStatus job.jobId = some .queued) ∨
      (ks.status = some .failed ∧ ks.jobStatus k.jobId = some .running))
  | .trySetJobToRunning k => k.identity = req.identity ∧ ks.status = some .failed ∧
      ks.jobStatus k.jobId = some .pendingExecution
  | _ => False

instance (req : WorkflowRequest) (ev : Event Call World Env) : Decidable (req.LeaksSlot ev) := by
  unfold WorkflowRequest.LeaksSlot
  dsimp only
  induction ev.call using Call.casesOn <;> infer_instance

variable {svc : Service} {req : WorkflowRequest} {log : Log} {σ : Pool Call Call.Reply World}
  {p : Plan} {v : WorkflowView} {ev : Event Call World Env}

theorem leaksSlot_of_leaks {p : Plan} {L : List String} (hp : svc.Plans req p) (h : Tidy p L v)
    (hsees : Sees ev.call req.identity) (hspace : v.space = ev.world.redis.workflows req.identity)
    (hleaks : Leaks (served ev.call ev.env ev.world) v) : req.LeaksSlot ev := by
  obtain ⟨w, c, e⟩ := ev
  have hjobs : ∀ i, v.jobStatus i = (w.redis.workflows req.identity).jobStatus i := fun i =>
    congrArg (·.jobStatus i) hspace
  have hstatus : v.status = (w.redis.workflows req.identity).status :=
    congrArg WorkflowKeyspace.status hspace
  cases c with
  | trySetJobToRunning k =>
      have hk : k.identity = req.identity := Option.some.inj (hsees.resolve_left nofun)
      obtain ⟨hwf', hst⟩ : v.status = some .failed ∧ v.jobStatus k.jobId = some .pendingExecution :=
        hleaks
      exact ⟨hk, hstatus ▸ hwf', hjobs _ ▸ hst⟩
  | completeFailedJob k n jobIds =>
      have hk : k.identity = req.identity := Option.some.inj (hsees.resolve_left nofun)
      refine ⟨hk, ?_⟩
      have hcases : (v.status = some .running ∧ ∃ i, i ≠ k.jobId ∧ v.jobStatus i = some .queued) ∨
          (v.status = some .failed ∧ v.jobStatus k.jobId = some .running) := hleaks
      rcases hcases with ⟨hwf', i, hi, hst⟩ | ⟨hwf', hst⟩
      · obtain ⟨job, hjob, rfl⟩ := hp.exists_job
          (h.orderly.known i (fun hnone => by cases hnone.symm.trans hst))
        exact .inl ⟨hstatus ▸ hwf', job, hjob, hi, hjobs _ ▸ hst⟩
      · exact .inr ⟨hstatus ▸ hwf', hjobs _ ▸ hst⟩
  | _ => exact hleaks.elim

/-- In every execution in which all commands succeed and no step leaks a slot, the counter is the
number of jobs that occupy a slot. -/
theorem reservedSlots_exact (h : Executes Plain svc req log σ) (hok : Answered log)
    (hleaks : ∀ ev ∈ log, ¬ req.LeaksSlot ev) :
    (σ.world.redis.workflows req.identity).reserved =
      req.occupied (σ.world.redis.workflows req.identity) := by
  obtain ⟨p, hp, hrule⟩ := h.tidy hok
  have hreaches := hrule (fun _ v => SlotsExact p v.space)
    (fun ev => ¬ req.LeaksSlot ev) (fun v hv => by rw [SlotsExact, hv.counters])
    (fun log ev v v' hev hgood htidy _ hexact htakes hserves => by
      rcases hserves with ⟨rfl, -⟩ | ⟨hsees, hstep⟩
      · exact hexact
      · exact htidy.slots_step hstep hexact
          (fun hl => absurd (leaksSlot_of_leaks hp htidy hsees htakes.before hl) hgood))
    hleaks
  obtain ⟨toks, -, -, -, hexact⟩ := hreaches
  rw [hp.occupied_eq]
  exact hexact

theorem reservedSlots_threeJobs :
    ((played (serviceOf 2) threeJobs firstCompleted).2.world.redis.workflows
      threeJobs.identity).reserved = threeJobs.occupied
        ((played (serviceOf 2) threeJobs firstCompleted).2.world.redis.workflows
          threeJobs.identity) := by
  have hrun : Executes Plain (serviceOf 2) threeJobs _ _ :=
    executes_played firstCompleted (requestOf_plain _) (by decide +kernel)
  exact reservedSlots_exact hrun (by decide +kernel) (by decide +kernel)

def fragileJobs : WorkflowRequest :=
  requestOf [{ jobId := "a", maxRetries := .value 0 }, { jobId := "b", maxRetries := .value 0 }]

/-- A worker starts and executes a job, which fails, and reports it. -/
def workerFails (calls : Nat) : List Act :=
  .start .worker :: (List.replicate calls (.serve 0 {}) ++
    [.serve 0 { jobSucceeds := false }, .serve 0 {}])

/-- The first job fails while the second one is QUEUED: the second one is canceled, and its slot is
not given back. -/
def failsWhileQueued : List Act :=
  pass .scheduler 5 ++ workerFails 4 ++ pass .completionHandler 5

theorem reservedSlots_leak :
    Executes Plain (serviceOf 2) fragileJobs (played (serviceOf 2) fragileJobs failsWhileQueued).1
      (played (serviceOf 2) fragileJobs failsWhileQueued).2 ∧
    Answered (played (serviceOf 2) fragileJobs failsWhileQueued).1 ∧
    ((played (serviceOf 2) fragileJobs failsWhileQueued).2.world.redis.workflows
      fragileJobs.identity).status = some .failed ∧
    ((played (serviceOf 2) fragileJobs failsWhileQueued).2.world.redis.workflows
      fragileJobs.identity).reserved = 1 ∧
    fragileJobs.occupied ((played (serviceOf 2) fragileJobs
      failsWhileQueued).2.world.redis.workflows fragileJobs.identity) = 0 :=
  ⟨executes_played failsWhileQueued (requestOf_plain _) (by decide +kernel), by decide +kernel,
    by decide +kernel, by decide +kernel, by decide +kernel⟩

end Leaks

section Saturation

variable {p : Plan} {L l : List String} {x : Served} {v v' : WorkflowView} {i j : String}
  {ks ks' : WorkflowKeyspace} {ready : List String} {n : Int}

/-- A PENDING job that waits for one other job only. -/
def Plan.AwaitsOnly (p : Plan) (ks : WorkflowKeyspace) (i j : String) : Prop :=
  ks.jobStatus i = some .pending ∧ j ∈ p.deps i ∧
    ∀ d ∈ p.deps i, d ≠ j → ks.jobStatus d = some .completed

theorem Coherent.awaitsOnly (h : Coherent p ks) (hj : j ∈ p.ids)
    (hopen : ks.jobStatus j ≠ some .completed)
    (hfinished : Finished j ks ready ks') (hi : i ∈ ready) :
    p.AwaitsOnly ks i j := by
  obtain ⟨hij, hsucc, hlast⟩ := (hfinished.ready i).mp hi
  have hready : ks'.jobStatus i = some .ready := by
    rw [hfinished.jobStatus i hij, if_pos ⟨hsucc, hlast⟩]
  refine ⟨hlast.1, ((h.successors j hj hopen).2 i).mp hsucc, fun d hd hdj => ?_⟩
  have hdone := h.finishJob_unlocks hj hopen hfinished i hlast.1 (.inl hready) d hd
  rw [hfinished.jobStatus d hdj] at hdone
  split at hdone
  · cases hdone
  · exact hdone

/-- A job waits for a slot only if at least `n` slots are taken. -/
def Saturated (n : Int) (ks : WorkflowKeyspace) : Prop :=
  ks.waitingReady.members ≠ [] → n ≤ ks.counters.reserved

/-- Two jobs of a running workflow wait for nothing but the job that the success script completes. -/
def Releases (p : Plan) (x : Served) (v : WorkflowView) : Prop :=
  match x.label with
  | .success j _ => v.status = some .running ∧
      ∃ a b, a ≠ b ∧ p.AwaitsOnly v.space a j ∧ p.AwaitsOnly v.space b j
  | _ => False

theorem Releases.running (h : Releases p x v) : v.status = some .running := by
  rw [Releases] at h
  split at h
  · exact h.1
  · exact h.elim

theorem Saturated.congr (h : Saturated n ks) (hwaiting : ks'.waitingReady = ks.waitingReady)
    (hreserved : ks'.counters.reserved = ks.counters.reserved) : Saturated n ks' := by
  rw [Saturated, hwaiting, hreserved]
  exact h

theorem Saturated.promoteWaiting
    (h : ∀ a ∈ ks.waitingReady.members, ∀ b ∈ ks.waitingReady.members, a ≠ b →
      n ≤ ks.counters.reserved + 1) : Saturated n ks.promoteWaiting.2 := by
  rcases ks.promoteWaiting_cases with ⟨heq, hnil⟩ | ⟨i, m, hi, heq⟩
  · rw [heq, Saturated]
    exact fun hwaiting => absurd hnil hwaiting
  · rw [heq, Saturated, counters_queueWaiting,
      queueWaiting_waitingReady]
    intro hwaiting
    obtain ⟨a, ha⟩ := List.exists_mem_of_ne_nil _ hwaiting
    rw [SortedSet.mem_members_remove] at ha
    exact h a ha.1 i hi ha.2

theorem TidyStep.open_before (hstep : TidyStep p L x v l v')
    (hopen : v'.status = some .ready ∨ v'.status = some .running) :
    v.status = some .ready ∨ v.status = some .running := by
  rcases hstep.status with heq | ⟨hwf, -⟩ | ⟨hwf, -⟩ | ⟨-, ⟨hwf, -⟩ | hwf⟩
  · exact heq ▸ hopen
  · exact .inl hwf
  · exact .inr hwf
  · exact .inr hwf
  · rw [hwf] at hopen
    rcases hopen with hopen | hopen <;> cases hopen

/-- Every step of a workflow that goes on keeps it saturated, but for a completion that releases
several jobs while slots are free. -/
theorem Tidy.saturated_step (h : Tidy p L v) (hstep : TidyStep p L x v l v')
    (hn : n ≤ p.limit) (hsat : Saturated n v.space)
    (hgood : ∀ j ∈ p.ids, v.jobStatus j = some .running → Releases p x v →
      n ≤ v.space.counters.reserved)
    (hopen : v'.status = some .ready ∨ v'.status = some .running) : Saturated n v'.space := by
  have hclosed : ∀ {ws : WorkflowStatus}, v'.status = some ws → ws ≠ .ready → ws ≠ .running →
      Saturated n v'.space := by
    intro ws hws hready hrunning
    rw [hws] at hopen
    rcases hopen with hopen | hopen
    · exact absurd (Option.some.inj hopen) hready
    · exact absurd (Option.some.inj hopen) hrunning
  have hlimit : v.status = some .running → n ≤ v.space.counters.limit := fun hwf =>
    (h.inv.strong_of_running hwf).limit ▸ hn
  have hwaits : ∀ a ∈ v.space.waitingReady.members, n ≤ v.space.counters.reserved :=
    fun a ha => hsat (List.ne_nil_of_mem ha)
  cases hstep with
  | move | drop | claim | again | releaseCounted | releaseFailed | abort | mark => exact hsat
  | @first j now ks _ _ _ _ _ hcounters hsame =>
      refine hsat.congr hsame.waiting ?_
      change ks.counters.reserved = _
      rw [hcounters]
  | cancel _ _ _ _ hwf | strand _ _ _ _ hwf => exact hclosed hwf nofun nofun
  | expire | last => exact hclosed rfl nofun nofun
  | success _ _ _ _ hwf _ _ _ hslot => exact fun _ => (hlimit hwf).trans hslot
  | @successPromote j now ks ready hx hj hs hst hwf hfinished hretains hlt hslot =>
      rw [enqueue_space]
      have hstrong := h.inv.strong_of_running hwf
      have hreserved : v.space.counters.reserved ≤ ks.countCompleted.counters.reserved + 1 := by
        rw [counters_countCompleted, hfinished.counters]
        dsimp only
        split <;> omega
      refine Saturated.promoteWaiting (fun a ha b hb hab => (le_trans ?_ hreserved))
      -- a job that waited before finds all slots taken; otherwise two jobs were released
      rcases (hfinished.waiting a).mp ha with ha | ha
      · exact hwaits a ha
      rcases (hfinished.waiting b).mp hb with hb | hb
      · exact hwaits b hb
      refine hgood j (h.mem_ids hs) hst ?_
      rw [Releases, hx]
      have hopen : v.space.jobStatus j ≠ some .completed := fun hc => by cases hst.symm.trans hc
      exact ⟨hwf, a, b, hab,
        hstrong.coherent.awaitsOnly (h.mem_ids hs) hopen hfinished ((hfinished.ready a).mpr ha),
        hstrong.coherent.awaitsOnly (h.mem_ids hs) hopen hfinished ((hfinished.ready b).mpr hb)⟩
  | fail _ _ _ _ _ hfailed =>
      refine hclosed ?_ (nofun : WorkflowStatus.failed ≠ .ready) nofun
      rw [WorkflowView.status, dropCanceled_space]
      exact hfailed.status
  | failAgain _ _ _ _ _ hwf hfailed =>
      exact hclosed (hfailed.status.trans hwf) nofun nofun
  | retry _ _ _ _ hwf =>
      rcases hwf with hwf | ⟨hwf, hslot⟩
      · exact hclosed ((status_delayJob ..).trans hwf) nofun nofun
      · exact fun _ => (hlimit hwf).trans hslot
  | @retryPromote j st m hx hj hs hst hwf hslot =>
      rw [enqueue_space]
      refine Saturated.promoteWaiting (fun a ha _ _ _ => ?_)
      have hfull := hwaits a ha
      rw [counters_delayJob]
      dsimp only
      split <;> omega
  | requeue _ _ _ _ _ _ hnil => exact fun hwaiting => absurd hnil hwaiting
  | wait _ _ _ _ hwf hslot => exact fun _ => (hlimit hwf).trans hslot
  | @waitPromote j hx hj hs hst hwf hslot =>
      rw [enqueue_space]
      refine Saturated.promoteWaiting (fun a ha b hb hab => ?_)
      -- one of the two waited before
      have hwait : ∀ i, i ∈ (v.space.waitAgain j).waitingReady.members → i ≠ j →
          n ≤ v.space.counters.reserved := fun i hi hij =>
        hwaits i (((SortedSet.mem_members_add ..).mp hi).resolve_left hij)
      change n ≤ v.space.counters.reserved + 1
      by_cases haj : a = j
      · have hfull := hwait b hb (haj ▸ hab.symm)
        omega
      · have hfull := hwait a ha haj
        omega
  | erase _ _ hfull herased =>
      cases herased with
      | waiting => exact fun hwaiting => absurd rfl hwaiting
      | _ => exact hsat
  | deleteCounted | deleteFailed => rcases hopen with hopen | hopen <;> cases hopen

theorem Tidy.live_of_running (h : Tidy p L v) (hwf : v.status = some .running) : Live p v := by
  have hstrong := h.inv.strong_of_running hwf
  have hlt : L.length < p.ids.length := by
    have htotal := hstrong.total
    have hcompleted := hstrong.completed
    have hunfinished := hstrong.unfinished
    rcases h.counted.totals with ⟨-, hcount⟩ | ⟨-, hzero, -⟩ <;> omega
  rcases (h.unfinished hlt).phase with hlive | hfailed
  · exact hlive
  · cases hwf.symm.trans hfailed

def JobRequest.AwaitsOnly (job : JobRequest) (ks : WorkflowKeyspace) (j : String) : Prop :=
  ks.jobStatus job.jobId = some .pending ∧ j ∈ job.dependsOn ∧
    ∀ d ∈ job.dependsOn, d ≠ j → ks.jobStatus d = some .completed

instance (job : JobRequest) (ks : WorkflowKeyspace) (j : String) :
    Decidable (job.AwaitsOnly ks j) :=
  inferInstanceAs (Decidable (_ ∧ _ ∧ _))

/-- A job of a running workflow completes, and two others waited for nothing else. -/
def WorkflowRequest.ReleasesSeveral (req : WorkflowRequest) (ev : Event Call World Env) : Prop :=
  let ks := ev.world.redis.workflows req.identity
  match ev.call with
  | .completeSuccessfulJob k => k.identity = req.identity ∧ ks.status = some .running ∧
      ∃ a ∈ req.jobs, ∃ b ∈ req.jobs, a.jobId ≠ b.jobId ∧ a.AwaitsOnly ks k.jobId ∧
        b.AwaitsOnly ks k.jobId
  | _ => False

instance (req : WorkflowRequest) (ev : Event Call World Env) :
    Decidable (req.ReleasesSeveral ev) := by
  unfold WorkflowRequest.ReleasesSeveral
  dsimp only
  induction ev.call using Call.casesOn <;> infer_instance

variable {svc : Service} {req : WorkflowRequest} {log : Log} {σ : Pool Call Call.Reply World}
  {ev : Event Call World Env}

theorem Service.Plans.awaitsOnly (hp : svc.Plans req p) (h : p.AwaitsOnly ks i j) :
    ∃ job ∈ req.jobs, job.jobId = i ∧ job.AwaitsOnly ks j := by
  obtain ⟨hpending, hdep, hothers⟩ := h
  obtain ⟨job, hjob, rfl⟩ := hp.exists_job (p.deps_known i j hdep).1
  rw [hp.deps_job hjob] at hdep hothers
  exact ⟨job, hjob, rfl, hpending, hdep, hothers⟩

theorem releasesSeveral_of_releases (hp : svc.Plans req p)
    (hsees : Sees ev.call req.identity) (hspace : v.space = ev.world.redis.workflows req.identity)
    (h : Releases p (served ev.call ev.env ev.world) v) : req.ReleasesSeveral ev := by
  obtain ⟨w, c, e⟩ := ev
  cases c with
  | completeSuccessfulJob k =>
      have hk : k.identity = req.identity := Option.some.inj (hsees.resolve_left nofun)
      obtain ⟨hrun, a, b, hab, ha, hb⟩ : v.status = some .running ∧ ∃ a b, a ≠ b ∧
        p.AwaitsOnly v.space a k.jobId ∧ p.AwaitsOnly v.space b k.jobId := h
      rw [WorkflowView.status, hspace] at hrun
      rw [hspace] at ha hb
      obtain ⟨first, hfirst, rfl, hawaits⟩ := hp.awaitsOnly ha
      obtain ⟨second, hsecond, rfl, hawaits'⟩ := hp.awaitsOnly hb
      exact ⟨hk, hrun, first, hfirst, second, hsecond, hab, hawaits, hawaits'⟩
  | _ => exact h.elim

/-- In every execution in which all commands succeed, and in which a completion that releases several
jobs at once finds all slots taken, a job of the running workflow waits for a slot only if all slots
are taken. -/
theorem waiting_only_if_full {client : ClientConfig} (h : Executes Plain svc req log σ)
    (hok : Answered log) (hclient : svc.client req.clientId = some client)
    (hlimit : 0 ≤ client.policy.maxConcurrentJobs)
    (hfull : ∀ ev ∈ log, req.ReleasesSeveral ev →
      (req.occupied (ev.world.redis.workflows req.identity) : Int) =
        client.policy.maxConcurrentJobs)
    (hrun : (σ.world.redis.workflows req.identity).status = some .running)
    (hwaiting : (σ.world.redis.workflows req.identity).waitingReady.members ≠ []) :
    (req.occupied (σ.world.redis.workflows req.identity) : Int) =
      client.policy.maxConcurrentJobs := by
  obtain ⟨p, hp, hrule⟩ := h.tidy hok
  rw [← hp.limit hclient] at hlimit hfull ⊢
  have hreaches := hrule
    (fun _ v => v.status = some .ready ∨ v.status = some .running →
      Saturated p.limit v.space)
    (fun ev => req.ReleasesSeveral ev →
      (req.occupied (ev.world.redis.workflows req.identity) : Int) = p.limit)
    (fun v hv _ hwaiting => by
      rw [hv.counters]
      exact hv.spare hwaiting)
    (fun log ev v v' hev hgood htidy _ hsat htakes hserves hopen => by
      rcases hserves with ⟨rfl, -⟩ | ⟨hsees, hstep⟩
      · exact hsat hopen
      · refine htidy.saturated_step hstep le_rfl (hsat (hstep.open_before hopen))
          (fun _ _ _ hrel => ?_) hopen
        have hexact := (htidy.live_of_running hrel.running).slots
        have hfull := hgood (releasesSeveral_of_releases hp hsees htakes.before hrel)
        rw [hp.occupied_eq, ← htakes.before] at hfull
        exact (hexact.trans hfull).ge)
    hfull
  obtain ⟨toks, -, -, htidy, hsat⟩ := hreaches
  have hlive := htidy.live_of_running hrun
  have hle := hlive.strong.capped hlimit
  have hge := hsat (.inr hrun) hwaiting
  have hexact := hlive.slots
  rw [hp.occupied_eq]
  exact (hexact.symm).trans (le_antisymm hle hge)

/-- Of three jobs on two slots one is running and one QUEUED, and the third one waits. -/
theorem waiting_threeJobs :
    ((played (serviceOf 2) threeJobs (pass .scheduler 5 ++ pass .worker 2)).2.world.redis.workflows
      threeJobs.identity).waitingReady.members = ["c"] ∧
    (threeJobs.occupied ((played (serviceOf 2) threeJobs
      (pass .scheduler 5 ++ pass .worker 2)).2.world.redis.workflows threeJobs.identity) : Int) =
        2 := by
  have hrun : Executes Plain (serviceOf 2) threeJobs _ _ :=
    executes_played (pass .scheduler 5 ++ pass .worker 2) (requestOf_plain _) (by decide +kernel)
  have hclient : (serviceOf 2).client threeJobs.clientId =
    some { policy := { maxConcurrentJobs := 2 } } := rfl
  exact ⟨by decide +kernel, waiting_only_if_full hrun (by decide +kernel) hclient (by decide)
    (by decide +kernel) (by decide +kernel) (by decide +kernel)⟩

def fannedJobs : WorkflowRequest :=
  requestOf [{ jobId := "a" }, { jobId := "b", dependsOn := ["a"] },
    { jobId := "c", dependsOn := ["a"] }]

/-- The completion of the first job makes both others READY and promotes one of them, although two
slots are free. -/
theorem waiting_fannedJobs :
    Executes Plain (serviceOf 2) fannedJobs (played (serviceOf 2) fannedJobs firstCompleted).1
      (played (serviceOf 2) fannedJobs firstCompleted).2 ∧
    Answered (played (serviceOf 2) fannedJobs firstCompleted).1 ∧
    ((played (serviceOf 2) fannedJobs firstCompleted).2.world.redis.workflows
      fannedJobs.identity).status = some .running ∧
    ((played (serviceOf 2) fannedJobs firstCompleted).2.world.redis.workflows
      fannedJobs.identity).waitingReady.members ≠ [] ∧
    fannedJobs.occupied ((played (serviceOf 2) fannedJobs
      firstCompleted).2.world.redis.workflows fannedJobs.identity) = 1 :=
  ⟨executes_played firstCompleted (requestOf_plain _) (by decide +kernel), by decide +kernel,
    by decide +kernel, by decide +kernel, by decide +kernel⟩

end Saturation

end FlowPilot
