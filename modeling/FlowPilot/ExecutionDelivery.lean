import FlowPilot.AdmissionJson
import FlowPilot.ExecutionTidy
import FlowPilot.WorkflowHandling

/-! The payload of a job on its way from the request to a worker. Admission stores the bytes and their
number; a scheduler reads the number, fetches the bytes, compares, and hands the job over with what it
has fetched. `delivery` is the protocol of this one thread of data: what a suspended scheduler is about
to push. The bytes that a worker gets are always those that were cast from the request body, so they
are the numbers of the body exactly when the cast changes none of them. -/

namespace FlowPilot

/-- What a program carries of a payload. -/
inductive Delivery where
  | idle
  /-- the size of the payload was read -/
  | sized (k : JobKey) (size : Nat)
  /-- the job is to be pushed with this payload -/
  | parcel (e : JobExeData)
  /-- the payload did not come, or not in this size -/
  | misfit (k : JobKey)
  deriving DecidableEq, Repr

def Delivery.key : Delivery → Option JobKey
  | idle => none
  | sized k _ | misfit k => some k
  | parcel e => some e.key

/-- The calls that a program makes only while it carries something, and those of admission. -/
def Call.carries : Call → Bool
  | .fetchJobPayload _ | .pushLocal _ | .setJobRuntime _ _ | .setJobPayload _ _ => true
  | .enqueueJobCompletion e => e.errorCode == .internalDbFailure
  | _ => false

inductive Ships : (c : Call) → c.Reply → Delivery → Delivery → Prop where
  | passes {c : Call} (hc : c.carries = false) (r : c.Reply) : Ships c r .idle .idle
  | size (k : JobKey) (d : JobRuntimeData) :
      Ships (.fetchJobRuntime k) (true, d) .idle (.sized k d.payloadSizeBytes.toNat)
  | fits (k : JobKey) (bytes : List UInt8) :
      Ships (.fetchJobPayload k) (some bytes) (.sized k bytes.length)
        (.parcel ⟨k.identity, k.jobId, bytes⟩)
  | misfits (k : JobKey) {size : Nat} {r : Option (List UInt8)}
      (hr : ∀ bytes, r = some bytes → bytes.length ≠ size) :
      Ships (.fetchJobPayload k) r (.sized k size) (.misfit k)
  | push (e : JobExeData) : Ships (.pushLocal e) () (.parcel e) .idle
  | pushEmpty (k : JobKey) : Ships (.pushLocal ⟨k.identity, k.jobId, []⟩) () (.sized k 0) .idle
  | report {k : JobKey} {e : JobCompletionData} (he : e = Scheduler.payloadFailure k) (r : Bool) :
      Ships (.enqueueJobCompletion e) r (.misfit k) .idle

def delivery : Protocol Call Call.Reply Delivery where
  idle := .idle
  Move := Ships
  Final := fun q => q = .idle

section Programs

theorem delivery_of_onlyCalls {α : Type} {S : Call → Prop} {p : Task α} (hp : p.OnlyCalls S)
    (hS : ∀ c, S c → c.carries = false) : delivery.FollowsTo (fun _ q => q = .idle) p .idle :=
  .of_onlyCalls hp (fun c hc r => .passes (hS c hc) r)

theorem carries_of_judges {id : WorkflowIdentity} {c : Call} (h : JudgesAbout id c) :
    c.carries = false := by
  have hc := h.1
  cases c <;> first | rfl | cases hc

theorem reportPayloadFailure_delivery (k : JobKey) :
    delivery.Follows (Scheduler.reportPayloadFailure k) (.misfit k) :=
  fun r => ⟨_, .report rfl r, rfl⟩

theorem scheduler_delivery : delivery.Follows Scheduler.mainLoop .idle := by
  rintro (_ | k)
  · exact ⟨_, .passes rfl _, rfl⟩
  refine ⟨_, .passes rfl _, ?_⟩
  rintro (_ | _ | _)
  · exact ⟨_, .passes rfl _, rfl⟩
  · exact ⟨_, .passes rfl _, rfl⟩
  refine ⟨_, .passes rfl _, ?_⟩
  rintro (_ | _ | _)
  · exact ⟨_, .passes rfl _, rfl⟩
  · exact ⟨_, .passes rfl _, rfl⟩
  refine ⟨_, .passes rfl _, ?_⟩
  rintro ⟨_ | _, d⟩
  · exact ⟨_, .passes rfl _, rfl⟩
  refine ⟨_, .size k d, ?_⟩
  change delivery.FollowsTo _ (ite (d.payloadSizeBytes.toNat > 0) _ _) _
  generalize d.payloadSizeBytes.toNat = size
  split
  · rintro (_ | bytes)
    · exact ⟨_, .misfits k nofun, reportPayloadFailure_delivery k⟩
    by_cases hlength : bytes.length = size
    · subst hlength
      refine ⟨_, .fits k bytes, ?_⟩
      change delivery.FollowsTo _ (ite (bytes.length = bytes.length) _ _) _
      rw [if_pos rfl]
      exact fun _ => ⟨_, .push _, rfl⟩
    · refine ⟨_, .misfits k (fun _ h => Option.some.inj h ▸ hlength), ?_⟩
      change delivery.FollowsTo _ (ite (bytes.length = size) _ _) _
      rw [if_neg hlength]
      exact reportPayloadFailure_delivery k
  · rename_i hsize
    obtain rfl : size = 0 := by omega
    exact fun _ => ⟨_, .pushEmpty k, rfl⟩

theorem updateJobStatusToRunning_carries (k : JobKey) :
    (WorkerThread.updateJobStatusToRunning k).OnlyCalls (fun c => c.carries = false) := by
  have hask : ∀ c : Call, c.carries = false → (ask c).OnlyCalls (fun c => c.carries = false) :=
    fun _ hc => Prog.OnlyCalls.perform hc
  refine (hask _ rfl).bind (fun result => ?_)
  cases result with
  | firstToStart => exact onlyCalls_andThen (hask _ rfl) (hask _ rfl)
  | started => exact hask _ rfl
  | _ => trivial

theorem worker_delivery : delivery.Follows WorkerThread.runWorkerLoop .idle := by
  have hreport : ∀ e : JobCompletionData, e.errorCode ≠ .internalDbFailure →
      delivery.Follows (WorkerThread.updateCompletionHandler e) .idle := by
    intro e he r
    have hc : (Call.enqueueJobCompletion e).carries = false := beq_eq_false_iff_ne.mpr he
    exact ⟨_, .passes hc r, rfl⟩
  rintro (_ | job)
  · exact ⟨_, .passes rfl _, rfl⟩
  refine ⟨_, .passes rfl _, ?_⟩
  change delivery.FollowsTo _ (WorkerThread.updateJobStatusToRunning job.key >>= _) _
  refine Protocol.FollowsTo.bind (delivery_of_onlyCalls
    (updateJobStatusToRunning_carries job.key) (fun _ hc => hc)) ?_
  rintro (_ | _) q rfl
  · exact hreport ⟨job.identity, job.jobId, .aborted, .statusUpdatedFailure⟩ nofun
  · rintro (_ | _)
    · exact ⟨_, .passes rfl _, hreport ⟨job.identity, job.jobId, .failed, .jobExecutionFailure⟩ nofun⟩
    · exact ⟨_, .passes rfl _, hreport ⟨job.identity, job.jobId, .completed, .ok⟩ nofun⟩

theorem completionHandler_delivery : delivery.Follows CompletionHandler.mainLoop .idle := by
  rintro (_ | e)
  · exact ⟨_, .passes rfl _, rfl⟩
  refine ⟨_, .passes rfl _, ?_⟩
  change delivery.FollowsTo _ (CompletionHandler.processCompletedJobs e >>= _) _
  exact Protocol.FollowsTo.bind (delivery_of_onlyCalls (processCompletedJobs_judges e)
    (fun _ => carries_of_judges)) (fun _ q hq => hq)

theorem retryHandler_delivery : delivery.Follows RetryHandler.mainLoop .idle := by
  rintro (_ | k)
  · exact ⟨_, .passes rfl _, rfl⟩
  refine ⟨_, .passes rfl _, ?_⟩
  change delivery.FollowsTo _ (RetryHandler.processRetryJob k >>= _) _
  exact Protocol.FollowsTo.bind (delivery_of_onlyCalls (processRetryJob_judges (k := k))
    (fun _ => carries_of_judges)) (fun _ q hq => hq)

theorem engine_delivery (p : Task Unit) (h : (engine Plain).program p) :
    delivery.Follows p delivery.idle := by
  obtain ⟨c, rfl⟩ := h
  cases c with
  | scheduler => exact scheduler_delivery
  | worker => exact worker_delivery
  | completionHandler => exact completionHandler_delivery
  | retryHandler => exact retryHandler_delivery

end Programs

section Custody

variable {req : WorkflowRequest} {w : World} {c : Call} {e : Env} {q q' : Delivery}
  {Q : Multiset Delivery}

/-- The job is on its way with the payload of the request. -/
def WorkflowRequest.Sent (req : WorkflowRequest) (e : JobExeData) : Prop :=
  ∃ job ∈ req.jobs, job.jobId = e.jobId ∧ e.payload = job.payload.getD []

/-- What Redis has of the payloads is that of the request: a record with a retry limit is one that
admission wrote, with the size of the payload, and a payload is the one of its job. -/
structure Supplied (req : WorkflowRequest) (ks : WorkflowKeyspace) : Prop where
  sizes : ∀ j h, ks.jobs j = some h → h.maxRetries.isSome = true → ∃ job ∈ req.jobs,
    job.jobId = j ∧ h.payloadSizeBytes = some ((job.payload.getD []).length : Int)
  payloads : ∀ job ∈ req.jobs, ∀ bytes, ks.payloads job.jobId = some bytes →
    bytes = job.payload.getD []

theorem Supplied.of_erodes {ks ks' : WorkflowKeyspace} (h : Supplied req ks)
    (herodes : ks.Erodes ks') : Supplied req ks' where
  sizes := fun j hash hj hlimit => by
    have hkept := herodes.jobs j hash hj
    rw [hkept.retries] at hlimit
    cases hjob : ks.jobs j with
    | none =>
        rw [hjob] at hlimit
        cases hlimit
    | some old =>
        rw [hjob] at hlimit hkept
        rw [hkept.size]
        exact h.sizes j old hjob hlimit
  payloads := fun job hjob bytes hbytes =>
    h.payloads job hjob bytes (herodes.payloads job.jobId bytes hbytes)

/-- What a program carries for the workflow is what the request says. -/
def Delivery.Right (req : WorkflowRequest) : Delivery → Prop
  | .idle => True
  | .sized k size => k.identity = req.identity →
      ∃ job ∈ req.jobs, job.jobId = k.jobId ∧ size = (job.payload.getD []).length
  | .parcel e => e.identity = req.identity → req.Sent e
  | .misfit k => k.identity ≠ req.identity

/-- The payloads of the workflow, in Redis, in the hands of schedulers and in the local queues. -/
structure Ferried (req : WorkflowRequest) (w : World) (Q : Multiset Delivery) : Prop where
  supplied : Supplied req (w.redis.workflows req.identity)
  carried : ∀ q ∈ Q, q.Right req
  queued : ∀ e ∈ w.localQueue, e.identity = req.identity → req.Sent e

/-- A payload of the workflow that a scheduler asks for is there and comes. -/
def Fetches (req : WorkflowRequest) (ev : Event Call World Env) : Prop :=
  ∀ k, ev.call = .fetchJobPayload k → k.identity = req.identity →
    ev.env.ok = true ∧ (ev.world.redis.workflows k.identity).payloads k.jobId ≠ none

theorem exec_fetchJobRuntime {k : JobKey} {d : JobRuntimeData}
    (h : ((Call.fetchJobRuntime k).exec e w).1 = (true, d)) :
    (w.redis.workflows k.identity).fetchJobRuntime k.jobId = (true, d) := by
  rw [Call.exec] at h
  split at h
  · exact h
  · cases h

theorem exec_fetchJobPayload {k : JobKey} {bytes : List UInt8}
    (h : ((Call.fetchJobPayload k).exec e w).1 = some bytes) :
    (w.redis.workflows k.identity).payloads k.jobId = some bytes := by
  rw [Call.exec] at h
  split at h
  · exact h
  · cases h

theorem Ships.provides_eq_false {r : c.Reply} (h : Ships c r q q') : c.provides = false := by
  cases h with
  | passes hc => cases c <;> first | rfl | cases hc
  | _ => rfl

theorem Ships.right (h : Ships c (c.exec e w).1 q q') (hsupplied : Supplied req
    (w.redis.workflows req.identity)) (hq : q.Right req) (hfetches : Fetches req ⟨w, c, e⟩) :
    q'.Right req := by
  generalize hr : (c.exec e w).1 = r at h
  cases h with
  | passes => trivial
  | push | pushEmpty | report => trivial
  | size k d =>
      intro hk
      obtain ⟨hash, hjob, hlimit, hsize⟩ :=
        WorkflowKeyspace.fetchJobRuntime_fetched (exec_fetchJobRuntime hr)
      rw [hk] at hjob
      obtain ⟨job, hmem, hid, hbytes⟩ := hsupplied.sizes k.jobId hash hjob hlimit
      refine ⟨job, hmem, hid, ?_⟩
      rw [hsize, hbytes]
      rfl
  | fits k bytes =>
      intro hk
      obtain ⟨job, hmem, hid, -⟩ := hq hk
      have hbytes := exec_fetchJobPayload hr
      rw [show k.identity = req.identity from hk, ← hid] at hbytes
      exact ⟨job, hmem, hid, hsupplied.payloads job hmem bytes hbytes⟩
  | @misfits k size _ hmisfit =>
      intro hk
      obtain ⟨job, hmem, hid, hsize⟩ := hq hk
      obtain ⟨hok, hsome⟩ := hfetches k rfl hk
      obtain ⟨bytes, hbytes⟩ := Option.ne_none_iff_exists'.mp hsome
      have hreply : ((Call.fetchJobPayload k).exec e w).1 = some bytes := by
        rw [Call.exec, if_pos (by rw [show e.ok = true from hok]; rfl)]
        exact hbytes
      refine hmisfit bytes (hr.symm.trans hreply) ?_
      rw [show k.identity = req.identity from hk, ← hid] at hbytes
      rw [hsupplied.payloads job hmem bytes hbytes, hsize]

theorem mem_exec_localQueue {x : JobExeData} (h : x ∈ (c.exec e w).2.localQueue) :
    x ∈ w.localQueue ∨ c = .pushLocal x := by
  by_cases hpush : ∃ job, c = .pushLocal job
  · obtain ⟨job, rfl⟩ := hpush
    rw [Call.exec_of_isLocal rfl] at h
    rcases List.mem_append.mp h with h | h
    · exact .inl h
    · exact .inr (by rw [List.mem_singleton.mp h])
  · by_cases hpop : c = .popLocal
    · subst hpop
      rw [Call.exec_of_isLocal rfl] at h
      refine .inl ?_
      change x ∈ (Call.popSlot e.slot w.localQueue).2 at h
      rw [Call.popSlot] at h
      split at h
      · exact h
      · exact List.mem_of_mem_eraseIdx h
    · rw [Call.exec_localQueue (fun job heq => hpush ⟨job, heq⟩) hpop] at h
      exact .inl h

theorem Ferried.serve (h : Ferried req w (q ::ₘ Q)) (hship : Ships c (c.exec e w).1 q q')
    (hfetches : Fetches req ⟨w, c, e⟩) : Ferried req (c.exec e w).2 (q' ::ₘ Q) where
  supplied := h.supplied.of_erodes (exec_erodes hship.provides_eq_false _)
  carried := fun x hx => by
    rcases Multiset.mem_cons.mp hx with rfl | hx
    · exact hship.right h.supplied (h.carried q (Multiset.mem_cons_self ..)) hfetches
    · exact h.carried x (Multiset.mem_cons_of_mem hx)
  queued := fun x hx hid => by
    rcases mem_exec_localQueue hx with hx | rfl
    · exact h.queued x hx hid
    · have hq := h.carried q (Multiset.mem_cons_self ..)
      generalize ((Call.pushLocal x).exec e w).1 = r at hship
      cases hship with
      | passes hc => cases hc
      | push => exact hq hid
      | pushEmpty k =>
          obtain ⟨job, hmem, hjob, hsize⟩ := hq hid
          exact ⟨job, hmem, hjob, (List.eq_nil_of_length_eq_zero hsize.symm).symm⟩

/-- What is handed to a worker is what the request says, and no scheduler gives up on a payload. -/
structure Delivers (req : WorkflowRequest) (ev : Event Call World Env) : Prop where
  supplied : Supplied req (ev.world.redis.workflows req.identity)
  handed : ∀ job, ev.call = .popLocal → (Call.popLocal.exec ev.env ev.world).1 = some job →
    job.identity = req.identity → req.Sent job
  unreported : ∀ k, k.identity = req.identity →
    ev.call ≠ .enqueueJobCompletion (Scheduler.payloadFailure k)

theorem mem_localQueue_of_popLocal {job : JobExeData} (h : (Call.popLocal.exec e w).1 = some job) :
    job ∈ w.localQueue := by
  rw [Call.exec_of_isLocal rfl] at h
  change (Call.popSlot e.slot w.localQueue).1 = some job at h
  rw [Call.popSlot] at h
  split at h
  · cases h
  · rename_i hslot
    cases h
    exact List.mem_of_getElem? hslot

theorem Ferried.delivers (h : Ferried req w (q ::ₘ Q)) (hship : Ships c (c.exec e w).1 q q') :
    Delivers req ⟨w, c, e⟩ where
  supplied := h.supplied
  handed := fun job _ hjob hid => h.queued job (mem_localQueue_of_popLocal hjob) hid
  unreported := by
    rintro k hid rfl
    have hq := h.carried q (Multiset.mem_cons_self ..)
    generalize ((Call.enqueueJobCompletion (Scheduler.payloadFailure k)).exec e w).1 = r at hship
    cases hship with
    | passes hc => cases hc
    | report he =>
        rw [Scheduler.payloadFailure, Scheduler.payloadFailure, JobCompletionData.mk.injEq] at he
        exact hq (he.1 ▸ hid)

end Custody

section Runs

variable {svc : Service} {req : WorkflowRequest} {log : Log} {σ : Pool Call Call.Reply World}

/-- What a sane state says of a call that is served from it. -/
structure Vouches (ev : Event Call World Env) : Prop where
  recorded : ∀ id, (ev.call.exec ev.env ev.world).2.sqlite.recorded id =
    ev.world.sqlite.recorded id
  absent : ∀ id, ev.world.sqlite.recorded id = false → ev.world.redis.workflows id = {}

theorem run_vouches (h : (engine Plain).Run ⟨{}, []⟩ log σ) : ∀ ev ∈ log, Vouches ev := by
  have hstart : Covered protocol (fun (_ : Log) w T => Sane w T) [] ⟨{}, []⟩ :=
    ⟨[], List.Forall₂.nil, sane_start⟩
  refine System.Run.covered_events engine_follows ?_ ?_ ?_ ?_ h hstart
  · exact fun _ _ _ hs => hs.idle
  · exact fun _ _ _ _ hadmits hs => hs.admitted hadmits
  · exact fun _ _ _ _ _ _ _ hmove hs => hs.serve hmove
  · intro log w c e t t' T hmove hs
    exact ⟨fun id => (hs.simulated hmove id).recorded, fun id hid => (hs.absent id hid).space⟩

/-- Whatever is carried belongs to a workflow that SQLite knows. -/
def Booked (w : World) (Q : Multiset Delivery) : Prop :=
  ∀ q ∈ Q, ∀ k, q.key = some k → w.sqlite.recorded k.identity = true

theorem Vouches.key {w : World} {c : Call} {e : Env} {q q' : Delivery} (hvouches : Vouches ⟨w, c, e⟩)
    (hship : Ships c (c.exec e w).1 q q') {k : JobKey} (hk : q'.key = some k) :
    q.key = some k ∨ w.sqlite.recorded k.identity = true := by
  generalize hr : (c.exec e w).1 = r at hship
  cases hship with
  | size k' d =>
      cases hk
      obtain ⟨hash, hjob, -⟩ := WorkflowKeyspace.fetchJobRuntime_fetched (exec_fetchJobRuntime hr)
      refine .inr (Bool.not_eq_false _ ▸ fun hnew => ?_)
      rw [hvouches.absent _ hnew] at hjob
      cases hjob
  | fits | misfits => exact .inl hk
  | _ => cases hk

theorem run_booked (h : (engine Plain).Run ⟨{}, []⟩ log σ) :
    Covered delivery (fun _ w Q => Booked w Q) log σ := by
  refine System.Run.covered_of_good engine_delivery ?_ ?_ ?_ h (run_vouches h)
    ⟨[], List.Forall₂.nil, fun q hq => absurd hq (Multiset.notMem_zero q)⟩
  · intro log w Q hbooked q hq k hk
    rcases Multiset.mem_cons.mp hq with rfl | hq
    · cases hk
    · exact hbooked q hq k hk
  · rintro log w w' Q ⟨svc, req, -, hadmits⟩ hbooked q hq k hk
    exact hadmits.recorded (hbooked q hq k hk)
  · intro log w c e q q' Q hvouches hship hbooked x hx k hk
    refine (hvouches.recorded _).trans ?_
    rcases Multiset.mem_cons.mp hx with rfl | hx
    · rcases hvouches.key hship hk with hold | hrecorded
      · exact hbooked q (Multiset.mem_cons_self ..) k hold
      · exact hrecorded
    · exact hbooked x (Multiset.mem_cons_of_mem hx) k hk

theorem Accepted.supplied {client : ClientConfig} {info linked : JobRuntimeMap}
    {ready : List PrioritizedJob} {w w' : World} {T : Multiset Token}
    (h : Accepted svc client req info linked ready w.visible w'.visible)
    (habsent : Absent (view req.identity w T)) :
    Supplied req (w'.redis.workflows req.identity) := by
  have hspace : w'.redis.workflows req.identity = initialSpace svc client.policy req ready linked {} :=
    h.space_eq habsent
  rw [hspace]
  have hkeys := h.planned.initialKeys
  refine ⟨fun j hash hj _ => ?_, fun job hjob bytes hbytes => ?_⟩
  · by_cases hmem : j ∈ req.jobs.map JobRequest.jobId
    · obtain ⟨job, hjob, rfl⟩ := List.mem_map.mp hmem
      obtain ⟨d, hrecord, hstored, -⟩ := hkeys.job job hjob
      cases hstored.symm.trans hj
      exact ⟨job, hjob, rfl, congrArg some hrecord.size⟩
    · cases (hkeys.other j hmem).symm.trans hj
  · obtain ⟨d, -, -, -, hpayload⟩ := hkeys.job job hjob
    exact (Option.some.inj (hpayload.symm.trans hbytes)).symm

theorem dispatched_mem_stages {w : World} (T : Multiset Token) {x : JobExeData} (hx : x ∈ w.localQueue) :
    .dispatched ∈ (view x.identity w T).stages x.jobId := by
  refine mem_stagesOf.mpr ?_
  simp only [holdings, World.holdings, Multiset.mem_add, localHoldings, Multiset.mem_coe, List.mem_map]
  exact .inl (.inl (.inr ⟨x, hx, rfl⟩))

theorem Ferried.idle {w : World} {Q : Multiset Delivery} (h : Ferried req w Q) :
    Ferried req w (.idle ::ₘ Q) where
  supplied := h.supplied
  carried := fun q hq => by
    rcases Multiset.mem_cons.mp hq with rfl | hq
    · trivial
    · exact h.carried q hq
  queued := h.queued

theorem Ferried.admitted {w w' : World} {Q : Multiset Delivery} (h : Ferried req w Q)
    {svc' : Service} {req' : WorkflowRequest} (hadmits : Admits Call.exec svc' req' w w')
    (hrecorded : w.sqlite.recorded req.identity = true) : Ferried req w' Q := by
  obtain ⟨client, info, linked, ready, haccepted, -⟩ := hadmits.accepted
  have hspace : w'.redis.workflows req.identity = w.redis.workflows req.identity :=
    congrArg WorkflowView.space (haccepted.view_of_ne 0 (hadmits.ne_of_recorded hrecorded))
  have hqueue : w'.localQueue = w.localQueue := congrArg Visible.localQueue haccepted.stored
  refine ⟨hspace ▸ h.supplied, h.carried, ?_⟩
  rw [hqueue]
  exact h.queued

/-- A job is handed to a worker with the payload of the request, as long as the payloads that the
schedulers ask for come. -/
theorem Executes.delivers (h : Executes Plain svc req log σ) (hfetches : ∀ ev ∈ log, Fetches req ev) :
    ∀ ev ∈ log, Delivers req ev := by
  obtain ⟨log₀, σ₀, w₁, hbefore, hplain, hadmits, hrun⟩ := h
  obtain ⟨client, info, linked, ready, haccepted, -⟩ := hadmits.accepted
  have hvouches : ∀ ev ∈ log, Vouches ev := by
    have hall := run_vouches ((hbefore.trans (hadmits.run hplain)).trans hrun)
    exact fun ev hev => hall ev (List.mem_append_right _ hev)
  obtain ⟨toks, -, hsane⟩ := run_sane hbefore
  have habsent := hsane.absent _ hadmits.new
  obtain ⟨parcels, hfollows, hbooked⟩ := run_booked hbefore
  have hstart : Ferried req w₁ parcels := by
    refine ⟨haccepted.supplied habsent, fun q hq => ?_, fun x hx hid => ?_⟩
    · have hkey : ∀ k, q.key = some k → k.identity ≠ req.identity := fun k hk heq => by
        have hold := hbooked q hq k hk
        rw [heq, hadmits.new] at hold
        cases hold
      cases q with
      | idle => trivial
      | sized k size => exact fun hid => absurd hid (hkey k rfl)
      | parcel x => exact fun hid => absurd hid (hkey x.key rfl)
      | misfit k => exact hkey k rfl
    · have hqueue : w₁.localQueue = σ₀.world.localQueue := congrArg Visible.localQueue haccepted.stored
      rw [hqueue] at hx
      have hstage := dispatched_mem_stages (toks : Multiset Token) hx
      rw [hid] at hstage
      rw [habsent.stages] at hstage
      exact absurd hstage (Multiset.notMem_zero _)
  have hrecorded : w₁.sqlite.recorded req.identity = true := by
    rw [Sqlite.recorded_eq, haccepted.identities]
    simp
  have hcovered : Covered delivery (fun log w Q => w.sqlite.recorded req.identity = true ∧
      Ferried req w Q ∧ ∀ ev ∈ log, Delivers req ev) log σ := by
    refine System.Run.covered_of_good engine_delivery ?_ ?_ ?_ hrun
      (fun ev hev => And.intro (hvouches ev hev) (hfetches ev hev))
      ⟨parcels, hfollows, hrecorded, hstart, fun ev hev => absurd hev List.not_mem_nil⟩
    · rintro log w Q ⟨hrecorded, hferried, hlog⟩
      exact ⟨hrecorded, hferried.idle, hlog⟩
    · rintro log w w' Q ⟨svc', req', -, hadmits'⟩ ⟨hrecorded, hferried, hlog⟩
      exact ⟨hadmits'.recorded hrecorded, hferried.admitted hadmits' hrecorded, hlog⟩
    · rintro log w c e q q' Q ⟨hvouches, hfetches⟩ hship ⟨hrecorded, hferried, hlog⟩
      refine ⟨(hvouches.recorded _).trans hrecorded, hferried.serve hship hfetches, ?_⟩
      exact List.forall_mem_append.mpr ⟨hlog, List.forall_mem_singleton.mpr (hferried.delivers hship)⟩
  obtain ⟨-, -, -, -, hlog⟩ := hcovered
  exact hlog

/-- In an execution in which every command succeeds, the payload that a scheduler asks for is there,
and so are the record and the payload of a job that a worker takes. -/
theorem Executes.provided (h : Executes Plain svc req log σ) (hok : Answered log) :
    ∀ ev ∈ log, Fetches req ev ∧ ∀ x, ev.call = .popLocal →
      (Call.popLocal.exec ev.env ev.world).1 = some x → x.identity = req.identity →
      (ev.world.redis.workflows req.identity).Provided x.jobId := by
  obtain ⟨p, -, hrule⟩ := h.tidy hok
  have hreaches := hrule (fun log _ => ∀ ev ∈ log, Fetches req ev ∧ ∀ x, ev.call = .popLocal →
      (Call.popLocal.exec ev.env ev.world).1 = some x → x.identity = req.identity →
      (ev.world.redis.workflows req.identity).Provided x.jobId)
    (fun _ => True) (fun _ _ ev hev => absurd hev List.not_mem_nil) ?_ (fun _ _ => trivial)
  · obtain ⟨-, -, -, -, hlog⟩ := hreaches
    exact hlog
  intro log ev v v' hev _ htidy _ hlog htakes _
  refine List.forall_mem_append.mpr ⟨hlog, List.forall_mem_singleton.mpr ⟨?_, ?_⟩⟩
  · intro k hcall hk
    refine ⟨hev, ?_⟩
    obtain ⟨t, t', T, hsane, hmove, rfl, -⟩ := htakes
    obtain ⟨w, c, e⟩ := ev
    dsimp only at hcall hmove hsane htidy ⊢
    subst hcall
    generalize ((Call.fetchJobPayload k).exec e w).1 = r at hmove
    cases hmove with
    | stuck => exact absurd (Multiset.mem_cons_self ..) hsane.unstuck
    | payload _ size hsize r =>
        have hstages : (view req.identity w (.hold k (.fetched size) ::ₘ T)).stages k.jobId =
            .fetched size ::ₘ stagesOf (holdings w T) k := by
          show stagesOf (holdings w (.hold k (.fetched size) ::ₘ T)) ⟨req.identity, k.jobId⟩ = _
          rw [← hk, holdings_hold]
          exact stagesOf_cons_self k _ _
        obtain ⟨-, hid, -, hunfinished, -⟩ := htidy.busy hstages (fun _ => rfl)
        obtain ⟨_, bytes, -, -, hbytes, -⟩ := hunfinished.provided k.jobId hid
        rw [hk]
        exact fun hnone => by cases hbytes.symm.trans hnone
    | sqlite _ hc | countedDelete _ _ _ hc | failedSqlite _ _ _ hc | failedDelete _ _ hc => cases hc
  · intro x hcall hx hid
    obtain ⟨t, t', T, -, -, rfl, -⟩ := htakes
    have hstage := dispatched_mem_stages (t ::ₘ T) (mem_localQueue_of_popLocal hx)
    rw [hid] at hstage
    obtain ⟨rest, hrest⟩ := Multiset.exists_cons_of_mem hstage
    obtain ⟨-, hmem, -, hunfinished, -⟩ := htidy.busy hrest (fun _ => rfl)
    exact hunfinished.provided x.jobId hmem

theorem payload_of_described {policy : PolicyPlan} {job : JobRequest} {d : JobRuntimeData}
    (h : WorkflowRuntimeGenerator.Describes policy job d) : ∃ bytes, job.payload = some bytes := by
  obtain ⟨uuid, hd⟩ := h
  have hreadable : job.Readable := by
    by_contra hnot
    cases (WorkflowRuntimeGenerator.jobRuntimeInfo_eq_none.mpr hnot).symm.trans hd
  exact Option.ne_none_iff_exists'.mp hreadable.2.2.2.2

/-- A worker takes the job. -/
def HandedOver (x : JobExeData) (ev : Event Call World Env) : Prop :=
  ev.call = .popLocal ∧ (Call.popLocal.exec ev.env ev.world).1 = some x

/-- The record of the job says how long its payload is. -/
def SizeStored (x : JobExeData) (w : World) : Prop :=
  ∃ h, (w.redis.workflows x.identity).jobs x.jobId = some h ∧
    h.payloadSizeBytes = some (x.payload.length : Int)

/-- In every execution in which every command succeeds, no scheduler gives up on a payload, and each
job that a worker takes comes with a payload of the stored size; it consists of the numbers of the
request body exactly when all of these are whole numbers between 0 and 255. -/
theorem payload_arrives_iff (casts : FloatCasts) (svc : Service) (body : WorkflowBody) (log : Log)
    (σ : Pool Call Call.Reply World) (h : Executes Plain svc (body.request casts) log σ)
    (hok : Answered log) :
    (∀ ev ∈ log, ∀ k, k.identity = body.identity →
      ev.call ≠ .enqueueJobCompletion (Scheduler.payloadFailure k)) ∧
    ∀ ev ∈ log, ∀ x, HandedOver x ev → x.identity = body.identity →
      ∃ job ∈ body.jobs, job.jobId = x.jobId ∧ SizeStored x ev.world ∧
        (job.Arrives x.payload ↔ ∀ v ∈ job.payload, v.IsByte) := by
  have hprovided := h.provided hok
  have hdelivers := h.delivers (fun ev hev => (hprovided ev hev).1)
  refine ⟨fun ev hev k hk => (hdelivers ev hev).unreported k hk, ?_⟩
  rintro ev hev x ⟨hcall, hx⟩ hid
  obtain ⟨job, hjob, hname, hpayload⟩ := (hdelivers ev hev).handed x hcall hx hid
  obtain ⟨jobBody, hmem, rfl⟩ := List.mem_map.mp hjob
  -- an accepted body has a payload of bytes, and the stored size is the length of what is stored
  obtain ⟨bytes, hbytes⟩ : ∃ bytes, (jobBody.request casts).payload = some bytes := by
    obtain ⟨_, _, _, -, -, hadmits, -⟩ := h
    obtain ⟨client, info, linked, ready, haccepted, -⟩ := hadmits.accepted
    obtain ⟨hdescribed, -⟩ := WorkflowRuntimeGenerator.buildFrom_described haccepted.built
    obtain ⟨d, hd, -⟩ := hdescribed _ hjob
    exact payload_of_described hd
  have hsame : x.payload = bytes := by
    rw [hpayload, hbytes]
    rfl
  refine ⟨jobBody, hmem, hname, ?_, ?_⟩
  · obtain ⟨hash, stored, hrecord, -, hstored, hsize⟩ := (hprovided ev hev).2 x hcall hx hid
    refine ⟨hash, hid ▸ hrecord, ?_⟩
    have hname' : (jobBody.request casts).jobId = x.jobId := hname
    rw [hsize, (hdelivers ev hev).supplied.payloads _ hjob stored (hname' ▸ hstored), hpayload]
  · rw [hsame]
    exact Json.numbers_eq_iff hbytes

end Runs

section Samples

/-- A body for a workflow of one job with this payload. -/
def bodyOf (payload : List Json) : WorkflowBody where
  clientId := "client"
  requestId := "request"
  workflowId := "workflow"
  workflowType := "batch"
  jobs := [{ jobId := "a", payload }]

def fetchesAndTakes : List Act := pass .scheduler 6 ++ pass .worker 1

/-- That schedule, played after the admission of the body. -/
def playedBody (payload : List Json) : Log × Pool Call Call.Reply World :=
  played (serviceOf 1) ((bodyOf payload).request .smallest) fetchesAndTakes

theorem executes_playedBody (payload : List Json)
    (hvalid : (admission (serviceOf 1) ((bodyOf payload).request .smallest)).1.map
      ValidationResult.valid = some true) :
    Executes Plain (serviceOf 1) ((bodyOf payload).request .smallest) (playedBody payload).1
      (playedBody payload).2 :=
  executes_played _ (show (WorkflowIdentity.mk "client" "workflow").Plain by decide) hvalid

theorem payload_arrives_of_bytes :
    Executes Plain (serviceOf 1) ((bodyOf [.integer 0, .integer 255]).request .smallest)
      (playedBody [.integer 0, .integer 255]).1 (playedBody [.integer 0, .integer 255]).2 ∧
    Answered (playedBody [.integer 0, .integer 255]).1 ∧
    ∀ ev ∈ (playedBody [.integer 0, .integer 255]).1, ∀ x, HandedOver x ev →
      x.identity = ⟨"client", "workflow"⟩ → ∃ job ∈ (bodyOf [.integer 0, .integer 255]).jobs,
        job.jobId = x.jobId ∧ SizeStored x ev.world ∧
          (job.Arrives x.payload ↔ ∀ v ∈ job.payload, v.IsByte) := by
  have hrun := executes_playedBody [.integer 0, .integer 255] (by decide +kernel)
  have hok : Answered (playedBody [.integer 0, .integer 255]).1 := by decide +kernel
  exact ⟨hrun, hok, (payload_arrives_iff .smallest (serviceOf 1) _ _ _ hrun hok).2⟩

/-- The number 300 arrives as 44. -/
theorem payload_narrowed :
    Executes Plain (serviceOf 1) ((bodyOf [.integer 300]).request .smallest) (playedBody [.integer 300]).1
      (playedBody [.integer 300]).2 ∧ Answered (playedBody [.integer 300]).1 ∧
    (∃ ev ∈ (playedBody [.integer 300]).1,
      HandedOver ⟨⟨"client", "workflow"⟩, "a", [44]⟩ ev) ∧
    ¬ JobBody.Arrives { jobId := "a", payload := [.integer 300] } [44] := by
  refine ⟨executes_playedBody _ (by decide +kernel), by decide +kernel, ?_, by decide +kernel⟩
  refine ⟨(playedBody [.integer 300]).1.get ⟨6, by decide +kernel⟩, List.get_mem _ _, ?_⟩
  exact ⟨rfl, by decide +kernel⟩

end Samples

end FlowPilot
