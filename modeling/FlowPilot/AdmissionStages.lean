import FlowPilot.AdmissionLimits
import FlowPilot.AdmissionSubmit
import FlowPilot.RuntimeRows

/-! When a request passes the stages of admission, in terms of the stores before it and of its body:
the script of Redis, the checks of `add_request`, and the reading of the jobs. -/

namespace FlowPilot

def Service.admitArgs (svc : Service) (client : ClientConfig) (req : WorkflowRequest) :
    Redis.AdmitArgs :=
  ⟨req.clientId, req.requestId, req.workflowId, client.maxConcurrentWorkflows, client.maxRequests,
    client.windowSec, svc.keyRetentionTtl⟩

/-- The checks of the admission script: the request key is free, the requests of the window leave room
for one more, and the workflow is not active and leaves the active ones within the limit. -/
structure PassesRedis (now : Int) (args : Redis.AdmitArgs) (r : Redis) : Prop where
  ttl : 0 < args.keyRetentionTtl
  request : r.requestStatus now (Redis.requestKey args.clientId args.requestId) = none
  rate : (r.rate now args.clientId now).getD 0 + 1 + r.earlierRequests now args ≤ args.maxRequests
  inactive : args.workflowId ∉ r.activeWorkflows args.clientId
  active : ((r.activeWorkflows args.clientId).card : Int) + 1 ≤ args.maxActiveWorkflows

theorem Redis.admitRequest_ok_iff {now : Int} {args : Redis.AdmitArgs} {r : Redis} :
    (r.admitRequest now args).1 = .ok () ↔ PassesRedis now args r := by
  constructor
  · intro h
    obtain ⟨hrate, hinactive, hactive, -⟩ := Redis.admitRequest_admitted h
    rw [Redis.earlierRequests_incrementRate] at hrate
    rw [Finset.card_insert_of_notMem hinactive] at hactive
    push_cast at hactive
    rw [Redis.admitRequest] at h
    dsimp only at h
    split at h
    · cases h
    · split at h
      · cases h
      · rename_i httl hkey
        exact ⟨not_le.mp httl, by simpa using hkey, hrate, hinactive, hactive⟩
  · intro h
    have hrate : ¬ (r.incrementRate now args).1 +
        (r.incrementRate now args).2.earlierRequests now args > args.maxRequests := by
      rw [Redis.earlierRequests_incrementRate]
      exact not_lt.mpr h.rate
    have hactive : ¬ ((insert args.workflowId (r.activeWorkflows args.clientId)).card : Int) >
        args.maxActiveWorkflows := by
      rw [Finset.card_insert_of_notMem h.inactive]
      push_cast
      exact not_lt.mpr h.active
    rw [Redis.admitRequest]
    dsimp only
    rw [if_neg (not_le.mpr h.ttl), h.request, if_neg (by simp)]
    split
    · rename_i hover
      exact absurd hover hrate
    · split
      · rename_i hmem
        exact absurd hmem h.inactive
      · split
        · rename_i hover
          exact absurd hover hactive
        · rfl

/-- The checks of `add_request`: the client has not used the request id, has room for one more active
workflow, and the body is not too large. -/
structure PassesSqlite (client : ClientConfig) (req : WorkflowRequest) (db : Sqlite) : Prop where
  request : (req.clientId, req.requestId) ∉ db.requestKeys
  active : (db.getClientActiveWorkflowsCount req.clientId : Int) < client.maxConcurrentWorkflows
  size : req.bodySize ≤ client.policy.maxWorkflowSizeKb * 1024

/-- No field of the job has a type that makes reading it throw. -/
def JobRequest.Readable (job : JobRequest) : Prop :=
  job.timeoutSec ≠ .illTyped ∧ job.maxRetries ≠ .illTyped ∧ job.retryDelaySec ≠ .illTyped ∧
    job.retryBackoffPolicy ≠ .illTyped ∧ job.payload ≠ none

instance (job : JobRequest) : Decidable job.Readable :=
  inferInstanceAs (Decidable (_ ∧ _ ∧ _ ∧ _ ∧ _))

/-- The fields of the job are within the limits of the client's policy, where a field that is left
out has its default. -/
def JobRequest.WithinPolicy (policy : PolicyPlan) (job : JobRequest) : Prop :=
  (job.dependsOn.length : Int) ≤ policy.maxJobDependencies ∧
    job.priority.getD policy.maxJobPriority ≤ policy.maxJobPriority ∧
    (∀ t ∈ job.timeoutSec.read policy.maxJobRuntimeSec, t ≤ policy.maxJobRuntimeSec) ∧
    (∀ n ∈ job.maxRetries.read policy.maxJobRetries, n ≤ policy.maxJobRetries) ∧
    ∀ d ∈ job.retryDelaySec.read 0, d ≤ policy.maxJobRetryDelaySec

/-- A job that cannot be read comes before any job that violates the policy. -/
def Throws (policy : PolicyPlan) (jobs : List JobRequest) : Prop :=
  ∃ before job after, jobs = before ++ job :: after ∧
    (∀ j ∈ before, j.Readable ∧ j.WithinPolicy policy) ∧ ¬ job.Readable

namespace WorkflowRuntimeGenerator

theorem read_eq_none {α : Type} {f : Field α} (fallback : α) :
    f.read fallback = none ↔ f = .illTyped := by
  cases f <;> simp [Field.read]

variable {policy : PolicyPlan} {job : JobRequest}

theorem jobRuntimeInfo_eq_none {uuid : Nat} :
    jobRuntimeInfo policy uuid job = none ↔ ¬ job.Readable := by
  simp only [JobRequest.Readable, ne_eq, not_and_or, not_not]
  rw [← read_eq_none policy.maxJobRuntimeSec, ← read_eq_none policy.maxJobRetries,
    ← read_eq_none (0 : Int), ← read_eq_none "IMMEDIAT", jobRuntimeInfo]
  cases job.timeoutSec.read policy.maxJobRuntimeSec with
  | none => simp
  | some t =>
      cases job.maxRetries.read policy.maxJobRetries with
      | none => simp
      | some n =>
          cases job.retryDelaySec.read 0 with
          | none => simp
          | some d =>
              cases job.retryBackoffPolicy.read "IMMEDIAT" with
              | none => simp
              | some b => cases job.payload <;> simp

theorem violatesPolicy_eq {uuid : Nat} {d : JobRuntimeData}
    (h : jobRuntimeInfo policy uuid job = some d) :
    violatesPolicy policy d = false ↔ job.WithinPolicy policy := by
  simp only [jobRuntimeInfo, Option.bind_eq_bind, Option.bind_eq_some_iff, Option.pure_def,
    Option.some.injEq] at h
  obtain ⟨t, ht, n, hn, delay, hdelay, backoff, hbackoff, payload, hpayload, rfl⟩ := h
  simp only [violatesPolicy, JobRequest.WithinPolicy, ht, hn, hdelay, Option.mem_some_iff,
    forall_eq', Bool.or_eq_false_iff, decide_eq_false_iff_not, not_lt]
  constructor
  · rintro ⟨⟨⟨⟨⟨-, hdeps⟩, hpriority⟩, htimeout⟩, hretries⟩, hretryDelay⟩
    exact ⟨hdeps, hpriority, htimeout, hretries, hretryDelay⟩
  · rintro ⟨hdeps, hpriority, htimeout, hretries, hretryDelay⟩
    exact ⟨⟨⟨⟨⟨by omega, hdeps⟩, hpriority⟩, htimeout⟩, hretries⟩, hretryDelay⟩

theorem throws_cons {rest : List JobRequest} :
    Throws policy (job :: rest) ↔
      ¬ job.Readable ∨ (job.Readable ∧ job.WithinPolicy policy ∧ Throws policy rest) := by
  constructor
  · rintro ⟨before, bad, after, heq, hbefore, hbad⟩
    cases before with
    | nil =>
        cases heq
        exact .inl hbad
    | cons j before =>
        cases heq
        obtain ⟨hreadable, hwithin⟩ := hbefore _ List.mem_cons_self
        exact .inr ⟨hreadable, hwithin, before, bad, after, rfl,
          fun j hj => hbefore j (List.mem_cons_of_mem _ hj), hbad⟩
  · rintro (hbad | ⟨hreadable, hwithin, before, bad, after, rfl, hbefore, hbad⟩)
    · exact ⟨[], job, rest, rfl, by simp, hbad⟩
    · exact ⟨job :: before, bad, after, rfl,
        List.forall_mem_cons.mpr ⟨⟨hreadable, hwithin⟩, hbefore⟩, hbad⟩

/-- The loop over the jobs stops at the first one that cannot be read or violates the policy. -/
theorem buildFrom_threw_iff {uuids : UuidSource} (jobs : List JobRequest)
    (n : Nat) (info : JobRuntimeMap) (ready : List PrioritizedJob) :
    buildFrom uuids policy n jobs info ready = .threw ↔ Throws policy jobs := by
  induction jobs generalizing n info ready with
  | nil =>
      constructor
      · intro h
        cases h
      · rintro ⟨before, bad, after, heq, -⟩
        exact absurd heq (by simp)
  | cons job rest ih =>
      rw [throws_cons, buildFrom]
      cases hinfo : jobRuntimeInfo policy (uuids.next n) job with
      | none =>
          have hbad := jobRuntimeInfo_eq_none.mp hinfo
          simp [hbad]
      | some d =>
          have hreadable : job.Readable := by
            by_contra hbad
            rw [jobRuntimeInfo_eq_none.mpr hbad] at hinfo
            cases hinfo
          have hpolicy := violatesPolicy_eq hinfo
          cases hviolates : violatesPolicy policy d with
          | true =>
              have hnot : ¬ job.WithinPolicy policy := by
                rw [← hpolicy, hviolates]
                exact Bool.noConfusion
              simp [hreadable, hnot, hviolates]
          | false =>
              have hwithin := hpolicy.mp hviolates
              simp [hreadable, hwithin, hviolates, ih]

theorem buildJobsRuntimeInfo_threw_iff {uuids : UuidSource} {jobs : List JobRequest} :
    buildJobsRuntimeInfo uuids policy jobs = .threw ↔ Throws policy jobs :=
  buildFrom_threw_iff jobs 0 [] []

end WorkflowRuntimeGenerator

end FlowPilot
