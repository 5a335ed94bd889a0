import FlowPilot.AdmissionPlan
import FlowPilot.AdmissionStages
import FlowPilot.StoreRecords
import Mathlib.Data.Rat.Cast.Order

/-! The numbers of a request body. The schema says nothing about `timeout_sec`, the other limits of a
job or the items of a payload, and the JSON library reads each of them with a `static_cast` to the
type that is asked for: whole numbers are taken modulo the width, fractions are cut off. `JobRequest`
is what the casts leave of a job; here are the casts, and what follows for the limit on the run time
of a job. -/

namespace FlowPilot

/-- A JSON value. Whole numbers of 64 bits are kept as they are, all others as a double. No number is
read from an array or an object. -/
inductive Json where
  | null
  | boolean (b : Bool)
  | integer (n : Int)
  | float (q : Rat)
  | string (s : String)
  | structured
  deriving DecidableEq, Repr

/-- What the compiler makes of a double that does not fit the type it is cast to; C++ leaves it
open. -/
structure FloatCasts where
  toInt : Rat → Int
  toByte : Rat → UInt8
  toInt_range : ∀ q, -2147483648 ≤ toInt q ∧ toInt q ≤ 2147483647

/-- The smallest number, as on x86-64, and the zero byte. -/
def FloatCasts.smallest : FloatCasts where
  toInt := fun _ => -2147483648
  toByte := fun _ => 0
  toInt_range := fun _ => by decide

namespace Json

def truncate (q : Rat) : Int := q.num.tdiv q.den

variable (casts : FloatCasts)

/-- `get<int>()`; `none` when it throws. -/
def getInt : Json → Option Int
  | integer n => some (n.bmod 4294967296)
  | float q => some (if -2147483648 ≤ truncate q ∧ truncate q ≤ 2147483647 then truncate q
      else casts.toInt q)
  | boolean b => some (if b then 1 else 0)
  | _ => none

/-- `get<uint8_t>()`. -/
def getByte : Json → Option UInt8
  | integer n => some (UInt8.ofInt n)
  | float q => some (if 0 ≤ truncate q ∧ truncate q ≤ 255 then UInt8.ofInt (truncate q)
      else casts.toByte q)
  | boolean b => some (if b then 1 else 0)
  | _ => none

/-- `get<std::string>()`. -/
def getString : Json → Option String
  | string s => some s
  | _ => none

/-- A member of an object, read with `get`. -/
def field {α : Type} (get : Json → Option α) : Option Json → Field α
  | none => .absent
  | some v => match get v with
    | none => .illTyped
    | some a => .value a

def number : Json → Option Rat
  | integer n => some n
  | float q => some q
  | _ => none

end Json

/-- A value is a whole number between 0 and 255. -/
def Json.IsByte (v : Json) : Prop := ∃ n : Nat, n ≤ 255 ∧ v.number = some (n : Rat)

section Bytes

variable {casts : FloatCasts}

theorem toNat_ofInt (n : Int) : ((UInt8.ofInt n).toNat : Int) = n % 256 := by
  rw [UInt8.ofInt, UInt8.toNat_ofNat']
  omega

theorem Json.number_eq_getByte_iff {v : Json} {b : UInt8} (h : v.getByte casts = some b) :
    v.number = some (b.toNat : Rat) ↔ v.IsByte := by
  have hb : b.toNat ≤ 255 := Nat.le_of_lt_succ b.toNat_lt
  refine ⟨fun heq => ⟨b.toNat, hb, heq⟩, ?_⟩
  rintro ⟨n, hn, heq⟩
  rw [heq, Option.some.injEq, Nat.cast_inj]
  cases v with
  | integer m =>
      have hm : m = n := Int.cast_injective (Option.some.inj heq)
      have hcast := toNat_ofInt m
      rw [Option.some.inj h] at hcast
      omega
  | float q =>
      have hq : truncate q = n := by
        rw [Option.some.inj heq, truncate, Rat.num_natCast, Rat.den_natCast]
        exact Int.tdiv_one _
      rw [getByte, hq, if_pos (by omega), Option.some.injEq] at h
      have hcast := toNat_ofInt n
      rw [h] at hcast
      omega
  | _ => cases heq

theorem Json.mapM_getByte {vs : List Json} {bytes : List UInt8}
    (h : vs.mapM (getByte casts) = some bytes) :
    List.Forall₂ (fun v b => v.getByte casts = some b) vs bytes := by
  induction vs generalizing bytes with
  | nil =>
      cases h
      exact .nil
  | cons v rest ih =>
      rw [List.mapM_cons, Option.bind_eq_bind, Option.bind_eq_some_iff] at h
      obtain ⟨b, hv, h⟩ := h
      rw [Option.bind_eq_bind, Option.bind_eq_some_iff] at h
      obtain ⟨tail, hrest, htail⟩ := h
      cases htail
      exact .cons hv (ih hrest)

/-- The bytes are the numbers they were cast from exactly when all of these are bytes. -/
theorem Json.numbers_eq_iff {vs : List Json} {bytes : List UInt8}
    (h : vs.mapM (getByte casts) = some bytes) :
    vs.map number = bytes.map (fun b => some (b.toNat : Rat)) ↔ ∀ v ∈ vs, v.IsByte := by
  have hbytes := mapM_getByte h
  clear h
  induction hbytes with
  | nil => simp
  | cons hv _ ih =>
      rw [List.map_cons, List.map_cons, List.cons.injEq, List.forall_mem_cons]
      exact and_congr (number_eq_getByte_iff hv) ih

end Bytes

/-- A job of a request body that the schema admits. -/
structure JobBody where
  jobId : String
  dependsOn : List String := []
  priority : Option Int := none
  timeoutSec : Option Json := none
  maxRetries : Option Json := none
  retryDelaySec : Option Json := none
  retryBackoffPolicy : Option Json := none
  payload : List Json := []
  dumpSize : Nat := 0
  deriving DecidableEq, Repr

namespace JobBody

variable (casts : FloatCasts)

/-- The job as the engine reads it. -/
def request (body : JobBody) : JobRequest where
  jobId := body.jobId
  dependsOn := body.dependsOn
  priority := body.priority
  timeoutSec := Json.field (Json.getInt casts) body.timeoutSec
  maxRetries := Json.field (Json.getInt casts) body.maxRetries
  retryDelaySec := Json.field (Json.getInt casts) body.retryDelaySec
  retryBackoffPolicy := Json.field Json.getString body.retryBackoffPolicy
  payload := body.payload.mapM (Json.getByte casts)
  dumpSize := body.dumpSize

/-- The body gives no limit, or one that is read as a positive number. -/
def LimitsRuntime (body : JobBody) : Prop :=
  ∀ v, body.timeoutSec = some v → ∀ n, v.getInt casts = some n → 1 ≤ n

/-- The payload, as the numbers it consists of. -/
def Arrives (body : JobBody) (payload : List UInt8) : Prop :=
  body.payload.map Json.number = payload.map (fun b => some (b.toNat : Rat))

instance (body : JobBody) (payload : List UInt8) : Decidable (body.Arrives payload) :=
  inferInstanceAs (Decidable (_ = _))

end JobBody

/-- A request body that the schema admits. -/
structure WorkflowBody where
  clientId : String
  requestId : String
  workflowId : String
  workflowType : String
  jobs : List JobBody
  bodySize : Int := 0
  deriving DecidableEq, Repr

/-- The request as the engine reads it. -/
def WorkflowBody.request (casts : FloatCasts) (body : WorkflowBody) : WorkflowRequest where
  clientId := body.clientId
  requestId := body.requestId
  workflowId := body.workflowId
  workflowType := body.workflowType
  jobs := body.jobs.map (JobBody.request casts)
  bodySize := body.bodySize

def WorkflowBody.identity (body : WorkflowBody) : WorkflowIdentity := ⟨body.clientId, body.workflowId⟩

namespace WorkflowRuntimeGenerator

section Limits

variable {uuids : UuidSource} {policy : PolicyPlan}

variable {d : JobRuntimeData}

theorem mem_put {e : JobRuntimeData} {m : JobRuntimeMap} (h : e ∈ m.put d) : e = d ∨ e ∈ m := by
  rw [JobRuntimeMap.put] at h
  split at h
  · obtain ⟨e', he', heq⟩ := List.mem_map.mp h
    split at heq
    · exact .inl heq.symm
    · exact .inr (heq ▸ he')
  · exact (List.mem_append.mp h).symm.imp_left List.mem_singleton.mp

/-- Each job of a request that `build_jobs_runtime_info` accepts has a record that keeps to the
policy, and no other records are made. -/
theorem buildFrom_described {jobs : List JobRequest} {n : Nat} {acc info : JobRuntimeMap}
    {queue ready : List PrioritizedJob} (h : buildFrom uuids policy n jobs acc queue = .built info ready) :
    (∀ job ∈ jobs, ∃ d, Describes policy job d ∧ violatesPolicy policy d = false) ∧
    ∀ d ∈ info, d ∈ acc ∨
      ∃ job ∈ jobs, Describes policy job d ∧ violatesPolicy policy d = false := by
  induction jobs generalizing n acc queue with
  | nil =>
      cases h
      exact ⟨fun job hjob => absurd hjob List.not_mem_nil, fun d hd => .inl hd⟩
  | cons job rest ih =>
      rw [buildFrom] at h
      split at h
      · cases h
      · rename_i d hd
        split at h
        · cases h
        · rename_i hallowed
          obtain ⟨hrest, hinfo⟩ := ih h
          have hjob : Describes policy job d ∧ violatesPolicy policy d = false :=
            ⟨⟨_, hd⟩, Bool.not_eq_true _ ▸ hallowed⟩
          refine ⟨List.forall_mem_cons.mpr ⟨⟨d, hjob⟩, hrest⟩, ?_⟩
          intro e he
          rcases hinfo e he with hput | ⟨job', hjob', hdescribes⟩
          · rcases mem_put hput with rfl | hold
            · exact .inr ⟨job, List.mem_cons_self, hjob⟩
            · exact .inl hold
          · exact .inr ⟨job', List.mem_cons_of_mem job hjob', hdescribes⟩

/-- Whatever scripts have made of the record since it was stored, the job has expired once it has been
running for longer than the limit. -/
def EndsInTime (limit : Int) (d : JobRuntimeData) : Prop :=
  ∀ (ks : WorkflowKeyspace) (h : JobHash) (s now : Int), ks.jobs d.jobId = some h →
    (RedisDatabase.jobHash d).Kept h → h.startRunTime = some s → 0 < s → s + limit < now →
    CompletionHandler.isJobRuntimeExpired (ks.fetchJobRuntime d.jobId).2 now = true

theorem jobHash_readable (hstatus : d.status.isSome = true) :
    (RedisDatabase.jobHash d).Readable := ⟨hstatus, rfl, rfl, rfl, rfl, rfl, rfl, rfl⟩

theorem expired_fetched {ks : WorkflowKeyspace} {h : JobHash} {s now : Int}
    (hstatus : d.status.isSome = true) (hjob : ks.jobs d.jobId = some h)
    (hkept : (RedisDatabase.jobHash d).Kept h) (hstart : h.startRunTime = some s) :
    CompletionHandler.isJobRuntimeExpired (ks.fetchJobRuntime d.jobId).2 now = true ↔
      0 < s ∧ 0 < d.timeoutSec ∧ now - s > d.timeoutSec := by
  obtain ⟨-, -, htimeout, htime⟩ := WorkflowKeyspace.fetchJobRuntime_of_readable hjob
    ((jobHash_readable hstatus).of_kept hkept)
  rw [CompletionHandler.isJobRuntimeExpired, decide_eq_true_iff, htimeout, htime, hkept.timeout, hstart]
  rfl

theorem endsInTime_iff {limit : Int} (hstatus : d.status.isSome = true)
    (hle : d.timeoutSec ≤ limit) : EndsInTime limit d ↔ 1 ≤ d.timeoutSec := by
  constructor
  · intro hends
    let h : JobHash := { RedisDatabase.jobHash d with startRunTime := some 1 }
    let ks : WorkflowKeyspace := { jobs := fun _ => some h }
    have hkept : (RedisDatabase.jobHash d).Kept h := ⟨id, id, rfl, rfl, rfl, id, rfl, rfl, rfl⟩
    have hjob : ks.jobs d.jobId = some h := rfl
    have hstart : h.startRunTime = some 1 := rfl
    have hexpired := hends ks h 1 (limit + 2) hjob hkept hstart (by omega) (by omega)
    exact ((expired_fetched hstatus hjob hkept hstart).mp hexpired).2.1
  · intro hpositive ks h s now hjob hkept hstart hs hnow
    exact (expired_fetched hstatus hjob hkept hstart).mpr ⟨hs, by omega, by omega⟩

variable {casts : FloatCasts}

theorem timeout_positive_iff {body : JobBody}
    (hlimit : 0 < policy.maxJobRuntimeSec) (hd : Describes policy (body.request casts) d) :
    1 ≤ d.timeoutSec ↔ body.LimitsRuntime casts := by
  obtain ⟨uuid, hd⟩ := hd
  obtain ⟨-, -, -, -, -, -, -, -, -, hread⟩ := jobRuntimeInfo_eq_some hd
  rw [show (body.request casts).timeoutSec = Json.field (Json.getInt casts) body.timeoutSec from rfl]
    at hread
  cases hbody : body.timeoutSec with
  | none =>
      rw [hbody] at hread
      have heq : policy.maxJobRuntimeSec = d.timeoutSec := Option.some.inj hread
      simp only [JobBody.LimitsRuntime, hbody, reduceCtorEq, false_implies, implies_true, iff_true]
      omega
  | some v =>
      rw [hbody, Json.field] at hread
      cases hv : v.getInt casts with
      | none =>
          rw [hv] at hread
          cases hread
      | some n =>
          rw [hv] at hread
          have heq : n = d.timeoutSec := Option.some.inj hread
          subst heq
          simp [JobBody.LimitsRuntime, hbody, hv]

/-- The record is one of the job, and its limit is enforced exactly when the body limits the run time,
which is when the record has a positive limit within the policy. -/
structure KeepsLimit (casts : FloatCasts) (policy : PolicyPlan) (body : JobBody) (d : JobRuntimeData) :
    Prop where
  describes : Describes policy (body.request casts) d
  enforced : EndsInTime policy.maxJobRuntimeSec d ↔ body.LimitsRuntime casts
  positive : (1 ≤ d.timeoutSec ∧ d.timeoutSec ≤ policy.maxJobRuntimeSec) ↔ body.LimitsRuntime casts

theorem keepsLimit_of_describes {body : JobBody} (hlimit : 0 < policy.maxJobRuntimeSec)
    (hd : Describes policy (body.request casts) d) (hallowed : violatesPolicy policy d = false) :
    KeepsLimit casts policy body d := by
  have hstatus : d.status.isSome = true := by
    obtain ⟨_, hinfo⟩ := hd
    rw [(jobRuntimeInfo_eq_some hinfo).2.2.1]
    rfl
  have hle : d.timeoutSec ≤ policy.maxJobRuntimeSec := by
    simp only [violatesPolicy, Bool.or_eq_false_iff, decide_eq_false_iff_not] at hallowed
    exact Int.not_lt.mp hallowed.1.1.2
  have hpositive := timeout_positive_iff hlimit hd
  exact ⟨hd, (endsInTime_iff hstatus hle).trans hpositive, (and_iff_left hle).trans hpositive⟩

/-- The limit on the run time of an accepted job is enforced exactly when the body gives none or one
that is read as a positive number: the policy is checked from above only, and a limit that is not
positive never expires. With distinct job ids every job has its record among the stored ones. -/
theorem runtime_limit_enforced_iff (casts : FloatCasts) (uuids : UuidSource) (policy : PolicyPlan)
    (bodies : List JobBody) (info : JobRuntimeMap) (ready : List PrioritizedJob)
    (hlimit : 0 < policy.maxJobRuntimeSec)
    (hbuilt : buildJobsRuntimeInfo uuids policy (bodies.map (JobBody.request casts)) = .built info ready) :
    (∀ d ∈ info, ∃ body ∈ bodies, KeepsLimit casts policy body d) ∧
    ∀ body ∈ bodies, ∃ d, KeepsLimit casts policy body d ∧
      ((bodies.map JobBody.jobId).Nodup → d ∈ info) := by
  obtain ⟨hjobs, hinfo⟩ := buildFrom_described hbuilt
  have hstored : ∀ d ∈ info, ∃ body ∈ bodies, KeepsLimit casts policy body d := by
    intro d hd
    obtain ⟨job, hjob, hdescribes, hallowed⟩ := (hinfo d hd).resolve_left List.not_mem_nil
    obtain ⟨body, hbody, rfl⟩ := List.mem_map.mp hjob
    exact ⟨body, hbody, keepsLimit_of_describes hlimit hdescribes hallowed⟩
  refine ⟨hstored, fun body hbody => ?_⟩
  by_cases hnodup : (bodies.map JobBody.jobId).Nodup
  · have hids : info.map JobRuntimeData.jobId = bodies.map JobBody.jobId := by
      have hnodup' : ((bodies.map (JobBody.request casts)).map JobRequest.jobId).Nodup := by
        rw [List.map_map]
        exact hnodup
      rw [map_jobId_of_describes (buildJobsRuntimeInfo_built hbuilt hnodup').1, List.map_map]
      rfl
    obtain ⟨d, hd, hname⟩ := List.mem_map.mp (hids ▸ List.mem_map_of_mem hbody)
    obtain ⟨body', hbody', hkeeps⟩ := hstored d hd
    obtain ⟨_, hdescribed⟩ := hkeeps.describes
    have hsame : body'.jobId = body.jobId :=
      (jobRuntimeInfo_eq_some hdescribed).2.1.symm.trans hname
    obtain rfl := List.inj_on_of_nodup_map hnodup hbody' hbody hsame
    exact ⟨d, hkeeps, fun _ => hd⟩
  · obtain ⟨d, hd, hallowed⟩ := hjobs _ (List.mem_map_of_mem hbody)
    exact ⟨d, keepsLimit_of_describes hlimit hd hallowed, fun h => absurd h hnodup⟩

/-- What `build_jobs_runtime_info` makes of a job with this limit under the default policy. -/
def limitedBy (timeoutSec : Option Json) : Build :=
  buildJobsRuntimeInfo .counting {}
    ([{ jobId := "a", timeoutSec }].map (JobBody.request .smallest))

/-- The record of that job, once the limit is read. -/
def limitedRecord (timeoutSec : Int) : JobRuntimeData where
  jobId := "a"
  status := some .ready
  priority := 10
  timeoutSec := timeoutSec
  maxRetries := 3
  retryBackoffPolicy := "IMMEDIAT"

theorem runtime_limit_enforced_minute :
    limitedBy (some (.integer 60)) = .built [limitedRecord 60] [⟨"a", 0, 10⟩] ∧
    (EndsInTime 600 (limitedRecord 60) ↔ JobBody.LimitsRuntime .smallest
      { jobId := "a", timeoutSec := some (.integer 60) }) := by
  refine ⟨by decide, ?_⟩
  obtain ⟨d, hkeeps, hd⟩ := (runtime_limit_enforced_iff .smallest .counting {}
    [{ jobId := "a", timeoutSec := some (.integer 60) }] [limitedRecord 60] [⟨"a", 0, 10⟩] (by decide)
    (by decide)).2 _ List.mem_cons_self
  obtain rfl := List.mem_singleton.mp (hd (by decide))
  exact hkeeps.enforced

/-- Jobs with the limits 0 and 4294967295, which is read as -1, are accepted and never expire. -/
theorem zero_and_wrapped_limits_evaded :
    limitedBy (some (.integer 0)) = .built [limitedRecord 0] [⟨"a", 0, 10⟩] ∧
    ¬ EndsInTime 600 (limitedRecord 0) ∧
    limitedBy (some (.integer 4294967295)) = .built [limitedRecord (-1)] [⟨"a", 0, 10⟩] ∧
    ¬ EndsInTime 600 (limitedRecord (-1)) := by
  refine ⟨by decide, ?_, by decide, ?_⟩
  · exact (endsInTime_iff rfl (by decide)).not.mpr (by decide)
  · exact (endsInTime_iff rfl (by decide)).not.mpr (by decide)

end Limits

end WorkflowRuntimeGenerator

end FlowPilot
