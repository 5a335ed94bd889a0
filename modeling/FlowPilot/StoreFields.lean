import FlowPilot.StoreCompletion
import FlowPilot.StoreScripts

/-! The hash of a job as Redis keeps it, a list of fields with texts, and `fetch_job_runtime_async` on
it. The function writes one member of the caller's record after the other; the first field that is
missing or is not a number ends it, and what was written before stays. -/

namespace FlowPilot

/-- The answer of `HGETALL`. -/
abbrev Fields := List (String × List Char)

namespace Fields

/-- `std::stoi(fields.at(name))`, which throws when the field is missing or is not a number. -/
def stoi (fields : Fields) (name : String) : Option Int :=
  (fields.lookup name).bind (Wire.toInteger 32)

def stoll (fields : Fields) (name : String) : Option Int :=
  (fields.lookup name).bind (Wire.toInteger 64)

/-- The size of the payload: a field that may be missing, but has to be a number if it is there. -/
def payloadSize (fields : Fields) : Option Int :=
  match fields.lookup "payload_size_bytes" with
  | none => some 0
  | some text => Wire.toInteger 32 text

/-- `fetch_job_runtime_async` on the answer of `HGETALL`. -/
def fetchJobRuntime (jobId : String) (fields : Fields) : Bool × JobRuntimeData :=
  if fields = [] then (false, {})
  else
    let d : JobRuntimeData := { jobId := jobId }
    match fields.lookup "status" with
    | none => (false, d)
    | some st =>
    let d := { d with status := some (jobStatusFromString (String.ofList st)) }
    match fields.stoi "remaining_dependencies" with
    | none => (false, d)
    | some n =>
    let d := { d with remainingDependencies := n }
    match fields.stoi "priority" with
    | none => (false, d)
    | some n =>
    let d := { d with priority := n }
    match fields.stoi "timeout_sec" with
    | none => (false, d)
    | some n =>
    let d := { d with timeoutSec := n, startRunTime := (fields.stoll "start_run_time").getD 0 }
    match fields.stoi "max_retries" with
    | none => (false, d)
    | some n =>
    let d := { d with maxRetries := n }
    match fields.stoi "current_retry_count" with
    | none => (false, d)
    | some n =>
    let d := { d with currentRetryCount := n }
    match fields.stoi "retry_delay_sec" with
    | none => (false, d)
    | some n =>
    let d := { d with retryDelaySec := n }
    match fields.lookup "retry_backoff_policy" with
    | none => (false, d)
    | some policy =>
    let d := { d with retryBackoffPolicy := String.ofList policy }
    match fields.payloadSize with
    | none => (false, d)
    | some n => (true, { d with payloadSizeBytes := n })

/-- The hash of a job, as the scripts and the engine read its fields. -/
def jobHash (fields : Fields) : JobHash where
  status := (fields.lookup "status").map (fun st => jobStatusFromString (String.ofList st))
  remainingDependencies := fields.stoi "remaining_dependencies"
  priority := fields.stoi "priority"
  timeoutSec := fields.stoi "timeout_sec"
  maxRetries := fields.stoi "max_retries"
  currentRetryCount := fields.stoi "current_retry_count"
  retryDelaySec := fields.stoi "retry_delay_sec"
  retryBackoffPolicy := (fields.lookup "retry_backoff_policy").map String.ofList
  payloadSizeBytes := fields.stoi "payload_size_bytes"
  startRunTime := fields.stoll "start_run_time"

/-- On texts and on the hash they stand for the function does the same, unless the size of the payload
is there and is not a number. -/
theorem fetchJobRuntime_eq {fields : Fields} {ks : WorkflowKeyspace} {jobId : String}
    (hne : fields ≠ []) (hjob : ks.jobs jobId = some fields.jobHash)
    (hsize : fields.payloadSize ≠ none) :
    fields.fetchJobRuntime jobId = ks.fetchJobRuntime jobId := by
  have hpayload : fields.payloadSize = some ((fields.stoi "payload_size_bytes").getD 0) := by
    rw [payloadSize] at hsize ⊢
    rw [stoi]
    cases hlookup : fields.lookup "payload_size_bytes" with
    | none => rfl
    | some text =>
        rw [hlookup] at hsize
        obtain ⟨n, hn⟩ := Option.ne_none_iff_exists'.mp hsize
        simp [hn]
  rw [fetchJobRuntime, if_neg hne, WorkflowKeyspace.fetchJobRuntime, hjob]
  simp only [jobHash, hpayload]
  cases fields.lookup "status" with
  | none => rfl
  | some st =>
  cases fields.stoi "remaining_dependencies" with
  | none => rfl
  | some _ =>
  cases fields.stoi "priority" with
  | none => rfl
  | some _ =>
  cases fields.stoi "timeout_sec" with
  | none => rfl
  | some _ =>
  cases fields.stoi "max_retries" with
  | none => rfl
  | some _ =>
  cases fields.stoi "current_retry_count" with
  | none => rfl
  | some _ =>
  cases fields.stoi "retry_delay_sec" with
  | none => rfl
  | some _ => cases fields.lookup "retry_backoff_policy" <;> rfl

/-- The record of the job breaks off after `max_retries`, or later with retries left: the reader fails,
but what it has written until then allows another attempt. -/
def Torn (fields : Fields) : Prop :=
  (fields.lookup "status").isSome = true ∧
  (fields.stoi "remaining_dependencies").isSome = true ∧ (fields.stoi "priority").isSome = true ∧
  (fields.stoi "timeout_sec").isSome = true ∧
  ∃ maxRetries, fields.stoi "max_retries" = some maxRetries ∧
    match fields.stoi "current_retry_count" with
    | none => 1 ≤ maxRetries
    | some count => count < maxRetries ∧ (fields.stoi "retry_delay_sec" = none ∨
        fields.lookup "retry_backoff_policy" = none ∨ fields.payloadSize = none)

/-- A record that could not be read allows another attempt exactly when it is torn. -/
theorem torn_iff (fields : Fields) (jobId : String) : fields.Torn ↔
    (fields.fetchJobRuntime jobId).1 = false ∧ (fields.fetchJobRuntime jobId).2.currentRetryCount + 1 ≤
      (fields.fetchJobRuntime jobId).2.maxRetries := by
  rw [Torn, fetchJobRuntime]
  simp only [Int.lt_iff_add_one_le]
  by_cases hne : fields = []
  · subst hne
    simp
  rw [if_neg hne]
  cases fields.lookup "status" with
  | none => simp
  | some st =>
  cases fields.stoi "remaining_dependencies" with
  | none => simp
  | some _ =>
  cases fields.stoi "priority" with
  | none => simp
  | some _ =>
  cases fields.stoi "timeout_sec" with
  | none => simp
  | some _ =>
  cases fields.stoi "max_retries" with
  | none => simp
  | some maxRetries =>
  cases fields.stoi "current_retry_count" with
  | none => simp
  | some count =>
  cases fields.stoi "retry_delay_sec" with
  | none => simp
  | some _ =>
  cases fields.lookup "retry_backoff_policy" with
  | none => simp
  | some _ => cases fields.payloadSize <;> simp

end Fields

end FlowPilot
