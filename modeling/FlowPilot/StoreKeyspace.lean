import FlowPilot.StoreKeys
import Mathlib.Logic.Function.Basic

/-! The Redis keys of one workflow: its hash, the hashes, successor lists and payloads of its jobs,
and the sorted set of jobs that are ready and wait for an execution slot. The operations are the
Redis commands the scripts issue. -/

namespace FlowPilot

/-- Everything Redis stores under the keys of one workflow. -/
structure WorkflowKeyspace where
  hash : Option WorkflowHash := none
  jobs : String → Option JobHash := fun _ => none
  successors : String → List String := fun _ => []
  waitingReady : SortedSet String := .empty
  payloads : String → Option (List UInt8) := fun _ => none

namespace WorkflowKeyspace

/-- `HGET workflow_key status`. -/
def status (ks : WorkflowKeyspace) : Option WorkflowStatus := ks.hash.bind WorkflowHash.status

/-- `HGET job_key status`. -/
def jobStatus (ks : WorkflowKeyspace) (j : String) : Option JobStatus :=
  (ks.jobs j).bind JobHash.status

/-- `tonumber(redis.call('HGET', workflow_key, field) or '0') or 0`. -/
def number (ks : WorkflowKeyspace) (field : WorkflowHash → Option Int) : Int :=
  (ks.hash.bind field).getD 0

/-- `tonumber(redis.call('HGET', job_key, field) or '0') or 0`. -/
def jobNumber (ks : WorkflowKeyspace) (j : String) (field : JobHash → Option Int) : Int :=
  ((ks.jobs j).bind field).getD 0

/-- `HSET` on the workflow hash, which creates the hash when it is missing. -/
def setHash (ks : WorkflowKeyspace) (f : WorkflowHash → WorkflowHash) : WorkflowKeyspace :=
  { ks with hash := some (f (ks.hash.getD {})) }

/-- `HSET` on the hash of a job, which creates the hash when it is missing. -/
def setJob (ks : WorkflowKeyspace) (j : String) (f : JobHash → JobHash) : WorkflowKeyspace :=
  { ks with jobs := Function.update ks.jobs j (some (f ((ks.jobs j).getD {}))) }

/-- `HSET workflow_key status st`. -/
def setStatus (ks : WorkflowKeyspace) (st : WorkflowStatus) : WorkflowKeyspace :=
  ks.setHash (fun h => { h with status := some st })

/-- `HSET job_key status st`. -/
def setJobStatus (ks : WorkflowKeyspace) (j : String) (st : JobStatus) : WorkflowKeyspace :=
  ks.setJob j (fun h => { h with status := some st })

/-- `HINCRBY workflow_key completed_jobs n`. -/
def addCompleted (ks : WorkflowKeyspace) (n : Int) : WorkflowKeyspace :=
  ks.setHash (fun h => { h with completedJobs := some (ks.number WorkflowHash.completedJobs + n) })

/-- `HINCRBY workflow_key failed_jobs 1`. -/
def addFailed (ks : WorkflowKeyspace) : WorkflowKeyspace :=
  ks.setHash (fun h => { h with failedJobs := some (ks.number WorkflowHash.failedJobs + 1) })

def reserved (ks : WorkflowKeyspace) : Int := ks.number WorkflowHash.reservedExecutionSlots

/-- `HSET workflow_key reserved_execution_slots n`. -/
def setReserved (ks : WorkflowKeyspace) (n : Int) : WorkflowKeyspace :=
  ks.setHash (fun h => { h with reservedExecutionSlots := some n })

/-- Gives one execution slot back; the scripts do not go below zero. -/
def releaseSlot (ks : WorkflowKeyspace) : WorkflowKeyspace :=
  ks.setReserved (if ks.reserved > 0 then ks.reserved - 1 else ks.reserved)

/-- The promotion at the end of four scripts: `ZPOPMAX` on the waiting set, and when it gave a job,
that job is QUEUED and one slot reserved. The result is the job with its score, which the caller
adds to the execution queue. -/
def promoteWaiting (ks : WorkflowKeyspace) : Option (String × Int) × WorkflowKeyspace :=
  match ks.waitingReady.popMax RedisKeys.laterId with
  | none => (none, ks)
  | some ((j, score), rest) =>
      let popped := { ks with waitingReady := rest }
      let queued := popped.setJobStatus j .queued
      (some (j, score), queued.setReserved (queued.reserved + 1))

section Lemmas

variable (ks : WorkflowKeyspace) (f : WorkflowHash → WorkflowHash) (g : JobHash → JobHash)
  (j i : String) (st : JobStatus) (ws : WorkflowStatus) (n : Int)

@[simp] theorem setHash_hash : (ks.setHash f).hash = some (f (ks.hash.getD {})) := rfl
@[simp] theorem setHash_jobs : (ks.setHash f).jobs = ks.jobs := rfl
@[simp] theorem setHash_successors : (ks.setHash f).successors = ks.successors := rfl
@[simp] theorem setHash_waitingReady : (ks.setHash f).waitingReady = ks.waitingReady := rfl
@[simp] theorem setHash_payloads : (ks.setHash f).payloads = ks.payloads := rfl
@[simp] theorem setHash_jobStatus : (ks.setHash f).jobStatus i = ks.jobStatus i := rfl

@[simp] theorem setJob_hash : (ks.setJob j g).hash = ks.hash := rfl
@[simp] theorem setJob_status : (ks.setJob j g).status = ks.status := rfl
@[simp] theorem setJob_reserved : (ks.setJob j g).reserved = ks.reserved := rfl
@[simp] theorem setJob_successors : (ks.setJob j g).successors = ks.successors := rfl
@[simp] theorem setJob_waitingReady : (ks.setJob j g).waitingReady = ks.waitingReady := rfl
@[simp] theorem setJob_payloads : (ks.setJob j g).payloads = ks.payloads := rfl
@[simp] theorem setJob_jobs_self :
    (ks.setJob j g).jobs j = some (g ((ks.jobs j).getD {})) := Function.update_self ..
theorem setJob_jobs_of_ne (h : i ≠ j) : (ks.setJob j g).jobs i = ks.jobs i :=
  Function.update_of_ne h ..
theorem setJob_jobStatus_of_ne (h : i ≠ j) : (ks.setJob j g).jobStatus i = ks.jobStatus i := by
  rw [jobStatus, jobStatus, setJob_jobs_of_ne ks g j i h]

variable {ks ws} in
theorem hash_ne_none (h : ks.status = some ws) : ks.hash ≠ none := fun hnone => by
  rw [status, hnone] at h
  cases h

theorem setStatus_status : (ks.setStatus ws).status = some ws := rfl

theorem setJobStatus_jobStatus :
    (ks.setJobStatus j st).jobStatus i = if i = j then some st else ks.jobStatus i := by
  split
  · rename_i h
    subst h
    simp [setJobStatus, jobStatus]
  · rename_i h
    exact setJob_jobStatus_of_ne ks _ j i h

end Lemmas

end WorkflowKeyspace

end FlowPilot
