import FlowPilot.StoreTypes
import Mathlib.Logic.Function.Basic

/-! The checks that a submitted workflow passes before anything is stored for it, and the runtime
data built on the way: `build_jobs_runtime_info` of the runtime generator, and
`validate_admission_client_workflow_policy`, `validate_semantic` and `validate_dependencies` of the
admission service.

The request is taken after the JSON parser and the schema check. A field that the schema does not
constrain may be of the wrong type; reading it then throws, and so does reading a payload that is no
list of bytes. -/

namespace FlowPilot

/-- A JSON field as `json::value` meets it. -/
inductive Field (α : Type) where
  | absent | value (a : α) | illTyped
  deriving DecidableEq, Repr

/-- `json::value(name, fallback)`; `none` when it throws. -/
def Field.read {α : Type} (f : Field α) (fallback : α) : Option α :=
  match f with
  | .absent => some fallback
  | .value a => some a
  | .illTyped => none

/-- A job of a submitted workflow. `dumpSize` is the length of its JSON text. -/
structure JobRequest where
  jobId : String
  dependsOn : List String := []
  priority : Option Int := none
  timeoutSec : Field Int := .absent
  maxRetries : Field Int := .absent
  retryDelaySec : Field Int := .absent
  retryBackoffPolicy : Field String := .absent
  payload : Option (List UInt8) := some []
  dumpSize : Nat := 0
  deriving DecidableEq, Repr

/-- A submitted workflow that the schema admits. `bodySize` is the length of the request body. -/
structure WorkflowRequest where
  clientId : String
  requestId : String
  workflowId : String
  workflowType : String
  jobs : List JobRequest
  bodySize : Int := 0
  deriving DecidableEq, Repr

def WorkflowRequest.identity (req : WorkflowRequest) : WorkflowIdentity :=
  ⟨req.clientId, req.workflowId⟩

/-- The limits of `PolicyPlan` that admission reads. -/
structure PolicyPlan where
  maxWorkflowSizeKb : Int := 1024
  maxJobsInWorkflow : Int := 100
  maxJobSizeBytes : Int := 65536
  maxWorkflowRuntimeSec : Int := 3600
  maxJobRuntimeSec : Int := 600
  maxJobRetries : Int := 3
  maxConcurrentJobs : Int := 10
  maxJobDependencies : Int := 100
  maxJobRetryDelaySec : Int := 60
  maxJobPriority : Int := 10
  deriving DecidableEq, Repr

/-- The containers whose iteration order the C++ library leaves open. -/
inductive Container where
  | jobsMap | dependencies | outgoingEdges | jobsRuntimeInfo
  deriving DecidableEq, Repr

/-- An iteration order of the unordered containers. -/
structure HashOrder where
  order : Container → {α : Type} → List α → List α
  perm : ∀ (c : Container) {α : Type} (l : List α), (order c l).Perm l

def HashOrder.insertion : HashOrder where
  order := fun _ _ l => l
  perm := fun _ _ l => List.Perm.refl l

/-- The job ids that the generator hands out, which are distinct. -/
structure UuidSource where
  next : Nat → Nat
  injective : Function.Injective next

def UuidSource.counting : UuidSource := ⟨id, Function.injective_id⟩

structure PrioritizedJob where
  jobId : String
  jobUuid : Nat
  priority : Int
  deriving DecidableEq, Repr

/-- `JobPriorityComparator`: higher priority first, then the older job id. -/
def PrioritizedJob.precedes (a b : PrioritizedJob) : Bool :=
  if a.priority ≠ b.priority then decide (b.priority < a.priority)
  else decide (a.jobUuid < b.jobUuid)

/-- `JobPriorityQueue::emplace`: a job equivalent to one in the set is not inserted. -/
def emplace (x : PrioritizedJob) : List PrioritizedJob → List PrioritizedJob
  | [] => [x]
  | y :: rest =>
      if x.precedes y then x :: y :: rest
      else if y.precedes x then y :: emplace x rest
      else y :: rest

/-- `JobRuntimeMap`: one entry per job id, in the order of insertion. -/
abbrev JobRuntimeMap := List JobRuntimeData

/-- `jobs_runtime_info[d.job_id] = d`. -/
def JobRuntimeMap.put (d : JobRuntimeData) (m : JobRuntimeMap) : JobRuntimeMap :=
  if m.any (fun e => e.jobId == d.jobId) then m.map (fun e => if e.jobId = d.jobId then d else e)
  else m ++ [d]

def JobRuntimeMap.modify (id : String) (change : JobRuntimeData → JobRuntimeData)
    (m : JobRuntimeMap) : JobRuntimeMap :=
  m.map (fun e => if e.jobId = id then change e else e)

namespace WorkflowRuntimeGenerator

/-- The runtime data of one job; `none` when reading a field throws. -/
def jobRuntimeInfo (policy : PolicyPlan) (uuid : Nat) (job : JobRequest) :
    Option JobRuntimeData := do
  let timeoutSec ← job.timeoutSec.read policy.maxJobRuntimeSec
  let maxRetries ← job.maxRetries.read policy.maxJobRetries
  let retryDelaySec ← job.retryDelaySec.read 0
  let retryBackoffPolicy ← job.retryBackoffPolicy.read "IMMEDIAT"
  let payload ← job.payload
  pure {
    jobUuid := uuid
    jobId := job.jobId
    status := some (if job.dependsOn.length = 0 then .ready else .pending)
    remainingDependencies := job.dependsOn.length
    priority := job.priority.getD policy.maxJobPriority
    timeoutSec
    maxRetries
    currentRetryCount := 0
    retryDelaySec
    retryBackoffPolicy
    payloadSizeBytes := payload.length }

/-- The policy checks of `build_jobs_runtime_info`. -/
def violatesPolicy (policy : PolicyPlan) (d : JobRuntimeData) : Bool :=
  decide (d.remainingDependencies < 0) ||
  decide (d.remainingDependencies > policy.maxJobDependencies) ||
  decide (d.priority > policy.maxJobPriority) ||
  decide (d.timeoutSec > policy.maxJobRuntimeSec) ||
  decide (d.maxRetries > policy.maxJobRetries) ||
  decide (d.retryDelaySec > policy.maxJobRetryDelaySec)

/-- What `build_jobs_runtime_info` comes to. -/
inductive Build where
  | threw
  | violation
  | built (jobs : JobRuntimeMap) (ready : List PrioritizedJob)
  deriving DecidableEq, Repr

/-- The loop of `build_jobs_runtime_info`; `n` counts the ids handed out. -/
def buildFrom (uuids : UuidSource) (policy : PolicyPlan) :
    Nat → List JobRequest → JobRuntimeMap → List PrioritizedJob → Build
  | _, [], jobs, ready => .built jobs ready
  | n, job :: rest, jobs, ready =>
      match jobRuntimeInfo policy (uuids.next n) job with
      | none => .threw
      | some d =>
          if violatesPolicy policy d then .violation
          else
            buildFrom uuids policy (n + 1) rest (jobs.put d)
              (if d.remainingDependencies = 0 then emplace ⟨d.jobId, d.jobUuid, d.priority⟩ ready
               else ready)

def buildJobsRuntimeInfo (uuids : UuidSource) (policy : PolicyPlan) (jobs : List JobRequest) :
    Build :=
  buildFrom uuids policy 0 jobs [] []

end WorkflowRuntimeGenerator

namespace WorkflowAdmissionService

/-- `validate_admission_client_workflow_policy`. A negative size limit is compared as an unsigned
number and never exceeded. -/
def validateAdmissionClientWorkflowPolicy (policy : PolicyPlan) (jobs : List JobRequest) :
    Except StatusCode Unit :=
  if (jobs.length : Int) > policy.maxJobsInWorkflow then .error .jobCountExceeded
  else if jobs.length = 0 then .error .jobCountZero
  else if jobs.any (fun job =>
      decide (0 ≤ policy.maxJobSizeBytes ∧ (job.dumpSize : Int) > policy.maxJobSizeBytes)) then
    .error .jobSizeExceeded
  else .ok ()

/-- Inserts the dependencies of one job into a set; `none` when one of them is in it already. -/
def insertDependencies : List String → List String → Option (List String)
  | [], seen => some seen
  | d :: rest, seen => if d ∈ seen then none else insertDependencies rest (seen ++ [d])

/-- The loop of `validate_semantic`, with the map of job ids and dependency sets it builds. -/
def validateSemanticFrom :
    List JobRequest → List (String × List String) → Except StatusCode (List (String × List String))
  | [], jobsMap => .ok jobsMap
  | job :: rest, jobsMap =>
      match insertDependencies job.dependsOn [] with
      | none => .error .duplicateDependency
      | some deps =>
          if jobsMap.any (fun e => e.1 == job.jobId) then .error .duplicateJobId
          else validateSemanticFrom rest (jobsMap ++ [(job.jobId, deps)])

def validateSemantic (jobs : List JobRequest) :
    Except StatusCode (List (String × List String)) :=
  validateSemanticFrom jobs []

/-- The dependencies of one job are linked: each must be a job, the job becomes one of its
successors and one of its outgoing edges. -/
def linkDependencies (known : List String) (job : String) :
    List String → JobRuntimeMap → List (String × String) →
      Except StatusCode (JobRuntimeMap × List (String × String))
  | [], info, edges => .ok (info, edges)
  | dep :: rest, info, edges =>
      if dep ∉ known then .error .missingDependency
      else linkDependencies known job rest
        (info.modify dep (fun d => { d with successors := d.successors ++ [job] }))
        (edges ++ [(dep, job)])

/-- The first loop of `validate_dependencies`, with the jobs that have no dependencies. -/
def linkJobs (hash : HashOrder) (known : List String) :
    List (String × List String) → JobRuntimeMap → List (String × String) → List String →
      Except StatusCode (JobRuntimeMap × List (String × String) × List String)
  | [], info, edges, queue => .ok (info, edges, queue)
  | (job, deps) :: rest, info, edges, queue =>
      match linkDependencies known job (hash.order .dependencies deps) info edges with
      | .error code => .error code
      | .ok (info', edges') =>
          linkJobs hash known rest info' edges' (if deps.isEmpty then queue ++ [job] else queue)

/-- The outgoing edges of the current job are removed, and the jobs that lose their last incoming
edge are queued. -/
def visitSuccessors (current : String) :
    List String → (String → List String) → List String → (String → List String) × List String
  | [], incoming, queue => (incoming, queue)
  | target :: rest, incoming, queue =>
      let left := (incoming target).filter (fun j => decide (j ≠ current))
      visitSuccessors current rest (Function.update incoming target left)
        (if left.isEmpty then queue ++ [target] else queue)

/-- The second loop of `validate_dependencies`, Kahn's algorithm: the number of jobs visited. Each
job is queued once, so the number of jobs bounds the turns. -/
def visitJobs (hash : HashOrder) (edges : List (String × String)) :
    Nat → (String → List String) → List String → Nat → Nat
  | 0, _, _, visited => visited
  | _ + 1, _, [], visited => visited
  | turns + 1, incoming, current :: rest, visited =>
      let targets := (edges.filter (fun e => decide (e.1 = current))).map Prod.snd
      let (incoming', queue) :=
        visitSuccessors current (hash.order .outgoingEdges targets) incoming rest
      visitJobs hash edges turns incoming' queue (visited + 1)

/-- `validate_dependencies`, with the successors filled in. -/
def validateDependencies (hash : HashOrder) (jobsMap : List (String × List String))
    (info : JobRuntimeMap) : Except StatusCode JobRuntimeMap :=
  match linkJobs hash (jobsMap.map Prod.fst) (hash.order .jobsMap jobsMap) info [] [] with
  | .error code => .error code
  | .ok (linked, edges, queue) =>
      let incoming := fun j => ((jobsMap.find? (fun e => e.1 == j)).map Prod.snd).getD []
      if visitJobs hash edges jobsMap.length incoming queue 0 ≠ jobsMap.length then
        .error .circularDependency
      else .ok linked

/-- `validate_workflow`, with the successors filled in. -/
def validateWorkflow (hash : HashOrder) (policy : PolicyPlan) (jobs : List JobRequest)
    (info : JobRuntimeMap) : Except StatusCode JobRuntimeMap := do
  validateAdmissionClientWorkflowPolicy policy jobs
  let jobsMap ← validateSemantic jobs
  validateDependencies hash jobsMap info

end WorkflowAdmissionService

end FlowPilot
