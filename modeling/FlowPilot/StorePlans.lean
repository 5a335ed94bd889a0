import FlowPilot.BaseKeyed
import FlowPilot.StoreSqlite
import Mathlib.Data.List.TakeWhile

/-! The configuration tables of `sqlite_db.cpp`: rate-limit plans, policy plans and clients, and the
statements that write and read them. A plan is written in full with its name as the key; what is read
comes back as a C string and as an `int`. The columns of `policy_plans` do not cover the record: four
of its fields are neither written nor read, and a plan that is read holds in them whatever the record
held before. -/

namespace FlowPilot

namespace Plans

/-! ### Values of columns -/

/-- `std::string` of `sqlite3_column_text`, which ends at the first NUL. -/
def columnText (text : String) : String := boundText text

/-- `sqlite3_column_int` of an INTEGER, its lowest 32 bits. -/
def columnInt (value : Int) : Int32 := Int32.ofInt value

theorem boundText_boundText (text : String) : boundText (boundText text) = boundText text := by
  rw [boundText, boundText, String.toList_ofList, List.takeWhile_idem]

theorem boundText_eq_self_iff {text : String} :
    boundText text = text ↔ Char.ofNat 0 ∉ text.toList := by
  have htake : boundText text = text ↔
      text.toList.takeWhile (· != Char.ofNat 0) = text.toList := by
    rw [boundText, ← String.toList_inj, String.toList_ofList]
  rw [htake, List.takeWhile_eq_self_iff]
  constructor
  · intro h hmem
    exact bne_iff_ne.mp (h _ hmem) rfl
  · intro h c hc
    exact bne_iff_ne.mpr (fun heq => h (heq ▸ hc))

/-! ### Records -/

structure RateLimitConfig where
  planName : String
  maxConcurrentWorkflows : Int32
  maxRequests : Int32
  windowSec : Int32
  deriving DecidableEq, Repr

/-- `PolicyPlan`; admission reads a part of it. -/
structure PolicyPlan where
  planName : String
  maxWorkflowSizeKb : Int32
  maxJobsInWorkflow : Int32
  maxJobSizeBytes : Int32
  maxWorkflowRuntimeSec : Int32
  maxWorkflowTotalRetries : Int32
  maxJobRuntimeSec : Int32
  maxJobRetries : Int32
  maxConcurrentJobs : Int32
  maxPendingJobs : Int32
  maxJobDependencies : Int32
  maxJobRetryDelaySec : Int32
  defaultRetryBackoffPolicy : Int32
  maxJobPriority : Int32
  workflowRetentionDays : Int32
  requestRetentionDays : Int32
  payloadRetentionDays : Int32
  deriving DecidableEq, Repr

structure ClientData where
  clientId : String
  rateLimitConfigPlanName : String
  policyPlanName : String
  deriving DecidableEq, Repr

/-- A row of `rate_limit_plans`. -/
structure RateLimitRow where
  planName : String
  maxConcurrentWorkflows : Int
  maxRequests : Int
  windowSec : Int
  deriving DecidableEq, Repr

/-- A row of `policy_plans`. -/
structure PolicyRow where
  planName : String
  maxWorkflowSizeKb : Int
  maxJobsInWorkflow : Int
  maxJobSizeBytes : Int
  maxWorkflowRuntimeSec : Int
  maxWorkflowTotalRetries : Int
  maxJobRuntimeSec : Int
  maxJobRetries : Int
  maxConcurrentJobs : Int
  maxPendingJobs : Int
  workflowRetentionDays : Int
  requestRetentionDays : Int
  payloadRetentionDays : Int
  deriving DecidableEq, Repr

/-- A row of `clients`. -/
structure ClientRow where
  clientId : String
  rateLimitPlanName : String
  policyPlanName : String
  deriving DecidableEq, Repr

/-! ### Writing -/

def RateLimitConfig.columns (plan : RateLimitConfig) : RateLimitRow where
  planName := plan.planName
  maxConcurrentWorkflows := plan.maxConcurrentWorkflows.toInt
  maxRequests := plan.maxRequests.toInt
  windowSec := plan.windowSec.toInt

def PolicyPlan.columns (plan : PolicyPlan) : PolicyRow where
  planName := plan.planName
  maxWorkflowSizeKb := plan.maxWorkflowSizeKb.toInt
  maxJobsInWorkflow := plan.maxJobsInWorkflow.toInt
  maxJobSizeBytes := plan.maxJobSizeBytes.toInt
  maxWorkflowRuntimeSec := plan.maxWorkflowRuntimeSec.toInt
  maxWorkflowTotalRetries := plan.maxWorkflowTotalRetries.toInt
  maxJobRuntimeSec := plan.maxJobRuntimeSec.toInt
  maxJobRetries := plan.maxJobRetries.toInt
  maxConcurrentJobs := plan.maxConcurrentJobs.toInt
  maxPendingJobs := plan.maxPendingJobs.toInt
  workflowRetentionDays := plan.workflowRetentionDays.toInt
  requestRetentionDays := plan.requestRetentionDays.toInt
  payloadRetentionDays := plan.payloadRetentionDays.toInt

def ClientData.columns (client : ClientData) : ClientRow :=
  ⟨client.clientId, client.rateLimitConfigPlanName, client.policyPlanName⟩

/-- The values that `upsert_rate_limit_plan` binds. -/
def RateLimitConfig.row (plan : RateLimitConfig) : RateLimitRow :=
  { plan.columns with planName := boundText plan.planName }

/-- The values that `upsert_policy_plan` binds. -/
def PolicyPlan.row (plan : PolicyPlan) : PolicyRow :=
  { plan.columns with planName := boundText plan.planName }

/-- The values that `upsert_user_config` binds. -/
def ClientData.row (client : ClientData) : ClientRow :=
  ⟨boundText client.clientId, boundText client.rateLimitConfigPlanName,
    boundText client.policyPlanName⟩

def upsertRateLimitPlan (table : List RateLimitRow) (plan : RateLimitConfig) : List RateLimitRow :=
  Keyed.replace RateLimitRow.planName table plan.row

def upsertPolicyPlan (table : List PolicyRow) (plan : PolicyPlan) : List PolicyRow :=
  Keyed.replace PolicyRow.planName table plan.row

def upsertUserConfig (table : List ClientRow) (client : ClientData) : List ClientRow :=
  Keyed.replace ClientRow.clientId table client.row

/-! ### Reading -/

/-- A row of `get_rate_limit_plans`. -/
def RateLimitRow.read (r : RateLimitRow) : RateLimitConfig :=
  ⟨columnText r.planName, columnInt r.maxConcurrentWorkflows, columnInt r.maxRequests,
    columnInt r.windowSec⟩

/-- The columns of a policy plan are read into a record. -/
def PolicyRow.readInto (r : PolicyRow) (plan : PolicyPlan) : PolicyPlan :=
  { plan with
    maxWorkflowSizeKb := columnInt r.maxWorkflowSizeKb
    maxJobsInWorkflow := columnInt r.maxJobsInWorkflow
    maxJobSizeBytes := columnInt r.maxJobSizeBytes
    maxWorkflowRuntimeSec := columnInt r.maxWorkflowRuntimeSec
    maxWorkflowTotalRetries := columnInt r.maxWorkflowTotalRetries
    maxJobRuntimeSec := columnInt r.maxJobRuntimeSec
    maxJobRetries := columnInt r.maxJobRetries
    maxConcurrentJobs := columnInt r.maxConcurrentJobs
    maxPendingJobs := columnInt r.maxPendingJobs
    workflowRetentionDays := columnInt r.workflowRetentionDays
    requestRetentionDays := columnInt r.requestRetentionDays
    payloadRetentionDays := columnInt r.payloadRetentionDays }

/-- A row of `get_policy_plans`; the record is not initialized, and `memory` is what it holds. -/
def PolicyRow.read (memory : String → PolicyPlan) (r : PolicyRow) : PolicyPlan :=
  let name := columnText r.planName
  r.readInto { memory name with planName := name }

/-- A row of `get_all_users`. -/
def ClientRow.read (r : ClientRow) : ClientData :=
  ⟨columnText r.clientId, columnText r.rateLimitPlanName, columnText r.policyPlanName⟩

/-- `get_rate_limit_plans`, which adds to the plans it is given. -/
def getRateLimitPlans (table : List RateLimitRow) (plans : List RateLimitConfig) :
    List RateLimitConfig :=
  (table.map RateLimitRow.read).foldl (Keyed.emplace RateLimitConfig.planName) plans

/-- `get_all_users`, which clears what it is given. -/
def getAllUsers (table : List ClientRow) : List ClientData :=
  (table.map ClientRow.read).foldl (Keyed.emplace ClientData.clientId) []

/-- `get_policy_plan`, with what the caller's record holds before. -/
def getPolicyPlan (table : List PolicyRow) (plan : PolicyPlan) : Bool × PolicyPlan :=
  match Keyed.lookup PolicyRow.planName (boundText plan.planName) table with
  | some r => (true, r.readInto plan)
  | none => (false, plan)

/-- `get_policy_plans`, which adds to the plans it is given. -/
def getPolicyPlans (memory : String → PolicyPlan) (table : List PolicyRow) (plans : List PolicyPlan) :
    List PolicyPlan :=
  (table.map (PolicyRow.read memory)).foldl (Keyed.emplace PolicyPlan.planName) plans

/-! ### Plans that are read again -/

/-- The fields that no column holds. -/
def PolicyPlan.unstored (plan : PolicyPlan) : Int32 × Int32 × Int32 × Int32 :=
  (plan.maxJobDependencies, plan.maxJobRetryDelaySec, plan.defaultRetryBackoffPolicy,
    plan.maxJobPriority)

theorem columnInt_toInt (value : Int32) : columnInt value.toInt = value := Int32.ofInt_toInt value

theorem readInto_row_iff {plan record : PolicyPlan} :
    plan.row.readInto record = plan ↔
      record.planName = plan.planName ∧ plan.unstored = record.unstored := by
  obtain ⟨⟩ := plan
  obtain ⟨⟩ := record
  simp only [PolicyPlan.row, PolicyPlan.columns, PolicyRow.readInto, columnInt_toInt, PolicyPlan.unstored,
    PolicyPlan.mk.injEq, Prod.mk.injEq]
  tauto

theorem readInto_unstored (r : PolicyRow) (record : PolicyPlan) :
    (r.readInto record).unstored = record.unstored := rfl

/-- The table after a sequence of calls of `upsert_policy_plan`. -/
def upsertAll (plans : List PolicyPlan) : List PolicyRow := plans.foldl upsertPolicyPlan []

/-- The last plan of a sequence under a name. -/
def lastUpserted (plans : List PolicyPlan) (name : String) : Option PolicyPlan :=
  Keyed.lookup PolicyPlan.planName name plans.reverse

theorem foldl_upsertPolicyPlan (plans : List PolicyPlan) (table : List PolicyRow) :
    plans.foldl upsertPolicyPlan table =
      (plans.map PolicyPlan.row).foldl (Keyed.replace PolicyRow.planName) table := by
  rw [List.foldl_map]
  rfl

theorem lookup_upsertAll (plans : List PolicyPlan) (name : String) :
    Keyed.lookup PolicyRow.planName name (upsertAll plans) =
      Keyed.lookup PolicyRow.planName name (plans.reverse.map PolicyPlan.row) := by
  rw [upsertAll, foldl_upsertPolicyPlan, Keyed.lookup_replaceAll, ← List.map_reverse]
  exact Option.or_none

theorem lookup_upsertAll_of_bound {plans : List PolicyPlan}
    (hbound : ∀ plan ∈ plans, boundText plan.planName = plan.planName) (name : String) :
    Keyed.lookup PolicyRow.planName name (upsertAll plans) =
      (lastUpserted plans name).map PolicyPlan.row := by
  have hnames : ∀ plan ∈ plans.reverse, plan.row.planName = plan.planName :=
    fun plan hplan => hbound plan (List.mem_reverse.mp hplan)
  rw [lookup_upsertAll, Keyed.lookup_map hnames, lastUpserted]

theorem lookup_getPolicyPlans (memory : String → PolicyPlan) (table : List PolicyRow) (name : String) :
    Keyed.lookup PolicyPlan.planName name (getPolicyPlans memory table []) =
      Keyed.lookup PolicyPlan.planName name (table.map (PolicyRow.read memory)) := by
  rw [getPolicyPlans, Keyed.lookup_emplaceAll]
  exact Option.none_or

theorem columnText_of_mem_upsertAll {plans : List PolicyPlan} {r : PolicyRow}
    (hr : r ∈ upsertAll plans) : columnText r.planName = r.planName := by
  rw [upsertAll, foldl_upsertPolicyPlan] at hr
  rcases Keyed.mem_replaceAll hr with hr | ⟨hr, -⟩
  · obtain ⟨plan, -, rfl⟩ := List.mem_map.mp hr
    exact boundText_boundText _
  · cases hr

/-- The plans that were written come back whole when their names are bound whole, and the records they
are read into already hold the fields that no column holds. -/
theorem policyPlans_survive_iff (memory out : String → PolicyPlan) (plans : List PolicyPlan) :
    (∀ name plan, lastUpserted plans name = some plan →
      getPolicyPlan (upsertAll plans) { out name with planName := name } = (true, plan) ∧
      Keyed.lookup PolicyPlan.planName name (getPolicyPlans memory (upsertAll plans) []) =
        some plan) ↔
    ∀ name plan, lastUpserted plans name = some plan →
      Char.ofNat 0 ∉ name.toList ∧ plan.unstored = (out name).unstored ∧
        plan.unstored = (memory name).unstored := by
  constructor
  · intro h name plan hlast
    obtain ⟨hone, hall⟩ := h name plan hlast
    rw [lookup_getPolicyPlans] at hall
    obtain ⟨r, hr, hread⟩ := List.mem_map.mp (Keyed.mem_of_lookup hall)
    have hname : columnText r.planName = name :=
      (congrArg PolicyPlan.planName hread).trans (Keyed.key_of_lookup hall)
    refine ⟨?_, ?_, ?_⟩
    · rw [← boundText_eq_self_iff, ← hname]
      exact boundText_boundText _
    · rw [getPolicyPlan] at hone
      split at hone
      · rw [← (Prod.mk.inj hone).2, readInto_unstored]
        rfl
      · cases hone
    · rw [← hread, ← hname]
      rfl
  · intro h name plan hlast
    have hbound : ∀ p ∈ plans, boundText p.planName = p.planName := by
      intro p hp
      obtain ⟨last, hlast'⟩ := Option.ne_none_iff_exists'.mp (fun hnone =>
        Keyed.lookup_eq_none.mp hnone p (List.mem_reverse.mpr hp) rfl :
          lastUpserted plans p.planName ≠ none)
      exact boundText_eq_self_iff.mpr (h _ last hlast').1
    obtain ⟨hnul, hout, hmemory⟩ := h name plan hlast
    have hname : plan.planName = name := Keyed.key_of_lookup hlast
    have hrow : Keyed.lookup PolicyRow.planName name (upsertAll plans) = some plan.row := by
      rw [lookup_upsertAll_of_bound hbound, hlast]
      rfl
    constructor
    · have hread : plan.row.readInto { out name with planName := name } = plan :=
        readInto_row_iff.mpr ⟨hname.symm, hout⟩
      rw [getPolicyPlan, boundText_eq_self_iff.mpr hnul, hrow]
      exact congrArg (Prod.mk true) hread
    · have hnames : ∀ r ∈ upsertAll plans, (r.read memory).planName = r.planName :=
        fun r hr => columnText_of_mem_upsertAll hr
      have hcolumn : columnText plan.row.planName = name := by
        rw [← hname]
        exact (boundText_boundText _).trans (hname.symm ▸ boundText_eq_self_iff.mpr hnul)
      have hread : plan.row.read memory = plan := by
        refine readInto_row_iff.mpr ⟨hcolumn.trans hname.symm, ?_⟩
        rw [hcolumn]
        exact hmemory
      rw [lookup_getPolicyPlans, Keyed.lookup_map hnames, hrow, Option.map_some, hread]

/-- The plan `basic` of `default_plans::pplans`. -/
def basicPlan : PolicyPlan :=
  ⟨"basic", 20, 10, 800, 600, 10, 300, 2, 5, 55, 6, 1, 0, 10, 10, 10, 10⟩

/-- A record that holds zeros. -/
def blankPlan (name : String) : PolicyPlan := ⟨name, 0, 0, 0, 0, 0, 0, 0, 0, 0, 0, 0, 0, 0, 0, 0, 0⟩

/-- The plan `basic`, read into such a record, allows no dependencies and no priority. -/
theorem policyPlans_lose_limits :
    lastUpserted [basicPlan] "basic" = some basicPlan ∧
      getPolicyPlan (upsertAll [basicPlan]) (blankPlan "basic") =
        (true, { basicPlan with
          maxJobDependencies := 0, maxJobRetryDelaySec := 0, maxJobPriority := 0 }) ∧
      getPolicyPlans blankPlan (upsertAll [basicPlan]) [] =
        [{ basicPlan with maxJobDependencies := 0, maxJobRetryDelaySec := 0, maxJobPriority := 0 }] := by
  decide +kernel

end Plans

end FlowPilot
