import FlowPilot.StorePlans
import Mathlib.Algebra.Ring.Int.Defs

/-! `ClientSqliteConfigManager`: the plans and clients that admission works with, held in memory. The
constructor loads them from the database, puts the default plans and clients in when one of the
tables is empty, and loads again. The second load adds to the plans of the first, so that a plan that
was in the database under a default name stays in memory as it was before the defaults replaced it. -/

namespace FlowPilot

namespace Plans

/-- The configuration tables; their first columns are keys. -/
structure ConfigTables where
  rateLimitPlans : List RateLimitRow := []
  policyPlans : List PolicyRow := []
  clients : List ClientRow := []
  rateLimitKeys : (rateLimitPlans.map RateLimitRow.planName).Nodup
  policyKeys : (policyPlans.map PolicyRow.planName).Nodup
  clientKeys : (clients.map ClientRow.clientId).Nodup

/-- The maps of `ClientConfigManager`. -/
structure ConfigCache where
  rateLimitPlans : List RateLimitConfig := []
  policyPlans : List PolicyPlan := []
  clients : List ClientData := []

def rplans : List RateLimitConfig :=
  [⟨"sandbox", 10, 60, 1⟩, ⟨"basic", 100, 60, 5⟩, ⟨"professional", 1000, 60, 10⟩,
    ⟨"enterprise", 10000, 60, 50⟩]

def pplans : List PolicyPlan :=
  [⟨"sandbox", 10, 5, 500, 300, 3, 60, 1, 2, 18, 3, 1, 0, 5, 1, 1, 1⟩,
    basicPlan,
    ⟨"professional", 50, 50, 1024, 6000, 20, 600, 3, 10, 90, 15, 3, 0, 15, 30, 30, 30⟩,
    ⟨"enterprise", 100, 100, 1024, 12000, 40, 900, 5, 20, 180, 25, 5, 0, 20, 60, 60, 60⟩]

/-- The clients `client_1` to `client_10` with the plans they are assigned in turn. -/
def defaultClients : List ClientData :=
  (List.range 10).map (fun i =>
    ⟨"client_" ++ toString (i + 1),
      ["professional", "basic", "sandbox", "enterprise"].getD (i % 4) "",
      ["basic", "sandbox", "professional", "enterprise"].getD (i % 4) ""⟩)

theorem foldl_upsertRateLimitPlan (plans : List RateLimitConfig) (table : List RateLimitRow) :
    plans.foldl upsertRateLimitPlan table =
      (plans.map RateLimitConfig.row).foldl (Keyed.replace RateLimitRow.planName) table := by
  rw [List.foldl_map]
  rfl

theorem foldl_upsertUserConfig (clients : List ClientData) (table : List ClientRow) :
    clients.foldl upsertUserConfig table =
      (clients.map ClientData.row).foldl (Keyed.replace ClientRow.clientId) table := by
  rw [List.foldl_map]
  rfl

namespace ClientSqliteConfigManager

/-- `load_from_db`; `memory` is what the records of the policy plans hold before. -/
def loadFromDb (memory : String → PolicyPlan) (db : ConfigTables) (cache : ConfigCache) :
    ConfigCache where
  rateLimitPlans := getRateLimitPlans db.rateLimitPlans cache.rateLimitPlans
  policyPlans := getPolicyPlans memory db.policyPlans cache.policyPlans
  clients := getAllUsers db.clients

def ensureDefaults (db : ConfigTables) : ConfigTables where
  rateLimitPlans := rplans.foldl upsertRateLimitPlan db.rateLimitPlans
  policyPlans := pplans.foldl upsertPolicyPlan db.policyPlans
  clients := defaultClients.foldl upsertUserConfig db.clients
  rateLimitKeys := by
    rw [foldl_upsertRateLimitPlan]
    exact Keyed.nodup_replaceAll _ db.rateLimitKeys
  policyKeys := by
    rw [foldl_upsertPolicyPlan]
    exact Keyed.nodup_replaceAll _ db.policyKeys
  clientKeys := by
    rw [foldl_upsertUserConfig]
    exact Keyed.nodup_replaceAll _ db.clientKeys

/-- The constructor: the maps it leaves, and the tables. -/
def construct (memory memory' : String → PolicyPlan) (db : ConfigTables) :
    ConfigCache × ConfigTables :=
  let cache := loadFromDb memory db {}
  if cache.rateLimitPlans.isEmpty || cache.policyPlans.isEmpty || cache.clients.isEmpty then
    let db := ensureDefaults db
    (loadFromDb memory' db cache, db)
  else (cache, db)

end ClientSqliteConfigManager

structure ClientConfig where
  clientId : String
  rateLimitConfig : RateLimitConfig
  policyConfig : PolicyPlan
  deriving DecidableEq, Repr

/-- `get_client_config`, with what the caller's record holds before. -/
def ConfigCache.getClientConfig (cache : ConfigCache) (clientId : String) (out : ClientConfig) :
    Bool × ClientConfig :=
  match Keyed.lookup ClientData.clientId clientId cache.clients with
  | none => (false, out)
  | some client => (true, {
      clientId := client.clientId
      rateLimitConfig := (Keyed.lookup RateLimitConfig.planName client.rateLimitConfigPlanName
        cache.rateLimitPlans).getD out.rateLimitConfig
      policyConfig := (Keyed.lookup PolicyPlan.planName client.policyPlanName
        cache.policyPlans).getD out.policyConfig })

/-- The maps hold what the tables hold: the columns of each plan and client. -/
structure Agrees (cache : ConfigCache) (db : ConfigTables) : Prop where
  rateLimitPlans : ∀ name,
    (Keyed.lookup RateLimitConfig.planName name cache.rateLimitPlans).map RateLimitConfig.columns =
      Keyed.lookup RateLimitRow.planName name db.rateLimitPlans
  policyPlans : ∀ name,
    (Keyed.lookup PolicyPlan.planName name cache.policyPlans).map PolicyPlan.columns =
      Keyed.lookup PolicyRow.planName name db.policyPlans
  clients : ∀ id, (Keyed.lookup ClientData.clientId id cache.clients).map ClientData.columns =
      Keyed.lookup ClientRow.clientId id db.clients

/-! ### Rows as they are read -/

/-- An integer that `sqlite3_column_int` returns as it is. -/
def FitsInt (value : Int) : Prop := -2 ^ 31 ≤ value ∧ value < 2 ^ 31

/-- A text that is read whole. -/
def NoNul (text : String) : Prop := Char.ofNat 0 ∉ text.toList

theorem toInt_columnInt_iff {value : Int} : (columnInt value).toInt = value ↔ FitsInt value := by
  constructor
  · intro h
    rw [← h]
    exact ⟨Int32.le_toInt _, Int32.toInt_lt _⟩
  · exact fun h => Int32.toInt_ofInt_of_le h.1 h.2

def RateLimitRow.Readable (r : RateLimitRow) : Prop :=
  NoNul r.planName ∧ FitsInt r.maxConcurrentWorkflows ∧ FitsInt r.maxRequests ∧ FitsInt r.windowSec

def PolicyRow.Readable (r : PolicyRow) : Prop :=
  NoNul r.planName ∧ FitsInt r.maxWorkflowSizeKb ∧ FitsInt r.maxJobsInWorkflow ∧
    FitsInt r.maxJobSizeBytes ∧ FitsInt r.maxWorkflowRuntimeSec ∧ FitsInt r.maxWorkflowTotalRetries ∧
    FitsInt r.maxJobRuntimeSec ∧ FitsInt r.maxJobRetries ∧ FitsInt r.maxConcurrentJobs ∧
    FitsInt r.maxPendingJobs ∧ FitsInt r.workflowRetentionDays ∧ FitsInt r.requestRetentionDays ∧
    FitsInt r.payloadRetentionDays

def ClientRow.Readable (r : ClientRow) : Prop :=
  NoNul r.clientId ∧ NoNul r.rateLimitPlanName ∧ NoNul r.policyPlanName

def RateLimitRow.asRead (r : RateLimitRow) : RateLimitRow := r.read.columns

/-- The columns of a policy plan as they are read; the other fields of the record do not matter. -/
def PolicyRow.asRead (r : PolicyRow) : PolicyRow := (r.read blankPlan).columns

def ClientRow.asRead (r : ClientRow) : ClientRow := r.read.columns

theorem RateLimitRow.asRead_iff {r : RateLimitRow} : r.asRead = r ↔ r.Readable := by
  obtain ⟨⟩ := r
  simp only [asRead, read, RateLimitConfig.columns, RateLimitRow.mk.injEq, columnText,
    boundText_eq_self_iff, toInt_columnInt_iff, Readable, NoNul]

theorem PolicyRow.asRead_iff {r : PolicyRow} : r.asRead = r ↔ r.Readable := by
  obtain ⟨⟩ := r
  simp only [asRead, read, readInto, PolicyPlan.columns, PolicyRow.mk.injEq, columnText,
    boundText_eq_self_iff, toInt_columnInt_iff, Readable, NoNul]

theorem ClientRow.asRead_iff {r : ClientRow} : r.asRead = r ↔ r.Readable := by
  obtain ⟨⟩ := r
  simp only [asRead, read, ClientData.columns, ClientRow.mk.injEq, columnText, boundText_eq_self_iff,
    Readable, NoNul]

theorem RateLimitRow.asRead_asRead (r : RateLimitRow) : r.asRead.asRead = r.asRead := by
  simp only [asRead, read, RateLimitConfig.columns, columnText, boundText_boundText, columnInt_toInt]

theorem PolicyRow.asRead_asRead (r : PolicyRow) : r.asRead.asRead = r.asRead := by
  simp only [asRead, read, readInto, PolicyPlan.columns, columnText, boundText_boundText,
    columnInt_toInt]

theorem ClientRow.asRead_asRead (r : ClientRow) : r.asRead.asRead = r.asRead := by
  simp only [asRead, read, ClientData.columns, columnText, boundText_boundText]

/-! ### The maps after loading -/

theorem map_getRateLimitPlans (table : List RateLimitRow) (plans : List RateLimitConfig) :
    (getRateLimitPlans table plans).map RateLimitConfig.columns =
      Keyed.load RateLimitRow.planName RateLimitRow.asRead table
        (plans.map RateLimitConfig.columns) := by
  have hkey : ∀ plan : RateLimitConfig, plan.columns.planName = plan.planName := fun _ => rfl
  rw [getRateLimitPlans, Keyed.map_emplaceAll hkey, List.map_map]
  rfl

theorem map_getPolicyPlans (memory : String → PolicyPlan) (table : List PolicyRow)
    (plans : List PolicyPlan) :
    (getPolicyPlans memory table plans).map PolicyPlan.columns =
      Keyed.load PolicyRow.planName PolicyRow.asRead table (plans.map PolicyPlan.columns) := by
  have hkey : ∀ plan : PolicyPlan, plan.columns.planName = plan.planName := fun _ => rfl
  rw [getPolicyPlans, Keyed.map_emplaceAll hkey, List.map_map]
  rfl

theorem map_getAllUsers (table : List ClientRow) :
    (getAllUsers table).map ClientData.columns =
      Keyed.load ClientRow.clientId ClientRow.asRead table [] := by
  have hkey : ∀ client : ClientData, client.columns.clientId = client.clientId := fun _ => rfl
  rw [getAllUsers, Keyed.map_emplaceAll hkey, List.map_map]
  rfl

theorem agrees_iff {cache : ConfigCache} {db : ConfigTables} :
    Agrees cache db ↔
      Keyed.Mirrors RateLimitRow.planName (cache.rateLimitPlans.map RateLimitConfig.columns)
        db.rateLimitPlans ∧
      Keyed.Mirrors PolicyRow.planName (cache.policyPlans.map PolicyPlan.columns) db.policyPlans ∧
      Keyed.Mirrors ClientRow.clientId (cache.clients.map ClientData.columns) db.clients := by
  have hrate : ∀ name, Keyed.lookup RateLimitRow.planName name
      (cache.rateLimitPlans.map RateLimitConfig.columns) = _ :=
    Keyed.lookup_map (fun plan _ => (rfl : plan.columns.planName = plan.planName))
  have hpolicy : ∀ name, Keyed.lookup PolicyRow.planName name
      (cache.policyPlans.map PolicyPlan.columns) = _ :=
    Keyed.lookup_map (fun plan _ => (rfl : plan.columns.planName = plan.planName))
  have hclients : ∀ id, Keyed.lookup ClientRow.clientId id
      (cache.clients.map ClientData.columns) = _ :=
    Keyed.lookup_map (fun client _ => (rfl : client.columns.clientId = client.clientId))
  simp only [Keyed.Mirrors, hrate, hpolicy, hclients]
  exact ⟨fun h => ⟨h.1, h.2, h.3⟩, fun h => ⟨h.1, h.2.1, h.2.2⟩⟩

/-! ### The defaults -/

/-- What is written of the default plans is read as it was, under distinct names. -/
theorem rplans_kept :
    rplans.map RateLimitConfig.row = rplans.map RateLimitConfig.columns ∧
      (∀ d ∈ rplans.map RateLimitConfig.columns, d.asRead = d) ∧
      ((rplans.map RateLimitConfig.columns).map RateLimitRow.planName).Nodup := by
  decide +kernel

theorem pplans_kept :
    pplans.map PolicyPlan.row = pplans.map PolicyPlan.columns ∧
      (∀ d ∈ pplans.map PolicyPlan.columns, d.asRead = d) ∧
      ((pplans.map PolicyPlan.columns).map PolicyRow.planName).Nodup := by
  decide +kernel

theorem defaultClients_kept :
    defaultClients.map ClientData.row = defaultClients.map ClientData.columns ∧
      (∀ d ∈ defaultClients.map ClientData.columns, d.asRead = d) ∧
      ((defaultClients.map ClientData.columns).map ClientRow.clientId).Nodup := by
  decide +kernel

/-- One of the tables is empty, so that the constructor puts the defaults in. -/
def ConfigTables.NeedsDefaults (db : ConfigTables) : Prop :=
  db.rateLimitPlans = [] ∨ db.policyPlans = [] ∨ db.clients = []

instance (db : ConfigTables) : Decidable db.NeedsDefaults :=
  inferInstanceAs (Decidable (_ ∨ _))

/-- Every row can be read as it is. Where the defaults are put in, this is asked of the rows that stay,
and a plan under the name of a default plan holds in its columns what the default plan holds. -/
def ConfigTables.Settled (db : ConfigTables) : Prop :=
  if db.NeedsDefaults then
    (∀ r ∈ db.rateLimitPlans, (∀ d ∈ rplans, d.planName = r.planName → r.asRead = d.columns) ∧
      ((∀ d ∈ rplans, d.planName ≠ r.planName) → r.Readable)) ∧
    (∀ r ∈ db.policyPlans, (∀ d ∈ pplans, d.planName = r.planName → r.asRead = d.columns) ∧
      ((∀ d ∈ pplans, d.planName ≠ r.planName) → r.Readable)) ∧
    ∀ r ∈ db.clients, (∀ d ∈ defaultClients, d.clientId ≠ r.clientId) → r.Readable
  else
    (∀ r ∈ db.rateLimitPlans, r.Readable) ∧ (∀ r ∈ db.policyPlans, r.Readable) ∧
      ∀ r ∈ db.clients, r.Readable

namespace ClientSqliteConfigManager

variable {memory memory' : String → PolicyPlan} {db : ConfigTables}

theorem ensureDefaults_rateLimitPlans :
    (ensureDefaults db).rateLimitPlans = (rplans.map RateLimitConfig.columns).foldl
      (Keyed.replace RateLimitRow.planName) db.rateLimitPlans := by
  rw [← rplans_kept.1, ← foldl_upsertRateLimitPlan, ensureDefaults]

theorem ensureDefaults_policyPlans :
    (ensureDefaults db).policyPlans = (pplans.map PolicyPlan.columns).foldl
      (Keyed.replace PolicyRow.planName) db.policyPlans := by
  rw [← pplans_kept.1, ← foldl_upsertPolicyPlan, ensureDefaults]

theorem ensureDefaults_clients :
    (ensureDefaults db).clients = (defaultClients.map ClientData.columns).foldl
      (Keyed.replace ClientRow.clientId) db.clients := by
  rw [← defaultClients_kept.1, ← foldl_upsertUserConfig, ensureDefaults]

theorem needsDefaults_iff :
    ((loadFromDb memory db {}).rateLimitPlans.isEmpty || (loadFromDb memory db {}).policyPlans.isEmpty
      || (loadFromDb memory db {}).clients.isEmpty) = true ↔ db.NeedsDefaults := by
  rw [Bool.or_eq_true, Bool.or_eq_true, List.isEmpty_iff, List.isEmpty_iff, List.isEmpty_iff,
    or_assoc]
  exact or_congr (Keyed.load_eq_nil_iff (map_getRateLimitPlans ..))
    (or_congr (Keyed.load_eq_nil_iff (map_getPolicyPlans ..))
      (Keyed.load_eq_nil_iff (map_getAllUsers ..)))

theorem agrees_loadFromDb_iff {db' : ConfigTables} {cache : ConfigCache} :
    Agrees (loadFromDb memory db cache) db' ↔
      Keyed.Mirrors RateLimitRow.planName (Keyed.load RateLimitRow.planName RateLimitRow.asRead
        db.rateLimitPlans (cache.rateLimitPlans.map RateLimitConfig.columns)) db'.rateLimitPlans ∧
      Keyed.Mirrors PolicyRow.planName (Keyed.load PolicyRow.planName PolicyRow.asRead
        db.policyPlans (cache.policyPlans.map PolicyPlan.columns)) db'.policyPlans ∧
      Keyed.Mirrors ClientRow.clientId (Keyed.load ClientRow.clientId ClientRow.asRead
        db.clients []) db'.clients := by
  rw [← map_getRateLimitPlans, ← map_getPolicyPlans memory, ← map_getAllUsers]
  exact agrees_iff

theorem agrees_loaded_iff (h : ¬ db.NeedsDefaults) :
    Agrees (loadFromDb memory db {}) db ↔ db.Settled := by
  rw [agrees_loadFromDb_iff, ConfigTables.Settled, if_neg h]
  refine and_congr ?_ (and_congr ?_ ?_)
  · rw [List.map_nil, Keyed.mirrors_load_iff RateLimitRow.asRead_asRead db.rateLimitKeys]
    exact forall₂_congr (fun r _ => RateLimitRow.asRead_iff)
  · rw [List.map_nil, Keyed.mirrors_load_iff PolicyRow.asRead_asRead db.policyKeys]
    exact forall₂_congr (fun r _ => PolicyRow.asRead_iff)
  · rw [Keyed.mirrors_load_iff ClientRow.asRead_asRead db.clientKeys]
    exact forall₂_congr (fun r _ => ClientRow.asRead_iff)

theorem agrees_reloaded_iff (h : db.NeedsDefaults) :
    Agrees (loadFromDb memory' (ensureDefaults db) (loadFromDb memory db {})) (ensureDefaults db) ↔
      db.Settled := by
  rw [agrees_loadFromDb_iff, ConfigTables.Settled, if_pos h]
  refine and_congr ?_ (and_congr ?_ ?_)
  · have hfirst : (loadFromDb memory db {}).rateLimitPlans.map RateLimitConfig.columns =
      Keyed.load _ _ db.rateLimitPlans [] := map_getRateLimitPlans ..
    rw [hfirst, ensureDefaults_rateLimitPlans, Keyed.mirrors_reload_replaced_iff
      RateLimitRow.asRead_asRead db.rateLimitKeys rplans_kept.2.2 rplans_kept.2.1
      (fun _ _ => congrArg columnText)]
    simp only [List.forall_mem_map, RateLimitRow.asRead_iff]
    rfl
  · have hfirst : (loadFromDb memory db {}).policyPlans.map PolicyPlan.columns =
      Keyed.load _ _ db.policyPlans [] := map_getPolicyPlans ..
    rw [hfirst, ensureDefaults_policyPlans, Keyed.mirrors_reload_replaced_iff
      PolicyRow.asRead_asRead db.policyKeys pplans_kept.2.2 pplans_kept.2.1
      (fun _ _ => congrArg columnText)]
    simp only [List.forall_mem_map, PolicyRow.asRead_iff]
    rfl
  · rw [ensureDefaults_clients, Keyed.mirrors_load_replaced_iff ClientRow.asRead_asRead
      db.clientKeys defaultClients_kept.2.2 defaultClients_kept.2.1]
    simp only [List.forall_mem_map, ClientRow.asRead_iff]
    rfl

theorem agrees_construct_iff :
    Agrees (construct memory memory' db).1 (construct memory memory' db).2 ↔ db.Settled := by
  rw [construct]
  dsimp only
  split
  · rename_i hneeds
    exact agrees_reloaded_iff (needsDefaults_iff.mp hneeds)
  · rename_i hneeds
    exact agrees_loaded_iff (fun h => hneeds (needsDefaults_iff.mpr h))

end ClientSqliteConfigManager

/-- Every client of the tables is given its limits as the tables hold them. -/
def Serves (cache : ConfigCache) (db : ConfigTables) : Prop :=
  ∀ r ∈ db.clients, ∀ out, ∃ config, cache.getClientConfig r.clientId out = (true, config) ∧
    config.clientId = r.clientId ∧
    (∀ plan ∈ db.rateLimitPlans, plan.planName = r.rateLimitPlanName →
      config.rateLimitConfig.columns = plan) ∧
    ∀ plan ∈ db.policyPlans, plan.planName = r.policyPlanName → config.policyConfig.columns = plan

theorem Agrees.serves {cache : ConfigCache} {db : ConfigTables} (h : Agrees cache db) :
    Serves cache db := by
  intro r hr out
  have hclient := h.clients r.clientId
  rw [Keyed.lookup_of_mem db.clientKeys hr, Option.map_eq_some_iff] at hclient
  obtain ⟨client, hfound, rfl⟩ := hclient
  refine ⟨_, by rw [ConfigCache.getClientConfig, hfound], rfl, fun plan hplan hname => ?_,
    fun plan hplan hname => ?_⟩
  · have hrate := h.rateLimitPlans plan.planName
    rw [Keyed.lookup_of_mem db.rateLimitKeys hplan, hname, Option.map_eq_some_iff] at hrate
    obtain ⟨cached, hcached, rfl⟩ := hrate
    change ((Keyed.lookup _ client.rateLimitConfigPlanName cache.rateLimitPlans).getD _).columns = _
    rw [show client.rateLimitConfigPlanName = client.columns.rateLimitPlanName from rfl, hcached]
    rfl
  · have hpolicy := h.policyPlans plan.planName
    rw [Keyed.lookup_of_mem db.policyKeys hplan, hname, Option.map_eq_some_iff] at hpolicy
    obtain ⟨cached, hcached, rfl⟩ := hpolicy
    change ((Keyed.lookup _ client.policyPlanName cache.policyPlans).getD _).columns = _
    rw [show client.policyPlanName = client.columns.policyPlanName from rfl, hcached]
    rfl

/-- The maps hold exactly what the tables hold, and serve it, when every row can be read and no plan
under a default name was another one before the defaults were put in. -/
theorem configCache_agrees_iff (memory memory' : String → PolicyPlan) (db : ConfigTables) :
    (Agrees (ClientSqliteConfigManager.construct memory memory' db).1
        (ClientSqliteConfigManager.construct memory memory' db).2 ∧
      Serves (ClientSqliteConfigManager.construct memory memory' db).1
        (ClientSqliteConfigManager.construct memory memory' db).2) ↔ db.Settled := by
  rw [← ClientSqliteConfigManager.agrees_construct_iff]
  exact ⟨And.left, fun h => ⟨h, h.serves⟩⟩

/-- A plan `basic` of its own, and no clients. -/
def ownBasicPlan : ConfigTables where
  rateLimitPlans := [⟨"basic", 7, 7, 7⟩]
  rateLimitKeys := by decide
  policyKeys := by decide
  clientKeys := by decide

/-- The manager constructed over it, with the database it leaves. -/
def ownBasicPlanLoaded : ConfigCache × ConfigTables :=
  ClientSqliteConfigManager.construct blankPlan blankPlan ownBasicPlan

/-- The default client `client_2` is served the limits of that plan, which the database no longer
holds. -/
theorem configCache_keeps_ownBasicPlan :
    Keyed.lookup RateLimitRow.planName "basic" ownBasicPlanLoaded.2.rateLimitPlans =
        some ⟨"basic", 100, 60, 5⟩ ∧
      Keyed.lookup ClientRow.clientId "client_2" ownBasicPlanLoaded.2.clients =
        some ⟨"client_2", "basic", "sandbox"⟩ ∧
      (ownBasicPlanLoaded.1.getClientConfig "client_2"
          ⟨"", ⟨"", 0, 0, 0⟩, blankPlan ""⟩).2.rateLimitConfig = ⟨"basic", 7, 7, 7⟩ := by
  decide +kernel

end Plans

end FlowPilot
