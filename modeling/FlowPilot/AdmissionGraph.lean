import FlowPilot.AdmissionOrder

/-! The dependency graph of a request. `validate_semantic` and `validate_dependencies` together accept
exactly the requests whose graph is one without cycles over the jobs of the request, and the successor
lists and counters that `build_jobs_runtime_info` and `validate_dependencies` fill in describe that
graph. -/

namespace FlowPilot

/-- Job `j` of the request lists `d` among its dependencies. -/
def DependsOn (jobs : List JobRequest) (j d : String) : Prop :=
  ∃ job ∈ jobs, job.jobId = j ∧ d ∈ job.dependsOn

/-- The request describes a graph without cycles: its job ids are distinct, no job lists a dependency
twice, every dependency is a job, and no job depends on itself, possibly through others. -/
structure Dag (jobs : List JobRequest) : Prop where
  ids_nodup : (jobs.map JobRequest.jobId).Nodup
  deps_nodup : ∀ job ∈ jobs, job.dependsOn.Nodup
  deps_known : ∀ job ∈ jobs, ∀ d ∈ job.dependsOn, d ∈ jobs.map JobRequest.jobId
  acyclic : ∀ j, ¬ Relation.TransGen (DependsOn jobs) j j

namespace WorkflowAdmissionService

section Semantic

theorem insertDependencies_of_nodup (deps seen : List String) (h : (seen ++ deps).Nodup) :
    insertDependencies deps seen = some (seen ++ deps) := by
  induction deps generalizing seen with
  | nil => rw [insertDependencies, List.append_nil]
  | cons d rest ih =>
      have hd : d ∉ seen := fun hmem =>
        (List.nodup_append'.mp h).2.2 hmem List.mem_cons_self
      rw [List.append_cons] at h
      rw [insertDependencies, if_neg hd, ih _ h, ← List.append_cons]

theorem validateSemanticFrom_of_nodup {jobs : List JobRequest} {acc : List (String × List String)}
    (hids : (acc.map Prod.fst ++ jobs.map JobRequest.jobId).Nodup)
    (hdeps : ∀ job ∈ jobs, job.dependsOn.Nodup) :
    validateSemanticFrom jobs acc = .ok (acc ++ dependencyPairs jobs) := by
  induction jobs generalizing acc with
  | nil =>
      rw [validateSemanticFrom, dependencyPairs, List.map_nil, List.append_nil]
  | cons job rest ih =>
      have hnew : ¬ acc.any (fun e => e.1 == job.jobId) = true := by
        rw [List.any_eq_true]
        rintro ⟨e, he, heq⟩
        refine (List.nodup_append'.mp hids).2.2 (List.mem_map_of_mem he) ?_
        rw [eq_of_beq heq]
        exact List.mem_cons_self
      have hnext : ((acc ++ [(job.jobId, job.dependsOn)]).map Prod.fst ++
          rest.map JobRequest.jobId).Nodup := by
        rw [List.map_cons, List.append_cons] at hids
        rwa [List.map_append]
      rw [validateSemanticFrom,
        insertDependencies_of_nodup _ [] (hdeps job List.mem_cons_self)]
      dsimp only
      rw [if_neg hnew, List.nil_append,
        ih hnext (fun j hj => hdeps j (List.mem_cons_of_mem _ hj)), ← List.append_cons]
      rfl

/-- `validate_semantic` accepts exactly distinct job ids with distinct dependencies each. -/
theorem validateSemantic_eq_ok_iff {jobs : List JobRequest} {jobsMap : List (String × List String)} :
    validateSemantic jobs = .ok jobsMap ↔ jobsMap = dependencyPairs jobs ∧
      (jobs.map JobRequest.jobId).Nodup ∧ ∀ job ∈ jobs, job.dependsOn.Nodup := by
  constructor
  · intro h
    obtain ⟨hmap, hids, hdeps⟩ := validateSemanticFrom_ok h List.nodup_nil
    rw [List.nil_append] at hmap
    rw [hmap, List.map_map] at hids
    exact ⟨hmap, hids, hdeps⟩
  · rintro ⟨rfl, hids, hdeps⟩
    exact validateSemanticFrom_of_nodup hids hdeps

end Semantic

section Dependencies

variable {hash : HashOrder} {jobs : List JobRequest} {info : JobRuntimeMap}

theorem map_fst_dependencyPairs (jobs : List JobRequest) :
    (dependencyPairs jobs).map Prod.fst = jobs.map JobRequest.jobId := by
  rw [dependencyPairs, List.map_map]
  rfl

theorem linkDependencies_of_known {known deps : List String} (h : ∀ d ∈ deps, d ∈ known)
    (job : String) (info : JobRuntimeMap) (edges : List (String × String)) :
    ∃ r, linkDependencies known job deps info edges = .ok r := by
  induction deps generalizing info edges with
  | nil => exact ⟨_, rfl⟩
  | cons dep rest ih =>
      rw [linkDependencies, if_neg (not_not.mpr (h dep List.mem_cons_self))]
      exact ih (fun d hd => h d (List.mem_cons_of_mem _ hd)) _ _

theorem linkJobs_of_known {known : List String} {jobs : List (String × List String)}
    (h : ∀ x ∈ jobs, ∀ d ∈ x.2, d ∈ known) (info : JobRuntimeMap) (edges : List (String × String))
    (queue : List String) :
    ∃ r, linkJobs hash known jobs info edges queue = .ok r := by
  induction jobs generalizing info edges queue with
  | nil => exact ⟨_, rfl⟩
  | cons x rest ih =>
      obtain ⟨job, deps⟩ := x
      have hdeps : ∀ d ∈ hash.order .dependencies deps, d ∈ known := fun d hd =>
        h (job, deps) List.mem_cons_self d ((hash.perm .dependencies deps).mem_iff.mp hd)
      obtain ⟨⟨info', edges'⟩, hlink⟩ :=
        linkDependencies_of_known hdeps job info edges
      rw [linkJobs, hlink]
      exact ih (fun y hy => h y (List.mem_cons_of_mem _ hy)) _ _ _

theorem mem_dependenciesOf (hids : (jobs.map JobRequest.jobId).Nodup) (j d : String) :
    d ∈ dependenciesOf (dependencyPairs jobs) j ↔ DependsOn jobs j d := by
  have hpairs : ((dependencyPairs jobs).map Prod.fst).Nodup := by
    rwa [map_fst_dependencyPairs]
  have hlookup : ∀ job ∈ jobs, dependenciesOf (dependencyPairs jobs) job.jobId = job.dependsOn :=
    fun job hjob => dependenciesOf_eq hpairs
      (x := (job.jobId, job.dependsOn)) (List.mem_map.mpr ⟨job, hjob, rfl⟩)
  constructor
  · intro hd
    rw [dependenciesOf] at hd
    cases hfound : (dependencyPairs jobs).find? (fun e => e.1 == j) with
    | none =>
        rw [hfound] at hd
        exact absurd hd List.not_mem_nil
    | some x =>
        rw [hfound] at hd
        obtain ⟨job, hjob, rfl⟩ := List.mem_map.mp (List.mem_of_find?_eq_some hfound)
        exact ⟨job, hjob, eq_of_beq (List.find?_some
          (p := fun e : String × List String => e.1 == j) hfound), hd⟩
  · rintro ⟨job, hjob, rfl, hd⟩
    rwa [hlookup job hjob]

theorem onCycle_iff (hids : (jobs.map JobRequest.jobId).Nodup) (j : String) :
    OnCycle (dependenciesOf (dependencyPairs jobs)) j ↔
      Relation.TransGen (DependsOn jobs) j j := by
  have hsame : (fun a d => d ∈ dependenciesOf (dependencyPairs jobs) a) = DependsOn jobs := by
    funext a d
    exact propext (mem_dependenciesOf hids a d)
  rw [OnCycle, hsame]

theorem validateDependencies_of_dag (hash : HashOrder) (info : JobRuntimeMap) (h : Dag jobs) :
    ∃ linked, validateDependencies hash (dependencyPairs jobs) info = .ok linked := by
  have hids : ((dependencyPairs jobs).map Prod.fst).Nodup := by
    rw [map_fst_dependencyPairs]
    exact h.ids_nodup
  have hknown : ∀ x ∈ dependencyPairs jobs, ∀ d ∈ x.2, d ∈ (dependencyPairs jobs).map Prod.fst := by
    intro x hx d hd
    obtain ⟨job, hjob, rfl⟩ := List.mem_map.mp hx
    rw [map_fst_dependencyPairs]
    exact h.deps_known job hjob d hd
  have hdeps : ∀ x ∈ dependencyPairs jobs, x.2.Nodup := by
    intro x hx
    obtain ⟨job, hjob, rfl⟩ := List.mem_map.mp hx
    exact h.deps_nodup job hjob
  have hordered : ∀ x ∈ hash.order .jobsMap (dependencyPairs jobs), ∀ d ∈ x.2,
      d ∈ (dependencyPairs jobs).map Prod.fst := fun x hx =>
    hknown x ((hash.perm .jobsMap _).mem_iff.mp hx)
  obtain ⟨⟨linked, edges, queue⟩, hlink⟩ := linkJobs_of_known hordered info [] []
  refine ⟨linked, validateDependencies_of_acyclic hids hdeps hknown (fun j hcycle => ?_) hlink⟩
  exact h.acyclic j ((onCycle_iff h.ids_nodup j).mp hcycle)

/-- A request that passes `validate_dependencies` has only known dependencies and no cycle. -/
theorem dag_of_validateDependencies {linked : JobRuntimeMap}
    (hids : (jobs.map JobRequest.jobId).Nodup) (hdeps : ∀ job ∈ jobs, job.dependsOn.Nodup)
    (h : validateDependencies hash (dependencyPairs jobs) info = .ok linked) : Dag jobs := by
  have hpairs : ((dependencyPairs jobs).map Prod.fst).Nodup := by
    rwa [map_fst_dependencyPairs]
  have hnodup : ∀ x ∈ dependencyPairs jobs, x.2.Nodup := by
    intro x hx
    obtain ⟨job, hjob, rfl⟩ := List.mem_map.mp hx
    exact hdeps job hjob
  obtain ⟨order, horder, hall⟩ := validateDependencies_acyclic hpairs hnodup h
  have hknown : ∀ job ∈ jobs, ∀ d ∈ job.dependsOn, d ∈ jobs.map JobRequest.jobId := by
    rw [validateDependencies] at h
    split at h
    · cases h
    · rename_i linked' edges queue hlink
      have hperm := hash.perm .jobsMap (dependencyPairs jobs)
      obtain ⟨hknown, -⟩ := linkJobs_ok hlink (fun x hx => hnodup x (hperm.mem_iff.mp hx))
      intro job hjob d hd
      have hmem := hknown (job.jobId, job.dependsOn)
        (hperm.mem_iff.mpr (List.mem_map.mpr ⟨job, hjob, rfl⟩)) d hd
      rwa [map_fst_dependencyPairs] at hmem
  refine ⟨hids, hdeps, hknown, fun j hcycle => ?_⟩
  -- a job on a cycle has a dependency, so it is a job of the request
  obtain ⟨d, ⟨job, hjob, rfl, -⟩, -⟩ := Relation.TransGen.head'_iff.mp hcycle
  refine horder.not_onCycle job.jobId (hall (job.jobId, job.dependsOn) ?_)
    ((onCycle_iff hids _).mpr hcycle)
  exact List.mem_map.mpr ⟨job, hjob, rfl⟩

/-- Dependency validation is exact in every iteration order of the containers: `validate_semantic` and
`validate_dependencies` accept a list of jobs exactly if it describes a graph without cycles. Whatever
they accept in the end, the second loop takes from the queue or leaves in it each job at most once,
and the queue is empty after as many turns as there are jobs. -/
theorem validation_exact (hash : HashOrder) (jobs : List JobRequest) (info : JobRuntimeMap) :
    ((∃ jobsMap linked, validateSemantic jobs = .ok jobsMap ∧
      validateDependencies hash jobsMap info = .ok linked) ↔ Dag jobs) ∧
    ∀ jobsMap linked edges queue, validateSemantic jobs = .ok jobsMap →
      linkJobs hash (jobsMap.map Prod.fst) (hash.order .jobsMap jobsMap) info [] [] =
        .ok (linked, edges, queue) →
      ∀ turns visited left,
        visitOrder hash edges turns (dependenciesOf jobsMap) queue = (visited, left) →
        visitJobs hash edges turns (dependenciesOf jobsMap) queue 0 = visited.length ∧
          (visited ++ left).Nodup ∧ (jobsMap.length ≤ turns → left = []) := by
  refine ⟨⟨?_, fun h => ?_⟩, fun jobsMap linked edges queue hsemantic hlink => ?_⟩
  · rintro ⟨jobsMap, linked, hsemantic, hvalid⟩
    obtain ⟨rfl, hids, hdeps⟩ := validateSemantic_eq_ok_iff.mp hsemantic
    exact dag_of_validateDependencies hids hdeps hvalid
  · obtain ⟨linked, hlinked⟩ := validateDependencies_of_dag hash info h
    exact ⟨dependencyPairs jobs, linked,
      validateSemantic_eq_ok_iff.mpr ⟨rfl, h.ids_nodup, h.deps_nodup⟩, hlinked⟩
  · obtain ⟨rfl, hids, hdeps⟩ := validateSemantic_eq_ok_iff.mp hsemantic
    have hpairs : ((dependencyPairs jobs).map Prod.fst).Nodup := by
      rwa [map_fst_dependencyPairs]
    obtain ⟨hedges, hstart⟩ := linkJobs_worklist hpairs (fun x hx => by
      obtain ⟨job, hjob, rfl⟩ := List.mem_map.mp hx
      exact hdeps job hjob) hlink
    intro turns visited left hvisit
    obtain ⟨incoming, hlist, -⟩ := visitOrder_visits hash hedges turns hstart
    rw [hvisit, List.nil_append] at hlist
    refine ⟨?_, hlist.nodup, fun hturns => ?_⟩
    · rw [visitJobs_eq_length, hvisit, Nat.zero_add]
    · have hempty := visitOrder_empties hash hedges
        (Nat.le_trans (Nat.le_of_eq (List.length_map ..)) hturns) hstart
      rwa [hvisit] at hempty

end Dependencies

end WorkflowAdmissionService

section Records

open WorkflowRuntimeGenerator WorkflowAdmissionService

variable {hash : HashOrder} {uuids : UuidSource} {policy : PolicyPlan} {jobs : List JobRequest}
  {info linked : JobRuntimeMap} {ready : List PrioritizedJob}

theorem exists_job_of_describes (h : List.Forall₂ (Describes policy) jobs info)
    {d : JobRuntimeData} (hd : d ∈ info) : ∃ job ∈ jobs, Describes policy job d := by
  induction h with
  | nil => cases hd
  | cons hdescribes _ ih =>
      rcases List.mem_cons.mp hd with rfl | hd
      · exact ⟨_, List.mem_cons_self, hdescribes⟩
      · obtain ⟨job, hjob, hdescribes⟩ := ih hd
        exact ⟨job, List.mem_cons_of_mem _ hjob, hdescribes⟩

/-- The successors of the record are the jobs that depend on its job, each once. -/
def ListsDependents (jobs : List JobRequest) (d : JobRuntimeData) : Prop :=
  ∀ j, (DependsOn jobs j d.jobId → d.successors.count j = 1) ∧
    (¬ DependsOn jobs j d.jobId → d.successors.count j = 0)

theorem ListsDependents.mem_iff {d : JobRuntimeData} (h : ListsDependents jobs d) (j : String) :
    j ∈ d.successors ↔ DependsOn jobs j d.jobId := by
  constructor
  · intro hj
    by_contra hnot
    exact List.count_eq_zero.mp ((h j).2 hnot) hj
  · intro hdep
    refine List.count_pos_iff.mp ?_
    rw [(h j).1 hdep]
    exact Nat.one_pos

theorem listsDependents_addSuccessors (hash : HashOrder) (hids : (jobs.map JobRequest.jobId).Nodup)
    {d : JobRuntimeData} (hnone : d.successors = []) :
    ListsDependents jobs (addSuccessors (hash.order .jobsMap (dependencyPairs jobs)) d) := by
  intro j
  have hperm := hash.perm .jobsMap (dependencyPairs jobs)
  have hnodup : ((hash.order .jobsMap (dependencyPairs jobs)).map Prod.fst).Nodup := by
    rw [(hperm.map Prod.fst).nodup_iff, map_fst_dependencyPairs]
    exact hids
  have hmem : j ∈ ((hash.order .jobsMap (dependencyPairs jobs)).filter
      (fun x => decide (d.jobId ∈ x.2))).map Prod.fst ↔ DependsOn jobs j d.jobId := by
    simp only [List.mem_map, List.mem_filter, hperm.mem_iff, decide_eq_true_eq, DependsOn]
    constructor
    · rintro ⟨x, ⟨hx, hd⟩, rfl⟩
      obtain ⟨job, hjob, rfl⟩ := List.mem_map.mp hx
      exact ⟨job, hjob, rfl, hd⟩
    · rintro ⟨job, hjob, rfl, hd⟩
      exact ⟨(job.jobId, job.dependsOn), ⟨List.mem_map.mpr ⟨job, hjob, rfl⟩, hd⟩, rfl⟩
  rw [addSuccessors, hnone, List.nil_append]
  refine ⟨fun h => ?_, fun h => ?_⟩
  · exact List.count_eq_one_of_mem (hnodup.sublist (List.filter_sublist.map _)) (hmem.mpr h)
  · exact List.count_eq_zero_of_not_mem (fun h' => h (hmem.mp h'))

/-- As many jobs of the request as a job has dependencies are among its dependencies. -/
theorem length_filter_dependencies (h : WellFormed jobs) {job : JobRequest} (hjob : job ∈ jobs) :
    ((jobs.map JobRequest.jobId).filter (fun j => decide (j ∈ job.dependsOn))).length =
      job.dependsOn.length := by
  refine List.Perm.length_eq ?_
  refine (List.perm_ext_iff_of_nodup (h.ids_nodup.filter _) (h.deps_nodup job hjob)).mpr (fun j => ?_)
  rw [List.mem_filter, decide_eq_true_eq]
  exact ⟨And.right, fun hj => ⟨h.deps_known job hjob j hj, hj⟩⟩

/-- For every request that `build_jobs_runtime_info` and `validate_workflow` accept, the runtime records
are those of the submitted jobs; the successors of a job are the jobs that depend on it, each once; the
counter of a job is the number of jobs it is a successor of; and the ready queue holds the jobs without
dependencies, each once. -/
theorem runtimeGraph_exact (hbuilt : buildJobsRuntimeInfo uuids policy jobs = .built info ready)
    (hvalid : validateWorkflow hash policy jobs info = .ok linked) :
    (linked.map JobRuntimeData.jobId = jobs.map JobRequest.jobId ∧
      (linked.map JobRuntimeData.jobId).Nodup) ∧
    (∀ d ∈ linked, ListsDependents jobs d) ∧
    (∀ d ∈ linked, d.remainingDependencies =
      (linked.filter (fun e => decide (d.jobId ∈ e.successors))).length) ∧
    ((ready.map PrioritizedJob.jobId).Nodup ∧ ∀ j, j ∈ ready.map PrioritizedJob.jobId ↔
      ∃ job ∈ jobs, job.jobId = j ∧ job.dependsOn = []) := by
  obtain ⟨hwf, rfl⟩ := validateWorkflow_ok hvalid
  obtain ⟨hdescribes, hready⟩ := buildJobsRuntimeInfo_built hbuilt hwf.ids_nodup
  have hids : info.map JobRuntimeData.jobId = jobs.map JobRequest.jobId :=
    map_jobId_of_describes hdescribes
  have hlinked : (info.map (addSuccessors (hash.order .jobsMap (dependencyPairs jobs)))).map
      JobRuntimeData.jobId = jobs.map JobRequest.jobId := by
    rw [List.map_map, ← hids]
    rfl
  have hlists : ∀ d ∈ info,
      ListsDependents jobs (addSuccessors (hash.order .jobsMap (dependencyPairs jobs)) d) := by
    intro d hd
    obtain ⟨job, -, uuid, hjob⟩ := exists_job_of_describes hdescribes hd
    exact listsDependents_addSuccessors hash hwf.ids_nodup (jobRuntimeInfo_eq_some hjob).2.2.2.2.1
  refine ⟨⟨hlinked, hlinked ▸ hwf.ids_nodup⟩, fun d hd => ?_, fun d hd => ?_, ?_, fun j => ?_⟩
  · obtain ⟨e, he, rfl⟩ := List.mem_map.mp hd
    exact hlists e he
  · obtain ⟨e, he, rfl⟩ := List.mem_map.mp hd
    obtain ⟨job, hjob, uuid, hrecord⟩ := exists_job_of_describes hdescribes he
    obtain ⟨-, hid, -, hremaining, -⟩ := jobRuntimeInfo_eq_some hrecord
    change e.remainingDependencies = _
    -- the records that have the job as a successor are those of its dependencies
    have hsuccessor : ∀ x ∈ info, decide (e.jobId ∈
        (addSuccessors (hash.order .jobsMap (dependencyPairs jobs)) x).successors) =
          decide (x.jobId ∈ job.dependsOn) := by
      intro x hx
      refine decide_eq_decide.mpr (((hlists x hx).mem_iff e.jobId).trans ?_)
      constructor
      · rintro ⟨job', hjob', hid', hdep⟩
        have hsame : job' = job :=
          List.inj_on_of_nodup_map hwf.ids_nodup hjob' hjob (hid'.trans hid)
        exact hsame ▸ hdep
      · exact fun hdep => ⟨job, hjob, hid.symm, hdep⟩
    rw [hremaining, ← length_filter_dependencies hwf hjob, ← hids, List.filter_map, List.length_map,
      List.filter_map, List.length_map]
    exact congrArg (fun l : List JobRuntimeData => (l.length : Int))
      (List.filter_congr hsuccessor).symm
  · have hperm := hready.map PrioritizedJob.jobId
    rw [List.map_map] at hperm
    refine hperm.nodup_iff.mpr ?_
    have hsub : ((readyRecords info).map JobRuntimeData.jobId).Sublist
        (info.map JobRuntimeData.jobId) := List.filter_sublist.map _
    exact (hids ▸ hwf.ids_nodup).sublist hsub
  · have hperm := hready.map PrioritizedJob.jobId
    rw [List.map_map] at hperm
    exact hperm.mem_iff.trans (mem_readyRecords hdescribes j)

/-- Two jobs, the second of which depends on the first. -/
theorem runtimeGraph_exact_pair : ∃ info ready linked,
    buildJobsRuntimeInfo .counting {} [{ jobId := "a" }, { jobId := "b", dependsOn := ["a"] }] =
      .built info ready ∧
    validateWorkflow .insertion {} [{ jobId := "a" }, { jobId := "b", dependsOn := ["a"] }] info =
      .ok linked ∧
    linked.map JobRuntimeData.jobId = ["a", "b"] ∧
    linked.map JobRuntimeData.successors = [["b"], []] ∧
    ∀ d ∈ linked, ListsDependents [{ jobId := "a" }, { jobId := "b", dependsOn := ["a"] }] d := by
  have hbuilt := (rfl : buildJobsRuntimeInfo .counting {}
    [{ jobId := "a" }, { jobId := "b", dependsOn := ["a"] }] = .built _ _)
  refine ⟨_, _, _, hbuilt, rfl, rfl, rfl, ?_⟩
  exact (runtimeGraph_exact hbuilt (rfl : validateWorkflow .insertion {} _ _ = .ok _)).2.1

end Records

end FlowPilot
