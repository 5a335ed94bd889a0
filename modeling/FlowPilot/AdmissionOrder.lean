import FlowPilot.AdmissionPlan
import FlowPilot.BaseTopological

/-! The cycle check of `validate_dependencies`. A request that passes it has an order in which each
job comes after all that it depends on; one that it rejects, although all dependencies are jobs, has a
cycle. -/

namespace FlowPilot

namespace WorkflowAdmissionService

variable {hash : HashOrder} {ids : List String} {deps incoming : String → List String}
  {edges : List (String × String)} {queue : List String}

theorem visitSuccessors_eq (current : String) {targets : List String} (hnodup : targets.Nodup)
    (incoming : String → List String) (queue : List String) :
    visitSuccessors current targets incoming queue =
      (fun t => if t ∈ targets then withoutEdge current (incoming t) else incoming t,
        queue ++ targets.filter (fun t => (withoutEdge current (incoming t)).isEmpty)) := by
  induction targets generalizing incoming queue with
  | nil => simp [visitSuccessors]
  | cons target rest ih =>
      obtain ⟨hnew, hrest⟩ := List.nodup_cons.mp hnodup
      have hne : ∀ t ∈ rest, t ≠ target := fun t ht heq => hnew (heq ▸ ht)
      rw [visitSuccessors, ih hrest]
      refine Prod.ext (funext fun t => ?_) ?_
      · by_cases ht : t = target
        · subst ht
          simp [hnew, withoutEdge]
        · simp [ht]
      · have hfilter : rest.filter (fun t => (withoutEdge current (Function.update incoming target
            ((incoming target).filter (fun j => decide (j ≠ current))) t)).isEmpty) =
            rest.filter (fun t => (withoutEdge current (incoming t)).isEmpty) :=
          List.filter_congr (fun t ht => by rw [Function.update_of_ne (hne t ht)])
        dsimp only
        rw [hfilter, List.filter_cons]
        change ite ((withoutEdge current (incoming target)).isEmpty = true) _ _ ++ _ = _
        split <;> simp

/-- The targets of the edges of each job are the jobs that depend on it. -/
def EdgesOf (ids : List String) (deps : String → List String) (edges : List (String × String)) :
    Prop :=
  ∀ current, ((edges.filter (fun e => decide (e.1 = current))).map Prod.snd).Nodup ∧
    ∀ t, t ∈ (edges.filter (fun e => decide (e.1 = current))).map Prod.snd ↔
      t ∈ ids ∧ current ∈ deps t

/-- The jobs that the second loop takes from the queue in so many turns, in order, and the queue that
it leaves. -/
def visitOrder (hash : HashOrder) (edges : List (String × String)) :
    Nat → (String → List String) → List String → List String × List String
  | 0, _, queue => ([], queue)
  | _ + 1, _, [] => ([], [])
  | turns + 1, incoming, current :: rest =>
      let targets := (edges.filter (fun e => decide (e.1 = current))).map Prod.snd
      let (incoming', queue) :=
        visitSuccessors current (hash.order .outgoingEdges targets) incoming rest
      let (visited, left) := visitOrder hash edges turns incoming' queue
      (current :: visited, left)

theorem visitJobs_eq_length (hash : HashOrder) (edges : List (String × String)) (turns : Nat)
    (incoming : String → List String) (queue : List String) (visited : Nat) :
    visitJobs hash edges turns incoming queue visited =
      visited + (visitOrder hash edges turns incoming queue).1.length := by
  induction turns generalizing incoming queue visited with
  | zero => rfl
  | succ turns ih =>
      cases queue with
      | nil => rfl
      | cons current rest =>
          rw [visitJobs, visitOrder]
          refine (ih _ _ _).trans ?_
          rw [List.length_cons]
          omega

/-- The second loop visits jobs in dependency order, and ends early only when the queue is empty. -/
theorem visitOrder_visits (hash : HashOrder) (hedges : EdgesOf ids deps edges) (turns : Nat)
    {done : List String} (h : Worklist ids deps done queue incoming) :
    ∃ incoming', Worklist ids deps (done ++ (visitOrder hash edges turns incoming queue).1)
        (visitOrder hash edges turns incoming queue).2 incoming' ∧
      ((visitOrder hash edges turns incoming queue).2 = [] ∨
        (visitOrder hash edges turns incoming queue).1.length = turns) := by
  induction turns generalizing done queue incoming with
  | zero => exact ⟨incoming, by simpa [visitOrder] using h, .inr rfl⟩
  | succ turns ih =>
      cases queue with
      | nil => exact ⟨incoming, by simpa [visitOrder] using h, .inl rfl⟩
      | cons current rest =>
          obtain ⟨hnodup, htargets⟩ := hedges current
          have hperm := hash.perm .outgoingEdges
            ((edges.filter (fun e => decide (e.1 = current))).map Prod.snd)
          have hvisit := h.visit (hperm.nodup_iff.mpr hnodup)
            (fun t => hperm.mem_iff.trans (htargets t))
          obtain ⟨incoming', hlist, hend⟩ := ih hvisit
          rw [visitOrder, visitSuccessors_eq current (hperm.nodup_iff.mpr hnodup)]
          refine ⟨incoming', ?_, hend.imp_right (congrArg (· + 1))⟩
          rw [List.append_cons]
          exact hlist

theorem visitOrder_empties (hash : HashOrder) (hedges : EdgesOf ids deps edges) {turns : Nat}
    (hturns : ids.length ≤ turns) {done : List String} (h : Worklist ids deps done queue incoming) :
    (visitOrder hash edges turns incoming queue).2 = [] := by
  obtain ⟨incoming', hlist, hend⟩ := visitOrder_visits hash hedges turns h
  rcases hend with hend | hend
  · exact hend
  · have hle := hlist.length_le
    rw [List.length_append, hend] at hle
    exact List.eq_nil_of_length_eq_zero (by omega)

theorem linkDependencies_edges {known : List String} {job : String} {deps : List String}
    {info info' : JobRuntimeMap} {edges edges' : List (String × String)}
    (h : linkDependencies known job deps info edges = .ok (info', edges')) :
    edges' = edges ++ deps.map (fun d => (d, job)) := by
  induction deps generalizing info edges with
  | nil =>
      cases h
      simp
  | cons dep rest ih =>
      rw [linkDependencies] at h
      split at h
      · cases h
      · rw [ih h]
        simp

/-- The first loop collects an edge for each dependency and the jobs that have none. -/
theorem linkJobs_edges {known : List String} {jobs : List (String × List String)}
    {info linked : JobRuntimeMap} {edges edges' : List (String × String)} {queue queue' : List String}
    (h : linkJobs hash known jobs info edges queue = .ok (linked, edges', queue')) :
    edges' = edges ++
      jobs.flatMap (fun x => (hash.order .dependencies x.2).map (fun d => (d, x.1))) ∧
    queue' = queue ++ (jobs.filter (fun x => x.2.isEmpty)).map Prod.fst := by
  induction jobs generalizing info edges queue with
  | nil =>
      cases h
      simp
  | cons x rest ih =>
      obtain ⟨job, deps⟩ := x
      rw [linkJobs] at h
      split at h
      · cases h
      · rename_i info₁ edges₁ hlink
        obtain ⟨rfl, rfl⟩ := ih h
        rw [linkDependencies_edges hlink]
        refine ⟨by simp, ?_⟩
        rw [List.filter_cons]
        split <;> simp

theorem map_snd_edges {pairs : List (String × List String)} (hdeps : ∀ x ∈ pairs, x.2.Nodup)
    (current : String) :
    ((pairs.flatMap (fun x => (hash.order .dependencies x.2).map (fun d => (d, x.1)))).filter
      (fun e => decide (e.1 = current))).map Prod.snd =
      (pairs.filter (fun x => decide (current ∈ x.2))).map Prod.fst := by
  induction pairs with
  | nil => rfl
  | cons x rest ih =>
      have hperm := hash.perm .dependencies x.2
      have hnodup := hperm.nodup_iff.mpr (hdeps x List.mem_cons_self)
      have hone : (((hash.order .dependencies x.2).map (fun d => (d, x.1))).filter
          (fun e => decide (e.1 = current))).map Prod.snd =
            if current ∈ x.2 then [x.1] else [] := by
        rw [List.filter_map, List.map_map]
        change ((hash.order .dependencies x.2).filter (fun d => decide (d = current))).map
          (fun _ => x.1) = _
        rw [List.filter_eq, List.map_replicate]
        by_cases hmem : current ∈ x.2
        · rw [if_pos hmem, List.nodup_iff_count_eq_one.mp hnodup current (hperm.mem_iff.mpr hmem)]
          rfl
        · rw [if_neg hmem, List.count_eq_zero_of_not_mem (fun h => hmem (hperm.mem_iff.mp h))]
          rfl
      rw [List.flatMap_cons, List.filter_append, List.map_append, hone,
        ih (fun y hy => hdeps y (List.mem_cons_of_mem _ hy)), List.filter_cons]
      by_cases hmem : current ∈ x.2 <;> simp [hmem]

/-- The dependencies of a job as the loop looks them up. -/
def dependenciesOf (jobsMap : List (String × List String)) (j : String) : List String :=
  ((jobsMap.find? (fun e => e.1 == j)).map Prod.snd).getD []

theorem dependenciesOf_eq {jobsMap : List (String × List String)}
    (hids : (jobsMap.map Prod.fst).Nodup) {x : String × List String} (hx : x ∈ jobsMap) :
    dependenciesOf jobsMap x.1 = x.2 := by
  obtain ⟨found, hfound⟩ : ∃ found, jobsMap.find? (fun e => e.1 == x.1) = some found := by
    rw [← Option.isSome_iff_exists, List.find?_isSome]
    exact ⟨x, hx, beq_self_eq_true _⟩
  have hid : found.1 = x.1 := eq_of_beq (List.find?_some
    (p := fun e : String × List String => e.1 == x.1) hfound)
  rw [dependenciesOf, hfound,
    List.inj_on_of_nodup_map hids (List.mem_of_find?_eq_some hfound) hx hid]
  rfl

section Linked

variable {jobsMap : List (String × List String)} {info linked : JobRuntimeMap}

/-- The first loop leaves the edges of all dependencies and queues the jobs that have none. -/
theorem linkJobs_worklist (hids : (jobsMap.map Prod.fst).Nodup) (hdeps : ∀ x ∈ jobsMap, x.2.Nodup)
    (hlink : linkJobs hash (jobsMap.map Prod.fst) (hash.order .jobsMap jobsMap) info [] [] =
      .ok (linked, edges, queue)) :
    EdgesOf (jobsMap.map Prod.fst) (dependenciesOf jobsMap) edges ∧
      Worklist (jobsMap.map Prod.fst) (dependenciesOf jobsMap) [] queue
        (dependenciesOf jobsMap) := by
  obtain ⟨hedges, hqueue⟩ := linkJobs_edges hlink
  rw [List.nil_append] at hedges hqueue
  have hperm := hash.perm .jobsMap jobsMap
  have hmap := hperm.map Prod.fst
  refine ⟨fun current => ?_, .nil, ?_, fun j => ?_, fun j _ d => by simp⟩
  · rw [hedges, map_snd_edges (fun x hx => hdeps x (hperm.mem_iff.mp hx))]
    refine ⟨(hmap.nodup_iff.mpr hids).sublist (List.filter_sublist.map _), fun t => ?_⟩
    simp only [List.mem_map, List.mem_filter, decide_eq_true_eq, hperm.mem_iff]
    constructor
    · rintro ⟨x, ⟨hx, hcurrent⟩, rfl⟩
      exact ⟨⟨x, hx, rfl⟩, by rwa [dependenciesOf_eq hids hx]⟩
    · rintro ⟨⟨x, hx, rfl⟩, hcurrent⟩
      exact ⟨x, ⟨hx, by rwa [dependenciesOf_eq hids hx] at hcurrent⟩, rfl⟩
  · rw [List.nil_append, hqueue]
    exact (hmap.nodup_iff.mpr hids).sublist (List.filter_sublist.map _)
  · rw [List.nil_append, hqueue]
    simp only [List.mem_map, List.mem_filter, List.isEmpty_iff, hperm.mem_iff]
    constructor
    · rintro ⟨x, ⟨hx, hnil⟩, rfl⟩
      exact ⟨⟨x, hx, rfl⟩, by rw [dependenciesOf_eq hids hx, hnil]⟩
    · rintro ⟨⟨x, hx, rfl⟩, hnil⟩
      exact ⟨x, ⟨hx, by rwa [dependenciesOf_eq hids hx] at hnil⟩, rfl⟩

theorem validateDependencies_acyclic (hids : (jobsMap.map Prod.fst).Nodup)
    (hdeps : ∀ x ∈ jobsMap, x.2.Nodup) (h : validateDependencies hash jobsMap info = .ok linked) :
    ∃ order, DependencyOrder (dependenciesOf jobsMap) order ∧ ∀ x ∈ jobsMap, x.1 ∈ order := by
  rw [validateDependencies] at h
  split at h
  · cases h
  · rename_i linked' edges queue hlink
    dsimp only at h
    split at h
    · cases h
    · rename_i hcount
      obtain ⟨hedges, hstart⟩ := linkJobs_worklist hids hdeps hlink
      obtain ⟨incoming, hlist, -⟩ := visitOrder_visits hash hedges jobsMap.length hstart
      rw [List.nil_append] at hlist
      have hlength := not_not.mp hcount
      rw [visitJobs_eq_length, Nat.zero_add] at hlength
      refine ⟨_, hlist.ordered, fun x hx => hlist.mem_done ?_ (List.mem_map_of_mem hx)⟩
      rw [List.length_map]
      exact Nat.le_of_eq hlength.symm

/-- `validate_dependencies` rejects a request whose dependencies are all jobs only if it has a
cycle. -/
theorem validateDependencies_of_acyclic (hids : (jobsMap.map Prod.fst).Nodup)
    (hdeps : ∀ x ∈ jobsMap, x.2.Nodup) (hknown : ∀ x ∈ jobsMap, ∀ d ∈ x.2, d ∈ jobsMap.map Prod.fst)
    (hacyclic : ∀ j, ¬ OnCycle (dependenciesOf jobsMap) j)
    (hlink : linkJobs hash (jobsMap.map Prod.fst) (hash.order .jobsMap jobsMap) info [] [] =
      .ok (linked, edges, queue)) :
    validateDependencies hash jobsMap info = .ok linked := by
  obtain ⟨hedges, hstart⟩ := linkJobs_worklist hids hdeps hlink
  obtain ⟨incoming, hlist, -⟩ := visitOrder_visits hash hedges jobsMap.length hstart
  have hempty := visitOrder_empties hash hedges (Nat.le_of_eq (List.length_map ..)) hstart
  rw [List.nil_append, hempty] at hlist
  have hknown' : ∀ a ∈ jobsMap.map Prod.fst, ∀ d ∈ dependenciesOf jobsMap a,
      d ∈ jobsMap.map Prod.fst := by
    intro a ha d hd
    obtain ⟨x, hx, rfl⟩ := List.mem_map.mp ha
    rw [dependenciesOf_eq hids hx] at hd
    exact hknown x hx d hd
  have hall : ∀ a ∈ jobsMap.map Prod.fst,
      a ∈ (visitOrder hash edges jobsMap.length (dependenciesOf jobsMap) queue).1 := by
    intro a ha
    by_contra hnot
    obtain ⟨b, -, hcycle⟩ := hlist.exists_onCycle hknown' ha hnot
    exact hacyclic b hcycle
  have hcount : (visitOrder hash edges jobsMap.length (dependenciesOf jobsMap) queue).1.length =
      jobsMap.length := by
    refine Nat.le_antisymm ?_ ?_
    · have hle := hlist.length_le
      rwa [List.length_nil, Nat.add_zero, List.length_map] at hle
    · have hle := (hids.subperm hall).length_le
      rwa [List.length_map] at hle
  rw [validateDependencies, hlink]
  refine if_neg (not_not.mpr ?_)
  rw [visitJobs_eq_length, Nat.zero_add]
  exact hcount

end Linked

/-- The jobs of the request have an order in which each comes after all that it depends on. -/
def Acyclic (jobs : List JobRequest) : Prop :=
  ∃ order, DependencyOrder (dependenciesOf (dependencyPairs jobs)) order ∧
    ∀ job ∈ jobs, job.jobId ∈ order

theorem validateWorkflow_acyclic {policy : PolicyPlan} {jobs : List JobRequest}
    {info linked : JobRuntimeMap} (h : validateWorkflow hash policy jobs info = .ok linked) :
    Acyclic jobs := by
  obtain ⟨-, hids, hdeps, h⟩ := validateWorkflow_checks h
  obtain ⟨order, horder, hall⟩ := validateDependencies_acyclic hids (fun x hx => by
    obtain ⟨job, hjob, rfl⟩ := List.mem_map.mp hx
    exact hdeps job hjob) h
  exact ⟨order, horder, fun job hjob =>
    hall (job.jobId, job.dependsOn) (List.mem_map.mpr ⟨job, hjob, rfl⟩)⟩

end WorkflowAdmissionService

end FlowPilot
