import FlowPilot.WorkflowFresh
import FlowPilot.RuntimeIsolation

/-! The engine as a whole: any number of schedulers, workers, completion handlers and retry handlers
in any interleaving, with workflows admitted in between. The execution of a workflow is a run from
the moment of its admission; the rule `Executes.invariant` reduces a property of every execution to
the workflow as it is admitted and to single steps of its machine. -/

namespace FlowPilot

/-- The components whose main loops the engine runs. -/
inductive Component where
  | scheduler | worker | completionHandler | retryHandler
  deriving DecidableEq, Repr

/-- One pass of the main loop of a component. -/
def Component.mainLoop : Component → Task Unit
  | scheduler => Scheduler.mainLoop
  | worker => WorkerThread.runWorkerLoop
  | completionHandler => CompletionHandler.mainLoop
  | retryHandler => RetryHandler.mainLoop

theorem Component.mainLoop_duties (c : Component) : duties.Follows c.mainLoop (.plain .idle) := by
  cases c with
  | scheduler => exact scheduler_duties
  | worker => exact worker_duties
  | completionHandler => exact completionHandler_duties
  | retryHandler => exact retryHandler_duties

section Engines

variable {W : Type} (exec : (c : Call) → Env → W → c.Reply × W) (ids : WorkflowIdentity → Prop)

/-- The request is submitted and admitted, with its calls served by `exec`. -/
def Admits (svc : Service) (req : WorkflowRequest) (w w' : W) : Prop :=
  ∃ env result,
    Prog.run exec env (WorkflowAdmissionService.submitWorkflow svc (.request req)) w =
      (some result, w') ∧ result.valid = true

/-- The engine, with its calls served by `exec`; all workflows it admits have an identity in `ids`. -/
def engineOn : System Call Call.Reply W Env where
  exec := exec
  program := fun p => ∃ c : Component, p = c.mainLoop
  outside := fun w w' => ∃ svc req, ids req.identity ∧ Admits exec svc req w w'

/-- A run of the engine after the admission of the workflow of `req`, with the calls served since. -/
def ExecutesOn (start : W) (svc : Service) (req : WorkflowRequest) (log : List (Event Call W Env))
    (σ : Pool Call Call.Reply W) : Prop :=
  ∃ log₀ σ₀ w₁, (engineOn exec ids).Run ⟨start, []⟩ log₀ σ₀ ∧ ids req.identity ∧
    Admits exec svc req σ₀.world w₁ ∧ (engineOn exec ids).Run ⟨w₁, σ₀.threads⟩ log σ

variable {exec ids}

theorem admits_of_valid {svc : Service} {req : WorkflowRequest} {env : Nat → Env} {w : W}
    (h : (Prog.run exec env (WorkflowAdmissionService.submitWorkflow svc (.request req)) w).1.map
      ValidationResult.valid = some true) :
    Admits exec svc req w
      (Prog.run exec env (WorkflowAdmissionService.submitWorkflow svc (.request req)) w).2 := by
  obtain ⟨result, hresult, hvalid⟩ := Option.map_eq_some_iff.mp h
  exact ⟨env, result, Prod.ext hresult rfl, hvalid⟩

/-- An admission is a step of the engine. -/
theorem Admits.run {svc : Service} {req : WorkflowRequest} {σ : Pool Call Call.Reply W} {w : W}
    (h : Admits exec svc req σ.world w) (hid : ids req.identity) :
    (engineOn exec ids).Run σ [] ⟨w, σ.threads⟩ := by
  have hw : (engineOn exec ids).outside σ.world w := ⟨svc, req, hid, h⟩
  exact .tail (.refl σ) (.outside hw)

end Engines

/-- The engine on stores that are indexed by identities. Its statements are about identities that are
`Plain`: with a colon in an id, two identities can have one text in Redis, which `Call.serveFlat`
models. -/
def engine (ids : WorkflowIdentity → Prop) : System Call Call.Reply World Env :=
  engineOn Call.exec ids

theorem engine_duties (p : Task Unit) (h : (engine Plain).program p) :
    duties.Follows p duties.idle := by
  obtain ⟨c, rfl⟩ := h
  exact c.mainLoop_duties

theorem engine_follows (p : Task Unit) (h : (engine Plain).program p) : protocol.Follows p .idle :=
  duties_refine.follows (engine_duties p h)

abbrev Log := List (Event Call World Env)

/-- The keys of the workflow after the call of an event was served. -/
def after (ev : Event Call World Env) (id : WorkflowIdentity) : WorkflowKeyspace :=
  (ev.call.exec ev.env ev.world).2.redis.workflows id

/-- An execution of the workflow of `req`, in an engine whose workflows all have identities in
`ids`. -/
def Executes (ids : WorkflowIdentity → Prop) (svc : Service) (req : WorkflowRequest) (log : Log)
    (σ : Pool Call Call.Reply World) : Prop :=
  ExecutesOn Call.exec ids {} svc req log σ

theorem Admits.accepted {svc : Service} {req : WorkflowRequest} {w w' : World}
    (h : Admits Call.exec svc req w w') : ∃ client info linked ready,
      Accepted svc client req info linked ready w.visible w'.visible ∧
        FreshRows svc req linked w'.sqlite := by
  obtain ⟨env, result, hrun, hvalid⟩ := h
  have hleads := (leads_submitWorkflow (w := w) svc req).run env
  rw [hrun] at hleads
  exact hleads ⟨result, rfl, hvalid⟩

section Admissions

variable {svc : Service} {req : WorkflowRequest} {w w' : World} {id : WorkflowIdentity}

theorem Admits.new (h : Admits Call.exec svc req w w') :
    w.sqlite.recorded req.identity = false := by
  obtain ⟨client, info, linked, ready, haccepted, -⟩ := h.accepted
  rw [Sqlite.recorded_eq, decide_eq_false_iff_not]
  exact haccepted.new

/-- An admission is of a workflow that SQLite does not know yet. -/
theorem Admits.ne_of_recorded (h : Admits Call.exec svc req w w')
    (hid : w.sqlite.recorded id = true) : id ≠ req.identity := by
  rintro rfl
  exact Bool.noConfusion (hid.symm.trans h.new)

theorem Admits.recorded (h : Admits Call.exec svc req w w')
    (hid : w.sqlite.recorded id = true) : w'.sqlite.recorded id = true := by
  obtain ⟨client, info, linked, ready, haccepted, -⟩ := h.accepted
  rw [Sqlite.recorded_eq, decide_eq_true_iff] at hid ⊢
  rw [haccepted.identities]
  exact List.mem_append_left _ hid

end Admissions

/-- What holds in every state of the engine: the suspended programs are at stages of their own, none
has met a torn record, and nobody holds a job of a workflow that SQLite does not know. -/
structure Sane (w : World) (T : Multiset Token) : Prop where
  threaded : Threaded T
  unstuck : .stuck ∉ T
  whole : w.redis.Whole
  absent : ∀ id, w.sqlite.recorded id = false → Absent (view id w T)

section Sanity

variable {w w' : World} {T : Multiset Token} {t t' : Token} {c : Call} {e : Env}

theorem sane_start : Sane {} 0 where
  threaded := fun k => ⟨Multiset.notMem_zero _, Multiset.notMem_zero _⟩
  unstuck := Multiset.notMem_zero _
  whole := fun _ _ _ h => by cases h
  absent := fun _ _ => ⟨rfl, fun _ => rfl⟩

theorem Sane.idle (h : Sane w T) : Sane w (.idle ::ₘ T) where
  threaded := h.threaded.cons Token.threads_idle
  unstuck := fun hmem => (Multiset.mem_cons.mp hmem).elim nofun h.unstuck
  whole := h.whole
  absent := fun id hid => by
    rw [view_idle]
    exact h.absent id hid

theorem Sane.admitted (h : Sane w T) (hadmits : (engine Plain).outside w w') : Sane w' T := by
  obtain ⟨svc, req, -, hadmits⟩ := hadmits
  obtain ⟨client, info, linked, ready, haccepted, -⟩ := hadmits.accepted
  refine ⟨h.threaded, h.unstuck, haccepted.whole h.whole, fun id hid => ?_⟩
  have hne : id ≠ req.identity := by
    rintro rfl
    rw [Sqlite.recorded_eq, haccepted.identities] at hid
    simp at hid
  have hview := haccepted.view_of_ne T hne
  rw [hview]
  exact h.absent id ((congrArg WorkflowView.recorded hview).symm.trans hid)

/-- A served call of a program that follows the protocol is a step of every workflow's machine. -/
theorem Sane.simulated (h : Sane w (t ::ₘ T)) (hmove : Move c (c.exec e w).1 t t')
    (id : WorkflowIdentity) : Simulated c e w (served c e w) id (view id w (t ::ₘ T))
      (view id (c.exec e w).2 (t' ::ₘ T)) := by
  have ht : t ≠ .stuck := fun heq => h.unstuck (heq ▸ Multiset.mem_cons_self ..)
  exact exec_simulated hmove ht (hmove.ne_stuck ht h.whole) h.threaded id

theorem Simulated.recorded {x : Served} {id : WorkflowIdentity} {v v' : WorkflowView}
    (h : Simulated c e w x id v v') : v'.recorded = v.recorded := by
  rcases h with ⟨rfl, -⟩ | ⟨-, hstep⟩
  · rfl
  · exact hstep.recorded

theorem Sane.serve (h : Sane w (t ::ₘ T)) (hmove : Move c (c.exec e w).1 t t') :
    Sane (c.exec e w).2 (t' ::ₘ T) := by
  have ht : t ≠ .stuck := fun heq => h.unstuck (heq ▸ Multiset.mem_cons_self ..)
  refine ⟨h.threaded.of_cons.cons hmove.threads, fun hmem => ?_, ?_, fun id hid => ?_⟩
  · rcases Multiset.mem_cons.mp hmem with heq | hmem
    · exact hmove.ne_stuck ht h.whole heq.symm
    · exact h.unstuck (Multiset.mem_cons_of_mem hmem)
  · exact fun id => (h.whole id).of_erodes (exec_erodes (hmove.provides_eq_false ht) id)
  · have hsim := h.simulated hmove id
    have habsent := h.absent id (hsim.recorded.symm.trans hid)
    rcases hsim with ⟨heq, -⟩ | ⟨-, hstep⟩
    · rw [heq]
      exact habsent
    · obtain ⟨j, hj⟩ := hstep.exists_holder
      exact absurd (habsent.stages j) hj

theorem run_sane {log : Log} {σ : Pool Call Call.Reply World} (h : (engine Plain).Run ⟨{}, []⟩ log σ) :
    Covered protocol (fun _ w T => Sane w T) log σ :=
  h.covered engine_follows (fun _ _ _ hs => hs.idle)
    (fun _ _ _ _ hadmits hs => hs.admitted hadmits) (fun _ _ _ _ _ _ _ hmove hs => hs.serve hmove)
    ⟨[], List.Forall₂.nil, sane_start⟩

end Sanity

section Executions

variable {svc : Service} {req : WorkflowRequest} {log : Log} {σ : Pool Call Call.Reply World}

/-- The plan of the request under the limit that the service has for its client. -/
def Service.Plans (svc : Service) (req : WorkflowRequest) (p : Plan) : Prop :=
  ∃ client, svc.client req.clientId = some client ∧
    ∃ hwf : WorkflowAdmissionService.WellFormed req.jobs,
      p = req.plan hwf client.policy.maxConcurrentJobs

theorem Service.Plans.ids {p : Plan} (h : svc.Plans req p) :
    p.ids = req.jobs.map JobRequest.jobId := by
  obtain ⟨client, -, hwf, rfl⟩ := h
  rfl

theorem Service.Plans.deps {p : Plan} (h : svc.Plans req p) : p.deps = req.dependsOn := by
  obtain ⟨client, -, hwf, rfl⟩ := h
  rfl

theorem Service.Plans.exists_job {p : Plan} (h : svc.Plans req p) {j : String} (hj : j ∈ p.ids) :
    ∃ job ∈ req.jobs, job.jobId = j :=
  List.mem_map.mp (h.ids ▸ hj)

theorem Service.Plans.mem_ids {p : Plan} (h : svc.Plans req p) {job : JobRequest}
    (hjob : job ∈ req.jobs) : job.jobId ∈ p.ids :=
  h.ids ▸ List.mem_map_of_mem hjob

theorem Service.Plans.limit {p : Plan} (h : svc.Plans req p) {client : ClientConfig}
    (hclient : svc.client req.clientId = some client) :
    p.limit = client.policy.maxConcurrentJobs := by
  obtain ⟨client', hclient', hwf, rfl⟩ := h
  cases hclient.symm.trans hclient'
  rfl

/-- What the execution of a workflow has reached: the tokens of the suspended programs, and a
property of the calls served so far and of the workflow. -/
def Reaches (I : Log → WorkflowView → Prop) (id : WorkflowIdentity) (log : Log)
    (σ : Pool Call Call.Reply World) : Prop :=
  Covered protocol (fun log w T => Sane w T ∧ I log (view id w T)) log σ

/-- What the workflow looks like before and after a served call: the program that made the call goes
on from one token to the next, and the others keep theirs. -/
def Takes (ev : Event Call World Env) (id : WorkflowIdentity) (v v' : WorkflowView) : Prop :=
  ∃ t t' T, Sane ev.world (t ::ₘ T) ∧ Move ev.call (ev.call.exec ev.env ev.world).1 t t' ∧
    v = view id ev.world (t ::ₘ T) ∧ v' = view id (ev.call.exec ev.env ev.world).2 (t' ::ₘ T)

section Steps

variable {ev : Event Call World Env} {id : WorkflowIdentity} {v v' : WorkflowView}

theorem Takes.before (h : Takes ev id v v') : v.space = ev.world.redis.workflows id := by
  obtain ⟨t, t', T, -, -, rfl, -⟩ := h
  rfl

theorem Takes.after (h : Takes ev id v v') : v'.space = after ev id := by
  obtain ⟨t, t', T, -, -, -, rfl⟩ := h
  rfl

theorem Takes.simulated (h : Takes ev id v v') :
    Simulated ev.call ev.env ev.world (served ev.call ev.env ev.world) id v v' := by
  obtain ⟨t, t', T, hsane, hmove, rfl, rfl⟩ := h
  exact hsane.simulated hmove id

end Steps

/-- The rule for properties of every execution: the property holds of the workflow as it is admitted,
and each served call keeps it, as long as the calls served are good ones. -/
theorem Executes.takes (h : Executes Plain svc req log σ) :
    ∃ p, svc.Plans req p ∧
      ∀ (I : Log → WorkflowView → Prop) (good : Event Call World Env → Prop),
        (∀ v, Fresh p v → I [] v) →
        (∀ log ev v v', good ev → I log v → Takes ev req.identity v v' → I (log ++ [ev]) v') →
        (∀ ev ∈ log, good ev) → Reaches I req.identity log σ := by
  obtain ⟨log₀, σ₀, w₁, hbefore, hplain, hadmits, hrun⟩ := h
  obtain ⟨client, info, linked, ready, haccepted, -⟩ := hadmits.accepted
  refine ⟨_, ⟨client, haccepted.configured, haccepted.wellFormed, rfl⟩,
    fun I good hfresh hstep hgood => ?_⟩
  obtain ⟨toks, hfollows, hsane⟩ := run_sane hbefore
  have hstart := haccepted.fresh (toks : Multiset Token) (hsane.absent _ hadmits.new)
  have hcovered : Covered protocol (fun log w T => Sane w T ∧ (view req.identity w T).recorded = true ∧
      ((∀ ev ∈ log, good ev) → I log (view req.identity w T))) log σ := by
    refine hrun.covered engine_follows ?_ ?_ ?_
      ⟨toks, hfollows, hsane.admitted ⟨svc, req, hplain, hadmits⟩, hstart.recorded,
        fun _ => hfresh _ hstart⟩
    · rintro log w T ⟨hs, hrecorded, hI⟩
      refine ⟨hs.idle, ?_⟩
      rw [show protocol.idle = Token.idle from rfl, view_idle]
      exact ⟨hrecorded, hI⟩
    · rintro log w w' T hadmits' ⟨hs, hrecorded, hI⟩
      refine ⟨hs.admitted hadmits', ?_⟩
      obtain ⟨svc', req', -, hadmits'⟩ := hadmits'
      obtain ⟨_, _, _, _, haccepted', -⟩ := hadmits'.accepted
      rw [haccepted'.view_of_ne T (hadmits'.ne_of_recorded hrecorded)]
      exact ⟨hrecorded, hI⟩
    · rintro log w c e t t' T hmove ⟨hs, hrecorded, hI⟩
      have hsim := hs.simulated hmove req.identity
      refine ⟨hs.serve hmove, hsim.recorded.trans hrecorded, fun hall => ?_⟩
      refine hstep log ⟨w, c, e⟩ _ _ (hall _ (by simp)) (hI (fun ev hev => hall ev ?_))
        ⟨t, t', T, hs, hmove, rfl, rfl⟩
      exact List.mem_append_left _ hev
  obtain ⟨toks', hfollows', hs, -, hI⟩ := hcovered
  exact ⟨toks', hfollows', hs, hI hgood⟩

/-- The same rule, with a step as a step of the workflow's machine. -/
theorem Executes.invariant (h : Executes Plain svc req log σ) :
    ∃ p, svc.Plans req p ∧
      ∀ (I : Log → WorkflowView → Prop) (good : Event Call World Env → Prop),
        (∀ v, Fresh p v → I [] v) →
        (∀ log ev v v', good ev → I log v → v.space = ev.world.redis.workflows req.identity →
          v'.space = after ev req.identity →
          Simulated ev.call ev.env ev.world (served ev.call ev.env ev.world) req.identity v v' →
          I (log ++ [ev]) v') →
        (∀ ev ∈ log, good ev) → Reaches I req.identity log σ := by
  obtain ⟨p, hp, hrule⟩ := h.takes
  refine ⟨p, hp, fun I good hfresh hstep hgood => hrule I good hfresh ?_ hgood⟩
  intro log ev v v' hev hI htakes
  exact hstep log ev v v' hev hI htakes.before htakes.after htakes.simulated

/-- The rule for properties of every step of an execution, next to an invariant of the workflow. -/
theorem Executes.invariant_steps (h : Executes Plain svc req log σ) :
    ∃ p, svc.Plans req p ∧
      ∀ (I : WorkflowView → Prop) (Q good : Event Call World Env → Prop),
        (∀ v, Fresh p v → I v) →
        (∀ ev v v', good ev → I v → v.space = ev.world.redis.workflows req.identity →
          v'.space = after ev req.identity →
          Simulated ev.call ev.env ev.world (served ev.call ev.env ev.world) req.identity v v' →
          I v' ∧ Q ev) →
        (∀ ev ∈ log, good ev) →
        (∃ T, Sane σ.world T ∧ I (view req.identity σ.world T)) ∧ ∀ ev ∈ log, Q ev := by
  obtain ⟨p, hp, hrule⟩ := h.invariant
  refine ⟨p, hp, fun I Q good hfresh hstep hgood => ?_⟩
  have hreaches := hrule (fun log v => I v ∧ ∀ ev ∈ log, Q ev) good
    (fun v hv => ⟨hfresh v hv, by simp⟩) (fun log ev v v' hev hI hbefore hafter hsim => ?_) hgood
  · obtain ⟨toks, -, hsane, hI, hQ⟩ := hreaches
    exact ⟨⟨_, hsane, hI⟩, hQ⟩
  · obtain ⟨hI', hQ⟩ := hstep ev v v' hev hI.1 hbefore hafter hsim
    refine ⟨hI', fun ev' hev' => ?_⟩
    rcases List.mem_append.mp hev' with hev' | hev'
    · exact hI.2 ev' hev'
    · exact List.mem_singleton.mp hev' ▸ hQ

end Executions

section Schedules

/-- One act of a schedule: a component starts a pass, or the call of the `i`-th pass is served. -/
inductive Act where
  | start (c : Component)
  | serve (i : Nat) (e : Env)

def Act.turn : Act → System.Turn Call Call.Reply Env
  | .start c => .spawn c.mainLoop
  | .serve i e => .serve i e

/-- A pass of a component, with `n` calls served one after the other. -/
def pass (c : Component) (n : Nat) : List Act := .start c :: List.replicate n (.serve 0 {})

/-- The admission of a request in an empty engine in which every call is answered. -/
def admission (svc : Service) (req : WorkflowRequest) : Option ValidationResult × World :=
  Prog.run Call.exec (fun _ => {}) (WorkflowAdmissionService.submitWorkflow svc (.request req)) {}

/-- A schedule played after the admission of a request in an empty engine. -/
def played (svc : Service) (req : WorkflowRequest) (acts : List Act) :
    Log × Pool Call Call.Reply World :=
  (engine Plain).play (acts.map Act.turn) ⟨(admission svc req).2, []⟩

def resumed (acts : List Act) (σ : Pool Call Call.Reply World) : Log × Pool Call Call.Reply World :=
  (engine Plain).play (acts.map Act.turn) σ

theorem run_play {W : Type} {exec : (c : Call) → Env → W → c.Reply × W}
    {ids : WorkflowIdentity → Prop} (acts : List Act) (σ : Pool Call Call.Reply W) :
    (engineOn exec ids).Run σ ((engineOn exec ids).play (acts.map Act.turn) σ).1
      ((engineOn exec ids).play (acts.map Act.turn) σ).2 := by
  refine System.play_run (fun p hp => ?_) σ
  obtain ⟨act, -, heq⟩ := List.mem_map.mp hp
  cases act with
  | start c =>
      cases heq
      exact ⟨c, rfl⟩
  | serve i e => cases heq

theorem run_resumed (acts : List Act) (σ : Pool Call Call.Reply World) :
    (engine Plain).Run σ (resumed acts σ).1 (resumed acts σ).2 :=
  run_play acts σ

theorem executes_played {svc : Service} {req : WorkflowRequest} (acts : List Act)
    (hplain : req.identity.Plain)
    (hvalid : (admission svc req).1.map ValidationResult.valid = some true) :
    Executes Plain svc req (played svc req acts).1 (played svc req acts).2 :=
  ⟨[], ⟨{}, []⟩, (admission svc req).2, .refl _, hplain, admits_of_valid hvalid, run_resumed acts _⟩

theorem requestOf_plain (jobs : List JobRequest) : (requestOf jobs).identity.Plain :=
  show (WorkflowIdentity.mk "client" "workflow").Plain by decide

end Schedules

end FlowPilot
