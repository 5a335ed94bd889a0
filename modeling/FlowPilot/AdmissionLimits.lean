import FlowPilot.RuntimeCalls

/-! The two limits that the admission script enforces: how many workflows of a client are active, and
how many of its requests are admitted within a window of seconds. Both are statements about every
sequence of calls, the calls of other clients and of the engine included. The buckets of the rate
limit are counted up before the check and down again on a rejection, so what is kept is that a bucket
never counts less than the admissions of its second and lives as long as a window may ask for it. -/

namespace FlowPilot

/-! ## The keys of the limits -/

/-- The keys the limits are kept in. -/
def Redis.quotas (r : Redis) : (String → Finset String) × (String → Int → Option (Int × Option Int)) :=
  (r.activeWorkflows, r.rates)

namespace Redis

@[simp] theorem quotas_enqueue (r : Redis) (id : WorkflowIdentity) (entry : Option (String × Int)) :
    (r.enqueue id entry).quotas = r.quotas := by
  cases entry <;> rfl

theorem quotas_popExecutionQueue (r : Redis) : r.popExecutionQueue.2.quotas = r.quotas := by
  rw [popExecutionQueue]
  split <;> rfl

theorem quotas_dequeueJobCompletion (r : Redis) : r.dequeueJobCompletion.2.quotas = r.quotas := by
  rw [dequeueJobCompletion]
  split <;> rfl

theorem quotas_dequeueDueJobRetry (r : Redis) (nowMs : Int) :
    (r.dequeueDueJobRetry nowMs).2.quotas = r.quotas := by
  rw [dequeueDueJobRetry]
  split <;> rfl

theorem quotas_dropCanceled (r : Redis) (id : WorkflowIdentity)
    (canceled : List (String × JobStatus)) : (r.dropCanceled id canceled).quotas = r.quotas := by
  rw [dropCanceled]
  induction canceled generalizing r with
  | nil => rfl
  | cons entry rest ih =>
      rw [List.foldl_cons, ih]
      obtain ⟨j, st⟩ := entry
      dsimp only
      split
      · rfl
      · split <;> rfl

theorem quotas_keepRequest (r : Redis) (now : Int) (key : List Char) (st : RequestStatus) :
    (r.keepRequest now key st).quotas = r.quotas := by
  rw [keepRequest]
  split <;> rfl

theorem activeWorkflows_decrementRate (r : Redis) (now : Int) (args : AdmitArgs) :
    (r.decrementRate now args).activeWorkflows = r.activeWorkflows := by
  rw [decrementRate]
  split <;> rfl

end Redis

/-- Only admission and the removal of an active workflow touch the keys of the limits. -/
theorem Call.quotas_carryOut {c : Call} (hcall : ∀ args, c ≠ .admitRequest args)
    (hremove : ∀ id, c ≠ .removeActiveWorkflow id) (e : Env) (w : World) :
    (c.carryOut e w).2.redis.quotas = w.redis.quotas := by
  cases c with
  | admitRequest args => exact absurd rfl (hcall args)
  | removeActiveWorkflow id => exact absurd rfl (hremove id)
  | popExecutionQueue => exact w.redis.quotas_popExecutionQueue
  | dequeueJobCompletion => exact w.redis.quotas_dequeueJobCompletion
  | dequeueDueJobRetry => exact w.redis.quotas_dequeueDueJobRetry e.nowMs
  | completeSuccessfulJob k => exact Redis.quotas_enqueue ..
  | completeFailedJob k count jobIds => exact Redis.quotas_dropCanceled ..
  | scheduleJobRetry k count retryAtMs => exact Redis.quotas_enqueue ..
  | promoteRetryJob k => exact Redis.quotas_enqueue ..
  | _ => rfl

namespace Redis

variable {r : Redis} {now : Int} {args : AdmitArgs}

theorem admitRequest_admitted (h : (r.admitRequest now args).1 = .ok ()) :
    (r.incrementRate now args).1 + (r.incrementRate now args).2.earlierRequests now args ≤
        args.maxRequests ∧
      args.workflowId ∉ r.activeWorkflows args.clientId ∧
      ((insert args.workflowId (r.activeWorkflows args.clientId)).card : Int) ≤
        args.maxActiveWorkflows ∧
      (r.admitRequest now args).2.activeWorkflows =
        Function.update r.activeWorkflows args.clientId
          (insert args.workflowId (r.activeWorkflows args.clientId)) ∧
      (r.admitRequest now args).2.rates = (r.incrementRate now args).2.rates := by
  rw [admitRequest] at h ⊢
  dsimp only at h ⊢
  split at h
  · cases h
  split at h
  · cases h
  split at h
  · cases h
  split at h
  · cases h
  split at h
  · cases h
  · rename_i httl hkey hrate hnew hlimit
    rw [if_neg httl, if_neg hkey, if_neg hrate, if_neg hnew, if_neg hlimit]
    exact ⟨not_lt.mp hrate, hnew, not_lt.mp hlimit, rfl, rfl⟩

theorem rates_decrementRate_congr {r' : Redis} (h : r.rates = r'.rates) :
    (r.decrementRate now args).rates = (r'.decrementRate now args).rates := by
  have hrate : r.rate now args.clientId now = r'.rate now args.clientId now := by
    rw [rate, rate, h]
  rw [decrementRate, decrementRate, hrate]
  cases r'.rate now args.clientId now <;> simp only [setRate, h]

/-- A rejection leaves the active workflows alone and rolls the bucket back when it was counted. -/
theorem admitRequest_rejected (h : (r.admitRequest now args).1 ≠ .ok ()) :
    (r.admitRequest now args).2.activeWorkflows = r.activeWorkflows ∧
      ((r.admitRequest now args).2.rates = r.rates ∨
        (r.admitRequest now args).2.rates =
          ((r.incrementRate now args).2.decrementRate now args).rates) := by
  -- The three rejections after the count end alike: the request key is not one of the quotas.
  have hback : ∀ (requests : List Char → Option (RequestStatus × Int)) key st,
      let counted := ({ r with requests := requests }.incrementRate now args).2
      ((counted.decrementRate now args).keepRequest now key st).activeWorkflows =
          r.activeWorkflows ∧
        ((counted.decrementRate now args).keepRequest now key st).rates =
          ((r.incrementRate now args).2.decrementRate now args).rates := by
    intro requests key st counted
    have hq := quotas_keepRequest (counted.decrementRate now args) now key st
    exact ⟨(congrArg Prod.fst hq).trans (activeWorkflows_decrementRate ..),
      (congrArg Prod.snd hq).trans (rates_decrementRate_congr rfl)⟩
  rw [admitRequest] at h ⊢
  dsimp only at h ⊢
  split
  · exact ⟨rfl, .inl rfl⟩
  split
  · exact ⟨rfl, .inl rfl⟩
  split
  · exact ⟨(hback _ _ _).1, .inr (hback _ _ _).2⟩
  split
  · exact ⟨(hback _ _ _).1, .inr (hback _ _ _).2⟩
  split
  · exact ⟨(hback _ _ _).1, .inr (hback _ _ _).2⟩
  · rename_i httl hkey hrate hnew hlimit
    rw [if_neg httl, if_neg hkey, if_neg hrate, if_neg hnew, if_neg hlimit] at h
    exact absurd rfl h

end Redis

/-! ## Sequences of calls -/

/-- Keys may outlive their time to live: no bucket loses its count and none expires earlier. -/
def Lingers (w w' : World) : Prop :=
  w'.redis.activeWorkflows = w.redis.activeWorkflows ∧
    ∀ client second, (w'.redis.rates client second).map Prod.fst =
        (w.redis.rates client second).map Prod.fst ∧
      ∀ expiry', (w'.redis.rates client second).bind Prod.snd = some expiry' →
        ∃ expiry, (w.redis.rates client second).bind Prod.snd = some expiry ∧ expiry ≤ expiry'

/-- Callers of every kind: every sequence of calls is the log of one of their runs. -/
def callers : System Call Call.Reply World Env where
  exec := Call.exec
  program := fun _ => True
  outside := Lingers

/-- The workflow that the call of an event admits for the client: `admit_request_async` returned
true. -/
def admittedWorkflow (client : String) (ev : Event Call World Env) : Option String :=
  match ev.call with
  | .admitRequest args =>
      match (Call.exec (.admitRequest args) ev.env ev.world).1 with
      | .ok _ => if args.clientId = client then some args.workflowId else none
      | .error _ => none
  | _ => none

def Call.admitArgs : Call → Option Redis.AdmitArgs
  | .admitRequest args => some args
  | _ => none

/-- The event is a call of `remove_active_workflow_async` that removed the workflow. -/
def Removes (id : WorkflowIdentity) (ev : Event Call World Env) : Prop :=
  ev.call = .removeActiveWorkflow id ∧ ev.env.ok = true ∧
    id.workflowId ∈ ev.world.redis.activeWorkflows id.clientId

variable {client wf : String} {w : World} {c : Call} {e : Env}

theorem admittedWorkflow_eq_some {ev : Event Call World Env} :
    admittedWorkflow client ev = some wf ↔ ∃ args, ev.call = .admitRequest args ∧
      ev.env.ok = true ∧ args.clientId = client ∧ args.workflowId = wf ∧
      (ev.world.redis.admitRequest ev.env.redisTime args).1 = .ok () := by
  obtain ⟨w, c, e⟩ := ev
  cases c
  case admitRequest args =>
    cases hok : e.ok
    · simp [admittedWorkflow, Call.exec, Call.isLocal, Call.failure, hok]
    · cases hreply : (w.redis.admitRequest e.redisTime args).1 with
      | error code =>
          simp [admittedWorkflow, Call.exec, hok, Call.carryOut, Call.onRedis, hreply]
      | ok _ =>
          simp [admittedWorkflow, Call.exec, hok, Call.carryOut, Call.onRedis, hreply]
  all_goals simp [admittedWorkflow]

/-- The active set of a client grows by admissions and shrinks by removals only. -/
theorem activeWorkflows_exec (client : String) (c : Call) (e : Env) (w : World) :
    (∃ wf, admittedWorkflow client ⟨w, c, e⟩ = some wf ∧ wf ∉ w.redis.activeWorkflows client ∧
        (c.exec e w).2.redis.activeWorkflows client = insert wf (w.redis.activeWorkflows client)) ∨
      (∃ wf, Removes ⟨client, wf⟩ ⟨w, c, e⟩ ∧
        (c.exec e w).2.redis.activeWorkflows client = (w.redis.activeWorkflows client).erase wf) ∨
      (admittedWorkflow client ⟨w, c, e⟩ = none ∧
        (c.exec e w).2.redis.activeWorkflows client = w.redis.activeWorkflows client) := by
  cases hadmitted : admittedWorkflow client ⟨w, c, e⟩ with
  | some wf =>
      obtain ⟨args, hc, hok, rfl, rfl, hreply⟩ := admittedWorkflow_eq_some.mp hadmitted
      dsimp only at hc hok hreply
      subst hc
      obtain ⟨_, hnew, _, hactive, _⟩ := Redis.admitRequest_admitted hreply
      refine .inl ⟨_, rfl, hnew, ?_⟩
      rw [Call.exec, hok, Bool.true_or, if_pos rfl]
      exact (congrFun hactive _).trans (Function.update_self ..)
  | none =>
      right
      by_cases hserved : (e.ok || c.isLocal) = true
      · rw [Call.exec, if_pos hserved]
        by_cases hremove : ∃ id, c = .removeActiveWorkflow id
        · obtain ⟨id, rfl⟩ := hremove
          by_cases hclient : id.clientId = client
          · subst hclient
            by_cases hmem : id.workflowId ∈ w.redis.activeWorkflows id.clientId
            · exact .inl ⟨id.workflowId, ⟨rfl, by simpa [Call.isLocal] using hserved, hmem⟩,
                Function.update_self ..⟩
            · refine .inr ⟨rfl, (Function.update_self ..).trans ?_⟩
              exact Finset.erase_eq_of_notMem hmem
          · exact .inr ⟨rfl, Function.update_of_ne (fun h => hclient h.symm) ..⟩
        · refine .inr ⟨rfl, ?_⟩
          by_cases hcall : ∃ args, c = .admitRequest args
          · obtain ⟨args, rfl⟩ := hcall
            by_cases hreply : (w.redis.admitRequest e.redisTime args).1 = .ok ()
            · -- admitted, but for another client
              have hok : e.ok = true := by simpa [Call.isLocal] using hserved
              have hclient : client ≠ args.clientId := by
                rintro rfl
                rw [admittedWorkflow_eq_some.mpr ⟨args, rfl, hok, rfl, rfl, hreply⟩] at hadmitted
                cases hadmitted
              obtain ⟨_, _, _, hactive, _⟩ := Redis.admitRequest_admitted hreply
              exact (congrFun hactive _).trans (Function.update_of_ne hclient ..)
            · exact congrFun (Redis.admitRequest_rejected hreply).1 client
          · exact congrFun (congrArg Prod.fst (Call.quotas_carryOut
              (fun args h => hcall ⟨args, h⟩) (fun id h => hremove ⟨id, h⟩) e w)) client
      · rw [Call.exec, if_neg hserved]
        exact .inr ⟨rfl, rfl⟩

/-! ## Active workflows -/

/-- The calls of the client are made with one limit. -/
def ActiveLimit (client : String) (maxActive : Int) (log : List (Event Call World Env)) : Prop :=
  ∀ ev ∈ log, ∀ args ∈ ev.call.admitArgs, args.clientId = client →
    args.maxActiveWorkflows = maxActive

instance (client : String) (maxActive : Int) (log : List (Event Call World Env)) :
    Decidable (ActiveLimit client maxActive log) := inferInstanceAs (Decidable (∀ ev ∈ log, _))

/-- A workflow that was admitted is in the active set until it is removed. -/
def StaysActive (client : String) (log : List (Event Call World Env)) (w : World) : Prop :=
  ∀ wf before ev later, log = before ++ ev :: later → admittedWorkflow client ev = some wf →
    (∃ ev' ∈ later, Removes ⟨client, wf⟩ ev') ∨ wf ∈ w.redis.activeWorkflows client

/-- Between two admissions of a workflow it is removed. -/
def Alternates (client : String) (log : List (Event Call World Env)) : Prop :=
  ∀ wf before ev between ev' later, log = before ++ ev :: (between ++ ev' :: later) →
    admittedWorkflow client ev = some wf → admittedWorkflow client ev' = some wf →
    ∃ removal ∈ between, Removes ⟨client, wf⟩ removal

theorem StaysActive.serve {log : List (Event Call World Env)} (h : StaysActive client log w) :
    StaysActive client (log ++ [⟨w, c, e⟩]) (c.exec e w).2 := by
  intro wf before ev later hlog hadmitted
  have hstep := activeWorkflows_exec client c e w
  rcases List.eq_nil_or_concat later with rfl | ⟨later, last, rfl⟩
  · -- the admission itself
    obtain ⟨-, hev⟩ := List.append_inj' hlog rfl
    cases hev
    right
    obtain ⟨wf', hadmitted', -, hset⟩ | ⟨wf', hremoves, -⟩ | ⟨hnone, -⟩ := hstep
    · rw [hadmitted] at hadmitted'
      cases hadmitted'
      rw [hset]
      exact Finset.mem_insert_self ..
    · obtain ⟨args, hc, -⟩ := admittedWorkflow_eq_some.mp hadmitted
      exact absurd (hc.symm.trans hremoves.1) nofun
    · rw [hadmitted] at hnone
      cases hnone
  · rw [List.concat_eq_append, ← List.cons_append, ← List.append_assoc] at hlog
    obtain ⟨hprevious, hlast⟩ := List.append_inj' hlog rfl
    cases hlast
    obtain ⟨ev', hev', hremoves⟩ | hmem := h wf before ev later hprevious hadmitted
    · exact .inl ⟨ev', by simp [hev'], hremoves⟩
    · obtain ⟨wf', -, -, hset⟩ | ⟨wf', hremoves, hset⟩ | ⟨-, hset⟩ := hstep
      · exact .inr (hset ▸ Finset.mem_insert_of_mem hmem)
      · by_cases hwf : wf = wf'
        · subst hwf
          exact .inl ⟨_, by simp, hremoves⟩
        · exact .inr (hset ▸ Finset.mem_erase_of_ne_of_mem hwf hmem)
      · exact .inr (hset ▸ hmem)

theorem Alternates.serve {log : List (Event Call World Env)} (h : Alternates client log)
    (hactive : StaysActive client log w) : Alternates client (log ++ [⟨w, c, e⟩]) := by
  intro wf before ev between ev' later hlog hadmitted hadmitted'
  rcases List.eq_nil_or_concat later with rfl | ⟨later, last, rfl⟩
  · rw [← List.cons_append, ← List.append_assoc] at hlog
    obtain ⟨hprevious, hlast⟩ := List.append_inj' hlog rfl
    cases hlast
    obtain hremoved | hmem := hactive wf before ev between hprevious hadmitted
    · exact hremoved
    · obtain ⟨args, hc, -, rfl, rfl, hreply⟩ := admittedWorkflow_eq_some.mp hadmitted'
      exact absurd hmem (Redis.admitRequest_admitted hreply).2.1
  · have hlog' : log ++ [⟨w, c, e⟩] =
        (before ++ ev :: (between ++ ev' :: later)) ++ [last] := by
      rw [hlog]
      simp
    obtain ⟨hlog', -⟩ := List.append_inj' hlog' rfl
    exact h wf before ev between ev' later hlog' hadmitted hadmitted'

/-- After every sequence of calls that starts with no active workflow of the client and admits with
one limit, the active set of the client is within the limit, every admission added exactly its own
workflow, which was not in the set, and two admissions of one workflow have a removal of it
between them. -/
theorem activeWorkflows_limited {client : String} {maxActive : Int} (hmax : 0 ≤ maxActive)
    {σ σ' : Pool Call Call.Reply World} {log : List (Event Call World Env)}
    (hrun : callers.Run σ log σ') (hempty : σ.world.redis.activeWorkflows client = ∅)
    (hlimit : ActiveLimit client maxActive log) :
    ((σ'.world.redis.activeWorkflows client).card : Int) ≤ maxActive ∧
      (∀ ev ∈ log, ∀ wf, admittedWorkflow client ev = some wf →
        wf ∉ ev.world.redis.activeWorkflows client ∧
          (ev.call.exec ev.env ev.world).2.redis.activeWorkflows client =
            insert wf (ev.world.redis.activeWorkflows client)) ∧
      Alternates client log := by
  have hadds : ∀ (ev : Event Call World Env) wf, admittedWorkflow client ev = some wf →
      wf ∉ ev.world.redis.activeWorkflows client ∧
        (ev.call.exec ev.env ev.world).2.redis.activeWorkflows client =
          insert wf (ev.world.redis.activeWorkflows client) := by
    intro ev wf hadmitted
    obtain ⟨wf', hadmitted', hnew, hset⟩ | ⟨wf', hremoves, -⟩ | ⟨hnone, -⟩ :=
      activeWorkflows_exec client ev.call ev.env ev.world
    · rw [hadmitted] at hadmitted'
      cases hadmitted'
      exact ⟨hnew, hset⟩
    · obtain ⟨args, hc, -⟩ := admittedWorkflow_eq_some.mp hadmitted
      exact absurd (hc.symm.trans hremoves.1) nofun
    · rw [hadmitted] at hnone
      cases hnone
  have hinv := hrun.logged (fun log w => ActiveLimit client maxActive log →
    ((w.redis.activeWorkflows client).card : Int) ≤ maxActive ∧ StaysActive client log w ∧
      Alternates client log) ?_ ?_ ?_
  · obtain ⟨hcard, -, halternates⟩ := hinv hlimit
    exact ⟨hcard, fun ev _ wf => hadds ev wf, halternates⟩
  · intro log w w' hlingers h hlimit
    obtain ⟨hcard, hstays, halternates⟩ := h hlimit
    have hsame : w'.redis.activeWorkflows = w.redis.activeWorkflows := hlingers.1
    rw [StaysActive, hsame]
    exact ⟨hcard, hstays, halternates⟩
  · intro log w c e h hlimit
    obtain ⟨hcard, hstays, halternates⟩ := h (fun ev hev => hlimit ev (List.mem_append_left _ hev))
    refine ⟨?_, hstays.serve, halternates.serve hstays⟩
    obtain ⟨wf, hadmitted, -, hset⟩ | ⟨wf, -, hset⟩ | ⟨-, hset⟩ := activeWorkflows_exec client c e w
    · obtain ⟨args, hc, -, rfl, rfl, hreply⟩ := admittedWorkflow_eq_some.mp hadmitted
      have hmaxed := hlimit _ (List.mem_append_right _ (List.mem_singleton_self _)) args
        (by rw [show c = _ from hc]; rfl) rfl
      have hbound := (Redis.admitRequest_admitted hreply).2.2.1
      rw [hmaxed] at hbound
      exact (congrArg (fun s : Finset String => (s.card : Int)) hset).trans_le hbound
    · have hle := Finset.card_erase_le (s := w.redis.activeWorkflows client) (a := wf)
      have hcard' := congrArg Finset.card hset
      change ((c.exec e w).2.redis.activeWorkflows client).card = _ at hcard'
      change (((c.exec e w).2.redis.activeWorkflows client).card : Int) ≤ maxActive
      omega
    · exact (congrArg (fun s : Finset String => (s.card : Int)) hset).trans_le hcard
  · intro _
    rw [hempty]
    exact ⟨by simpa using hmax, fun _ before _ _ h => absurd h (by simp),
      fun _ before _ _ _ _ h => absurd h (by simp)⟩

/-- Client `acme` asks for `w1` and `w2` with room for one workflow; `w2` is admitted when it asks
again after `w1` was removed. -/
def acmeRequests : List (System.Turn Call Call.Reply Env) :=
  let request (id : String) (wf : String) : Task Unit :=
    .call (.admitRequest ⟨"acme", id, wf, 1, 2, 10, 900⟩) (fun _ => .done ())
  [.spawn (request "r1" "w1"), .serve 0 { redisTime := 100 },
    .spawn (request "r2" "w2"), .serve 0 { redisTime := 100 },
    .spawn (.call (.removeActiveWorkflow ⟨"acme", "w1"⟩) (fun _ => .done ())),
    .serve 0 { redisTime := 101 },
    .spawn (request "r3" "w2"), .serve 0 { redisTime := 101 },
    .spawn (request "r4" "w3"), .serve 0 { redisTime := 102 }]

theorem activeWorkflows_limited_acmeRequests :
    (callers.play acmeRequests ⟨{}, []⟩).2.world.redis.activeWorkflows "acme" = {"w2"} ∧
      (((callers.play acmeRequests ⟨{}, []⟩).2.world.redis.activeWorkflows "acme").card : Int) ≤
        1 := by
  have hallowed : callers.Allowed acmeRequests := fun _ _ => trivial
  have hrun := System.play_run hallowed ⟨{}, []⟩
  have hempty : ({} : World).redis.activeWorkflows "acme" = ∅ := rfl
  have hlimit : ActiveLimit "acme" 1 (callers.play acmeRequests ⟨{}, []⟩).1 := by decide +kernel
  have hlimited := activeWorkflows_limited (by decide) hrun hempty hlimit
  exact ⟨by decide +kernel, hlimited.1⟩

/-! ## Requests within a window -/

/-- The calls of the client are made with one limit and one window, and the clock of Redis does not
run backwards. -/
structure RateLimit (client : String) (maxRequests windowSeconds : Int)
    (log : List (Event Call World Env)) : Prop where
  args : ∀ ev ∈ log, ∀ args ∈ ev.call.admitArgs, args.clientId = client →
    args.maxRequests = maxRequests ∧ args.windowSeconds = windowSeconds
  clock : log.Pairwise (fun ev ev' => ev.env.redisTime ≤ ev'.env.redisTime)

/-- The event admits a request of the client in the seconds from `start` to before `stop`. -/
def admitsWithin (client : String) (start stop : Int) (ev : Event Call World Env) : Bool :=
  (admittedWorkflow client ev).isSome &&
    (decide (start ≤ ev.env.redisTime) && decide (ev.env.redisTime < stop))

/-- The bucket of a second counts at least `admissions`, and lives until no window asks for it. -/
def Counts (admissions : Nat) (second windowSeconds : Int) :
    Option (Int × Option Int) → Prop
  | none => admissions = 0
  | some (count, expiry) =>
      (admissions : Int) ≤ count ∧ ∀ t, expiry = some t → second + windowSeconds + 1 ≤ t

theorem Counts.le_getD {admissions : Nat} {second windowSeconds : Int}
    {bucket : Option (Int × Option Int)} (h : Counts admissions second windowSeconds bucket) :
    (admissions : Int) ≤ (bucket.map Prod.fst).getD 0 := by
  match bucket with
  | none =>
      rw [show admissions = 0 from h]
      rfl
  | some (count, expiry) => exact h.1

/-- The buckets of the client and the windows that have passed. -/
structure WithinRate (client : String) (maxRequests windowSeconds : Int)
    (log : List (Event Call World Env)) (w : World) : Prop where
  buckets : ∀ second, Counts (log.countP (admitsWithin client second (second + 1))) second
    windowSeconds (w.redis.rates client second)
  windows : ∀ start,
    (log.countP (admitsWithin client start (start + windowSeconds)) : Int) ≤ maxRequests

namespace Redis

variable {r : Redis} {now second : Int} {args : AdmitArgs} {admissions : Nat}

theorem rate_of_counts {windowSeconds : Int}
    (h : Counts admissions second windowSeconds (r.rates client second))
    (hnow : now ≤ second + windowSeconds) :
    r.rate now client second = (r.rates client second).map Prod.fst := by
  rw [rate]
  match hbucket : r.rates client second with
  | none => rfl
  | some (count, none) => rfl
  | some (count, some t) =>
      rw [hbucket] at h
      have hlive : now < t := by
        have ht := h.2 t rfl
        omega
      simp [hlive]

theorem rates_setRate_self (bucket : Int × Option Int) :
    (r.setRate client second bucket).rates client second = some bucket := by
  simp [setRate]

variable {client' : String} {second' : Int}

theorem rates_setRate_of_ne (bucket : Int × Option Int) (h : client' ≠ client ∨ second' ≠ second) :
    (r.setRate client second bucket).rates client' second' = r.rates client' second' := by
  by_cases hclient : client' = client
  · subst hclient
    obtain hne | hne := h
    · exact absurd rfl hne
    · simp [setRate, hne]
  · simp [setRate, hclient]

theorem counts_incrementRate
    (h : Counts admissions now args.windowSeconds (r.rates args.clientId now))
    (hwindow : 1 ≤ args.windowSeconds) :
    Counts (admissions + 1) now args.windowSeconds
      ((r.incrementRate now args).2.rates args.clientId now) := by
  have hle := h.le_getD
  rw [incrementRate, rate_of_counts h (by omega)]
  dsimp only
  rw [rates_setRate_self]
  refine ⟨by push_cast; omega, fun t ht => ?_⟩
  split at ht
  · cases ht
    omega
  · match hbucket : r.rates args.clientId now with
    | none =>
        rw [hbucket] at ht
        cases ht
    | some (count, expiry) =>
        rw [hbucket] at h ht
        exact h.2 t ht

/-- The rollback takes back one count and leaves the expiry of the bucket as it is. -/
theorem counts_decrementRate
    (h : Counts (admissions + 1) now args.windowSeconds (r.rates args.clientId now))
    (hwindow : 1 ≤ args.windowSeconds) :
    Counts admissions now args.windowSeconds
      ((r.decrementRate now args).rates args.clientId now) := by
  rw [decrementRate, rate_of_counts h (by omega)]
  match hbucket : r.rates args.clientId now with
  | none =>
      rw [hbucket] at h
      exact absurd h (Nat.succ_ne_zero admissions)
  | some (count, expiry) =>
      rw [hbucket] at h
      rw [Option.map_some, rates_setRate_self]
      have hcount := h.1
      exact ⟨by push_cast at hcount; omega, h.2⟩

theorem rates_incrementRate_of_ne (h : client' ≠ args.clientId ∨ second' ≠ now) :
    (r.incrementRate now args).2.rates client' second' = r.rates client' second' :=
  rates_setRate_of_ne _ h

theorem earlierRequests_incrementRate (r : Redis) (now : Int) (args : AdmitArgs) :
    (r.incrementRate now args).2.earlierRequests now args = r.earlierRequests now args := by
  simp only [earlierRequests, rate]
  refine congrArg List.sum (List.map_congr_left (fun i _ => ?_))
  rw [rates_incrementRate_of_ne (.inr (by omega))]

theorem rates_decrementRate_of_ne (h : client' ≠ args.clientId ∨ second' ≠ now) :
    (r.decrementRate now args).rates client' second' = r.rates client' second' := by
  rw [decrementRate]
  split <;> exact rates_setRate_of_ne _ h

theorem rates_admitRequest_of_ne (h : client' ≠ args.clientId ∨ second' ≠ now) :
    (r.admitRequest now args).2.rates client' second' = r.rates client' second' := by
  by_cases hreply : (r.admitRequest now args).1 = .ok ()
  · rw [(admitRequest_admitted hreply).2.2.2.2, rates_incrementRate_of_ne h]
  · obtain hrates | hrates := (admitRequest_rejected hreply).2
    · rw [hrates]
    · rw [hrates, rates_decrementRate_of_ne h, rates_incrementRate_of_ne h]

end Redis

theorem countP_admitsWithin {start mid stop : Int} (log : List (Event Call World Env))
    (hstart : start ≤ mid) (hstop : mid ≤ stop) :
    log.countP (admitsWithin client start stop) =
      log.countP (admitsWithin client start mid) + log.countP (admitsWithin client mid stop) := by
  refine List.countP_split log (fun ev => ?_)
  simp only [admitsWithin]
  cases (admittedWorkflow client ev).isSome with
  | false => rfl
  | true =>
      rcases lt_or_ge ev.env.redisTime mid with hlt | hge
      · have hstop' : ev.env.redisTime < stop := by omega
        simp [hlt, hstop', not_le.mpr hlt]
      · have hstart' : start ≤ ev.env.redisTime := by omega
        simp [hge, hstart', not_lt.mpr hge]

theorem admitsWithin_second {second : Int} {ev : Event Call World Env} :
    admitsWithin client second (second + 1) ev = true ↔
      (admittedWorkflow client ev).isSome = true ∧ ev.env.redisTime = second := by
  simp only [admitsWithin, Bool.and_eq_true, decide_eq_true_eq]
  refine and_congr_right (fun _ => ?_)
  omega

theorem isSome_admittedWorkflow {args : Redis.AdmitArgs} :
    (admittedWorkflow client ⟨w, .admitRequest args, e⟩).isSome = true ↔
      e.ok = true ∧ args.clientId = client ∧ (w.redis.admitRequest e.redisTime args).1 = .ok () := by
  rw [Option.isSome_iff_exists]
  constructor
  · rintro ⟨wf, h⟩
    obtain ⟨args', hc, hok, hclient, -, hreply⟩ := admittedWorkflow_eq_some.mp h
    cases hc
    exact ⟨hok, hclient, hreply⟩
  · rintro ⟨hok, hclient, hreply⟩
    exact ⟨args.workflowId, admittedWorkflow_eq_some.mpr ⟨args, rfl, hok, hclient, rfl, hreply⟩⟩

theorem counts_admitRequest {args : Redis.AdmitArgs} {admissions : Nat}
    (hwindow : 1 ≤ args.windowSeconds) (h : Counts admissions e.redisTime args.windowSeconds
      (w.redis.rates args.clientId e.redisTime)) :
    Counts (admissions + if (w.redis.admitRequest e.redisTime args).1 = .ok () then 1 else 0)
      e.redisTime args.windowSeconds
      ((w.redis.admitRequest e.redisTime args).2.rates args.clientId e.redisTime) := by
  have hcounted := Redis.counts_incrementRate h hwindow
  by_cases hreply : (w.redis.admitRequest e.redisTime args).1 = .ok ()
  · rw [if_pos hreply, (Redis.admitRequest_admitted hreply).2.2.2.2]
    exact hcounted
  · rw [if_neg hreply, Nat.add_zero]
    obtain hrates | hrates := (Redis.admitRequest_rejected hreply).2
    · rw [hrates]
      exact h
    · rw [hrates]
      exact Redis.counts_decrementRate hcounted hwindow

/-- The bucket of a second counts the admissions made in that second. -/
theorem counts_exec {windowSeconds second : Int} {admissions : Nat} (hwindow : 1 ≤ windowSeconds)
    (hargs : ∀ args, c = .admitRequest args → args.clientId = client →
      args.windowSeconds = windowSeconds)
    (h : Counts admissions second windowSeconds (w.redis.rates client second)) :
    Counts (admissions + if admitsWithin client second (second + 1) ⟨w, c, e⟩ then 1 else 0) second
      windowSeconds ((c.exec e w).2.redis.rates client second) := by
  have hadmission : admitsWithin client second (second + 1) ⟨w, c, e⟩ = true →
      (∃ args, c = .admitRequest args) ∧ e.ok = true := by
    intro hadmits
    obtain ⟨wf, hadmitted⟩ := Option.isSome_iff_exists.mp (admitsWithin_second.mp hadmits).1
    obtain ⟨args, hc, hok, -⟩ := admittedWorkflow_eq_some.mp hadmitted
    exact ⟨⟨args, hc⟩, hok⟩
  by_cases hserved : (e.ok || c.isLocal) = true
  swap
  · rw [if_neg (fun hadmits => hserved (by rw [(hadmission hadmits).2, Bool.true_or])), Call.exec,
      if_neg hserved]
    exact h
  rw [Call.exec, if_pos hserved]
  by_cases hcall : ∃ args, c = .admitRequest args
  · obtain ⟨args, rfl⟩ := hcall
    have hok : e.ok = true := by simpa [Call.isLocal] using hserved
    change Counts _ second windowSeconds
      ((w.redis.admitRequest e.redisTime args).2.rates client second)
    by_cases hplace : client = args.clientId ∧ second = e.redisTime
    · obtain ⟨rfl, rfl⟩ := hplace
      have hwin := hargs args rfl rfl
      subst hwin
      have hiff : admitsWithin args.clientId e.redisTime (e.redisTime + 1)
          ⟨w, .admitRequest args, e⟩ = true ↔
            (w.redis.admitRequest e.redisTime args).1 = .ok () := by
        rw [admitsWithin_second, isSome_admittedWorkflow]
        simp [hok]
      simp only [hiff]
      exact counts_admitRequest hwindow h
    · have hnone : ¬ admitsWithin client second (second + 1) ⟨w, .admitRequest args, e⟩ = true := by
        rw [admitsWithin_second, isSome_admittedWorkflow]
        rintro ⟨⟨-, hclient, -⟩, hsecond⟩
        exact hplace ⟨hclient.symm, hsecond.symm⟩
      rw [if_neg hnone, Nat.add_zero, Redis.rates_admitRequest_of_ne (not_and_or.mp hplace)]
      exact h
  · have hrates : (c.carryOut e w).2.redis.rates = w.redis.rates := by
      by_cases hremove : ∃ id, c = .removeActiveWorkflow id
      · obtain ⟨id, rfl⟩ := hremove
        rfl
      · exact congrArg Prod.snd (Call.quotas_carryOut (fun args h => hcall ⟨args, h⟩)
          (fun id h => hremove ⟨id, h⟩) e w)
    rw [if_neg (fun hadmits => hcall (hadmission hadmits).1), Nat.add_zero, hrates]
    exact h

theorem countP_le_earlierRequests {windowSeconds : Int} {log : List (Event Call World Env)}
    {r : Redis} (now : Int) (hbuckets : ∀ second, second < now →
      Counts (log.countP (admitsWithin client second (second + 1))) second windowSeconds
        (r.rates client second)) (m : Nat) (hm : (m : Int) ≤ windowSeconds) :
    (log.countP (admitsWithin client (now - m) now) : Int) ≤
      ((List.range m).map (fun (i : Nat) => (r.rate now client (now - (i + 1))).getD 0)).sum := by
  induction m with
  | zero =>
      have hzero : log.countP (admitsWithin client (now - (0 : Nat)) now) = 0 := by
        rw [List.countP_eq_zero]
        intro ev _
        simp only [admitsWithin, Bool.and_eq_true, decide_eq_true_eq]
        omega
      rw [hzero]
      rfl
  | succ m ih =>
      have hsum := ih (by push_cast at hm; omega)
      have hcounts := hbuckets (now - (m + 1)) (by omega)
      have hread : r.rate now client (now - (m + 1)) =
          (r.rates client (now - (m + 1))).map Prod.fst :=
        Redis.rate_of_counts hcounts (by push_cast at hm; omega)
      have hrate := hcounts.le_getD
      rw [← hread] at hrate
      rw [countP_admitsWithin log (show now - ((m + 1 : Nat) : Int) ≤ now - m by push_cast; omega)
        (by omega), List.range_succ, List.map_append, List.sum_append]
      have hnext : now - ((m + 1 : Nat) : Int) = now - (m + 1) := by push_cast; rfl
      have hstop : now - (m : Int) = now - (m + 1) + 1 := by omega
      rw [hnext]
      nth_rewrite 1 [hstop]
      simp only [List.map_cons, List.map_nil, List.sum_cons, List.sum_nil]
      push_cast
      omega

theorem window_of_admitted {maxRequests windowSeconds : Int} {log : List (Event Call World Env)}
    {ev : Event Call World Env} (hwindow : 1 ≤ windowSeconds)
    (hbuckets : ∀ second, Counts (log.countP (admitsWithin client second (second + 1))) second
      windowSeconds (ev.world.redis.rates client second))
    (hargs : ∀ args, ev.call = .admitRequest args → args.clientId = client →
      args.maxRequests = maxRequests ∧ args.windowSeconds = windowSeconds)
    (hadmitted : (admittedWorkflow client ev).isSome = true) :
    ((log ++ [ev]).countP (admitsWithin client (ev.env.redisTime - windowSeconds + 1)
      (ev.env.redisTime + 1)) : Int) ≤ maxRequests := by
  obtain ⟨wf, hwf⟩ := Option.isSome_iff_exists.mp hadmitted
  obtain ⟨args, hc, -, hclient, -, hreply⟩ := admittedWorkflow_eq_some.mp hwf
  obtain ⟨hmax, hwin⟩ := hargs args hc hclient
  obtain ⟨hrate, -⟩ := Redis.admitRequest_admitted hreply
  obtain ⟨w, c, e⟩ := ev
  dsimp only at hc hbuckets hreply hrate ⊢
  subst hclient hmax hwin
  have hlength : ((args.windowSeconds - 1).toNat : Int) = args.windowSeconds - 1 := by omega
  have hbefore : (log.countP (admitsWithin args.clientId (e.redisTime - (args.windowSeconds - 1))
      e.redisTime) : Int) ≤ w.redis.earlierRequests e.redisTime args := by
    have hsum := countP_le_earlierRequests e.redisTime (fun second _ => hbuckets second)
      (args.windowSeconds - 1).toNat (by omega)
    rw [hlength] at hsum
    exact hsum
  have hnow : (log.countP (admitsWithin args.clientId e.redisTime (e.redisTime + 1)) : Int) + 1 ≤
      (w.redis.incrementRate e.redisTime args).1 := by
    have hle := (hbuckets e.redisTime).le_getD
    have hread : w.redis.rate e.redisTime args.clientId e.redisTime =
        (w.redis.rates args.clientId e.redisTime).map Prod.fst :=
      Redis.rate_of_counts (hbuckets e.redisTime) (by omega)
    rw [← hread] at hle
    exact Int.add_le_add_right hle 1
  have hone : [(⟨w, c, e⟩ : Event Call World Env)].countP (admitsWithin args.clientId
      (e.redisTime - (args.windowSeconds - 1)) (e.redisTime + 1)) ≤ 1 := List.countP_le_length
  rw [show e.redisTime - args.windowSeconds + 1 = e.redisTime - (args.windowSeconds - 1) by omega,
    List.countP_append, countP_admitsWithin log
      (show e.redisTime - (args.windowSeconds - 1) ≤ e.redisTime by omega) (by omega)]
  rw [Redis.earlierRequests_incrementRate] at hrate
  push_cast
  omega

theorem WithinRate.serve {maxRequests windowSeconds : Int} {log : List (Event Call World Env)}
    (h : WithinRate client maxRequests windowSeconds log w) (hwindow : 1 ≤ windowSeconds)
    (hlimit : RateLimit client maxRequests windowSeconds (log ++ [⟨w, c, e⟩])) :
    WithinRate client maxRequests windowSeconds (log ++ [⟨w, c, e⟩]) (c.exec e w).2 := by
  have hargs : ∀ args, c = .admitRequest args → args.clientId = client →
      args.maxRequests = maxRequests ∧ args.windowSeconds = windowSeconds := by
    rintro args rfl
    exact hlimit.args _ (List.mem_append_right _ (List.mem_singleton_self _)) args rfl
  refine ⟨fun second => ?_, fun start => ?_⟩
  · rw [List.countP_append, List.countP_singleton]
    exact counts_exec hwindow (fun args hc hclient => (hargs args hc hclient).2) (h.buckets second)
  · by_cases hin : admitsWithin client start (start + windowSeconds) ⟨w, c, e⟩ = true
    · -- every admission in this window is in the one that ends now
      have hadmitted : (admittedWorkflow client ⟨w, c, e⟩).isSome = true := by
        rw [admitsWithin, Bool.and_eq_true] at hin
        exact hin.1
      have hend := window_of_admitted hwindow h.buckets hargs hadmitted
      have hle : List.countP (admitsWithin client start (start + windowSeconds))
          (log ++ [⟨w, c, e⟩]) ≤ List.countP (admitsWithin client
            (e.redisTime - windowSeconds + 1) (e.redisTime + 1)) (log ++ [⟨w, c, e⟩]) := by
        refine List.countP_mono_left (fun ev hev hwithin => ?_)
        have htime : ev.env.redisTime ≤ e.redisTime := by
          obtain hev | hev := List.mem_append.mp hev
          · exact (List.pairwise_append.mp hlimit.clock).2.2 ev hev _ (List.mem_singleton_self _)
          · rw [List.mem_singleton.mp hev]
        simp only [admitsWithin, Bool.and_eq_true, decide_eq_true_eq] at hin hwithin ⊢
        exact ⟨hwithin.1, by omega, by omega⟩
      exact (Int.ofNat_le.mpr hle).trans hend
    · rw [List.countP_append, List.countP_singleton, if_neg hin, Nat.add_zero]
      exact h.windows start

theorem Counts.linger {admissions : Nat} {second windowSeconds : Int}
    {bucket bucket' : Option (Int × Option Int)} (h : Counts admissions second windowSeconds bucket)
    (hcount : bucket'.map Prod.fst = bucket.map Prod.fst)
    (hexpiry : ∀ expiry', bucket'.bind Prod.snd = some expiry' →
      ∃ expiry, bucket.bind Prod.snd = some expiry ∧ expiry ≤ expiry') :
    Counts admissions second windowSeconds bucket' := by
  match bucket, bucket' with
  | none, none => exact h
  | none, some _ => cases hcount
  | some _, none => cases hcount
  | some (count, expiry), some (count', expiry') =>
      cases hcount
      refine ⟨h.1, fun t ht => ?_⟩
      obtain ⟨t', ht', hle⟩ := hexpiry t ht
      exact (h.2 t' ht').trans hle

/-- In every sequence of calls that starts without buckets of the client and is made with one limit
and one window, on a clock that does not run backwards, every interval of `windowSeconds`
consecutive seconds has at most `maxRequests` admissions. -/
theorem admissions_rate_limited {client : String} {maxRequests windowSeconds : Int}
    (hmax : 0 ≤ maxRequests) (hwindow : 1 ≤ windowSeconds)
    {σ σ' : Pool Call Call.Reply World} {log : List (Event Call World Env)}
    (hrun : callers.Run σ log σ') (hnew : ∀ second, σ.world.redis.rates client second = none)
    (hlimit : RateLimit client maxRequests windowSeconds log) (start : Int) :
    (log.countP (admitsWithin client start (start + windowSeconds)) : Int) ≤ maxRequests := by
  have hinv := hrun.logged (fun log w => RateLimit client maxRequests windowSeconds log →
    WithinRate client maxRequests windowSeconds log w) ?_ ?_ ?_
  · exact (hinv hlimit).windows start
  · intro log w w' hlingers h hlimit
    refine ⟨fun second => ?_, (h hlimit).windows⟩
    obtain ⟨hcount, hexpiry⟩ := hlingers.2 client second
    exact ((h hlimit).buckets second).linger hcount hexpiry
  · intro log w c e h hlimit
    have hbefore : RateLimit client maxRequests windowSeconds log :=
      ⟨fun ev hev => hlimit.args ev (List.mem_append_left _ hev),
        (List.pairwise_append.mp hlimit.clock).1⟩
    exact (h hbefore).serve hwindow hlimit
  · intro _
    refine ⟨fun second => ?_, fun _ => hmax⟩
    rw [hnew second]
    rfl

theorem admissions_rate_limited_acmeRequests :
    ((callers.play acmeRequests ⟨{}, []⟩).1.countP (admitsWithin "acme" 95 105) : Int) = 2 ∧
      ((callers.play acmeRequests ⟨{}, []⟩).1.countP (admitsWithin "acme" 95 105) : Int) ≤ 2 := by
  have hallowed : callers.Allowed acmeRequests := fun _ _ => trivial
  have hrun := System.play_run hallowed ⟨{}, []⟩
  have hnew : ∀ second, ({} : World).redis.rates "acme" second = none := fun _ => rfl
  have hlimit : RateLimit "acme" 2 10 (callers.play acmeRequests ⟨{}, []⟩).1 :=
    ⟨by decide +kernel, by decide +kernel⟩
  have hlimited := admissions_rate_limited (by decide) (by decide) hrun hnew hlimit 95
  exact ⟨by decide +kernel, hlimited⟩

end FlowPilot
