import FlowPilot.AdmissionLimits

/-! What a rejected request leaves behind. The admission script writes the request key, counts the
request in the bucket of this second and adds the workflow to the active set before it has made its
last check, and every rejection takes back what was written until then. -/

namespace FlowPilot

namespace Redis

variable {r : Redis} {now : Int} {args : AdmitArgs}

/-- The count of a bucket; a missing one counts as 0. -/
def rateCount (now : Int) (clientId : String) (second : Int) (r : Redis) : Int :=
  (r.rate now clientId second).getD 0

/-- The reasons for which the script rejects a request that it has counted. -/
def isLateRejection : StatusCode → Bool
  | .rateLimitExceeded | .workflowIdExists | .concurrentWorkflowLimitExceeded => true
  | _ => false

/-- The database after the request key is written. -/
def trackRequest (now : Int) (args : AdmitArgs) (r : Redis) : Redis :=
  let entry := (RequestStatus.received, now + args.keyRetentionTtl)
  let key := requestKey args.clientId args.requestId
  { r with requests := Function.update r.requests key (some entry) }

theorem admitRequest_cases (now : Int) (args : AdmitArgs) (r : Redis) :
    r.admitRequest now args = (.error .internalDbFailure, r) ∨
    ((r.requestStatus now (requestKey args.clientId args.requestId)).isSome = true ∧
      r.admitRequest now args = (.error .duplicateRequest, r)) ∨
    (0 < args.keyRetentionTtl ∧
      r.requestStatus now (requestKey args.clientId args.requestId) = none ∧
      ((∃ reason, isLateRejection reason = true ∧ r.admitRequest now args = (.error reason,
        (((r.trackRequest now args).incrementRate now args).2.decrementRate now args).keepRequest now
          (requestKey args.clientId args.requestId) .rejected)) ∨
      (r.admitRequest now args).1 = .ok ())) := by
  rw [admitRequest]
  dsimp only
  split
  · exact .inl rfl
  rename_i httl
  split
  · rename_i hlive
    exact .inr (.inl ⟨hlive, rfl⟩)
  rename_i hlive
  refine .inr (.inr ⟨Int.not_le.mp httl, Option.not_isSome_iff_eq_none.mp hlive, ?_⟩)
  split
  · exact .inl ⟨_, rfl, rfl⟩
  split
  · exact .inl ⟨_, rfl, rfl⟩
  split
  · exact .inl ⟨_, rfl, rfl⟩
  · exact .inr rfl

theorem requests_incrementRate : (r.incrementRate now args).2.requests = r.requests := rfl

theorem requests_decrementRate : (r.decrementRate now args).requests = r.requests := by
  rw [decrementRate]
  split <;> rfl

theorem requests_keepRequest_of_ne {key key' : List Char} (h : key' ≠ key) (st : RequestStatus) :
    (r.keepRequest now key st).requests key' = r.requests key' := by
  rw [keepRequest]
  split
  · exact Function.update_of_ne h ..
  · rfl

theorem requests_keepRequest_self {key : List Char} {st : RequestStatus} {old : RequestStatus}
    {expiry : Int} (hentry : r.requests key = some (old, expiry)) (hlive : now < expiry) :
    (r.keepRequest now key st).requests key = some (st, expiry) := by
  have hstatus : r.requestStatus now key = some old := by
    rw [requestStatus, hentry, Option.bind_some, if_pos hlive]
  rw [keepRequest, hstatus, hentry]
  exact Function.update_self ..

theorem rate_incrementRate_self (hwindow : 1 ≤ args.windowSeconds) :
    (r.incrementRate now args).2.rate now args.clientId now =
      some ((r.rate now args.clientId now).getD 0 + 1) := by
  rw [incrementRate, rate]
  dsimp only
  rw [rates_setRate_self, Option.bind_some]
  dsimp only
  split
  · rfl
  · rename_i expiry hexpiry
    split at hexpiry
    · cases hexpiry
      exact if_pos (by omega)
    · rename_i hone
      -- the bucket counts something, so it has not expired
      refine if_pos ?_
      by_contra hgone
      have hnone : r.rate now args.clientId now = none := by
        obtain ⟨⟨count, e⟩, hentry, he⟩ := Option.bind_eq_some_iff.mp hexpiry
        rw [rate, hentry, Option.bind_some, show e = some expiry from he]
        exact if_neg hgone
      rw [hnone] at hone
      exact hone rfl

theorem rateCount_of_zero {clientId : String} {second later : Int} (hlater : now ≤ later)
    (h : r.rateCount now clientId second = 0) : r.rateCount later clientId second = 0 := by
  rw [rateCount, rate] at h ⊢
  generalize r.rates clientId second = entry at h ⊢
  rcases entry with _ | ⟨count, _ | expiry⟩
  · rfl
  · exact h
  · rw [Option.bind_some] at h ⊢
    dsimp only at h ⊢
    by_cases hlive : later < expiry
    · rw [if_pos hlive]
      rw [if_pos (by omega)] at h
      exact h
    · rw [if_neg hlive]
      rfl

theorem rates_of_rateCount_ne_zero {clientId : String} {second : Int}
    (h : r.rateCount now clientId second ≠ 0) :
    r.rates clientId second = some (r.rateCount now clientId second,
      (r.rates clientId second).bind Prod.snd) := by
  rw [rateCount, rate] at h ⊢
  generalize r.rates clientId second = entry at h ⊢
  rcases entry with _ | ⟨count, _ | expiry⟩
  · exact absurd rfl h
  · rfl
  · rw [Option.bind_some] at h ⊢
    dsimp only at h ⊢
    by_cases hlive : now < expiry
    · rw [if_pos hlive]
      rfl
    · rw [if_neg hlive] at h
      exact absurd rfl h

/-- What the script counts in a bucket and takes back leaves the counts of all buckets as they were, now
and later. -/
theorem rateCount_undone (hwindow : 1 ≤ args.windowSeconds) {later : Int} (hlater : now ≤ later)
    (clientId : String) (second : Int) :
    ((r.incrementRate now args).2.decrementRate now args).rateCount later clientId second =
      r.rateCount later clientId second := by
  by_cases hbucket : clientId = args.clientId ∧ second = now
  · obtain ⟨rfl, rfl⟩ := hbucket
    have hentry : ((r.incrementRate second args).2.decrementRate second args).rates
        args.clientId second = some (r.rateCount second args.clientId second,
          ((r.incrementRate second args).2.rates args.clientId second).bind Prod.snd) := by
      rw [decrementRate, rate_incrementRate_self hwindow]
      dsimp only
      rw [rates_setRate_self, Int.add_sub_cancel]
      rfl
    by_cases hzero : r.rateCount second args.clientId second = 0
    · rw [rateCount_of_zero hlater hzero]
      refine rateCount_of_zero hlater ?_
      rw [rateCount, rate, hentry, hzero, Option.bind_some]
      dsimp only
      split
      · rfl
      · split <;> rfl
    · have hexpiry : ((r.incrementRate second args).2.rates args.clientId second).bind Prod.snd =
          (r.rates args.clientId second).bind Prod.snd := by
        rw [incrementRate]
        dsimp only
        rw [rates_setRate_self, Option.bind_some]
        exact if_neg (fun h => hzero (by rw [rateCount]; omega))
      rw [rateCount, rateCount, rate, rate, hentry, hexpiry, ← rates_of_rateCount_ne_zero hzero]
  · rw [rateCount, rateCount, rate, rate, rates_decrementRate_of_ne, rates_incrementRate_of_ne]
    all_goals
      by_contra hne
      rw [not_or, not_ne_iff, not_ne_iff] at hne
      exact hbucket hne

/-- What a rejection leaves of the limits and of the request keys. -/
structure RejectionEffect (now : Int) (args : AdmitArgs) (r r' : Redis) : Prop where
  active : r'.activeWorkflows = r.activeWorkflows
  rates : ∀ later, now ≤ later → ∀ clientId second,
    r'.rateCount later clientId second = r.rateCount later clientId second
  others : ∀ key, key ≠ requestKey args.clientId args.requestId → r'.requests key = r.requests key
  kept : (r.requestStatus now (requestKey args.clientId args.requestId)).isSome = true →
    r'.requests (requestKey args.clientId args.requestId) =
      r.requests (requestKey args.clientId args.requestId)
  created : r.requestStatus now (requestKey args.clientId args.requestId) = none →
    r'.requests (requestKey args.clientId args.requestId) =
      some (.rejected, now + args.keyRetentionTtl)

/-- What an admission adds to the limits. -/
structure AdmissionEffect (now : Int) (args : AdmitArgs) (r r' : Redis) : Prop where
  fresh : args.workflowId ∉ r.activeWorkflows args.clientId
  active : r'.activeWorkflows = Function.update r.activeWorkflows args.clientId
    (insert args.workflowId (r.activeWorkflows args.clientId))
  counted : r'.rateCount now args.clientId now = r.rateCount now args.clientId now + 1
  buckets : ∀ clientId second, clientId ≠ args.clientId ∨ second ≠ now →
    r'.rates clientId second = r.rates clientId second

theorem rejectionEffect_of_late (hwindow : 1 ≤ args.windowSeconds) (httl : 0 < args.keyRetentionTtl)
    (hnew : r.requestStatus now (requestKey args.clientId args.requestId) = none) :
    RejectionEffect now args r
      ((((r.trackRequest now args).incrementRate now args).2.decrementRate now args).keepRequest now
        (requestKey args.clientId args.requestId) .rejected) := by
  refine ⟨?_, fun later hlater clientId second => ?_, fun key hkey => ?_, fun hlive => ?_,
    fun _ => ?_⟩
  · exact (congrArg Prod.fst (quotas_keepRequest ..)).trans (activeWorkflows_decrementRate ..)
  · rw [rateCount, rate, show (keepRequest _ _ _ _).rates = _ from
      congrArg Prod.snd (quotas_keepRequest ..)]
    exact rateCount_undone (r := r.trackRequest now args) hwindow hlater clientId second
  · rw [requests_keepRequest_of_ne hkey, requests_decrementRate, requests_incrementRate]
    exact Function.update_of_ne hkey ..
  · rw [hnew] at hlive
    cases hlive
  · have hentry : (((r.trackRequest now args).incrementRate now args).2.decrementRate now
        args).requests (requestKey args.clientId args.requestId) =
          some (.received, now + args.keyRetentionTtl) := by
      rw [requests_decrementRate, requests_incrementRate]
      exact Function.update_self ..
    exact requests_keepRequest_self hentry (by omega)

/-- A rejected request leaves the limits as they were; an admitted one adds one workflow to the active
set of its client and one to one bucket. -/
theorem admitRequest_exact (r : Redis) (now : Int) (args : AdmitArgs)
    (hwindow : 1 ≤ args.windowSeconds) :
    (∀ reason, (r.admitRequest now args).1 = .error reason → reason ≠ .internalDbFailure →
      RejectionEffect now args r (r.admitRequest now args).2) ∧
    ((r.admitRequest now args).1 = .ok () →
      AdmissionEffect now args r (r.admitRequest now args).2) := by
  refine ⟨fun reason hreply hreason => ?_, fun hreply => ?_⟩
  · rcases r.admitRequest_cases now args with heq | ⟨hlive, heq⟩ | ⟨httl, hnew, ⟨_, -, heq⟩ | hok⟩
    · rw [heq] at hreply
      exact absurd (Except.error.inj hreply).symm hreason
    · rw [heq]
      exact ⟨rfl, fun _ _ _ _ => rfl, fun _ _ => rfl, fun _ => rfl, fun hnew => by
        rw [hnew] at hlive
        cases hlive⟩
    · rw [heq]
      exact rejectionEffect_of_late hwindow httl hnew
    · rw [hok] at hreply
      cases hreply
  · obtain ⟨-, hfresh, -, hactive, hrates⟩ := admitRequest_admitted hreply
    refine ⟨hfresh, hactive, ?_, fun clientId second hne => ?_⟩
    · have hcount : (r.incrementRate now args).2.rate now args.clientId now =
          some (r.rateCount now args.clientId now + 1) := rate_incrementRate_self hwindow
      rw [rateCount, rate, hrates]
      exact congrArg (·.getD 0) hcount
    · exact rates_admitRequest_of_ne hne

/-- A client with a workflow that has made two requests in the second 100. -/
def busyClient : Redis where
  activeWorkflows := fun _ => {"w0"}
  rates := fun _ second => if second = 100 then some (2, some 111) else none

theorem admitRequest_exact_busyClient :
    RejectionEffect 100 ⟨"acme", "r1", "w1", 5, 2, 10, 900⟩ busyClient
      (busyClient.admitRequest 100 ⟨"acme", "r1", "w1", 5, 2, 10, 900⟩).2 ∧
    RejectionEffect 100 ⟨"acme", "r1", "w0", 5, 3, 10, 900⟩ busyClient
      (busyClient.admitRequest 100 ⟨"acme", "r1", "w0", 5, 3, 10, 900⟩).2 ∧
    AdmissionEffect 100 ⟨"acme", "r1", "w1", 5, 3, 10, 900⟩ busyClient
      (busyClient.admitRequest 100 ⟨"acme", "r1", "w1", 5, 3, 10, 900⟩).2 :=
  ⟨(admitRequest_exact busyClient 100 _ (by decide)).1 .rateLimitExceeded (by decide +kernel) nofun,
    (admitRequest_exact busyClient 100 _ (by decide)).1 .workflowIdExists (by decide +kernel) nofun,
    (admitRequest_exact busyClient 100 _ (by decide)).2 (by decide +kernel)⟩

end Redis

end FlowPilot
