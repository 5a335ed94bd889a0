import FlowPilot.ProtocolMoves
import FlowPilot.StoreRecords

/-! No handler meets a runtime record that ends between the retry limit and the retry policy: whoever
writes the limit writes the other fields with it, and no script removes one of them. So the protocol
never gets stuck. -/

namespace FlowPilot

open WorkflowKeyspace

/-- A job hash with a retry limit has the other fields of the retry policy, too. -/
def JobHash.Whole (h : JobHash) : Prop :=
  h.maxRetries.isSome = true → h.currentRetryCount.isSome = true ∧ h.retryDelaySec.isSome = true ∧
    h.retryBackoffPolicy.isSome = true

instance (h : JobHash) : Decidable h.Whole := inferInstanceAs (Decidable (_ → _))

namespace WorkflowKeyspace

/-- Every job hash of the workflow is whole. -/
def Whole (ks : WorkflowKeyspace) : Prop := ∀ j h, ks.jobs j = some h → h.Whole

theorem Whole.getD {ks : WorkflowKeyspace} (h : ks.Whole) (j : String) :
    ((ks.jobs j).getD {}).Whole := by
  cases hjob : ks.jobs j with
  | none => exact nofun
  | some hash => exact h j hash hjob

theorem Whole.of_erodes {ks ks' : WorkflowKeyspace} (h : ks.Whole) (herodes : ks.Erodes ks') :
    ks'.Whole := by
  intro j hash hj hmax
  have hk := herodes.jobs j hash hj
  obtain ⟨hcount, hdelay, hpolicy⟩ := h.getD j (by rw [← hk.retries]; exact hmax)
  refine ⟨hk.count hcount, ?_, ?_⟩
  · exact hk.delay ▸ hdelay
  · exact hk.policy ▸ hpolicy

theorem Whole.not_torn {ks : WorkflowKeyspace} (h : ks.Whole) (j : String) :
    ¬ torn (ks.fetchJobRuntime j) := by
  rintro ⟨hfst, hlt⟩
  rw [fetchJobRuntime] at hfst hlt
  cases hjob : ks.jobs j with
  | none =>
      rw [hjob] at hlt
      exact absurd hlt (lt_irrefl _)
  | some hash =>
      have hwhole := h j hash hjob
      rw [hjob] at hfst hlt
      obtain ⟨st, deps, prio, timeout, limit, count, delay, policy, size, start⟩ := hash
      cases st <;> cases deps <;> cases prio <;> cases timeout <;> cases limit <;>
        simp only [lt_irrefl] at hlt
      cases count with
      | none => exact absurd (hwhole rfl).1 Bool.false_ne_true
      | some count =>
          cases delay with
          | none => exact absurd (hwhole rfl).2.1 Bool.false_ne_true
          | some delay =>
              cases policy with
              | none => exact absurd (hwhole rfl).2.2 Bool.false_ne_true
              | some policy => exact absurd hfst Bool.true_eq_false_eq_False

end WorkflowKeyspace

def Redis.Whole (r : Redis) : Prop := ∀ id, (r.workflows id).Whole

/-- The admission script writes to the rate buckets, the request keys and the active sets only. -/
theorem Redis.admitRequest_apart {β : Type} (f : Redis → β)
    (hrates : ∀ r rates, f { r with rates := rates } = f r)
    (hrequests : ∀ r requests, f { r with requests := requests } = f r)
    (hactive : ∀ r active, f { r with activeWorkflows := active } = f r)
    (r : Redis) (now : Int) (args : Redis.AdmitArgs) : f (r.admitRequest now args).2 = f r := by
  have hdecrement : ∀ r : Redis, f (r.decrementRate now args) = f r := by
    intro r
    rw [decrementRate]
    split <;> exact hrates ..
  have hkeep : ∀ (r : Redis) key st, f (r.keepRequest now key st) = f r := by
    intro r key st
    rw [keepRequest]
    split
    · exact hrequests ..
    · rfl
  have hcounted : ∀ requests,
      f (({ r with requests := requests } : Redis).incrementRate now args).2 = f r := fun _ =>
    (hrates ..).trans (hrequests ..)
  rw [admitRequest]
  dsimp only
  split
  · rfl
  · split
    · rfl
    · split
      · rw [hkeep, hdecrement, hcounted]
      · split
        · rw [hkeep, hdecrement, hcounted]
        · split
          · rw [hkeep, hdecrement, hcounted]
          · exact (hactive ..).trans (hcounted _)

/-- The two calls with which admission writes the record and the payload of a job. -/
def Call.provides : Call → Bool
  | .setJobRuntime _ _ | .setJobPayload _ _ => true
  | _ => false

section Erosion

variable {c : Call} {e : Env} {w : World}

theorem erodes_setWorkflow {r : Redis} {id : WorkflowIdentity} {ks : WorkflowKeyspace}
    (hks : (r.workflows id).Erodes ks) (id' : WorkflowIdentity) :
    (r.workflows id').Erodes ((r.setWorkflow id ks).workflows id') := by
  by_cases hid : id' = id
  · subst hid
    rw [Redis.setWorkflow_workflows_self]
    exact hks
  · rw [Redis.setWorkflow_workflows_of_ne r hid]
    exact .refl _

/-- A script that retains the records of its workflow and leaves the payloads alone. -/
theorem erodes_script {r r' : Redis} {id : WorkflowIdentity} {ks : WorkflowKeyspace}
    (hr : r'.workflows = (r.setWorkflow id ks).workflows) (hretains : (r.workflows id).Retains ks)
    (hpayloads : ks.payloads = (r.workflows id).payloads) (id' : WorkflowIdentity) :
    (r.workflows id').Erodes (r'.workflows id') := by
  rw [hr]
  exact erodes_setWorkflow (hretains.erodes hpayloads) id'

/-- A call that provides nothing adds no payload to a workflow and no limits to a record. -/
theorem carryOut_erodes (hc : c.provides = false) (id : WorkflowIdentity) :
    (w.redis.workflows id).Erodes ((c.carryOut e w).2.redis.workflows id) := by
  have hsame : ∀ {r' : Redis}, r'.workflows = w.redis.workflows →
      (w.redis.workflows id).Erodes (r'.workflows id) := fun h => h ▸ .refl _
  have hretains := fun id' => Retains.refl (w.redis.workflows id')
  cases c with
  | popExecutionQueue =>
      refine hsame ?_
      simp only [Call.carryOut, Call.onRedis, Redis.popExecutionQueue]
      split <;> rfl
  | dequeueDueJobRetry =>
      refine hsame ?_
      simp only [Call.carryOut, Call.onRedis, Redis.dequeueDueJobRetry]
      split <;> rfl
  | dequeueJobCompletion =>
      refine hsame ?_
      simp only [Call.carryOut, Call.onRedis, Redis.dequeueJobCompletion]
      split <;> rfl
  | claimJob k =>
      exact erodes_script rfl ((hretains _).claimJob _) (claimJob_payloads ..) id
  | trySetJobToRunning k =>
      exact erodes_script rfl ((hretains _).trySetJobToRunning _ _)
        (trySetJobToRunning_payloads ..) id
  | completeSuccessfulJob k =>
      exact erodes_script (Redis.enqueue_workflows ..) ((hretains _).completeSuccessfulJob _ _)
        (completeSuccessfulJob_payloads ..) id
  | completeFailedJob k n jobIds =>
      exact erodes_script (Redis.dropCanceled_workflows ..) ((hretains _).completeFailedJob _ _ _)
        (completeFailedJob_payloads ..) id
  | setJobStatus k st => exact erodes_script rfl ((hretains _).setJobStatus _ _) rfl id
  | scheduleJobRetry k n retryAtMs =>
      have hworkflows : ((Call.scheduleJobRetry k n retryAtMs).carryOut e w).2.redis.workflows =
          (w.redis.setWorkflow k.identity
            ((w.redis.workflows k.identity).scheduleJobRetry k.jobId n).2).workflows :=
        Redis.enqueue_workflows ..
      exact erodes_script hworkflows ((hretains _).scheduleJobRetry _ _)
        (scheduleJobRetry_payloads ..) id
  | promoteRetryJob k =>
      exact erodes_script (Redis.enqueue_workflows ..) ((hretains _).promoteRetryJob _)
        (promoteRetryJob_payloads ..) id
  | deleteJob k =>
      refine erodes_setWorkflow (r := w.redis) ?_ id
      refine ⟨fun j hash hj => ?_, fun j bytes hbytes => hbytes⟩
      by_cases hjk : j = k.jobId
      · subst hjk
        exact absurd ((Function.update_self ..).symm.trans hj) (by simp)
      · rw [show (w.redis.workflows k.identity).jobs j = some hash from
          (Function.update_of_ne hjk ..).symm.trans hj]
        exact .refl hash
  | deleteJobPayload k =>
      refine erodes_setWorkflow (r := w.redis) ?_ id
      refine ⟨fun j hash hj => ?_, fun j bytes hbytes => ?_⟩
      · exact (Erodes.refl _).jobs j hash hj
      · by_cases hjk : j = k.jobId
        · subst hjk
          exact absurd ((Function.update_self ..).symm.trans hbytes) (by simp)
        · exact (Function.update_of_ne hjk ..).symm.trans hbytes
  | deleteSuccessors k | addSuccessors k =>
      refine erodes_setWorkflow (r := w.redis) ?_ id
      exact .of_eq rfl rfl
  | deleteWorkflow id' | deleteWaitingReady id' | setWorkflowRuntime id' | addWaitingReady id' =>
      refine erodes_setWorkflow (r := w.redis) ?_ id
      exact .of_eq rfl rfl
  | setJobRuntime k hash => cases hc
  | setJobPayload k payload => cases hc
  | admitRequest args =>
      exact hsame (Redis.admitRequest_apart Redis.workflows (fun _ _ => rfl) (fun _ _ => rfl)
        (fun _ _ => rfl) ..)
  | _ => exact hsame rfl

theorem exec_erodes (hc : c.provides = false) (id : WorkflowIdentity) :
    (w.redis.workflows id).Erodes ((c.exec e w).2.redis.workflows id) := by
  rw [Call.exec]
  split
  · exact carryOut_erodes hc id
  · exact .refl _

end Erosion

theorem Move.provides_eq_false {c : Call} {r : c.Reply} {t t' : Token} (hmove : Move c r t t')
    (ht : t ≠ .stuck) : c.provides = false := by
  cases hmove with
  | stuck => exact absurd rfl ht
  | sqlite _ hc | countedDelete _ _ _ hc | failedSqlite _ _ _ hc | failedDelete _ _ hc =>
      cases c <;> first | rfl | cases hc
  | _ => rfl

theorem Move.ne_stuck {c : Call} {e : Env} {w : World} {t t' : Token}
    (hmove : Move c (c.exec e w).1 t t') (ht : t ≠ .stuck) (h : w.redis.Whole) : t' ≠ .stuck := by
  have htorn : ∀ k, ¬ torn ((Call.fetchJobRuntime k).exec e w).1 := by
    intro k
    rw [Call.exec]
    split
    · exact (h k.identity).not_torn k.jobId
    · exact fun h => absurd h.2 (lt_irrefl _)
  generalize hr : (c.exec e w).1 = r at hmove
  cases hmove with
  | stuck => exact ht
  | runtime k st r | brokenRuntime k y r =>
      subst hr
      rw [Token.afterRuntime, if_neg (htorn k)]
      simp
  | _ => simp

end FlowPilot
