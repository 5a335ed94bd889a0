import FlowPilot.StoreScripts

/-! What no script takes away from the record of a job: the fields that admission wrote stay where
they are, and a field that has a value keeps one. `Relates` follows any relation of records through
the scripts; only the failure script and the retry script touch the retry count, of their own job. -/

namespace FlowPilot

/-- The second hash has every field of the first, and the same limits. -/
structure JobHash.Kept (h h' : JobHash) : Prop where
  status : h.status.isSome = true → h'.status.isSome = true
  remaining : h.remainingDependencies.isSome = true → h'.remainingDependencies.isSome = true
  priority : h'.priority = h.priority
  timeout : h'.timeoutSec = h.timeoutSec
  retries : h'.maxRetries = h.maxRetries
  count : h.currentRetryCount.isSome = true → h'.currentRetryCount.isSome = true
  delay : h'.retryDelaySec = h.retryDelaySec
  policy : h'.retryBackoffPolicy = h.retryBackoffPolicy
  size : h'.payloadSizeBytes = h.payloadSizeBytes

theorem JobHash.Kept.refl (h : JobHash) : h.Kept h := ⟨id, id, rfl, rfl, rfl, id, rfl, rfl, rfl⟩

theorem JobHash.Kept.trans {h h' h'' : JobHash} (hk : h.Kept h') (hk' : h'.Kept h'') :
    h.Kept h'' where
  status := fun hs => hk'.status (hk.status hs)
  remaining := fun hs => hk'.remaining (hk.remaining hs)
  priority := hk'.priority.trans hk.priority
  timeout := hk'.timeout.trans hk.timeout
  retries := hk'.retries.trans hk.retries
  count := fun hs => hk'.count (hk.count hs)
  delay := hk'.delay.trans hk.delay
  policy := hk'.policy.trans hk.policy
  size := hk'.size.trans hk.size

/-- Every field that `fetch_job_runtime_async` asks for is there. -/
structure JobHash.Readable (h : JobHash) : Prop where
  status : h.status.isSome = true
  remaining : h.remainingDependencies.isSome = true
  priority : h.priority.isSome = true
  timeout : h.timeoutSec.isSome = true
  retries : h.maxRetries.isSome = true
  count : h.currentRetryCount.isSome = true
  delay : h.retryDelaySec.isSome = true
  policy : h.retryBackoffPolicy.isSome = true

theorem JobHash.Readable.of_kept {h h' : JobHash} (hr : h.Readable) (hk : h.Kept h') :
    h'.Readable where
  status := hk.status hr.status
  remaining := hk.remaining hr.remaining
  priority := hk.priority ▸ hr.priority
  timeout := hk.timeout ▸ hr.timeout
  retries := hk.retries ▸ hr.retries
  count := hk.count hr.count
  delay := hk.delay ▸ hr.delay
  policy := hk.policy ▸ hr.policy

namespace WorkflowKeyspace

theorem fetchJobRuntime_of_readable {ks : WorkflowKeyspace} {j : String} {h : JobHash}
    (hjob : ks.jobs j = some h) (hr : h.Readable) : (ks.fetchJobRuntime j).1 = true ∧
      (ks.fetchJobRuntime j).2.payloadSizeBytes = h.payloadSizeBytes.getD 0 ∧
      (ks.fetchJobRuntime j).2.timeoutSec = h.timeoutSec.getD 0 ∧
      (ks.fetchJobRuntime j).2.startRunTime = h.startRunTime.getD 0 := by
  obtain ⟨st, deps, prio, timeout, limit, count, delay, policy, size, start⟩ := h
  obtain ⟨h₁, h₂, h₃, h₄, h₅, h₆, h₇, h₈⟩ := hr
  obtain ⟨_, rfl⟩ := Option.isSome_iff_exists.mp h₁
  obtain ⟨_, rfl⟩ := Option.isSome_iff_exists.mp h₂
  obtain ⟨_, rfl⟩ := Option.isSome_iff_exists.mp h₃
  obtain ⟨_, rfl⟩ := Option.isSome_iff_exists.mp h₄
  obtain ⟨_, rfl⟩ := Option.isSome_iff_exists.mp h₅
  obtain ⟨_, rfl⟩ := Option.isSome_iff_exists.mp h₆
  obtain ⟨_, rfl⟩ := Option.isSome_iff_exists.mp h₇
  obtain ⟨_, rfl⟩ := Option.isSome_iff_exists.mp h₈
  simp only [fetchJobRuntime, hjob, Option.getD_some, and_self]

/-- A record that was fetched has a retry limit, and the size of the payload is the one it says. -/
theorem fetchJobRuntime_fetched {ks : WorkflowKeyspace} {j : String} {d : JobRuntimeData}
    (h : ks.fetchJobRuntime j = (true, d)) : ∃ hash, ks.jobs j = some hash ∧
      hash.maxRetries.isSome = true ∧ d.payloadSizeBytes = hash.payloadSizeBytes.getD 0 := by
  rw [fetchJobRuntime] at h
  cases hjob : ks.jobs j with
  | none =>
      rw [hjob] at h
      cases h
  | some hash =>
      rw [hjob] at h
      obtain ⟨st, deps, prio, timeout, limit, count, delay, policy, size, start⟩ := hash
      cases st with
      | none => cases h
      | some _ =>
      cases deps with
      | none => cases h
      | some _ =>
      cases prio with
      | none => cases h
      | some _ =>
      cases timeout with
      | none => cases h
      | some _ =>
      cases limit with
      | none => cases h
      | some _ =>
      cases count with
      | none => cases h
      | some _ =>
      cases delay with
      | none => cases h
      | some _ =>
      cases policy with
      | none => cases h
      | some _ =>
          cases h
          exact ⟨_, rfl, rfl, rfl⟩

/-- The record of the job can be read, and its payload has the size the record says. -/
def Provided (ks : WorkflowKeyspace) (j : String) : Prop :=
  ∃ h bytes, ks.jobs j = some h ∧ h.Readable ∧ ks.payloads j = some bytes ∧
    h.payloadSizeBytes = some (bytes.length : Int)

/-- The record of each job is related to the one it had, and no record goes away. -/
def Relates (rel : String → JobHash → JobHash → Prop) (ks ks' : WorkflowKeyspace) : Prop :=
  ∀ j, ((ks.jobs j).isSome = true → (ks'.jobs j).isSome = true) ∧
    rel j ((ks.jobs j).getD {}) ((ks'.jobs j).getD {})

/-- A relation that allows what scripts do to any record: a new status, start time or number of open
dependencies. -/
structure Tolerant (rel : String → JobHash → JobHash → Prop) : Prop where
  refl : ∀ j h, rel j h h
  trans : ∀ {j h h' h''}, rel j h h' → rel j h' h'' → rel j h h''
  routine : ∀ j h h', JobHash.Kept h h' → h'.currentRetryCount = h.currentRetryCount → rel j h h'

section Related

variable {rel : String → JobHash → JobHash → Prop} {ks₀ ks ks' : WorkflowKeyspace}

theorem Relates.refl (hrel : Tolerant rel) (ks : WorkflowKeyspace) : ks.Relates rel ks :=
  fun _ => ⟨id, hrel.refl _ _⟩

theorem Relates.congr (h : ks₀.Relates rel ks) (hjobs : ks'.jobs = ks.jobs) :
    ks₀.Relates rel ks' := by
  intro j
  rw [hjobs]
  exact h j

variable (hrel : Tolerant rel) (h : ks₀.Relates rel ks)

include hrel h

theorem Relates.setJob (j : String) {g : JobHash → JobHash}
    (hg : ∀ hash : JobHash, rel j hash (g hash)) :
    ks₀.Relates rel (ks.setJob j g) := by
  intro i
  by_cases hij : i = j
  · subst hij
    rw [setJob_jobs_self]
    exact ⟨fun _ => rfl, hrel.trans (h i).2 (hg _)⟩
  · rw [setJob_jobs_of_ne ks g j i hij]
    exact h i

theorem Relates.setJobStatus (j : String) (st : JobStatus) :
    ks₀.Relates rel (ks.setJobStatus j st) :=
  h.setJob hrel j (fun _ =>
    hrel.routine _ _ _ ⟨fun _ => rfl, id, rfl, rfl, rfl, id, rfl, rfl, rfl⟩ rfl)

theorem Relates.promoteWaiting : ks₀.Relates rel ks.promoteWaiting.2 := by
  rw [WorkflowKeyspace.promoteWaiting]
  split
  · exact h
  · rename_i j _ rest _
    have hpopped : ks₀.Relates rel { ks with waitingReady := rest } := h.congr rfl
    exact (hpopped.setJobStatus hrel j .queued).congr rfl

theorem Relates.claimJob (j : String) : ks₀.Relates rel (ks.claimJob j).2 := by
  rw [WorkflowKeyspace.claimJob]
  split
  · exact h.setJobStatus hrel j _
  · exact h

theorem Relates.trySetJobToRunning (now : Int) (j : String) :
    ks₀.Relates rel (ks.trySetJobToRunning now j).2 := by
  have haborted := h.setJobStatus hrel j .aborted
  have hstarted : ks₀.Relates rel (ks.setJob j (fun h =>
      { h with status := some .running, startRunTime := some now })) :=
    h.setJob hrel j (fun _ =>
      hrel.routine _ _ _ ⟨fun _ => rfl, id, rfl, rfl, rfl, id, rfl, rfl, rfl⟩ rfl)
  rw [WorkflowKeyspace.trySetJobToRunning]
  split
  · exact h
  · split
    · exact h.congr rfl
    · split
      · split
        · exact haborted.congr rfl
        · exact hstarted.congr rfl
      · split
        · exact hstarted
        · split
          · exact haborted
          · exact haborted.congr rfl

theorem Relates.makeReady (j : String) : ks₀.Relates rel (ks.makeReady j) := by
  have hready : ks₀.Relates rel (ks.setJob j (fun h =>
      { h with remainingDependencies := some 0, status := some .ready })) :=
    h.setJob hrel j (fun _ =>
      hrel.routine _ _ _ ⟨fun _ => rfl, fun _ => rfl, rfl, rfl, rfl, id, rfl, rfl, rfl⟩ rfl)
  refine hready.congr ?_
  rw [WorkflowKeyspace.makeReady]
  split <;> rfl

theorem Relates.advanceSuccessors (js : List String) :
    ks₀.Relates rel (advanceSuccessors js ks).2 := by
  induction js generalizing ks with
  | nil => exact h
  | cons j rest ih =>
      have hdecremented : ∀ n, ks₀.Relates rel (ks.setJob j (fun h =>
          { h with remainingDependencies := some n })) := fun n =>
        h.setJob hrel j (fun _ =>
          hrel.routine _ _ _ ⟨id, fun _ => rfl, rfl, rfl, rfl, id, rfl, rfl, rfl⟩ rfl)
      rw [WorkflowKeyspace.advanceSuccessors]
      dsimp only
      split
      · split
        · exact ih ((hdecremented _).makeReady hrel j)
        · exact ih (hdecremented _)
      · exact ih h

theorem Relates.finishJob (j : String) : ks₀.Relates rel (ks.finishJob j).2 := by
  refine Relates.advanceSuccessors hrel ?_ _
  exact (h.setJobStatus hrel j .completed).congr rfl

theorem Relates.completeSuccessfulJob (now : Int) (j : String) :
    ks₀.Relates rel (ks.completeSuccessfulJob now j).2 := by
  have hadvanced : ks₀.Relates rel (ks.finishJob j).2 := h.finishJob hrel j
  have hcounted : ks₀.Relates rel (ks.finishJob j).2.countCompleted := hadvanced.congr rfl
  rw [WorkflowKeyspace.completeSuccessfulJob]
  split
  · split
    · exact h
    · split
      · exact h
      · split
        · exact h.congr rfl
        · dsimp only
          split
          · exact hcounted.congr rfl
          · split
            · exact hcounted.promoteWaiting hrel
            · exact hcounted
  · exact h

theorem Relates.cancelSiblings (j : String) (js : List String) :
    ks₀.Relates rel (cancelSiblings j js ks).2 := by
  induction js generalizing ks with
  | nil => exact h
  | cons i rest ih =>
      rw [WorkflowKeyspace.cancelSiblings]
      split
      · exact ih h
      · split
        · exact ih ((h.setJobStatus hrel i .aborted).congr rfl)
        · exact ih h

theorem Relates.completeFailedJob {j : String} {n : Int} (hcount : ∀ hash : JobHash,
      rel j hash { hash with status := some .failed, currentRetryCount := some n })
    (js : List String) : ks₀.Relates rel (ks.completeFailedJob j n js).2 := by
  have hfailed : ks₀.Relates rel (ks.setJob j (fun h =>
      { h with status := some .failed, currentRetryCount := some n })) := h.setJob hrel j hcount
  rw [WorkflowKeyspace.completeFailedJob]
  dsimp only
  split
  · have hreleased : ks₀.Relates rel ((ks.setJob j (fun h => { h with
        status := some .failed, currentRetryCount := some n })).releaseSlot.setStatus .failed) :=
      hfailed.congr rfl
    exact (hreleased.cancelSiblings hrel j js).congr rfl
  · exact hfailed.congr rfl

theorem Relates.scheduleJobRetry {j : String} {n : Int} (hcount : ∀ hash : JobHash, rel j hash
      { hash with status := some .retryDelay, currentRetryCount := some n, startRunTime := none }) :
    ks₀.Relates rel (ks.scheduleJobRetry j n).2 := by
  have hdelayed : ks₀.Relates rel (ks.setJob j (fun h =>
      { h with status := some .retryDelay, currentRetryCount := some n, startRunTime := none })) :=
    h.setJob hrel j hcount
  rw [WorkflowKeyspace.scheduleJobRetry]
  split
  · exact hdelayed.congr rfl
  · split
    · exact hdelayed.congr rfl
    · exact Relates.promoteWaiting hrel (hdelayed.congr rfl)

theorem Relates.promoteRetryJob (j : String) : ks₀.Relates rel (ks.promoteRetryJob j).2 := by
  rw [WorkflowKeyspace.promoteRetryJob]
  split
  · split
    · exact h.setJobStatus hrel j .aborted
    · split
      · exact h
      · dsimp only
        split
        · exact (h.setJobStatus hrel j .queued).congr rfl
        · split
          · exact Relates.promoteWaiting hrel ((h.setJobStatus hrel j .ready).congr rfl)
          · exact (h.setJobStatus hrel j .ready).congr rfl
  · exact h

end Related

section Kept

/-- Every job has the record it had, as far as no script changes it. -/
def Retains (ks ks' : WorkflowKeyspace) : Prop :=
  ∀ j, ((ks.jobs j).isSome = true → (ks'.jobs j).isSome = true) ∧
    ((ks.jobs j).getD {}).Kept ((ks'.jobs j).getD {})

theorem tolerant_kept : Tolerant (fun _ => JobHash.Kept) where
  refl := fun _ => .refl
  trans := .trans
  routine := fun _ _ _ h _ => h

theorem Retains.refl (ks : WorkflowKeyspace) : ks.Retains ks := Relates.refl tolerant_kept ks

variable {ks₀ ks ks' : WorkflowKeyspace}

variable (h : ks₀.Retains ks)

include h

theorem Retains.congr (hjobs : ks'.jobs = ks.jobs) : ks₀.Retains ks' :=
  Relates.congr h hjobs

theorem Retains.setJob (j : String) {g : JobHash → JobHash}
    (hg : ∀ hash : JobHash, hash.Kept (g hash)) : ks₀.Retains (ks.setJob j g) :=
  Relates.setJob tolerant_kept h j hg

theorem Retains.setJobStatus (j : String) (st : JobStatus) :
    ks₀.Retains (ks.setJobStatus j st) := Relates.setJobStatus tolerant_kept h j st

theorem Retains.promoteWaiting : ks₀.Retains ks.promoteWaiting.2 :=
  Relates.promoteWaiting tolerant_kept h

theorem Retains.claimJob (j : String) : ks₀.Retains (ks.claimJob j).2 :=
  Relates.claimJob tolerant_kept h j

theorem Retains.trySetJobToRunning (now : Int) (j : String) :
    ks₀.Retains (ks.trySetJobToRunning now j).2 := Relates.trySetJobToRunning tolerant_kept h now j

theorem Retains.finishJob (j : String) : ks₀.Retains (ks.finishJob j).2 :=
  Relates.finishJob tolerant_kept h j

theorem Retains.completeSuccessfulJob (now : Int) (j : String) :
    ks₀.Retains (ks.completeSuccessfulJob now j).2 :=
  Relates.completeSuccessfulJob tolerant_kept h now j

theorem Retains.completeFailedJob (j : String) (n : Int)
    (js : List String) : ks₀.Retains (ks.completeFailedJob j n js).2 :=
  Relates.completeFailedJob tolerant_kept h
    (fun _ => ⟨fun _ => rfl, id, rfl, rfl, rfl, fun _ => rfl, rfl, rfl, rfl⟩) js

theorem Retains.scheduleJobRetry (j : String) (n : Int) : ks₀.Retains (ks.scheduleJobRetry j n).2 :=
  Relates.scheduleJobRetry tolerant_kept h
    (fun _ => ⟨fun _ => rfl, id, rfl, rfl, rfl, fun _ => rfl, rfl, rfl, rfl⟩)

theorem Retains.promoteRetryJob (j : String) :
    ks₀.Retains (ks.promoteRetryJob j).2 := Relates.promoteRetryJob tolerant_kept h j

end Kept

section Payloads

variable (ks : WorkflowKeyspace) (j : String) (now n : Int)

theorem promoteWaiting_payloads : ks.promoteWaiting.2.payloads = ks.payloads := by
  rw [promoteWaiting]
  split <;> rfl

theorem claimJob_payloads : (ks.claimJob j).2.payloads = ks.payloads := by
  rw [claimJob]
  split <;> rfl

theorem trySetJobToRunning_payloads : (ks.trySetJobToRunning now j).2.payloads = ks.payloads := by
  rw [trySetJobToRunning]
  split
  · rfl
  · split
    · rfl
    · split
      · split <;> rfl
      · split
        · rfl
        · split <;> rfl

theorem advanceSuccessors_payloads (js : List String) :
    (advanceSuccessors js ks).2.payloads = ks.payloads := by
  have hready : ∀ (ks : WorkflowKeyspace) i, (ks.makeReady i).payloads = ks.payloads := by
    intro ks i
    rw [makeReady]
    dsimp only
    split <;> rfl
  induction js generalizing ks with
  | nil => rfl
  | cons i rest ih =>
      rw [advanceSuccessors]
      dsimp only
      split
      · split
        · exact (ih _).trans (hready _ i)
        · exact ih _
      · exact ih ks

theorem completeSuccessfulJob_payloads :
    (ks.completeSuccessfulJob now j).2.payloads = ks.payloads := by
  have hfinished : (ks.finishJob j).2.payloads = ks.payloads := advanceSuccessors_payloads _ _
  rw [completeSuccessfulJob]
  split
  · split
    · rfl
    · split
      · rfl
      · split
        · rfl
        · dsimp only
          split
          · exact hfinished
          · split
            · exact (promoteWaiting_payloads _).trans hfinished
            · exact hfinished
  · rfl

theorem cancelSiblings_payloads (js : List String) :
    (cancelSiblings j js ks).2.payloads = ks.payloads := by
  induction js generalizing ks with
  | nil => rfl
  | cons i rest ih =>
      rw [cancelSiblings]
      split
      · exact ih ks
      · split
        · exact ih _
        · exact ih ks

theorem completeFailedJob_payloads (js : List String) :
    (ks.completeFailedJob j n js).2.payloads = ks.payloads := by
  rw [completeFailedJob]
  dsimp only
  split
  · exact cancelSiblings_payloads _ j js
  · rfl

theorem scheduleJobRetry_payloads : (ks.scheduleJobRetry j n).2.payloads = ks.payloads := by
  rw [scheduleJobRetry]
  split
  · rfl
  · split
    · rfl
    · exact promoteWaiting_payloads _

theorem promoteRetryJob_payloads : (ks.promoteRetryJob j).2.payloads = ks.payloads := by
  rw [promoteRetryJob]
  split
  · split
    · rfl
    · split
      · rfl
      · dsimp only
        split
        · rfl
        · split
          · exact promoteWaiting_payloads _
          · rfl
  · rfl

/-- No key gets a payload, and no record gets limits that it did not have. -/
structure Erodes (ks ks' : WorkflowKeyspace) : Prop where
  jobs : ∀ j h, ks'.jobs j = some h → ((ks.jobs j).getD {}).Kept h
  payloads : ∀ j bytes, ks'.payloads j = some bytes → ks.payloads j = some bytes

variable {ks j n}

theorem Retains.erodes {ks' : WorkflowKeyspace} (h : ks.Retains ks')
    (hpayloads : ks'.payloads = ks.payloads) : ks.Erodes ks' where
  jobs := fun j hash hj => by
    have hkept := (h j).2
    rwa [hj] at hkept
  payloads := fun j bytes hbytes => hpayloads ▸ hbytes

theorem Erodes.of_eq {ks' : WorkflowKeyspace} (hjobs : ks'.jobs = ks.jobs)
    (hpayloads : ks'.payloads = ks.payloads) : ks.Erodes ks' :=
  ((Retains.refl ks).congr hjobs).erodes hpayloads

theorem Erodes.refl (ks : WorkflowKeyspace) : ks.Erodes ks := .of_eq rfl rfl

end Payloads

end WorkflowKeyspace

end FlowPilot
