import FlowPilot.WorkflowPlan
import FlowPilot.WorkflowSimulation

/-! The invariant of a workflow's execution, whatever calls fail. As long as the workflow is READY or
RUNNING and not all jobs are done, its keys agree with the plan, every job has at most one holder and
the status that the holder's stage asks for, and the reserved slots cover the jobs that occupy one.
After that, little is left: the workflow never runs again, and no job can be claimed that did not
occupy a slot before. -/

namespace FlowPilot

open WorkflowKeyspace WorkflowView

/-- The statuses in which a running workflow has a job at the stage. -/
def Stage.fits : Stage → JobStatus → Bool
  | .queued, .queued | .popped, .queued => true
  | .claimed, .pendingExecution | .fetched _, .pendingExecution | .verified, .pendingExecution
  | .badPayload, .pendingExecution | .dispatched, .pendingExecution
  | .unstarted, .pendingExecution => true
  | .started, .running | .startFailed, .running => true
  | .reported .completed, .running | .reported .failed, .running
  | .reported .aborted, .pendingExecution | .reported .aborted, .running => true
  | .listing .completed _, .running | .listing .failed _, .running
  | .listing .aborted _, .pendingExecution | .listing .aborted _, .running => true
  | .counted .no _, .completed | .broken .no, .completed => true
  | .failed .no, .failed | .failed .no, .aborted => true
  | .retryWait, .retryDelay | .retryHeld, .retryDelay => true
  | _, _ => false

/-- How far the cleanup is that a stage belongs to. -/
def Stage.closing : Stage → Closing
  | .counted c _ | .broken c | .failed c => c
  | _ => .no

theorem Stage.closing_of_fits {s : Stage} {st : JobStatus} (h : s.fits st = true) :
    s.closing = .no := by
  unfold fits at h
  split at h <;> simp_all [closing]

theorem Stage.fits_pending (s : Stage) : s.fits .pending = false := by
  unfold fits
  split <;> simp_all

theorem Stage.fits_ready (s : Stage) : s.fits .ready = false := by
  unfold fits
  split <;> simp_all

section Tokens

/-- Every job has at most one holder, whose stage fits the status of the job. -/
def TokensFit (f : String → Multiset Stage) (g : String → Option JobStatus) : Prop :=
  ∀ j, f j = 0 ∨ ∃ s st, f j = {s} ∧ g j = some st ∧ s.fits st = true

variable {f f' : String → Multiset Stage} {g g' : String → Option JobStatus} {i j : String}
  {s : Stage} {rest : Multiset Stage}

theorem TokensFit.head (h : TokensFit f g) (hs : f j = s ::ₘ rest) :
    rest = 0 ∧ ∃ st, g j = some st ∧ s.fits st = true := by
  obtain h0 | ⟨t, st, ht, hst, hfits⟩ := h j
  · rw [h0] at hs
    exact absurd hs.symm (Multiset.cons_ne_zero)
  · rw [ht] at hs
    obtain ⟨rfl, rfl⟩ := (Multiset.singleton_eq_cons_iff rest).mp hs
    exact ⟨rfl, st, hst, hfits⟩

theorem TokensFit.of_mem (h : TokensFit f g) (hs : s ∈ f j) :
    ∃ st, f j = {s} ∧ g j = some st ∧ s.fits st = true := by
  obtain ⟨rest, hcons⟩ := Multiset.exists_cons_of_mem hs
  obtain ⟨rfl, st, hst, hfits⟩ := h.head hcons
  exact ⟨st, hcons, hst, hfits⟩

theorem TokensFit.eq_zero (h : TokensFit f g) (hj : g j = some .pending ∨ g j = some .ready) :
    f j = 0 := by
  obtain h0 | ⟨t, st, _, hst, hfits⟩ := h j
  · exact h0
  · rcases hj with hj | hj <;> rw [hj] at hst <;> cases hst
    · rw [Stage.fits_pending] at hfits
      cases hfits
    · rw [Stage.fits_ready] at hfits
      cases hfits

theorem TokensFit.card_le (h : TokensFit f g) (j : String) : (f j).card ≤ 1 := by
  obtain h0 | ⟨t, st, ht, _⟩ := h j
  · simp [h0]
  · simp [ht]

/-- One job changes its holder; the others keep holder and status, but for those without a holder. -/
theorem TokensFit.update (h : TokensFit f g) (hf : ∀ i, i ≠ j → f' i = f i)
    (hg : ∀ i, i ≠ j → g' i = g i ∨ g i = some .pending ∨ g i = some .ready)
    (hself : f' j = 0 ∨ ∃ s st, f' j = {s} ∧ g' j = some st ∧ s.fits st = true) :
    TokensFit f' g' := by
  intro i
  by_cases hij : i = j
  · subst hij
    exact hself
  · rw [hf i hij]
    obtain hsame | hidle := hg i hij
    · rw [hsame]
      exact h i
    · exact .inl (h.eq_zero hidle)

end Tokens

/-- The invariant of a workflow that is READY or RUNNING with jobs left to do. -/
structure Strong (p : Plan) (v : WorkflowView) : Prop where
  coherent : Coherent p v.space
  tokens : TokensFit v.stages v.jobStatus
  unclosed : v.status = some .ready ∨ v.status = some .running
  total : v.space.counters.total = p.ids.length
  limit : v.space.counters.limit = p.limit
  completed : v.space.counters.completed = p.tally JobStatus.isTerminal v.space
  unfinished : p.tally JobStatus.isTerminal v.space < p.ids.length
  slots : (p.tally JobStatus.isActive v.space : Int) ≤ v.space.counters.reserved
  capped : 0 ≤ p.limit → v.space.counters.reserved ≤ p.limit
  young : v.status = some .ready → ∀ j, v.jobStatus j ≠ some .running ∧
    v.jobStatus j ≠ some .completed ∧ v.jobStatus j ≠ some .retryDelay

/-- The invariant of a workflow that will not run any more. -/
structure Weak (p : Plan) (v : WorkflowView) : Prop where
  closed : v.status ≠ some .running
  capped : 0 ≤ p.limit → (p.tally JobStatus.isActive v.space : Int) ≤ p.limit
  single : ∀ j, (v.stages j).card ≤ 1
  known : ∀ j, v.stages j ≠ 0 → j ∈ p.ids
  unclaimable : ∀ j, .queued ∈ v.stages j ∨ .popped ∈ v.stages j → v.jobStatus j ≠ some .ready
  idle : v.status = some .ready → (∀ j s, s ∈ v.stages j → ∃ c, s = .failed c) ∧
    ∀ j, v.jobStatus j ≠ some .pending

section Weakening

variable {p : Plan} {v v' : WorkflowView} {j : String} {s : Stage} {rest m : Multiset Stage}

theorem Strong.mem_ids (h : Strong p v) {st : JobStatus} (hst : v.jobStatus j = some st) :
    j ∈ p.ids :=
  (h.coherent.known j).mp (fun hnone => by cases hst.symm.trans hnone)

/-- What is left of the invariant when a step closes the workflow. -/
theorem Strong.weaken (h : Strong p v) (hclosed : v'.status ≠ some .running)
    (hready : v'.status ≠ some .ready)
    (hactive : ∀ i, (v'.jobStatus i).any JobStatus.isActive = true →
      (v.jobStatus i).any JobStatus.isActive = true)
    (hstages : ∀ i, v'.stages i ≤ v.stages i ∨ ∃ t, v'.stages i = {t} ∧ t ≠ .queued ∧ t ≠ .popped ∧
      v.stages i ≠ 0)
    (hwait : ∀ i, v'.jobStatus i = some .ready → v.jobStatus i = some .ready) : Weak p v' where
  closed := hclosed
  capped := fun hlimit => by
    have hle : p.tally JobStatus.isActive v'.space ≤ p.tally JobStatus.isActive v.space :=
      p.tally_mono hactive
    have hslots := h.slots
    have hcap := h.capped hlimit
    omega
  single := fun i => by
    rcases hstages i with hle | ⟨t, ht, _⟩
    · exact (Multiset.card_le_card hle).trans (h.tokens.card_le i)
    · simp [ht]
  known := fun i hi => by
    have hne : v.stages i ≠ 0 := by
      rcases hstages i with hle | ⟨t, _, _, _, hne⟩
      · intro h0
        rw [h0] at hle
        exact hi (Multiset.le_zero.mp hle)
      · exact hne
    obtain ⟨t, ht⟩ := Multiset.exists_mem_of_ne_zero hne
    obtain ⟨st, _, hst, _⟩ := h.tokens.of_mem ht
    exact h.mem_ids hst
  unclaimable := fun i hi hr => by
    have hzero := h.tokens.eq_zero (.inr (hwait i hr))
    rcases hstages i with hle | ⟨t, ht, hq, hp, _⟩
    · rw [hzero] at hle
      rw [Multiset.le_zero.mp hle] at hi
      simp at hi
    · rw [ht] at hi
      simp only [Multiset.mem_singleton] at hi
      rcases hi with hi | hi
      · exact hq hi.symm
      · exact hp hi.symm
  idle := fun hr => absurd hr hready

/-- The step closes the workflow, and one program moves on with its job. -/
theorem Strong.weaken_moved (h : Strong p v) (hs : v.stages j = s ::ₘ rest) {ks : WorkflowKeyspace}
    {st : WorkflowStatus} {t : Stage} (ht : t ≠ .queued ∧ t ≠ .popped)
    (hwf : ks.status = some st) (hst : st ≠ .running ∧ st ≠ .ready)
    (hactive : ∀ i, (ks.jobStatus i).any JobStatus.isActive = true →
      (v.jobStatus i).any JobStatus.isActive = true)
    (hwait : ∀ i, ks.jobStatus i = some .ready → v.jobStatus i = some .ready) :
    Weak p ({ v with space := ks }.setStages j {t}) := by
  refine h.weaken (fun hr => hst.1 (Option.some.inj (hwf.symm.trans hr)))
    (fun hr => hst.2 (Option.some.inj (hwf.symm.trans hr))) hactive (fun i => ?_) hwait
  by_cases hij : i = j
  · subst hij
    refine .inr ⟨t, setStages_stages_self .., ht.1, ht.2, ?_⟩
    rw [hs]
    exact Multiset.cons_ne_zero
  · exact .inl (Function.update_of_ne hij ..).le

end Weakening

section StrongSteps

variable {p : Plan} {x : Served} {v v' : WorkflowView} {i j : String} {s s' : Stage}
  {rest : Multiset Stage} {now n : Int}

theorem Strong.restage (h : Strong p v) (hspace : v'.space = v.space)
    (htokens : TokensFit v'.stages v.jobStatus) : Strong p v' where
  coherent := hspace ▸ h.coherent
  tokens := by
    have hst : v'.jobStatus = v.jobStatus := by
      funext i
      simp only [WorkflowView.jobStatus, hspace]
    rw [hst]
    exact htokens
  unclosed := by
    simp only [WorkflowView.status, hspace]
    exact h.unclosed
  total := hspace ▸ h.total
  limit := hspace ▸ h.limit
  completed := hspace ▸ h.completed
  unfinished := hspace ▸ h.unfinished
  slots := hspace ▸ h.slots
  capped := hspace ▸ h.capped
  young := by
    simp only [WorkflowView.status, WorkflowView.jobStatus, hspace]
    exact h.young

variable {st : JobStatus} {m : Multiset Stage} {ks : WorkflowKeyspace}

theorem Shift.fits (h : Shift v x j s s') (hst : v.jobStatus j = some st)
    (hfits : s.fits st = true) : s'.fits st = true := by
  cases h with
  | dispatch hs => cases hs <;> cases st <;> first | rfl | cases hfits
  | report hs => cases hs <;> cases st <;> first | rfl | cases hfits
  | again hcompleted =>
      rw [hcompleted] at hst
      cases hst
      rfl
  | list st' => cases st' <;> cases st <;> first | rfl | cases hfits
  | broken c => cases c <;> cases st <;> first | rfl | cases hfits
  | _ => cases st <;> first | rfl | cases hfits

theorem Strong.setStages (h : Strong p v)
    (hm : m = 0 ∨ ∃ s st, m = {s} ∧ v.jobStatus j = some st ∧ s.fits st = true) :
    Strong p (v.setStages j m) := by
  refine h.restage rfl (h.tokens.update (fun i hi => Function.update_of_ne hi ..)
    (fun i _ => .inl rfl) ?_)
  rw [setStages_stages_self]
  exact hm

theorem Strong.shift (h : Strong p v) (hs : v.stages j = s ::ₘ rest) (hshift : Shift v x j s s') :
    Strong p (v.setStages j (s' ::ₘ rest)) := by
  obtain ⟨rfl, st, hst, hfits⟩ := h.tokens.head hs
  exact h.setStages (.inr ⟨s', st, rfl, hst, hshift.fits hst hfits⟩)

theorem Strong.lose (h : Strong p v) (hs : v.stages j = s ::ₘ rest) :
    Strong p (v.setStages j rest) := by
  obtain ⟨rfl, _⟩ := h.tokens.head hs
  exact h.setStages (.inl rfl)

/-- A step that changes the status of one job keeps the invariant, if the counters follow the status. -/
theorem Strong.update (h : Strong p v) (st' : JobStatus) (hst : v.jobStatus j = some st)
    (hcoherent : Coherent p ks)
    (hstatus : ∀ i, ks.jobStatus i = if i = j then some st' else v.space.jobStatus i)
    (hwf : ks.counters.status = v.status) (htotal : ks.counters.total = v.space.counters.total)
    (hlim : ks.counters.limit = v.space.counters.limit)
    (hcompleted : ks.counters.completed + st.isTerminal.toNat =
      v.space.counters.completed + st'.isTerminal.toNat) (hopen : st'.isTerminal = true →
      st.isTerminal = true ∨ p.tally JobStatus.isTerminal ks < p.ids.length)
    (hslots : v.space.counters.reserved + st'.isActive.toNat ≤
      ks.counters.reserved + st.isActive.toNat)
    (hcapped : 0 ≤ p.limit → ks.counters.reserved ≤ p.limit)
    (hyoung : v.status = some .ready → st' ≠ .running ∧ st' ≠ .completed ∧ st' ≠ .retryDelay)
    (hm : m = 0 ∨ ∃ s, m = {s} ∧ s.fits st' = true) :
    Strong p ({ v with space := ks }.setStages j m) := by
  have hst' : v.space.jobStatus j = some st := hst
  have htally : ∀ P : JobStatus → Bool,
      p.tally P ks + (P st).toNat = p.tally P v.space + (P st').toNat := by
    intro P
    have hkeep : ∀ i, i ≠ j → (ks.jobStatus i).any P = (v.space.jobStatus i).any P :=
      fun i hi => by rw [hstatus i, if_neg hi]
    have hcount := p.tally_of_eq_off (h.mem_ids hst) hkeep
    rw [hstatus j, if_pos rfl, hst'] at hcount
    exact hcount
  have hterminal := htally JobStatus.isTerminal
  have hactive := htally JobStatus.isActive
  have hspace : ({ v with space := ks }.setStages j m).space = ks := rfl
  have hwf' : ({ v with space := ks }.setStages j m).status = v.status := hwf
  refine ⟨hcoherent, ?_, hwf' ▸ h.unclosed, ?_, ?_, ?_, ?_, ?_, hcapped, fun hr i => ?_⟩
  · refine h.tokens.update (j := j) (fun i hi => Function.update_of_ne hi ..) (fun i hi => .inl ?_)
      ?_
    · exact (hstatus i).trans (if_neg hi)
    · rw [setStages_stages_self]
      refine hm.imp id ?_
      rintro ⟨s, hs, hfits⟩
      exact ⟨s, st', hs, (hstatus j).trans (if_pos rfl), hfits⟩
  · exact htotal.trans h.total
  · exact hlim.trans h.limit
  · have hbefore := h.completed
    rw [hspace]
    omega
  · have hbefore := h.unfinished
    rw [hspace]
    cases hkind : st'.isTerminal with
    | false =>
        rw [hkind] at hterminal
        exact lt_of_le_of_lt (Nat.le.intro hterminal) hbefore
    | true =>
        rcases hopen hkind with hsame | hlt
        · rw [hkind, hsame] at hterminal
          omega
        · exact hlt
  · have hbefore := h.slots
    rw [hspace]
    omega
  · have hr' : v.status = some .ready := hwf.symm.trans hr
    change ks.jobStatus i ≠ _ ∧ ks.jobStatus i ≠ _ ∧ ks.jobStatus i ≠ _
    rw [hstatus]
    by_cases hi : i = j
    · simp [hi, hyoung hr']
    · rw [if_neg hi]
      exact h.young hr' i

theorem Strong.restatus (h : Strong p v) (st' : JobStatus) (hst : v.jobStatus j = some st)
    (hkinds : st ≠ .ready ∧ st ≠ .completed)
    (hkinds' : st' ≠ .ready ∧ st' ≠ .pending ∧ st' ≠ .completed)
    (hterminal : st'.isTerminal = st.isTerminal) (hactive : st'.isActive = st.isActive)
    (hyoung : v.status = some .ready → st' ≠ .running ∧ st' ≠ .retryDelay)
    (hcounters : ks.counters = v.space.counters)
    (hstatus : ∀ i, ks.jobStatus i = if i = j then some st' else v.space.jobStatus i)
    (hremaining : ∀ i, ks.remaining i = v.space.remaining i)
    (hsuccessors : ks.successors = v.space.successors)
    (hwaiting : ks.waitingReady = v.space.waitingReady)
    (hm : m = 0 ∨ ∃ s, m = {s} ∧ s.fits st' = true) :
    Strong p ({ v with space := ks }.setStages j m) := by
  have hst' : v.space.jobStatus j = some st := hst
  have hcoherent : Coherent p ks := by
    refine h.coherent.setStatus hstatus hremaining hsuccessors hwaiting ?_ ?_ ?_ hkinds'
    · simp [hst']
    · simpa [hst'] using hkinds.1
    · simpa [hst'] using hkinds.2
  refine h.update st' hst hcoherent hstatus (by rw [hcounters]; rfl) (by rw [hcounters])
    (by rw [hcounters]) (by rw [hcounters, hterminal]) (fun hkind => .inl (hterminal ▸ hkind))
    (by rw [hcounters, hactive]) (hcounters ▸ h.capped)
    (fun hr => ⟨(hyoung hr).1, hkinds'.2.2, (hyoung hr).2⟩) hm

theorem Strong.claim (h : Strong p v) (hs : v.stages j = .popped ::ₘ rest) :
    Strong p ({ v with space := v.space.setJobStatus j .pendingExecution }.setStages j
      (.claimed ::ₘ rest)) := by
  obtain ⟨rfl, st, hst, hfits⟩ := h.tokens.head hs
  cases st <;> cases hfits
  exact h.restatus .pendingExecution hst ⟨nofun, nofun⟩ ⟨nofun, nofun, nofun⟩ rfl rfl
    (fun _ => ⟨nofun, nofun⟩) rfl (fun i => setJobStatus_jobStatus ..) (by simp)
    rfl rfl (.inr ⟨.claimed, rfl, rfl⟩)

theorem Strong.mark (h : Strong p v) {c : Closing} (hs : .failed c ∈ v.stages j) :
    Strong p { v with space := v.space.setJobStatus j .aborted } := by
  obtain ⟨st, hone, hst, hfits⟩ := h.tokens.of_mem hs
  have hview : ({ v with space := v.space.setJobStatus j .aborted } : WorkflowView) =
      { v with space := v.space.setJobStatus j .aborted }.setStages j {Stage.failed c} := by
    simp only [WorkflowView.setStages, ← hone, Function.update_eq_self]
  rw [hview]
  cases c <;> cases st <;> cases hfits
  all_goals
    exact h.restatus .aborted hst ⟨(by simp), (by simp)⟩ ⟨(by simp), (by simp), (by simp)⟩ rfl rfl
      (fun _ => ⟨(by simp), (by simp)⟩) rfl (fun i => setJobStatus_jobStatus ..) (by simp)
      rfl rfl (.inr ⟨_, rfl, rfl⟩)

/-- The invariant of a workflow's execution. -/
def Inv (p : Plan) (v : WorkflowView) : Prop := Strong p v ∨ Weak p v

theorem Inv.strong_of_running (h : Inv p v) (hrun : v.status = some .running) : Strong p v :=
  h.resolve_right (fun hweak => hweak.closed hrun)

theorem Strong.run (h : Strong p v) (hcounters : ks.counters =
      { v.space.counters with status := some .running, started := some now })
    (hsame : SameJobs v.space ks) : Strong p { v with space := ks } := by
  have hst : WorkflowView.jobStatus { v with space := ks } = v.jobStatus := funext hsame.jobStatus
  have htally : ∀ P, p.tally P ks = p.tally P v.space := fun P =>
    p.tally_congr (fun i => by rw [hsame.jobStatus])
  have hwf : WorkflowView.status { v with space := ks } = some .running :=
    congrArg Counters.status hcounters
  refine ⟨h.coherent.of_sameJobs hsame, hst ▸ h.tokens, .inr hwf, ?_, ?_, ?_, ?_, ?_, ?_,
    fun hr => by cases hr.symm.trans hwf⟩
  · rw [hcounters]
    exact h.total
  · rw [hcounters]
    exact h.limit
  · rw [htally, hcounters]
    exact h.completed
  · rw [htally]
    exact h.unfinished
  · rw [htally, hcounters]
    exact h.slots
  · rw [hcounters]
    exact h.capped

/-- The start script closes an open workflow only if it is READY with a start time already set. -/
theorem Strong.start (h : Strong p v) (hs : v.stages j = .dispatched ::ₘ rest) :
    Inv p ({ v with space := (v.space.trySetJobToRunning now j).2 }.setStages j
      (.ofStart (v.space.trySetJobToRunning now j).1 ::ₘ rest)) := by
  obtain ⟨rfl, st, hst, hfits⟩ := h.tokens.head hs
  cases st <;> cases hfits
  have hjob : v.space.jobStatus j = some .pendingExecution := hst
  have hstarted := trySetJobToRunning_started now j v.space
  generalize v.space.trySetJobToRunning now j = r at hstarted ⊢
  obtain ⟨result, ks⟩ := r
  cases hstarted with
  | canceledBefore habort => cases hjob.symm.trans habort
  | wrongJob _ hwrong => exact absurd hjob hwrong
  | wrongTime =>
      refine .inr (h.weaken_moved hs ⟨nofun, nofun⟩ rfl ⟨nofun, nofun⟩ (fun i hi => ?_)
        (fun i hi => ?_))
      · have hi' : ((v.space.setJobStatus j .aborted).jobStatus i).any JobStatus.isActive = true :=
          hi
        rw [setJobStatus_jobStatus] at hi'
        by_cases hij : i = j
        · rw [if_pos hij] at hi'
          cases hi'
        · rw [if_neg hij] at hi'
          exact hi'
      · have hi' : (v.space.setJobStatus j .aborted).jobStatus i = some .ready := hi
        rw [setJobStatus_jobStatus] at hi'
        by_cases hij : i = j
        · rw [if_pos hij] at hi'
          cases hi'
        · rw [if_neg hij] at hi'
          exact hi'
  | first _ hready _ hcounters hsame =>
      have hrun : Strong p { v with space := { v.space with hash := ks.hash } } :=
        h.run ((counters_congr rfl).trans hcounters) ⟨rfl, rfl, rfl, rfl⟩
      refine .inl (hrun.restatus .running hst ⟨nofun, nofun⟩ ⟨nofun, nofun, nofun⟩ rfl rfl
        (fun hr => ?_) (counters_congr rfl) (fun i => ?_) (fun i => ?_)
        hsame.successors hsame.waiting (.inr ⟨.started, rfl, rfl⟩))
      · cases hr.symm.trans (congrArg Counters.status hcounters)
      · rw [hsame.jobStatus, jobStatus_setJob]
        rfl
      · rw [hsame.remaining]
        exact remaining_setJob_of_keeps v.space (fun h =>
          { h with status := some .running, startRunTime := some now }) i j (fun _ => rfl)
  | again _ hrunning =>
      refine .inl (h.restatus .running hst ⟨nofun, nofun⟩ ⟨nofun, nofun, nofun⟩ rfl rfl
        (fun hr => ?_) rfl (fun i => ?_) (fun i => ?_) rfl rfl (.inr ⟨.started, rfl, rfl⟩))
      · cases hr.symm.trans hrunning
      · exact jobStatus_setJob v.space (fun h =>
          { h with status := some .running, startRunTime := some now }) i j
      · exact remaining_setJob_of_keeps v.space (fun h =>
          { h with status := some .running, startRunTime := some now }) i j (fun _ => rfl)
  | canceled _ hfailed =>
      rcases h.unclosed with hopen | hopen <;> rcases hfailed with hfailed | hfailed <;>
        cases hopen.symm.trans hfailed
  | wrongWorkflow _ hready hrunning =>
      exact absurd h.unclosed (not_or.mpr ⟨hready, hrunning⟩)

theorem Finished.any_eq {ks' : WorkflowKeyspace} {ready : List String}
    (h : Finished j ks ready ks') {P : JobStatus → Bool} (hP : P .ready = P .pending) (hi : i ≠ j) :
    (ks'.jobStatus i).any P = (ks.jobStatus i).any P := by
  rw [h.jobStatus i hi]
  split
  · rename_i hlast
    rw [hlast.2.1]
    exact hP
  · rfl

section Success

variable {ks : WorkflowKeyspace} {ready : List String}

theorem Strong.tally_finished (h : Strong p v) (hjob : v.jobStatus j = some .running)
    (hfinished : Finished j v.space ready ks) :
    p.tally JobStatus.isTerminal ks = p.tally JobStatus.isTerminal v.space + 1 ∧
      p.tally JobStatus.isActive ks + 1 = p.tally JobStatus.isActive v.space := by
  have hj := h.mem_ids hjob
  have hjob' : v.space.jobStatus j = some .running := hjob
  have hterminal := p.tally_of_eq_off (P := JobStatus.isTerminal) hj
    (fun i hi => Finished.any_eq hfinished rfl hi)
  have hactive := p.tally_of_eq_off (P := JobStatus.isActive) hj
    (fun i hi => Finished.any_eq hfinished rfl hi)
  rw [hfinished.self, hjob'] at hterminal hactive
  exact ⟨hterminal, hactive⟩

theorem Strong.finish (h : Strong p v) (hjob : v.jobStatus j = some .running)
    (hrun : v.status = some .running) (hfinished : Finished j v.space ready ks)
    (hopen : p.tally JobStatus.isTerminal ks < p.ids.length) (l : List String) :
    Strong p ({ v with space := ks.countCompleted }.setStages j {Stage.counted .no l}) := by
  obtain ⟨hterminal, hactive⟩ := h.tally_finished hjob hfinished
  have hsame : SameJobs ks ks.countCompleted := ⟨rfl, rfl, rfl, rfl⟩
  have hcounters : ks.countCompleted.counters = _ := counters_countCompleted ks
  rw [hfinished.counters] at hcounters
  have hcoherent : Coherent p ks := h.coherent.finishJob (h.mem_ids hjob)
    (fun hc => by cases hjob.symm.trans hc) (fun hc => by cases hjob.symm.trans hc) hfinished
  have htally : ∀ P, p.tally P ks.countCompleted = p.tally P ks := fun P =>
    p.tally_congr (fun i => by rw [hsame.jobStatus])
  have hslots := h.slots
  have hwf : ({ v with space := ks.countCompleted }.setStages j {Stage.counted .no l}).status =
      some .running := (congrArg Counters.status hcounters).trans hrun
  refine ⟨hcoherent.of_sameJobs hsame, ?_, .inr hwf, ?_, ?_, ?_, ?_, ?_, fun hlimit => ?_,
    fun hr => by cases hr.symm.trans hwf⟩
  · refine h.tokens.update (j := j) (fun i hi => Function.update_of_ne hi ..) (fun i hi => ?_) ?_
    · by_cases hlast : i ∈ v.space.successors j ∧ v.space.LastOpen i
      · exact .inr (.inl hlast.2.1)
      · refine .inl ((hfinished.jobStatus i hi).trans (if_neg hlast))
    · rw [setStages_stages_self]
      exact .inr ⟨_, .completed, rfl, hfinished.self, rfl⟩
  · exact (congrArg Counters.total hcounters).trans h.total
  · exact (congrArg Counters.limit hcounters).trans h.limit
  · refine (congrArg Counters.completed hcounters).trans ?_
    have hcompleted := h.completed
    rw [show (WorkflowView.setStages { v with space := ks.countCompleted } j
      {Stage.counted .no l}).space = ks.countCompleted from rfl, htally, hterminal]
    push_cast
    omega
  · rw [show (WorkflowView.setStages { v with space := ks.countCompleted } j
      {Stage.counted .no l}).space = ks.countCompleted from rfl, htally]
    exact hopen
  · rw [show (WorkflowView.setStages { v with space := ks.countCompleted } j
      {Stage.counted .no l}).space = ks.countCompleted from rfl, htally, hcounters]
    dsimp only
    split <;> omega
  · have hcapped := h.capped hlimit
    rw [show (WorkflowView.setStages { v with space := ks.countCompleted } j
      {Stage.counted .no l}).space = ks.countCompleted from rfl, hcounters]
    dsimp only
    split <;> omega

theorem Strong.promoteWaiting (h : Strong p v) (hrun : v.status = some .running)
    (hslot : v.space.counters.reserved < v.space.counters.limit) :
    Strong p ({ v with space := v.space.promoteWaiting.2 }.enqueue v.space.promoteWaiting.1) := by
  obtain ⟨heq, -⟩ | ⟨i, n, hi, heq⟩ := v.space.promoteWaiting_cases
  · rw [heq]
    exact h
  · rw [heq]
    have hready : v.space.jobStatus i = some .ready := (h.coherent.waiting i).mp hi
    have hstages : ({ v with space := v.space.queueWaiting i }.enqueue (some (i, n))) =
        { v with space := v.space.queueWaiting i }.setStages i {Stage.queued} := by
      rw [WorkflowView.enqueue, h.tokens.eq_zero (.inr hready), if_neg (Multiset.notMem_zero _)]
      rfl
    have hcounters := counters_queueWaiting v.space i
    have hlim := h.limit
    rw [hstages]
    refine h.update .queued hready (h.coherent.queueWaiting hi)
      (fun x => jobStatus_queueWaiting ..) ?_ ?_ ?_ ?_ (by rintro ⟨⟩) ?_ (fun _ => ?_)
      (fun hr => by cases hr.symm.trans hrun) (.inr ⟨_, rfl, rfl⟩)
    · rw [hcounters]
      rfl
    · rw [hcounters]
    · rw [hcounters]
    · rw [hcounters]
      rfl
    · rw [hcounters]
      simp [JobStatus.isActive]
    · rw [hcounters]
      dsimp only
      omega

theorem Strong.finished (h : Strong p v) (hs : v.stages j = .reported .completed ::ₘ rest) :
    v.jobStatus j = some .running ∧
      Finished j v.space (v.space.finishJob j).1 (v.space.finishJob j).2 := by
  obtain ⟨-, st, hst, hfits⟩ := h.tokens.head hs
  cases st <;> cases hfits
  exact ⟨hst, finishJob_finished j v.space
    (h.coherent.successors j (h.mem_ids hst) (fun hc => by cases hst.symm.trans hc)).1⟩

theorem Strong.allCompleted_iff (h : Strong p v) (hs : v.stages j = .reported .completed ::ₘ rest) :
    (v.space.finishJob j).2.countCompleted.allCompleted = true ↔
      p.tally JobStatus.isTerminal (v.space.finishJob j).2 = p.ids.length := by
  obtain ⟨hst, hfinished⟩ := h.finished hs
  obtain ⟨hterminal, -⟩ := h.tally_finished hst hfinished
  have hcounters := counters_countCompleted (v.space.finishJob j).2
  rw [hfinished.counters] at hcounters
  have htotal := h.total
  have hcompleted := h.completed
  have hunfinished := h.unfinished
  rw [allCompleted_eq, hcounters, decide_eq_true_iff]
  dsimp only
  omega

/-- The success script, when it counts the job: it closes the workflow with the last job only. -/
theorem Strong.success (h : Strong p v) {done : Bool} {promoted : Option (String × Int)}
    (hs : v.stages j = .reported .completed ::ₘ rest)
    (hcounted : (v.space.completeSuccessfulJob now j).1 = .counted done promoted ready)
    (l : List String) :
    Inv p (({ v with space := (v.space.completeSuccessfulJob now j).2 }.setStages j
      (.counted (.ofCompleted done) l ::ₘ rest)).enqueue promoted) := by
  obtain ⟨rfl, -⟩ := h.tokens.head hs
  obtain ⟨hst, hfinished⟩ := h.finished hs
  have hopen : v.jobStatus j ≠ some .completed := fun hc => by cases hst.symm.trans hc
  obtain ⟨hrun, -, -, -, hcases⟩ := completeSuccessfulJob_counted hcounted
  have hcounters := counters_countCompleted (v.space.finishJob j).2
  rw [hfinished.counters] at hcounters
  rcases hcases with ⟨hdone, rfl, rfl, hks⟩ | ⟨hdone, rfl, hcases⟩
  · have hfull := (h.allCompleted_iff hs).mp hdone
    have hjobs : ∀ i, (v.space.completeSuccessfulJob now j).2.jobStatus i =
        (v.space.finishJob j).2.jobStatus i := by
      intro i
      rw [hks]
      rfl
    have hwf : (v.space.completeSuccessfulJob now j).2.status = some .completed := by
      rw [hks]
      exact setStatus_status ..
    refine .inr (h.weaken_moved hs ⟨nofun, nofun⟩ hwf ⟨nofun, nofun⟩ (fun i hi => ?_)
      (fun i hi => ?_))
    · by_cases hij : i = j
      · subst hij
        exact congrArg (Option.any JobStatus.isActive) hst
      · exact (Finished.any_eq hfinished rfl hij).symm.trans ((congrArg _ (hjobs i)).symm.trans hi)
    · have hi' : (v.space.finishJob j).2.jobStatus i = some .ready := (hjobs i).symm.trans hi
      have hmem : i ∈ p.ids := by
        refine ((h.coherent.finishJob (h.mem_ids hst) hopen (fun hc => ?_) hfinished).known
          i).mp (by simp [hi'])
        cases hst.symm.trans hc
      have hkind := p.tally_eq_length_iff.mp hfull i hmem
      rw [hi'] at hkind
      cases hkind
  · have hlt : p.tally JobStatus.isTerminal (v.space.finishJob j).2 < p.ids.length := by
      refine Nat.lt_of_le_of_ne (p.tally_le ..) (fun hfull => ?_)
      rw [(h.allCompleted_iff hs).mpr hfull] at hdone
      cases hdone
    have hstrong := h.finish hst hrun hfinished hlt l
    refine .inl ?_
    rcases hcases with ⟨hslot, heq⟩ | ⟨⟨rfl, -⟩, heq⟩
    · have hnext := hstrong.promoteWaiting
        ((congrArg Counters.status hcounters).trans hrun) hslot
      rw [show (WorkflowView.setStages { v with space := (v.space.finishJob j).2.countCompleted } j
        {Stage.counted .no l}).space.promoteWaiting = (v.space.finishJob j).2.countCompleted.promoteWaiting
        from rfl, ← heq] at hnext
      exact hnext
    · rw [heq]
      exact hstrong

end Success

theorem Strong.expire (h : Strong p v) (hs : v.stages j = .reported .completed ::ₘ rest)
    (hexpired : (v.space.completeSuccessfulJob now j).1 = .runTimeExceeded) :
    Weak p ({ v with space := (v.space.completeSuccessfulJob now j).2 }.setStages j
      (.reported .failed ::ₘ rest)) := by
  obtain ⟨rfl, -⟩ := h.tokens.head hs
  obtain ⟨-, -, hks⟩ := completeSuccessfulJob_expired hexpired
  have hwf : (v.space.completeSuccessfulJob now j).2.status = some .failed := by
    rw [hks]
    exact setStatus_status ..
  have hjobs : ∀ i, (v.space.completeSuccessfulJob now j).2.jobStatus i = v.jobStatus i := by
    intro i
    rw [hks]
    rfl
  refine h.weaken_moved hs ⟨nofun, nofun⟩ hwf ⟨nofun, nofun⟩ (fun i hi => ?_) (fun i hi => ?_)
  · exact (congrArg _ (hjobs i)).symm.trans hi
  · exact (hjobs i).symm.trans hi

section Failure

variable {js : List String}

/-- The failure script in a RUNNING workflow closes it and cancels what waits. -/
theorem Strong.fail_running (h : Strong p v) (hrun : v.status = some .running)
    (hs : v.stages j = s ::ₘ rest) (c : Closing) :
    Weak p (({ v with space := (v.space.completeFailedJob j n js).2 }.setStages j
      (.failed c ::ₘ rest)).dropCanceled (v.space.completeFailedJob j n js).1.canceled) := by
  obtain ⟨rfl, -⟩ := h.tokens.head hs
  have hfailed : FailedRunning j js v.space _ _ :=
    completeFailedJob_running n hrun
  generalize v.space.completeFailedJob j n js = r at hfailed ⊢
  obtain ⟨outcome, ks⟩ := r
  dsimp only at hfailed ⊢
  have hdropped := dropCanceled_dropped outcome.canceled
    ({ v with space := ks }.setStages j {Stage.failed c})
  generalize ({ v with space := ks }.setStages j {Stage.failed c}).dropCanceled outcome.canceled =
    v' at hdropped ⊢
  have hspace : v'.space = ks := hdropped.space
  have hwf : v'.status = some .failed := by
    rw [WorkflowView.status, hspace]
    exact hfailed.status
  have hself : v'.jobStatus j = some .failed := by
    rw [WorkflowView.jobStatus, hspace]
    exact hfailed.self
  -- a sibling is aborted or keeps its status
  have hother : ∀ i, i ≠ j → v'.jobStatus i = some .aborted ∨ v'.jobStatus i = v.jobStatus i := by
    intro i hij
    rw [WorkflowView.jobStatus, hspace, hfailed.jobStatus i hij]
    split
    · exact .inl rfl
    · exact .inr rfl
  refine h.weaken (fun hr => ?_) (fun hr => ?_) (fun i hi => ?_) (fun i => ?_) (fun i hi => ?_)
  · cases hwf.symm.trans hr
  · cases hwf.symm.trans hr
  · by_cases hij : i = j
    · subst hij
      rw [hself] at hi
      cases hi
    · rcases hother i hij with heq | heq <;> rw [heq] at hi
      · cases hi
      · exact hi
  · by_cases hij : i = j
    · subst hij
      have hnot : i ∉ outcome.canceled.map Prod.fst := by
        intro hmem
        obtain ⟨⟨a, st⟩, ha, rfl⟩ := List.mem_map.mp hmem
        exact ((hfailed.mem a st).mp ha).2.1 rfl
      refine .inr ⟨_, (hdropped.other i hnot).trans (setStages_stages_self ..), nofun,
        nofun, ?_⟩
      rw [hs]
      exact Multiset.cons_ne_zero
    · exact .inl ((hdropped.le i).trans (Function.update_of_ne hij ..).le)
  · by_cases hij : i = j
    · subst hij
      cases hself.symm.trans hi
    · rcases hother i hij with heq | heq
      · cases heq.symm.trans hi
      · exact heq.symm.trans hi

/-- In a workflow where every job is done before one started, the jobs that failed are left. -/
theorem Strong.fits_young (h : Strong p v) (hready : v.status = some .ready) {st : JobStatus}
    (hst : v.jobStatus j = some st) (hkind : st.isTerminal = true) (hfits : s.fits st = true) :
    ∃ c, s = .failed c := by
  have hyoung := (h.young hready j).2.1
  cases st <;> cases hkind
  · exact absurd hst hyoung
  all_goals
    unfold Stage.fits at hfits
    split at hfits <;> simp_all

theorem WorkflowKeyspace.FailedOther.tally_terminal {ks ks' : WorkflowKeyspace}
    {outcome : FailureOutcome} (h : FailedOther j ks outcome ks') (hj : j ∈ p.ids)
    (hst : ks.jobStatus j = some .pendingExecution) :
    p.tally JobStatus.isTerminal ks' = p.tally JobStatus.isTerminal ks + 1 := by
  have hkeep : ∀ i, i ≠ j →
      (ks'.jobStatus i).any JobStatus.isTerminal = (ks.jobStatus i).any JobStatus.isTerminal :=
    fun i hi => by rw [h.jobStatus i, if_neg hi]
  have hcount := p.tally_of_eq_off hj hkeep
  rw [h.jobStatus, if_pos rfl, hst] at hcount
  exact hcount

/-- A job of a READY workflow fails, which stays READY: other jobs are still to be done. -/
theorem Strong.failOther_open (h : Strong p v) {ks : WorkflowKeyspace} {outcome : FailureOutcome}
    (hst : v.jobStatus j = some .pendingExecution) (hfailed : FailedOther j v.space outcome ks)
    (hopen : p.tally JobStatus.isTerminal ks < p.ids.length) :
    Strong p ({ v with space := ks }.setStages j {Stage.failed .no}) := by
  have hst' : v.space.jobStatus j = some .pendingExecution := hst
  refine h.update .failed hst ?_ hfailed.jobStatus ?_ ?_ ?_ ?_ (fun _ => .inr hopen) ?_ ?_
    (fun _ => ⟨nofun, nofun, nofun⟩) (.inr ⟨_, rfl, rfl⟩)
  · exact h.coherent.setStatus hfailed.jobStatus hfailed.remaining hfailed.successors
      hfailed.waiting (by simp [hst']) (by simp [hst']) (by simp [hst']) ⟨nofun, nofun, nofun⟩
  · rw [hfailed.counters]
    rfl
  · rw [hfailed.counters]
  · rw [hfailed.counters]
  · rw [hfailed.counters]
    simp [JobStatus.isTerminal]
  · rw [hfailed.counters]
    simp [JobStatus.isActive]
  · rw [hfailed.counters]
    exact h.capped

/-- The same when it was the last job to be done: the workflow stays READY for good. -/
theorem Strong.failOther_full (h : Strong p v) (hready : v.status = some .ready)
    {ks : WorkflowKeyspace} {outcome : FailureOutcome} (hst : v.jobStatus j = some .pendingExecution)
    (hfailed : FailedOther j v.space outcome ks)
    (hfull : p.tally JobStatus.isTerminal ks = p.ids.length) (c : Closing) :
    Weak p ({ v with space := ks }.setStages j {Stage.failed c}) := by
  have hkeep : ∀ P : JobStatus → Bool, ∀ i, i ≠ j →
      (ks.jobStatus i).any P = (v.space.jobStatus i).any P :=
    fun P i hi => by rw [hfailed.jobStatus i, if_neg hi]
  have hkinds := p.tally_eq_length_iff.mp hfull
  have hended : ∀ i st, st.isTerminal = false → ks.jobStatus i ≠ some st := by
    intro i st hopen hi
    have hmem : i ∈ p.ids := by
      refine (h.coherent.known i).mp (fun hnone => ?_)
      rw [hfailed.jobStatus i] at hi
      split at hi
      · cases hi
        cases hopen
      · cases hnone.symm.trans hi
    have hkind := hkinds i hmem
    rw [hi] at hkind
    cases hopen.symm.trans hkind
  refine ⟨fun hr => ?_, fun hlimit => ?_, fun i => ?_, fun i hi => ?_, fun i _ hr => ?_,
    fun _ => ⟨fun i t ht => ?_, fun i hi => hended i .pending rfl hi⟩⟩
  · cases (hfailed.status.trans hready).symm.trans hr
  · have hle : p.tally JobStatus.isActive ks ≤ p.tally JobStatus.isActive v.space := by
      refine p.tally_mono (fun i hi => ?_)
      by_cases hij : i = j
      · rw [hfailed.jobStatus, if_pos hij] at hi
        cases hi
      · rwa [hkeep _ i hij] at hi
    have hslots := h.slots
    have hcap := h.capped hlimit
    change ((p.tally JobStatus.isActive ks : Nat) : Int) ≤ _
    omega
  · by_cases hij : i = j
    · subst hij
      rw [setStages_stages_self]
      rfl
    · rw [setStages_stages_of_ne _ _ hij]
      exact h.tokens.card_le i
  · by_cases hij : i = j
    · exact hij ▸ h.mem_ids hst
    · rw [setStages_stages_of_ne _ _ hij] at hi
      obtain ⟨t, ht⟩ := Multiset.exists_mem_of_ne_zero hi
      obtain ⟨st, -, hst, -⟩ := h.tokens.of_mem ht
      exact h.mem_ids hst
  · exact hended i .ready rfl hr
  · by_cases hij : i = j
    · subst hij
      rw [setStages_stages_self] at ht
      exact ⟨_, Multiset.mem_singleton.mp ht⟩
    · rw [setStages_stages_of_ne _ _ hij] at ht
      obtain ⟨st, -, hsti, hfitsi⟩ := h.tokens.of_mem ht
      have hkind := hkinds i (h.mem_ids hsti)
      rw [hkeep _ i hij, show v.space.jobStatus i = some st from hsti] at hkind
      exact h.fits_young hready hsti hkind hfitsi

theorem Strong.fail_ready (h : Strong p v) (hready : v.status = some .ready)
    (hs : v.stages j = s ::ₘ rest) (hstage : (∃ st, s = .listing st js) ∨ ∃ c, s = .broken c) :
    Inv p ({ v with space := (v.space.completeFailedJob j n js).2 }.setStages j
      (.failed (.ofCompleted (v.space.completeFailedJob j n js).1.workflowCompleted) ::ₘ
        rest)) := by
  obtain ⟨rfl, st, hst, hfits⟩ := h.tokens.head hs
  have hpending : st = .pendingExecution := by
    have hyoung := h.young hready j
    rw [hst] at hyoung
    rcases hstage with ⟨st', rfl⟩ | ⟨c, rfl⟩
    · cases st' <;> cases st <;> simp_all [Stage.fits]
    · cases c <;> cases st <;> simp_all [Stage.fits]
  subst hpending
  have hfailed : FailedOther j v.space (v.space.completeFailedJob j n js).1
      (v.space.completeFailedJob j n js).2 :=
    completeFailedJob_other n (fun hr => by cases hready.symm.trans hr)
  have hterminal := hfailed.tally_terminal (h.mem_ids hst) hst
  have hcompleted := h.completed
  have htotal := h.total
  have hunfinished := h.unfinished
  have hdone := hfailed.completed
  rw [hfailed.counters] at hdone
  cases hout : (v.space.completeFailedJob j n js).1.workflowCompleted with
  | false =>
      rw [hout, eq_comm, decide_eq_false_iff_not] at hdone
      dsimp only at hdone
      exact .inl (h.failOther_open hst hfailed (by omega))
  | true =>
      rw [hout, eq_comm, decide_eq_true_iff] at hdone
      dsimp only at hdone
      exact .inr (h.failOther_full hready hst hfailed (by omega) _)

theorem Strong.fail (h : Strong p v) (hs : v.stages j = s ::ₘ rest)
    (hstage : (∃ st, s = .listing st js) ∨ ∃ c, s = .broken c) :
    Inv p (({ v with space := (v.space.completeFailedJob j n js).2 }.setStages j
      (.failed (.ofCompleted (v.space.completeFailedJob j n js).1.workflowCompleted) ::ₘ
        rest)).dropCanceled (v.space.completeFailedJob j n js).1.canceled) := by
  rcases h.unclosed with hready | hrun
  · have hother : FailedOther j v.space (v.space.completeFailedJob j n js).1 _ :=
      completeFailedJob_other n (fun hr => by cases hready.symm.trans hr)
    rw [hother.canceled]
    exact h.fail_ready hready hs hstage
  · exact .inr (h.fail_running hrun hs _)

end Failure

section Retry

theorem WorkflowView.delay_setStages_zero (v : WorkflowView) (j : String) :
    (v.setStages j 0).delay j = v.setStages j {Stage.retryWait} := by
  rw [WorkflowView.delay, setStages_stages_self, if_neg (Multiset.notMem_zero _),
    setStages_setStages]
  rfl

theorem WorkflowView.enqueue_setStages_zero (v : WorkflowView) (j : String) (n : Int) :
    (v.setStages j 0).enqueue (some (j, n)) = v.setStages j {Stage.queued} := by
  rw [WorkflowView.enqueue, setStages_stages_self, if_neg (Multiset.notMem_zero _),
    setStages_setStages]
  rfl

theorem Strong.retry (h : Strong p v) {st : JobStatus} (hst : st ≠ .aborted)
    (hs : v.stages j = .reported st ::ₘ rest) :
    Strong p ((({ v with space := (v.space.scheduleJobRetry j n).2 }.setStages j rest).delay
      j).enqueue (v.space.scheduleJobRetry j n).1) := by
  obtain ⟨rfl, st', hjob, hfits⟩ := h.tokens.head hs
  have hrunning : st' = .running := by
    cases st <;> cases st' <;> simp_all [Stage.fits]
  subst hrunning
  have hrun : v.status = some .running :=
    h.unclosed.resolve_left (fun hr => (h.young hr j).1 hjob)
  have hjob' : v.space.jobStatus j = some .running := hjob
  have hstatus := fun i => jobStatus_delayJob j i n v.space
  have hcounters := counters_delayJob j n v.space
  -- the job holds a slot, so that there is one to give back
  have hpos : 0 < v.space.counters.reserved := by
    have hactive : 0 < p.tally JobStatus.isActive v.space :=
      p.tally_pos (h.mem_ids hjob) (by rw [hjob']; rfl)
    have hslots := h.slots
    omega
  rw [if_pos hpos] at hcounters
  have hdelayed : Strong p
      ({ v with space := v.space.delayJob j n }.setStages j {Stage.retryWait}) := by
    refine h.update .retryDelay hjob ?_ hstatus ?_ ?_ ?_ ?_ nofun ?_ (fun hlimit => ?_)
      (fun hr => by cases hr.symm.trans hrun) (.inr ⟨_, rfl, rfl⟩)
    · exact h.coherent.setStatus hstatus (fun i => remaining_delayJob ..) rfl rfl
        (by simp [hjob']) (by simp [hjob']) (by simp [hjob']) ⟨nofun, nofun, nofun⟩
    · rw [hcounters]
      rfl
    · rw [hcounters]
    · rw [hcounters]
    · rw [hcounters]
      rfl
    · rw [hcounters]
      simp [JobStatus.isActive]
    · have hcapped := h.capped hlimit
      rw [hcounters]
      dsimp only
      omega
  rw [delay_setStages_zero]
  rcases scheduleJobRetry_cases j n v.space with ⟨heq, -⟩ | ⟨-, hslot, heq⟩
  · rw [heq]
    exact hdelayed
  · rw [heq]
    refine hdelayed.promoteWaiting ?_ ?_
    · exact (congrArg Counters.status hcounters).trans hrun
    · exact lt_of_lt_of_eq hslot (congrArg Counters.limit hcounters).symm

theorem Strong.promote (h : Strong p v) (hs : v.stages j = .retryHeld ::ₘ rest) :
    Strong p (({ v with space := (v.space.promoteRetryJob j).2 }.setStages j rest).enqueue
      (v.space.promoteRetryJob j).1) := by
  obtain ⟨rfl, st, hst, hfits⟩ := h.tokens.head hs
  cases st <;> cases hfits
  have hjob : v.space.jobStatus j = some .retryDelay := hst
  have hrun : v.status = some .running :=
    h.unclosed.resolve_left (fun hr => (h.young hr j).2.2 hst)
  have hlim := h.limit
  have hwait : Strong p ({ v with space := v.space.waitAgain j }.setStages j 0) := by
    refine h.update .ready hst (h.coherent.waitAgain hjob)
      (fun i => jobStatus_waitAgain j i v.space) rfl rfl rfl rfl nofun
      le_rfl h.capped (fun hr => by cases hr.symm.trans hrun) (.inl rfl)
  have hpromoted := promoteRetryJob_promoted j v.space
  generalize v.space.promoteRetryJob j = r at hpromoted ⊢
  obtain ⟨q, ks⟩ := r
  dsimp only at hpromoted ⊢
  cases hpromoted with
  | missing hnone =>
      rcases hnone with hnone | hnone
      · cases hnone.symm.trans hrun
      · cases hnone.symm.trans hjob
  | stopped hstatus => exact absurd hrun hstatus
  | refused _ hdelay => exact absurd hjob hdelay
  | queued n _ _ hslot _ =>
      have hstatus := fun i => jobStatus_queueRetry j i v.space
      have hcounters := counters_queueRetry j v.space
      rw [enqueue_setStages_zero]
      refine h.update .queued hst ?_ hstatus ?_ ?_ ?_ ?_ nofun ?_ (fun _ => ?_)
        (fun hr => by cases hr.symm.trans hrun) (.inr ⟨_, rfl, rfl⟩)
      · exact h.coherent.setStatus hstatus
          (fun i => remaining_setJobStatus v.space i j .queued) rfl rfl
          (by simp [hjob]) (by simp [hjob]) (by simp [hjob]) ⟨nofun, nofun, nofun⟩
      · rw [hcounters]
        rfl
      · rw [hcounters]
      · rw [hcounters]
      · rw [hcounters]
        rfl
      · rw [hcounters]
        simp [JobStatus.isActive]
      · rw [hcounters]
        dsimp only
        omega
  | swapped _ _ hslot => exact hwait.promoteWaiting hrun hslot
  | waiting => exact hwait

end Retry

/-- Nobody cleans up a workflow that is not closed. -/
theorem Strong.closing_eq (h : Strong p v) (hs : s ∈ v.stages j) : s.closing = .no := by
  obtain ⟨_, -, -, hfits⟩ := h.tokens.of_mem hs
  exact Stage.closing_of_fits hfits

/-- Each step keeps the invariant of an open workflow or closes it. -/
theorem Strong.step {l : List String} (h : Strong p v) (hstep : WStep x v l v') : Inv p v' := by
  cases hstep with
  | shift hs hshift => exact .inl (h.shift hs hshift)
  | lose hs => exact .inl (h.lose hs)
  | claim _ hs => exact .inl (h.claim hs)
  | start _ hs => exact h.start hs
  | expire _ hs hexpired => exact .inr (h.expire hs hexpired)
  | success _ hs hcounted => exact h.success hs hcounted _
  | fail _ hs hstage => exact h.fail hs hstage
  | mark _ hs => exact .inl (h.mark hs)
  | retry _ hst hs => exact .inl (h.retry hst hs)
  | promote _ hs => exact .inl (h.promote hs)
  | releaseCounted hs | releaseFailed hs | deleteCounted hs =>
      cases h.closing_eq (hs ▸ Multiset.mem_cons_self ..)
  | erase hs hdel => cases hdel <;> cases h.closing_eq hs
  | deleteFailed hs => cases h.closing_eq hs

end StrongSteps

section WeakSteps

variable {p : Plan} {x : Served} {v v' : WorkflowView} {i j : String} {s s' : Stage}
  {rest : Multiset Stage} {now n : Int}

/-- What may happen to a job of a closed workflow: it gets no new slot and waits for none. -/
def WorkflowView.Settles (v v' : WorkflowView) (i : String) : Prop :=
  v'.jobStatus i = v.jobStatus i ∨
    (v'.jobStatus i ≠ some .ready ∧ v'.jobStatus i ≠ some .pending ∧
      ((v'.jobStatus i).any JobStatus.isActive = true →
        (v.jobStatus i).any JobStatus.isActive = true))

/-- A closed workflow stays one if no job becomes active and no key is queued anew. -/
theorem Weak.change (h : Weak p v)
    (hstatus : v'.status = v.status ∨ (v'.status ≠ some .running ∧ v'.status ≠ some .ready))
    (hjobs : ∀ i, v.Settles v' i)
    (hstages : ∀ i, v'.stages i ≤ v.stages i ∨ ∃ s s', v.stages i = {s} ∧ v'.stages i = {s'} ∧
      (s' = .queued ∨ s' = .popped → s = .queued ∨ s = .popped) ∧
      ((∃ c, s = .failed c) → ∃ c, s' = .failed c)) : Weak p v' where
  closed := by
    rcases hstatus with heq | hne
    · exact heq ▸ h.closed
    · exact hne.1
  capped := fun hlimit => by
    have hle : p.tally JobStatus.isActive v'.space ≤ p.tally JobStatus.isActive v.space := by
      refine p.tally_mono (fun i hi => ?_)
      rcases hjobs i with heq | hne
      · exact (congrArg _ heq).symm.trans hi
      · exact hne.2.2 hi
    have hcap := h.capped hlimit
    omega
  single := fun i => by
    rcases hstages i with hle | ⟨s, s', _, hs', _⟩
    · exact (Multiset.card_le_card hle).trans (h.single i)
    · simp [hs']
  known := fun i hi => by
    refine h.known i (fun h0 => ?_)
    rcases hstages i with hle | ⟨s, s', hs, _⟩
    · rw [h0] at hle
      exact hi (Multiset.le_zero.mp hle)
    · rw [h0] at hs
      exact Multiset.singleton_ne_zero s hs.symm
  unclaimable := fun i hi => by
    have hbefore : .queued ∈ v.stages i ∨ .popped ∈ v.stages i := by
      rcases hstages i with hle | ⟨s, s', hs, hs', hqueue, _⟩
      · exact hi.imp (Multiset.mem_of_le hle) (Multiset.mem_of_le hle)
      · rw [hs'] at hi
        simp only [Multiset.mem_singleton] at hi
        rw [hs]
        simp only [Multiset.mem_singleton]
        exact (hqueue (hi.imp Eq.symm Eq.symm)).imp Eq.symm Eq.symm
    rcases hjobs i with heq | hne
    · rw [heq]
      exact h.unclaimable i hbefore
    · exact hne.1
  idle := fun hr => by
    obtain ⟨hfailed, hpending⟩ := h.idle (by
      rcases hstatus with heq | hne
      · exact heq.symm.trans hr
      · exact absurd hr hne.2)
    refine ⟨fun i t ht => ?_, fun i => ?_⟩
    · rcases hstages i with hle | ⟨s, s', hs, hs', _, hkeep⟩
      · exact hfailed i t (Multiset.mem_of_le hle ht)
      · rw [hs', Multiset.mem_singleton] at ht
        subst ht
        exact hkeep (hfailed i s (hs ▸ Multiset.mem_singleton_self s))
    · rcases hjobs i with heq | hne
      · rw [heq]
        exact hpending i
      · exact hne.2.1

theorem Weak.rest_eq_zero (h : Weak p v) (hs : v.stages j = s ::ₘ rest) : rest = 0 := by
  have hcard := h.single j
  rw [hs, Multiset.card_cons] at hcard
  exact Multiset.card_eq_zero.mp (by omega)

theorem Weak.replace (h : Weak p v) (hs : v.stages j = s ::ₘ rest)
    (hstages : v'.stages = Function.update v.stages j (s' ::ₘ rest))
    (hstatus : v'.status = v.status ∨ (v'.status ≠ some .running ∧ v'.status ≠ some .ready))
    (hjobs : ∀ i, v.Settles v' i) (hqueue : s' = .queued ∨ s' = .popped → s = .queued ∨ s = .popped)
    (hfailed : (∃ c, s = .failed c) → ∃ c, s' = .failed c) : Weak p v' := by
  obtain rfl := h.rest_eq_zero hs
  refine h.change hstatus hjobs (fun i => ?_)
  rw [hstages]
  by_cases hij : i = j
  · subst hij
    exact .inr ⟨s, s', hs, Function.update_self .., hqueue, hfailed⟩
  · exact .inl (Function.update_of_ne hij ..).le

theorem Weak.drop (h : Weak p v) (hs : v.stages j = s ::ₘ rest)
    (hstages : v'.stages = Function.update v.stages j rest)
    (hstatus : v'.status = v.status ∨ (v'.status ≠ some .running ∧ v'.status ≠ some .ready))
    (hjobs : ∀ i, v.Settles v' i) : Weak p v' := by
  refine h.change hstatus hjobs (fun i => .inl ?_)
  rw [hstages]
  by_cases hij : i = j
  · subst hij
    rw [Function.update_self, hs]
    exact Multiset.le_cons_self ..
  · exact (Function.update_of_ne hij ..).le

theorem settles_of_jobStatus {st : JobStatus}
    (hstatus : ∀ i, v'.jobStatus i = if i = j then some st else v.jobStatus i)
    (hst : st ≠ .ready ∧ st ≠ .pending)
    (hactive : st.isActive = true → (v.jobStatus j).any JobStatus.isActive = true) (i : String) :
    v.Settles v' i := by
  by_cases hij : i = j
  · subst hij
    refine .inr ?_
    rw [hstatus, if_pos rfl]
    exact ⟨by simp [hst.1], by simp [hst.2], hactive⟩
  · exact .inl ((hstatus i).trans (if_neg hij))

theorem Shift.keeps (h : Shift v x j s s') :
    (s' = .queued ∨ s' = .popped → s = .queued ∨ s = .popped) ∧
      ((∃ c, s = .failed c) → ∃ c, s' = .failed c) := by
  cases h with
  | dispatch hs => cases hs <;> simp
  | report hs => cases hs <;> simp
  | _ => simp

theorem Weak.claim (h : Weak p v) (hs : v.stages j = .popped ::ₘ rest)
    (hst : v.jobStatus j = some .ready ∨ v.jobStatus j = some .queued) :
    Weak p ({ v with space := v.space.setJobStatus j .pendingExecution }.setStages j
      (.claimed ::ₘ rest)) := by
  have hqueued : v.jobStatus j = some .queued :=
    hst.resolve_left (h.unclaimable j (.inr (hs ▸ Multiset.mem_cons_self ..)))
  refine h.replace hs rfl (.inl rfl) (settles_of_jobStatus (j := j)
    (fun i => setJobStatus_jobStatus ..) ⟨nofun, nofun⟩ (fun _ => ?_)) nofun nofun
  rw [hqueued]
  rfl

theorem Weak.start (h : Weak p v) (hs : v.stages j = .dispatched ::ₘ rest) :
    Weak p ({ v with space := (v.space.trySetJobToRunning now j).2 }.setStages j
      (.ofStart (v.space.trySetJobToRunning now j).1 ::ₘ rest)) := by
  have hready : v.space.status ≠ some .ready := fun hr => by
    obtain ⟨c, hc⟩ := (h.idle hr).1 j .dispatched (hs ▸ Multiset.mem_cons_self ..)
    cases hc
  have hstarted := trySetJobToRunning_started now j v.space
  generalize v.space.trySetJobToRunning now j = r at hstarted ⊢
  obtain ⟨result, ks⟩ := r
  dsimp only at hstarted ⊢
  have hfail : ∀ ks : WorkflowKeyspace,
      (ks.setStatus .failed).status ≠ some .running ∧ (ks.setStatus .failed).status ≠ some .ready :=
    fun ks => by
      rw [show (ks.setStatus .failed).status = some .failed from
        setStatus_status ks .failed]
      exact ⟨nofun, nofun⟩
  have haborted : ∀ i, v.Settles { v with space := v.space.setJobStatus j .aborted } i :=
    settles_of_jobStatus (fun i => setJobStatus_jobStatus ..) ⟨nofun, nofun⟩ nofun
  cases hstarted with
  | canceledBefore => exact h.replace hs rfl (.inl rfl) (fun _ => .inl rfl) nofun nofun
  | wrongJob => exact h.replace hs rfl (.inr (hfail _)) (fun _ => .inl rfl) nofun nofun
  | wrongTime _ hr => exact absurd hr hready
  | first _ hr => exact absurd hr hready
  | again _ hr => exact absurd hr h.closed
  | canceled => exact h.replace hs rfl (.inl rfl) haborted nofun nofun
  | wrongWorkflow => exact h.replace hs rfl (.inr (hfail _)) haborted nofun nofun

theorem Weak.fail (h : Weak p v) {js : List String} (hs : v.stages j = s ::ₘ rest) :
    Weak p (({ v with space := (v.space.completeFailedJob j n js).2 }.setStages j
      (.failed (.ofCompleted (v.space.completeFailedJob j n js).1.workflowCompleted) ::ₘ
        rest)).dropCanceled (v.space.completeFailedJob j n js).1.canceled) := by
  have hfailed : FailedOther j v.space (v.space.completeFailedJob j n js).1
      (v.space.completeFailedJob j n js).2 := completeFailedJob_other n h.closed
  rw [hfailed.canceled]
  refine h.replace hs rfl (.inl ?_) (settles_of_jobStatus (j := j) hfailed.jobStatus
    ⟨nofun, nofun⟩ nofun) nofun (fun _ => ⟨_, rfl⟩)
  exact hfailed.status

theorem Weak.mark (h : Weak p v) :
    Weak p { v with space := v.space.setJobStatus j .aborted } :=
  h.change (.inl rfl) (settles_of_jobStatus (j := j)
    (fun _ => setJobStatus_jobStatus ..) ⟨nofun, nofun⟩ nofun)
    (fun _ => .inl le_rfl)

theorem Weak.retry (h : Weak p v) {st : JobStatus} (hs : v.stages j = .reported st ::ₘ rest) :
    Weak p ((({ v with space := (v.space.scheduleJobRetry j n).2 }.setStages j rest).delay
      j).enqueue (v.space.scheduleJobRetry j n).1) := by
  obtain rfl := h.rest_eq_zero hs
  rw [delay_setStages_zero]
  rcases scheduleJobRetry_cases j n v.space with ⟨heq, -⟩ | ⟨hrun, -⟩
  · rw [heq]
    refine h.replace hs rfl (.inl ?_) (settles_of_jobStatus (j := j)
      (fun i => jobStatus_delayJob ..) ⟨nofun, nofun⟩ nofun) nofun nofun
    exact status_delayJob j n v.space
  · exact absurd hrun h.closed

theorem Weak.promote (h : Weak p v) (hs : v.stages j = .retryHeld ::ₘ rest) :
    Weak p (({ v with space := (v.space.promoteRetryJob j).2 }.setStages j rest).enqueue
      (v.space.promoteRetryJob j).1) := by
  have hpromoted := promoteRetryJob_promoted j v.space
  generalize v.space.promoteRetryJob j = r at hpromoted ⊢
  obtain ⟨q, ks⟩ := r
  dsimp only at hpromoted ⊢
  cases hpromoted with
  | missing => exact h.drop hs rfl (.inl rfl) (fun _ => .inl rfl)
  | stopped =>
      exact h.drop hs rfl (.inl rfl) (settles_of_jobStatus (j := j)
        (fun i => setJobStatus_jobStatus ..) ⟨nofun, nofun⟩ nofun)
  | refused hrun => exact absurd hrun h.closed
  | queued _ hrun => exact absurd hrun h.closed
  | swapped hrun => exact absurd hrun h.closed
  | waiting hrun => exact absurd hrun h.closed

theorem Weak.erased (h : Weak p v) (herased : Erased v v') : Weak p v' := by
  cases herased with
  | job i =>
      refine h.change (.inl rfl) (fun a => ?_) (fun a => .inl le_rfl)
      by_cases ha : a = i
      · subst ha
        refine .inr ?_
        simp [WorkflowView.jobStatus, WorkflowKeyspace.jobStatus]
      · refine .inl ?_
        simp [WorkflowView.jobStatus, WorkflowKeyspace.jobStatus, ha]
  | retry i =>
      refine h.change (.inl rfl) (fun a => .inl rfl) (fun a => .inl ?_)
      by_cases ha : a = i
      · subst ha
        rw [setStages_stages_self]
        exact Multiset.erase_le ..
      · exact (setStages_stages_of_ne _ _ ha).le
  | successors i => exact h.change (.inl rfl) (fun a => .inl rfl) (fun a => .inl le_rfl)
  | payload i => exact h.change (.inl rfl) (fun a => .inl rfl) (fun a => .inl le_rfl)
  | waiting => exact h.change (.inl rfl) (fun a => .inl rfl) (fun a => .inl le_rfl)

/-- A closed workflow stays closed. -/
theorem Weak.step {l : List String} (h : Weak p v) (hstep : WStep x v l v') : Weak p v' := by
  cases hstep with
  | shift hs hshift =>
      exact h.replace hs rfl (.inl rfl) (fun _ => .inl rfl) hshift.keeps.1 hshift.keeps.2
  | lose hs => exact h.drop hs rfl (.inl rfl) (fun _ => .inl rfl)
  | claim _ hs hst => exact h.claim hs hst
  | start _ hs => exact h.start hs
  | expire _ _ hexpired =>
      exact absurd (completeSuccessfulJob_expired hexpired).1 h.closed
  | success _ _ hcounted =>
      exact absurd (completeSuccessfulJob_counted hcounted).1 h.closed
  | fail _ hs => exact h.fail hs
  | mark => exact h.mark
  | retry _ _ hs => exact h.retry hs
  | promote _ hs => exact h.promote hs
  | releaseCounted hs => exact h.replace hs rfl (.inl rfl) (fun _ => .inl rfl) nofun nofun
  | releaseFailed hs =>
      exact h.replace hs rfl (.inl rfl) (fun _ => .inl rfl) nofun (fun _ => ⟨_, rfl⟩)
  | erase _ _ herased => exact h.erased herased
  | deleteCounted hs =>
      exact h.replace hs rfl (.inr ⟨nofun, nofun⟩) (fun _ => .inl rfl) nofun nofun
  | deleteFailed =>
      exact h.change (.inr ⟨nofun, nofun⟩) (fun _ => .inl rfl) (fun _ => .inl le_rfl)

end WeakSteps

theorem Inv.step {p : Plan} {x : Served} {v v' : WorkflowView} {l : List String} (h : Inv p v)
    (hstep : WStep x v l v') : Inv p v' :=
  h.elim (fun hstrong => hstrong.step hstep) (fun hweak => .inr (hweak.step hstep))

end FlowPilot
