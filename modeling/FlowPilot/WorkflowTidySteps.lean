import FlowPilot.WorkflowTidy

/-! Every step keeps a tidy workflow tidy. -/

namespace FlowPilot

open WorkflowKeyspace WorkflowView

theorem Stage.asks_ne {s : Stage} : s.asks ≠ some .ready ∧ s.asks ≠ some .pending := by
  unfold asks
  split <;> exact ⟨nofun, nofun⟩

section Orderly

variable {p : Plan} {L L' l : List String} {x : Served} {v v' : WorkflowView} {i j : String}
  {s : Stage} {st : JobStatus} {ks : WorkflowKeyspace}

theorem WorkflowView.Held.unheld (h : v.Held i)
    (hst : v.jobStatus i = some .ready ∨ v.jobStatus i = some .pending) : v.stages i = 0 := by
  cases h with
  | idle hs => exact hs
  | stranded hs => exact hs
  | busy _ hasks hst' =>
      rcases hst with hst | hst
      · cases hst.symm.trans hst'
        exact absurd hasks Stage.asks_ne.1
      · cases hst.symm.trans hst'
        exact absurd hasks Stage.asks_ne.2

theorem Orderly.mem_ids (h : Orderly p L v) (hst : v.jobStatus i = some st) : i ∈ p.ids :=
  h.known i (fun hnone => by cases hnone.symm.trans hst)

theorem Orderly.waiting_ready (h : Orderly p L v) :
    ∀ k ∈ v.space.waitingReady.members, k ∈ p.ids ∧ v.space.jobStatus k = some .ready := by
  intro k hk
  have hready := (h.waiting k).mp hk
  exact ⟨h.mem_ids hready, hready⟩

/-- A step leaves the job alone, or puts a job of the plan where its record says. -/
inductive Placed (p : Plan) (L L' : List String) (v v' : WorkflowView) (i : String) : Prop where
  | same (hL : i ∈ L' ↔ i ∈ L) (hstages : v'.stages i = v.stages i)
      (hstatus : v'.jobStatus i = v.jobStatus i)
      (hwaiting : i ∈ v'.space.waitingReady.members ↔ i ∈ v.space.waitingReady.members)
      (hwf : i ∈ p.ids → i ∉ L → v.status = some .failed → v'.status = some .failed)
  | moved (hi : i ∈ p.ids) (hleft : i ∈ L' → v'.Left i) (hheld : i ∉ L' → v'.Held i)
      (hwaiting : i ∈ v'.space.waitingReady.members ↔ v'.jobStatus i = some .ready)

theorem Orderly.of_placed (h : Orderly p L v) (hplaced : ∀ i, Placed p L L' v v' i) :
    Orderly p L' v' where
  left := fun i hi => by
    cases hplaced i with
    | same hL hstages hstatus => exact (h.left i (hL.mp hi)).of_eq hstages hstatus
    | moved _ hleft => exact hleft hi
  held := fun i hi hnot => by
    cases hplaced i with
    | same hL hstages hstatus _ hwf =>
        have hnot' := mt hL.mpr hnot
        exact (h.held i hi hnot').of_eq hstages hstatus (hwf hi hnot')
    | moved _ _ hheld => exact hheld hnot
  waiting := fun i => by
    cases hplaced i with
    | same _ _ hstatus hwaiting =>
        rw [hwaiting, hstatus]
        exact h.waiting i
    | moved _ _ _ hwaiting => exact hwaiting
  known := fun i hi => by
    cases hplaced i with
    | same _ _ hstatus => exact h.known i (hstatus ▸ hi)
    | moved hids => exact hids

theorem Orderly.change (h : Orderly p L v) (hL : ∀ i, i ≠ j → (i ∈ L' ↔ i ∈ L))
    (hstages : ∀ i, i ≠ j → v'.stages i = v.stages i)
    (hstatus : ∀ i, i ≠ j → v'.jobStatus i = v.jobStatus i)
    (hwaiting : v'.space.waitingReady = v.space.waitingReady)
    (hready : v.jobStatus j ≠ some .ready) (hready' : v'.jobStatus j ≠ some .ready)
    (hwf : v.status = some .failed → v'.status = some .failed) (hj : j ∈ p.ids)
    (hleft : j ∈ L' → v'.Left j) (hheld : j ∉ L' → v'.Held j) : Orderly p L' v' := by
  refine h.of_placed (fun i => ?_)
  by_cases hij : i = j
  · subst hij
    refine .moved hj hleft hheld ?_
    rw [hwaiting, h.waiting i]
    exact ⟨fun hr => absurd hr hready, fun hr => absurd hr hready'⟩
  · exact .same (hL i hij) (hstages i hij) (hstatus i hij) (by rw [hwaiting]) (fun _ _ => hwf)

theorem Orderly.setJob (h : Orderly p L v) {m : Multiset Stage} (hj : j ∈ p.ids)
    (hL : ∀ i, i ≠ j → (i ∈ L' ↔ i ∈ L))
    (hstatus : ∀ i, ks.jobStatus i = if i = j then some st else v.jobStatus i)
    (hwaiting : ks.waitingReady = v.space.waitingReady) (hready : v.jobStatus j ≠ some .ready)
    (hst : st ≠ .ready) (hwf : v.status = some .failed → ks.status = some .failed)
    (hleft : j ∈ L' → (m = 0 ∧ st.isTerminal = true) ∨ ∃ s, m = {s} ∧ s.leaves st = true)
    (hheld : j ∉ L' → (m = 0 ∧ st = .aborted ∧ ks.status = some .failed) ∨
      ∃ s, m = {s} ∧ s.asks = some st) :
    Orderly p L' ({ v with space := ks }.setStages j m) := by
  have hself : ({ v with space := ks }.setStages j m).jobStatus j = some st :=
    (hstatus j).trans (if_pos rfl)
  have hm : ({ v with space := ks }.setStages j m).stages j = m :=
    setStages_stages_self ..
  refine h.change hL (fun i hij => setStages_stages_of_ne _ _ hij)
    (fun i hij => (hstatus i).trans (if_neg hij)) hwaiting hready (fun hr => ?_) hwf hj
    (fun hmem => ?_) (fun hnot => ?_)
  · exact hst (Option.some.inj (hself.symm.trans hr))
  · rcases hleft hmem with ⟨rfl, hdone⟩ | ⟨s, rfl, hleaves⟩
    · refine .gone hm (fun st' hst' => ?_)
      cases hself.symm.trans hst'
      exact hdone
    · exact .kept hm hleaves (.inl hself)
  · rcases hheld hnot with ⟨rfl, rfl, hfailed⟩ | ⟨s, rfl, hasks⟩
    · exact .stranded hm hself hfailed
    · exact .busy hm hasks hself

theorem Orderly.promoteWaiting (h : Orderly p L v) :
    Orderly p L ({ v with space := v.space.promoteWaiting.2 }.enqueue v.space.promoteWaiting.1) := by
  rcases v.space.promoteWaiting_cases with ⟨heq, -⟩ | ⟨k, n, hk, heq⟩
  · rw [heq]
    exact h
  · rw [heq]
    obtain ⟨hids, hready⟩ := h.waiting_ready k hk
    have hnot : k ∉ L := fun hmem => by cases (h.left k hmem).done hready
    have hview : { v with space := v.space.queueWaiting k }.enqueue (some (k, n)) =
        { v with space := v.space.queueWaiting k }.setStages k {Stage.queued} := by
      rw [WorkflowView.enqueue, (h.held k hids hnot).unheld (.inl hready),
        if_neg (Multiset.notMem_zero _)]
      rfl
    rw [hview]
    refine h.of_placed (fun i => ?_)
    have hstatus := jobStatus_queueWaiting v.space k i
    have hwaiting : i ∈ (v.space.queueWaiting k).waitingReady.members ↔
        i ∈ v.space.waitingReady.members ∧ i ≠ k := SortedSet.mem_members_remove ..
    by_cases hik : i = k
    · subst hik
      have hqueued := hstatus.trans (if_pos rfl)
      refine .moved hids (fun hmem => absurd hmem hnot)
        (fun _ => .busy (setStages_stages_self ..) rfl hqueued) ?_
      exact ⟨fun hmem => absurd rfl (hwaiting.mp hmem).2, fun hr => by cases hqueued.symm.trans hr⟩
    · exact .same Iff.rfl (setStages_stages_of_ne _ _ hik) (hstatus.trans (if_neg hik))
        (hwaiting.trans (and_iff_left hik))
        (fun _ _ hf => (status_queueWaiting v.space k).trans hf)

theorem Orderly.waitAgain (h : Orderly p L v) (hj : j ∈ p.ids) (hnot : j ∉ L) :
    Orderly p L ({ v with space := v.space.waitAgain j }.setStages j 0) := by
  refine h.of_placed (fun i => ?_)
  have hstatus : (v.space.waitAgain j).jobStatus i = if i = j then some .ready else v.jobStatus i :=
    jobStatus_waitAgain j i v.space
  have hwaiting : i ∈ (v.space.waitAgain j).waitingReady.members ↔
      i = j ∨ i ∈ v.space.waitingReady.members := SortedSet.mem_members_add ..
  by_cases hij : i = j
  · subst hij
    have hready := hstatus.trans (if_pos rfl)
    exact .moved hj (fun hmem => absurd hmem hnot)
      (fun _ => .idle (setStages_stages_self ..) (.inr hready))
      ⟨fun _ => hready, fun _ => hwaiting.mpr (.inl rfl)⟩
  · exact .same Iff.rfl (setStages_stages_of_ne _ _ hij) (hstatus.trans (if_neg hij))
      (hwaiting.trans (or_iff_right hij)) (fun _ _ => id)

theorem Orderly.finish (h : Orderly p L v) {ready advanced : List String} {c : Closing}
    (hj : j ∈ p.ids) (hst : v.jobStatus j = some .running) (hrun : v.status = some .running)
    (hfinished : Finished j v.space ready ks) {ks' : WorkflowKeyspace} (hsame : SameJobs ks ks') :
    Orderly p (L ++ [j]) ({ v with space := ks' }.setStages j {Stage.counted c advanced}) := by
  refine h.of_placed (fun i => ?_)
  have hwaiting : i ∈ ks'.waitingReady.members ↔ v.jobStatus i = some .ready ∨
      (i ≠ j ∧ i ∈ v.space.successors j ∧ v.space.LastOpen i) := by
    rw [hsame.waiting, hfinished.waiting i, h.waiting i]
  by_cases hij : i = j
  · subst hij
    have hself : ks'.jobStatus i = some .completed := (hsame.jobStatus i).trans hfinished.self
    refine .moved hj (fun _ => .kept (setStages_stages_self ..) rfl (.inl hself))
      (fun hnot => absurd (List.mem_append_right _ (List.mem_singleton_self _)) hnot)
      (hwaiting.trans ?_)
    change _ ↔ ks'.jobStatus i = _
    rw [hself, hst]
    simp
  · have hother := (hsame.jobStatus i).trans (hfinished.jobStatus i hij)
    have hL : i ∈ L ++ [j] ↔ i ∈ L := by simp [hij]
    have hkeep : ({ v with space := ks' }.setStages j {Stage.counted c advanced}).stages i =
      v.stages i := setStages_stages_of_ne _ _ hij
    by_cases hlast : i ∈ v.space.successors j ∧ v.space.LastOpen i
    · -- a PENDING job has not been counted, and nobody holds it
      have hids : i ∈ p.ids := h.mem_ids hlast.2.1
      have hnot : i ∉ L := fun hmem => by cases (h.left i hmem).done hlast.2.1
      have hready := hother.trans (if_pos hlast)
      have hzero := (h.held i hids hnot).unheld (.inr hlast.2.1)
      exact .moved hids (fun hmem => absurd (hL.mp hmem) hnot)
        (fun _ => .idle (hkeep.trans hzero) (.inr hready))
        ⟨fun _ => hready, fun _ => hwaiting.mpr (.inr ⟨hij, hlast⟩)⟩
    · refine .same hL hkeep (hother.trans (if_neg hlast)) (hwaiting.trans ?_)
        (fun _ _ hf => by cases hf.symm.trans hrun)
      rw [h.waiting i]
      exact or_iff_left (fun hand => hlast hand.2)

end Orderly

section Cancellation

theorem WorkflowView.dropCanceled_of_mem {canceled : List (String × JobStatus)} {i : String}
    {st : JobStatus} (hnodup : (canceled.map Prod.fst).Nodup) (hmem : (i, st) ∈ canceled)
    (v : WorkflowView) : (v.dropCanceled canceled).stages i =
      if st = .queued then (v.stages i).erase .queued
      else if st = .retryDelay then (v.stages i).erase .retryWait else v.stages i := by
  induction canceled generalizing v with
  | nil => cases hmem
  | cons c rest ih =>
      obtain ⟨k, st'⟩ := c
      rw [List.map_cons, List.nodup_cons] at hnodup
      have hother := fun w => (dropCanceled_dropped rest w).other
      rw [dropCanceled, List.foldl_cons, ← dropCanceled]
      dsimp only
      rcases List.mem_cons.mp hmem with heq | hrest
      · cases heq
        rw [hother _ i hnodup.1]
        by_cases hq : st = .queued
        · rw [if_pos hq, if_pos hq, setStages_stages_self]
        · rw [if_neg hq, if_neg hq]
          by_cases hr : st = .retryDelay
          · rw [if_pos hr, if_pos hr, setStages_stages_self]
          · rw [if_neg hr, if_neg hr]
      · have hik : i ≠ k := by
          rintro rfl
          exact hnodup.1 (List.mem_map.mpr ⟨(i, st), hrest, rfl⟩)
        rw [ih hnodup.2 hrest]
        have hsame : (if st' = .queued then v.setStages k ((v.stages k).erase .queued)
            else if st' = .retryDelay then v.setStages k ((v.stages k).erase .retryWait)
            else v).stages i = v.stages i := by
          split
          · exact setStages_stages_of_ne _ _ hik
          · split
            · exact setStages_stages_of_ne _ _ hik
            · rfl
        rw [hsame]

variable {p : Plan} {L : List String} {v : WorkflowView} {j : String} {st : JobStatus}

theorem WorkflowView.Held.cancel (h : v.Held j) (hst : v.jobStatus j = some st)
    (hwait : st.isWaitingToRun = true) {v' : WorkflowView}
    (hstages : v'.stages j = if st = .queued then (v.stages j).erase .queued
      else if st = .retryDelay then (v.stages j).erase .retryWait else v.stages j)
    (haborted : v'.jobStatus j = some .aborted) : v'.Left j := by
  have hgone : v'.stages j = 0 → v'.Left j := fun hzero =>
    .gone hzero (fun st' hst' => by
      cases haborted.symm.trans hst'
      rfl)
  cases h with
  | idle hs hidle =>
      refine hgone (hstages.trans ?_)
      rw [hs]
      rcases hidle with hidle | hidle <;> cases hst.symm.trans hidle <;> rfl
  | stranded _ hst' =>
      cases hst.symm.trans hst'
      cases hwait
  | @busy s st' hs hasks hst' =>
      cases hst.symm.trans hst'
      cases s with
      | queued | retryWait =>
          cases hasks
          refine hgone (hstages.trans ?_)
          rw [hs]
          rfl
      | popped =>
          cases hasks
          refine .kept (s := .popped) (hstages.trans ?_) (by rfl) (.inl haborted)
          rw [hs]
          rfl
      | retryHeld =>
          cases hasks
          refine .kept (s := .retryHeld) (hstages.trans ?_) (by rfl) (.inl haborted)
          rw [hs]
          rfl
      | reported r | listing r => cases r <;> cases hasks <;> cases hwait
      | _ => cases hasks <;> cases hwait

/-- The jobs that the failure script neither fails nor cancels keep their holder and their status. -/
theorem FailedRunning.untouched {jobIds : List String} {c : Closing}
    {outcome : FailureOutcome} {ks : WorkflowKeyspace}
    (hfailed : FailedRunning j jobIds v.space outcome ks) (hij : i ≠ j)
    (hnot : i ∉ outcome.canceled.map Prod.fst) :
    (({ v with space := ks }.setStages j {Stage.failed c}).dropCanceled outcome.canceled).stages i =
      v.stages i ∧
    (({ v with space := ks }.setStages j {Stage.failed c}).dropCanceled
      outcome.canceled).jobStatus i = v.jobStatus i ∧
    (i ∈ jobIds → ∀ st, v.jobStatus i = some st → st.isWaitingToRun = false) := by
  have hkept : i ∈ jobIds → ∀ st, v.jobStatus i = some st → st.isWaitingToRun = false := by
    intro hi st hst
    refine Bool.eq_false_iff.mpr (fun hwait => hnot ?_)
    exact List.mem_map.mpr ⟨(i, st), (hfailed.mem i st).mpr ⟨hi, hij, hst, hwait⟩, rfl⟩
  refine ⟨((dropCanceled_dropped ..).other i hnot).trans (setStages_stages_of_ne _ _ hij), ?_,
    hkept⟩
  rw [WorkflowView.jobStatus, dropCanceled_space]
  refine (hfailed.jobStatus i hij).trans (if_neg ?_)
  rintro ⟨hi, hany⟩
  obtain ⟨st, hst, hwait⟩ := (Option.any_eq_true _ _).mp hany
  cases hwait.symm.trans (hkept hi st hst)

/-- A job of a running workflow fails, and its siblings that have not started are canceled. -/
theorem Orderly.fail (h : Orderly p L v) {jobIds : List String} {c : Closing}
    {outcome : FailureOutcome} {ks : WorkflowKeyspace} (hj : j ∈ p.ids)
    (hrun : v.status = some .running) (hready : v.jobStatus j ≠ some .ready)
    (hfailed : FailedRunning j jobIds v.space outcome ks)
    (hwaiting : ∀ i, i ∈ ks.waitingReady.members ↔ i ∈ v.space.waitingReady.members ∧
      ¬ (i ∈ jobIds ∧ v.space.Cancelable j i)) :
    Orderly p (L ++ (j :: outcome.canceled.map Prod.fst))
      (({ v with space := ks }.setStages j {Stage.failed c}).dropCanceled outcome.canceled) := by
  have hdropped := dropCanceled_dropped outcome.canceled
    ({ v with space := ks }.setStages j {Stage.failed c})
  have hkeep := fun i hij hnot => FailedRunning.untouched (c := c) (i := i) hfailed hij hnot
  have hexact := fun i st (hmem : (i, st) ∈ outcome.canceled) =>
    dropCanceled_of_mem hfailed.nodup hmem
      ({ v with space := ks }.setStages j {Stage.failed c})
  generalize ({ v with space := ks }.setStages j {Stage.failed c}).dropCanceled outcome.canceled =
    v' at hdropped hexact hkeep ⊢
  have hspace : v'.space = ks := hdropped.space
  have hself : v'.jobStatus j = some .failed := by
    rw [WorkflowView.jobStatus, hspace]
    exact hfailed.self
  have hstatus : ∀ i, i ≠ j → v'.jobStatus i =
      if i ∈ jobIds ∧ (v.jobStatus i).any JobStatus.isWaitingToRun = true then some .aborted
      else v.jobStatus i := by
    intro i hij
    rw [WorkflowView.jobStatus, hspace]
    exact hfailed.jobStatus i hij
  have hmem : ∀ i, i ∈ outcome.canceled.map Prod.fst ↔
      i ≠ j ∧ i ∈ jobIds ∧ (v.jobStatus i).any JobStatus.isWaitingToRun = true := by
    intro i
    constructor
    · intro hi
      obtain ⟨⟨k, st⟩, hk, rfl⟩ := List.mem_map.mp hi
      obtain ⟨hjs, hne, hst, hwait⟩ := (hfailed.mem k st).mp hk
      refine ⟨hne, hjs, ?_⟩
      rw [WorkflowView.jobStatus, hst]
      exact hwait
    · rintro ⟨hne, hjs, hany⟩
      obtain ⟨st, hst, hwait⟩ := (Option.any_eq_true _ _).mp hany
      exact List.mem_map.mpr ⟨(i, st), (hfailed.mem i st).mpr ⟨hjs, hne, hst, hwait⟩, rfl⟩
  refine h.of_placed (fun i => ?_)
  by_cases hij : i = j
  · subst hij
    refine .moved hj (fun _ => .kept (s := .failed c) ?_ (by rfl) (.inl hself))
      (fun hnot => absurd (List.mem_append_right _ (List.mem_cons_self ..)) hnot) ?_
    · exact (hdropped.other i (fun hc => ((hmem i).mp hc).1 rfl)).trans (setStages_stages_self ..)
    · rw [hspace, hwaiting i, h.waiting i, hself]
      exact ⟨fun hr => absurd hr.1 hready, (by simp)⟩
  · by_cases hcanceled : i ∈ outcome.canceled.map Prod.fst
    · obtain ⟨⟨k, st⟩, hk, rfl⟩ := List.mem_map.mp hcanceled
      obtain ⟨hjs, hne, hst, hwait⟩ := (hfailed.mem k st).mp hk
      have hids : k ∈ p.ids := h.mem_ids hst
      have hnot : k ∉ L := fun hmem => by
        have hdone := (h.left k hmem).done hst
        rw [JobStatus.not_isTerminal_of_isWaitingToRun hwait] at hdone
        cases hdone
      have haborted := (hstatus k hne).trans (if_pos ((hmem k).mp hcanceled).2)
      refine .moved hids (fun _ => (h.held k hids hnot).cancel hst hwait ?_ haborted)
        (fun hnot => absurd (List.mem_append_right _ (List.mem_cons_of_mem _ hcanceled)) hnot) ?_
      · rw [hexact k st hk, setStages_stages_of_ne _ _ hne]
      · rw [hspace, hwaiting k, haborted]
        exact ⟨fun hr => absurd ⟨hjs, hne, ((hmem k).mp hcanceled).2.2⟩ hr.2, (by simp)⟩
    · obtain ⟨hstages, hsame, hkept⟩ := hkeep i hij hcanceled
      refine .same (by simp [hij, hcanceled]) hstages hsame ?_
        (fun _ _ hf => by cases hf.symm.trans hrun)
      rw [hspace, hwaiting i]
      exact and_iff_left (fun hc => hcanceled ((hmem i).mpr ⟨hij, hc.1, hc.2.2⟩))

end Cancellation

section OrderlyStep

variable {p : Plan} {L l : List String} {x : Served} {v v' : WorkflowView} {i j : String}
  {s : Stage} {st : JobStatus} {rest : Multiset Stage}

theorem Tidy.mem_ids (h : Tidy p L v) (hs : v.stages j = {s}) : j ∈ p.ids :=
  h.inv.mem_ids (hs.trans (Multiset.cons_zero s).symm)

theorem Tidy.leaves (h : Tidy p L v) (hs : v.stages j = {s}) (hasks : s.asks = none) :
    ∃ st, s.leaves st = true ∧ (v.jobStatus j = some st ∨ v.jobStatus j = none) :=
  (h.settled (hs.trans (Multiset.cons_zero s).symm) hasks).2.2

theorem Counted.mem_of_full (h : Counted p L v) (hfull : L.length = p.ids.length)
    (hj : j ∈ p.ids) : j ∈ L := by
  by_contra hnot
  exact Nat.lt_irrefl _ (hfull ▸ h.lt_of_not_mem hj hnot)

theorem Tidy.not_ready (h : Tidy p L v) (hj : j ∈ L) : v.jobStatus j ≠ some .ready :=
  fun hready => by cases (h.orderly.left j hj).done hready

theorem Tidy.not_ready_of_full (h : Tidy p L v) (hfull : L.length = p.ids.length) (j : String) :
    v.jobStatus j ≠ some .ready := fun hready => by
  exact h.not_ready (h.counted.mem_of_full hfull (h.orderly.mem_ids hready)) hready

/-- The holder of a counted job passes to another stage, and nothing is written to the job. -/
theorem Tidy.restage (h : Tidy p L v) (hj : j ∈ L) (hstages : ∀ i, i ≠ j → v'.stages i = v.stages i)
    (hjobs : v'.space.jobs = v.space.jobs) (hwaiting : v'.space.waitingReady = v.space.waitingReady)
    (hwf : v.status = some .failed → v'.status = some .failed ∨ L.length = p.ids.length)
    (hleft : v'.Left j) : Orderly p (L ++ []) v' := by
  rw [List.append_nil]
  have hsame : ∀ i, v'.jobStatus i = v.jobStatus i := fun i => by
    simp only [WorkflowView.jobStatus, WorkflowKeyspace.jobStatus, hjobs]
  refine h.orderly.of_placed (fun i => ?_)
  by_cases hij : i = j
  · subst hij
    refine .moved (h.counted.spent i hj).1 (fun _ => hleft) (fun hnot => absurd hj hnot) ?_
    rw [hwaiting, hsame]
    exact h.orderly.waiting i
  · refine .same Iff.rfl (hstages i hij) (hsame i) (by rw [hwaiting]) (fun hi hnot hf => ?_)
    rcases hwf hf with hf' | hfull
    · exact hf'
    · exact absurd (h.counted.mem_of_full hfull hi) hnot

theorem Tidy.restage_leaves (h : Tidy p L v) {s' : Stage} (hj : j ∈ L) (hs : v.stages j = {s})
    (hasks : s.asks = none) (hsame : ∀ st, s'.leaves st = s.leaves st)
    (hstages : ∀ i, v'.stages i = v.stages i) (hjobs : v'.space.jobs = v.space.jobs)
    (hwaiting : v'.space.waitingReady = v.space.waitingReady)
    (hwf : v.status = some .failed → v'.status = some .failed ∨ L.length = p.ids.length) :
    Orderly p (L ++ []) (v'.setStages j {s'}) := by
  refine h.restage hj (fun i hij => (setStages_stages_of_ne _ _ hij).trans (hstages i)) hjobs
    hwaiting hwf ?_
  obtain ⟨st, hleaves, hst⟩ := h.leaves hs hasks
  refine .kept (setStages_stages_self ..) ((hsame st).trans hleaves) ?_
  simpa only [WorkflowView.jobStatus, WorkflowKeyspace.jobStatus, WorkflowView.setStages, hjobs]
    using hst

/-- A job that has not been counted takes a status and a holder that go together. -/
theorem Tidy.place (h : Tidy p L v) {ks : WorkflowKeyspace} {s' : Stage} {st' : JobStatus}
    (hj : j ∉ L) (hs : v.stages j = {s}) (hst : v.jobStatus j = some st) (hready : st ≠ .ready)
    (hstatus : ∀ i, ks.jobStatus i = if i = j then some st' else v.jobStatus i)
    (hwaiting : ks.waitingReady = v.space.waitingReady)
    (hwf : v.status = some .failed → ks.status = some .failed) (hasks : s'.asks = some st') :
    Orderly p (L ++ []) ({ v with space := ks }.setStages j {s'}) := by
  rw [List.append_nil]
  exact h.orderly.setJob (h.mem_ids hs) (fun _ _ => Iff.rfl) hstatus hwaiting
    (fun hr => hready (Option.some.inj (hst.symm.trans hr)))
    (fun heq => Stage.asks_ne.1 (heq ▸ hasks)) hwf (fun hmem => absurd hmem hj)
    (fun _ => .inr ⟨_, rfl, hasks⟩)

/-- Once all jobs are counted the cleanup may delete any of the keys. -/
theorem Tidy.erase (h : Tidy p L v) (hfull : L.length = p.ids.length) (herased : Erased v v') :
    Orderly p L v' := by
  have hheld : ∀ i ∈ p.ids, i ∉ L → v'.Held i := fun i hi hnot =>
    absurd (h.counted.mem_of_full hfull hi) hnot
  have hwaiting : ∀ i, i ∈ v.space.waitingReady.members ↔ v.jobStatus i = some .ready :=
    h.orderly.waiting
  cases herased with
  | job k =>
      have hjob : ∀ i, WorkflowView.jobStatus { v with space :=
          { v.space with jobs := Function.update v.space.jobs k none } } i =
            if i = k then none else v.jobStatus i := by
        intro i
        by_cases hik : i = k
        · subst hik
          simp [WorkflowView.jobStatus, WorkflowKeyspace.jobStatus]
        · simp [WorkflowView.jobStatus, WorkflowKeyspace.jobStatus, hik]
      refine ⟨fun i hi => ?_, hheld, fun i => ?_, fun i hi => ?_⟩
      · by_cases hik : i = k
        · have hnone := (hjob i).trans (if_pos hik)
          cases h.orderly.left i hi with
          | gone hs => exact .gone hs (fun st hst => by cases hnone.symm.trans hst)
          | kept hs hleaves => exact .kept hs hleaves (.inr hnone)
        · exact (h.orderly.left i hi).of_eq rfl ((hjob i).trans (if_neg hik))
      · refine (hwaiting i).trans ?_
        rw [hjob i]
        split
        · exact ⟨fun hr => absurd hr (h.not_ready_of_full hfull i), (by simp)⟩
        · rfl
      · rw [hjob i] at hi
        split at hi
        · exact absurd rfl hi
        · exact h.orderly.known i hi
  | retry k =>
      refine ⟨fun i hi => ?_, hheld, hwaiting, h.orderly.known⟩
      refine (h.orderly.left i hi).of_eq ?_ rfl
      by_cases hik : i = k
      · subst hik
        rw [setStages_stages_self, Multiset.erase_of_notMem]
        intro hmem
        cases h.orderly.left i hi with
        | gone hs => exact absurd (hs ▸ hmem) (Multiset.notMem_zero _)
        | kept hs hleaves =>
            cases Multiset.mem_singleton.mp (hs ▸ hmem)
            cases hleaves
      · exact setStages_stages_of_ne _ _ hik
  | successors | payload =>
      exact ⟨fun i hi => (h.orderly.left i hi).of_eq rfl rfl, hheld, hwaiting, h.orderly.known⟩
  | waiting =>
      refine ⟨fun i hi => (h.orderly.left i hi).of_eq rfl rfl, hheld, fun i => ?_, h.orderly.known⟩
      exact ⟨(by simp), fun hr => absurd hr (h.not_ready_of_full hfull i)⟩

/-- Every tidy step leaves the jobs with the holders that their statuses ask for. -/
theorem Tidy.orderly_step (h : Tidy p L v) (hstep : TidyStep p L x v l v') :
    Orderly p (L ++ l) v' := by
  have hL : ∀ j : String, ∀ i, i ≠ j → (i ∈ L ↔ i ∈ L) := fun _ _ _ => Iff.rfl
  have hL' : ∀ j : String, ∀ i, i ≠ j → (i ∈ L ++ [j] ↔ i ∈ L) := fun j i hij => by simp [hij]
  have hself : ∀ j : String, j ∈ L ++ [j] := fun j => by simp
  cases hstep with
  | @move j s s' st hj hs hasks hasks' hst =>
      have hready : v.jobStatus j ≠ some .ready := fun hr => by
        rw [hst] at hr
        exact Stage.asks_ne.1 (hasks.trans hr)
      rw [List.append_nil]
      refine h.orderly.change (hL j) (fun i hij => setStages_stages_of_ne _ _ hij)
        (fun i _ => rfl) rfl hready hready id (h.mem_ids hs) (fun hmem => absurd hmem hj)
        (fun _ => .busy (setStages_stages_self ..) hasks' hst)
  | @drop j s hj hs =>
      refine h.restage hj (fun i hij => setStages_stages_of_ne _ _ hij) rfl rfl .inl ?_
      exact .gone (setStages_stages_self ..) (fun st hst =>
        (h.orderly.left j hj).done hst)
  | claim hx hj hs hst | cancel hx hj hs hst =>
      exact h.place hj hs hst nofun (fun i => setJobStatus_jobStatus ..) rfl id rfl
  | first hx hj hs hst hwf hcounters hsame =>
      exact h.place hj hs hst nofun (fun i => (hsame.jobStatus i).trans (jobStatus_setJob ..))
        hsame.waiting (fun hf => by cases hf.symm.trans hwf) rfl
  | again hx hj hs hst hwf =>
      exact h.place hj hs hst nofun (fun i => jobStatus_setJob ..) rfl id rfl
  | @expire j now hx hj hs hst hwf =>
      rw [List.append_nil]
      have hready : v.jobStatus j ≠ some .ready := fun hr => by cases hst.symm.trans hr
      exact h.orderly.change (hL j) (fun i hij => setStages_stages_of_ne _ _ hij)
        (fun i _ => rfl) rfl hready hready (fun _ => rfl) (h.mem_ids hs)
        (fun hmem => absurd hmem hj)
        (fun _ => .busy (setStages_stages_self ..) rfl hst)
  | last hx hj hs hst hwf hfinished =>
      exact h.orderly.finish (h.mem_ids hs) hst hwf hfinished ⟨rfl, rfl, rfl, rfl⟩
  | success hx hj hs hst hwf hfinished =>
      exact h.orderly.finish (h.mem_ids hs) hst hwf hfinished ⟨rfl, rfl, rfl, rfl⟩
  | @successPromote j now ks ready hx hj hs hst hwf hfinished _ _ _ advanced =>
      have hdone : Orderly p (L ++ [j])
          ({ v with space := ks.countCompleted }.setStages j {Stage.counted .no advanced}) :=
        h.orderly.finish (h.mem_ids hs) hst hwf hfinished ⟨rfl, rfl, rfl, rfl⟩
      exact hdone.promoteWaiting
  | fail hx hj hs hst hwf hfailed _ hwaiting =>
      exact h.orderly.fail (h.mem_ids hs) hwf (fun hr => by cases hst.symm.trans hr) hfailed hwaiting
  | @failAgain j jobIds st st' n outcome ks hx hj hs hst hkind hwf hfailed =>
      refine h.orderly.setJob (h.mem_ids hs) (hL' j) hfailed.jobStatus hfailed.waiting
        (fun hr => ?_) nofun (fun hf => hfailed.status.trans hf) (fun _ => .inr ⟨_, rfl, rfl⟩)
        (fun hnot => absurd (hself j) hnot)
      cases hst.symm.trans hr
      rcases hkind with hkind | hkind <;> cases hkind
  | retry hx hj hs hst =>
      exact h.place hj hs hst nofun (fun i => jobStatus_delayJob ..) rfl
        (fun hf => (status_delayJob ..).trans hf) rfl
  | retryPromote hx hj hs hst =>
      refine Orderly.promoteWaiting (v := { v with space := v.space.delayJob _ _ }.setStages _ _) ?_
      exact h.place hj hs hst nofun (fun i => jobStatus_delayJob ..) rfl
        (fun hf => (status_delayJob ..).trans hf) rfl
  | requeue hx hj hs hst =>
      exact h.place hj hs hst nofun (fun i => setJobStatus_jobStatus ..) rfl
        (fun hf => (status_queueRetry ..).trans hf) rfl
  | wait hx hj hs =>
      rw [List.append_nil]
      exact h.orderly.waitAgain (h.mem_ids hs) hj
  | waitPromote hx hj hs =>
      rw [List.append_nil]
      exact (h.orderly.waitAgain (h.mem_ids hs) hj).promoteWaiting
  | @strand j hx hj hs hst hwf =>
      rw [List.append_nil]
      exact h.orderly.setJob (h.mem_ids hs) (hL j)
        (fun i => setJobStatus_jobStatus ..) rfl
        (fun hr => by cases hst.symm.trans hr) nofun id (fun hmem => absurd hmem hj)
        (fun _ => .inl ⟨rfl, rfl, hwf⟩)
  | @abort j hj hs hst =>
      rw [List.append_nil]
      exact h.orderly.setJob (h.mem_ids hs) (hL j)
        (fun i => setJobStatus_jobStatus ..) rfl (h.not_ready hj) nofun id
        (fun _ => .inl ⟨rfl, rfl⟩) (fun hnot => absurd hj hnot)
  | @mark j c _ hj hs =>
      rw [List.append_nil]
      have hst : WorkflowView.jobStatus { v with space := v.space.setJobStatus j .aborted } j =
          some .aborted := (setJobStatus_jobStatus ..).trans (if_pos rfl)
      exact h.orderly.change (hL j) (fun i _ => rfl)
        (fun i hij => (setJobStatus_jobStatus ..).trans (if_neg hij)) rfl
        (h.not_ready hj) (fun hr => by cases hst.symm.trans hr) id (h.mem_ids hs)
        (fun _ => .kept hs (by rfl) (.inl hst)) (fun hnot => absurd hj hnot)
  | releaseCounted hj hs | releaseFailed hj hs =>
      exact h.restage_leaves hj hs rfl (fun _ => rfl) (fun _ => rfl) rfl rfl .inl
  | erase _ _ hfull herased =>
      rw [List.append_nil]
      exact h.erase hfull herased
  | deleteCounted hj hs hfull =>
      exact h.restage_leaves hj hs rfl (fun _ => rfl) (fun _ => rfl) rfl rfl (fun _ => .inr hfull)
  | @deleteFailed j hj hs hfull =>
      exact h.restage hj (fun i _ => rfl) rfl rfl (fun _ => .inr hfull)
        ((h.orderly.left j hj).of_eq rfl rfl)

end OrderlyStep

section Slots

variable {p : Plan} {L l : List String} {x : Served} {v v' : WorkflowView} {i j : String}
  {st st' : JobStatus} {ks ks' : WorkflowKeyspace}

/-- The script takes a job out of the slots without giving its slot back, or gives back one slot for
several jobs. -/
def Leaks (x : Served) (v : WorkflowView) : Prop :=
  match x.label with
  | .fail j _ _ => (v.status = some .running ∧ ∃ i, i ≠ j ∧ v.jobStatus i = some .queued) ∨
      (v.status = some .failed ∧ v.jobStatus j = some .running)
  | .start j _ => v.status = some .failed ∧ v.jobStatus j = some .pendingExecution
  | _ => False

theorem SlotsExact.congr (h : SlotsExact p ks) (hreserved : ks'.counters.reserved = ks.counters.reserved)
    (hactive : ∀ i, (ks'.jobStatus i).any JobStatus.isActive =
      (ks.jobStatus i).any JobStatus.isActive) : SlotsExact p ks' := by
  rw [SlotsExact, hreserved, p.tally_congr hactive]
  exact h

theorem SlotsExact.setJob (h : SlotsExact p ks) (hj : j ∈ p.ids) (hst : ks.jobStatus j = some st)
    (hstatus : ∀ i, ks'.jobStatus i = if i = j then some st' else ks.jobStatus i)
    (hreserved : ks'.counters.reserved + st.isActive.toNat =
      ks.counters.reserved + st'.isActive.toNat) : SlotsExact p ks' := by
  have hoff : ∀ i, i ≠ j → (ks'.jobStatus i).any JobStatus.isActive =
      (ks.jobStatus i).any JobStatus.isActive := fun i hi => by rw [hstatus i, if_neg hi]
  have hcount := p.tally_of_eq_off hj hoff
  rw [hstatus j, if_pos rfl, hst] at hcount
  rw [SlotsExact] at h ⊢
  simp only [Option.any_some] at hcount
  omega

theorem SlotsExact.promoteWaiting (h : SlotsExact p ks)
    (hwaiting : ∀ k ∈ ks.waitingReady.members, k ∈ p.ids ∧ ks.jobStatus k = some .ready) :
    SlotsExact p ks.promoteWaiting.2 := by
  refine promoteWaiting_rule h (fun k hk => ?_)
  refine h.setJob (hwaiting k hk).1 (hwaiting k hk).2 (jobStatus_queueWaiting ks k) ?_
  rw [counters_queueWaiting]
  simp [JobStatus.isActive]

theorem SlotsExact.pos (h : SlotsExact p ks) (hj : j ∈ p.ids) (hst : ks.jobStatus j = some st)
    (hactive : st.isActive = true) : 0 < ks.counters.reserved := by
  have hpos : 0 < p.tally JobStatus.isActive ks := p.tally_pos hj (by rw [hst]; exact hactive)
  rw [SlotsExact] at h
  omega

theorem SlotsExact.setStatus (h : SlotsExact p ks) (s : WorkflowStatus) :
    SlotsExact p (ks.setStatus s) :=
  h.congr (by rw [counters_setStatus]) (fun _ => rfl)

theorem SlotsExact.setJobStatus (h : SlotsExact p ks) (hj : j ∈ p.ids)
    (hst : ks.jobStatus j = some st) (hkind : st'.isActive = st.isActive) :
    SlotsExact p (ks.setJobStatus j st') := by
  refine h.setJob hj hst (fun i => setJobStatus_jobStatus ..) ?_
  rw [hkind]
  rfl

theorem SlotsExact.delayJob (h : SlotsExact p ks) (hj : j ∈ p.ids)
    (hst : ks.jobStatus j = some .running) (n : Int) : SlotsExact p (ks.delayJob j n) := by
  refine h.setJob hj hst (fun i => jobStatus_delayJob j i n ks) ?_
  rw [counters_delayJob, if_pos (h.pos hj hst rfl)]
  simp [JobStatus.isActive]

theorem SlotsExact.queueRetry (h : SlotsExact p ks) (hj : j ∈ p.ids)
    (hst : ks.jobStatus j = some .retryDelay) : SlotsExact p (ks.queueRetry j) := by
  refine h.setJob hj hst (fun i => jobStatus_queueRetry j i ks) ?_
  rw [counters_queueRetry]
  simp [JobStatus.isActive]

theorem SlotsExact.failOther (h : SlotsExact p ks) (hj : j ∈ p.ids)
    (hst : ks.jobStatus j = some st) (hkind : st.isActive = false) {outcome : FailureOutcome}
    (hfailed : FailedOther j ks outcome ks') : SlotsExact p ks' := by
  refine h.setJob hj hst hfailed.jobStatus ?_
  rw [hfailed.counters, hkind]
  rfl

theorem Tidy.slots_retry (h : Tidy p L v) (hexact : SlotsExact p v.space) (hj : j ∈ p.ids)
    (hst : v.jobStatus j = some .running) (n : Int) :
    SlotsExact p (v.space.delayJob j n).promoteWaiting.2 := by
  refine (hexact.delayJob hj hst n).promoteWaiting (fun k hk => ?_)
  obtain ⟨hids, hready⟩ := h.orderly.waiting_ready k hk
  refine ⟨hids, (jobStatus_delayJob j k n v.space).trans ?_⟩
  have hkj : k ≠ j := by
    rintro rfl
    cases hst.symm.trans hready
  rw [if_neg hkj]
  exact hready

theorem Tidy.slots_finish (h : Tidy p L v) (hexact : SlotsExact p v.space) (hj : j ∈ p.ids)
    (hst : v.jobStatus j = some .running) (hwf : v.status = some .running) {ready : List String}
    (hfinished : Finished j v.space ready ks) : SlotsExact p ks.countCompleted := by
  obtain ⟨-, hactive⟩ := (h.inv.strong_of_running hwf).tally_finished hst hfinished
  have htally : p.tally JobStatus.isActive ks.countCompleted = p.tally JobStatus.isActive ks := rfl
  have hpos := hexact.pos hj hst rfl
  rw [SlotsExact] at hexact ⊢
  rw [counters_countCompleted, hfinished.counters, if_pos hpos]
  dsimp only
  omega

theorem SlotsExact.fail (hexact : SlotsExact p v.space) (hj : j ∈ p.ids)
    (hst : v.jobStatus j = some .running) {jobIds : List String} {outcome : FailureOutcome}
    (hfailed : FailedRunning j jobIds v.space outcome ks)
    (hqueued : ∀ i, i ≠ j → v.jobStatus i ≠ some .queued) : SlotsExact p ks := by
  have hkeep : ∀ i, i ≠ j → (ks.jobStatus i).any JobStatus.isActive =
      (v.space.jobStatus i).any JobStatus.isActive := by
    intro i hij
    rw [hfailed.jobStatus i hij]
    split
    · rename_i hc
      obtain ⟨st, hst', hwait⟩ := (Option.any_eq_true _ _).mp hc.2
      have hnot := hqueued i hij
      rw [WorkflowView.jobStatus, hst'] at hnot
      rw [hst']
      cases st <;> first | rfl | exact absurd rfl hnot | cases hwait
    · rfl
  have hst' : v.space.jobStatus j = some .running := hst
  have hcount := p.tally_of_eq_off hj hkeep
  rw [hfailed.self, hst'] at hcount
  have hpos := hexact.pos hj hst rfl
  rw [SlotsExact] at hexact ⊢
  rw [hfailed.counters, if_pos hpos]
  simp only [Option.any_some, JobStatus.isActive, Bool.toNat_true, Bool.toNat_false] at hcount
  dsimp only
  omega

theorem Tidy.tally_active_of_full (h : Tidy p L v) (hfull : L.length = p.ids.length) :
    p.tally JobStatus.isActive v.space = 0 := by
  refine List.countP_eq_zero.mpr (fun i hi hany => ?_)
  obtain ⟨st, hst, hactive⟩ := (Option.any_eq_true _ _).mp hany
  have hdone := (h.orderly.left i (h.counted.mem_of_full hfull hi)).done hst
  rw [JobStatus.not_isActive_of_isTerminal hdone] at hactive
  cases hactive

theorem Tidy.slots_mark (h : Tidy p L v) (hexact : SlotsExact p v.space) (hj : j ∈ L) :
    SlotsExact p (v.space.setJobStatus j .aborted) := by
  refine hexact.congr rfl (fun i => ?_)
  rw [setJobStatus_jobStatus]
  split
  · rename_i hij
    subst hij
    refine (Bool.eq_false_iff.mpr (fun hany => ?_)).symm
    obtain ⟨st, hst, hactive⟩ := (Option.any_eq_true _ _).mp hany
    rw [JobStatus.not_isActive_of_isTerminal ((h.orderly.left i hj).done hst)] at hactive
    cases hactive
  · rfl

theorem Tidy.slots_erase (h : Tidy p L v) (hexact : SlotsExact p v.space)
    (hfull : L.length = p.ids.length) (herased : Erased v v') : SlotsExact p v'.space := by
  cases herased with
  | job k =>
      refine hexact.congr rfl (fun i => ?_)
      by_cases hik : i = k
      · subst hik
        have hnone := h.tally_active_of_full hfull
        simp only [WorkflowKeyspace.jobStatus, Function.update_self, Option.bind_none,
          Option.any_none]
        refine (Bool.eq_false_iff.mpr (fun hany => ?_)).symm
        obtain ⟨st, hst, hactive⟩ := (Option.any_eq_true _ _).mp hany
        exact (List.countP_eq_zero.mp hnone i (h.orderly.mem_ids hst)) hany
      · simp only [WorkflowKeyspace.jobStatus, Function.update_of_ne hik]
  | _ => exact hexact

/-- Every step keeps the counter of slots exact, but for those that leak one; they leave the workflow
FAILED. -/
theorem Tidy.slots_step (h : Tidy p L v) (hstep : TidyStep p L x v l v')
    (hexact : SlotsExact p v.space)
    (hgood : Leaks x v → v.status ≠ some .failed ∧ v'.status ≠ some .failed) :
    SlotsExact p v'.space := by
  cases hstep with
  | move | drop | releaseCounted | releaseFailed => exact hexact
  | claim hx hj hs hst => exact hexact.setJobStatus (h.mem_ids hs) hst rfl
  | @first j now ks hx hj hs hst hwf hcounters hsame =>
      have hstatus : ∀ i, ks.jobStatus i = if i = j then some .running else v.jobStatus i :=
        fun i => (hsame.jobStatus i).trans (jobStatus_setJob ..)
      refine hexact.setJob (h.mem_ids hs) hst hstatus ?_
      change ks.counters.reserved + _ = _
      rw [hcounters]
      rfl
  | @again j now hx hj hs hst =>
      have hstatus : ∀ i, (v.space.setJob j (fun h =>
          { h with status := some .running, startRunTime := some now })).jobStatus i =
            if i = j then some .running else v.jobStatus i :=
        fun i => jobStatus_setJob ..
      exact hexact.setJob (h.mem_ids hs) hst hstatus rfl
  | cancel hx hj hs hst hwf =>
      refine absurd hwf (hgood ?_).1
      rw [Leaks, hx]
      exact ⟨hwf, hst⟩
  | expire => exact hexact.setStatus .failed
  | last hx hj hs hst hwf hfinished =>
      exact (h.slots_finish hexact (h.mem_ids hs) hst hwf hfinished).setStatus .completed
  | success hx hj hs hst hwf hfinished => exact h.slots_finish hexact (h.mem_ids hs) hst hwf hfinished
  | @successPromote j now ks ready hx hj hs hst hwf hfinished _ _ _ advanced =>
      rw [enqueue_space]
      have hdone : Orderly p (L ++ [j])
          ({ v with space := ks.countCompleted }.setStages j {Stage.counted .no advanced}) :=
        h.orderly.finish (h.mem_ids hs) hst hwf hfinished ⟨rfl, rfl, rfl, rfl⟩
      exact (h.slots_finish hexact (h.mem_ids hs) hst hwf hfinished).promoteWaiting
        hdone.waiting_ready
  | fail hx hj hs hst hwf hfailed =>
      rw [dropCanceled_space]
      refine hexact.fail (h.mem_ids hs) hst hfailed (fun i hij hqueued => (hgood ?_).2 ?_)
      · rw [Leaks, hx]
        exact .inl ⟨hwf, i, hij, hqueued⟩
      · rw [WorkflowView.status, dropCanceled_space]
        exact hfailed.status
  | failAgain hx hj hs hst hkind hwf hfailed =>
      rcases hkind with rfl | rfl
      · refine absurd hwf (hgood ?_).1
        rw [Leaks, hx]
        exact .inr ⟨hwf, hst⟩
      · exact hexact.failOther (h.mem_ids hs) hst rfl hfailed
  | retry hx hj hs hst => exact hexact.delayJob (h.mem_ids hs) hst _
  | retryPromote hx hj hs hst =>
      rw [enqueue_space]
      exact h.slots_retry hexact (h.mem_ids hs) hst _
  | requeue hx hj hs hst => exact hexact.queueRetry (h.mem_ids hs) hst
  | @wait j hx hj hs hst =>
      exact hexact.setJob (h.mem_ids hs) hst
        (fun i => jobStatus_waitAgain j i v.space) rfl
  | @waitPromote j hx hj hs hst =>
      rw [enqueue_space]
      have hwait : SlotsExact p (v.space.waitAgain j) := hexact.setJob (h.mem_ids hs) hst
        (fun i => jobStatus_waitAgain j i v.space) rfl
      exact hwait.promoteWaiting
        (h.orderly.waitAgain (h.mem_ids hs) hj).waiting_ready
  | strand hx hj hs hst | abort hj hs hst => exact hexact.setJobStatus (h.mem_ids hs) hst rfl
  | mark _ hj hs => exact h.slots_mark hexact hj
  | erase hs hdel hfull herased => exact h.slots_erase hexact hfull herased
  | deleteCounted hj hs hfull | deleteFailed hj hs hfull =>
      have hnone := h.tally_active_of_full hfull
      rw [SlotsExact]
      exact (Int.natCast_eq_zero.mpr hnone).symm

end Slots

section Stages

variable {p : Plan} {L l : List String} {x : Served} {v v' : WorkflowView} {i j : String}
  {s t : Stage}

theorem Closing.ofCompleted_cases (b : Bool) :
    Closing.ofCompleted b = .no ∨ Closing.ofCompleted b = .due := by
  cases b <;> simp [ofCompleted]

/-- The stages that a step puts a job at. -/
inductive Arises (p : Plan) (L l : List String) (v v' : WorkflowView) (i : String) :
    Stage → Prop where
  | busy {t : Stage} {st : JobStatus} (hasks : t.asks = some st)
      (hsize : ∀ n, t = .fetched n → ∃ bytes, v.space.payloads i = some bytes ∧ bytes.length = n)
      (hlist : ∀ st js, t = .listing st js → js = v.rows) : Arises p L l v v' i t
  | counted {c : Closing} {advanced : List String} (hl : l.head? = some i) (hi : i ∉ L)
      (hadvanced : ∀ k ∈ advanced, k ∈ p.ids)
      (hc : c = .no ∨ c = .due ∧ v'.active = v.active ∧ v'.status = some .completed) :
      Arises p L l v v' i (.counted c advanced)
  | failed {c : Closing} (hl : l.head? = some i) (hi : i ∉ L)
      (hc : c = .no ∨ c = .due ∧ v'.active = v.active ∧ v'.space.hash ≠ none) :
      Arises p L l v v' i (.failed c)
  | releaseCounted {js : List String} (hs : .counted .due js ∈ v.stages i)
      (hhash : v'.space.hash = v.space.hash) : Arises p L l v v' i (.counted .released js)
  | releaseFailed (hs : .failed .due ∈ v.stages i) : Arises p L l v v' i (.failed .released)
  | deleteCounted {js : List String} (hs : .counted .released js ∈ v.stages i) :
      Arises p L l v v' i (.counted .deleted js)

theorem Orderly.advanced (h : Orderly p L v) {ready advanced : List String}
    {ks : WorkflowKeyspace} (hfinished : Finished j v.space ready ks)
    (hadvanced : ∀ i ∈ advanced, i ∈ ready) : ∀ k ∈ advanced, k ∈ p.ids := by
  intro k hk
  obtain ⟨-, -, hlast⟩ := (hfinished.ready k).mp (hadvanced k hk)
  exact h.mem_ids hlast.1

/-- Where a holder of a tidy workflow comes from. -/
theorem Tidy.mem_stages (h : Tidy p L v) (hstep : TidyStep p L x v l v') (ht : t ∈ v'.stages i) :
    t ∈ v.stages i ∨ Arises p L l v v' i t := by
  have hone : ∀ {j : String} {s' : Stage} {w : WorkflowView}, w.stages = v.stages →
      t ∈ (w.setStages j {s'}).stages i → (i = j → Arises p L l v v' i s') →
      t ∈ v.stages i ∨ Arises p L l v v' i t := by
    intro j s' w hw hmem harises
    rcases mem_setStages.mp hmem with ⟨hij, hs⟩ | ⟨-, hs⟩
    · cases Multiset.mem_singleton.mp hs
      exact .inr (harises hij)
    · exact .inl (hw ▸ hs)
  have hzero : ∀ {j : String} {w : WorkflowView}, w.stages = v.stages →
      t ∈ (w.setStages j 0).stages i → t ∈ v.stages i := by
    intro j w hw hmem
    rcases mem_setStages.mp hmem with ⟨-, hs⟩ | ⟨-, hs⟩
    · exact absurd hs (Multiset.notMem_zero _)
    · exact hw ▸ hs
  have hbusy : ∀ {s' : Stage} {st : JobStatus}, s'.asks = some st → (∀ n, s' ≠ .fetched n) →
      (∀ st js, s' ≠ .listing st js) → Arises p L l v v' i s' := fun hasks hsize hlist =>
    .busy hasks (fun n hn => absurd hn (hsize n)) (fun st js hn => absurd hn (hlist st js))
  cases hstep with
  | move hj hs hasks hasks' hst hsize hlist =>
      exact hone rfl ht (fun hij => .busy hasks' (hij ▸ hsize) hlist)
  | drop | strand | abort => exact .inl (hzero rfl ht)
  | claim | first | again | cancel | expire | retry | requeue =>
      exact hone rfl ht (fun _ => hbusy rfl nofun nofun)
  | last hx hj hs hst hwf hfinished _ _ hadvanced =>
      refine hone rfl ht (fun hij => ?_)
      subst hij
      exact .counted rfl hj (h.orderly.advanced hfinished hadvanced)
        (.inr ⟨rfl, rfl, rfl⟩)
  | success hx hj hs hst hwf hfinished _ _ _ hadvanced =>
      refine hone rfl ht (fun hij => ?_)
      subst hij
      exact .counted rfl hj (h.orderly.advanced hfinished hadvanced) (.inl rfl)
  | @successPromote j now ks ready hx hj hs hst hwf hfinished _ _ _ advanced hadvanced =>
      rcases mem_of_mem_enqueue ht with ht | rfl
      · refine hone rfl ht (fun hij => ?_)
        subst hij
        refine .counted rfl hj (fun k hk => ?_) (.inl rfl)
        have hdone : Orderly p (L ++ [i])
            ({ v with space := ks.countCompleted }.setStages i {Stage.counted .no advanced}) :=
          h.orderly.finish (h.mem_ids hs) hst hwf hfinished ⟨rfl, rfl, rfl, rfl⟩
        rcases hadvanced k hk with hready | hpromoted
        · exact h.orderly.advanced hfinished (fun _ => id) k hready
        · rcases ks.countCompleted.promoteWaiting_cases with ⟨heq, -⟩ | ⟨k', n, hk', heq⟩
          · rw [heq] at hpromoted
            cases hpromoted
          · rw [heq] at hpromoted
            cases hpromoted
            exact (hdone.waiting_ready _ hk').1
      · exact .inr (hbusy rfl nofun nofun)
  | @fail j jobIds st n outcome ks hx hj hs hst hwf hfailed =>
      have ht' := mem_of_mem_dropCanceled ht
      refine hone rfl ht' (fun hij => ?_)
      subst hij
      refine .failed rfl hj ((Closing.ofCompleted_cases _).imp_right
        (fun hdue => ⟨hdue, (dropCanceled_dropped ..).active, ?_⟩))
      rw [dropCanceled_space]
      exact hash_ne_none hfailed.status
  | failAgain hx hj hs hst hkind hwf hfailed =>
      refine hone rfl ht (fun hij => ?_)
      subst hij
      refine .failed rfl hj ((Closing.ofCompleted_cases _).imp_right (fun hdue => ⟨hdue, rfl, ?_⟩))
      exact hash_ne_none (hfailed.status.trans hwf)
  | retryPromote =>
      rcases mem_of_mem_enqueue ht with ht | rfl
      · exact hone rfl ht (fun _ => hbusy rfl nofun nofun)
      · exact .inr (hbusy rfl nofun nofun)
  | wait => exact .inl (hzero rfl ht)
  | waitPromote =>
      rcases mem_of_mem_enqueue ht with ht | rfl
      · exact .inl (hzero rfl ht)
      · exact .inr (hbusy rfl nofun nofun)
  | mark | deleteFailed => exact .inl ht
  | releaseCounted hj hs =>
      refine hone rfl ht (fun hij => ?_)
      subst hij
      exact .releaseCounted (hs ▸ Multiset.mem_singleton_self _) rfl
  | releaseFailed hj hs =>
      refine hone rfl ht (fun hij => ?_)
      subst hij
      exact .releaseFailed (hs ▸ Multiset.mem_singleton_self _)
  | erase _ _ _ herased => exact .inl (herased.mem_of_mem ht)
  | deleteCounted hj hs =>
      refine hone rfl ht (fun hij => ?_)
      subst hij
      exact .deleteCounted (hs ▸ Multiset.mem_singleton_self _)

/-- The cleanup is one of the few steps that touch the active set or delete the hash; its holder
moves on with it. -/
theorem TidyStep.keeps (hstep : TidyStep p L x v l v') :
    (v'.active = v.active ∧ (v.space.hash ≠ none → v'.space.hash ≠ none)) ∨
    ∃ j s s', s ∈ v.stages j ∧ s.closing ≠ .no ∧ v'.stages j = {s'} ∧ s'.closing ≠ .due ∧
      ∀ js, s' = .counted .released js → v'.space.hash = v.space.hash := by
  have hpromote : ∀ ks : WorkflowKeyspace, ks.hash ≠ none → ks.promoteWaiting.2.hash ≠ none := by
    intro ks hks
    exact promoteWaiting_rule (P := fun ks' => ks'.hash ≠ none) hks (fun i _ => nofun)
  cases hstep with
  | move | drop | claim | again | cancel | wait | strand | abort | mark => exact .inl ⟨rfl, id⟩
  | first _ _ _ _ _ hcounters =>
      exact .inl ⟨rfl, fun _ => hash_ne_none
        (congrArg Counters.status hcounters)⟩
  | expire | last | success | retry | requeue => exact .inl ⟨rfl, fun _ => nofun⟩
  | successPromote | retryPromote =>
      refine .inl ⟨enqueue_active .., fun _ => ?_⟩
      rw [enqueue_space]
      exact hpromote _ nofun
  | waitPromote =>
      refine .inl ⟨enqueue_active .., fun hhash => ?_⟩
      rw [enqueue_space]
      exact hpromote _ hhash
  | fail _ _ _ _ _ hfailed =>
      refine .inl ⟨(dropCanceled_dropped ..).active, fun _ => ?_⟩
      rw [dropCanceled_space]
      exact hash_ne_none hfailed.status
  | failAgain _ _ _ _ _ hwf hfailed =>
      exact .inl ⟨rfl, fun _ => hash_ne_none
        (hfailed.status.trans hwf)⟩
  | releaseCounted hj hs =>
      exact .inr ⟨_, .counted .due _, .counted .released _, hs ▸ Multiset.mem_singleton_self _,
        nofun, setStages_stages_self .., nofun, fun _ _ => rfl⟩
  | releaseFailed hj hs =>
      exact .inr ⟨_, .failed .due, .failed .released, hs ▸ Multiset.mem_singleton_self _, nofun,
        setStages_stages_self .., nofun, nofun⟩
  | erase _ _ _ herased => cases herased <;> exact .inl ⟨rfl, id⟩
  | deleteCounted hj hs =>
      exact .inr ⟨_, .counted .released _, .counted .deleted _, hs ▸ Multiset.mem_singleton_self _,
        nofun, setStages_stages_self .., nofun, nofun⟩
  | deleteFailed hj hs =>
      exact .inr ⟨_, .failed .released, .failed .released, hs ▸ Multiset.mem_singleton_self _,
        nofun, hs, nofun, nofun⟩

theorem TidyStep.rows (hstep : TidyStep p L x v l v') :
    v'.rows = v.rows ∧ v'.recorded = v.recorded := by
  cases hstep with
  | successPromote | retryPromote | waitPromote =>
      exact ⟨enqueue_rows .., enqueue_recorded ..⟩
  | fail =>
      have hdropped := dropCanceled_dropped
      exact ⟨(hdropped ..).rows, (hdropped ..).recorded⟩
  | erase _ _ _ herased => cases herased <;> exact ⟨rfl, rfl⟩
  | _ => exact ⟨rfl, rfl⟩

theorem Arises.closing (h : Arises p L l v v' i t) (hc : t.closing ≠ .no) :
    (∃ s ∈ v.stages i, s.closing ≠ .no) ∨ (l.head? = some i ∧ i ∉ L) := by
  cases h with
  | busy hasks => exact absurd (hasks.symm.trans (Stage.asks_eq_none_of_closing hc)) nofun
  | counted hl hi => exact .inr ⟨hl, hi⟩
  | failed hl hi => exact .inr ⟨hl, hi⟩
  | releaseCounted hs => exact .inl ⟨_, hs, nofun⟩
  | releaseFailed hs => exact .inl ⟨_, hs, nofun⟩
  | deleteCounted hs => exact .inl ⟨_, hs, nofun⟩

/-- A step keeps what holds of the handlers of counted jobs: one at most has the cleanup to do. -/
theorem Tidy.handled_step (h : Tidy p L v) (hstep : TidyStep p L x v l v') (hl : ∀ i ∈ l, i ∈ p.ids) :
    Handled p v' := by
  have hold : ∀ {i : String} {t : Stage}, t ∈ v'.stages i → t.closing ≠ .no →
      (∃ s ∈ v.stages i, s.closing ≠ .no) ∨ (l.head? = some i ∧ i ∉ L) := by
    intro i t ht hc
    rcases h.mem_stages hstep ht with ht | harises
    · exact .inl ⟨t, ht, hc⟩
    · exact harises.closing hc
  -- no cleanup is under way when a job is left to count
  have hfresh : ∀ {i k : String}, (l.head? = some i ∧ i ∉ L) → ¬ ∃ s ∈ v.stages k,
      s.closing ≠ .no := by
    rintro i k ⟨hhead, hnot⟩ ⟨s, hs, hc⟩
    have hlt := h.lt_of_not_mem (hl i (List.mem_of_mem_head? hhead)) hnot
    exact Nat.lt_irrefl _ (h.counted.closing k s hs hc ▸ hlt)
  refine ⟨fun i c js ht => ?_, fun i st js ht => ?_, fun i j s t hs ht hcs hct => ?_,
    fun i t ht hc => ?_, fun i js ht => ?_⟩
  · rcases h.mem_stages hstep ht with ht | harises
    · exact h.handled.advanced i c js ht
    · cases harises with
      | busy hasks => cases hasks
      | counted _ _ hadvanced => exact hadvanced
      | releaseCounted hs => exact h.handled.advanced i _ js hs
      | deleteCounted hs => exact h.handled.advanced i _ js hs
  · rcases h.mem_stages hstep ht with ht | harises
    · exact h.handled.listed i st js ht
    · cases harises with
      | busy _ _ hlist => exact fun k hk => hlist st js rfl ▸ h.rows k hk
  · rcases hold hs hcs with hs | hs <;> rcases hold ht hct with ht | ht
    · obtain ⟨s', hs', hcs'⟩ := hs
      obtain ⟨t', ht', hct'⟩ := ht
      exact h.handled.sole i j s' t' hs' ht' hcs' hct'
    · exact absurd hs (hfresh ht)
    · exact absurd ht (hfresh hs)
    · exact Option.some.inj (hs.1.symm.trans ht.1)
  · rcases h.mem_stages hstep ht with ht' | harises
    · obtain ⟨hactive, hhash⟩ := h.handled.due i t ht' hc
      rcases hstep.keeps with ⟨hsame, hkeep⟩ | ⟨j, s, s', hs, hcs, hs', hcs', -⟩
      · exact ⟨hsame.trans hactive, hkeep hhash⟩
      · obtain rfl := h.handled.sole i j t s ht' hs (by rw [hc]; exact nofun) hcs
        rw [hs'] at ht
        cases Multiset.mem_singleton.mp ht
        exact absurd hc hcs'
    · have hactive : ∀ {i : String}, l.head? = some i → i ∉ L → v.active = true :=
        fun hhead hnot => (h.unfinished
          (h.lt_of_not_mem (hl _ (List.mem_of_mem_head? hhead)) hnot)).active
      cases harises with
      | busy hasks =>
          have hnone := Stage.asks_eq_none_of_closing (s := t) (by rw [hc]; exact nofun)
          cases hasks.symm.trans hnone
      | counted hhead hnot _ hdone =>
          rcases hdone with rfl | ⟨-, hsame, hwf⟩
          · cases hc
          · exact ⟨hsame.trans (hactive hhead hnot), hash_ne_none hwf⟩
      | failed hhead hnot hdone =>
          rcases hdone with rfl | ⟨-, hsame, hhash⟩
          · cases hc
          · exact ⟨hsame.trans (hactive hhead hnot), hhash⟩
      | releaseCounted | releaseFailed | deleteCounted => cases hc
  · rcases h.mem_stages hstep ht with ht' | harises
    · have hhash := h.handled.kept i js ht'
      rcases hstep.keeps with ⟨-, hkeep⟩ | ⟨j, s, s', hs, hcs, hs', -, hsame⟩
      · exact hkeep hhash
      · obtain rfl := h.handled.sole i j _ s ht' hs nofun hcs
        rw [hs'] at ht
        cases Multiset.mem_singleton.mp ht
        rw [hsame js rfl]
        exact hhash
    · cases harises with
      | busy hasks => cases hasks
      | counted _ _ _ hdone =>
          rcases hdone with hdone | ⟨hdone, -⟩ <;> cases hdone
      | releaseCounted hs hsame =>
          rw [hsame]
          exact (h.handled.due i _ hs rfl).2

theorem Tidy.unbroken_step (h : Tidy p L v) (hstep : TidyStep p L x v l v') : v'.Unbroken := by
  intro i c ht
  rcases h.mem_stages hstep ht with ht | harises
  · exact h.counted.unbroken i c ht
  · cases harises with
    | busy hasks => cases hasks

end Stages

section Phase

variable {p : Plan} {L l : List String} {x : Served} {v v' : WorkflowView} {i j : String}

/-- A step that leaves the workflow READY or RUNNING keeps the invariant of such a workflow. -/
theorem Strong.step_open (h : Strong p v) (hstep : WStep x v l v')
    (hready : v.status = some .ready → l = [])
    (hopen : v'.status = some .ready ∨ v'.status = some .running) : Strong p v' := by
  cases hstep with
  | shift hs hshift => exact h.shift hs hshift
  | lose hs => exact h.lose hs
  | claim _ hs => exact h.claim hs
  | @start j now rest hx hs =>
      refine (h.start hs).resolve_right (fun hweak => ?_)
      -- a closed workflow that is READY has no holders but those of failed jobs
      obtain ⟨c, hc⟩ := (hweak.idle (hopen.resolve_right hweak.closed)).1 j _
        (mem_setStages.mpr (.inl ⟨rfl, Multiset.mem_cons_self ..⟩))
      cases hr : (v.space.trySetJobToRunning now j).1 <;> rw [hr] at hc <;> cases hc
  | expire _ _ hexpired =>
      have hks := (completeSuccessfulJob_expired hexpired).2.2
      have hstatus : (v.space.setStatus .failed).status = some .ready ∨
        (v.space.setStatus .failed).status = some .running := hks ▸ hopen
      rcases hstatus with hstatus | hstatus <;> cases hstatus
  | @success j now rest done promoted ready hx hs hcounted =>
      refine (h.success hs hcounted _).resolve_right (fun hweak => ?_)
      cases done with
      | true =>
          have hstatus : (v.space.completeSuccessfulJob now j).2.status = some .completed :=
            status_completeSuccessfulJob_of_done hcounted
          rw [WorkflowView.status, enqueue_space] at hopen
          rcases hopen with hopen | hopen <;> cases hstatus.symm.trans hopen
      | false =>
          refine hweak.closed ?_
          rw [WorkflowView.status, enqueue_space]
          exact status_completeSuccessfulJob_of_open hcounted
  | @fail j s rest n jobIds hx hs hstage =>
      have hrun : v.space.status = some .running :=
        h.unclosed.resolve_left (fun hr => List.cons_ne_nil _ _ (hready hr))
      have hfailed : FailedRunning j jobIds v.space _ _ :=
        completeFailedJob_running n hrun
      have hstatus : (v.space.completeFailedJob j n jobIds).2.status = some .failed :=
        hfailed.status
      rw [WorkflowView.status, dropCanceled_space] at hopen
      rcases hopen with hopen | hopen <;> cases hstatus.symm.trans hopen
  | mark _ hs => exact h.mark hs
  | retry _ hst hs => exact h.retry hst hs
  | promote _ hs => exact h.promote hs
  | releaseCounted hs | releaseFailed hs | deleteCounted hs =>
      cases h.closing_eq (hs ▸ Multiset.mem_cons_self ..)
  | erase hs hdel => cases hdel <;> cases h.closing_eq hs
  | deleteFailed hs => cases h.closing_eq hs

/-- A running workflow fails: its run time is exceeded, or a job of it fails. -/
inductive Fails (x : Served) (v : WorkflowView) : List String → WorkflowView → Prop where
  | expired {j : String} {now : Int} (hx : x.label = .success j now)
      (hs : v.stages j = {Stage.reported .completed}) (hst : v.jobStatus j = some .running)
      (hexceeded : v.space.runTimeExceeded now = true) :
      Fails x v [] ({ v with space := v.space.setStatus .failed }.setStages j
        {Stage.reported .failed})
  | failed {j : String} {jobIds : List String} {st : JobStatus}
      {outcome : FailureOutcome} {ks : WorkflowKeyspace}
      (hs : v.stages j = {Stage.listing st jobIds})
      (hfailed : FailedRunning j jobIds v.space outcome ks) :
      Fails x v (j :: outcome.canceled.map Prod.fst)
        (({ v with space := ks }.setStages j
          {Stage.failed (.ofCompleted outcome.workflowCompleted)}).dropCanceled outcome.canceled)


theorem TidyStep.status (hstep : TidyStep p L x v l v') :
    v'.status = v.status ∨ (v.status = some .ready ∧ v'.status = some .running) ∨
      (v.status = some .running ∧ v'.status = some .failed ∧ Fails x v l v') ∨
      ((L ++ l).length = p.ids.length ∧
        ((v.status = some .running ∧ v'.status = some .completed) ∨ v'.status = none)) := by
  cases hstep with
  | first _ _ _ _ hwf hcounters =>
      exact .inr (.inl ⟨hwf, congrArg Counters.status hcounters⟩)
  | expire hx _ hs hst hwf hexceeded =>
      exact .inr (.inr (.inl ⟨hwf, rfl, .expired hx hs hst hexceeded⟩))
  | last _ _ _ _ hwf _ _ hfull =>
      refine .inr (.inr (.inr ⟨?_, .inl ⟨hwf, rfl⟩⟩))
      rw [List.length_append, List.length_singleton]
      exact hfull
  | success _ _ _ _ _ hfinished =>
      exact .inl ((status_countCompleted _).trans hfinished.status)
  | successPromote _ _ _ _ _ hfinished =>
      refine .inl ?_
      rw [WorkflowView.status, enqueue_space]
      exact (status_promoteWaiting _).trans ((status_countCompleted _).trans
        hfinished.status)
  | fail _ _ hs _ hwf hfailed =>
      refine .inr (.inr (.inl ⟨hwf, ?_, .failed hs hfailed⟩))
      rw [WorkflowView.status, dropCanceled_space]
      exact hfailed.status
  | failAgain _ _ _ _ _ _ hfailed =>
      exact .inl hfailed.status
  | retry => exact .inl (status_delayJob ..)
  | retryPromote =>
      refine .inl ?_
      rw [WorkflowView.status, enqueue_space]
      exact (status_promoteWaiting _).trans (status_delayJob ..)
  | requeue =>
      exact .inl (status_queueRetry ..)
  | waitPromote =>
      refine .inl ?_
      rw [WorkflowView.status, enqueue_space]
      exact status_promoteWaiting _
  | erase _ _ _ herased =>
      cases herased <;> exact .inl rfl
  | deleteCounted _ _ hfull | deleteFailed _ _ hfull =>
      rw [List.append_nil]
      exact .inr (.inr (.inr ⟨hfull, .inr rfl⟩))
  | _ => exact .inl rfl

theorem TidyStep.ready (hstep : TidyStep p L x v l v') (hready : v'.status = some .ready) :
    v.status = some .ready := by
  rcases hstep.status with heq | ⟨-, hwf⟩ | ⟨-, hwf, -⟩ | ⟨-, ⟨-, hwf⟩ | hwf⟩
  · exact heq.symm.trans hready
  all_goals cases hwf.symm.trans hready

theorem TidyStep.started (hstep : TidyStep p L x v l v') (hready : v.status = some .ready)
    (hready' : v'.status = some .ready) : v'.space.counters.started = v.space.counters.started := by
  have hclosed : ∀ {ws : WorkflowStatus} {α : Prop}, v.status = some ws → ws ≠ .ready → α :=
    fun hws hne => absurd (Option.some.inj (hws.symm.trans hready)) hne
  cases hstep with
  | first _ _ _ _ _ hcounters =>
      cases hready'.symm.trans (congrArg Counters.status hcounters)
  | again _ _ _ _ hwf | cancel _ _ _ _ hwf | expire _ _ _ _ hwf | last _ _ _ _ hwf
  | success _ _ _ _ hwf | successPromote _ _ _ _ hwf | fail _ _ _ _ hwf
  | failAgain _ _ _ _ _ hwf | retryPromote _ _ _ _ hwf | requeue _ _ _ _ hwf | wait _ _ _ _ hwf
  | waitPromote _ _ _ _ hwf | strand _ _ _ _ hwf => exact hclosed hwf nofun
  | retry _ _ _ _ hwf =>
      rcases hwf with hwf | ⟨hwf, -⟩
      · exact hclosed hwf nofun
      · exact hclosed hwf nofun
  | erase _ _ _ herased => cases herased <;> rfl
  | deleteCounted | deleteFailed => cases hready'
  | _ => rfl

theorem TidyStep.eq_nil_of_ready (hstep : TidyStep p L x v l v') (hready : v.status = some .ready) :
    l = [] := by
  cases hstep with
  | last _ _ _ _ hwf | success _ _ _ _ hwf | successPromote _ _ _ _ hwf | fail _ _ _ _ hwf
  | failAgain _ _ _ _ _ hwf => cases hready.symm.trans hwf
  | _ => rfl

theorem Tidy.live_step (h : Tidy p L v) (hlive : Live p v) (hstep : WStep x v l v')
    (htidy : TidyStep p L x v l v')
    (hopen : v'.status = some .ready ∨ v'.status = some .running) : Live p v' where
  strong := hlive.strong.step_open hstep htidy.eq_nil_of_ready hopen
  clean := hlive.strong.step_clean hlive.clean hstep
    (fun _ _ _ _ hne hready => hne (htidy.eq_nil_of_ready hready)) hopen
  slots := h.slots_step htidy hlive.slots (fun _ => by
    constructor
    · rcases hlive.strong.unclosed with hwf | hwf <;> rw [hwf] <;> exact nofun
    · rcases hopen with hwf | hwf <;> rw [hwf] <;> exact nofun)
  unstarted := fun hready' =>
    (htidy.started (htidy.ready hready') hready').trans (hlive.unstarted (htidy.ready hready'))

theorem WorkflowKeyspace.Provided.of_retains {ks ks' : WorkflowKeyspace} {j : String}
    (h : ks.Provided j) (hretains : ks.Retains ks') (hpayloads : ks'.payloads = ks.payloads) :
    ks'.Provided j := by
  obtain ⟨hash, bytes, hjob, hreadable, hpayload, hsize⟩ := h
  obtain ⟨hsome, hkept⟩ := hretains j
  rw [hjob] at hsome hkept
  obtain ⟨hash', hjob'⟩ := Option.isSome_iff_exists.mp (hsome rfl)
  rw [hjob'] at hkept
  refine ⟨hash', bytes, hjob', hreadable.of_kept hkept, hpayloads ▸ hpayload, ?_⟩
  exact (JobHash.Kept.size hkept).trans hsize

/-- Until the last job is counted no script deletes a record or a payload. -/
theorem TidyStep.retains (hstep : TidyStep p L x v l v') (hlt : L.length < p.ids.length) :
    v.space.Retains v'.space ∧ v'.space.payloads = v.space.payloads := by
  have hrefl := Retains.refl v.space
  have hpromote : ∀ ks : WorkflowKeyspace, ks.promoteWaiting.2.payloads = ks.payloads := by
    intro ks
    rcases ks.promoteWaiting_cases with ⟨heq, -⟩ | ⟨i, n, -, heq⟩ <;> rw [heq]
    rfl
  have hdelay : ∀ j n, v.space.Retains (v.space.delayJob j n) := fun j n => by
    have hset : v.space.Retains (v.space.setJob j (fun h => { h with
        status := some .retryDelay, currentRetryCount := some n, startRunTime := none })) :=
      hrefl.setJob j (fun _ => ⟨fun _ => rfl, id, rfl, rfl, rfl, fun _ => rfl, rfl, rfl, rfl⟩)
    exact hset.congr rfl
  have hrun : ∀ (j : String) (now : Int), v.space.Retains (v.space.setJob j (fun h =>
      { h with status := some .running, startRunTime := some now })) := fun j now =>
    hrefl.setJob j (fun _ => ⟨fun _ => rfl, id, rfl, rfl, rfl, id, rfl, rfl, rfl⟩)
  cases hstep with
  | move | drop | releaseCounted | releaseFailed => exact ⟨hrefl, rfl⟩
  | claim | cancel | strand | abort | mark => exact ⟨hrefl.setJobStatus _ _, rfl⟩
  | first _ _ _ _ _ _ hsame => exact ⟨(hrun _ _).congr hsame.jobs, hsame.payloads⟩
  | again => exact ⟨hrun _ _, rfl⟩
  | expire => exact ⟨hrefl.congr rfl, rfl⟩
  | last _ _ _ _ _ hfinished hretains => exact ⟨hretains.congr rfl, hfinished.payloads⟩
  | success _ _ _ _ _ hfinished hretains => exact ⟨hretains.congr rfl, hfinished.payloads⟩
  | @successPromote j now ks _ _ _ _ _ _ hfinished hretains =>
      rw [enqueue_space]
      have hcounted : v.space.Retains ks.countCompleted := hretains.congr rfl
      exact ⟨hcounted.promoteWaiting, (hpromote _).trans hfinished.payloads⟩
  | fail _ _ _ _ _ hfailed hretains =>
      rw [dropCanceled_space]
      exact ⟨hretains, hfailed.payloads⟩
  | failAgain _ _ _ _ _ _ hfailed hretains => exact ⟨hretains, hfailed.payloads⟩
  | retry => exact ⟨hdelay _ _, rfl⟩
  | retryPromote =>
      rw [enqueue_space]
      exact ⟨(hdelay _ _).promoteWaiting, hpromote _⟩
  | requeue => exact ⟨(hrefl.setJobStatus _ .queued).congr rfl, rfl⟩
  | wait => exact ⟨(hrefl.setJobStatus _ .ready).congr rfl, rfl⟩
  | @waitPromote j =>
      rw [enqueue_space]
      have hwait : v.space.Retains (v.space.waitAgain j) := (hrefl.setJobStatus j .ready).congr rfl
      exact ⟨hwait.promoteWaiting, hpromote _⟩
  | erase _ _ hfull | deleteCounted _ _ hfull | deleteFailed _ _ hfull => omega

theorem Tidy.unfinished_step (h : Tidy p L v) (hstep : WStep x v l v')
    (htidy : TidyStep p L x v l v') (hlt : (L ++ l).length < p.ids.length) : Unfinished p v' := by
  have hbefore : L.length < p.ids.length := by
    rw [List.length_append] at hlt
    omega
  obtain ⟨-, hactive, hphase, hprovided, hsized⟩ := h.unfinished hbefore
  obtain ⟨hretains, hpayloads⟩ := htidy.retains hbefore
  have hphase' : Live p v' ∨ v'.status = some .failed := by
    rcases htidy.status with heq | ⟨hready, hrun⟩ | ⟨-, hfailed, -⟩ | ⟨hfull, -⟩
    · rcases hphase with hlive | hfailed
      · exact .inl (h.live_step hlive hstep htidy (heq ▸ hlive.strong.unclosed))
      · exact .inr (heq.trans hfailed)
    · rcases hphase with hlive | hfailed
      · exact .inl (h.live_step hlive hstep htidy (.inr hrun))
      · cases hready.symm.trans hfailed
    · exact .inr hfailed
    · exact absurd hfull (Nat.ne_of_lt hlt)
  refine ⟨?_, ?_, hphase', fun j hj => (hprovided j hj).of_retains hretains hpayloads,
    fun j n hmem => ?_⟩
  · rcases hphase' with hlive | hfailed
    · rcases hlive.strong.unclosed with hwf | hwf <;> exact hash_ne_none hwf
    · exact hash_ne_none hfailed
  · rcases htidy.keeps with ⟨hsame, -⟩ | ⟨j, s, -, hs, hc, -⟩
    · exact hsame.trans hactive
    · exact absurd (h.counted.closing j s hs hc) (Nat.ne_of_lt hbefore)
  · rw [hpayloads]
    rcases h.mem_stages htidy hmem with hold | harises
    · exact hsized j n hold
    · cases harises with
      | busy _ hsize => exact hsize n rfl

theorem Tidy.step (h : Tidy p L v) (hok : x.ok = true) (hstep : WStep x v l v') :
    Tidy p (L ++ l) v' := by
  have htidy := h.inversion hok hstep
  obtain ⟨hrows, hrecorded⟩ := htidy.rows
  exact ⟨h.inv.step hstep, h.counted.step h.inv hstep (h.unbroken_step htidy),
    h.orderly_step htidy,
    h.handled_step htidy (fun i hi => ((hstep.credits h.inv).2 i hi).1),
    fun j hj => hrows ▸ h.rows j hj, hrecorded.trans h.recorded, h.unfinished_step hstep htidy⟩

end Phase

end FlowPilot
