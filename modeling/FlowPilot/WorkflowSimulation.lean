import FlowPilot.WorkflowHoldings

/-! The engine simulates the machine of each workflow: serving a call of a component that follows the
protocol is one step of the machine of the workflow that the call is about, and leaves every other
workflow as it is. -/

namespace FlowPilot

/-- The script that a call runs. -/
def labelOf : Call → Env → Label
  | .claimJob k, _ => .claim k.jobId
  | .trySetJobToRunning k, e => .start k.jobId e.redisTime
  | .completeSuccessfulJob k, e => .success k.jobId e.redisTime
  | .completeFailedJob k n jobIds, _ => .fail k.jobId n jobIds
  | .scheduleJobRetry k _ _, _ => .retry k.jobId
  | .promoteRetryJob k, _ => .promote k.jobId
  | .setJobStatus k _, _ => .mark k.jobId
  | .deleteJobPayload _, _ | .deleteJob _, _ | .removeFromRetryStream _, _ | .deleteSuccessors _, _
  | .deleteWaitingReady _, _ => .erase
  | _, _ => .other

/-- A call of those that a handler makes after the success script reports failure. -/
def tailFailed : (c : Call) → c.Reply → Bool
  | .updateJobStatus _ .completed, b => !b
  | .updateWorkflowStatus _ .completed, b => !b
  | .updateReadyJobs _ _ _, b => !b
  | .getAllJobsForWorkflow _, r => Option.isNone r
  | .removeActiveWorkflow _, b => !b
  | .deleteWorkflow _, b => !b
  | .deleteWaitingReady _, b => !b
  | _, _ => false

/-- What the machine of a workflow is told of a served call. -/
def served (c : Call) (e : Env) (w : World) : Served :=
  ⟨labelOf c e, e.ok, tailFailed c (c.exec e w).1⟩

/-- The call is about the workflow, or about whichever one it takes new work from. -/
def Sees (c : Call) (id : WorkflowIdentity) : Prop := c.about = none ∨ c.about = some id

/-- The jobs of the workflow that a served call adds to `completed_jobs`. -/
def Call.credited (c : Call) (e : Env) (w : World) (id : WorkflowIdentity) : List String :=
  match c with
  | .completeSuccessfulJob k =>
      if e.ok = true ∧ k.identity = id then
        match ((w.redis.workflows id).completeSuccessfulJob e.redisTime k.jobId).1 with
        | .counted _ _ _ => [k.jobId]
        | _ => []
      else []
  | .completeFailedJob k n jobIds =>
      if e.ok = true ∧ k.identity = id then
        k.jobId :: ((w.redis.workflows id).completeFailedJob k.jobId n jobIds).1.canceled.map
          Prod.fst
      else []
  | _ => []

/-- A call credits nothing to any workflow. -/
def Call.Uncredited (c : Call) (e : Env) (w : World) : Prop := ∀ id, c.credited e w id = []

/-- The step leaves the workflow as it is, or is a step of its machine. -/
def Simulated (c : Call) (e : Env) (w : World) (x : Served) (id : WorkflowIdentity)
    (v v' : WorkflowView) : Prop :=
  (v' = v ∧ c.credited e w id = []) ∨ (Sees c id ∧ WStep x v (c.credited e w id) v')

section Views

variable {id : WorkflowIdentity} {w w' : World} {T T' F : Multiset Token} {k : JobKey}
  {s s' : Stage}

def World.setSpace (w : World) (id : WorkflowIdentity) (ks : WorkflowKeyspace) : World :=
  { w with redis := w.redis.setWorkflow id ks }

def World.enqueue (w : World) (id : WorkflowIdentity) (p : Option (String × Int)) : World :=
  { w with redis := w.redis.enqueue id p }

def World.dropCanceled (w : World) (id : WorkflowIdentity) (canceled : List (String × JobStatus)) :
    World :=
  { w with redis := w.redis.dropCanceled id canceled }

theorem view_setSpace_self (id : WorkflowIdentity) (w : World) (ks : WorkflowKeyspace)
    (T : Multiset Token) : view id (w.setSpace id ks) T = { view id w T with space := ks } := by
  have hspace : (w.setSpace id ks).redis.workflows id = ks := Function.update_self ..
  simp only [view, hspace]
  rfl

theorem view_setSpace_of_ne {id id' : WorkflowIdentity} (h : id ≠ id') (w : World)
    (ks : WorkflowKeyspace) (T : Multiset Token) :
    view id (w.setSpace id' ks) T = view id w T := by
  have hspace : (w.setSpace id' ks).redis.workflows id = w.redis.workflows id :=
    Function.update_of_ne h ..
  simp only [view, hspace]
  rfl

/-- The two worlds differ, for this workflow, in nothing but who holds which job. -/
structure SameKeys (id : WorkflowIdentity) (w w' : World) : Prop where
  space : w'.redis.workflows id = w.redis.workflows id
  rows : w'.sqlite.jobIds id = w.sqlite.jobIds id
  recorded : w'.sqlite.recorded id = w.sqlite.recorded id
  active : w'.redis.activeWorkflows = w.redis.activeWorkflows

theorem SameKeys.view_eq (h : SameKeys id w w') {m : String → Multiset Stage}
    (hm : ∀ j, stagesOf (holdings w' T') ⟨id, j⟩ = m j) (T : Multiset Token) :
    view id w' T' = { view id w T with stages := m } := by
  simp only [view, h.space, h.rows, h.recorded, h.active]
  congr 1
  exact funext hm

theorem SameKeys.view_eq_setStages (h : SameKeys id w w') {j : String} {m : Multiset Stage}
    (hself : stagesOf (holdings w' T') ⟨id, j⟩ = m)
    (hother : ∀ i, i ≠ j → stagesOf (holdings w' T') ⟨id, i⟩ = stagesOf (holdings w T) ⟨id, i⟩) :
    view id w' T' = (view id w T).setStages j m := by
  refine h.view_eq (fun i => ?_) T
  by_cases hi : i = j
  · subst hi
    rw [Function.update_self, hself]
  · rw [Function.update_of_ne hi]
    exact hother i hi

theorem SameKeys.view_eq_self (h : SameKeys id w w')
    (hall : ∀ i, stagesOf (holdings w' T') ⟨id, i⟩ = stagesOf (holdings w T) ⟨id, i⟩) :
    view id w' T' = view id w T := h.view_eq hall T

theorem sameKeys_setQueue (id : WorkflowIdentity) (w : World) (q : SortedSet JobKey) :
    SameKeys id w (w.setQueue q) := ⟨rfl, rfl, rfl, rfl⟩

theorem sameKeys_setRetry (id : WorkflowIdentity) (w : World) (q : SortedSet JobKey) :
    SameKeys id w (w.setRetry q) := ⟨rfl, rfl, rfl, rfl⟩

theorem jobKey_ne_of_jobId_ne {i j : String} (h : i ≠ j) :
    (⟨id, j⟩ : JobKey) ≠ ⟨id, i⟩ := fun heq => h (congrArg JobKey.jobId heq).symm

/-- One more program, or one more queue, holds the job. -/
theorem SameKeys.view_cons_self (h : SameKeys k.identity w w')
    (hcons : holdings w' T' = (k, s) ::ₘ holdings w T) :
    view k.identity w' T' = (view k.identity w T).setStages k.jobId
      (s ::ₘ (view k.identity w T).stages k.jobId) := by
  refine h.view_eq_setStages ?_ (fun i hi => ?_)
  · rw [hcons]
    exact stagesOf_cons_self k s _
  · rw [hcons]
    exact stagesOf_cons_of_ne (jobKey_ne_of_jobId_ne hi) s _

theorem SameKeys.view_cons_of_ne (h : SameKeys id w w')
    (hcons : holdings w' T' = (k, s) ::ₘ holdings w T) (hid : id ≠ k.identity) :
    view id w' T' = view id w T := by
  refine h.view_eq_self (fun i => ?_)
  rw [hcons]
  exact stagesOf_other hid s _ i

/-- A queue, which holds a job once, takes the job in. -/
theorem SameKeys.view_add_self (h : SameKeys k.identity w w')
    (hadd : holdings w' T = if (k, s) ∈ holdings w T then holdings w T
      else (k, s) ::ₘ holdings w T) :
    view k.identity w' T = if s ∈ (view k.identity w T).stages k.jobId then view k.identity w T
      else (view k.identity w T).setStages k.jobId
        (s ::ₘ (view k.identity w T).stages k.jobId) := by
  have hmem : s ∈ (view k.identity w T).stages k.jobId ↔ (k, s) ∈ holdings w T := mem_stagesOf
  simp only [hmem]
  split
  · rename_i hin
    rw [if_pos hin] at hadd
    exact h.view_eq_self (fun i => by rw [hadd])
  · rename_i hout
    rw [if_neg hout] at hadd
    exact h.view_cons_self hadd

theorem SameKeys.view_add_of_ne (h : SameKeys id w w')
    (hadd : holdings w' T = if (k, s) ∈ holdings w T then holdings w T
      else (k, s) ::ₘ holdings w T) (hid : id ≠ k.identity) :
    view id w' T = view id w T := by
  split at hadd
  · exact h.view_eq_self (fun i => by rw [hadd])
  · exact h.view_cons_of_ne hadd hid

/-- A queue gives the job up, if it holds it. -/
theorem SameKeys.view_erase_self (h : SameKeys k.identity w w')
    (herase : holdings w' T = (holdings w T).erase (k, s)) :
    view k.identity w' T = (view k.identity w T).setStages k.jobId
      (((view k.identity w T).stages k.jobId).erase s) := by
  refine h.view_eq_setStages ?_ (fun i hi => ?_)
  · rw [herase]
    exact (stagesOf_erase _ k k s).trans (if_pos rfl)
  · rw [herase]
    exact (stagesOf_erase _ k _ s).trans (if_neg (jobKey_ne_of_jobId_ne hi))

theorem SameKeys.view_erase_of_ne (h : SameKeys id w w')
    (herase : holdings w' T = (holdings w T).erase (k, s)) (hid : id ≠ k.identity) :
    view id w' T = view id w T := by
  refine h.view_eq_self (fun i => ?_)
  rw [herase, stagesOf_erase, if_neg (fun heq => hid (congrArg JobKey.identity heq).symm)]

theorem view_hold_self (w : World) (k : JobKey) (s : Stage) (F : Multiset Token) :
    view k.identity w (.hold k s ::ₘ F) = (view k.identity w F).setStages k.jobId
      (s ::ₘ (view k.identity w F).stages k.jobId) :=
  SameKeys.view_cons_self ⟨rfl, rfl, rfl, rfl⟩ (holdings_hold ..)

theorem view_hold_of_ne (h : id ≠ k.identity) (w : World) (s : Stage) (F : Multiset Token) :
    view id w (.hold k s ::ₘ F) = view id w F :=
  SameKeys.view_cons_of_ne ⟨rfl, rfl, rfl, rfl⟩ (holdings_hold ..) h

theorem view_idle (id : WorkflowIdentity) (w : World) (F : Multiset Token) :
    view id w (.idle ::ₘ F) = view id w F := by
  simp only [view, holdings_idle]

theorem setStages_setStages (v : WorkflowView) (j : String) (m m' : Multiset Stage) :
    (v.setStages j m).setStages j m' = v.setStages j m' := by
  simp only [WorkflowView.setStages, Function.update_idem]

theorem view_hold_stages (w : World) (k : JobKey) (s : Stage) (F : Multiset Token) :
    (view k.identity w (.hold k s ::ₘ F)).stages k.jobId =
      s ::ₘ (view k.identity w F).stages k.jobId := by
  rw [view_hold_self, WorkflowView.setStages_stages_self]

theorem mem_view_hold (w : World) (k : JobKey) (s : Stage) (F : Multiset Token) :
    s ∈ (view k.identity w (.hold k s ::ₘ F)).stages k.jobId := by
  rw [view_hold_stages]
  exact Multiset.mem_cons_self ..

theorem view_script_self (w : World) (k : JobKey) (s s' : Stage) (F : Multiset Token)
    (ks : WorkflowKeyspace) : view k.identity (w.setSpace k.identity ks) (.hold k s' ::ₘ F) =
      { view k.identity w (.hold k s ::ₘ F) with space := ks }.setStages k.jobId
        (s' ::ₘ (view k.identity w F).stages k.jobId) := by
  rw [view_setSpace_self, view_hold_self w k s', view_hold_self w k s]
  simp only [WorkflowView.setStages, Function.update_idem]

theorem view_script_of_ne (h : id ≠ k.identity) (w : World) (s s' : Stage) (F : Multiset Token)
    (ks : WorkflowKeyspace) : view id (w.setSpace k.identity ks) (.hold k s' ::ₘ F) =
      view id w (.hold k s ::ₘ F) := by
  rw [view_setSpace_of_ne h, view_hold_of_ne h, view_hold_of_ne h]

/-- The keys of the workflow change, and the program that holds the job lets go of it. -/
theorem view_drop_self (w : World) (k : JobKey) (s : Stage) (F : Multiset Token)
    (ks : WorkflowKeyspace) : view k.identity (w.setSpace k.identity ks) (.idle ::ₘ F) =
      { view k.identity w (.hold k s ::ₘ F) with space := ks }.setStages k.jobId
        ((view k.identity w F).stages k.jobId) := by
  rw [view_setSpace_self, view_idle, view_hold_self w k s]
  simp only [WorkflowView.setStages, Function.update_idem, Function.update_eq_self]

theorem view_drop_of_ne (h : id ≠ k.identity) (w : World) (s : Stage) (F : Multiset Token)
    (ks : WorkflowKeyspace) : view id (w.setSpace k.identity ks) (.idle ::ₘ F) =
      view id w (.hold k s ::ₘ F) := by
  rw [view_setSpace_of_ne h, view_idle, view_hold_of_ne h]

theorem view_enqueue_self (hT : Threaded T) (id : WorkflowIdentity) (w : World)
    (p : Option (String × Int)) : view id (w.enqueue id p) T = (view id w T).enqueue p := by
  match p with
  | none => rfl
  | some (j, n) =>
      exact SameKeys.view_add_self (k := ⟨id, j⟩) (sameKeys_setQueue id w _)
        (holdings_setQueue_add hT ⟨id, j⟩ n)

theorem view_enqueue_of_ne {id id' : WorkflowIdentity} (hT : Threaded T) (h : id ≠ id') (w : World)
    (p : Option (String × Int)) : view id (w.enqueue id' p) T = view id w T := by
  match p with
  | none => rfl
  | some (j, n) =>
      exact (sameKeys_setQueue id w _).view_add_of_ne (holdings_setQueue_add hT ⟨id', j⟩ n) h

theorem view_delay_self (hT : Threaded T) (w : World) (k : JobKey) (n : Int) :
    view k.identity (w.setRetry (w.redis.jobRetryStream.add k n)) T =
      (view k.identity w T).delay k.jobId :=
  (sameKeys_setRetry _ w _).view_add_self (holdings_setRetry_add hT k n)

theorem view_delay_of_ne (hT : Threaded T) (h : id ≠ k.identity) (w : World) (n : Int) :
    view id (w.setRetry (w.redis.jobRetryStream.add k n)) T = view id w T :=
  (sameKeys_setRetry _ w _).view_add_of_ne (holdings_setRetry_add hT k n) h

theorem view_unqueue (hT : Threaded T) (w : World) (k : JobKey) :
    view k.identity (w.setQueue (w.redis.executionQueue.remove k)) T =
      (view k.identity w T).setStages k.jobId
        (((view k.identity w T).stages k.jobId).erase .queued) :=
  (sameKeys_setQueue _ w _).view_erase_self (holdings_setQueue_erase hT k)

theorem view_undelay (hT : Threaded T) (w : World) (k : JobKey) :
    view k.identity (w.setRetry (w.redis.jobRetryStream.remove k)) T =
      (view k.identity w T).setStages k.jobId
        (((view k.identity w T).stages k.jobId).erase .retryWait) :=
  (sameKeys_setRetry _ w _).view_erase_self (holdings_setRetry_erase hT k)

theorem World.dropCanceled_cons (w : World) (id : WorkflowIdentity) (j : String) (st : JobStatus)
    (rest : List (String × JobStatus)) : w.dropCanceled id ((j, st) :: rest) = World.dropCanceled
      (if st = .queued then w.setQueue (w.redis.executionQueue.remove ⟨id, j⟩)
        else if st = .retryDelay then w.setRetry (w.redis.jobRetryStream.remove ⟨id, j⟩) else w)
      id rest := by
  simp only [World.dropCanceled, Redis.dropCanceled, List.foldl_cons]
  split
  · rfl
  · split <;> rfl

theorem view_dropCanceled (hT : Threaded T) (id : WorkflowIdentity)
    (canceled : List (String × JobStatus)) (w : World) :
    view id (w.dropCanceled id canceled) T =
      (view id w T).dropCanceled canceled := by
  induction canceled generalizing w with
  | nil => rfl
  | cons c rest ih =>
      obtain ⟨j, st⟩ := c
      rw [World.dropCanceled_cons, ih]
      refine congrArg (WorkflowView.dropCanceled · rest) ?_
      dsimp only
      split
      · exact view_unqueue hT w ⟨id, j⟩
      · split
        · exact view_undelay hT w ⟨id, j⟩
        · rfl

theorem view_dropCanceled_of_ne {id id' : WorkflowIdentity} (hT : Threaded T) (h : id ≠ id')
    (canceled : List (String × JobStatus)) (w : World) :
    view id (w.dropCanceled id' canceled) T = view id w T := by
  induction canceled generalizing w with
  | nil => rfl
  | cons c rest ih =>
      obtain ⟨j, st⟩ := c
      rw [World.dropCanceled_cons, ih]
      split
      · exact (sameKeys_setQueue id w _).view_erase_of_ne (holdings_setQueue_erase hT ⟨id', j⟩) h
      · split
        · exact (sameKeys_setRetry id w _).view_erase_of_ne (holdings_setRetry_erase hT ⟨id', j⟩) h
        · rfl

end Views

section Cases

variable {c : Call} {e : Env} {x : Served} {w w' : World} {T T' F : Multiset Token} {k : JobKey}
  {s s' : Stage} {M : Multiset Holding}

theorem uncredited_of_not_ok (c : Call) (w : World) (hok : e.ok = false) : c.Uncredited e w := by
  have hnot : ∀ P : Prop, ¬ (e.ok = true ∧ P) := fun P h => by simp [hok] at h
  intro id
  unfold Call.credited
  split
  · exact if_neg (hnot _)
  · exact if_neg (hnot _)
  · rfl

/-- For every workflow the step is one of its machine, or leaves it as it is. -/
def Steps (c : Call) (e : Env) (w : World) (x : Served) (T : Multiset Token) (w' : World)
    (T' : Multiset Token) : Prop :=
  ∀ id, Simulated c e w x id (view id w T) (view id w' T')

/-- The same, where the call is carried out. -/
def Mimics (c : Call) (e : Env) (w : World) (x : Served) (T T' : Multiset Token) : Prop :=
  Steps c e w x T (c.carryOut e w).2 T'

theorem steps_of_view_eq (hcr : c.Uncredited e w) (hview : ∀ id, view id w' T' = view id w T) :
    Steps c e w x T w' T' := fun id => .inl ⟨hview id, hcr id⟩

theorem steps_refl (hcr : c.Uncredited e w) : Steps c e w x T w T :=
  steps_of_view_eq hcr (fun _ => rfl)

/-- A call moves the machine of its own workflow and no other one. -/
theorem steps_of_own {id₀ : WorkflowIdentity} (hsees : Sees c id₀)
    (hother : ∀ id, id ≠ id₀ → view id w' T' = view id w T ∧ c.credited e w id = [])
    (hself : WStep x (view id₀ w T) (c.credited e w id₀) (view id₀ w' T')) :
    Steps c e w x T w' T' := by
  intro id
  by_cases hid : id = id₀
  · subst hid
    exact .inr ⟨hsees, hself⟩
  · exact .inl (hother id hid)

theorem steps_of_uncredited {id₀ : WorkflowIdentity} (hcr : c.Uncredited e w)
    (hsees : Sees c id₀) (hother : ∀ id, id ≠ id₀ → view id w' T' = view id w T)
    (hself : WStep x (view id₀ w T) [] (view id₀ w' T')) : Steps c e w x T w' T' :=
  steps_of_own hsees (fun id hid => ⟨hother id hid, hcr id⟩) ((hcr id₀).symm ▸ hself)

theorem steps_shift (hcr : c.Uncredited e w) (hkeys : ∀ id, SameKeys id w w')
    (hT : holdings w T = (k, s) ::ₘ M) (hT' : holdings w' T' = (k, s') ::ₘ M)
    (hsees : Sees c k.identity) (hshift : Shift (view k.identity w T) x k.jobId s s') :
    Steps c e w x T w' T' := by
  refine steps_of_uncredited hcr hsees (fun id hid => ?_) ?_
  · refine (hkeys id).view_eq_self (fun i => ?_)
    rw [hT, hT', stagesOf_other hid, stagesOf_other hid]
  · have hview : view k.identity w' T' =
        (view k.identity w T).setStages k.jobId (s' ::ₘ stagesOf M k) := by
      refine (hkeys _).view_eq_setStages ?_ (fun i hi => ?_)
      · rw [hT']
        exact stagesOf_cons_self k ..
      · rw [hT, hT', stagesOf_cons_of_ne (jobKey_ne_of_jobId_ne hi),
          stagesOf_cons_of_ne (jobKey_ne_of_jobId_ne hi)]
    rw [hview]
    refine WStep.shift ?_ hshift
    exact (congrArg (fun N => stagesOf N k) hT).trans (stagesOf_cons_self k s M)

theorem sameKeys_refl (w : World) (id : WorkflowIdentity) : SameKeys id w w := ⟨rfl, rfl, rfl, rfl⟩

theorem steps_hold (hcr : c.Uncredited e w) (hsees : Sees c k.identity)
    (hshift : Shift (view k.identity w (.hold k s ::ₘ F)) x k.jobId s s') :
    Steps c e w x (.hold k s ::ₘ F) w (.hold k s' ::ₘ F) :=
  steps_shift hcr (sameKeys_refl w) (holdings_hold ..) (holdings_hold ..) hsees hshift

theorem steps_drop (hcr : c.Uncredited e w) (hsees : Sees c k.identity)
    (hlost : Lost (view k.identity w (.hold k s ::ₘ F)) x k.jobId s) :
    Steps c e w x (.hold k s ::ₘ F) w (.idle ::ₘ F) := by
  refine steps_of_uncredited hcr hsees (fun id hid => ?_) ?_
  · rw [view_idle, view_hold_of_ne hid]
  · have hview : view k.identity w (.idle ::ₘ F) = (view k.identity w (.hold k s ::ₘ F)).setStages
        k.jobId ((view k.identity w F).stages k.jobId) := by
      rw [view_idle, view_hold_self, setStages_setStages]
      simp only [WorkflowView.setStages, Function.update_eq_self]
    rw [hview]
    exact WStep.lose (view_hold_stages ..) hlost

/-- A script changes the keys of its workflow, and its caller holds the job at another stage. -/
theorem steps_script {ks : WorkflowKeyspace} (hcr : c.Uncredited e w) (hsees : Sees c k.identity)
    (hstep : WStep x (view k.identity w (.hold k s ::ₘ F)) []
      ({ view k.identity w (.hold k s ::ₘ F) with space := ks }.setStages k.jobId
        (s' ::ₘ (view k.identity w F).stages k.jobId))) :
    Steps c e w x (.hold k s ::ₘ F) (w.setSpace k.identity ks) (.hold k s' ::ₘ F) := by
  refine steps_of_uncredited hcr hsees (fun id hid => view_script_of_ne hid ..) ?_
  rw [view_script_self w k s]
  exact hstep

/-- A write changes the keys of its workflow and nobody's hold on a job. -/
theorem steps_write {id₀ : WorkflowIdentity} {ks : WorkflowKeyspace} (hcr : c.Uncredited e w)
    (hsees : Sees c id₀) (hstep : WStep x (view id₀ w T) [] { view id₀ w T with space := ks }) :
    Steps c e w x T (w.setSpace id₀ ks) T := by
  refine steps_of_uncredited hcr hsees (fun id hid => view_setSpace_of_ne hid ..) ?_
  rw [view_setSpace_self]
  exact hstep

theorem afterRuntime_eq {r : Bool × JobRuntimeData} (h : Token.afterRuntime k s r ≠ .stuck) :
    Token.afterRuntime k s r = .hold k s := by
  rw [Token.afterRuntime] at h ⊢
  split at h
  · exact absurd rfl h
  · rename_i htorn
    exact if_neg htorn

end Cases

theorem fault_simulated {c : Call} {e : Env} {t t' : Token} (hmove : Move c c.failure t t')
    (hlocal : c.isLocal = false) (ht : t ≠ .stuck) (ht' : t' ≠ .stuck) {x : Served}
    (hx : x.ok = false) (htail : x.tailFailed = tailFailed c c.failure) (hok : e.ok = false)
    (w : World) (F : Multiset Token) :
    Steps c e w x (t ::ₘ F) w (t' ::ₘ F) := by
  have hcr := uncredited_of_not_ok c w hok
  generalize hr : c.failure = r at hmove htail
  cases hmove with
  | stuck => exact absurd rfl ht
  | popNone | typeHash | execute | popLocalNone | dequeueNone | workflow | sqlite | clock
  | brokenList | mark | failedSqlite | failedDelete | failedDeleteWorkflow | failedDeleteWaiting
  | dueNone | countedDelete | brokenDeleteWaiting => exact steps_refl hcr
  | pop | popLocal | dequeue | due => cases hr
  | typeNone | typeFault | claimRefused | claimFault | fetchFault | enqueueFault
  | workflowMissing | listFault | brokenListFault | failFault | brokenFailFault | failedListFault
  | failedReleaseFault | retryFault | promoteFault =>
      exact steps_drop hcr (.inr rfl) (.fault hx)
  | claim | fetch | enqueue | success | list | fail | brokenFail | failedRelease | retry
  | promote => cases hr
  | push => cases hlocal
  | payload k size hsize r =>
      subst hr
      exact steps_hold hcr (.inr rfl) (.badPayload size hsize (.inl hx))
  | start k r =>
      subst hr
      exact steps_hold hcr (.inr rfl) (.unstarted hx)
  | startWorkflow k b | startJob k b =>
      subst hr
      exact steps_hold hcr (.inr rfl) (.startFailed (.inl hx))
  | successRefused k => exact steps_hold hcr (.inr rfl) (.refused (.inl hx))
  | countedJob k y l b | countedWorkflow k y l b =>
      subst hr
      exact steps_hold hcr (.inr rfl) (.broken y l htail (.inl hx))
  | countedReady k y q l b =>
      subst hr
      exact steps_hold hcr (.inr rfl) (.broken y _ htail (.inl hx))
  | countedList k l r =>
      subst hr
      exact steps_hold hcr (.inr rfl) (.broken _ l htail (.inl hx))
  | countedRelease k l b | countedDeleteWorkflow k l b | countedDeleteWaiting k l b =>
      subst hr
      exact steps_hold hcr (.inr rfl) (.broken _ l htail (.inl hx))
  | runtime k st r | brokenRuntime k y r =>
      rw [afterRuntime_eq ht']
      exact steps_refl hcr

section Served

theorem carryOut_isSqlite {c : Call} (hc : c.isSqlite = true) (e : Env) (w : World) :
    ∃ db, w.sqlite.SameRows db ∧ (c.carryOut e w).2 = { w with sqlite := db } := by
  cases c <;> cases hc
  case getAllWorkflowsForClient => exact ⟨_, .refl _, rfl⟩
  case getAllJobsForWorkflow => exact ⟨_, .refl _, rfl⟩
  case updateJobStatus k st => exact ⟨_, Sqlite.sameRows_updateJobStatus .., rfl⟩
  case updateWorkflowStatus id st => exact ⟨_, Sqlite.sameRows_updateWorkflowStatus .., rfl⟩
  case updateReadyJobs id queued ready => exact ⟨_, Sqlite.sameRows_updateReadyJobs .., rfl⟩

theorem view_isSqlite {c : Call} (hc : c.isSqlite = true) (e : Env) (w : World)
    (id : WorkflowIdentity) (T : Multiset Token) :
    view id (c.carryOut e w).2 T = view id w T := by
  obtain ⟨db, hdb, heq⟩ := carryOut_isSqlite hc e w
  rw [heq]
  exact view_sqlite id w hdb T

variable {c : Call} {x : Served} {e : Env} {w : World} {T : Multiset Token} {k : JobKey}
  {s : Stage}

theorem isDeletion_cases {id : WorkflowIdentity} (hc : c.isDeletion = true)
    (habout : c.about = some id) : ∃ j, c = .deleteJobPayload ⟨id, j⟩ ∨ c = .deleteJob ⟨id, j⟩ ∨
      c = .removeFromRetryStream ⟨id, j⟩ ∨ c = .deleteSuccessors ⟨id, j⟩ := by
  cases c <;> cases hc <;> cases habout
  case deleteJobPayload k => exact ⟨k.jobId, .inl rfl⟩
  case deleteJob k => exact ⟨k.jobId, .inr (.inl rfl)⟩
  case removeFromRetryStream k => exact ⟨k.jobId, .inr (.inr (.inl rfl))⟩
  case deleteSuccessors k => exact ⟨k.jobId, .inr (.inr (.inr rfl))⟩

theorem uncredited_of_isSqlite (hc : c.isSqlite = true) (e : Env) (w : World) :
    c.Uncredited e w := by
  cases c <;> cases hc <;> exact fun _ => rfl

theorem uncredited_of_isDeletion (hc : c.isDeletion = true) (e : Env) (w : World) :
    c.Uncredited e w := by
  cases c <;> cases hc <;> exact fun _ => rfl

theorem mimics_deletion (hlabel : x.label = labelOf c e) (hc : c.isDeletion = true)
    (habout : c.about = some k.identity) (hT : Threaded T) (hmem : .hold k s ∈ T)
    (hdel : Deletes s) : Mimics c e w x T T := by
  have hstage : s ∈ (view k.identity w T).stages k.jobId :=
    mem_stagesOf.mpr (Multiset.mem_add.mpr (.inr (mem_threads.mpr hmem)))
  have hcr := uncredited_of_isDeletion hc e w
  obtain ⟨j, rfl | rfl | rfl | rfl⟩ := isDeletion_cases hc habout
  · exact steps_write hcr (.inr habout) (.erase hstage hdel (.payload j) hlabel)
  · exact steps_write hcr (.inr habout) (.erase hstage hdel (.job j) hlabel)
  · refine steps_of_uncredited hcr (.inr habout) (fun id hid => ?_) ?_
    · exact (sameKeys_setRetry id w _).view_erase_of_ne (holdings_setRetry_erase hT _) hid
    · refine WStep.erase hstage hdel ?_ hlabel
      exact view_undelay hT w ⟨k.identity, j⟩ ▸ .retry j
  · exact steps_write hcr (.inr habout) (.erase hstage hdel (.successors j) hlabel)

end Served

section Scripts

variable {c : Call} {x : Served} {e : Env} {w : World} {F : Multiset Token} {k : JobKey}
  {s s' : Stage}

theorem Threaded.of_cons {t : Token} (h : Threaded (t ::ₘ F)) : Threaded F := fun k =>
  ⟨fun hmem => (h k).1 (Multiset.mem_cons_of_mem hmem),
    fun hmem => (h k).2 (Multiset.mem_cons_of_mem hmem)⟩

/-- A token that no sorted set stands for. -/
def Token.Threads (t : Token) : Prop := ∀ k, t ≠ .hold k .queued ∧ t ≠ .hold k .retryWait

theorem Threaded.cons {t : Token} (h : Threaded F) (ht : t.Threads) : Threaded (t ::ₘ F) := by
  intro k
  rw [Multiset.mem_cons, Multiset.mem_cons]
  exact ⟨not_or.mpr ⟨(ht k).1.symm, (h k).1⟩, not_or.mpr ⟨(ht k).2.symm, (h k).2⟩⟩

theorem Token.threads_idle : Token.Threads .idle := fun _ => ⟨nofun, nofun⟩

theorem Token.threads_hold (hqueued : s ≠ .queued) (hretry : s ≠ .retryWait) :
    Token.Threads (.hold k s) := fun _ =>
  ⟨fun h => hqueued (Token.hold.inj h).2, fun h => hretry (Token.hold.inj h).2⟩

theorem Stage.ofStart_ne (r : StartJobResult) :
    Stage.ofStart r ≠ .queued ∧ Stage.ofStart r ≠ .retryWait := by
  cases r <;> exact ⟨nofun, nofun⟩

theorem Stage.ofPayload_ne (size : Nat) (r : Option (List UInt8)) :
    Stage.ofPayload size r ≠ .queued ∧ Stage.ofPayload size r ≠ .retryWait := by
  rw [Stage.ofPayload]
  split <;> exact ⟨(by simp), (by simp)⟩

theorem Move.threads {c : Call} {r : c.Reply} {t t' : Token} (h : Move c r t t') : t'.Threads := by
  cases h with
  | payload k size _ r =>
      exact Token.threads_hold (Stage.ofPayload_ne size r).1 (Stage.ofPayload_ne size r).2
  | start k r => exact Token.threads_hold (Stage.ofStart_ne r).1 (Stage.ofStart_ne r).2
  | runtime | brokenRuntime =>
      rw [Token.afterRuntime]
      split
      · exact fun _ => ⟨(by simp), (by simp)⟩
      · exact Token.threads_hold (by simp) (by simp)
  | startWorkflow k b | startJob k b | countedJob k y l b | countedWorkflow k y l b
  | countedReady k y q l b | countedRelease k l b | countedDeleteWorkflow k l b
  | countedDeleteWaiting k l b => cases b <;> exact Token.threads_hold (by simp) (by simp)
  | countedList k l r => cases r <;> exact Token.threads_hold (by simp) (by simp)
  | _ => exact fun _ => ⟨(by simp), (by simp)⟩

theorem mimics_claim (hlabel : x.label = .claim k.jobId)
    (hr : ((Call.claimJob k).carryOut e w).1 = some true) :
    Mimics (.claimJob k) e w x (.hold k .popped ::ₘ F) (.hold k .claimed ::ₘ F) := by
  replace hr : ((w.redis.workflows k.identity).claimJob k.jobId).1 = true := Option.some.inj hr
  have hworld : ((Call.claimJob k).carryOut e w).2 = w.setSpace k.identity
      ((w.redis.workflows k.identity).claimJob k.jobId).2 := rfl
  rw [Mimics, hworld]
  refine steps_script (fun _ => rfl) (.inr rfl) ?_
  rw [WorkflowKeyspace.claimJob] at hr ⊢
  split at hr
  · rename_i hst
    rw [if_pos hst]
    exact WStep.claim hlabel (view_hold_stages ..) hst
  · cases hr

theorem claimJob_refused {j : String} {ks : WorkflowKeyspace} (h : (ks.claimJob j).1 = false) :
    (ks.claimJob j).2 = ks ∧ ks.jobStatus j ≠ some .ready ∧ ks.jobStatus j ≠ some .queued := by
  rw [WorkflowKeyspace.claimJob] at h ⊢
  split at h
  · cases h
  · rename_i hst
    rw [if_neg hst]
    exact ⟨rfl, not_or.mp hst⟩

theorem setSpace_workflows (w : World) (id : WorkflowIdentity) :
    w.setSpace id (w.redis.workflows id) = w := by
  simp only [World.setSpace, Redis.setWorkflow, Function.update_eq_self]

theorem mimics_claimRefused (hr : ((Call.claimJob k).carryOut e w).1 = some false) :
    Mimics (.claimJob k) e w x (.hold k .popped ::ₘ F) (.idle ::ₘ F) := by
  have hworld : ((Call.claimJob k).carryOut e w).2 = w.setSpace k.identity
      ((w.redis.workflows k.identity).claimJob k.jobId).2 := rfl
  obtain ⟨hsame, hst⟩ := claimJob_refused (Option.some.inj hr)
  rw [Mimics, hworld, hsame, setSpace_workflows]
  exact steps_drop (fun _ => rfl) (.inr rfl) (.unclaimable hst)

theorem mimics_start (hlabel : x.label = .start k.jobId e.redisTime) :
    Mimics (.trySetJobToRunning k) e w x (.hold k .dispatched ::ₘ F)
      (.hold k (.ofStart ((Call.trySetJobToRunning k).carryOut e w).1) ::ₘ F) :=
  steps_script (fun _ => rfl) (.inr rfl) (.start hlabel (view_hold_stages ..))

theorem carryOut_completeSuccessfulJob (k : JobKey) (e : Env) (w : World) :
    ((Call.completeSuccessfulJob k).carryOut e w).2 =
      let p := (w.redis.workflows k.identity).completeSuccessfulJob e.redisTime k.jobId
      (w.setSpace k.identity p.2).enqueue k.identity (Redis.promotedBy p.1) := rfl

theorem carryOut_completeFailedJob (k : JobKey) (n : Int) (jobIds : List String) (e : Env)
    (w : World) : ((Call.completeFailedJob k n jobIds).carryOut e w).2 =
      let p := (w.redis.workflows k.identity).completeFailedJob k.jobId n jobIds
      (w.setSpace k.identity p.2).dropCanceled k.identity p.1.canceled := rfl

theorem carryOut_promoteRetryJob (k : JobKey) (e : Env) (w : World) :
    ((Call.promoteRetryJob k).carryOut e w).2 =
      let p := (w.redis.workflows k.identity).promoteRetryJob k.jobId
      (w.setSpace k.identity p.2).enqueue k.identity p.1 := rfl

theorem credited_of_about_ne {id : WorkflowIdentity} (h : c.about ≠ some id) :
    c.credited e w id = [] := by
  unfold Call.credited
  split
  · exact if_neg (fun hand => h (congrArg some hand.2))
  · exact if_neg (fun hand => h (congrArg some hand.2))
  · rfl

theorem credited_completeSuccessfulJob (hok : e.ok = true) (k : JobKey) :
    (Call.completeSuccessfulJob k).credited e w k.identity =
      match ((w.redis.workflows k.identity).completeSuccessfulJob e.redisTime k.jobId).1 with
      | .counted _ _ _ => [k.jobId]
      | _ => [] := if_pos ⟨hok, rfl⟩

theorem credited_completeFailedJob (hok : e.ok = true) (k : JobKey) (n : Int)
    (jobIds : List String) : (Call.completeFailedJob k n jobIds).credited e w k.identity =
      k.jobId :: ((w.redis.workflows k.identity).completeFailedJob k.jobId n jobIds).1.canceled.map
        Prod.fst := if_pos ⟨hok, rfl⟩

theorem uncredited_completeSuccessfulJob
    (h : ∀ done promoted ready, ((w.redis.workflows k.identity).completeSuccessfulJob e.redisTime
      k.jobId).1 ≠ .counted done promoted ready) :
    (Call.completeSuccessfulJob k).Uncredited e w := by
  intro id
  by_cases hid : k.identity = id
  · subst hid
    unfold Call.credited
    dsimp only
    split
    · split
      · rename_i hcounted
        exact absurd hcounted (h _ _ _)
      · rfl
    · rfl
  · exact credited_of_about_ne (fun h => hid (Option.some.inj h))

theorem mimics_success (hok : e.ok = true) (hlabel : x.label = .success k.jobId e.redisTime)
    (hF : Threaded F) {r : Redis.CompletedJob}
    (hr : ((Call.completeSuccessfulJob k).carryOut e w).1 = some r) :
    Mimics (.completeSuccessfulJob k) e w x (.hold k (.reported .completed) ::ₘ F)
      (.hold k (.counted (.ofCompleted r.workflowCompleted)
        (r.promoted.toList ++ r.readyJobIds)) ::ₘ F) := by
  have hT : ∀ y l, Threaded (.hold k (.counted y l) ::ₘ F) := fun y l =>
    hF.cons (Token.threads_hold nofun nofun)
  rw [Mimics, carryOut_completeSuccessfulJob]
  dsimp only
  replace hr : Redis.CompletedJob.ofOutcome ((w.redis.workflows k.identity).completeSuccessfulJob
    e.redisTime k.jobId).1 = some r := hr
  generalize hout : ((w.redis.workflows k.identity).completeSuccessfulJob e.redisTime k.jobId).1 =
    outcome at hr ⊢
  cases outcome with
  | missing | notRunning | runTimeExceeded => cases hr
  | alreadyCompleted =>
      cases hr
      obtain ⟨hsame, hst⟩ := (WorkflowKeyspace.completeSuccessfulJob_refused hout).2.2 rfl
      rw [hsame, setSpace_workflows]
      have hcr : (Call.completeSuccessfulJob k).Uncredited e w :=
        uncredited_completeSuccessfulJob (fun _ _ _ => hout.symm ▸ nofun)
      exact steps_hold hcr (.inr rfl) (.again hst)
  | counted done promoted ready =>
      cases hr
      refine steps_of_own (.inr rfl) (fun id hid => ⟨?_, ?_⟩) ?_
      · rw [view_enqueue_of_ne (hT _ _) hid]
        exact view_script_of_ne hid ..
      · exact credited_of_about_ne (fun h => hid (Option.some.inj h).symm)
      · rw [view_enqueue_self (hT _ _), view_script_self w k (.reported .completed),
          credited_completeSuccessfulJob hok, hout]
        refine WStep.success hlabel (view_hold_stages ..) hout (fun i hi => ?_)
        rcases List.mem_append.mp hi with hi | hi
        · exact .inr (Option.mem_toList.mp hi).symm
        · exact .inl (List.mem_filter.mp hi).1

theorem mimics_successRefused (hlabel : x.label = .success k.jobId e.redisTime)
    (hr : ((Call.completeSuccessfulJob k).carryOut e w).1 = none) :
    Mimics (.completeSuccessfulJob k) e w x (.hold k (.reported .completed) ::ₘ F)
      (.hold k (.reported .failed) ::ₘ F) := by
  rw [Mimics, carryOut_completeSuccessfulJob]
  dsimp only
  replace hr : Redis.CompletedJob.ofOutcome ((w.redis.workflows k.identity).completeSuccessfulJob
    e.redisTime k.jobId).1 = none := hr
  generalize hout : ((w.redis.workflows k.identity).completeSuccessfulJob e.redisTime k.jobId).1 =
    outcome at hr ⊢
  have hrefused := WorkflowKeyspace.completeSuccessfulJob_refused hout
  have hcr : (Call.completeSuccessfulJob k).Uncredited e w := by
    refine uncredited_completeSuccessfulJob (fun _ _ _ hcounted => ?_)
    rw [hcounted] at hout
    subst hout
    cases hr
  cases outcome with
  | missing =>
      obtain ⟨hsame, hst⟩ := hrefused.1 rfl
      rw [hsame, setSpace_workflows]
      refine steps_hold hcr (.inr rfl) (.refused (.inr ?_))
      rcases hst with hst | hst
      · exact .inr (fun h => by cases hst.symm.trans h)
      · exact .inl hst
  | notRunning =>
      obtain ⟨hsame, hst⟩ := hrefused.2.1 rfl
      rw [hsame, setSpace_workflows]
      exact steps_hold hcr (.inr rfl) (.refused (.inr (.inr hst)))
  | runTimeExceeded =>
      exact steps_script hcr (.inr rfl) (.expire hlabel (view_hold_stages ..) hout)
  | alreadyCompleted | counted => cases hr

theorem mimics_fail (hok : e.ok = true) {n : Int} {jobIds : List String}
    (hlabel : x.label = .fail k.jobId n jobIds) (hF : Threaded F)
    (hstage : (∃ st, s = .listing st jobIds) ∨ ∃ y, s = .broken y) {r : Redis.FailedJob}
    (hr : ((Call.completeFailedJob k n jobIds).carryOut e w).1 = some r) :
    Mimics (.completeFailedJob k n jobIds) e w x (.hold k s ::ₘ F)
      (.hold k (.failed (.ofCompleted r.workflowCompleted)) ::ₘ F) := by
  have hT : ∀ y, Threaded (.hold k (.failed y) ::ₘ F) := fun y =>
    hF.cons (Token.threads_hold nofun nofun)
  cases hr
  rw [Mimics, carryOut_completeFailedJob]
  dsimp only
  refine steps_of_own (.inr rfl) (fun id hid => ⟨?_, ?_⟩) ?_
  · rw [view_dropCanceled_of_ne (hT _) hid]
    exact view_script_of_ne hid ..
  · exact credited_of_about_ne (fun h => hid (Option.some.inj h).symm)
  · rw [view_dropCanceled (hT _), view_script_self w k s, credited_completeFailedJob hok]
    exact WStep.fail hlabel (view_hold_stages ..) hstage

theorem mimics_retry {st : JobStatus} (hst : st ≠ .aborted) {n retryAtMs : Int}
    (hlabel : x.label = .retry k.jobId) (hF : Threaded F) :
    Mimics (.scheduleJobRetry k n retryAtMs) e w x (.hold k (.reported st) ::ₘ F)
      (.idle ::ₘ F) := by
  have hT : Threaded (.idle ::ₘ F) := hF.cons Token.threads_idle
  have hworld : ((Call.scheduleJobRetry k n retryAtMs).carryOut e w).2 =
      let p := (w.redis.workflows k.identity).scheduleJobRetry k.jobId n
      let w' := w.setSpace k.identity p.2
      (w'.setRetry (w'.redis.jobRetryStream.add k retryAtMs)).enqueue k.identity p.1 := rfl
  rw [Mimics, hworld]
  dsimp only
  refine steps_of_uncredited (fun _ => rfl) (.inr rfl) (fun id hid => ?_) ?_
  · rw [view_enqueue_of_ne hT hid, view_delay_of_ne hT hid]
    exact view_drop_of_ne hid ..
  · rw [view_enqueue_self hT, view_delay_self hT, view_drop_self w k (.reported st)]
    exact WStep.retry hlabel hst (view_hold_stages ..)

theorem mimics_promote (hlabel : x.label = .promote k.jobId) (hF : Threaded F) :
    Mimics (.promoteRetryJob k) e w x (.hold k .retryHeld ::ₘ F) (.idle ::ₘ F) := by
  have hT : Threaded (.idle ::ₘ F) := hF.cons Token.threads_idle
  rw [Mimics, carryOut_promoteRetryJob]
  dsimp only
  refine steps_of_uncredited (fun _ => rfl) (.inr rfl) (fun id hid => ?_) ?_
  · rw [view_enqueue_of_ne hT hid]
    exact view_drop_of_ne hid ..
  · rw [view_enqueue_self hT, view_drop_self w k .retryHeld]
    exact WStep.promote hlabel (view_hold_stages ..)

theorem view_removeActive_of_ne {id id' : WorkflowIdentity} (h : id ≠ id') (w : World)
    (T : Multiset Token) :
    view id { w with redis := (w.redis.removeActiveWorkflow id').2 } T = view id w T := by
  have hactive : id.workflowId ∈ (w.redis.removeActiveWorkflow id').2.activeWorkflows id.clientId ↔
      id.workflowId ∈ w.redis.activeWorkflows id.clientId := by
    simp only [Redis.removeActiveWorkflow]
    by_cases hclient : id.clientId = id'.clientId
    · rw [hclient, Function.update_self, Finset.mem_erase]
      refine and_iff_right (fun hworkflow => h ?_)
      cases id
      cases id'
      cases hclient
      cases hworkflow
      rfl
    · rw [Function.update_of_ne hclient]
  simp only [view, hactive]
  rfl

theorem view_removeActive_self (id : WorkflowIdentity) (w : World) (T : Multiset Token) :
    view id { w with redis := (w.redis.removeActiveWorkflow id).2 } T =
      { view id w T with active := false } := by
  have hactive : id.workflowId ∉
      (w.redis.removeActiveWorkflow id).2.activeWorkflows id.clientId := by
    simp only [Redis.removeActiveWorkflow, Function.update_self]
    exact Finset.notMem_erase id.workflowId _
  simp only [view, decide_eq_false hactive]
  rfl

theorem mimics_release (s' : Stage)
    (hstep : (view k.identity w (.hold k s ::ₘ F)).active = true →
      WStep x (view k.identity w (.hold k s ::ₘ F)) []
        ({ view k.identity w (.hold k s ::ₘ F) with active := false }.setStages k.jobId
          (s' ::ₘ (view k.identity w F).stages k.jobId)))
    (hr : ((Call.removeActiveWorkflow k.identity).carryOut e w).1 = true) :
    Mimics (.removeActiveWorkflow k.identity) e w x (.hold k s ::ₘ F) (.hold k s' ::ₘ F) := by
  refine steps_of_uncredited (fun _ => rfl) (.inr rfl) (fun id hid => ?_) ?_
  · refine (view_removeActive_of_ne hid ..).trans ?_
    rw [view_hold_of_ne hid, view_hold_of_ne hid]
  · have hview : view k.identity { w with redis := (w.redis.removeActiveWorkflow k.identity).2 }
        (.hold k s' ::ₘ F) = { view k.identity w (.hold k s ::ₘ F) with active := false }.setStages
          k.jobId (s' ::ₘ (view k.identity w F).stages k.jobId) := by
      rw [view_removeActive_self, view_hold_self w k s', view_hold_self w k s]
      simp only [WorkflowView.setStages, Function.update_idem]
    exact hview ▸ hstep hr

theorem removeActive_refused {id : WorkflowIdentity}
    (hr : ((Call.removeActiveWorkflow id).carryOut e w).1 = false) :
    ((Call.removeActiveWorkflow id).carryOut e w).2 = w ∧
      id.workflowId ∉ w.redis.activeWorkflows id.clientId := by
  have hnot : id.workflowId ∉ w.redis.activeWorkflows id.clientId := of_decide_eq_false hr
  refine ⟨?_, hnot⟩
  simp only [Call.carryOut, Call.onRedis, Redis.removeActiveWorkflow,
    Finset.erase_eq_of_notMem hnot, Function.update_eq_self]

end Scripts

section Transfers

variable {x : Served} {e : Env} {w : World} {F : Multiset Token} {k : JobKey} {s : Stage}

theorem popExecutionQueue_none (hr : (Call.popExecutionQueue.carryOut e w).1 = none) :
    (Call.popExecutionQueue.carryOut e w).2 = w := by
  simp only [Call.carryOut, Call.onRedis, Redis.popExecutionQueue] at hr ⊢
  split at hr
  · rfl
  · cases hr

theorem popExecutionQueue_some (hr : (Call.popExecutionQueue.carryOut e w).1 = some k) :
    k ∈ w.redis.executionQueue.members ∧
      (Call.popExecutionQueue.carryOut e w).2 = w.setQueue (w.redis.executionQueue.remove k) := by
  simp only [Call.carryOut, Call.onRedis, Redis.popExecutionQueue] at hr ⊢
  split at hr
  · cases hr
  · rename_i k' n rest hpop
    cases hr
    obtain ⟨hmem, rfl⟩ := SortedSet.popMax_eq_some hpop
    exact ⟨hmem, rfl⟩

theorem dequeueDueJobRetry_none (hr : (Call.dequeueDueJobRetry.carryOut e w).1 = none) :
    (Call.dequeueDueJobRetry.carryOut e w).2 = w := by
  simp only [Call.carryOut, Call.onRedis, Redis.dequeueDueJobRetry] at hr ⊢
  split at hr
  · rfl
  · cases hr

theorem dequeueDueJobRetry_some (hr : (Call.dequeueDueJobRetry.carryOut e w).1 = some k) :
    k ∈ w.redis.jobRetryStream.members ∧
      (Call.dequeueDueJobRetry.carryOut e w).2 = w.setRetry (w.redis.jobRetryStream.remove k) := by
  simp only [Call.carryOut, Call.onRedis, Redis.dequeueDueJobRetry] at hr ⊢
  split at hr
  · cases hr
  · rename_i k' n hleast
    cases hr
    exact ⟨SortedSet.leastUpTo_mem hleast, rfl⟩

theorem dequeueJobCompletion_none (hr : (Call.dequeueJobCompletion.carryOut e w).1 = none) :
    (Call.dequeueJobCompletion.carryOut e w).2 = w := by
  simp only [Call.carryOut, Call.onRedis, Redis.dequeueJobCompletion] at hr ⊢
  split at hr
  · rfl
  · cases hr

theorem dequeueJobCompletion_some {ev : JobCompletionData}
    (hr : (Call.dequeueJobCompletion.carryOut e w).1 = some ev) :
    (∀ id, SameKeys id w (Call.dequeueJobCompletion.carryOut e w).2) ∧
      holdings w F = (ev.key, .reported ev.status) ::ₘ
        holdings (Call.dequeueJobCompletion.carryOut e w).2 F := by
  simp only [Call.carryOut, Call.onRedis, Redis.dequeueJobCompletion] at hr ⊢
  split at hr
  · cases hr
  · rename_i ev' rest hstream
    cases hr
    refine ⟨fun id => ⟨rfl, rfl, rfl, rfl⟩, ?_⟩
    simp only [holdings, World.holdings, hstream, streamHoldings, List.map_cons,
      ← Multiset.cons_coe, Multiset.add_cons, Multiset.cons_add]

theorem popLocal_none (hr : (Call.popLocal.carryOut e w).1 = none) :
    (Call.popLocal.carryOut e w).2 = w := by
  simp only [Call.carryOut, Call.popSlot] at hr ⊢
  split at hr
  · rfl
  · cases hr

theorem localHoldings_eraseIdx {queue : List JobExeData} {slot : Nat} {d : JobExeData}
    (h : queue[slot]? = some d) :
    localHoldings queue = (d.key, .dispatched) ::ₘ localHoldings (queue.eraseIdx slot) := by
  obtain ⟨hlt, rfl⟩ := List.getElem?_eq_some_iff.mp h
  refine Multiset.coe_eq_coe.mpr ?_
  exact (List.getElem_cons_eraseIdx_perm hlt).symm.map (fun e => (e.key, Stage.dispatched))

theorem popLocal_some {d : JobExeData} (hr : (Call.popLocal.carryOut e w).1 = some d) :
    (∀ id, SameKeys id w (Call.popLocal.carryOut e w).2) ∧
      holdings w F = (d.key, .dispatched) ::ₘ holdings (Call.popLocal.carryOut e w).2 F := by
  simp only [Call.carryOut, Call.popSlot] at hr ⊢
  split at hr
  · cases hr
  · rename_i d' hslot
    cases hr
    refine ⟨fun id => ⟨rfl, rfl, rfl, rfl⟩, ?_⟩
    simp only [holdings, World.holdings, localHoldings_eraseIdx hslot, Multiset.add_cons,
      Multiset.cons_add]

theorem holdings_pushLocal (d : JobExeData) :
    holdings ((Call.pushLocal d).carryOut e w).2 F = (d.key, .dispatched) ::ₘ holdings w F := by
  have hpush : localHoldings (w.localQueue ++ [d]) =
      (d.key, .dispatched) ::ₘ localHoldings w.localQueue :=
    Multiset.coe_eq_coe.mpr ((List.perm_append_singleton d w.localQueue).map
      (fun e => (e.key, Stage.dispatched)))
  simp only [Call.carryOut, holdings, World.holdings, hpush, Multiset.add_cons, Multiset.cons_add]

theorem holdings_enqueueJobCompletion (ev : JobCompletionData) :
    holdings ((Call.enqueueJobCompletion ev).carryOut e w).2 F =
      (ev.key, .reported ev.status) ::ₘ holdings w F := by
  have hpush : streamHoldings (w.redis.jobCompletionStream ++ [ev]) =
      (ev.key, .reported ev.status) ::ₘ streamHoldings w.redis.jobCompletionStream :=
    Multiset.coe_eq_coe.mpr ((List.perm_append_singleton ev w.redis.jobCompletionStream).map
      (fun e => (e.key, Stage.reported e.status)))
  simp only [Call.carryOut, Call.onRedis, Redis.enqueueJobCompletion, holdings, World.holdings,
    hpush, Multiset.add_cons, Multiset.cons_add]

theorem mem_jobIds {db : Sqlite} {k : JobKey} :
    k.jobId ∈ db.jobIds k.identity ↔ db.jobs.any (JobRow.isOf k) = true := by
  simp only [Sqlite.jobIds, List.mem_map, List.mem_filter, List.any_eq_true, JobRow.isOf,
    decide_eq_true_eq]
  constructor
  · rintro ⟨k', ⟨⟨r, hr, rfl⟩, hid⟩, hj⟩
    exact ⟨r, hr, by cases hk : r.key; cases hk' : k; simp_all⟩
  · rintro ⟨r, hr, rfl⟩
    exact ⟨_, ⟨⟨r, hr, rfl⟩, rfl⟩, rfl⟩

theorem updateJobStatus_refused {st : JobStatus}
    (hst : ∀ now, (JobRow.transition now st).isSome = true)
    (hr : ((Call.updateJobStatus k st).carryOut e w).1 = false) :
    k.jobId ∉ w.sqlite.jobIds k.identity := by
  simp only [Call.carryOut, Call.onSqlite, Sqlite.updateJobStatus] at hr
  split at hr
  · rename_i hnone
    have := hst e.time
    rw [hnone] at this
    cases this
  · split at hr
    · cases hr
    · rename_i hany
      exact fun hmem => hany (mem_jobIds.mp hmem)

theorem updateWorkflowStatus_refused {id : WorkflowIdentity} {st : WorkflowStatus}
    (hst : ∀ now, (WorkflowRow.transition now st).isSome = true)
    (hr : ((Call.updateWorkflowStatus id st).carryOut e w).1 = false) :
    w.sqlite.recorded id = false := by
  simp only [Call.carryOut, Call.onSqlite, Sqlite.updateWorkflowStatus] at hr
  split at hr
  · rename_i hnone
    have := hst e.time
    rw [hnone] at this
    cases this
  · split at hr
    · cases hr
    · rename_i hany
      exact Bool.eq_false_iff.mpr hany

theorem updateReadyJobs_refused {id : WorkflowIdentity} {queued ready : List String}
    (hr : ((Call.updateReadyJobs id queued ready).carryOut e w).1 = false) :
    ∃ j ∈ queued ++ ready, j ∉ w.sqlite.jobIds id := by
  simp only [Call.carryOut, Call.onSqlite, Sqlite.updateReadyJobs] at hr
  split at hr
  · cases hr
  · rename_i hall
    rw [List.all_eq_true] at hall
    push Not at hall
    obtain ⟨j, hj, hnone⟩ := hall
    refine ⟨j, ?_, fun hmem => hnone (mem_jobIds.mp hmem)⟩
    rw [List.mem_append] at hj ⊢
    exact hj.symm

end Transfers

section Simulation

variable {x : Served} {e : Env} {w : World} {F : Multiset Token} {k : JobKey} {s : Stage}

theorem mimics_note {c : Call} {b : Bool} {s' : Stage} (hc : c.isSqlite = true)
    (hsees : Sees c k.identity)
    (hshift : b = false → Shift (view k.identity w (.hold k s ::ₘ F)) x k.jobId s s') :
    Mimics c e w x (.hold k s ::ₘ F) (.hold k (if b then s else s') ::ₘ F) := by
  have hcr := uncredited_of_isSqlite hc e w
  intro id
  rw [view_isSqlite hc]
  cases b with
  | true => exact steps_refl hcr id
  | false => exact steps_hold hcr hsees (hshift rfl) id

theorem mimics_deleteCounted {l : List String} :
    Mimics (.deleteWorkflow k.identity) e w x (.hold k (.counted .released l) ::ₘ F)
      (.hold k (.counted .deleted l) ::ₘ F) :=
  steps_script (fun _ => rfl) (.inr rfl) (.deleteCounted (view_hold_stages ..))

theorem mimics_deleteFailed : Mimics (.deleteWorkflow k.identity) e w x
    (.hold k (.failed .released) ::ₘ F) (.hold k (.failed .released) ::ₘ F) :=
  steps_write (fun _ => rfl) (.inr rfl) (.deleteFailed (mem_view_hold ..))

theorem mimics_deleteWaiting (hlabel : x.label = .erase) (hdel : Deletes s) :
    Mimics (.deleteWaitingReady k.identity) e w x (.hold k s ::ₘ F) (.hold k s ::ₘ F) :=
  steps_write (fun _ => rfl) (.inr rfl) (.erase (mem_view_hold ..) hdel .waiting hlabel)

theorem mimics_mark {y : Closing} (hlabel : x.label = .mark k.jobId) :
    Mimics (.setJobStatus k .aborted) e w x (.hold k (.failed y) ::ₘ F)
      (.hold k (.failed y) ::ₘ F) :=
  steps_write (fun _ => rfl) (.inr rfl) (.mark hlabel (mem_view_hold ..))

theorem deleteWorkflow_refused {id : WorkflowIdentity}
    (hr : ((Call.deleteWorkflow id).carryOut e w).1 = false) :
    ((Call.deleteWorkflow id).carryOut e w).2 = w ∧ (w.redis.workflows id).hash = none := by
  have hnone : (w.redis.workflows id).hash = none :=
    Option.isNone_iff_eq_none.mp (Option.isSome_eq_false_iff.mp hr)
  have hworld : ((Call.deleteWorkflow id).carryOut e w).2 =
      w.setSpace id { w.redis.workflows id with hash := none } := rfl
  refine ⟨?_, hnone⟩
  rw [hworld, ← hnone]
  exact setSpace_workflows w id

theorem mimics_payload {size : Nat} (hsize : 0 < size) :
    Mimics (.fetchJobPayload k) e w x (.hold k (.fetched size) ::ₘ F)
      (.hold k (.ofPayload size ((w.redis.workflows k.identity).payloads k.jobId)) ::ₘ F) := by
  refine steps_hold (fun _ => rfl) (.inr rfl) ?_
  rw [Stage.ofPayload]
  split
  · exact .verify size
  · rename_i hbad
    refine .badPayload size hsize (.inr (fun bytes hbytes hlen => hbad ?_))
    replace hbytes : (w.redis.workflows k.identity).payloads k.jobId = some bytes := hbytes
    simp only [hbytes, Option.any_some, beq_iff_eq, hlen]

theorem mimics_push (d : JobExeData) (hs : Dispatches s) :
    Mimics (.pushLocal d) e w x (.hold d.key s ::ₘ F) (.idle ::ₘ F) :=
  steps_shift (fun _ => rfl) (fun _ => ⟨rfl, rfl, rfl, rfl⟩) (holdings_hold ..)
    ((holdings_idle ..).trans (holdings_pushLocal d)) (.inr rfl) (.dispatch hs)

theorem mimics_enqueueCompletion (ev : JobCompletionData) (hs : Reports s ev.status) :
    Mimics (.enqueueJobCompletion ev) e w x (.hold ev.key s ::ₘ F) (.idle ::ₘ F) :=
  steps_shift (fun _ => rfl) (fun _ => ⟨rfl, rfl, rfl, rfl⟩) (holdings_hold ..)
    ((holdings_idle ..).trans (holdings_enqueueJobCompletion ev)) (.inr rfl) (.report hs)

/-- What a program takes from a queue of the process or from the completion stream it holds at the
stage that the queue held it at. -/
theorem steps_take {c : Call} {w' : World} (hcr : c.Uncredited e w)
    (htake : (∀ id, SameKeys id w w') ∧ holdings w F = (k, s) ::ₘ holdings w' F) :
    Steps c e w x (.idle ::ₘ F) w' (.hold k s ::ₘ F) := by
  refine steps_of_view_eq hcr (fun id => (htake.1 id).view_eq_self (fun i => ?_))
  rw [holdings_idle, holdings_hold, htake.2]

theorem mimics_list {st : JobStatus} {rows : List JobRow}
    (hr : ((Call.getAllJobsForWorkflow k.identity).carryOut e w).1 = some rows) :
    Mimics (.getAllJobsForWorkflow k.identity) e w x (.hold k (.reported st) ::ₘ F)
      (.hold k (.listing st (rows.map (fun r => r.key.jobId))) ::ₘ F) := by
  cases hr
  rw [Sqlite.map_getAllJobsForWorkflow]
  exact steps_hold (fun _ => rfl) (.inr rfl) (.list st)

theorem mimics_of_unchanged {c : Call} {T : Multiset Token} (hcr : c.Uncredited e w)
    (h : (c.carryOut e w).2 = w) : Mimics c e w x T T := by
  rw [Mimics, h]
  exact steps_refl hcr

theorem mimics_pop (hr : (Call.popExecutionQueue.carryOut e w).1 = some k) :
    Mimics .popExecutionQueue e w x (.idle ::ₘ F) (.hold k .popped ::ₘ F) := by
  obtain ⟨hmem, hworld⟩ := popExecutionQueue_some hr
  rw [Mimics, hworld]
  exact steps_shift (fun _ => rfl) (fun id => sameKeys_setQueue id w _)
    ((holdings_idle ..).trans (holdings_setQueue_remove hmem)) (holdings_hold ..) (.inl rfl) .pop

theorem mimics_due (hr : (Call.dequeueDueJobRetry.carryOut e w).1 = some k) :
    Mimics .dequeueDueJobRetry e w x (.idle ::ₘ F) (.hold k .retryHeld ::ₘ F) := by
  obtain ⟨hmem, hworld⟩ := dequeueDueJobRetry_some hr
  rw [Mimics, hworld]
  exact steps_shift (fun _ => rfl) (fun id => sameKeys_setRetry id w _)
    ((holdings_idle ..).trans (holdings_setRetry_remove hmem)) (holdings_hold ..) (.inl rfl) .due

theorem mimics_typeNone (hr : ((Call.jobType k).carryOut e w).1 = some false) :
    Mimics (.jobType k) e w x (.hold k .popped ::ₘ F) (.idle ::ₘ F) := by
  have hjob : (w.redis.workflows k.identity).jobs k.jobId = none :=
    Option.isNone_iff_eq_none.mp (Option.isSome_eq_false_iff.mp (Option.some.inj hr))
  have hst : (view k.identity w (.hold k .popped ::ₘ F)).jobStatus k.jobId = none :=
    congrArg (fun h => Option.bind h JobHash.status) hjob
  refine steps_drop (fun _ => rfl) (.inr rfl) (.unclaimable ?_)
  rw [hst]
  exact ⟨nofun, nofun⟩

/-- The handler of the last job takes the workflow out of the active set, or breaks off because it was
not in it. -/
theorem mimics_countedRelease {l : List String} {b : Bool} (htail : x.tailFailed = !b)
    (hr : ((Call.removeActiveWorkflow k.identity).carryOut e w).1 = b) :
    Mimics (.removeActiveWorkflow k.identity) e w x (.hold k (.counted .due l) ::ₘ F)
      (.hold k (if b then .counted .released l else .broken .due) ::ₘ F) := by
  cases b with
  | true => exact mimics_release _ (fun h => .releaseCounted (view_hold_stages ..) h) hr
  | false =>
      obtain ⟨hworld, hactive⟩ := removeActive_refused hr
      rw [Mimics, hworld]
      exact steps_hold (fun _ => rfl) (.inr rfl) (.broken _ l htail
        (.inr (.inr (.inr (.inr (.inl ⟨rfl, decide_eq_false hactive⟩))))))

/-- It deletes the hash of the workflow, or breaks off because there is none. -/
theorem mimics_countedDelete {l : List String} {b : Bool} (htail : x.tailFailed = !b)
    (hr : ((Call.deleteWorkflow k.identity).carryOut e w).1 = b) :
    Mimics (.deleteWorkflow k.identity) e w x (.hold k (.counted .released l) ::ₘ F)
      (.hold k (if b then .counted .deleted l else .broken .released) ::ₘ F) := by
  cases b with
  | true => exact mimics_deleteCounted
  | false =>
      obtain ⟨hworld, hhash⟩ := deleteWorkflow_refused hr
      rw [Mimics, hworld]
      exact steps_hold (fun _ => rfl) (.inr rfl) (.broken _ l htail
        (.inr (.inr (.inr (.inr (.inr ⟨rfl, hhash⟩))))))

theorem mimics_releaseRefused (hr : ((Call.removeActiveWorkflow k.identity).carryOut e w).1 = false) :
    Mimics (.removeActiveWorkflow k.identity) e w x (.hold k (.failed .due) ::ₘ F) (.idle ::ₘ F) := by
  obtain ⟨hworld, hactive⟩ := removeActive_refused hr
  rw [Mimics, hworld]
  exact steps_drop (fun _ => rfl) (.inr rfl) (.released (decide_eq_false hactive))

/-- Every call that the store carries out, one case for each move of the protocol. -/
theorem carryOut_simulated {c : Call} {t t' : Token} (hmove : Move c (c.carryOut e w).1 t t')
    (ht : t ≠ .stuck) (ht' : t' ≠ .stuck) (hlabel : x.label = labelOf c e)
    (htail : x.tailFailed = tailFailed c (c.carryOut e w).1)
    (hok : (e.ok || c.isLocal) = true) (hT : Threaded (t ::ₘ F)) :
    Mimics c e w x (t ::ₘ F) (t' ::ₘ F) := by
  have hF : Threaded F := hT.of_cons
  generalize hr : (c.carryOut e w).1 = r at hmove htail
  cases hmove with
  | stuck => exact absurd rfl ht
  | typeHash | execute | workflow | clock | brokenList => exact steps_refl (fun _ => rfl)
  | popNone => exact mimics_of_unchanged (fun _ => rfl) (popExecutionQueue_none hr)
  | popLocalNone => exact mimics_of_unchanged (fun _ => rfl) (popLocal_none hr)
  | dequeueNone => exact mimics_of_unchanged (fun _ => rfl) (dequeueJobCompletion_none hr)
  | dueNone => exact mimics_of_unchanged (fun _ => rfl) (dequeueDueJobRetry_none hr)
  | pop k => exact mimics_pop hr
  | due k => exact mimics_due hr
  | popLocal d => exact steps_take (fun _ => rfl) (popLocal_some hr)
  | dequeue ev => exact steps_take (fun _ => rfl) (dequeueJobCompletion_some hr)
  | typeNone k => exact mimics_typeNone hr
  | typeFault | claimFault | listFault | brokenListFault | failFault | brokenFailFault
  | failedListFault | retryFault | promoteFault | enqueueFault => cases hr
  | claim k => exact mimics_claim hlabel hr
  | claimRefused k => exact mimics_claimRefused hr
  | fetch k d => exact steps_hold (fun _ => rfl) (.inr rfl) (.fetch hr)
  | fetchFault k d =>
      exact steps_drop (fun _ => rfl) (.inr rfl) (.unreadable (congrArg Prod.fst hr))
  | payload k size hsize r =>
      subst hr
      exact mimics_payload hsize
  | push d hs => exact mimics_push d hs
  | enqueue ev hs => exact mimics_enqueueCompletion ev hs
  | start k r =>
      subst hr
      exact mimics_start hlabel
  | startWorkflow k b =>
      refine mimics_note rfl (.inr rfl) (fun hb => ?_)
      subst hb
      exact .startFailed (.inr (.inl (updateWorkflowStatus_refused (fun _ => rfl) hr)))
  | startJob k b =>
      refine mimics_note rfl (.inr rfl) (fun hb => ?_)
      subst hb
      exact .startFailed (.inr (.inr (updateJobStatus_refused (fun _ => rfl) hr)))
  | workflowMissing k st => exact steps_drop (fun _ => rfl) (.inr rfl) (.missing hr)
  | sqlite c hc r =>
      exact steps_of_view_eq (uncredited_of_isSqlite hc e w) (fun id => view_isSqlite hc e w id _)
  | success k r => exact mimics_success ((Bool.or_false _).symm.trans hok) hlabel hF hr
  | successRefused k => exact mimics_successRefused hlabel hr
  | countedJob k y l b =>
      refine mimics_note rfl (.inr rfl) (fun hb => ?_)
      subst hb
      exact .broken y l htail (.inr (.inr (.inl (updateJobStatus_refused (fun _ => rfl) hr))))
  | countedWorkflow k y l b =>
      refine mimics_note rfl (.inr rfl) (fun hb => ?_)
      subst hb
      exact .broken y l htail (.inr (.inl (updateWorkflowStatus_refused (fun _ => rfl) hr)))
  | countedReady k y queued ready b =>
      refine mimics_note rfl (.inr rfl) (fun hb => ?_)
      subst hb
      exact .broken y _ htail (.inr (.inr (.inr (.inl (updateReadyJobs_refused hr)))))
  | countedList k l r =>
      subst hr
      exact steps_refl (fun _ => rfl)
  | countedRelease k l b => exact mimics_countedRelease htail hr
  | countedDelete k l c hc habout r =>
      exact mimics_deletion hlabel hc habout hT (Multiset.mem_cons_self ..) (.counted l)
  | countedDeleteWorkflow k l b => exact mimics_countedDelete htail hr
  | countedDeleteWaiting k l b =>
      subst hr
      exact mimics_deleteWaiting hlabel (.countedDeleted l)
  | brokenDeleteWaiting k b => exact mimics_deleteWaiting hlabel .broken
  | runtime k st r | brokenRuntime k y r =>
      rw [afterRuntime_eq ht']
      exact steps_refl (fun _ => rfl)
  | list k st rows => exact mimics_list hr
  | fail k st jobIds n r =>
      exact mimics_fail ((Bool.or_false _).symm.trans hok) hlabel hF (.inl ⟨st, rfl⟩) hr
  | brokenFail k y jobIds n r =>
      exact mimics_fail ((Bool.or_false _).symm.trans hok) hlabel hF (.inr ⟨y, rfl⟩) hr
  | mark k y b => exact mimics_mark hlabel
  | failedSqlite k y c hc habout r =>
      exact steps_of_view_eq (uncredited_of_isSqlite hc e w) (fun id => view_isSqlite hc e w id _)
  | failedRelease k =>
      exact mimics_release _ (fun h => .releaseFailed (view_hold_stages ..) h) hr
  | failedReleaseFault k => exact mimics_releaseRefused hr
  | failedDelete k c hc habout r =>
      exact mimics_deletion hlabel hc habout hT (Multiset.mem_cons_self ..) .failed
  | failedDeleteWorkflow k b => exact mimics_deleteFailed
  | failedDeleteWaiting k b => exact mimics_deleteWaiting hlabel .failed
  | retry k st hst n retryAtMs p => exact mimics_retry hst hlabel hF
  | promote k p => exact mimics_promote hlabel hF

/-- Serving a call of a program that follows the protocol is a step of the machine of one workflow,
or leaves every workflow as it is. -/
theorem exec_simulated {c : Call} {t t' : Token} (hmove : Move c (c.exec e w).1 t t')
    (ht : t ≠ .stuck) (ht' : t' ≠ .stuck) (hT : Threaded (t ::ₘ F)) (id : WorkflowIdentity) :
    Simulated c e w (served c e w) id (view id w (t ::ₘ F)) (view id (c.exec e w).2 (t' ::ₘ F)) := by
  by_cases hok : (e.ok || c.isLocal) = true
  · have hexec : c.exec e w = c.carryOut e w := if_pos hok
    rw [hexec] at hmove ⊢
    refine carryOut_simulated hmove ht ht' rfl ?_ hok hT id
    rw [served, hexec]
  · have hexec : c.exec e w = (c.failure, w) := if_neg hok
    simp only [Bool.or_eq_true, not_or, Bool.not_eq_true] at hok
    rw [hexec] at hmove ⊢
    refine fault_simulated hmove hok.2 ht ht' hok.1 ?_ hok.1 w F id
    rw [served, hexec]

end Simulation

end FlowPilot
