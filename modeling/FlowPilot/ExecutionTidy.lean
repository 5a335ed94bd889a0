import FlowPilot.ExecutionCompletion
import FlowPilot.ExecutionCounting
import FlowPilot.WorkflowTidySteps

/-! Executions in which every Redis and SQLite command succeeds. The workflow is tidy in every state
they reach; `Executes.tidy` is the rule for properties that rest on this. -/

namespace FlowPilot

/-- Every command that the run issued was answered. -/
def Answered (log : Log) : Prop := ∀ ev ∈ log, ev.env.ok = true

instance (log : Log) : Decidable (Answered log) := inferInstanceAs (Decidable (∀ ev ∈ log, _))

section Tidiness

variable {p : Plan} {v v' : WorkflowView} {L l : List String} {x : Served}

theorem Fresh.orderly (h : Fresh p v) : Orderly p [] v where
  left := nofun
  held := fun j hj _ => by
    have hstages := h.stages j
    rcases h.untouched j hj with hst | hst | hst
    · rw [if_neg (fun hq => by cases hst.symm.trans hq)] at hstages
      exact .idle hstages (.inl hst)
    · rw [if_neg (fun hq => by cases hst.symm.trans hq)] at hstages
      exact .idle hstages (.inr hst)
    · rw [if_pos hst] at hstages
      exact .busy hstages rfl hst
  waiting := h.coherent.waiting
  known := fun j hj => (h.coherent.known j).mp hj

theorem Fresh.mem_stages (h : Fresh p v) {i : String} {s : Stage} (hs : s ∈ v.stages i) :
    s = .queued := by
  rw [h.stages i] at hs
  split at hs
  · exact Multiset.mem_singleton.mp hs
  · exact absurd hs (Multiset.notMem_zero _)

theorem Fresh.tidy (h : Fresh p v) : Tidy p [] v where
  inv := .inl h.strong
  counted := h.counted
  orderly := h.orderly
  handled := by
    refine ⟨fun i c l hs => ?_, fun i st l hs => ?_, fun i j s t hs _ hc _ => ?_,
      fun i s hs hc => ?_, fun i l hs => ?_⟩
    · cases h.mem_stages hs
    · cases h.mem_stages hs
    · cases h.mem_stages hs
      exact absurd rfl hc
    · cases h.mem_stages hs
      cases hc
    · cases h.mem_stages hs
  rows := h.rows
  recorded := h.recorded
  unfinished := fun _ => by
    have hready : v.status = some .ready := congrArg WorkflowKeyspace.Counters.status h.counters
    refine ⟨WorkflowKeyspace.hash_ne_none hready, h.active, .inl ⟨h.strong, h.clean, ?_, fun _ => ?_⟩,
      h.provided, fun j n hs => ?_⟩
    · rw [SlotsExact, h.counters]
    · rw [h.counters]
    · cases h.mem_stages hs

/-- What a served call does to a tidy workflow. -/
def Serves (p : Plan) (L : List String) (ev : Event Call World Env) (id : WorkflowIdentity)
    (v v' : WorkflowView) : Prop :=
  (v' = v ∧ ev.call.credited ev.env ev.world id = []) ∨
    (Sees ev.call id ∧ TidyStep p L (served ev.call ev.env ev.world) v
      (ev.call.credited ev.env ev.world id) v')

theorem Tidy.takes {id : WorkflowIdentity} {log : Log} {ev : Event Call World Env}
    (h : Tidy p (credits id log) v) (hok : ev.env.ok = true) (htakes : Takes ev id v v') :
    Tidy p (credits id (log ++ [ev])) v' ∧ Serves p (credits id log) ev id v v' := by
  have hsim := htakes.simulated
  refine ⟨?_, hsim.imp_right (fun hstep => ⟨hstep.1, h.inversion hok hstep.2⟩)⟩
  rw [credits_append]
  rcases hsim with ⟨rfl, hnil⟩ | ⟨-, hstep⟩
  · rw [hnil, List.append_nil]
    exact h
  · exact h.step hok hstep

variable {svc : Service} {req : WorkflowRequest} {log : Log} {σ : Pool Call Call.Reply World}

/-- The rule for executions in which every command succeeds: the workflow is tidy, and a property of
the calls served and of the workflow is to be shown for the admitted workflow and for single steps of
a tidy one. -/
theorem Executes.tidy (h : Executes Plain svc req log σ) (hok : Answered log) :
    ∃ p, svc.Plans req p ∧
      ∀ (I : Log → WorkflowView → Prop) (good : Event Call World Env → Prop),
        (∀ v, Fresh p v → I [] v) →
        (∀ log ev v v', ev.env.ok = true → good ev → Tidy p (credits req.identity log) v →
          Tidy p (credits req.identity (log ++ [ev])) v' → I log v → Takes ev req.identity v v' →
          Serves p (credits req.identity log) ev req.identity v v' → I (log ++ [ev]) v') →
        (∀ ev ∈ log, good ev) →
        Reaches (fun log v => Tidy p (credits req.identity log) v ∧ I log v) req.identity log σ := by
  obtain ⟨p, hp, hrule⟩ := h.takes
  refine ⟨p, hp, fun I good hfresh hstep hgood => ?_⟩
  refine hrule _ (fun ev => ev.env.ok = true ∧ good ev) (fun v hv => ⟨hv.tidy, hfresh v hv⟩)
    (fun log ev v v' hev hI htakes => ?_) (fun ev hev => ⟨hok ev hev, hgood ev hev⟩)
  obtain ⟨htidy, hI⟩ := hI
  obtain ⟨htidy', hserves⟩ := htidy.takes hev.1 htakes
  exact ⟨htidy', hstep log ev v v' hev.1 hev.2 htidy htidy' hI htakes hserves⟩

end Tidiness

end FlowPilot
