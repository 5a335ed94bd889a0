import Mathlib.Data.Fintype.Order
import Mathlib.Data.List.Nodup
import Mathlib.Data.List.Perm.Subperm
import Mathlib.Data.Set.Finite.List
import Mathlib.Logic.Relation
import Mathlib.Order.WellFounded

/-! Dependency orders. A list is a dependency order when each of its elements comes after everything
it depends on; what follows for an element from its dependencies then holds of all of them. The second
part is the invariant of a worklist that finds such an order: elements are queued when their last
incoming edge is removed. When the queue is empty, what was not visited contains a cycle. -/

section Order

variable {α : Type} {deps : α → List α} {order : List α}

/-- Each element of the list comes after what it depends on. -/
inductive DependencyOrder (deps : α → List α) : List α → Prop where
  | nil : DependencyOrder deps []
  | snoc {done : List α} {a : α} (h : DependencyOrder deps done) (ha : ∀ d ∈ deps a, d ∈ done) :
      DependencyOrder deps (done ++ [a])

theorem DependencyOrder.induction (h : DependencyOrder deps order) {P : α → Prop}
    (step : ∀ a ∈ order, (∀ d ∈ deps a, P d) → P a) : ∀ a ∈ order, P a := by
  induction h with
  | nil => exact fun a ha => absurd ha List.not_mem_nil
  | @snoc done a _ hdeps ih =>
      have hdone := ih (fun b hb => step b (List.mem_append_left _ hb))
      intro b hb
      rcases List.mem_append.mp hb with hb | hb
      · exact hdone b hb
      · obtain rfl := List.mem_singleton.mp hb
        exact step b (by simp) (fun d hd => hdone d (hdeps d hd))

/-- An element that depends on itself, possibly through others. -/
def OnCycle (deps : α → List α) (a : α) : Prop := Relation.TransGen (fun a d => d ∈ deps a) a a

theorem DependencyOrder.not_onCycle (h : DependencyOrder deps order) :
    ∀ a ∈ order, ¬ OnCycle deps a := by
  refine h.induction (P := fun a => ¬ OnCycle deps a) ?_
  intro a _ hdeps hcycle
  -- the first edge of the cycle leads to a dependency, which is on the cycle as well
  obtain ⟨d, hd, hback⟩ := Relation.TransGen.head'_iff.mp hcycle
  exact hdeps d hd (Relation.TransGen.tail' hback hd)

end Order

section Worklist

variable {α : Type} {nodes done queue rest : List α} {deps incoming : α → List α}
  {a : α}

/-- The elements `done` were visited in dependency order, and the queue holds the others that have no
incoming edge left. -/
structure Worklist (nodes : List α) (deps : α → List α) (done queue : List α)
    (incoming : α → List α) : Prop where
  ordered : DependencyOrder deps done
  nodup : (done ++ queue).Nodup
  mem : ∀ a, a ∈ done ++ queue ↔ a ∈ nodes ∧ incoming a = []
  incoming : ∀ a ∈ nodes, ∀ d, d ∈ incoming a ↔ d ∈ deps a ∧ d ∉ done

theorem Worklist.mem_done (h : Worklist nodes deps done queue incoming)
    (hlength : nodes.length ≤ done.length) (ha : a ∈ nodes) : a ∈ done := by
  have hnodup := (List.nodup_append'.mp h.nodup).1
  have hsub : ∀ b ∈ done, b ∈ nodes := fun b hb => ((h.mem b).mp (List.mem_append_left _ hb)).1
  exact ((hnodup.subperm hsub).perm_of_length_le hlength).mem_iff.mpr ha

theorem Worklist.length_le (h : Worklist nodes deps done queue incoming) :
    done.length + queue.length ≤ nodes.length := by
  rw [← List.length_append]
  exact (h.nodup.subperm (fun b hb => ((h.mem b).mp hb).1)).length_le

/-- An element that was not visited when the queue is empty waits for another such element. -/
theorem Worklist.blocked (h : Worklist nodes deps done [] incoming) (ha : a ∈ nodes)
    (hnot : a ∉ done) : ∃ d ∈ deps a, d ∉ done := by
  have hedges : incoming a ≠ [] := fun hnil => by
    have hmem := (h.mem a).mpr ⟨ha, hnil⟩
    rw [List.append_nil] at hmem
    exact hnot hmem
  obtain ⟨d, hd⟩ := List.exists_mem_of_ne_nil _ hedges
  exact ⟨d, (h.incoming a ha d).mp hd⟩

/-- When the queue is empty and not all elements were visited, one of them is on a cycle. -/
theorem Worklist.exists_onCycle (h : Worklist nodes deps done [] incoming)
    (hdeps : ∀ a ∈ nodes, ∀ d ∈ deps a, d ∈ nodes) (ha : a ∈ nodes) (hnot : a ∉ done) :
    ∃ b ∈ nodes, OnCycle deps b := by
  by_contra hacyclic
  simp only [not_exists, not_and] at hacyclic
  -- without a cycle the dependencies among the finitely many nodes are well-founded
  let below : {b // b ∈ nodes} → {b // b ∈ nodes} → Prop :=
    fun d b => Relation.TransGen (fun a d => d ∈ deps a) b.1 d.1
  have htrans : IsTrans _ below := ⟨fun _ _ _ hab hbc => Relation.TransGen.trans hbc hab⟩
  have hirrefl : Std.Irrefl below := ⟨fun b hb => hacyclic b.1 b.2 hb⟩
  have hfinite : Finite {b // b ∈ nodes} := List.finite_toSet nodes
  have hwf : WellFounded below := Finite.wellFounded_of_trans_of_irrefl below
  obtain ⟨b, hb, hmin⟩ := hwf.has_min {b | b.1 ∉ done} ⟨⟨a, ha⟩, hnot⟩
  obtain ⟨d, hd, hnew⟩ := h.blocked b.2 hb
  exact hmin ⟨d, hdeps b.1 b.2 d hd⟩ hnew (Relation.TransGen.single hd)

variable [DecidableEq α]

/-- The edges that are left of an element when another one is visited. -/
def withoutEdge (a : α) (l : List α) : List α := l.filter (fun d => decide (d ≠ a))

theorem mem_withoutEdge {l : List α} {d : α} : d ∈ withoutEdge a l ↔ d ∈ l ∧ d ≠ a := by
  simp [withoutEdge]

/-- The first element of the queue is visited: its edges are removed, and the targets that lose their
last edge are queued. -/
theorem Worklist.visit (h : Worklist nodes deps done (a :: rest) incoming) {targets : List α}
    (hnodup : targets.Nodup) (htargets : ∀ t, t ∈ targets ↔ t ∈ nodes ∧ a ∈ deps t) :
    Worklist nodes deps (done ++ [a])
      (rest ++ targets.filter (fun t => (withoutEdge a (incoming t)).isEmpty))
      (fun t => if t ∈ targets then withoutEdge a (incoming t) else incoming t) := by
  have ha : a ∈ nodes ∧ incoming a = [] := (h.mem a).mp (by simp)
  have hnew : a ∉ done := by
    have hdisjoint := (List.nodup_append'.mp h.nodup).2.2
    exact fun hmem => hdisjoint hmem List.mem_cons_self
  have hassoc : ∀ l : List α, (done ++ [a]) ++ (rest ++ l) = (done ++ a :: rest) ++ l := by simp
  -- the new elements of the queue still had the edge that is removed
  have hfresh : ∀ t ∈ targets, t ∉ done ++ a :: rest := by
    intro t ht hmem
    obtain ⟨hnodes, hdep⟩ := (htargets t).mp ht
    have hedge := (h.incoming t hnodes a).mpr ⟨hdep, hnew⟩
    rw [((h.mem t).mp hmem).2] at hedge
    exact List.not_mem_nil hedge
  refine ⟨h.ordered.snoc (fun d hd => ?_), ?_, fun t => ?_, fun t ht d => ?_⟩
  · by_contra hnot
    have hedge := (h.incoming a ha.1 d).mpr ⟨hd, hnot⟩
    rw [ha.2] at hedge
    exact List.not_mem_nil hedge
  · rw [hassoc, List.nodup_append']
    refine ⟨h.nodup, hnodup.filter _, fun t ht ht' => ?_⟩
    exact hfresh t (List.mem_filter.mp ht').1 ht
  · rw [hassoc, List.mem_append, h.mem t, List.mem_filter, List.isEmpty_iff]
    by_cases ht : t ∈ targets
    · rw [if_pos ht]
      have hnodes := ((htargets t).mp ht).1
      constructor
      · rintro (⟨-, hnil⟩ | ⟨-, hnil⟩)
        · exact ⟨hnodes, by rw [hnil]; rfl⟩
        · exact ⟨hnodes, hnil⟩
      · rintro ⟨-, hnil⟩
        exact .inr ⟨ht, hnil⟩
    · rw [if_neg ht]
      simp [ht]
  · rw [List.mem_append, List.mem_singleton, not_or]
    by_cases hmem : t ∈ targets
    · rw [if_pos hmem, mem_withoutEdge, h.incoming t ht d, and_assoc]
    · rw [if_neg hmem, h.incoming t ht d]
      have hdep : a ∉ deps t := fun hdep => hmem ((htargets t).mpr ⟨ht, hdep⟩)
      constructor
      · rintro ⟨hd, hnot⟩
        exact ⟨hd, hnot, fun heq => hdep (heq ▸ hd)⟩
      · rintro ⟨hd, hnot, -⟩
        exact ⟨hd, hnot⟩

end Worklist
