import Mathlib.Data.List.Nodup
import Mathlib.Data.List.Perm.Basic

/-! Sorted sets: finite sets whose members carry an integer score. A member occurs once, whatever
was added to the set before; adding it again moves it to the new score. The largest and the least
entry are taken by score first and, among equal scores, by an order on the members that the caller
gives. -/

/-- A finite set of members with a score each. -/
structure SortedSet (α : Type) where
  entries : List (α × Int)
  nodup : (entries.map Prod.fst).Nodup

namespace SortedSet

variable {α : Type}

def empty : SortedSet α := ⟨[], List.nodup_nil⟩

/-- The members, in no order that means anything. -/
def members (s : SortedSet α) : List α := s.entries.map Prod.fst

@[simp] theorem members_empty : (empty : SortedSet α).members = [] := rfl

def score [DecidableEq α] (s : SortedSet α) (a : α) : Option Int :=
  (s.entries.find? (fun e => decide (e.1 = a))).map Prod.snd

def card (s : SortedSet α) : Nat := s.entries.length

theorem card_eq_zero_iff (s : SortedSet α) : s.card = 0 ↔ s.members = [] := by
  simp only [card, members, List.map_eq_nil_iff, List.length_eq_zero_iff]

theorem score_eq_none [DecidableEq α] {s : SortedSet α} {a : α} (h : a ∉ s.members) :
    s.score a = none := by
  rw [score, Option.map_eq_none_iff, List.find?_eq_none]
  exact fun e he hsel => h (List.mem_map.mpr ⟨e, he, of_decide_eq_true hsel⟩)

theorem score_eq_some_iff [DecidableEq α] (s : SortedSet α) (a : α) (n : Int) :
    s.score a = some n ↔ (a, n) ∈ s.entries := by
  rw [score, Option.map_eq_some_iff]
  constructor
  · rintro ⟨⟨b, m⟩, hfind, rfl⟩
    have hkey := List.find?_some hfind
    rw [decide_eq_true_iff] at hkey
    subst hkey
    exact List.mem_of_find?_eq_some hfind
  · intro hmem
    cases hfind : s.entries.find? (fun e => decide (e.1 = a)) with
    | none => exact absurd (decide_eq_true rfl) (List.find?_eq_none.mp hfind (a, n) hmem)
    | some e =>
        have hkey := List.find?_some hfind
        rw [decide_eq_true_iff] at hkey
        refine ⟨e, rfl, ?_⟩
        -- a member occurs once, so the entry found is the given one
        rw [List.inj_on_of_nodup_map s.nodup (List.mem_of_find?_eq_some hfind) hmem hkey]

section Update

variable [DecidableEq α]

def remove (s : SortedSet α) (a : α) : SortedSet α where
  entries := s.entries.filter (fun e => decide (e.1 ≠ a))
  nodup := s.nodup.sublist (List.filter_sublist.map _)

@[simp] theorem mem_members_remove (s : SortedSet α) (a b : α) :
    b ∈ (s.remove a).members ↔ b ∈ s.members ∧ b ≠ a := by
  simp only [members, remove, List.mem_map, List.mem_filter, decide_eq_true_eq]
  constructor
  · rintro ⟨e, ⟨he, hne⟩, rfl⟩
    exact ⟨⟨e, he, rfl⟩, hne⟩
  · rintro ⟨⟨e, he, rfl⟩, hne⟩
    exact ⟨e, ⟨he, hne⟩, rfl⟩

/-- The set with `a` at the score `n`, wherever `a` was before. -/
def add (s : SortedSet α) (a : α) (n : Int) : SortedSet α where
  entries := (a, n) :: (s.remove a).entries
  nodup := by
    rw [List.map_cons, List.nodup_cons]
    exact ⟨fun h => ((mem_members_remove s a a).mp h).2 rfl, (s.remove a).nodup⟩

theorem members_add (s : SortedSet α) (a : α) (n : Int) :
    (s.add a n).members = a :: (s.remove a).members := rfl

@[simp] theorem mem_members_add (s : SortedSet α) (a b : α) (n : Int) :
    b ∈ (s.add a n).members ↔ b = a ∨ b ∈ s.members := by
  rw [members_add, List.mem_cons, mem_members_remove]
  by_cases hab : b = a <;> simp [hab]

/-- The images of the members; of two members with one image the first gives the score. -/
def image {β : Type} (f : β → α) (s : SortedSet β) : SortedSet α :=
  s.entries.foldr (fun e t => t.add (f e.1) e.2) empty

/-- The set with `a` at the score `n`, unless `a` is in it already. -/
def addNew (s : SortedSet α) (a : α) (n : Int) : SortedSet α :=
  if a ∈ s.members then s else s.add a n

@[simp] theorem mem_members_addNew (s : SortedSet α) (a b : α) (n : Int) :
    b ∈ (s.addNew a n).members ↔ b = a ∨ b ∈ s.members := by
  unfold addNew
  split
  · rename_i h
    constructor
    · exact Or.inr
    · rintro (rfl | hb)
      · exact h
      · exact hb
  · exact mem_members_add s a b n

theorem score_add_self (s : SortedSet α) (a : α) (n : Int) : (s.add a n).score a = some n := by
  simp only [score, add, List.find?_cons, decide_true, Option.map_some]

theorem score_remove_of_ne (s : SortedSet α) {a b : α} (h : b ≠ a) :
    (s.remove a).score b = s.score b := by
  have hkept : ∀ e : α × Int, decide (e.1 ≠ a ∧ e.1 = b) = decide (e.1 = b) := by
    refine fun e => decide_eq_decide.mpr ⟨And.right, fun heq => ⟨?_, heq⟩⟩
    rw [heq]
    exact h
  simp only [score, remove, List.find?_filter, decide_eq_true_eq, hkept]

theorem score_of_score_remove {s : SortedSet α} {a b : α} {n : Int}
    (h : (s.remove a).score b = some n) : s.score b = some n := by
  by_cases hb : b = a
  · subst hb
    rw [score_eq_none (fun hmem => ((mem_members_remove ..).mp hmem).2 rfl)] at h
    cases h
  · rwa [score_remove_of_ne s hb] at h

theorem score_add_of_ne (s : SortedSet α) {a b : α} (h : b ≠ a) (n : Int) :
    (s.add a n).score b = s.score b := by
  rw [← score_remove_of_ne s h]
  simp only [score, add, List.find?_cons, decide_eq_false h.symm]

/-- Members that are new to the set, added one after another, have the scores they came with. -/
theorem score_foldl_addNew {β : Type} (key : β → α) (val : β → Int) {ms : List β}
    (hnodup : (ms.map key).Nodup) (s : SortedSet α) (hnew : ∀ m ∈ ms, key m ∉ s.members) :
    (∀ m ∈ ms, (ms.foldl (fun s m => s.addNew (key m) (val m)) s).score (key m) = some (val m)) ∧
    ∀ a, a ∉ ms.map key →
      (ms.foldl (fun s m => s.addNew (key m) (val m)) s).score a = s.score a := by
  induction ms generalizing s with
  | nil => exact ⟨by simp, fun _ _ => rfl⟩
  | cons x rest ih =>
      obtain ⟨hx, hrest⟩ := List.nodup_cons.mp hnodup
      have hadd : s.addNew (key x) (val x) = s.add (key x) (val x) :=
        if_neg (hnew x List.mem_cons_self)
      rw [List.foldl_cons, hadd]
      obtain ⟨hscores, hothers⟩ := ih hrest (s.add (key x) (val x)) (fun m hm => by
        rw [mem_members_add, not_or]
        exact ⟨fun heq => hx (heq ▸ List.mem_map_of_mem hm), hnew m (List.mem_cons_of_mem x hm)⟩)
      refine ⟨fun m hm => ?_, fun a ha => ?_⟩
      · rcases List.mem_cons.mp hm with rfl | hm
        · rw [hothers _ hx, score_add_self]
        · exact hscores m hm
      · rw [List.map_cons, List.mem_cons, not_or] at ha
        rw [hothers a ha.2, score_add_of_ne s ha.1]

theorem remove_of_not_mem (s : SortedSet α) {a : α} (h : a ∉ s.members) : s.remove a = s := by
  obtain ⟨entries, hnodup⟩ := s
  have hall : entries.filter (fun e => decide (e.1 ≠ a)) = entries := by
    rw [List.filter_eq_self]
    intro e he
    refine decide_eq_true (fun heq => h ?_)
    exact List.mem_map.mpr ⟨e, he, heq⟩
  simp only [remove, hall]

/-- Taking a member out of the set takes one occurrence out of the list of members. -/
theorem members_perm_cons_remove (s : SortedSet α) {a : α} (h : a ∈ s.members) :
    s.members.Perm (a :: (s.remove a).members) := by
  refine (List.perm_ext_iff_of_nodup s.nodup ?_).mpr (fun b => ?_)
  · rw [List.nodup_cons]
    exact ⟨fun ha => ((mem_members_remove s a a).mp ha).2 rfl, (s.remove a).nodup⟩
  · change b ∈ s.members ↔ _
    rw [List.mem_cons, mem_members_remove]
    by_cases hab : b = a
    · simp [hab, h]
    · simp [hab]

end Update

section Extremes

/-- Of two entries the one of the larger score, or of the later member at equal scores. -/
def outranks (later : α → α → Bool) (x y : α × Int) : Bool :=
  decide (y.2 < x.2) || (decide (x.2 = y.2) && later x.1 y.1)

/-- The entry that no other outranks. -/
def maxEntry (later : α → α → Bool) : List (α × Int) → Option (α × Int)
  | [] => none
  | x :: rest =>
      match maxEntry later rest with
      | none => some x
      | some y => if outranks later x y then some x else some y

/-- The entry that outranks no other. -/
def minEntry (later : α → α → Bool) : List (α × Int) → Option (α × Int)
  | [] => none
  | x :: rest =>
      match minEntry later rest with
      | none => some x
      | some y => if outranks later y x then some x else some y

variable {later : α → α → Bool} {entries : List (α × Int)} {e : α × Int} {s : SortedSet α} {a : α}
  {n : Int}

theorem maxEntry_mem (h : maxEntry later entries = some e) : e ∈ entries := by
  induction entries generalizing e with
  | nil => simp [maxEntry] at h
  | cons x rest ih =>
      rw [maxEntry] at h
      split at h
      · simp_all
      · rename_i y hy
        split at h
        · simp_all
        · cases h
          exact List.mem_cons_of_mem x (ih hy)

theorem maxEntry_eq_none (h : maxEntry later entries = none) : entries = [] := by
  cases entries with
  | nil => rfl
  | cons x rest =>
      rw [maxEntry] at h
      split at h
      · simp at h
      · split at h <;> simp at h

theorem maxEntry_le {e' : α × Int}
    (h : maxEntry later entries = some e) (he' : e' ∈ entries) : e'.2 ≤ e.2 := by
  induction entries generalizing e with
  | nil => cases he'
  | cons x rest ih =>
      rw [maxEntry] at h
      cases hrest : maxEntry later rest with
      | none =>
          rw [hrest] at h
          cases h
          rw [maxEntry_eq_none hrest, List.mem_singleton] at he'
          exact Int.le_of_eq (congrArg Prod.snd he')
      | some y =>
          rw [hrest] at h
          dsimp only at h
          split at h
          · rename_i hx
            cases h
            simp only [outranks, Bool.or_eq_true, Bool.and_eq_true, decide_eq_true_eq] at hx
            rcases List.mem_cons.mp he' with rfl | hmem
            · exact Int.le_refl _
            · have hy := ih hrest hmem
              omega
          · rename_i hx
            cases h
            simp only [outranks, Bool.or_eq_true, decide_eq_true_eq, not_or] at hx
            rcases List.mem_cons.mp he' with rfl | hmem
            · exact Int.not_lt.mp hx.1
            · exact ih hrest hmem

theorem minEntry_mem (h : minEntry later entries = some e) : e ∈ entries := by
  induction entries generalizing e with
  | nil => simp [minEntry] at h
  | cons x rest ih =>
      rw [minEntry] at h
      split at h
      · simp_all
      · rename_i y hy
        split at h
        · simp_all
        · cases h
          exact List.mem_cons_of_mem x (ih hy)

/-- The least entry of score at most `bound`: `ZRANGEBYSCORE s -inf bound LIMIT 0 1`. -/
def leastUpTo (later : α → α → Bool) (s : SortedSet α) (bound : Int) : Option (α × Int) :=
  minEntry later (s.entries.filter (fun e => decide (e.2 ≤ bound)))

theorem leastUpTo_mem {bound : Int} (h : s.leastUpTo later bound = some e) : e.1 ∈ s.members :=
  List.mem_map.mpr ⟨e, (List.mem_filter.mp (minEntry_mem h)).1, rfl⟩

variable [DecidableEq α]

theorem leastUpTo_score {bound : Int}
    (h : s.leastUpTo later bound = some (a, n)) : s.score a = some n ∧ n ≤ bound := by
  obtain ⟨hmem, hbound⟩ := List.mem_filter.mp (minEntry_mem h)
  exact ⟨(score_eq_some_iff s a n).mpr hmem, of_decide_eq_true hbound⟩

/-- Takes the largest entry out: `ZPOPMAX`. -/
def popMax (later : α → α → Bool) (s : SortedSet α) : Option ((α × Int) × SortedSet α) :=
  (maxEntry later s.entries).map (fun e => (e, s.remove e.1))

theorem popMax_eq_some {rest : SortedSet α}
    (h : s.popMax later = some ((a, n), rest)) : a ∈ s.members ∧ rest = s.remove a := by
  unfold popMax at h
  rw [Option.map_eq_some_iff] at h
  obtain ⟨e, he, hpair⟩ := h
  cases hpair
  exact ⟨List.mem_map.mpr ⟨(a, n), maxEntry_mem he, rfl⟩, rfl⟩

theorem popMax_score {rest : SortedSet α} (h : s.popMax later = some ((a, n), rest)) :
    s.score a = some n ∧ ∀ b m, s.score b = some m → m ≤ n := by
  unfold popMax at h
  rw [Option.map_eq_some_iff] at h
  obtain ⟨e, he, hpair⟩ := h
  cases hpair
  refine ⟨(score_eq_some_iff s a n).mpr (maxEntry_mem he), fun b m hb => ?_⟩
  exact maxEntry_le he ((score_eq_some_iff s b m).mp hb)

theorem popMax_eq_none (h : s.popMax later = none) : s.members = [] := by
  unfold popMax at h
  rw [Option.map_eq_none_iff] at h
  rw [members, maxEntry_eq_none h, List.map_nil]

theorem popMax_add_of_empty (later : α → α → Bool) (h : s.members = []) (a : α)
    (n : Int) : (s.add a n).popMax later = some ((a, n), s) := by
  obtain ⟨entries, hnodup⟩ := s
  obtain rfl : entries = [] := List.map_eq_nil_iff.mp h
  simp [popMax, add, remove, maxEntry]

end Extremes

end SortedSet

/-! ### Counting in lists without repetitions -/

theorem List.countP_of_eq_off {α : Type} [DecidableEq α] {l : List α} (hnodup : l.Nodup)
    {f g : α → Bool} {a : α} (ha : a ∈ l) (h : ∀ b ∈ l, b ≠ a → f b = g b) :
    l.countP f + (g a).toNat = l.countP g + (f a).toNat := by
  have hperm := List.perm_cons_erase ha
  have hrest : (l.erase a).countP f = (l.erase a).countP g := by
    refine List.countP_congr (fun b hb => ?_)
    rw [h b (List.mem_of_mem_erase hb) (fun heq => ?_)]
    exact hnodup.not_mem_erase (heq ▸ hb)
  rw [hperm.countP_eq f, hperm.countP_eq g, List.countP_cons, List.countP_cons, hrest]
  cases f a <;> cases g a <;> simp

/-- A count splits into the counts of two properties of which exactly one holds where the counted one
does. -/
theorem List.countP_split {α : Type} (l : List α) {p q r : α → Bool}
    (h : ∀ a, (p a).toNat = (q a).toNat + (r a).toNat) :
    l.countP p = l.countP q + l.countP r := by
  induction l with
  | nil => rfl
  | cons a l ih =>
      have ha := h a
      simp only [List.countP_cons, ih]
      cases hp : p a <;> cases hq : q a <;> cases hr : r a <;> simp [hp, hq, hr] at ha ⊢ <;> omega
