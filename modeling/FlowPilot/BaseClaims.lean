import FlowPilot.BaseCoroutine
import Mathlib.Data.Multiset.Bind

/-! Keys that can be claimed once. A call claims a key by storing it, which succeeds only while the key
is not stored, and what is stored is never removed. Then at most one of any number of concurrent
programs ends with a result that takes the claim of a given key. -/

/-- Two lists that are related element by element, counted by properties of which one implies the
other. -/
theorem List.Forall₂.countP_le {α β : Type} {r : α → β → Prop} {p : α → Bool} {q : β → Bool}
    {l : List α} {l' : List β} (h : List.Forall₂ r l l') (hpq : ∀ a b, r a b → p a → q b) :
    l.countP p ≤ l'.countP q := by
  induction h with
  | nil => exact Nat.le_refl _
  | @cons a b l l' hab _ ih =>
      rw [List.countP_cons, List.countP_cons]
      by_cases hp : p a = true
      · rw [if_pos hp, if_pos (hpq a b hab hp)]
        exact Nat.add_le_add_right ih 1
      · rw [if_neg hp]
        exact ih.trans (Nat.le_add_right ..)

section Claims

variable {C : Type} {R : C → Type} {W E K α : Type}

/-- The token of a program are the keys its calls have claimed, and every program follows. -/
def Protocol.claims (claim : (c : C) → R c → Option K) : Protocol C R (List K) where
  idle := []
  Move := fun c r held held' => held' = (claim c r).toList ++ held
  Final := fun _ => True

theorem Protocol.claims_any (claim : (c : C) → R c → Option K) (p : Prog C R α) (held : List K) :
    (Protocol.claims claim).FollowsTo (fun _ _ => True) p held := by
  induction p generalizing held with
  | done a => trivial
  | call c k ih => exact fun r => ⟨_, rfl, ih r _⟩

theorem Protocol.claims_keeps (claim : (c : C) → R c → Option K) (p : Prog C R α) {held : List K}
    {key : K} (h : key ∈ held) :
    (Protocol.claims claim).FollowsTo (fun _ held' => key ∈ held') p held := by
  induction p generalizing held with
  | done a => exact h
  | call c k ih => exact fun r => ⟨_, rfl, ih r (List.mem_append_right _ h)⟩

/-- The claims of all programs are distinct and stored. -/
structure DistinctClaims (stored : K → Prop) (T : Multiset (List K)) : Prop where
  nodup : (T.bind (fun held => (held : Multiset K))).Nodup
  stored : ∀ key ∈ T.bind (fun held => (held : Multiset K)), stored key

variable {stored : K → Prop} {T : Multiset (List K)}

theorem DistinctClaims.mono {stored' : K → Prop} (h : DistinctClaims stored T)
    (hmono : ∀ key, stored key → stored' key) : DistinctClaims stored' T :=
  ⟨h.nodup, fun key hkey => hmono key (h.stored key hkey)⟩

theorem DistinctClaims.idle (h : DistinctClaims stored T) :
    DistinctClaims stored ([] ::ₘ T) :=
  ⟨by simpa using h.nodup, by simpa using h.stored⟩

theorem DistinctClaims.claim {stored' : K → Prop} {held : List K}
    {claimed : Option K} (h : DistinctClaims stored (held ::ₘ T))
    (hmono : ∀ key, stored key → stored' key)
    (hclaimed : ∀ key, claimed = some key → ¬ stored key ∧ stored' key) :
    DistinctClaims stored' ((claimed.toList ++ held) ::ₘ T) := by
  cases claimed with
  | none => exact h.mono hmono
  | some key =>
      obtain ⟨hfree, hkey⟩ := hclaimed key rfl
      have hbind : ((([key] ++ held) ::ₘ T).bind (fun held => (held : Multiset K))) =
          key ::ₘ ((held ::ₘ T).bind (fun held => (held : Multiset K))) := by
        rw [Multiset.cons_bind, Multiset.cons_bind, ← Multiset.cons_add]
        rfl
      refine ⟨?_, ?_⟩
      · rw [Option.toList_some, hbind]
        exact Multiset.nodup_cons.mpr ⟨fun hmem => hfree (h.stored key hmem), h.nodup⟩
      · rw [Option.toList_some, hbind]
        intro key' hkey'
        obtain rfl | hmem := Multiset.mem_cons.mp hkey'
        · exact hkey
        · exact hmono key' (h.stored key' hmem)

theorem DistinctClaims.countP_le [DecidableEq K] {toks : List (List K)}
    (h : DistinctClaims stored (toks : Multiset (List K))) (key : K) :
    toks.countP (fun held => decide (key ∈ held)) ≤ 1 := by
  have hcount := Multiset.nodup_iff_count_le_one.mp h.nodup key
  refine le_trans ?_ hcount
  clear h hcount
  induction toks with
  | nil => exact Nat.zero_le _
  | cons held toks ih =>
      rw [← Multiset.cons_coe, Multiset.cons_bind, Multiset.count_add, List.countP_cons, Nat.add_comm]
      refine Nat.add_le_add ?_ ih
      by_cases hmem : key ∈ held
      · simp only [hmem, decide_true, if_true, Multiset.coe_count]
        exact List.one_le_count_iff.mpr hmem
      · simp [hmem]

theorem System.Run.claimed_once [DecidableEq K] {S : System C R W E α}
    (claim : (c : C) → R c → Option K) (stored : W → K → Prop) (takes : K → α → Bool)
    (hprogram : ∀ p, S.program p → (Protocol.claims claim).FollowsTo
      (fun a held => ∀ key, takes key a = true → key ∈ held) p [])
    (houtside : ∀ w w', S.outside w w' → ∀ key, stored w key → stored w' key)
    (hkeeps : ∀ c e w key, stored w key → stored (S.exec c e w).2 key)
    (hclaim : ∀ c e w key, claim c (S.exec c e w).1 = some key →
      ¬ stored w key ∧ stored (S.exec c e w).2 key)
    {w : W} {σ : Pool C R W α} {log : List (Event C W E)} (hrun : S.Run ⟨w, []⟩ log σ) (key : K) :
    σ.threads.countP (fun p => p.result?.any (takes key)) ≤ 1 := by
  have hcovered := hrun.coveredTo (P := Protocol.claims claim)
    (fun p hp => ⟨[], hprogram p hp, fun log w T (h : DistinctClaims (stored w) T) => h.idle⟩)
    (fun log w w' T hw h => h.mono (houtside w w' hw))
    (fun log w c e t t' T hmove h => ?_) ⟨[], .nil, ⟨Multiset.nodup_zero, by simp⟩⟩
  · obtain ⟨toks, hfollows, hdistinct⟩ := hcovered
    refine (hfollows.countP_le (fun p held hfollow htakes => ?_)).trans (hdistinct.countP_le key)
    cases p with
    | done a => exact decide_eq_true (hfollow key htakes)
    | call c k => cases htakes
  · rw [show t' = _ from hmove]
    exact h.claim (hkeeps c e w) (hclaim c e w)

end Claims
