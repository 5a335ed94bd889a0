import Mathlib.Data.List.Nodup

/-! Rows with a key: tables in which a row replaces the one of its key, and maps in which a row is
emplaced, so that the one that came first stays. A map that was filled from a table, and is filled
again after rows of the table were replaced, keeps what it held before. It mirrors the table exactly
when every row it had read is what the table now holds under its key. -/

namespace FlowPilot

namespace Keyed

variable {ρ κ : Type} [DecidableEq κ] (key : ρ → κ)

def lookup (k : κ) (rows : List ρ) : Option ρ := rows.find? (fun r => decide (key r = k))

/-- Adds a row in place of the one with its key. -/
def replace (rows : List ρ) (row : ρ) : List ρ :=
  rows.filter (fun r => decide (key r ≠ key row)) ++ [row]

/-- Adds a row unless its key is taken. -/
def emplace (rows : List ρ) (row : ρ) : List ρ :=
  if (lookup key (key row) rows).isSome then rows else rows ++ [row]

variable {key}

theorem lookup_cons (k : κ) (r : ρ) (rows : List ρ) :
    lookup key k (r :: rows) = if key r = k then some r else lookup key k rows := by
  rw [lookup, List.find?_cons]
  by_cases hk : key r = k
  · rw [if_pos hk, decide_eq_true hk]
  · rw [if_neg hk, decide_eq_false hk]
    rfl

theorem lookup_append (k : κ) (rows rows' : List ρ) :
    lookup key k (rows ++ rows') = (lookup key k rows).or (lookup key k rows') :=
  List.find?_append

variable {k : κ} {r : ρ} {rows : List ρ}

theorem mem_of_lookup (h : lookup key k rows = some r) : r ∈ rows :=
  List.mem_of_find?_eq_some h

theorem key_of_lookup (h : lookup key k rows = some r) :
    key r = k := by
  have hkey := List.find?_some h
  exact of_decide_eq_true hkey

theorem lookup_eq_none : lookup key k rows = none ↔ ∀ r ∈ rows, key r ≠ k := by
  rw [lookup, List.find?_eq_none]
  exact forall₂_congr (fun r _ => by rw [decide_eq_true_iff])

theorem lookup_of_mem (hdistinct : (rows.map key).Nodup) (hr : r ∈ rows) :
    lookup key (key r) rows = some r := by
  obtain ⟨r', hr'⟩ := Option.ne_none_iff_exists'.mp
    (fun hnone => lookup_eq_none.mp hnone r hr rfl : lookup key (key r) rows ≠ none)
  rw [hr', List.inj_on_of_nodup_map hdistinct (mem_of_lookup hr') hr (key_of_lookup hr')]

theorem lookup_replace (k : κ) (rows : List ρ) (row : ρ) :
    lookup key k (replace key rows row) = if key row = k then some row else lookup key k rows := by
  rw [replace, lookup_append, lookup_cons]
  by_cases hk : key row = k
  · have hremoved : lookup key k (rows.filter (fun r => decide (key r ≠ key row))) = none := by
      refine lookup_eq_none.mpr (fun r hr => ?_)
      rw [← hk]
      exact of_decide_eq_true (List.mem_filter.mp hr).2
    rw [if_pos hk, if_pos hk, hremoved, Option.none_or]
  · have hkept : lookup key k (rows.filter (fun r => decide (key r ≠ key row))) =
        lookup key k rows := by
      rw [lookup, lookup, List.find?_filter]
      congr 1
      funext r
      by_cases hr : key r = k
      · simp [hr, Ne.symm hk]
      · simp [hr]
    rw [if_neg hk, if_neg hk, hkept]
    exact Option.or_none

theorem nodup_replace (h : (rows.map key).Nodup) (row : ρ) :
    ((replace key rows row).map key).Nodup := by
  rw [replace, List.map_append, List.map_singleton, List.nodup_append]
  refine ⟨h.sublist (List.filter_sublist.map key), List.nodup_singleton _, ?_⟩
  intro k hk k' hk' heq
  obtain ⟨r, hr, rfl⟩ := List.mem_map.mp hk
  rw [List.mem_singleton] at hk'
  exact of_decide_eq_true (List.mem_filter.mp hr).2 (heq.trans hk')

theorem lookup_emplace (k : κ) (rows : List ρ) (row : ρ) :
    lookup key k (emplace key rows row) = (lookup key k rows).or (lookup key k [row]) := by
  rw [emplace]
  split
  · rename_i htaken
    obtain ⟨r, hr⟩ := Option.isSome_iff_exists.mp htaken
    by_cases hk : key row = k
    · rw [← hk, hr, Option.some_or]
    · rw [lookup_cons, if_neg hk]
      exact Option.or_none.symm
  · exact lookup_append ..

theorem lookup_replaceAll (k : κ) (news rows : List ρ) :
    lookup key k (news.foldl (replace key) rows) =
      (lookup key k news.reverse).or (lookup key k rows) := by
  induction news generalizing rows with
  | nil => exact (Option.none_or).symm
  | cons row news ih =>
      rw [List.foldl_cons, ih, lookup_replace, List.reverse_cons, lookup_append, Option.or_assoc,
        lookup_cons]
      split
      · rw [Option.some_or]
      · exact congrArg _ Option.none_or.symm

theorem nodup_replaceAll (news : List ρ) (h : (rows.map key).Nodup) :
    ((news.foldl (replace key) rows).map key).Nodup := by
  induction news generalizing rows with
  | nil => exact h
  | cons row news ih => exact ih (nodup_replace h row)

theorem lookup_emplaceAll (k : κ) (news rows : List ρ) :
    lookup key k (news.foldl (emplace key) rows) = (lookup key k rows).or (lookup key k news) := by
  induction news generalizing rows with
  | nil => exact Option.or_none.symm
  | cons row news ih =>
      rw [List.foldl_cons, ih, lookup_emplace, Option.or_assoc, ← lookup_append, List.singleton_append]

theorem mem_replaceAll {news : List ρ} (hr : r ∈ news.foldl (replace key) rows) :
    r ∈ news ∨ (r ∈ rows ∧ ∀ d ∈ news, key d ≠ key r) := by
  induction news generalizing rows with
  | nil => exact .inr ⟨hr, nofun⟩
  | cons row news ih =>
      rcases ih hr with hr | ⟨hr, hnew⟩
      · exact .inl (List.mem_cons_of_mem row hr)
      · rcases List.mem_append.mp hr with hr | hr
        · obtain ⟨hr, hkey⟩ := List.mem_filter.mp hr
          refine .inr ⟨hr, fun d hd => ?_⟩
          rcases List.mem_cons.mp hd with rfl | hd
          · exact (of_decide_eq_true hkey).symm
          · exact hnew d hd
        · exact .inl (List.mem_cons.mpr (.inl (List.mem_singleton.mp hr)))

theorem lookup_map {σ : Type} {key' : σ → κ} {f : σ → ρ} {rows : List σ}
    (hkey : ∀ r ∈ rows, key (f r) = key' r) (k : κ) :
    lookup key k (rows.map f) = (lookup key' k rows).map f := by
  induction rows with
  | nil => rfl
  | cons r rows ih =>
      rw [List.map_cons, lookup_cons, lookup_cons, hkey r List.mem_cons_self,
        ih (fun r' hr' => hkey r' (List.mem_cons_of_mem r hr'))]
      split
      · rfl
      · rfl

theorem map_emplace {σ : Type} {key' : σ → κ} {f : σ → ρ} (hkey : ∀ v, key (f v) = key' v)
    (rows : List σ) (v : σ) : (emplace key' rows v).map f = emplace key (rows.map f) (f v) := by
  have htaken : (lookup key (key (f v)) (rows.map f)).isSome = (lookup key' (key' v) rows).isSome := by
    rw [lookup_map (fun r _ => hkey r), hkey, Option.isSome_map]
  rw [emplace, emplace, htaken]
  split
  · rfl
  · rw [List.map_append, List.map_singleton]

theorem map_emplaceAll {σ : Type} {key' : σ → κ} {f : σ → ρ} (hkey : ∀ v, key (f v) = key' v)
    (news rows : List σ) :
    (news.foldl (emplace key') rows).map f = (news.map f).foldl (emplace key) (rows.map f) := by
  induction news generalizing rows with
  | nil => rfl
  | cons v news ih => rw [List.foldl_cons, ih, map_emplace hkey, List.map_cons, List.foldl_cons]

/-- What a table holds under the key of one of its rows after others were put in: the new row of that
key, or the row itself. -/
theorem lookup_replaceAll_eq_iff {news : List ρ} {v : ρ} (hnews : (news.map key).Nodup)
    (hrows : (rows.map key).Nodup) (hr : r ∈ rows) :
    lookup key (key r) (news.foldl (replace key) rows) = some v ↔
      (∀ d ∈ news, key d = key r → v = d) ∧ ((∀ d ∈ news, key d ≠ key r) → v = r) := by
  have hreverse : (news.reverse.map key).Nodup := by
    rw [List.map_reverse]
    exact List.nodup_reverse.mpr hnews
  rw [lookup_replaceAll, lookup_of_mem hrows hr]
  cases hnew : lookup key (key r) news.reverse with
  | none =>
      have hnone : ∀ d ∈ news, key d ≠ key r :=
        fun d hd => lookup_eq_none.mp hnew d (List.mem_reverse.mpr hd)
      rw [Option.none_or, Option.some_inj]
      exact ⟨fun h => ⟨fun d hd hdr => absurd hdr (hnone d hd), fun _ => h.symm⟩,
        fun h => (h.2 hnone).symm⟩
  | some d =>
      have hd : d ∈ news := List.mem_reverse.mp (mem_of_lookup hnew)
      rw [Option.some_or, Option.some_inj]
      constructor
      · rintro rfl
        refine ⟨fun d' hd' hdr => ?_, fun h => absurd (key_of_lookup hnew) (h d hd)⟩
        exact List.inj_on_of_nodup_map hnews hd hd' ((key_of_lookup hnew).trans hdr.symm)
      · exact fun h => (h.1 d hd (key_of_lookup hnew)).symm

/-! ### Maps that mirror a table -/

variable (key) in
/-- The map holds what the table holds. -/
def Mirrors (cache rows : List ρ) : Prop := ∀ k, lookup key k cache = lookup key k rows

variable (key) in
/-- Fills a map with the rows of a table as they are read. -/
def load (read : ρ → ρ) (rows cache : List ρ) : List ρ := (rows.map read).foldl (emplace key) cache

section Mirrors

variable {read : ρ → ρ} {rows : List ρ}

theorem lookup_load (k : κ) (rows cache : List ρ) :
    lookup key k (load key read rows cache) =
      (lookup key k cache).or (lookup key k (rows.map read)) :=
  lookup_emplaceAll ..

theorem lookup_load_nil (k : κ) (rows : List ρ) :
    lookup key k (load key read rows []) = lookup key k (rows.map read) :=
  (lookup_load ..).trans Option.none_or

theorem load_nil_eq_nil_iff : load key read rows [] = [] ↔ rows = [] := by
  constructor
  · intro h
    cases rows with
    | nil => rfl
    | cons r rows =>
        have hnone : lookup key (key (read r)) (load key read (r :: rows) []) =
            lookup key (key (read r)) ((r :: rows).map read) := lookup_load_nil ..
        rw [h, List.map_cons, lookup_cons, if_pos rfl] at hnone
        cases hnone
  · rintro rfl
    rfl

theorem load_eq_nil_iff {σ : Type} {f : σ → ρ} {cache : List σ}
    (h : cache.map f = load key read rows []) : cache = [] ↔ rows = [] := by
  rw [← List.map_eq_nil_iff (f := f), h, load_nil_eq_nil_iff]

theorem exists_of_lookup_map {k : κ} {r : ρ} (h : lookup key k (rows.map read) = some r) :
    ∃ r' ∈ rows, read r' = r ∧ key r = k := by
  obtain ⟨r', hr', hread⟩ := List.mem_map.mp (mem_of_lookup h)
  exact ⟨r', hr', hread, key_of_lookup h⟩

variable (hread : ∀ r, read (read r) = read r)

include hread in
theorem read_eq_of_mem {r r' : ρ} (h : read r' = r) : read r = r := by
  rw [← h, hread]

include hread in
theorem mirrors_load_iff (hdistinct : (rows.map key).Nodup) :
    Mirrors key (load key read rows []) rows ↔ ∀ r ∈ rows, read r = r := by
  constructor
  · intro h r hr
    have hfound := h (key r)
    rw [lookup_load_nil, lookup_of_mem hdistinct hr] at hfound
    obtain ⟨r', -, hr', -⟩ := exists_of_lookup_map hfound
    exact read_eq_of_mem hread hr'
  · intro h k
    rw [lookup_load_nil, List.map_congr_left h, List.map_id']

include hread in
/-- A map that is filled again after rows of the table were replaced mirrors the table when every row
it had read is what the table now holds under its key. -/
theorem mirrors_reload_iff {news : List ρ} (hdistinct : (rows.map key).Nodup)
    (hnews : ∀ d ∈ news, read d = d)
    (hkeys : ∀ r r', key r = key r' → key (read r) = key (read r')) :
    Mirrors key (load key read (news.foldl (replace key) rows) (load key read rows []))
        (news.foldl (replace key) rows) ↔
      ∀ r ∈ rows, lookup key (key r) (news.foldl (replace key) rows) = some (read r) := by
  have hdistinct' := nodup_replaceAll news hdistinct
  constructor
  · intro h
    -- a row that was not replaced is read as it is
    have hkept : ∀ r ∈ rows, (∀ d ∈ news, key d ≠ key r) → read r = r := by
      intro r hr hold
      have hfound := h (key r)
      have hstays : lookup key (key r) (news.foldl (replace key) rows) = some r := by
        rw [lookup_replaceAll, lookup_of_mem hdistinct hr]
        have hnone : lookup key (key r) news.reverse = none :=
          lookup_eq_none.mpr (fun d hd => hold d (List.mem_reverse.mp hd))
        rw [hnone, Option.none_or]
      rw [hstays, lookup_load, lookup_load_nil, Option.or_eq_some_iff] at hfound
      rcases hfound with hfound | ⟨-, hfound⟩
      · obtain ⟨r', -, hr', -⟩ := exists_of_lookup_map hfound
        exact read_eq_of_mem hread hr'
      · obtain ⟨r', -, hr', -⟩ := exists_of_lookup_map hfound
        exact read_eq_of_mem hread hr'
    have hkey : ∀ r ∈ rows, key (read r) = key r := by
      intro r hr
      by_cases hnew : ∃ d ∈ news, key d = key r
      · obtain ⟨d, hd, hdr⟩ := hnew
        exact (hkeys r d hdr.symm).trans ((congrArg key (hnews d hd)).trans hdr)
      · rw [hkept r hr (fun d hd hdr => hnew ⟨d, hd, hdr⟩)]
    intro r hr
    rw [← h (key r), lookup_load, lookup_load_nil, lookup_map hkey, lookup_of_mem hdistinct hr]
    rfl
  · intro h k
    have hkey : ∀ r ∈ rows, key (read r) = key r := fun r hr => key_of_lookup (h r hr)
    -- all rows of the table are now read as they are
    have hall : ∀ r ∈ news.foldl (replace key) rows, read r = r := by
      intro r hr
      rcases mem_replaceAll hr with hnew | ⟨hold, -⟩
      · exact hnews r hnew
      · have hfound := h r hold
        rw [lookup_of_mem hdistinct' hr] at hfound
        exact (Option.some.inj hfound).symm
    rw [lookup_load, lookup_load_nil, lookup_map hkey, List.map_congr_left hall, List.map_id']
    cases hk : lookup key k rows with
    | none => exact Option.none_or
    | some r =>
        rw [← key_of_lookup hk, h r (mem_of_lookup hk)]
        rfl

section Replaced

variable {news : List ρ} (hrows : (rows.map key).Nodup) (hkeys : (news.map key).Nodup)
  (hnews : ∀ d ∈ news, read d = d)

include hread hrows hkeys hnews

/-- The map that is filled twice, in terms of the rows before: one that was replaced had to be read as
what replaced it, and the others have to be read as they are. -/
theorem mirrors_reload_replaced_iff
    (hread' : ∀ r r', key r = key r' → key (read r) = key (read r')) :
    Mirrors key (load key read (news.foldl (replace key) rows) (load key read rows []))
        (news.foldl (replace key) rows) ↔
      ∀ r ∈ rows, (∀ d ∈ news, key d = key r → read r = d) ∧
        ((∀ d ∈ news, key d ≠ key r) → read r = r) := by
  rw [mirrors_reload_iff hread hrows hnews hread']
  exact forall₂_congr (fun r hr => lookup_replaceAll_eq_iff hkeys hrows hr)

theorem mirrors_load_replaced_iff :
    Mirrors key (load key read (news.foldl (replace key) rows) []) (news.foldl (replace key) rows) ↔
      ∀ r ∈ rows, (∀ d ∈ news, key d ≠ key r) → read r = r := by
  rw [mirrors_load_iff hread (nodup_replaceAll news hrows)]
  constructor
  · intro h r hr hold
    have hstays : lookup key (key r) (news.foldl (replace key) rows) = some r :=
      (lookup_replaceAll_eq_iff hkeys hrows hr).mpr
        ⟨fun d hd hdr => absurd hdr (hold d hd), fun _ => rfl⟩
    exact h r (mem_of_lookup hstays)
  · intro h r hr
    rcases mem_replaceAll hr with hnew | ⟨hr, hold⟩
    · exact hnews r hnew
    · exact h r hr hold

end Replaced

end Mirrors

end Keyed

end FlowPilot
