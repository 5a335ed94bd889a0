import FlowPilot.BaseCoroutine
import Mathlib.Data.List.Perm.Basic
import Mathlib.Data.List.Range

/-! Programs that share one database connection. The connection has at most one open transaction,
whoever began it: a statement of any program is executed inside it, a commit or a rollback of any
program ends it, and a second begin is an error. Statements are atomic, and a schedule says which
program issues the next one.

A program is whole when it is a single statement or one transaction. If no program issues a statement
while a transaction of another one is open, then whole programs have the results, and leave the
tables, of some order in which they run one after the other. -/

/-- The statements of a connection: those of transactions, and any others. -/
inductive Statement (Q : Type) where
  | beginTransaction
  | commit
  | rollback
  | plain (q : Q)

/-- A statement of a transaction reports whether it succeeded. -/
abbrev Statement.Reply {Q : Type} (A : Q → Type) : Statement Q → Type
  | beginTransaction | commit | rollback => Bool
  | plain q => A q

/-- A connection: the tables, and what they were when the open transaction began. -/
structure Connection (D : Type) where
  tables : D
  saved : Option D := none

section Transactions

variable {D Q : Type} {A : Q → Type} {α : Type} (apply : (q : Q) → D → A q × D)

def Connection.exec : (s : Statement Q) → Unit → Connection D → s.Reply A × Connection D
  | .beginTransaction, _, c =>
      match c.saved with
      | none => (true, { c with saved := some c.tables })
      | some _ => (false, c)
  | .commit, _, c =>
      match c.saved with
      | none => (false, c)
      | some _ => (true, { c with saved := none })
  | .rollback, _, c =>
      match c.saved with
      | none => (false, c)
      | some tables => (true, ⟨tables, none⟩)
  | .plain q, _, c =>
      let p := apply q c.tables
      (p.1, { c with tables := p.2 })

abbrev Transaction (A : Q → Type) (α : Type) := Prog (Statement Q) (Statement.Reply A) α

namespace Transaction

/-- The rest of a transaction: it ends with the statement that ends the transaction. -/
def Closes : Transaction A α → Prop
  | .done _ => False
  | .call .beginTransaction _ => False
  | .call .commit k => ∃ a, k true = .done a
  | .call .rollback k => ∃ a, k true = .done a
  | .call (.plain _) k => ∀ r, Closes (k r)

/-- One transaction, one statement, or nothing at all. -/
def Whole : Transaction A α → Prop
  | .done _ => True
  | .call .beginTransaction k => Closes (k true)
  | .call .commit _ => False
  | .call .rollback _ => False
  | .call (.plain _) k => ∀ r, ∃ a, k r = .done a

/-- The program run alone on a connection. -/
def runs (p : Transaction A α) (c : Connection D) : α × Connection D :=
  p.run (Connection.exec apply) (fun _ => ()) c

/-- The program run alone, from tables to tables. -/
def alone (p : Transaction A α) (d : D) : α × D :=
  let r := runs apply p ⟨d, none⟩
  (r.1, r.2.tables)

theorem runs_call (s : Statement Q) (k : s.Reply A → Transaction A α) (c : Connection D) :
    runs apply (.call s k) c =
      runs apply (k (c.exec apply s ()).1) (c.exec apply s ()).2 :=
  Prog.run_call_const _ () s k c

/-- The programs of the positions in `order`, one after the other: each with its result, and the
tables at the end. -/
def serial (programs : List (Transaction A α)) : List Nat → D → List (Nat × α) × D
  | [], d => ([], d)
  | i :: order, d =>
      match programs[i]? with
      | none => serial programs order d
      | some p =>
          let r := alone apply p d
          let later := serial programs order r.2
          ((i, r.1) :: later.1, later.2)

theorem serial_append (programs : List (Transaction A α)) (order order' : List Nat) (d : D) :
    serial apply programs (order ++ order') d =
      ((serial apply programs order d).1 ++
          (serial apply programs order' (serial apply programs order d).2).1,
        (serial apply programs order' (serial apply programs order d).2).2) := by
  induction order generalizing d with
  | nil => rfl
  | cons i order ih =>
      rw [List.cons_append, serial, serial]
      split
      · exact ih d
      · simp only [ih, List.cons_append]

variable {programs : List (Transaction A α)} {order : List Nat}

theorem serial_singleton {i : Nat} {p : Transaction A α} (h : programs[i]? = some p) (d : D) :
    serial apply programs [i] d = ([(i, (alone apply p d).1)], (alone apply p d).2) := by
  rw [serial, h]
  rfl

theorem serial_done (h : ∀ i ∈ order, ∃ a, programs[i]? = some (.done a)) (d : D) :
    (serial apply programs order d).2 = d ∧
      ∀ r ∈ (serial apply programs order d).1, programs[r.1]? = some (.done r.2) := by
  induction order with
  | nil => exact ⟨rfl, fun r hr => absurd hr List.not_mem_nil⟩
  | cons i order ih =>
      obtain ⟨a, ha⟩ := h i List.mem_cons_self
      obtain ⟨htables, hresults⟩ := ih (fun j hj => h j (List.mem_cons_of_mem _ hj))
      have hi : serial apply programs (i :: order) d =
          ((i, a) :: (serial apply programs order d).1, (serial apply programs order d).2) := by
        rw [serial, ha]
        rfl
      rw [hi]
      refine ⟨htables, fun r hr => ?_⟩
      rcases List.mem_cons.mp hr with rfl | hr
      · exact ha
      · exact hresults r hr

theorem exists_mem_serial {i : Nat} (hi : i ∈ order) (hlt : i < programs.length) (d : D) :
    ∃ a, (i, a) ∈ (serial apply programs order d).1 := by
  induction order generalizing d with
  | nil => cases hi
  | cons j order ih =>
      rw [serial]
      by_cases heq : i = j
      · subst heq
        rw [List.getElem?_eq_getElem hlt]
        exact ⟨_, List.mem_cons_self⟩
      · have hlater := (List.mem_cons.mp hi).resolve_left heq
        split
        · exact ih hlater d
        · obtain ⟨a, ha⟩ := ih hlater _
          exact ⟨a, List.mem_cons_of_mem _ ha⟩

theorem mem_of_mem_serial {d : D}
    {r : Nat × α} (hr : r ∈ (serial apply programs order d).1) : r.1 ∈ order := by
  induction order generalizing d with
  | nil => exact absurd hr List.not_mem_nil
  | cons j order ih =>
      rw [serial] at hr
      split at hr
      · exact List.mem_cons_of_mem _ (ih hr)
      · rcases List.mem_cons.mp hr with rfl | hr
        · exact List.mem_cons_self
        · exact List.mem_cons_of_mem _ (ih hr)

end Transaction

/-! ### Schedules -/

/-- The programs on the connection, and which of them began the open transaction. -/
structure Session (D : Type) {Q : Type} (A : Q → Type) (α : Type) where
  pool : Pool (Statement Q) (Statement.Reply A) (Connection D) α
  owner : Option Nat := none

/-- Programs on a connection: no others are started, and nobody else changes the tables. -/
def transactions : System (Statement Q) (Statement.Reply A) (Connection D) Unit α where
  exec := Connection.exec apply
  program _ := False
  outside _ _ := False

namespace Session

def serve (i : Nat) (s : Session D A α) : Session D A α :=
  let pool := ((transactions apply).turn s.pool (.serve i ())).2
  ⟨pool, if pool.world.saved.isSome then s.owner.or (some i) else none⟩

def play (schedule : List Nat) (s : Session D A α) : Session D A α :=
  schedule.foldl (fun s i => s.serve apply i) s

/-- No statement is issued while a transaction of another program is open. -/
def Exclusive : List Nat → Session D A α → Prop
  | [], _ => True
  | i :: schedule, s =>
      (s.owner = none ∨ s.owner = some i) ∧ Exclusive schedule (s.serve apply i)

end Session

/-! ### Exclusive schedules are serial -/

/-- A transaction that is open: what is left of it does to the connection what the whole program does
to the tables it began with. -/
structure Underway (p whole : Transaction A α) (base : D) (c : Connection D) : Prop where
  closes : p.Closes
  saved : c.saved = some base
  runs : p.runs apply c = whole.runs apply ⟨base, none⟩

/-- The programs in `order` have ended, with the results and on the tables of that order, and none of
the others has done anything but the one whose transaction is open. -/
structure Serialized (programs : List (Transaction A α)) (d : D) (s : Session D A α)
    (order : List Nat) : Prop where
  nodup : order.Nodup
  bound : ∀ i ∈ order, i < programs.length
  length : s.pool.threads.length = programs.length
  ended : ∀ r ∈ (Transaction.serial apply programs order d).1,
    s.pool.threads[r.1]? = some (.done r.2)
  fresh : ∀ i, i ∉ order → s.owner ≠ some i → s.pool.threads[i]? = programs[i]?
  closed : s.owner = none → s.pool.world = ⟨(Transaction.serial apply programs order d).2, none⟩
  opened : ∀ i, s.owner = some i → i ∉ order ∧ ∃ p whole, s.pool.threads[i]? = some p ∧
    programs[i]? = some whole ∧
    Underway apply p whole (Transaction.serial apply programs order d).2 s.pool.world

section Steps

variable {apply} {programs : List (Transaction A α)} {d : D} {s : Session D A α} {order : List Nat}
  {i : Nat}

theorem Session.serve_of_call {c : Statement Q} {k : c.Reply A → Transaction A α}
    (h : s.pool.threads[i]? = some (.call c k)) :
    s.serve apply i =
      ⟨⟨(s.pool.world.exec apply c ()).2,
          s.pool.threads.set i (k (s.pool.world.exec apply c ()).1)⟩,
        if (s.pool.world.exec apply c ()).2.saved.isSome then s.owner.or (some i) else none⟩ := by
  simp only [Session.serve, System.turn, h]
  rfl

theorem Session.serve_of_not_call (h : ∀ c k, s.pool.threads[i]? ≠ some (.call c k)) :
    s.serve apply i =
      ⟨s.pool, if s.pool.world.saved.isSome then s.owner.or (some i) else none⟩ := by
  have hturn : ((transactions apply).turn s.pool (.serve i ())).2 = s.pool := by
    rw [System.turn]
    split
    · rename_i c k hcall
      exact absurd hcall (h c k)
    · rfl
  simp only [Session.serve, hturn]

section Steps

variable (h : Serialized apply programs d s order)

include h

theorem Serialized.not_mem {c : Statement Q} {k : c.Reply A → Transaction A α}
    (hi : s.pool.threads[i]? = some (.call c k)) : i ∉ order := by
  intro hmem
  obtain ⟨a, ha⟩ := Transaction.exists_mem_serial apply hmem (h.bound i hmem) d
  cases (h.ended _ ha).symm.trans hi

theorem Serialized.advance (hi : i ∉ order) (howner : s.owner = none ∨ s.owner = some i)
    {p whole : Transaction A α} {c : Connection D} (hwhole : programs[i]? = some whole)
    (hunder : Underway apply p whole (Transaction.serial apply programs order d).2 c) :
    Serialized apply programs d ⟨⟨c, s.pool.threads.set i p⟩, some i⟩ order where
  nodup := h.nodup
  bound := h.bound
  length := by rw [List.length_set, h.length]
  ended r hr := by
    have hne : i ≠ r.1 := fun heq => hi (heq ▸ Transaction.mem_of_mem_serial apply hr)
    rw [List.getElem?_set_ne hne]
    exact h.ended r hr
  fresh j hj hne := by
    have hij : i ≠ j := fun heq => hne (congrArg some heq)
    rw [List.getElem?_set_ne hij]
    refine h.fresh j hj (fun heq => ?_)
    rcases howner with hnone | hsome
    · cases hnone.symm.trans heq
    · exact hij (Option.some.inj (hsome.symm.trans heq))
  closed hnone := nomatch hnone
  opened j hj := by
    obtain rfl : i = j := Option.some.inj hj
    have hlt : i < s.pool.threads.length := by
      rw [h.length]
      exact (List.getElem?_eq_some_iff.mp hwhole).1
    exact ⟨hi, p, whole, List.getElem?_set_self hlt, hwhole, hunder⟩

/-- A transaction that commits takes its place at the end of the order. -/
theorem Serialized.finish (hi : i ∉ order) (howner : s.owner = none ∨ s.owner = some i)
    {whole : Transaction A α} {a : α} {tables : D} (hwhole : programs[i]? = some whole)
    (halone : whole.alone apply (Transaction.serial apply programs order d).2 = (a, tables)) :
    Serialized apply programs d ⟨⟨⟨tables, none⟩, s.pool.threads.set i (.done a)⟩, none⟩
      (order ++ [i]) := by
  have hlt : i < programs.length := (List.getElem?_eq_some_iff.mp hwhole).1
  have hserial : Transaction.serial apply programs (order ++ [i]) d =
      ((Transaction.serial apply programs order d).1 ++ [(i, a)], tables) := by
    rw [Transaction.serial_append, Transaction.serial_singleton apply hwhole, halone]
  constructor
  · rw [List.nodup_append]
    refine ⟨h.nodup, List.nodup_singleton i, ?_⟩
    rintro j hj j' hj' rfl
    exact hi (List.mem_singleton.mp hj' ▸ hj)
  · intro j hj
    rcases List.mem_append.mp hj with hj | hj
    · exact h.bound j hj
    · rwa [List.mem_singleton.mp hj]
  · rw [List.length_set, h.length]
  · rw [hserial]
    intro r hr
    rcases List.mem_append.mp hr with hr | hr
    · have hne : i ≠ r.1 := fun heq => hi (heq ▸ Transaction.mem_of_mem_serial apply hr)
      rw [List.getElem?_set_ne hne]
      exact h.ended r hr
    · rw [List.mem_singleton.mp hr]
      exact List.getElem?_set_self (h.length ▸ hlt)
  · intro j hj _
    rw [List.mem_append, not_or, List.mem_singleton] at hj
    rw [List.getElem?_set_ne (Ne.symm hj.2)]
    refine h.fresh j hj.1 (fun heq => ?_)
    rcases howner with hnone | hsome
    · cases hnone.symm.trans heq
    · exact hj.2 (Option.some.inj (heq.symm.trans hsome))
  · intro _
    rw [hserial]
  · exact fun j hj => nomatch hj

theorem Serialized.serve_first (hprograms : ∀ p ∈ programs, p.Whole) (howner : s.owner = none)
    {c : Statement Q} {k : c.Reply A → Transaction A α}
    (hi : s.pool.threads[i]? = some (.call c k)) :
    ∃ order', Serialized apply programs d (s.serve apply i) order' := by
  have hnot := h.not_mem hi
  have hwhole : programs[i]? = some (.call c k) := by
    rw [← h.fresh i hnot (by rw [howner]; exact nofun), hi]
  have hshape := hprograms _ (List.mem_of_getElem? hwhole)
  rw [Session.serve_of_call hi, h.closed howner, howner]
  cases c with
  | beginTransaction =>
      refine ⟨order, h.advance hnot (Or.inl howner) hwhole ⟨hshape, rfl, ?_⟩⟩
      rw [Transaction.runs_call]
  | commit | rollback => exact hshape.elim
  | plain q =>
      obtain ⟨a, ha⟩ := hshape (apply q (Transaction.serial apply programs order d).2).1
      have halone : Transaction.alone apply (.call (.plain q) k)
          (Transaction.serial apply programs order d).2 =
            (a, (apply q (Transaction.serial apply programs order d).2).2) := by
        rw [Transaction.alone, Transaction.runs_call]
        exact congrArg (fun p : Transaction A α =>
          ((p.runs apply ⟨_, none⟩).1, (p.runs apply ⟨_, none⟩).2.tables)) ha
      have hfinish := h.finish hnot (Or.inl howner) hwhole halone
      rw [← ha] at hfinish
      exact ⟨order ++ [i], hfinish⟩

theorem Serialized.serve_next (howner : s.owner = some i) :
    ∃ order', Serialized apply programs d (s.serve apply i) order' := by
  obtain ⟨hnot, p, whole, hi, hwhole, hcloses, hsaved, hruns⟩ := h.opened i howner
  obtain ⟨⟨⟨tables, saved⟩, threads⟩, owner⟩ := s
  obtain rfl : saved = _ := hsaved
  obtain rfl : owner = _ := howner
  cases p with
  | done a => exact hcloses.elim
  | call c k =>
      rw [Session.serve_of_call hi]
      rw [Transaction.runs_call] at hruns
      cases c with
      | beginTransaction => exact hcloses.elim
      | plain q => exact ⟨order, h.advance hnot (Or.inr rfl) hwhole ⟨hcloses _, rfl, hruns⟩⟩
      -- the transaction ends, and with it the program
      | commit | rollback =>
          obtain ⟨a, ha⟩ := hcloses
          refine ⟨order ++ [i], ?_⟩
          have hlast : ∀ c : Connection D, Transaction.runs apply (k true) c = (a, c) := by
            intro c
            exact congrArg (fun p : Transaction A α => p.runs apply c) ha
          have halone := congrArg (fun r : α × Connection D => (r.1, r.2.tables))
            (hruns.symm.trans (hlast _))
          have hfinish := h.finish hnot (Or.inr rfl) hwhole halone
          rw [← ha] at hfinish
          exact hfinish

theorem Serialized.serve (hprograms : ∀ p ∈ programs, p.Whole)
    (howner : s.owner = none ∨ s.owner = some i) :
    ∃ order', Serialized apply programs d (s.serve apply i) order' := by
  rcases howner with hnone | hsome
  · by_cases hcall : ∃ c k, s.pool.threads[i]? = some (.call c k)
    · obtain ⟨c, k, hi⟩ := hcall
      exact h.serve_first hprograms hnone hi
    · refine ⟨order, ?_⟩
      rw [Session.serve_of_not_call (fun c k hi => hcall ⟨c, k, hi⟩), h.closed hnone]
      have hsame : s = ⟨s.pool, none⟩ := by rw [← hnone]
      rw [hsame] at h
      exact h
  · exact h.serve_next hsome

theorem Serialized.play (hprograms : ∀ p ∈ programs, p.Whole) {schedule : List Nat}
    (hexclusive : s.Exclusive apply schedule) :
    ∃ order', Serialized apply programs d (s.play apply schedule) order' := by
  induction schedule generalizing s order with
  | nil => exact ⟨order, h⟩
  | cons i schedule ih =>
      obtain ⟨order', h'⟩ := h.serve hprograms hexclusive.1
      exact ih h' hexclusive.2

end Steps

theorem serialized_start (programs : List (Transaction A α)) (d : D) :
    Serialized apply programs d ⟨⟨⟨d, none⟩, programs⟩, none⟩ [] where
  nodup := List.nodup_nil
  bound _ h := absurd h List.not_mem_nil
  length := rfl
  ended _ h := absurd h List.not_mem_nil
  fresh _ _ _ := rfl
  closed _ := rfl
  opened _ h := nomatch h

/-- When all have ended, the session did what one after the other would have done. -/
theorem Serialized.complete (h : Serialized apply programs d s order)
    (hended : ∀ p ∈ s.pool.threads, ∃ a, p = .done a) :
    ∃ order', order'.Perm (List.range programs.length) ∧
      s.pool.world = ⟨(Transaction.serial apply programs order' d).2, none⟩ ∧
      ∀ r ∈ (Transaction.serial apply programs order' d).1,
        s.pool.threads[r.1]? = some (.done r.2) := by
  have howner : s.owner = none := by
    cases ho : s.owner with
    | none => rfl
    | some i =>
        obtain ⟨-, p, whole, hi, -, hunder⟩ := h.opened i ho
        obtain ⟨a, rfl⟩ := hended p (List.mem_of_getElem? hi)
        exact hunder.closes.elim
  have hidle : ∀ i ∈ (List.range programs.length).filter (fun i => decide (i ∉ order)),
      ∃ a, programs[i]? = some (.done a) ∧ s.pool.threads[i]? = some (.done a) := by
    intro i hi
    rw [List.mem_filter, List.mem_range, decide_eq_true_eq] at hi
    have hfresh := h.fresh i hi.2 (by rw [howner]; exact nofun)
    have hget := List.getElem?_eq_getElem (h.length ▸ hi.1 : i < s.pool.threads.length)
    obtain ⟨a, ha⟩ := hended _ (List.mem_of_getElem? hget)
    rw [ha] at hget
    exact ⟨a, hfresh ▸ hget, hget⟩
  obtain ⟨htables, hresults⟩ := Transaction.serial_done apply
    (fun i hi => (hidle i hi).imp (fun _ ha => ha.1)) (Transaction.serial apply programs order d).2
  refine ⟨order ++ (List.range programs.length).filter (fun i => decide (i ∉ order)), ?_, ?_, ?_⟩
  · have hnodup : (order ++ (List.range programs.length).filter (fun i => decide (i ∉ order))).Nodup := by
      rw [List.nodup_append]
      refine ⟨h.nodup, List.nodup_range.filter _, ?_⟩
      rintro i hi j hj rfl
      exact of_decide_eq_true (List.mem_filter.mp hj).2 hi
    refine (List.perm_ext_iff_of_nodup hnodup List.nodup_range).mpr (fun i => ?_)
    rw [List.mem_append, List.mem_filter, List.mem_range, decide_eq_true_eq]
    constructor
    · rintro (hi | hi)
      · exact h.bound i hi
      · exact hi.1
    · intro hi
      by_cases hmem : i ∈ order
      · exact Or.inl hmem
      · exact Or.inr ⟨hi, hmem⟩
  · rw [Transaction.serial_append, htables]
    exact h.closed howner
  · rw [Transaction.serial_append]
    intro r hr
    rcases List.mem_append.mp hr with hr | hr
    · exact h.ended r hr
    · obtain ⟨a, hprogram, hthread⟩ := hidle r.1 (Transaction.mem_of_mem_serial apply hr)
      rw [hthread, ← hprogram]
      exact hresults r hr

/-- Whole programs under an exclusive schedule that ends all of them have the results, and leave the
tables, of some order in which they run one after the other. -/
theorem Session.exists_serial (programs : List (Transaction A α)) (d : D)
    (hprograms : ∀ p ∈ programs, p.Whole) {schedule : List Nat} {s : Session D A α}
    (hplay : s = Session.play apply schedule ⟨⟨⟨d, none⟩, programs⟩, none⟩)
    (hexclusive : Session.Exclusive apply schedule (⟨⟨⟨d, none⟩, programs⟩, none⟩ : Session D A α))
    (hended : ∀ p ∈ s.pool.threads, ∃ a, p = .done a) :
    ∃ order, order.Perm (List.range programs.length) ∧
      s.pool.world = ⟨(Transaction.serial apply programs order d).2, none⟩ ∧
      ∀ r ∈ (Transaction.serial apply programs order d).1,
        s.pool.threads[r.1]? = some (.done r.2) := by
  subst hplay
  obtain ⟨order, h⟩ := (serialized_start programs d).play hprograms hexclusive
  exact h.complete hended

end Steps

end Transactions
