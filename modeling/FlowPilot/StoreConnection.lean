import FlowPilot.StoreWire
import Mathlib.Logic.Relation

/-! Several callers on one `RedisConnectionContext`. `execute_async` writes a request and then reads
a reply in separate suspended reads from the buffer of the connection, without keeping other callers
out in between. The server answers the requests in the order in which they were written, and what it
sends arrives in pieces of any size.

A caller that writes its request only when no other call is in flight gets the reply to its own
request, and is never left waiting for what the buffer holds. -/

namespace FlowPilot

namespace Wire

/-- A call of `execute_async`: before its request is written, and in the reads of its reply. -/
inductive Caller where
  | writing (args : List (List Char))
  | reading (p : Reader (Except String RedisReply))

/-- The call is not in flight: nothing is written yet, or its reply has been read. -/
def Caller.Settled : Caller → Prop
  | writing _ => True
  | reading (.done _) => True
  | reading (.call _ _) => False

/-- A connection: the calls made on it, the requests that wait for the server, what the server has
sent and what of it has been received and not read. The replies are kept with the number of
characters sent up to their end. -/
structure Link where
  callers : List Caller := []
  outgoing : List (Nat × List Char) := []
  incoming : List Char := []
  buffer : List Char := []
  received : Nat := 0
  replies : Nat → Option (Resp × Nat) := fun _ => none

namespace Link

def answer (i : Nat) (rest : List (Nat × List Char)) (r : Resp) (s : Link) : Link :=
  let sent := s.received + (s.incoming ++ r.encode).length
  { s with
    outgoing := rest
    incoming := s.incoming ++ r.encode
    replies := Function.update s.replies i (some (r, sent)) }

def arrive (n : Nat) (s : Link) : Link :=
  { s with
    incoming := s.incoming.drop n
    buffer := s.buffer ++ s.incoming.take n
    received := s.received + (s.incoming.take n).length }

def write (i : Nat) (args : List (List Char)) (depth : Nat) (s : Link) : Link :=
  { s with
    callers := s.callers.set i (.reading (parseReply (depth + 1)))
    outgoing := s.outgoing ++ [(i, multiBulk args)] }

/-- A step on the connection, with the call whose request it writes, if any. Replies are nested at
most `depth` deep. -/
inductive Step (depth : Nat) : Link → Option Nat → Link → Prop where
  | call {s : Link} (args : List (List Char)) :
      Step depth s none { s with callers := s.callers ++ [.writing args] }
  | write {s : Link} {i : Nat} {args : List (List Char)}
      (hi : s.callers[i]? = some (.writing args)) : Step depth s (some i) (s.write i args depth)
  | answer {s : Link} {i : Nat} {request : List Char} {rest : List (Nat × List Char)} (r : Resp)
      (hsound : r.Sound) (hdepth : r.depth ≤ depth) (hnext : s.outgoing = (i, request) :: rest) :
      Step depth s none (s.answer i rest r)
  | arrive {s : Link} (n : Nat) : Step depth s none (s.arrive n)
  | read {s : Link} {i : Nat} {q : Read} {k : List Char → Reader (Except String RedisReply)}
      {text rest : List Char} (hi : s.callers[i]? = some (.reading (.call q k)))
      (htake : q.take s.buffer = some (text, rest)) :
      Step depth s none { s with
        callers := s.callers.set i (.reading (k text)), buffer := rest }

/-- No call but `i` is in flight. -/
def FreeFor (s : Link) (i : Nat) : Prop :=
  ∀ j c, j ≠ i → s.callers[j]? = some c → c.Settled

/-- Every call that has a result has the server's reply to its own request, and a call whose reply
has been received in full finds in the buffer all that its reads wait for. -/
structure Served (s : Link) : Prop where
  own : ∀ i result, s.callers[i]? = some (.reading (.done result)) →
    ∃ r sent, s.replies i = some (r, sent) ∧ result = r.decoded
  notLeft : ∀ i p r sent, s.callers[i]? = some (.reading p) → s.replies i = some (r, sent) →
    sent ≤ s.received → ∃ rest, Wire.reading p s.buffer = some (r.decoded, rest)

/-- What is known of the call in flight: its request waits for the server, or what was sent and is
not read is its reply. -/
inductive Flight (depth : Nat) (s : Link) (i : Nat) (p : Reader (Except String RedisReply)) :
    Prop where
  | asked (request : List Char) (houtgoing : s.outgoing = [(i, request)])
      (hempty : s.buffer ++ s.incoming = []) (hp : p = parseReply (depth + 1))
      (hreply : s.replies i = none)
  | answered (r : Resp) (houtgoing : s.outgoing = [])
      (hreply : s.replies i = some (r, s.received + s.incoming.length))
      (hreads : Wire.reading p (s.buffer ++ s.incoming) = some (r.decoded, []))

/-- At most one call is in flight, and all others that have ended have their own replies. -/
structure InTurn (depth : Nat) (s : Link) : Prop where
  own : ∀ i result, s.callers[i]? = some (.reading (.done result)) →
    ∃ r sent, s.replies i = some (r, sent) ∧ result = r.decoded
  replied : ∀ i reply, s.replies i = some reply → ∃ p, s.callers[i]? = some (.reading p)
  flight : (s.outgoing = [] ∧ s.buffer ++ s.incoming = [] ∧
      ∀ (i : Nat) c, s.callers[i]? = some c → c.Settled) ∨
    ∃ i p, s.callers[i]? = some (.reading p) ∧ s.FreeFor i ∧ Flight depth s i p

section Steps

variable {depth : Nat} {s : Link}

theorem settled_iff {p : Reader (Except String RedisReply)} :
    (Caller.reading p).Settled ↔ ∃ result, p = .done result := by
  cases p with
  | done result => exact ⟨fun _ => ⟨result, rfl⟩, fun _ => trivial⟩
  | call q k => exact ⟨fun h => h.elim, fun ⟨_, h⟩ => by cases h⟩

theorem parseReply_ne_done (result : Except String RedisReply) :
    parseReply (depth + 1) ≠ .done result := by
  rw [parseReply, Prog.perform_bind]
  exact nofun

theorem InTurn.quiet (h : InTurn depth s)
    (hsettled : ∀ (j : Nat) c, s.callers[j]? = some c → c.Settled) :
    s.outgoing = [] ∧ s.buffer ++ s.incoming = [] := by
  rcases h.flight with ⟨houtgoing, hempty, -⟩ | ⟨i, p, hi, -, hflight⟩
  · exact ⟨houtgoing, hempty⟩
  · obtain ⟨result, rfl⟩ := settled_iff.mp (hsettled i _ hi)
    cases hflight with
    | asked request houtgoing hempty hp hreply => exact absurd hp.symm (parseReply_ne_done result)
    | answered r houtgoing hreply hreads =>
        exact ⟨houtgoing, (Prod.mk.inj (Option.some.inj hreads)).2⟩

theorem InTurn.served (h : InTurn depth s) : Served s where
  own := h.own
  notLeft i p r sent hi hreply hsent := by
    have hended : (Caller.reading p).Settled →
        ∃ rest, Wire.reading p s.buffer = some (r.decoded, rest) := by
      intro hsettled
      obtain ⟨result, rfl⟩ := settled_iff.mp hsettled
      obtain ⟨r', sent', hreply', rfl⟩ := h.own i result hi
      rw [hreply] at hreply'
      cases hreply'
      exact ⟨s.buffer, rfl⟩
    rcases h.flight with ⟨-, -, hsettled⟩ | ⟨j, p', hj, hfree, hflight⟩
    · exact hended (hsettled i _ hi)
    · by_cases hij : i = j
      · subst hij
        cases hi.symm.trans hj
        cases hflight with
        | asked request houtgoing hempty hp hnone => cases hreply.symm.trans hnone
        | answered r' houtgoing hreply' hreads =>
            cases hreply.symm.trans hreply'
            have harrived : s.incoming = [] := List.length_eq_zero_iff.mp (by omega)
            rw [harrived, List.append_nil] at hreads
            exact ⟨[], hreads⟩
      · exact hended (hfree i _ hij hi)

theorem getElem?_set_cases {callers : List Caller} {i j : Nat} {c c' : Caller}
    (h : (callers.set i c)[j]? = some c') : (j = i ∧ c' = c) ∨ (j ≠ i ∧ callers[j]? = some c') := by
  by_cases hji : j = i
  · subst hji
    have hj : j < callers.length := by
      have := (List.getElem?_eq_some_iff.mp h).1
      rwa [List.length_set] at this
    rw [List.getElem?_set_self hj] at h
    exact .inl ⟨rfl, (Option.some.inj h).symm⟩
  · rw [List.getElem?_set_ne (Ne.symm hji)] at h
    exact .inr ⟨hji, h⟩

theorem FreeFor.set {i : Nat} (hfree : s.FreeFor i) {c : Caller} {s' : Link}
    (hcallers : s'.callers = s.callers.set i c) : s'.FreeFor i := by
  intro j c' hji hj
  rw [hcallers, List.getElem?_set_ne (Ne.symm hji)] at hj
  exact hfree j c' hji hj

theorem getElem?_set_of {i : Nat} {c : Caller} (hi : s.callers[i]? = some c) (c' : Caller) :
    (s.callers.set i c')[i]? = some c' :=
  List.getElem?_set_self (List.getElem?_eq_some_iff.mp hi).1

theorem InTurn.eq_of_call (h : InTurn depth s) {i : Nat} {q : Read}
    {k : List Char → Reader (Except String RedisReply)}
    (hi : s.callers[i]? = some (.reading (.call q k))) :
    s.FreeFor i ∧ Flight depth s i (.call q k) := by
  rcases h.flight with ⟨-, -, hsettled⟩ | ⟨j, p, hj, hfree, hflight⟩
  · exact (hsettled i _ hi).elim
  · by_cases hij : i = j
    · subst hij
      cases hi.symm.trans hj
      exact ⟨hfree, hflight⟩
    · exact (hfree i _ hij hi).elim

theorem InTurn.call (h : InTurn depth s) (args : List (List Char)) :
    InTurn depth { s with callers := s.callers ++ [.writing args] } := by
  have hold : ∀ {j : Nat} {c : Caller}, (s.callers ++ [.writing args])[j]? = some c →
      s.callers[j]? = some c ∨ c = .writing args := by
    intro j c hj
    rw [List.getElem?_append] at hj
    split at hj
    · exact .inl hj
    · exact .inr (List.mem_singleton.mp (List.mem_of_getElem? hj))
  have hkept : ∀ {j : Nat} {c : Caller}, s.callers[j]? = some c →
      (s.callers ++ [.writing args])[j]? = some c :=
    fun hj => (List.getElem?_append_left (List.getElem?_eq_some_iff.mp hj).1).trans hj
  refine ⟨fun j result hj => ?_, fun j reply hreply => ?_, ?_⟩
  · rcases hold hj with hj | hj
    · exact h.own j result hj
    · cases hj
  · obtain ⟨p, hp⟩ := h.replied j reply hreply
    exact ⟨p, hkept hp⟩
  · rcases h.flight with ⟨houtgoing, hempty, hsettled⟩ | ⟨i, p, hi, hfree, hflight⟩
    · refine .inl ⟨houtgoing, hempty, fun j c hj => ?_⟩
      rcases hold hj with hj | rfl
      · exact hsettled j c hj
      · trivial
    · refine .inr ⟨i, p, hkept hi, fun j c hji hj => ?_, ?_⟩
      · rcases hold hj with hj | rfl
        · exact hfree j c hji hj
        · trivial
      · cases hflight with
        | asked request houtgoing hempty hp hreply =>
            exact .asked request houtgoing hempty hp hreply
        | answered r houtgoing hreply hreads => exact .answered r houtgoing hreply hreads

/-- A request that is written while no other call is in flight is the only thing on the way. -/
theorem InTurn.write (h : InTurn depth s) {i : Nat} {args : List (List Char)}
    (hi : s.callers[i]? = some (.writing args)) (hfree : s.FreeFor i) :
    InTurn depth (s.write i args depth) := by
  have hsettled : ∀ (j : Nat) c, s.callers[j]? = some c → c.Settled := by
    intro j c hj
    by_cases hji : j = i
    · subst hji
      cases hi.symm.trans hj
      trivial
    · exact hfree j c hji hj
  obtain ⟨houtgoing, hempty⟩ := h.quiet hsettled
  have hunanswered : s.replies i = none := by
    by_contra hreply
    obtain ⟨reply, hreply⟩ := Option.ne_none_iff_exists'.mp hreply
    obtain ⟨p, hp⟩ := h.replied i reply hreply
    cases hi.symm.trans hp
  refine ⟨fun j result hj => ?_, fun j reply hreply => ?_, ?_⟩
  · rcases getElem?_set_cases hj with ⟨-, hc⟩ | ⟨-, hj⟩
    · cases hp : parseReply (depth + 1) with
      | done result' => exact absurd hp (parseReply_ne_done result')
      | call q k =>
          rw [hp] at hc
          cases hc
    · exact h.own j result hj
  · obtain ⟨p, hp⟩ := h.replied j reply hreply
    have hji : j ≠ i := by
      rintro rfl
      cases hi.symm.trans hp
    exact ⟨p, (List.getElem?_set_ne (Ne.symm hji)).trans hp⟩
  · refine .inr ⟨i, _, getElem?_set_of hi _, hfree.set rfl, ?_⟩
    refine .asked (multiBulk args) ?_ hempty rfl hunanswered
    show s.outgoing ++ [(i, multiBulk args)] = _
    rw [houtgoing, List.nil_append]

/-- Redis answers the request that is in flight. -/
theorem InTurn.answer (h : InTurn depth s) {i : Nat} {request : List Char}
    {rest : List (Nat × List Char)} {r : Resp} (hsound : r.Sound) (hdepth : r.depth ≤ depth)
    (hnext : s.outgoing = (i, request) :: rest) : InTurn depth (s.answer i rest r) := by
  rcases h.flight with ⟨houtgoing, -, -⟩ | ⟨j, p, hj, hfree, hflight⟩
  · cases hnext.symm.trans houtgoing
  cases hflight with
  | answered r' houtgoing hreply hreads => cases hnext.symm.trans houtgoing
  | asked request' houtgoing hempty hp hreply =>
      cases hnext.symm.trans houtgoing
      have hreads : Wire.reading p (s.buffer ++ (s.incoming ++ r.encode)) =
          some (r.decoded, []) := by
        have hread := reading_encode r hsound (depth + 1) (Nat.lt_succ_of_le hdepth) []
        rw [List.append_nil] at hread
        rw [← List.append_assoc, hempty, List.nil_append, hp, hread]
      refine ⟨fun j result hj' => ?_, fun j reply hreply' => ?_, ?_⟩
      · have hji : j ≠ i := by
          rintro rfl
          cases hj.symm.trans hj'
          exact parseReply_ne_done result hp.symm
        obtain ⟨r', sent, hreply', hresult⟩ := h.own j result hj'
        exact ⟨r', sent, (Function.update_of_ne hji _ _).trans hreply', hresult⟩
      · by_cases hji : j = i
        · subst hji
          exact ⟨p, hj⟩
        · exact h.replied j reply ((Function.update_of_ne hji _ _).symm.trans hreply')
      · exact .inr ⟨i, p, hj, hfree, .answered r rfl (Function.update_self ..) hreads⟩

theorem InTurn.arrive (h : InTurn depth s) (n : Nat) : InTurn depth (s.arrive n) := by
  have hunread : (s.arrive n).buffer ++ (s.arrive n).incoming = s.buffer ++ s.incoming := by
    show (s.buffer ++ s.incoming.take n) ++ s.incoming.drop n = _
    rw [List.append_assoc, List.take_append_drop]
  have hsent : (s.arrive n).received + (s.arrive n).incoming.length =
      s.received + s.incoming.length := by
    show s.received + (s.incoming.take n).length + (s.incoming.drop n).length = _
    rw [Nat.add_assoc, ← List.length_append, List.take_append_drop]
  refine ⟨h.own, h.replied, ?_⟩
  rcases h.flight with ⟨houtgoing, hempty, hsettled⟩ | ⟨i, p, hi, hfree, hflight⟩
  · exact .inl ⟨houtgoing, hunread.trans hempty, hsettled⟩
  · refine .inr ⟨i, p, hi, hfree, ?_⟩
    cases hflight with
    | asked request houtgoing hempty hp hreply =>
        exact .asked request houtgoing (hunread.trans hempty) hp hreply
    | answered r houtgoing hreply hreads =>
        refine .answered r houtgoing ?_ ?_
        · rw [hsent]
          exact hreply
        · rw [hunread]
          exact hreads

theorem InTurn.read (h : InTurn depth s) {i : Nat} {q : Read}
    {k : List Char → Reader (Except String RedisReply)} {text rest : List Char}
    (hi : s.callers[i]? = some (.reading (.call q k)))
    (htake : q.take s.buffer = some (text, rest)) :
    InTurn depth { s with callers := s.callers.set i (.reading (k text)), buffer := rest } := by
  obtain ⟨hfree, hflight⟩ := h.eq_of_call hi
  cases hflight with
  | asked request houtgoing hempty hp hreply =>
      rw [(List.append_eq_nil_iff.mp hempty).1, Read.take_nil] at htake
      cases htake
  | answered r houtgoing hreply hreads =>
      have hrest : Wire.reading (k text) (rest ++ s.incoming) = some (r.decoded, []) := by
        rw [Wire.reading, Read.take_append htake s.incoming] at hreads
        exact hreads
      refine ⟨fun j result hj => ?_, fun j reply hreply' => ?_, ?_⟩
      · rcases getElem?_set_cases hj with ⟨rfl, hc⟩ | ⟨-, hj⟩
        · have hdone : k text = .done result := (Caller.reading.inj hc).symm
          rw [hdone] at hrest
          exact ⟨r, _, hreply, (Prod.mk.inj (Option.some.inj hrest)).1⟩
        · exact h.own j result hj
      · obtain ⟨p, hp⟩ := h.replied j reply hreply'
        by_cases hji : j = i
        · subst hji
          exact ⟨_, getElem?_set_of hi _⟩
        · exact ⟨p, (List.getElem?_set_ne (Ne.symm hji)).trans hp⟩
      · exact .inr ⟨i, _, getElem?_set_of hi _, hfree.set rfl, .answered r houtgoing hreply hrest⟩

theorem InTurn.init : InTurn depth {} where
  own _ _ h := nomatch h
  replied _ _ h := nomatch h
  flight := .inl ⟨rfl, rfl, fun _ _ h => nomatch h⟩

theorem InTurn.step (h : InTurn depth s) {label : Option Nat} {s' : Link}
    (hstep : Step depth s label s') (hfree : ∀ i, label = some i → s.FreeFor i) :
    InTurn depth s' := by
  cases hstep with
  | call args => exact h.call args
  | write hi => exact h.write hi (hfree _ rfl)
  | answer r hsound hdepth hnext => exact h.answer hsound hdepth hnext
  | arrive n => exact h.arrive n
  | read hi htake => exact h.read hi htake

end Steps

/-- A step that writes a request only while no other call is in flight. -/
def OneAtATime (depth : Nat) (s s' : Link) : Prop :=
  ∃ label, Step depth s label s' ∧ ∀ i, label = some i → s.FreeFor i

/-- In every run in which each request is written while no other call is in flight, a call that ends
has the reply to its own request, and no call is left waiting for a reply that has been received. -/
theorem replies_matched_of_oneAtATime (depth : Nat) (s : Link)
    (hrun : Relation.ReflTransGen (OneAtATime depth) {} s) : Served s := by
  have hturn : InTurn depth s := by
    induction hrun with
    | refl => exact .init
    | tail _ hstep ih =>
        obtain ⟨label, hstep, hfree⟩ := hstep
        exact ih.step hstep hfree
  exact hturn.served


def twoCalls : Link where
  callers := [.writing [['G', 'E', 'T'], ['a']], .writing [['G', 'E', 'T'], ['b']]]

/-- Both requests are written, answered and received before the first read. -/
def bothAnswered : Link :=
  ((((twoCalls.write 0 [['G', 'E', 'T'], ['a']] 0).write 1 [['G', 'E', 'T'], ['b']] 0).answer 0
    [(1, multiBulk [['G', 'E', 'T'], ['b']])] (.simpleString ['A'])).answer 1 []
      (.simpleString ['B'])).arrive 8

def secondFirst : Link :=
  { bothAnswered with
    callers := [.reading (parseReply 1), .reading (.done (.ok (.simpleString ['A'])))]
    buffer := ['+', 'B', '\r', '\n'] }

theorem twoCalls_run : Relation.ReflTransGen (OneAtATime 0) {} twoCalls :=
  .tail (.tail .refl ⟨none, .call _, nofun⟩) ⟨none, .call _, nofun⟩

/-- The first of two calls is answered and reads its reply before the second writes its request. -/
theorem replies_matched_of_oneAtATime_first :
    ∃ s : Link, Relation.ReflTransGen (OneAtATime 0) {} s ∧
      s.callers[0]? = some (.reading (.done (.ok (.simpleString ['A'])))) ∧ Served s := by
  have hfree : twoCalls.FreeFor 0 := by
    intro j c hj hc
    match j with
    | 0 => exact absurd rfl hj
    | 1 =>
        cases hc
        trivial
    | j + 2 => cases hc
  have hwritten := twoCalls_run.tail
    ⟨some 0, .write rfl, fun i hi => Option.some.inj hi ▸ hfree⟩
  have hanswered := hwritten.tail
    ⟨none, .answer (.simpleString ['A']) (by simp [Resp.Sound]) (Nat.le_refl 0) rfl, nofun⟩
  have harrived := hanswered.tail ⟨none, .arrive 4, nofun⟩
  have hread := harrived.tail ⟨none, @Step.read 0 _ 0 .line _ ['+', 'A'] [] rfl rfl, nofun⟩
  exact ⟨_, hread, rfl, replies_matched_of_oneAtATime 0 _ hread⟩

/-- A call whose request was written after that of another gets the other's reply when it reads
first. -/
theorem reply_taken_by_other :
    Relation.ReflTransGen (fun s s' => ∃ label, Step 0 s label s') {} secondFirst ∧
      ¬ Served secondFirst := by
  have hcalls : Relation.ReflTransGen (fun s s' => ∃ label, Step 0 s label s') {} twoCalls :=
    .tail (.tail .refl ⟨none, .call _⟩) ⟨none, .call _⟩
  have hanswered : Relation.ReflTransGen (fun s s' => ∃ label, Step 0 s label s') {} bothAnswered :=
    ((((hcalls.tail ⟨_, .write rfl⟩).tail ⟨_, .write rfl⟩).tail
      ⟨_, .answer (.simpleString ['A']) (by simp [Resp.Sound]) (Nat.le_refl 0) rfl⟩).tail
      ⟨_, .answer (.simpleString ['B']) (by simp [Resp.Sound]) (Nat.le_refl 0) rfl⟩).tail
      ⟨_, .arrive 8⟩
  refine ⟨hanswered.tail ⟨none, ?_⟩, fun hserved => ?_⟩
  · exact @Step.read 0 bothAnswered 1 .line _ ['+', 'A'] ['+', 'B', '\r', '\n'] rfl rfl
  · obtain ⟨r, sent, hreply, hresult⟩ := hserved.own 1 _ rfl
    cases hreply
    cases hresult

end Link

end Wire

end FlowPilot
