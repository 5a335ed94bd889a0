import FlowPilot.RuntimeCalls
import FlowPilot.StoreDecoders

/-! The workflows of the runtime in one flat keyspace. Redis has no workflows, only texts: every key
of a workflow is its client id, its workflow id and perhaps a job id, joined by colons behind a lead.
A call is served here on such a keyspace, by reading and writing the keys of the workflow it is about.

Two workflows are kept apart exactly when neither of the texts `client_id:workflow_id:` begins with
the other. `Call.serveFlat` serves the calls of the engine with nothing but the texts: there a job that
is taken from a queue is whatever the decoder makes of its key. -/

namespace FlowPilot

namespace RedisKeys

/-- The keys of one workflow. -/
inductive Slot where
  | workflow
  | waitingJobs
  | job (j : String)
  | successors (j : String)
  | payload (j : String)
  deriving DecidableEq, Repr

/-- The text of a key of the workflow. -/
def Slot.key (id : WorkflowIdentity) : Slot → List Char
  | workflow => workflowKey id
  | waitingJobs => workflowWaitingJobsKey id
  | job j => jobKey ⟨id, j⟩
  | successors j => successorsKey ⟨id, j⟩
  | payload j => payloadKey ⟨id, j⟩

inductive Family where
  | workflow
  | job
  | successors
  | payload
  deriving DecidableEq, Repr

/-- What the keys of a family start with. -/
def Family.lead : Family → List Char
  | workflow => "fp:workflow:".toList
  | job => jobPrefix
  | successors => "fp:successors:".toList
  | payload => "fp:payload:".toList

def Slot.family : Slot → Family
  | workflow | waitingJobs => .workflow
  | job _ => .job
  | successors _ => .successors
  | payload _ => .payload

/-- What follows `client_id:workflow_id:` when the key is closed by a colon of its own. -/
def Slot.rest : Slot → List Char
  | workflow => []
  | waitingJobs => "waiting_ready:".toList
  | job j | successors j | payload j => j.toList ++ [':']

theorem body_eq_append (id : WorkflowIdentity) (tail : List Char) :
    body id tail = body id [] ++ tail := by
  simp only [body, List.append_assoc, List.cons_append, List.nil_append]

/-- A lead and a body, closed by a colon; the lead stays a variable so that no text is unfolded. -/
theorem lead_body_colon (lead : List Char) (id : WorkflowIdentity) (tail : List Char) :
    (lead ++ body id tail) ++ [':'] = lead ++ body id (tail ++ [':']) := by
  rw [body_eq_append, body_eq_append id (tail ++ _), List.append_assoc, List.append_assoc]

theorem lead_ids_append (lead : List Char) (id : WorkflowIdentity) (tail : List Char) :
    (lead ++ (id.clientId.toList ++ ':' :: id.workflowId.toList)) ++ ':' :: tail =
      lead ++ body id tail := by
  simp only [body, List.append_assoc, List.cons_append]

theorem Slot.key_colon (id : WorkflowIdentity) (s : Slot) :
    s.key id ++ [':'] = s.family.lead ++ body id s.rest := by
  cases s with
  | workflow => exact lead_ids_append _ id []
  | waitingJobs =>
      have hwaiting : ":waiting_ready".toList ++ [':'] = ':' :: "waiting_ready:".toList := by decide
      rw [key, workflowWaitingJobsKey, List.append_assoc, hwaiting]
      exact lead_ids_append _ id _
  | job j | successors j | payload j => exact lead_body_colon _ id _

theorem Family.eq_of_lead_append_eq {f f' : Family} {text text' : List Char}
    (h : f.lead ++ text = f'.lead ++ text') : f = f' := by
  have hlong : ∀ g : Family, 3 < g.lead.length := by
    intro g
    cases g <;> decide
  have hfourth : f.lead[3]? = f'.lead[3]? := by
    rw [← List.getElem?_append_left (hlong f), h, List.getElem?_append_left (hlong f')]
  cases f <;> cases f' <;> first | rfl | exact absurd hfourth (by decide)

variable {id id' : WorkflowIdentity}

theorem Slot.body_eq_of_key_eq {s s' : Slot}
    (h : s.key id = s'.key id') : s.family = s'.family ∧ body id s.rest = body id' s'.rest := by
  have hclosed : s.family.lead ++ body id s.rest = s'.family.lead ++ body id' s'.rest := by
    rw [← key_colon, ← key_colon, h]
  have hfamily := Family.eq_of_lead_append_eq hclosed
  rw [hfamily] at hclosed
  exact ⟨hfamily, List.append_cancel_left hclosed⟩

theorem append_of_dropLead {lead text rest : List Char} (h : dropLead lead text = some rest) :
    lead ++ rest = text := by
  rw [dropLead_eq] at h
  split at h
  · rename_i hlead
    rw [← Option.some.inj h]
    exact (List.prefix_append_drop (List.isPrefixOf_iff_prefix.mp hlead)).symm
  · cases h

theorem Slot.key_injective (id : WorkflowIdentity) : Function.Injective (Slot.key id) := by
  intro s s' h
  obtain ⟨hfamily, hbody⟩ := body_eq_of_key_eq h
  rw [body_eq_append, body_eq_append id s'.rest] at hbody
  have hrest := List.append_cancel_left hbody
  have hjob : ∀ j j' : String, j.toList ++ [':'] = j'.toList ++ [':'] → j = j' :=
    fun j j' hj => String.toList_inj.mp (List.append_cancel_right hj)
  cases s <;> cases s' <;> first
    | rfl
    | exact absurd hfamily Family.noConfusion
    | exact congrArg _ (hjob _ _ hrest)
    | exact absurd hrest (by decide)

/-- The keys that a workflow has for each of its jobs. -/
def Slot.ofJob : List (String → Slot) := [.job, .successors, .payload]

/-- Which key of the workflow a text is. -/
def Slot.ofKey (id : WorkflowIdentity) (key : List Char) : Option Slot :=
  if key = Slot.workflow.key id then some .workflow
  else if key = Slot.waitingJobs.key id then some .waitingJobs
  else ofJob.findSome? (fun slot =>
    (dropLead ((slot "").key id) key).map (fun j => slot (String.ofList j)))

theorem Slot.key_ofJob {slot : String → Slot} (hslot : slot ∈ ofJob) (id : WorkflowIdentity)
    (j : String) : (slot j).key id = (slot "").key id ++ j.toList := by
  have hkey : ∀ lead : List Char,
      lead ++ body id j.toList = (lead ++ body id "".toList) ++ j.toList := by
    intro lead
    rw [body_eq_append, List.append_assoc]
    rfl
  simp only [ofJob, List.mem_cons, List.not_mem_nil, or_false] at hslot
  rcases hslot with rfl | rfl | rfl <;> exact hkey _

theorem Slot.key_of_ofKey {key : List Char} {s : Slot} (h : ofKey id key = some s) :
    s.key id = key := by
  rw [ofKey] at h
  split_ifs at h with hworkflow hwaiting
  · cases h
    exact hworkflow.symm
  · cases h
    exact hwaiting.symm
  · obtain ⟨slot, hslot, hfound⟩ := List.exists_of_findSome?_eq_some h
    obtain ⟨j, hdrop, rfl⟩ := Option.map_eq_some_iff.mp hfound
    rw [key_ofJob hslot, String.toList_ofList, append_of_dropLead hdrop]

theorem Slot.ofKey_key (id : WorkflowIdentity) (s : Slot) : ofKey id (s.key id) = some s := by
  have hjob : ∀ slot ∈ ofJob, ∀ j : String, (ofKey id ((slot j).key id)).isSome := by
    intro slot hslot j
    rw [ofKey]
    split_ifs
    · rfl
    · rfl
    · rw [List.findSome?_isSome_iff]
      refine ⟨slot, hslot, ?_⟩
      rw [key_ofJob hslot id j, dropLead_append]
      rfl
  have hfound : (ofKey id (s.key id)).isSome := by
    cases s with
    | workflow =>
        rw [ofKey, if_pos rfl]
        rfl
    | waitingJobs =>
        rw [ofKey, if_pos rfl]
        split_ifs <;> rfl
    | job j => exact hjob .job (by simp [ofJob]) j
    | successors j => exact hjob .successors (by simp [ofJob]) j
    | payload j => exact hjob .payload (by simp [ofJob]) j
  -- no other key of the workflow has this text
  obtain ⟨s', hs'⟩ := Option.isSome_iff_exists.mp hfound
  rw [hs', key_injective id (key_of_ofKey hs')]

/-- The text `client_id:workflow_id:` of one workflow begins that of the other. -/
def Covers (id id' : WorkflowIdentity) : Prop := body id [] <+: body id' []

instance (id id' : WorkflowIdentity) : Decidable (Covers id id') :=
  inferInstanceAs (Decidable (_ <+: _))

/-- No key of one workflow is a key of the other, whatever job ids are used. -/
def KeysApart (id id' : WorkflowIdentity) : Prop := ∀ s s' : Slot, s.key id ≠ s'.key id'

theorem KeysApart.symm (h : KeysApart id id') : KeysApart id' id :=
  fun s s' heq => h s' s heq.symm

/-- Every job of a covered workflow has the key of a job of the workflow that covers it. -/
theorem jobKey_covered {front : List Char} (h : body id [] ++ front = body id' []) (j : String) :
    jobKey ⟨id, String.ofList (front ++ j.toList)⟩ = jobKey ⟨id', j⟩ := by
  rw [jobKey, jobKey, String.toList_ofList, body_eq_append, body_eq_append id', ← h,
    List.append_assoc]

theorem Covers.not_keysApart (h : Covers id id') :
    ¬ KeysApart id id' := by
  obtain ⟨front, hfront⟩ := h
  exact fun hapart => hapart (.job (String.ofList (front ++ "j".toList))) (.job "j")
    (jobKey_covered hfront "j")

theorem keysApart_iff (id id' : WorkflowIdentity) :
    KeysApart id id' ↔ ¬ Covers id id' ∧ ¬ Covers id' id := by
  constructor
  · intro hapart
    exact ⟨fun h => h.not_keysApart hapart, fun h => h.not_keysApart hapart.symm⟩
  · rintro ⟨hcovers, hcovered⟩ s s' heq
    have hbody := (Slot.body_eq_of_key_eq heq).2
    rw [body_eq_append, body_eq_append id'] at hbody
    have hprefix : body id' [] <+: body id [] ++ s.rest := ⟨s'.rest, hbody.symm⟩
    rcases List.prefix_or_prefix_of_prefix (List.prefix_append _ s.rest) hprefix with h | h
    · exact hcovers h
    · exact hcovered h

/-- One request key can be split into client and request in both ways: the longer client id is the
shorter one, a colon and the start of the other request id. -/
def RequestsMeet (client request client' request' : String) : Prop :=
  ∃ middle : List Char, client'.toList = client.toList ++ ':' :: middle ∧
    request.toList = middle ++ ':' :: request'.toList

theorem requestsMeet_of_front {client request client' request' : String} {front : List Char}
    (hne : (client, request) ≠ (client', request'))
    (hclient : client'.toList = client.toList ++ front)
    (hrequest : ':' :: request.toList = front ++ ':' :: request'.toList) :
    RequestsMeet client request client' request' := by
  cases front with
  | nil =>
      rw [List.append_nil, String.toList_inj] at hclient
      rw [List.nil_append, List.cons.injEq, String.toList_inj] at hrequest
      exact absurd (Prod.ext hclient.symm hrequest.2) hne
  | cons c middle =>
      rw [List.cons_append, List.cons.injEq] at hrequest
      obtain ⟨rfl, hrequest⟩ := hrequest
      exact ⟨middle, hclient, hrequest⟩

theorem requestKey_eq_iff {client request client' request' : String}
    (hne : (client, request) ≠ (client', request')) :
    Redis.requestKey client request = Redis.requestKey client' request' ↔
      RequestsMeet client request client' request' ∨
        RequestsMeet client' request' client request := by
  have hcancel : ∀ lead a b a' b' : List Char,
      lead ++ a ++ b = lead ++ a' ++ b' ↔ a ++ b = a' ++ b' := by
    intro lead a b a' b'
    rw [List.append_assoc, List.append_assoc, List.append_cancel_left_eq]
  refine (hcancel "fp:req:".toList _ _ _ _).trans (List.append_eq_append_iff.trans ?_)
  constructor
  · rintro (⟨front, hclient, hrequest⟩ | ⟨front, hclient, hrequest⟩)
    · exact Or.inl (requestsMeet_of_front hne hclient hrequest)
    · exact Or.inr (requestsMeet_of_front hne.symm hclient hrequest)
  · rintro (⟨middle, hclient, hrequest⟩ | ⟨middle, hclient, hrequest⟩)
    · exact Or.inl ⟨':' :: middle, hclient, by rw [hrequest, List.cons_append]⟩
    · exact Or.inr ⟨':' :: middle, hclient, by rw [hrequest, List.cons_append]⟩

end RedisKeys

/-! ### The flat keyspace -/

/-- What Redis can hold under a key of a workflow. -/
inductive Stored where
  | workflow (hash : WorkflowHash)
  | job (hash : JobHash)
  | list (items : List String)
  | sortedSet (set : SortedSet String)
  | text (bytes : List UInt8)

/-- The keyspace as Redis has it. -/
abbrev FlatKeyspace := List Char → Option Stored

namespace WorkflowKeyspace

/-- The keys of a workflow with what they hold; Redis drops a list or a sorted set that is empty. -/
def contents (ks : WorkflowKeyspace) : RedisKeys.Slot → Option Stored
  | .workflow => ks.hash.map .workflow
  | .waitingJobs =>
      match ks.waitingReady with
      | ⟨[], _⟩ => none
      | set => some (.sortedSet set)
  | .job j => (ks.jobs j).map .job
  | .successors j => if ks.successors j = [] then none else some (.list (ks.successors j))
  | .payload j => (ks.payloads j).map .text

/-- The keys of a workflow, each read by the commands for its own type. -/
def ofContents (stored : RedisKeys.Slot → Option Stored) : WorkflowKeyspace where
  hash := (stored .workflow).bind (fun | .workflow hash => some hash | _ => none)
  jobs j := (stored (.job j)).bind (fun | .job hash => some hash | _ => none)
  successors j := ((stored (.successors j)).bind (fun | .list l => some l | _ => none)).getD []
  waitingReady :=
    ((stored .waitingJobs).bind (fun | .sortedSet set => some set | _ => none)).getD .empty
  payloads j := (stored (.payload j)).bind (fun | .text bytes => some bytes | _ => none)

@[simp] theorem ofContents_contents (ks : WorkflowKeyspace) : ofContents ks.contents = ks := by
  obtain ⟨hash, jobs, successors, ⟨entries, hnodup⟩, payloads⟩ := ks
  simp only [ofContents, contents, WorkflowKeyspace.mk.injEq]
  refine ⟨?_, ?_, ?_, ?_, ?_⟩
  · cases hash <;> rfl
  · funext j
    cases jobs j <;> rfl
  · funext j
    split
    · rename_i hnil
      exact hnil.symm
    · rfl
  · cases entries <;> rfl
  · funext j
    cases payloads j <;> rfl

end WorkflowKeyspace

namespace FlatKeyspace

open RedisKeys

def load (id : WorkflowIdentity) (t : FlatKeyspace) : WorkflowKeyspace :=
  .ofContents (fun s => t (s.key id))

/-- Writes the keys of one workflow and leaves all others. -/
def save (id : WorkflowIdentity) (ks : WorkflowKeyspace) (t : FlatKeyspace) : FlatKeyspace :=
  fun key => ((Slot.ofKey id key).map ks.contents).getD (t key)

theorem load_save (id : WorkflowIdentity) (ks : WorkflowKeyspace) (t : FlatKeyspace) :
    load id (save id ks t) = ks := by
  have hkeys : (fun s : Slot => save id ks t (s.key id)) = ks.contents := by
    funext s
    rw [save, Slot.ofKey_key]
    rfl
  rw [load, hkeys, WorkflowKeyspace.ofContents_contents]

theorem save_of_forall_ne {id : WorkflowIdentity} {key : List Char}
    (hkey : ∀ s : Slot, s.key id ≠ key) (ks : WorkflowKeyspace) (t : FlatKeyspace) :
    save id ks t key = t key := by
  rw [save, Option.eq_none_iff_forall_ne_some.mpr (fun s hs => hkey s (Slot.key_of_ofKey hs))]
  rfl

theorem load_congr {id : WorkflowIdentity} {t t' : FlatKeyspace}
    (h : ∀ s : Slot, t (s.key id) = t' (s.key id)) : load id t = load id t' :=
  congrArg WorkflowKeyspace.ofContents (funext h)

theorem load_save_of_keysApart {id id' : WorkflowIdentity} (h : KeysApart id id')
    (ks : WorkflowKeyspace) (t : FlatKeyspace) : load id' (save id ks t) = load id' t :=
  load_congr (fun s => save_of_forall_ne (fun s' => h s' s) ks t)

end FlatKeyspace

/-! ### Calls in the flat keyspace -/

def Redis.withWorkflows (r : Redis) (ws : WorkflowIdentity → WorkflowKeyspace) : Redis :=
  { r with workflows := ws }

def World.withWorkflows (w : World) (ws : WorkflowIdentity → WorkflowKeyspace) : World :=
  { w with redis := w.redis.withWorkflows ws }

/-- The operation answers from the keys of one workflow alone and writes no keys of others. -/
def World.Within (id : WorkflowIdentity) {ρ : Type} (f : World → ρ × World) : Prop :=
  ∀ (w : World) (ws : WorkflowIdentity → WorkflowKeyspace),
    f (w.withWorkflows ws) =
      let p := f (w.withWorkflows (fun _ => ws id))
      (p.1, p.2.withWorkflows (Function.update ws id (p.2.redis.workflows id)))

/-- The operation has nothing to do with the keys of workflows. -/
def World.Elsewhere {ρ : Type} (f : World → ρ × World) : Prop :=
  ∀ (w : World) (ws : WorkflowIdentity → WorkflowKeyspace),
    f (w.withWorkflows ws) = ((f w).1, (f w).2.withWorkflows ws)

namespace World

variable {id : WorkflowIdentity} {ρ σ : Type}

theorem Elsewhere.within {f : World → ρ × World} (h : Elsewhere f) : Within id f := by
  intro w ws
  have hkept : ((f w).2.withWorkflows (fun _ => ws id)).redis.workflows id = ws id := rfl
  rw [h w ws, h w (fun _ => ws id)]
  dsimp only
  rw [hkept, Function.update_eq_self]
  rfl

theorem within_read (g : WorkflowKeyspace → ρ) :
    Within id (fun w => (g (w.redis.workflows id), w)) := by
  intro w ws
  have hkept : Function.update ws id (ws id) = ws := Function.update_eq_self id ws
  exact Prod.ext rfl (congrArg w.withWorkflows hkept.symm)

/-- A script: it works on the keys of the workflow, and with its answer goes what it does to the
queues. -/
theorem within_script (g : WorkflowKeyspace → ρ × WorkflowKeyspace) (answer : ρ → σ)
    (queues : ρ → Redis → Redis)
    (hqueues : ∀ a r ws, queues a (r.withWorkflows ws) = (queues a r).withWorkflows ws) :
    Within id (fun w =>
      let p := g (w.redis.workflows id)
      Call.onRedis w (answer p.1, queues p.1 (w.redis.setWorkflow id p.2))) := by
  intro w ws
  have hset : ∀ (r : Redis) (ws : WorkflowIdentity → WorkflowKeyspace) (ks : WorkflowKeyspace),
      (r.withWorkflows ws).setWorkflow id ks = r.withWorkflows (Function.update ws id ks) :=
    fun _ _ _ => rfl
  simp only [Call.onRedis, withWorkflows, hset, hqueues]
  simp only [Redis.withWorkflows, Function.update_self]

theorem within_command (g : WorkflowKeyspace → ρ × WorkflowKeyspace) :
    Within id (fun w =>
      let p := g (w.redis.workflows id)
      Call.onRedis w (p.1, w.redis.setWorkflow id p.2)) :=
  within_script g (fun a => a) (fun _ r => r) (fun _ _ _ => rfl)

end World

namespace Redis

variable (r : Redis) (ws : WorkflowIdentity → WorkflowKeyspace) (id : WorkflowIdentity)

theorem enqueue_withWorkflows (promoted : Option (String × Int)) :
    (r.withWorkflows ws).enqueue id promoted = (r.enqueue id promoted).withWorkflows ws := by
  cases promoted <;> rfl

theorem dropCanceled_withWorkflows (canceled : List (String × JobStatus)) :
    (r.withWorkflows ws).dropCanceled id canceled =
      (r.dropCanceled id canceled).withWorkflows ws := by
  induction canceled generalizing r with
  | nil => rfl
  | cons entry canceled ih =>
      obtain ⟨j, st⟩ := entry
      simp only [dropCanceled, List.foldl_cons] at ih ⊢
      rw [← ih]
      congr 1
      split_ifs <;> rfl

theorem decrementRate_withWorkflows (now : Int) (args : AdmitArgs) :
    (r.withWorkflows ws).decrementRate now args = (r.decrementRate now args).withWorkflows ws := by
  have hrate : (r.withWorkflows ws).rate now args.clientId now = r.rate now args.clientId now := rfl
  rw [decrementRate, decrementRate, hrate]
  cases r.rate now args.clientId now <;> rfl

theorem keepRequest_withWorkflows (now : Int) (key : List Char) (st : RequestStatus) :
    (r.withWorkflows ws).keepRequest now key st = (r.keepRequest now key st).withWorkflows ws := by
  have hstatus : (r.withWorkflows ws).requestStatus now key = r.requestStatus now key := rfl
  have hrequests : (r.withWorkflows ws).requests key = r.requests key := rfl
  rw [keepRequest, keepRequest, hstatus, hrequests]
  cases r.requestStatus now key <;> cases r.requests key <;> rfl

theorem admitRequest_withWorkflows (now : Int) (args : AdmitArgs) :
    (r.withWorkflows ws).admitRequest now args =
      ((r.admitRequest now args).1, (r.admitRequest now args).2.withWorkflows ws) := by
  -- every test of the script reads the keys of admission only
  have hstatus : ∀ key, (r.withWorkflows ws).requestStatus now key = r.requestStatus now key :=
    fun _ => rfl
  have htracked : ∀ requests, Redis.mk (r.withWorkflows ws).workflows
      (r.withWorkflows ws).executionQueue (r.withWorkflows ws).jobRetryStream
      (r.withWorkflows ws).jobCompletionStream (r.withWorkflows ws).activeWorkflows requests
      (r.withWorkflows ws).rates = ({ r with requests := requests } : Redis).withWorkflows ws :=
    fun _ => rfl
  have hcounted : ∀ r' : Redis, (r'.withWorkflows ws).incrementRate now args =
      ((r'.incrementRate now args).1, (r'.incrementRate now args).2.withWorkflows ws) :=
    fun _ => rfl
  have hearlier : ∀ r' : Redis,
      (r'.withWorkflows ws).earlierRequests now args = r'.earlierRequests now args := fun _ => rfl
  have hactive : ∀ r' : Redis, (r'.withWorkflows ws).activeWorkflows = r'.activeWorkflows :=
    fun _ => rfl
  have hrequests : (r.withWorkflows ws).requests = r.requests := rfl
  simp only [admitRequest, hstatus]
  rw [htracked, hrequests]
  simp only [hcounted, hearlier, hactive, decrementRate_withWorkflows, keepRequest_withWorkflows]
  split_ifs <;> rfl

end Redis

namespace Call

variable {c : Call} {id : WorkflowIdentity}

/-- A call about a workflow reads the keys of that workflow only, and writes no others. -/
theorem carryOut_within (habout : c.about = some id) (e : Env) :
    World.Within id (c.carryOut e) := by
  cases c with
  | jobType k =>
      cases habout
      exact World.within_read (fun ks => some (ks.jobs k.jobId).isSome)
  | fetchJobRuntime k =>
      cases habout
      exact World.within_read (fun ks => ks.fetchJobRuntime k.jobId)
  | fetchJobPayload k =>
      cases habout
      exact World.within_read (fun ks => ks.payloads k.jobId)
  | fetchWorkflowRuntime id' =>
      cases habout
      exact World.within_read WorkflowKeyspace.hash
  | claimJob k =>
      cases habout
      exact World.within_script (fun ks => ks.claimJob k.jobId) some (fun _ r => r)
        (fun _ _ _ => rfl)
  | trySetJobToRunning k =>
      cases habout
      exact World.within_command (fun ks => ks.trySetJobToRunning e.redisTime k.jobId)
  | completeSuccessfulJob k =>
      cases habout
      exact World.within_script (fun ks => ks.completeSuccessfulJob e.redisTime k.jobId)
        Redis.CompletedJob.ofOutcome (fun a r => r.enqueue k.identity (Redis.promotedBy a))
        (fun a r ws => r.enqueue_withWorkflows ws _ _)
  | completeFailedJob k count jobIds =>
      cases habout
      exact World.within_script (fun ks => ks.completeFailedJob k.jobId count jobIds)
        (fun a => some
          (⟨a.canceled.map Prod.fst, a.workflowFailed, a.workflowCompleted⟩ : Redis.FailedJob))
        (fun a r => r.dropCanceled k.identity a.canceled)
        (fun a r ws => r.dropCanceled_withWorkflows ws _ _)
  | scheduleJobRetry k count retryAtMs =>
      cases habout
      exact World.within_script (fun ks => ks.scheduleJobRetry k.jobId count)
        (fun a => some (a.map Prod.fst))
        (fun a r => ({ r with jobRetryStream := r.jobRetryStream.add k retryAtMs } : Redis).enqueue
          k.identity a)
        (fun a r ws => Redis.enqueue_withWorkflows
          { r with jobRetryStream := r.jobRetryStream.add k retryAtMs } ws _ _)
  | promoteRetryJob k =>
      cases habout
      exact World.within_script (fun ks => ks.promoteRetryJob k.jobId)
        (fun a => some (a.map Prod.fst)) (fun a r => r.enqueue k.identity a)
        (fun a r ws => r.enqueue_withWorkflows ws _ _)
  | setJobStatus k st =>
      cases habout
      exact World.within_command (fun ks => (true, ks.setJobStatus k.jobId st))
  | deleteJobPayload k =>
      cases habout
      exact World.within_command (fun ks =>
        ((), { ks with payloads := Function.update ks.payloads k.jobId none }))
  | deleteJob k =>
      cases habout
      exact World.within_command (fun ks =>
        ((), { ks with jobs := Function.update ks.jobs k.jobId none }))
  | deleteSuccessors k =>
      cases habout
      exact World.within_command (fun ks =>
        ((), { ks with successors := Function.update ks.successors k.jobId [] }))
  | deleteWorkflow id' =>
      cases habout
      exact World.within_command (fun ks => (ks.hash.isSome, { ks with hash := none }))
  | deleteWaitingReady id' =>
      cases habout
      exact World.within_command (fun ks => (true, { ks with waitingReady := .empty }))
  | setWorkflowRuntime id' hash =>
      cases habout
      exact World.within_command (fun ks => (true, { ks with hash := some hash }))
  | setJobRuntime k hash =>
      cases habout
      exact World.within_command (fun ks => (true, ks.setJob k.jobId (fun _ => hash)))
  | addSuccessors k jobs =>
      cases habout
      exact World.within_command (fun ks => (true, { ks with
        successors := Function.update ks.successors k.jobId (ks.successors k.jobId ++ jobs) }))
  | addWaitingReady id' members =>
      cases habout
      exact World.within_command (fun ks => (true, { ks with
        waitingReady := members.foldl (fun s m => s.addNew m.1 m.2) ks.waitingReady }))
  | setJobPayload k payload =>
      cases habout
      exact World.within_command (fun ks => (true, { ks with
        payloads := Function.update ks.payloads k.jobId (some payload) }))
  | admitRequest args =>
      refine World.Elsewhere.within (fun w ws => ?_)
      exact congrArg (onRedis w) (w.redis.admitRequest_withWorkflows ws e.redisTime args)
  | popExecutionQueue | popLocal | dequeueJobCompletion | dequeueDueJobRetry | setRequestStatus
  | releaseRequestId | insertRequest | updateRequestStatus | getClientActiveWorkflowsCount
  | addWorkflowJobs => cases habout
  -- the calls on SQLite, on the queues and on the local machine
  | _ => exact World.Elsewhere.within (fun _ _ => rfl)

theorem exec_within (habout : c.about = some id) (e : Env) :
    World.Within id (c.exec e) := by
  intro w ws
  simp only [exec]
  split
  · exact carryOut_within habout e w ws
  · exact World.Elsewhere.within (fun _ _ => rfl) w ws

/-- Serves a call in the flat keyspace, from which the keys of the workflow are read and to which
they are written back. The keys of workflows that `w` itself has play no part. -/
def execFlat (c : Call) (e : Env) (t : FlatKeyspace) (w : World) :
    c.Reply × FlatKeyspace × World :=
  let p := c.exec e (w.withWorkflows t.load)
  match c.about with
  | none => (p.1, t, p.2)
  | some id => (p.1, t.save id (p.2.redis.workflows id), p.2)

theorem execFlat_of_about (habout : c.about = some id) (e : Env) (t : FlatKeyspace) (w : World) :
    c.execFlat e t w =
      let p := c.exec e (w.withWorkflows (fun _ => t.load id))
      (p.1, t.save id (p.2.redis.workflows id),
        p.2.withWorkflows (Function.update t.load id (p.2.redis.workflows id))) := by
  have hself : ∀ (w' : World) ks,
      (w'.withWorkflows (Function.update t.load id ks)).redis.workflows id = ks := by
    intro w' ks
    change Function.update t.load id ks id = ks
    exact Function.update_self ..
  simp only [execFlat, habout, exec_within habout e w t.load, hself]

end Call

/-- The stores with the texts that Redis has: the keys of workflows, and the members of the two queues
of jobs. The keys and queues that `others` has of its own play no part. -/
structure FlatWorld where
  keys : FlatKeyspace := fun _ => none
  executionQueue : SortedSet (List Char) := .empty
  jobRetryStream : SortedSet (List Char) := .empty
  others : World := {}

namespace FlatWorld

/-- The job whose key is the text of a queue's member: a call about a workflow meets its own jobs by
their texts, and any other text is taken apart at its first two colons. -/
def member (about : Option WorkflowIdentity) (text : List Char) : JobKey :=
  let own : Option JobKey := do
    let id ← about
    let j ← RedisKeys.dropLead (RedisKeys.jobKey ⟨id, ""⟩) text
    some ⟨id, String.ofList j⟩
  let split : Option JobKey := do
    let rest ← RedisKeys.dropLead RedisKeys.jobPrefix text
    let (client, rest) ← RedisKeys.splitColon rest
    let (workflow, j) ← RedisKeys.splitColon rest
    some ⟨⟨String.ofList client, String.ofList workflow⟩, String.ofList j⟩
  (own <|> split).getD ⟨⟨"", ""⟩, ""⟩

/-- The world around the keys, with the queues as a call about a workflow meets them. -/
def seen (s : FlatWorld) (about : Option WorkflowIdentity) : World :=
  { s.others with redis := { s.others.redis with
      executionQueue := s.executionQueue.image (member about)
      jobRetryStream := s.jobRetryStream.image (member about) } }

end FlatWorld

namespace Call

/-- A job taken from a queue, as the decoder makes it out of its text. -/
def decoded : (c : Call) → c.Reply → c.Reply
  | popExecutionQueue, (k : Option JobKey) =>
      k.bind (fun k => RedisKeys.decodeReadyJobKey (RedisKeys.jobKey k))
  | dequeueDueJobRetry, (k : Option JobKey) =>
      k.bind (fun k => RedisKeys.parseJobKey (RedisKeys.jobKey k))
  | _, reply => reply

/-- Serves a call on the texts that Redis has. -/
def serveFlat (c : Call) (e : Env) (s : FlatWorld) : c.Reply × FlatWorld :=
  let (reply, keys, w) := c.execFlat e s.keys (s.seen c.about)
  (c.decoded reply,
    { keys
      executionQueue := w.redis.executionQueue.image RedisKeys.jobKey
      jobRetryStream := w.redis.jobRetryStream.image RedisKeys.jobKey
      others := w })

end Call

namespace RedisKeys

/-- No call about the first workflow writes a key of the second, nor does its answer, or what it
writes, depend on one. -/
structure CallsApart (id id' : WorkflowIdentity) : Prop where
  writes : ∀ (c : Call) (e : Env) (t : FlatKeyspace) (w : World), c.about = some id →
    (c.execFlat e t w).2.1.load id' = t.load id'
  reads : ∀ (c : Call) (e : Env) (t t' : FlatKeyspace) (w : World), c.about = some id →
    (∀ key, (∀ s : Slot, s.key id' ≠ key) → t key = t' key) →
      (c.execFlat e t w).1 = (c.execFlat e t' w).1 ∧
        (c.execFlat e t w).2.1.load id = (c.execFlat e t' w).2.1.load id

theorem KeysApart.callsApart {id id' : WorkflowIdentity} (h : KeysApart id id') :
    CallsApart id id' where
  writes c e t w habout := by
    rw [Call.execFlat_of_about habout]
    exact FlatKeyspace.load_save_of_keysApart h _ t
  reads c e t t' w habout hagree := by
    have hload : t.load id = t'.load id :=
      FlatKeyspace.load_congr (fun s => hagree _ (fun s' heq => h s s' heq.symm))
    rw [Call.execFlat_of_about habout, Call.execFlat_of_about habout, hload]
    exact ⟨rfl, (FlatKeyspace.load_save ..).trans (FlatKeyspace.load_save ..).symm⟩

/-- Two workflows and two requests are kept apart, in all their keys and in all calls, exactly when
neither workflow covers the other and the requests do not meet. Within one workflow distinct job ids
always have distinct keys. -/
theorem isolated_iff (id id' : WorkflowIdentity) (client request client' request' : String)
    (hrequests : (client, request) ≠ (client', request')) :
    (KeysApart id id' ∧ Function.Injective (Slot.key id) ∧
        Redis.requestKey client request ≠ Redis.requestKey client' request' ∧
        CallsApart id id' ∧ CallsApart id' id) ↔
      (¬ Covers id id' ∧ ¬ Covers id' id ∧ ¬ RequestsMeet client request client' request' ∧
        ¬ RequestsMeet client' request' client request) := by
  rw [ne_eq, requestKey_eq_iff hrequests, not_or]
  constructor
  · rintro ⟨hkeys, -, hmeet, -, -⟩
    obtain ⟨hcovers, hcovered⟩ := (keysApart_iff id id').mp hkeys
    exact ⟨hcovers, hcovered, hmeet⟩
  · rintro ⟨hcovers, hcovered, hmeet⟩
    have hkeys := (keysApart_iff id id').mpr ⟨hcovers, hcovered⟩
    exact ⟨hkeys, Slot.key_injective id, hmeet, hkeys.callsApart, hkeys.symm.callsApart⟩

theorem isolated_iff_acme :
    KeysApart ⟨"acme", "w1"⟩ ⟨"acme", "w2"⟩ ∧
      Redis.requestKey "acme" "r1" ≠ Redis.requestKey "acme" "r2" ∧
      CallsApart ⟨"acme", "w1"⟩ ⟨"acme", "w2"⟩ := by
  have hmeet : ∀ request request', ¬ RequestsMeet "acme" request "acme" request' := by
    rintro request request' ⟨middle, hclient, -⟩
    exact absurd (congrArg List.length hclient) (by simp)
  obtain ⟨hkeys, -, hrequests, hcalls, -⟩ :=
    (isolated_iff ⟨"acme", "w1"⟩ ⟨"acme", "w2"⟩ "acme" "r1" "acme" "r2" (by decide)).mpr
      ⟨by decide, by decide, hmeet _ _, hmeet _ _⟩
  exact ⟨hkeys, hrequests, hcalls⟩

/-- Workflow `eu:w1` of client `acme` and workflow `w1` of client `acme:eu` have all their keys in
common, and so have their requests: the status that a worker of the one client gives to its job is
read by the other client. -/
theorem clients_share_keys :
    let id : WorkflowIdentity := ⟨"acme", "eu:w1"⟩
    let id' : WorkflowIdentity := ⟨"acme:eu", "w1"⟩
    SchemaId id.clientId ∧ SchemaId id.workflowId ∧ SchemaId id'.clientId ∧
      SchemaId id'.workflowId ∧ id ≠ id' ∧
      (∀ s : Slot, s.key id = s.key id') ∧
      Redis.requestKey "acme" "eu:r1" = Redis.requestKey "acme:eu" "r1" ∧
      ∀ (t : FlatKeyspace) (w : World),
        ((Call.setJobStatus ⟨id, "j"⟩ .running).execFlat {} t w).2.1.load id' =
          (t.load id').setJobStatus "j" .running := by
  have hbody : body ⟨"acme", "eu:w1"⟩ [] = body ⟨"acme:eu", "w1"⟩ [] := by decide
  have hkeys : ∀ s : Slot, s.key ⟨"acme", "eu:w1"⟩ = s.key ⟨"acme:eu", "w1"⟩ := by
    intro s
    refine List.append_cancel_right (?_ : _ ++ [':'] = _ ++ [':'])
    rw [Slot.key_colon, Slot.key_colon, body_eq_append, hbody, ← body_eq_append]
  have hload : ∀ t : FlatKeyspace, t.load ⟨"acme:eu", "w1"⟩ = t.load ⟨"acme", "eu:w1"⟩ :=
    fun t => congrArg WorkflowKeyspace.ofContents (funext (fun s => congrArg t (hkeys s).symm))
  refine ⟨by decide, by decide, by decide, by decide, by decide, hkeys, by decide, ?_⟩
  intro t w
  rw [Call.execFlat_of_about rfl, hload, hload]
  exact (FlatKeyspace.load_save ..).trans (Redis.setWorkflow_workflows_self ..)

end RedisKeys

end FlowPilot
