import FlowPilot.StoreRedis
import FlowPilot.StoreWire
import Mathlib.Logic.Relation

/-! The transport of completion events: the script that appends an event to the stream with the texts
of its fields, the script that takes the oldest entry, and the wrapper that reads the script's reply
and builds the event again. Any number of workers and handlers use it at the same time; each script
is one step. -/

namespace FlowPilot

/-- `to_string(JobStatus)`. -/
def JobStatus.text : JobStatus → String
  | pending => "PENDING"
  | ready => "READY"
  | queued => "QUEUED"
  | pendingExecution => "PENDING_EXECUTION"
  | running => "RUNNING"
  | retryDelay => "RETRY_DELAY"
  | completed => "COMPLETED"
  | failed => "FAILED"
  | aborted => "ABORTED"
  | canceled => "CANCELED"
  | unknown => "UNKNOWN"

/-- `job_status_from_string`: the statuses are tried one after the other. -/
def jobStatusFromString (value : String) : JobStatus :=
  ([.pending, .ready, .queued, .pendingExecution, .running, .retryDelay, .completed, .failed,
    .aborted, .canceled].find? (fun st : JobStatus => value == st.text)).getD .unknown

/-- The status codes in the order of their numbers. -/
def StatusCode.all : List StatusCode :=
  [invalidJsonFormat, schemaValidationFailed, clientNotFound, workflowSizeExceeded,
    jobPolicyViolation, jobCountExceeded, jobCountZero, jobSizeExceeded, missingDependency,
    duplicateDependency, duplicateJobId, circularDependency, clientPolicyViolation,
    internalDbFailure, duplicateRequest, workflowIdExists, rateLimitExceeded,
    concurrentWorkflowLimitExceeded, requestAdmitted, workflowAdmitted, statusUpdatedFailure,
    jobExecutionFailure, ok]

/-- `static_cast<int>` of a status code. -/
def StatusCode.number (code : StatusCode) : Nat := StatusCode.all.idxOf code

def statusCodeFromString (value : List Char) : StatusCode :=
  match Wire.toInteger 32 value with
  | none => .internalDbFailure
  | some parsed =>
      if 0 ≤ parsed ∧ parsed ≤ StatusCode.ok.number then
        StatusCode.all.getD parsed.toNat .internalDbFailure
      else .internalDbFailure

theorem jobStatusFromString_text (st : JobStatus) : jobStatusFromString st.text = st := by
  cases st <;> decide

theorem statusCodeFromString_number (code : StatusCode) :
    statusCodeFromString (Wire.decimal code.number) = code := by
  cases code <;> decide

/-! ### The stream and its two scripts -/

/-- The id of a stream entry: a time and a sequence number of 64 bits each. -/
structure StreamId where
  ms : UInt64
  seq : UInt64
  deriving DecidableEq, Repr

namespace StreamId

/-- The order of the ids in a stream. -/
instance : LT StreamId := ⟨fun a b => a.ms < b.ms ∨ (a.ms = b.ms ∧ a.seq < b.seq)⟩

def text (id : StreamId) : List Char := Wire.decimal id.ms.toNat ++ '-' :: Wire.decimal id.seq.toNat

theorem lt_irrefl (id : StreamId) : ¬ id < id := by
  rintro (h | ⟨-, h⟩)
  · exact UInt64.lt_irrefl _ h
  · exact UInt64.lt_irrefl _ h

theorem text_injective : Function.Injective text := by
  have hdecimal : Function.Injective Wire.decimal := by
    intro m n h
    have hvalue := congrArg (fun digits => Nat.ofDigitChars 10 digits 0) h
    simpa only [Wire.decimal, Nat.ofDigitChars_ten_toDigits] using hvalue
  have hms : ∀ id : StreamId, id.text.takeWhile Char.isDigit = Wire.decimal id.ms.toNat := by
    intro id
    rw [text, List.takeWhile_append_of_pos (Wire.decimal_isDigit _),
      List.takeWhile_cons_of_neg (by decide), List.append_nil]
  rintro ⟨ms, seq⟩ ⟨ms', seq'⟩ h
  have hmsEq : ms = ms' := by
    have hdigits := congrArg (List.takeWhile Char.isDigit) h
    rw [hms, hms] at hdigits
    exact UInt64.toNat_inj.mp (hdecimal hdigits)
  subst hmsEq
  have hseq : seq = seq' :=
    UInt64.toNat_inj.mp (hdecimal (List.cons.inj (List.append_cancel_left h)).2)
  rw [hseq]

theorem length_text_lt (id : StreamId) : id.text.length < 2 ^ 31 := by
  have hdigits : ∀ n : UInt64, (Wire.decimal n.toNat).length ≤ 20 := by
    intro n
    have hn := n.toNat_lt
    exact (Nat.length_toDigits_le_iff (by decide) (by decide)).mpr (by omega)
  have hms := hdigits id.ms
  have hseq := hdigits id.seq
  rw [text, List.length_append, List.length_cons]
  omega

end StreamId

/-- `fp:job_completion_stream`: the entries in the order of their ids, each with its fields and
values in one list, as `XADD` was given them. -/
abbrev CompletionStream := List (StreamId × List (List Char))

/-- The longest text Redis accepts as an argument, `proto-max-bulk-len`. -/
def maxBulkLength : Nat := 512 * 1024 * 1024

namespace JobCompletionData

/-- The arguments that `enqueue_job_completion_async` hands to its script, without the channel. -/
def args (message : JobCompletionData) : List (List Char) :=
  [message.identity.clientId.toList, message.identity.workflowId.toList, message.jobId.toList,
    message.status.text.toList, Wire.decimal message.errorCode.number]

/-- The fields of the entry that the script adds. -/
def fields (message : JobCompletionData) : List (List Char) :=
  ["client_id".toList, message.identity.clientId.toList,
    "workflow_id".toList, message.identity.workflowId.toList,
    "job_id".toList, message.jobId.toList,
    "status".toList, message.status.text.toList,
    "error_code".toList, Wire.decimal message.errorCode.number]

/-- The messages that workers and schedulers send. -/
def Sendable (message : JobCompletionData) : Prop :=
  message.identity.clientId ≠ "" ∧ message.identity.workflowId ≠ "" ∧ message.jobId ≠ "" ∧
    message.status ≠ .unknown

instance (message : JobCompletionData) : Decidable message.Sendable :=
  inferInstanceAs (Decidable (_ ∧ _))

/-- Redis takes every argument. -/
def Fits (message : JobCompletionData) : Prop :=
  ∀ text ∈ message.args, text.length ≤ maxBulkLength

instance (message : JobCompletionData) : Decidable message.Fits :=
  inferInstanceAs (Decidable (∀ text ∈ message.args, _))

end JobCompletionData

namespace CompletionStream

/-- `XADD` with the id that Redis chooses. -/
def xadd (id : StreamId) (fields : List (List Char)) (s : CompletionStream) : CompletionStream :=
  s ++ [(id, fields)]

def xdel (id : StreamId) (s : CompletionStream) : CompletionStream :=
  s.filter (fun entry => decide (entry.1 ≠ id))

/-- The script of `dequeue_job_completion_async`: `XRANGE - + COUNT 1`, `XDEL` of the entry it gives,
and the entry as one flat table. -/
def dequeueScript (s : CompletionStream) : List (List Char) × CompletionStream :=
  match s with
  | [] => ([], s)
  | (id, fields) :: _ => (id.text :: fields, xdel id s)

end CompletionStream

/-! ### The wrapper -/

/-- `execute_lua_script_async` as the caller sees a script that returned `table`: Redis writes it as
an array and the connection reads it from an empty buffer. -/
def luaValues (table : List (List Char)) : Option (List (List Char)) :=
  match Wire.reading (Wire.parseReply 2) (Wire.multiBulk table) with
  | some (.ok (.array values), _) => some values
  | _ => none

theorem luaValues_eq {table : List (List Char)} (hcount : table.length < 2 ^ 31)
    (hlengths : ∀ text ∈ table, text.length < 2 ^ 31) : luaValues table = some table := by
  have hread := Wire.reading_multiBulk hcount hlengths []
  rw [List.append_nil] at hread
  rw [luaValues, hread]

/-- The pairs of fields and values; an odd last text is left out. -/
def fieldPairs : List (List Char) → List (List Char × List Char)
  | field :: value :: rest => (field, value) :: fieldPairs rest
  | _ => []

/-- Writes the pairs into a map, a later one over an earlier one. -/
def fillMap (pairs : List (List Char × List Char)) (map : List Char → List Char) :
    List Char → List Char :=
  pairs.foldl (fun map pair => Function.update map pair.1 pair.2) map

/-- The `unordered_map` of the fields, where a field that is missing reads as empty. -/
def fieldMap (values : List (List Char)) : List Char → List Char :=
  fillMap (fieldPairs values) (fun _ => [])

/-- What `dequeue_job_completion_async` gives its caller: a failure, success with an empty message,
or success with a message and its stream id. -/
inductive Dequeued where
  | failed
  | empty
  | message (streamId : List Char) (data : JobCompletionData)
  deriving DecidableEq, Repr

/-- The event that the fields describe. -/
def parsedCompletion (fields : List Char → List Char) : JobCompletionData where
  identity := ⟨String.ofList (fields "client_id".toList), String.ofList (fields "workflow_id".toList)⟩
  jobId := String.ofList (fields "job_id".toList)
  status := jobStatusFromString (String.ofList (fields "status".toList))
  errorCode := statusCodeFromString (fields "error_code".toList)

/-- The part of `dequeue_job_completion_async` behind the script. -/
def decodeCompletion : Option (List (List Char)) → Dequeued
  | none => .failed
  | some [] => .empty
  | some (streamId :: rest) =>
      if rest.length + 1 < 11 then .failed
      else
        let parsed := parsedCompletion (fieldMap rest)
        if parsed.Sendable then .message streamId parsed else .failed

theorem fillMap_of_not_mem {pairs : List (List Char × List Char)} {field : List Char}
    (h : field ∉ pairs.map Prod.fst) (map : List Char → List Char) :
    fillMap pairs map field = map field := by
  induction pairs generalizing map with
  | nil => rfl
  | cons pair pairs ih =>
      rw [List.map_cons, List.mem_cons, not_or] at h
      refine (ih h.2 _).trans ?_
      exact Function.update_of_ne h.1 ..

theorem fillMap_of_mem {pairs : List (List Char × List Char)} {field value : List Char}
    (hnodup : (pairs.map Prod.fst).Nodup) (h : (field, value) ∈ pairs)
    (map : List Char → List Char) : fillMap pairs map field = value := by
  induction pairs generalizing map with
  | nil => cases h
  | cons pair pairs ih =>
      rw [List.map_cons, List.nodup_cons] at hnodup
      rcases List.mem_cons.mp h with rfl | h
      · refine (fillMap_of_not_mem hnodup.1 _).trans ?_
        exact Function.update_self ..
      · exact ih hnodup.2 h _

theorem length_fields (message : JobCompletionData) : message.fields.length = 10 := rfl

theorem fieldPairs_fields (message : JobCompletionData) :
    fieldPairs message.fields =
      ["client_id".toList, "workflow_id".toList, "job_id".toList, "status".toList,
        "error_code".toList].zip message.args := rfl

theorem parsedCompletion_fields (message : JobCompletionData) :
    parsedCompletion (fieldMap message.fields) = message := by
  have hfind : ∀ field value, (field, value) ∈ fieldPairs message.fields →
      fieldMap message.fields field = value := by
    intro field value h
    refine fillMap_of_mem ?_ h _
    rw [fieldPairs_fields]
    exact (by decide : (["client_id".toList, "workflow_id".toList, "job_id".toList,
      "status".toList, "error_code".toList] : List (List Char)).Nodup)
  have hclient : fieldMap message.fields "client_id".toList = message.identity.clientId.toList :=
    hfind _ _ List.mem_cons_self
  have hworkflow : fieldMap message.fields "workflow_id".toList =
      message.identity.workflowId.toList := hfind _ _ (List.mem_cons_of_mem _ List.mem_cons_self)
  have hjob : fieldMap message.fields "job_id".toList = message.jobId.toList :=
    hfind _ _ (List.mem_cons_of_mem _ (List.mem_cons_of_mem _ List.mem_cons_self))
  have hstatus : fieldMap message.fields "status".toList = message.status.text.toList :=
    hfind _ _ (List.mem_cons_of_mem _ (List.mem_cons_of_mem _ (List.mem_cons_of_mem _
      List.mem_cons_self)))
  have hcode : fieldMap message.fields "error_code".toList =
      Wire.decimal message.errorCode.number :=
    hfind _ _ (List.mem_cons_of_mem _ (List.mem_cons_of_mem _ (List.mem_cons_of_mem _
      (List.mem_cons_of_mem _ List.mem_cons_self))))
  rw [parsedCompletion, hclient, hworkflow, hjob, hstatus, hcode]
  simp only [String.ofList_toList, jobStatusFromString_text, statusCodeFromString_number]

theorem length_fields_lt {message : JobCompletionData} (h : message.Fits) :
    ∀ text ∈ message.fields, text.length < 2 ^ 31 := by
  have hargs : ∀ text ∈ message.args, text.length < 2 ^ 31 :=
    fun text htext => (h text htext).trans_lt (by decide)
  simp only [JobCompletionData.args, List.forall_mem_cons] at hargs
  obtain ⟨hclient, hworkflow, hjob, hstatus, hcode, -⟩ := hargs
  simp only [JobCompletionData.fields, List.forall_mem_cons]
  exact ⟨by decide, hclient, by decide, hworkflow, by decide, hjob, by decide, hstatus, by decide,
    hcode, fun _ h => absurd h List.not_mem_nil⟩

theorem decodeCompletion_entry {message : JobCompletionData} (hsend : message.Sendable)
    (hfits : message.Fits) (id : StreamId) :
    decodeCompletion (luaValues (id.text :: message.fields)) = .message id.text message := by
  have hlengths : ∀ text ∈ id.text :: message.fields, text.length < 2 ^ 31 := by
    intro text htext
    rcases List.mem_cons.mp htext with rfl | htext
    · exact id.length_text_lt
    · exact length_fields_lt hfits text htext
  have hcount : (id.text :: message.fields).length < 2 ^ 31 := by
    rw [List.length_cons, length_fields]
    decide
  have hparsed := parsedCompletion_fields message
  have hsize : ¬ message.fields.length + 1 < 11 := by
    rw [length_fields]
    decide
  rw [luaValues_eq hcount hlengths, decodeCompletion, if_neg hsize]
  dsimp only
  rw [hparsed, if_pos hsend]

/-! ### Workers and handlers on one stream -/

/-- The stream, with what was appended to it and what successful dequeues returned, both in the order
of the scripts. -/
structure Transport where
  stream : CompletionStream := []
  sent : List (StreamId × JobCompletionData) := []
  returned : List (List Char × JobCompletionData) := []

namespace Transport

/-- `enqueue_job_completion_async`. A message that does not fit is refused by Redis. -/
def enqueue (id : StreamId) (message : JobCompletionData) (t : Transport) : Bool × Transport :=
  if message.Fits then
    (match luaValues [id.text] with
      | some [value] => !value.isEmpty
      | _ => false,
      { t with
        stream := t.stream.xadd id message.fields
        sent := t.sent ++ [(id, message)] })
  else (false, t)

/-- `dequeue_job_completion_async`. -/
def dequeue (t : Transport) : Dequeued × Transport :=
  let script := t.stream.dequeueScript
  match decodeCompletion (luaValues script.1) with
  | .message streamId data =>
      (.message streamId data,
        { t with stream := script.2, returned := t.returned ++ [(streamId, data)] })
  | result => (result, { t with stream := script.2 })

/-- One step: a worker or a scheduler appends an event, under an id above all earlier ones; a handler
takes one; or Redis does not carry a call out. -/
inductive Step : Transport → Transport → Prop where
  | enqueue {t : Transport} (id : StreamId) (message : JobCompletionData)
      (hsend : message.Sendable) (hid : ∀ p ∈ t.sent, p.1 < id) : Step t (t.enqueue id message).2
  | dequeue {t : Transport} : Step t t.dequeue.2
  | refused {t : Transport} : Step t t

/-- The events `done` have been returned and the events `waiting` are in the stream. -/
structure Delivers (t : Transport) (done waiting : List (StreamId × JobCompletionData)) : Prop where
  sent : t.sent = done ++ waiting
  returned : t.returned = done.map (fun p => (p.1.text, p.2))
  stream : t.stream = waiting.map (fun p => (p.1, p.2.fields))
  increasing : t.sent.Pairwise (fun p q => p.1 < q.1)
  good : ∀ p ∈ t.sent, p.2.Sendable ∧ p.2.Fits

theorem delivers_empty : Delivers {} [] [] :=
  ⟨rfl, rfl, rfl, List.Pairwise.nil, fun _ h => absurd h List.not_mem_nil⟩

theorem luaValues_nil : luaValues [] = some [] := by decide

variable {t : Transport} {done waiting : List (StreamId × JobCompletionData)}

theorem Delivers.dequeue_nil (h : t.Delivers done []) : t.dequeue = (.empty, t) := by
  obtain ⟨stream, sent, returned⟩ := t
  obtain rfl : stream = [] := h.stream
  rw [Transport.dequeue]
  dsimp only [CompletionStream.dequeueScript]
  rw [luaValues_nil]
  rfl

/-- The deletion by id takes the oldest entry alone, since the later ids are greater. -/
theorem xdel_oldest {oldest : StreamId × JobCompletionData}
    {later : List (StreamId × JobCompletionData)} (h : ∀ p ∈ later, oldest.1 < p.1) :
    CompletionStream.xdel oldest.1 ((oldest :: later).map (fun p => (p.1, p.2.fields))) =
      later.map (fun p => (p.1, p.2.fields)) := by
  have hkept : ∀ entry ∈ later.map (fun p => (p.1, p.2.fields)),
      decide (entry.1 ≠ oldest.1) = true := by
    intro entry hentry
    obtain ⟨p, hp, rfl⟩ := List.mem_map.mp hentry
    rw [decide_eq_true_eq]
    intro heq
    have hlt := h p hp
    rw [show p.1 = oldest.1 from heq] at hlt
    exact StreamId.lt_irrefl _ hlt
  rw [CompletionStream.xdel, List.map_cons, List.filter_cons_of_neg (by simp),
    List.filter_eq_self.mpr hkept]

/-- A handler that finds the stream non-empty is given its oldest event as it was sent. -/
theorem Delivers.dequeue_cons
    {oldest : StreamId × JobCompletionData} (h : t.Delivers done (oldest :: waiting)) :
    t.dequeue.1 = .message oldest.1.text oldest.2 ∧
      t.dequeue.2.Delivers (done ++ [oldest]) waiting := by
  obtain ⟨hsend, hfits⟩ := h.good oldest (h.sent ▸ List.mem_append_right _ List.mem_cons_self)
  have hlater : ∀ p ∈ waiting, oldest.1 < p.1 := by
    have hincreasing := h.increasing
    rw [h.sent, List.pairwise_append] at hincreasing
    exact fun p hp => List.rel_of_pairwise_cons hincreasing.2.1 hp
  have hscript : t.stream.dequeueScript =
      (oldest.1.text :: oldest.2.fields, waiting.map (fun p => (p.1, p.2.fields))) := by
    rw [h.stream]
    exact Prod.ext rfl (xdel_oldest hlater)
  have hdequeue : t.dequeue = (.message oldest.1.text oldest.2,
      { t with
        stream := waiting.map (fun p => (p.1, p.2.fields))
        returned := t.returned ++ [(oldest.1.text, oldest.2)] }) := by
    simp only [Transport.dequeue, hscript, decodeCompletion_entry hsend hfits]
  rw [hdequeue]
  refine ⟨rfl, ?_, ?_, rfl, h.increasing, h.good⟩
  · rw [List.append_assoc, List.singleton_append]
    exact h.sent
  · rw [List.map_append, ← h.returned]
    rfl

/-- An event that is appended waits behind all others, and its sender is told that it was. -/
theorem Delivers.enqueue (h : t.Delivers done waiting) {id : StreamId} {message : JobCompletionData}
    (hsend : message.Sendable) (hfits : message.Fits) (hid : ∀ p ∈ t.sent, p.1 < id) :
    (t.enqueue id message).1 = true ∧
      (t.enqueue id message).2.Delivers done (waiting ++ [(id, message)]) := by
  have hvalues : luaValues [id.text] = some [id.text] :=
    luaValues_eq (Nat.one_lt_two_pow (by decide)) (List.forall_mem_singleton.mpr id.length_text_lt)
  have hnonempty : (!id.text.isEmpty) = true := by
    rw [Bool.not_eq_true', List.isEmpty_eq_false_iff, StreamId.text]
    exact fun h => absurd (List.append_eq_nil_iff.mp h).2 (List.cons_ne_nil _ _)
  rw [Transport.enqueue, if_pos hfits, hvalues]
  refine ⟨hnonempty, ?_, h.returned, ?_, ?_, ?_⟩
  · rw [← List.append_assoc, ← h.sent]
  · rw [List.map_append, ← h.stream]
    rfl
  · refine List.pairwise_append.mpr ⟨h.increasing, List.pairwise_singleton _ _, ?_⟩
    exact fun p hp q hq => (List.mem_singleton.mp hq) ▸ hid p hp
  · intro p hp
    rcases List.mem_append.mp hp with hp | hp
    · exact h.good p hp
    · rw [List.mem_singleton.mp hp]
      exact ⟨hsend, hfits⟩

/-- Every step keeps the order of the events: what was returned and what still waits make up what was
sent. -/
theorem Delivers.step {t' : Transport} (h : t.Delivers done waiting) (hstep : Step t t') :
    ∃ done' waiting', t'.Delivers done' waiting' := by
  cases hstep with
  | refused => exact ⟨done, waiting, h⟩
  | enqueue id message hsend hid =>
      by_cases hfits : message.Fits
      · exact ⟨done, waiting ++ [(id, message)], (h.enqueue hsend hfits hid).2⟩
      · rw [Transport.enqueue, if_neg hfits]
        exact ⟨done, waiting, h⟩
  | dequeue =>
      cases waiting with
      | nil =>
          rw [h.dequeue_nil]
          exact ⟨done, [], h⟩
      | cons oldest waiting => exact ⟨done ++ [oldest], waiting, h.dequeue_cons.2⟩

theorem exists_delivers (h : Relation.ReflTransGen Step {} t) :
    ∃ done waiting, t.Delivers done waiting := by
  induction h with
  | refl => exact ⟨[], [], delivers_empty⟩
  | tail _ hstep ih =>
      obtain ⟨done, waiting, hdelivers⟩ := ih
      exact hdelivers.step hstep

/-- The stream of texts carries the events of the queue that the database model has in its place. -/
def Carries (t : Transport) (r : Redis) : Prop :=
  ∃ done waiting, t.Delivers done waiting ∧ r.jobCompletionStream = waiting.map Prod.snd

theorem Carries.enqueue {r : Redis} (h : t.Carries r) {id : StreamId}
    {message : JobCompletionData} (hsend : message.Sendable) (hfits : message.Fits)
    (hid : ∀ p ∈ t.sent, p.1 < id) :
    (t.enqueue id message).2.Carries (r.enqueueJobCompletion message) := by
  obtain ⟨done, waiting, hdelivers, hstream⟩ := h
  refine ⟨done, waiting ++ [(id, message)], (hdelivers.enqueue hsend hfits hid).2, ?_⟩
  rw [Redis.enqueueJobCompletion, List.map_append, hstream]
  rfl

theorem Carries.dequeue_eq {r : Redis} (h : t.Carries r) :
    t.dequeue.2.Carries r.dequeueJobCompletion.2 ∧
      (match r.dequeueJobCompletion.1 with
        | none => t.dequeue.1 = .empty
        | some message => ∃ streamId, t.dequeue.1 = .message streamId message) := by
  obtain ⟨done, waiting, hdelivers, hstream⟩ := h
  cases waiting with
  | nil =>
      have hqueue : r.dequeueJobCompletion = (none, r) := by
        rw [Redis.dequeueJobCompletion, hstream]
        rfl
      rw [hdelivers.dequeue_nil, hqueue]
      exact ⟨⟨done, [], hdelivers, hstream⟩, rfl⟩
  | cons oldest waiting =>
      have hqueue : r.dequeueJobCompletion =
          (some oldest.2, { r with jobCompletionStream := waiting.map Prod.snd }) := by
        rw [Redis.dequeueJobCompletion, hstream]
        rfl
      obtain ⟨hmessage, hnext⟩ := hdelivers.dequeue_cons
      rw [hqueue]
      exact ⟨⟨done ++ [oldest], waiting, hnext, rfl⟩, ⟨oldest.1.text, hmessage⟩⟩

def completedA : JobCompletionData := ⟨⟨"acme", "w1"⟩, "a", .completed, .ok⟩

def failedB : JobCompletionData := ⟨⟨"acme", "w1"⟩, "b", .failed, .jobExecutionFailure⟩

/-- Both events have been sent, in the same millisecond. -/
def twoSent : Transport := ((({} : Transport).enqueue ⟨1, 0⟩ completedA).2.enqueue ⟨1, 1⟩ failedB).2

def twoQueued : Redis := (({} : Redis).enqueueJobCompletion completedA).enqueueJobCompletion failedB

theorem lt_of_sent_completedA :
    ∀ p ∈ (({} : Transport).enqueue ⟨1, 0⟩ completedA).2.sent, p.1 < ⟨1, 1⟩ := by
  have hsent : (({} : Transport).enqueue ⟨1, 0⟩ completedA).2.sent = [(⟨1, 0⟩, completedA)] := by
    decide +kernel
  rw [hsent, List.forall_mem_singleton]
  exact .inr ⟨rfl, Nat.zero_lt_one⟩

theorem carries_dequeue_twoSent :
    twoSent.dequeue.2.Carries twoQueued.dequeueJobCompletion.2 ∧
      twoQueued.dequeueJobCompletion.1 = some completedA ∧
      ∃ streamId, twoSent.dequeue.1 = .message streamId completedA := by
  have hnew : ({} : Transport).Carries {} := ⟨[], [], delivers_empty, rfl⟩
  have hfirst : (({} : Transport).enqueue ⟨1, 0⟩ completedA).2.Carries
      (({} : Redis).enqueueJobCompletion completedA) :=
    hnew.enqueue (by decide) (by decide +kernel) (fun _ h => absurd h List.not_mem_nil)
  have hboth : twoSent.Carries twoQueued :=
    hfirst.enqueue (by decide) (by decide +kernel) lt_of_sent_completedA
  obtain ⟨hnext, hmessage⟩ := Carries.dequeue_eq hboth
  exact ⟨hnext, rfl, hmessage⟩

/-- Whatever workers and handlers do at the same time, what the successful dequeues returned is the
beginning of what was sent, entry by entry unchanged; no entry was returned twice; and no dequeue that
Redis carries out fails on an entry. -/
theorem completions_delivered {t : Transport} (h : Relation.ReflTransGen Step {} t) :
    t.returned <+: t.sent.map (fun p => (p.1.text, p.2)) ∧ (t.returned.map Prod.fst).Nodup ∧
      t.dequeue.1 ≠ .failed := by
  obtain ⟨done, waiting, hdelivers⟩ := exists_delivers h
  refine ⟨?_, ?_, ?_⟩
  · rw [hdelivers.sent, hdelivers.returned, List.map_append]
    exact List.prefix_append _ _
  · have hids : (done.map (fun p => p.1)).Nodup := by
      have hdone := (List.pairwise_append.mp (hdelivers.sent ▸ hdelivers.increasing)).1
      refine List.pairwise_map.mpr (hdone.imp ?_)
      intro p q hlt heq
      exact StreamId.lt_irrefl q.1 (heq ▸ hlt)
    rw [hdelivers.returned, List.map_map]
    have hcomp : (Prod.fst ∘ fun p : StreamId × JobCompletionData => (p.1.text, p.2)) =
        StreamId.text ∘ fun p => p.1 := rfl
    rw [hcomp, ← List.map_map]
    exact hids.map StreamId.text_injective
  · cases waiting with
    | nil =>
        rw [hdelivers.dequeue_nil]
        exact Dequeued.noConfusion
    | cons oldest waiting =>
        rw [hdelivers.dequeue_cons.1]
        exact Dequeued.noConfusion

theorem completions_delivered_twoSent :
    let t := twoSent.dequeue.2.dequeue.2
    t.returned = [(StreamId.text ⟨1, 0⟩, completedA), (StreamId.text ⟨1, 1⟩, failedB)] ∧
      t.returned <+: t.sent.map (fun p => (p.1.text, p.2)) := by
  have hfirst : Step {} (({} : Transport).enqueue ⟨1, 0⟩ completedA).2 :=
    .enqueue _ _ (by decide) (fun _ h => absurd h List.not_mem_nil)
  have hboth : Step (({} : Transport).enqueue ⟨1, 0⟩ completedA).2 twoSent :=
    .enqueue _ _ (by decide) lt_of_sent_completedA
  have hrun : Relation.ReflTransGen Step {} twoSent.dequeue.2.dequeue.2 :=
    (((Relation.ReflTransGen.single hfirst).tail hboth).tail .dequeue).tail .dequeue
  exact ⟨by decide +kernel, (completions_delivered hrun).1⟩

end Transport

end FlowPilot
