import FlowPilot.StoreTypes

/-! The texts of `RedisKeys` and the parser that turns the text of a job key back into its parts.
The client id and the workflow id are joined by colons and not escaped, so the text determines the
job exactly when neither of them contains a colon. For such identities distinct keys have distinct
texts, which is what allows the stores to be indexed by the keys themselves. -/

namespace FlowPilot

namespace RedisKeys

def jobPrefix : List Char := "fp:job:".toList

/-- `client_id:workflow_id:tail`, the part that all keys of a workflow share. -/
def body (id : WorkflowIdentity) (tail : List Char) : List Char :=
  id.clientId.toList ++ ':' :: (id.workflowId.toList ++ ':' :: tail)

def jobKey (k : JobKey) : List Char := jobPrefix ++ body k.identity k.jobId.toList

def successorsKey (k : JobKey) : List Char :=
  "fp:successors:".toList ++ body k.identity k.jobId.toList

def payloadKey (k : JobKey) : List Char :=
  "fp:payload:".toList ++ body k.identity k.jobId.toList

def workflowKey (id : WorkflowIdentity) : List Char :=
  "fp:workflow:".toList ++ (id.clientId.toList ++ ':' :: id.workflowId.toList)

def workflowWaitingJobsKey (id : WorkflowIdentity) : List Char :=
  workflowKey id ++ ":waiting_ready".toList

/-- The text before the first colon and the text after it; `none` when there is no colon. -/
def splitColon : List Char → Option (List Char × List Char)
  | [] => none
  | ':' :: rest => some ([], rest)
  | c :: rest => (splitColon rest).map (fun p => (c :: p.1, p.2))

/-- What follows `lead` in `text`, when `text` starts with it. -/
def dropLead : (lead text : List Char) → Option (List Char)
  | [], text => some text
  | _ :: _, [] => none
  | a :: lead, b :: text => if a = b then dropLead lead text else none

/-- What the decoders of `blocking_dequeue_job_for_execution_async` and of the retry queue compute:
the text up to the first colon is the client, up to the next one the workflow, and the rest is the
job. None of the three may be empty. -/
def parseJobKey (text : List Char) : Option JobKey := do
  let rest ← dropLead jobPrefix text
  let (client, rest) ← splitColon rest
  let (workflow, job) ← splitColon rest
  if client.isEmpty || workflow.isEmpty || job.isEmpty then none
  else some ⟨⟨String.ofList client, String.ofList workflow⟩, String.ofList job⟩

theorem splitColon_append {front : List Char} (hfront : ':' ∉ front) (rest : List Char) :
    splitColon (front ++ ':' :: rest) = some (front, rest) := by
  induction front with
  | nil => rfl
  | cons c front ih =>
      rw [List.mem_cons, not_or] at hfront
      rw [List.cons_append, splitColon, ih hfront.2]
      · rfl
      · exact fun h => hfront.1 h.symm

@[simp] theorem dropLead_append (lead text : List Char) :
    dropLead lead (lead ++ text) = some text := by
  induction lead with
  | nil => cases text <;> rfl
  | cons a lead ih => simpa [dropLead] using ih

end RedisKeys

/-- Neither id contains the separator. -/
def WorkflowIdentity.Plain (id : WorkflowIdentity) : Prop :=
  ':' ∉ id.clientId.toList ∧ ':' ∉ id.workflowId.toList

instance (id : WorkflowIdentity) : Decidable id.Plain := inferInstanceAs (Decidable (_ ∧ _))

export WorkflowIdentity (Plain)

namespace RedisKeys

/-- A scheduler that pops the key of a job of a workflow with plain ids parses that very job. -/
theorem parseJobKey_jobKey {k : JobKey} (hk : k.identity.Plain)
    (hclient : k.identity.clientId ≠ "") (hworkflow : k.identity.workflowId ≠ "")
    (hjob : k.jobId ≠ "") : parseJobKey (jobKey k) = some k := by
  have hempty : ∀ s : String, s ≠ "" → s.toList.isEmpty = false := by
    intro s hs
    rw [List.isEmpty_eq_false_iff]
    intro h
    exact hs (String.toList_inj.mp h)
  simp only [parseJobKey, jobKey, dropLead_append, body, Option.bind_eq_bind, Option.bind_some,
    splitColon_append hk.1, splitColon_append hk.2, hempty _ hclient, hempty _ hworkflow,
    hempty _ hjob, Bool.or_self, Bool.false_eq_true, if_false, String.ofList_toList]

/-- The text order by which Redis breaks ties between job keys of one score. -/
def laterKey (a b : JobKey) : Bool := decide (jobKey b < jobKey a)

/-- The same order among the members of one waiting set, whose texts differ in the job id only. -/
def laterId (a b : String) : Bool := decide (b.toList < a.toList)

end RedisKeys

end FlowPilot
