import FlowPilot.StoreKeys

/-! The two decoders of job keys, each written as the source walks over the text. Both take the
first two colons after the lead as the separators, so both compute `parseJobKey`, and they give back
the job whose key was built exactly when neither the client id nor the workflow id contains a
colon. -/

namespace FlowPilot

/-- The length bounds of `client_id`, `workflow_id` and `job_id` in the request schema. -/
def SchemaId (s : String) : Prop := 1 ≤ s.toList.length ∧ s.toList.length ≤ 128

instance (s : String) : Decidable (SchemaId s) := inferInstanceAs (Decidable (_ ∧ _))

theorem SchemaId.ne_empty {s : String} (hs : SchemaId s) : s ≠ "" := by
  rintro rfl
  exact absurd hs.1 (by decide)

namespace RedisKeys

/-- `std::string::find`: the first position from `start` on that holds `c`. -/
def find (text : List Char) (c : Char) (start : Nat) : Option Nat :=
  ((text.drop start).findIdx? (· == c)).map (start + ·)

/-- `std::string::substr` at a position inside the text. -/
def substr (text : List Char) (start count : Nat) : List Char := (text.drop start).take count

/-- The inline parser of `blocking_dequeue_job_for_execution_async`; `none` is the branch that logs
an invalid key and goes on with the next member of the queue. -/
def decodeReadyJobKey (readyJobKey : List Char) : Option JobKey :=
  if !jobPrefix.isPrefixOf readyJobKey then none
  else
    let substrStartPos := jobPrefix.length
    match find readyJobKey ':' substrStartPos with
    | none => none
    | some substrEndPos =>
        let clientId := substr readyJobKey substrStartPos (substrEndPos - substrStartPos)
        let substrStartPos := substrEndPos + 1
        match find readyJobKey ':' substrStartPos with
        | none => none
        | some substrEndPos =>
            let workflowIdValue := substr readyJobKey substrStartPos (substrEndPos - substrStartPos)
            let substrStartPos := substrEndPos + 1
            let jobId := readyJobKey.drop substrStartPos
            if clientId.isEmpty || workflowIdValue.isEmpty || jobId.isEmpty then none
            else some ⟨⟨String.ofList clientId, String.ofList workflowIdValue⟩, String.ofList jobId⟩

/-- `parse_job_key` of the retry queue: it writes the parts into `retryData` as it finds them and
returns whether all three are there. -/
def parseRetryJobKey (jobKey : List Char) (retryData : JobKey) : Bool × JobKey :=
  if !jobPrefix.isPrefixOf jobKey then (false, retryData)
  else
    let start := jobPrefix.length
    match find jobKey ':' start with
    | none => (false, retryData)
    | some stop =>
        let retryData :=
          { retryData with
            identity.clientId := String.ofList (substr jobKey start (stop - start)) }
        let start := stop + 1
        match find jobKey ':' start with
        | none => (false, retryData)
        | some stop =>
            let retryData :=
              { retryData with
                identity.workflowId := String.ofList (substr jobKey start (stop - start)) }
            let retryData :=
              { retryData with jobId := String.ofList (jobKey.drop (stop + 1)) }
            (retryData.identity.clientId != "" && retryData.identity.workflowId != "" &&
              retryData.jobId != "", retryData)

/-! ## Both decoders split at the first two colons -/

theorem splitColon_eq_find (text : List Char) :
    splitColon text =
      (text.findIdx? (· == ':')).map (fun i => (text.take i, text.drop (i + 1))) := by
  induction text with
  | nil => rfl
  | cons c text ih =>
      by_cases hc : c = ':'
      · subst hc
        rfl
      · rw [splitColon, ih, List.findIdx?_cons]
        · simp [hc, Function.comp_def]
        · exact hc

theorem splitColon_drop (text : List Char) (start : Nat) :
    splitColon (text.drop start) =
      (find text ':' start).map
        (fun stop => (substr text start (stop - start), text.drop (stop + 1))) := by
  rw [splitColon_eq_find, find, Option.map_map]
  congr 1
  funext i
  simp [substr, Nat.add_assoc]

theorem dropLead_eq (lead text : List Char) :
    dropLead lead text = if lead.isPrefixOf text then some (text.drop lead.length) else none := by
  induction lead generalizing text with
  | nil => simp [dropLead]
  | cons a lead ih =>
      cases text with
      | nil => rfl
      | cons b text =>
          by_cases hab : a = b
          · simp [dropLead, hab, ih]
          · simp [dropLead, hab]

theorem decodeReadyJobKey_eq (text : List Char) : decodeReadyJobKey text = parseJobKey text := by
  rw [parseJobKey, dropLead_eq, decodeReadyJobKey]
  cases hlead : jobPrefix.isPrefixOf text with
  | false => rfl
  | true =>
      simp only [Bool.not_true, Bool.false_eq_true, if_false, if_true, Option.bind_eq_bind,
        Option.bind_some, splitColon_drop]
      cases find text ':' jobPrefix.length with
      | none => rfl
      | some clientEnd =>
          simp only [Option.map_some, Option.bind_some, splitColon_drop]
          cases find text ':' (clientEnd + 1) <;> rfl

theorem ofList_ne_empty (text : List Char) : (String.ofList text != "") = !text.isEmpty := by
  cases text with
  | nil => rfl
  | cons c text =>
      simp

theorem parseRetryJobKey_eq (text : List Char) (retryData k : JobKey) :
    parseRetryJobKey text retryData = (true, k) ↔ parseJobKey text = some k := by
  rw [← decodeReadyJobKey_eq, decodeReadyJobKey, parseRetryJobKey]
  cases hlead : jobPrefix.isPrefixOf text with
  | false => simp
  | true =>
      simp only [Bool.not_true, Bool.false_eq_true, if_false]
      cases find text ':' jobPrefix.length with
      | none => simp
      | some clientEnd =>
          dsimp only
          cases find text ':' (clientEnd + 1) with
          | none => simp
          | some workflowEnd =>
              simp only [ofList_ne_empty, ← Bool.not_or]
              split
              · rename_i hempty
                simp [hempty]
              · rename_i hparts
                simp [hparts]

/-! ## What a decoder returns -/

theorem colon_not_mem_of_splitColon {text front rest : List Char}
    (h : splitColon text = some (front, rest)) : ':' ∉ front := by
  induction text generalizing front with
  | nil => cases h
  | cons c text ih =>
      by_cases hc : c = ':'
      · subst hc
        cases h
        exact List.not_mem_nil
      · rw [splitColon] at h
        · obtain ⟨⟨front', rest'⟩, hsplit, heq⟩ := Option.map_eq_some_iff.mp h
          cases heq
          rw [List.mem_cons, not_or]
          exact ⟨fun hcolon => hc hcolon.symm, ih hsplit⟩
        · exact hc

theorem plain_of_parseJobKey {text : List Char} {k : JobKey} (h : parseJobKey text = some k) :
    k.identity.Plain := by
  simp only [parseJobKey, Option.bind_eq_bind, Option.bind_eq_some_iff] at h
  obtain ⟨_, _, ⟨client, rest⟩, hclient, ⟨workflow, job⟩, hworkflow, hparts⟩ := h
  split at hparts
  · cases hparts
  · cases hparts
    exact ⟨by simpa using colon_not_mem_of_splitColon hclient,
      by simpa using colon_not_mem_of_splitColon hworkflow⟩

/-- On every text the two decoders accept the same inputs with the same result, and both return the
job a key was built from exactly when neither its client id nor its workflow id contains a
colon. -/
theorem jobKey_decoded_iff_plain (text : List Char) (retryData k : JobKey) :
    (decodeReadyJobKey text = some k ↔ parseRetryJobKey text retryData = (true, k)) ∧
      (SchemaId k.identity.clientId → SchemaId k.identity.workflowId → SchemaId k.jobId →
        ((decodeReadyJobKey (jobKey k) = some k ∧ parseRetryJobKey (jobKey k) retryData = (true, k)) ↔
          k.identity.Plain)) := by
  simp only [decodeReadyJobKey_eq, parseRetryJobKey_eq, true_and]
  intro hclient hworkflow hjob
  constructor
  · rintro ⟨hparse, -⟩
    exact plain_of_parseJobKey hparse
  · intro hplain
    have hparse := parseJobKey_jobKey hplain hclient.ne_empty hworkflow.ne_empty hjob.ne_empty
    exact ⟨hparse, hparse⟩

theorem jobKey_decoded_iff_plain_acme :
    decodeReadyJobKey (jobKey ⟨⟨"acme", "w1"⟩, "a:b"⟩) = some ⟨⟨"acme", "w1"⟩, "a:b"⟩ :=
  (((jobKey_decoded_iff_plain [] ⟨⟨"", ""⟩, ""⟩ ⟨⟨"acme", "w1"⟩, "a:b"⟩).2 (by decide) (by decide)
    (by decide)).mpr (by decide)).1

/-- The key of job `j` of workflow `w1` of client `acme:eu` is read as job `w1:j` of workflow `eu` of
client `acme` by both decoders. -/
theorem jobKey_misread :
    let k : JobKey := ⟨⟨"acme:eu", "w1"⟩, "j"⟩
    let read : JobKey := ⟨⟨"acme", "eu"⟩, "w1:j"⟩
    SchemaId k.identity.clientId ∧ SchemaId k.identity.workflowId ∧ SchemaId k.jobId ∧
      decodeReadyJobKey (jobKey k) = some read ∧
      (∀ retryData, parseRetryJobKey (jobKey k) retryData = (true, read)) ∧ read ≠ k := by
  refine ⟨by decide, by decide, by decide, by decide, fun retryData => ?_, by decide⟩
  rw [parseRetryJobKey_eq]
  decide

end RedisKeys

end FlowPilot
