import CliAgentOrchestrator.Library.Table

/-!
# The step rows of the run journal

`services/workflow_journal.py`, the script tier's half: a step's row is begun before its call
runs and settled after it, a person's decision moves the row's state and nothing else, and what
a drive did not consume is taken back. Every write has one lemma that says what the row under a
key reads afterwards.
-/

set_option autoImplicit false

namespace CliAgentOrchestrator.Workflow

open Library

/-! ## Vocabularies -/

/-- SOURCE: models/workflow_runtime.py:24-59 -/
inductive StepState
  | pending
  | running
  | completed
  | failed
  | cancelled
  | skipped
  | completedUnvalidated
  | rerunAuthorized
  | replayAuthorized
deriving DecidableEq

/-- SOURCE: models/workflow_runtime.py:24-59 -/
def StepState.value : StepState → String
  | .pending => "pending"
  | .running => "running"
  | .completed => "completed"
  | .failed => "failed"
  | .cancelled => "cancelled"
  | .skipped => "skipped"
  | .completedUnvalidated => "completed_unvalidated"
  | .rerunAuthorized => "rerun_authorized"
  | .replayAuthorized => "replay_authorized"

/-- SOURCE: models/workflow_runtime.py:62-75 -/
inductive RunState
  | running
  | cancelling
  | completed
  | failed
  | cancelled
deriving DecidableEq

/-- `_TERMINAL_RUN_STATES`, the states a run has ended in.
SOURCE: services/workflow_journal.py:1538 -/
def RunState.terminal : RunState → Bool
  | .completed | .failed | .cancelled => true
  | .running | .cancelling => false

/-- What a person chooses at a halted step.
SOURCE: models/workflow_runtime.py:81-112 -/
inductive RecoveryDecision
  | rerun
  | skip

/-- SOURCE: models/workflow_runtime.py:115-142 -/
def parseDecision (value : String) : Except String RecoveryDecision :=
  if value = "rerun" then .ok .rerun
  else if value = "skip" then .ok .skip
  else
    .error ("'" ++ String.ofList (value.toList.take 40) ++
      "' is not a recovery decision (accepted: rerun, skip)")

/-- The state a decision is recorded as: `DECISION_STATES`.
SOURCE: services/workflow_journal.py:613-616 -/
def RecoveryDecision.state : RecoveryDecision → StepState
  | .rerun => .rerunAuthorized
  | .skip => .replayAuthorized

/-- The values of `DECISION_STATES`. -/
def decisionStates : List StepState := [.rerunAuthorized, .replayAuthorized]

/-- The row holds a person's consent. -/
def StepState.authorised (s : StepState) : Bool := decisionStates.contains s

@[simp] theorem RecoveryDecision.authorised_state (d : RecoveryDecision) :
    d.state.authorised = true := by
  cases d <;> rfl

theorem StepState.authorised_iff {s : StepState} :
    s.authorised = true ↔ s = .rerunAuthorized ∨ s = .replayAuthorized := by
  cases s <;> decide

/-! ## Rows -/

/-- SOURCE: services/workflow_journal.py:135-166 -/
structure StepRow where
  runId : String
  stepId : String
  state : StepState
  attempts : Nat
  outputJson : Option String
  error : Option String
  updatedAt : String
  callFingerprint : Option String := none
  resultJson : Option String := none

/-- PRIMARY KEY (run_id, step_id). -/
abbrev StepKey := String × String

def StepRow.key (r : StepRow) : StepKey := (r.runId, r.stepId)

/-- The `workflow_run_step` table. -/
abbrev Journal := Table StepRow.key

/-- A dictionary keyed by step id. -/
abbrev Mapping (β : Type) := Table (Prod.fst : String × β → String)

/-- The value under a key. -/
def Mapping.find {β : Type} (m : Mapping β) (step : String) : Option β :=
  (m.get step).map Prod.snd

theorem Mapping.find_eq_some_iff {β : Type} {m : Mapping β} {step : String} {b : β} :
    m.find step = some b ↔ (step, b) ∈ m.rows := by
  rw [Mapping.find, Option.map_eq_some_iff]
  constructor
  · rintro ⟨⟨key, value⟩, hget, rfl⟩
    obtain ⟨hmem, rfl⟩ := (m.get_eq_some_iff step _).mp hget
    exact hmem
  · intro hmem
    exact ⟨(step, b), (m.get_eq_some_iff step _).mpr ⟨hmem, rfl⟩, rfl⟩

theorem Mapping.find_eq_none_iff {β : Type} {m : Mapping β} {step : String} :
    m.find step = none ↔ ∀ e ∈ m.rows, e.1 ≠ step := by
  rw [Mapping.find, Option.map_eq_none_iff, Table.get_eq_none_iff]

/-- The same keys with other values. -/
def Mapping.mapValues {β γ : Type} (m : Mapping β) (f : β → γ) : Mapping γ where
  rows := m.rows.map fun e => (e.1, f e.2)
  unique := by
    rw [List.map_map]
    exact m.unique

@[simp] theorem Mapping.find_mapValues {β γ : Type} (m : Mapping β) (f : β → γ)
    (step : String) : (m.mapValues f).find step = (m.find step).map f := by
  simp only [Mapping.find, Table.get, Mapping.mapValues, List.find?_map, Option.map_map]
  rfl

/-! ## Reads -/

/-- SOURCE: services/workflow_journal.py:926-963 -/
def getStep (j : Journal) (runId stepId : String) : Option StepRow := j.get (runId, stepId)

/-- SOURCE: services/workflow_journal.py:890-923 -/
def getSteps (j : Journal) (runId : String) : List StepRow := j.select fun r => r.runId == runId

theorem mem_getSteps {j : Journal} {runId : String} {r : StepRow} :
    r ∈ getSteps j runId ↔ j.get (runId, r.stepId) = some r := by
  rw [getSteps, Table.mem_select_iff, beq_iff_eq]
  constructor
  · rintro ⟨hget, rfl⟩
    exact hget
  · intro hget
    have hkey : r.runId = runId := congrArg Prod.fst (Table.key_of_get hget)
    exact ⟨by rw [← hget]; simp [StepRow.key, hkey], hkey⟩

/-! ## Begin and settle -/

/-- The conflict clause of a begin: a completed row keeps its fingerprint. -/
def beginPatch (updatedAt callFingerprint : String) : Patch StepRow.key where
  apply := fun r =>
    { r with
      state := .running
      updatedAt := updatedAt
      callFingerprint :=
        if r.state ≠ .completed then some callFingerprint else r.callFingerprint }
  keeps := fun _ => rfl

/-- SOURCE: services/workflow_journal.py:1091-1145 -/
def beginStep (j : Journal) (runId stepId updatedAt callFingerprint : String) : Journal :=
  let fresh : StepRow :=
    ⟨runId, stepId, .running, 0, none, none, updatedAt, some callFingerprint, none⟩
  j.upsert fresh (beginPatch updatedAt callFingerprint)

/-- The columns a settle writes. -/
structure SettledColumns where
  state : StepState
  resultJson : Option String
  outputJson : Option String
  error : Option String

/-- The conflict clause of a settle. -/
def settlePatch (updatedAt : String) (c : SettledColumns) : Patch StepRow.key where
  apply := fun r =>
    { r with
      state := c.state
      attempts := r.attempts + 1
      outputJson := c.outputJson
      error := c.error
      updatedAt := updatedAt
      resultJson := c.resultJson }
  keeps := fun _ => rfl

/-- The row after a settle, and whether one was there before.
SOURCE: services/workflow_journal.py:1148-1258 -/
def settleStep (j : Journal) (runId stepId updatedAt : String) (c : SettledColumns) :
    Bool × Journal :=
  let existed := (j.get (runId, stepId)).isSome
  let fresh : StepRow :=
    ⟨runId, stepId, c.state, 1, c.outputJson, c.error, updatedAt, none, c.resultJson⟩
  (existed, j.upsert fresh (settlePatch updatedAt c))

/-- A begin leaves its row running and touches no other. -/
theorem get_beginStep (j : Journal) (runId stepId updatedAt callFingerprint : String)
    (k : StepKey) :
    (beginStep j runId stepId updatedAt callFingerprint).get k =
      if k = (runId, stepId) then
        some (((j.get k).map (beginPatch updatedAt callFingerprint).apply).getD
          ⟨runId, stepId, .running, 0, none, none, updatedAt, some callFingerprint, none⟩)
      else j.get k :=
  Table.get_upsert ..

/-- A settle writes its columns into its row and touches no other. -/
theorem get_settleStep (j : Journal) (runId stepId updatedAt : String) (c : SettledColumns)
    (k : StepKey) :
    (settleStep j runId stepId updatedAt c).2.get k =
      if k = (runId, stepId) then
        some (((j.get k).map (settlePatch updatedAt c).apply).getD
          ⟨runId, stepId, c.state, 1, c.outputJson, c.error, updatedAt, none, c.resultJson⟩)
      else j.get k :=
  Table.get_upsert ..

theorem beginStep_moves (j : Journal) (runId stepId updatedAt callFingerprint : String) :
    ∃ row, (beginStep j runId stepId updatedAt callFingerprint).get (runId, stepId) = some row ∧
      row.state = .running := by
  rw [get_beginStep, if_pos rfl]
  refine ⟨_, rfl, ?_⟩
  cases j.get (runId, stepId) <;> rfl

theorem settleStep_moves (j : Journal) (runId stepId updatedAt : String) (c : SettledColumns) :
    ∃ row, (settleStep j runId stepId updatedAt c).2.get (runId, stepId) = some row ∧
      row.state = c.state := by
  rw [get_settleStep, if_pos rfl]
  refine ⟨_, rfl, ?_⟩
  cases j.get (runId, stepId) <;> rfl

/-! ## Decisions -/

/-- SET state. -/
def statePatch (s : StepState) : Patch StepRow.key := ⟨fun r => { r with state := s }, fun _ => rfl⟩

/-- A validated decision, with the state its row held when the steps were read. -/
structure Resolution where
  decision : RecoveryDecision
  prior : StepState

/-- One entry of the map against the rows that were read.
SOURCE: services/workflow_journal.py:739-746 -/
def resolveOne (runId : String) (priorStates : List (String × StepState))
    (entry : String × String) : Except String (String × Resolution) :=
  match priorStates.lookup entry.1 with
  | none =>
    .error ("run '" ++ runId ++ "' has no step '" ++ entry.1 ++ "'; no decision was applied")
  | some prior =>
    match parseDecision entry.2 with
    | .error e => .error ("step '" ++ entry.1 ++ "': " ++ e ++ "; no decision was applied")
    | .ok decision => .ok (entry.1, ⟨decision, prior⟩)

theorem resolveOne_key {runId : String} {priorStates : List (String × StepState)}
    {entry : String × String} {resolved : String × Resolution}
    (h : resolveOne runId priorStates entry = .ok resolved) :
    resolved.1 = entry.1 ∧ priorStates.lookup entry.1 = some resolved.2.prior := by
  unfold resolveOne at h
  split at h
  · cases h
  · next prior hprior =>
    split at h
    · cases h
    · cases h
      exact ⟨rfl, hprior⟩

/-- Entry by entry, the first that fails fails the whole map. -/
def resolveEntries (runId : String) (priorStates : List (String × StepState)) :
    List (String × String) → Except String (List (String × Resolution))
  | [] => .ok []
  | entry :: rest =>
    match resolveOne runId priorStates entry with
    | .error e => .error e
    | .ok resolved =>
      match resolveEntries runId priorStates rest with
      | .error e => .error e
      | .ok tail => .ok (resolved :: tail)

/-- The resolved entries are the decided ones, in the same order. -/
theorem resolveEntries_keys {runId : String} {priorStates : List (String × StepState)}
    {entries : List (String × String)} {resolved : List (String × Resolution)}
    (h : resolveEntries runId priorStates entries = .ok resolved) :
    resolved.map Prod.fst = entries.map Prod.fst ∧
      ∀ r ∈ resolved, priorStates.lookup r.1 = some r.2.prior := by
  induction entries generalizing resolved with
  | nil =>
    cases h
    simp
  | cons entry rest ih =>
    unfold resolveEntries at h
    split at h
    · cases h
    · next first hfirst =>
      split at h
      · cases h
      · next tail htail =>
        cases h
        obtain ⟨hkey, hprior⟩ := resolveOne_key hfirst
        obtain ⟨hkeys, hpriors⟩ := ih htail
        refine ⟨by rw [List.map_cons, List.map_cons, hkey, hkeys], ?_⟩
        intro r hr
        obtain rfl | hr := List.mem_cons.mp hr
        · rw [hkey]
          exact hprior
        · exact hpriors r hr

/-- `{row.step_id: row.state for row in get_steps(run_id)}`. -/
def priorStates (j : Journal) (runId : String) : List (String × StepState) :=
  (getSteps j runId).map fun r => (r.stepId, r.state)

/-- The read and the validation of `apply_decisions`: nothing is written yet.
SOURCE: services/workflow_journal.py:726-746 -/
def resolveDecisions (j : Journal) (runId : String) (decisions : Mapping String) :
    Except String (Mapping Resolution) :=
  match h : resolveEntries runId (priorStates j runId) decisions.rows with
  | .error e => .error e
  | .ok resolved => .ok ⟨resolved, by rw [(resolveEntries_keys h).1]; exact decisions.unique⟩

/-- The transaction of `apply_decisions`.
SOURCE: services/workflow_journal.py:749-754 -/
def writeDecisions (j : Journal) (runId : String) (resolved : Mapping Resolution) : Journal :=
  j.updateEach resolved.rows (fun e => (runId, e.1)) (fun _ _ => true)
    fun e => statePatch e.2.decision.state

/-- What `apply_decisions` returns: the state each written row held before.
SOURCE: services/workflow_journal.py:768 -/
def grantedStates (resolved : Mapping Resolution) : Mapping StepState :=
  resolved.mapValues Resolution.prior

/-- A pass over a dictionary of steps of one run patches exactly the rows it names. -/
theorem get_updateEach_mapping {β : Type} (j : Journal) (runId : String) (m : Mapping β)
    (p : String × β → StepRow → Bool) (f : String × β → Patch StepRow.key) (k : StepKey) :
    (j.updateEach m.rows (fun e => (runId, e.1)) p f).get k =
      (j.get k).map fun r =>
        match if k.1 = runId then m.find k.2 else none with
        | some b => if p (k.2, b) r then (f (k.2, b)).apply r else r
        | none => r := by
  obtain ⟨run, step⟩ := k
  by_cases hnamed : run = runId ∧ ∃ b, m.find step = some b
  · obtain ⟨rfl, b, hfind⟩ := hnamed
    have hmem := Mapping.find_eq_some_iff.mp hfind
    have hnodup : (m.rows.map fun e => (run, e.1)).Nodup := by
      have := m.unique.map (Prod.mk_right_injective run)
      rwa [List.map_map] at this
    rw [Table.get_updateEach_of_mem j m.rows (fun e => (run, e.1)) p f (step, b) hmem hnodup]
    simp [hfind]
  · rw [Table.get_updateEach_of_notMem]
    · cases hget : j.get (run, step) with
      | none => rfl
      | some r =>
        by_cases hrun : run = runId
        · have hnone : m.find step = none := by
            cases hfind : m.find step with
            | none => rfl
            | some b => exact absurd ⟨hrun, b, hfind⟩ hnamed
          simp [hrun, hnone]
        · simp [hrun]
    · intro e he heq
      cases heq
      exact hnamed ⟨rfl, e.2, Mapping.find_eq_some_iff.mpr he⟩

/-- A decision moves the state of its row and touches no other. -/
theorem get_writeDecisions (j : Journal) (runId : String) (resolved : Mapping Resolution)
    (k : StepKey) :
    (writeDecisions j runId resolved).get k =
      (j.get k).map fun r =>
        match if k.1 = runId then resolved.find k.2 else none with
        | some d => { r with state := d.decision.state }
        | none => r := by
  unfold writeDecisions
  rw [get_updateEach_mapping]
  congr 1
  funext r
  cases if k.1 = runId then resolved.find k.2 else none <;> rfl

theorem get_writeDecisions_of_find {j : Journal} {runId step : String}
    {resolved : Mapping Resolution} {r : Resolution} (h : resolved.find step = some r) :
    (writeDecisions j runId resolved).get (runId, step) =
      (j.get (runId, step)).map fun row => { row with state := r.decision.state } := by
  rw [get_writeDecisions, if_pos rfl, h]

theorem get_writeDecisions_of_undecided {j : Journal} {runId step : String}
    {resolved : Mapping Resolution} (h : resolved.find step = none) :
    (writeDecisions j runId resolved).get (runId, step) = j.get (runId, step) := by
  rw [get_writeDecisions, if_pos rfl, h]
  exact Option.map_id'

/-! ## Revocation -/

/-- One step of the loop: a compare-and-set on either authorised state, skipped when the prior
state is itself one.
SOURCE: services/workflow_journal.py:819-839 -/
def revokeOne (runId : String) (acc : List String × Journal) (entry : String × StepState) :
    List String × Journal :=
  if entry.2.authorised then acc
  else
    match decisionStates.find? fun s =>
        (acc.2.get (runId, entry.1)).any fun r => r.state == s with
    | none => acc
    | some s =>
      (acc.1 ++ [entry.1],
        acc.2.updateKey (runId, entry.1) (fun r => r.state == s) (statePatch entry.2))

/-- The steps actually reverted, and the rows.
SOURCE: services/workflow_journal.py:771-852 -/
def revokeUnconsumedDecisions (j : Journal) (runId : String) (granted : Mapping StepState) :
    List String × Journal :=
  granted.rows.foldl (revokeOne runId) ([], j)

/-- One step of the loop as one UPDATE. -/
theorem revokeOne_journal (runId : String) (acc : List String × Journal)
    (entry : String × StepState) (k : StepKey) :
    (revokeOne runId acc entry).2.get k =
      (acc.2.updateKey (runId, entry.1) (fun r => !entry.2.authorised && r.state.authorised)
        (statePatch entry.2)).get k := by
  unfold revokeOne
  rw [Table.get_updateKey]
  split
  · next hprior => simp [hprior]
  · next hprior =>
    split
    · next hnone =>
      rw [List.find?_eq_none] at hnone
      cases hget : acc.2.get k with
      | none => rfl
      | some r =>
        by_cases hk : k = (runId, entry.1)
        · subst hk
          have hkept : r.state.authorised = false := by
            rw [Bool.eq_false_iff, ne_eq, StepState.authorised_iff]
            rintro (hs | hs)
            · exact hnone .rerunAuthorized (by decide) (by simp [hget, hs])
            · exact hnone .replayAuthorized (by decide) (by simp [hget, hs])
          simp [hkept]
        · simp [hk]
    · next s hsome =>
      rw [Table.get_updateKey]
      cases hget : acc.2.get k with
      | none => rfl
      | some r =>
        by_cases hk : k = (runId, entry.1)
        · subst hk
          have hstate : r.state = s := by simpa [hget] using List.find?_some hsome
          have hauth : r.state.authorised = true := by
            have hmem := List.mem_of_find?_eq_some hsome
            rw [hstate, StepState.authorised_iff]
            simpa [decisionStates] using hmem
          subst hstate
          simp [hprior, hauth]
        · simp [hk]

/-- The loop as one pass of UPDATEs. -/
theorem revoke_loop (runId : String) (entries : List (String × StepState))
    (acc : List String × Journal) (j : Journal) (h : ∀ k, acc.2.get k = j.get k) (k : StepKey) :
    (entries.foldl (revokeOne runId) acc).2.get k =
      (j.updateEach entries (fun e => (runId, e.1))
        (fun e r => !e.2.authorised && r.state.authorised) (fun e => statePatch e.2)).get k := by
  induction entries generalizing acc j with
  | nil => exact h k
  | cons entry rest ih =>
    refine ih (revokeOne runId acc entry) _ ?_
    intro k
    rw [revokeOne_journal, Table.get_updateKey, Table.get_updateKey, h]

/-- What is still authorised goes back to the state it was granted over. -/
theorem get_revokeUnconsumedDecisions (j : Journal) (runId : String)
    (granted : Mapping StepState) (k : StepKey) :
    (revokeUnconsumedDecisions j runId granted).2.get k =
      (j.get k).map fun r =>
        match if k.1 = runId then granted.find k.2 else none with
        | some prior =>
          if !prior.authorised && r.state.authorised then { r with state := prior } else r
        | none => r := by
  unfold revokeUnconsumedDecisions
  rw [revoke_loop runId granted.rows ([], j) j (fun _ => rfl), get_updateEach_mapping]
  congr 1
  funext r
  cases if k.1 = runId then granted.find k.2 else none <;> rfl

theorem get_revokeUnconsumedDecisions_of_find {j : Journal} {runId step : String}
    {granted : Mapping StepState} {prior : StepState} (h : granted.find step = some prior) :
    (revokeUnconsumedDecisions j runId granted).2.get (runId, step) =
      (j.get (runId, step)).map fun r =>
        if !prior.authorised && r.state.authorised then { r with state := prior } else r := by
  rw [get_revokeUnconsumedDecisions, if_pos rfl, h]

end CliAgentOrchestrator.Workflow
