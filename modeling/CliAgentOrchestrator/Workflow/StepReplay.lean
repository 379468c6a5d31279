import CliAgentOrchestrator.Workflow.Envelope
import CliAgentOrchestrator.Workflow.Journal

/-!
# The replay gate

`services/step_replay.py`: ten rules over one journal row, first match wins. The whole of what
the other modules use of the gate is `decideRow_replay_iff`: exactly which rows are answered
REPLAY, and with which envelope.
-/

set_option autoImplicit false

namespace CliAgentOrchestrator.Workflow

open Library

/-! ## Schemes and policies -/

/-- SOURCE: services/step_fingerprint.py:267-299 -/
inductive Scheme
  | v2
  | legacy
  | absent
deriving DecidableEq

def Scheme.value : Scheme → String
  | .v2 => "v2"
  | .legacy => "legacy"
  | .absent => "absent"

/-- SOURCE: services/step_fingerprint.py:267-299 -/
def schemeOf : Option String → Scheme
  | none => .absent
  | some stored => if "v2:".toList <+: stored.toList then .v2 else .legacy

/-- What a step's author declares about re-running it.
SOURCE: models/workflow.py:121-135 -/
inductive RecoveryPolicy
  | idempotent
  | reconcile
  | manual
deriving DecidableEq

/-- Membership in `_REEXECUTION_PERMITTED`.
SOURCE: services/step_replay.py:113 -/
def reexecutionPermitted (policy : Option RecoveryPolicy) : Bool :=
  policy == some .idempotent || policy == some .reconcile

/-- SOURCE: services/workflow_errors.py:57-102 -/
inductive HaltRule
  | interruptedNoPolicy
  | envelopeAbsent
  | provenanceUnverifiable
  | policyManual
  | outcomeFailed
  | envelopeLossy

/-- SOURCE: services/step_replay.py:129-142 -/
inductive ReplayVerdict
  | execute
  | replay
  | diverged
  | decisionRequired

/-- SOURCE: services/step_replay.py:145-184 -/
structure ReplayDecision where
  verdict : ReplayVerdict
  envelope : Option StepResultEnvelope := none
  reason : String
  rule : Option HaltRule := none

/-! ## The ten rules -/

/-- Rules 3 to 10, on a row that is neither absent, nor rerun-authorised, nor running.
SOURCE: services/step_replay.py:309-466 -/
def decideSettled (reader : EnvelopeReader) (here : String) (row : StepRow)
    (fingerprint : String) (policy : Option RecoveryPolicy) : ReplayDecision :=
  match parseEnvelope reader row.resultJson with
  | none =>
    { verdict := .decisionRequired
      reason := here ++ ": the row is settled but carries no readable result envelope, so " ++
        "there is nothing to replay"
      rule := some .envelopeAbsent }
  | some envelope =>
    -- rules 4 and 5: provenance before equality
    if schemeOf row.callFingerprint ≠ .v2 then
      if reexecutionPermitted policy then
        { verdict := .execute
          reason := here ++ ": the stored call fingerprint's scheme is '" ++
            (schemeOf row.callFingerprint).value ++ "' rather than the current scheme, and " ++
            "its declared recovery policy permits re-execution" }
      else
        { verdict := .decisionRequired
          reason := here ++ ": the stored call fingerprint's scheme is '" ++
            (schemeOf row.callFingerprint).value ++ "' rather than the current scheme, so " ++
            "its provenance cannot be verified"
          rule := some .provenanceUnverifiable }
    else if row.callFingerprint ≠ some fingerprint then
      { verdict := .diverged
        reason := here ++ ": the stored call fingerprint differs from this call's under the " ++
          "current scheme, so the step changed between runs at the same key" }
    else if policy = some .manual ∧ row.state ≠ .replayAuthorized then
      { verdict := .decisionRequired
        reason := here ++ ": the call fingerprints match under the current scheme, and the " ++
          "declared recovery policy is 'manual'"
        rule := some .policyManual }
    else if row.state = .failed then
      { verdict := .decisionRequired
        reason := here ++ ": the stored result records a FAILED outcome, so replaying it " ++
          "would report a success the original run never produced"
        rule := some .outcomeFailed }
    else if (envelope.truncated || envelope.redacted) ∧ row.state ≠ .replayAuthorized then
      { verdict := .decisionRequired
        reason := here ++ ": the stored result envelope reports itself truncated or " ++
          "redacted, so its text is not what the original call returned"
        rule := some .envelopeLossy }
    else
      { verdict := .replay
        envelope := some envelope
        reason := here ++ ": the call fingerprints match under the current scheme and a " ++
          "stored result envelope is available, so the recorded result stands" }

/-- The rules in their order, over the row the one read returned.
SOURCE: services/step_replay.py:251-466 -/
def decideRow (reader : EnvelopeReader) (here : String) (row : Option StepRow)
    (fingerprint : String) (policy : Option RecoveryPolicy) : ReplayDecision :=
  match row with
  | none =>
    { verdict := .execute
      reason := here ++ ": no journal row exists, so this step has never been dispatched" }
  | some row =>
    if row.state = .rerunAuthorized then
      { verdict := .execute
        reason := here ++ ": a human authorised a rerun of this step" }
    else if row.state = .running then
      if reexecutionPermitted policy then
        { verdict := .execute
          reason := here ++ ": the step was dispatched and its outcome is unknown, and its " ++
            "declared recovery policy permits re-execution" }
      else
        { verdict := .decisionRequired
          reason := here ++ ": the step was dispatched and its outcome is unknown, and no " ++
            "declared recovery policy permits re-execution"
          rule := some .interruptedNoPolicy }
    else decideSettled reader here row fingerprint policy

/-- The gate: an unverifiable incoming fingerprint is refused before the read.
SOURCE: services/step_replay.py:187-466 -/
def StepReplay.decide (reader : EnvelopeReader) (j : Journal) (runId stepId fingerprint : String)
    (policy : Option RecoveryPolicy) : Except String ReplayDecision :=
  if schemeOf (some fingerprint) ≠ .v2 then
    .error ("step '" ++ stepId ++ "': the supplied call fingerprint was not computed under the " ++
      "current scheme, so no replay decision can be made for this step")
  else
    let here := "run '" ++ runId ++ "' step '" ++ stepId ++ "'"
    .ok (decideRow reader here (getStep j runId stepId) fingerprint policy)

/-! ## What the gate replays -/

/-- The row is one the gate answers REPLAY with `e` for this call. -/
structure Replays (reader : EnvelopeReader) (row : StepRow) (fingerprint : String)
    (policy : Option RecoveryPolicy) (e : StepResultEnvelope) : Prop where
  notRerun : row.state ≠ .rerunAuthorized
  notRunning : row.state ≠ .running
  stored : parseEnvelope reader row.resultJson = some e
  current : schemeOf row.callFingerprint = .v2
  same : row.callFingerprint = some fingerprint
  whole : row.state = .replayAuthorized ∨
    (policy ≠ some .manual ∧ row.state ≠ .failed ∧ e.truncated = false ∧ e.redacted = false)

theorem decideSettled_replay_iff (reader : EnvelopeReader) (here : String) (row : StepRow)
    (fingerprint : String) (policy : Option RecoveryPolicy) (e : StepResultEnvelope) :
    ((decideSettled reader here row fingerprint policy).verdict = .replay ∧
      (decideSettled reader here row fingerprint policy).envelope = some e) ↔
      parseEnvelope reader row.resultJson = some e ∧ schemeOf row.callFingerprint = .v2 ∧
        row.callFingerprint = some fingerprint ∧
        (row.state = .replayAuthorized ∨
          (policy ≠ some .manual ∧ row.state ≠ .failed ∧ e.truncated = false ∧
            e.redacted = false)) := by
  unfold decideSettled
  cases parseEnvelope reader row.resultJson with
  | none => simp
  | some envelope =>
    dsimp only
    split_ifs with hscheme hpermitted hsame hmanual hfailed hlossy
    -- every rule but the last halts or executes, on a row the right-hand side excludes
    all_goals simp only [false_and, false_iff, true_and, Option.some.injEq]
    · rintro ⟨-, hcurrent, -⟩
      exact hscheme hcurrent
    · rintro ⟨-, hcurrent, -⟩
      exact hscheme hcurrent
    · rintro ⟨-, -, heq, -⟩
      exact hsame heq
    · rintro ⟨-, -, -, hskip | ⟨hpolicy, -⟩⟩
      · exact hmanual.2 hskip
      · exact hpolicy hmanual.1
    · rintro ⟨-, -, -, hskip | ⟨-, hnot, -⟩⟩
      · rw [hfailed] at hskip
        cases hskip
      · exact hnot hfailed
    · rintro ⟨rfl, -, -, hskip | ⟨-, -, htruncated, hredacted⟩⟩
      · exact hlossy.2 hskip
      · simp [htruncated, hredacted] at hlossy
    · constructor
      · rintro rfl
        refine ⟨rfl, not_not.mp hscheme, not_not.mp hsame, ?_⟩
        by_cases hskip : row.state = .replayAuthorized
        · exact .inl hskip
        · have hwhole : envelope.truncated = false ∧ envelope.redacted = false := by
            simpa [hskip] using hlossy
          exact .inr ⟨fun hpolicy => hmanual ⟨hpolicy, hskip⟩, hfailed, hwhole⟩
      · rintro ⟨rfl, -⟩
        rfl

/-- Exactly the rows that replay, and the envelope each replays. -/
theorem decideRow_replay_iff (reader : EnvelopeReader) (here : String) (row : Option StepRow)
    (fingerprint : String) (policy : Option RecoveryPolicy) (e : StepResultEnvelope) :
    ((decideRow reader here row fingerprint policy).verdict = .replay ∧
      (decideRow reader here row fingerprint policy).envelope = some e) ↔
      ∃ r, row = some r ∧ Replays reader r fingerprint policy e := by
  cases row with
  | none => simp [decideRow]
  | some r =>
    simp only [decideRow, Option.some.injEq, exists_eq_left']
    split
    · next hrerun =>
      simp only [reduceCtorEq, false_and, false_iff]
      intro h
      exact h.notRerun hrerun
    · next hrerun =>
      split
      · next hrunning =>
        have hnot : ¬ Replays reader r fingerprint policy e := fun h => h.notRunning hrunning
        split <;> simp [hnot]
      · next hrunning =>
        rw [decideSettled_replay_iff]
        constructor
        · rintro ⟨hstored, hcurrent, hsame, hwhole⟩
          exact ⟨hrerun, hrunning, hstored, hcurrent, hsame, hwhole⟩
        · intro h
          exact ⟨h.stored, h.current, h.same, h.whole⟩

theorem decideSettled_fields (reader : EnvelopeReader) (here : String) (row : StepRow)
    (fingerprint : String) (policy : Option RecoveryPolicy) :
    let d := decideSettled reader here row fingerprint policy
    (d.envelope.isSome ↔ d.verdict = .replay) ∧ (d.rule.isSome ↔ d.verdict = .decisionRequired) := by
  unfold decideSettled
  cases parseEnvelope reader row.resultJson with
  | none => simp
  | some envelope =>
    dsimp only
    split_ifs <;> simp

/-- An envelope is answered with a REPLAY only, and a halting rule with a halt only. -/
theorem decideRow_fields (reader : EnvelopeReader) (here : String) (row : Option StepRow)
    (fingerprint : String) (policy : Option RecoveryPolicy) :
    let d := decideRow reader here row fingerprint policy
    (d.envelope.isSome ↔ d.verdict = .replay) ∧ (d.rule.isSome ↔ d.verdict = .decisionRequired) := by
  cases row with
  | none => simp [decideRow]
  | some r =>
    unfold decideRow
    dsimp only
    split_ifs
    · simp
    · simp
    · simp
    · exact decideSettled_fields reader here r fingerprint policy

end CliAgentOrchestrator.Workflow
