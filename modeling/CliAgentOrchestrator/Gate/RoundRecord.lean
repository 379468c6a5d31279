import CliAgentOrchestrator.Gate.Service

/-!
# The record of a round

What any interleaving of service calls keeps of a round: its state goes along one path, its
review snapshot is written once, and a settled round carries the report of the one call that
settled it. Every write of a round is conditional on the version that was read, so a call that
writes finds the row that it read.
-/

set_option autoImplicit false

namespace CliAgentOrchestrator.Gate

open CliAgentOrchestrator.Core Library

variable {s s' : GateStore} {v v' : Service} {command : Command} {progress progress' : Progress}
  {i newUlid : String} {r r' : GateRound}

/-! ## One round under one store call -/

theorem get_written (s : GateStore) (roundId i : String) (version : Int)
    (f : Patch GateRound.roundId) : (written s roundId version f).gateRound.get i =
      (s.gateRound.get i).map fun r =>
        if i = roundId ∧ (r.rowVersion == version) = true then f.apply r else r :=
  s.gateRound.get_updateKey roundId i _ f

/-- What one store call of a call does to one round. -/
inductive RoundStep (i : String) : Command → Progress → Progress → GateRound → GateRound → Prop
  | kept (command : Command) (progress progress' : Progress) (r : GateRound) :
      RoundStep i command progress progress' r r
  | froze (snapshot : ArtifactManifest) (read r : GateRound)
      (hversion : r.rowVersion = read.rowVersion) (hnone : r.reviewSnapshot = none)
      (hopen : r.state = .open) :
      RoundStep i (.freezeReviewSnapshot i snapshot) (.roundRead read) .returned r
        ((freezePatch snapshot).apply r)
  | began (read r : GateRound) (hversion : r.rowVersion = read.rowVersion)
      (hbuilt : r.state = .built) :
      RoundStep i (.beginAdjudication i) (.roundRead read) .returned r
        ((roundStatePatch .adjudicating none).apply r)
  | stamped (verdictYes : Bool) (report : RoundReport) (read r : GateRound)
      (hversion : r.rowVersion = read.rowVersion) :
      RoundStep i (.settleAdjudication i verdictYes report) (.roundRead read)
        (.reportSet ((reportPatch report).apply r)) r ((reportPatch report).apply r)
  | settled (verdictYes : Bool) (report : RoundReport) (stamped r : GateRound) (now : Int)
      (hversion : r.rowVersion = stamped.rowVersion) (hadjudicating : r.state = .adjudicating) :
      RoundStep i (.settleAdjudication i verdictYes report) (.reportSet stamped) .returned r
        ((roundStatePatch (roundTarget verdictYes) (some now)).apply r)

/-- A conditional write does its step to the round it names and nothing to the others. -/
theorem roundStep_of_written {roundId : String} {version : Int} {f : Patch GateRound.roundId}
    {row : GateRound} (hrow : s.gateRound.get roundId = some row)
    (hversion : row.rowVersion = version)
    (hstep : RoundStep roundId command progress progress' row (f.apply row))
    (hget : s.gateRound.get i = some r) :
    ∃ r', (written s roundId version f).gateRound.get i = some r' ∧
      RoundStep i command progress progress' r r' := by
  rw [get_written, hget]
  refine ⟨_, rfl, ?_⟩
  show RoundStep i command progress progress' r (if _ then _ else _)
  by_cases hi : i = roundId
  · subst hi
    rw [hrow] at hget
    cases hget
    rw [if_pos ⟨rfl, beq_iff_eq.mpr hversion⟩]
    exact hstep
  · rw [if_neg fun h => hi h.1]
    exact .kept _ _ _ r

theorem roundStep_of_advance (h : Advance s newUlid command progress progress' s')
    (hget : s.gateRound.get i = some r) :
    ∃ r', s'.gateRound.get i = some r' ∧ RoundStep i command progress progress' r r' := by
  cases h with
  | openedRound draft now hfree =>
    refine ⟨r, ?_, .kept _ _ _ r⟩
    show (s.gateRound.insert _).get i = some r
    rw [Table.get_insert, hget]
    rfl
  | froze roundId snapshot read row hrow hversion hnone hopen =>
    exact roundStep_of_written hrow hversion (.froze snapshot read row hversion hnone hopen) hget
  | began roundId read row hrow hversion hbuilt =>
    exact roundStep_of_written hrow hversion (.began read row hversion hbuilt) hget
  | stamped roundId verdictYes report read row hrow hversion =>
    exact roundStep_of_written hrow hversion (.stamped verdictYes report read row hversion) hget
  | settled roundId verdictYes report stamped row now hrow hversion hadjudicating =>
    exact roundStep_of_written hrow hversion
      (.settled verdictYes report stamped row now hversion hadjudicating) hget
  | _ => exact ⟨r, hget, .kept _ _ _ r⟩

/-- A round that appears is one that `open_round` inserted. -/
theorem roundRow_of_advance (h : Advance s newUlid command progress progress' s')
    (hnone : s.gateRound.get i = none) (hget : s'.gateRound.get i = some r') :
    ∃ draft now, command = .openRound draft ∧ progress = .roundsCounted ∧ newUlid = i ∧
      r' = roundRow s draft i now := by
  -- an update inserts nothing
  have hwritten : ∀ (roundId : String) (version : Int) (f : Patch GateRound.roundId),
      (written s roundId version f).gateRound.get i = some r' → False := by
    intro roundId version f hf
    rw [get_written, hnone] at hf
    cases hf
  have hsame : s.gateRound.get i = some r' → False := by
    intro hf
    rw [hnone] at hf
    cases hf
  cases h with
  | openedRound draft now hfree =>
    have hcases := (s.gateRound.get_insert (roundRow s draft newUlid now) i).symm.trans hget
    rw [hnone, Option.none_or] at hcases
    split at hcases
    · next hi =>
      obtain rfl : newUlid = i := hi
      exact ⟨draft, now, rfl, rfl, rfl, (Option.some.inj hcases).symm⟩
    · cases hcases
  | froze | began | stamped | settled => exact (hwritten _ _ _ hget).elim
  | _ => exact (hsame hget).elim

/-- Every change of a round bumps its version. -/
theorem RoundStep.seen (h : RoundStep i command progress progress' r r') :
    Seen GateRound.rowVersion r r' := by
  cases h with
  | kept => exact Seen.refl _ r
  | _ => exact seen_of_lt (Int.lt_succ r.rowVersion)

/-- The moves of a round. -/
inductive NextState : RoundState → RoundState → Prop
  | built : NextState .open .built
  | adjudicating : NextState .built .adjudicating
  | verdict (verdictYes : Bool) : NextState .adjudicating (roundTarget verdictYes)

theorem RoundStep.state (h : RoundStep i command progress progress' r r') :
    r'.state = r.state ∨ NextState r.state r'.state := by
  cases h with
  | froze snapshot read _ hversion hnone hopen =>
    right
    rw [hopen]
    exact .built
  | began read _ hversion hbuilt =>
    right
    rw [hbuilt]
    exact .adjudicating
  | settled verdictYes report stamped _ now hversion hadjudicating =>
    right
    rw [hadjudicating]
    exact .verdict verdictYes
  | _ => exact .inl rfl

/-- A review snapshot is never written twice. -/
theorem RoundStep.snapshot (h : RoundStep i command progress progress' r r')
    {snapshot : ArtifactManifest} (hsnapshot : r.reviewSnapshot = some snapshot) :
    r'.reviewSnapshot = some snapshot := by
  cases h with
  | froze _ read _ hversion hnone =>
    rw [hnone] at hsnapshot
    cases hsnapshot
  | _ => exact hsnapshot

/-- A round is open as long as it has no review snapshot. -/
def FrozenOnce (r : GateRound) : Prop := r.state = .open ↔ r.reviewSnapshot = none

theorem RoundStep.frozenOnce (h : RoundStep i command progress progress' r r')
    (hr : FrozenOnce r) : FrozenOnce r' := by
  have hneither : ∀ state : RoundState, state ≠ .open → r.state ≠ .open →
      (state = .open ↔ r.reviewSnapshot = none) := by
    intro state hstate hropen
    exact ⟨fun h => absurd h hstate, fun h => absurd (hr.mpr h) hropen⟩
  cases h with
  | froze =>
    constructor
    · intro heq
      cases heq
    · intro heq
      cases heq
  | began read _ hversion hbuilt =>
    refine hneither .adjudicating (by decide) ?_
    rw [hbuilt]
    decide
  | settled verdictYes report stamped _ now hversion hadjudicating =>
    refine hneither (roundTarget verdictYes) ?_ ?_
    · cases verdictYes <;> decide
    · rw [hadjudicating]
      decide
  | _ => exact hr

/-! ## The invariant -/

/-- What was read of a round earlier. -/
def Read (s : GateStore) (i : String) (read : GateRound) : Prop :=
  ∃ r, s.gateRound.get i = some r ∧ Seen GateRound.rowVersion read r

/-- The round shows the hashes of the report. -/
def Carries (report : RoundReport) (r : GateRound) : Prop :=
  r.subjectSha = some report.subjectSha ∧ r.reportBytesSha = some report.reportBytesSha ∧
    r.verdictReportSha = some report.verdictReportSha

/-- The call settled the round: it is a `settle_adjudication` call that returned. -/
def SettledBy (v : Service) (n : Nat) (i : String) (verdictYes : Bool) (report : RoundReport) :
    Prop :=
  CallAt v n (.settleAdjudication i verdictYes report) .returned

/-- What ties the calls in progress to the rounds. -/
structure RecordInv (v : Service) : Prop where
  frozenOnce : ∀ i r, v.store.gateRound.get i = some r → FrozenOnce r
  read : ∀ n command i target read, CallAt v n command (.roundRead read) →
    command.roundMove = some (i, target) →
    Read v.store i read ∧ nextRoundState read.state target = .ok target
  stamped : ∀ n i verdictYes report stamped,
    CallAt v n (.settleAdjudication i verdictYes report) (.reportSet stamped) →
    Read v.store i stamped ∧ stamped.state = .adjudicating ∧ Carries report stamped
  returned : ∀ n i verdictYes report, SettledBy v n i verdictYes report →
    ∃ r, v.store.gateRound.get i = some r ∧ r.state = roundTarget verdictYes ∧ Carries report r
  verdict : ∀ i r, v.store.gateRound.get i = some r → r.state = .yes ∨ r.state = .no →
    ∃ n verdictYes report, SettledBy v n i verdictYes report
  once : ∀ n m i verdictYes verdictYes' report report', SettledBy v n i verdictYes report →
    SettledBy v m i verdictYes' report' → n = m

theorem recordInv_init : RecordInv Service.init := by
  constructor
  · intro i r hget
    cases hget
  · intro n command i target read hcall
    cases hcall
  · intro n i verdictYes report stamped hcall
    cases hcall
  · intro n i verdictYes report hcall
    cases hcall
  · intro i r hget
    cases hget
  · intro n m i verdictYes verdictYes' report report' hcall
    cases hcall

theorem roundTarget_settled (verdictYes : Bool) :
    roundTarget verdictYes = .yes ∨ roundTarget verdictYes = .no := by
  cases verdictYes
  · exact .inr rfl
  · exact .inl rfl

/-- Only an adjudicating round can be settled. -/
theorem adjudicating_of_next {state : RoundState} {verdictYes : Bool}
    (h : nextRoundState state (roundTarget verdictYes) = .ok (roundTarget verdictYes)) :
    state = .adjudicating := by
  cases state with
  | adjudicating => rfl
  | _ => cases verdictYes <;> cases h

/-- A read stays a read. -/
theorem Read.advance {read : GateRound} (h : Read s i read)
    (hadvance : Advance s newUlid command progress progress' s') : Read s' i read := by
  obtain ⟨r, hget, hseen⟩ := h
  obtain ⟨r', hget', hstep⟩ := roundStep_of_advance hadvance hget
  exact ⟨r', hget', hseen.trans hstep.seen⟩

/-- A round that is read at its version is what was read. -/
theorem Read.eq {read : GateRound} (h : Read s i read) (hget : s.gateRound.get i = some r)
    (hversion : r.rowVersion = read.rowVersion) : read = r := by
  obtain ⟨r₂, hget₂, hseen⟩ := h
  rw [hget] at hget₂
  cases hget₂
  exact hseen.eq hversion

/-- A settled round is never written again. -/
theorem RecordInv.settled_kept (h : RecordInv v) {n : Nat} {call : Call}
    (hcall : v.calls[n]? = some call) (hget : v.store.gateRound.get i = some r)
    (hsettled : r.state = .yes ∨ r.state = .no)
    (hstep : RoundStep i call.command call.progress progress' r r') : r' = r := by
  obtain ⟨command, progress⟩ := call
  have hnot : ∀ state : RoundState, r.state = state → state ≠ .yes → state ≠ .no → False := by
    intro state hstate hyes hno
    rw [hstate] at hsettled
    exact hsettled.elim hyes hno
  cases hstep with
  | kept => rfl
  | froze snapshot read _ hversion hnone hopen =>
    exact (hnot .open hopen (by decide) (by decide)).elim
  | began read _ hversion hbuilt => exact (hnot .built hbuilt (by decide) (by decide)).elim
  | stamped verdictYes report read _ hversion =>
    obtain ⟨hread, hnext⟩ := h.read n _ i _ read hcall rfl
    have hadjudicating := adjudicating_of_next hnext
    rw [hread.eq hget hversion] at hadjudicating
    exact (hnot .adjudicating hadjudicating (by decide) (by decide)).elim
  | settled verdictYes report stamped _ now hversion hadjudicating =>
    exact (hnot .adjudicating hadjudicating (by decide) (by decide)).elim

/-- A new call knows nothing yet. -/
theorem RecordInv.called (h : RecordInv v) (command : Command) :
    RecordInv { v with calls := v.calls ++ [{ command := command, progress := .started }] } := by
  have hold : ∀ (m : Nat) (call : Call), call.progress ≠ .started →
      (v.calls ++ [{ command := command, progress := .started }])[m]? = some call →
        v.calls[m]? = some call := by
    intro m call hprogress hcall
    obtain hcall | rfl := getElem?_append_eq_some hcall
    · exact hcall
    · exact absurd rfl hprogress
  constructor
  · exact h.frozenOnce
  · intro n command' i target read hcall
    exact h.read n command' i target read (hold n _ (by simp) hcall)
  · intro n i verdictYes report stamped hcall
    exact h.stamped n i verdictYes report stamped (hold n _ (by simp) hcall)
  · intro n i verdictYes report hcall
    exact h.returned n i verdictYes report (hold n _ (by simp) hcall)
  · intro i r hget hsettled
    obtain ⟨n, verdictYes, report, hcall⟩ := h.verdict i r hget hsettled
    have hlt := (List.getElem?_eq_some_iff.mp hcall).1
    exact ⟨n, verdictYes, report, (List.getElem?_append_left hlt).trans hcall⟩
  · intro n m i verdictYes verdictYes' report report' hn hm
    exact h.once n m i verdictYes verdictYes' report report' (hold n _ (by simp) hn)
      (hold m _ (by simp) hm)

/-- A call that raised has written nothing, and only calls that returned count. -/
theorem RecordInv.raised (h : RecordInv v) {n : Nat} {call : Call} {e : GateError}
    (hcall : v.calls[n]? = some call) (hlive : call.progress ≠ .returned) :
    RecordInv { v with calls := v.calls.set n { call with progress := .raised e } } := by
  have hold : ∀ (m : Nat) (other : Call), other.progress ≠ .raised e →
      (v.calls.set n { call with progress := .raised e })[m]? = some other →
        v.calls[m]? = some other := by
    intro m other hprogress hother
    obtain ⟨-, rfl⟩ | ⟨-, hother⟩ := getElem?_set_eq_some hother
    · exact absurd rfl hprogress
    · exact hother
  constructor
  · exact h.frozenOnce
  · intro m command' i target read hm
    exact h.read m command' i target read (hold m _ (by simp) hm)
  · intro m i verdictYes report stamped hm
    exact h.stamped m i verdictYes report stamped (hold m _ (by simp) hm)
  · intro m i verdictYes report hm
    exact h.returned m i verdictYes report (hold m _ (by simp) hm)
  · intro i r hget hsettled
    obtain ⟨m, verdictYes, report, hm⟩ := h.verdict i r hget hsettled
    have hne : m ≠ n := by
      rintro rfl
      have hsame := hcall.symm.trans hm
      cases hsame
      exact hlive rfl
    exact ⟨m, verdictYes, report, getElem?_set_of_ne hm hne⟩
  · intro m k i verdictYes verdictYes' report report' hm hk
    exact h.once m k i verdictYes verdictYes' report report' (hold m _ (by simp) hm)
      (hold k _ (by simp) hk)

/-- Where a round of the store after a store call comes from. -/
theorem round_cases (hadvance : Advance s newUlid command progress progress' s')
    (hget : s'.gateRound.get i = some r') :
    (∃ r, s.gateRound.get i = some r ∧ RoundStep i command progress progress' r r') ∨
      (s.gateRound.get i = none ∧ ∃ draft now, command = .openRound draft ∧
        progress = .roundsCounted ∧ newUlid = i ∧ r' = roundRow s draft i now) := by
  cases hbefore : s.gateRound.get i with
  | none => exact .inr ⟨rfl, roundRow_of_advance hadvance hbefore hget⟩
  | some r =>
    obtain ⟨x, hx, hstep⟩ := roundStep_of_advance hadvance hbefore
    rw [hget] at hx
    cases hx
    exact .inl ⟨r, rfl, hstep⟩

/-- The call that moved a round out of ADJUDICATING found the report it had set itself. -/
theorem RecordInv.settled_carries (h : RecordInv v) {n : Nat} {verdictYes : Bool}
    {report : RoundReport} {stamped : GateRound}
    (hcall : CallAt v n (.settleAdjudication i verdictYes report) (.reportSet stamped))
    (hget : v.store.gateRound.get i = some r) (hversion : r.rowVersion = stamped.rowVersion) :
    Carries report r := by
  obtain ⟨hread, -, hcarries⟩ := h.stamped n i verdictYes report stamped hcall
  rwa [hread.eq hget hversion] at hcarries

section Advanced

variable {n : Nat} {store : GateStore}

/-- A call after one of them advanced. -/
theorem callAt_set {m : Nat} {command' : Command} {progress'' : Progress}
    (h : CallAt { store := store, calls := v.calls.set n ⟨command, progress'⟩ } m command'
      progress'') :
    (m = n ∧ command' = command ∧ progress'' = progress') ∨
      (m ≠ n ∧ CallAt v m command' progress'') := by
  obtain ⟨hm, hcall⟩ | hother := getElem?_set_eq_some h
  · cases hcall
    exact .inl ⟨hm, rfl, rfl⟩
  · exact .inr hother

theorem RecordInv.advanced_read (h : RecordInv v)
    (hadvance : Advance v.store newUlid command progress progress' store) {m : Nat} {command' : Command}
    {target : RoundState} {read : GateRound}
    (hcallm : CallAt { store := store, calls := v.calls.set n ⟨command, progress'⟩ } m command'
      (.roundRead read)) (hmove : command'.roundMove = some (i, target)) :
    Read store i read ∧ nextRoundState read.state target = .ok target := by
  obtain ⟨rfl, rfl, hprogress⟩ | ⟨-, hother⟩ := callAt_set hcallm
  · -- it has just been read
    cases hadvance with
    | roundRead _ roundId target' round hmove' hget hnext =>
      cases hprogress
      rw [hmove] at hmove'
      cases hmove'
      exact ⟨⟨read, hget, Seen.refl _ read⟩, hnext⟩
    | _ => cases hprogress
  · obtain ⟨hread, hnext⟩ := h.read m command' i target read hother hmove
    exact ⟨hread.advance hadvance, hnext⟩

theorem RecordInv.advanced_stamped (h : RecordInv v) (hcall : CallAt v n command progress)
    (hadvance : Advance v.store newUlid command progress progress' store) {m : Nat} {verdictYes : Bool}
    {report : RoundReport} {stamped : GateRound}
    (hcallm : CallAt { store := store, calls := v.calls.set n ⟨command, progress'⟩ } m
      (.settleAdjudication i verdictYes report) (.reportSet stamped)) :
    Read store i stamped ∧ stamped.state = .adjudicating ∧ Carries report stamped := by
  obtain ⟨rfl, rfl, hprogress⟩ | ⟨-, hother⟩ := callAt_set hcallm
  · cases hadvance with
    | stamped _ _ _ read row hget hversion =>
      cases hprogress
      obtain ⟨hread, hnext⟩ := h.read m _ i _ read hcall rfl
      have hadjudicating : row.state = .adjudicating := by
        rw [← hread.eq hget hversion]
        exact adjudicating_of_next hnext
      refine ⟨⟨(reportPatch report).apply row, ?_, Seen.refl _ _⟩, hadjudicating, rfl, rfl, rfl⟩
      rw [get_written, hget, Option.map_some, if_pos ⟨rfl, beq_iff_eq.mpr hversion⟩]
    | _ => cases hprogress
  · obtain ⟨hread, hstate, hcarries⟩ := h.stamped m i verdictYes report stamped hother
    exact ⟨hread.advance hadvance, hstate, hcarries⟩

theorem RecordInv.advanced_returned (h : RecordInv v) (hcall : CallAt v n command progress)
    (hadvance : Advance v.store newUlid command progress progress' store) {m : Nat} {verdictYes : Bool}
    {report : RoundReport}
    (hcallm : SettledBy { store := store, calls := v.calls.set n ⟨command, progress'⟩ } m i
      verdictYes report) :
    ∃ r, store.gateRound.get i = some r ∧ r.state = roundTarget verdictYes ∧
      Carries report r := by
  obtain ⟨rfl, rfl, hprogress⟩ | ⟨-, hother⟩ := callAt_set hcallm
  · cases hadvance with
    | settled _ _ _ stamped row now hget hversion hadjudicating =>
      have hcarries : Carries report row := h.settled_carries hcall hget hversion
      refine ⟨(roundStatePatch (roundTarget verdictYes) (some now)).apply row, ?_, rfl, hcarries⟩
      rw [get_written, hget, Option.map_some, if_pos ⟨rfl, beq_iff_eq.mpr hversion⟩]
    | runMoved _ _ _ _ _ hmove => cases hmove
    | _ => cases hprogress
  · obtain ⟨r, hget, hstate, hcarries⟩ := h.returned m i verdictYes report hother
    obtain ⟨r', hget', hstep⟩ := roundStep_of_advance hadvance hget
    have hsettled : r.state = .yes ∨ r.state = .no := by
      rw [hstate]
      exact roundTarget_settled verdictYes
    rw [h.settled_kept hcall hget hsettled hstep] at hget'
    exact ⟨r, hget', hstate, hcarries⟩

/-- A call that returned never advances. -/
theorem Advance.live (h : Advance s newUlid command progress progress' s') : progress ≠ .returned := by
  cases h <;> simp

theorem RecordInv.advanced_verdict (h : RecordInv v) (hcall : CallAt v n command progress)
    (hadvance : Advance v.store newUlid command progress progress' store)
    (hget : store.gateRound.get i = some r') (hsettled : r'.state = .yes ∨ r'.state = .no) :
    ∃ m verdictYes report,
      SettledBy { store := store, calls := v.calls.set n ⟨command, progress'⟩ } m i verdictYes
        report := by
  have hnot : ∀ state : RoundState, r'.state = state → state ≠ .yes → state ≠ .no → False := by
    intro state hstate hyes hno
    rw [hstate] at hsettled
    exact hsettled.elim hyes hno
  obtain ⟨r, hget₀, hstep⟩ | ⟨-, draft, now, -, -, -, rfl⟩ := round_cases hadvance hget
  · by_cases hbefore : r.state = .yes ∨ r.state = .no
    · obtain ⟨m, verdictYes, report, hm⟩ := h.verdict i r hget₀ hbefore
      have hne : m ≠ n := by
        rintro rfl
        have hsame := Option.some.inj (hcall.symm.trans hm)
        exact hadvance.live (Call.mk.inj hsame).2
      exact ⟨m, verdictYes, report, getElem?_set_of_ne hm hne⟩
    · cases hstep with
      | froze => exact (hnot .built rfl (by decide) (by decide)).elim
      | began => exact (hnot .adjudicating rfl (by decide) (by decide)).elim
      | settled verdictYes report stamped _ now hversion hadjudicating =>
        exact ⟨n, verdictYes, report, getElem?_set_self hcall⟩
      | _ => exact absurd hsettled hbefore
  · exact (hnot .open rfl (by decide) (by decide)).elim

/-- A call that has just settled a round is the first to do so. -/
theorem RecordInv.settles_alone (h : RecordInv v) {m : Nat} {verdictYes verdictYes' : Bool}
    {report report' : RoundReport}
    (hadvance : Advance v.store newUlid (.settleAdjudication i verdictYes report) progress .returned store)
    (hm : SettledBy v m i verdictYes' report') : False := by
  obtain ⟨r, hget, hstate, -⟩ := h.returned m i verdictYes' report' hm
  cases hadvance with
  | settled _ _ _ stamped row now hget' hversion hadjudicating =>
    rw [hget] at hget'
    cases hget'
    rw [hadjudicating] at hstate
    cases verdictYes' <;> cases hstate
  | runMoved _ _ _ _ _ hmove => cases hmove

theorem RecordInv.advanced (h : RecordInv v) (hcall : CallAt v n command progress)
    (hadvance : Advance v.store newUlid command progress progress' store) :
    RecordInv { store := store, calls := v.calls.set n ⟨command, progress'⟩ } where
  frozenOnce i r' hget := by
    obtain ⟨r, hget₀, hstep⟩ | ⟨-, draft, now, -, -, -, rfl⟩ := round_cases hadvance hget
    · exact hstep.frozenOnce (h.frozenOnce i r hget₀)
    · exact ⟨fun _ => rfl, fun _ => rfl⟩
  read _ _ _ _ _ hcallm hmove := h.advanced_read hadvance hcallm hmove
  stamped _ _ _ _ _ hcallm := h.advanced_stamped hcall hadvance hcallm
  returned _ _ _ _ hcallm := h.advanced_returned hcall hadvance hcallm
  verdict _ _ hget hsettled := h.advanced_verdict hcall hadvance hget hsettled
  once m k i verdictYes verdictYes' report report' hm hk := by
    obtain ⟨rfl, rfl, rfl⟩ | ⟨-, hmold⟩ := callAt_set hm
    · obtain ⟨hsame, -⟩ | ⟨-, hkold⟩ := callAt_set hk
      · exact hsame.symm
      · exact (h.settles_alone hadvance hkold).elim
    · obtain ⟨rfl, rfl, rfl⟩ | ⟨-, hkold⟩ := callAt_set hk
      · exact (h.settles_alone hadvance hmold).elim
      · exact h.once m k i verdictYes verdictYes' report report' hmold hkold

end Advanced

theorem RecordInv.exec (h : RecordInv v) (event : Event) : RecordInv (v.exec event) := by
  have hmoves := moves_exec v event
  generalize v.exec event = after at hmoves
  cases hmoves with
  | idle => exact h
  | called command => exact h.called command
  | raised n newUlid now call e hcall hlive => exact h.raised hcall hlive
  | advanced n newUlid now call progress store hcall hadvance => exact h.advanced hcall hadvance

theorem recordInv_run (events : List Event) :
    RecordInv (run Service.exec Service.init events) :=
  run_invariant RecordInv (fun _ event h => h.exec event) Service.init recordInv_init events

/-! ## Every run -/

/-- A round goes along its path and keeps its snapshot. -/
structure RoundMoves (r r' : GateRound) : Prop where
  state : r'.state = r.state ∨ NextState r.state r'.state
  snapshot : ∀ snapshot, r.reviewSnapshot = some snapshot → r'.reviewSnapshot = some snapshot

theorem roundMoves_of_exec (event : Event) (hget : v.store.gateRound.get i = some r) :
    ∃ r', (v.exec event).store.gateRound.get i = some r' ∧ RoundMoves r r' := by
  have hmoves := moves_exec v event
  generalize v.exec event = after at hmoves
  cases hmoves with
  | advanced n newUlid now call progress store hcall hadvance =>
    obtain ⟨r', hget', hstep⟩ := roundStep_of_advance hadvance hget
    exact ⟨r', hget', hstep.state, fun _ hsnapshot => hstep.snapshot hsnapshot⟩
  | _ => exact ⟨r, hget, .inl rfl, fun _ hsnapshot => hsnapshot⟩

/-- A round appears open. -/
theorem open_of_exec {event : Event} (hnone : v.store.gateRound.get i = none)
    (hget : (v.exec event).store.gateRound.get i = some r') : r'.state = .open := by
  have hmoves := moves_exec v event
  generalize v.exec event = after at hmoves hget
  cases hmoves with
  | advanced n newUlid now call progress store hcall hadvance =>
    obtain ⟨draft, now, -, -, -, rfl⟩ := roundRow_of_advance hadvance hnone hget
    rfl
  | _ =>
    rw [hnone] at hget
    cases hget

/-- The snapshot of a round stays what it is. -/
theorem snapshot_run {snapshot : ArtifactManifest} (hget : v.store.gateRound.get i = some r)
    (hsnapshot : r.reviewSnapshot = some snapshot) (events : List Event) :
    ∃ r', (run Service.exec v events).store.gateRound.get i = some r' ∧
      r'.reviewSnapshot = some snapshot := by
  refine run_invariant (fun v => ∃ r, v.store.gateRound.get i = some r ∧
    r.reviewSnapshot = some snapshot) ?_ v ⟨r, hget, hsnapshot⟩ events
  rintro v event ⟨r, hget, hsnapshot⟩
  obtain ⟨r', hget', hmoves⟩ := roundMoves_of_exec event hget
  exact ⟨r', hget', hmoves.snapshot snapshot hsnapshot⟩

/-- The integrity of the round records in a run of the service. -/
structure RoundIntegrity (events : List Event) : Prop where
  /-- A round appears open and only moves along OPEN, BUILT, ADJUDICATING, YES or NO. -/
  moves : ∀ done event rest, events = done ++ event :: rest →
    ∀ i r', (run Service.exec Service.init (done ++ [event])).store.gateRound.get i = some r' →
      ((run Service.exec Service.init done).store.gateRound.get i = none ∧ r'.state = .open) ∨
        ∃ r, (run Service.exec Service.init done).store.gateRound.get i = some r ∧
          (r'.state = r.state ∨ NextState r.state r'.state)
  /-- From BUILT on a round has a review snapshot that never changes. -/
  snapshot : ∀ done rest, events = done ++ rest →
    ∀ i r, (run Service.exec Service.init done).store.gateRound.get i = some r →
      r.state ≠ .open → ∃ snapshot, r.reviewSnapshot = some snapshot ∧
        ∃ r', (run Service.exec Service.init events).store.gateRound.get i = some r' ∧
          r'.reviewSnapshot = some snapshot
  /-- A settled round shows the verdict and the hashes of one `settle_adjudication` call, the only
  one of the round that returned. -/
  verdict : ∀ i r, (run Service.exec Service.init events).store.gateRound.get i = some r →
    r.state = .yes ∨ r.state = .no → ∃ n verdictYes report,
      SettledBy (run Service.exec Service.init events) n i verdictYes report ∧
        (∀ m verdictYes' report', SettledBy (run Service.exec Service.init events) m i verdictYes'
          report' → m = n) ∧
        r.state = roundTarget verdictYes ∧ Carries report r

/-- In every interleaving of the service calls the round records keep their integrity. -/
theorem roundIntegrity_run (events : List Event) : RoundIntegrity events := by
  constructor
  · rintro done event rest rfl i r' hget
    rw [run_concat] at hget
    cases hbefore : (run Service.exec Service.init done).store.gateRound.get i with
    | none => exact .inl ⟨rfl, open_of_exec hbefore hget⟩
    | some r =>
      obtain ⟨x, hx, hmoves⟩ := roundMoves_of_exec event hbefore
      rw [hget] at hx
      cases hx
      exact .inr ⟨r, rfl, hmoves.state⟩
  · rintro done rest rfl i r hget hbuilt
    cases hsnapshot : r.reviewSnapshot with
    | none => exact absurd (((recordInv_run done).frozenOnce i r hget).mpr hsnapshot) hbuilt
    | some snapshot =>
      refine ⟨snapshot, rfl, ?_⟩
      rw [run_append]
      exact snapshot_run hget hsnapshot rest
  · intro i r hget hsettled
    have hinv := recordInv_run events
    obtain ⟨n, verdictYes, report, hn⟩ := hinv.verdict i r hget hsettled
    obtain ⟨r₂, hget₂, hstate, hcarries⟩ := hinv.returned n i verdictYes report hn
    rw [hget] at hget₂
    cases hget₂
    refine ⟨n, verdictYes, report, hn, ?_, hstate, hcarries⟩
    intro m verdictYes' report' hm
    exact hinv.once m n i verdictYes' verdictYes report' report hm hn

end CliAgentOrchestrator.Gate
