import CliAgentOrchestrator.Gate.RoundRecord

/-!
# The bounds of a run

`open_round` reads the run, counts its rounds and inserts in three store calls, and the commands
of a round never look at its run. The bounds of a run hold where the calls that work at it leave
each other room: an `open_round` counts what is about to be inserted too, nothing closes a run that
a call works at, and no command takes up a round of a closed run.
-/

set_option autoImplicit false

namespace CliAgentOrchestrator.Gate

open CliAgentOrchestrator.Core Library

variable {s s' : GateStore} {v : Service} {command : Command} {progress progress' : Progress}
  {i runId newUlid : String} {r r' : GateRound}

/-! ## Runs -/

/-- The run is closed or abandoned. -/
def RunClosed (s : GateStore) (runId : String) : Prop :=
  ∃ run, s.gateRun.get runId = some run ∧
    (run.state = .closedYes ∨ run.state = .closedNo ∨ run.state = .abandoned)

/-- Nothing moves a run that is closed or abandoned. -/
theorem not_next_of_closed {state target : RunState}
    (hclosed : state = .closedYes ∨ state = .closedNo ∨ state = .abandoned) :
    nextRunState state target ≠ .ok target := by
  obtain rfl | rfl | rfl := hclosed <;> cases target <;> decide

/-- A run keeps its bound, and stays closed once it is. -/
theorem run_of_advance (h : Advance s newUlid command progress progress' s') {run : GateRun}
    (hget : s.gateRun.get runId = some run) :
    ∃ run', s'.gateRun.get runId = some run' ∧ run'.maxRounds = run.maxRounds ∧
      (run.state = .closedYes ∨ run.state = .closedNo ∨ run.state = .abandoned →
        run'.state = run.state) := by
  cases h with
  | openedRun draft new hfree hbound =>
    refine ⟨run, ?_, rfl, fun _ => rfl⟩
    show (s.gateRun.insert new).get runId = some run
    rw [Table.get_insert, hget]
    rfl
  | runMoved _ movedId target read row hmove hrow hversion hnext =>
    have hafter : (movedRun s movedId read.rowVersion target).gateRun.get runId =
        (s.gateRun.get runId).map fun r =>
          if runId = movedId ∧ (r.rowVersion == read.rowVersion) = true then
            (runStatePatch target).apply r
          else r :=
      s.gateRun.get_updateKey movedId runId _ _
    rw [hafter, hget]
    refine ⟨_, rfl, ?_, ?_⟩
    · beta_reduce
      split <;> rfl
    · intro hclosed
      beta_reduce
      split
      · next hcond =>
        obtain ⟨rfl, -⟩ := hcond
        rw [hrow] at hget
        cases hget
        exact absurd hnext (not_next_of_closed hclosed)
      · rfl
  | _ => exact ⟨run, hget, rfl, fun _ => rfl⟩

theorem RunClosed.advance (hclosed : RunClosed s runId)
    (h : Advance s newUlid command progress progress' s') : RunClosed s' runId := by
  obtain ⟨run, hget, hstate⟩ := hclosed
  obtain ⟨run', hget', -, hkept⟩ := run_of_advance h hget
  refine ⟨run', hget', ?_⟩
  rw [hkept hstate]
  exact hstate

theorem RunClosed.exec (hclosed : RunClosed v.store runId) (event : Event) :
    RunClosed (v.exec event).store runId := by
  have hmoves := moves_exec v event
  generalize v.exec event = after at hmoves
  cases hmoves with
  | advanced n newUlid now call progress store hcall hadvance => exact hclosed.advance hadvance
  | _ => exact hclosed

/-! ## The rounds that count -/

/-- The round counts against the bound of the run. -/
def counts (runId : String) (r : GateRound) : Bool := r.runId == runId && r.state != .abandoned

theorem length_liveRounds (s : GateStore) (runId : String) :
    (liveRounds s runId).length = s.gateRound.rows.countP (counts runId) := by
  have hperm : (liveRounds s runId).Perm
      ((s.gateRound.select fun r => r.runId == runId).filter fun r => r.state != .abandoned) :=
    (List.perm_insertionSort _ _).filter _
  rw [hperm.length_eq, Table.select, List.filter_filter, List.countP_eq_length_filter]
  congr 1
  refine List.filter_congr fun r _ => ?_
  exact Bool.and_comm _ _

/-- A write of a round that is not abandoned to a state that is not. -/
theorem countP_written {roundId : String} {version : Int} {f : Patch GateRound.roundId}
    {row : GateRound} (hrow : s.gateRound.get roundId = some row)
    (hkept : counts runId (f.apply row) = counts runId row) :
    (written s roundId version f).gateRound.rows.countP (counts runId) =
      s.gateRound.rows.countP (counts runId) := by
  show (s.gateRound.rows.map _).countP _ = _
  rw [List.countP_map]
  refine List.countP_congr fun r hr => ?_
  show counts runId (if _ then _ else _) = true ↔ _
  split
  · next hcond =>
    rw [Bool.and_eq_true, decide_eq_true_eq] at hcond
    have hget := (s.gateRound.mem_rows_iff r).mp hr
    rw [hcond.1, hrow] at hget
    cases hget
    rw [hkept]
  · exact Iff.rfl

/-- An insert counts for its run and no other. -/
theorem countP_inserted {row : GateRound} (hfree : s.gateRound.get row.roundId = none) :
    (s.gateRound.insert row).rows.countP (counts runId) =
      s.gateRound.rows.countP (counts runId) + if counts runId row = true then 1 else 0 := by
  have hrows : (s.gateRound.insert row).rows = s.gateRound.rows ++ [row] := by
    unfold Table.insert
    rw [dif_neg]
    rw [hfree]
    decide
  rw [hrows, List.countP_append, List.countP_singleton]

/-- The round that `open_round` inserts counts for its run. -/
theorem countP_roundRow (draft : RoundDraft) (now : Int) (hfree : s.gateRound.get newUlid = none) :
    (s.gateRound.insert (roundRow s draft newUlid now)).rows.countP (counts draft.runId) =
      s.gateRound.rows.countP (counts draft.runId) + 1 := by
  have hcounts : counts draft.runId (roundRow s draft newUlid now) = true := by
    unfold counts
    rw [Bool.and_eq_true, beq_iff_eq]
    exact ⟨rfl, rfl⟩
  rw [countP_inserted hfree, if_pos hcounts]

theorem counts_congr (hrun : r'.runId = r.runId) (hbefore : r.state ≠ .abandoned)
    (hafter : r'.state ≠ .abandoned) : counts runId r' = counts runId r := by
  unfold counts
  rw [hrun, bne_iff_ne.mpr hbefore, bne_iff_ne.mpr hafter]

/-- Only an insert changes how many rounds count. -/
theorem countP_of_advance (runId : String) (h : Advance s newUlid command progress progress' s') :
    s'.gateRound.rows.countP (counts runId) = s.gateRound.rows.countP (counts runId) ∨
      ∃ draft, command = .openRound draft ∧ progress = .roundsCounted ∧
        s.gateRound.get newUlid = none ∧ draft.runId = runId ∧
        s'.gateRound.rows.countP (counts runId) =
          s.gateRound.rows.countP (counts runId) + 1 := by
  cases h with
  | openedRound draft now hfree =>
    by_cases hrun : draft.runId = runId
    · subst hrun
      exact .inr ⟨draft, rfl, rfl, hfree, rfl, countP_roundRow draft now hfree⟩
    · left
      have hcounts : ¬ counts runId (roundRow s draft newUlid now) = true := by
        unfold counts
        rw [Bool.and_eq_true, beq_iff_eq]
        exact fun h => hrun h.1
      show (s.gateRound.insert (roundRow s draft newUlid now)).rows.countP (counts runId) = _
      rw [countP_inserted hfree, if_neg hcounts]
      rfl
  | froze roundId snapshot read row hrow hversion hnone hopen =>
    refine .inl (countP_written hrow (counts_congr rfl ?_ ?_))
    · rw [hopen]
      decide
    · exact (by decide : RoundState.built ≠ .abandoned)
  | began roundId read row hrow hversion hbuilt =>
    refine .inl (countP_written hrow (counts_congr rfl ?_ ?_))
    · rw [hbuilt]
      decide
    · exact (by decide : RoundState.adjudicating ≠ .abandoned)
  | stamped roundId verdictYes report read row hrow hversion =>
    exact .inl (countP_written hrow rfl)
  | settled roundId verdictYes report stamped row now hrow hversion hadjudicating =>
    refine .inl (countP_written hrow (counts_congr rfl ?_ ?_))
    · rw [hadjudicating]
      decide
    · have htarget : roundTarget verdictYes ≠ .abandoned := by cases verdictYes <;> decide
      exact htarget
  | _ => exact .inl rfl

/-! ## Rounds have runs -/

/-- Every round, and every `open_round` that has read its run, has a run. -/
structure RunsExist (v : Service) : Prop where
  rounds : ∀ i r, v.store.gateRound.get i = some r → (v.store.gateRun.get r.runId).isSome = true
  opening : ∀ n draft progress, CallAt v n (.openRound draft) progress →
    progress = .roundsCounted ∨ (∃ run, progress = .runRead run) →
    (v.store.gateRun.get draft.runId).isSome = true

theorem isSome_of_advance (h : Advance s newUlid command progress progress' s')
    (hsome : (s.gateRun.get runId).isSome = true) : (s'.gateRun.get runId).isSome = true := by
  obtain ⟨run, hget⟩ := Option.isSome_iff_exists.mp hsome
  obtain ⟨run', hget', -⟩ := run_of_advance h hget
  rw [hget']
  rfl

theorem RoundStep.ofRun (h : RoundStep i command progress progress' r r') :
    r'.runId = r.runId := by
  cases h <;> rfl

theorem RunsExist.advanced (h : RunsExist v) {n : Nat} {store : GateStore}
    (hcall : CallAt v n command progress)
    (hadvance : Advance v.store newUlid command progress progress' store) :
    RunsExist { store := store, calls := v.calls.set n ⟨command, progress'⟩ } := by
  constructor
  · intro i r' hget
    obtain ⟨r, hget₀, hstep⟩ | ⟨-, draft, now, rfl, rfl, -, rfl⟩ := round_cases hadvance hget
    · rw [hstep.ofRun]
      exact isSome_of_advance hadvance (h.rounds i r hget₀)
    · exact isSome_of_advance hadvance (h.opening n draft _ hcall (.inl rfl))
  · intro m draft progress'' hcallm hopening
    obtain ⟨rfl, rfl, rfl⟩ | ⟨-, hother⟩ := callAt_set hcallm
    · cases hadvance with
      | runOpen _ run hget hopen =>
        show (v.store.gateRun.get draft.runId).isSome = true
        rw [hget]
        rfl
      | counted _ run hcount => exact h.opening m draft _ hcall (.inr ⟨run, rfl⟩)
      | openedRound _ now hfree => simp at hopening
      | runRead _ _ _ _ hmove | roundRead _ _ _ _ hmove | runMoved _ _ _ _ _ hmove => cases hmove
    · exact isSome_of_advance hadvance (h.opening m draft progress'' hother hopening)

theorem RunsExist.exec (h : RunsExist v) (event : Event) : RunsExist (v.exec event) := by
  have hmoves := moves_exec v event
  generalize v.exec event = after at hmoves
  cases hmoves with
  | idle => exact h
  | called command =>
    refine ⟨h.rounds, ?_⟩
    intro m draft progress hcallm hopening
    obtain hcallm | hnew := getElem?_append_eq_some hcallm
    · exact h.opening m draft progress hcallm hopening
    · cases hnew
      simp at hopening
  | raised n newUlid now call e hcall hlive =>
    refine ⟨h.rounds, ?_⟩
    intro m draft progress hcallm hopening
    obtain ⟨-, hnew⟩ | ⟨-, hother⟩ := getElem?_set_eq_some hcallm
    · obtain ⟨-, rfl⟩ := Call.mk.inj hnew
      simp at hopening
    · exact h.opening m draft progress hother hopening
  | advanced n newUlid now call progress store hcall hadvance => exact h.advanced hcall hadvance

theorem runsExist_run (events : List Event) : RunsExist (run Service.exec Service.init events) := by
  refine run_invariant RunsExist (fun _ event h => h.exec event) Service.init ?_ events
  constructor
  · intro i r hget
    cases hget
  · intro n draft progress hcall
    cases hcall

/-! ## Bounds -/

/-- No run has more rounds than its bound. -/
def Bounded (s : GateStore) : Prop :=
  ∀ runId run, s.gateRun.get runId = some run →
    ((liveRounds s runId).length : Int) ≤ run.maxRounds

/-- A run that appears has a positive bound. -/
theorem run_cases (h : Advance s newUlid command progress progress' s') {run' : GateRun}
    (hget : s'.gateRun.get runId = some run') :
    (∃ run, s.gateRun.get runId = some run ∧ run'.maxRounds = run.maxRounds) ∨
      (s.gateRun.get runId = none ∧ 0 < run'.maxRounds) := by
  cases hbefore : s.gateRun.get runId with
  | some run =>
    obtain ⟨x, hx, hmax, -⟩ := run_of_advance h hbefore
    rw [hget] at hx
    cases hx
    exact .inl ⟨run, rfl, hmax⟩
  | none =>
    right
    refine ⟨rfl, ?_⟩
    cases h with
    | openedRun draft new hfree hbound =>
      have hcases := (s.gateRun.get_insert new runId).symm.trans hget
      rw [hbefore, Option.none_or] at hcases
      split at hcases
      · rw [← Option.some.inj hcases]
        exact hbound
      · cases hcases
    | runMoved _ movedId target read row hmove hrow hversion hnext =>
      have hcases := (s.gateRun.get_updateKey movedId runId _ (runStatePatch target)).symm.trans hget
      rw [hbefore] at hcases
      cases hcases
    | _ =>
      have hsome := hbefore.symm.trans hget
      cases hsome

/-! ## Calls that leave each other room -/

/-- The call is an `open_round` of the run that has counted and not inserted. -/
def Call.aboutToInsert (runId : String) : Call → Bool
  | ⟨.openRound draft, .roundsCounted⟩ => draft.runId == runId
  | _ => false

/-- The call is between its first read and its last write, and what it writes is a round of the
run. -/
def Call.worksAt (s : GateStore) (runId : String) : Call → Bool
  | ⟨.openRound draft, .runRead _⟩ => draft.runId == runId
  | ⟨.openRound draft, .roundsCounted⟩ => draft.runId == runId
  | ⟨command, .roundRead _⟩ | ⟨command, .reportSet _⟩ =>
    command.roundMove.any fun move => (s.gateRound.get move.1).any fun r => r.runId == runId
  | _ => false

theorem Call.worksAt_roundRead (s : GateStore) (runId : String) (command : Command)
    (read : GateRound) : Call.worksAt s runId ⟨command, .roundRead read⟩ =
      command.roundMove.any fun move => (s.gateRound.get move.1).any fun r => r.runId == runId := by
  cases command <;> rfl

instance (s : GateStore) (runId : String) : Decidable (RunClosed s runId) :=
  decidable_of_iff (∃ run ∈ s.gateRun.get runId,
    run.state = .closedYes ∨ run.state = .closedNo ∨ run.state = .abandoned) Iff.rfl

/-- What the next store call of a call finds of the others: an `open_round` that finds room finds
room for those about to insert too; no call works at a run that is being closed or abandoned; and
the round a command takes up is none of a run that is closed or abandoned. -/
def Call.LeavesRoom (v : Service) : Call → Prop
  | ⟨.openRound draft, .runRead run⟩ =>
    ((liveRounds v.store draft.runId).length : Int) < run.maxRounds →
      ((liveRounds v.store draft.runId).length +
        v.calls.countP (Call.aboutToInsert draft.runId) : Int) < run.maxRounds
  | ⟨command, .runRead _⟩ =>
    ∀ move ∈ command.runMove, ∀ call ∈ v.calls, call.worksAt v.store move.1 = false
  | ⟨command, .started⟩ =>
    ∀ move ∈ command.roundMove, ∀ r ∈ v.store.gateRound.get move.1, ¬ RunClosed v.store r.runId
  | _ => True

instance (v : Service) : DecidablePred (Call.LeavesRoom v)
  | ⟨command, progress⟩ => by
    cases command <;> cases progress <;> unfold Call.LeavesRoom <;> infer_instance

/-- The call that goes on leaves the others room. -/
def LeavesRoom (v : Service) : Event → Prop
  | .call _ => True
  | .resume n _ _ => ∀ call ∈ v.calls[n]?, call.LeavesRoom v

instance (v : Service) : DecidablePred (LeavesRoom v)
  | .call _ => inferInstanceAs (Decidable True)
  | .resume n _ _ => inferInstanceAs (Decidable (∀ call ∈ v.calls[n]?, call.LeavesRoom v))

theorem LeavesRoom.closes {n : Nat} {now : Int} {read : GateRun} {target : RunState}
    (h : LeavesRoom v (.resume n newUlid now)) (hcall : CallAt v n command (.runRead read))
    (hmove : command.runMove = some (runId, target)) :
    ∀ call ∈ v.calls, call.worksAt v.store runId = false := by
  have hleaves := h _ hcall
  cases command with
  | abandonRun | closeRun => exact hleaves _ hmove
  | _ => cases hmove

theorem LeavesRoom.begins {n : Nat} {now : Int} {target : RoundState}
    (h : LeavesRoom v (.resume n newUlid now)) (hcall : CallAt v n command .started)
    (hmove : command.roundMove = some (i, target)) (hget : v.store.gateRound.get i = some r) :
    ¬ RunClosed v.store r.runId := by
  have hleaves := h _ hcall
  cases command with
  | freezeReviewSnapshot | beginAdjudication | settleAdjudication => exact hleaves _ hmove r hget
  | _ => cases hmove

/-- What the calls of a run know of its state and its bound. -/
structure Roomy (v : Service) : Prop where
  exist : RunsExist v
  room : ∀ runId run, v.store.gateRun.get runId = some run →
    ((liveRounds v.store runId).length + v.calls.countP (Call.aboutToInsert runId) : Int) ≤
      run.maxRounds
  bound : ∀ n draft read, CallAt v n (.openRound draft) (.runRead read) →
    ∃ run, v.store.gateRun.get draft.runId = some run ∧ run.maxRounds = read.maxRounds
  working : ∀ call ∈ v.calls, ∀ runId, call.worksAt v.store runId = true →
    ¬ RunClosed v.store runId

/-! ### One step -/

/-- A call that changes changes a count by what it counted for. -/
theorem countP_set_call {calls : List Call} {n : Nat} {call : Call} (hcall : calls[n]? = some call)
    (p : Call → Bool) (new : Call) :
    (calls.set n new).countP p + (if p call then 1 else 0) =
      calls.countP p + if p new then 1 else 0 := by
  obtain ⟨hn, rfl⟩ := List.getElem?_eq_some_iff.mp hcall
  rw [List.countP_set hn]
  by_cases hp : p calls[n] = true
  · have hpos : 0 < calls.countP p := List.countP_pos_iff.mpr ⟨_, List.getElem_mem hn, hp⟩
    rw [if_pos hp]
    omega
  · rw [if_neg hp]
    omega

/-- A call works at a run that exists. -/
theorem RunsExist.isSome_of_worksAt (h : RunsExist v) {call : Call} (hmem : call ∈ v.calls)
    (hworks : call.worksAt v.store runId = true) : (v.store.gateRun.get runId).isSome = true := by
  obtain ⟨n, hn⟩ := List.getElem?_of_mem hmem
  unfold Call.worksAt at hworks
  split at hworks
  · next draft run =>
    obtain rfl := beq_iff_eq.mp hworks
    exact h.opening n draft _ hn (.inr ⟨run, rfl⟩)
  · next draft =>
    obtain rfl := beq_iff_eq.mp hworks
    exact h.opening n draft _ hn (.inl rfl)
  · obtain ⟨move, -, hround⟩ := (Option.any_eq_true _ _).mp hworks
    obtain ⟨r, hget, hrun⟩ := (Option.any_eq_true _ _).mp hround
    obtain rfl := beq_iff_eq.mp hrun
    exact h.rounds _ r hget
  · obtain ⟨move, -, hround⟩ := (Option.any_eq_true _ _).mp hworks
    obtain ⟨r, hget, hrun⟩ := (Option.any_eq_true _ _).mp hround
    obtain rfl := beq_iff_eq.mp hrun
    exact h.rounds _ r hget
  · cases hworks

/-- What a call works at after a store call it worked at before, or the round was inserted. -/
theorem worksAt_of_advance (h : Advance s newUlid command progress progress' s') {call : Call}
    (hworks : call.worksAt s' runId = true) :
    call.worksAt s runId = true ∨
      ∃ draft, command = .openRound draft ∧ progress = .roundsCounted ∧ draft.runId = runId := by
  have hround : ∀ i, (s'.gateRound.get i).any (fun r => r.runId == runId) = true →
      (s.gateRound.get i).any (fun r => r.runId == runId) = true ∨
        ∃ draft, command = .openRound draft ∧ progress = .roundsCounted ∧ draft.runId = runId := by
    intro i hany
    obtain ⟨r', hget', hrun⟩ := (Option.any_eq_true _ _).mp hany
    obtain ⟨r, hget, hstep⟩ | ⟨-, draft, now, hcommand, hprogress, -, rfl⟩ := round_cases h hget'
    · left
      rw [hstep.ofRun] at hrun
      rw [hget]
      exact hrun
    · exact .inr ⟨draft, hcommand, hprogress, beq_iff_eq.mp hrun⟩
  have hmoves : ∀ moving : Command, (moving.roundMove.any fun move =>
      (s'.gateRound.get move.1).any fun r => r.runId == runId) = true →
      (moving.roundMove.any fun move =>
        (s.gateRound.get move.1).any fun r => r.runId == runId) = true ∨
        ∃ draft, command = .openRound draft ∧ progress = .roundsCounted ∧ draft.runId = runId := by
    intro moving hany
    obtain ⟨move, hmove, hget⟩ := (Option.any_eq_true _ _).mp hany
    exact (hround move.1 hget).imp_left fun hold => (Option.any_eq_true _ _).mpr ⟨move, hmove, hold⟩
  unfold Call.worksAt at hworks ⊢
  split at hworks
  · exact .inl hworks
  · exact .inl hworks
  · exact hmoves _ hworks
  · exact hmoves _ hworks
  · cases hworks

/-- A store call closes no run that some call works at. -/
theorem not_runClosed_of_advance (h : Roomy v) {n : Nat} {now : Int}
    (hroom : LeavesRoom v (.resume n newUlid now)) (hcall : CallAt v n command progress)
    (hadvance : Advance v.store newUlid command progress progress' s') {call : Call}
    (hmem : call ∈ v.calls) (hworks : call.worksAt v.store runId = true) :
    ¬ RunClosed s' runId := by
  have hopen := h.working call hmem runId hworks
  obtain ⟨run, hget⟩ := Option.isSome_iff_exists.mp (h.exist.isSome_of_worksAt hmem hworks)
  rintro ⟨run', hget', hclosed⟩
  refine hopen ⟨run, hget, ?_⟩
  cases hadvance with
  | openedRun draft new hfree hbound =>
    have hcases := (v.store.gateRun.get_insert new runId).symm.trans hget'
    rw [hget, Option.some_or, Option.some.injEq] at hcases
    rwa [hcases]
  | runMoved _ movedId target read row hmove hrow hversion hnext =>
    have hnotWorks := hroom.closes hcall hmove call hmem
    have hne : runId ≠ movedId := by
      rintro rfl
      rw [hworks] at hnotWorks
      cases hnotWorks
    have hcases := (v.store.gateRun.get_updateKey movedId runId _ (runStatePatch target)).symm.trans
      hget'
    simp only [hget, Option.map_some, hne, false_and, if_false, Option.some.injEq] at hcases
    rwa [hcases]
  | _ =>
    cases hget.symm.trans hget'
    exact hclosed

/-- A run that is not there has no rounds, and no call is about to insert one. -/
theorem Roomy.absent (h : Roomy v) {runId : String} (hnone : v.store.gateRun.get runId = none) :
    v.store.gateRound.rows.countP (counts runId) = 0 ∧
      v.calls.countP (Call.aboutToInsert runId) = 0 ∧
      ∀ draft m progress, CallAt v m (.openRound draft) progress →
        progress = .roundsCounted ∨ (∃ run, progress = .runRead run) → draft.runId ≠ runId := by
  have hlive : v.store.gateRound.rows.countP (counts runId) = 0 := by
    rw [List.countP_eq_zero]
    intro r hr hcounts
    have hrun := h.exist.rounds _ r ((v.store.gateRound.mem_rows_iff r).mp hr)
    unfold counts at hcounts
    rw [Bool.and_eq_true, beq_iff_eq] at hcounts
    rw [hcounts.1, hnone] at hrun
    cases hrun
  have hopens : ∀ draft m progress, CallAt v m (.openRound draft) progress →
      progress = .roundsCounted ∨ (∃ run, progress = .runRead run) → draft.runId ≠ runId := by
    rintro draft m progress hcallm hopening rfl
    have hrun := h.exist.opening m draft progress hcallm hopening
    rw [hnone] at hrun
    cases hrun
  have hpending : v.calls.countP (Call.aboutToInsert runId) = 0 := by
    rw [List.countP_eq_zero]
    intro call hmem habout
    obtain ⟨m, hm⟩ := List.getElem?_of_mem hmem
    unfold Call.aboutToInsert at habout
    split at habout
    · exact hopens _ m _ hm (.inl rfl) (beq_iff_eq.mp habout)
    · cases habout
  exact ⟨hlive, hpending, hopens⟩

/-- A store call that leaves room keeps the room. -/
theorem Roomy.advanced (h : Roomy v) {n : Nat} {now : Int}
    (hroom : LeavesRoom v (.resume n newUlid now)) (hcall : CallAt v n command progress)
    (hadvance : Advance v.store newUlid command progress progress' s') :
    Roomy { store := s', calls := v.calls.set n ⟨command, progress'⟩ } where
  exist := h.exist.advanced hcall hadvance
  room := by
    intro runId run' hget'
    have hset := countP_set_call hcall (Call.aboutToInsert runId) ⟨command, progress'⟩
    rw [length_liveRounds]
    show ((s'.gateRound.rows.countP (counts runId) : Nat) : Int) +
      ((v.calls.set n ⟨command, progress'⟩).countP (Call.aboutToInsert runId) : Nat) ≤ _
    obtain ⟨run, hget, hmax⟩ | ⟨hnone, hpos⟩ := run_cases hadvance hget'
    · have hbefore := h.room runId run hget
      rw [length_liveRounds] at hbefore
      rw [hmax]
      have hlive := countP_of_advance runId hadvance
      cases hadvance with
      | counted draft read hcount =>
        by_cases hrun : draft.runId = runId
        · subst hrun
          have hroom' := hroom _ hcall (by exact_mod_cast hcount)
          obtain ⟨row, hrow, hread⟩ := h.bound n draft read hcall
          rw [hget] at hrow
          cases hrow
          rw [length_liveRounds] at hroom'
          simp only [Call.aboutToInsert, beq_self_eq_true, if_true, Bool.false_eq_true, if_false]
            at hset
          omega
        · simp only [Call.aboutToInsert, beq_eq_false_iff_ne.mpr hrun, Bool.false_eq_true, if_false]
            at hset
          omega
      | openedRound draft now' hfree =>
        by_cases hrun : draft.runId = runId
        · subst hrun
          simp only [Call.aboutToInsert, beq_self_eq_true, if_true, Bool.false_eq_true, if_false]
            at hset
          obtain hsame | ⟨-, -, -, -, -, hmore⟩ := hlive <;> omega
        · simp only [Call.aboutToInsert, beq_eq_false_iff_ne.mpr hrun, Bool.false_eq_true, if_false]
            at hset
          obtain hsame | ⟨draft', hdraft, -, -, hrun', -⟩ := hlive
          · omega
          · cases hdraft
            exact absurd hrun' hrun
      | _ =>
        simp only [Call.aboutToInsert, Bool.false_eq_true, if_false] at hset
        obtain hsame | ⟨_, -, hprogress, -⟩ := hlive
        · omega
        · cases hprogress
    · obtain ⟨hlive, hpending, hopens⟩ := h.absent hnone
      have hnew : Call.aboutToInsert runId ⟨command, progress'⟩ = false := by
        cases hadvance with
        | counted draft read hcount =>
          exact beq_eq_false_iff_ne.mpr (hopens draft n _ hcall (.inr ⟨read, rfl⟩))
        | roundRead | runRead | runMoved => cases command <;> rfl
        | _ => rfl
      rw [hnew, hpending] at hset
      obtain hsame | ⟨draft, rfl, rfl, -, hrun, -⟩ := countP_of_advance runId hadvance
      · simp only [Bool.false_eq_true, if_false] at hset
        omega
      · exact absurd hrun (hopens draft n _ hcall (.inl rfl))
  bound := by
    intro m draft read hcallm
    obtain ⟨-, rfl, rfl⟩ | ⟨-, hother⟩ := callAt_set hcallm
    · cases hadvance with
      | runOpen _ _ hget hopen => exact ⟨read, hget, rfl⟩
      | runRead _ _ _ _ hmove => cases hmove
    · obtain ⟨run, hget, hmax⟩ := h.bound m draft read hother
      obtain ⟨run', hget', hsame, -⟩ := run_of_advance hadvance hget
      exact ⟨run', hget', hsame.trans hmax⟩
  working := by
    intro call hmem runId hworks
    have hkept : ∀ call ∈ v.calls, call.worksAt v.store runId = true → ¬ RunClosed s' runId :=
      fun call hmem hworks => not_runClosed_of_advance h hroom hcall hadvance hmem hworks
    have hself : (⟨command, progress⟩ : Call) ∈ v.calls := List.mem_of_getElem? hcall
    obtain hbefore | ⟨draft, rfl, rfl, rfl⟩ := worksAt_of_advance hadvance hworks
    · obtain hold | rfl := List.mem_or_eq_of_mem_set hmem
      · exact hkept call hold hbefore
      · cases hadvance with
        | runOpen draft run hget hopen =>
          obtain rfl := beq_iff_eq.mp hworks
          rintro ⟨run', hget', hclosed⟩
          cases hget.symm.trans hget'
          simp [hopen] at hclosed
        | roundRead _ i target read hmove hget hnext =>
          rw [Call.worksAt_roundRead, hmove, Option.any_some, hget, Option.any_some,
            beq_iff_eq] at hworks
          rw [← hworks]
          exact hroom.begins hcall hmove hget
        | counted | stamped => exact hkept _ hself hbefore
        | runRead _ _ _ _ hmove | runMoved _ _ _ _ _ hmove =>
          cases command <;> first | exact absurd hworks Bool.false_ne_true | cases hmove
        | _ => cases hworks
    · exact hkept _ hself (beq_self_eq_true _)

theorem Roomy.exec (h : Roomy v) {event : Event} (hroom : LeavesRoom v event) :
    Roomy (v.exec event) := by
  have hmoves := moves_exec v event
  have hexist := h.exist.exec event
  generalize v.exec event = after at hmoves hexist
  cases hmoves with
  | idle => exact h
  | called command =>
    refine ⟨hexist, ?_, ?_, ?_⟩
    · intro runId run hget
      have hnone : Call.aboutToInsert runId ⟨command, .started⟩ = false := by
        cases command <;> rfl
      rw [List.countP_append, List.countP_singleton, hnone]
      exact h.room runId run hget
    · intro m draft read hcallm
      obtain hcallm | hnew := getElem?_append_eq_some hcallm
      · exact h.bound m draft read hcallm
      · cases hnew
    · intro call hmem runId hworks
      obtain hold | hnew := List.mem_append.mp hmem
      · exact h.working call hold runId hworks
      · obtain rfl := List.mem_singleton.mp hnew
        cases command <;> cases hworks
  | raised n newUlid now call e hcall hlive =>
    refine ⟨hexist, ?_, ?_, ?_⟩
    · intro runId run hget
      have hbefore := h.room runId run hget
      have hset := countP_set_call hcall (Call.aboutToInsert runId) ⟨call.command, .raised e⟩
      have hnone : Call.aboutToInsert runId ⟨call.command, .raised e⟩ = false := by
        cases call.command <;> rfl
      rw [hnone] at hset
      simp only [Bool.false_eq_true, if_false] at hset
      show ((liveRounds v.store runId).length : Int) + ((v.calls.set n _).countP _ : Nat) ≤ _
      omega
    · intro m draft read hcallm
      obtain ⟨-, hnew⟩ | ⟨-, hother⟩ := getElem?_set_eq_some hcallm
      · cases congrArg Call.progress hnew
      · exact h.bound m draft read hother
    · intro called hmem runId hworks
      obtain hold | rfl := List.mem_or_eq_of_mem_set hmem
      · exact h.working called hold runId hworks
      · cases hcommand : call.command <;> rw [hcommand] at hworks <;> cases hworks
  | advanced n newUlid now call progress store hcall hadvance =>
    exact h.advanced hroom hcall hadvance

theorem roomy_run {events : List Event}
    (h : StepsSatisfy Service.exec LeavesRoom Service.init events) :
    Roomy (run Service.exec Service.init events) := by
  refine run_invariant_of LeavesRoom Roomy (fun _ _ hroom hv => hv.exec hroom) Service.init ?_
    events h
  refine ⟨runsExist_run [], ?_, ?_, ?_⟩
  · intro runId run hget
    cases hget
  · intro n draft read hcall
    cases hcall
  · intro call hmem
    cases hmem

/-- No round is inserted under a closed run. -/
theorem Roomy.not_runClosed_of_inserted (h : Roomy v) {event : Event}
    (hnone : v.store.gateRound.get i = none)
    (hget : (v.exec event).store.gateRound.get i = some r') : ¬ RunClosed v.store r'.runId := by
  have hmoves := moves_exec v event
  generalize v.exec event = after at hmoves hget
  cases hmoves with
  | advanced n newUlid now call progress store hcall hadvance =>
    obtain ⟨command, before⟩ := call
    obtain ⟨draft, now', rfl, rfl, rfl, rfl⟩ := roundRow_of_advance hadvance hnone hget
    exact h.working _ (List.mem_of_getElem? hcall) _ (beq_self_eq_true _)
  | _ =>
    rw [hnone] at hget
    cases hget

/-- The rounds of a closed run stay in their state. -/
theorem Roomy.state_kept_of_closed (h : Roomy v) (event : Event)
    (hget : v.store.gateRound.get i = some r) (hclosed : RunClosed v.store r.runId) :
    ∃ r', (v.exec event).store.gateRound.get i = some r' ∧ r'.state = r.state ∧
      r'.runId = r.runId := by
  have hmoves := moves_exec v event
  generalize v.exec event = after at hmoves
  cases hmoves with
  | advanced n newUlid now call progress store hcall hadvance =>
    obtain ⟨command, before⟩ := call
    obtain ⟨r', hget', hstep⟩ := roundStep_of_advance hadvance hget
    refine ⟨r', hget', ?_, hstep.ofRun⟩
    have hworks : (⟨command, before⟩ : Call).worksAt v.store r.runId = true → False :=
      fun hworks => h.working _ (List.mem_of_getElem? hcall) _ hworks hclosed
    cases hstep with
    | kept | stamped => rfl
    | froze | began | settled =>
      refine (hworks ?_).elim
      simp [Call.worksAt, Command.roundMove, hget]
  | _ => exact ⟨r, hget, rfl, rfl⟩

/-! ## Every run -/

/-- The bounds of the runs in every state that the events lead to. -/
structure RunBounds (events : List Event) : Prop where
  /-- The rounds of a run that were not abandoned never exceed its bound. -/
  bounded : ∀ done rest, events = done ++ rest →
    Bounded (run Service.exec Service.init done).store
  /-- No round is inserted under a run that is closed or abandoned. -/
  inserted : ∀ done event rest, events = done ++ event :: rest →
    ∀ i r', (run Service.exec Service.init done).store.gateRound.get i = none →
      (run Service.exec Service.init (done ++ [event])).store.gateRound.get i = some r' →
      ¬ RunClosed (run Service.exec Service.init done).store r'.runId
  /-- Once a run is closed or abandoned, none of its rounds changes state. -/
  frozen : ∀ done later rest, events = done ++ later ++ rest →
    ∀ i r r', (run Service.exec Service.init done).store.gateRound.get i = some r →
      (run Service.exec Service.init (done ++ later)).store.gateRound.get i = some r' →
      RunClosed (run Service.exec Service.init done).store r.runId → r'.state = r.state

theorem frozen_run {events : List Event} (hv : Roomy v)
    (hroom : StepsSatisfy Service.exec LeavesRoom v events)
    (hget : v.store.gateRound.get i = some r) (hclosed : RunClosed v.store r.runId) :
    ∃ r', (run Service.exec v events).store.gateRound.get i = some r' ∧ r'.state = r.state := by
  have hkept : Roomy (run Service.exec v events) ∧
      ∃ r', (run Service.exec v events).store.gateRound.get i = some r' ∧
        r'.state = r.state ∧ RunClosed (run Service.exec v events).store r'.runId := by
    refine run_invariant_of LeavesRoom (fun v => Roomy v ∧ ∃ r', v.store.gateRound.get i = some r' ∧
      r'.state = r.state ∧ RunClosed v.store r'.runId) ?_ v ⟨hv, r, hget, rfl, hclosed⟩ events hroom
    rintro v event hstep ⟨hv, r₁, hget₁, hstate₁, hclosed₁⟩
    obtain ⟨r₂, hget₂, hstate₂, hrun₂⟩ := hv.state_kept_of_closed event hget₁ hclosed₁
    refine ⟨hv.exec hstep, r₂, hget₂, hstate₂.trans hstate₁, ?_⟩
    rw [hrun₂]
    exact hclosed₁.exec event
  obtain ⟨-, r', hget', hstate, -⟩ := hkept
  exact ⟨r', hget', hstate⟩

/-- In every interleaving in which the calls at a run leave each other room, its bounds hold. -/
theorem runBounds_of_leavesRoom {events : List Event}
    (h : StepsSatisfy Service.exec LeavesRoom Service.init events) : RunBounds events := by
  constructor
  · rintro done rest rfl runId row hget
    have hroom := (roomy_run ((stepsSatisfy_append _ _ _ _).mp h).1).room runId row hget
    omega
  · rintro done event rest rfl i r' hnone hget
    rw [run_concat] at hget
    exact (roomy_run ((stepsSatisfy_append _ _ _ _).mp h).1).not_runClosed_of_inserted hnone hget
  · rintro done later rest rfl i r r' hget hget' hclosed
    rw [stepsSatisfy_append, stepsSatisfy_append] at h
    rw [run_append] at hget'
    obtain ⟨x, hx, hstate⟩ := frozen_run (roomy_run h.1.1) h.1.2 hget hclosed
    rw [hget'] at hx
    cases hx
    exact hstate

/-- A run that may have one round. -/
def oneRoundRun : RunDraft :=
  { wp := "wp", lane := "lane", ownerConversation := "sup", ownerEpoch := 0, maxRounds := 1
    ownerConversation_ne := firstAsk.ownerConversation_ne }

theorem firstRound_version : (1 : Int) ≤ 1 := le_rfl

theorem firstRound_branch : "main" ≠ "" := by decide

theorem firstRound_worktree : "/w" ≠ "" := by decide

def firstRound : RoundDraft :=
  { runId := "run"
    buildInputs := { manifestVersion := 1, repoBindings := [], baseSha := "b", headSha := "h"
                     branch := "main", worktreePath := "/w", entries := [], blueprintSha := "p"
                     acListSha := "a", one_le_manifestVersion := firstRound_version
                     branch_ne := firstRound_branch, worktreePath_ne := firstRound_worktree }
    executionTarget := { host := "host" } }

/-- A round is opened, and the run is closed when it is over. -/
def openedAndClosed : List Event :=
  [.call (.openRun oneRoundRun), .resume 0 "run" 0, .call (.openRound firstRound),
    .resume 1 "" 1, .resume 1 "" 1, .resume 1 "r1" 2, .call (.closeRun "run" true),
    .resume 2 "" 3, .resume 2 "" 3]

/-- One round, and a run closed when it is over. -/
theorem runBounds_of_leavesRoom_openedAndClosed : RunBounds openedAndClosed :=
  runBounds_of_leavesRoom (by decide +kernel)

/-- Two callers open the one round of a run. -/
def racingOpens : List Event :=
  [.call (.openRun oneRoundRun), .resume 0 "run" 0,
    .call (.openRound firstRound), .call (.openRound firstRound),
    .resume 1 "" 1, .resume 1 "" 1, .resume 2 "" 1, .resume 2 "" 1,
    .resume 1 "r1" 2, .resume 2 "r2" 2]

/-- Two opens that both counted before either inserted. -/
theorem not_runBounds_racingOpens : ¬ RunBounds racingOpens := by
  intro h
  have hrow : ((run Service.exec Service.init racingOpens).store.gateRun.get "run").map
      GateRun.maxRounds = some 1 := by
    decide +kernel
  have hrounds : (run Service.exec Service.init racingOpens).store.gateRound.rows.countP
      (counts "run") = 2 := by
    decide +kernel
  obtain ⟨row, hget, hmax⟩ := Option.map_eq_some_iff.mp hrow
  have hbound := h.bounded racingOpens [] (by simp) "run" row hget
  rw [length_liveRounds, hrounds, hmax] at hbound
  exact absurd hbound (by decide)

end CliAgentOrchestrator.Gate
