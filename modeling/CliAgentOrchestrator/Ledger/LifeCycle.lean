import CliAgentOrchestrator.Ledger.Delivery

/-!
# The life cycle of a ledger row

Most of what the columns of a row promise holds in every run. Three promises depend on who calls
what: a terminal state is kept as long as nobody acknowledges such a row or mirrors another
status onto it, the count of emissions is right for a row that is older than its emissions, and
the hook gets no id twice as long as no carrier takes its success back.
-/

set_option autoImplicit false

namespace CliAgentOrchestrator.Ledger

open Library

variable {h : LedgerHistory} {db : DeliveryLedger} {r : LedgerRow} {m : Nat}

/-! ## The properties -/

/-- The successes that were recorded of a message, in order. -/
def LedgerHistory.successesOf (h : LedgerHistory) (messageId : Nat) : List Success :=
  h.successes.filter fun s => decide (s.messageId = messageId)

/-- Every applicable carrier has failed without retries left or was unavailable. -/
def Exhaustion.Complete (x : Exhaustion) : Prop :=
  ∀ carrier ∈ x.applicable, ∃ e ∈ x.emissions, e.carrier = carrier ∧
    (e.outcome = .failed ∧ x.maxAttempts ≤ e.attempts ∨ e.outcome = .carrierUnavailable)

structure LifeCycle (h : LedgerHistory) : Prop where
  oneEmission : ∀ e ∈ h.db.emissions.rows, ∀ e' ∈ h.db.emissions.rows,
    e.messageId = e'.messageId → e.carrier = e'.carrier → e = e'
  acked : ∀ r ∈ h.db.ledger.rows, r.state = .acked ↔ r.ackedAt.isSome
  final : ∀ x ∈ h.reached, ∃ r, h.db.ledger.get x.1 = some r ∧ r.state = x.2
  counted : ∀ r ∈ h.db.ledger.rows, r.emissionCount = (h.successesOf r.messageId).length ∧
    r.firstEmittedAt = (h.successesOf r.messageId).head?.map Success.recordedAt ∧
    r.firstCarrier = (h.successesOf r.messageId).head?.map Success.carrier
  blocked : ∀ r ∈ h.db.ledger.rows, r.blockedReason.isSome → r.state = .pending
  undeliverable : ∀ r ∈ h.db.ledger.rows,
    r.undeliverableReason.isSome ↔ r.state = .undeliverable
  exhausted : ∀ x ∈ h.exhaustions, x.Complete
  hookFresh : h.reprinted = []

/-- A message is acknowledged, and a status mirrored, only on rows that are not in another
terminal state. -/
def KeepsTerminal (h : LedgerHistory) : LedgerStep → Prop
  | .ack messageIds _ _ => ∀ r ∈ h.db.ledger.rows, r.messageId ∈ messageIds → r.ackedAt = none →
      r.state ∉ terminalLedgerStates
  | .writeThrough messageIds state => ∀ r ∈ h.db.ledger.rows, r.messageId ∈ messageIds →
      r.state ∈ terminalLedgerStates → r.state = .acked ∨ r.state = state.state
  | _ => True

/-- A row is created before a success of its message is recorded. -/
def CreatesFirst (h : LedgerHistory) : LedgerStep → Prop
  | .create messageId _ _ => h.db.ledger.get messageId = none →
      ∀ s ∈ h.successes, s.messageId ≠ messageId
  | _ => True

/-- The hook is not asked to claim an id that another carrier has carried, once the outcomes of
all other carriers read failed or wake-only. -/
def AsksFresh (h : LedgerHistory) : LedgerStep → Prop
  | .hookClaim messageIds _ => ∀ messageId ∈ messageIds,
      h.db.emissions.get (messageId, .hook) = none →
      (∀ e ∈ h.db.emissions.rows, e.messageId = messageId → e.carrier ≠ .hook →
        e.outcome ∈ nonMuting) →
      ∀ s ∈ h.successes, s.messageId = messageId → s.carrier = .hook
  | _ => True

structure Orderly (h : LedgerHistory) (a : LedgerStep) : Prop where
  keepsTerminal : KeepsTerminal h a
  createsFirst : CreatesFirst h a
  asksFresh : AsksFresh h a

/-! ## Rows -/

/-- The columns of a row agree. -/
structure RowKept (r : LedgerRow) : Prop where
  acked : r.state = .acked ↔ r.ackedAt.isSome
  notSuppressed : r.state ≠ .suppressed
  blocked : r.blockedReason.isSome → r.state = .pending
  reason : r.state = .undeliverable → r.undeliverableReason.isSome

theorem rowKept_fresh (messageId : Nat) (receiverId : String) (carriers : List Carrier) :
    RowKept (.fresh messageId receiverId carriers) :=
  ⟨by simp [LedgerRow.fresh], by simp [LedgerRow.fresh], by simp [LedgerRow.fresh],
    by simp [LedgerRow.fresh]⟩

/-- What an emission changes of a row. -/
theorem emit_cases (r : LedgerRow) (carrier : Carrier) (now : Nat) :
    (r.emit carrier now).ackedAt = r.ackedAt ∧
      (r.emit carrier now).undeliverableReason = r.undeliverableReason ∧
      (r.emit carrier now).messageId = r.messageId ∧
      (r.state = .pending ∧ (r.emit carrier now).state = .emitted ∧
          (r.emit carrier now).blockedReason = none ∨
        r.state ≠ .pending ∧ (r.emit carrier now).state = r.state ∧
          (r.emit carrier now).blockedReason = r.blockedReason) := by
  unfold LedgerRow.emit
  by_cases hfirst : r.firstEmittedAt = none <;> by_cases hpending : r.state = .pending <;>
    simp [hfirst, hpending]

theorem RowKept.emit (hr : RowKept r) (carrier : Carrier) (now : Nat) :
    RowKept (r.emit carrier now) := by
  obtain ⟨hacked, hreason, -, ⟨hpending, hstate, hblocked⟩ | ⟨hpending, hstate, hblocked⟩⟩ :=
    emit_cases r carrier now
  · have hopen := hr.acked.not.mp (by rw [hpending]; decide)
    refine ⟨?_, ?_, ?_, ?_⟩
    · rw [hstate, hacked]
      exact iff_of_false (by decide) hopen
    · rw [hstate]
      decide
    · rw [hblocked]
      intro hnone
      cases hnone
    · rw [hstate]
      intro hgone
      cases hgone
  · refine ⟨?_, ?_, ?_, ?_⟩
    · rw [hstate, hacked]
      exact hr.acked
    · rw [hstate]
      exact hr.notSuppressed
    · rw [hblocked, hstate]
      exact hr.blocked
    · rw [hstate, hreason]
      exact hr.reason

theorem RowKept.exhaust (hr : RowKept r) (hopen : r.state ≠ .acked) : RowKept r.exhaust := by
  have hunacked := hr.acked.not.mp hopen
  exact ⟨by simpa [LedgerRow.exhaust] using hunacked, by simp [LedgerRow.exhaust],
    by simp [LedgerRow.exhaust], by simp [LedgerRow.exhaust]⟩

theorem RowKept.ack (hr : RowKept r) (actor : AckActor) (now : Nat) : RowKept (r.ack actor now) := by
  unfold LedgerRow.ack
  split
  · exact ⟨by simp, by simp, by simp, by simp⟩
  · exact hr

theorem RowKept.writeThrough (hr : RowKept r) (state : MirroredState) :
    RowKept (r.writeThrough state.state) := by
  unfold LedgerRow.writeThrough
  split
  · exact hr
  · next hopen =>
    have hunacked := hr.acked.not.mp hopen
    cases state with
    | _ => exact ⟨by simpa [MirroredState.state] using hunacked, by simp [MirroredState.state],
        by simp, by simp [MirroredState.state]⟩

theorem RowKept.block (hr : RowKept r) (now : Nat) : RowKept (r.block now) := by
  unfold LedgerRow.block
  split
  · exact hr
  · next hpending =>
    rw [not_not] at hpending
    split
    · exact ⟨hr.acked, hr.notSuppressed, fun _ => hpending, hr.reason⟩
    · exact hr

theorem RowKept.receiverGone (hr : RowKept r) (receiverId : String) :
    RowKept (r.receiverGone receiverId) := by
  unfold LedgerRow.receiverGone
  split
  · next hgone =>
    have hopen : r.state ≠ .acked := by
      obtain ⟨-, hpending | hemitted⟩ := hgone
      · rw [hpending]; decide
      · rw [hemitted]; decide
    have hunacked := hr.acked.not.mp hopen
    exact ⟨by simpa using hunacked, by simp, by simp, by simp⟩
  · exact hr

/-! ## What a step does to a row -/

/-- A row after a step that does not create it. -/
def LedgerStep.rowAfter (db : DeliveryLedger) (r : LedgerRow) : LedgerStep → LedgerRow
  | .create messageId _ carriers =>
    if r.messageId = messageId then { r with applicableCarriers := carriers } else r
  | .record messageId carrier outcome now =>
    if r.messageId = messageId ∧ (db.emissions.get (messageId, carrier)).isSome ∧
        outcome = .succeeded then
      r.emit carrier now
    else r
  | .maybeUndeliverable messageId maxAttempts =>
    if r.messageId = messageId ∧ exhausts db r maxAttempts = true then r.exhaust else r
  | .ack messageIds actor now => if r.messageId ∈ messageIds then r.ack actor now else r
  | .writeThrough messageIds state =>
    if r.messageId ∈ messageIds then r.writeThrough state.state else r
  | .receiverGone receiverId => r.receiverGone receiverId
  | .blocked messageId now => if r.messageId = messageId then r.block now else r
  | _ => r

/-- The row that a step creates. -/
def LedgerStep.created : LedgerStep → Option LedgerRow
  | .create messageId receiverId carriers => some (.fresh messageId receiverId carriers)
  | _ => none

theorem ack_messageId (r : LedgerRow) (actor : AckActor) (now : Nat) :
    (r.ack actor now).messageId = r.messageId := by
  unfold LedgerRow.ack
  split <;> rfl

theorem writeThrough_messageId (r : LedgerRow) (state : LedgerState) :
    (r.writeThrough state).messageId = r.messageId := by
  unfold LedgerRow.writeThrough
  split <;> rfl

theorem block_messageId (r : LedgerRow) (now : Nat) : (r.block now).messageId = r.messageId := by
  unfold LedgerRow.block
  split
  · rfl
  · split <;> rfl

theorem receiverGone_messageId (r : LedgerRow) (receiverId : String) :
    (r.receiverGone receiverId).messageId = r.messageId := by
  unfold LedgerRow.receiverGone
  split <;> rfl

theorem rowAfter_messageId (db : DeliveryLedger) (r : LedgerRow) (a : LedgerStep) :
    (a.rowAfter db r).messageId = r.messageId := by
  cases a with
  | create | maybeUndeliverable => simp only [LedgerStep.rowAfter]; split <;> rfl
  | record messageId carrier outcome now =>
    simp only [LedgerStep.rowAfter]
    split
    · exact (emit_cases r carrier now).2.2.1
    · rfl
  | ack _ actor now =>
    simp only [LedgerStep.rowAfter]
    split
    · exact ack_messageId r actor now
    · rfl
  | writeThrough _ state =>
    simp only [LedgerStep.rowAfter]
    split
    · exact writeThrough_messageId r state.state
    · rfl
  | receiverGone receiverId => exact receiverGone_messageId r receiverId
  | blocked _ now =>
    simp only [LedgerStep.rowAfter]
    split
    · exact block_messageId r now
    · rfl
  | _ => rfl

theorem hookClaimFrom_ledger (already : List Nat) (now : Nat) (db : DeliveryLedger)
    (ids : List Nat) : (hookClaimFrom already now db ids).2.ledger = db.ledger := by
  induction ids generalizing db with
  | nil => rfl
  | cons id rest ih =>
    unfold hookClaimFrom
    split
    · exact ih db
    · unfold claimEmission
      split
      · next heq =>
        split at heq
        · obtain rfl := (Prod.mk.inj heq).2
          exact ih _
        · cases heq
      · next heq =>
        split at heq
        · cases heq
        · obtain rfl := (Prod.mk.inj heq).2
          exact ih _

theorem patched {f : LedgerRow → LedgerRow} (hf : ∀ r, (f r).messageId = r.messageId)
    (r : LedgerRow) : (LedgerRow.patch f).apply r = f r := by
  show { f r with messageId := r.messageId } = f r
  rw [← hf r]

theorem get_update_patch {f : LedgerRow → LedgerRow} (hf : ∀ r, (f r).messageId = r.messageId)
    (t : Table LedgerRow.messageId) (p : LedgerRow → Bool) (k : Nat) :
    (t.update p (LedgerRow.patch f)).get k =
      (t.get k).map fun r => if p r = true then f r else r := by
  simp only [Table.get_update, patched hf]

theorem get_updateKey_patch {f : LedgerRow → LedgerRow}
    (hf : ∀ r, (f r).messageId = r.messageId) (t : Table LedgerRow.messageId) (m : Nat)
    (p : LedgerRow → Bool) (k : Nat) :
    (t.updateKey m p (LedgerRow.patch f)).get k =
      (t.get k).map fun r => if r.messageId = m ∧ p r = true then f r else r := by
  unfold Table.updateKey
  rw [get_update_patch hf]
  simp only [Bool.and_eq_true, decide_eq_true_eq]

/-- The rows after a step: each is a row before it, changed, or the one that it creates. -/
theorem get_dbAfter (db : DeliveryLedger) (a : LedgerStep) (k : Nat) :
    (LedgerHistory.dbAfter db a).ledger.get k =
      ((db.ledger.get k).map fun r => a.rowAfter db r).or
        (a.created.filter fun r => decide (r.messageId = k)) := by
  cases a with
  | create messageId receiverId carriers =>
    simp only [LedgerHistory.dbAfter, createDeliveryLedgerRow, LedgerStep.rowAfter,
      LedgerStep.created, Table.get_upsert]
    have hkey : (LedgerRow.fresh messageId receiverId carriers).messageId = messageId := rfl
    by_cases hk : k = messageId
    · subst hk
      cases hrow : db.ledger.get k with
      | none => simp [hkey, Option.filter]
      | some r => simp [hkey, Table.key_of_get hrow, LedgerRow.patch]
    · have hne : ¬ messageId = k := fun heq => hk heq.symm
      cases hrow : db.ledger.get k with
      | none => simp [hkey, hk, hne, Option.filter]
      | some r => simp [hkey, hk, Table.key_of_get hrow]
  | record messageId carrier outcome now =>
    simp only [LedgerHistory.dbAfter, recordEmissionOutcome, LedgerStep.rowAfter,
      LedgerStep.created, Option.filter_none, Option.or_none]
    by_cases hclaim : (db.emissions.get (messageId, carrier)).isSome <;>
      by_cases houtcome : outcome = .succeeded
    · simp only [hclaim, houtcome, if_true, get_updateKey_patch fun r =>
        (emit_cases r carrier now).2.2.1, and_true]
    all_goals simp [hclaim, houtcome]
  | maybeUndeliverable messageId maxAttempts =>
    simp only [LedgerHistory.dbAfter, maybeMarkUndeliverable, LedgerStep.rowAfter,
      LedgerStep.created, Option.filter_none, Option.or_none]
    have hexhaust (r : LedgerRow) : r.exhaust.messageId = r.messageId := rfl
    exact get_updateKey_patch hexhaust _ _ _ _
  | ack messageIds actor now =>
    simp only [LedgerHistory.dbAfter, ackDeliveryLedger, LedgerStep.rowAfter,
      LedgerStep.created, Option.filter_none, Option.or_none,
      get_update_patch fun r => ack_messageId r actor now, decide_eq_true_eq]
  | writeThrough messageIds state =>
    simp only [LedgerHistory.dbAfter, writeThroughTerminalState, LedgerStep.rowAfter,
      LedgerStep.created, Option.filter_none, Option.or_none,
      get_update_patch fun r => writeThrough_messageId r state.state, decide_eq_true_eq]
  | receiverGone receiverId =>
    simp only [LedgerHistory.dbAfter, markReceiverGone, LedgerStep.rowAfter,
      LedgerStep.created, Option.filter_none, Option.or_none,
      get_update_patch fun r => receiverGone_messageId r receiverId, if_true]
  | blocked messageId now =>
    simp only [LedgerHistory.dbAfter, recordBlockedAwaitingIdle, LedgerStep.rowAfter,
      LedgerStep.created, Option.filter_none, Option.or_none,
      get_updateKey_patch fun r => block_messageId r now, and_true]
  | claim messageId carrier now =>
    simp only [LedgerHistory.dbAfter, claimEmission, LedgerStep.rowAfter,
      LedgerStep.created, Option.filter_none, Option.or_none, Option.map_id']
    split <;> rfl
  | unavailable messageId carrier now =>
    simp only [LedgerHistory.dbAfter, markCarrierUnavailable, claimEmission, LedgerStep.rowAfter,
      LedgerStep.created, Option.filter_none, Option.or_none, Option.map_id']
    split <;> rfl
  | hookClaim messageIds now =>
    simp only [LedgerHistory.dbAfter, hookClaimIds, hookClaimFrom_ledger, LedgerStep.rowAfter,
      LedgerStep.created, Option.filter_none, Option.or_none, Option.map_id']

/-- A row after a step was there before, or is the one that the step creates. -/
theorem mem_dbAfter {a : LedgerStep} {r' : LedgerRow}
    (hr' : r' ∈ (LedgerHistory.dbAfter db a).ledger.rows) :
    (∃ r ∈ db.ledger.rows, r' = a.rowAfter db r) ∨
      a.created = some r' ∧ db.ledger.get r'.messageId = none := by
  rw [Table.mem_rows_iff, get_dbAfter, Option.or_eq_some_iff] at hr'
  obtain hold | ⟨hnone, hnew⟩ := hr'
  · obtain ⟨r, hr, rfl⟩ := Option.map_eq_some_iff.mp hold
    exact .inl ⟨r, Table.mem_of_get hr, rfl⟩
  · exact .inr ⟨(Option.filter_eq_some_iff.mp hnew).1, Option.map_eq_none_iff.mp hnone⟩

theorem get_dbAfter_of_mem {a : LedgerStep} (hr : r ∈ db.ledger.rows) :
    (LedgerHistory.dbAfter db a).ledger.get r.messageId = some (a.rowAfter db r) := by
  rw [get_dbAfter, (Table.mem_rows_iff _ _).mp hr]
  rfl

theorem rowKept_rowAfter (db : DeliveryLedger) (a : LedgerStep) (hr : RowKept r) :
    RowKept (a.rowAfter db r) := by
  cases a with
  | create messageId receiverId carriers =>
    simp only [LedgerStep.rowAfter]
    split
    · exact ⟨hr.acked, hr.notSuppressed, hr.blocked, hr.reason⟩
    · exact hr
  | record messageId carrier outcome now =>
    simp only [LedgerStep.rowAfter]
    split
    · exact hr.emit carrier now
    · exact hr
  | maybeUndeliverable messageId maxAttempts =>
    simp only [LedgerStep.rowAfter]
    split
    · next hexhausts =>
      refine hr.exhaust fun hacked => ?_
      simp [exhausts, hacked] at hexhausts
    · exact hr
  | ack messageIds actor now =>
    simp only [LedgerStep.rowAfter]
    split
    · exact hr.ack actor now
    · exact hr
  | writeThrough messageIds state =>
    simp only [LedgerStep.rowAfter]
    split
    · exact hr.writeThrough state
    · exact hr
  | receiverGone receiverId => exact hr.receiverGone receiverId
  | blocked messageId now =>
    simp only [LedgerStep.rowAfter]
    split
    · exact hr.block now
    · exact hr
  | _ => exact hr

/-- A reason is written with the state it belongs to. -/
theorem rowAfter_reason (db : DeliveryLedger) (a : LedgerStep)
    (hreason : (a.rowAfter db r).undeliverableReason.isSome) :
    r.undeliverableReason.isSome ∨ (a.rowAfter db r).state = .undeliverable := by
  cases a with
  | create messageId receiverId carriers =>
    simp only [LedgerStep.rowAfter] at hreason
    split at hreason <;> exact .inl hreason
  | record messageId carrier outcome now =>
    simp only [LedgerStep.rowAfter] at hreason
    split at hreason
    · rw [(emit_cases r carrier now).2.1] at hreason
      exact .inl hreason
    · exact .inl hreason
  | maybeUndeliverable messageId maxAttempts =>
    simp only [LedgerStep.rowAfter] at hreason ⊢
    split at hreason
    · next hexhausts => exact .inr (by rw [if_pos hexhausts]; rfl)
    · exact .inl hreason
  | ack messageIds actor now =>
    simp only [LedgerStep.rowAfter, LedgerRow.ack] at hreason
    split at hreason
    · split at hreason <;> exact .inl hreason
    · exact .inl hreason
  | writeThrough messageIds state =>
    simp only [LedgerStep.rowAfter, LedgerRow.writeThrough] at hreason
    split at hreason
    · split at hreason <;> exact .inl hreason
    · exact .inl hreason
  | receiverGone receiverId =>
    simp only [LedgerStep.rowAfter, LedgerRow.receiverGone] at hreason ⊢
    split at hreason
    · next hgone => exact .inr (by rw [if_pos hgone])
    · exact .inl hreason
  | blocked messageId now =>
    simp only [LedgerStep.rowAfter, LedgerRow.block] at hreason
    split at hreason
    · split at hreason
      · exact .inl hreason
      · split at hreason <;> exact .inl hreason
    · exact .inl hreason
  | _ => exact .inl hreason

/-! ## What every run keeps -/

structure Kept (h : LedgerHistory) : Prop where
  rows : ∀ r ∈ h.db.ledger.rows, RowKept r
  reasons : ∀ r ∈ h.db.ledger.rows, r.undeliverableReason.isSome →
    (r.messageId, .undeliverable) ∈ h.reached
  terminal : ∀ r ∈ h.db.ledger.rows, r.state ∈ terminalLedgerStates →
    (r.messageId, r.state) ∈ h.reached
  reached : ∀ x ∈ h.reached, x.2 ∈ terminalLedgerStates
  exhausted : ∀ x ∈ h.exhaustions, x.Complete

theorem mem_terminals {x : Nat × LedgerState} : x ∈ LedgerHistory.terminals db ↔
    ∃ r ∈ db.ledger.rows, r.state ∈ terminalLedgerStates ∧ x = (r.messageId, r.state) := by
  unfold LedgerHistory.terminals Table.select
  rw [List.mem_map]
  constructor
  · rintro ⟨r, hr, rfl⟩
    rw [List.mem_filter, List.contains_iff_mem] at hr
    exact ⟨r, hr.1, hr.2, rfl⟩
  · rintro ⟨r, hr, hstate, rfl⟩
    refine ⟨r, ?_, rfl⟩
    rw [List.mem_filter, List.contains_iff_mem]
    exact ⟨hr, hstate⟩

/-- The transition is due only for a row all of whose carriers are done. -/
theorem complete_of_exhausts {maxAttempts : Nat} (hx : exhausts db r maxAttempts = true) :
    Exhaustion.Complete ⟨r.applicableCarriers,
      db.emissions.select fun e => decide (e.messageId = r.messageId), maxAttempts⟩ := by
  intro carrier hcarrier
  simp only [exhausts, Bool.and_eq_true, carriersExhausted] at hx
  have hall := hx.2
  split at hall
  · cases hall
  · rw [List.all_eq_true] at hall
    obtain ⟨view, hlast, hdone⟩ := Option.any_eq_true _ _ |>.mp (hall carrier hcarrier)
    have hview := List.mem_of_getLast? hlast
    rw [List.mem_filter, decide_eq_true_eq] at hview
    obtain ⟨e, he, rfl⟩ := List.mem_map.mp hview.1
    refine ⟨e, he, hview.2, ?_⟩
    simp only [isCarrierExhausted, List.contains_cons, List.contains_nil, Bool.or_false,
      Bool.and_eq_true, Bool.or_eq_true, beq_iff_eq, Bool.not_eq_true', decide_eq_false_iff_not,
      not_and, not_lt] at hdone
    obtain ⟨hfailed | hunavailable, hretry⟩ := hdone
    · exact .inl ⟨hfailed, hretry hfailed⟩
    · exact .inr hunavailable

theorem complete_of_mem_exhaustion {a : LedgerStep} {x : Exhaustion}
    (hx : x ∈ LedgerHistory.exhaustion db a) : x.Complete := by
  cases a with
  | maybeUndeliverable messageId maxAttempts =>
    simp only [LedgerHistory.exhaustion] at hx
    split at hx
    · next r hr =>
      split at hx
      · next hexhausts =>
        obtain rfl := List.mem_singleton.mp hx
        rw [← Table.key_of_get hr]
        exact complete_of_exhausts hexhausts
      · cases hx
    · cases hx
  | _ => cases hx

theorem Kept.exec (hk : Kept h) (a : LedgerStep) : Kept (h.exec a) where
  rows := by
    intro r' hr'
    obtain ⟨r, hr, rfl⟩ | ⟨hcreated, -⟩ := mem_dbAfter hr'
    · exact rowKept_rowAfter h.db a (hk.rows r hr)
    · cases a with
      | create messageId receiverId carriers =>
        cases hcreated
        exact rowKept_fresh _ _ _
      | _ => cases hcreated
  reasons := by
    intro r' hr' hreason
    obtain ⟨r, hr, rfl⟩ | ⟨hcreated, -⟩ := mem_dbAfter hr'
    · obtain hbefore | hstate := rowAfter_reason h.db a hreason
      · rw [rowAfter_messageId]
        exact List.mem_append_left _ (hk.reasons r hr hbefore)
      · refine List.mem_append_right _ (mem_terminals.mpr ⟨_, hr', ?_, by rw [hstate]⟩)
        rw [hstate]
        decide
    · cases a with
      | create messageId receiverId carriers =>
        cases hcreated
        cases hreason
      | _ => cases hcreated
  terminal := by
    intro r' hr' hstate
    exact List.mem_append_right _ (mem_terminals.mpr ⟨r', hr', hstate, rfl⟩)
  reached := by
    intro x hx
    obtain hbefore | hnow := List.mem_append.mp hx
    · exact hk.reached x hbefore
    · obtain ⟨r, -, hstate, rfl⟩ := mem_terminals.mp hnow
      exact hstate
  exhausted := by
    intro x hx
    obtain hbefore | hnow := List.mem_append.mp hx
    · exact hk.exhausted x hbefore
    · exact complete_of_mem_exhaustion hnow

/-! ## Terminal states -/

def Final (h : LedgerHistory) : Prop :=
  ∀ x ∈ h.reached, ∃ r, h.db.ledger.get x.1 = some r ∧ r.state = x.2

/-- Terminal states are kept in a history exactly when the step leaves every terminal row in its
state. -/
theorem final_exec_iff (hk : Kept h) (hf : Final h) (a : LedgerStep) :
    Final (h.exec a) ↔ ∀ r ∈ h.db.ledger.rows, r.state ∈ terminalLedgerStates →
      (a.rowAfter h.db r).state = r.state := by
  constructor
  · intro hfinal r hr hstate
    obtain ⟨r', hr', hsame⟩ :=
      hfinal (r.messageId, r.state) (List.mem_append_left _ (hk.terminal r hr hstate))
    have hget := get_dbAfter_of_mem (a := a) hr
    rw [← Option.some.inj (hget.symm.trans hr')] at hsame
    exact hsame
  · intro hkeeps x hx
    obtain hbefore | hnow := List.mem_append.mp hx
    · obtain ⟨r, hget, hstate⟩ := hf x hbefore
      obtain ⟨hr, hid⟩ := (Table.get_eq_some_iff _ _ _).mp hget
      have hterminal : r.state ∈ terminalLedgerStates := hstate ▸ hk.reached x hbefore
      refine ⟨a.rowAfter h.db r, ?_, (hkeeps r hr hterminal).trans hstate⟩
      rw [← hid]
      exact get_dbAfter_of_mem hr
    · obtain ⟨r, hr, -, rfl⟩ := mem_terminals.mp hnow
      exact ⟨r, (Table.mem_rows_iff _ _).mp hr, rfl⟩

theorem terminal_not_open (hstate : r.state ∈ terminalLedgerStates) :
    r.state ≠ .pending ∧ r.state ≠ .emitted := by
  constructor
  · intro heq
    rw [heq] at hstate
    exact absurd hstate (by decide)
  · intro heq
    rw [heq] at hstate
    exact absurd hstate (by decide)

/-- A terminal row keeps its state through every step but an acknowledgement and a mirrored
status. -/
theorem keeps_iff (hk : Kept h) (a : LedgerStep) :
    (∀ r ∈ h.db.ledger.rows, r.state ∈ terminalLedgerStates →
      (a.rowAfter h.db r).state = r.state) ↔ KeepsTerminal h a := by
  cases a with
  | create messageId receiverId carriers =>
    refine iff_of_true (fun r _ _ => ?_) trivial
    simp only [LedgerStep.rowAfter]
    split <;> rfl
  | record messageId carrier outcome now =>
    refine iff_of_true (fun r _ hstate => ?_) trivial
    simp only [LedgerStep.rowAfter]
    split
    · obtain ⟨hpending, -, -⟩ | ⟨-, hsame, -⟩ := (emit_cases r carrier now).2.2.2
      · exact ((terminal_not_open hstate).1 hpending).elim
      · exact hsame
    · rfl
  | maybeUndeliverable messageId maxAttempts =>
    refine iff_of_true (fun r hr hstate => ?_) trivial
    simp only [LedgerStep.rowAfter]
    split
    · next hexhausts =>
      -- of the terminal states only `suppressed` is missing from the guard
      have hsuppressed := (hk.rows r hr).notSuppressed
      cases hcase : r.state <;> simp_all [exhausts, terminalLedgerStates]
    · rfl
  | ack messageIds actor now =>
    constructor
    · intro hkeeps r hr hid hopen hstate
      have hsame := hkeeps r hr hstate
      simp only [LedgerStep.rowAfter, LedgerRow.ack, if_pos hid, if_pos hopen] at hsame
      have hacked := (hk.rows r hr).acked.mp hsame.symm
      rw [hopen] at hacked
      cases hacked
    · intro hopen r hr hstate
      simp only [LedgerStep.rowAfter, LedgerRow.ack]
      split
      · next hid =>
        split
        · next hunacked => exact (hopen r hr hid hunacked hstate).elim
        · rfl
      · rfl
  | writeThrough messageIds state =>
    constructor
    · intro hkeeps r hr hid hstate
      have hsame := hkeeps r hr hstate
      simp only [LedgerStep.rowAfter, LedgerRow.writeThrough, if_pos hid] at hsame
      split at hsame
      · next hacked => exact .inl hacked
      · exact .inr hsame.symm
    · intro hmirror r hr hstate
      simp only [LedgerStep.rowAfter, LedgerRow.writeThrough]
      split
      · next hid =>
        split
        · rfl
        · next hopen => exact ((hmirror r hr hid hstate).resolve_left hopen).symm
      · rfl
  | receiverGone receiverId =>
    refine iff_of_true (fun r _ hstate => ?_) trivial
    have hopen := terminal_not_open hstate
    simp [LedgerStep.rowAfter, LedgerRow.receiverGone, hopen.1, hopen.2]
  | blocked messageId now =>
    refine iff_of_true (fun r _ hstate => ?_) trivial
    simp only [LedgerStep.rowAfter, LedgerRow.block, if_pos (terminal_not_open hstate).1, ite_self]
  | _ => exact iff_of_true (fun _ _ _ => rfl) trivial

/-! ## Emissions -/

/-- The columns that count emissions, for the successes given. -/
def RowCounts (r : LedgerRow) (successes : List Success) : Prop :=
  r.emissionCount = successes.length ∧
    r.firstEmittedAt = successes.head?.map Success.recordedAt ∧
    r.firstCarrier = successes.head?.map Success.carrier

def Counted (h : LedgerHistory) : Prop :=
  ∀ r ∈ h.db.ledger.rows, RowCounts r (h.successesOf r.messageId)

theorem RowCounts.emit {successes : List Success} (hc : RowCounts r successes)
    (carrier : Carrier) (now : Nat) :
    RowCounts (r.emit carrier now) (successes ++ [⟨r.messageId, carrier, now⟩]) := by
  obtain ⟨hcount, hat, hcarrier⟩ := hc
  unfold LedgerRow.emit RowCounts
  cases successes with
  | nil =>
    have hnone : r.firstEmittedAt = none := hat
    by_cases hpending : r.state = .pending <;> simp [hnone, hpending, hcount]
  | cons first rest =>
    have hsome : r.firstEmittedAt = some first.recordedAt := hat
    by_cases hpending : r.state = .pending <;>
      simp [hsome, hpending, hcount, hcarrier]

theorem successesOf_exec (h : LedgerHistory) (a : LedgerStep) (m : Nat) :
    (h.exec a).successesOf m = h.successesOf m ++
      (LedgerHistory.success h.db a).filter fun s => decide (s.messageId = m) := by
  simp [LedgerHistory.successesOf, LedgerHistory.exec]

/-- A row that was there before counts the step, whatever it is. -/
theorem rowCounts_rowAfter {a : LedgerStep} (hc : RowCounts r (h.successesOf r.messageId)) :
    RowCounts (a.rowAfter h.db r) ((h.exec a).successesOf r.messageId) := by
  rw [successesOf_exec]
  cases a with
  | record messageId carrier outcome now =>
    simp only [LedgerStep.rowAfter, LedgerHistory.success]
    by_cases hrecorded : (h.db.emissions.get (messageId, carrier)).isSome ∧ outcome = .succeeded
    · by_cases hid : r.messageId = messageId
      · subst hid
        simp only [hrecorded, and_self, if_true, List.filter_cons, decide_true, List.filter_nil]
        exact hc.emit carrier now
      · have hne : ¬ messageId = r.messageId := fun heq => hid heq.symm
        simpa [hrecorded, hid, hne] using hc
    · rw [if_neg hrecorded, if_neg fun hand => hrecorded hand.2]
      simpa using hc
  | create | maybeUndeliverable =>
    simp only [LedgerStep.rowAfter, LedgerHistory.success, List.filter_nil, List.append_nil]
    split <;> exact hc
  | ack messageIds actor now =>
    simp only [LedgerStep.rowAfter, LedgerRow.ack, LedgerHistory.success, List.filter_nil,
      List.append_nil]
    split
    · split <;> exact hc
    · exact hc
  | writeThrough messageIds state =>
    simp only [LedgerStep.rowAfter, LedgerRow.writeThrough, LedgerHistory.success,
      List.filter_nil, List.append_nil]
    split
    · split <;> exact hc
    · exact hc
  | receiverGone receiverId =>
    simp only [LedgerStep.rowAfter, LedgerRow.receiverGone, LedgerHistory.success,
      List.filter_nil, List.append_nil]
    split <;> exact hc
  | blocked messageId now =>
    simp only [LedgerStep.rowAfter, LedgerRow.block, LedgerHistory.success, List.filter_nil,
      List.append_nil]
    split
    · split
      · exact hc
      · split <;> exact hc
    · exact hc
  | _ =>
    simpa [LedgerStep.rowAfter, LedgerHistory.success] using hc

/-- The count is right behind a step exactly when a row that it creates has no success to
count. -/
theorem counted_exec_iff (hc : Counted h) (a : LedgerStep) :
    Counted (h.exec a) ↔ CreatesFirst h a := by
  have hold (r : LedgerRow) (hr : r ∈ h.db.ledger.rows) :
      RowCounts (a.rowAfter h.db r) ((h.exec a).successesOf (a.rowAfter h.db r).messageId) := by
    rw [rowAfter_messageId]
    exact rowCounts_rowAfter (hc r hr)
  constructor
  · intro hcounted
    cases a with
    | create messageId receiverId carriers =>
      intro hnone s hs hid
      have hnew : LedgerRow.fresh messageId receiverId carriers ∈
          (LedgerHistory.dbAfter h.db (.create messageId receiverId carriers)).ledger.rows := by
        rw [Table.mem_rows_iff, get_dbAfter]
        have hkey : (LedgerRow.fresh messageId receiverId carriers).messageId = messageId := rfl
        simp [hkey, hnone, LedgerStep.created]
      obtain ⟨hcount, -, -⟩ := hcounted _ hnew
      rw [successesOf_exec] at hcount
      have hzero : (h.successesOf messageId).length = 0 := by
        have hsum := hcount.symm
        simp only [List.length_append] at hsum
        exact (Nat.add_eq_zero_iff.mp hsum).1
      rw [List.length_eq_zero_iff, LedgerHistory.successesOf, List.filter_eq_nil_iff] at hzero
      exact hzero s hs (by simpa using hid)
    | _ => trivial
  · intro hfirst r' hr'
    obtain ⟨r, hr, rfl⟩ | ⟨hcreated, hnone⟩ := mem_dbAfter hr'
    · exact hold r hr
    · cases a with
      | create messageId receiverId carriers =>
        cases hcreated
        have hempty : (h.exec (.create messageId receiverId carriers)).successesOf messageId = [] := by
          rw [successesOf_exec, LedgerHistory.successesOf]
          simp only [LedgerHistory.success, List.filter_nil, List.append_nil,
            List.filter_eq_nil_iff, decide_eq_true_eq]
          exact hfirst hnone
        have hkey : (LedgerRow.fresh messageId receiverId carriers).messageId = messageId := rfl
        rw [hkey, hempty]
        exact ⟨rfl, rfl, rfl⟩
      | _ => cases hcreated

/-! ## The hook -/

/-- The claim of an id leaves the claims of the others. -/
theorem get_claimEmission {m k : Nat} {carrier : Carrier} {now : Nat} (hne : k ≠ m) :
    (claimEmission db m carrier now).2.emissions.get (k, carrier) =
      db.emissions.get (k, carrier) := by
  unfold claimEmission
  split
  · rfl
  · have hkey : ¬ (⟨m, carrier, none, .pending, 0, now⟩ : Emission).claim = (k, carrier) := by
      intro heq
      exact hne (Prod.mk.inj heq).1.symm
    simp [Table.get_insert, hkey]

/-- The hook wins the ids that no other carrier claims and that it has not claimed itself. -/
theorem mem_hookClaimFrom {already ids : List Nat} {now m : Nat} :
    m ∈ (hookClaimFrom already now db ids).1 ↔
      m ∈ ids ∧ m ∉ already ∧ db.emissions.get (m, .hook) = none := by
  induction ids generalizing db with
  | nil => simp [hookClaimFrom]
  | cons id rest ih =>
    unfold hookClaimFrom
    split
    · next hmember =>
      rw [ih, List.mem_cons]
      constructor
      · rintro ⟨hrest, hother, hnone⟩
        exact ⟨.inr hrest, hother, hnone⟩
      · rintro ⟨rfl | hrest, hother, hnone⟩
        · exact (hother hmember).elim
        · exact ⟨hrest, hother, hnone⟩
    · next hmember =>
      split
      · next db' hclaim =>
        have htaken : db.emissions.get (id, .hook) ≠ none := by
          unfold claimEmission at hclaim
          split at hclaim
          · next hsome => exact fun hnone => by simp [hnone] at hsome
          · cases hclaim
        have hsame : db' = db := by
          unfold claimEmission at hclaim
          split at hclaim
          · exact (Prod.mk.inj hclaim).2.symm
          · cases hclaim
        rw [hsame, ih, List.mem_cons]
        constructor
        · rintro ⟨hrest, hother, hnone⟩
          exact ⟨.inr hrest, hother, hnone⟩
        · rintro ⟨rfl | hrest, hother, hnone⟩
          · exact (htaken hnone).elim
          · exact ⟨hrest, hother, hnone⟩
      · next db' hclaim =>
        have hfree : db.emissions.get (id, .hook) = none := by
          unfold claimEmission at hclaim
          split at hclaim
          · cases hclaim
          · next hsome => simpa using hsome
        have hother (k : Nat) (hne : k ≠ id) :
            db'.emissions.get (k, .hook) = db.emissions.get (k, .hook) := by
          have hget : (claimEmission db id .hook now).2.emissions.get (k, .hook) =
              db.emissions.get (k, .hook) := get_claimEmission hne
          rw [hclaim] at hget
          exact hget
        rw [List.mem_cons, ih, List.mem_cons]
        constructor
        · rintro (rfl | ⟨hrest, hfresh, hnone⟩)
          · exact ⟨.inl rfl, hmember, hfree⟩
          · by_cases hid : m = id
            · subst hid
              exact ⟨.inl rfl, hmember, hfree⟩
            · rw [hother m hid] at hnone
              exact ⟨.inr hrest, hfresh, hnone⟩
        · rintro ⟨rfl | hrest, hfresh, hnone⟩
          · exact .inl rfl
          · by_cases hid : m = id
            · exact .inl hid
            · refine .inr ⟨hrest, hfresh, ?_⟩
              rw [hother m hid]
              exact hnone

theorem mem_alreadyClaimed {ids : List Nat} (hm : m ∈ ids) : m ∈ alreadyClaimed db ids ↔
    ∃ e ∈ db.emissions.rows, e.messageId = m ∧ e.carrier ≠ .hook ∧ e.outcome ∉ nonMuting := by
  unfold alreadyClaimed Table.select
  rw [List.mem_map]
  constructor
  · rintro ⟨e, he, rfl⟩
    rw [List.mem_filter, decide_eq_true_eq] at he
    exact ⟨e, he.1, rfl, he.2.2.1, he.2.2.2⟩
  · rintro ⟨e, he, rfl, hcarrier, houtcome⟩
    refine ⟨e, ?_, rfl⟩
    rw [List.mem_filter, decide_eq_true_eq]
    exact ⟨he, hm, hcarrier, houtcome⟩

theorem hookFresh_exec_iff (hfresh : h.reprinted = []) (a : LedgerStep) :
    (h.exec a).reprinted = [] ↔ AsksFresh h a := by
  have hreprinted : (h.exec a).reprinted = h.reprint a := by
    simp [LedgerHistory.exec, hfresh]
  rw [hreprinted]
  cases a with
  | hookClaim messageIds now =>
    simp only [LedgerHistory.reprint, List.filter_eq_nil_iff, hookClaimIds, mem_hookClaimFrom,
      LedgerHistory.carriedByOther, List.any_eq_true, decide_eq_true_eq, not_exists, not_and,
      not_not]
    constructor
    · intro hnone m hm hfree hmuting s hs hid
      have hunclaimed : m ∉ alreadyClaimed h.db messageIds := by
        rw [mem_alreadyClaimed hm]
        rintro ⟨e, he, hsame, hcarrier, houtcome⟩
        exact houtcome (hmuting e he hsame hcarrier)
      exact hnone m ⟨hm, hunclaimed, hfree⟩ s hs hid
    · rintro hasks m ⟨hm, hunclaimed, hfree⟩ s hs hid
      refine hasks m hm hfree (fun e he hsame hcarrier => ?_) s hs hid
      by_contra houtcome
      exact hunclaimed ((mem_alreadyClaimed hm).mpr ⟨e, he, hsame, hcarrier, houtcome⟩)
  | _ => exact iff_of_true rfl trivial

/-! ## Runs -/

/-- What depends on the steps. -/
structure Promises (h : LedgerHistory) : Prop where
  final : Final h
  counted : Counted h
  hookFresh : h.reprinted = []

theorem promises_exec_iff (hk : Kept h) (hp : Promises h) (a : LedgerStep) :
    Promises (h.exec a) ↔ Orderly h a := by
  have hfinal := (final_exec_iff hk hp.final a).trans (keeps_iff hk a)
  have hcounted := counted_exec_iff hp.counted a
  have hhook := hookFresh_exec_iff hp.hookFresh a
  constructor
  · rintro ⟨h₁, h₂, h₃⟩
    exact ⟨hfinal.mp h₁, hcounted.mp h₂, hhook.mp h₃⟩
  · rintro ⟨h₁, h₂, h₃⟩
    exact ⟨hfinal.mpr h₁, hcounted.mpr h₂, hhook.mpr h₃⟩

/-- The whole life cycle is what is always kept and what is promised. -/
theorem lifeCycle_iff (hk : Kept h) : LifeCycle h ↔ Promises h := by
  constructor
  · intro hl
    exact ⟨hl.final, hl.counted, hl.hookFresh⟩
  · intro hp
    refine ⟨?_, fun r hr => (hk.rows r hr).acked, hp.final, hp.counted,
      fun r hr => (hk.rows r hr).blocked, ?_, hk.exhausted, hp.hookFresh⟩
    · intro e he e' he' hid hcarrier
      have hget := (Table.mem_rows_iff _ _).mp he
      have hget' := (Table.mem_rows_iff _ _).mp he'
      have hkey : e.claim = e'.claim := Prod.ext hid hcarrier
      rw [hkey, hget'] at hget
      exact (Option.some.inj hget).symm
    · intro r hr
      refine ⟨fun hreason => ?_, (hk.rows r hr).reason⟩
      obtain ⟨r', hr', hstate⟩ := hp.final _ (hk.reasons r hr hreason)
      rw [(Table.mem_rows_iff _ _).mp hr] at hr'
      rw [Option.some.inj hr']
      exact hstate

theorem kept_start : Kept .start := by
  refine ⟨?_, ?_, ?_, ?_, ?_⟩
  · intro r hr
    cases hr
  · intro r hr
    cases hr
  · intro r hr
    cases hr
  · intro x hx
    cases hx
  · intro x hx
    cases hx

theorem promises_start : Promises .start := by
  refine ⟨?_, ?_, rfl⟩
  · intro x hx
    cases hx
  · intro r hr
    cases hr

/-- The life cycle holds throughout exactly the runs whose steps are orderly. -/
theorem lifeCycle_iff_orderly (steps : List LedgerStep) :
    (∀ before after, steps = before ++ after →
        LifeCycle (run LedgerHistory.exec .start before)) ↔
      StepsSatisfy LedgerHistory.exec Orderly .start steps := by
  have hrun := forall_states_iff Orderly Kept Promises (fun _ a hk => hk.exec a)
    (fun _ a hk hp => promises_exec_iff hk hp a) LedgerHistory.start kept_start promises_start
    steps
  rw [← hrun]
  have hkept (before : List LedgerStep) : Kept (run LedgerHistory.exec .start before) :=
    run_invariant Kept (fun _ a hk => hk.exec a) _ kept_start before
  constructor
  · intro hall before after heq
    exact (lifeCycle_iff (hkept before)).mp (hall before after heq)
  · intro hall before after heq
    exact (lifeCycle_iff (hkept before)).mpr (hall before after heq)

/-- A native send succeeds, a later one to the same seat fails, and the hook asks. -/
def resent : List LedgerStep :=
  [.create 7 "t-1" [.native, .hook], .claim 7 .native 1, .record 7 .native .succeeded 2,
    .record 7 .native .failed 3, .hookClaim [7] 4]

/-- The receiver is reaped, and the message is acknowledged. -/
def reapedThenAcked : List LedgerStep :=
  [.create 7 "t-1" [.native, .hook], .receiverGone "t-1", .ack [7] .explicit 5]

/-- The hook is given the message of `resent`, which was carried; the row of `reapedThenAcked` was
undeliverable, and is acknowledged with the reason still there. -/
theorem resent_and_reaped_not_lifeCycle :
    (¬ ∀ steps : List LedgerStep, (run LedgerHistory.exec .start steps).reprinted = []) ∧
      (¬ ∀ steps : List LedgerStep, Final (run LedgerHistory.exec .start steps)) ∧
      ¬ ∀ steps : List LedgerStep, ∀ r ∈ (run LedgerHistory.exec .start steps).db.ledger.rows,
        r.undeliverableReason.isSome → r.state = .undeliverable := by
  have hrow : (run LedgerHistory.exec .start reapedThenAcked).db.ledger.get 7 =
      some { LedgerRow.fresh 7 "t-1" [.native, .hook] with
        state := .acked, ackedAt := some 5, ackedBy := some .explicit
        undeliverableReason := some .receiverGone } := by decide +kernel
  refine ⟨fun h => ?_, fun h => ?_, fun h => ?_⟩
  · have hreprinted : (run LedgerHistory.exec .start resent).reprinted = [7] := by decide +kernel
    rw [h resent] at hreprinted
    cases hreprinted
  · have hreached : (7, .undeliverable) ∈
        (run LedgerHistory.exec .start reapedThenAcked).reached := by decide +kernel
    obtain ⟨r, hget, hstate⟩ := h reapedThenAcked _ hreached
    cases hrow.symm.trans hget
    cases hstate
  · have hstate := h reapedThenAcked _ (Table.mem_of_get hrow) rfl
    cases hstate

end CliAgentOrchestrator.Ledger
