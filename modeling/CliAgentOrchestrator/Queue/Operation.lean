import CliAgentOrchestrator.Library.Machine
import CliAgentOrchestrator.Queue.RowEffect
import Mathlib.Data.List.Induction

/-!
# The queue store as a machine

Every method of the store that writes is one operation; a call that raises leaves the store as
it was. A run is a list of calls in the order SQLite commits them, with the clock, the ids
minted and the arguments chosen by the caller.

`RowStep` lists the ways one operation can leave one row. It is the only case analysis the
invariants of the queue are derived from.
-/

set_option autoImplicit false

namespace CliAgentOrchestrator.Queue

open CliAgentOrchestrator.Core Library

/-- A writing call of the store, with everything it does not read from the store. -/
inductive Op
  | enqueue (draft : EnqueueDraft) (newUlid : String) (now : Int)
  | claim (leaseOwner : String) (now limit : Int) (receiverId : Option String)
  | ack (msgId : String) (claimId now : Int)
  | reclaim (now : Int)
  | recordAttempt (attempt : DeliveryAttempt)
  | settle (msgId : String) (state : MsgState) (now : Int) (reason : Option DeadReason)
      (attempts : Option Int)
  | markDialogHold (msgId : String) (heldSince : Option Int)
  | reparent (msgId newReceiverId : String) (now : Int) (messagePrefix : String)
  | buildDigest (receiverId : String) (msgIds : List String) (now : Int)
  | extendDigest (receiverId : String) (epoch : Int) (msgIds : List String)
  | bumpWakeCount (receiverId : String) (epoch : Int)
  | closeDigest (receiverId : String) (epoch : Int) (via : String) (now : Int)
  | cancelOnComplete (receiverId : String) (now : Int)
  | settleThrough (receiverId : String) (upToId now : Int)
  | prune (now : Int) (isProtected : List String)

/-- The store after one call. -/
def exec (sha256 : String → String) (s : Store) : Op → Store
  | .enqueue draft newUlid now =>
    match enqueue sha256 s draft newUlid now with
    | .ok (_, s') => s'
    | .error _ => s
  | .claim leaseOwner now limit receiverId => (claim s leaseOwner now limit receiverId).2
  | .ack msgId claimId now => (ack s msgId claimId now).2
  | .reclaim now => (reclaim s now).1
  | .recordAttempt attempt => recordAttempt s attempt
  | .settle msgId state now reason attempts =>
    match settle s msgId state now reason attempts with
    | .ok (_, s') => s'
    | .error _ => s
  | .markDialogHold msgId heldSince => markDialogHold s msgId heldSince
  | .reparent msgId newReceiverId now messagePrefix =>
    (reparent sha256 s msgId newReceiverId now messagePrefix).2
  | .buildDigest receiverId msgIds now => (buildDigest s receiverId msgIds now).2
  | .extendDigest receiverId epoch msgIds => (extendDigest s receiverId epoch msgIds).2
  | .bumpWakeCount receiverId epoch => (bumpWakeCount s receiverId epoch).2
  | .closeDigest receiverId epoch via now => (closeDigest s receiverId epoch via now).2
  | .cancelOnComplete receiverId now => (cancelOnComplete s receiverId now).2
  | .settleThrough receiverId upToId now => (settleThrough s receiverId upToId now).2
  | .prune now isProtected => (prune s now isProtected).2

/-- The id `new_ulid` handed to this call. -/
def Op.minted : Op → Option String
  | .enqueue _ newUlid _ => some newUlid
  | _ => none

/-- Is this call a `prune`? -/
def Op.prunes : Op → Bool
  | .prune _ _ => true
  | _ => false

/-- The ids minted along a run. `new_ulid` never repeats one, so the runs of one process have
no duplicates here.
SOURCE: core/ids.py:67-107 -/
def minted (ops : List Op) : List String := ops.filterMap Op.minted

theorem notMem_minted_cons {m : String} {op : Op} {ops : List Op} :
    m ∉ minted (op :: ops) ↔ op.minted ≠ some m ∧ m ∉ minted ops := by
  simp [minted, List.mem_filterMap]

variable {sha256 : String → String} {s s' : Store} {m : String} {r r' : QueueMessage}

/-! ## Enqueue -/

theorem getByIdempotencyKey_of_mem {key : String}
    (h : s.getByIdempotencyKey key = some r) :
    s.get r.msgId = some r ∧ r.idempotencyKey = key := by
  refine ⟨?_, by simpa using List.find?_some h⟩
  exact (s.deliveryMsg.mem_rows_iff r).mp (List.mem_of_find?_eq_some h)

/-- An `insertMsg` that returns left the store alone, or added a row under a new id. -/
theorem insertMsg_spec {row : QueueMessage} (h : s.insertMsg row = .ok s') :
    ((s.getByIdempotencyKey row.idempotencyKey).isSome ∧ s' = s) ∨
    (s.getByIdempotencyKey row.idempotencyKey = none ∧ s.get row.msgId = none ∧
      s' = { s with deliveryMsg := s.deliveryMsg.insert row }) := by
  unfold Store.insertMsg at h
  split at h
  · next hkey =>
    cases h
    exact .inl ⟨hkey, rfl⟩
  · next hkey =>
    split at h
    · cases h
    · next hid =>
      cases h
      exact .inr ⟨by simpa using hkey, by simpa [Store.get] using hid, rfl⟩

theorem get_insert_row (s : Store) (row : QueueMessage) (hid : s.get row.msgId = none)
    (m : String) :
    ({ s with deliveryMsg := s.deliveryMsg.insert row } : Store).get m =
      if row.msgId = m then some row else s.get m := by
  show (s.deliveryMsg.insert row).get m = _
  rw [Table.get_insert]
  by_cases hm : row.msgId = m
  · subst hm
    unfold Store.get at hid
    simp [hid]
  · simp [hm, Store.get]

/-- What a successful `enqueue` did and returned: either the row that already held the key, or
the draft's own row under the id it minted. -/
theorem enqueue_spec {draft : EnqueueDraft} {newUlid : String} {now : Int}
    {message : QueueMessage}
    (h : enqueue sha256 s draft newUlid now = .ok (message, s')) :
    s'.get message.msgId = some message ∧
    message.idempotencyKey = draft.idempotencyKey ∧
    message.payloadDigest = sha256 draft.payload ∧
    ((s.getByIdempotencyKey draft.idempotencyKey = some message ∧ s' = s) ∨
      (s.getByIdempotencyKey draft.idempotencyKey = none ∧ s.get newUlid = none ∧
        message = draftRow sha256 draft newUlid now ∧
        s' = { s with deliveryMsg := s.deliveryMsg.insert (draftRow sha256 draft newUlid now) })) := by
  unfold enqueue at h
  split at h
  · cases h
  next s₁ hins =>
  split at h
  · cases h
  next message₁ hkey =>
  split at h
  · cases h
  next hdigest =>
  obtain ⟨rfl, rfl⟩ : message₁ = message ∧ s₁ = s' := by simpa using h
  obtain ⟨hget, hidem⟩ := getByIdempotencyKey_of_mem hkey
  refine ⟨hget, hidem, by simpa using hdigest, ?_⟩
  obtain ⟨_, rfl⟩ | ⟨hnone, hid, rfl⟩ := insertMsg_spec hins
  · exact .inl ⟨hkey, rfl⟩
  · refine .inr ⟨hnone, hid, ?_, rfl⟩
    -- the key was free, so the row found under it is the inserted one
    have hrow := get_insert_row s (draftRow sha256 draft newUlid now) hid message₁.msgId
    rw [hrow] at hget
    by_cases hm : (draftRow sha256 draft newUlid now).msgId = message₁.msgId
    · rw [if_pos hm] at hget
      exact (Option.some.inj hget).symm
    · rw [if_neg hm] at hget
      have hmem := (s.deliveryMsg.mem_rows_iff message₁).mpr hget
      exact absurd (decide_eq_true hidem) (List.find?_eq_none.mp hnone message₁ hmem)

/-- Under a free key and a free id, `enqueue` inserts the draft's row. -/
theorem enqueue_fresh {draft : EnqueueDraft} {newUlid : String} {now : Int}
    (hkey : s.getByIdempotencyKey draft.idempotencyKey = none) (hid : s.get newUlid = none) :
    enqueue sha256 s draft newUlid now = .ok (draftRow sha256 draft newUlid now,
      { s with deliveryMsg := s.deliveryMsg.insert (draftRow sha256 draft newUlid now) }) := by
  have hgone : (s.deliveryMsg.get (draftRow sha256 draft newUlid now).msgId).isSome = false := by
    unfold Store.get at hid
    rw [show (draftRow sha256 draft newUlid now).msgId = newUlid from rfl, hid]
    rfl
  have hins : s.insertMsg (draftRow sha256 draft newUlid now) = .ok { s with
      deliveryMsg := s.deliveryMsg.insert (draftRow sha256 draft newUlid now) } := by
    unfold Store.insertMsg
    rw [show (draftRow sha256 draft newUlid now).idempotencyKey = draft.idempotencyKey from rfl,
      hkey, hgone]
    rfl
  have hfind : Store.getByIdempotencyKey { s with
      deliveryMsg := s.deliveryMsg.insert (draftRow sha256 draft newUlid now) }
      draft.idempotencyKey = some (draftRow sha256 draft newUlid now) := by
    unfold Store.getByIdempotencyKey at hkey ⊢
    simp only [Table.insert, hgone, Bool.false_eq_true, dif_neg, not_false_iff, List.find?_append,
      hkey, Option.none_or]
    simp [draftRow]
  unfold enqueue
  rw [hins]
  simp only [hfind]
  simp [draftRow]

theorem exec_enqueue_fresh {draft : EnqueueDraft} {newUlid : String} {now : Int}
    (hkey : s.getByIdempotencyKey draft.idempotencyKey = none) (hid : s.get newUlid = none) :
    exec sha256 s (.enqueue draft newUlid now) =
      { s with deliveryMsg := s.deliveryMsg.insert (draftRow sha256 draft newUlid now) } := by
  simp only [exec, enqueue_fresh hkey hid]

/-- A row under a key that is taken is not inserted. -/
theorem insertMsg_taken {draft : EnqueueDraft} {newUlid : String} {now : Int}
    (hkey : s.getByIdempotencyKey draft.idempotencyKey = some r) :
    s.insertMsg (draftRow sha256 draft newUlid now) = .ok s := by
  unfold Store.insertMsg
  rw [show (draftRow sha256 draft newUlid now).idempotencyKey = draft.idempotencyKey from rfl,
    hkey]
  rfl

/-- Under a key that is taken with the same digest, `enqueue` returns the row that has it. -/
theorem enqueue_taken {draft : EnqueueDraft} {newUlid : String} {now : Int}
    (hkey : s.getByIdempotencyKey draft.idempotencyKey = some r)
    (hdigest : r.payloadDigest = sha256 draft.payload) :
    enqueue sha256 s draft newUlid now = .ok (r, s) := by
  unfold enqueue
  rw [insertMsg_taken hkey]
  simp [hkey, hdigest]

/-- A successful `enqueue`, seen from one row. -/
theorem get_enqueue {draft : EnqueueDraft} {newUlid : String} {now : Int}
    {message : QueueMessage}
    (h : enqueue sha256 s draft newUlid now = .ok (message, s')) (m : String) :
    s'.get m = s.get m ∨
      (m = newUlid ∧ s.get m = none ∧ s'.get m = some (draftRow sha256 draft newUlid now)) := by
  obtain ⟨-, -, -, ⟨-, rfl⟩ | ⟨-, hid, -, rfl⟩⟩ := enqueue_spec h
  · exact .inl rfl
  · rw [get_insert_row s _ hid]
    by_cases hm : newUlid = m
    · subst hm
      exact .inr ⟨rfl, hid, if_pos rfl⟩
    · exact .inl (if_neg hm)

/-- `enqueue` writes no table but `delivery_msg`. -/
theorem enqueue_frame {draft : EnqueueDraft} {newUlid : String} {now : Int}
    {message : QueueMessage}
    (h : enqueue sha256 s draft newUlid now = .ok (message, s')) :
    s'.deliveryDead = s.deliveryDead ∧ s'.deliveryAttempt = s.deliveryAttempt := by
  obtain ⟨-, -, -, ⟨-, rfl⟩ | ⟨-, -, -, rfl⟩⟩ := enqueue_spec h <;> exact ⟨rfl, rfl⟩

/-! ## Digest operations leave the messages alone -/

theorem extendDigest_frame (s : Store) (receiverId : String) (epoch : Int)
    (msgIds : List String) :
    (extendDigest s receiverId epoch msgIds).2.deliveryMsg = s.deliveryMsg ∧
    (extendDigest s receiverId epoch msgIds).2.deliveryDead = s.deliveryDead ∧
    (extendDigest s receiverId epoch msgIds).2.deliveryAttempt = s.deliveryAttempt := by
  unfold extendDigest
  split
  · exact ⟨rfl, rfl, rfl⟩
  · split
    · exact ⟨rfl, rfl, rfl⟩
    · simp only
      split <;> exact ⟨rfl, rfl, rfl⟩

theorem bumpWakeCount_frame (s : Store) (receiverId : String) (epoch : Int) :
    (bumpWakeCount s receiverId epoch).2.deliveryMsg = s.deliveryMsg ∧
    (bumpWakeCount s receiverId epoch).2.deliveryDead = s.deliveryDead ∧
    (bumpWakeCount s receiverId epoch).2.deliveryAttempt = s.deliveryAttempt := by
  unfold bumpWakeCount
  simp only
  split <;> exact ⟨rfl, rfl, rfl⟩

/-! ## One row, one step -/

/-- The calls that end a row other than by death or by `settle`, with the state they leave. -/
inductive EndsRow (r : QueueMessage) : Op → MsgState → Int → Prop
  | ack {msgId : String} {claimId now : Int} (hrow : r.msgId = msgId)
      (hack : ackable claimId r = true) : EndsRow r (.ack msgId claimId now) .delivered now
  | cancel {receiverId : String} {now : Int} (hrow : cancellable receiverId r = true) :
      EndsRow r (.cancelOnComplete receiverId now) .superseded now
  | through {receiverId : String} {upToId now : Int}
      (hrow : settleable receiverId upToId r = true) :
      EndsRow r (.settleThrough receiverId upToId now) .delivered now

/-- None of them picks out a row that has ended. -/
theorem EndsRow.live {op : Op} {state : MsgState} {now : Int} (h : EndsRow r op state now) :
    r.terminal = false := by
  rw [r.terminal_eq_false_iff]
  cases h with
  | ack _ hack =>
    simp only [ackable, Bool.and_eq_true, beq_iff_eq] at hack
    exact .inr hack.2
  | cancel hrow =>
    simp only [cancellable, Bool.and_eq_true, beq_iff_eq] at hrow
    exact .inl hrow.1.1.2
  | through hrow =>
    simp only [settleable, Bool.and_eq_true, Bool.not_eq_true'] at hrow
    exact (r.terminal_eq_false_iff).mp hrow.2

theorem EndsRow.ne_reclaim {op : Op} {state : MsgState} {now : Int} (h : EndsRow r op state now) :
    ∀ t, op ≠ .reclaim t := by
  cases h <;> simp

/-- The ways one operation that does not delete a row can leave it, with the dead letter it
writes for the row. -/
inductive RowStep (sha256 : String → String) (s : Store) (r : QueueMessage) :
    Op → QueueMessage → Option DeadLetter → Prop
  /-- Not addressed by the call. -/
  | kept {op : Op} (hop : ∀ now, op ≠ .reclaim now) : RowStep sha256 s r op r none
  | leased {leaseOwner : String} {now limit : Int} {receiverId : Option String}
      (hrow : r ∈ claimRows s now limit receiverId) :
      RowStep sha256 s r (.claim leaseOwner now limit receiverId) (leaseRow leaseOwner now r) none
  | reclaimed {now : Int} :
      RowStep sha256 s r (.reclaim now) (reclaimRow s now r) (reclaimLetter s now r)
  | ended {op : Op} {state : MsgState} {now : Int} (hcall : EndsRow r op state now) :
      RowStep sha256 s r op ((endPatch state now).apply r) none
  | settled {msgId : String} {state : MsgState} {now : Int} {reason : Option DeadReason}
      {attempts : Option Int} (hrow : r.msgId = msgId) (hlive : r.terminal = false)
      (hstate : state ∈ terminalStates) (hreason : state = .dead → reason ≠ none) :
      RowStep sha256 s r (.settle msgId state now reason attempts)
        (settleRow state now attempts r) (settleLetter state now reason attempts r)
  | held {msgId : String} {heldSince : Option Int} :
      RowStep sha256 s r (.markDialogHold msgId heldSince) ((holdPatch heldSince).apply r) none
  | moved {msgId newReceiverId messagePrefix : String} {now : Int} (hlive : r.terminal = false) :
      RowStep sha256 s r (.reparent msgId newReceiverId now messagePrefix)
        (reparentRow sha256 newReceiverId messagePrefix r) none

/-- What one operation does to the message and the dead letter under `m`: from `r₀` and `d₀`
to `r₁` and `d₁`. -/
inductive RowChange (sha256 : String → String) (s : Store) (m : String) (op : Op) :
    Option QueueMessage → Option QueueMessage → Option DeadLetter → Option DeadLetter → Prop
  | absent {d : Option DeadLetter} : RowChange sha256 s m op none none d d
  | inserted {draft : EnqueueDraft} {now : Int} {d : Option DeadLetter}
      (hop : op = .enqueue draft m now) :
      RowChange sha256 s m op none (some (draftRow sha256 draft m now)) d d
  | stepped {r r' : QueueMessage} {d l : Option DeadLetter} (hstep : RowStep sha256 s r op r' l) :
      RowChange sha256 s m op (some r) (some r') d (d.or l)
  | pruned {r : QueueMessage} {d : Option DeadLetter} {now : Int} {isProtected : List String}
      (hop : op = .prune now isProtected) (hrow : prunable now isProtected r = true) :
      RowChange sha256 s m op (some r) none d none

/-- An operation that maps every row by a step. -/
private theorem rowChange_of_map {op : Op} {t : Store} {f : QueueMessage → QueueMessage}
    {g : QueueMessage → Option DeadLetter} (ht : t.get m = (s.get m).map f)
    (hdead : t.deadLetter m = (s.deadLetter m).or ((s.get m).bind g))
    (hstep : ∀ r, s.get m = some r → RowStep sha256 s r op (f r) (g r)) :
    RowChange sha256 s m op (s.get m) (t.get m) (s.deadLetter m) (t.deadLetter m) := by
  rw [ht, hdead]
  cases h : s.get m with
  | none =>
    rw [Option.bind_none, Option.or_none]
    exact .absent
  | some r => exact .stepped (hstep r h)

/-- An operation that maps every row by a step and writes no dead letter. -/
private theorem rowChange_of_quiet {op : Op} {t : Store} {f : QueueMessage → QueueMessage}
    (ht : t.get m = (s.get m).map f) (hdead : t.deliveryDead = s.deliveryDead)
    (hstep : ∀ r, s.get m = some r → RowStep sha256 s r op (f r) none) :
    RowChange sha256 s m op (s.get m) (t.get m) (s.deadLetter m) (t.deadLetter m) := by
  refine rowChange_of_map (g := fun _ => none) ht ?_ hstep
  unfold Store.deadLetter
  rw [hdead]
  cases s.get m <;> exact (Option.or_none).symm

/-- An operation that writes neither table. -/
private theorem rowChange_of_frame {op : Op} {t : Store} (ht : t.deliveryMsg = s.deliveryMsg)
    (hdead : t.deliveryDead = s.deliveryDead) (hop : ∀ now, op ≠ .reclaim now) :
    RowChange sha256 s m op (s.get m) (t.get m) (s.deadLetter m) (t.deadLetter m) := by
  have hget : t.get m = (s.get m).map id := by
    unfold Store.get
    rw [ht, Option.map_id]
    rfl
  exact rowChange_of_quiet hget hdead fun r _ => .kept hop

/-- A step taken by the rows `p` picks out, the others kept. -/
private theorem rowStep_ite {op : Op} {p : Prop} [Decidable p] {l : Option DeadLetter}
    (hp : p → RowStep sha256 s r op r' l) (hop : ∀ now, op ≠ .reclaim now) :
    RowStep sha256 s r op (if p then r' else r) (if p then l else none) := by
  by_cases h : p
  · rw [if_pos h, if_pos h]
    exact hp h
  · rw [if_neg h, if_neg h]
    exact .kept hop

private theorem rowStep_ite_quiet {op : Op} {p : Prop} [Decidable p]
    (hp : p → RowStep sha256 s r op r' none) (hop : ∀ now, op ≠ .reclaim now) :
    RowStep sha256 s r op (if p then r' else r) none := by
  have hstep := rowStep_ite hp hop
  rwa [ite_self] at hstep

/-- One operation, seen from one id. -/
theorem rowChange_exec (sha256 : String → String) (s : Store) (m : String) (op : Op) :
    RowChange sha256 s m op (s.get m) ((exec sha256 s op).get m) (s.deadLetter m)
      ((exec sha256 s op).deadLetter m) := by
  cases op with
  | enqueue draft newUlid now =>
    simp only [exec]
    split
    · next message s₁ he =>
      have hdead := (enqueue_frame he).1
      obtain hg | ⟨rfl, hnone, hg⟩ := get_enqueue he m
      · refine rowChange_of_quiet (f := id) ?_ hdead fun r _ => .kept (by simp)
        rw [hg, Option.map_id]
        rfl
      · rw [hnone, hg]
        unfold Store.deadLetter
        rw [hdead]
        exact .inserted rfl
    · exact rowChange_of_frame rfl rfl (by simp)
  | claim leaseOwner now limit receiverId =>
    refine rowChange_of_quiet (get_claim s leaseOwner now limit receiverId m) ?_ fun r _ =>
      rowStep_ite_quiet .leased (by simp)
    simp only [exec]
    rw [(claim_spec s leaseOwner now limit receiverId).2]
  | ack msgId claimId now =>
    exact rowChange_of_quiet (get_ack s msgId claimId now m) rfl fun r h =>
      rowStep_ite_quiet (fun hp => .ended (.ack ((msgId_of_get h).trans hp.1) hp.2)) (by simp)
  | reclaim now =>
    exact rowChange_of_map (get_reclaim s now m) (deadLetter_reclaim s now m) fun r _ => .reclaimed
  | settle msgId state now reason attempts =>
    simp only [exec]
    split
    · next b s₁ hs =>
      obtain ⟨hstate, hreason, hget, hdead, -⟩ := settle_spec hs
      exact rowChange_of_map (hget m) (hdead m) fun r h =>
        rowStep_ite (fun hp => .settled ((msgId_of_get h).trans hp.1) hp.2 hstate hreason) (by simp)
    · exact rowChange_of_frame rfl rfl (by simp)
  | markDialogHold msgId heldSince =>
    exact rowChange_of_quiet (get_markDialogHold s msgId heldSince m) rfl fun r _ =>
      rowStep_ite_quiet (fun _ => .held) (by simp)
  | reparent msgId newReceiverId now messagePrefix =>
    obtain ⟨hget, -, hdead⟩ := reparent_spec sha256 s msgId newReceiverId now messagePrefix
    exact rowChange_of_quiet (hget m) hdead fun r _ =>
      rowStep_ite_quiet (fun hp => .moved hp.2.1) (by simp)
  | extendDigest receiverId epoch msgIds =>
    obtain ⟨hmsg, hdead, -⟩ := extendDigest_frame s receiverId epoch msgIds
    exact rowChange_of_frame hmsg hdead (by simp)
  | bumpWakeCount receiverId epoch =>
    obtain ⟨hmsg, hdead, -⟩ := bumpWakeCount_frame s receiverId epoch
    exact rowChange_of_frame hmsg hdead (by simp)
  | cancelOnComplete receiverId now =>
    refine rowChange_of_quiet (get_cancelOnComplete s receiverId now m) ?_ fun r _ =>
      rowStep_ite_quiet (fun hp => .ended (.cancel hp)) (by simp)
    simp only [exec, cancelOnComplete]
    rw [endSweep_spec]
  | settleThrough receiverId upToId now =>
    refine rowChange_of_quiet (get_settleThrough s receiverId upToId now m) ?_ fun r _ =>
      rowStep_ite_quiet (fun hp => .ended (.through hp)) (by simp)
    simp only [exec, settleThrough]
    rw [endSweep_spec]
  | prune now isProtected =>
    show RowChange sha256 s m _ _ ((prune s now isProtected).2.get m) _
      ((prune s now isProtected).2.deadLetter m)
    rw [get_prune, deadLetter_prune]
    cases s.get m with
    | none => exact .absent
    | some r =>
      by_cases hp : prunable now isProtected r = true
      · simp only [Option.filter_some, Option.any_some, hp]
        exact .pruned rfl hp
      · have hstep : RowChange sha256 s m (.prune now isProtected) (some r) (some r)
            (s.deadLetter m) ((s.deadLetter m).or none) := .stepped (.kept (by simp))
        rw [Option.or_none] at hstep
        simpa [Option.filter_some, hp] using hstep
  | _ => exact rowChange_of_frame rfl rfl (by simp)

/-- A row an operation leaves in the table took one of the steps. -/
theorem rowStep_of_exec {op : Op} (h : s.get m = some r)
    (h' : (exec sha256 s op).get m = some r') :
    ∃ l, RowStep sha256 s r op r' l ∧
      (exec sha256 s op).deadLetter m = (s.deadLetter m).or l := by
  have hchange := rowChange_exec sha256 s m op
  rw [h, h'] at hchange
  generalize hd : (exec sha256 s op).deadLetter m = d at hchange
  cases hchange with
  | stepped hstep => exact ⟨_, hstep, rfl⟩

/-- A row that was not there was inserted by an `enqueue` that minted its id. -/
theorem inserted_of_exec {op : Op} (h : s.get m = none)
    (h' : (exec sha256 s op).get m = some r') :
    ∃ draft now, op = .enqueue draft m now ∧ r' = draftRow sha256 draft m now ∧
      (exec sha256 s op).deadLetter m = s.deadLetter m := by
  have hchange := rowChange_exec sha256 s m op
  rw [h, h'] at hchange
  generalize hd : (exec sha256 s op).deadLetter m = d at hchange
  generalize hd₀ : s.deadLetter m = d₀ at hchange
  cases hchange with
  | inserted hop => exact ⟨_, _, hop, rfl, rfl⟩

/-- The key of an inserted row was free. -/
theorem keyFree_of_inserted {draft : EnqueueDraft} {now : Int} (h : s.get m = none)
    (h' : (exec sha256 s (.enqueue draft m now)).get m = some r') :
    s.getByIdempotencyKey draft.idempotencyKey = none := by
  simp only [exec] at h'
  cases henq : enqueue sha256 s draft m now with
  | error e =>
    rw [henq, h] at h'
    cases h'
  | ok result =>
    obtain ⟨message, s'⟩ := result
    rw [henq] at h'
    obtain ⟨-, -, -, ⟨-, rfl⟩ | ⟨hkey, -, -, -⟩⟩ := enqueue_spec henq
    · rw [h] at h'
      cases h'
    · exact hkey

/-- Only `prune` removes a row. -/
theorem prunes_of_exec {op : Op} (h : s.get m = some r) (h' : (exec sha256 s op).get m = none) :
    op.prunes = true ∧ (exec sha256 s op).deadLetter m = none := by
  have hchange := rowChange_exec sha256 s m op
  rw [h, h'] at hchange
  generalize hd : (exec sha256 s op).deadLetter m = d at hchange
  cases hchange with
  | pruned hop _ =>
    rw [hop]
    exact ⟨rfl, rfl⟩

/-- Nothing writes a dead letter for a row that is not there. -/
theorem deadLetter_of_absent {op : Op} (h : s.get m = none)
    (h' : (exec sha256 s op).get m = none) :
    (exec sha256 s op).deadLetter m = s.deadLetter m := by
  have hchange := rowChange_exec sha256 s m op
  rw [h, h'] at hchange
  generalize hd : (exec sha256 s op).deadLetter m = d at hchange
  generalize hd₀ : s.deadLetter m = d₀ at hchange
  cases hchange with
  | absent => rfl

/-! ## What a reclaim does to a row -/

/-- The lease sweep leaves a row alone, or hands an expired lease back. -/
theorem reofferRow_cases (s : Store) (now : Int) (r : QueueMessage) :
    (leaseExpired now r = false ∧ reofferRow s now r = r) ∨
    (leaseExpired now r = true ∧ s.lastOutcomeIn r.msgId r.claimId = some .submissionUncertain ∧
      reofferRow s now r = (reofferPatch 0 (quarantineUntil r)).apply r) ∨
    (leaseExpired now r = true ∧ s.lastOutcomeIn r.msgId r.claimId ≠ some .submissionUncertain ∧
      reofferRow s now r =
        (reofferPatch (if spendsAttempt (s.lastOutcomeIn r.msgId r.claimId) then 1 else 0)
          (now + seconds deliveryBackoffS)).apply r) := by
  unfold reofferRow reofferFor
  by_cases hexp : leaseExpired now r = true
  · by_cases hq : s.lastOutcomeIn r.msgId r.claimId = some .submissionUncertain
    · exact .inr (.inl ⟨hexp, hq, by simp [hexp, hq]⟩)
    · exact .inr (.inr ⟨hexp, hq, by simp [hexp, hq]⟩)
  · exact .inl ⟨by simpa using hexp, by simp [hexp]⟩

/-- After the lease sweep a row lives on, or one of the two death sweeps kills it. -/
theorem reclaimRow_cases (s : Store) (now : Int) (r : QueueMessage) :
    (reclaimRow s now r = reofferRow s now r ∧
      heldTooLong (ceilingBefore now) (reofferRow s now r) = false ∧
      exhausted now (reofferRow s now r) = false) ∨
    (reclaimRow s now r = (killPatch now).apply (reofferRow s now r) ∧
      (reofferRow s now r).terminal = false) := by
  unfold reclaimRow killRow
  by_cases hheld : heldTooLong (ceilingBefore now) (reofferRow s now r) = true
  · right
    rw [if_pos hheld, exhausted_killed]
    refine ⟨rfl, (QueueMessage.terminal_eq_false_iff _).mpr ?_⟩
    simp only [heldTooLong, Bool.and_eq_true, Bool.or_eq_true, beq_iff_eq] at hheld
    exact hheld.1
  · rw [if_neg hheld]
    by_cases hex : exhausted now (reofferRow s now r) = true
    · right
      rw [if_pos hex]
      refine ⟨rfl, (QueueMessage.terminal_eq_false_iff _).mpr ?_⟩
      simp only [exhausted, Bool.and_eq_true, beq_iff_eq] at hex
      exact .inl hex.1
    · exact .inl ⟨if_neg hex, by simpa using hheld, by simpa using hex⟩

/-! ## Runs -/

/-- What every inserted row has and every step keeps, every row of a run's store has. -/
theorem run_rows {P : QueueMessage → Prop}
    (hnew : ∀ draft m now, P (draftRow sha256 draft m now))
    (hstep : ∀ {s : Store} {r r' : QueueMessage} {op : Op} {l : Option DeadLetter},
      RowStep sha256 s r op r' l → P r → P r')
    (ops : List Op) (hget : (run (exec sha256) Store.empty ops).get m = some r) : P r := by
  have hall : ∀ m r, (run (exec sha256) Store.empty ops).get m = some r → P r := by
    refine run_invariant (fun s => ∀ m r, s.get m = some r → P r) ?_ Store.empty ?_ ops
    · intro s op ih m r' h'
      cases h : s.get m with
      | none =>
        obtain ⟨draft, now, -, rfl, -⟩ := inserted_of_exec h h'
        exact hnew draft m now
      | some r =>
        obtain ⟨l, hrow, -⟩ := rowStep_of_exec h h'
        exact hstep hrow (ih m r h)
    · intro m r h
      unfold Store.get at h
      rw [show Store.empty.deliveryMsg = Table.empty from rfl, Table.get_empty] at h
      cases h
  exact hall m r hget

/-- A row of a run's store was inserted by it. -/
theorem mem_minted_of_get (ops : List Op)
    (hget : (run (exec sha256) Store.empty ops).get m = some r) : m ∈ minted ops := by
  induction ops using List.reverseRecOn generalizing r with
  | nil =>
    unfold Store.get at hget
    rw [run_nil, show Store.empty.deliveryMsg = Table.empty from rfl, Table.get_empty] at hget
    cases hget
  | append_singleton ops op ih =>
    rw [run_concat] at hget
    unfold minted
    rw [List.filterMap_append, List.mem_append]
    cases h : (run (exec sha256) Store.empty ops).get m with
    | none =>
      obtain ⟨draft, now, rfl, -, -⟩ := inserted_of_exec h hget
      exact .inr (by simp [Op.minted])
    | some r₀ => exact .inl (ih h)

/-- Ids that never repeat: a row in the table is not inserted again. -/
theorem notMem_minted_of_get {before after : List Op} (hmint : (minted (before ++ after)).Nodup)
    (hget : (run (exec sha256) Store.empty before).get m = some r) : m ∉ minted after := by
  intro hm
  unfold minted at hmint hm
  rw [List.filterMap_append, List.nodup_append] at hmint
  exact hmint.2.2 m (mem_minted_of_get before hget) m hm rfl

/-- A row that is gone stays gone until its id is minted again. -/
theorem run_get_none (sha256 : String → String) (ops : List Op) (hnew : m ∉ minted ops)
    (h : s.get m = none) :
    (run (exec sha256) s ops).get m = none := by
  induction ops generalizing s with
  | nil => exact h
  | cons op ops ih =>
    obtain ⟨hop, hrest⟩ := notMem_minted_cons.mp hnew
    rw [run_cons]
    refine ih hrest ?_
    cases h' : (exec sha256 s op).get m with
    | none => rfl
    | some r' =>
      obtain ⟨draft, now, rfl, -, -⟩ := inserted_of_exec h h'
      exact absurd rfl hop

/-- A row that is there after a run, its id not minted on the way, is there after each step. -/
theorem next_of_run {op : Op} {ops : List Op} (hnew : m ∉ minted (op :: ops))
    (h' : (run (exec sha256) s (op :: ops)).get m = some r') :
    ∃ r₁, (exec sha256 s op).get m = some r₁ ∧ m ∉ minted ops ∧
      (run (exec sha256) (exec sha256 s op) ops).get m = some r' := by
  obtain ⟨-, hrest⟩ := notMem_minted_cons.mp hnew
  rw [run_cons] at h'
  cases h₁ : (exec sha256 s op).get m with
  | none =>
    rw [run_get_none sha256 ops hrest h₁] at h'
    cases h'
  | some r₁ => exact ⟨r₁, rfl, hrest, h'⟩

/-- Two states of one row: a preorder that every step respects relates them, as long as the
id is not minted again. -/
theorem run_row_rel {Q : QueueMessage → QueueMessage → Prop} (hrefl : ∀ r, Q r r)
    (htrans : ∀ a b c, Q a b → Q b c → Q a c)
    (hstep : ∀ {s : Store} {r r' : QueueMessage} {op : Op} {l : Option DeadLetter},
      RowStep sha256 s r op r' l → Q r r')
    (ops : List Op) (hnew : m ∉ minted ops) (h : s.get m = some r)
    (h' : (run (exec sha256) s ops).get m = some r') : Q r r' := by
  induction ops generalizing s r with
  | nil =>
    rw [run_nil, h] at h'
    rw [Option.some.inj h']
    exact hrefl r'
  | cons op ops ih =>
    obtain ⟨r₁, h₁, hrest, hrun⟩ := next_of_run hnew h'
    obtain ⟨l, hrow, -⟩ := rowStep_of_exec h h₁
    exact htrans r r₁ r' (hstep hrow) (ih hrest h₁ hrun)

/-- A run without `prune` keeps every row, up to the steps it takes. -/
theorem run_row_kept (sha256 : String → String) {Q : QueueMessage → QueueMessage → Prop}
    (hrefl : ∀ r, Q r r)
    (htrans : ∀ a b c, Q a b → Q b c → Q a c)
    (hstep : ∀ {s : Store} {r r' : QueueMessage} {op : Op} {l : Option DeadLetter},
      RowStep sha256 s r op r' l → Q r r')
    (ops : List Op) (hprune : ∀ op ∈ ops, op.prunes = false) (h : s.get m = some r) :
    ∃ r', (run (exec sha256) s ops).get m = some r' ∧ Q r r' := by
  induction ops generalizing s r with
  | nil => exact ⟨r, h, hrefl r⟩
  | cons op ops ih =>
    cases h₁ : (exec sha256 s op).get m with
    | none =>
      have hp := (prunes_of_exec h h₁).1
      rw [hprune op (by simp)] at hp
      cases hp
    | some r₁ =>
      obtain ⟨r', hr', hq⟩ := ih (fun o ho => hprune o (by simp [ho])) h₁
      obtain ⟨l, hrow, -⟩ := rowStep_of_exec h h₁
      exact ⟨r', hr', htrans r r₁ r' (hstep hrow) hq⟩

/-- A note to a seat. -/
def seatDraft : EnqueueDraft where
  idempotencyKey := "k"
  receiverId := "seat"

end CliAgentOrchestrator.Queue
