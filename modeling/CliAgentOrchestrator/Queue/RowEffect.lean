import CliAgentOrchestrator.Queue.Store

/-!
# What each operation does to one row

The statements of the store select rows, then loop over them; everything proved about the
queue is about one row at a time. This file has one lemma per operation that says what
`get` answers for a row afterwards, as a function of that row alone: the loops do not
appear in any later proof.
-/

set_option autoImplicit false

namespace CliAgentOrchestrator.Queue

open CliAgentOrchestrator.Core Library

theorem get_updateMsg (s : Store) (msgId m : String) (p : QueueMessage → Bool)
    (f : Patch QueueMessage.msgId) :
    (s.updateMsg msgId p f).get m =
      (s.get m).map fun r => if m = msgId ∧ p r then f.apply r else r :=
  s.deliveryMsg.get_updateKey msgId m p f

theorem msgId_of_get {s : Store} {m : String} {r : QueueMessage} (h : s.get m = some r) :
    r.msgId = m :=
  Table.key_of_get h

theorem mem_select_msg (s : Store) (p : QueueMessage → Bool) (r : QueueMessage) :
    r ∈ s.deliveryMsg.select p ↔ s.get r.msgId = some r ∧ p r = true :=
  s.deliveryMsg.mem_select_iff p r

theorem mem_map_select (s : Store) (p : QueueMessage → Bool) (m : String) :
    m ∈ (s.deliveryMsg.select p).map QueueMessage.msgId ↔ ∃ r, s.get m = some r ∧ p r = true := by
  rw [List.mem_map]
  constructor
  · rintro ⟨r, hr, rfl⟩
    exact ⟨r, (mem_select_msg s p r).mp hr⟩
  · rintro ⟨r, hget, hr⟩
    have hm := msgId_of_get hget
    exact ⟨r, (mem_select_msg s p r).mpr ⟨by rw [hm]; exact hget, hr⟩, hm⟩

/-- A pass of keyed updates over rows selected from the table. -/
theorem get_updateEach_select (s : Store) (q : QueueMessage → Bool)
    (p : QueueMessage → QueueMessage → Bool) (f : QueueMessage → Patch QueueMessage.msgId)
    (m : String) :
    (s.deliveryMsg.updateEach (s.deliveryMsg.select q) QueueMessage.msgId p f).get m =
      (s.get m).map fun r => if q r ∧ p r r then (f r).apply r else r := by
  rw [Table.get_updateEach_rows _ _ _ _ (s.deliveryMsg.select_nodup q)
    (fun r hr => ((s.deliveryMsg.mem_select_iff q r).mp hr).1)]
  cases hr : s.get m with
  | none =>
    unfold Store.get at hr
    rw [hr]; rfl
  | some r =>
    have hmem : r ∈ s.deliveryMsg.select q ↔ q r = true := by
      rw [mem_select_msg, msgId_of_get hr]
      exact ⟨fun h => h.2, fun h => ⟨hr, h⟩⟩
    unfold Store.get at hr
    rw [hr]
    simp [hmem]

/-! ## Claim -/

theorem mem_sqlLimit {α : Type} {limit : Int} {rows : List α} {a : α}
    (h : a ∈ sqlLimit limit rows) : a ∈ rows := by
  unfold sqlLimit at h
  split at h
  · exact h
  · exact List.mem_of_mem_take h

/-- A limit that is negative or as long as the rows takes them all. -/
theorem sqlLimit_eq_self {α : Type} {limit : Int} {rows : List α}
    (h : limit < 0 ∨ (rows.length : Int) ≤ limit) : sqlLimit limit rows = rows := by
  unfold sqlLimit
  split
  · rfl
  · exact List.take_of_length_le (by omega)

theorem mem_claimRows {s : Store} {now limit : Int} {receiverId : Option String}
    {r : QueueMessage} (h : r ∈ claimRows s now limit receiverId) :
    s.get r.msgId = some r ∧ claimable now receiverId r = true := by
  have hsort := mem_sqlLimit h
  rw [List.mem_insertionSort, mem_select_msg] at hsort
  exact hsort

theorem claimRows_nodup (s : Store) (now limit : Int) (receiverId : Option String) :
    ((claimRows s now limit receiverId).map QueueMessage.msgId).Nodup := by
  have hsort : (((s.deliveryMsg.select (claimable now receiverId)).insertionSort claimOrder).map
      QueueMessage.msgId).Nodup :=
    ((List.perm_insertionSort claimOrder _).map QueueMessage.msgId).nodup_iff.mpr
      (s.deliveryMsg.select_nodup _)
  unfold claimRows sqlLimit
  split
  · exact hsort
  · exact hsort.sublist ((List.take_sublist _ _).map _)

/-- What the lease does to a row. -/
def leaseRow (leaseOwner : String) (now : Int) (r : QueueMessage) : QueueMessage :=
  (leasePatch leaseOwner (now + seconds deliveryLeaseS)).apply r

/-- The loop of `claim` from any accumulator: its rows are leased, the ones already
reported stay reported. -/
theorem claim_loop (leaseOwner : String) (now : Int) (rows : List QueueMessage)
    (hrows : (rows.map QueueMessage.msgId).Nodup) (acc : List QueueMessage × Store)
    (hready : ∀ r ∈ rows, acc.2.get r.msgId = some r ∧ r.state = .ready) :
    (rows.foldl (claimOne leaseOwner (now + seconds deliveryLeaseS)) acc).1 =
      acc.1 ++ rows.map (leaseRow leaseOwner now) ∧
    (rows.foldl (claimOne leaseOwner (now + seconds deliveryLeaseS)) acc).2 = { acc.2 with
      deliveryMsg := acc.2.deliveryMsg.updateEach rows QueueMessage.msgId
        (fun _ r => r.state == .ready)
        (fun _ => leasePatch leaseOwner (now + seconds deliveryLeaseS)) } := by
  induction rows generalizing acc with
  | nil => simp [Table.updateEach]
  | cons row rows ih =>
    rw [List.map_cons, List.nodup_cons] at hrows
    obtain ⟨hrow, hrows⟩ := hrows
    obtain ⟨hget, hstate⟩ := hready row (by simp)
    have hone : claimOne leaseOwner (now + seconds deliveryLeaseS) acc row =
        (acc.1 ++ [leaseRow leaseOwner now row],
          acc.2.updateMsg row.msgId (fun r => r.state == .ready)
            (leasePatch leaseOwner (now + seconds deliveryLeaseS))) := by
      unfold claimOne
      simp [get_updateMsg, hget, hstate, leaseRow]
    have hrest : ∀ r ∈ rows, (acc.2.updateMsg row.msgId (fun r => r.state == .ready)
        (leasePatch leaseOwner (now + seconds deliveryLeaseS))).get r.msgId = some r ∧
          r.state = .ready := by
      intro r hr
      have hne : ¬ r.msgId = row.msgId := fun he => hrow (he ▸ List.mem_map_of_mem hr)
      obtain ⟨hgetr, hstater⟩ := hready r (by simp [hr])
      rw [get_updateMsg, hgetr]
      exact ⟨by simp [hne], hstater⟩
    rw [List.foldl_cons, hone]
    obtain ⟨h1, h2⟩ := ih hrows (acc.1 ++ [leaseRow leaseOwner now row],
      acc.2.updateMsg row.msgId (fun r => r.state == .ready)
        (leasePatch leaseOwner (now + seconds deliveryLeaseS))) hrest
    refine ⟨?_, ?_⟩
    · rw [h1]; simp
    · rw [h2]; rfl

theorem claim_spec (s : Store) (leaseOwner : String) (now limit : Int)
    (receiverId : Option String) :
    (claim s leaseOwner now limit receiverId).1 =
      (claimRows s now limit receiverId).map (leaseRow leaseOwner now) ∧
    (claim s leaseOwner now limit receiverId).2 = { s with
      deliveryMsg := s.deliveryMsg.updateEach (claimRows s now limit receiverId)
        QueueMessage.msgId (fun _ r => r.state == .ready)
        (fun _ => leasePatch leaseOwner (now + seconds deliveryLeaseS)) } := by
  have hready : ∀ r ∈ claimRows s now limit receiverId, s.get r.msgId = some r ∧
      r.state = .ready := by
    intro r hr
    obtain ⟨hget, hc⟩ := mem_claimRows hr
    simp only [claimable, Bool.and_eq_true, beq_iff_eq] at hc
    exact ⟨hget, hc.1.1.1.1⟩
  have := claim_loop leaseOwner now _ (claimRows_nodup s now limit receiverId) ([], s) hready
  simpa [claim] using this

/-- A claimed row is leased; every other row is untouched. -/
theorem get_claim (s : Store) (leaseOwner : String) (now limit : Int)
    (receiverId : Option String) (m : String) :
    (claim s leaseOwner now limit receiverId).2.get m =
      (s.get m).map fun r =>
        if r ∈ claimRows s now limit receiverId then leaseRow leaseOwner now r else r := by
  rw [(claim_spec s leaseOwner now limit receiverId).2]
  have hmem := fun r (hr : r ∈ claimRows s now limit receiverId) => (mem_claimRows hr).1
  unfold Store.get
  rw [Table.get_updateEach_rows _ _ _ _ (claimRows_nodup s now limit receiverId) hmem]
  cases s.deliveryMsg.get m with
  | none => rfl
  | some r =>
    simp only [Option.map_some, Option.some.injEq]
    by_cases hr : r ∈ claimRows s now limit receiverId
    · have hc := (mem_claimRows hr).2
      simp only [claimable, Bool.and_eq_true, beq_iff_eq] at hc
      simp [hr, hc.1.1.1.1, leaseRow]
    · simp [hr]

/-- The rows a claim returns are the leased forms of rows it found claimable. -/
theorem mem_claim (s : Store) (leaseOwner : String) (now limit : Int)
    (receiverId : Option String) (c : QueueMessage)
    (h : c ∈ (claim s leaseOwner now limit receiverId).1) :
    ∃ r ∈ claimRows s now limit receiverId, c = leaseRow leaseOwner now r := by
  rw [(claim_spec s leaseOwner now limit receiverId).1, List.mem_map] at h
  obtain ⟨r, hr, rfl⟩ := h
  exact ⟨r, hr, rfl⟩

/-! ## Reclaim -/

/-- How the lease sweep leaves a row. -/
def reofferRow (s : Store) (now : Int) (r : QueueMessage) : QueueMessage :=
  if leaseExpired now r then (reofferFor s now r).apply r else r

/-- How a death sweep leaves a row. -/
def killRow (p : QueueMessage → Bool) (now : Int) (r : QueueMessage) : QueueMessage :=
  if p r then (killPatch now).apply r else r

/-- The dead letter `kill` writes for a row. -/
def letterFor (r : QueueMessage) (reason : DeadReason) (now : Int) : DeadLetter :=
  { msgId := r.msgId, idempotencyKey := r.idempotencyKey, receiverId := r.receiverId
    payload := r.payload, attempts := r.attempts, reason := reason, mode := r.mode, diedAt := now }

/-- How one `reclaim` leaves a row. -/
def reclaimRow (s : Store) (now : Int) (r : QueueMessage) : QueueMessage :=
  killRow (exhausted now) now
    (killRow (heldTooLong (ceilingBefore now)) now (reofferRow s now r))

/-- The lease sweep from any accumulator whose attempts are those of `s`. -/
theorem leaseSweep_loop (s : Store) (now : Int) (rows : List QueueMessage)
    (acc : Store × ReclaimResult) (hatt : acc.1.deliveryAttempt = s.deliveryAttempt) :
    (rows.foldl (reclaimLease now) acc).1 = { acc.1 with
      deliveryMsg := acc.1.deliveryMsg.updateEach rows QueueMessage.msgId
        (fun _ r => r.state == .leased) (reofferFor s now) } ∧
    (rows.foldl (reclaimLease now) acc).2.dead = acc.2.dead := by
  induction rows generalizing acc with
  | nil => simp [Table.updateEach]
  | cons row rows ih =>
    have hfor : reofferFor acc.1 now row = reofferFor s now row := by
      unfold reofferFor Store.lastOutcomeIn
      rw [hatt]
    have hdead : (reclaimLease now acc row).2.dead = acc.2.dead := by
      show (countLease _ acc.2).dead = acc.2.dead
      unfold countLease
      split <;> rfl
    obtain ⟨h1, h2⟩ := ih (reclaimLease now acc row) hatt
    rw [List.foldl_cons]
    refine ⟨?_, h2.trans hdead⟩
    rw [h1]
    simp only [reclaimLease, hfor]
    rfl

theorem leaseSweep_spec (s : Store) (now : Int) :
    (leaseSweep s now).1 = { s with
      deliveryMsg := s.deliveryMsg.updateEach (s.deliveryMsg.select (leaseExpired now))
        QueueMessage.msgId (fun _ r => r.state == .leased) (reofferFor s now) } ∧
    (leaseSweep s now).2.dead = [] :=
  leaseSweep_loop s now _ (s, {}) rfl

theorem get_leaseSweep (s : Store) (now : Int) (m : String) :
    (leaseSweep s now).1.get m = (s.get m).map (reofferRow s now) := by
  rw [(leaseSweep_spec s now).1]
  show (s.deliveryMsg.updateEach _ _ _ _).get m = _
  rw [get_updateEach_select]
  congr 1
  funext r
  by_cases h : leaseExpired now r
  · have hs : (r.state == .leased) = true := by
      unfold leaseExpired at h
      exact (Bool.and_eq_true_iff.mp h).1
    simp [reofferRow, h, hs]
  · simp [reofferRow, h]

/-- A death sweep from any accumulator: its rows die, each with its letter and its report. -/
theorem deathSweep_loop (reason : QueueMessage → DeadReason) (now : Int)
    (rows : List QueueMessage) (acc : Store × ReclaimResult) :
    (rows.foldl (reclaimKill reason now) acc).1 = { acc.1 with
      deliveryMsg := acc.1.deliveryMsg.updateEach rows QueueMessage.msgId (fun _ _ => true)
        (fun _ => killPatch now)
      deliveryDead := rows.foldl (fun t r => t.insert (letterFor r (reason r) now))
        acc.1.deliveryDead } ∧
    (rows.foldl (reclaimKill reason now) acc).2.dead =
      acc.2.dead ++ rows.map fun r => deadRow r (reason r) := by
  induction rows generalizing acc with
  | nil => simp [Table.updateEach]
  | cons row rows ih =>
    obtain ⟨h1, h2⟩ := ih (reclaimKill reason now acc row)
    rw [List.foldl_cons]
    refine ⟨?_, ?_⟩
    · rw [h1]; rfl
    · rw [h2]; simp [reclaimKill]

/-- A loop of inserts of the letters of rows with distinct ids. -/
theorem get_insert_letters (t : Table DeadLetter.msgId) (rows : List QueueMessage)
    (reason : QueueMessage → DeadReason) (now : Int) (m : String) :
    (rows.foldl (fun t r => t.insert (letterFor r (reason r) now)) t).get m =
      (t.get m).or ((rows.find? fun r => r.msgId = m).map fun r => letterFor r (reason r) now) := by
  induction rows generalizing t with
  | nil => simp
  | cons row rows ih =>
    rw [List.foldl_cons, ih, Table.get_insert]
    have hkey : (letterFor row (reason row) now).msgId = row.msgId := rfl
    rw [hkey]
    by_cases h : row.msgId = m
    · simp [h]
    · simp [h]

theorem get_deathSweep (p : QueueMessage → Bool) (reason : QueueMessage → DeadReason) (now : Int)
    (acc : Store × ReclaimResult) (m : String) :
    (deathSweep p reason now acc).1.get m = (acc.1.get m).map (killRow p now) := by
  unfold deathSweep
  rw [(deathSweep_loop reason now _ acc).1]
  show (acc.1.deliveryMsg.updateEach _ _ _ _).get m = _
  rw [get_updateEach_select]
  congr 1
  funext r
  simp [killRow]

theorem deadLetter_deathSweep (p : QueueMessage → Bool) (reason : QueueMessage → DeadReason)
    (now : Int) (acc : Store × ReclaimResult) (m : String) :
    (deathSweep p reason now acc).1.deadLetter m =
      (acc.1.deadLetter m).or
        (((acc.1.get m).filter p).map fun r => letterFor r (reason r) now) := by
  unfold deathSweep
  rw [(deathSweep_loop reason now _ acc).1]
  unfold Store.deadLetter
  simp only [get_insert_letters]
  have hfind : ((acc.1.deliveryMsg.select p).find? fun r => r.msgId = m) =
      (acc.1.get m).filter p := by
    ext r
    rw [Option.filter_eq_some_iff]
    have hiff := Table.get_eq_some_iff
      (⟨acc.1.deliveryMsg.select p, acc.1.deliveryMsg.select_nodup p⟩ :
        Table QueueMessage.msgId) m r
    unfold Table.get at hiff
    simp only at hiff
    rw [hiff, mem_select_msg]
    constructor
    · rintro ⟨⟨hget, hp⟩, rfl⟩
      exact ⟨hget, hp⟩
    · rintro ⟨hget, hp⟩
      have hm := msgId_of_get hget
      exact ⟨⟨by rw [hm]; exact hget, hp⟩, hm⟩
  rw [hfind]

/-- One `reclaim`, seen from one row. -/
theorem get_reclaim (s : Store) (now : Int) (m : String) :
    (reclaim s now).1.get m = (s.get m).map (reclaimRow s now) := by
  unfold reclaim exhaustionSweep holdSweep
  rw [get_deathSweep, get_deathSweep, get_leaseSweep, Option.map_map, Option.map_map]
  rfl

/-- The letter one `reclaim` writes for a row: the ceiling sweep runs first, and what it
kills the exhaustion sweep no longer sees. -/
def reclaimLetter (s : Store) (now : Int) (r : QueueMessage) : Option DeadLetter :=
  let r₁ := reofferRow s now r
  if heldTooLong (ceilingBefore now) r₁ then some (letterFor r₁ .vetoCeiling now)
  else if exhausted now r₁ then some (letterFor r₁ (deadReasonFor r₁) now)
  else none

/-- A row that just died is out of reach of the exhaustion sweep. -/
theorem exhausted_killed (now now' : Int) (r : QueueMessage) :
    exhausted now ((killPatch now').apply r) = false := by
  simp [exhausted, killPatch]

theorem deadLetter_reclaim (s : Store) (now : Int) (m : String) :
    (reclaim s now).1.deadLetter m =
      (s.deadLetter m).or ((s.get m).bind (reclaimLetter s now)) := by
  unfold reclaim exhaustionSweep holdSweep
  rw [deadLetter_deathSweep, deadLetter_deathSweep, get_deathSweep, get_leaseSweep]
  have hbase : (leaseSweep s now).1.deadLetter m = s.deadLetter m := by
    rw [(leaseSweep_spec s now).1]; rfl
  rw [hbase, Option.or_assoc]
  congr 1
  cases s.get m with
  | none => rfl
  | some r =>
    simp only [Option.map_some, Option.bind_some, reclaimLetter]
    by_cases hheld : heldTooLong (ceilingBefore now) (reofferRow s now r)
    · simp [hheld]
    · by_cases hex : exhausted now (reofferRow s now r) <;> simp [hheld, hex, killRow]

/-- The rows one `reclaim` reports dead: the ceiling sweep's, then the exhaustion sweep's. -/
theorem reclaim_dead (s : Store) (now : Int) :
    (reclaim s now).2.dead =
      ((leaseSweep s now).1.deliveryMsg.select (heldTooLong (ceilingBefore now))).map
        (fun r => deadRow r .vetoCeiling) ++
      ((holdSweep now (leaseSweep s now)).1.deliveryMsg.select (exhausted now)).map
        (fun r => deadRow r (deadReasonFor r)) := by
  have h2 := (deathSweep_loop deadReasonFor now
    ((holdSweep now (leaseSweep s now)).1.deliveryMsg.select (exhausted now))
    (holdSweep now (leaseSweep s now))).2
  have h1 := (deathSweep_loop (fun _ => .vetoCeiling) now
    ((leaseSweep s now).1.deliveryMsg.select (heldTooLong (ceilingBefore now)))
    (leaseSweep s now)).2
  unfold reclaim exhaustionSweep deathSweep
  rw [h2]
  unfold holdSweep deathSweep
  rw [h1, (leaseSweep_spec s now).2, List.nil_append]

/-! ## Ack, settlement, holds -/

theorem get_ack (s : Store) (msgId : String) (claimId now : Int) (m : String) :
    (ack s msgId claimId now).2.get m =
      (s.get m).map fun r =>
        if m = msgId ∧ ackable claimId r then (endPatch .delivered now).apply r else r :=
  get_updateMsg s msgId m _ _

theorem get_markDialogHold (s : Store) (msgId : String) (heldSince : Option Int) (m : String) :
    (markDialogHold s msgId heldSince).get m =
      (s.get m).map fun r => if m = msgId then (holdPatch heldSince).apply r else r := by
  unfold markDialogHold
  rw [get_updateMsg]
  simp

theorem get_kill (s : Store) (message : QueueMessage) (reason : DeadReason) (now : Int)
    (m : String) :
    (kill s message reason now).get m =
      (s.get m).map fun r => if m = message.msgId then (killPatch now).apply r else r := by
  show (s.updateMsg message.msgId (fun _ => true) (killPatch now)).get m = _
  rw [get_updateMsg]
  simp

theorem deadLetter_kill (s : Store) (message : QueueMessage) (reason : DeadReason) (now : Int)
    (m : String) :
    (kill s message reason now).deadLetter m =
      (s.deadLetter m).or (if message.msgId = m then some (letterFor message reason now) else none) :=
  s.deliveryDead.get_insert _ m

/-- How `settle` leaves a row that had not ended. -/
def settleRow (state : MsgState) (now : Int) (attempts : Option Int) (r : QueueMessage) :
    QueueMessage :=
  if state = .dead then (killPatch now).apply (withAttempts attempts r)
  else (endPatch state now).apply (withAttempts attempts r)

/-- The letter `settle` writes for a row that had not ended. -/
def settleLetter (state : MsgState) (now : Int) (reason : Option DeadReason)
    (attempts : Option Int) (r : QueueMessage) : Option DeadLetter :=
  if state = .dead then reason.map fun reason => letterFor (withAttempts attempts r) reason now
  else none

@[simp] theorem withAttempts_msgId (attempts : Option Int) (r : QueueMessage) :
    (withAttempts attempts r).msgId = r.msgId := by
  cases attempts <;> rfl

/-- The live branch ends the row it was given, and a death leaves its letter. -/
theorem settleLive_spec (s : Store) (message : QueueMessage) (state : MsgState) (now : Int)
    (reason : Option DeadReason) (attempts : Option Int)
    (hreason : state = .dead → reason ≠ none) :
    (∀ m, (settleLive s message state now reason attempts).get m = (s.get m).map fun r =>
      if m = message.msgId then settleRow state now attempts r else r) ∧
    (∀ m, (settleLive s message state now reason attempts).deadLetter m =
      (s.deadLetter m).or
        (if m = message.msgId then settleLetter state now reason attempts message else none)) ∧
    (settleLive s message state now reason attempts).deliveryAttempt = s.deliveryAttempt := by
  -- the store after the attempt count was written
  obtain ⟨s', hs'⟩ : ∃ s' : Store, s' = attempts.elim s fun n =>
      s.updateMsg message.msgId (fun _ => true) (attemptsPatch n) := ⟨_, rfl⟩
  have hget' : ∀ m, s'.get m = (s.get m).map fun r =>
      if m = message.msgId then withAttempts attempts r else r := by
    intro m
    rw [hs']
    cases attempts with
    | none => simp [withAttempts]
    | some n =>
      simp only [Option.elim_some, get_updateMsg]
      simp [withAttempts, attemptsPatch]
  have hrest : s'.deliveryDead = s.deliveryDead ∧ s'.deliveryAttempt = s.deliveryAttempt := by
    rw [hs']
    cases attempts <;> exact ⟨rfl, rfl⟩
  by_cases hdead : state = .dead
  · obtain ⟨why, rfl⟩ := Option.ne_none_iff_exists'.mp (hreason hdead)
    subst hdead
    have hlive : settleLive s message .dead now (some why) attempts =
        kill s' (withAttempts attempts message) why now := by
      rw [hs']
      cases attempts <;> rfl
    rw [hlive]
    refine ⟨fun m => ?_, fun m => ?_, hrest.2⟩
    · rw [get_kill, hget', Option.map_map]
      congr 1
      funext r
      by_cases hm : m = message.msgId <;> simp [hm, settleRow]
    · rw [deadLetter_kill]
      unfold Store.deadLetter
      rw [hrest.1, withAttempts_msgId]
      by_cases hm : m = message.msgId
      · simp [hm, settleLetter]
      · simp [hm, Ne.symm hm]
  · have hlive : settleLive s message state now reason attempts =
        s'.updateMsg message.msgId (fun _ => true) (endPatch state now) := by
      rw [hs']
      unfold settleLive
      cases attempts <;> cases state <;> first | rfl | exact absurd rfl hdead
    rw [hlive]
    refine ⟨fun m => ?_, fun m => ?_, hrest.2⟩
    · rw [get_updateMsg, hget', Option.map_map]
      congr 1
      funext r
      by_cases hm : m = message.msgId <;> simp [hm, settleRow, hdead]
    · show s'.deadLetter m = _
      unfold Store.deadLetter
      rw [hrest.1]
      simp [settleLetter, hdead]

/-- A `settle` that returns found valid arguments and ended the row, unless the row was missing
or had ended before. -/
theorem settle_spec {s s' : Store} {msgId : String} {state : MsgState} {now : Int}
    {reason : Option DeadReason} {attempts : Option Int} {b : Bool}
    (h : settle s msgId state now reason attempts = .ok (b, s')) :
    state ∈ terminalStates ∧ (state = .dead → reason ≠ none) ∧
    (∀ m, s'.get m = (s.get m).map fun r =>
      if m = msgId ∧ r.terminal = false then settleRow state now attempts r else r) ∧
    (∀ m, s'.deadLetter m = (s.deadLetter m).or ((s.get m).bind fun r =>
      if m = msgId ∧ r.terminal = false then settleLetter state now reason attempts r
      else none)) ∧
    s'.deliveryAttempt = s.deliveryAttempt := by
  unfold settle at h
  split at h
  · cases h
  next hstate =>
  split at h
  · cases h
  next hreason =>
  have hwhy : state = .dead → reason ≠ none := fun hd hr => hreason ⟨hd, hr⟩
  refine ⟨by simpa using hstate, hwhy, ?_⟩
  -- nothing happens to a store whose row is missing or has ended
  have hidle : (∀ r, s.get msgId = some r → r.terminal = true) → s' = s →
      (∀ m, s'.get m = (s.get m).map fun r =>
        if m = msgId ∧ r.terminal = false then settleRow state now attempts r else r) ∧
      (∀ m, s'.deadLetter m = (s.deadLetter m).or ((s.get m).bind fun r =>
        if m = msgId ∧ r.terminal = false then settleLetter state now reason attempts r
        else none)) ∧
      s'.deliveryAttempt = s.deliveryAttempt := by
    rintro hended rfl
    have hno : ∀ m r, s'.get m = some r → ¬ (m = msgId ∧ r.terminal = false) := by
      rintro m r hr ⟨rfl, hf⟩
      rw [hended r hr] at hf
      cases hf
    refine ⟨fun m => ?_, fun m => ?_, rfl⟩
    · cases hr : s'.get m with
      | none => rfl
      | some r => rw [Option.map_some, if_neg (hno m r hr)]
    · cases hr : s'.get m with
      | none => simp
      | some r => rw [Option.bind_some, if_neg (hno m r hr), Option.or_none]
  split at h
  · next hnone =>
    obtain ⟨rfl, rfl⟩ : false = b ∧ s = s' := by simpa using h
    exact hidle (fun r hr => by rw [hnone] at hr; cases hr) rfl
  · next message hget =>
    have hmsg : message.msgId = msgId := msgId_of_get hget
    split at h
    · next hterm =>
      obtain ⟨rfl, rfl⟩ : false = b ∧ s = s' := by simpa using h
      refine hidle (fun r hr => ?_) rfl
      rw [hget, Option.some.injEq] at hr
      rw [← hr, hterm]
    · next hterm =>
      obtain ⟨rfl, rfl⟩ : true = b ∧ settleLive s message state now reason attempts = s' := by
        simpa using h
      subst hmsg
      obtain ⟨h1, h2, h3⟩ := settleLive_spec s message state now reason attempts hwhy
      have hlive : message.terminal = false := by simpa using hterm
      refine ⟨fun m => ?_, fun m => ?_, h3⟩
      · rw [h1]
        by_cases hm : m = message.msgId
        · subst hm; rw [hget]; simp [hlive]
        · simp [hm]
      · rw [h2]
        by_cases hm : m = message.msgId
        · subst hm; rw [hget]; simp [hlive]
        · simp [hm]

/-! ## Sweeps that end rows, and retention -/

theorem endSweep_loop (rows : List QueueMessage) (p : QueueMessage → Bool) (state : MsgState)
    (now : Int) (acc : List String × Store) :
    rows.foldl
      (fun acc row => (acc.1 ++ [row.msgId], acc.2.updateMsg row.msgId p (endPatch state now))) acc =
    (acc.1 ++ rows.map QueueMessage.msgId, { acc.2 with
      deliveryMsg := acc.2.deliveryMsg.updateEach rows QueueMessage.msgId (fun _ => p)
        (fun _ => endPatch state now) }) := by
  induction rows generalizing acc with
  | nil => simp [Table.updateEach]
  | cons row rows ih =>
    rw [List.foldl_cons, ih]
    simp [Table.updateEach, Store.updateMsg]

theorem endSweep_spec (rows : List QueueMessage) (p : QueueMessage → Bool) (state : MsgState)
    (now : Int) (s : Store) :
    endSweep rows p state now s = (rows.map QueueMessage.msgId, { s with
      deliveryMsg := s.deliveryMsg.updateEach rows QueueMessage.msgId (fun _ => p)
        (fun _ => endPatch state now) }) := by
  unfold endSweep
  rw [endSweep_loop, List.nil_append]

theorem get_cancelOnComplete (s : Store) (receiverId : String) (now : Int) (m : String) :
    (cancelOnComplete s receiverId now).2.get m =
      (s.get m).map fun r =>
        if cancellable receiverId r then (endPatch .superseded now).apply r else r := by
  unfold cancelOnComplete
  rw [endSweep_spec]
  show (s.deliveryMsg.updateEach _ _ _ _).get m = _
  rw [get_updateEach_select]
  congr 1
  funext r
  by_cases h : cancellable receiverId r
  · have hs : (r.state == .ready) = true := by
      simp only [cancellable, Bool.and_eq_true] at h
      exact h.1.1.2
    simp [h, hs]
  · simp [h]

theorem get_settleThrough (s : Store) (receiverId : String) (upToId now : Int) (m : String) :
    (settleThrough s receiverId upToId now).2.get m =
      (s.get m).map fun r =>
        if settleable receiverId upToId r then (endPatch .delivered now).apply r else r := by
  unfold settleThrough
  rw [endSweep_spec]
  show (s.deliveryMsg.updateEach _ _ _ _).get m = _
  rw [get_updateEach_select]
  congr 1
  funext r
  simp

/-- The ids `settle_through` returns are those of the rows it settles. -/
theorem mem_settleThrough (s : Store) (receiverId : String) (upToId now : Int) (m : String) :
    m ∈ (settleThrough s receiverId upToId now).1 ↔
      ∃ r, s.get m = some r ∧ settleable receiverId upToId r = true := by
  unfold settleThrough
  rw [endSweep_spec]
  exact mem_map_select s _ m

theorem mem_cancelOnComplete (s : Store) (receiverId : String) (now : Int) (m : String) :
    m ∈ (cancelOnComplete s receiverId now).1 ↔
      ∃ r, s.get m = some r ∧ cancellable receiverId r = true := by
  unfold cancelOnComplete
  rw [endSweep_spec]
  exact mem_map_select s _ m

/-- A loop of `pruneRow`s empties exactly the ids it names, in every table. -/
theorem prune_loop (rows : List QueueMessage) (s : Store) (m : String) :
    (rows.foldl (fun s row => pruneRow s row.msgId) s).get m =
      (if rows.any (fun r => r.msgId == m) then none else s.get m) ∧
    (rows.foldl (fun s row => pruneRow s row.msgId) s).deadLetter m =
      (if rows.any (fun r => r.msgId == m) then none else s.deadLetter m) ∧
    (rows.foldl (fun s row => pruneRow s row.msgId) s).deliveryAttempt.rows =
      s.deliveryAttempt.rows.filter (fun a => !rows.any fun r => r.msgId == a.msgId) := by
  induction rows generalizing s with
  | nil => simp
  | cons row rows ih =>
    obtain ⟨h1, h2, h3⟩ := ih (pruneRow s row.msgId)
    have hget : (pruneRow s row.msgId).get m = if m = row.msgId then none else s.get m :=
      s.deliveryMsg.get_deleteKey row.msgId m
    have hdead : (pruneRow s row.msgId).deadLetter m =
        if m = row.msgId then none else s.deadLetter m :=
      s.deliveryDead.get_deleteKey row.msgId m
    rw [List.foldl_cons]
    refine ⟨?_, ?_, ?_⟩
    · rw [h1, hget]
      by_cases hm : m = row.msgId
      · simp [hm]
      · simp [hm, Ne.symm hm]
    · rw [h2, hdead]
      by_cases hm : m = row.msgId
      · simp [hm]
      · simp [hm, Ne.symm hm]
    · rw [h3]
      simp only [pruneRow, Table.delete, List.filter_filter]
      congr 1
      funext a
      by_cases ha : row.msgId = a.msgId
      · simp [ha]
      · have hb : (a.msgId == row.msgId) = false := by simpa using Ne.symm ha
        simp [ha, hb]

/-- Is the row among those one `prune` deletes? -/
theorem any_prunable_iff (s : Store) (now : Int) (isProtected : List String) (m : String) :
    ((s.deliveryMsg.select (prunable now isProtected)).any fun r => r.msgId == m) =
      (s.get m).any (prunable now isProtected) := by
  rw [Bool.eq_iff_iff, List.any_eq_true]
  constructor
  · rintro ⟨r, hr, hm⟩
    obtain ⟨hget, hp⟩ := (mem_select_msg s _ r).mp hr
    rw [beq_iff_eq] at hm
    rw [← hm, hget]
    exact hp
  · intro h
    cases hget : s.get m with
    | none => rw [hget] at h; cases h
    | some r =>
      rw [hget] at h
      have hm := msgId_of_get hget
      exact ⟨r, (mem_select_msg s _ r).mpr ⟨by rw [hm]; exact hget, h⟩, by simp [hm]⟩

theorem get_prune (s : Store) (now : Int) (isProtected : List String) (m : String) :
    (prune s now isProtected).2.get m = (s.get m).filter fun r => !prunable now isProtected r := by
  have h := (prune_loop (s.deliveryMsg.select (prunable now isProtected)) s m).1
  rw [any_prunable_iff] at h
  show Store.get (List.foldl _ _ _) m = _
  rw [h]
  cases s.get m with
  | none => simp
  | some r => by_cases hp : prunable now isProtected r <;> simp [Option.filter, hp]

theorem deadLetter_prune (s : Store) (now : Int) (isProtected : List String) (m : String) :
    (prune s now isProtected).2.deadLetter m =
      if (s.get m).any (prunable now isProtected) then none else s.deadLetter m := by
  have h := (prune_loop (s.deliveryMsg.select (prunable now isProtected)) s m).2.1
  rw [any_prunable_iff] at h
  exact h

/-! ## Digests and re-parenting -/

theorem leaveDigest_frame (s : Store) (receiverId msgId : String) (now : Int) :
    (leaveDigest s receiverId msgId now).deliveryMsg = s.deliveryMsg ∧
    (leaveDigest s receiverId msgId now).deliveryAttempt = s.deliveryAttempt ∧
    (leaveDigest s receiverId msgId now).deliveryDead = s.deliveryDead := by
  unfold leaveDigest
  split
  · exact ⟨rfl, rfl, rfl⟩
  · split <;> exact ⟨rfl, rfl, rfl⟩

theorem joinDigest_frame (s : Store) (receiverId msgId : String) (now : Int) :
    (joinDigest s receiverId msgId now).deliveryMsg = s.deliveryMsg ∧
    (joinDigest s receiverId msgId now).deliveryAttempt = s.deliveryAttempt ∧
    (joinDigest s receiverId msgId now).deliveryDead = s.deliveryDead := by
  unfold joinDigest
  split
  · exact ⟨rfl, rfl, rfl⟩
  · split <;> exact ⟨rfl, rfl, rfl⟩

/-- How `reparent` leaves a row that had not ended. -/
def reparentRow (sha256 : String → String) (newReceiverId messagePrefix : String)
    (r : QueueMessage) : QueueMessage :=
  (reparentPatch newReceiverId (messagePrefix ++ r.payload)
    (sha256 (messagePrefix ++ r.payload))).apply r

/-- A re-parent rewrites one live row. -/
theorem reparent_spec (sha256 : String → String) (s : Store) (msgId newReceiverId : String)
    (now : Int) (messagePrefix : String) :
    (∀ m, (reparent sha256 s msgId newReceiverId now messagePrefix).2.get m =
      (s.get m).map fun r =>
        if m = msgId ∧ r.terminal = false ∧ r.receiverId ≠ newReceiverId then
          reparentRow sha256 newReceiverId messagePrefix r else r) ∧
    (reparent sha256 s msgId newReceiverId now messagePrefix).2.deliveryAttempt =
      s.deliveryAttempt ∧
    (reparent sha256 s msgId newReceiverId now messagePrefix).2.deliveryDead = s.deliveryDead := by
  unfold reparent
  cases hget : s.get msgId with
  | none =>
    refine ⟨fun m => ?_, rfl, rfl⟩
    by_cases hm : m = msgId
    · simp [hm, hget]
    · simp [hm]
  | some message =>
    by_cases hterm : message.terminal = true
    · refine ⟨fun m => ?_, by simp [hterm], by simp [hterm]⟩
      by_cases hm : m = msgId
      · simp [hm, hget, hterm]
      · simp [hm, hterm]
    · by_cases hrecv : message.receiverId = newReceiverId
      · refine ⟨fun m => ?_, by simp [hterm, hrecv], by simp [hterm, hrecv]⟩
        by_cases hm : m = msgId
        · simp [hm, hget, hrecv, hterm]
        · simp [hm, hrecv, hterm]
      · simp only [hterm, hrecv, Bool.false_eq_true, if_false]
        obtain ⟨hl1, hl2, hl3⟩ := leaveDigest_frame
          (s.updateMsg msgId (fun _ => true) (reparentPatch newReceiverId
            (messagePrefix ++ message.payload) (sha256 (messagePrefix ++ message.payload))))
          message.receiverId msgId now
        obtain ⟨hj1, hj2, hj3⟩ := joinDigest_frame
          (leaveDigest (s.updateMsg msgId (fun _ => true) (reparentPatch newReceiverId
            (messagePrefix ++ message.payload) (sha256 (messagePrefix ++ message.payload))))
            message.receiverId msgId now) newReceiverId msgId now
        refine ⟨fun m => ?_, hj2.trans hl2, hj3.trans hl3⟩
        show Table.get _ m = _
        rw [hj1, hl1]
        show (s.updateMsg msgId _ _).get m = _
        rw [get_updateMsg]
        by_cases hm : m = msgId
        · simp [hm, hget, hterm, hrecv, reparentRow]
        · simp [hm]

end CliAgentOrchestrator.Queue
