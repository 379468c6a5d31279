import CliAgentOrchestrator.Wiring.Mailroom

/-!
# Drain and ack

A wake names the epoch over `undelivered_ids`; the seat lists with `pending_for_receiver` and
acks the largest id it was shown. The epoch counts rows by state alone, the listing and the ack
only those with a surrogate, and the notice of a death has none.
-/

set_option autoImplicit false

namespace CliAgentOrchestrator.Wiring

open CliAgentOrchestrator.Core Library Queue Inbox

/-- The ack of a seat: settle, then close the epoch if nothing in it is owed any more.
SOURCE: services/mailbox_service.py:1024-1069 -/
def ackOnQueue (s : Store) (mailboxId : String) (upToId now : Int) : Bool × Store :=
  let settled := settleThrough s mailboxId upToId now
  if settled.1 = [] then (false, settled.2)
  else
    match openDigestIn settled.2 mailboxId with
    | none => (true, settled.2)
    | some digest =>
      if allTerminal settled.2 digest.msgIds then
        (true, (closeDigest settled.2 mailboxId digest.epoch "mcp_ack" now).2)
      else (true, settled.2)

/-- The largest id of a listing from the start. -/
def largestListed (s : Store) (receiverId : String) (limit : Int) : Option Int :=
  ((pendingForReceiver s receiverId 0 limit).filterMap (·.legacyMessageId)).max?

/-- A listing of at most `limit` rows, and the ack of its largest id, do the receiver's duty. -/
structure Drains (s : Store) (receiverId : String) (limit : Int) : Prop where
  listed : ∀ m ∈ undeliveredIds s receiverId,
    m ∈ (pendingForReceiver s receiverId 0 limit).map QueueMessage.msgId
  settled : ∀ upToId now, largestListed s receiverId limit = some upToId →
    undeliveredIds (settleThrough s receiverId upToId now).2 receiverId = []
  /-- The epoch the ids of the receiver's rows stand in is closed. -/
  closed : ∀ upToId now digest, largestListed s receiverId limit = some upToId →
    openDigestIn s receiverId = some digest →
    (∀ m ∈ digest.msgIds, ∀ r, s.get m = some r → r.terminal = false →
      r.receiverId = receiverId) →
    ∃ d, (ackOnQueue s receiverId upToId now).2.seatDigest.get digest.key = some d ∧
      d.consumedAt = some now

/-- Every listing that is long enough drains the receiver. -/
def DrainComplete (s : Store) (receiverId : String) : Prop :=
  ∃ enough, ∀ limit, enough ≤ limit → Drains s receiverId limit

variable {s : Store} {receiverId : String}

theorem settleThrough_seatDigest (s : Store) (receiverId : String) (upToId now : Int) :
    (settleThrough s receiverId upToId now).2.seatDigest = s.seatDigest := by
  unfold settleThrough
  rw [endSweep_spec]

theorem openDigestIn_settleThrough (s : Store) (receiverId : String) (upToId now : Int) :
    openDigestIn (settleThrough s receiverId upToId now).2 receiverId =
      openDigestIn s receiverId := by
  unfold openDigestIn
  rw [settleThrough_seatDigest]

/-- The open epoch is a row of its table, of this receiver, not consumed. -/
theorem openDigestIn_eq_some {digest : SeatDigest} (h : openDigestIn s receiverId = some digest) :
    s.seatDigest.get digest.key = some digest ∧ digest.receiverId = receiverId ∧
      digest.consumedAt = none := by
  unfold openDigestIn at h
  have hmem := List.mem_of_mem_head? (Option.mem_def.mpr h)
  rw [List.mem_insertionSort, Table.mem_select_iff, Bool.and_eq_true] at hmem
  obtain ⟨hget, hrecv, hopen⟩ := hmem
  exact ⟨hget, eq_of_beq hrecv, Option.isNone_iff_eq_none.mp hopen⟩

/-- A row with a surrogate within the listing is at or below the largest id listed. -/
theorem le_largestListed {r : QueueMessage} {limit n upToId : Int}
    (hmem : r ∈ pendingForReceiver s receiverId 0 limit) (hn : r.legacyMessageId = some n)
    (hmax : largestListed s receiverId limit = some upToId) : n ≤ upToId := by
  unfold largestListed at hmax
  refine (List.max?_eq_some_iff.mp hmax).2 n ?_
  exact List.mem_filterMap.mpr ⟨r, hmem, hn⟩

/-- The largest id listed is the surrogate of an undelivered row. -/
theorem largestListed_mem {limit upToId : Int}
    (hmax : largestListed s receiverId limit = some upToId) :
    ∃ r, r ∈ pendingForReceiver s receiverId 0 limit ∧ r.legacyMessageId = some upToId := by
  unfold largestListed at hmax
  exact List.mem_filterMap.mp (List.max?_eq_some_iff.mp hmax).1

/-- Without a notice, what the epoch counts has a positive surrogate. -/
theorem surrogate_of_undelivered {r : QueueMessage} {m : String}
    (hshaped : ∀ m r, s.get m = some r → Shaped r.isNotice r.legacyMessageId)
    (hnotice : ∀ m r, s.get m = some r → r.receiverId = receiverId → r.terminal = false →
      r.isNotice = false)
    (hget : s.get m = some r) (hrecv : r.receiverId = receiverId) (hlive : r.terminal = false) :
    ∃ n, r.legacyMessageId = some n ∧ 0 < n := by
  have hfalse := hnotice m r hget hrecv hlive
  obtain ⟨htrue, -⟩ | ⟨-, hn⟩ := hshaped m r hget
  · rw [hfalse] at htrue
    cases htrue
  · exact hn

/-- After the ack of the largest id of a full listing nothing is owed. -/
theorem undeliveredIds_settleThrough {limit upToId : Int} (now : Int)
    (hall : ∀ m r, s.get m = some r → r.receiverId = receiverId → r.terminal = false →
      ∃ n, r ∈ pendingForReceiver s receiverId 0 limit ∧ r.legacyMessageId = some n)
    (hmax : largestListed s receiverId limit = some upToId) :
    undeliveredIds (settleThrough s receiverId upToId now).2 receiverId = [] := by
  rw [List.eq_nil_iff_forall_not_mem]
  intro m hm
  obtain ⟨r', hget', hrecv', hlive'⟩ := (mem_undeliveredIds _ _ _).mp hm
  rw [get_settleThrough, Option.map_eq_some_iff] at hget'
  obtain ⟨r, hget, hr'⟩ := hget'
  by_cases hs : settleable receiverId upToId r = true
  · -- a settled row has ended
    rw [if_pos hs] at hr'
    subst hr'
    cases hlive'
  · rw [if_neg hs] at hr'
    subst hr'
    obtain ⟨n, hmem, hn⟩ := hall m r hget hrecv' hlive'
    have hle := le_largestListed hmem hn hmax
    have hmode : r.mode = .live := by cases r.mode; rfl
    apply hs
    simp [settleable, hrecv', hmode, hn, hle, hlive']

/-- Nothing undelivered, nothing of the epoch left: the ack closes it. -/
theorem ackOnQueue_closes {limit upToId : Int} {digest : SeatDigest} (now : Int)
    (hempty : undeliveredIds (settleThrough s receiverId upToId now).2 receiverId = [])
    (hmax : largestListed s receiverId limit = some upToId)
    (hopen : openDigestIn s receiverId = some digest)
    (hown : ∀ m ∈ digest.msgIds, ∀ r, s.get m = some r → r.terminal = false →
      r.receiverId = receiverId) :
    ∃ d, (ackOnQueue s receiverId upToId now).2.seatDigest.get digest.key = some d ∧
      d.consumedAt = some now := by
  obtain ⟨hget, hrecv, hnone⟩ := openDigestIn_eq_some hopen
  obtain ⟨top, htop, hn⟩ := largestListed_mem hmax
  obtain ⟨htopGet, htopRecv, htopLive, -⟩ := mem_pendingForReceiver htop
  have hsettled : (settleThrough s receiverId upToId now).1 ≠ [] := by
    intro hnil
    have hmem : top.msgId ∈ (settleThrough s receiverId upToId now).1 := by
      rw [mem_settleThrough]
      have hmode : top.mode = .live := by cases top.mode; rfl
      refine ⟨top, htopGet, ?_⟩
      simp [settleable, htopRecv, hmode, hn, htopLive]
    rw [hnil] at hmem
    cases hmem
  have hterminal : allTerminal (settleThrough s receiverId upToId now).2 digest.msgIds = true := by
    unfold allTerminal
    rw [Bool.not_eq_true', List.any_eq_false]
    intro r' hr' hcontra
    rw [Bool.and_eq_true, Bool.not_eq_true', List.contains_iff_mem] at hcontra
    obtain ⟨hin, hlive'⟩ := hcontra
    have hget' := (Table.mem_rows_iff _ r').mp hr'
    -- a row still owed after the ack was the receiver's before it
    obtain ⟨r, hr, hchange⟩ : ∃ r, s.get r'.msgId = some r ∧
        (if settleable receiverId upToId r then (endPatch .delivered now).apply r else r) = r' := by
      have hmap : (settleThrough s receiverId upToId now).2.get r'.msgId = some r' := hget'
      rw [get_settleThrough, Option.map_eq_some_iff] at hmap
      exact hmap
    by_cases hs : settleable receiverId upToId r = true
    · rw [if_pos hs] at hchange
      subst hchange
      cases hlive'
    · rw [if_neg hs] at hchange
      subst hchange
      have hmine := hown r.msgId hin r hr hlive'
      have hmem := (mem_undeliveredIds (settleThrough s receiverId upToId now).2 receiverId
        r.msgId).mpr ⟨r, hget', hmine, hlive'⟩
      rw [hempty] at hmem
      cases hmem
  have hstore : (ackOnQueue s receiverId upToId now).2 =
      (closeDigest (settleThrough s receiverId upToId now).2 receiverId digest.epoch
        "mcp_ack" now).2 := by
    unfold ackOnQueue
    simp only [hsettled, if_false, openDigestIn_settleThrough, hopen, hterminal, if_true]
  have hkey : digest.key = (receiverId, digest.epoch) := by
    unfold SeatDigest.key
    rw [hrecv]
  rw [hstore]
  refine ⟨(consumePatch "mcp_ack" now).apply digest, ?_, rfl⟩
  show ((settleThrough s receiverId upToId now).2.seatDigest.updateKey (receiverId, digest.epoch)
    (fun d => d.consumedAt.isNone) (consumePatch "mcp_ack" now)).get digest.key = _
  rw [settleThrough_seatDigest, Table.get_updateKey, hget, ← hkey]
  simp [hnone]

/-- Where every row is shaped as its producer shapes it, the receiver can drain what it is owed
unless it is owed a notice. -/
theorem drainComplete_of_shaped
    (hshaped : ∀ m r, s.get m = some r → Shaped r.isNotice r.legacyMessageId)
    (hnotice : ∀ m r, s.get m = some r → r.receiverId = receiverId → r.terminal = false →
      r.isNotice = false) : DrainComplete s receiverId := by
  refine ⟨s.deliveryMsg.rows.length, ?_⟩
  intro limit hlimit
  have hall : ∀ m r, s.get m = some r → r.receiverId = receiverId → r.terminal = false →
      ∃ n, r ∈ pendingForReceiver s receiverId 0 limit ∧ r.legacyMessageId = some n := by
    intro m r hget hrecv hlive
    obtain ⟨n, hn, hpos⟩ := surrogate_of_undelivered hshaped hnotice hget hrecv hlive
    rw [← msgId_of_get hget] at hget
    exact ⟨n, mem_pendingForReceiver_of_limit (.inr hlimit) hget hrecv hlive hn hpos, hn⟩
  refine ⟨?_, ?_, ?_⟩
  · intro m hm
    obtain ⟨r, hget, hrecv, hlive⟩ := (mem_undeliveredIds s receiverId m).mp hm
    obtain ⟨n, hmem, -⟩ := hall m r hget hrecv hlive
    exact List.mem_map.mpr ⟨r, hmem, msgId_of_get hget⟩
  · intro upToId now hmax
    exact undeliveredIds_settleThrough now hall hmax
  · intro upToId now digest hmax hopen hown
    exact ackOnQueue_closes now (undeliveredIds_settleThrough now hall hmax) hmax hopen hown

/-- A row without a surrogate is in the epoch and in no listing. -/
theorem DrainComplete.surrogate (h : DrainComplete s receiverId) {m : String} {r : QueueMessage}
    (hget : s.get m = some r) (hrecv : r.receiverId = receiverId) (hlive : r.terminal = false) :
    r.legacyMessageId ≠ none := by
  obtain ⟨enough, hdrains⟩ := h
  have hmem := (hdrains enough le_rfl).listed m
    ((mem_undeliveredIds s receiverId m).mpr ⟨r, hget, hrecv, hlive⟩)
  obtain ⟨x, hx, hid⟩ := List.mem_map.mp hmem
  obtain ⟨hxget, -, -, n, hn, -⟩ := mem_pendingForReceiver hx
  rw [hid, hget] at hxget
  cases hxget
  rw [hn]
  simp

/-- In every state a run reaches, a receiver's drain is complete exactly when no notice is
waiting for it. -/
theorem drainComplete_iff_noNotice (sha256 contentHash : String → String)
    (calls : Nat → InboxRow) (events : List Event) (receiverId : String) :
    DrainComplete (run (step sha256 contentHash calls) Mailroom.start events).store receiverId ↔
      ∀ m r, (run (step sha256 contentHash calls) Mailroom.start events).store.get m = some r →
        r.receiverId = receiverId → r.terminal = false → r.isNotice = false := by
  have hshaped := (wf_run sha256 contentHash calls events).shaped
  constructor
  · intro h m r hget hrecv hlive
    obtain ⟨-, hnone⟩ | ⟨hfalse, -⟩ := hshaped m r hget
    · exact absurd hnone (h.surrogate hget hrecv hlive)
    · exact hfalse
  · exact drainComplete_of_shaped hshaped

/-- A worker reports to a seat that takes nothing; the report dies at its deadline. -/
def unreadReport : Nat → InboxRow :=
  fun _ => { id := 0, senderId := "worker", receiverId := "mb_seat", message := "done" }

/-- The report is written through, dies, and its death is announced to the worker. -/
def announced : List Event :=
  [.findRecentDuplicate 0 0, .nextSurrogateId 0, .enqueue 0 "01" 0,
    .queue (.reclaim (seconds 1700)),
    .announceDeath ⟨"01", "mb_seat", "worker", .maxLifetime, false, 0⟩ "02" (seconds 1700)]

/-- The worker's epoch holds the notice, and no listing returns it. -/
theorem announced_not_drainComplete :
    ¬ ∃ sha256 contentHash, DrainComplete
      (run (step sha256 contentHash unreadReport) Mailroom.start announced).store "worker" := by
  rintro ⟨sha256, contentHash, h⟩
  obtain ⟨report, hreport⟩ : ∃ report,
      factDraft (liveKey 1) (writeThroughFact (unreadReport 0)) 1 = some report := ⟨_, rfl⟩
  -- the report is dead, and the key and the id of its notice are free
  obtain ⟨died, hdied, hkey, hid⟩ : ∃ died, (reclaim (enqueueFact sha256 Store.empty
      (writeThroughFact (unreadReport 0)) 1 "01" 0).2 (seconds 1700)).1 = died ∧
      died.getByIdempotencyKey (noticeKey "01") = none ∧ died.get "02" = none := by
    rw [enqueueFact_fresh hreport rfl rfl]
    cases hreport
    exact ⟨_, rfl, rfl, rfl⟩
  obtain ⟨notice, hnotice, hnkey, hto, hnone⟩ : ∃ notice,
      noticeDraft ⟨"01", "mb_seat", "worker", .maxLifetime, false, 0⟩ = some notice ∧
        notice.idempotencyKey = noticeKey "01" ∧ notice.receiverId = "worker" ∧
          notice.legacyMessageId = none := ⟨_, rfl, rfl, rfl, rfl⟩
  rw [← hnkey] at hkey
  have hsent : (run (step sha256 contentHash unreadReport) Mailroom.start (announced.take 3)).store =
      (enqueueFact sha256 Store.empty (writeThroughFact (unreadReport 0)) 1 "01" 0).2 := rfl
  have hrun : (run (step sha256 contentHash unreadReport) Mailroom.start announced).store =
      exec sha256 died (.enqueue notice "02" (seconds 1700)) := by
    rw [← List.take_append_drop 3 announced, run_append]
    simp only [announced, List.drop, run_cons, run_nil, step, hnotice, Op.minted, if_true,
      Mailroom.withStore_store]
    rw [← hdied, ← hsent]
    rfl
  have hget : (run (step sha256 contentHash unreadReport) Mailroom.start announced).store.get "02" =
      some (draftRow sha256 notice "02" (seconds 1700)) := by
    rw [hrun, exec_enqueue_fresh hkey hid]
    rw [get_insert_row died _ hid]
    rfl
  exact h.surrogate hget hto rfl hnone

end CliAgentOrchestrator.Wiring
