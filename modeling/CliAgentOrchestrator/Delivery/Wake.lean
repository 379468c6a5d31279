import CliAgentOrchestrator.Delivery.Pace
import Mathlib.Computability.TuringMachine.StackTuringMachine
import Mathlib.Data.List.Permutation

/-!
# One wake to a lease period

The wake count of an open epoch stays within the lease periods begun since it was built as long
as no tick wakes a receiver while a lease of its runs, and no lease ends before its time with the
epoch left open. A row that arrives inside a lease, or waits beyond the claim limit, is claimed
by the next tick and wakes the receiver again.

`cbv` takes the equations of `Option.isNone` and `Prod.snd` from the two Mathlib modules.
-/

set_option autoImplicit false

namespace CliAgentOrchestrator.Delivery

open CliAgentOrchestrator.Core Library Queue Wiring

variable {sha256 : String → String} {s s' s'' b : Store} {m receiverId : String} {t : Tick}
  {now now' e : Int} {ends : Prop}

/-! ## The other receivers -/

/-- The rows and epochs of every other receiver are left alone. -/
structure ServesOnly (receiverId : String) (s s' : Store) : Prop where
  rows : ∀ m r, r.receiverId ≠ receiverId → (s'.get m = some r ↔ s.get m = some r)
  digests : ∀ k d, d.receiverId ≠ receiverId →
    (s'.seatDigest.get k = some d ↔ s.seatDigest.get k = some d)

theorem ServesOnly.refl (receiverId : String) (s : Store) : ServesOnly receiverId s s :=
  ⟨fun _ _ _ => Iff.rfl, fun _ _ _ => Iff.rfl⟩

theorem ServesOnly.trans (h : ServesOnly receiverId s s') (h' : ServesOnly receiverId s' s'') :
    ServesOnly receiverId s s'' :=
  ⟨fun m r hr => (h'.rows m r hr).trans (h.rows m r hr),
    fun k d hd => (h'.digests k d hd).trans (h.digests k d hd)⟩

/-- A row update that only rows of the receiver meet, and that hands none over. -/
theorem servesOnly_of_map {f : String → QueueMessage → QueueMessage}
    (hdigests : s'.seatDigest = s.seatDigest) (hget : ∀ m, s'.get m = (s.get m).map (f m))
    (hf : ∀ m r, s.get m = some r → (f m r).receiverId = r.receiverId ∧
      (r.receiverId ≠ receiverId → f m r = r)) : ServesOnly receiverId s s' := by
  refine ⟨?_, fun k d _ => by rw [hdigests]⟩
  intro m r' hother
  rw [hget, Option.map_eq_some_iff]
  constructor
  · rintro ⟨r, hr, rfl⟩
    obtain ⟨hreceiver, hsame⟩ := hf m r hr
    rw [hr, hsame (hreceiver ▸ hother)]
  · intro hr
    exact ⟨r', hr, (hf m r' hr).2 hother⟩

theorem servesOnly_updateDigest {k : String × Int} {p : SeatDigest → Bool}
    {f : Patch SeatDigest.key} (hk : k.1 = receiverId) :
    ServesOnly receiverId s (s.updateDigest k p f) := by
  refine ⟨fun _ _ _ => Iff.rfl, ?_⟩
  intro k' d' hother
  have hget : (s.updateDigest k p f).seatDigest.get k' =
      (s.seatDigest.get k').map fun d => if k' = k ∧ p d = true then f.apply d else d :=
    s.seatDigest.get_updateKey k k' p f
  rw [hget, Option.map_eq_some_iff]
  constructor
  · rintro ⟨d, hd, hchange⟩
    split at hchange
    · next hcond =>
      -- the update keeps the key, and the key is the receiver's
      subst hchange
      have hreceiver := (congrArg Prod.fst (f.keeps d)).trans
        (congrArg Prod.fst (Table.key_of_get hd))
      rw [hcond.1] at hreceiver
      exact absurd (hreceiver.trans hk) hother
    · subst hchange
      exact hd
  · intro hd
    refine ⟨d', hd, if_neg ?_⟩
    rintro ⟨rfl, -⟩
    exact hother ((congrArg Prod.fst (Table.key_of_get hd)).trans hk)

theorem servesOnly_claim (s : Store) (leaseOwner : String) (now limit : Int)
    (receiverId : String) :
    ServesOnly receiverId s (claim s leaseOwner now limit (some receiverId)).2 := by
  refine servesOnly_of_map (seatDigest_claim s leaseOwner now limit (some receiverId))
    (get_claim s leaseOwner now limit (some receiverId)) ?_
  intro m r hr
  split
  · next hrow =>
    refine ⟨rfl, ?_⟩
    intro hother
    have hclaimable := (mem_claimRows hrow).2
    simp only [claimable, Option.all_some, Bool.and_eq_true, beq_iff_eq] at hclaimable
    exact absurd hclaimable.2 hother
  · exact ⟨rfl, fun _ => rfl⟩

theorem servesOnly_epochFor (s : Store) (receiverId : String) (now : Int) :
    ServesOnly receiverId s (epochFor s receiverId now).2 := by
  unfold epochFor
  simp only
  split
  · exact ServesOnly.refl receiverId s
  split
  · refine ⟨fun _ _ _ => Iff.rfl, ?_⟩
    intro k d hother
    change (s.insertDigest (newDigest receiverId (nextEpochIn s receiverId)
      (undeliveredIds s receiverId) now)).seatDigest.get k = some d ↔ _
    rw [get_insertDigest]
    split
    · next hk =>
      subst hk
      constructor
      · intro hd
        exact absurd (congrArg SeatDigest.receiverId (Option.some.inj hd)).symm hother
      · intro hd
        exact absurd (congrArg Prod.fst (Table.key_of_get hd)) hother
    · exact Iff.rfl
  · unfold extendDigest
    split
    · exact ServesOnly.refl receiverId s
    split
    · exact ServesOnly.refl receiverId s
    simp only
    split
    · exact ServesOnly.refl receiverId s
    · exact servesOnly_updateDigest rfl

theorem servesOnly_deliver {digest : SeatDigest} (s : Store) (serving : Serving)
    (hreceiver : digest.receiverId = receiverId) :
    ServesOnly receiverId s (deliver s serving digest).2 := by
  have hbump : ServesOnly receiverId s (bumpWakeCount s digest.receiverId digest.epoch).2 := by
    rw [bumpWakeCount_store]
    exact servesOnly_updateDigest hreceiver
  unfold deliver
  simp only
  split
  · split <;> exact hbump
  · exact ServesOnly.refl receiverId s

theorem servesOnly_recordOne (wake : WakeOutcomeReport) (now : Int) (s : Store)
    {message : QueueMessage}
    (hown : ∀ r, s.get message.msgId = some r → r.receiverId = receiverId) :
    ServesOnly receiverId s (recordOne wake now s message) := by
  have hhold : ∀ (s' : Store) (heldSince : Option Int), s'.deliveryMsg = s.deliveryMsg →
      s'.seatDigest = s.seatDigest →
      ServesOnly receiverId s (markDialogHold s' message.msgId heldSince) := by
    intro s' heldSince hrows hdigests
    have hget : ∀ m, (markDialogHold s' message.msgId heldSince).get m = (s.get m).map fun r =>
        if m = message.msgId then (holdPatch heldSince).apply r else r := by
      intro m
      rw [get_markDialogHold]
      unfold Store.get
      rw [hrows]
    refine servesOnly_of_map hdigests hget ?_
    intro m r hr
    split
    · next hm =>
      subst hm
      exact ⟨rfl, fun hother => absurd (hown r hr) hother⟩
    · exact ⟨rfl, fun _ => rfl⟩
  have hattempt : ServesOnly receiverId s (recordAttempt s
      { msgId := message.msgId, claimId := message.claimId, carrier := wake.carrier
        startedAt := now, outcome := wake.outcome, detail := wake.detail }) :=
    ⟨fun _ _ _ => Iff.rfl, fun _ _ _ => Iff.rfl⟩
  unfold recordOne
  simp only
  split
  · split
    · exact hhold _ _ rfl rfl
    · exact hattempt
  · split
    · exact hhold _ _ rfl rfl
    · exact hattempt

/-- What is the receiver's stays the receiver's. -/
theorem ServesOnly.own (h : ServesOnly receiverId s s')
    (hown : ∀ r, s.get m = some r → r.receiverId = receiverId) :
    ∀ r, s'.get m = some r → r.receiverId = receiverId := by
  intro r hr
  by_contra hother
  exact hother (hown r ((h.rows m r hother).mp hr))

theorem servesOnly_recordAttempts (wake : WakeOutcomeReport) (now : Int)
    (claimed : List QueueMessage) (s : Store)
    (hown : ∀ c ∈ claimed, ∀ r, s.get c.msgId = some r → r.receiverId = receiverId) :
    ServesOnly receiverId s (recordAttempts s wake claimed now) := by
  unfold recordAttempts
  induction claimed generalizing s with
  | nil => exact ServesOnly.refl receiverId s
  | cons first rest ih =>
    have hfirst := servesOnly_recordOne wake now s (hown first (List.mem_cons_self ..))
    refine hfirst.trans (ih _ ?_)
    intro c hc
    exact hfirst.own (hown c (List.mem_cons_of_mem _ hc))

theorem servesOnly_wakeAndRecord {digest : SeatDigest} {claimed : List QueueMessage} (s : Store)
    (serving : Serving) (now : Int) (hreceiver : digest.receiverId = receiverId)
    (hown : ∀ c ∈ claimed, ∀ r, s.get c.msgId = some r → r.receiverId = receiverId) :
    ServesOnly receiverId s (wakeAndRecord s serving digest claimed now) := by
  have hdeliver := servesOnly_deliver s serving hreceiver
  unfold wakeAndRecord
  split
  · exact ServesOnly.refl receiverId s
  simp only
  split
  · exact hdeliver
  split
  · refine hdeliver.trans (servesOnly_recordAttempts _ now _ _ ?_)
    intro c hc
    refine hdeliver.own (hown c ?_)
    unfold recorded at hc
    split at hc
    · exact List.mem_of_mem_take hc
    · exact hc
  · exact hdeliver

theorem servesOnly_serveReceiver (t : Tick) (s : Store) (receiverId : String) :
    ServesOnly receiverId s (serveReceiver t s receiverId) := by
  have hclaim := servesOnly_claim s tickLeaseOwner t.now claimLimit receiverId
  have hepoch := servesOnly_epochFor
    (claim s tickLeaseOwner t.now claimLimit (some receiverId)).2 receiverId t.now
  obtain ⟨-, howned, -⟩ :=
    epochFor_spec (claim s tickLeaseOwner t.now claimLimit (some receiverId)).2 receiverId t.now
  unfold serveReceiver
  simp only
  split
  · exact ServesOnly.refl receiverId s
  split
  · exact hclaim
  split
  · next s' hs' =>
    rw [hs'] at hepoch
    exact hclaim.trans hepoch
  · next digest s' hs' =>
    rw [hs'] at hepoch
    split
    · exact hclaim.trans hepoch
    refine (hclaim.trans hepoch).trans
      (servesOnly_wakeAndRecord s' _ t.now (howned digest (by rw [hs'])) ?_)
    intro c hc
    obtain ⟨r, hget, -, -, hreceiver⟩ := claimable_of_claim hc
    refine (hclaim.trans hepoch).own ?_
    intro x hx
    rw [hget] at hx
    cases hx
    exact hreceiver

/-- The serving of another receiver is nothing to a receiver's pace. -/
theorem Paced.of_servesOnly {other : String} (h : Paced s receiverId now ends)
    (honly : ServesOnly other s s') (hserves : Serves s s') (hne : receiverId ≠ other) :
    Paced s' receiverId now ends := by
  refine h.of_same ?_ ?_ fun _ => undeliveredIds_of_owners hserves.owners
  · rintro k d ⟨hget, hnone⟩ hreceiver
    exact .inl ⟨d, ⟨(honly.digests k d (by rw [hreceiver]; exact hne)).mp hget, hnone⟩,
      hreceiver, rfl⟩
  · intro m e
    unfold Leased
    constructor
    · rintro ⟨r, hget, hr, hrest⟩
      exact ⟨r, (honly.rows m r (by rw [hr]; exact hne)).mp hget, hr, hrest⟩
    · rintro ⟨r, hget, hr, hrest⟩
      exact ⟨r, (honly.rows m r (by rw [hr]; exact hne)).mpr hget, hr, hrest⟩

/-! ## A whole tick -/

/-- The tick gets to serve its receivers. -/
def Tick.serves (t : Tick) : Bool :=
  match t.halts with
  | none => true
  | some (.close _) => true
  | _ => false

/-- Where a receiver is inside a lease, the tick claims nothing it would wake it for, and some
lease runs on unless the epoch is over with it. -/
structure WakesApart (sha256 : String → String) (s : Store) (t : Tick) : Prop where
  apart : ∀ receiverId, UnderLease s receiverId t.now → t.serves = true →
    (t.serving receiverId).wakes = true → ∀ m r, (beforeServing sha256 s t).get m = some r →
    claimable t.now (some receiverId) r = false
  kept : ∀ receiverId, UnderLease s receiverId t.now →
    UnderLease (beforeServing sha256 s t) receiverId t.now ∨
      (t.halts = none ∧ undeliveredIds (beforeServing sha256 s t) receiverId = [])

/-- Serving the receivers one after another, from the store `b` on. -/
theorem paced_foldl_serveReceiver (receivers : List String) (hnodup : receivers.Nodup)
    (hpaced : ∀ receiverId, Paced s receiverId t.now ends)
    (hapart : ∀ receiverId ∈ receivers, (t.serving receiverId).wakes = true →
      UnderLease b receiverId t.now → ∀ m r, b.get m = some r →
      claimable t.now (some receiverId) r = false)
    (hsame : ∀ receiverId ∈ receivers, ∀ m r, r.receiverId = receiverId →
      (s.get m = some r ↔ b.get m = some r)) :
    ∀ receiverId, Paced (receivers.foldl (serveReceiver t) s) receiverId t.now ends := by
  induction receivers generalizing s with
  | nil => exact hpaced
  | cons first rest ih =>
    obtain ⟨hfirst, hrest⟩ := List.nodup_cons.mp hnodup
    have honly := servesOnly_serveReceiver t s first
    refine ih hrest ?_ (fun receiver hmem => hapart receiver (List.mem_cons_of_mem _ hmem)) ?_
    · intro receiver
      by_cases hreceiver : receiver = first
      · subst hreceiver
        have hown := hsame receiver (List.mem_cons_self ..)
        refine (hpaced receiver).serveReceiver ?_
        intro hwakes hunder m r hget
        obtain ⟨m', e, x, hx, hxr, hxrest⟩ := hunder
        have hleased : UnderLease b receiver t.now := ⟨m', e, x, (hown m' x hxr).mp hx, hxr, hxrest⟩
        by_cases hr : r.receiverId = receiver
        · exact hapart receiver (List.mem_cons_self ..) hwakes hleased m r ((hown m r hr).mp hget)
        · simp [claimable, hr]
      · exact (hpaced receiver).of_servesOnly honly (serves_serveReceiver t s first) hreceiver
    · intro receiver hmem m r hr
      have hne : receiver ≠ first := by
        rintro rfl
        exact hfirst hmem
      exact (honly.rows m r (by rw [hr]; exact hne)).trans
        (hsame receiver (List.mem_cons_of_mem _ hmem) m r hr)

theorem nodup_readyReceivers (s : Store) : (readyReceivers s).Nodup := by
  unfold readyReceivers
  rw [(List.perm_insertionSort _ _).nodup_iff]
  exact List.nodup_dedup _

/-- The closing pass closes epochs and does nothing else. -/
theorem closes_examined (t : Tick) (s : Store) :
    (closeFinishedEpochs t s).deliveryMsg = s.deliveryMsg ∧
      ∀ k d, OpenAt (closeFinishedEpochs t s) k d → OpenAt s k d := by
  have hdigests : ∀ digest ∈ examined t (openDigests s), OpenAt s digest.key digest := by
    intro digest hmem
    refine mem_openDigests.mp ?_
    unfold examined at hmem
    split at hmem
    · exact List.mem_of_mem_take hmem
    · exact hmem
  obtain ⟨hcloses, -⟩ := closes_foldl_closeFinished (t := t) (examined t (openDigests s))
    ⟨rfl, fun _ _ hd => hd, fun _ _ hd _ => hd⟩ hdigests
  exact ⟨hcloses.rows, hcloses.was⟩

theorem Paced.closeFinishedEpochs (h : Paced s receiverId now ends) (t : Tick) :
    Paced (closeFinishedEpochs t s) receiverId now ends := by
  obtain ⟨hrows, hwas⟩ := closes_examined t s
  refine h.of_same ?_ (fun _ _ => leased_of_rows hrows) ?_
  · intro k d hd hreceiver
    exact .inl ⟨d, hwas k d hd, hreceiver, rfl⟩
  · exact fun _ => undeliveredIds_of_owners (owner_of_rows hrows)

/-- After a closing that raised nowhere no open epoch is owed nothing. -/
theorem Paced.of_closed (h : Paced (Delivery.closeFinishedEpochs t s) receiverId now ends)
    (he : Epochs (Delivery.closeFinishedEpochs t s)) (hends : ends → t.halts = none) :
    Paced (Delivery.closeFinishedEpochs t s) receiverId now False := by
  refine ⟨h.spent, h.leases, ?_⟩
  intro k d hd hreceiver
  obtain hdue | hunder | ⟨hended, hnone⟩ := h.held k d hd hreceiver
  · exact .inl hdue
  · exact .inr (.inl hunder)
  · obtain ⟨hcloses, hover⟩ := closes_closeFinishedEpochs s (hends hended)
    have hlive := hover k d hd
    rw [← allTerminal_of_rows hcloses.rows] at hlive
    obtain ⟨m, hm, hsome⟩ := (allTerminal_eq_false_iff d.msgIds).mp hlive
    obtain ⟨other, howner⟩ := Option.isSome_iff_exists.mp hsome
    have hother := (he.listed k d hd m hm).2 other howner
    rw [hother, hreceiver] at howner
    have hmem := mem_undeliveredIds_iff.mpr howner
    rw [hnone] at hmem
    cases hmem

theorem Paced.arrivals (h : Paced s receiverId now False) (arrivals : List Arrival) :
    Paced (arrivals.foldl (arrive sha256) s) receiverId now False := by
  obtain ⟨hdigests, hleased⟩ := foldl_arrive sha256 arrivals s
  refine h.of_same ?_ (hleased receiverId now) fun hfalse => hfalse.elim
  intro k d hd hreceiver
  exact .inl ⟨d, (openAt_of_digests hdigests).mp hd, hreceiver, rfl⟩

/-- A tick keeps the pace of every receiver. -/
theorem paced_runOnce (he : Epochs s) (hpaced : ∀ receiverId, Paced s receiverId t.now False)
    (hapart : t.halts = some .reclaim ∨ WakesApart sha256 s t) :
    ∀ receiverId, Paced (runOnce sha256 s t) receiverId t.now False := by
  intro receiverId
  by_cases hreclaim : t.halts = some .reclaim
  · unfold runOnce
    rw [hreclaim]
    exact (hpaced receiverId).arrivals t.adoptions
  have hapart := hapart.resolve_left hreclaim
  have hbefore : ∀ receiverId, Paced (beforeServing sha256 s t) receiverId t.now (t.halts = none) :=
    fun receiverId => (hpaced receiverId).beforeServing (hapart.kept receiverId)
  by_cases hserves : t.serves = true
  · have hrun : runOnce sha256 s t = serve t (beforeServing sha256 s t) := by
      unfold Tick.serves at hserves
      unfold runOnce
      split at hserves
      · next hhalts => rw [hhalts]
      · next n hhalts => rw [hhalts]
      · cases hserves
    rw [hrun]
    have hserved := paced_foldl_serveReceiver (readyReceivers (beforeServing sha256 s t))
      (nodup_readyReceivers _) hbefore ?_ (fun _ _ _ _ _ => Iff.rfl) receiverId
    · refine (hserved.closeFinishedEpochs t).of_closed ?_ fun h => h
      exact (keepsEpochs_serve t _).epochs ((keepsEpochs_beforeServing sha256 s t).epochs he)
    · intro receiver _ hwakes hunder m r hget
      obtain ⟨m', e, hm'⟩ := hunder
      have hunder' : UnderLease s receiver t.now :=
        ⟨m', e, (beforeServing_spec sha256 s t).2 receiver m' e hm'⟩
      exact hapart.apart receiver hunder' hserves hwakes m r hget
  · have hrun : runOnce sha256 s t = beforeServing sha256 s t ∧ t.halts ≠ none := by
      unfold Tick.serves at hserves
      unfold runOnce
      cases hhalts : t.halts with
      | none =>
        rw [hhalts] at hserves
        exact absurd rfl hserves
      | some halt =>
        rw [hhalts] at hserves hreclaim
        cases halt with
        | reclaim => exact absurd rfl hreclaim
        | close n => exact absurd rfl hserves
        | _ => exact ⟨rfl, by simp⟩
    rw [hrun.1]
    have h := hbefore receiverId
    refine ⟨h.spent, h.leases, ?_⟩
    intro k d hd hreceiver
    obtain hdue | hunder | ⟨hended, -⟩ := h.held k d hd hreceiver
    · exact .inl hdue
    · exact .inr (.inl hunder)
    · exact absurd hended hrun.2

/-! ## Runs of enqueues and ticks -/

/-- The clock an event is taken at. -/
def clock : Event → Int
  | .enqueue arrival => arrival.now
  | .runOnce t => t.now
  | .reparent _ _ now _ => now
  | .ack _ _ now => now

/-- Only enqueues and ticks, at times that do not decrease, and now is none earlier. -/
structure Timely (events : List Event) (now : Int) : Prop where
  calls : ∀ event ∈ events, (∃ arrival, event = .enqueue arrival) ∨ ∃ t, event = .runOnce t
  ordered : events.Pairwise fun a b => clock a ≤ clock b
  past : ∀ event ∈ events, clock event ≤ now

/-- No open epoch was woken more often than there were lease periods begun since it was built. -/
def WakesBounded (s : Store) (now : Int) : Prop :=
  ∀ k d, OpenAt s k d → d.wakeCount ≤ 1 + (now - d.builtAt) / seconds deliveryLeaseS

/-- What the ticks of a run meet; an enqueue has nothing to meet. -/
def KeepsApart (sha256 : String → String) (s : Store) : Event → Prop
  | .runOnce t => t.halts = some .reclaim ∨ WakesApart sha256 s t
  | _ => True

theorem Paced.wakeCount_le (h : Paced s receiverId now ends) {k : String × Int} {d : SeatDigest}
    (hd : OpenAt s k d) (hreceiver : d.receiverId = receiverId) :
    d.wakeCount ≤ 1 + (now - d.builtAt) / seconds deliveryLeaseS := by
  have hspent := h.spent k d hd hreceiver
  unfold dueAt at hspent
  have hperiods : d.wakeCount - 1 ≤ (now - d.builtAt) / seconds deliveryLeaseS := by
    rw [Int.le_ediv_iff_mul_le (by decide), Int.sub_mul, Int.one_mul]
    omega
  omega

theorem paced_empty (receiverId : String) (now : Int) : Paced Store.empty receiverId now ends := by
  refine ⟨?_, ?_, ?_⟩
  all_goals
    rintro k d ⟨hd, -⟩
    cases hd

/-- One event of such a run. -/
theorem paced_step {event : Event} (he : Epochs s)
    (hcall : (∃ arrival, event = .enqueue arrival) ∨ ∃ t, event = .runOnce t)
    (hpaced : ∀ receiverId, Paced s receiverId (clock event) False)
    (hapart : KeepsApart sha256 s event) :
    ∀ receiverId, Paced (step sha256 s event) receiverId (clock event) False := by
  obtain ⟨arrival, rfl⟩ | ⟨t, rfl⟩ := hcall
  · exact fun receiverId => (hpaced receiverId).arrivals [arrival]
  · exact paced_runOnce he hpaced hapart

theorem paced_run (events : List Event) (he : Epochs s) (hrun : Timely events now)
    (hstart : now' ≤ now ∧ ∀ event ∈ events, now' ≤ clock event)
    (hpaced : ∀ receiverId, Paced s receiverId now' False)
    (hapart : StepsSatisfy (step sha256) (KeepsApart sha256) s events) :
    ∀ receiverId, Paced (run (step sha256) s events) receiverId now False := by
  induction events generalizing s now' with
  | nil => exact fun receiverId => (hpaced receiverId).later hstart.1
  | cons first rest ih =>
    obtain ⟨hfirst, hordered⟩ := List.pairwise_cons.mp hrun.ordered
    have hclock : now' ≤ clock first := hstart.2 first (List.mem_cons_self ..)
    refine ih ((keepsEpochs_step sha256 s first).epochs he) ⟨?_, hordered, ?_⟩
      ⟨hrun.past first (List.mem_cons_self ..), hfirst⟩ ?_ hapart.2
    · exact fun event hmem => hrun.calls event (List.mem_cons_of_mem _ hmem)
    · exact fun event hmem => hrun.past event (List.mem_cons_of_mem _ hmem)
    · refine paced_step he (hrun.calls first (List.mem_cons_self ..)) ?_ hapart.1
      exact fun receiverId => (hpaced receiverId).later hclock

/-- A run whose ticks wake nobody inside a lease keeps to one wake a lease period, throughout. -/
theorem wakesBounded_of_keepsApart (sha256 : String → String) (events : List Event) (now : Int)
    (hrun : Timely events now)
    (hapart : StepsSatisfy (step sha256) (KeepsApart sha256) Store.empty events) :
    WakesBounded (run (step sha256) Store.empty events) now := by
  intro k d hd
  have hpaced : ∀ receiverId,
      Paced (run (step sha256) Store.empty events) receiverId now False := by
    cases events with
    | nil => exact fun receiverId => paced_empty receiverId now
    | cons first rest =>
      refine paced_run (first :: rest) epochs_empty hrun
        ⟨hrun.past first (List.mem_cons_self ..), ?_⟩ (fun receiverId => paced_empty receiverId _)
        hapart
      intro event hmem
      obtain rfl | hlater := List.mem_cons.mp hmem
      · exact le_refl _
      · exact (List.pairwise_cons.mp hrun.ordered).1 event hlater
  exact (hpaced d.receiverId).wakeCount_le hd rfl

/-- A report to the seat. -/
def report (key : String) (hkey : key ≠ "") : EnqueueDraft where
  idempotencyKey := key
  receiverId := "seat"
  idempotencyKey_ne := hkey
  receiverId_ne := seatDraft.receiverId_ne

theorem a_ne_empty : "a" ≠ "" := by decide

theorem b_ne_empty : "b" ≠ "" := by decide

/-- A report is woken for, and a tick inside its lease claims nothing. -/
def quietTicks : List Event :=
  [.enqueue ⟨report "a" a_ne_empty, "01", 0⟩, .runOnce { now := 0 }, .runOnce { now := seconds 10 }]

theorem not_underLease_of_rows (h : ∀ r ∈ s.deliveryMsg.rows, r.state = .ready) :
    ¬ UnderLease s receiverId now := by
  rintro ⟨m, e, r, hget, -, hstate, -⟩
  have hrow := (s.deliveryMsg.mem_rows_iff r).mpr (by rw [Table.key_of_get hget]; exact hget)
  rw [h r hrow] at hstate
  cases hstate

/-- Before a tick over leased rows only. -/
theorem wakesApart_of_leased (hrows : (beforeServing sha256 s t).deliveryMsg = s.deliveryMsg)
    (h : ∀ r ∈ s.deliveryMsg.rows, r.state = .leased) : WakesApart sha256 s t := by
  refine ⟨?_, ?_⟩
  · intro receiverId _ _ _ m r hget
    have hsame : s.get m = some r := by
      unfold Store.get at hget ⊢
      rw [← hrows]
      exact hget
    have hrow := (s.deliveryMsg.mem_rows_iff r).mpr (by rw [Table.key_of_get hsame]; exact hsame)
    simp [claimable, h r hrow]
  · rintro receiverId ⟨m, e, hm⟩
    exact .inl ⟨m, e, (leased_of_rows hrows).mpr hm⟩

/-- The tick inside the lease wakes nobody. -/
theorem wakesBounded_of_keepsApart_quietTicks :
    WakesBounded (run (step id) Store.empty quietTicks) (seconds 10) := by
  refine wakesBounded_of_keepsApart id quietTicks (seconds 10) ?_ ⟨trivial, .inr ?_, .inr ?_, trivial⟩
  · refine ⟨?_, by decide, by decide⟩
    intro event hmem
    simp only [quietTicks, List.mem_cons, List.not_mem_nil, or_false] at hmem
    obtain rfl | rfl | rfl := hmem
    · exact .inl ⟨_, rfl⟩
    · exact .inr ⟨_, rfl⟩
    · exact .inr ⟨_, rfl⟩
  · have hready : ∀ r ∈ (step id Store.empty
        (.enqueue ⟨report "a" a_ne_empty, "01", 0⟩)).deliveryMsg.rows, r.state = .ready := by
      decide +kernel
    refine ⟨?_, ?_⟩
    · exact fun receiverId hunder => absurd hunder (not_underLease_of_rows hready)
    · exact fun receiverId hunder => absurd hunder (not_underLease_of_rows hready)
  · refine wakesApart_of_leased ?_ (by decide +kernel)
    exact Table.eq_of_rows (by decide +kernel)

/-- A second report arrives while the first is leased, and the next tick claims it. -/
def wokenTwice : List Event :=
  [.enqueue ⟨report "a" a_ne_empty, "01", 0⟩, .runOnce { now := 0 },
    .enqueue ⟨report "b" b_ne_empty, "02", seconds 10⟩,
    .runOnce { now := seconds 10 }]

/-- A row that arrives inside the lease wakes the receiver again. -/
theorem wokenTwice_not_wakesBounded : ¬ ∃ sha256, ∀ events now, Timely events now →
    WakesBounded (run (step sha256) Store.empty events) now := by
  rintro ⟨sha256, h⟩
  have htimely : Timely wokenTwice (seconds 10) := by
    refine ⟨?_, by decide, by decide⟩
    intro event hmem
    simp only [wokenTwice, List.mem_cons, List.not_mem_nil, or_false] at hmem
    obtain rfl | rfl | rfl | rfl := hmem
    · exact .inl ⟨_, rfl⟩
    · exact .inr ⟨_, rfl⟩
    · exact .inl ⟨_, rfl⟩
    · exact .inr ⟨_, rfl⟩
  have hwoken : ((run (step sha256) Store.empty wokenTwice).seatDigest.get ("seat", 1)).map
      (fun d => (d.wakeCount, d.builtAt, d.consumedAt)) = some (2, 0, none) := by cbv
  obtain ⟨d, hget, hd⟩ := Option.map_eq_some_iff.mp hwoken
  injection hd with hcount hrest
  injection hrest with hbuilt hnone
  have hbound := h wokenTwice (seconds 10) htimely ("seat", 1) d ⟨hget, hnone⟩
  rw [hcount, hbuilt] at hbound
  exact absurd hbound (by decide)

end CliAgentOrchestrator.Delivery
