import CliAgentOrchestrator.Delivery.Epoch
import Mathlib.Data.List.Dedup

/-!
# Serving a receiver

Serving ends no row and hands none over; open epochs stay open and only gain ids. So a receiver
that was served without exception is covered by its open epoch until the closing begins.
-/

set_option autoImplicit false

namespace CliAgentOrchestrator.Delivery

open CliAgentOrchestrator.Core Library Queue Wiring

variable {sha256 : String → String} {s s' s'' : Store} {m receiverId : String} {t : Tick}

/-! ## Serving -/

/-- What the serving of a receiver does: nothing ends or changes hands, and open epochs stay open
with the ids they list. -/
structure Serves (s s' : Store) : Prop where
  owners : ∀ m, owner s' m = owner s m
  grows : ∀ k d, OpenAt s k d → ∃ d', OpenAt s' k d' ∧ d'.receiverId = d.receiverId ∧
    ∀ m ∈ d.msgIds, m ∈ d'.msgIds
  epochs : Epochs s → Epochs s'
  advance : EpochsAdvance s s'

theorem Serves.refl (s : Store) : Serves s s :=
  ⟨fun _ => rfl, fun _ d hd => ⟨d, hd, rfl, fun _ hm => hm⟩, fun h => h, EpochsAdvance.refl s⟩

theorem Serves.trans (h : Serves s s') (h' : Serves s' s'') : Serves s s'' := by
  refine ⟨fun m => (h'.owners m).trans (h.owners m), ?_, fun he => h'.epochs (h.epochs he),
    h.advance.trans h'.advance⟩
  intro k d hd
  obtain ⟨d', hd', hreceiver, hids⟩ := h.grows k d hd
  obtain ⟨d'', hd'', hreceiver', hids'⟩ := h'.grows k d' hd'
  exact ⟨d'', hd'', hreceiver'.trans hreceiver, fun m hm => hids' m (hids m hm)⟩

theorem serves_foldl {α : Type} (f : Store → α → Store) (h : ∀ s a, Serves s (f s a))
    (as : List α) (s : Store) : Serves s (as.foldl f s) := by
  induction as generalizing s with
  | nil => exact Serves.refl s
  | cons a rest ih => exact (h s a).trans (ih (f s a))

/-- A row keeps its owner when it keeps its receiver and does not end. -/
theorem owner_of_map {f : QueueMessage → QueueMessage} (hget : s'.get m = (s.get m).map f)
    (hf : ∀ r, s.get m = some r → (f r).terminal = r.terminal ∧
      (f r).receiverId = r.receiverId) : owner s' m = owner s m := by
  unfold owner
  rw [hget]
  cases hr : s.get m with
  | none => rfl
  | some r =>
    obtain ⟨hterminal, hreceiver⟩ := hf r hr
    rw [Option.map_some, Option.filter_some, Option.filter_some, hterminal]
    split
    · rw [Option.map_some, Option.map_some, hreceiver]
    · rfl

/-- A call that settles rows, and ends none. -/
theorem serves_of_owners (h : RowsSettle s s') (howners : ∀ m, owner s' m = owner s m) :
    Serves s s' :=
  ⟨howners, fun _ d hd => ⟨d, h.openAt.mpr hd, rfl, fun _ hm => hm⟩, h.epochs,
    advance_of_digests h.digests⟩

theorem serves_claim (s : Store) (leaseOwner : String) (now limit : Int)
    (receiver : Option String) : Serves s (claim s leaseOwner now limit receiver).2 := by
  have hsettle : RowsSettle s (exec id s (.claim leaseOwner now limit receiver)) :=
    rowsSettle_exec rfl
  refine serves_of_owners hsettle ?_
  intro m
  refine owner_of_map (get_claim s leaseOwner now limit receiver m) ?_
  intro r hr
  split
  · next hrow =>
    have hready := (claimable_of_mem_claimRows hrow).1
    refine ⟨?_, rfl⟩
    rw [(r.terminal_eq_false_iff).mpr (.inl hready)]
    exact ((leaseRow leaseOwner now r).terminal_eq_false_iff).mpr (.inr rfl)
  · exact ⟨rfl, rfl⟩

theorem serves_markDialogHold (s : Store) (msgId : String) (heldSince : Option Int) :
    Serves s (markDialogHold s msgId heldSince) := by
  have hsettle : RowsSettle s (exec id s (.markDialogHold msgId heldSince)) := rowsSettle_exec rfl
  refine serves_of_owners hsettle ?_
  intro m
  refine owner_of_map (get_markDialogHold s msgId heldSince m) ?_
  intro r hr
  split <;> exact ⟨rfl, rfl⟩

theorem serves_recordAttempt (s : Store) (attempt : DeliveryAttempt) :
    Serves s (recordAttempt s attempt) := by
  have hsettle : RowsSettle s (exec id s (.recordAttempt attempt)) := rowsSettle_exec rfl
  exact serves_of_owners hsettle fun m => owner_of_rows rfl m

/-- An update of one epoch that leaves it open and takes no id from it. -/
theorem serves_updateDigest {k : String × Int} {p : SeatDigest → Bool} {f : Patch SeatDigest.key}
    (hopen : ∀ d, s.seatDigest.get k = some d → p d = true → d.consumedAt = none)
    (hkeeps : ∀ d, (f.apply d).consumedAt = d.consumedAt)
    (hids : ∀ d, OpenAt s k d → p d = true → (∀ m ∈ d.msgIds, m ∈ (f.apply d).msgIds) ∧
      ∀ m ∈ (f.apply d).msgIds, m ∈ d.msgIds ∨ Listed s d.receiverId m) :
    Serves s (s.updateDigest k p f) := by
  refine ⟨fun m => owner_of_rows rfl m, ?_, ?_, advance_updateDigest hopen⟩
  · intro k' d hd
    refine ⟨if k' = k ∧ p d = true then f.apply d else d, ⟨?_, ?_⟩, ?_, ?_⟩
    · show (s.seatDigest.updateKey k p f).get k' = _
      rw [Table.get_updateKey, hd.1, Option.map_some]
    · split
      · rw [hkeeps]
        exact hd.2
      · exact hd.2
    · split
      · exact congrArg Prod.fst (f.keeps d)
      · rfl
    · split
      · next hcond =>
        obtain ⟨rfl, hp⟩ := hcond
        exact (hids d hd hp).1
      · exact fun _ hm => hm
  · intro he
    refine he.updateDigest (fun d h => (hkeeps d).symm.trans h) ?_
    exact fun d hd hp => (hids d hd hp).2

theorem serves_bumpWakeCount (s : Store) (receiver : String) (epoch : Int) :
    Serves s (bumpWakeCount s receiver epoch).2 := by
  have hupdate : Serves s (s.updateDigest (receiver, epoch) (fun d => d.consumedAt.isNone)
      wakePatch) :=
    serves_updateDigest (fun _ _ hp => Option.isNone_iff_eq_none.mp hp) (fun _ => rfl)
      fun _ _ _ => ⟨fun _ hm => hm, fun _ hm => .inl hm⟩
  unfold bumpWakeCount
  simp only
  split <;> exact hupdate

theorem listed_of_mem_undeliveredIds (h : m ∈ undeliveredIds s receiverId) :
    Listed s receiverId m := by
  rw [mem_undeliveredIds_iff] at h
  obtain ⟨r, hr, -, -⟩ := owner_eq_some_iff.mp h
  refine ⟨by rw [hr]; rfl, ?_⟩
  intro other hother
  rw [h] at hother
  exact (Option.some.inj hother).symm

theorem serves_extendDigest {epoch : Int} {ids : List String}
    (hids : ∀ m ∈ ids, Listed s receiverId m) :
    Serves s (extendDigest s receiverId epoch ids).2 := by
  unfold extendDigest
  split
  · exact Serves.refl s
  next digest hget =>
  split
  · exact Serves.refl s
  next hopen =>
  simp only
  split
  · exact Serves.refl s
  have hreceiver : digest.receiverId = receiverId := congrArg Prod.fst (Table.key_of_get hget)
  rw [Option.not_isSome_iff_eq_none] at hopen
  refine serves_updateDigest ?_ (fun _ => rfl) ?_
  · intro d hd _
    rw [hget] at hd
    cases hd
    exact hopen
  · intro d hd _
    obtain ⟨hd, -⟩ := hd
    rw [hget] at hd
    cases hd
    refine ⟨fun m hm => List.mem_append_left _ hm, ?_⟩
    intro m hm
    obtain hold | hfresh := List.mem_append.mp hm
    · exact .inl hold
    · rw [hreceiver]
      exact .inr (hids m (List.mem_of_mem_filter hfresh))

theorem serves_insertDigest (now : Int) {ids : List String}
    (hnone : openDigestIn s receiverId = none) (hids : ∀ m ∈ ids, Listed s receiverId m) :
    Serves s (s.insertDigest (newDigest receiverId (nextEpochIn s receiverId) ids now)) := by
  refine ⟨fun m => owner_of_rows rfl m, ?_, fun he => he.insertDigest now hnone hids,
    advance_insertDigest s receiverId ids now⟩
  intro k d hd
  refine ⟨d, ⟨?_, hd.2⟩, rfl, fun _ hm => hm⟩
  rw [get_insertDigest, if_neg]
  · exact hd.1
  · rintro rfl
    exact absurd (lt_nextEpochIn hd.1) (lt_irrefl _)

theorem serves_epochFor (s : Store) (receiver : String) (now : Int) :
    Serves s (epochFor s receiver now).2 := by
  unfold epochFor
  simp only
  split
  · exact Serves.refl s
  · split
    · next hnone =>
      exact serves_insertDigest now hnone fun m hm => listed_of_mem_undeliveredIds hm
    · exact serves_extendDigest fun m hm => listed_of_mem_undeliveredIds hm

theorem serves_deliver (s : Store) (serving : Serving) (digest : SeatDigest) :
    Serves s (deliver s serving digest).2 := by
  have hbump := serves_bumpWakeCount s digest.receiverId digest.epoch
  unfold deliver
  simp only
  split
  · split <;> exact hbump
  · exact Serves.refl s

theorem serves_recordOne (wake : WakeOutcomeReport) (now : Int) (s : Store)
    (message : QueueMessage) : Serves s (recordOne wake now s message) := by
  have hattempt := serves_recordAttempt s
    { msgId := message.msgId, claimId := message.claimId, carrier := wake.carrier
      startedAt := now, outcome := wake.outcome, detail := wake.detail }
  unfold recordOne
  simp only
  split
  · split
    · exact hattempt.trans (serves_markDialogHold _ _ _)
    · exact hattempt
  · split
    · exact hattempt.trans (serves_markDialogHold _ _ _)
    · exact hattempt

theorem serves_wakeAndRecord (s : Store) (serving : Serving) (digest : SeatDigest)
    (claimed : List QueueMessage) (now : Int) :
    Serves s (wakeAndRecord s serving digest claimed now) := by
  have hdeliver := serves_deliver s serving digest
  unfold wakeAndRecord
  split
  · exact Serves.refl s
  simp only
  split
  · exact hdeliver
  split
  · exact hdeliver.trans (serves_foldl _ (serves_recordOne _ now) _ _)
  · exact hdeliver

theorem serves_serveReceiver (t : Tick) (s : Store) (receiver : String) :
    Serves s (serveReceiver t s receiver) := by
  have hclaim := serves_claim s tickLeaseOwner t.now claimLimit (some receiver)
  have hepoch := hclaim.trans (serves_epochFor _ receiver t.now)
  unfold serveReceiver
  simp only
  split
  · exact Serves.refl s
  split
  · exact hclaim
  split
  · next s' hs' =>
    rw [hs'] at hepoch
    exact hepoch
  · next digest s' hs' =>
    rw [hs'] at hepoch
    split
    · exact hepoch
    · exact hepoch.trans (serves_wakeAndRecord s' _ digest _ t.now)

/-! ## Coverage of one receiver -/

/-- The receiver's rows stand in its open epoch. -/
def Covers (s : Store) (receiverId : String) : Prop :=
  ∀ m, owner s m = some receiverId → ∃ k d, OpenAt s k d ∧ d.receiverId = receiverId ∧ m ∈ d.msgIds

theorem Serves.covers (h : Serves s s') (hc : Covers s receiverId) : Covers s' receiverId := by
  intro m hm
  rw [h.owners] at hm
  obtain ⟨k, d, hd, hreceiver, hmem⟩ := hc m hm
  obtain ⟨d', hd', hreceiver', hids⟩ := h.grows k d hd
  exact ⟨k, d', hd', hreceiver'.trans hreceiver, hids m hmem⟩

/-- Opening or extending its epoch covers a receiver. -/
theorem covers_epochFor (s : Store) (receiverId : String) (now : Int) :
    Covers (epochFor s receiverId now).2 receiverId := by
  intro m hm
  rw [(serves_epochFor s receiverId now).owners] at hm
  have hmem := mem_undeliveredIds_iff.mpr hm
  unfold epochFor
  simp only
  split
  · next hempty =>
    rw [hempty] at hmem
    cases hmem
  split
  · refine ⟨(receiverId, nextEpochIn s receiverId),
      newDigest receiverId (nextEpochIn s receiverId) (undeliveredIds s receiverId) now,
      ⟨?_, rfl⟩, rfl, hmem⟩
    exact (get_insertDigest s receiverId (undeliveredIds s receiverId) now _).trans (if_pos rfl)
  · next digest hfound =>
    obtain ⟨hopen, hreceiver⟩ := openAt_of_openDigestIn hfound
    have hkey : digest.key = (receiverId, digest.epoch) := by
      rw [← hreceiver]
      rfl
    have hget : s.seatDigest.get (receiverId, digest.epoch) = some digest := hkey ▸ hopen.1
    unfold extendDigest
    rw [hget]
    simp only
    rw [if_neg (by rw [hopen.2]; decide)]
    split
    · next hfresh =>
      refine ⟨digest.key, digest, hopen, hreceiver, ?_⟩
      by_contra hnot
      have : m ∈ (undeliveredIds s receiverId).filter (· ∉ digest.msgIds) :=
        List.mem_filter.mpr ⟨hmem, decide_eq_true hnot⟩
      rw [hfresh] at this
      cases this
    · refine ⟨(receiverId, digest.epoch), (msgIdsPatch (digest.msgIds ++
        (undeliveredIds s receiverId).filter (· ∉ digest.msgIds))).apply digest,
        ⟨?_, hopen.2⟩, hreceiver, ?_⟩
      · show (s.seatDigest.updateKey _ _ _).get _ = _
        rw [Table.get_updateKey, hget, Option.map_some, if_pos ⟨rfl, rfl⟩]
      · show m ∈ digest.msgIds ++ _
        by_cases hold : m ∈ digest.msgIds
        · exact List.mem_append_left _ hold
        · exact List.mem_append_right _ (List.mem_filter.mpr ⟨hmem, decide_eq_true hold⟩)

/-- A receiver that is served without exception is covered. -/
theorem covers_serveReceiver (s : Store) (hraises : (t.serving receiverId).raises = none) :
    Covers (serveReceiver t s receiverId) receiverId := by
  have hcovers := covers_epochFor (claim s tickLeaseOwner t.now claimLimit (some receiverId)).2
    receiverId t.now
  unfold serveReceiver
  simp only
  rw [hraises, if_neg (by decide), if_neg (by decide)]
  split
  · next s' hs' =>
    rw [hs'] at hcovers
    exact hcovers
  · next digest s' hs' =>
    rw [hs'] at hcovers
    split
    · exact hcovers
    · exact (serves_wakeAndRecord s' _ digest _ t.now).covers hcovers

theorem covers_foldl_serveReceiver (receivers : List String) (s : Store)
    (hraises : ∀ receiver ∈ receivers, (t.serving receiver).raises = none) :
    ∀ receiver ∈ receivers, Covers (receivers.foldl (serveReceiver t) s) receiver := by
  induction receivers generalizing s with
  | nil =>
    intro receiver hmem
    cases hmem
  | cons first rest ih =>
    intro receiver hmem
    obtain rfl | hrest := List.mem_cons.mp hmem
    · exact (serves_foldl _ (serves_serveReceiver t) rest _).covers
        (covers_serveReceiver s (hraises receiver (List.mem_cons_self ..)))
    · exact ih _ (fun r hr => hraises r (List.mem_cons_of_mem _ hr)) receiver hrest

theorem mem_readyReceivers (h : owner s m = some receiverId) : receiverId ∈ readyReceivers s := by
  obtain ⟨r, hget, hlive, hreceiver⟩ := owner_eq_some_iff.mp h
  unfold readyReceivers
  rw [List.mem_insertionSort, List.mem_dedup, List.mem_map]
  refine ⟨r, ?_, hreceiver⟩
  rw [mem_select_msg, msgId_of_get hget, hlive]
  exact ⟨hget, rfl⟩

end CliAgentOrchestrator.Delivery
