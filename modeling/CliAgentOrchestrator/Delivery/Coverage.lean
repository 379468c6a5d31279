import CliAgentOrchestrator.Delivery.Serving

/-!
# Epoch coverage

Whatever order ticks, enqueues, re-parentings and acks come in, a receiver has one open epoch at
most and its numbers only grow; and a tick that served everybody leaves every row that is owed
in the open epoch of its receiver, and no epoch open that is over.
-/

set_option autoImplicit false

namespace CliAgentOrchestrator.Delivery

open CliAgentOrchestrator.Core Library Queue Wiring

variable {sha256 : String → String} {s s' s'' : Store} {m receiverId : String} {t : Tick}

/-! ## What every statement keeps -/

/-- Epochs stay single and truly listed, and only advance. -/
structure KeepsEpochs (s s' : Store) : Prop where
  epochs : Epochs s → Epochs s'
  advance : EpochsAdvance s s'

theorem KeepsEpochs.refl (s : Store) : KeepsEpochs s s := ⟨fun h => h, EpochsAdvance.refl s⟩

theorem KeepsEpochs.trans (h : KeepsEpochs s s') (h' : KeepsEpochs s' s'') : KeepsEpochs s s'' :=
  ⟨fun he => h'.epochs (h.epochs he), h.advance.trans h'.advance⟩

theorem keepsEpochs_foldl {α : Type} (f : Store → α → Store) (h : ∀ s a, KeepsEpochs s (f s a))
    (as : List α) (s : Store) : KeepsEpochs s (as.foldl f s) :=
  run_rel KeepsEpochs KeepsEpochs.refl (fun _ _ _ => KeepsEpochs.trans) h s as

theorem keepsEpochs_exec {op : Op} (h : settlesRows op = true) :
    KeepsEpochs s (exec sha256 s op) :=
  have hsettles := rowsSettle_exec h
  ⟨hsettles.epochs, advance_of_digests hsettles.digests⟩

theorem keepsEpochs_closeDigest (s : Store) (receiver : String) (epoch : Int) (via : String)
    (now : Int) : KeepsEpochs s (closeDigest s receiver epoch via now).2 := by
  refine ⟨?_, advance_updateDigest fun _ _ hp => Option.isNone_iff_eq_none.mp hp⟩
  intro he
  refine he.updateDigest ?_ fun _ _ _ m hm => .inl hm
  intro d hnone
  cases hnone

/-! ## Closing -/

/-- What the closing of epochs does, from the store `s` it began in. -/
structure Closes (s s' : Store) : Prop where
  rows : s'.deliveryMsg = s.deliveryMsg
  was : ∀ k d, OpenAt s' k d → OpenAt s k d
  stays : ∀ k d, OpenAt s k d → allTerminal s d.msgIds = false → OpenAt s' k d

theorem allTerminal_of_rows (hmsg : s'.deliveryMsg = s.deliveryMsg) (msgIds : List String) :
    allTerminal s' msgIds = allTerminal s msgIds := by
  unfold allTerminal
  rw [hmsg]

/-- What a closing leaves under its key is consumed, and nothing else changes. -/
theorem openAt_closeDigest {receiver : String} {epoch : Int} {via : String} {now : Int}
    {k : String × Int} {d : SeatDigest} :
    OpenAt (closeDigest s receiver epoch via now).2 k d ↔ OpenAt s k d ∧ k ≠ (receiver, epoch) := by
  have hget : (closeDigest s receiver epoch via now).2.seatDigest.get k =
      (s.seatDigest.get k).map fun d =>
        if k = (receiver, epoch) ∧ d.consumedAt.isNone = true then (consumePatch via now).apply d
        else d := s.seatDigest.get_updateKey (receiver, epoch) k _ _
  unfold OpenAt
  rw [hget]
  constructor
  · rintro ⟨hd, hnone⟩
    rw [Option.map_eq_some_iff] at hd
    obtain ⟨x, hx, hchange⟩ := hd
    split at hchange
    · subst hchange
      cases hnone
    · next hcond =>
      subst hchange
      refine ⟨⟨hx, hnone⟩, ?_⟩
      intro hk
      exact hcond ⟨hk, by rw [hnone]; rfl⟩
  · rintro ⟨⟨hd, hnone⟩, hk⟩
    rw [hd, Option.map_some, if_neg fun hcond => hk hcond.1]
    exact ⟨rfl, hnone⟩

theorem keepsEpochs_closeFinished (t : Tick) (s : Store) (digest : SeatDigest) :
    KeepsEpochs s (closeFinished t s digest) := by
  unfold closeFinished
  split
  · exact keepsEpochs_closeDigest s _ _ _ _
  · exact KeepsEpochs.refl s

/-- One epoch of the snapshot examined: it is closed if it is over. -/
theorem closes_closeFinished (h : Closes s s') {digest : SeatDigest}
    (hdigest : OpenAt s digest.key digest) :
    Closes s (closeFinished t s' digest) ∧ ∀ d, OpenAt (closeFinished t s' digest) digest.key d →
      allTerminal s d.msgIds = false := by
  unfold closeFinished
  rw [allTerminal_of_rows h.rows]
  cases hover : allTerminal s digest.msgIds with
  | false =>
    rw [if_neg (by decide)]
    refine ⟨h, ?_⟩
    intro d hd
    have hsame := (h.was _ d hd).1
    rw [hdigest.1] at hsame
    cases hsame
    exact hover
  | true =>
    rw [if_pos rfl]
    refine ⟨⟨h.rows, ?_, ?_⟩, ?_⟩
    · intro k d hd
      exact h.was k d (openAt_closeDigest.mp hd).1
    · intro k d hd hlive
      refine openAt_closeDigest.mpr ⟨h.stays k d hd hlive, ?_⟩
      rintro rfl
      have hsame := hd.1
      change s.seatDigest.get digest.key = some d at hsame
      rw [hdigest.1] at hsame
      cases hsame
      rw [hover] at hlive
      cases hlive
    · intro d hd
      exact absurd rfl (openAt_closeDigest.mp hd).2

/-- What is open after some closings was open before them. -/
theorem openAt_of_foldl_closeFinished (digests : List SeatDigest) {k : String × Int}
    {d : SeatDigest} (hd : OpenAt (digests.foldl (closeFinished t) s) k d) : OpenAt s k d := by
  induction digests generalizing s with
  | nil => exact hd
  | cons first rest ih =>
    have hfirst := ih hd
    unfold closeFinished at hfirst
    split at hfirst
    · exact (openAt_closeDigest.mp hfirst).1
    · exact hfirst

/-- The whole snapshot examined: what is open of it is not over. -/
theorem closes_foldl_closeFinished (digests : List SeatDigest) (h : Closes s s')
    (hdigests : ∀ digest ∈ digests, OpenAt s digest.key digest) :
    Closes s (digests.foldl (closeFinished t) s') ∧ ∀ digest ∈ digests, ∀ d,
      OpenAt (digests.foldl (closeFinished t) s') digest.key d →
        allTerminal s d.msgIds = false := by
  induction digests generalizing s' with
  | nil =>
    refine ⟨h, ?_⟩
    intro digest hmem
    cases hmem
  | cons first rest ih =>
    obtain ⟨hcloses, hfirst⟩ := closes_closeFinished (t := t) h (hdigests first (List.mem_cons_self ..))
    obtain ⟨hall, hrest⟩ := ih hcloses fun digest hmem => hdigests digest (List.mem_cons_of_mem _ hmem)
    refine ⟨hall, ?_⟩
    intro digest hmem d hd
    obtain rfl | hlater := List.mem_cons.mp hmem
    · exact hfirst d (openAt_of_foldl_closeFinished rest hd)
    · exact hrest digest hlater d hd

theorem mem_openDigests {d : SeatDigest} : d ∈ openDigests s ↔ OpenAt s d.key d := by
  unfold openDigests OpenAt
  rw [List.mem_insertionSort, Table.mem_select_iff, Option.isNone_iff_eq_none]

/-- After a closing pass that raised nowhere no epoch is open that is over. -/
theorem closes_closeFinishedEpochs (s : Store) (hhalts : t.halts = none) :
    Closes s (closeFinishedEpochs t s) ∧ ∀ k d, OpenAt (closeFinishedEpochs t s) k d →
      allTerminal s d.msgIds = false := by
  have hexamined : examined t (openDigests s) = openDigests s := by
    unfold examined
    rw [hhalts]
  unfold closeFinishedEpochs
  rw [hexamined]
  obtain ⟨hcloses, hover⟩ := closes_foldl_closeFinished (t := t) (openDigests s)
    ⟨rfl, fun _ _ hd => hd, fun _ _ hd _ => hd⟩ fun d hd => mem_openDigests.mp hd
  refine ⟨hcloses, ?_⟩
  intro k d hd
  have hbefore := hcloses.was k d hd
  obtain rfl := key_of_openAt hbefore
  exact hover d (mem_openDigests.mpr hbefore) d hd

/-! ## Re-parenting -/

/-- The id leaves the old receiver's epoch before or after its row is written, alike. -/
theorem leaveDigest_updateMsg (s : Store) (receiver m : String) (now : Int)
    (p : QueueMessage → Bool) (f : Patch QueueMessage.msgId) :
    leaveDigest (s.updateMsg m p f) receiver m now =
      (leaveDigest s receiver m now).updateMsg m p f := by
  have hopen : openDigestIn (s.updateMsg m p f) receiver = openDigestIn s receiver := rfl
  unfold leaveDigest
  rw [hopen]
  split
  · rfl
  · split <;> rfl

theorem keepsEpochs_leaveDigest (s : Store) (receiver m : String) (now : Int) :
    KeepsEpochs s (leaveDigest s receiver m now) := by
  unfold leaveDigest
  split
  · exact KeepsEpochs.refl s
  next old hfound =>
  obtain ⟨hopen, -⟩ := openAt_of_openDigestIn hfound
  split
  · simp only
    refine ⟨?_, advance_updateDigest ?_⟩
    · intro he
      refine he.updateDigest ?_ ?_
      · intro d hnone
        split at hnone
        · cases hnone
        · exact hnone
      · rintro d ⟨hd, -⟩ - x hx
        rw [hopen.1] at hd
        cases hd
        split at hx
        · cases hx
        · exact .inl (List.mem_of_mem_filter hx)
    · intro d hd _
      rw [hopen.1] at hd
      cases hd
      exact hopen.2
  · exact KeepsEpochs.refl s

/-- A row owed to the old receiver is in no open epoch once it has left there. -/
theorem not_listed_leaveDigest (he : Epochs s) (howner : owner s m = some receiverId) (now : Int)
    {k : String × Int} {d : SeatDigest} (hd : OpenAt (leaveDigest s receiverId m now) k d) :
    m ∉ d.msgIds := by
  intro hm
  -- an open epoch that lists the row is the receiver's own
  have hown : ∀ k d, OpenAt s k d → m ∈ d.msgIds → openDigestIn s receiverId = some d := by
    intro k d hd hm
    have hreceiver := (he.listed k d hd m hm).2 receiverId howner
    rw [hreceiver]
    exact openDigestIn_of_openAt he hd
  unfold leaveDigest at hd
  split at hd
  · next hnone =>
    rw [hown k d hd hm] at hnone
    cases hnone
  next old hfound =>
  obtain ⟨hopen, -⟩ := openAt_of_openDigestIn hfound
  split at hd
  · simp only at hd
    obtain ⟨hget, hnone⟩ := hd
    change (s.seatDigest.updateKey old.key _ _).get k = some d at hget
    rw [Table.get_updateKey, Option.map_eq_some_iff] at hget
    obtain ⟨x, hx, hchange⟩ := hget
    split at hchange
    · subst hchange
      split at hm
      · cases hm
      · have hne := (List.mem_filter.mp hm).2
        exact absurd rfl (of_decide_eq_true hne)
    · next hother =>
      subst hchange
      have hsame := hown k x ⟨hx, hnone⟩ hm
      rw [hfound] at hsame
      cases hsame
      exact hother ⟨(key_of_openAt ⟨hx, hnone⟩).symm, rfl⟩
  · next habsent =>
    have hsame := hown k d hd hm
    rw [hfound] at hsame
    cases hsame
    exact habsent hm

/-- A row that stands in no open epoch may change hands. -/
theorem Epochs.updateMsg (he : Epochs s) {p : QueueMessage → Bool}
    {f : Patch QueueMessage.msgId} (hm : ∀ k d, OpenAt s k d → m ∉ d.msgIds) :
    Epochs (s.updateMsg m p f) := by
  refine ⟨he.single, ?_⟩
  intro k d hd x hx
  have hne : x ≠ m := by
    rintro rfl
    exact hm k d hd hx
  have hget : (s.updateMsg m p f).get x = s.get x := by
    rw [get_updateMsg]
    cases s.get x with
    | none => rfl
    | some r => exact congrArg some (if_neg fun hcond => hne hcond.1)
  have hlisted := he.listed k d hd x hx
  unfold Listed owner at hlisted ⊢
  rw [hget]
  exact hlisted

theorem keepsEpochs_joinDigest (now : Int) (hlisted : Listed s receiverId m) :
    KeepsEpochs s (joinDigest s receiverId m now) := by
  unfold joinDigest
  split
  · next hnone =>
    refine ⟨?_, advance_insertDigest s receiverId [m] now⟩
    intro he
    refine he.insertDigest now hnone ?_
    intro x hx
    rw [List.mem_singleton.mp hx]
    exact hlisted
  next new hfound =>
  obtain ⟨hopen, hreceiver⟩ := openAt_of_openDigestIn hfound
  split
  · exact KeepsEpochs.refl s
  · refine ⟨?_, advance_updateDigest ?_⟩
    · intro he
      refine he.updateDigest (fun _ hnone => hnone) ?_
      rintro d ⟨hd, -⟩ - x hx
      rw [hopen.1] at hd
      cases hd
      obtain hold | hnew := List.mem_append.mp hx
      · exact .inl hold
      · rw [List.mem_singleton.mp hnew, hreceiver]
        exact .inr hlisted
    · intro d hd _
      rw [hopen.1] at hd
      cases hd
      exact hopen.2

/-- A re-parented row leaves one epoch and joins another. -/
theorem keepsEpochs_reparent (s : Store) (m newReceiverId : String) (now : Int)
    (messagePrefix : String) : KeepsEpochs s (reparent sha256 s m newReceiverId now messagePrefix).2 := by
  unfold reparent
  split
  · exact KeepsEpochs.refl s
  next message hget =>
  split
  · exact KeepsEpochs.refl s
  next hlive =>
  split
  · exact KeepsEpochs.refl s
  simp only
  rw [leaveDigest_updateMsg]
  have howner : owner s m = some message.receiverId :=
    owner_eq_some_iff.mpr ⟨message, hget, Bool.eq_false_iff.mpr hlive, rfl⟩
  have hrows : (leaveDigest s message.receiverId m now).get m = some message := by
    unfold Store.get
    rw [(leaveDigest_frame s message.receiverId m now).1]
    exact hget
  have hmoved : KeepsEpochs s ((leaveDigest s message.receiverId m now).updateMsg m (fun _ => true)
      (reparentPatch newReceiverId (messagePrefix ++ message.payload)
        (sha256 (messagePrefix ++ message.payload)))) := by
    have hleaves := keepsEpochs_leaveDigest s message.receiverId m now
    refine ⟨?_, hleaves.advance.trans (advance_of_digests rfl)⟩
    intro he
    exact (hleaves.epochs he).updateMsg fun k d hd => not_listed_leaveDigest he howner now hd
  refine hmoved.trans (keepsEpochs_joinDigest now ?_)
  have hafter : ((leaveDigest s message.receiverId m now).updateMsg m (fun _ => true)
      (reparentPatch newReceiverId (messagePrefix ++ message.payload)
        (sha256 (messagePrefix ++ message.payload)))).get m =
      some ((reparentPatch newReceiverId (messagePrefix ++ message.payload)
        (sha256 (messagePrefix ++ message.payload))).apply message) := by
    rw [get_updateMsg, hrows]
    exact congrArg some (if_pos ⟨rfl, rfl⟩)
  refine ⟨by rw [hafter]; rfl, ?_⟩
  intro other hother
  obtain ⟨r, hr, -, hreceiver⟩ := owner_eq_some_iff.mp hother
  rw [hafter] at hr
  cases hr
  exact hreceiver.symm

/-! ## Every event -/

theorem keepsEpochs_arrive (sha256 : String → String) (s : Store) (arrival : Arrival) :
    KeepsEpochs s (arrive sha256 s arrival) := by
  have hsettles : settlesRows (.enqueue arrival.draft arrival.newUlid arrival.now) = true := rfl
  exact keepsEpochs_exec hsettles

theorem keepsEpochs_announceDeath (sha256 : String → String) (t : Tick) (s : Store)
    (row : DeadRow) : KeepsEpochs s (announceDeath sha256 t s row) := by
  unfold announceDeath
  split
  · exact keepsEpochs_arrive sha256 s _
  · exact KeepsEpochs.refl s

theorem keepsEpochs_adopt (sha256 : String → String) (s : Store) (t : Tick) :
    KeepsEpochs s (adopt sha256 s t) :=
  keepsEpochs_foldl _ (keepsEpochs_arrive sha256) t.adoptions s

theorem keepsEpochs_beforeServing (sha256 : String → String) (s : Store) (t : Tick) :
    KeepsEpochs s (beforeServing sha256 s t) := by
  have hreclaim : KeepsEpochs (adopt sha256 s t) (exec sha256 (adopt sha256 s t) (.reclaim t.now)) :=
    keepsEpochs_exec rfl
  exact ((keepsEpochs_adopt sha256 s t).trans hreclaim).trans
    (keepsEpochs_foldl _ (keepsEpochs_announceDeath sha256 t) _ _)

theorem Serves.keepsEpochs (h : Serves s s') : KeepsEpochs s s' := ⟨h.epochs, h.advance⟩

theorem keepsEpochs_serve (t : Tick) (s : Store) : KeepsEpochs s (serve t s) :=
  (serves_foldl _ (serves_serveReceiver t) _ s).keepsEpochs.trans
    (keepsEpochs_foldl _ (keepsEpochs_closeFinished t) _ _)

theorem keepsEpochs_runOnce (sha256 : String → String) (s : Store) (t : Tick) :
    KeepsEpochs s (runOnce sha256 s t) := by
  have hbefore := keepsEpochs_beforeServing sha256 s t
  unfold runOnce
  split
  · exact keepsEpochs_adopt sha256 s t
  · exact hbefore
  · exact hbefore
  · exact hbefore.trans (keepsEpochs_serve t _)

theorem keepsEpochs_ackOnQueue (s : Store) (mailboxId : String) (upToId now : Int) :
    KeepsEpochs s (ackOnQueue s mailboxId upToId now).2 := by
  have hsettle : KeepsEpochs s (exec id s (.settleThrough mailboxId upToId now)) :=
    keepsEpochs_exec rfl
  unfold ackOnQueue
  simp only
  split
  · exact hsettle
  split
  · exact hsettle
  · split
    · exact hsettle.trans (keepsEpochs_closeDigest _ _ _ _ _)
    · exact hsettle

theorem keepsEpochs_step (sha256 : String → String) (s : Store) (event : Event) :
    KeepsEpochs s (step sha256 s event) := by
  cases event with
  | enqueue arrival => exact keepsEpochs_arrive sha256 s arrival
  | runOnce t => exact keepsEpochs_runOnce sha256 s t
  | reparent msgId newReceiverId now messagePrefix =>
    exact keepsEpochs_reparent s msgId newReceiverId now messagePrefix
  | ack mailboxId upToId now => exact keepsEpochs_ackOnQueue s mailboxId upToId now

theorem keepsEpochs_run (sha256 : String → String) (s : Store) (events : List Event) :
    KeepsEpochs s (run (step sha256) s events) :=
  keepsEpochs_foldl (step sha256) (keepsEpochs_step sha256) events s

theorem epochs_empty : Epochs Store.empty := by
  refine ⟨?_, ?_⟩
  · rintro k k' d d' ⟨hd, -⟩
    cases hd
  · rintro k d ⟨hd, -⟩
    cases hd

theorem epochs_run (sha256 : String → String) (events : List Event) :
    Epochs (run (step sha256) Store.empty events) :=
  (keepsEpochs_run sha256 Store.empty events).epochs epochs_empty

/-! ## A tick that served everybody -/

/-- Every row owed is listed in one open epoch, its receiver's, and no open epoch is over. -/
structure Covered (s : Store) : Prop where
  listed : ∀ m receiverId, owner s m = some receiverId → ∃ k d, OpenAt s k d ∧
    d.receiverId = receiverId ∧ m ∈ d.msgIds ∧
    ∀ k' d', OpenAt s k' d' → m ∈ d'.msgIds → k' = k
  owed : ∀ k d, OpenAt s k d → ∃ m ∈ d.msgIds, (owner s m).isSome

/-- An epoch that is not over lists a row that is owed. -/
theorem allTerminal_eq_false_iff (msgIds : List String) :
    allTerminal s msgIds = false ↔ ∃ m ∈ msgIds, (owner s m).isSome := by
  unfold allTerminal
  rw [Bool.not_eq_false', List.any_eq_true]
  constructor
  · rintro ⟨r, hrow, hcond⟩
    rw [Bool.and_eq_true, List.contains_iff_mem, Bool.not_eq_true'] at hcond
    refine ⟨r.msgId, hcond.1, ?_⟩
    rw [Option.isSome_iff_exists]
    exact ⟨r.receiverId, owner_eq_some_iff.mpr
      ⟨r, (s.deliveryMsg.mem_rows_iff r).mp hrow, hcond.2, rfl⟩⟩
  · rintro ⟨m, hm, hsome⟩
    obtain ⟨receiver, howner⟩ := Option.isSome_iff_exists.mp hsome
    obtain ⟨r, hget, hlive, -⟩ := owner_eq_some_iff.mp howner
    have hid := msgId_of_get hget
    refine ⟨r, (s.deliveryMsg.mem_rows_iff r).mpr (by rw [hid]; exact hget), ?_⟩
    rw [hid, hlive, Bool.and_eq_true, List.contains_iff_mem]
    exact ⟨hm, rfl⟩

theorem covered_serve (he : Epochs s) (hhalts : t.halts = none)
    (hraises : ∀ receiver ∈ readyReceivers s, (t.serving receiver).raises = none) :
    Covered (serve t s) := by
  have hserves := serves_foldl _ (serves_serveReceiver t) (readyReceivers s) s
  have hcovers := covers_foldl_serveReceiver (readyReceivers s) s hraises
  have hepochs := (keepsEpochs_serve t s).epochs he
  obtain ⟨hcloses, hover⟩ :=
    closes_closeFinishedEpochs ((readyReceivers s).foldl (serveReceiver t) s) hhalts
  refine ⟨?_, ?_⟩
  · intro m receiver howner
    have hserved := (owner_of_rows hcloses.rows m).symm.trans howner
    have hready := mem_readyReceivers ((hserves.owners m).symm.trans hserved)
    obtain ⟨k, d, hd, hreceiver, hm⟩ := hcovers receiver hready m hserved
    have hlive : allTerminal ((readyReceivers s).foldl (serveReceiver t) s) d.msgIds = false :=
      (allTerminal_eq_false_iff d.msgIds).mpr ⟨m, hm, by rw [hserved]; rfl⟩
    have hopen : OpenAt (serve t s) k d := hcloses.stays k d hd hlive
    refine ⟨k, d, hopen, hreceiver, hm, ?_⟩
    intro k' d' hd' hm'
    refine hepochs.single k' k d' d hd' hopen ?_
    have hlisted := (hepochs.listed k' d' hd' m hm').2 receiver howner
    exact hlisted.symm.trans hreceiver.symm
  · intro k d hd
    have hlive := hover k d hd
    rw [← allTerminal_of_rows hcloses.rows] at hlive
    exact (allTerminal_eq_false_iff d.msgIds).mp hlive

theorem covered_runOnce (he : Epochs s) (hserved : servedAll sha256 s t = true) :
    Covered (runOnce sha256 s t) := by
  unfold servedAll at hserved
  rw [Bool.and_eq_true, Option.isNone_iff_eq_none, List.all_eq_true] at hserved
  obtain ⟨hhalts, hraises⟩ := hserved
  have hrun : runOnce sha256 s t = serve t (beforeServing sha256 s t) := by
    unfold runOnce
    rw [hhalts]
  rw [hrun]
  refine covered_serve ((keepsEpochs_beforeServing sha256 s t).epochs he) hhalts ?_
  intro receiver hready
  exact Option.isNone_iff_eq_none.mp (hraises receiver hready)

/-! ## Every run -/

/-- What holds of the epochs along a run. -/
structure EpochCoverage (sha256 : String → String) (events : List Event) : Prop where
  single : ∀ before, before <+: events → ∀ k k' d d',
    OpenAt (run (step sha256) Store.empty before) k d →
    OpenAt (run (step sha256) Store.empty before) k' d' → d.receiverId = d'.receiverId → k = k'
  advance : ∀ earlier later, earlier <+: later → later <+: events →
    EpochsAdvance (run (step sha256) Store.empty earlier) (run (step sha256) Store.empty later)
  covered : ∀ before t, before ++ [.runOnce t] <+: events →
    servedAll sha256 (run (step sha256) Store.empty before) t = true →
    Covered (run (step sha256) Store.empty (before ++ [.runOnce t]))

/-- Whole ticks, enqueues, re-parentings and acks, in any order. -/
theorem epochCoverage (sha256 : String → String) (events : List Event) :
    EpochCoverage sha256 events := by
  refine ⟨?_, ?_, ?_⟩
  · intro before _
    exact (epochs_run sha256 before).single
  · rintro earlier later ⟨rest, rfl⟩ -
    rw [run_append]
    exact (keepsEpochs_run sha256 _ rest).advance
  · intro before t _ hserved
    rw [run_concat]
    exact covered_runOnce (epochs_run sha256 before) hserved

end CliAgentOrchestrator.Delivery
