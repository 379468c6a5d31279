import CliAgentOrchestrator.Delivery.Tick
import CliAgentOrchestrator.Queue.Finality

/-!
# Open epochs

`seat_digest` is a second account of the rows: an open epoch lists ids, and every operation that
moves or ends a row has to keep the list true. `Epochs` is what they keep.
-/

set_option autoImplicit false

namespace CliAgentOrchestrator.Delivery

open CliAgentOrchestrator.Core Library Queue Wiring

variable {sha256 : String → String} {s s' s'' : Store} {m receiverId : String}

/-! ## What is owed to whom -/

/-- The receiver of a row that has not ended. -/
def owner (s : Store) (m : String) : Option String :=
  ((s.get m).filter fun r => !r.terminal).map QueueMessage.receiverId

theorem owner_eq_some_iff : owner s m = some receiverId ↔
    ∃ r, s.get m = some r ∧ r.terminal = false ∧ r.receiverId = receiverId := by
  unfold owner
  rw [Option.map_eq_some_iff]
  constructor
  · rintro ⟨r, hr, hreceiver⟩
    rw [Option.filter_eq_some_iff, Bool.not_eq_true'] at hr
    exact ⟨r, hr.1, hr.2, hreceiver⟩
  · rintro ⟨r, hget, hlive, hreceiver⟩
    refine ⟨r, ?_, hreceiver⟩
    rw [Option.filter_eq_some_iff, Bool.not_eq_true']
    exact ⟨hget, hlive⟩

theorem mem_undeliveredIds_iff : m ∈ undeliveredIds s receiverId ↔ owner s m = some receiverId := by
  rw [mem_undeliveredIds, owner_eq_some_iff]
  constructor
  · rintro ⟨r, hget, hreceiver, hlive⟩
    exact ⟨r, hget, hlive, hreceiver⟩
  · rintro ⟨r, hget, hlive, hreceiver⟩
    exact ⟨r, hget, hreceiver, hlive⟩

/-- The id is a row of the table, and owed to nobody else. -/
def Listed (s : Store) (receiverId m : String) : Prop :=
  (s.get m).isSome ∧ ∀ other, owner s m = some other → other = receiverId

/-- A digest row that is not consumed. -/
def OpenAt (s : Store) (k : String × Int) (d : SeatDigest) : Prop :=
  s.seatDigest.get k = some d ∧ d.consumedAt = none

/-- At most one epoch of a receiver is open, and an open epoch lists rows owed to nobody else. -/
structure Epochs (s : Store) : Prop where
  single : ∀ k k' d d', OpenAt s k d → OpenAt s k' d' → d.receiverId = d'.receiverId → k = k'
  listed : ∀ k d, OpenAt s k d → ∀ m ∈ d.msgIds, Listed s d.receiverId m

/-- Epochs stay, closed ones as they are, and new ones are numbered above all earlier ones. -/
structure EpochsAdvance (s s' : Store) : Prop where
  kept : ∀ k d, s.seatDigest.get k = some d → ∃ d', s'.seatDigest.get k = some d' ∧
    (d.consumedAt.isSome → d'.consumedAt = d.consumedAt ∧ d'.consumedVia = d.consumedVia)
  above : ∀ receiverId epoch, (s'.seatDigest.get (receiverId, epoch)).isSome →
    s.seatDigest.get (receiverId, epoch) = none → ∀ earlier,
    (s.seatDigest.get (receiverId, earlier)).isSome → earlier < epoch

theorem EpochsAdvance.refl (s : Store) : EpochsAdvance s s := by
  refine ⟨fun k d h => ⟨d, h, fun _ => ⟨rfl, rfl⟩⟩, ?_⟩
  intro receiverId epoch hsome hnone
  rw [hnone] at hsome
  cases hsome

/-- The epochs left as they are. -/
theorem advance_of_digests (h : s'.seatDigest = s.seatDigest) : EpochsAdvance s s' := by
  have hrefl := EpochsAdvance.refl s
  refine ⟨?_, ?_⟩
  · rw [h]
    exact hrefl.kept
  · rw [h]
    exact hrefl.above

theorem EpochsAdvance.isSome (h : EpochsAdvance s s') {k : String × Int}
    (hsome : (s.seatDigest.get k).isSome) : (s'.seatDigest.get k).isSome := by
  obtain ⟨d, hd⟩ := Option.isSome_iff_exists.mp hsome
  obtain ⟨d', hd', -⟩ := h.kept k d hd
  rw [hd']
  rfl

theorem EpochsAdvance.trans (h : EpochsAdvance s s') (h' : EpochsAdvance s' s'') :
    EpochsAdvance s s'' := by
  refine ⟨?_, ?_⟩
  · intro k d hd
    obtain ⟨d', hd', hkept⟩ := h.kept k d hd
    obtain ⟨d'', hd'', hkept'⟩ := h'.kept k d' hd'
    refine ⟨d'', hd'', ?_⟩
    intro hclosed
    obtain ⟨hat, hvia⟩ := hkept hclosed
    obtain ⟨hat', hvia'⟩ := hkept' (hat ▸ hclosed)
    exact ⟨hat'.trans hat, hvia'.trans hvia⟩
  · intro receiverId epoch hsome hnone earlier hearlier
    by_cases hmid : (s'.seatDigest.get (receiverId, epoch)).isSome
    · exact h.above receiverId epoch hmid hnone earlier hearlier
    · rw [Option.not_isSome_iff_eq_none] at hmid
      exact h'.above receiverId epoch hsome hmid earlier (h.isSome hearlier)

/-! ## Statements on the rows -/

/-- Rows end or are inserted, and the epochs are left alone. -/
structure RowsSettle (s s' : Store) : Prop where
  digests : s'.seatDigest = s.seatDigest
  kept : ∀ m r, s.get m = some r → ∃ r', s'.get m = some r' ∧ r'.receiverId = r.receiverId ∧
    (r'.terminal = false → r.terminal = false)

theorem RowsSettle.listed (h : RowsSettle s s') (hl : Listed s receiverId m) :
    Listed s' receiverId m := by
  obtain ⟨r, hr⟩ := Option.isSome_iff_exists.mp hl.1
  obtain ⟨r', hr', hreceiver, hlive⟩ := h.kept m r hr
  refine ⟨by rw [hr']; rfl, ?_⟩
  intro other hother
  obtain ⟨x, hx, hxlive, hxreceiver⟩ := owner_eq_some_iff.mp hother
  rw [hr'] at hx
  cases hx
  exact hl.2 other (owner_eq_some_iff.mpr ⟨r, hr, hlive hxlive, hreceiver.symm.trans hxreceiver⟩)

theorem RowsSettle.openAt (h : RowsSettle s s') {k : String × Int} {d : SeatDigest} :
    OpenAt s' k d ↔ OpenAt s k d := by
  unfold OpenAt
  rw [h.digests]

theorem RowsSettle.epochs (h : RowsSettle s s') (he : Epochs s) : Epochs s' := by
  refine ⟨?_, ?_⟩
  · intro k k' d d' hd hd' hsame
    exact he.single k k' d d' (h.openAt.mp hd) (h.openAt.mp hd') hsame
  · intro k d hd m hm
    exact h.listed (he.listed k d (h.openAt.mp hd) m hm)

/-- The calls of a tick and of an ack that write rows and no epoch. -/
def settlesRows : Op → Bool
  | .enqueue _ _ _ => true
  | .claim _ _ _ _ => true
  | .reclaim _ => true
  | .recordAttempt _ => true
  | .markDialogHold _ _ => true
  | .settleThrough _ _ _ => true
  | _ => false

theorem seatDigest_deathSweep (p : QueueMessage → Bool) (reason : QueueMessage → DeadReason)
    (now : Int) (acc : Store × ReclaimResult) :
    (deathSweep p reason now acc).1.seatDigest = acc.1.seatDigest := by
  unfold deathSweep
  rw [(deathSweep_loop reason now _ acc).1]

theorem seatDigest_exec {op : Op} (h : settlesRows op = true) :
    (exec sha256 s op).seatDigest = s.seatDigest := by
  cases op with
  | enqueue draft newUlid now =>
    simp only [exec]
    split
    · next message s₁ he =>
      obtain ⟨-, -, -, ⟨-, rfl⟩ | ⟨-, -, -, rfl⟩⟩ := enqueue_spec he <;> rfl
    · rfl
  | claim leaseOwner now limit receiver =>
    simp only [exec]
    rw [(claim_spec s leaseOwner now limit receiver).2]
  | reclaim now =>
    simp only [exec]
    unfold reclaim exhaustionSweep holdSweep
    rw [seatDigest_deathSweep, seatDigest_deathSweep, (leaseSweep_spec s now).1]
  | recordAttempt attempt => rfl
  | markDialogHold msgId heldSince => rfl
  | settleThrough receiver upToId now => exact settleThrough_seatDigest s receiver upToId now
  | _ => cases h

/-- Every one of them settles rows. -/
theorem rowsSettle_exec {op : Op} (h : settlesRows op = true) :
    RowsSettle s (exec sha256 s op) := by
  refine ⟨seatDigest_exec h, ?_⟩
  intro m r hget
  cases hafter : (exec sha256 s op).get m with
  | none =>
    have hprunes := (prunes_of_exec hget hafter).1
    cases op with
    | prune now isProtected => exact absurd h (by simp [settlesRows])
    | _ => cases hprunes
  | some r' =>
    obtain ⟨l, hstep, -⟩ := rowStep_of_exec hget hafter
    refine ⟨r', rfl, hstep.receiverId ?_, hstep.live_before⟩
    rintro msgId newReceiverId now messagePrefix rfl
    cases h

/-! ## Statements on the epochs -/

/-- Statements on `seat_digest` alone. -/
theorem Listed.of_rows (hmsg : s'.deliveryMsg = s.deliveryMsg) (h : Listed s receiverId m) :
    Listed s' receiverId m := by
  unfold Listed owner Store.get at h ⊢
  rw [hmsg]
  exact h

theorem owner_of_rows (hmsg : s'.deliveryMsg = s.deliveryMsg) (m : String) :
    owner s' m = owner s m := by
  unfold owner Store.get
  rw [hmsg]

theorem key_of_openAt {k : String × Int} {d : SeatDigest} (h : OpenAt s k d) :
    d.key = k := Table.key_of_get h.1

/-- What is open after an update that reopens nothing was open before it. -/
theorem openAt_of_updateDigest {k k' : String × Int} {p : SeatDigest → Bool}
    {f : Patch SeatDigest.key} {d' : SeatDigest}
    (hopen : ∀ d, (f.apply d).consumedAt = none → d.consumedAt = none)
    (h : OpenAt (s.updateDigest k p f) k' d') : ∃ d, OpenAt s k' d ∧
      d.receiverId = d'.receiverId ∧ (d' = d ∨ (k' = k ∧ p d = true ∧ d' = f.apply d)) := by
  obtain ⟨hget, hnone⟩ := h
  change (s.seatDigest.updateKey k p f).get k' = some d' at hget
  rw [Table.get_updateKey, Option.map_eq_some_iff] at hget
  obtain ⟨d, hd, hchange⟩ := hget
  split at hchange
  · next hcond =>
    subst hchange
    have hkey := congrArg Prod.fst (f.keeps d)
    exact ⟨d, ⟨hd, hopen d hnone⟩, hkey.symm, .inr ⟨hcond.1, hcond.2, rfl⟩⟩
  · subst hchange
    exact ⟨d, ⟨hd, hnone⟩, rfl, .inl rfl⟩

/-- An update under one key that only closes, and lists nothing owed to somebody else. -/
theorem Epochs.updateDigest (h : Epochs s) {k : String × Int} {p : SeatDigest → Bool}
    {f : Patch SeatDigest.key} (hopen : ∀ d, (f.apply d).consumedAt = none → d.consumedAt = none)
    (hids : ∀ d, OpenAt s k d → p d = true → ∀ m ∈ (f.apply d).msgIds, m ∈ d.msgIds ∨
      Listed s d.receiverId m) : Epochs (s.updateDigest k p f) := by
  have hbefore : ∀ k' d', OpenAt (s.updateDigest k p f) k' d' → ∃ d, OpenAt s k' d ∧
      d.receiverId = d'.receiverId ∧ (d' = d ∨ (k' = k ∧ p d = true ∧ d' = f.apply d)) :=
    fun k' d' hd' => openAt_of_updateDigest hopen hd'
  refine ⟨?_, ?_⟩
  · intro k₁ k₂ d₁ d₂ h₁ h₂ hsame
    obtain ⟨e₁, he₁, hr₁, -⟩ := hbefore k₁ d₁ h₁
    obtain ⟨e₂, he₂, hr₂, -⟩ := hbefore k₂ d₂ h₂
    exact h.single k₁ k₂ e₁ e₂ he₁ he₂ (hr₁.trans (hsame.trans hr₂.symm))
  · intro k' d' hd' m hm
    obtain ⟨d, hd, hreceiver, rfl | ⟨rfl, hp, rfl⟩⟩ := hbefore k' d' hd'
    · exact (h.listed k' d' hd m hm).of_rows rfl
    · rw [← hreceiver]
      obtain hold | hnew := hids d hd hp m hm
      · exact (h.listed k' d hd m hold).of_rows rfl
      · exact hnew.of_rows rfl

/-- An update that closed epochs do not meet. -/
theorem advance_updateDigest {k : String × Int} {p : SeatDigest → Bool} {f : Patch SeatDigest.key}
    (hopen : ∀ d, s.seatDigest.get k = some d → p d = true → d.consumedAt = none) :
    EpochsAdvance s (s.updateDigest k p f) := by
  have hget : ∀ k', (s.updateDigest k p f).seatDigest.get k' =
      (s.seatDigest.get k').map fun d => if k' = k ∧ p d = true then f.apply d else d :=
    fun k' => s.seatDigest.get_updateKey k k' p f
  refine ⟨?_, ?_⟩
  · intro k' d hd
    refine ⟨_, by rw [hget, hd, Option.map_some], ?_⟩
    intro hclosed
    rw [if_neg]
    · exact ⟨rfl, rfl⟩
    · rintro ⟨rfl, hp⟩
      rw [hopen d hd hp] at hclosed
      cases hclosed
  · intro receiverId epoch hsome hnone
    rw [hget, hnone] at hsome
    cases hsome

/-! ## The receiver's open epoch -/

/-- Where epochs are single, the open epoch is the one the store finds. -/
theorem openDigestIn_of_openAt (h : Epochs s) {k : String × Int} {d : SeatDigest}
    (hd : OpenAt s k d) : openDigestIn s d.receiverId = some d := by
  have hmem : d ∈ (s.seatDigest.select fun x => x.receiverId == d.receiverId
      && x.consumedAt.isNone).insertionSort fun a b => b.epoch ≤ a.epoch := by
    rw [List.mem_insertionSort, Table.mem_select_iff, key_of_openAt hd]
    exact ⟨hd.1, by simp [hd.2]⟩
  cases hfound : openDigestIn s d.receiverId with
  | none =>
    unfold openDigestIn at hfound
    rw [List.head?_eq_none_iff] at hfound
    rw [hfound] at hmem
    cases hmem
  | some found =>
    obtain ⟨hget, hreceiver, hnone⟩ := openDigestIn_eq_some hfound
    have hsame := h.single found.key k found d ⟨hget, hnone⟩ hd hreceiver
    rw [hsame, hd.1] at hget
    exact hget.symm

theorem openAt_of_openDigestIn {d : SeatDigest} (h : openDigestIn s receiverId = some d) :
    OpenAt s d.key d ∧ d.receiverId = receiverId := by
  obtain ⟨hget, hreceiver, hnone⟩ := openDigestIn_eq_some h
  exact ⟨⟨hget, hnone⟩, hreceiver⟩

theorem lt_nextEpochIn {epoch : Int} {d : SeatDigest}
    (h : s.seatDigest.get (receiverId, epoch) = some d) : epoch < nextEpochIn s receiverId := by
  have hkey : d.key = (receiverId, epoch) := Table.key_of_get h
  have hreceiver : d.receiverId = receiverId := congrArg Prod.fst hkey
  have hepoch : d.epoch = epoch := congrArg Prod.snd hkey
  have hmem : epoch ∈ (s.seatDigest.select fun x => x.receiverId == receiverId).map
      SeatDigest.epoch := by
    refine List.mem_map.mpr ⟨d, ?_, hepoch⟩
    rw [Table.mem_select_iff, hkey]
    exact ⟨h, by simp [hreceiver]⟩
  unfold nextEpochIn
  cases hmax : ((s.seatDigest.select fun x => x.receiverId == receiverId).map
      SeatDigest.epoch).max? with
  | none =>
    rw [List.max?_eq_none_iff] at hmax
    rw [hmax] at hmem
    cases hmem
  | some v =>
    have hle := (List.max?_eq_some_iff.mp hmax).2 epoch hmem
    exact Int.lt_add_one_of_le hle

/-- A new epoch has a number of its own. -/
theorem get_insertDigest (s : Store) (receiverId : String) (msgIds : List String) (now : Int)
    (k : String × Int) :
    (s.insertDigest (newDigest receiverId (nextEpochIn s receiverId) msgIds now)).seatDigest.get k =
      if k = (receiverId, nextEpochIn s receiverId) then
        some (newDigest receiverId (nextEpochIn s receiverId) msgIds now)
      else s.seatDigest.get k := by
  show (s.seatDigest.insert _).get k = _
  rw [Table.get_insert]
  by_cases hk : k = (receiverId, nextEpochIn s receiverId)
  · subst hk
    have hfree : s.seatDigest.get (receiverId, nextEpochIn s receiverId) = none := by
      cases hget : s.seatDigest.get (receiverId, nextEpochIn s receiverId) with
      | none => rfl
      | some d => exact absurd (lt_nextEpochIn hget) (lt_irrefl _)
    rw [hfree, if_pos rfl]
    exact if_pos rfl
  · rw [if_neg hk, if_neg]
    · exact Option.or_none
    · exact fun he => hk he.symm

theorem advance_insertDigest (s : Store) (receiverId : String) (msgIds : List String)
    (now : Int) : EpochsAdvance s
      (s.insertDigest (newDigest receiverId (nextEpochIn s receiverId) msgIds now)) := by
  refine ⟨?_, ?_⟩
  · intro k d hd
    refine ⟨d, ?_, fun _ => ⟨rfl, rfl⟩⟩
    rw [get_insertDigest, if_neg]
    · exact hd
    · rintro rfl
      exact absurd (lt_nextEpochIn hd) (lt_irrefl _)
  · intro receiver epoch hsome hnone earlier hearlier
    rw [get_insertDigest] at hsome
    split at hsome
    · next hk =>
      cases hk
      obtain ⟨d, hd⟩ := Option.isSome_iff_exists.mp hearlier
      exact lt_nextEpochIn hd
    · rw [hnone] at hsome
      cases hsome

/-- An epoch is opened where none is open, over rows owed to nobody else. -/
theorem Epochs.insertDigest (h : Epochs s) (now : Int) {msgIds : List String}
    (hnone : openDigestIn s receiverId = none) (hids : ∀ m ∈ msgIds, Listed s receiverId m) :
    Epochs (s.insertDigest (newDigest receiverId (nextEpochIn s receiverId) msgIds now)) := by
  have hbefore : ∀ k d, OpenAt (s.insertDigest
      (newDigest receiverId (nextEpochIn s receiverId) msgIds now)) k d →
      (k = (receiverId, nextEpochIn s receiverId) ∧
        d = newDigest receiverId (nextEpochIn s receiverId) msgIds now) ∨
      (OpenAt s k d ∧ d.receiverId ≠ receiverId) := by
    rintro k d ⟨hget, hopen⟩
    rw [get_insertDigest] at hget
    split at hget
    · next hk => exact .inl ⟨hk, (Option.some.inj hget).symm⟩
    · refine .inr ⟨⟨hget, hopen⟩, ?_⟩
      rintro rfl
      rw [openDigestIn_of_openAt h ⟨hget, hopen⟩] at hnone
      cases hnone
  refine ⟨?_, ?_⟩
  · intro k k' d d' hd hd' hsame
    obtain ⟨hk, rfl⟩ | ⟨hold, hother⟩ := hbefore k d hd
    · obtain ⟨hk', -⟩ | ⟨-, hother'⟩ := hbefore k' d' hd'
      · rw [hk, hk']
      · exact absurd hsame.symm hother'
    · obtain ⟨-, rfl⟩ | ⟨hold', -⟩ := hbefore k' d' hd'
      · exact absurd hsame hother
      · exact h.single k k' d d' hold hold' hsame
  · intro k d hd m hm
    obtain ⟨-, rfl⟩ | ⟨hold, -⟩ := hbefore k d hd
    · exact (hids m hm).of_rows rfl
    · exact (h.listed k d hold m hm).of_rows rfl

end CliAgentOrchestrator.Delivery
