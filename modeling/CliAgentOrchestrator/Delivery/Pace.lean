import CliAgentOrchestrator.Delivery.Coverage

/-!
# The pace of the wakes

The tick counts a wake whenever it claims, and a claim takes whatever is ready. One wake to a
lease period follows only where nothing is ready while a lease of the receiver runs: `Paced` is
what holds of a receiver's epochs then, and each part of a tick keeps it.
-/

set_option autoImplicit false

namespace CliAgentOrchestrator.Delivery

open CliAgentOrchestrator.Core Library Queue Wiring

variable {sha256 : String → String} {s s' : Store} {m receiverId : String} {t : Tick}
  {now now' e : Int} {ends : Prop}

/-! ## Leases that run -/

/-- The row holds a lease of the receiver that ends at `e`, after `now`. -/
def Leased (s : Store) (receiverId : String) (now : Int) (m : String) (e : Int) : Prop :=
  ∃ r, s.get m = some r ∧ r.receiverId = receiverId ∧ r.state = .leased ∧
    r.leaseExpiresAt = some e ∧ now < e

/-- Some row of the receiver is inside its lease. -/
def UnderLease (s : Store) (receiverId : String) (now : Int) : Prop :=
  ∃ m e, Leased s receiverId now m e

/-- When the lease period ends that the epoch's last wake may count for. -/
def dueAt (d : SeatDigest) : Int := d.builtAt + d.wakeCount * seconds deliveryLeaseS

/-- The open epoch of a receiver keeps to one wake a lease period. `ends` says that an epoch with
nothing owed is about to be closed. -/
structure Paced (s : Store) (receiverId : String) (now : Int) (ends : Prop) : Prop where
  spent : ∀ k d, OpenAt s k d → d.receiverId = receiverId →
    dueAt d ≤ now + seconds deliveryLeaseS
  leases : ∀ k d, OpenAt s k d → d.receiverId = receiverId →
    ∀ m e, Leased s receiverId now m e → dueAt d ≤ e
  held : ∀ k d, OpenAt s k d → d.receiverId = receiverId →
    dueAt d ≤ now ∨ UnderLease s receiverId now ∨ (ends ∧ undeliveredIds s receiverId = [])

/-- Time passes. -/
theorem Paced.later (h : Paced s receiverId now ends) (hle : now ≤ now') :
    Paced s receiverId now' ends := by
  have hleased : ∀ m e, Leased s receiverId now' m e → Leased s receiverId now m e := by
    rintro m e ⟨r, hget, hreceiver, hstate, he, hlt⟩
    exact ⟨r, hget, hreceiver, hstate, he, lt_of_le_of_lt hle hlt⟩
  refine ⟨?_, ?_, ?_⟩
  · intro k d hd hreceiver
    have hspent := h.spent k d hd hreceiver
    omega
  · intro k d hd hreceiver m e hm
    exact h.leases k d hd hreceiver m e (hleased m e hm)
  · intro k d hd hreceiver
    obtain hdue | ⟨m, e, hm⟩ | hended := h.held k d hd hreceiver
    · exact .inl (by omega)
    · by_cases hrun : now' < e
      · obtain ⟨r, hget, hr, hstate, he, -⟩ := hm
        exact .inr (.inl ⟨m, e, r, hget, hr, hstate, he, hrun⟩)
      · have hle' := h.leases k d hd hreceiver m e hm
        exact .inl (by omega)
    · exact .inr (.inr hended)

/-- A call that grants and takes back no lease, wakes no epoch and opens one only now. -/
theorem Paced.of_same (h : Paced s receiverId now ends)
    (hdigests : ∀ k d', OpenAt s' k d' → d'.receiverId = receiverId →
      (∃ d, OpenAt s k d ∧ d.receiverId = receiverId ∧ dueAt d = dueAt d') ∨ dueAt d' = now)
    (hleased : ∀ m e, Leased s' receiverId now m e ↔ Leased s receiverId now m e)
    (hended : ends → undeliveredIds s receiverId = [] → undeliveredIds s' receiverId = []) :
    Paced s' receiverId now ends := by
  have hlease : (0 : Int) < seconds deliveryLeaseS := by decide
  refine ⟨?_, ?_, ?_⟩
  · intro k d' hd' hreceiver
    obtain ⟨d, hd, hr, hdue⟩ | hdue := hdigests k d' hd' hreceiver
    · rw [← hdue]
      exact h.spent k d hd hr
    · omega
  · intro k d' hd' hreceiver m e hm
    have hm' := (hleased m e).mp hm
    obtain ⟨d, hd, hr, hdue⟩ | hdue := hdigests k d' hd' hreceiver
    · rw [← hdue]
      exact h.leases k d hd hr m e hm'
    · obtain ⟨-, -, -, -, -, hlt⟩ := hm'
      omega
  · intro k d' hd' hreceiver
    obtain ⟨d, hd, hr, hdue⟩ | hdue := hdigests k d' hd' hreceiver
    · rw [← hdue]
      obtain hpast | ⟨m, e, hm⟩ | ⟨hends, hnone⟩ := h.held k d hd hr
      · exact .inl hpast
      · exact .inr (.inl ⟨m, e, (hleased m e).mpr hm⟩)
      · exact .inr (.inr ⟨hends, hended hends hnone⟩)
    · exact .inl (le_of_eq hdue)

/-! ## Before the serving -/

theorem get_arrive (sha256 : String → String) (s : Store) (arrival : Arrival) (m : String) :
    (arrive sha256 s arrival).get m = s.get m ∨
      ∃ r, s.get m = none ∧ (arrive sha256 s arrival).get m = some r ∧ r.state = .ready := by
  unfold arrive
  simp only [exec]
  split
  · next message s₁ he =>
    obtain ⟨-, -, -, ⟨-, rfl⟩ | ⟨-, hid, -, rfl⟩⟩ := enqueue_spec he
    · exact .inl rfl
    · by_cases hm : m = arrival.newUlid
      · subst hm
        refine .inr ⟨draftRow sha256 arrival.draft arrival.newUlid arrival.now, hid, ?_, rfl⟩
        show (s.deliveryMsg.insert _).get _ = _
        rw [Table.get_insert]
        have hfree : s.deliveryMsg.get arrival.newUlid = none := hid
        rw [hfree]
        exact if_pos rfl
      · refine .inl ?_
        show (s.deliveryMsg.insert _).get m = _
        rw [Table.get_insert, if_neg]
        · exact Option.or_none
        · exact fun heq => hm heq.symm
  · exact .inl rfl

theorem leased_arrive (arrival : Arrival) :
    Leased (arrive sha256 s arrival) receiverId now m e ↔ Leased s receiverId now m e := by
  unfold Leased
  obtain hsame | ⟨r, hnone, hnew, hready⟩ := get_arrive sha256 s arrival m
  · rw [hsame]
  · rw [hnone, hnew]
    constructor
    · rintro ⟨x, hx, -, hstate, -⟩
      cases hx
      rw [hready] at hstate
      cases hstate
    · rintro ⟨x, hx, -⟩
      cases hx

theorem seatDigest_arrive (sha256 : String → String) (s : Store) (arrival : Arrival) :
    (arrive sha256 s arrival).seatDigest = s.seatDigest := by
  have hsettles : settlesRows (.enqueue arrival.draft arrival.newUlid arrival.now) = true := rfl
  exact seatDigest_exec hsettles

theorem openAt_of_digests (h : s'.seatDigest = s.seatDigest) {k : String × Int}
    {d : SeatDigest} : OpenAt s' k d ↔ OpenAt s k d := by
  unfold OpenAt
  rw [h]

/-- Enqueues touch no lease and no epoch. -/
theorem foldl_arrive (sha256 : String → String) (arrivals : List Arrival) (s : Store) :
    (arrivals.foldl (arrive sha256) s).seatDigest = s.seatDigest ∧ ∀ receiverId now m e,
      Leased (arrivals.foldl (arrive sha256) s) receiverId now m e ↔ Leased s receiverId now m e := by
  induction arrivals generalizing s with
  | nil => exact ⟨rfl, fun _ _ _ _ => Iff.rfl⟩
  | cons first rest ih =>
    obtain ⟨hdigests, hleased⟩ := ih (arrive sha256 s first)
    exact ⟨hdigests.trans (seatDigest_arrive sha256 s first),
      fun receiverId now m e => (hleased receiverId now m e).trans (leased_arrive first)⟩

/-- The notices of some deaths, as enqueues. -/
theorem foldl_announceDeath (sha256 : String → String) (t : Tick) (dead : List DeadRow)
    (s : Store) : ∃ arrivals : List Arrival, dead.foldl (announceDeath sha256 t) s =
      arrivals.foldl (arrive sha256) s := by
  induction dead generalizing s with
  | nil => exact ⟨[], rfl⟩
  | cons row rest ih =>
    obtain ⟨arrivals, hrest⟩ := ih (announceDeath sha256 t s row)
    rw [List.foldl_cons, hrest]
    unfold announceDeath
    split
    · next draft newUlid now _ _ => exact ⟨⟨draft, newUlid, now⟩ :: arrivals, rfl⟩
    · exact ⟨arrivals, rfl⟩

/-- A row that is leased after a `reclaim` held that lease before. -/
theorem leased_of_reclaim (h : Leased (reclaim s now).1 receiverId now m e) :
    Leased s receiverId now m e := by
  obtain ⟨r', hget', hreceiver, hstate, he, hlt⟩ := h
  rw [get_reclaim, Option.map_eq_some_iff] at hget'
  obtain ⟨r, hget, rfl⟩ := hget'
  obtain ⟨h, -⟩ | ⟨h, -⟩ := reclaimRow_cases s now r
  · rw [h] at hreceiver hstate he
    obtain ⟨-, h⟩ | ⟨-, -, h⟩ | ⟨-, -, h⟩ := reofferRow_cases s now r
    · rw [h] at hreceiver hstate he
      exact ⟨r, hget, hreceiver, hstate, he, hlt⟩
    · rw [h] at hstate
      cases hstate
    · rw [h] at hstate
      cases hstate
  · rw [h] at hstate
    cases hstate

theorem seatDigest_reclaim (s : Store) (now : Int) :
    (reclaim s now).1.seatDigest = s.seatDigest := by
  have hsettles : settlesRows (.reclaim now) = true := rfl
  exact @seatDigest_exec id s _ hsettles

/-- Until the serving begins no epoch changes and no lease is granted. -/
theorem beforeServing_spec (sha256 : String → String) (s : Store) (t : Tick) :
    (beforeServing sha256 s t).seatDigest = s.seatDigest ∧ ∀ receiverId m e,
      Leased (beforeServing sha256 s t) receiverId t.now m e → Leased s receiverId t.now m e := by
  obtain ⟨hadopt, hadopted⟩ := foldl_arrive sha256 t.adoptions s
  obtain ⟨arrivals, harrivals⟩ := foldl_announceDeath sha256 t
    (announced t (reclaim (adopt sha256 s t) t.now).2.dead) (reclaim (adopt sha256 s t) t.now).1
  obtain ⟨hnotices, hnoticed⟩ :=
    foldl_arrive sha256 arrivals (reclaim (adopt sha256 s t) t.now).1
  have hbefore : beforeServing sha256 s t =
      arrivals.foldl (arrive sha256) (reclaim (adopt sha256 s t) t.now).1 := harrivals
  rw [hbefore]
  refine ⟨hnotices.trans ((seatDigest_reclaim _ t.now).trans hadopt), ?_⟩
  intro receiverId m e h
  exact (hadopted receiverId t.now m e).mp (leased_of_reclaim ((hnoticed receiverId t.now m e).mp h))

/-- Before the serving an epoch keeps its pace unless the leases of its receiver are gone. -/
theorem Paced.beforeServing (h : Paced s receiverId t.now False)
    (hkept : UnderLease s receiverId t.now →
      UnderLease (beforeServing sha256 s t) receiverId t.now ∨
      (ends ∧ undeliveredIds (beforeServing sha256 s t) receiverId = [])) :
    Paced (beforeServing sha256 s t) receiverId t.now ends := by
  obtain ⟨hdigests, hleased⟩ := beforeServing_spec sha256 s t
  refine ⟨?_, ?_, ?_⟩
  · intro k d hd hreceiver
    exact h.spent k d ((openAt_of_digests hdigests).mp hd) hreceiver
  · intro k d hd hreceiver m e hm
    exact h.leases k d ((openAt_of_digests hdigests).mp hd) hreceiver m e (hleased receiverId m e hm)
  · intro k d hd hreceiver
    obtain hdue | hunder | ⟨hfalse, -⟩ := h.held k d ((openAt_of_digests hdigests).mp hd) hreceiver
    · exact .inl hdue
    · exact .inr (hkept hunder)
    · exact hfalse.elim

/-! ## Serving one receiver -/

/-- What a claim that took something leaves of a receiver that was under no lease. -/
structure Due (s : Store) (receiverId : String) (now : Int) : Prop where
  past : ∀ k d, OpenAt s k d → d.receiverId = receiverId → dueAt d ≤ now
  leases : ∀ m e, Leased s receiverId now m e → now + seconds deliveryLeaseS ≤ e
  under : UnderLease s receiverId now

theorem leased_of_map {f : QueueMessage → QueueMessage} (hget : s'.get m = (s.get m).map f)
    (hf : ∀ r, (f r).receiverId = r.receiverId ∧ (f r).state = r.state ∧
      (f r).leaseExpiresAt = r.leaseExpiresAt) :
    Leased s' receiverId now m e ↔ Leased s receiverId now m e := by
  unfold Leased
  rw [hget]
  constructor
  · rintro ⟨x, hx, hreceiver, hstate, he, hlt⟩
    obtain ⟨r, hr, rfl⟩ := Option.map_eq_some_iff.mp hx
    obtain ⟨h₁, h₂, h₃⟩ := hf r
    exact ⟨r, hr, h₁.symm.trans hreceiver, h₂.symm.trans hstate, h₃.symm.trans he, hlt⟩
  · rintro ⟨r, hr, hreceiver, hstate, he, hlt⟩
    obtain ⟨h₁, h₂, h₃⟩ := hf r
    refine ⟨f r, ?_, h₁.trans hreceiver, h₂.trans hstate, h₃.trans he, hlt⟩
    rw [hr, Option.map_some]

theorem leased_of_rows (hmsg : s'.deliveryMsg = s.deliveryMsg) :
    Leased s' receiverId now m e ↔ Leased s receiverId now m e := by
  unfold Leased Store.get
  rw [hmsg]

theorem undeliveredIds_of_owners (h : ∀ m, owner s' m = owner s m)
    (hnone : undeliveredIds s receiverId = []) : undeliveredIds s' receiverId = [] := by
  rw [List.eq_nil_iff_forall_not_mem] at hnone ⊢
  intro m hm
  rw [mem_undeliveredIds_iff, h] at hm
  exact hnone m (mem_undeliveredIds_iff.mpr hm)

/-- After a claim a lease ran before it, or was granted by it. -/
theorem leased_claim {limit : Int} {leaseOwner : String} {receiver : Option String} :
    Leased (claim s leaseOwner now limit receiver).2 receiverId now m e ↔
      Leased s receiverId now m e ∨ (e = now + seconds deliveryLeaseS ∧
        ∃ r ∈ claimRows s now limit receiver, r.msgId = m ∧ r.receiverId = receiverId) := by
  have hlease : (0 : Int) < seconds deliveryLeaseS := by decide
  unfold Leased
  rw [get_claim]
  constructor
  · rintro ⟨x, hx, hreceiver, hstate, he, hlt⟩
    obtain ⟨r, hr, hchange⟩ := Option.map_eq_some_iff.mp hx
    split at hchange
    · next hrow =>
      subst hchange
      exact .inr ⟨(Option.some.inj he).symm, r, hrow, msgId_of_get hr, hreceiver⟩
    · subst hchange
      exact .inl ⟨r, hr, hreceiver, hstate, he, hlt⟩
  · rintro (⟨r, hr, hreceiver, hstate, he, hlt⟩ | ⟨rfl, r, hrow, rfl, hreceiver⟩)
    · refine ⟨r, ?_, hreceiver, hstate, he, hlt⟩
      rw [hr, Option.map_some, if_neg]
      intro hrow
      rw [(claimable_of_mem_claimRows hrow).1] at hstate
      cases hstate
    · refine ⟨leaseRow leaseOwner now r, ?_, hreceiver, rfl, rfl, by omega⟩
      rw [(mem_claimRows hrow).1, Option.map_some, if_pos hrow]

theorem seatDigest_claim (s : Store) (leaseOwner : String) (now limit : Int)
    (receiver : Option String) :
    (claim s leaseOwner now limit receiver).2.seatDigest = s.seatDigest := by
  rw [(claim_spec s leaseOwner now limit receiver).2]

theorem Paced.claim (h : Paced s receiverId now ends) (leaseOwner : String) (limit : Int) :
    Paced (claim s leaseOwner now limit (some receiverId)).2 receiverId now ends := by
  have hdigests := seatDigest_claim s leaseOwner now limit (some receiverId)
  refine ⟨?_, ?_, ?_⟩
  · intro k d hd hreceiver
    exact h.spent k d ((openAt_of_digests hdigests).mp hd) hreceiver
  · intro k d hd hreceiver m e hm
    have hd' := (openAt_of_digests hdigests).mp hd
    obtain hold | ⟨rfl, -⟩ := leased_claim.mp hm
    · exact h.leases k d hd' hreceiver m e hold
    · exact h.spent k d hd' hreceiver
  · intro k d hd hreceiver
    obtain hdue | ⟨m, e, hm⟩ | ⟨hends, hnone⟩ :=
      h.held k d ((openAt_of_digests hdigests).mp hd) hreceiver
    · exact .inl hdue
    · exact .inr (.inl ⟨m, e, leased_claim.mpr (.inl hm)⟩)
    · have howners := (serves_claim s leaseOwner now limit (some receiverId)).owners
      exact .inr (.inr ⟨hends, undeliveredIds_of_owners howners hnone⟩)

/-- The row a claim of the receiver takes is one of its own that is claimable. -/
theorem claimable_of_claim {c : QueueMessage} {leaseOwner : String} {limit : Int}
    (h : c ∈ (Queue.claim s leaseOwner now limit (some receiverId)).1) :
    ∃ r, s.get c.msgId = some r ∧ claimable now (some receiverId) r = true ∧
      r ∈ claimRows s now limit (some receiverId) ∧ r.receiverId = receiverId := by
  obtain ⟨r, hrow, rfl⟩ := mem_claim s leaseOwner now limit (some receiverId) c h
  obtain ⟨hget, hclaimable⟩ := mem_claimRows hrow
  have hreceiver := hclaimable
  simp only [claimable, Option.all_some, Bool.and_eq_true, beq_iff_eq] at hreceiver
  exact ⟨r, hget, hclaimable, hrow, hreceiver.2⟩

theorem Paced.due_claim (h : Paced s receiverId now ends) {leaseOwner : String} {limit : Int}
    (hclaimed : (Queue.claim s leaseOwner now limit (some receiverId)).1 ≠ [])
    (hfree : ¬ UnderLease s receiverId now) :
    Due (Queue.claim s leaseOwner now limit (some receiverId)).2 receiverId now := by
  obtain ⟨c, hc⟩ := List.exists_mem_of_ne_nil _ hclaimed
  obtain ⟨r, hget, hclaimable, hrow, hreceiver⟩ := claimable_of_claim hc
  refine ⟨?_, ?_, ?_⟩
  · intro k d hd hd'
    rw [openAt_of_digests (seatDigest_claim s leaseOwner now limit (some receiverId))] at hd
    obtain hdue | hunder | ⟨-, hnone⟩ := h.held k d hd hd'
    · exact hdue
    · exact absurd hunder hfree
    · -- the claimed row was owed
      have hlive := (r.terminal_eq_false_iff).mpr (.inl (claimable_of_mem_claimRows hrow).1)
      have hmem := (mem_undeliveredIds _ _ _).mpr ⟨r, hget, hreceiver, hlive⟩
      rw [hnone] at hmem
      cases hmem
  · intro m e hm
    obtain hold | ⟨rfl, -⟩ := leased_claim.mp hm
    · exact absurd ⟨m, e, hold⟩ hfree
    · exact le_refl _
  · exact ⟨r.msgId, _, leased_claim.mpr (.inr ⟨rfl, r, hrow, rfl, hreceiver⟩)⟩

theorem deliveryMsg_extendDigest (s : Store) (receiver : String) (epoch : Int)
    (ids : List String) : (extendDigest s receiver epoch ids).2.deliveryMsg = s.deliveryMsg :=
  (extendDigest_frame s receiver epoch ids).1

/-- The epoch a serving goes on with is the receiver's; an epoch is opened only now. -/
theorem epochFor_spec (s : Store) (receiver : String) (now : Int) :
    (epochFor s receiver now).2.deliveryMsg = s.deliveryMsg ∧
    (∀ d, (epochFor s receiver now).1 = some d → d.receiverId = receiver) ∧
    ∀ k d', OpenAt (epochFor s receiver now).2 k d' →
      (∃ d, OpenAt s k d ∧ d.receiverId = d'.receiverId ∧ dueAt d = dueAt d') ∨
        (d'.receiverId = receiver ∧ dueAt d' = now) := by
  unfold epochFor
  simp only
  split
  · refine ⟨rfl, ?_, fun k d' hd' => .inl ⟨d', hd', rfl, rfl⟩⟩
    intro d hd
    cases hd
  split
  · refine ⟨rfl, fun d hd => (openAt_of_openDigestIn hd).2, ?_⟩
    rintro k d' ⟨hget, hnone⟩
    have hget' := (get_insertDigest s receiver (undeliveredIds s receiver) now k).symm.trans hget
    split at hget'
    · refine .inr ?_
      cases hget'
      refine ⟨rfl, ?_⟩
      show now + 0 * seconds deliveryLeaseS = now
      omega
    · exact .inl ⟨d', ⟨hget', hnone⟩, rfl, rfl⟩
  · next digest hfound =>
    have hreceiver := (openAt_of_openDigestIn hfound).2
    refine ⟨deliveryMsg_extendDigest s receiver digest.epoch _, ?_, ?_⟩
    · intro d hd
      cases hd
      unfold extendDigest
      split
      · exact hreceiver
      next found hget =>
      have hsame : found.receiverId = receiver := congrArg Prod.fst (Table.key_of_get hget)
      split
      · exact hreceiver
      · simp only
        split <;> exact hsame
    · intro k d' hd'
      unfold extendDigest at hd'
      split at hd'
      · exact .inl ⟨d', hd', rfl, rfl⟩
      split at hd'
      · exact .inl ⟨d', hd', rfl, rfl⟩
      simp only at hd'
      split at hd'
      · exact .inl ⟨d', hd', rfl, rfl⟩
      · obtain ⟨d, hd, hr, rfl | ⟨-, -, rfl⟩⟩ := openAt_of_updateDigest (fun _ h => h) hd'
        · exact .inl ⟨d', hd, rfl, rfl⟩
        · exact .inl ⟨d, hd, rfl, rfl⟩

theorem Paced.epochFor (h : Paced s receiverId now ends) (receiver : String) :
    Paced (epochFor s receiver now).2 receiverId now ends := by
  obtain ⟨hrows, -, hdigests⟩ := epochFor_spec s receiver now
  refine h.of_same ?_ (fun _ _ => leased_of_rows hrows) ?_
  · intro k d' hd' hreceiver
    obtain ⟨d, hd, hr, hdue⟩ | ⟨-, hdue⟩ := hdigests k d' hd'
    · exact .inl ⟨d, hd, hr.trans hreceiver, hdue⟩
    · exact .inr hdue
  · exact fun _ => undeliveredIds_of_owners (serves_epochFor s receiver now).owners

theorem Due.epochFor (h : Due s receiverId now) :
    Due (epochFor s receiverId now).2 receiverId now := by
  obtain ⟨hrows, -, hdigests⟩ := epochFor_spec s receiverId now
  refine ⟨?_, ?_, ?_⟩
  · intro k d' hd' hreceiver
    obtain ⟨d, hd, hr, hdue⟩ | ⟨-, hdue⟩ := hdigests k d' hd'
    · rw [← hdue]
      exact h.past k d hd (hr.trans hreceiver)
    · exact le_of_eq hdue
  · intro m e hm
    exact h.leases m e ((leased_of_rows hrows).mp hm)
  · obtain ⟨m, e, hm⟩ := h.under
    exact ⟨m, e, (leased_of_rows hrows).mpr hm⟩

/-- A wake moves the due time on by one lease period. -/
theorem dueAt_wakePatch (d : SeatDigest) :
    dueAt (wakePatch.apply d) = dueAt d + seconds deliveryLeaseS := by
  show d.builtAt + (d.wakeCount + 1) * _ = d.builtAt + d.wakeCount * _ + _
  rw [Int.add_mul, Int.one_mul, Int.add_assoc]

theorem bumpWakeCount_store (s : Store) (receiver : String) (epoch : Int) :
    (bumpWakeCount s receiver epoch).2 =
      s.updateDigest (receiver, epoch) (fun d => d.consumedAt.isNone) wakePatch := by
  unfold bumpWakeCount
  simp only
  split <;> rfl

/-- A wake keeps the pace when the receiver's epochs are due and its rows freshly leased. -/
theorem Paced.bumpWakeCount (h : Paced s receiverId now ends) (hdue : Due s receiverId now)
    (epoch : Int) : Paced (bumpWakeCount s receiverId epoch).2 receiverId now ends := by
  rw [bumpWakeCount_store]
  have hrows : (s.updateDigest (receiverId, epoch) (fun d => d.consumedAt.isNone)
      wakePatch).deliveryMsg = s.deliveryMsg := rfl
  have hunder : UnderLease (s.updateDigest (receiverId, epoch) (fun d => d.consumedAt.isNone)
      wakePatch) receiverId now := by
    obtain ⟨m, e, hm⟩ := hdue.under
    exact ⟨m, e, (leased_of_rows hrows).mpr hm⟩
  refine ⟨?_, ?_, fun _ _ _ _ => .inr (.inl hunder)⟩
  · intro k d' hd' hreceiver
    obtain ⟨d, hd, hr, rfl | ⟨-, -, rfl⟩⟩ := openAt_of_updateDigest (fun _ h => h) hd'
    · exact h.spent k d' hd hreceiver
    · have hpast := hdue.past k d hd (hr.trans hreceiver)
      rw [dueAt_wakePatch]
      omega
  · intro k d' hd' hreceiver m e hm
    have hm' := (leased_of_rows hrows).mp hm
    obtain ⟨d, hd, hr, rfl | ⟨-, -, rfl⟩⟩ := openAt_of_updateDigest (fun _ h => h) hd'
    · exact h.leases k d' hd hreceiver m e hm'
    · have hpast := hdue.past k d hd (hr.trans hreceiver)
      have hlease := hdue.leases m e hm'
      rw [dueAt_wakePatch]
      omega

theorem Paced.deliver (h : Paced s receiverId now ends) {serving : Serving} {digest : SeatDigest}
    (hreceiver : digest.receiverId = receiverId)
    (hdue : serving.resolution.live = true → Due s receiverId now) :
    Paced (deliver s serving digest).2 receiverId now ends := by
  unfold Delivery.deliver
  simp only
  split
  · next hlive =>
    have hbumped := h.bumpWakeCount (hdue hlive) digest.epoch
    rw [hreceiver]
    split <;> exact hbumped
  · exact h

/-- Recording an attempt is no matter of leases. -/
theorem leased_recordOne (wake : WakeOutcomeReport) (at' : Int) (s : Store)
    (message : QueueMessage) :
    (recordOne wake at' s message).seatDigest = s.seatDigest ∧ ∀ receiverId now m e,
      Leased (recordOne wake at' s message) receiverId now m e ↔ Leased s receiverId now m e := by
  have hhold : ∀ (s' : Store) (heldSince : Option Int), s'.deliveryMsg = s.deliveryMsg →
      ∀ receiverId now m e, Leased (markDialogHold s' message.msgId heldSince) receiverId now m e ↔
        Leased s receiverId now m e := by
    intro s' heldSince hrows receiverId now m e
    refine (leased_of_map (get_markDialogHold s' message.msgId heldSince m) ?_).trans
      (leased_of_rows hrows)
    intro r
    split <;> exact ⟨rfl, rfl, rfl⟩
  unfold recordOne
  simp only
  split
  · split
    · exact ⟨rfl, hhold _ _ rfl⟩
    · exact ⟨rfl, fun _ _ _ _ => leased_of_rows rfl⟩
  · split
    · exact ⟨rfl, hhold _ _ rfl⟩
    · exact ⟨rfl, fun _ _ _ _ => leased_of_rows rfl⟩

theorem Paced.recordAttempts (h : Paced s receiverId now ends) (wake : WakeOutcomeReport)
    (claimed : List QueueMessage) (at' : Int) :
    Paced (recordAttempts s wake claimed at') receiverId now ends := by
  unfold Delivery.recordAttempts
  induction claimed generalizing s with
  | nil => exact h
  | cons first rest ih =>
    refine ih ?_
    obtain ⟨hdigests, hleased⟩ := leased_recordOne wake at' s first
    refine h.of_same ?_ (hleased receiverId now) ?_
    · intro k d hd hreceiver
      exact .inl ⟨d, (openAt_of_digests hdigests).mp hd, hreceiver, rfl⟩
    · exact fun _ => undeliveredIds_of_owners (serves_recordOne wake at' s first).owners

/-- A serving that reaches the wake and finds somebody there. -/
def Serving.wakes (serving : Serving) : Bool :=
  serving.resolution.live && match serving.raises with
    | some .claim => false
    | some .epoch => false
    | some .resolve => false
    | _ => true

theorem Paced.wakeAndRecord (h : Paced s receiverId now ends) {serving : Serving}
    {digest : SeatDigest} {claimed : List QueueMessage} (hreceiver : digest.receiverId = receiverId)
    (hdue : serving.resolution.live = true → serving.raises ≠ some .resolve →
      Due s receiverId now) :
    Paced (wakeAndRecord s serving digest claimed now) receiverId now ends := by
  unfold Delivery.wakeAndRecord
  split
  · exact h
  next hresolve =>
  have hdelivered : Paced (Delivery.deliver s serving digest).2 receiverId now ends :=
    h.deliver hreceiver fun hlive => hdue hlive hresolve
  simp only
  split
  · exact hdelivered
  split
  · exact hdelivered.recordAttempts _ _ _
  · exact hdelivered

/-- Serving a receiver keeps its pace when it wakes nobody inside a lease. -/
theorem Paced.serveReceiver (h : Paced s receiverId t.now ends)
    (hapart : (t.serving receiverId).wakes = true → UnderLease s receiverId t.now →
      ∀ m r, s.get m = some r → claimable t.now (some receiverId) r = false) :
    Paced (serveReceiver t s receiverId) receiverId t.now ends := by
  have hclaim := h.claim tickLeaseOwner claimLimit
  have hepoch := hclaim.epochFor receiverId
  obtain ⟨-, howned, -⟩ :=
    epochFor_spec (Queue.claim s tickLeaseOwner t.now claimLimit (some receiverId)).2 receiverId
      t.now
  unfold Delivery.serveReceiver
  simp only
  split
  · exact h
  next hraise =>
  split
  · exact hclaim
  next hraise' =>
  split
  · next s' hs' =>
    rw [hs'] at hepoch
    exact hepoch
  · next digest s' hs' =>
    rw [hs'] at hepoch
    split
    · exact hepoch
    next hclaimed =>
    refine hepoch.wakeAndRecord (howned digest (by rw [hs'])) ?_
    intro hlive hresolve
    have hwakes : (t.serving receiverId).wakes = true := by
      unfold Serving.wakes
      rw [hlive, Bool.true_and]
      split
      · next hr => exact absurd hr hraise
      · next hr => exact absurd hr hraise'
      · next hr => exact absurd hr hresolve
      · rfl
    have hfree : ¬ UnderLease s receiverId t.now := by
      intro hunder
      obtain ⟨c, hc⟩ := List.exists_mem_of_ne_nil _ hclaimed
      obtain ⟨r, hget, hclaimable, -⟩ := claimable_of_claim hc
      rw [hapart hwakes hunder _ r hget] at hclaimable
      cases hclaimable
    have hdue := (h.due_claim hclaimed hfree).epochFor
    rw [hs'] at hdue
    exact hdue

end CliAgentOrchestrator.Delivery
