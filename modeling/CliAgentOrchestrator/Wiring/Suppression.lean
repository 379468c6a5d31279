import CliAgentOrchestrator.Wiring.WriteThrough

/-!
# What the F475 window suppresses

A write-through whose content was sent to the same receiver within the window is answered with
the row of that send. The lookup reads who sent what to whom and when; it does not read what
became of the row, so a row that has died or was superseded since suppresses like any other
(`windowCheck_unread`, `windowCheck_killed`).
-/

set_option autoImplicit false

namespace CliAgentOrchestrator.Wiring

open CliAgentOrchestrator.Core Library Queue

/-- The row is an earlier send of the fact: same sender, receiver and content, inside the window,
and both sends are plain ones. -/
structure Duplicate (fact : LegacyEnqueue) (now : Int) (r : QueueMessage) : Prop where
  sender : r.senderId = fact.senderId
  receiver : r.receiverId = fact.receiverId
  content : r.contentHash = fact.contentHash
  hashed : ∃ hash, fact.contentHash = some hash ∧ hash ≠ ""
  recent : now - seconds deliveryDedupWindowS ≤ r.createdAt
  plain : r.parkWarm = false ∧ r.barrierId = none
  eligible : fact.parkWarm = false ∧ fact.barrierId = none

theorem head?_insertionSort_newest {rows : List QueueMessage} {r : QueueMessage}
    (h : (rows.insertionSort fun a b => b.createdAt ≤ a.createdAt).head? = some r) :
    r ∈ rows ∧ ∀ r' ∈ rows, r'.createdAt ≤ r.createdAt := by
  have htotal : Std.Total fun a b : QueueMessage => b.createdAt ≤ a.createdAt :=
    ⟨fun a b => le_total b.createdAt a.createdAt⟩
  have htrans : IsTrans QueueMessage fun a b => b.createdAt ≤ a.createdAt :=
    ⟨fun _ _ _ h₁ h₂ => le_trans h₂ h₁⟩
  have hsorted := List.pairwise_insertionSort
    (fun a b : QueueMessage => b.createdAt ≤ a.createdAt) rows
  obtain ⟨rest, hrest⟩ := List.head?_eq_some_iff.mp h
  have hmem : ∀ r', r' ∈ rows ↔ r' ∈ r :: rest := by
    intro r'
    rw [← hrest, List.mem_insertionSort]
  rw [hrest, List.pairwise_cons] at hsorted
  refine ⟨(hmem r).mpr List.mem_cons_self, fun r' hr' => ?_⟩
  obtain rfl | hr' := List.mem_cons.mp ((hmem r').mp hr')
  · exact le_rfl
  · exact hsorted.1 r' hr'

/-- The condition of the query, for a fact the window applies to. -/
theorem recentDuplicate_iff {fact : LegacyEnqueue} {now : Int} {r : QueueMessage}
    (heligible : fact.parkWarm = false ∧ fact.barrierId = none)
    (hhash : fact.contentHash.getD "" ≠ "") :
    recentDuplicate fact.senderId fact.receiverId (fact.contentHash.getD "")
        (now - seconds deliveryDedupWindowS) r = true
      ↔ Duplicate fact now r := by
  obtain ⟨hash, hsome⟩ : ∃ hash, fact.contentHash = some hash := by
    cases hfact : fact.contentHash with
    | none => exact absurd (by rw [hfact]; rfl) hhash
    | some hash => exact ⟨hash, rfl⟩
  rw [hsome] at hhash ⊢
  simp only [recentDuplicate, Option.getD_some, Bool.and_eq_true, beq_iff_eq, decide_eq_true_eq,
    Bool.not_eq_true', Option.isNone_iff_eq_none]
  constructor
  · rintro ⟨⟨⟨⟨⟨hsender, hreceiver⟩, hcontent⟩, hrecent⟩, hpark⟩, hbarrier⟩
    exact ⟨hsender, hreceiver, hcontent.trans hsome.symm, ⟨hash, hsome, hhash⟩, hrecent,
      ⟨hpark, hbarrier⟩, heligible⟩
  · rintro ⟨hsender, hreceiver, hcontent, -, hrecent, ⟨hpark, hbarrier⟩, -⟩
    exact ⟨⟨⟨⟨⟨hsender, hreceiver⟩, hcontent.trans hsome⟩, hrecent⟩, hpark⟩, hbarrier⟩

/-- A send is suppressed by the newest earlier send of the same. -/
theorem windowCheck_suppressed {s : Store} {fact : LegacyEnqueue} {now id : Int} {m : String}
    (h : windowCheck s fact now = .suppressed id m) :
    ∃ r, s.get m = some r ∧ r.legacyMessageId = some id ∧ Duplicate fact now r
      ∧ ∀ r', s.get r'.msgId = some r' → Duplicate fact now r' → r'.createdAt ≤ r.createdAt := by
  unfold windowCheck findRecentDuplicate at h
  split_ifs at h with hplain
  simp only [Bool.or_eq_true, beq_iff_eq, not_or, Bool.not_eq_true, Option.isSome_eq_false_iff,
    Option.isNone_iff_eq_none] at hplain
  obtain ⟨heligible, hhash⟩ := hplain
  cases hfound : ((s.deliveryMsg.select (recentDuplicate fact.senderId fact.receiverId
      (fact.contentHash.getD "") (now - seconds deliveryDedupWindowS))).insertionSort
      fun a b => b.createdAt ≤ a.createdAt).head? with
  | none =>
    rw [hfound] at h
    cases h
  | some r =>
    rw [hfound] at h
    cases hid : r.legacyMessageId with
    | none =>
      simp only [hid] at h
      cases h
    | some id' =>
      simp only [hid] at h
      cases h
      obtain ⟨hr, hnewest⟩ := head?_insertionSort_newest hfound
      obtain ⟨hget, hdup⟩ := (mem_select_msg s _ r).mp hr
      refine ⟨r, hget, hid, (recentDuplicate_iff heligible hhash).mp hdup,
        fun r' hget' hdup' => ?_⟩
      exact hnewest r' ((mem_select_msg s _ r').mpr
        ⟨hget', (recentDuplicate_iff heligible hhash).mpr hdup'⟩)

/-! ## What became of the row -/

/-- A patch of the columns the window does not read. -/
structure Unread (f : Patch QueueMessage.msgId) : Prop where
  duplicate : ∀ senderId receiverId contentHash cutoff r,
    recentDuplicate senderId receiverId contentHash cutoff (f.apply r)
      = recentDuplicate senderId receiverId contentHash cutoff r
  createdAt : ∀ r, (f.apply r).createdAt = r.createdAt
  legacyMessageId : ∀ r, (f.apply r).legacyMessageId = r.legacyMessageId

theorem unread_endPatch (state : MsgState) (ended : Int) : Unread (endPatch state ended) :=
  ⟨fun _ _ _ _ _ => rfl, fun _ => rfl, fun _ => rfl⟩

theorem unread_killPatch (ended : Int) : Unread (killPatch ended) :=
  ⟨fun _ _ _ _ _ => rfl, fun _ => rfl, fun _ => rfl⟩

/-- Such a patch shows in the row that is found and changes nothing about which one is. -/
theorem findRecentDuplicate_unread {f : Patch QueueMessage.msgId} (hf : Unread f) (s : Store)
    (m : String) (p : QueueMessage → Bool) (senderId receiverId contentHash : String)
    (windowS now : Int) (parkWarm : Bool) (barrierId : Option Int) :
    findRecentDuplicate (s.updateMsg m p f) senderId receiverId contentHash windowS now parkWarm
        barrierId
      = (findRecentDuplicate s senderId receiverId contentHash windowS now parkWarm barrierId).map
          fun r => if decide (r.msgId = m) && p r then f.apply r else r := by
  unfold findRecentDuplicate
  split_ifs
  · rfl
  · set patched := fun r : QueueMessage =>
      if decide (r.msgId = m) && p r then f.apply r else r with hpatched
    have hselected : ∀ r, recentDuplicate senderId receiverId contentHash (now - seconds windowS)
        (patched r) = recentDuplicate senderId receiverId contentHash (now - seconds windowS) r := by
      intro r
      rw [hpatched]
      dsimp only
      split
      · exact hf.duplicate _ _ _ _ r
      · rfl
    have hcreated : ∀ r, (patched r).createdAt = r.createdAt := by
      intro r
      rw [hpatched]
      dsimp only
      split
      · exact hf.createdAt r
      · rfl
    have hselect : (s.updateMsg m p f).deliveryMsg.select
          (recentDuplicate senderId receiverId contentHash (now - seconds windowS))
        = (s.deliveryMsg.select
          (recentDuplicate senderId receiverId contentHash (now - seconds windowS))).map patched := by
      show (s.deliveryMsg.rows.map patched).filter _ = (s.deliveryMsg.rows.filter _).map patched
      rw [List.filter_map]
      exact congrArg (List.map patched) (List.filter_congr fun r _ => hselected r)
    rw [hselect, ← List.head?_map]
    refine congrArg List.head? (List.map_insertionSort _ _ patched _ fun a _ b _ => ?_).symm
    rw [hcreated, hcreated]

/-- Such a patch leaves the answer of the window alone. -/
theorem windowCheck_unread {f : Patch QueueMessage.msgId} (hf : Unread f) (s : Store) (m : String)
    (p : QueueMessage → Bool) (fact : LegacyEnqueue) (now : Int) :
    windowCheck (s.updateMsg m p f) fact now = windowCheck s fact now := by
  unfold windowCheck
  rw [findRecentDuplicate_unread hf]
  cases findRecentDuplicate s fact.senderId fact.receiverId (fact.contentHash.getD "")
      deliveryDedupWindowS now fact.parkWarm fact.barrierId with
  | none => rfl
  | some r =>
    rw [Option.map_some]
    by_cases hp : (decide (r.msgId = m) && p r) = true
    · simp only [if_pos hp, hf.legacyMessageId, f.keeps]
    · simp only [if_neg hp]

theorem windowCheck_killed (s : Store) (message : QueueMessage) (reason : DeadReason)
    (died : Int) (fact : LegacyEnqueue) (now : Int) :
    windowCheck (kill s message reason died) fact now = windowCheck s fact now :=
  windowCheck_unread (unread_killPatch died) s message.msgId (fun _ => true) fact now

/-- What suppresses a send is the newest earlier send of the same content by the same sender to
the same receiver inside the window, whether it has been delivered, superseded or killed since. -/
theorem suppressed_by_newest_send (s : Store) (fact : LegacyEnqueue) (now : Int) :
    (∀ id m, windowCheck s fact now = .suppressed id m →
      ∃ r, s.get m = some r ∧ r.legacyMessageId = some id ∧ Duplicate fact now r
        ∧ ∀ r', s.get r'.msgId = some r' → Duplicate fact now r' → r'.createdAt ≤ r.createdAt)
    ∧ (∀ m p state ended,
      windowCheck (s.updateMsg m p (endPatch state ended)) fact now = windowCheck s fact now)
    ∧ ∀ message reason died,
      windowCheck (kill s message reason died) fact now = windowCheck s fact now := by
  refine ⟨fun id m h => windowCheck_suppressed h, fun m p state ended => ?_, fun _ _ _ => ?_⟩
  · exact windowCheck_unread (unread_endPatch state ended) s m p fact now
  · exact windowCheck_killed s _ _ _ fact now

/-- A line that is to be delivered within a second. -/
def urgentLine : LegacyEnqueue where
  receiverId := "mb_seat"
  senderId := "worker"
  message := "done"
  expireAfterS := some 1
  contentHash := some "hash"

/-- The line is enqueued, dies of its deadline, and is sent again inside the window: the second
send is answered with the dead row. -/
theorem dead_send_suppresses :
    let sent := (enqueueFact id Store.empty urgentLine 1 "01" 0).2
    let swept := (reclaim sent (seconds 2)).1
    (swept.get "01").map (·.state) = some .dead
      ∧ windowCheck swept urgentLine (seconds 3) = .suppressed 1 "01" := by
  decide +kernel

end CliAgentOrchestrator.Wiring
