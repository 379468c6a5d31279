import CliAgentOrchestrator.Ledger.Condition
import CliAgentOrchestrator.Library.Edge

/-!
# One push per episode

Of the log only the latest memory-updating row counts, and it says what the dictionary of one
process would: the decisions are those of a signal per terminal, whatever restarts lie between.
A push goes out at an edge of the signal and nowhere else, so a stretch of calls with one tuple
is pushed at its first call or, when the sink raises there, never.
-/

set_option autoImplicit false

namespace CliAgentOrchestrator.Ledger

open Library

/-! ## The latest row -/

section Latest

variable {rows : List ConditionLogRow} {row b : ConditionLogRow}

/-- The tuple that the rule compares with. -/
def recalled (rows : List ConditionLogRow) : Option ConditionTuple :=
  match latestMemoryRow rows with
  | none => none
  | some latest => if latest.decision = .delivered then latest.tuple else none

theorem shouldSuppressCondition_eq (key : ConditionTuple) (rows : List ConditionLogRow) :
    shouldSuppressCondition key rows = decide (recalled rows = some key) := by
  unfold shouldSuppressCondition recalled
  cases latestMemoryRow rows with
  | none => simp
  | some latest =>
    by_cases hdelivered : latest.decision = .delivered
    · simp [hdelivered]
    · simp [hdelivered]

theorem mem_foldl_laterMemoryRow {best : Option ConditionLogRow}
    (h : rows.foldl laterMemoryRow best = some b) : best = some b ∨ b ∈ rows := by
  induction rows generalizing best with
  | nil => exact .inl h
  | cons r rest ih =>
    obtain hbest | hrest := ih h
    · have hor : best = some b ∨ r = b := by
        unfold laterMemoryRow at hbest
        split at hbest
        · exact .inl hbest
        · cases best with
          | none => exact .inr (Option.some.inj hbest)
          | some a =>
            dsimp only at hbest
            split at hbest
            · exact .inr (Option.some.inj hbest)
            · exact .inl hbest
      obtain hbest | rfl := hor
      · exact .inl hbest
      · exact .inr List.mem_cons_self
    · exact .inr (List.mem_cons_of_mem r hrest)

theorem mem_of_latestMemoryRow (h : latestMemoryRow rows = some b) : b ∈ rows := by
  obtain hnone | hmem := mem_foldl_laterMemoryRow h
  · cases hnone
  · exact hmem

theorem latestMemoryRow_concat (hlast : ∀ r ∈ rows, r.id < row.id) :
    latestMemoryRow (rows ++ [row]) =
      if row.decision ∈ memoryUpdatingDecisions then some row else latestMemoryRow rows := by
  have hfold : latestMemoryRow (rows ++ [row]) = laterMemoryRow (latestMemoryRow rows) row := by
    rw [latestMemoryRow, List.foldl_append]
    rfl
  rw [hfold, laterMemoryRow.eq_def]
  by_cases hupdating : row.decision ∈ memoryUpdatingDecisions
  · cases hlatest : latestMemoryRow rows with
    | none => simp [hupdating]
    | some b => simp [hupdating, hlast b (mem_of_latestMemoryRow hlatest)]
  · simp [hupdating]

/-- A row behind all others is recalled when it moves the memory. -/
theorem recalled_concat (hlast : ∀ r ∈ rows, r.id < row.id) :
    recalled (rows ++ [row]) =
      if row.decision = .delivered then row.tuple
      else if row.decision = .cleared then none else recalled rows := by
  rw [recalled, latestMemoryRow_concat hlast]
  cases hdecision : row.decision with
  | deduped | gated => simp [memoryUpdatingDecisions, recalled]
  | _ => simp [memoryUpdatingDecisions, hdecision]

end Latest

/-! ## The log -/

section Log

variable {db : ConditionLedger}

/-- The rows lie in the order of their ids. -/
def InOrder (db : ConditionLedger) : Prop := db.rows.Pairwise fun r r' => r.id < r'.id

variable (db) in
/-- The rows of `record_condition_decision`, the new one last. -/
theorem rows_recordConditionDecision (terminalId : String) (decision : ConditionDecision)
    (kind subtype : Option String) (epoch : Option Int) (surfaces suppressedReason : Option String)
    (inboxMessageId : Option Int) :
    (recordConditionDecision db terminalId decision kind subtype epoch surfaces suppressedReason
      inboxMessageId).rows = db.rows ++
        [{ id := db.nextKey, terminalId := terminalId, kind := kind, subtype := subtype
           epoch := epoch, decision := decision, surfaces := surfaces
           suppressedReason := suppressedReason, inboxMessageId := inboxMessageId }] :=
  Table.rows_insert db.get_nextKey

theorem InOrder.record (h : InOrder db) {terminalId : String} {decision : ConditionDecision}
    {kind subtype : Option String} {epoch : Option Int} {surfaces suppressedReason : Option String}
    {inboxMessageId : Option Int} :
    InOrder (recordConditionDecision db terminalId decision kind subtype epoch surfaces
      suppressedReason inboxMessageId) := by
  rw [InOrder, rows_recordConditionDecision, List.pairwise_append]
  refine ⟨h, List.pairwise_singleton _ _, ?_⟩
  intro r hr r' hr'
  rw [List.mem_singleton.mp hr']
  exact Table.lt_nextKey hr

theorem InOrder.sorted (h : InOrder db) (terminalId : String) :
    (db.select fun r => r.terminalId == terminalId).insertionSort idOrder =
      db.select fun r => r.terminalId == terminalId := by
  apply List.Pairwise.insertionSort_eq
  exact (h.imp fun hlt => le_of_lt hlt).filter _

theorem InOrder.conditionLogRows (h : InOrder db) (terminalId : String) :
    conditionLogRows db terminalId =
      (db.rows.filter fun r => r.terminalId == terminalId).map ConditionLedgerRow.project := by
  rw [Ledger.conditionLogRows, h.sorted]
  rfl

/-- What the rule recalls of a terminal once a decision is recorded. -/
theorem InOrder.recalled_record (h : InOrder db) (terminalId terminalId' : String)
    (decision : ConditionDecision) (kind subtype : Option String) (epoch : Option Int)
    (surfaces suppressedReason : Option String) (inboxMessageId : Option Int) :
    recalled (Ledger.conditionLogRows (recordConditionDecision db terminalId decision kind subtype
        epoch surfaces suppressedReason inboxMessageId) terminalId') =
      if terminalId = terminalId' then
        if decision = .delivered then do
          let kind ← kind
          let subtype ← subtype
          let epoch ← epoch
          some ⟨kind, subtype, epoch⟩
        else if decision = .cleared then none
        else recalled (Ledger.conditionLogRows db terminalId')
      else recalled (Ledger.conditionLogRows db terminalId') := by
  rw [h.record.conditionLogRows, rows_recordConditionDecision, List.filter_append, List.map_append,
    h.conditionLogRows]
  by_cases hterminal : terminalId = terminalId'
  · have hbeq : (terminalId == terminalId') = true := beq_iff_eq.mpr hterminal
    rw [List.filter_singleton, if_pos hterminal, hbeq, cond_true, List.map_singleton,
      recalled_concat]
    · rfl
    · intro r hr
      obtain ⟨row, hrow, rfl⟩ := List.mem_map.mp hr
      exact Table.lt_nextKey (List.mem_filter.mp hrow).1
  · have hbeq : (terminalId == terminalId') = false := beq_eq_false_iff_ne.mpr hterminal
    rw [List.filter_singleton, if_neg hterminal, hbeq, cond_false, List.map_nil, List.append_nil]

end Log

/-! ## The seam -/

namespace Seam

variable {s s' : Seam} {c : Call}

/-- The tuple a terminal is remembered with: by the log, or by the process. -/
def held (s : Seam) (terminalId : String) : Option ConditionTuple :=
  if s.delivery.logStore then recalled (conditionLogRows s.ledger terminalId)
  else s.delivery.last.find terminalId

/-- The pushes that a terminal's conditions made. -/
def pushes (s : Seam) (terminalId : String) : List (String × Condition) :=
  s.heard.inbox.filter fun p => p.1 == terminalId

theorem isDuplicate_eq (s : Seam) (terminalId : String) (key : ConditionTuple) :
    s.isDuplicate terminalId key = decide (s.held terminalId = some key) := by
  unfold isDuplicate held
  cases s.delivery.logStore with
  | true => exact shouldSuppressCondition_eq key _
  | false => rfl

@[simp] theorem setFleet_delivery (label : Option String) :
    (s.setFleet c label).delivery = s.delivery := by
  unfold setFleet
  split <;> rfl

@[simp] theorem setFleet_ledger (label : Option String) :
    (s.setFleet c label).ledger = s.ledger := by
  unfold setFleet
  split <;> rfl

@[simp] theorem setFleet_inbox (label : Option String) :
    (s.setFleet c label).heard.inbox = s.heard.inbox := by
  unfold setFleet
  split <;> rfl

@[simp] theorem projectCli_delivery (cond : Condition) (label : String) :
    (s.projectCli c cond label).delivery = s.delivery := by
  unfold projectCli
  split <;> rfl

@[simp] theorem projectCli_ledger (cond : Condition) (label : String) :
    (s.projectCli c cond label).ledger = s.ledger := by
  unfold projectCli
  split <;> rfl

@[simp] theorem projectCli_inbox (cond : Condition) (label : String) :
    (s.projectCli c cond label).heard.inbox = s.heard.inbox := by
  unfold projectCli
  split <;> rfl

@[simp] theorem pushInbox_delivery (cond : Condition) :
    (s.pushInbox c cond).1.delivery = s.delivery := by
  unfold pushInbox
  split_ifs <;> rfl

@[simp] theorem pushInbox_ledger (cond : Condition) :
    (s.pushInbox c cond).1.ledger = s.ledger := by
  unfold pushInbox
  split_ifs <;> rfl

section Record

variable {terminalId : String} {decision : ConditionDecision} {kind subtype : Option String}
  {epoch : Option Int} {surfaces suppressedReason : Option String}

@[simp] theorem record_delivery :
    (s.record terminalId decision kind subtype epoch surfaces suppressedReason).delivery =
      s.delivery := by
  unfold record
  split <;> rfl

@[simp] theorem record_heard :
    (s.record terminalId decision kind subtype epoch surfaces suppressedReason).heard =
      s.heard := by
  unfold record
  split <;> rfl

theorem inOrder_record (h : InOrder s.ledger) :
    InOrder (s.record terminalId decision kind subtype epoch surfaces suppressedReason).ledger := by
  unfold record
  split
  · exact h
  · exact h.record

end Record

/-! ### The four exits -/

theorem deliver_none (hc : c.cond = none) :
    s.deliver c = (((s.setFleet c none).forget c.terminalId).record c.terminalId .cleared none none
      none none none, ⟨false, none, 0, "no_condition"⟩) := by
  unfold deliver
  rw [hc]

variable {cond : Condition}

theorem deliver_gated (hc : c.cond = some cond) (hgate : shouldDeliver cond = false) :
    s.deliver c = (s.record c.terminalId .gated cond.kind.value cond.subtype c.epoch none none,
      ⟨false, none, 0, "confidence_below_gate"⟩) := by
  unfold deliver
  rw [hc]
  simp [hgate]

theorem deliver_duplicate (hc : c.cond = some cond) (hgate : shouldDeliver cond = true)
    (hheld : s.held c.terminalId = some ⟨cond.kind.value, cond.subtype, c.epoch⟩) :
    s.deliver c = ((s.setFleet c (fleetLabel cond)).record c.terminalId .deduped cond.kind.value
      cond.subtype c.epoch none (some "dedup_epoch"),
      ⟨false, fleetLabel cond, 0, "deduped_same_epoch"⟩) := by
  unfold deliver
  rw [hc]
  simp [hgate, isDuplicate_eq, hheld]

/-- The seam in which a condition is new, behind its fan-out. -/
def fanOut (s : Seam) (c : Call) (cond : Condition) : Seam × Nat :=
  let s := (s.remember c.terminalId ⟨cond.kind.value, cond.subtype, c.epoch⟩).setFleet c
    (fleetLabel cond)
  let (s, pushes) :=
    if inboxDeclined cond.kind.value cond.subtype then (s, 0) else s.pushInbox c cond
  (s.projectCli c cond (fleetLabel cond), pushes)

theorem deliver_new (hc : c.cond = some cond) (hgate : shouldDeliver cond = true)
    (hheld : s.held c.terminalId ≠ some ⟨cond.kind.value, cond.subtype, c.epoch⟩) :
    s.deliver c = ((s.fanOut c cond).1.record c.terminalId .delivered cond.kind.value cond.subtype
      c.epoch (some (surfacesStr cond.kind.value cond.subtype))
      (if inboxDeclined cond.kind.value cond.subtype then some "busy_class" else none),
      ⟨true, fleetLabel cond, (s.fanOut c cond).2, "delivered"⟩) := by
  unfold deliver
  rw [hc]
  simp [hgate, isDuplicate_eq, hheld, fanOut]

theorem fanOut_ledger : (s.fanOut c cond).1.ledger = s.ledger := by
  unfold fanOut
  cases inboxDeclined cond.kind.value cond.subtype with
  | _ => simp [remember]

theorem fanOut_delivery : (s.fanOut c cond).1.delivery =
    (s.remember c.terminalId ⟨cond.kind.value, cond.subtype, c.epoch⟩).delivery := by
  unfold fanOut
  cases inboxDeclined cond.kind.value cond.subtype with
  | _ => simp

end Seam

/-! ## The signal of a terminal -/

/-- A clear drops the signal of its terminal, a condition past the gate sets it. -/
def Call.writes (terminalId : String) (c : Call) : Option (Option ConditionTuple) :=
  if c.terminalId = terminalId then
    match c.cond with
    | none => some none
    | some cond =>
      if shouldDeliver cond then some (some ⟨cond.kind.value, cond.subtype, c.epoch⟩) else none
  else none

/-- What a call pushes when its condition is new. -/
def Call.pushed (c : Call) : Option (String × Condition) :=
  match c.cond with
  | none => none
  | some cond =>
    if inboxDeclined cond.kind.value cond.subtype then none
    else if c.inboxRaises then none else some (c.terminalId, cond)

theorem writes_eq_some {c : Call} {terminalId : String} {key : ConditionTuple}
    (h : c.writes terminalId = some (some key)) :
    ∃ cond, c.cond = some cond ∧
      (⟨cond.kind.value, cond.subtype, c.epoch⟩ : ConditionTuple) = key := by
  unfold Call.writes at h
  split at h
  · split at h
    · cases h
    · next cond hc =>
      split at h
      · exact ⟨cond, hc, Option.some.inj (Option.some.inj h)⟩
      · cases h
  · cases h

theorem pushed_terminalId {c : Call} {p : String × Condition} (h : c.pushed = some p) :
    p.1 = c.terminalId := by
  unfold Call.pushed at h
  split at h
  · cases h
  · split_ifs at h
    cases h
    rfl

namespace Seam

variable {s s' : Seam} {c : Call} {terminalId : String}

section Held

variable {terminalId' : String} {decision : ConditionDecision} {epoch : Option Int}
  {surfaces suppressedReason : Option String}

/-- What is held once a decision is recorded, where there is a log. -/
theorem held_record (h : InOrder s.ledger) (hlog : s.delivery.logStore = true)
    {kind subtype : Option String} :
    (s.record terminalId' decision kind subtype epoch surfaces suppressedReason).held terminalId =
      if terminalId' = terminalId then
        if decision = .delivered then do
          let kind ← kind
          let subtype ← subtype
          let epoch ← epoch
          some ⟨kind, subtype, epoch⟩
        else if decision = .cleared then none else s.held terminalId
      else s.held terminalId := by
  unfold held record
  simp only [hlog, Bool.not_true, Bool.false_eq_true, if_false, if_true]
  exact h.recalled_record terminalId' terminalId decision kind subtype epoch surfaces _ none

/-- Without a log nothing is recorded. -/
theorem record_eq_self (hlog : s.delivery.logStore = false) {kind subtype : Option String} :
    s.record terminalId' decision kind subtype epoch surfaces suppressedReason = s := by
  unfold record
  rw [hlog]
  rfl

theorem held_eq_recalled (hlog : s.delivery.logStore = true) :
    s.held terminalId = recalled (conditionLogRows s.ledger terminalId) := by
  rw [held, if_pos hlog]

theorem held_eq_find (hlog : s.delivery.logStore = false) :
    s.held terminalId = s.delivery.last.find terminalId := by
  rw [held, hlog]
  rfl

end Held

/-- With a log, each call moves the signals as it writes. -/
theorem held_deliver_of_log (h : InOrder s.ledger) (hlog : s.delivery.logStore = true) :
    (s.deliver c).1.held terminalId = Edge.next (Call.writes terminalId) (s.held terminalId) c := by
  cases hc : c.cond with
  | none =>
    rw [deliver_none hc, held_record (by simpa [forget] using h) (by simpa [forget] using hlog),
      held_eq_recalled hlog, held_eq_recalled (by simpa [forget] using hlog)]
    by_cases hterminal : c.terminalId = terminalId
    · simp [Edge.next, Call.writes, hc, hterminal]
    · simp [Edge.next, Call.writes, hterminal, forget]
  | some cond =>
    cases hgate : shouldDeliver cond with
    | false =>
      rw [deliver_gated hc hgate, held_record h hlog]
      simp [Edge.next, Call.writes, hc, hgate]
    | true =>
      by_cases hheld : s.held c.terminalId = some ⟨cond.kind.value, cond.subtype, c.epoch⟩
      · rw [deliver_duplicate hc hgate hheld, held_record (by simpa using h) (by simpa using hlog),
          held_eq_recalled (by simpa using hlog), setFleet_ledger, ← held_eq_recalled hlog]
        by_cases hterminal : c.terminalId = terminalId
        · subst hterminal
          simp [Edge.next, Call.writes, hc, hgate, hheld]
        · simp [Edge.next, Call.writes, hterminal]
      · have hlog' : (s.fanOut c cond).1.delivery.logStore = true := by
          rw [fanOut_delivery]
          exact hlog
        rw [deliver_new hc hgate hheld, held_record (by rwa [fanOut_ledger]) hlog',
          held_eq_recalled hlog', fanOut_ledger, ← held_eq_recalled hlog]
        by_cases hterminal : c.terminalId = terminalId
        · simp [Edge.next, Call.writes, hc, hgate, hterminal]
        · simp [Edge.next, Call.writes, hterminal]

/-- Without one, the dictionary moves so. -/
theorem held_deliver_of_memory (hlog : s.delivery.logStore = false) :
    (s.deliver c).1.held terminalId = Edge.next (Call.writes terminalId) (s.held terminalId) c := by
  cases hc : c.cond with
  | none =>
    rw [deliver_none hc, record_eq_self (by simpa [forget] using hlog), held_eq_find hlog,
      held_eq_find (by simpa [forget] using hlog)]
    by_cases hterminal : c.terminalId = terminalId
    · simp [Edge.next, Call.writes, hc, hterminal, forget]
    · simp [Edge.next, Call.writes, hterminal, forget, Ne.symm hterminal]
  | some cond =>
    cases hgate : shouldDeliver cond with
    | false =>
      rw [deliver_gated hc hgate, record_eq_self hlog]
      simp [Edge.next, Call.writes, hc, hgate]
    | true =>
      by_cases hheld : s.held c.terminalId = some ⟨cond.kind.value, cond.subtype, c.epoch⟩
      · rw [deliver_duplicate hc hgate hheld, record_eq_self (by simpa using hlog),
          held_eq_find (by simpa using hlog), setFleet_delivery, ← held_eq_find hlog]
        by_cases hterminal : c.terminalId = terminalId
        · subst hterminal
          simp [Edge.next, Call.writes, hc, hgate, hheld]
        · simp [Edge.next, Call.writes, hterminal]
      · have hlog' : (s.fanOut c cond).1.delivery.logStore = false := by
          rw [fanOut_delivery]
          exact hlog
        rw [deliver_new hc hgate hheld, record_eq_self hlog', held_eq_find hlog', fanOut_delivery,
          held_eq_find hlog]
        by_cases hterminal : c.terminalId = terminalId
        · simp [Edge.next, Call.writes, hc, hgate, hterminal, remember]
        · simp [Edge.next, Call.writes, hterminal, remember, Ne.symm hterminal]

theorem inOrder_deliver (h : InOrder s.ledger) : InOrder (s.deliver c).1.ledger := by
  cases hc : c.cond with
  | none =>
    rw [deliver_none hc]
    exact inOrder_record (by simpa [forget] using h)
  | some cond =>
    cases hgate : shouldDeliver cond with
    | false =>
      rw [deliver_gated hc hgate]
      exact inOrder_record h
    | true =>
      by_cases hheld : s.held c.terminalId = some ⟨cond.kind.value, cond.subtype, c.epoch⟩
      · rw [deliver_duplicate hc hgate hheld]
        exact inOrder_record (by simpa using h)
      · rw [deliver_new hc hgate hheld]
        exact inOrder_record (by rwa [fanOut_ledger])

theorem deliver_wiring : (s.deliver c).1.delivery.logStore = s.delivery.logStore ∧
    (s.deliver c).1.delivery.inboxSink = s.delivery.inboxSink := by
  cases hc : c.cond with
  | none => simp [deliver_none hc, forget]
  | some cond =>
    cases hgate : shouldDeliver cond with
    | false => simp [deliver_gated hc hgate]
    | true =>
      by_cases hheld : s.held c.terminalId = some ⟨cond.kind.value, cond.subtype, c.epoch⟩
      · simp [deliver_duplicate hc hgate hheld]
      · simp [deliver_new hc hgate hheld, fanOut_delivery, remember]

theorem fanOut_pushes (cond : Condition) : (s.fanOut c cond).2 =
    if inboxDeclined cond.kind.value cond.subtype then 0
    else if !s.delivery.inboxSink then 1 else if c.inboxRaises then 0 else 1 := by
  unfold fanOut pushInbox
  cases inboxDeclined cond.kind.value cond.subtype with
  | true => rfl
  | false =>
    simp only [Bool.false_eq_true, if_false, setFleet_delivery, remember]
    split_ifs <;> rfl

/-- Two seams that hold the same tuple of the terminal decide the same. -/
theorem deliver_result (hheld : s.held c.terminalId = s'.held c.terminalId)
    (hsink : s.delivery.inboxSink = s'.delivery.inboxSink) :
    (s.deliver c).2 = (s'.deliver c).2 := by
  cases hc : c.cond with
  | none => rw [deliver_none hc, deliver_none hc]
  | some cond =>
    cases hgate : shouldDeliver cond with
    | false => rw [deliver_gated hc hgate, deliver_gated hc hgate]
    | true =>
      by_cases hdup : s.held c.terminalId = some ⟨cond.kind.value, cond.subtype, c.epoch⟩
      · rw [deliver_duplicate hc hgate hdup, deliver_duplicate hc hgate (hheld ▸ hdup)]
      · rw [deliver_new hc hgate hdup, deliver_new hc hgate (hheld ▸ hdup), fanOut_pushes,
          fanOut_pushes, hsink]

theorem fanOut_inbox (cond : Condition) (hsink : s.delivery.inboxSink = true)
    (hc : c.cond = some cond) :
    (s.fanOut c cond).1.heard.inbox = s.heard.inbox ++ c.pushed.toList := by
  unfold fanOut pushInbox Call.pushed
  rw [hc]
  cases hdeclined : inboxDeclined cond.kind.value cond.subtype with
  | true => simp [remember, hdeclined]
  | false => cases c.inboxRaises <;> simp [remember, hsink, hdeclined]

/-- A call pushes at an edge of its terminal, unless its sink raises or the leg is declined. -/
theorem pushes_deliver (hsink : s.delivery.inboxSink = true) :
    (s.deliver c).1.pushes terminalId = s.pushes terminalId ++
      ((Edge.edge (Call.writes terminalId) (s.held terminalId) c).bind Call.pushed).toList := by
  cases hc : c.cond with
  | none =>
    have hedge : Edge.edge (Call.writes terminalId) (s.held terminalId) c = none := by
      unfold Edge.edge Call.writes
      rw [hc]
      split_ifs <;> rfl
    simp [deliver_none hc, hedge, pushes, forget]
  | some cond =>
    cases hgate : shouldDeliver cond with
    | false => simp [deliver_gated hc hgate, Edge.edge, Call.writes, hc, hgate, pushes]
    | true =>
      by_cases hterminal : c.terminalId = terminalId
      · subst hterminal
        by_cases hheld : s.held c.terminalId = some ⟨cond.kind.value, cond.subtype, c.epoch⟩
        · simp [deliver_duplicate hc hgate hheld, Edge.edge, Call.writes, hc, hgate, hheld, pushes]
        · have hedge : Edge.edge (Call.writes c.terminalId) (s.held c.terminalId) c = some c := by
            simp [Edge.edge, Call.writes, hc, hgate, hheld]
          have hown : c.pushed.toList.filter (fun p => p.1 == c.terminalId) = c.pushed.toList := by
            rw [List.filter_eq_self]
            intro p hp
            rw [pushed_terminalId (Option.mem_toList.mp hp)]
            exact beq_self_eq_true _
          rw [deliver_new hc hgate hheld, hedge, pushes, record_heard, fanOut_inbox cond hsink hc,
            List.filter_append, hown]
          rfl
      · have hedge : Edge.edge (Call.writes terminalId) (s.held terminalId) c = none := by
          simp [Edge.edge, Call.writes, hterminal]
        by_cases hheld : s.held c.terminalId = some ⟨cond.kind.value, cond.subtype, c.epoch⟩
        · simp [deliver_duplicate hc hgate hheld, hedge, pushes]
        · have hother : c.pushed.toList.filter (fun p => p.1 == terminalId) = [] := by
            rw [List.filter_eq_nil_iff]
            intro p hp
            rw [pushed_terminalId (Option.mem_toList.mp hp)]
            exact fun heq => hterminal (beq_iff_eq.mp heq)
          rw [deliver_new hc hgate hheld, hedge, pushes, record_heard, fanOut_inbox cond hsink hc,
            List.filter_append, hother]
          rfl

end Seam

/-! ## Runs -/

/-- What happens to the seam: a call, or a new process over the same log. -/
inductive Op
  | deliver (c : Call)
  | restart

def Op.call : Op → Option Call
  | deliver c => some c
  | restart => none

def Op.writes (terminalId : String) (op : Op) : Option (Option ConditionTuple) :=
  op.call.bind (Call.writes terminalId)

namespace Seam

variable {s s' : Seam} {terminalId : String} {key : ConditionTuple}

def exec (s : Seam) : Op → Seam
  | .deliver c => (s.deliver c).1
  | .restart => s.restart

/-- What the call decided, and how many pushes it made. -/
def decision (s : Seam) : Op → Option DeliveryResult
  | .deliver c => some (s.deliver c).2
  | .restart => none

/-- A process begins, and nothing was logged before. -/
def opened (fleetSink cliSink logStore : Bool) : Seam :=
  { delivery :=
      { last := Table.empty, fleetSink := fleetSink, inboxSink := true, cliSink := cliSink
        logStore := logStore }
    ledger := Table.empty
    heard := {} }

/-- The seam works over a log in order, and with a sink for the pushes. -/
structure Logged (s : Seam) : Prop where
  order : InOrder s.ledger
  log : s.delivery.logStore = true
  sink : s.delivery.inboxSink = true

theorem logged_opened (fleetSink cliSink : Bool) : Logged (opened fleetSink cliSink true) :=
  ⟨List.Pairwise.nil, rfl, rfl⟩

theorem logged_exec (h : Logged s) (op : Op) : Logged (s.exec op) := by
  cases op with
  | deliver c =>
    exact ⟨inOrder_deliver h.order, deliver_wiring.1.trans h.log, deliver_wiring.2.trans h.sink⟩
  | restart => exact ⟨h.order, h.log, h.sink⟩

theorem Logged.held_restart (h : Logged s) : s.restart.held terminalId = s.held terminalId := by
  rw [held_eq_recalled h.log, held_eq_recalled]
  · rfl
  · exact h.log

theorem Logged.held_exec (h : Logged s) (op : Op) :
    (s.exec op).held terminalId = Edge.next (Op.writes terminalId) (s.held terminalId) op := by
  cases op with
  | deliver c => exact held_deliver_of_log h.order h.log
  | restart => exact h.held_restart

/-- Behind a run each terminal holds the level of its signal. -/
theorem Logged.held_run (h : Logged s) (ops : List Op) :
    (run exec s ops).held terminalId =
      Edge.level (Op.writes terminalId) (s.held terminalId) ops := by
  induction ops generalizing s with
  | nil => rfl
  | cons op rest ih =>
    rw [run_cons, ih (logged_exec h op), h.held_exec op]
    rfl

/-! ### The process that never restarts -/

/-- One seam works over a log and the other over its dictionary, and they hold the same. -/
structure Twin (s s' : Seam) : Prop where
  logged : Logged s
  memory : s'.delivery.logStore = false
  sink : s'.delivery.inboxSink = true
  held : ∀ terminalId, s.held terminalId = s'.held terminalId

theorem twin_opened (fleetSink cliSink : Bool) :
    Twin (opened fleetSink cliSink true) (opened fleetSink cliSink false) :=
  ⟨logged_opened fleetSink cliSink, rfl, rfl, fun _ => rfl⟩

theorem Twin.deliver (h : Twin s s') (c : Call) :
    (s.deliver c).2 = (s'.deliver c).2 ∧ Twin (s.deliver c).1 (s'.deliver c).1 := by
  refine ⟨deliver_result (h.held _) (h.logged.sink.trans h.sink.symm), ?_⟩
  refine ⟨logged_exec h.logged (.deliver c), deliver_wiring.1.trans h.memory,
    deliver_wiring.2.trans h.sink, ?_⟩
  intro terminalId
  rw [held_deliver_of_log h.logged.order h.logged.log, held_deliver_of_memory h.memory, h.held]

theorem Twin.restart (h : Twin s s') : Twin s.restart s' := by
  refine ⟨logged_exec h.logged .restart, h.memory, h.sink, ?_⟩
  intro terminalId
  exact h.logged.held_restart.trans (h.held terminalId)

/-- Over a log, a run with restarts decides what one process decides in memory. -/
theorem Twin.observed (h : Twin s s') (ops : List Op) :
    observed exec decision s ops =
      observed (fun s' c => (s'.deliver c).1) (fun s' c => some (s'.deliver c).2) s'
        (ops.filterMap Op.call) := by
  refine observed_simulation Twin Op.call ?_ ?_ h ops
  · intro s s' op hop htwin
    cases op with
    | deliver c => cases hop
    | restart => exact ⟨rfl, htwin.restart⟩
  · intro s s' op c hop htwin
    cases op with
    | deliver c' =>
      obtain rfl := Option.some.inj hop
      obtain ⟨hsame, hnext⟩ := htwin.deliver c'
      exact ⟨congrArg some hsame, hnext⟩
    | restart => cases hop

/-! ### Pushes -/

theorem Logged.pushes_exec (h : Logged s) (op : Op) :
    (s.exec op).pushes terminalId = s.pushes terminalId ++
      ((Edge.edge (Op.writes terminalId) (s.held terminalId) op).bind fun op =>
        op.call.bind Call.pushed).toList := by
  cases op with
  | deliver c =>
    rw [Seam.exec, pushes_deliver h.sink]
    unfold Edge.edge Op.writes Op.call
    rw [Option.bind_some]
    split
    · split_ifs <;> rfl
    · rfl
  | restart => exact (List.append_nil _).symm

/-- The pushes of a run are made at the edges. -/
theorem Logged.pushes_run (h : Logged s) (ops : List Op) :
    (run exec s ops).pushes terminalId = s.pushes terminalId ++
      (Edge.edges (Op.writes terminalId) (s.held terminalId) ops).filterMap fun op =>
        op.call.bind Call.pushed := by
  induction ops generalizing s with
  | nil => exact (List.append_nil _).symm
  | cons op rest ih =>
    rw [run_cons, ih (logged_exec h op), h.pushes_exec op, h.held_exec op, Edge.edges_cons,
      List.filterMap_append, List.append_assoc]
    congr 1
    cases Edge.edge (Op.writes terminalId) (s.held terminalId) op with
    | none => rfl
    | some op => cases hpushed : op.call.bind Call.pushed <;> simp [hpushed]

/-- In a stretch that the terminal does not hold yet, only the first setter may push. -/
theorem Logged.pushes_stretch (h : Logged s) {stretch : List Op}
    (hheld : s.held terminalId ≠ some key)
    (hstretch : Edge.Stretch (Op.writes terminalId) key stretch) :
    (run exec s stretch).pushes terminalId = s.pushes terminalId ++
      ((stretch.find? fun op => (op.writes terminalId).isSome).bind fun op =>
        op.call.bind Call.pushed).toList := by
  rw [h.pushes_run, Edge.edges_stretch hheld hstretch]
  cases stretch.find? fun op => (op.writes terminalId).isSome with
  | none => rfl
  | some op => cases hpushed : op.call.bind Call.pushed <;> simp [hpushed]

/-- The sink accepts the first call of the stretch that sets the signal. -/
def firstAccepted (terminalId : String) (stretch : List Op) : Bool :=
  (stretch.find? fun op => (op.writes terminalId).isSome).any fun op =>
    op.call.any fun c => !c.inboxRaises

/-- The first setter of a stretch pushes when its inbox leg is taken and its sink accepts. -/
theorem length_first_pushed {stretch : List Op}
    (hstretch : Edge.Stretch (Op.writes terminalId) key stretch) :
    ((stretch.find? fun op => (op.writes terminalId).isSome).bind fun op =>
        op.call.bind Call.pushed).toList.length =
      if inboxDeclined key.kind key.subtype then 0
      else if firstAccepted terminalId stretch then 1 else 0 := by
  unfold firstAccepted
  cases hfirst : stretch.find? fun op => (op.writes terminalId).isSome with
  | none => simp
  | some op =>
    have hsets : (op.writes terminalId).isSome = true :=
      List.find?_some (p := fun op : Op => (op.writes terminalId).isSome) hfirst
    obtain hnone | hkey := hstretch op (List.mem_of_find?_eq_some hfirst)
    · rw [hnone] at hsets
      cases hsets
    · cases op with
      | restart => cases hkey
      | deliver c =>
        obtain ⟨cond, hc, rfl⟩ := writes_eq_some hkey
        simp only [Option.bind_some, Op.call, Option.any_some, Call.pushed, hc]
        cases inboxDeclined cond.kind.value cond.subtype with
        | true => rfl
        | false =>
          by_cases hraises : c.inboxRaises = true
          · simp [hraises]
          · simp [hraises]

/-- The decisions over the log are those of one process, and every stretch of calls with one
tuple is pushed once or never, as its first call is. -/
theorem one_push_per_episode (fleetSink cliSink : Bool) (steps : List Op) :
    observed exec decision (opened fleetSink cliSink true) steps =
        observed (fun s c => (s.deliver c).1) (fun s c => some (s.deliver c).2)
          (opened fleetSink cliSink false) (steps.filterMap Op.call) ∧
      ∀ before stretch after terminalId key, steps = before ++ stretch ++ after →
        Edge.level (Op.writes terminalId) none before ≠ some key →
        Edge.Stretch (Op.writes terminalId) key stretch →
          ((run exec (opened fleetSink cliSink true) (before ++ stretch)).pushes
              terminalId).length =
            ((run exec (opened fleetSink cliSink true) before).pushes terminalId).length +
              if inboxDeclined key.kind key.subtype then 0
              else if firstAccepted terminalId stretch then 1 else 0 := by
  refine ⟨(twin_opened fleetSink cliSink).observed steps, ?_⟩
  rintro before stretch after terminalId key rfl hlevel hstretch
  have hlogged : Logged (run exec (opened fleetSink cliSink true) before) :=
    run_invariant Logged (fun s op hs => logged_exec hs op) _
      (logged_opened fleetSink cliSink) before
  have hheld : (run exec (opened fleetSink cliSink true) before).held terminalId ≠ some key := by
    rwa [(logged_opened fleetSink cliSink).held_run before]
  rw [run_append, hlogged.pushes_stretch hheld hstretch, List.length_append,
    length_first_pushed hstretch]

/-- A capped worker, while the supervisor's mailbox refuses and while it does not. -/
def capped (inboxRaises : Bool) : Op :=
  .deliver
    { terminalId := "a1b2c3d4"
      cond := some
        { kind := .capped, provider := "claude_code", subtype := "usage_limit"
          evidence := "You've hit your limit", confidence := .high }
      epoch := 3, inboxRaises := inboxRaises }

/-- The push that fails is not made up for by the next call, whose sink would have accepted. -/
theorem capped_never_pushed :
    ¬ ∀ (fleetSink cliSink : Bool) (before stretch : List Op) (terminalId : String)
      (key : ConditionTuple),
      Edge.level (Op.writes terminalId) none before ≠ some key →
      Edge.Stretch (Op.writes terminalId) key stretch →
      inboxDeclined key.kind key.subtype = false →
      (∃ op ∈ stretch, op.writes terminalId = some (some key) ∧
        (op.call.any fun c => !c.inboxRaises) = true) →
        ((run exec (opened fleetSink cliSink true) (before ++ stretch)).pushes terminalId).length =
          ((run exec (opened fleetSink cliSink true) before).pushes terminalId).length + 1 := by
  intro hclaim
  have hpushed := hclaim true true [] [capped true, capped false] "a1b2c3d4"
    ⟨"CAPPED", "usage_limit", 3⟩ (by decide) (by decide) (by decide)
    ⟨capped false, by simp, by decide, by decide⟩
  exact absurd hpushed (by decide)

end Seam

end CliAgentOrchestrator.Ledger
