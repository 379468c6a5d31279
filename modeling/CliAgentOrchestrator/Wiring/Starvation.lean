import CliAgentOrchestrator.Wiring.AdoptedOnce
import Mathlib.Data.Finset.Card

/-!
# Rows that are never reached

A row that fails in a way that may pass stays in the window of the scan: fewer than the limit of
them do no harm, and as many as the limit keep every row behind them out for ever.
-/

set_option autoImplicit false

namespace CliAgentOrchestrator.Wiring

open CliAgentOrchestrator.Core Library Queue Inbox

namespace Adoption

variable {sha256 contentHash : String → String} {rejects : Int → Bool} {limit : Int}
  {a : Adoption} {id : Int} {row : InboxRow}

/-! ## Rows that come about -/

/-- The row waits for its adoption. -/
def Pending (a : Adoption) (id : Int) : Prop :=
  ∃ row, a.inbox.get id = some row ∧ row.status = .pending

/-- A call deals with the row, or will. -/
def Owes (a : Adoption) (call : Nat) (id : Int) : Prop := ∃ row ∈ (a.pass call).rows, row.id = id

/-- The step fails to adopt the row: the queue does not answer, or rejects it, or the row names
no receiver, or its retirement does not commit. -/
inductive Fails (rejects : Int → Bool) (a : Adoption) (id : Int) : AdoptionStep → Prop
  | unavailable (call : Nat) (newUlid : String) (now : Int) (row : InboxRow)
      (rest : List InboxRow) (adopted : List Adopted)
      (hat : a.pass call = .adopting (row :: rest) adopted) (hid : row.id = id) :
      Fails rejects a id (.enqueue call false newUlid now)
  | refused (call : Nat) (available : Bool) (newUlid : String) (now : Int) (row : InboxRow)
      (rest : List InboxRow) (adopted : List Adopted)
      (hat : a.pass call = .adopting (row :: rest) adopted) (hid : row.id = id)
      (hrefused : row.effectiveReceiver = "" ∨ rejects id = true) :
      Fails rejects a id (.enqueue call available newUlid now)
  | uncommitted (call : Nat) (row : InboxRow) (msgId : String) (rest : List InboxRow)
      (adopted : List Adopted) (hat : a.pass call = .retiring row msgId rest adopted)
      (hid : row.id = id) : Fails rejects a id (.retire call false)

/-- `new_ulid` does not hand out an id that is taken. -/
def Fresh (a : Adoption) : AdoptionStep → Prop
  | .enqueue _ _ newUlid _ => a.store.get newUlid = none
  | _ => True

theorem setPass_pass_cases (call call' : Nat) (pass : Pass) :
    (call' = call ∧ (a.setPass call pass).pass call' = pass) ∨
      (call' ≠ call ∧ (a.setPass call pass).pass call' = a.pass call') := by
  by_cases hcall : call' = call
  · subst hcall
    exact .inl ⟨rfl, setPass_self _ _⟩
  · exact .inr ⟨hcall, setPass_of_ne hcall _⟩

theorem kill_of_owes {call : Nat} (h : Owes a call id) : (a.pass call).kill = .died := by
  obtain ⟨row, hrow, -⟩ := h
  cases hpass : a.pass call with
  | adopting rest adopted => rfl
  | retiring row msgId rest adopted => rfl
  | died => rfl
  | _ =>
    rw [hpass] at hrow
    cases hrow

/-- Of the rows of a call, the one it deals with or a later one. -/
theorem head_or_rest {call : Nat} {rest : List InboxRow} (h : Owes a call id)
    (hrows : (a.pass call).rows = row :: rest) : row.id = id ∨ ∃ x ∈ rest, x.id = id := by
  obtain ⟨x, hx, hid⟩ := h
  rw [hrows] at hx
  obtain rfl | hx := List.mem_cons.mp hx
  · exact .inl hid
  · exact .inr ⟨x, hx, hid⟩

/-- The row that a call is about to enqueue is enqueued, unless the step fails it. -/
theorem Sound.enqueue_succeeds (hs : Sound sha256 a) {call : Nat} {available : Bool}
    {newUlid : String} {now : Int} {rest : List InboxRow} {adopted : List Adopted}
    (hat : a.pass call = .adopting (row :: rest) adopted)
    (hfresh : Fresh a (.enqueue call available newUlid now))
    (hok : ¬ Fails rejects a row.id (.enqueue call available newUlid now)) :
    ∃ msgId store, adoptEnqueue sha256 rejects available a.store (adoptionFact contentHash row)
      newUlid now = .ok (some (msgId, store)) := by
  cases available with
  | false => exact (hok (.unavailable call newUlid now row rest adopted hat rfl)).elim
  | true =>
    have hrefused : ¬ (row.effectiveReceiver = "" ∨ rejects row.id = true) :=
      fun h => hok (.refused call true newUlid now row rest adopted hat rfl h)
    obtain ⟨hreceiver, haccepts⟩ := not_or.mp hrefused
    refine adoptEnqueue_succeeds hreceiver (Bool.eq_false_iff.mpr haccepts) hfresh ?_
    have hpicked := (hs.passes call).picked
    rw [hat] at hpicked
    obtain ⟨r₀, hget, hsame⟩ := hpicked row List.mem_cons_self
    intro r hr
    rw [hs.digests row.id r₀ hget r hr]
    have hmessage : (asScanned r₀).message = row.message := congrArg InboxRow.message hsame
    exact congrArg sha256 hmessage

/-- A row that a call owes is owed still, unless it is retired or the call dies. -/
theorem Sound.owes_exec (hs : Sound sha256 a) {call : Nat} (howes : Owes a call id)
    {step : AdoptionStep} (hfresh : Fresh a step) (hok : ¬ Fails rejects a id step) :
    Owes (Adoption.exec sha256 contentHash rejects limit a step) call id ∨
      ¬ Pending (Adoption.exec sha256 contentHash rejects limit a step) id ∨
        (Adoption.exec sha256 contentHash rejects limit a step).pass call = .died := by
  have hmoved : Moved sha256 contentHash rejects limit a step _ := moved step
  generalize Adoption.exec sha256 contentHash rejects limit a step = a' at hmoved
  -- another call's turn
  have hother : ∀ {b : Adoption} {call' : Nat} {pass : Pass}, b.pass = a.pass → call ≠ call' →
      Owes (b.setPass call' pass) call id := by
    intro b call' pass hb hne
    obtain ⟨row, hrow, hid⟩ := howes
    refine ⟨row, ?_, hid⟩
    rw [setPass_of_ne hne, hb]
    exact hrow
  -- this call's turn with another row
  have hrest : ∀ {b : Adoption} {rest : List InboxRow} {adopted : List Adopted},
      (∃ x ∈ rest, x.id = id) → Owes (b.setPass call (.goOn rest adopted)) call id := by
    rintro b rest adopted ⟨x, hx, hid⟩
    refine ⟨x, ?_, hid⟩
    rw [setPass_self, rows_goOn]
    exact hx
  cases hmoved with
  | kept => exact .inl howes
  | scanned call' hready | unscanned call' hready =>
    by_cases hcall : call = call'
    · subst hcall
      obtain ⟨row, hrow, -⟩ := howes
      rw [hready] at hrow
      cases hrow
    · exact .inl (hother rfl hcall)
  | enqueued call' newUlid now row rest adopted msgId store hat hreceiver hrun =>
    by_cases hcall : call = call'
    · subst hcall
      obtain ⟨x, hx, hid⟩ := howes
      refine .inl ⟨x, ?_, hid⟩
      rw [setPass_self]
      rwa [hat] at hx
    · exact .inl (hother rfl hcall)
  | failed call' available newUlid now row rest adopted hat hreceiver hnone =>
    by_cases hcall : call = call'
    · subst hcall
      obtain rfl | hlater := head_or_rest howes (by rw [hat]; rfl)
      · obtain ⟨msgId, store, hrun⟩ := hs.enqueue_succeeds hat hfresh hok
        rw [hrun] at hnone
        cases hnone
      · exact .inl (hrest hlater)
    · exact .inl (hother rfl hcall)
  | poisoned call' available newUlid now row rest adopted hat hcause =>
    by_cases hcall : call = call'
    · subst hcall
      obtain rfl | hlater := head_or_rest howes (by rw [hat]; rfl)
      · obtain hnone | ⟨e, herror⟩ := hcause
        · exact (hok (.refused call available newUlid now row rest adopted hat rfl
            (.inl hnone))).elim
        · obtain ⟨msgId, store, hrun⟩ := hs.enqueue_succeeds hat hfresh hok
          rw [hrun] at herror
          cases herror
      · exact .inl (hrest hlater)
    · exact .inl (hother rfl hcall)
  | retired call' row msgId rest adopted adopted' hat =>
    by_cases hcall : call = call'
    · subst hcall
      obtain rfl | hlater := head_or_rest howes (by rw [hat]; rfl)
      · refine .inr (.inl ?_)
        rintro ⟨x, hx, hpending⟩
        rw [setPass_inbox, get_retireRow] at hx
        obtain ⟨r, -, rfl⟩ := Option.map_eq_some_iff.mp hx
        split at hpending
        · cases hpending
        · next hnot => exact hnot ⟨rfl, hpending⟩
      · exact .inl (hrest hlater)
    · exact .inl (hother rfl hcall)
  | unretired call' row msgId rest adopted hat =>
    by_cases hcall : call = call'
    · subst hcall
      obtain rfl | hlater := head_or_rest howes (by rw [hat]; rfl)
      · exact (hok (.uncommitted call row msgId rest adopted hat rfl)).elim
      · exact .inl (hrest hlater)
    · exact .inl (hother rfl hcall)
  | crashed call' =>
    by_cases hcall : call = call'
    · subst hcall
      exact .inr (.inr ((setPass_self _ _).trans (kill_of_owes howes)))
    · exact .inl (hother rfl hcall)
  | restarted => exact .inr (.inr (kill_of_owes howes))

theorem died_exec {call : Nat} (h : a.pass call = .died) (step : AdoptionStep) :
    (Adoption.exec sha256 contentHash rejects limit a step).pass call = .died := by
  have hmoved : Moved sha256 contentHash rejects limit a step _ := moved step
  generalize Adoption.exec sha256 contentHash rejects limit a step = a' at hmoved
  have hother : ∀ {b : Adoption} {call' : Nat} {pass : Pass}, b.pass = a.pass →
      a.pass call' ≠ .died → (b.setPass call' pass).pass call = .died := by
    intro b call' pass hb hne
    have hcall : call ≠ call' := fun heq => hne (heq ▸ h)
    rw [setPass_of_ne hcall, hb]
    exact h
  cases hmoved with
  | kept => exact h
  | scanned _ hready | unscanned _ hready => exact hother rfl (by rw [hready]; simp)
  | enqueued _ _ _ _ _ _ _ _ hat | failed _ _ _ _ _ _ _ hat | poisoned _ _ _ _ _ _ _ hat =>
    exact hother rfl (by rw [hat]; simp)
  | retired _ _ _ _ _ _ hat | unretired _ _ _ _ _ hat => exact hother rfl (by rw [hat]; simp)
  | crashed call' =>
    by_cases hcall : call = call'
    · subst hcall
      rw [setPass_self, h]
      rfl
    · rw [setPass_of_ne hcall]
      exact h
  | restarted => exact congrArg Pass.kill h

/-- The inbox behind a step: as it was, or with a row retired that a pass was to retire. -/
theorem inbox_exec (step : AdoptionStep) :
    (Adoption.exec sha256 contentHash rejects limit a step).inbox = a.inbox ∨
      ∃ call row msgId rest adopted, a.pass call = .retiring row msgId rest adopted ∧
        (Adoption.exec sha256 contentHash rejects limit a step).inbox =
          retireRow a.inbox row.id := by
  have hmoved : Moved sha256 contentHash rejects limit a step _ := moved step
  generalize Adoption.exec sha256 contentHash rejects limit a step = a' at hmoved
  cases hmoved with
  | retired call row msgId rest adopted adopted' hat =>
    exact .inr ⟨call, row, msgId, rest, adopted, hat, rfl⟩
  | _ => exact .inl rfl

/-- A row of the inbox stays there, and only its adoption writes its status. -/
theorem get_exec {step : AdoptionStep} (h : a.inbox.get id = some row) :
    ∃ row', (Adoption.exec sha256 contentHash rejects limit a step).inbox.get id = some row' ∧
      asScanned row' = asScanned row ∧ (row'.status = row.status ∨ row'.status = .adopted) := by
  obtain hsame | ⟨call, x, msgId, rest, adopted, -, hretired⟩ := inbox_exec (a := a) step
  · exact ⟨row, by rw [hsame, h], rfl, .inl rfl⟩
  · rw [hretired, get_retireRow, h]
    refine ⟨_, rfl, ?_⟩
    dsimp only
    split
    · exact ⟨rfl, .inr rfl⟩
    · exact ⟨rfl, .inl rfl⟩

/-- Nothing becomes pending. -/
theorem pending_of_exec {step : AdoptionStep}
    (h : Pending (Adoption.exec sha256 contentHash rejects limit a step) id) : Pending a id := by
  obtain ⟨row', hget', hpending⟩ := h
  obtain hsame | ⟨call, x, msgId, rest, adopted, -, hretired⟩ := inbox_exec (a := a) step
  · exact ⟨row', by rw [← hsame, hget'], hpending⟩
  · rw [hretired] at hget'
    obtain ⟨row, hget, -, hstatus | ⟨-, -, hadopted⟩⟩ := get_retireRow_eq_some hget'
    · exact ⟨row, hget, hstatus.symm.trans hpending⟩
    · rw [hadopted] at hpending
      cases hpending

theorem pending_of_trace {steps : Nat → AdoptionStep} {m n : Nat} (hmn : m ≤ n)
    (h : Pending (Library.trace (Adoption.exec sha256 contentHash rejects limit) a steps n) id) :
    Pending (Library.trace (Adoption.exec sha256 contentHash rejects limit) a steps m) id := by
  by_contra hnot
  refine trace_invariant (fun b => ¬ Pending b id) hmn ?_ hnot h
  intro k _ hk hpending
  exact hk (pending_of_exec hpending)

/-! ### The window -/

instance : Std.Total rowOrder := ⟨fun a b => Int.le_total a.id b.id⟩

instance : IsTrans InboxRow rowOrder := ⟨fun _ _ _ hab hbc => Int.le_trans hab hbc⟩

/-- A pending row that is not skipped is in the window, or behind a full one. -/
theorem mem_candidates_or (hget : a.inbox.get id = some row) (hpending : row.status = .pending)
    (hfree : id ∉ a.poisonIds) :
    row ∈ a.candidates limit ∨
      (a.candidates limit).length = (max 1 limit).toNat ∧ ∀ c ∈ a.candidates limit, c.id ≤ id := by
  have hid : row.id = id := Table.key_of_get hget
  have hmem : row ∈ (a.inbox.select fun row =>
      row.status == .pending && !a.poisonIds.contains row.id).insertionSort rowOrder := by
    rw [List.mem_insertionSort, Table.mem_select_iff]
    refine ⟨by rwa [hid], ?_⟩
    simp [hpending, hid, hfree]
  have hsorted : ((a.inbox.select fun row =>
      row.status == .pending && !a.poisonIds.contains row.id).insertionSort rowOrder).Pairwise
        rowOrder :=
    List.pairwise_insertionSort rowOrder _
  unfold candidates
  generalize (a.inbox.select fun row =>
    row.status == .pending && !a.poisonIds.contains row.id).insertionSort rowOrder = rows at *
  rw [← List.take_append_drop (max 1 limit).toNat rows, List.mem_append] at hmem
  obtain hin | hbehind := hmem
  · exact .inl hin
  · refine .inr ⟨?_, ?_⟩
    · rw [List.length_take]
      have hlong := List.length_pos_of_mem hbehind
      rw [List.length_drop] at hlong
      omega
    · intro c hc
      rw [← List.take_append_drop (max 1 limit).toNat rows, List.pairwise_append] at hsorted
      exact hid ▸ hsorted.2.2 c hc row hbehind

theorem nodup_candidates (a : Adoption) (limit : Int) :
    ((a.candidates limit).map InboxRow.id).Nodup := by
  have hselect := Table.select_nodup a.inbox fun row =>
    row.status == .pending && !a.poisonIds.contains row.id
  have hperm := (List.perm_insertionSort rowOrder (a.inbox.select fun row =>
    row.status == .pending && !a.poisonIds.contains row.id)).map InboxRow.id
  exact (hperm.nodup_iff.mpr hselect).sublist ((List.take_sublist _ _).map InboxRow.id)

/-- Where fewer rows than the limit are stubborn, a scan picks up the row or another one before
it that is not. -/
theorem exists_candidate {stubborn : List Int} (hfew : stubborn.length < (max 1 limit).toNat)
    (hget : a.inbox.get id = some row) (hpending : row.status = .pending)
    (hfree : id ∉ a.poisonIds) (hid : id ∉ stubborn) :
    ∃ c ∈ a.candidates limit, c.id ≤ id ∧ c.id ∉ stubborn := by
  obtain hin | ⟨hfull, hbefore⟩ := mem_candidates_or hget hpending hfree
  · have hsame : row.id = id := Table.key_of_get hget
    exact ⟨row, hin, le_of_eq hsame, hsame.symm ▸ hid⟩
  · by_contra hnone
    have hsubset : (a.candidates limit).map InboxRow.id ⊆ stubborn := by
      intro k hk
      obtain ⟨c, hc, rfl⟩ := List.mem_map.mp hk
      by_contra hnot
      exact hnone ⟨c, hc, hbefore c hc, hnot⟩
    have hle := (List.subperm_of_subset (nodup_candidates a limit) hsubset).length_le
    rw [List.length_map, hfull] at hle
    omega

/-- Who fills the window keeps out whoever is behind. -/
theorem not_mem_candidates {stubborn : List Int} (hnodup : stubborn.Nodup)
    (hmany : (max 1 limit).toNat ≤ stubborn.length)
    (hwaits : ∀ q ∈ stubborn, Pending a q ∧ q ∉ a.poisonIds ∧ q < id) :
    ∀ c ∈ a.candidates limit, c.id ≠ id := by
  rintro c hc rfl
  have hsubset : c.id :: stubborn ⊆ (a.candidates limit).map InboxRow.id := by
    intro k hk
    obtain rfl | hk := List.mem_cons.mp hk
    · exact List.mem_map_of_mem hc
    · obtain ⟨⟨row, hget, hpending⟩, hfree, hlt⟩ := hwaits k hk
      have hor : row ∈ a.candidates limit ∨ _ := mem_candidates_or hget hpending hfree
      obtain hin | ⟨-, hbefore⟩ := hor
      · exact List.mem_map.mpr ⟨row, hin, Table.key_of_get hget⟩
      · exact (Int.not_lt.mpr (hbefore c hc) hlt).elim
  have hnodup' : (c.id :: stubborn).Nodup :=
    List.nodup_cons.mpr ⟨fun hmem => Int.lt_irrefl _ (hwaits _ hmem).2.2, hnodup⟩
  have hle := (List.subperm_of_subset hnodup' hsubset).length_le
  have hwindow : (a.candidates limit).length ≤ (max 1 limit).toNat := List.length_take_le _ _
  rw [List.length_cons, List.length_map] at hle
  omega

/-! ### Progress -/

/-- The pending rows up to a row. -/
def pendingUpTo (a : Adoption) (id : Int) : Finset Int :=
  ((a.inbox.rows.filter fun r => r.status == .pending && decide (r.id ≤ id)).map
    InboxRow.id).toFinset

theorem mem_pendingUpTo {k : Int} : k ∈ a.pendingUpTo id ↔ Pending a k ∧ k ≤ id := by
  simp only [pendingUpTo, List.mem_toFinset, List.mem_map, List.mem_filter, Bool.and_eq_true,
    beq_iff_eq, decide_eq_true_eq]
  constructor
  · rintro ⟨row, ⟨hrow, hpending, hle⟩, rfl⟩
    exact ⟨⟨row, (Table.mem_rows_iff _ _).mp hrow, hpending⟩, hle⟩
  · rintro ⟨⟨row, hget, hpending⟩, hle⟩
    obtain ⟨hmem, rfl⟩ := (Table.get_eq_some_iff _ _ _).mp hget
    exact ⟨row, ⟨hmem, hpending, hle⟩, rfl⟩

section Endless

variable {steps : Nat → AdoptionStep}

/-- Scans keep coming whose pass returns. -/
def KeepsPassing (sha256 contentHash : String → String) (rejects : Int → Bool) (limit : Int)
    (a : Adoption) (steps : Nat → AdoptionStep) : Prop :=
  ∀ start, ∃ n m call adopted, start ≤ n ∧ n < m ∧ steps n = .scan call ∧
    (Library.trace (Adoption.exec sha256 contentHash rejects limit) a steps n).pass call = .ready ∧
      (Library.trace (Adoption.exec sha256 contentHash rejects limit) a steps m).pass call =
        .returned adopted

/-- From some time on, of the rows up to this one only others fail, and fewer than the limit. -/
def FewKeepFailing (sha256 contentHash : String → String) (rejects : Int → Bool) (limit : Int)
    (a : Adoption) (steps : Nat → AdoptionStep) (id : Int) : Prop :=
  ∃ stubborn : List Int, stubborn.length < (max 1 limit).toNat ∧ id ∉ stubborn ∧
    ∃ start, ∀ n, start ≤ n → ∀ q ≤ id,
      Fails rejects (Library.trace (Adoption.exec sha256 contentHash rejects limit) a steps n) q
        (steps n) → q ∈ stubborn

/-- The row that a scan picked up and that does not fail is not pending when its pass returns. -/
theorem Sound.settles (hs : Sound sha256 a)
    (hfresh : ∀ n, Fresh (Library.trace (Adoption.exec sha256 contentHash rejects limit) a steps n)
      (steps n)) {n m call : Nat} {adopted : List Adopted} (hnm : n < m)
    (hscan : steps n = .scan call)
    (hready : (Library.trace (Adoption.exec sha256 contentHash rejects limit) a steps n).pass
      call = .ready)
    (hreturned : (Library.trace (Adoption.exec sha256 contentHash rejects limit) a steps m).pass
      call = .returned adopted)
    (hrow : row ∈ (Library.trace (Adoption.exec sha256 contentHash rejects limit) a steps
      n).candidates limit)
    (hok : ∀ k, n ≤ k → ¬ Fails rejects (Library.trace (Adoption.exec sha256 contentHash rejects
      limit) a steps k) row.id (steps k)) :
    ¬ Pending (Library.trace (Adoption.exec sha256 contentHash rejects limit) a steps m)
      row.id := by
  have howes : Owes (Library.trace (Adoption.exec sha256 contentHash rejects limit) a steps (n + 1))
      call row.id := by
    refine ⟨row, ?_, rfl⟩
    rw [trace_succ, hscan]
    simp only [Adoption.exec, hready, setPass_self, rows_goOn]
    exact hrow
  have hinv := trace_invariant (fun b => Owes b call row.id ∨ ¬ Pending b row.id ∨
    b.pass call = .died) (Nat.succ_le_of_lt hnm) ?_ (.inl howes)
  · obtain ⟨x, hx, -⟩ | hsettled | hdied := hinv
    · rw [hreturned] at hx
      cases hx
    · exact hsettled
    · rw [hreturned] at hdied
      cases hdied
  · intro k hk hinv
    obtain howes | hsettled | hdied := hinv
    · exact (hs.trace steps k).owes_exec howes (hfresh k) (hok k (Nat.le_of_succ_le hk))
    · exact .inr (.inl fun hpending => hsettled (pending_of_exec hpending))
    · exact .inr (.inr (died_exec hdied (steps k)))

/-- The row is there with a receiver, pending or adopted, and is not skipped. -/
def Eligible (a : Adoption) (id : Int) : Prop :=
  id ∉ a.poisonIds ∧ ∃ row, a.inbox.get id = some row ∧ row.effectiveReceiver ≠ "" ∧
    (row.status = .pending ∨ row.status = .adopted)

/-- A row that may be adopted still may be, or has been. -/
theorem Sound.eligible_exec (hs : Sound sha256 a) (h : Eligible a id)
    (haccepts : rejects id = false) {step : AdoptionStep} (hfresh : Fresh a step) :
    Eligible (Adoption.exec sha256 contentHash rejects limit a step) id := by
  obtain ⟨hfree, row, hget, hreceiver, hstatus⟩ := h
  constructor
  · have hmoved : Moved sha256 contentHash rejects limit a step _ := moved step
    generalize Adoption.exec sha256 contentHash rejects limit a step = a' at hmoved
    cases hmoved with
    | restarted => exact List.not_mem_nil
    | poisoned call available newUlid now x rest adopted hat hcause =>
      intro hmem
      obtain heq | hmem := List.mem_cons.mp hmem
      · subst heq
        have hpicked := (hs.passes call).picked
        rw [hat] at hpicked
        obtain ⟨r, hr, hsame⟩ := hpicked x List.mem_cons_self
        cases hr.symm.trans hget
        have hreceiver' : x.effectiveReceiver ≠ "" := hsame ▸ hreceiver
        obtain hnone | ⟨e, herror⟩ := hcause
        · exact hreceiver' hnone
        · cases available with
          | false => cases herror
          | true =>
            have hok : ¬ Fails rejects a x.id (.enqueue call true newUlid now) := by
              rintro (_ | ⟨_, _, _, _, y, _, _, hat', -, hrefused⟩)
              cases (Pass.adopting.inj (hat.symm.trans hat')).1
              obtain hnone | hrejects := hrefused
              · exact hreceiver' hnone
              · rw [haccepts] at hrejects
                cases hrejects
            obtain ⟨msgId, store, hrun⟩ := hs.enqueue_succeeds hat hfresh hok
            rw [hrun] at herror
            cases herror
      · exact hfree hmem
    | _ => exact hfree
  · have hafter : ∃ row', (Adoption.exec sha256 contentHash rejects limit a step).inbox.get id =
        some row' ∧ _ := get_exec hget
    obtain ⟨row', hget', hsame, hstatus'⟩ := hafter
    have hscanned : (asScanned row').effectiveReceiver = (asScanned row).effectiveReceiver := by
      rw [hsame]
    have hreceiver' : row'.effectiveReceiver = row.effectiveReceiver := hscanned
    refine ⟨row', hget', hreceiver' ▸ hreceiver, ?_⟩
    obtain hkept | hadopted := hstatus'
    · rwa [hkept]
    · exact .inr hadopted

/-- A row that the queue accepts is adopted in the end, where fewer rows before it than the limit
keep failing. -/
theorem Sound.adopted_of_few (hs : Sound sha256 a)
    (hfresh : ∀ n, Fresh (Library.trace (Adoption.exec sha256 contentHash rejects limit) a steps n)
      (steps n)) (hpasses : KeepsPassing sha256 contentHash rejects limit a steps)
    (heligible : Eligible a id) (haccepts : rejects id = false)
    (hfew : FewKeepFailing sha256 contentHash rejects limit a steps id) :
    ∃ n row, (Library.trace (Adoption.exec sha256 contentHash rejects limit) a steps n).inbox.get
      id = some row ∧ row.status = .adopted := by
  obtain ⟨stubborn, hshort, hid, start, hfails⟩ := hfew
  have heligible' : ∀ n, Eligible
      (Library.trace (Adoption.exec sha256 contentHash rejects limit) a steps n) id := fun n =>
    trace_invariant (fun b => Eligible b id) n.zero_le
      (fun k _ hk => (hs.trace steps k).eligible_exec hk haccepts (hfresh k)) heligible
  have hsettled : ∃ m, start ≤ m ∧ ¬ Pending
      (Library.trace (Adoption.exec sha256 contentHash rejects limit) a steps m) id := by
    have hdrops : ∀ k, start ≤ k → ∃ m, k ≤ m ∧
        (¬ Pending (Library.trace (Adoption.exec sha256 contentHash rejects limit) a steps m) id ∨
          ((Library.trace (Adoption.exec sha256 contentHash rejects limit) a steps m).pendingUpTo
            id).card <
          ((Library.trace (Adoption.exec sha256 contentHash rejects limit) a steps k).pendingUpTo
            id).card) := by
      intro k hk
      obtain ⟨n, m, call, adopted, hkn, hnm, hscan, hready, hreturned⟩ := hpasses k
      by_cases hpending : Pending
          (Library.trace (Adoption.exec sha256 contentHash rejects limit) a steps n) id
      · obtain ⟨row, hget, hstatus⟩ := hpending
        obtain ⟨c, hc, hle, hgood⟩ := exists_candidate hshort hget hstatus (heligible' n).1 hid
        have hgone := hs.settles hfresh hnm hscan hready hreturned hc fun j hj hfail =>
          hgood (hfails j (hk.trans (hkn.trans hj)) c.id hle hfail)
        -- the candidate waits at `k` and no longer at `m`
        refine ⟨m, hkn.trans hnm.le, .inr (Finset.card_lt_card ?_)⟩
        rw [Finset.ssubset_iff_of_subset]
        · obtain ⟨hgetc, hstatusc, -⟩ := mem_candidates hc
          refine ⟨c.id, mem_pendingUpTo.mpr ⟨pending_of_trace hkn ⟨c, hgetc, hstatusc⟩, hle⟩, ?_⟩
          exact fun hmem => hgone (mem_pendingUpTo.mp hmem).1
        · intro q hq
          obtain ⟨hwaits, hqle⟩ := mem_pendingUpTo.mp hq
          exact mem_pendingUpTo.mpr ⟨pending_of_trace (hkn.trans hnm.le) hwaits, hqle⟩
      · exact ⟨n, hkn, .inl hpending⟩
    exact exists_of_drops hdrops
  obtain ⟨m, -, hnot⟩ := hsettled
  obtain ⟨-, row, hget, -, hpending | hadopted⟩ := heligible' m
  · exact (hnot ⟨row, hget, hpending⟩).elim
  · exact ⟨m, row, hget, hadopted⟩

end Endless

/-! ### Starvation -/

section Starved

variable {stubborn : List Int}

/-- The queue does not answer when one of the rows is enqueued. -/
def Unanswered (stubborn : List Int) (a : Adoption) : AdoptionStep → Prop
  | .enqueue call available _ _ =>
    ∀ row rest adopted, a.pass call = .adopting (row :: rest) adopted → row.id ∈ stubborn →
      available = false
  | _ => True

/-- The rows wait in the window, and no pass has the row behind them. -/
structure Starved (stubborn : List Int) (a : Adoption) (id : Int) : Prop where
  waiting : ∀ q ∈ stubborn, ∃ row, a.inbox.get q = some row ∧ row.status = .pending ∧
    row.effectiveReceiver ≠ ""
  free : ∀ q ∈ stubborn, q ∉ a.poisonIds
  behind : ∀ call, ¬ Owes a call id
  unenqueued : ∀ call row msgId rest adopted, a.pass call = .retiring row msgId rest adopted →
    row.id ∉ stubborn

theorem Starved.inbox (h : Starved stubborn a id) {a' : Adoption} {call : Nat} {pass : Pass}
    (hinbox : a'.inbox = a.inbox) (hpoison : ∀ q ∈ stubborn, q ∉ a'.poisonIds)
    (hpass : a'.pass = (a.setPass call pass).pass) (hrows : ∀ row ∈ pass.rows, row.id ≠ id)
    (hretiring : ∀ row msgId rest adopted, pass = .retiring row msgId rest adopted →
      row.id ∉ stubborn) : Starved stubborn a' id := by
  constructor
  · rw [hinbox]
    exact h.waiting
  · exact hpoison
  · rintro call' ⟨row, hrow, hid⟩
    rw [hpass] at hrow
    obtain ⟨-, hset⟩ | ⟨-, hset⟩ := setPass_pass_cases (a := a) call call' pass
    · rw [hset] at hrow
      exact hrows row hrow hid
    · rw [hset] at hrow
      exact h.behind call' ⟨row, hrow, hid⟩
  · intro call' row msgId rest adopted hat
    rw [hpass] at hat
    obtain ⟨-, hset⟩ | ⟨-, hset⟩ := setPass_pass_cases (a := a) call call' pass
    · exact hretiring row msgId rest adopted (hset.symm.trans hat)
    · exact h.unenqueued call' row msgId rest adopted (hset.symm.trans hat)

theorem Starved.rest (h : Starved stubborn a id) {call : Nat} {rest : List InboxRow}
    (hrows : (a.pass call).rows = row :: rest) : ∀ x ∈ rest, x.id ≠ id := by
  intro x hx hid
  refine h.behind call ⟨x, ?_, hid⟩
  rw [hrows]
  exact List.mem_cons_of_mem row hx

theorem Starved.goOn (h : Starved stubborn a id) {a' : Adoption} {call : Nat}
    {rest : List InboxRow} {adopted : List Adopted} (hinbox : a'.inbox = a.inbox)
    (hpoison : ∀ q ∈ stubborn, q ∉ a'.poisonIds)
    (hpass : a'.pass = (a.setPass call (.goOn rest adopted)).pass)
    (hrows : ∀ x ∈ rest, x.id ≠ id) : Starved stubborn a' id := by
  refine h.inbox hinbox hpoison hpass ?_ ?_
  · rw [rows_goOn]
    exact hrows
  · intro row msgId rest' adopted' hretiring
    exact (not_retiring_goOn rest adopted row msgId rest' adopted' hretiring).elim

theorem Starved.kill (h : Starved stubborn a id) {a' : Adoption} (hinbox : a'.inbox = a.inbox)
    (hpoison : ∀ q ∈ stubborn, q ∉ a'.poisonIds)
    (hpass : ∀ call, a'.pass call = a.pass call ∨ a'.pass call = (a.pass call).kill) :
    Starved stubborn a' id := by
  have hrows : ∀ call, (a'.pass call).rows = [] ∨ a'.pass call = a.pass call := by
    intro call
    obtain hsame | hkill := hpass call
    · exact .inr hsame
    · rw [hkill]
      exact rows_kill _
  constructor
  · rw [hinbox]
    exact h.waiting
  · exact hpoison
  · rintro call ⟨row, hrow, hid⟩
    obtain hnil | hsame := hrows call
    · rw [hnil] at hrow
      cases hrow
    · rw [hsame] at hrow
      exact h.behind call ⟨row, hrow, hid⟩
  · intro call row msgId rest adopted hat
    obtain hnil | hsame := hrows call
    · rw [hat] at hnil
      cases hnil
    · exact h.unenqueued call row msgId rest adopted (hsame ▸ hat)

/-- As many rows as the limit, before a row and unanswered, keep it where it is. -/
theorem Starved.exec (h : Starved stubborn a id) (hs : Sound sha256 a) (hnodup : stubborn.Nodup)
    (hmany : (max 1 limit).toNat ≤ stubborn.length) (hbefore : ∀ q ∈ stubborn, q < id)
    {step : AdoptionStep} (hstep : Unanswered stubborn a step) :
    Starved stubborn (Adoption.exec sha256 contentHash rejects limit a step) id ∧
      (Adoption.exec sha256 contentHash rejects limit a step).inbox.get id = a.inbox.get id := by
  have hmoved : Moved sha256 contentHash rejects limit a step _ := moved step
  generalize Adoption.exec sha256 contentHash rejects limit a step = a' at hmoved
  -- what the queue answers is not about one of the rows
  have hanswered : ∀ {call : Nat} {newUlid : String} {now : Int} {row : InboxRow}
      {rest : List InboxRow} {adopted : List Adopted},
      a.pass call = .adopting (row :: rest) adopted →
        Unanswered stubborn a (.enqueue call true newUlid now) → row.id ∉ stubborn := by
    intro call newUlid now row rest adopted hat hstep hmem
    cases hstep row rest adopted hat hmem
  cases hmoved with
  | kept => exact ⟨h, rfl⟩
  | scanned call hready =>
    refine ⟨h.goOn rfl h.free rfl ?_, rfl⟩
    refine not_mem_candidates hnodup hmany fun q hq => ?_
    obtain ⟨row, hget, hpending, -⟩ := h.waiting q hq
    exact ⟨⟨row, hget, hpending⟩, h.free q hq, hbefore q hq⟩
  | unscanned call hready =>
    refine ⟨h.inbox rfl h.free rfl ?_ ?_, rfl⟩
    · intro row hrow
      cases hrow
    · intro row msgId rest adopted hretiring
      cases hretiring
  | enqueued call newUlid now row rest adopted msgId store hat hreceiver hok =>
    refine ⟨h.inbox rfl h.free rfl ?_ ?_, rfl⟩
    · intro x hx hid
      refine h.behind call ⟨x, ?_, hid⟩
      rw [hat]
      exact hx
    · intro x msgId' rest' adopted' hretiring
      cases hretiring
      exact hanswered hat hstep
  | failed _ _ _ _ _ rest _ hat | unretired _ _ _ rest _ hat =>
    exact ⟨h.goOn rfl h.free rfl (h.rest (by rw [hat]; rfl)), rfl⟩
  | poisoned call available newUlid now row rest adopted hat hcause =>
    refine ⟨h.goOn rfl ?_ rfl (h.rest (by rw [hat]; rfl)), rfl⟩
    intro q hq hmem
    obtain rfl | hmem := List.mem_cons.mp hmem
    · obtain ⟨r, hget, -, hreceiver⟩ := h.waiting row.id hq
      obtain hnone | ⟨e, herror⟩ := hcause
      · have hpicked := (hs.passes call).picked
        rw [hat] at hpicked
        obtain ⟨r', hget', hsame⟩ := hpicked row List.mem_cons_self
        cases hget.symm.trans hget'
        have hscanned : (asScanned r).effectiveReceiver = row.effectiveReceiver := by rw [hsame]
        exact hreceiver (hscanned.trans hnone)
      · cases available with
        | false => cases herror
        | true => exact hanswered hat hstep hq
    · exact h.free q hq hmem
  | retired call row msgId rest adopted adopted' hat =>
    have hother : ∀ k, k ≠ row.id → (retireRow a.inbox row.id).get k = a.inbox.get k := by
      intro k hk
      rw [get_retireRow]
      cases a.inbox.get k with
      | none => rfl
      | some r => simp [hk]
    have hne : row.id ≠ id := fun hid => h.behind call ⟨row, by rw [hat]; exact List.mem_cons_self,
      hid⟩
    have hgo : Starved stubborn (a.setPass call (.goOn rest adopted')) id :=
      h.goOn rfl h.free rfl (h.rest (by rw [hat]; rfl))
    refine ⟨⟨?_, hgo.free, hgo.behind, hgo.unenqueued⟩, hother id hne.symm⟩
    intro q hq
    have hq' : q ≠ row.id := fun heq => h.unenqueued call row msgId rest adopted hat (heq ▸ hq)
    obtain ⟨r, hget, hr⟩ := h.waiting q hq
    exact ⟨r, (hother q hq').trans hget, hr⟩
  | crashed call =>
    refine ⟨h.kill rfl h.free ?_, rfl⟩
    intro call'
    obtain ⟨rfl, hset⟩ | ⟨-, hset⟩ := setPass_pass_cases (a := a) call call' (a.pass call).kill
    · exact .inr hset
    · exact .inl hset
  | restarted =>
    exact ⟨h.kill rfl (fun _ _ => List.not_mem_nil) fun call => .inr rfl, rfl⟩

/-- So it is never adopted. -/
theorem Starved.run (h : Starved stubborn a id) (hs : Sound sha256 a) (hnodup : stubborn.Nodup)
    (hmany : (max 1 limit).toNat ≤ stubborn.length) (hbefore : ∀ q ∈ stubborn, q < id)
    (steps : List AdoptionStep)
    (hsteps : StepsSatisfy (Adoption.exec sha256 contentHash rejects limit) (Unanswered stubborn) a
      steps) :
    (Library.run (Adoption.exec sha256 contentHash rejects limit) a steps).inbox.get id =
      a.inbox.get id := by
  have hinv := run_invariant_of (Unanswered stubborn)
    (fun b => Sound sha256 b ∧ Starved stubborn b id ∧ b.inbox.get id = a.inbox.get id) ?_ a
    ⟨hs, h, rfl⟩ steps hsteps
  · exact hinv.2.2
  · rintro b step hstep ⟨hsb, hb, hsame⟩
    obtain ⟨hnext, hget⟩ := hb.exec hsb hnodup hmany hbefore hstep
    exact ⟨hsb.exec step, hnext, hget.trans hsame⟩

end Starved

/-! ## Adoption -/

/-- Nothing is adopted yet, and no pass has begun. -/
structure Begins (a : Adoption) : Prop where
  keys : KeysUnique a.store
  unheld : ∀ id, (a.inbox.get id).isSome → a.store.getByIdempotencyKey (adoptedKey id) = none
  unadopted : ∀ id row, a.inbox.get id = some row → row.status ≠ .adopted
  ready : ∀ call, a.pass call = .ready
  unskipped : a.poisonIds = []

theorem Begins.sound (h : Begins a) : Sound sha256 a := by
  constructor
  · exact h.keys
  · intro id row hget r hr
    rw [h.unheld id (Option.isSome_iff_exists.mpr ⟨row, hget⟩)] at hr
    cases hr
  · intro id row hget hadopted
    exact (h.unadopted id row hget hadopted).elim
  · intro call
    rw [h.ready]
    exact passSound_of_rows_nil rfl

/-- In every state of every interleaving each row was enqueued once at most, and before it was
retired. In an endless one a row that the queue accepts is adopted, where fewer rows before it
than the limit keep failing; as many as the limit, never answered, keep it out in every one. -/
theorem adopted_once_unless_starved (sha256 contentHash : String → String) (rejects : Int → Bool)
    (limit : Int) (a : Adoption) (ha : Begins a) :
    (∀ steps, AdoptedOnce sha256 contentHash rejects limit a.store
      (Library.run (Adoption.exec sha256 contentHash rejects limit) a steps)) ∧
    (∀ (steps : Nat → AdoptionStep) (id : Int) (row : InboxRow),
      (∀ n, Fresh (Library.trace (Adoption.exec sha256 contentHash rejects limit) a steps n)
        (steps n)) →
      KeepsPassing sha256 contentHash rejects limit a steps →
      a.inbox.get id = some row → row.status = .pending → row.effectiveReceiver ≠ "" →
      rejects id = false → FewKeepFailing sha256 contentHash rejects limit a steps id →
        ∃ n row', (Library.trace (Adoption.exec sha256 contentHash rejects limit) a steps
          n).inbox.get id = some row' ∧ row'.status = .adopted) ∧
    (∀ (id : Int) (stubborn : List Int), stubborn.Nodup →
      (max 1 limit).toNat ≤ stubborn.length →
      (∀ q ∈ stubborn, q < id ∧ ∃ row, a.inbox.get q = some row ∧ row.status = .pending ∧
        row.effectiveReceiver ≠ "") →
      ∀ steps, StepsSatisfy (Adoption.exec sha256 contentHash rejects limit) (Unanswered stubborn) a
        steps →
          (Library.run (Adoption.exec sha256 contentHash rejects limit) a steps).inbox.get id =
            a.inbox.get id) := by
  have hs : Sound sha256 a := ha.sound
  refine ⟨?_, ?_, ?_⟩
  · intro steps
    have hinv : Sound sha256
          (Library.run (Adoption.exec sha256 contentHash rejects limit) a steps) ∧
        Accounted a.store (Library.run (Adoption.exec sha256 contentHash rejects limit) a steps) :=
      run_invariant (fun b => Sound sha256 b ∧ Accounted a.store b)
        (fun b step hb => ⟨hb.1.exec step, hb.2.exec hb.1 step⟩) a ⟨hs, fun m r h => .inl h⟩ steps
    exact hinv.1.adoptedOnce hinv.2
  · intro steps id row hfresh hpasses hget hpending hreceiver haccepts hfew
    refine hs.adopted_of_few hfresh hpasses ⟨?_, row, hget, hreceiver, .inl hpending⟩ haccepts hfew
    rw [ha.unskipped]
    exact List.not_mem_nil
  · intro id stubborn hnodup hmany hwaits steps hsteps
    have hstarved : Starved stubborn a id := by
      constructor
      · exact fun q hq => (hwaits q hq).2
      · intro q _
        rw [ha.unskipped]
        exact List.not_mem_nil
      · rintro call ⟨row, hrow, -⟩
        rw [ha.ready] at hrow
        cases hrow
      · intro call row msgId rest adopted hat
        rw [ha.ready] at hat
        cases hat
    exact hstarved.run hs hnodup hmany (fun q hq => (hwaits q hq).1) steps hsteps

/-- Two messages of a worker that predate the queue. -/
def legacyRow (id : Int) : InboxRow :=
  { id := id, senderId := "a1b2c3d4", receiverId := "cond-7f3a", message := "done" }

def twoRows : Adoption :=
  { inbox := ⟨[legacyRow 1, legacyRow 2], by decide⟩, store := Store.empty, poisonIds := []
    pass := fun _ => .ready }

theorem begins_twoRows : Begins twoRows := by
  constructor
  · intro m m' r r' hget
    cases hget
  · intro id _
    rfl
  · intro id row hget
    obtain ⟨hmem, -⟩ := (Table.get_eq_some_iff _ _ _).mp hget
    have hstatus : ∀ row ∈ twoRows.inbox.rows, row.status ≠ .adopted := by decide
    exact hstatus row hmem
  · intro call
    rfl
  · rfl

/-- A crash between the adoption of a row and its retirement; and a window of one row, for which the
queue does not answer. -/
theorem adopted_once_unless_starved_twoRows :
    AdoptedOnce (fun s => s) (fun s => s) (fun _ => false) 64 twoRows.store
      (Library.run (Adoption.exec (fun s => s) (fun s => s) (fun _ => false) 64) twoRows
        [.scan 0, .enqueue 0 true "01" 0, .crash 0, .scan 1, .enqueue 1 true "02" 1,
          .retire 1 true]) ∧
    (Library.run (Adoption.exec (fun s => s) (fun s => s) (fun _ => false) 1) twoRows
      [.scan 0, .enqueue 0 false "" 0]).inbox.get 2 = twoRows.inbox.get 2 := by
  refine ⟨(adopted_once_unless_starved _ _ _ 64 twoRows begins_twoRows).1 _, ?_⟩
  refine (adopted_once_unless_starved _ _ _ 1 twoRows begins_twoRows).2.2 2 [1]
    (List.nodup_singleton 1) (by decide) ?_ _ ⟨trivial, fun _ _ _ _ _ => rfl, trivial⟩
  intro q hq
  obtain rfl := List.mem_singleton.mp hq
  exact ⟨by decide, legacyRow 1, rfl, rfl, by decide⟩

/-- Pass after pass the queue fails on the first row. -/
def failingFirst (n : Nat) : AdoptionStep :=
  if n % 2 = 0 then .scan (n / 2) else .enqueue (n / 2) false "" 0

/-- `k` passes have returned and adopted nothing. -/
def passed (k : Nat) : Adoption :=
  { twoRows with pass := fun call => if call < k then .returned [] else .ready }

theorem candidates_passed (k : Nat) : (passed k).candidates 1 = [legacyRow 1] := rfl

/-- What the endless run looks like before and within its passes. -/
theorem trace_failingFirst (k : Nat) :
    Library.trace (Adoption.exec sha256 contentHash rejects 1) twoRows failingFirst (2 * k) =
        passed k ∧
      Library.trace (Adoption.exec sha256 contentHash rejects 1) twoRows failingFirst (2 * k + 1) =
        (passed k).setPass k (.adopting [legacyRow 1] []) := by
  have hodd : ∀ k, Adoption.exec sha256 contentHash rejects 1 (passed k) (failingFirst (2 * k)) =
      (passed k).setPass k (.adopting [legacyRow 1] []) := by
    intro k
    have hlabel : failingFirst (2 * k) = .scan k := by
      unfold failingFirst
      rw [if_pos (by omega), Nat.mul_div_cancel_left k (by omega)]
    have hready : (passed k).pass k = .ready := if_neg (Nat.lt_irrefl k)
    rw [hlabel]
    simp only [Adoption.exec, hready, candidates_passed]
    rfl
  induction k with
  | zero => exact ⟨rfl, hodd 0⟩
  | succ k ih =>
    have heven : Library.trace (Adoption.exec sha256 contentHash rejects 1) twoRows failingFirst
        (2 * (k + 1)) = passed (k + 1) := by
      have hlabel : failingFirst (2 * k + 1) = .enqueue k false "" 0 := by
        unfold failingFirst
        rw [if_neg (by omega), show (2 * k + 1) / 2 = k by omega]
      have hreceiver : (legacyRow 1).effectiveReceiver ≠ "" := by decide
      rw [show 2 * (k + 1) = 2 * k + 1 + 1 by omega, trace_succ, ih.2, hlabel]
      simp only [Adoption.exec, setPass_self, if_neg hreceiver]
      show (((passed k).setPass k _).setPass k (.returned [])) = passed (k + 1)
      have hpass : Function.update (Function.update (passed k).pass k
          (.adopting [legacyRow 1] [])) k (.returned []) = (passed (k + 1)).pass := by
        funext call
        rw [Function.update_idem]
        by_cases hcall : call = k
        · subst hcall
          rw [Function.update_self]
          exact (if_pos (Nat.lt_succ_self call)).symm
        · rw [Function.update_of_ne hcall]
          have hiff : call < k ↔ call < k + 1 := by omega
          show (if call < k then Pass.returned [] else .ready) = if call < k + 1 then _ else _
          simp only [hiff]
      unfold setPass
      rw [hpass]
      rfl
    exact ⟨heven, by rw [trace_succ, heven]; exact hodd (k + 1)⟩

/-- The second row is never reached, though the queue would take it. -/
theorem second_row_starves :
    ¬ ∀ (sha256 contentHash : String → String) (rejects : Int → Bool) (limit : Int)
      (a : Adoption), Begins a → 1 ≤ limit →
      ∀ (steps : Nat → AdoptionStep) (id : Int) (row : InboxRow),
        (∀ n, Fresh (Library.trace (Adoption.exec sha256 contentHash rejects limit) a steps n)
          (steps n)) →
        KeepsPassing sha256 contentHash rejects limit a steps →
        a.inbox.get id = some row → row.status = .pending → row.effectiveReceiver ≠ "" →
        rejects id = false →
        (∀ n, ¬ Fails rejects
          (Library.trace (Adoption.exec sha256 contentHash rejects limit) a steps n) id (steps n)) →
          ∃ n row', (Library.trace (Adoption.exec sha256 contentHash rejects limit) a steps
            n).inbox.get id = some row' ∧ row'.status = .adopted := by
  intro hclaim
  have hstate : ∀ n, (∃ k, n = 2 * k) ∨ ∃ k, n = 2 * k + 1 := by
    intro n
    obtain heven | hodd := Nat.mod_two_eq_zero_or_one n
    · exact .inl ⟨n / 2, by omega⟩
    · exact .inr ⟨n / 2, by omega⟩
  have hlabel : ∀ k, failingFirst (2 * k) = .scan k := by
    intro k
    unfold failingFirst
    rw [if_pos (by omega), Nat.mul_div_cancel_left k (by omega)]
  have hlabel' : ∀ k, failingFirst (2 * k + 1) = .enqueue k false "" 0 := by
    intro k
    unfold failingFirst
    rw [if_neg (by omega), show (2 * k + 1) / 2 = k by omega]
  have hfresh : ∀ n, Fresh (Library.trace (Adoption.exec (fun s => s) (fun s => s) (fun _ => false)
      1) twoRows failingFirst n) (failingFirst n) := by
    intro n
    obtain ⟨k, rfl⟩ | ⟨k, rfl⟩ := hstate n
    · rw [hlabel]
      trivial
    · rw [(trace_failingFirst k).2, hlabel']
      rfl
  have hpasses : KeepsPassing (fun s => s) (fun s => s) (fun _ => false) 1 twoRows
      failingFirst := by
    intro start
    refine ⟨2 * start, 2 * (start + 1), start, [], by omega, by omega, hlabel start, ?_, ?_⟩
    · rw [(trace_failingFirst start).1]
      exact if_neg (Nat.lt_irrefl start)
    · rw [(trace_failingFirst (start + 1)).1]
      exact if_pos (Nat.lt_succ_self start)
  have hfine : ∀ n, ¬ Fails (fun _ => false) (Library.trace (Adoption.exec (fun s => s)
      (fun s => s) (fun _ => false) 1) twoRows failingFirst n) 2 (failingFirst n) := by
    intro n hfails
    obtain ⟨k, rfl⟩ | ⟨k, rfl⟩ := hstate n
    · rw [hlabel] at hfails
      cases hfails
    · rw [(trace_failingFirst k).2, hlabel'] at hfails
      obtain ⟨_, _, _, row, rest, adopted, hat, hid⟩ | ⟨_, _, _, _, row, rest, adopted, hat, hid⟩ :=
        hfails
      · rw [setPass_self] at hat
        cases (Pass.adopting.inj hat).1
        cases hid
      · rw [setPass_self] at hat
        cases (Pass.adopting.inj hat).1
        cases hid
  obtain ⟨n, row, hget, hadopted⟩ := hclaim (fun s => s) (fun s => s) (fun _ => false) 1 twoRows
    begins_twoRows le_rfl failingFirst 2 (legacyRow 2) hfresh hpasses rfl rfl (by decide) rfl hfine
  have hsame : (Library.trace (Adoption.exec (fun s => s) (fun s => s) (fun _ => false) 1) twoRows
      failingFirst n).inbox.get 2 = some (legacyRow 2) := by
    obtain ⟨k, rfl⟩ | ⟨k, rfl⟩ := hstate n
    · rw [(trace_failingFirst k).1]
      rfl
    · rw [(trace_failingFirst k).2]
      rfl
  cases hsame.symm.trans hget
  cases hadopted

end Adoption

end CliAgentOrchestrator.Wiring
