import CliAgentOrchestrator.Library.Trace
import CliAgentOrchestrator.Queue.Replay
import CliAgentOrchestrator.Wiring.Adoption

/-!
# Each row once

The key made of its id gives a row of the inbox one row of the queue, however often it is
enqueued, and a row is retired behind an enqueue only, whichever passes are on their way and
wherever they end.
-/

set_option autoImplicit false

namespace CliAgentOrchestrator.Wiring

open CliAgentOrchestrator.Core Library Queue Inbox

/-! ## Keys -/

theorem repr_nat_injective {m n : Nat} (h : m.repr = n.repr) : m = n := by
  have hdigits : Nat.toDigits 10 m = Nat.toDigits 10 n := by
    rw [← Nat.toList_repr, ← Nat.toList_repr, h]
  calc
    m = Nat.ofDigitChars 10 (Nat.toDigits 10 m) 0 := Nat.ofDigitChars_ten_toDigits.symm
    _ = Nat.ofDigitChars 10 (Nat.toDigits 10 n) 0 := by rw [hdigits]
    _ = n := Nat.ofDigitChars_ten_toDigits

/-- Digits have no sign. -/
theorem repr_nat_ne_minus (m : Nat) (s : String) : m.repr ≠ "-" ++ s := by
  intro h
  have hmem : '-' ∈ Nat.toDigits 10 m := by
    rw [← Nat.toList_repr, h, String.toList_append]
    exact List.mem_append_left _ (by decide)
  have hdigit := Nat.isDigit_of_mem_toDigits (by omega) (by omega) hmem
  cases hdigit

theorem repr_int_injective {m n : Int} (h : m.repr = n.repr) : m = n := by
  rw [Int.repr_eq_if, Int.repr_eq_if] at h
  by_cases hm : 0 ≤ m
  · by_cases hn : 0 ≤ n
    · rw [if_pos hm, if_pos hn] at h
      have hnat := repr_nat_injective h
      omega
    · rw [if_pos hm, if_neg hn] at h
      exact (repr_nat_ne_minus _ _ h).elim
  · by_cases hn : 0 ≤ n
    · rw [if_neg hm, if_pos hn] at h
      exact (repr_nat_ne_minus _ _ h.symm).elim
    · rw [if_neg hm, if_neg hn] at h
      have hnat := repr_nat_injective ((String.append_right_inj _).mp h)
      omega

theorem adoptedKey_injective {m n : Int} (h : adoptedKey m = adoptedKey n) : m = n :=
  repr_int_injective ((String.append_right_inj _).mp h)

section Enqueue

variable {sha256 contentHash : String → String} {rejects : Int → Bool} {available : Bool}
  {store store' : Store} {row : InboxRow} {newUlid msgId : String} {now : Int}

/-! ## One enqueue -/

/-- The draft that the adoption of a row makes. -/
theorem factDraft_adoption (contentHash : String → String)
    (hreceiver : row.effectiveReceiver ≠ "") :
    ∃ draft, factDraft (adoptedKey row.id) (adoptionFact contentHash row) row.id = some draft := by
  have hkey : adoptedKey row.id ≠ "" := append_ne_empty (by decide)
  exact ⟨_, dif_pos ⟨hkey, hreceiver⟩⟩

/-- An enqueue that succeeds ran on the store with the draft of the row. -/
theorem adoptEnqueue_eq_ok
    (h : adoptEnqueue sha256 rejects available store (adoptionFact contentHash row) newUlid now =
      .ok (some (msgId, store'))) :
    ∃ draft message,
      factDraft (adoptedKey row.id) (adoptionFact contentHash row) row.id = some draft ∧
        enqueue sha256 store draft newUlid now = .ok (message, store') ∧ available = true ∧
          message.msgId = msgId := by
  unfold adoptEnqueue adoptLegacyRow at h
  cases available with
  | false => cases h
  | true =>
    simp only [Bool.not_true, Bool.false_eq_true, if_false] at h
    split at h
    · cases h
    · next draft hdraft =>
      split at h
      · cases h
      · split at h
        · next message store₁ hok =>
          cases h
          exact ⟨draft, message, hdraft, hok, rfl, rfl⟩
        · cases h
        · cases h

/-- Where the queue answers and the row is none that it rejects, the enqueue succeeds: the key is
free, or the row that holds it holds the same body. -/
theorem adoptEnqueue_succeeds (hreceiver : row.effectiveReceiver ≠ "")
    (haccepts : rejects row.id = false) (hfresh : store.get newUlid = none)
    (hdigest : ∀ r, store.getByIdempotencyKey (adoptedKey row.id) = some r →
      r.payloadDigest = sha256 row.message) :
    ∃ msgId store', adoptEnqueue sha256 rejects true store (adoptionFact contentHash row) newUlid
      now = .ok (some (msgId, store')) := by
  obtain ⟨draft, hdraft⟩ := factDraft_adoption contentHash hreceiver
  obtain ⟨hkey, -, -, hpayload, -⟩ := factDraft_eq_some hdraft
  have hok : ∃ message store', enqueue sha256 store draft newUlid now = .ok (message, store') := by
    cases hheld : store.getByIdempotencyKey draft.idempotencyKey with
    | none => exact ⟨_, _, enqueue_fresh hheld hfresh⟩
    | some r =>
      have hsame : r.payloadDigest = sha256 draft.payload := by
        rw [hpayload]
        exact hdigest r (hkey ▸ hheld)
      exact ⟨_, _, enqueue_taken hheld hsame⟩
  obtain ⟨message, store', hok⟩ := hok
  refine ⟨message.msgId, store', ?_⟩
  have hdraft' : factDraft (adoptedKey (adoptionFact contentHash row).legacyMessageId)
      (adoptionFact contentHash row) (adoptionFact contentHash row).legacyMessageId = some draft :=
    hdraft
  have haccepts' : rejects (adoptionFact contentHash row).legacyMessageId = false := haccepts
  simp [adoptEnqueue, adoptLegacyRow, hdraft', haccepts', hok]

theorem keysUnique_of_enqueue {draft : EnqueueDraft} {message : QueueMessage}
    (hkeys : KeysUnique store)
    (h : enqueue sha256 store draft newUlid now = .ok (message, store')) : KeysUnique store' := by
  have hexec : KeysUnique (exec sha256 store _) := hkeys.exec (.enqueue draft newUlid now)
  rwa [exec, h] at hexec

/-- A key that is held is held by the same row behind an enqueue. -/
theorem held_of_enqueue {draft : EnqueueDraft} {message r : QueueMessage} {key : String}
    (hkeys : KeysUnique store) (h : enqueue sha256 store draft newUlid now = .ok (message, store'))
    (hheld : store.getByIdempotencyKey key = some r) :
    store'.getByIdempotencyKey key = some r := by
  obtain ⟨hget, rfl⟩ := getByIdempotencyKey_of_mem hheld
  obtain hsame | ⟨-, hnone, -⟩ := get_enqueue h r.msgId
  · exact getByIdempotencyKey_of_get (keysUnique_of_enqueue hkeys h) (hsame.trans hget)
  · rw [hnone] at hget
    cases hget

end Enqueue

/-! ## The passes -/

/-- The rows a pass has picked up and not dealt with. -/
def Pass.rows : Pass → List InboxRow
  | adopting rest _ => rest
  | retiring row _ rest _ => row :: rest
  | _ => []

@[simp] theorem rows_goOn (rest : List InboxRow) (adopted : List Adopted) :
    (Pass.goOn rest adopted).rows = rest := by
  unfold Pass.goOn
  cases rest with
  | _ => rfl

theorem rows_kill (pass : Pass) : pass.kill.rows = [] ∨ pass.kill = pass := by
  cases pass with
  | adopting | retiring => exact .inl rfl
  | _ => exact .inr rfl

theorem not_retiring_goOn (rest : List InboxRow) (adopted : List Adopted) :
    ∀ row msgId rest' adopted', Pass.goOn rest adopted ≠ .retiring row msgId rest' adopted' := by
  intro row msgId rest' adopted' h
  unfold Pass.goOn at h
  split at h <;> cases h

namespace Adoption

variable {sha256 contentHash : String → String} {rejects : Int → Bool} {limit : Int}
  {a : Adoption} {id : Int} {row : InboxRow}

@[simp] theorem setPass_inbox (call : Nat) (pass : Pass) :
    (a.setPass call pass).inbox = a.inbox := rfl

@[simp] theorem setPass_store (call : Nat) (pass : Pass) :
    (a.setPass call pass).store = a.store := rfl

@[simp] theorem setPass_poisonIds (call : Nat) (pass : Pass) :
    (a.setPass call pass).poisonIds = a.poisonIds := rfl

@[simp] theorem setPass_self (call : Nat) (pass : Pass) : (a.setPass call pass).pass call = pass :=
  Function.update_self ..

theorem setPass_of_ne {call call' : Nat} (h : call' ≠ call) (pass : Pass) :
    (a.setPass call pass).pass call' = a.pass call' :=
  Function.update_of_ne h ..

/-- What one step of the passes may do: pick rows up, enqueue one, drop one that failed, retire
one, or end a pass. -/
inductive Moved (sha256 contentHash : String → String) (rejects : Int → Bool) (limit : Int)
    (a : Adoption) : AdoptionStep → Adoption → Prop
  | kept (step : AdoptionStep) : Moved sha256 contentHash rejects limit a step a
  | scanned (call : Nat) (hready : a.pass call = .ready) :
      Moved sha256 contentHash rejects limit a (.scan call)
        (a.setPass call (.goOn (a.candidates limit) []))
  | unscanned (call : Nat) (hready : a.pass call = .ready) :
      Moved sha256 contentHash rejects limit a (.scanFails call) (a.setPass call (.returned []))
  | enqueued (call : Nat) (newUlid : String) (now : Int) (row : InboxRow) (rest : List InboxRow)
      (adopted : List Adopted) (msgId : String) (store : Store)
      (hat : a.pass call = .adopting (row :: rest) adopted)
      (hreceiver : row.effectiveReceiver ≠ "")
      (hok : adoptEnqueue sha256 rejects true a.store (adoptionFact contentHash row) newUlid now =
        .ok (some (msgId, store))) :
      Moved sha256 contentHash rejects limit a (.enqueue call true newUlid now)
        ({ a with store := store }.setPass call (.retiring row msgId rest adopted))
  | failed (call : Nat) (available : Bool) (newUlid : String) (now : Int) (row : InboxRow)
      (rest : List InboxRow) (adopted : List Adopted)
      (hat : a.pass call = .adopting (row :: rest) adopted)
      (hreceiver : row.effectiveReceiver ≠ "")
      (hnone : adoptEnqueue sha256 rejects available a.store (adoptionFact contentHash row) newUlid
        now = .ok none) :
      Moved sha256 contentHash rejects limit a (.enqueue call available newUlid now)
        (a.setPass call (.goOn rest adopted))
  | poisoned (call : Nat) (available : Bool) (newUlid : String) (now : Int) (row : InboxRow)
      (rest : List InboxRow) (adopted : List Adopted)
      (hat : a.pass call = .adopting (row :: rest) adopted)
      (hcause : row.effectiveReceiver = "" ∨
        ∃ e, adoptEnqueue sha256 rejects available a.store (adoptionFact contentHash row) newUlid
          now = .error e) :
      Moved sha256 contentHash rejects limit a (.enqueue call available newUlid now)
        ((a.poisoned row.id).setPass call (.goOn rest adopted))
  | retired (call : Nat) (row : InboxRow) (msgId : String) (rest : List InboxRow)
      (adopted adopted' : List Adopted) (hat : a.pass call = .retiring row msgId rest adopted) :
      Moved sha256 contentHash rejects limit a (.retire call true)
        ({ a with inbox := retireRow a.inbox row.id }.setPass call (.goOn rest adopted'))
  | unretired (call : Nat) (row : InboxRow) (msgId : String) (rest : List InboxRow)
      (adopted : List Adopted) (hat : a.pass call = .retiring row msgId rest adopted) :
      Moved sha256 contentHash rejects limit a (.retire call false)
        (a.setPass call (.goOn rest adopted))
  | crashed (call : Nat) :
      Moved sha256 contentHash rejects limit a (.crash call) (a.setPass call (a.pass call).kill)
  | restarted :
      Moved sha256 contentHash rejects limit a .restart
        { a with poisonIds := [], pass := fun call => (a.pass call).kill }

/-- What one step of the adoption does, by cases. -/
theorem moved (step : AdoptionStep) : Moved sha256 contentHash rejects limit a step
    (exec sha256 contentHash rejects limit a step) := by
  cases step with
  | scan call =>
    simp only [exec]
    split
    · next hready => exact .scanned call hready
    · exact .kept _
  | scanFails call =>
    simp only [exec]
    split
    · next hready => exact .unscanned call hready
    · exact .kept _
  | enqueue call available newUlid now =>
    simp only [exec]
    split
    · next row rest adopted hat =>
      split
      · next hnone => exact .poisoned call available newUlid now row rest adopted hat (.inl hnone)
      · next hreceiver =>
        split
        · next e herror =>
          exact .poisoned call available newUlid now row rest adopted hat (.inr ⟨e, herror⟩)
        · next hnone =>
          exact .failed call available newUlid now row rest adopted hat hreceiver hnone
        · next msgId store hok =>
          obtain ⟨-, -, -, -, rfl, -⟩ := adoptEnqueue_eq_ok hok
          exact .enqueued call newUlid now row rest adopted msgId store hat hreceiver hok
    · exact .kept _
  | retire call commits =>
    simp only [exec]
    split
    · next row msgId rest adopted hat =>
      cases commits with
      | true => exact .retired call row msgId rest adopted _ hat
      | false => exact .unretired call row msgId rest adopted hat
    · exact .kept _
  | crash call => exact .crashed call
  | restart => exact .restarted

/-! ## Each row once -/

/-- The row as the scan saw it: pending. -/
def asScanned (row : InboxRow) : InboxRow := { row with status := .pending }

/-- A pass that retires a row enqueued it, and what it picked up are rows of the inbox. -/
structure PassSound (inbox : Table InboxRow.id) (store : Store) (pass : Pass) : Prop where
  picked : ∀ row ∈ pass.rows, ∃ r, inbox.get row.id = some r ∧ asScanned r = row
  carried : ∀ row msgId rest adopted, pass = .retiring row msgId rest adopted →
    (store.getByIdempotencyKey (adoptedKey row.id)).isSome

/-- The queue's row under the key of an inbox row holds its body; a row that is adopted has
one. -/
structure Sound (sha256 : String → String) (a : Adoption) : Prop where
  keys : KeysUnique a.store
  digests : ∀ id row, a.inbox.get id = some row → ∀ r,
    a.store.getByIdempotencyKey (adoptedKey id) = some r → r.payloadDigest = sha256 row.message
  adopted : ∀ id row, a.inbox.get id = some row → row.status = .adopted →
    (a.store.getByIdempotencyKey (adoptedKey id)).isSome
  passes : ∀ call, PassSound a.inbox a.store (a.pass call)

/-- The row of the queue is the row of an inbox row. -/
def IsAdoptionOf (r : QueueMessage) (id : Int) : Prop :=
  r.idempotencyKey = adoptedKey id ∧ r.legacyMessageId = some id

/-- Whatever the queue holds beyond what it held before belongs to a row of the inbox; no row has
two, an adopted one has one, and a row that has one gets no other when it is enqueued again. -/
structure AdoptedOnce (sha256 contentHash : String → String) (rejects : Int → Bool) (limit : Int)
    (before : Store) (a : Adoption) : Prop where
  accounted : ∀ m r, a.store.get m = some r →
    before.get m = some r ∨ ∃ id, (a.inbox.get id).isSome ∧ IsAdoptionOf r id
  one : ∀ id m m' r r', a.store.get m = some r → a.store.get m' = some r' → IsAdoptionOf r id →
    IsAdoptionOf r' id → m = m'
  adopted : ∀ id row, a.inbox.get id = some row → row.status = .adopted →
    ∃ r, a.store.getByIdempotencyKey (adoptedKey id) = some r
  again : ∀ call row rest adopted, a.pass call = .adopting (row :: rest) adopted →
    (a.store.getByIdempotencyKey (adoptedKey row.id)).isSome →
      ∀ available newUlid now,
        (exec sha256 contentHash rejects limit a (.enqueue call available newUlid now)).store =
          a.store

theorem get_retireRow (t : Table InboxRow.id) (id k : Int) :
    (retireRow t id).get k = (t.get k).map fun r =>
      if k = id ∧ r.status = .pending then { r with status := .adopted } else r := by
  unfold retireRow
  rw [Table.get_updateKey]
  simp [statusPatch]

/-- A row behind a retirement is the row before it, up to its status. -/
theorem get_retireRow_eq_some {t : Table InboxRow.id} {k : Int} {r' : InboxRow}
    (h : (retireRow t id).get k = some r') :
    ∃ r, t.get k = some r ∧ asScanned r' = asScanned r ∧
      (r'.status = r.status ∨ k = id ∧ r.status = .pending ∧ r'.status = .adopted) := by
  rw [get_retireRow] at h
  obtain ⟨r, hget, rfl⟩ := Option.map_eq_some_iff.mp h
  refine ⟨r, hget, ?_⟩
  split
  · next hretires => exact ⟨rfl, .inr ⟨hretires.1, hretires.2, rfl⟩⟩
  · exact ⟨rfl, .inl rfl⟩

theorem retireRow_get_of_get {t : Table InboxRow.id} {k : Int} {r : InboxRow}
    (h : t.get k = some r) :
    ∃ r', (retireRow t id).get k = some r' ∧ asScanned r' = asScanned r := by
  rw [get_retireRow, h]
  refine ⟨_, rfl, ?_⟩
  dsimp only
  split <;> rfl

/-- What two states of the tables share for a pass: the rows it reads, and the keys that are
held. -/
structure Frame (inbox inbox' : Table InboxRow.id) (store store' : Store) : Prop where
  rows : ∀ k r, inbox.get k = some r → ∃ r', inbox'.get k = some r' ∧ asScanned r' = asScanned r
  held : ∀ key, (store.getByIdempotencyKey key).isSome → (store'.getByIdempotencyKey key).isSome

section PassSound

variable {inbox inbox' : Table InboxRow.id} {store store' : Store} {pass : Pass}

theorem PassSound.frame (h : PassSound inbox store pass) (hf : Frame inbox inbox' store store') :
    PassSound inbox' store' pass := by
  constructor
  · intro row hrow
    obtain ⟨r, hget, hrow⟩ := h.picked row hrow
    obtain ⟨r', hget', hsame⟩ := hf.rows _ _ hget
    exact ⟨r', hget', hsame.trans hrow⟩
  · intro row msgId rest adopted hretiring
    exact hf.held _ (h.carried row msgId rest adopted hretiring)

/-- A pass that goes on has fewer rows and retires none. -/
theorem passSound_goOn {rest : List InboxRow} (adopted : List Adopted)
    (h : ∀ row ∈ rest, ∃ r, inbox.get row.id = some r ∧ asScanned r = row) :
    PassSound inbox store (.goOn rest adopted) := by
  constructor
  · rw [rows_goOn]
    exact h
  · intro row msgId rest' adopted' hretiring
    exact (not_retiring_goOn rest adopted row msgId rest' adopted' hretiring).elim

/-- Nor does a pass that has none. -/
theorem passSound_of_rows_nil (h : pass.rows = []) : PassSound inbox store pass := by
  constructor
  · intro row hrow
    rw [h] at hrow
    cases hrow
  · rintro row msgId rest adopted rfl
    cases h

theorem PassSound.kill (h : PassSound inbox store pass) : PassSound inbox store pass.kill := by
  obtain hnil | hsame := rows_kill pass
  · exact passSound_of_rows_nil hnil
  · rw [hsame]
    exact h

/-- The rows behind the one that is dealt with. -/
theorem PassSound.rest (h : PassSound inbox store pass) {rest : List InboxRow}
    (hrows : pass.rows = row :: rest) (adopted : List Adopted) :
    PassSound inbox store (.goOn rest adopted) := by
  refine passSound_goOn adopted fun x hx => h.picked x ?_
  rw [hrows]
  exact List.mem_cons_of_mem row hx

theorem passSound_setPass {call : Nat} (hs : ∀ call, PassSound inbox store (a.pass call))
    (hpass : PassSound inbox store pass) (call' : Nat) :
    PassSound inbox store ((a.setPass call pass).pass call') := by
  by_cases hcall : call' = call
  · subst hcall
    rw [setPass_self]
    exact hpass
  · rw [setPass_of_ne hcall]
    exact hs call'

end PassSound

/-- A step that writes neither table is judged by the passes. -/
theorem Sound.ofTables {a' : Adoption} (hs : Sound sha256 a) (hinbox : a'.inbox = a.inbox)
    (hstore : a'.store = a.store) (hpasses : ∀ call, PassSound a.inbox a.store (a'.pass call)) :
    Sound sha256 a' := by
  constructor
  · rw [hstore]
    exact hs.keys
  · rw [hinbox, hstore]
    exact hs.digests
  · rw [hinbox, hstore]
    exact hs.adopted
  · rw [hinbox, hstore]
    exact hpasses

/-- What is picked up by a scan is in the inbox and pending. -/
theorem mem_candidates (h : row ∈ a.candidates limit) :
    a.inbox.get row.id = some row ∧ row.status = .pending ∧ row.id ∉ a.poisonIds := by
  have hmem := List.mem_of_mem_take h
  rw [List.mem_insertionSort, Table.mem_select_iff] at hmem
  obtain ⟨hget, helig⟩ := hmem
  simp only [Bool.and_eq_true, beq_iff_eq, Bool.not_eq_true', List.contains_eq_mem,
    decide_eq_false_iff_not] at helig
  exact ⟨hget, helig.1, helig.2⟩

theorem Sound.enqueued (hs : Sound sha256 a) {call : Nat} {newUlid msgId : String} {now : Int}
    {rest : List InboxRow} {adopted : List Adopted} {store : Store}
    (hat : a.pass call = .adopting (row :: rest) adopted)
    (hok : adoptEnqueue sha256 rejects true a.store (adoptionFact contentHash row) newUlid now =
      .ok (some (msgId, store))) :
    Sound sha256 ({ a with store := store }.setPass call (.retiring row msgId rest adopted)) := by
  obtain ⟨draft, message, hdraft, hrun, -, -⟩ := adoptEnqueue_eq_ok hok
  obtain ⟨hkey, -, -, hpayload, -⟩ := factDraft_eq_some hdraft
  have hpicked := (hs.passes call).picked
  rw [hat] at hpicked
  obtain ⟨r₀, hget₀, hrow₀⟩ := hpicked row List.mem_cons_self
  have hheld : ∀ key r, a.store.getByIdempotencyKey key = some r →
      store.getByIdempotencyKey key = some r := fun key r h => held_of_enqueue hs.keys hrun h
  have hframe : Frame a.inbox a.inbox a.store store := by
    constructor
    · intro k r hget
      exact ⟨r, hget, rfl⟩
    · intro key hsome
      obtain ⟨r, hr⟩ := Option.isSome_iff_exists.mp hsome
      rw [hheld key r hr]
      rfl
  have hown : (store.getByIdempotencyKey (adoptedKey row.id)).isSome := by
    obtain ⟨hmessage, hmessageKey, -, -⟩ := enqueue_spec hrun
    rw [← hkey, ← hmessageKey,
      getByIdempotencyKey_of_get (keysUnique_of_enqueue hs.keys hrun) hmessage]
    rfl
  constructor
  · exact keysUnique_of_enqueue hs.keys hrun
  · intro id x hx r hr
    obtain ⟨hget, hidem⟩ := getByIdempotencyKey_of_mem hr
    obtain hsame | ⟨-, -, hnew⟩ := get_enqueue hrun r.msgId
    · refine hs.digests id x hx r ?_
      rw [← hidem]
      exact getByIdempotencyKey_of_get hs.keys (hsame.symm.trans hget)
    · cases hnew.symm.trans hget
      have heq : row.id = id := adoptedKey_injective (hkey.symm.trans hidem)
      subst heq
      cases hget₀.symm.trans hx
      show sha256 draft.payload = sha256 r₀.message
      rw [hpayload]
      exact congrArg sha256 (congrArg InboxRow.message hrow₀).symm
  · intro id x hx hadopted
    exact hframe.held _ (hs.adopted id x hx hadopted)
  · refine passSound_setPass (fun call' => (hs.passes call').frame hframe) ⟨hpicked, ?_⟩
    · intro x msgId' rest' adopted' hretiring
      cases hretiring
      exact hown

theorem Sound.retired (hs : Sound sha256 a) {call : Nat} {msgId : String} {rest : List InboxRow}
    {adopted : List Adopted} (adopted' : List Adopted)
    (hat : a.pass call = .retiring row msgId rest adopted) :
    Sound sha256 ({ a with inbox := retireRow a.inbox row.id }.setPass call
      (.goOn rest adopted')) := by
  have hframe : Frame a.inbox (retireRow a.inbox row.id) a.store a.store :=
    ⟨fun k r hget => retireRow_get_of_get hget, fun key h => h⟩
  constructor
  · exact hs.keys
  · intro id x hx r hr
    obtain ⟨r₀, hget, hsame, -⟩ := get_retireRow_eq_some hx
    rw [hs.digests id r₀ hget r hr]
    have hmessage : (asScanned r₀).message = (asScanned x).message := by rw [hsame]
    exact congrArg sha256 hmessage
  · intro id x hx hadopted
    obtain ⟨r, hget, -, hstatus | ⟨rfl, -, -⟩⟩ := get_retireRow_eq_some hx
    · exact hs.adopted id r hget (hstatus.symm.trans hadopted)
    · exact (hs.passes call).carried row msgId rest adopted hat
  · refine passSound_setPass (fun call' => (hs.passes call').frame hframe) ?_
    exact ((hs.passes call).rest (by rw [hat]; rfl) adopted').frame hframe

theorem Sound.exec (hs : Sound sha256 a) (step : AdoptionStep) :
    Sound sha256 (exec sha256 contentHash rejects limit a step) := by
  have hmoved : Moved sha256 contentHash rejects limit a step _ := moved step
  generalize Adoption.exec sha256 contentHash rejects limit a step = a' at hmoved
  cases hmoved with
  | kept => exact hs
  | scanned call hready =>
    refine hs.ofTables rfl rfl (passSound_setPass hs.passes ?_)
    refine passSound_goOn [] fun x hx => ?_
    obtain ⟨hget, hpending, -⟩ := mem_candidates hx
    refine ⟨x, hget, ?_⟩
    unfold asScanned
    rw [← hpending]
  | unscanned call hready =>
    exact hs.ofTables rfl rfl (passSound_setPass hs.passes (passSound_of_rows_nil rfl))
  | enqueued call newUlid now row rest adopted msgId store hat hreceiver hok =>
    exact hs.enqueued hat hok
  | failed call _ _ _ _ rest adopted hat | poisoned call _ _ _ _ rest adopted hat
  | unretired call _ _ rest adopted hat =>
    exact hs.ofTables rfl rfl
      (passSound_setPass hs.passes ((hs.passes call).rest (by rw [hat]; rfl) adopted))
  | retired call row msgId rest adopted adopted' hat => exact hs.retired adopted' hat
  | crashed call =>
    exact hs.ofTables rfl rfl (passSound_setPass hs.passes (hs.passes call).kill)
  | restarted => exact hs.ofTables rfl rfl fun call => (hs.passes call).kill

theorem Sound.trace (hs : Sound sha256 a) (steps : Nat → AdoptionStep) (n : Nat) :
    Sound sha256 (trace (Adoption.exec sha256 contentHash rejects limit) a steps n) :=
  trace_invariant (Sound sha256) n.zero_le (fun k _ hs => hs.exec (steps k)) hs

/-- A key that is held keeps the store as it is. -/
theorem adoptEnqueue_store_of_held {store : Store} {available : Bool} {newUlid msgId : String}
    {now : Int} (hheld : (a.store.getByIdempotencyKey (adoptedKey row.id)).isSome)
    (hok : adoptEnqueue sha256 rejects available a.store (adoptionFact contentHash row) newUlid
      now = .ok (some (msgId, store))) : store = a.store := by
  obtain ⟨draft, message, hdraft, hrun, -, -⟩ := adoptEnqueue_eq_ok hok
  obtain ⟨hkey, -⟩ := factDraft_eq_some hdraft
  obtain ⟨-, -, -, ⟨-, hsame⟩ | ⟨hfree, -⟩⟩ := enqueue_spec hrun
  · exact hsame
  · rw [hkey] at hfree
    rw [hfree] at hheld
    cases hheld

/-- A row of the queue was there before or belongs to a row of the inbox. -/
def Accounted (before : Store) (a : Adoption) : Prop :=
  ∀ m r, a.store.get m = some r →
    before.get m = some r ∨ ∃ id, (a.inbox.get id).isSome ∧ IsAdoptionOf r id

theorem Accounted.exec {before : Store} (h : Accounted before a) (hs : Sound sha256 a)
    (step : AdoptionStep) :
    Accounted before (Adoption.exec sha256 contentHash rejects limit a step) := by
  have hmoved : Moved sha256 contentHash rejects limit a step _ := moved step
  generalize Adoption.exec sha256 contentHash rejects limit a step = a' at hmoved
  cases hmoved with
  | enqueued call newUlid now row rest adopted msgId store hat hreceiver hok =>
    intro m r hget
    obtain ⟨draft, message, hdraft, hrun, -, -⟩ := adoptEnqueue_eq_ok hok
    obtain ⟨hkey, -, -, -, hlegacy, -⟩ := factDraft_eq_some hdraft
    obtain hsame | ⟨-, -, hnew⟩ := get_enqueue hrun m
    · exact h m r (hsame ▸ hget)
    · cases hnew.symm.trans hget
      have hpicked := (hs.passes call).picked
      rw [hat] at hpicked
      obtain ⟨r₀, hget₀, -⟩ := hpicked row List.mem_cons_self
      exact .inr ⟨row.id, Option.isSome_iff_exists.mpr ⟨r₀, hget₀⟩, hkey, hlegacy⟩
  | retired call row msgId rest adopted adopted' hat =>
    intro m r hget
    obtain hold | ⟨id, hsome, his⟩ := h m r hget
    · exact .inl hold
    · refine .inr ⟨id, ?_, his⟩
      rw [setPass_inbox, get_retireRow, Option.isSome_map]
      exact hsome
  | _ => exact h

theorem Sound.adoptedOnce (hs : Sound sha256 a) {before : Store} (haccounted : Accounted before a) :
    AdoptedOnce sha256 contentHash rejects limit before a := by
  constructor
  · exact haccounted
  · intro id m m' r r' hr hr' his his'
    exact hs.keys m m' r r' hr hr' (his.1.trans his'.1.symm)
  · intro id row hrow hadopted
    exact Option.isSome_iff_exists.mp (hs.adopted id row hrow hadopted)
  · intro call row rest adopted hat hheld available newUlid now
    have hmoved : Moved sha256 contentHash rejects limit a
        (.enqueue call available newUlid now) _ := moved (.enqueue call available newUlid now)
    generalize Adoption.exec sha256 contentHash rejects limit a
      (.enqueue call available newUlid now) = a' at hmoved
    cases hmoved with
    | enqueued call newUlid now row' rest' adopted' msgId store hat' hreceiver hok =>
      obtain ⟨hrow, -⟩ := List.cons.inj (Pass.adopting.inj (hat.symm.trans hat')).1
      subst hrow
      exact adoptEnqueue_store_of_held hheld hok
    | _ => rfl

end Adoption

end CliAgentOrchestrator.Wiring
