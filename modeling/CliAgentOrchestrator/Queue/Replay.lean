import CliAgentOrchestrator.Queue.RowInvariant

/-!
# Enqueueing a draft again

A key is held by one row for the row's life, and the row keeps the digest of its body. A replay
is compared with that digest, so it is refused once the body has changed: a re-parenting writes
its prefix into the body.
-/

set_option autoImplicit false

namespace CliAgentOrchestrator.Queue

open CliAgentOrchestrator.Core Library

variable {sha256 : String → String} {s s' : Store} {m : String} {r r' : QueueMessage}

/-! ## One row for a key -/

/-- No key is held by two rows. -/
def KeysUnique (s : Store) : Prop :=
  ∀ m m' r r', s.get m = some r → s.get m' = some r' → r.idempotencyKey = r'.idempotencyKey →
    m = m'

theorem getByIdempotencyKey_of_get (hs : KeysUnique s) (h : s.get m = some r) :
    s.getByIdempotencyKey r.idempotencyKey = some r := by
  cases hfound : s.getByIdempotencyKey r.idempotencyKey with
  | none =>
    have hmem : r ∈ s.deliveryMsg.rows := (s.deliveryMsg.mem_rows_iff r).mpr (by
      rw [msgId_of_get h]
      exact h)
    have hnot := List.find?_eq_none.mp hfound r hmem
    simp at hnot
  | some found =>
    obtain ⟨hget, hkey⟩ := getByIdempotencyKey_of_mem hfound
    have hsame := hs _ _ _ _ hget h hkey
    rw [hsame, h] at hget
    exact hget.symm

/-- A row that is there is not inserted over, and what was not there is inserted under a free
key. -/
theorem KeysUnique.exec (hs : KeysUnique s) (op : Op) : KeysUnique (exec sha256 s op) := by
  -- where a row of the new table has its key from
  have hbefore : ∀ m r, (Queue.exec sha256 s op).get m = some r →
      (∃ r₀, s.get m = some r₀ ∧ r.idempotencyKey = r₀.idempotencyKey) ∨
      (op.minted = some m ∧ s.getByIdempotencyKey r.idempotencyKey = none) := by
    intro m r hget
    cases hold : s.get m with
    | none =>
      obtain ⟨draft, now, rfl, rfl, -⟩ := inserted_of_exec hold hget
      exact .inr ⟨rfl, keyFree_of_inserted hold hget⟩
    | some r₀ =>
      obtain ⟨l, hstep, -⟩ := rowStep_of_exec hold hget
      exact .inl ⟨r₀, rfl, congrArg FixedColumns.idempotencyKey hstep.fixedColumns⟩
  intro m m' r r' hget hget' hkey
  obtain ⟨r₀, hold, hsame⟩ | ⟨hminted, hfree⟩ := hbefore m r hget
  · obtain ⟨r₀', hold', hsame'⟩ | ⟨-, hfree'⟩ := hbefore m' r' hget'
    · exact hs _ _ _ _ hold hold' (hsame.symm.trans (hkey.trans hsame'))
    · rw [← hkey, hsame, getByIdempotencyKey_of_get hs hold] at hfree'
      cases hfree'
  · obtain ⟨r₀', hold', hsame'⟩ | ⟨hminted', -⟩ := hbefore m' r' hget'
    · rw [hkey, hsame', getByIdempotencyKey_of_get hs hold'] at hfree
      cases hfree
    · rw [hminted] at hminted'
      exact Option.some.inj hminted'

theorem keysUnique_run (sha256 : String → String) (ops : List Op) :
    KeysUnique (run (exec sha256) Store.empty ops) := by
  refine run_invariant KeysUnique (fun s op hs => hs.exec op) Store.empty ?_ ops
  intro m m' r r' hget
  cases hget

/-! ## The body of a row -/

/-- What an operation writes before the body of a row: the prefix of a re-parenting that
moves it. -/
def bodyPrefix (s : Store) (m : String) : Op → String
  | .reparent msgId newReceiverId _ messagePrefix =>
    if msgId = m ∧ (s.get m).any (fun r => !r.terminal && r.receiverId != newReceiverId) then
      messagePrefix
    else ""
  | _ => ""

theorem body_reofferRow (s : Store) (now : Int) (r : QueueMessage) :
    (reofferRow s now r).payload = r.payload ∧
      (reofferRow s now r).payloadDigest = r.payloadDigest := by
  obtain ⟨-, h⟩ | ⟨-, -, h⟩ | ⟨-, -, h⟩ := reofferRow_cases s now r <;> rw [h] <;> exact ⟨rfl, rfl⟩

/-- Only a re-parenting writes the body of a row. -/
theorem RowStep.body {op : Op} {l : Option DeadLetter} (hstep : RowStep sha256 s r op r' l)
    (hop : ∀ msgId newReceiverId now messagePrefix,
      op ≠ .reparent msgId newReceiverId now messagePrefix) :
    r'.payload = r.payload ∧ r'.payloadDigest = r.payloadDigest := by
  cases hstep with
  | reclaimed =>
    obtain ⟨h, -⟩ | ⟨h, -⟩ := reclaimRow_cases s _ r
    · rw [h]
      exact body_reofferRow s _ r
    · rw [h]
      exact body_reofferRow s _ r
  | @settled _ state now _ attempts _ _ _ _ =>
    unfold settleRow
    cases attempts <;> split <;> exact ⟨rfl, rfl⟩
  | moved _ => exact absurd rfl (hop _ _ _ _)
  | _ => exact ⟨rfl, rfl⟩

/-- Every row holds the digest of its body. -/
theorem payloadDigest_of_run (ops : List Op)
    (h : (run (exec sha256) Store.empty ops).get m = some r) :
    r.payloadDigest = sha256 r.payload := by
  refine run_rows (P := fun r => r.payloadDigest = sha256 r.payload) (fun _ _ _ => rfl) ?_ ops h
  intro s r r' op l hstep hdigest
  by_cases hop : ∃ msgId newReceiverId now messagePrefix,
      op = .reparent msgId newReceiverId now messagePrefix
  · obtain ⟨msgId, newReceiverId, now, messagePrefix, rfl⟩ := hop
    cases hstep with
    | kept _ => exact hdigest
    | ended hcall => cases hcall
    | moved _ => rfl
  · obtain ⟨hpayload, hsame⟩ := hstep.body
      (fun msgId newReceiverId now messagePrefix he => hop ⟨_, _, _, _, he⟩)
    rw [hpayload, hsame, hdigest]

/-- One operation puts its prefix before the body. -/
theorem payload_of_exec {op : Op} (h : s.get m = some r)
    (h' : (exec sha256 s op).get m = some r') : r'.payload = bodyPrefix s m op ++ r.payload := by
  cases op with
  | reparent msgId newReceiverId now messagePrefix =>
    have hspec := (reparent_spec sha256 s msgId newReceiverId now messagePrefix).1 m
    rw [show (reparent sha256 s msgId newReceiverId now messagePrefix).2.get m = some r' from h', h,
      Option.map_some] at hspec
    cases hspec
    simp only [bodyPrefix]
    rw [h]
    by_cases hmoves : m = msgId ∧ r.terminal = false ∧ r.receiverId ≠ newReceiverId
    · obtain ⟨rfl, hlive, hother⟩ := hmoves
      rw [if_pos ⟨rfl, hlive, hother⟩, if_pos]
      · rfl
      · simp [hlive, hother]
    · rw [if_neg hmoves, if_neg]
      · exact String.empty_append.symm
      · rintro ⟨rfl, hany⟩
        simp only [Option.any_some, Bool.and_eq_true, Bool.not_eq_true', bne_iff_ne] at hany
        exact hmoves ⟨rfl, hany⟩
  | _ =>
    obtain ⟨l, hstep, -⟩ := rowStep_of_exec h h'
    obtain ⟨hpayload, -⟩ := hstep.body (by simp)
    rw [hpayload]
    exact String.empty_append.symm

/-- The operation leaves the body of the row as it is. -/
def KeepsBody (m : String) (s : Store) (op : Op) : Prop := bodyPrefix s m op = ""

instance (m : String) (s : Store) (op : Op) : Decidable (KeepsBody m s op) := by
  unfold KeepsBody
  infer_instance

theorem length_le_of_run (ops : List Op) (hnew : m ∉ minted ops) (h : s.get m = some r)
    (h' : (run (exec sha256) s ops).get m = some r') : r.payload.length ≤ r'.payload.length := by
  induction ops generalizing s r with
  | nil =>
    rw [run_nil, h] at h'
    cases h'
    exact le_refl _
  | cons op ops ih =>
    obtain ⟨r₁, h₁, hrest, hrun⟩ := next_of_run hnew h'
    have hbody := payload_of_exec h h₁
    have hlater := ih hrest h₁ hrun
    rw [hbody, String.length_append] at hlater
    omega

/-- Along a run the body of a row is what it was exactly when every operation leaves it. -/
theorem payload_eq_iff_of_run (ops : List Op) (hnew : m ∉ minted ops) (h : s.get m = some r)
    (h' : (run (exec sha256) s ops).get m = some r') :
    r'.payload = r.payload ↔ StepsSatisfy (exec sha256) (KeepsBody m) s ops := by
  induction ops generalizing s r with
  | nil =>
    rw [run_nil, h] at h'
    cases h'
    exact ⟨fun _ => trivial, fun _ => rfl⟩
  | cons op ops ih =>
    obtain ⟨r₁, h₁, hrest, hrun⟩ := next_of_run hnew h'
    have hbody := payload_of_exec h h₁
    have hlater := ih hrest h₁ hrun
    by_cases hkeeps : KeepsBody m s op
    · have hsame : r₁.payload = r.payload := by
        rw [hbody, hkeeps]
        exact String.empty_append
      rw [← hsame, hlater]
      exact ⟨fun hall => ⟨hkeeps, hall⟩, fun hall => hall.2⟩
    · -- a body that has grown never shrinks back
      have hgrows := length_le_of_run ops hrest h₁ hrun
      have hpositive : 0 < (bodyPrefix s m op).length := by
        rw [Nat.pos_iff_ne_zero]
        intro hzero
        exact hkeeps (String.length_eq_zero_iff.mp hzero)
      rw [hbody, String.length_append] at hgrows
      refine ⟨?_, fun hall => absurd hall.1 hkeeps⟩
      intro hsame
      rw [hsame] at hgrows
      omega

/-! ## Replay -/

/-- A draft enqueued before is replayed, and another body under its key is refused; neither
writes a table. The other bodies are those among `bodies`. -/
structure ReplaySafe (sha256 : String → String) (bodies : Set String) (s : Store)
    (draft : EnqueueDraft) (m : String) : Prop where
  same : ∀ newUlid now, ∃ message, enqueue sha256 s draft newUlid now = .ok (message, s) ∧
    message.msgId = m
  other : ∀ draft' newUlid now, draft'.idempotencyKey = draft.idempotencyKey →
    draft'.payload ∈ bodies → draft'.payload ≠ draft.payload →
    enqueue sha256 s draft' newUlid now = .error .idempotencyConflict

/-- Under a key that is taken with another digest, `enqueue` raises. -/
theorem enqueue_conflict {draft : EnqueueDraft} {newUlid : String} {now : Int}
    (hkey : s.getByIdempotencyKey draft.idempotencyKey = some r)
    (hdigest : r.payloadDigest ≠ sha256 draft.payload) :
    enqueue sha256 s draft newUlid now = .error .idempotencyConflict := by
  unfold enqueue
  rw [insertMsg_taken hkey]
  simp [hkey, hdigest]

/-- A replay is safe exactly while the row under the key has the draft's body. -/
theorem replaySafe_iff_payload {bodies : Set String} {draft : EnqueueDraft}
    (hsha : Set.InjOn sha256 bodies) (hs : KeysUnique s) (hget : s.get m = some r)
    (hkey : r.idempotencyKey = draft.idempotencyKey) (hdigest : r.payloadDigest = sha256 r.payload)
    (hrow : r.payload ∈ bodies) (hdraft : draft.payload ∈ bodies) :
    ReplaySafe sha256 bodies s draft m ↔ r.payload = draft.payload := by
  have hfound : s.getByIdempotencyKey draft.idempotencyKey = some r := by
    rw [← hkey]
    exact getByIdempotencyKey_of_get hs hget
  constructor
  · intro hsafe
    obtain ⟨message, henqueue, -⟩ := hsafe.same "" 0
    by_contra hother
    rw [enqueue_conflict hfound] at henqueue
    · cases henqueue
    · rw [hdigest]
      exact fun hsame => hother (hsha hrow hdraft hsame)
  · intro hsame
    refine ⟨fun newUlid now => ⟨r, ?_, msgId_of_get hget⟩, ?_⟩
    · exact enqueue_taken hfound (by rw [hdigest, hsame])
    · intro draft' newUlid now hkey' hbody hother
      refine enqueue_conflict (hkey' ▸ hfound) ?_
      rw [hdigest, hsame]
      exact fun he => hother (hsha hdraft hbody he).symm

/-- A draft once accepted is replayed safely after a history, the row not pruned, exactly when no
operation of the history writes into its body. -/
theorem replaySafe_iff (sha256 : String → String) (bodies : Set String)
    (hsha : Set.InjOn sha256 bodies) (before after : List Op) (draft : EnqueueDraft)
    (newUlid : String) (now : Int) (message : QueueMessage) (s₁ : Store)
    (hmint : (minted (before ++ .enqueue draft newUlid now :: after)).Nodup)
    (haccepted : enqueue sha256 (run (exec sha256) Store.empty before) draft newUlid now =
      .ok (message, s₁))
    (hkept : ∃ r, (run (exec sha256) s₁ after).get message.msgId = some r ∧ r.payload ∈ bodies)
    (hdraft : draft.payload ∈ bodies) (hmessage : message.payload ∈ bodies) :
    ReplaySafe sha256 bodies (run (exec sha256) s₁ after) draft message.msgId ↔
      StepsSatisfy (exec sha256) (KeepsBody message.msgId) s₁ after := by
  obtain ⟨r, hget, hrow⟩ := hkept
  obtain ⟨hfirst, hkey, hdigest, -⟩ := enqueue_spec haccepted
  have hrun : run (exec sha256) Store.empty (before ++ [.enqueue draft newUlid now]) = s₁ := by
    rw [run_concat]
    simp only [exec, haccepted]
  have hend : run (exec sha256) Store.empty (before ++ .enqueue draft newUlid now :: after) =
      run (exec sha256) s₁ after := by
    rw [← hrun, ← run_append, List.append_assoc, List.singleton_append]
  have hmint' : (minted ((before ++ [.enqueue draft newUlid now]) ++ after)).Nodup := by
    rwa [List.append_assoc, List.singleton_append]
  have hnew : message.msgId ∉ minted after := notMem_minted_of_get hmint' (hrun.symm ▸ hfirst)
  have hmdigest : message.payloadDigest = sha256 message.payload :=
    payloadDigest_of_run (before ++ [.enqueue draft newUlid now]) (hrun.symm ▸ hfirst)
  have hbody : message.payload = draft.payload :=
    hsha hmessage hdraft (hmdigest.symm.trans hdigest)
  have hfixed := run_fixedColumns after hnew hfirst hget
  have hrkey : r.idempotencyKey = draft.idempotencyKey :=
    (congrArg FixedColumns.idempotencyKey hfixed).trans hkey
  have hunique : KeysUnique (run (exec sha256) s₁ after) := by
    rw [← hend]
    exact keysUnique_run sha256 _
  have hrdigest : r.payloadDigest = sha256 r.payload :=
    payloadDigest_of_run (before ++ .enqueue draft newUlid now :: after) (hend.symm ▸ hget)
  rw [replaySafe_iff_payload hsha hunique hget hrkey hrdigest hrow hdraft, ← hbody]
  exact payload_eq_iff_of_run after hnew hfirst hget

/-- A draft as an adoption makes it. -/
def adoptedOnce : EnqueueDraft where
  idempotencyKey := "adopted-inbox:1"
  receiverId := "worker"
  payload := "done"

/-- The row is claimed, moved without a word and re-offered. -/
def movedQuietly : List Op :=
  [.claim "tick" 0 5 none, .reparent "01" "caller" 0 "", .reclaim 100000000]

/-- A row handed over without a prefix. -/
theorem replaySafe_iff_movedQuietly :
    ReplaySafe id Set.univ (run (exec id) (exec id Store.empty (.enqueue adoptedOnce "01" 0))
      movedQuietly) adoptedOnce "01" := by
  have hiff := replaySafe_iff id Set.univ Function.injective_id.injOn [] movedQuietly adoptedOnce
    "01" 0 (draftRow id adoptedOnce "01" 0) (exec id Store.empty (.enqueue adoptedOnce "01" 0))
    (by decide) rfl ⟨_, rfl, trivial⟩ trivial trivial
  exact hiff.mpr ⟨rfl, rfl, rfl, trivial⟩

/-- The prefix of a reaped terminal's messages. -/
def reapedMarker : String := "[released from worker (dev) — terminal reaped]\n"

/-- The row is re-parented as its terminal is reaped. -/
def reapedWhileOwed : List Op :=
  [.enqueue adoptedOnce "01" 0, .reparent "01" "caller" 0 reapedMarker]

/-- The adoption cannot be repeated once its row has been re-parented. -/
theorem reapedWhileOwed_not_replaySafe :
    ¬ ∃ sha256 : String → String, sha256 (reapedMarker ++ "done") ≠ sha256 "done" ∧
      ReplaySafe sha256 Set.univ (run (exec sha256) Store.empty reapedWhileOwed) adoptedOnce
        "01" := by
  rintro ⟨sha256, hsha, hsafe⟩
  have hget : (run (exec sha256) Store.empty reapedWhileOwed).get "01" =
      some (reparentRow sha256 "caller" reapedMarker (draftRow sha256 adoptedOnce "01" 0)) := by
    unfold reapedWhileOwed
    rw [run_cons, exec_enqueue_fresh rfl rfl]
    rfl
  have hfound := getByIdempotencyKey_of_get (keysUnique_run sha256 reapedWhileOwed) hget
  obtain ⟨message, henqueue, -⟩ := hsafe.same "" 0
  rw [enqueue_conflict hfound hsha] at henqueue
  cases henqueue

end CliAgentOrchestrator.Queue
