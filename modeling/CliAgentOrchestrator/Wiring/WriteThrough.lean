import CliAgentOrchestrator.Wiring.Drafts

/-!
# Concurrent write-throughs

`write_through` reads the store twice, `find_recent_duplicate` then `next_surrogate_id`, and
writes it once, each call its own transaction. The surrogate read in the second becomes the
idempotency key of the third; two calls that read the same surrogate meet in the `enqueue` of
the later one, which tells them apart by payload alone.

Calls are numbered; `facts` gives each its fact. A move is one store operation of one call, so
a list of moves is an interleaving of any number of calls.
-/

set_option autoImplicit false

namespace CliAgentOrchestrator.Wiring

open CliAgentOrchestrator.Core Library Queue

/-- How far a call has come. -/
inductive Progress
  | called
  | windowClear
  | allocated (surrogate : Int)
  | suppressed (id : Int) (msgId : String)
  | enqueued (id : Int) (msgId : String)
  | fellBack
  /-- The caller inserted an inbox row instead. -/
  | inserted (id : Int)
deriving DecidableEq

/-- The store and every call on it. -/
structure Sends where
  store : Store
  progress : Nat → Progress

/-- No call has done anything yet. -/
def Sends.start (store : Store) : Sends := ⟨store, fun _ => .called⟩

/-- One call moves on. -/
def Sends.put (c : Sends) (call : Nat) (progress : Progress) (store : Store) : Sends :=
  ⟨store, Function.update c.progress call progress⟩

/-- The F475 window: a duplicate with an id is returned instead of enqueued.
SOURCE: app/delivery/wiring.py:173-186 -/
def windowCheck (s : Store) (fact : LegacyEnqueue) (now : Int) : Progress :=
  match findRecentDuplicate s fact.senderId fact.receiverId (fact.contentHash.getD "")
      deliveryDedupWindowS now fact.parkWarm fact.barrierId with
  | none => .windowClear
  | some duplicate =>
    match duplicate.legacyMessageId with
    | some id => .suppressed id duplicate.msgId
    | none => .windowClear

/-- Whatever `enqueue` raises, the caller falls back to the legacy insert.
SOURCE: app/delivery/wiring.py:189-214 -/
def enqueueFact (sha256 : String → String) (s : Store) (fact : LegacyEnqueue) (surrogate : Int)
    (newUlid : String) (now : Int) : Progress × Store :=
  match factDraft (liveKey surrogate) fact surrogate with
  | none => (.fellBack, s)
  | some draft =>
    match enqueue sha256 s draft newUlid now with
    | .ok (message, s') => (.enqueued surrogate message.msgId, s')
    | .error _ => (.fellBack, s)

/-- One store operation of one call; a call that is not at that point stays where it is. -/
inductive Move
  | findRecentDuplicate (call : Nat) (now : Int)
  | nextSurrogateId (call : Nat) (inboxMax : Option Int)
  | enqueue (call : Nat) (newUlid : String) (now : Int)

/-- SOURCE: app/delivery/wiring.py:144-214 -/
def advance (sha256 : String → String) (facts : Nat → LegacyEnqueue) (c : Sends) : Move → Sends
  | .findRecentDuplicate call now =>
    match c.progress call with
    | .called => c.put call (windowCheck c.store (facts call) now) c.store
    | _ => c
  | .nextSurrogateId call inboxMax =>
    match c.progress call with
    | .windowClear => c.put call (.allocated (nextSurrogateId c.store inboxMax)) c.store
    | _ => c
  | .enqueue call newUlid now =>
    match c.progress call with
    | .allocated surrogate =>
      let result := enqueueFact sha256 c.store (facts call) surrogate newUlid now
      c.put call result.1 result.2
    | _ => c

/-- Every call that enqueued has a row of its own, with its fact's sender, receiver and
payload. -/
structure OwnRows (facts : Nat → LegacyEnqueue) (c : Sends) : Prop where
  row : ∀ call id m, c.progress call = .enqueued id m →
    ∃ r, c.store.get m = some r ∧ r.senderId = (facts call).senderId ∧
      r.receiverId = (facts call).receiverId ∧ r.payload = (facts call).message
  own : ∀ call call' id id' m, c.progress call = .enqueued id m →
    c.progress call' = .enqueued id' m → call = call'

/-- What each `enqueue` needs to find: no row that holds the live key of the surrogate its call
read, with the digest of its call's text. -/
def KeyFree (sha256 : String → String) (facts : Nat → LegacyEnqueue) (c : Sends) : Move → Prop
  | .enqueue call _ _ =>
    ∀ surrogate, c.progress call = .allocated surrogate → (facts call).receiverId ≠ "" →
      ∀ r, c.store.getByIdempotencyKey (liveKey surrogate) = some r →
        r.payloadDigest ≠ sha256 (facts call).message
  | _ => True

variable {sha256 : String → String} {facts : Nat → LegacyEnqueue} {c : Sends} {s s' : Store}

@[simp] theorem Sends.put_store (c : Sends) (call : Nat) (progress : Progress) (store : Store) :
    (c.put call progress store).store = store := rfl

theorem Sends.put_progress (c : Sends) (call call' : Nat) (progress : Progress) (store : Store) :
    (c.put call progress store).progress call' =
      if call' = call then progress else c.progress call' := by
  unfold Sends.put
  simp only [Function.update_apply]

/-! ## One step -/

theorem windowCheck_ne (s : Store) (fact : LegacyEnqueue) (now : Int) :
    (∀ id m, windowCheck s fact now ≠ .enqueued id m) ∧
      ∀ n, windowCheck s fact now ≠ .allocated n := by
  unfold windowCheck
  split
  · simp
  · split <;> simp

/-- An enqueue that succeeds over a free key inserts the fact's row under the id it minted. -/
theorem enqueueFact_spec (sha256 : String → String) (s : Store) (fact : LegacyEnqueue)
    (surrogate : Int) (newUlid : String) (now : Int) :
    ((enqueueFact sha256 s fact surrogate newUlid now).1 = .fellBack ∧
      (enqueueFact sha256 s fact surrogate newUlid now).2 = s) ∨
    (∃ message, (enqueueFact sha256 s fact surrogate newUlid now).1 =
        .enqueued surrogate message.msgId ∧
      s.getByIdempotencyKey (liveKey surrogate) = some message ∧
      message.payloadDigest = sha256 fact.message ∧ fact.receiverId ≠ "" ∧
      (enqueueFact sha256 s fact surrogate newUlid now).2 = s) ∨
    (∃ draft, factDraft (liveKey surrogate) fact surrogate = some draft ∧
      (enqueueFact sha256 s fact surrogate newUlid now).1 = .enqueued surrogate newUlid ∧
      s.get newUlid = none ∧
      ∀ m, (enqueueFact sha256 s fact surrogate newUlid now).2.get m =
        if newUlid = m then some (draftRow sha256 draft newUlid now) else s.get m) := by
  unfold enqueueFact
  cases hdraft : factDraft (liveKey surrogate) fact surrogate with
  | none => exact .inl ⟨rfl, rfl⟩
  | some draft =>
    obtain ⟨hkey, hrecv, -, hpayload, -, -, -, -⟩ := factDraft_eq_some hdraft
    simp only
    cases henq : enqueue sha256 s draft newUlid now with
    | error e => exact .inl ⟨rfl, rfl⟩
    | ok result =>
      obtain ⟨message, s'⟩ := result
      simp only
      obtain ⟨hget, -, hdigest, ⟨hold, rfl⟩ | ⟨-, hid, rfl, rfl⟩⟩ := enqueue_spec henq
      · rw [hkey] at hold
        rw [hpayload] at hdigest
        refine .inr (.inl ⟨message, rfl, hold, hdigest, ?_, rfl⟩)
        rw [← hrecv]
        exact draft.receiverId_ne
      · exact .inr (.inr ⟨draft, rfl, rfl, hid, fun m => get_insert_row s _ hid m⟩)

/-- Seen from the store, an `enqueueFact` is an `enqueue` of the fact's draft. -/
theorem enqueueFact_store (sha256 : String → String) (s : Store) (fact : LegacyEnqueue)
    (surrogate : Int) (newUlid : String) (now : Int) :
    (enqueueFact sha256 s fact surrogate newUlid now).2 =
      match factDraft (liveKey surrogate) fact surrogate with
      | none => s
      | some draft => exec sha256 s (.enqueue draft newUlid now) := by
  unfold enqueueFact exec
  cases factDraft (liveKey surrogate) fact surrogate with
  | none => rfl
  | some draft =>
    simp only
    cases enqueue sha256 s draft newUlid now <;> rfl

/-- A move that enqueues nothing keeps every call's row. -/
theorem OwnRows.put (h : OwnRows facts c) {call : Nat} {progress : Progress}
    (hne : ∀ id m, progress ≠ .enqueued id m) : OwnRows facts (c.put call progress c.store) := by
  have hold : ∀ call' id m, (c.put call progress c.store).progress call' = .enqueued id m →
      c.progress call' = .enqueued id m := by
    intro call' id m hp
    rw [Sends.put_progress] at hp
    split at hp
    · exact absurd hp (hne id m)
    · exact hp
  refine ⟨?_, ?_⟩
  · intro call' id m hp
    exact h.row call' id m (hold call' id m hp)
  · intro call₁ call₂ id id' m h₁ h₂
    exact h.own call₁ call₂ id id' m (hold call₁ id m h₁) (hold call₂ id' m h₂)

/-- Over free keys every step keeps every call's row. -/
theorem OwnRows.advance (h : OwnRows facts c) (move : Move) (hfree : KeyFree sha256 facts c move) :
    OwnRows facts (advance sha256 facts c move) := by
  cases move with
  | findRecentDuplicate call now =>
    simp only [Wiring.advance]
    split
    · exact h.put (windowCheck_ne _ _ _).1
    · exact h
  | nextSurrogateId call inboxMax =>
    simp only [Wiring.advance]
    split
    · exact h.put (by simp)
    · exact h
  | enqueue call newUlid now =>
    simp only [Wiring.advance]
    split
    next surrogate hat =>
      obtain ⟨hres, hstore⟩ | ⟨message, -, hkey, hdigest, hrecv, -⟩ |
        ⟨draft, hdraft, hres, hid, hget⟩ :=
        enqueueFact_spec sha256 c.store (facts call) surrogate newUlid now
      · rw [hres, hstore]
        exact h.put (by simp)
      · exact absurd hdigest (hfree surrogate hat hrecv message hkey)
      · obtain ⟨-, hrecv, hsender, hpayload, -, -, -, -⟩ := factDraft_eq_some hdraft
        rw [hres]
        -- rows of earlier calls are where they were, and none is under the new id
        have hold : ∀ call' id m, call' ≠ call →
            (c.put call (.enqueued surrogate newUlid)
              (enqueueFact sha256 c.store (facts call) surrogate newUlid now).2).progress call' =
              .enqueued id m → c.progress call' = .enqueued id m ∧ newUlid ≠ m := by
          intro call' id m hne hp
          rw [Sends.put_progress, if_neg hne] at hp
          refine ⟨hp, ?_⟩
          rintro rfl
          obtain ⟨r, hr, -⟩ := h.row call' id _ hp
          rw [hid] at hr
          cases hr
        have hnew : ∀ id m, (c.put call (.enqueued surrogate newUlid)
              (enqueueFact sha256 c.store (facts call) surrogate newUlid now).2).progress call =
              .enqueued id m → newUlid = m := by
          intro id m hp
          rw [Sends.put_progress, if_pos rfl] at hp
          cases hp
          rfl
        refine ⟨?_, ?_⟩
        · intro call' id m hp
          rw [Sends.put_store, hget]
          by_cases hc : call' = call
          · subst hc
            rw [if_pos (hnew id m hp)]
            exact ⟨_, rfl, hsender, hrecv, hpayload⟩
          · obtain ⟨hp', hne⟩ := hold call' id m hc hp
            rw [if_neg hne]
            exact h.row call' id m hp'
        · intro call₁ call₂ id id' m h₁ h₂
          by_cases hc₁ : call₁ = call
          · by_cases hc₂ : call₂ = call
            · rw [hc₁, hc₂]
            · subst hc₁
              exact absurd (hnew id m h₁) (hold call₂ id' m hc₂ h₂).2
          · by_cases hc₂ : call₂ = call
            · subst hc₂
              exact absurd (hnew id' m h₂) (hold call₁ id m hc₁ h₁).2
            · exact h.own call₁ call₂ id id' m (hold call₁ id m hc₁ h₁).1 (hold call₂ id' m hc₂ h₂).1
    · exact h

/-! ## Where a taken key comes from -/

/-- Above every surrogate on record no live key is taken. -/
def LiveKeysFree (s : Store) : Prop :=
  ∀ n, (∀ m r k, s.get m = some r → r.legacyMessageId = some k → k < n) →
    s.getByIdempotencyKey (liveKey n) = none

/-- What a run of write-throughs from `s₀` can have made of the store. -/
structure Grown (s₀ : Store) (c : Sends) : Prop where
  /-- Every row that was not there at the start belongs to a call. -/
  origin : ∀ m r, c.store.get m = some r →
    s₀.get m = some r ∨ ∃ call id, c.progress call = .enqueued id m
  kept : ∀ m r, s₀.get m = some r → c.store.get m = some r
  /-- A surrogate in hand is above everything that was on record at the start. -/
  above : ∀ call n, c.progress call = .allocated n →
    ∀ m r k, s₀.get m = some r → r.legacyMessageId = some k → k < n

theorem Grown.put {s₀ : Store} (h : Grown s₀ c) {call : Nat} {progress : Progress}
    (hcall : ∀ id m, c.progress call ≠ .enqueued id m)
    (hnew : ∀ n, progress = .allocated n →
      ∀ m r k, s₀.get m = some r → r.legacyMessageId = some k → k < n) :
    Grown s₀ (c.put call progress c.store) := by
  refine ⟨?_, h.kept, ?_⟩
  · intro m r hget
    obtain hold | ⟨call', id, hp⟩ := h.origin m r hget
    · exact .inl hold
    · right
      refine ⟨call', id, ?_⟩
      rw [Sends.put_progress, if_neg]
      · exact hp
      · rintro rfl
        exact hcall id m hp
  · intro call' n hp
    rw [Sends.put_progress] at hp
    split at hp
    · exact hnew n hp
    · exact h.above call' n hp

/-- A move of a send adds to the store at most. -/
theorem Grown.advance {s₀ : Store} (h : Grown s₀ c) (move : Move) :
    Grown s₀ (advance sha256 facts c move) := by
  cases move with
  | findRecentDuplicate call now =>
    simp only [Wiring.advance]
    split
    · next hat => exact h.put (by simp [hat]) fun n hn => absurd hn ((windowCheck_ne _ _ _).2 n)
    · exact h
  | nextSurrogateId call inboxMax =>
    simp only [Wiring.advance]
    split
    · next hat =>
      refine h.put (by simp [hat]) ?_
      intro n hn m r k hget hk
      cases hn
      exact (lt_nextSurrogateId c.store inboxMax).1 m r k (h.kept m r hget) hk
    · exact h
  | enqueue call newUlid now =>
    simp only [Wiring.advance]
    split
    next surrogate hat =>
      obtain ⟨hres, hstore⟩ | ⟨message, hres, -, -, -, hstore⟩ | ⟨draft, -, hres, hid, hget⟩ :=
        enqueueFact_spec sha256 c.store (facts call) surrogate newUlid now
      · rw [hres, hstore]
        exact h.put (by simp [hat]) (by simp)
      · rw [hres, hstore]
        exact h.put (by simp [hat]) (by simp)
      · rw [hres]
        refine ⟨?_, ?_, ?_⟩
        · intro m r hm
          rw [Sends.put_store, hget] at hm
          by_cases hnew : newUlid = m
          · right
            refine ⟨call, surrogate, ?_⟩
            rw [Sends.put_progress, if_pos rfl, hnew]
          · rw [if_neg hnew] at hm
            obtain hold | ⟨call', id, hp⟩ := h.origin m r hm
            · exact .inl hold
            · right
              refine ⟨call', id, ?_⟩
              rw [Sends.put_progress, if_neg]
              · exact hp
              · rintro rfl
                rw [hat] at hp
                cases hp
        · intro m r hm
          rw [Sends.put_store, hget, if_neg]
          · exact h.kept m r hm
          · rintro rfl
            rw [h.kept _ r hm] at hid
            cases hid
        · intro call' n hp
          rw [Sends.put_progress] at hp
          split at hp
          · cases hp
          · exact h.above call' n hp
    · exact h

theorem factDraft_isSome {fact : LegacyEnqueue} (surrogate : Int) (hrecv : fact.receiverId ≠ "") :
    ∃ draft, factDraft (liveKey surrogate) fact surrogate = some draft := by
  unfold factDraft
  rw [dif_pos ⟨liveKey_ne_empty surrogate, hrecv⟩]
  exact ⟨_, rfl⟩

/-- An enqueue over a free key and a free id inserts its row. -/
theorem enqueueFact_fresh {fact : LegacyEnqueue} {draft : EnqueueDraft} {n : Int}
    {newUlid : String} {now : Int} (hdraft : factDraft (liveKey n) fact n = some draft)
    (hkey : s.getByIdempotencyKey (liveKey n) = none) (hid : s.get newUlid = none) :
    enqueueFact sha256 s fact n newUlid now = (.enqueued n newUlid,
      { s with deliveryMsg := s.deliveryMsg.insert (draftRow sha256 draft newUlid now) }) := by
  obtain ⟨hk, -⟩ := factDraft_eq_some hdraft
  rw [← hk] at hkey
  unfold enqueueFact
  rw [hdraft]
  simp only
  rw [enqueue_fresh hkey hid]
  rfl

/-- An enqueue under a taken key, of the text the row there has, returns that row. -/
theorem enqueueFact_taken {fact : LegacyEnqueue} {surrogate : Int} (newUlid : String) (now : Int)
    {r : QueueMessage} (hrecv : fact.receiverId ≠ "")
    (hkey : s.getByIdempotencyKey (liveKey surrogate) = some r)
    (hdigest : r.payloadDigest = sha256 fact.message) :
    (enqueueFact sha256 s fact surrogate newUlid now).1 = .enqueued surrogate r.msgId := by
  obtain ⟨draft, hdraft⟩ := factDraft_isSome surrogate hrecv
  obtain ⟨hk, -, -, hpayload, -, -, -, -⟩ := factDraft_eq_some hdraft
  rw [← hk] at hkey
  rw [← hpayload] at hdigest
  have henq : enqueue sha256 s draft newUlid now = .ok (r, s) := enqueue_taken hkey hdigest
  unfold enqueueFact
  simp only [hdraft, henq]

/-- Write-throughs keep their messages apart, in every state an interleaving passes through,
exactly when every `enqueue` of it finds its key free. -/
theorem ownRows_iff_keysFree (sha256 : String → String) (facts : Nat → LegacyEnqueue)
    (s₀ : Store) (hs₀ : LiveKeysFree s₀) (moves : List Move) :
    (∀ before after, moves = before ++ after →
        OwnRows facts (run (advance sha256 facts) (Sends.start s₀) before)) ↔
      StepsSatisfy (advance sha256 facts) (KeyFree sha256 facts) (Sends.start s₀) moves := by
  have hstart : OwnRows facts (Sends.start s₀) :=
    ⟨fun _ _ _ h => (nomatch h), fun _ _ _ _ _ h => (nomatch h)⟩
  constructor
  · intro hown
    rw [stepsSatisfy_iff]
    rintro before move after rfl
    cases move with
    | enqueue call newUlid now =>
      intro surrogate hat hrecv r hkey hdigest
      have hgrown : Grown s₀ (run (advance sha256 facts) (Sends.start s₀) before) :=
        run_invariant (Grown s₀) (fun c move h => h.advance move) (Sends.start s₀)
          ⟨fun _ _ h => .inl h, fun _ _ h => h, fun _ _ h => (nomatch h)⟩ before
      obtain ⟨hget, hkey'⟩ := getByIdempotencyKey_of_mem hkey
      -- the row under the key is not one of the first ones, so some call enqueued it
      obtain hold | ⟨call', id, hp⟩ := hgrown.origin _ r hget
      · have hfree := hs₀ surrogate fun m r k => hgrown.above call surrogate hat m r k
        have hmem := (s₀.deliveryMsg.mem_rows_iff r).mpr hold
        exact absurd (decide_eq_true hkey') (List.find?_eq_none.mp hfree r hmem)
      · have hnext := hown (before ++ [.enqueue call newUlid now]) after (by simp)
        rw [run_concat] at hnext
        have hne : call' ≠ call := by
          rintro rfl
          rw [hat] at hp
          cases hp
        have hres := enqueueFact_taken newUlid now hrecv hkey hdigest
        refine hne (hnext.own call' call id surrogate r.msgId ?_ ?_)
        · simp only [Wiring.advance, hat, Sends.put_progress, if_neg hne]
          exact hp
        · simp only [Wiring.advance, hat, Sends.put_progress, if_true]
          exact hres
    | _ => trivial
  · rintro hfree before after rfl
    rw [stepsSatisfy_append] at hfree
    exact run_invariant_of (KeyFree sha256 facts) (OwnRows facts)
      (fun c move hmove h => h.advance move hmove) (Sends.start s₀) hstart before hfree.1

theorem liveKeysFree_empty : LiveKeysFree Store.empty := fun _ _ => rfl

/-- One worker sends the same line to two seats. -/
def sameLine : Nat → LegacyEnqueue
  | 0 => { receiverId := "mb_one", senderId := "worker", message := "done" }
  | _ => { receiverId := "mb_two", senderId := "worker", message := "done" }

/-- Two sends of one line, one after the other. -/
theorem ownRows_iff_keysFree_sameLine :
    (∀ before after, [Move.findRecentDuplicate 0 0, .nextSurrogateId 0 none, .enqueue 0 "01" 0,
        .findRecentDuplicate 1 0, .nextSurrogateId 1 none, .enqueue 1 "02" 0] = before ++ after →
        OwnRows sameLine (run (advance id sameLine) (Sends.start Store.empty) before)) ↔
      StepsSatisfy (advance id sameLine) (KeyFree id sameLine) (Sends.start Store.empty)
        [.findRecentDuplicate 0 0, .nextSurrogateId 0 none, .enqueue 0 "01" 0,
          .findRecentDuplicate 1 0, .nextSurrogateId 1 none, .enqueue 1 "02" 0] :=
  ownRows_iff_keysFree id sameLine Store.empty liveKeysFree_empty _

/-- Both calls read the surrogate before either enqueues. -/
def racing : List Move :=
  [.findRecentDuplicate 0 0, .findRecentDuplicate 1 0, .nextSurrogateId 0 none,
    .nextSurrogateId 1 none, .enqueue 0 "01" 0, .enqueue 1 "02" 0]

/-- The second call reports success and its message is nowhere: it was handed the row of the
first, addressed to the other seat. -/
theorem racing_not_ownRows :
    ¬ ∃ sha256, OwnRows sameLine (run (advance sha256 sameLine) (Sends.start Store.empty) racing) := by
  rintro ⟨sha256, h⟩
  have hnext : nextSurrogateId Store.empty none = 1 := rfl
  have hwindow : ∀ n, windowCheck Store.empty (sameLine n) 0 = .windowClear := by
    intro n
    cases n <;> rfl
  obtain ⟨s₁, hs₁⟩ : ∃ s₁, s₁ = (enqueueFact sha256 Store.empty (sameLine 0) 1 "01" 0).2 :=
    ⟨_, rfl⟩
  -- the first call inserts its row under the key of surrogate 1
  have hfirst : (enqueueFact sha256 Store.empty (sameLine 0) 1 "01" 0).1 = .enqueued 1 "01" ∧
      ∃ r, s₁.getByIdempotencyKey (liveKey 1) = some r ∧ r.msgId = "01" ∧
        r.payloadDigest = sha256 "done" := by
    obtain ⟨draft, hdraft⟩ : ∃ draft, factDraft (liveKey 1) (sameLine 0) 1 = some draft :=
      ⟨_, rfl⟩
    rw [hs₁, enqueueFact_fresh hdraft rfl rfl]
    cases hdraft
    exact ⟨rfl, _, rfl, rfl, rfl⟩
  obtain ⟨hres, r, hkey, hid, hdigest⟩ := hfirst
  have hsecond : (enqueueFact sha256 s₁ (sameLine 1) 1 "02" 0).1 = .enqueued 1 r.msgId :=
    enqueueFact_taken "02" 0 (by decide) hkey hdigest
  have hrun : (run (advance sha256 sameLine) (Sends.start Store.empty) racing).progress 0 =
        .enqueued 1 "01" ∧
      (run (advance sha256 sameLine) (Sends.start Store.empty) racing).progress 1 =
        .enqueued 1 "01" := by
    simp [racing, advance, Sends.start, Sends.put, Function.update, hwindow, hnext, hres, ← hs₁,
      hsecond, hid]
  exact absurd (h.own 0 1 1 1 "01" hrun.1 hrun.2) (by decide)

end CliAgentOrchestrator.Wiring
