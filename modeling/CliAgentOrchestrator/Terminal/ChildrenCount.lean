import CliAgentOrchestrator.Terminal.Children
import Mathlib.Data.List.Perm.Subperm

/-!
# The count of the children ledger

The comment above the two hooks takes each of them for one session. In the runs where that makes
no difference, where nobody writes between the read of a call and its merge, the entries are as
many as the registered children less the stopped ones, provided what the ledger has forgotten is
not asked for: an entry that an unmatched release popped, a token that sixteen others pushed out
of the ring.
-/

set_option autoImplicit false

namespace CliAgentOrchestrator.Terminal.Children

open Library

/-! ## One call on the ledger it reads -/

theorem pruneStaleChildren_eq_self {children : List Entry} {now maxAge : Int}
    (h : ∀ e ∈ children, now - e.startedAt ≤ maxAge) :
    pruneStaleChildren children now maxAge = children := by
  apply List.filter_eq_self.mpr
  intro e he
  have hyoung : ¬ maxAge < now - e.startedAt := by
    have := h e he
    omega
  simpa using hyoung

theorem Ledger.register_known {l : Ledger} {child : String}
    (h : l.children.any (·.id == child) = true) (startedAt : Int) :
    l.register child startedAt = l := by
  rw [Ledger.register, if_pos h]

theorem Ledger.register_new {l : Ledger} {child : String}
    (h : ¬ l.children.any (·.id == child) = true) (startedAt : Int) :
    l.register child startedAt = { l with children := l.children ++ [⟨child, startedAt⟩] } := by
  rw [Ledger.register, if_neg h]

theorem popOldest_sublist (children : List Entry) : (popOldest children).Sublist children := by
  unfold popOldest
  split
  · exact List.Sublist.refl _
  · exact List.eraseP_sublist

theorem length_popOldest {children : List Entry} (h : children ≠ []) :
    (popOldest children).length + 1 = children.length := by
  have hpos : 0 < children.length := List.length_pos_of_ne_nil h
  cases holdest : (children.map (·.startedAt)).min? with
  | none =>
    have hnil : children.map (·.startedAt) = [] := List.min?_eq_none_iff.mp holdest
    exact absurd (List.map_eq_nil_iff.mp hnil) h
  | some oldest =>
    have hmem : oldest ∈ children.map (·.startedAt) := List.min?_mem holdest
    obtain ⟨e, he, hstart⟩ := List.mem_map.mp hmem
    have hlength := List.length_eraseP_of_mem (p := fun e => e.startedAt == oldest) he
      (by simpa using hstart)
    have heq : popOldest children = children.eraseP fun e => e.startedAt == oldest := by
      rw [popOldest, holdest]
    rw [heq]
    omega

theorem Ledger.pop_sublist (l : Ledger) (childId : Option String) :
    (l.pop childId).Sublist l.children := by
  unfold Ledger.pop
  split
  · exact popOldest_sublist _
  · split
    · exact List.eraseP_sublist
    · exact popOldest_sublist _

/-- A release can never leave the count unchanged while entries exist. -/
theorem Ledger.length_pop {l : Ledger} (h : l.children ≠ []) (childId : Option String) :
    (l.pop childId).length + 1 = l.children.length := by
  have hpos : 0 < l.children.length := List.length_pos_of_ne_nil h
  cases childId with
  | none => exact length_popOldest h
  | some child =>
    by_cases hknown : l.children.any (·.id == child) = true
    · obtain ⟨e, he, hid⟩ := List.any_eq_true.mp hknown
      have hlength := List.length_eraseP_of_mem (p := fun e => e.id == child) he hid
      rw [Ledger.pop, if_pos hknown]
      omega
    · rw [Ledger.pop, if_neg hknown]
      exact length_popOldest h

theorem Ledger.release_known {l : Ledger} {token : String} (h : token ∈ l.released)
    (childId : Option String) : l.release childId (some token) = l := by
  have hring : (some token).any (l.released.contains ·) = true := by simpa using h
  rw [Ledger.release, if_pos hring]

theorem Ledger.release_new {l : Ledger} {token : String} (h : token ∉ l.released)
    (hne : l.children ≠ []) (childId : Option String) :
    l.release childId (some token) =
      ⟨l.pop childId, Recency.keepLast childrenReleasedRingMax (l.released ++ [token])⟩ := by
  have hring : ¬ (some token).any (l.released.contains ·) = true := by simpa using h
  have hsome : ¬ l.children.isEmpty = true := by simpa using hne
  rw [Ledger.release, if_neg hring]
  simp only [if_neg hsome]

/-! ## The runs -/

def State.ledger (s : State) : Ledger := readChildrenLedger s.terminal

section Runs

variable (calls : Nat → Call) (maxAge : Int) (childOf : String → String)

/-- The order in which hooks fire, and the age they find entries at: no entry is too old, a child
is not registered any more once it has stopped, and each stop carries the token of its own, for a
child that was registered. `childOf` is the child a token belongs to. -/
def InOrder (s : State) (step : Step) : Prop :=
  match s.calls step.call, step.session, calls step.call with
  | .found, .read now, _ => ∀ e ∈ s.ledger.children, now - e.startedAt ≤ maxAge
  | .computed _ _, .merge, .register child _ => ∀ token ∈ s.stopped, childOf token ≠ child
  | .computed _ _, .merge, .release _ none => False
  | .computed _ _, .merge, .release _ (some token) =>
    childOf token ∈ s.registered ∧
      ∀ other ∈ s.stopped, childOf other = childOf token → other = token
  | _, _, _ => True

/-- At the merge the row still has the ledger that the call read, with the entry of the child it
registers once more, and with the token of the stop it fires once more. -/
def Undisturbed (s : State) (step : Step) : Prop :=
  match s.calls step.call, step.session, calls step.call with
  | .computed read _, .merge, .register child _ =>
    s.ledger = read ∧ (child ∈ s.registered → read.children.any (·.id == child) = true)
  | .computed read _, .merge, .release _ (some token) =>
    s.ledger = read ∧ (token ∈ s.stopped → token ∈ read.released)
  | _, _, _ => True

/-- The step writes for a stop event that was written for before. -/
def Refires (s : State) (step : Step) : Prop :=
  match s.calls step.call, step.session, calls step.call with
  | .computed _ _, .merge, .release _ (some token) => token ∈ s.stopped
  | _, _, _ => False

instance (s : State) (step : Step) : Decidable (InOrder calls maxAge childOf s step) := by
  unfold InOrder
  split <;> infer_instance

instance (s : State) (step : Step) : Decidable (Undisturbed calls s step) := by
  unfold Undisturbed
  split <;> infer_instance

/-- The count is exact; the rest is what a step needs to keep it so. -/
structure Exact (s : State) : Prop where
  live : s.terminal.isSome
  registered_nodup : s.registered.Nodup
  children_nodup : (s.stopped.map childOf).Nodup
  known : ∀ e ∈ s.ledger.children, e.id ∈ s.registered
  ring : ∀ token ∈ s.ledger.released, token ∈ s.stopped
  stopped_registered : ∀ token ∈ s.stopped, childOf token ∈ s.registered
  count : s.ledger.children.length + s.stopped.length = s.registered.length
  writes : ∀ c read write, s.calls c = .computed read write → write = (calls c).apply read

variable {calls maxAge childOf} {s : State}

theorem Exact.put (h : Exact calls childOf s) {c : Nat} {phase : Phase}
    (hphase : ∀ read write, phase = .computed read write → write = (calls c).apply read) :
    Exact calls childOf (s.put c phase) where
  live := h.live
  registered_nodup := h.registered_nodup
  children_nodup := h.children_nodup
  known := h.known
  ring := h.ring
  stopped_registered := h.stopped_registered
  count := h.count
  writes := by
    intro d read write hd
    change Function.update s.calls c phase d = _ at hd
    by_cases hcd : d = c
    · subst hcd
      rw [Function.update_self] at hd
      exact hphase read write hd
    · rw [Function.update_of_ne hcd] at hd
      exact h.writes d read write hd

/-- The row after a merge: what the call writes, and the history of it. -/
def State.merged (s : State) (metadata : Metadata) (write : Ledger) (call : Call) : State :=
  { s with terminal := some { metadata with cao := some write } }.record call

/-- A registration merged into what was read. -/
theorem Exact.register (h : Exact calls childOf s) (metadata : Metadata) {child : String}
    (startedAt : Int)
    (hkeep : child ∈ s.registered → s.ledger.children.any (·.id == child) = true) :
    Exact calls childOf (s.merged metadata (s.ledger.register child startedAt)
      (.register child startedAt)) := by
  by_cases hreg : child ∈ s.registered
  · have hsame : s.registered.insert child = s.registered := List.insert_of_mem hreg
    have hledger := Ledger.register_known (hkeep hreg) startedAt
    refine ⟨rfl, ?_, h.children_nodup, ?_, ?_, ?_, ?_, h.writes⟩
    · show (s.registered.insert child).Nodup
      rw [hsame]
      exact h.registered_nodup
    · show ∀ e ∈ (s.ledger.register child startedAt).children, e.id ∈ s.registered.insert child
      rw [hsame, hledger]
      exact h.known
    · show ∀ token ∈ (s.ledger.register child startedAt).released, token ∈ s.stopped
      rw [hledger]
      exact h.ring
    · show ∀ token ∈ s.stopped, childOf token ∈ s.registered.insert child
      rw [hsame]
      exact h.stopped_registered
    · show (s.ledger.register child startedAt).children.length + s.stopped.length =
        (s.registered.insert child).length
      rw [hsame, hledger]
      exact h.count
  · have hcons : s.registered.insert child = child :: s.registered := List.insert_of_not_mem hreg
    have hnew : ¬ s.ledger.children.any (·.id == child) = true := by
      intro hany
      obtain ⟨e, he, hid⟩ := List.any_eq_true.mp hany
      have hknown := h.known e he
      rw [eq_of_beq hid] at hknown
      exact hreg hknown
    have hledger := Ledger.register_new hnew startedAt
    refine ⟨rfl, ?_, h.children_nodup, ?_, ?_, ?_, ?_, h.writes⟩
    · show (s.registered.insert child).Nodup
      rw [hcons]
      exact List.nodup_cons.mpr ⟨hreg, h.registered_nodup⟩
    · show ∀ e ∈ (s.ledger.register child startedAt).children, e.id ∈ s.registered.insert child
      rw [hcons, hledger]
      intro e he
      obtain he | he := List.mem_append.mp he
      · exact List.mem_cons_of_mem _ (h.known e he)
      · rw [List.mem_singleton.mp he]
        exact List.mem_cons_self
    · show ∀ token ∈ (s.ledger.register child startedAt).released, token ∈ s.stopped
      rw [hledger]
      exact h.ring
    · show ∀ token ∈ s.stopped, childOf token ∈ s.registered.insert child
      rw [hcons]
      intro token htoken
      exact List.mem_cons_of_mem _ (h.stopped_registered token htoken)
    · show (s.ledger.register child startedAt).children.length + s.stopped.length =
        (s.registered.insert child).length
      have hcount := h.count
      rw [hcons, hledger]
      simp only [List.length_append, List.length_cons, List.length_nil]
      omega

/-- The child of a first stop is in flight, so the ledger has an entry to pop. -/
theorem Exact.children_ne_nil (h : Exact calls childOf s) {token : String}
    (hreg : childOf token ∈ s.registered) (hnew : token ∉ s.stopped)
    (hown : ∀ other ∈ s.stopped, childOf other = childOf token → other = token) :
    s.ledger.children ≠ [] := by
  have hfresh : childOf token ∉ s.stopped.map childOf := by
    intro hmem
    obtain ⟨other, hother, heq⟩ := List.mem_map.mp hmem
    exact hnew (hown other hother heq ▸ hother)
  have hsub : childOf token :: s.stopped.map childOf ⊆ s.registered := by
    intro child hchild
    obtain rfl | hchild := List.mem_cons.mp hchild
    · exact hreg
    · obtain ⟨other, hother, rfl⟩ := List.mem_map.mp hchild
      exact h.stopped_registered other hother
  have hle : (childOf token :: s.stopped.map childOf).length ≤ s.registered.length :=
    (List.subperm_of_subset (List.nodup_cons.mpr ⟨hfresh, h.children_nodup⟩) hsub).length_le
  have hcount := h.count
  intro hnil
  rw [hnil] at hcount
  simp only [List.length_cons, List.length_map, List.length_nil] at hle hcount
  omega

/-- A release merged into what was read. -/
theorem Exact.release (h : Exact calls childOf s) (metadata : Metadata) {token : String}
    (childId : Option String) (hreg : childOf token ∈ s.registered)
    (hown : ∀ other ∈ s.stopped, childOf other = childOf token → other = token)
    (hkeep : token ∈ s.stopped → token ∈ s.ledger.released) :
    Exact calls childOf (s.merged metadata (s.ledger.release childId (some token))
      (.release childId (some token))) := by
  by_cases hstop : token ∈ s.stopped
  · have hsame : s.stopped.insert token = s.stopped := List.insert_of_mem hstop
    have hledger := Ledger.release_known (hkeep hstop) childId
    refine ⟨rfl, h.registered_nodup, ?_, ?_, ?_, ?_, ?_, h.writes⟩
    · show ((s.stopped.insert token).map childOf).Nodup
      rw [hsame]
      exact h.children_nodup
    · show ∀ e ∈ (s.ledger.release childId (some token)).children, e.id ∈ s.registered
      rw [hledger]
      exact h.known
    · show ∀ t ∈ (s.ledger.release childId (some token)).released, t ∈ s.stopped.insert token
      rw [hsame, hledger]
      exact h.ring
    · show ∀ t ∈ s.stopped.insert token, childOf t ∈ s.registered
      rw [hsame]
      exact h.stopped_registered
    · show (s.ledger.release childId (some token)).children.length +
        (s.stopped.insert token).length = s.registered.length
      rw [hsame, hledger]
      exact h.count
  · have hcons : s.stopped.insert token = token :: s.stopped := List.insert_of_not_mem hstop
    have hne := h.children_ne_nil hreg hstop hown
    have hunseen : token ∉ s.ledger.released := fun hring => hstop (h.ring token hring)
    have hledger := Ledger.release_new hunseen hne childId
    refine ⟨rfl, h.registered_nodup, ?_, ?_, ?_, ?_, ?_, h.writes⟩
    · show ((s.stopped.insert token).map childOf).Nodup
      rw [hcons]
      refine List.nodup_cons.mpr ⟨?_, h.children_nodup⟩
      intro hmem
      obtain ⟨other, hother, heq⟩ := List.mem_map.mp hmem
      exact hstop (hown other hother heq ▸ hother)
    · show ∀ e ∈ (s.ledger.release childId (some token)).children, e.id ∈ s.registered
      rw [hledger]
      intro e he
      exact h.known e ((s.ledger.pop_sublist childId).subset he)
    · show ∀ t ∈ (s.ledger.release childId (some token)).released, t ∈ s.stopped.insert token
      rw [hcons, hledger]
      intro t ht
      obtain ht | ht := List.mem_append.mp (List.mem_of_mem_drop ht)
      · exact List.mem_cons_of_mem _ (h.ring t ht)
      · rw [List.mem_singleton.mp ht]
        exact List.mem_cons_self
    · show ∀ t ∈ s.stopped.insert token, childOf t ∈ s.registered
      rw [hcons]
      intro t ht
      obtain rfl | ht := List.mem_cons.mp ht
      · exact hreg
      · exact h.stopped_registered t ht
    · show (s.ledger.release childId (some token)).children.length +
        (s.stopped.insert token).length = s.registered.length
      have hcount := h.count
      have hpop := Ledger.length_pop hne childId
      rw [hcons, hledger, List.length_cons]
      show (s.ledger.pop childId).length + (s.stopped.length + 1) = s.registered.length
      omega

variable (calls maxAge) in
/-- What a step can do while the terminal is there. -/
theorem exec_cases (step : Step) {metadata : Metadata} (hrow : s.terminal = some metadata) :
    exec calls maxAge s step = s ∨
      (s.calls step.call = .called ∧ exec calls maxAge s step = s.put step.call .found) ∨
      (∃ now, s.calls step.call = .found ∧ step.session = .read now ∧
        exec calls maxAge s step =
          s.put step.call (.computed s.ledger ((calls step.call).apply
            { s.ledger with children := pruneStaleChildren s.ledger.children now maxAge }))) ∨
      ∃ read write, s.calls step.call = .computed read write ∧ step.session = .merge ∧
        exec calls maxAge s step =
          (s.merged metadata write (calls step.call)).put step.call
            (.returned (some write.children.length)) := by
  obtain ⟨c, session⟩ := step
  unfold exec
  split
  · next hphase hsession =>
    refine .inr (.inl ⟨hphase, ?_⟩)
    rw [hrow]
    rfl
  · next now hphase hsession => exact .inr (.inr (.inl ⟨now, hphase, hsession, rfl⟩))
  · next read write hphase hsession =>
    refine .inr (.inr (.inr ⟨read, write, hphase, hsession, ?_⟩))
    rw [hrow]
    rfl
  · exact .inl rfl

/-- What a step is to keep: the invariant, and the entries where it writes for a stop again. -/
theorem Exact.exec (h : Exact calls childOf s) {step : Step}
    (horder : InOrder calls maxAge childOf s step) (hquiet : Undisturbed calls s step) :
    Exact calls childOf (exec calls maxAge s step) ∧
      (Refires calls s step → (exec calls maxAge s step).ledger.children = s.ledger.children) := by
  obtain ⟨metadata, hrow⟩ := Option.isSome_iff_exists.mp h.live
  obtain hstay | ⟨-, hfound⟩ | ⟨now, hphase, hsession, hread⟩ |
    ⟨read, write, hphase, hsession, hmerge⟩ := exec_cases calls maxAge step hrow
  · rw [hstay]
    exact ⟨h, fun _ => rfl⟩
  · rw [hfound]
    exact ⟨h.put (by simp), fun _ => rfl⟩
  · have hyoung : ∀ e ∈ s.ledger.children, now - e.startedAt ≤ maxAge := by
      simpa only [InOrder, hphase, hsession] using horder
    rw [hread, pruneStaleChildren_eq_self hyoung]
    refine ⟨h.put ?_, fun _ => rfl⟩
    rintro read write heq
    cases heq
    rfl
  · have hwrite := h.writes step.call read write hphase
    rw [hmerge]
    cases hcall : calls step.call with
    | register child startedAt =>
      simp only [Undisturbed, hphase, hsession, hcall] at hquiet
      obtain ⟨rfl, hkeep⟩ := hquiet
      rw [hcall] at hwrite
      subst hwrite
      refine ⟨(h.register metadata startedAt hkeep).put (by simp), ?_⟩
      simp [Refires, hphase, hsession, hcall]
    | release childId releaseToken =>
      cases releaseToken with
      | none =>
        simp only [InOrder, hphase, hsession, hcall] at horder
      | some token =>
        simp only [Undisturbed, hphase, hsession, hcall] at hquiet
        simp only [InOrder, hphase, hsession, hcall] at horder
        obtain ⟨rfl, hkeep⟩ := hquiet
        obtain ⟨hreg, hown⟩ := horder
        rw [hcall] at hwrite
        subst hwrite
        refine ⟨(h.release metadata childId hreg hown hkeep).put (by simp), ?_⟩
        intro hrefire
        simp only [Refires, hphase, hsession, hcall] at hrefire
        show (s.ledger.release childId (some token)).children = s.ledger.children
        rw [Ledger.release_known (hkeep hrefire)]

theorem exact_begin : Exact calls childOf begin where
  live := rfl
  registered_nodup := List.nodup_nil
  children_nodup := List.nodup_nil
  known := by simp [State.ledger, begin, readChildrenLedger]
  ring := by simp [State.ledger, begin, readChildrenLedger]
  stopped_registered := by simp [begin]
  count := rfl
  writes := by simp [begin]

/-! ## The history -/

/-- The call has merged its ledger and returned. -/
def State.Wrote (s : State) (c : Nat) : Prop := ∃ count, s.calls c = .returned (some count)

def Call.Registers (child : String) (call : Call) : Prop :=
  ∃ startedAt, call = .register child startedAt

def Call.Stops (token : String) (call : Call) : Prop :=
  ∃ childId, call = .release childId (some token)

variable (calls) in
/-- A call of the kind has written. -/
def State.Written (s : State) (kind : Call → Prop) : Prop := ∃ c, kind (calls c) ∧ s.Wrote c

/-- The history is that of the calls that wrote. -/
structure Recorded (calls : Nat → Call) (s : State) : Prop where
  live : s.terminal.isSome
  registered : ∀ child, child ∈ s.registered ↔ s.Written calls (Call.Registers child)
  stopped : ∀ token, token ∈ s.stopped ↔ s.Written calls (Call.Stops token)

theorem wrote_put_iff {c d : Nat} {phase : Phase} :
    (s.put c phase).Wrote d ↔
      (d = c ∧ ∃ count, phase = .returned (some count)) ∨ (d ≠ c ∧ s.Wrote d) := by
  show (∃ count, Function.update s.calls c phase d = .returned (some count)) ↔ _
  by_cases hd : d = c
  · subst hd
    simp [Function.update_self]
  · simp [hd, State.Wrote]

theorem wrote_merged (metadata : Metadata) (write : Ledger) (call : Call) (c : Nat) :
    (s.merged metadata write call).Wrote c ↔ s.Wrote c := by
  cases call with
  | register child startedAt => exact Iff.rfl
  | release childId releaseToken => cases releaseToken <;> exact Iff.rfl

theorem mem_registered_record (call : Call) (child : String) :
    child ∈ (s.record call).registered ↔ call.Registers child ∨ child ∈ s.registered := by
  cases call with
  | register other startedAt =>
    show child ∈ s.registered.insert other ↔ _
    simp [Call.Registers, List.mem_insert_iff, eq_comm]
  | release childId releaseToken => cases releaseToken <;> simp [State.record, Call.Registers]

theorem mem_stopped_record (call : Call) (token : String) :
    token ∈ (s.record call).stopped ↔ call.Stops token ∨ token ∈ s.stopped := by
  cases call with
  | register other startedAt => simp [State.record, Call.Stops]
  | release childId releaseToken =>
    cases releaseToken with
    | none => simp [State.record, Call.Stops]
    | some other =>
      show token ∈ s.stopped.insert other ↔ _
      simp [Call.Stops, List.mem_insert_iff, eq_comm]

/-- A session before the last one changes nothing that is recorded. -/
theorem Recorded.put (h : Recorded calls s) {c : Nat} {phase : Phase} (hopen : ¬ s.Wrote c)
    (hphase : ∀ count, phase ≠ .returned count) : Recorded calls (s.put c phase) := by
  have hwritten : ∀ kind, (s.put c phase).Written calls kind ↔ s.Written calls kind := by
    intro kind
    refine exists_congr fun d => and_congr_right fun _ => ?_
    rw [wrote_put_iff]
    constructor
    · rintro (⟨-, count, hreturned⟩ | ⟨-, hd⟩)
      · exact absurd hreturned (hphase _)
      · exact hd
    · intro hd
      exact .inr ⟨fun hdc => hopen (hdc ▸ hd), hd⟩
  exact ⟨h.live, fun child => (h.registered child).trans (hwritten _).symm,
    fun token => (h.stopped token).trans (hwritten _).symm⟩

theorem Recorded.merged (h : Recorded calls s) (metadata : Metadata) (write : Ledger)
    (c count : Nat) :
    Recorded calls ((s.merged metadata write (calls c)).put c (.returned (some count))) := by
  have hwritten : ∀ kind, State.Written calls
      ((s.merged metadata write (calls c)).put c (.returned (some count))) kind ↔
        kind (calls c) ∨ s.Written calls kind := by
    intro kind
    constructor
    · rintro ⟨d, hkind, hd⟩
      obtain ⟨rfl, -⟩ | ⟨-, hd⟩ := wrote_put_iff.mp hd
      · exact .inl hkind
      · exact .inr ⟨d, hkind, (wrote_merged metadata write _ d).mp hd⟩
    · rintro (hkind | ⟨d, hkind, hd⟩)
      · exact ⟨c, hkind, wrote_put_iff.mpr (.inl ⟨rfl, count, rfl⟩)⟩
      · refine ⟨d, hkind, wrote_put_iff.mpr ?_⟩
        by_cases hdc : d = c
        · exact .inl ⟨hdc, count, rfl⟩
        · exact .inr ⟨hdc, (wrote_merged metadata write _ d).mpr hd⟩
  refine ⟨?_, fun child => ?_, fun token => ?_⟩
  · show (State.record _ (calls c)).terminal.isSome
    cases calls c with
    | register child startedAt => rfl
    | release childId releaseToken => cases releaseToken <;> rfl
  · rw [hwritten, ← h.registered]
    exact mem_registered_record (calls c) child
  · rw [hwritten, ← h.stopped]
    exact mem_stopped_record (calls c) token

theorem Recorded.exec (h : Recorded calls s) (step : Step) :
    Recorded calls (exec calls maxAge s step) := by
  obtain ⟨metadata, hrow⟩ := Option.isSome_iff_exists.mp h.live
  obtain hstay | ⟨hphase, hfound⟩ | ⟨now, hphase, -, hread⟩ | ⟨read, write, -, -, hmerge⟩ :=
    exec_cases calls maxAge step hrow
  · rw [hstay]
    exact h
  · rw [hfound]
    exact h.put (by simp [State.Wrote, hphase]) (by simp)
  · rw [hread]
    exact h.put (by simp [State.Wrote, hphase]) (by simp)
  · rw [hmerge]
    exact h.merged metadata write step.call write.children.length

theorem recorded_run (steps : List Step) : Recorded calls (run (exec calls maxAge) begin steps) := by
  refine run_invariant (Recorded calls) (fun s step h => h.exec step) begin ?_ steps
  refine ⟨rfl, fun child => ?_, fun token => ?_⟩
  · simp [begin, State.Written, State.Wrote]
  · simp [begin, State.Written, State.Wrote]

/-! ## Whole runs -/

variable (calls maxAge childOf)

theorem exact_run (steps : List Step)
    (h : StepsSatisfy (exec calls maxAge)
      (fun s step => InOrder calls maxAge childOf s step ∧ Undisturbed calls s step) begin steps) :
    Exact calls childOf (run (exec calls maxAge) begin steps) :=
  run_invariant_of _ (Exact calls childOf) (fun _ _ hstep hs => (hs.exec hstep.1 hstep.2).1) begin
    exact_begin steps h

/-- In every run of hooks that fire in order, in which no merge writes over a ledger that is not
the one its call read and none asks for what the ledger has forgotten, the entries are as many as
the distinct children registered so far less the distinct stop events so far, and a stop event
fired again leaves the entries alone. -/
theorem children_count_exact (steps : List Step)
    (h : StepsSatisfy (exec calls maxAge)
      (fun s step => InOrder calls maxAge childOf s step ∧ Undisturbed calls s step)
      begin steps) :
    let final := run (exec calls maxAge) begin steps
    final.ledger.children.length = final.registered.length - final.stopped.length ∧
      final.stopped.length ≤ final.registered.length ∧
      (final.registered.Nodup ∧
        ∀ child, child ∈ final.registered ↔ final.Written calls (Call.Registers child)) ∧
      (final.stopped.Nodup ∧
        ∀ token, token ∈ final.stopped ↔ final.Written calls (Call.Stops token)) ∧
      ∀ before step after, steps = before ++ step :: after →
        Refires calls (run (exec calls maxAge) begin before) step →
        (run (exec calls maxAge) begin (before ++ [step])).ledger.children =
          (run (exec calls maxAge) begin before).ledger.children := by
  intro final
  have hexact : Exact calls childOf final := exact_run calls maxAge childOf steps h
  have hhistory : Recorded calls final := recorded_run steps
  have hcount := hexact.count
  refine ⟨by omega, by omega, ⟨hexact.registered_nodup, hhistory.registered⟩,
    ⟨hexact.children_nodup.of_map, hhistory.stopped⟩, ?_⟩
  rintro before step after rfl hrefire
  obtain ⟨hbefore, hstep, -⟩ := (stepsSatisfy_append _ begin before (step :: after)).mp h
  have hs := exact_run calls maxAge childOf before hbefore
  rw [run_concat]
  exact (hs.exec hstep.1 hstep.2).2 hrefire

end Runs

/-! ## Two subagents -/

/-- The three sessions of a call. -/
def sessions (c : Nat) (now : Int) : List Step := [⟨c, .lookup⟩, ⟨c, .read now⟩, ⟨c, .merge⟩]

/-- Two dispatches, the second fired twice, and the stop of the first, which carries an id no
entry has. -/
def twoChildren : Nat → Call
  | 0 => .register "a" 1
  | 1 | 2 => .register "b" 2
  | _ => .release (some "agent-1") (some "agent-1")

/-- One after the other, the stop fired twice as well. -/
theorem children_count_one_by_one :
    let steps := sessions 0 3 ++ sessions 1 4 ++ sessions 2 4 ++ sessions 3 5 ++ sessions 4 6
    (run (exec twoChildren 3600) begin steps).ledger.children.length = 2 - 1 := by
  intro steps
  have h := (children_count_exact twoChildren 3600 (fun _ => "a") steps (by decide +kernel)).1
  exact h.trans (by decide +kernel)

/-- Both dispatches read the empty ledger; the second merge takes the entry of the first with
it. -/
theorem registered_child_lost :
    let steps : List Step := [⟨0, .lookup⟩, ⟨1, .lookup⟩, ⟨0, .read 3⟩, ⟨1, .read 3⟩,
      ⟨0, .merge⟩, ⟨1, .merge⟩]
    let final := run (exec twoChildren 3600) begin steps
    StepsSatisfy (exec twoChildren 3600) (InOrder twoChildren 3600 fun _ => "a") begin steps ∧
      final.calls 0 = .returned (some 1) ∧ final.calls 1 = .returned (some 1) ∧
      final.ledger.children.length ≠ final.registered.length - final.stopped.length := by
  decide +kernel

end CliAgentOrchestrator.Terminal.Children
