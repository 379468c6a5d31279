import CliAgentOrchestrator.EventStream.SseBus
import CliAgentOrchestrator.Library.Machine

/-!
# What the client receives

A client that is connected, and whose subscriber has not overflowed, has every event that was
appended since it registered first or has it on its way (`OnItsWay`): with its publisher, on the
loop, in the queue, or in the replay. A new registration keeps that where no published event
stands at or before the last id the client received without having been received (`Clear`); two
publishers that publish in another order than they appended can leave one there.
-/

set_option autoImplicit false

namespace CliAgentOrchestrator.EventStream

open Library

/-! ## What is asked of a run -/

/-- The client has a subscriber. -/
def Client.On (client : Client) (h : Nat) : Prop :=
  client.phase = .registered h ∨ client.phase = .streaming h

/-- The events that were appended after the client registered first. -/
def World.due (w : World) : List Event :=
  match w.first with
  | none => []
  | some n => w.appended.drop n

/-- The events that were appended after the last one the client received. -/
def World.afterLast (w : World) : List Event :=
  match w.client.lastId with
  | none => []
  | some id => (sliceAfter id w.appended).getD []

/-- The client has the event, or will get it through this subscriber. -/
def World.OnItsWay (w : World) (h : Nat) (event : Event) : Prop :=
  event ∈ w.client.seen ∨ event ∈ w.unpublished ∨ (h, event) ∈ w.bus.scheduled ∨
    .event event ∈ (w.bus.sub h).queue ∨ event ∈ w.client.replaying ∨
    w.client.phase = .registered h ∧ event ∈ w.afterLast

/-- Everything appended is published, the loop has delivered it, and the client has read its
replay and its queue. -/
def World.Settled (w : World) : Prop :=
  ∃ h, w.client.phase = .streaming h ∧ w.client.replaying = [] ∧ (w.bus.sub h).queue = [] ∧
    (∀ event, (h, event) ∉ w.bus.scheduled) ∧ w.unpublished = []

/-- Nothing is lost and nothing comes twice. -/
structure Lossless (w : World) : Prop where
  way : ∀ h, w.client.On h → (w.bus.sub h).overflowed = false → ∀ event ∈ w.due,
    w.OnItsWay h event
  once : (w.client.seen.map (·.id)).Nodup
  settled : w.Settled → ∀ event ∈ w.due, w.client.seen.count event = 1

/-- Ids are new, and a replay comes before the events behind the last id have filled the ring or
expired. -/
def Documented (w : World) : Step → Prop
  | .append event => event.id ∉ w.appended.map (·.id)
  | .replay => w.client.phase ≠ .offline → w.afterLast.length < ringCapacity ∧
    ∀ event ∈ w.afterLast, selected w.now none none event = true
  | _ => True

/-- Where the client registers, every event it is due has yet to be published, or stands behind
the last id it received, or was received. -/
def Clear (w : World) : Step → Prop
  | .register => w.client.phase = .offline → ∀ event ∈ w.due,
    event ∈ w.unpublished ∨ event ∈ w.afterLast ∨ event ∈ w.client.seen
  | _ => True

instance (w : World) : ∀ step, Decidable (Documented w step)
  | .append _ => inferInstanceAs (Decidable (_ ∉ _))
  | .replay => inferInstanceAs (Decidable (_ → _ ∧ _))
  | .publish _ | .runCallback | .register | .receiveReplayed | .drain | .disconnect
  | .registerOther _ | .unregister _ | .tick _ => .isTrue trivial

instance (w : World) : ∀ step, Decidable (Clear w step)
  | .register => inferInstanceAs (Decidable (_ → ∀ _ ∈ w.due, _))
  | .append _ | .publish _ | .runCallback | .replay | .receiveReplayed | .drain | .disconnect
  | .registerOther _ | .unregister _ | .tick _ => .isTrue trivial

/-! ## The invariant -/

/-- Some part of the system holds the event. -/
def World.Holds (w : World) (event : Event) : Prop :=
  event ∈ w.unpublished ∨ event ∈ w.client.seen ∨ event ∈ w.client.replaying ∨
    (∃ h, (h, event) ∈ w.bus.scheduled) ∨ ∃ h, .event event ∈ (w.bus.sub h).queue

/-- The subscriber of the client. -/
structure Subscribed (w : World) (h : Nat) : Prop where
  mem : h ∈ w.bus.subs
  lt : h < w.bus.handles
  closes : (w.bus.sub h).overflowClose = true
  sentinel : (w.bus.sub h).overflowed = true → .overflowSentinel ∈ (w.bus.sub h).queue

structure Sound (w : World) : Prop where
  unique : (w.appended.map (·.id)).Nodup
  ring : w.log.buf = Recency.keepLast ringCapacity w.appended
  first : ∀ n ∈ w.first, n ≤ w.appended.length
  known : ∀ event, w.Holds event → event ∈ w.appended
  once : (w.client.seen.map (·.id)).Nodup
  subscribed : ∀ h, w.client.On h → Subscribed w h
  idle : ∀ h, w.client.phase = .registered h → w.client.replaying = []
  skipped : ∀ h, w.client.phase = .streaming h → ∀ id ∈ w.client.replayedIds,
    ∃ event, (event ∈ w.client.replaying ∨ event ∈ w.client.seen) ∧ event.id = id
  way : ∀ h, w.client.On h → (w.bus.sub h).overflowed = false → ∀ event ∈ w.due,
    w.OnItsWay h event

section Sound

variable {w : World}

/-- Two known events with one id are one event. -/
theorem Sound.eq_of_id (h : Sound w) {a b : Event} (ha : a ∈ w.appended) (hb : b ∈ w.appended)
    (hid : a.id = b.id) : a = b :=
  List.inj_on_of_nodup_map h.unique ha hb hid

theorem mem_seen_receive_of_mem {client : Client} {event other : Event}
    (h : other ∈ client.seen) : other ∈ (client.receive event).seen := by
  unfold Client.receive
  dsimp only
  split
  · exact h
  · exact List.mem_append_left _ h

theorem mem_of_mem_seen_receive {client : Client} {event other : Event}
    (h : other ∈ (client.receive event).seen) : other ∈ client.seen ∨ other = event := by
  unfold Client.receive at h
  dsimp only at h
  split at h
  · exact .inl h
  · obtain h | h := List.mem_append.mp h
    · exact .inl h
    · exact .inr (List.mem_singleton.mp h)

theorem nodup_seen_receive {client : Client} (h : (client.seen.map (·.id)).Nodup)
    (event : Event) : ((client.receive event).seen.map (·.id)).Nodup := by
  unfold Client.receive
  dsimp only
  split
  · exact h
  · next hnew =>
    rw [List.map_append, List.map_singleton, List.nodup_append]
    refine ⟨h, List.nodup_singleton _, ?_⟩
    intro a ha b hb
    obtain rfl := List.mem_singleton.mp hb
    rintro rfl
    exact hnew ha

/-- What the client receives it has. -/
theorem Sound.mem_seen_receive (h : Sound w) {event : Event} (hevent : event ∈ w.appended)
    {client : Client} (hclient : ∀ other ∈ client.seen, other ∈ w.appended) :
    event ∈ (client.receive event).seen := by
  unfold Client.receive
  dsimp only
  split
  · next hid =>
    obtain ⟨other, hother, hsame⟩ := List.mem_map.mp hid
    rw [← h.eq_of_id (hclient other hother) hevent hsame]
    exact hother
  · exact List.mem_append_right _ (List.mem_singleton_self _)

/-- The events behind the last id are still behind it when one more is appended. -/
theorem mem_sliceAfter_concat {id : String} {events : List Event} {event other : Event}
    (h : other ∈ (sliceAfter id events).getD []) :
    other ∈ (sliceAfter id (events ++ [event])).getD [] := by
  cases hslice : sliceAfter id events with
  | none =>
    rw [hslice] at h
    cases h
  | some rest =>
    obtain ⟨before, last, rfl, hid, hbefore⟩ := sliceAfter_eq_some hslice
    rw [hslice] at h
    rw [List.append_assoc, List.cons_append, sliceAfter_append hbefore last hid]
    exact List.mem_append_left _ h

/-- The replay returns every event behind the last id. -/
theorem Sound.mem_replay (h : Sound w) (hdocumented : Documented w .replay)
    (hphase : w.client.phase ≠ .offline) {event : Event} (hevent : event ∈ w.afterLast) :
    event ∈ w.replay := by
  obtain ⟨hlength, hfresh⟩ := hdocumented hphase
  have hselected := hfresh event hevent
  unfold World.afterLast at hevent hlength
  unfold World.replay
  cases hlast : w.client.lastId with
  | none =>
    rw [hlast] at hevent
    cases hevent
  | some id =>
    rw [hlast] at hevent hlength
    dsimp only at hevent hlength ⊢
    cases hslice : sliceAfter id w.appended with
    | none =>
      rw [hslice] at hevent
      cases hevent
    | some rest =>
      rw [hslice] at hevent hlength
      obtain ⟨before, last, happended, rfl, -⟩ := sliceAfter_eq_some hslice
      have hunique : (w.log.buf.map (·.id)).Nodup := by
        rw [h.ring]
        exact h.unique.sublist ((List.drop_sublist _ _).map _)
      have hring : w.log.buf =
          Recency.keepLast (ringCapacity - (last :: rest).length) before ++ last :: rest := by
        rw [h.ring, happended, Recency.keepLast_append_of_length_le]
        exact hlength
      exact mem_afterId hunique hring hevent hselected

/-! ### The publishers -/

/-- A new event is stored, and waits to be published. -/
theorem Sound.append (h : Sound w) (event : Event)
    (hnew : event.id ∉ w.appended.map (·.id)) : Sound (exec w (.append event)) where
  unique := by
    show ((w.appended ++ [event]).map (·.id)).Nodup
    rw [List.map_append, List.map_singleton, List.nodup_append]
    refine ⟨h.unique, List.nodup_singleton _, ?_⟩
    intro a ha b hb
    obtain rfl := List.mem_singleton.mp hb
    rintro rfl
    exact hnew ha
  ring := by
    unfold exec EventLog.append
    dsimp only
    rw [h.ring]
    exact Recency.keepLast_keepLast_append _ _ _
  first n hn := by
    show n ≤ (w.appended ++ [event]).length
    rw [List.length_append]
    exact Nat.le_add_right_of_le (h.first n hn)
  known other hholds := by
    show other ∈ w.appended ++ [event]
    obtain hun | hrest := hholds
    · obtain hun | hun := List.mem_append.mp hun
      · exact List.mem_append_left _ (h.known other (.inl hun))
      · exact List.mem_append_right _ hun
    · exact List.mem_append_left _ (h.known other (.inr hrest))
  once := h.once
  subscribed k hk := ⟨(h.subscribed k hk).mem, (h.subscribed k hk).lt, (h.subscribed k hk).closes,
    (h.subscribed k hk).sentinel⟩
  idle := h.idle
  skipped := h.skipped
  way k hk hopen other hdue := by
    have hother : other ∈ w.due ∨ other = event := by
      unfold World.due at hdue ⊢
      change other ∈ (match w.first with
        | none => []
        | some n => (w.appended ++ [event]).drop n) at hdue
      cases hfirst : w.first with
      | none =>
        rw [hfirst] at hdue
        cases hdue
      | some n =>
        rw [hfirst] at hdue
        dsimp only at hdue
        rw [List.drop_append_of_le_length (h.first n hfirst)] at hdue
        obtain hold | hlast := List.mem_append.mp hdue
        · exact .inl hold
        · exact .inr (List.mem_singleton.mp hlast)
    obtain hold | rfl := hother
    · obtain hseen | hun | hsched | hqueue | hreplay | ⟨hphase, hafter⟩ := h.way k hk hopen other hold
      · exact .inl hseen
      · exact .inr (.inl (List.mem_append_left _ hun))
      · exact .inr (.inr (.inl hsched))
      · exact .inr (.inr (.inr (.inl hqueue)))
      · exact .inr (.inr (.inr (.inr (.inl hreplay))))
      · refine .inr (.inr (.inr (.inr (.inr ⟨hphase, ?_⟩))))
        unfold World.afterLast at hafter ⊢
        change other ∈ (match w.client.lastId with
          | none => []
          | some id => (sliceAfter id (w.appended ++ [event])).getD [])
        cases hlast : w.client.lastId with
        | none =>
          rw [hlast] at hafter
          cases hafter
        | some id =>
          rw [hlast] at hafter
          exact mem_sliceAfter_concat hafter
    · exact .inr (.inl (List.mem_append_right _ (List.mem_singleton_self _)))

theorem mem_eraseIdx_or {events : List Event} {event other : Event} {i : Nat}
    (hi : events[i]? = some event) (h : other ∈ events) :
    other = event ∨ other ∈ events.eraseIdx i := by
  obtain ⟨hlt, rfl⟩ := List.getElem?_eq_some_iff.mp hi
  obtain ⟨j, hj, rfl⟩ := List.getElem_of_mem h
  by_cases hij : j = i
  · subst hij
    exact .inl rfl
  · exact .inr (List.mem_eraseIdx_iff_getElem.mpr ⟨j, hj, hij, rfl⟩)

theorem Sound.publish (h : Sound w) (i : Nat) : Sound (exec w (.publish i)) := by
  unfold exec
  dsimp only
  split
  · exact h
  · next event hi =>
    have hevent : event ∈ w.unpublished := List.mem_of_getElem? hi
    refine
      { unique := h.unique, ring := h.ring, first := h.first, once := h.once, idle := h.idle
        skipped := h.skipped, subscribed := ?_, known := ?_, way := ?_ }
    · intro other hholds
      obtain hun | hseen | hreplay | ⟨k, hsched⟩ | hqueue := hholds
      · exact h.known other (.inl (List.mem_of_mem_eraseIdx hun))
      · exact h.known other (.inr (.inl hseen))
      · exact h.known other (.inr (.inr (.inl hreplay)))
      · obtain hsched | hnew := List.mem_append.mp hsched
        · exact h.known other (.inr (.inr (.inr (.inl ⟨k, hsched⟩))))
        · obtain ⟨_, -, hsame⟩ := List.mem_map.mp hnew
          cases hsame
          exact h.known event (.inl hevent)
      · exact h.known other (.inr (.inr (.inr (.inr hqueue))))
    · intro k hk
      exact ⟨(h.subscribed k hk).mem, (h.subscribed k hk).lt, (h.subscribed k hk).closes,
        (h.subscribed k hk).sentinel⟩
    · intro k hk hopen other hdue
      obtain hseen | hun | hsched | hrest := h.way k hk hopen other hdue
      · exact .inl hseen
      · obtain rfl | hun := mem_eraseIdx_or hi hun
        · -- the subscriber of the client is among those that are fed
          refine .inr (.inr (.inl (List.mem_append_right _ ?_)))
          exact List.mem_map.mpr ⟨k, (h.subscribed k hk).mem, rfl⟩
        · exact .inr (.inl hun)
      · exact .inr (.inr (.inl (List.mem_append_left _ hsched)))
      · exact .inr (.inr (.inr hrest))

/-! ### The loop -/

/-- A delivery puts the event at the end, or drops it, or overflows. -/
theorem deliver_cases (sub : Subscriber) (event : Event) :
    sub.deliver event = { sub with queue := sub.queue ++ [.event event] } ∨
      sub.deliver event = sub ∧ (sub.overflowClose = true → sub.overflowed = true) ∨
      sub.deliver event =
        { sub with overflowed := true, queue := sub.queue.dropLast ++ [.overflowSentinel] } := by
  unfold Subscriber.deliver
  by_cases hfits : sub.queue.length < sseMaxQueueSize
  · exact .inl (if_pos hfits)
  rw [if_neg hfits]
  by_cases hcloses : sub.overflowClose = true
  · rw [if_neg (by simp [hcloses])]
    by_cases hover : sub.overflowed = true
    · exact .inr (.inl ⟨if_pos hover, fun _ => hover⟩)
    · exact .inr (.inr (if_neg hover))
  · exact .inr (.inl ⟨if_pos (by simpa using hcloses), fun h => absurd h hcloses⟩)

theorem mem_queue_deliver {sub : Subscriber} {event other : Event}
    (h : .event other ∈ (sub.deliver event).queue) : .event other ∈ sub.queue ∨ other = event := by
  obtain hput | ⟨hkept, -⟩ | hover := deliver_cases sub event
  · rw [hput] at h
    obtain h | h := List.mem_append.mp h
    · exact .inl h
    · cases List.mem_singleton.mp h
      exact .inr rfl
  · rw [hkept] at h
    exact .inl h
  · rw [hover] at h
    obtain h | h := List.mem_append.mp h
    · exact .inl (List.dropLast_subset _ h)
    · cases List.mem_singleton.mp h

theorem overflowClose_deliver (sub : Subscriber) (event : Event) :
    (sub.deliver event).overflowClose = sub.overflowClose := by
  obtain hput | ⟨hkept, -⟩ | hover := deliver_cases sub event
  · rw [hput]
  · rw [hkept]
  · rw [hover]

/-- An overflow leaves the sentinel in the queue. -/
theorem sentinel_deliver {sub : Subscriber} {event : Event}
    (hsub : sub.overflowed = true → .overflowSentinel ∈ sub.queue)
    (h : (sub.deliver event).overflowed = true) :
    .overflowSentinel ∈ (sub.deliver event).queue := by
  obtain hput | ⟨hkept, -⟩ | hover := deliver_cases sub event
  · rw [hput] at h ⊢
    exact List.mem_append_left _ (hsub h)
  · rw [hkept] at h ⊢
    exact hsub h
  · rw [hover]
    exact List.mem_append_right _ (List.mem_singleton_self _)

/-- A delivery that does not overflow puts the event at the end. -/
theorem queue_deliver_of_open {sub : Subscriber} {event : Event}
    (hcloses : sub.overflowClose = true) (h : (sub.deliver event).overflowed = false) :
    sub.overflowed = false ∧ (sub.deliver event).queue = sub.queue ++ [.event event] := by
  obtain hput | ⟨hkept, hdropped⟩ | hover := deliver_cases sub event
  · rw [hput] at h ⊢
    exact ⟨h, rfl⟩
  · rw [hkept, hdropped hcloses] at h
    cases h
  · rw [hover] at h
    cases h

/-- The scheduled callback puts its event into the queues. -/
theorem Sound.runCallback (h : Sound w) : Sound (exec w .runCallback) := by
  unfold exec SseBus.runCallback
  dsimp only
  cases hscheduled : w.bus.scheduled with
  | nil => exact h
  | cons head rest =>
    obtain ⟨k, event⟩ := head
    have hevent : event ∈ w.appended :=
      h.known event (.inr (.inr (.inr (.inl ⟨k, hscheduled ▸ List.mem_cons_self⟩))))
    refine
      { unique := h.unique, ring := h.ring, first := h.first, once := h.once, idle := h.idle
        skipped := h.skipped, subscribed := ?_, known := ?_, way := ?_ }
    · intro other hholds
      obtain hun | hseen | hreplay | ⟨j, hsched⟩ | ⟨j, hqueue⟩ := hholds
      · exact h.known other (.inl hun)
      · exact h.known other (.inr (.inl hseen))
      · exact h.known other (.inr (.inr (.inl hreplay)))
      · have hold : (j, other) ∈ w.bus.scheduled := hscheduled ▸ List.mem_cons_of_mem _ hsched
        exact h.known other (.inr (.inr (.inr (.inl ⟨j, hold⟩))))
      · by_cases hj : j = k
        · subst hj
          dsimp only at hqueue
          rw [Function.update_self] at hqueue
          obtain hold | rfl := mem_queue_deliver hqueue
          · exact h.known other (.inr (.inr (.inr (.inr ⟨j, hold⟩))))
          · exact hevent
        · dsimp only at hqueue
          rw [Function.update_of_ne hj] at hqueue
          exact h.known other (.inr (.inr (.inr (.inr ⟨j, hqueue⟩))))
    · intro j hj
      have hold := h.subscribed j hj
      by_cases hjk : j = k
      · subst hjk
        refine ⟨hold.mem, hold.lt, ?_, ?_⟩
        · show (Function.update w.bus.sub j _ j).overflowClose = true
          rw [Function.update_self, overflowClose_deliver]
          exact hold.closes
        · show (Function.update w.bus.sub j _ j).overflowed = true →
            .overflowSentinel ∈ (Function.update w.bus.sub j _ j).queue
          rw [Function.update_self]
          exact sentinel_deliver hold.sentinel
      · refine ⟨hold.mem, hold.lt, ?_, ?_⟩
        · show (Function.update w.bus.sub k _ j).overflowClose = true
          rw [Function.update_of_ne hjk]
          exact hold.closes
        · show (Function.update w.bus.sub k _ j).overflowed = true →
            .overflowSentinel ∈ (Function.update w.bus.sub k _ j).queue
          rw [Function.update_of_ne hjk]
          exact hold.sentinel
    · intro j hj hopen other hdue
      have hold := h.subscribed j hj
      by_cases hjk : j = k
      · subst hjk
        change (Function.update w.bus.sub j _ j).overflowed = false at hopen
        rw [Function.update_self] at hopen
        obtain ⟨hopen, hqueue⟩ := queue_deliver_of_open hold.closes hopen
        have hqueue' : (Function.update w.bus.sub j ((w.bus.sub j).deliver event) j).queue =
            (w.bus.sub j).queue ++ [.event event] := by
          rw [Function.update_self, hqueue]
        obtain hseen | hun | hsched | hq | hrest := h.way j hj hopen other hdue
        · exact .inl hseen
        · exact .inr (.inl hun)
        · rw [hscheduled] at hsched
          obtain hsame | hsched := List.mem_cons.mp hsched
          · cases hsame
            exact .inr (.inr (.inr (.inl (hqueue' ▸ List.mem_append_right _
              (List.mem_singleton_self _)))))
          · exact .inr (.inr (.inl hsched))
        · exact .inr (.inr (.inr (.inl (hqueue' ▸ List.mem_append_left _ hq))))
        · exact .inr (.inr (.inr (.inr hrest)))
      · change (Function.update w.bus.sub k _ j).overflowed = false at hopen
        rw [Function.update_of_ne hjk] at hopen
        have hqueue' : (Function.update w.bus.sub k ((w.bus.sub k).deliver event) j).queue =
            (w.bus.sub j).queue := by
          rw [Function.update_of_ne hjk]
        obtain hseen | hun | hsched | hq | hrest := h.way j hj hopen other hdue
        · exact .inl hseen
        · exact .inr (.inl hun)
        · rw [hscheduled] at hsched
          obtain hsame | hsched := List.mem_cons.mp hsched
          · cases hsame
            exact absurd rfl hjk
          · exact .inr (.inr (.inl hsched))
        · exact .inr (.inr (.inr (.inl (hqueue' ▸ hq))))
        · exact .inr (.inr (.inr (.inr hrest)))

/-! ### Subscribers that come and go -/

/-- A new handle leaves the objects behind the old ones. -/
theorem sub_register_of_lt {bus : SseBus} {h : Nat} (hlt : h < bus.handles)
    (overflowClose : Bool) : (bus.register overflowClose).sub h = bus.sub h :=
  Function.update_of_ne (Nat.ne_of_lt hlt) _ _

theorem mem_queue_register {bus : SseBus} {overflowClose : Bool} {h : Nat} {item : Item}
    (hitem : item ∈ ((bus.register overflowClose).sub h).queue) : item ∈ (bus.sub h).queue := by
  change item ∈ (Function.update bus.sub bus.handles _ h).queue at hitem
  by_cases hh : h = bus.handles
  · rw [hh, Function.update_self] at hitem
    cases hitem
  · rwa [Function.update_of_ne hh] at hitem

theorem Sound.registerOther (h : Sound w) (overflowClose : Bool) :
    Sound (exec w (.registerOther overflowClose)) where
  unique := h.unique
  ring := h.ring
  first := h.first
  known other hholds := by
    obtain hun | hseen | hreplay | hsched | ⟨k, hqueue⟩ := hholds
    · exact h.known other (.inl hun)
    · exact h.known other (.inr (.inl hseen))
    · exact h.known other (.inr (.inr (.inl hreplay)))
    · exact h.known other (.inr (.inr (.inr (.inl hsched))))
    · exact h.known other (.inr (.inr (.inr (.inr ⟨k, mem_queue_register hqueue⟩))))
  once := h.once
  subscribed k hk := by
    have hold := h.subscribed k hk
    have hsub := sub_register_of_lt hold.lt overflowClose
    refine ⟨List.mem_append_left _ hold.mem, Nat.lt_succ_of_lt hold.lt, ?_, ?_⟩
    · show ((w.bus.register overflowClose).sub k).overflowClose = true
      rw [hsub]
      exact hold.closes
    · show ((w.bus.register overflowClose).sub k).overflowed = true →
        .overflowSentinel ∈ ((w.bus.register overflowClose).sub k).queue
      rw [hsub]
      exact hold.sentinel
  idle := h.idle
  skipped := h.skipped
  way k hk hopen other hdue := by
    have hsub := sub_register_of_lt (h.subscribed k hk).lt overflowClose
    change ((w.bus.register overflowClose).sub k).overflowed = false at hopen
    rw [hsub] at hopen
    obtain hseen | hun | hsched | hqueue | hrest := h.way k hk hopen other hdue
    · exact .inl hseen
    · exact .inr (.inl hun)
    · exact .inr (.inr (.inl hsched))
    · exact .inr (.inr (.inr (.inl (hsub ▸ hqueue))))
    · exact .inr (.inr (.inr (.inr hrest)))

/-- A client registers, and its queue gets all that is published from then on. -/
theorem Sound.register (h : Sound w) (hclear : Clear w .register) :
    Sound (exec w .register) := by
  unfold exec
  dsimp only
  split
  swap
  · exact h
  next hphase =>
  have hon : ∀ k, Client.On { w.client with
      phase := .registered w.bus.handles, replaying := [], replayedIds := [] } k →
        k = w.bus.handles := by
    rintro k (hk | hk)
    · exact (Phase.registered.inj hk).symm
    · cases hk
  have hsub : (w.bus.register true).sub w.bus.handles = { overflowClose := true } :=
    Function.update_self _ _ _
  refine
    { unique := h.unique, ring := h.ring, first := ?_, once := h.once, idle := fun _ _ => rfl
      skipped := ?_, subscribed := ?_, known := ?_, way := ?_ }
  · intro n hn
    dsimp only at hn
    cases hn
    cases hfirst : w.first with
    | none => exact le_refl _
    | some n => exact h.first n hfirst
  · intro other hholds
    obtain hun | hseen | hreplay | hsched | ⟨k, hqueue⟩ := hholds
    · exact h.known other (.inl hun)
    · exact h.known other (.inr (.inl hseen))
    · cases hreplay
    · exact h.known other (.inr (.inr (.inr (.inl hsched))))
    · exact h.known other (.inr (.inr (.inr (.inr ⟨k, mem_queue_register hqueue⟩))))
  · intro k hk
    obtain rfl := hon k hk
    refine ⟨List.mem_append_right _ (List.mem_singleton_self _), Nat.lt_succ_self _, ?_, ?_⟩
    · dsimp only
      rw [hsub]
    · dsimp only
      rw [hsub]
      rintro ⟨⟩
  · rintro k ⟨⟩
  · intro k hk _ other hdue
    obtain rfl := hon k hk
    have hold : other ∈ w.due := by
      unfold World.due at hdue ⊢
      dsimp only at hdue
      cases hfirst : w.first with
      | none =>
        rw [hfirst, Option.getD_none, List.drop_length] at hdue
        cases hdue
      | some n =>
        rw [hfirst] at hdue
        exact hdue
    obtain hun | hafter | hseen := hclear hphase other hold
    · exact .inr (.inl hun)
    · exact .inr (.inr (.inr (.inr (.inr ⟨rfl, hafter⟩))))
    · exact .inl hseen

theorem Sound.unregister (h : Sound w) (k : Nat) : Sound (exec w (.unregister k)) := by
  unfold exec
  dsimp only
  split
  · exact h
  · next hother =>
    refine
      { unique := h.unique, ring := h.ring, first := h.first, once := h.once, idle := h.idle
        skipped := h.skipped, known := h.known, way := h.way, subscribed := ?_ }
    intro j hj
    have hold := h.subscribed j hj
    refine ⟨?_, hold.lt, hold.closes, hold.sentinel⟩
    refine List.mem_filter.mpr ⟨hold.mem, ?_⟩
    have hne : j ≠ k := by
      rintro rfl
      exact hother hj
    simpa using hne

/-! ### The client -/

/-- Without a connection nothing is asked of one. -/
theorem Sound.disconnect (h : Sound w) : Sound (exec w .disconnect) where
  unique := h.unique
  ring := h.ring
  first := h.first
  known := h.known
  once := h.once
  subscribed := by rintro k (hk | hk) <;> cases hk
  idle := by rintro k ⟨⟩
  skipped := by rintro k ⟨⟩
  way := by rintro k (hk | hk) <;> cases hk

/-- The replay reads what came after the last event the client has. -/
theorem Sound.replay (h : Sound w) (hdocumented : Documented w .replay) :
    Sound (exec w .replay) := by
  unfold exec
  dsimp only
  split
  swap
  · exact h
  next k hphase =>
  have hoffline : w.client.phase ≠ .offline := by
    rw [hphase]
    rintro ⟨⟩
  have hon : ∀ j, Client.On { w.client with
      phase := .streaming k, replaying := w.replay, replayedIds := w.replay.map (·.id) } j →
        w.client.On j := by
    rintro j (hj | hj)
    · cases hj
    · cases hj
      exact .inl hphase
  have hknown : ∀ event ∈ w.replay, event ∈ w.appended := by
    intro event hevent
    unfold World.replay at hevent
    cases hlast : w.client.lastId with
    | none =>
      rw [hlast] at hevent
      cases hevent
    | some id =>
      rw [hlast] at hevent
      have hring := mem_buf_of_mem_afterId hevent
      rw [h.ring] at hring
      exact List.mem_of_mem_drop hring
  refine
    { unique := h.unique, ring := h.ring, first := h.first, once := h.once, idle := ?_
      skipped := ?_, subscribed := ?_, known := ?_, way := ?_ }
  · intro other hholds
    obtain hun | hseen | hreplay | hrest := hholds
    · exact h.known other (.inl hun)
    · exact h.known other (.inr (.inl hseen))
    · exact hknown other hreplay
    · exact h.known other (.inr (.inr (.inr hrest)))
  · intro j hj
    have hold := h.subscribed j (hon j hj)
    exact ⟨hold.mem, hold.lt, hold.closes, hold.sentinel⟩
  · rintro j ⟨⟩
  · intro j _ id hid
    obtain ⟨event, hevent, rfl⟩ := List.mem_map.mp hid
    exact ⟨event, .inl hevent, rfl⟩
  · intro j hj hopen other hdue
    obtain hseen | hun | hsched | hqueue | hreplay | ⟨-, hafter⟩ :=
      h.way j (hon j hj) hopen other hdue
    · exact .inl hseen
    · exact .inr (.inl hun)
    · exact .inr (.inr (.inl hsched))
    · exact .inr (.inr (.inr (.inl hqueue)))
    · rw [h.idle k hphase] at hreplay
      cases hreplay
    · exact .inr (.inr (.inr (.inr (.inl (h.mem_replay hdocumented hoffline hafter)))))

/-- The client reads one event of the replay. -/
theorem Sound.receiveReplayed (h : Sound w) : Sound (exec w .receiveReplayed) := by
  unfold exec
  dsimp only
  split
  swap
  · exact h
  next k event rest hphase hreplaying =>
  have hevent : event ∈ w.appended :=
    h.known event (.inr (.inr (.inl (hreplaying ▸ List.mem_cons_self))))
  have hknown : ∀ other ∈ w.client.seen, other ∈ w.appended := fun other hother =>
    h.known other (.inr (.inl hother))
  have hnow : event ∈ ({ w.client with replaying := rest }.receive event).seen :=
    h.mem_seen_receive hevent hknown
  refine
    { unique := h.unique, ring := h.ring, first := h.first, idle := ?_, skipped := ?_
      subscribed := ?_, known := ?_, way := ?_, once := nodup_seen_receive h.once event }
  · intro other hholds
    obtain hun | hseen | hreplay | hrest := hholds
    · exact h.known other (.inl hun)
    · obtain hseen | rfl := mem_of_mem_seen_receive hseen
      · exact hknown other hseen
      · exact hevent
    · exact h.known other (.inr (.inr (.inl (hreplaying ▸ List.mem_cons_of_mem _ hreplay))))
    · exact h.known other (.inr (.inr (.inr hrest)))
  · intro j hj
    have hold := h.subscribed j hj
    exact ⟨hold.mem, hold.lt, hold.closes, hold.sentinel⟩
  · intro j hj
    rw [show w.client.phase = .registered j from hj] at hphase
    cases hphase
  · intro j hj id hid
    obtain ⟨other, hother, rfl⟩ := h.skipped j hj id hid
    obtain hreplay | hseen := hother
    · rw [hreplaying] at hreplay
      obtain rfl | hreplay := List.mem_cons.mp hreplay
      · exact ⟨other, .inr hnow, rfl⟩
      · exact ⟨other, .inl hreplay, rfl⟩
    · exact ⟨other, .inr (mem_seen_receive_of_mem hseen), rfl⟩
  · intro j hj hopen other hdue
    obtain hseen | hun | hsched | hqueue | hreplay | ⟨hregistered, -⟩ :=
      h.way j hj hopen other hdue
    · exact .inl (mem_seen_receive_of_mem hseen)
    · exact .inr (.inl hun)
    · exact .inr (.inr (.inl hsched))
    · exact .inr (.inr (.inr (.inl hqueue)))
    · rw [hreplaying] at hreplay
      obtain rfl | hreplay := List.mem_cons.mp hreplay
      · exact .inl hnow
      · exact .inr (.inr (.inr (.inr (.inl hreplay))))
    · rw [hphase] at hregistered
      cases hregistered

theorem mem_queue_get {bus : SseBus} {k j : Nat} {item other : Item} {rest : List Item}
    (hqueue : (bus.sub k).queue = item :: rest) (h : other ∈ ((bus.get k rest).sub j).queue) :
    other ∈ (bus.sub j).queue := by
  change other ∈ (Function.update bus.sub k _ j).queue at h
  by_cases hj : j = k
  · subst hj
    rw [Function.update_self] at h
    rw [hqueue]
    exact List.mem_cons_of_mem _ h
  · rwa [Function.update_of_ne hj] at h

/-- What taking an event off its queue makes of a client. -/
structure Took (client client' : Client) (event : Event) : Prop where
  phase : client'.phase = client.phase
  replaying : client'.replaying = client.replaying
  ids : ∀ id ∈ client'.replayedIds, id ∈ client.replayedIds
  once : (client'.seen.map (·.id)).Nodup
  seen : ∀ other, other ∈ client'.seen ↔ other ∈ client.seen ∨ other = event

/-- An event that the replay has sent is skipped, any other is received. -/
theorem Sound.took (h : Sound w) {k : Nat} {event : Event} (hevent : event ∈ w.appended)
    (hphase : w.client.phase = .streaming k) (hreplaying : w.client.replaying = [])
    {client : Client} (hclient : event.id ∈ w.client.replayedIds ∧ client =
          { w.client with replayedIds := w.client.replayedIds.filter (· != event.id) } ∨
        client = w.client.receive event) : Took w.client client event := by
  have hknown : ∀ other ∈ w.client.seen, other ∈ w.appended := fun other hother =>
    h.known other (.inr (.inl hother))
  obtain ⟨hskip, rfl⟩ | rfl := hclient
  · refine ⟨rfl, rfl, fun id hid => List.mem_of_mem_filter hid, h.once, ?_⟩
    refine fun other => ⟨.inl, ?_⟩
    rintro (hother | rfl)
    · exact hother
    · obtain ⟨same, hsame, hid⟩ := h.skipped k hphase other.id hskip
      rw [hreplaying] at hsame
      have hsame := hsame.resolve_left List.not_mem_nil
      rwa [← h.eq_of_id (hknown same hsame) hevent hid]
  · refine ⟨rfl, rfl, fun id hid => hid, nodup_seen_receive h.once event, ?_⟩
    refine fun other => ⟨mem_of_mem_seen_receive, ?_⟩
    rintro (hother | rfl)
    · exact mem_seen_receive_of_mem hother
    · exact h.mem_seen_receive hevent hknown

/-- The client reads an event off its queue. -/
theorem Sound.drainEvent (h : Sound w) {k : Nat} {event : Event} {rest : List Item}
    (hphase : w.client.phase = .streaming k) (hreplaying : w.client.replaying = [])
    (hqueue : (w.bus.sub k).queue = .event event :: rest) {client : Client}
    (hevent : event ∈ w.appended) (htook : Took w.client client event) :
    Sound { w with bus := w.bus.get k rest, client := client } := by
  obtain ⟨hphase', hreplaying', hids, honce, hseen⟩ := htook
  have hon : ∀ j, client.On j → w.client.On j ∧ j = k := by
    intro j hj
    unfold Client.On at hj
    rw [hphase', hphase] at hj
    obtain hj | hj := hj
    · cases hj
    · cases hj
      exact ⟨.inr hphase, rfl⟩
  have hsub : (w.bus.get k rest).sub k = { w.bus.sub k with queue := rest } :=
    Function.update_self _ _ _
  refine
    { unique := h.unique, ring := h.ring, first := h.first, once := honce, known := ?_
      subscribed := ?_, idle := ?_, skipped := ?_, way := ?_ }
  · intro other hholds
    obtain hun | hother | hreplay | hsched | ⟨j, hq⟩ := hholds
    · exact h.known other (.inl hun)
    · obtain hother | rfl := (hseen other).mp hother
      · exact h.known other (.inr (.inl hother))
      · exact hevent
    · dsimp only at hreplay
      rw [hreplaying', hreplaying] at hreplay
      cases hreplay
    · exact h.known other (.inr (.inr (.inr (.inl hsched))))
    · exact h.known other (.inr (.inr (.inr (.inr ⟨j, mem_queue_get hqueue hq⟩))))
  · intro j hj
    obtain ⟨hj', rfl⟩ := hon j hj
    have hold := h.subscribed j hj'
    refine ⟨hold.mem, hold.lt, ?_, ?_⟩
    · dsimp only
      rw [hsub]
      exact hold.closes
    · dsimp only
      rw [hsub]
      intro hover
      have hsentinel := hold.sentinel hover
      rw [hqueue] at hsentinel
      exact (List.mem_cons.mp hsentinel).resolve_left (by rintro ⟨⟩)
  · intro j hj
    dsimp only at hj
    rw [hphase', hphase] at hj
    cases hj
  · intro j hj id hid
    dsimp only at hj hid
    rw [hphase'] at hj
    obtain ⟨other, hother, rfl⟩ := h.skipped j hj id (hids id hid)
    rw [hreplaying] at hother
    exact ⟨other, .inr ((hseen other).mpr (.inl (hother.resolve_left List.not_mem_nil))), rfl⟩
  · intro j hj hopen other hdue
    obtain ⟨hj', rfl⟩ := hon j hj
    dsimp only at hopen
    rw [hsub] at hopen
    obtain hold | hun | hsched | hq | hreplay | ⟨hregistered, -⟩ := h.way j hj' hopen other hdue
    · exact .inl ((hseen other).mpr (.inl hold))
    · exact .inr (.inl hun)
    · exact .inr (.inr (.inl hsched))
    · rw [hqueue] at hq
      obtain heq | hq := List.mem_cons.mp hq
      · exact .inl ((hseen other).mpr (.inr (Item.event.inj heq)))
      · refine .inr (.inr (.inr (.inl ?_)))
        dsimp only
        rw [hsub]
        exact hq
    · rw [hreplaying] at hreplay
      cases hreplay
    · rw [hphase] at hregistered
      cases hregistered

theorem Sound.drain (h : Sound w) : Sound (exec w .drain) := by
  unfold exec
  dsimp only
  split
  swap
  · exact h
  next k hphase hreplaying =>
  split
  · exact h
  · next rest hqueue =>
    -- the stream is over
    exact
      { unique := h.unique, ring := h.ring, first := h.first, once := h.once
        known := fun other hholds => by
          obtain hun | hseen | hreplay | hsched | ⟨j, hq⟩ := hholds
          · exact h.known other (.inl hun)
          · exact h.known other (.inr (.inl hseen))
          · exact h.known other (.inr (.inr (.inl hreplay)))
          · exact h.known other (.inr (.inr (.inr (.inl hsched))))
          · exact h.known other (.inr (.inr (.inr (.inr ⟨j, mem_queue_get hqueue hq⟩))))
        subscribed := by rintro j (hj | hj) <;> cases hj
        idle := by rintro j ⟨⟩
        skipped := by rintro j ⟨⟩
        way := by rintro j (hj | hj) <;> cases hj }
  · next event rest hqueue =>
    have hevent : event ∈ w.appended :=
      h.known event (.inr (.inr (.inr (.inr ⟨k, hqueue ▸ List.mem_cons_self⟩))))
    refine h.drainEvent hphase hreplaying hqueue hevent (h.took hevent hphase hreplaying ?_)
    split
    · next hskip => exact .inl ⟨hskip, rfl⟩
    · exact .inr rfl

/-! ## Every run -/

theorem Sound.exec (h : Sound w) {step : Step} (hdocumented : Documented w step)
    (hclear : Clear w step) : Sound (exec w step) := by
  cases step with
  | append event => exact h.append event hdocumented
  | publish i => exact h.publish i
  | runCallback => exact h.runCallback
  | register => exact h.register hclear
  | replay => exact h.replay hdocumented
  | receiveReplayed => exact h.receiveReplayed
  | drain => exact h.drain
  | disconnect => exact h.disconnect
  | registerOther overflowClose => exact h.registerOther overflowClose
  | unregister k => exact h.unregister k
  | tick seconds =>
    exact ⟨h.unique, h.ring, h.first, h.known, h.once,
      fun k hk => ⟨(h.subscribed k hk).mem, (h.subscribed k hk).lt, (h.subscribed k hk).closes,
        (h.subscribed k hk).sentinel⟩, h.idle, h.skipped, h.way⟩

/-- Once everything is delivered the client has each event it was due once. -/
theorem Sound.lossless (h : Sound w) : Lossless w where
  way := h.way
  once := h.once
  settled := by
    rintro ⟨k, hphase, hreplaying, hqueue, hscheduled, hunpublished⟩ event hdue
    have hopen : (w.bus.sub k).overflowed = false := by
      by_contra hover
      have hsentinel := (h.subscribed k (.inr hphase)).sentinel (by simpa using hover)
      rw [hqueue] at hsentinel
      cases hsentinel
    have hseen : event ∈ w.client.seen := by
      obtain hseen | hun | hsched | hq | hreplay | ⟨hregistered, -⟩ :=
        h.way k (.inr hphase) hopen event hdue
      · exact hseen
      · rw [hunpublished] at hun
        cases hun
      · exact absurd hsched (hscheduled event)
      · rw [hqueue] at hq
        cases hq
      · rw [hreplaying] at hreplay
        cases hreplay
      · rw [hphase] at hregistered
        cases hregistered
    exact List.count_eq_one_of_mem h.once.of_map hseen

end Sound

theorem sound_start : Sound {} where
  unique := List.nodup_nil
  ring := rfl
  first := by rintro n ⟨⟩
  known := by
    rintro event (hun | hseen | hreplay | ⟨k, hsched⟩ | ⟨k, hqueue⟩)
    · cases hun
    · cases hseen
    · cases hreplay
    · cases hsched
    · cases hqueue
  once := List.nodup_nil
  subscribed := by rintro k (hk | hk) <;> cases hk
  idle := by rintro k ⟨⟩
  skipped := by rintro k ⟨⟩
  way := by rintro k (hk | hk) <;> cases hk

/-- The stream loses nothing and brings nothing twice, in every state of a run in which the client
registers only where no published event it is due would be left behind. -/
theorem stream_lossless (steps : List Step)
    (h : StepsSatisfy exec (fun w step => Documented w step ∧ Clear w step) {} steps)
    (before after : List Step) (hsplit : steps = before ++ after) :
    Lossless (run exec {} before) := by
  subst hsplit
  rw [stepsSatisfy_append] at h
  exact (run_invariant_of _ Sound (fun w step hstep hw => hw.exec hstep.1 hstep.2) {} sound_start
    before h.1).lossless

/-! ## Two publishers -/

def eventOf (id : String) : Event where
  id := id
  kind := "other"
  timestamp := 0

/-- The first connection, and two events that are appended one after the other. -/
def connected : List Step :=
  [.register, .replay, .append (eventOf "a"), .append (eventOf "b")]

/-- Published in their order, the second is on its way when the connection drops, and the replay
brings it. -/
theorem stream_lossless_reconnect :
    Lossless (run exec {} (connected ++ [.publish 0, .runCallback, .drain, .publish 0,
      .disconnect, .register, .replay, .receiveReplayed, .runCallback])) :=
  stream_lossless _ (by decide +kernel) _ [] (List.append_nil _).symm

/-- Published the other way round, the client comes back with the id of the second, and the first
is behind it. -/
theorem overtaken_event_lost :
    let steps := connected ++ [.publish 1, .runCallback, .drain, .publish 0, .disconnect,
      .register, .replay, .runCallback]
    StepsSatisfy exec Documented {} steps ∧ ¬ Lossless (run exec {} steps) := by
  intro steps
  refine ⟨by decide +kernel, fun hlossless => ?_⟩
  have hsettled : (run exec {} steps).Settled :=
    ⟨1, by decide +kernel, by decide +kernel, by decide +kernel, by
      have hnone : (run exec {} steps).bus.scheduled = [] := by decide +kernel
      rw [hnone]
      exact fun event => List.not_mem_nil, by decide +kernel⟩
  have hdue : eventOf "a" ∈ (run exec {} steps).due := by decide +kernel
  have hcount : (run exec {} steps).client.seen.count (eventOf "a") = 0 := by decide +kernel
  have := hlossless.settled hsettled _ hdue
  omega

end CliAgentOrchestrator.EventStream
