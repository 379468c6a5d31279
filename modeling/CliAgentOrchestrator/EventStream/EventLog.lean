import CliAgentOrchestrator.Library.Recency

/-!
# The event log

The ring buffer of `services/event_log_service.py`: the last `ringCapacity` events in the order
they were appended, of which a reader sees those that are younger than the TTL. Timestamps are
seconds; a `since` that cannot be read is no bound.
-/

set_option autoImplicit false

namespace CliAgentOrchestrator.EventStream

open Library

/-- SOURCE: services/event_log_service.py:23 -/
def ringCapacity : Nat := 500

/-- SOURCE: services/event_log_service.py:26 -/
def ttl : Int := 24 * 60 * 60

/-- SOURCE: services/event_log_service.py:64-71 -/
structure Event where
  id : String
  kind : String
  terminalId : Option String := none
  sessionName : Option String := none
  timestamp : Int
  detail : String := ""
deriving DecidableEq

/-- SOURCE: services/event_log_service.py:38-42 -/
structure EventLog where
  buf : List Event
  bounded : buf.length ≤ ringCapacity

def EventLog.empty : EventLog := ⟨[], Nat.zero_le _⟩

/-- A full ring drops its oldest event.
SOURCE: services/event_log_service.py:72-74 -/
@[irreducible] def EventLog.append (log : EventLog) (event : Event) : EventLog where
  buf := Recency.keepLast ringCapacity (log.buf ++ [event])
  bounded := by
    unfold Recency.keepLast
    rw [List.length_drop]
    omega

/-- SOURCE: services/event_log_service.py:108-139 -/
def selected (now : Int) (since : Option Int) (kinds : Option (List String)) (event : Event) :
    Bool :=
  decide (now - ttl ≤ event.timestamp) && kinds.all (·.contains event.kind) &&
    since.all (· < event.timestamp)

/-- The newest `limit` of the selected events.
SOURCE: services/event_log_service.py:76-148 -/
def EventLog.history (log : EventLog) (now : Int) (limit : Int) (since : Option Int)
    (kinds : Option (List String)) : List Event :=
  let out := log.buf.filter (selected now since kinds)
  if limit ≤ 0 then []
  else if (out.length : Int) ≤ limit then out
  else out.drop (out.length - limit.toNat)

/-- What stands after the event with this id, if it is there. -/
def sliceAfter (id : String) : List Event → Option (List Event)
  | [] => none
  | event :: rest => if event.id = id then some rest else sliceAfter id rest

/-- SOURCE: services/event_log_service.py:150-178 -/
def EventLog.afterId (log : EventLog) (now : Int) (id : String) : List Event :=
  let fresh := log.history now ringCapacity none none
  (sliceAfter id fresh).getD fresh

/-! ## What a replay returns -/

theorem sliceAfter_eq_none_iff {id : String} {events : List Event} :
    sliceAfter id events = none ↔ ∀ event ∈ events, event.id ≠ id := by
  induction events with
  | nil => simp [sliceAfter]
  | cons event rest ih =>
    by_cases hid : event.id = id
    · simp [sliceAfter, hid]
    · simp [sliceAfter, hid, ih]

theorem sliceAfter_append {id : String} {before : List Event} (hbefore : ∀ e ∈ before, e.id ≠ id)
    (event : Event) (hid : event.id = id) (rest : List Event) :
    sliceAfter id (before ++ event :: rest) = some rest := by
  induction before with
  | nil => simp [sliceAfter, hid]
  | cons e before ih =>
    have he : e.id ≠ id := hbefore e List.mem_cons_self
    simp only [List.cons_append, sliceAfter, if_neg he]
    exact ih fun e' he' => hbefore e' (List.mem_cons_of_mem _ he')

/-- Where the slice begins. -/
theorem sliceAfter_eq_some {id : String} {events rest : List Event}
    (h : sliceAfter id events = some rest) :
    ∃ before event, events = before ++ event :: rest ∧ event.id = id ∧
      ∀ e ∈ before, e.id ≠ id := by
  induction events with
  | nil => cases h
  | cons event events ih =>
    unfold sliceAfter at h
    split at h
    · next hid =>
      cases h
      exact ⟨[], event, rfl, hid, by simp⟩
    · next hid =>
      obtain ⟨before, event', rfl, hid', hbefore⟩ := ih h
      refine ⟨event :: before, event', rfl, hid', ?_⟩
      intro e he
      obtain rfl | he := List.mem_cons.mp he
      · exact hid
      · exact hbefore e he

theorem history_all (log : EventLog) (now : Int) :
    log.history now ringCapacity none none = log.buf.filter (selected now none none) := by
  have hfilter : (log.buf.filter (selected now none none)).length ≤ ringCapacity :=
    Nat.le_trans (List.length_filter_le _ _) log.bounded
  unfold EventLog.history
  dsimp only
  rw [if_neg (by decide), if_pos (by exact_mod_cast hfilter)]

/-- The replay of an id that is in the ring returns every fresh event behind it, and then some
where the id itself has expired. -/
theorem mem_afterId {log : EventLog} (hunique : (log.buf.map (·.id)).Nodup) {now : Int}
    {before rest : List Event} {last event : Event} (hbuf : log.buf = before ++ last :: rest)
    (hevent : event ∈ rest) (hfresh : selected now none none event = true) :
    event ∈ log.afterId now last.id := by
  rw [hbuf, List.map_append, List.map_cons] at hunique
  have hbefore : ∀ e ∈ before, e.id ≠ last.id := fun e he =>
    (List.nodup_append.mp hunique).2.2 _ (List.mem_map_of_mem he) _ List.mem_cons_self
  have hrest : ∀ e ∈ rest, e.id ≠ last.id := by
    intro e he hid
    refine (List.nodup_cons.mp (List.nodup_append.mp hunique).2.1).1 ?_
    rw [← hid]
    exact List.mem_map_of_mem he
  have hfiltered : event ∈ rest.filter (selected now none none) :=
    List.mem_filter.mpr ⟨hevent, hfresh⟩
  unfold EventLog.afterId
  dsimp only
  rw [history_all, hbuf, List.filter_append]
  by_cases hlast : selected now none none last = true
  · rw [List.filter_cons_of_pos hlast, sliceAfter_append ?_ last rfl]
    · exact hfiltered
    · exact fun e he => hbefore e (List.mem_of_mem_filter he)
  · have hnone : sliceAfter last.id (before.filter (selected now none none) ++
        rest.filter (selected now none none)) = none := by
      rw [sliceAfter_eq_none_iff]
      intro e he
      obtain he | he := List.mem_append.mp he
      · exact hbefore e (List.mem_of_mem_filter he)
      · exact hrest e (List.mem_of_mem_filter he)
    rw [List.filter_cons_of_neg hlast, hnone]
    exact List.mem_append_right _ hfiltered

/-- A replay returns events of the ring. -/
theorem mem_buf_of_mem_afterId {log : EventLog} {now : Int} {id : String} {event : Event}
    (h : event ∈ log.afterId now id) : event ∈ log.buf := by
  unfold EventLog.afterId at h
  dsimp only at h
  rw [history_all] at h
  cases hslice : sliceAfter id (log.buf.filter (selected now none none)) with
  | none =>
    rw [hslice] at h
    exact List.mem_of_mem_filter h
  | some rest =>
    rw [hslice] at h
    obtain ⟨before, last, hsplit, -, -⟩ := sliceAfter_eq_some hslice
    have hmem : event ∈ log.buf.filter (selected now none none) := by
      rw [hsplit]
      exact List.mem_append_right _ (List.mem_cons_of_mem _ h)
    exact List.mem_of_mem_filter hmem

end CliAgentOrchestrator.EventStream
