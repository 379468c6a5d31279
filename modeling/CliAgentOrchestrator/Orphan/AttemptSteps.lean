import CliAgentOrchestrator.Orphan.Attempt
import Mathlib.Tactic.NormNum

/-!
# An attempt among others

An attempt runs among others, which may write tombstones and take none away; a scan answers what
`scanIncarnationProcesses` makes of some process table. Under that its signals go out behind a
tombstone and to what its last scan found (`SignalsFresh`), whatever the rest of it is (`Runs`). The
lemmas here are the moves it is made of: it signals (`runs_signalExactMatches`), scans
(`runs_scanAt`) and sleeps (`runs_sleep`), and between two scans it is quiet (`Quietly`).
-/

set_option autoImplicit false

namespace CliAgentOrchestrator.Orphan

open Library

/-! ## Scans in order -/

def AttemptEvent.scan? : AttemptEvent → Option (ScanSite × ProcScanResult)
  | .scanned site result => some (site, result)
  | _ => none

/-- The scans that were made, with where they were. -/
def scansOf (log : List AttemptEvent) : List (ScanSite × ProcScanResult) :=
  log.filterMap AttemptEvent.scan?

@[simp] theorem scansOf_append (log more : List AttemptEvent) :
    scansOf (log ++ more) = scansOf log ++ scansOf more := List.filterMap_append

/-! ## The attempt among others -/

/-- What the rest of the world does between two operations: time goes by, tombstones are written,
and whatever the next operation answers may change. -/
structure Elsewhere (s s' : World) : Prop where
  now : s.now ≤ s'.now
  tombstones : s.tombstones ⊆ s'.tombstones
  pending : s'.pending = s.pending
  log : s'.log = s.log

theorem Elsewhere.refl (s : World) : Elsewhere s s := ⟨le_rfl, fun _ h => h, rfl, rfl⟩

theorem Elsewhere.trans {a b c : World} (h : Elsewhere a b) (h' : Elsewhere b c) :
    Elsewhere a c where
  now := h.now.trans h'.now
  tombstones _ hmem := h'.tombstones (h.tombstones hmem)
  pending := h'.pending.trans h.pending
  log := h'.log.trans h.log

variable {ownerUid : Int} {tokenHash : String} {issuanceBootId : Option Text}

/-- What an operation finds: the boot id of the issuance, and a scan of some process table. -/
def FindsWorld (ownerUid : Int) (issuanceBootId : Option Text) : AttemptOp → World → Prop
  | .readBootId, s => ∀ issued, issuanceBootId = some issued → s.bootId.any (· != issued) = false
  | .scan _, s => ∃ w : ScanInput, w.ownerUid = ownerUid ∧ ∃ fuel,
    scanIncarnationProcesses w fuel = some s.scanned
  | _, _ => True

/-- The pid is that of a match of the last scan, and behind its pidfd the same start ticks and the
same owner were read again. -/
def FreshMatch (log : List AttemptEvent) (pid : Nat) : Prop :=
  ∃ before site result others stat status,
    log = before ++ .scanned site result
        :: (others ++ [.opened pid, .stat pid stat, .status pid status])
      ∧ scansOf others = []
      ∧ ∃ m ∈ result.found, m.pid = pid ∧ readProcStartTicks stat = some m.startTicks
        ∧ readProcUid status = some m.uid

/-- A signal is sent behind a tombstone of the incarnation, and to a fresh match. -/
def SignalsFresh (tokenHash : String) : AttemptOp → World → Prop
  | .pidfdSend pid _, s => tokenHash ∈ s.tombstones ∧ FreshMatch s.log pid
  | _, _ => True

/-- The rest of an attempt, run among others. -/
abbrev Runs {α : Type} (ownerUid : Int) (tokenHash : String) (issuanceBootId : Option Text)
    (post : α → World → Prop) (p : Attempt α) (s : World) : Prop :=
  p.Sat (AttemptOp.exec tokenHash) Elsewhere (FindsWorld ownerUid issuanceBootId)
    (SignalsFresh tokenHash) post s

theorem Runs.bind {α β : Type} {post : β → World → Prop} {p : Attempt α} {k : α → Attempt β}
    {s : World} (h : Runs ownerUid tokenHash issuanceBootId
      (fun a s' => Runs ownerUid tokenHash issuanceBootId post (k a) s') p s) :
    Runs ownerUid tokenHash issuanceBootId post (p >>= k) s :=
  Program.Sat.bind Elsewhere.refl h

theorem runs_pure {α : Type} {post : α → World → Prop} {result : α} {s : World}
    (h : ∀ s', Elsewhere s s' → post result s') :
    Runs ownerUid tokenHash issuanceBootId post (pure result) s := h

theorem Runs.later {α : Type} {post : α → World → Prop} {p : Attempt α} {s s' : World}
    (h : Runs ownerUid tokenHash issuanceBootId post p s) (hlater : Elsewhere s s') :
    Runs ownerUid tokenHash issuanceBootId post p s' := by
  refine Program.Sat.mono ?_ h hlater
  exact fun _ _ _ hab hbc => Elsewhere.trans hab hbc

/-- From `s` to `s'` the attempt made no scan. -/
structure Quietly (s s' : World) : Prop where
  now : s.now ≤ s'.now
  tombstones : s.tombstones ⊆ s'.tombstones
  log : ∃ more, s'.log = s.log ++ more ∧ scansOf more = []

theorem Quietly.refl (s : World) : Quietly s s :=
  ⟨le_rfl, fun _ h => h, [], (List.append_nil _).symm, rfl⟩

theorem Quietly.trans {a b c : World} (h : Quietly a b) (h' : Quietly b c) : Quietly a c where
  now := h.now.trans h'.now
  tombstones _ hmem := h'.tombstones (h.tombstones hmem)
  log := by
    obtain ⟨more, hb, hmore⟩ := h.log
    obtain ⟨more', hc, hmore'⟩ := h'.log
    exact ⟨more ++ more', by rw [hc, hb, List.append_assoc], by simp [hmore, hmore']⟩

theorem Elsewhere.quietly {s s' : World} (h : Elsewhere s s') : Quietly s s' :=
  ⟨h.now, h.tombstones, [], by rw [h.log, List.append_nil], rfl⟩

theorem Quietly.note {s s' : World} (h : Quietly s s') {e : AttemptEvent} (he : e.scan? = none) :
    Quietly s (s'.note e) where
  now := h.now
  tombstones := h.tombstones
  log := by
    obtain ⟨more, hlog, hmore⟩ := h.log
    refine ⟨more ++ [e], ?_, ?_⟩
    · rw [← List.append_assoc, ← hlog]
      rfl
    · rw [scansOf_append, hmore, scansOf, List.filterMap_cons_none he]
      rfl

theorem Quietly.scansOf {s s' : World} (h : Quietly s s') :
    Orphan.scansOf s'.log = Orphan.scansOf s.log := by
  obtain ⟨more, hlog, hmore⟩ := h.log
  rw [hlog, scansOf_append, hmore, List.append_nil]

/-! ## Signals -/

/-- The last scan, and nothing but its matches to signal. -/
structure Armed (ownerUid : Int) (tokenHash : String) (result : ProcScanResult) (s : World) :
    Prop where
  tombstone : tokenHash ∈ s.tombstones
  scanned : ∃ before site others, s.log = before ++ .scanned site result :: others
    ∧ scansOf others = []
  owned : ∀ m ∈ result.found, m.uid = ownerUid

theorem Armed.quietly {result : ProcScanResult} {s s' : World}
    (h : Armed ownerUid tokenHash result s) (hq : Quietly s s') :
    Armed ownerUid tokenHash result s' where
  tombstone := hq.tombstones h.tombstone
  scanned := by
    obtain ⟨before, site, others, hlog, hothers⟩ := h.scanned
    obtain ⟨more, hmore, hquiet⟩ := hq.log
    refine ⟨before, site, others ++ more, ?_, by simp [hothers, hquiet]⟩
    rw [hmore, hlog, List.append_assoc, List.cons_append]
  owned := h.owned

theorem runs_signalOpened {sig : Signal} {r : SignalResult} {result : ProcScanResult} {s : World}
    (h : Armed ownerUid tokenHash result s) {m : ProcTokenMatch} (hm : m ∈ result.found) :
    Runs ownerUid tokenHash issuanceBootId (fun _ s' => Quietly s s')
      (signalOpened sig ownerUid r m) (s.note (.opened m.pid)) := by
  refine Runs.bind (Program.sat_call fun s₁ hs₁ _ => ⟨trivial, fun s₂ hs₂ => ?_⟩)
  refine Runs.bind (Program.sat_call fun s₃ hs₃ _ => ⟨trivial, fun s₄ hs₄ => ?_⟩)
  have hquiet : Quietly s s₄ := by
    have h₁ : Quietly s s₁ := ((Quietly.refl s).note rfl).trans hs₁.quietly
    have h₃ : Quietly s s₃ := ((h₁.note rfl).trans hs₂.quietly).trans hs₃.quietly
    exact (h₃.note rfl).trans hs₄.quietly
  have hlog : s₄.log = s.log ++ [.opened m.pid, .stat m.pid s₁.stat, .status m.pid s₃.status] := by
    rw [hs₄.log]
    change s₃.log ++ _ = _
    rw [hs₃.log, hs₂.log]
    change (s₁.log ++ _) ++ _ = _
    rw [hs₁.log]
    change ((s.log ++ _) ++ _) ++ _ = _
    simp
  change Runs _ _ _ _ (if readProcStartTicks s₁.stat ≠ some m.startTicks
    ∨ readProcUid s₃.status ≠ some ownerUid then _ else _) s₄
  split
  · exact runs_pure fun s' hs' => hquiet.trans hs'.quietly
  · next hsame =>
    rw [not_or, not_not, not_not] at hsame
    refine Runs.bind (Program.sat_call fun s₅ hs₅ _ => ⟨?_, fun s₆ hs₆ => ?_⟩)
    · refine ⟨hs₅.tombstones (hquiet.tombstones h.tombstone), ?_⟩
      obtain ⟨before, site, others, hbefore, hothers⟩ := h.scanned
      refine ⟨before, site, result, others, s₁.stat, s₃.status, ?_, hothers, m, hm, rfl, hsame.1,
        ?_⟩
      · rw [hs₅.log, hlog, hbefore, List.append_assoc, List.cons_append]
      · rw [h.owned m hm]
        exact hsame.2
    · have hquiet' : Quietly s s₆ := ((hquiet.trans hs₅.quietly).note rfl).trans hs₆.quietly
      generalize (AttemptOp.exec tokenHash (.pidfdSend m.pid sig) s₅).1 = sending
      cases sending <;> exact runs_pure fun s' hs' => hquiet'.trans hs'.quietly

theorem runs_signalMatch {sig : Signal} {r : SignalResult} {result : ProcScanResult} {s : World}
    (h : Armed ownerUid tokenHash result s) {m : ProcTokenMatch} (hm : m ∈ result.found) :
    Runs ownerUid tokenHash issuanceBootId (fun _ s' => Quietly s s')
      (signalMatch sig ownerUid r m) s := by
  unfold signalMatch
  split
  · exact runs_pure fun s' hs' => hs'.quietly
  · refine Runs.bind (Program.sat_call fun s₁ hs₁ _ => ⟨trivial, fun s₂ hs₂ => ?_⟩)
    have h₂ : Quietly s s₂ := hs₁.quietly.trans hs₂.quietly
    split
    · exact runs_pure fun s' hs' => h₂.trans hs'.quietly
    · refine Runs.bind (Program.sat_call fun s₃ hs₃ _ => ⟨trivial, fun s₄ hs₄ => ?_⟩)
      have h₃ : Quietly s s₃ := h₂.trans hs₃.quietly
      change Elsewhere (if s₃.openable then s₃.note (.opened m.pid) else s₃) s₄ at hs₄
      change Runs _ _ _ _ (if s₃.openable then _ else _) s₄
      split
      · next hopen =>
        rw [if_pos hopen] at hs₄
        refine Runs.later ?_ hs₄
        refine Runs.bind (Program.Sat.imp (runs_signalOpened (h.quietly h₃) hm)
          fun r' s₅ hs₅ => ?_)
        refine Runs.bind (Program.sat_call fun s₆ hs₆ _ => ⟨trivial, fun s₇ hs₇ => ?_⟩)
        exact runs_pure fun s' hs' =>
          (((h₃.trans hs₅).trans hs₆.quietly).trans hs₇.quietly).trans hs'.quietly
      · next hopen =>
        rw [if_neg hopen] at hs₄
        exact runs_pure fun s' hs' => (h₃.trans hs₄.quietly).trans hs'.quietly

/-- Signals make no scan. -/
theorem runs_signalExactMatches {sig : Signal} {result : ProcScanResult} {s : World}
    (h : Armed ownerUid tokenHash result s) :
    Runs ownerUid tokenHash issuanceBootId (fun _ s' => Quietly s s')
      (signalExactMatches result.found sig ownerUid) s := by
  have hfrom : ∀ (found : List ProcTokenMatch) (r : SignalResult) (s' : World), found ⊆ result.found →
      Quietly s s' → Runs ownerUid tokenHash issuanceBootId (fun _ s'' => Quietly s s'')
        (found.foldlM (signalMatch sig ownerUid) r) s' := by
    intro found
    induction found with
    | nil => exact fun r s' _ hq => runs_pure fun s'' hs => hq.trans hs.quietly
    | cons m found ih =>
      intro r s' hsub hq
      rw [List.cons_subset] at hsub
      rw [List.foldlM_cons]
      refine Runs.bind (Program.Sat.imp (runs_signalMatch (h.quietly hq) hsub.1)
        fun r' s'' hs => ih r' s'' hsub.2 (hq.trans hs))
  exact hfrom result.found _ s (List.Subset.refl _) (Quietly.refl s)

/-! ## Scans -/

/-- A scan only finds processes of its owner. -/
theorem owned_scanEntry {w : ScanInput} {fuel : Nat} {r r' : ProcScanResult} {name : ProcName}
    (h : scanEntry w fuel r name = some r') (hr : ∀ m ∈ r.found, m.uid = w.ownerUid) :
    ∀ m ∈ r'.found, m.uid = w.ownerUid := by
  cases name with
  | other =>
    cases h
    exact hr
  | process pid =>
    rw [scanEntry] at h
    split at h
    · cases h
      exact hr
    · split at h
      · have hfound : r'.found = r.found := by
          unfold refused at h
          split at h
          · cases h
            rfl
          · split at h
            · cases h
              rfl
            · split at h
              · cases h
              · cases h
                rfl
              · split at h
                · cases h
                  rfl
                · split at h
                  · cases h
                  · cases h
                    rfl
                  · cases h
                    rfl
        rw [hfound]
        exact hr
      · cases h
        exact hr
      · cases h
        unfold readable
        split
        · split
          · exact hr
          · split
            · exact hr
            · intro m hm
              rcases List.mem_append.mp hm with hm | hm
              · exact hr m hm
              · rw [List.mem_singleton.mp hm]
        · exact hr

theorem owned_scanEntries {w : ScanInput} {fuel : Nat} {names : List ProcName}
    {r r' : ProcScanResult} (h : scanEntries w fuel r names = some r')
    (hr : ∀ m ∈ r.found, m.uid = w.ownerUid) : ∀ m ∈ r'.found, m.uid = w.ownerUid := by
  induction names generalizing r with
  | nil =>
    cases h
    exact hr
  | cons name names ih =>
    obtain ⟨mid, hmid, h⟩ := Option.bind_eq_some_iff.mp h
    exact ih h (owned_scanEntry hmid hr)

theorem owned_scanIncarnationProcesses {w : ScanInput} {fuel : Nat} {r : ProcScanResult}
    (h : scanIncarnationProcesses w fuel = some r) : ∀ m ∈ r.found, m.uid = w.ownerUid := by
  unfold scanIncarnationProcesses at h
  split at h
  · cases h
    exact List.forall_mem_nil _
  · exact owned_scanEntries h (List.forall_mem_nil _)

/-- From `s` to `s'` the attempt made one scan. -/
structure Scanned (ownerUid : Int) (site : ScanSite) (result : ProcScanResult) (s s' : World) :
    Prop where
  now : s.now ≤ s'.now
  tombstones : s.tombstones ⊆ s'.tombstones
  owned : ∀ m ∈ result.found, m.uid = ownerUid
  log : s'.log = s.log ++ [.scanned site result]

theorem runs_scanAt {α : Type} {site : ScanSite} {k : ProcScanResult → Attempt α}
    {post : α → World → Prop} {s : World}
    (h : ∀ result s', Scanned ownerUid site result s s' →
      Runs ownerUid tokenHash issuanceBootId post (k result) s') :
    Runs ownerUid tokenHash issuanceBootId post (scanAt site >>= k) s := by
  refine Runs.bind (Program.sat_call fun s₁ hs₁ hfinds => ⟨trivial, fun s₂ hs₂ => ?_⟩)
  obtain ⟨w, rfl, fuel, hscan⟩ := hfinds
  refine h _ s₂ ⟨hs₁.now.trans hs₂.now, fun _ hmem => hs₂.tombstones (hs₁.tombstones hmem),
    owned_scanIncarnationProcesses hscan, ?_⟩
  rw [hs₂.log]
  change s₁.log ++ _ = _
  rw [hs₁.log]
  rfl

theorem rescanInterval_nonneg : 0 ≤ rescanInterval := by norm_num [rescanInterval]

theorem runs_sleep {α : Type} {k : Unit → Attempt α} {post : α → World → Prop} {s : World}
    (h : ∀ s', Quietly s s' → s.now + rescanInterval ≤ s'.now →
      Runs ownerUid tokenHash issuanceBootId post (k ()) s') :
    Runs ownerUid tokenHash issuanceBootId post (sleepInterval >>= k) s := by
  refine Runs.bind (Program.sat_call fun s₁ hs₁ _ => ⟨trivial, fun s₂ hs₂ => ?_⟩)
  have hslept : s₁.now + rescanInterval ≤ s₂.now := hs₂.now
  have hlog : s₂.log = s.log := hs₂.log.trans hs₁.log
  have hnow : s.now + rescanInterval ≤ s₂.now := (add_le_add_left hs₁.now _).trans hslept
  refine h s₂ ⟨?_, fun _ hmem => hs₂.tombstones (hs₁.tombstones hmem), [], by simp [hlog], rfl⟩
    hnow
  exact (le_add_of_nonneg_right rescanInterval_nonneg).trans hnow

section Scanned

variable {site : ScanSite} {result : ProcScanResult} {s s' : World}

theorem Scanned.scansOf (h : Scanned ownerUid site result s s') :
    Orphan.scansOf s'.log = Orphan.scansOf s.log ++ [(site, result)] := by
  rw [h.log, scansOf_append]
  rfl

theorem Scanned.armed (h : Scanned ownerUid site result s s')
    (htombstone : tokenHash ∈ s.tombstones) : Armed ownerUid tokenHash result s' where
  tombstone := h.tombstones htombstone
  scanned := ⟨s.log, site, [], h.log, rfl⟩
  owned := h.owned

end Scanned

end CliAgentOrchestrator.Orphan
