import CliAgentOrchestrator.Orphan.Jobs

/-!
# Reconciliation jobs are honest, and stuck only in a lease

What the rows say is so in every run: a job that is succeeded had an attempt that returned
success, an incarnation that is reconciled has such a job, and no job is in two attempts. Whether
every unsettled job can be claimed again behind a startup is another matter: the startup takes
back the leases that have expired by then, and nothing takes back the others.
-/

set_option autoImplicit false

namespace CliAgentOrchestrator.Orphan

open Library

variable {db db' : Jobs} {h : Reconciler} {proven : List String}

/-! ## The properties -/

/-- What the rows say is so. -/
structure Truthful (h : Reconciler) : Prop where
  oneJob : ∀ j ∈ h.db.jobs.rows, ∀ j' ∈ h.db.jobs.rows, j.incarnationId = j'.incarnationId → j = j'
  succeeded : ∀ j ∈ h.db.jobs.rows, j.state = .succeeded → j.id ∈ h.proven
  reconciled : ∀ inc ∈ h.db.incarnations.rows, inc.state = .reconciled →
    ∃ j ∈ h.db.jobs.rows, j.incarnationId = inc.id ∧ j.state = .succeeded
  oneAttempt : h.attempts.Nodup

/-- Behind a startup every unsettled job is due from some time on. -/
def Rearmed (h : Reconciler) : Prop :=
  h.recovered = true → ∀ j ∈ h.db.jobs.rows, j.state ≠ .succeeded → j.state ≠ .attentionRequired →
    ∃ t, ∀ now, t ≤ now → j.due now = true

/-- A startup that comes through finds the lease of every leased job expired. -/
def LeasesExpired (h : Reconciler) : JobStep → Prop
  | .startup now _ _ .returns => ∀ j ∈ h.db.jobs.rows, j.state = .leased →
      ∃ expires, j.leaseExpiresAt = some expires ∧ expires < now
  | _ => True

theorem due_eventually_iff {j : OrphanReconcileJob} :
    (∃ t, ∀ now, t ≤ now → j.due now = true) ↔ j.state = .pending ∨ j.state = .retryWait := by
  unfold OrphanReconcileJob.due
  constructor
  · rintro ⟨t, ht⟩
    have hdue := ht t le_rfl
    rw [Bool.and_eq_true, Bool.or_eq_true, decide_eq_true_eq, decide_eq_true_eq] at hdue
    exact hdue.1
  · intro hstate
    refine ⟨j.nextAttemptAt.getD 0, fun now hnow => ?_⟩
    rw [Bool.and_eq_true, Bool.or_eq_true, decide_eq_true_eq, decide_eq_true_eq]
    refine ⟨hstate, ?_⟩
    cases hnext : j.nextAttemptAt with
    | none => rfl
    | some next =>
      rw [hnext] at hnow
      simpa using hnow

/-! ## What the transactions do -/

/-- The rows of `db'` are those of `db`, each changed by `f` or `g`. -/
structure Rewrites (db db' : Jobs) (f : OrphanReconcileJob → OrphanReconcileJob)
    (g : ProcessIncarnation → ProcessIncarnation) : Prop where
  jobs : ∀ id, db'.jobs.get id = (db.jobs.get id).map f
  incarnations : ∀ id, db'.incarnations.get id = (db.incarnations.get id).map g
  keeps : ∀ j, (f j).incarnationId = j.incarnationId

theorem rewrites_setIncarnation (db : Jobs) (id : String) (state : IncarnationState) :
    Rewrites db (db.setIncarnation id state) (fun j => j)
      fun inc => if inc.id = id then { inc with state := state } else inc where
  jobs _ := Option.map_id'.symm
  incarnations k := by
    simp only [Jobs.setIncarnation, Table.get_updateKey, and_true]
    cases hinc : db.incarnations.get k with
    | none => rfl
    | some inc => simp [Table.key_of_get hinc]
  keeps _ := rfl

theorem rewrites_setJob (db : Jobs) (jobId : String)
    (f : OrphanReconcileJob → OrphanReconcileJob) :
    Rewrites db (db.setJob jobId f)
      (fun j => if j.id = jobId then { f j with id := j.id, incarnationId := j.incarnationId } else j)
      fun inc => inc where
  jobs k := by
    simp only [Jobs.setJob, Table.get_updateKey, and_true]
    cases hj : db.jobs.get k with
    | none => rfl
    | some j => simp [Table.key_of_get hj]
  incarnations _ := Option.map_id'.symm
  keeps j := by split <;> rfl

theorem rewrites_expireLeases (db : Jobs) (now : Nat) :
    Rewrites db (expireLeases db now)
      (fun j => if (decide (j.state = .leased) && j.leaseExpiresAt.any fun e => decide (e < now)) then
        { j with state := .pending, leaseOwner := none, leaseExpiresAt := none } else j)
      fun inc => inc where
  jobs k := Table.get_update _ _ _ k
  incarnations _ := Option.map_id'.symm
  keeps j := by split <;> rfl

theorem Rewrites.effect {f : OrphanReconcileJob → OrphanReconcileJob}
    {g : ProcessIncarnation → ProcessIncarnation} (hr : Rewrites db db' f g) :
    ∀ j ∈ db'.jobs.rows, ∃ j₀ ∈ db.jobs.rows, j = f j₀ ∧ j.id = j₀.id := by
  intro j hj
  have hget := hr.jobs j.id
  rw [(Table.mem_rows_iff _ _).mp hj] at hget
  obtain ⟨j₀, hj₀, rfl⟩ := Option.map_eq_some_iff.mp hget.symm
  exact ⟨j₀, Table.mem_of_get hj₀, rfl, (Table.key_of_get hj₀).symm⟩

theorem Rewrites.job {f : OrphanReconcileJob → OrphanReconcileJob}
    {g : ProcessIncarnation → ProcessIncarnation} (hr : Rewrites db db' f g)
    {j : OrphanReconcileJob} (hj : j ∈ db.jobs.rows) : f j ∈ db'.jobs.rows := by
  have hget := hr.jobs j.id
  rw [(Table.mem_rows_iff _ _).mp hj, Option.map_some] at hget
  exact Table.mem_of_get hget

theorem Rewrites.incarnation {f : OrphanReconcileJob → OrphanReconcileJob}
    {g : ProcessIncarnation → ProcessIncarnation} (hr : Rewrites db db' f g) :
    ∀ inc ∈ db'.incarnations.rows,
      ∃ inc₀ ∈ db.incarnations.rows, inc = g inc₀ ∧ inc.id = inc₀.id := by
  intro inc hinc
  have hget := hr.incarnations inc.id
  rw [(Table.mem_rows_iff _ _).mp hinc] at hget
  obtain ⟨inc₀, hinc₀, rfl⟩ := Option.map_eq_some_iff.mp hget.symm
  exact ⟨inc₀, Table.mem_of_get hinc₀, rfl, (Table.key_of_get hinc₀).symm⟩

theorem jobOf_eq_none_iff {incarnationId : String} :
    db.jobOf incarnationId = none ↔ ∀ j ∈ db.jobs.rows, j.incarnationId ≠ incarnationId := by
  simp [Jobs.jobOf]

theorem jobOf_eq_some {incarnationId : String} {j : OrphanReconcileJob}
    (hj : db.jobOf incarnationId = some j) : j ∈ db.jobs.rows ∧ j.incarnationId = incarnationId :=
  ⟨List.mem_of_find?_eq_some hj, by simpa using List.find?_some hj⟩

/-! ## What the rows keep -/

/-- The part of it that is about the tables. -/
structure HonestRows (db : Jobs) (proven : List String) : Prop where
  oneJob : ∀ j ∈ db.jobs.rows, ∀ j' ∈ db.jobs.rows, j.incarnationId = j'.incarnationId → j = j'
  known : ∀ j ∈ db.jobs.rows, (db.incarnations.get j.incarnationId).isSome
  succeeded : ∀ j ∈ db.jobs.rows, j.state = .succeeded → j.id ∈ proven
  reconciled : ∀ inc ∈ db.incarnations.rows, inc.state = .reconciled →
    ∃ j ∈ db.jobs.rows, j.incarnationId = inc.id ∧ j.state = .succeeded

theorem HonestRows.mono {proven' : List String} (hh : HonestRows db proven)
    (hsub : ∀ id ∈ proven, id ∈ proven') : HonestRows db proven' :=
  ⟨hh.oneJob, hh.known, fun j hj hstate => hsub _ (hh.succeeded j hj hstate), hh.reconciled⟩

/-- Rows that are rewritten stay honest when a success is proven and stays, and a reconciliation
has one. -/
theorem HonestRows.rewrite {f : OrphanReconcileJob → OrphanReconcileJob}
    {g : ProcessIncarnation → ProcessIncarnation} (hh : HonestRows db proven)
    (hr : Rewrites db db' f g)
    (hproven : ∀ j ∈ db.jobs.rows, (f j).state = .succeeded →
      j.state = .succeeded ∨ j.id ∈ proven)
    (hstays : ∀ j ∈ db.jobs.rows, j.state = .succeeded → (f j).state = .succeeded)
    (hreconciled : ∀ inc ∈ db.incarnations.rows, (g inc).state = .reconciled →
      inc.state = .reconciled ∨
        ∃ j ∈ db.jobs.rows, j.incarnationId = inc.id ∧ j.state = .succeeded) :
    HonestRows db' proven where
  oneJob := by
    intro j hj j' hj' heq
    obtain ⟨j₀, hj₀, rfl, -⟩ := hr.effect j hj
    obtain ⟨j₁, hj₁, rfl, -⟩ := hr.effect j' hj'
    rw [hr.keeps, hr.keeps] at heq
    rw [hh.oneJob j₀ hj₀ j₁ hj₁ heq]
  known := by
    intro j hj
    obtain ⟨j₀, hj₀, rfl, -⟩ := hr.effect j hj
    rw [hr.keeps, hr.incarnations, Option.isSome_map]
    exact hh.known j₀ hj₀
  succeeded := by
    intro j hj hstate
    obtain ⟨j₀, hj₀, rfl, hid⟩ := hr.effect j hj
    rw [hid]
    obtain hbefore | hnew := hproven j₀ hj₀ hstate
    · exact hh.succeeded j₀ hj₀ hbefore
    · exact hnew
  reconciled := by
    intro inc hinc hstate
    obtain ⟨inc₀, hinc₀, rfl, hid⟩ := hr.incarnation inc hinc
    have hjob : ∃ j ∈ db.jobs.rows, j.incarnationId = inc₀.id ∧ j.state = .succeeded := by
      obtain hbefore | hnew := hreconciled inc₀ hinc₀ hstate
      · exact hh.reconciled inc₀ hinc₀ hbefore
      · exact hnew
    obtain ⟨j, hj, hinc, hsucceeded⟩ := hjob
    exact ⟨f j, hr.job hj, by rw [hr.keeps, hinc, hid], hstays j hj hsucceeded⟩

theorem HonestRows.setIncarnation (hh : HonestRows db proven) {id : String}
    {state : IncarnationState}
    (hstate : state = .reconciled →
      ∃ j ∈ db.jobs.rows, j.incarnationId = id ∧ j.state = .succeeded) :
    HonestRows (db.setIncarnation id state) proven := by
  apply hh.rewrite (rewrites_setIncarnation db id state)
  · intro j _ hj
    exact .inl hj
  · intro j _ hj
    exact hj
  · intro inc _ hinc
    split at hinc
    · next hid =>
      rw [hid]
      exact .inr (hstate hinc)
    · exact .inl hinc

/-- A job that is not succeeded is written back; if it is succeeded then, it is proven. -/
theorem HonestRows.setJob (hh : HonestRows db proven) {jobId : String}
    {f : OrphanReconcileJob → OrphanReconcileJob} {j : OrphanReconcileJob}
    (hj : db.jobs.get jobId = some j) (hbefore : j.state ≠ .succeeded)
    (hafter : (f j).state = .succeeded → jobId ∈ proven) : HonestRows (db.setJob jobId f) proven := by
  have hsame {j' : OrphanReconcileJob} (hj' : j' ∈ db.jobs.rows) (hid : j'.id = jobId) : j' = j := by
    have hget := (Table.mem_rows_iff _ _).mp hj'
    rw [hid, hj] at hget
    exact (Option.some.inj hget).symm
  apply hh.rewrite (rewrites_setJob db jobId f)
  · intro j' hj' hstate
    split at hstate
    · next hid =>
      obtain rfl := hsame hj' hid
      exact .inr (hid ▸ hafter hstate)
    · exact .inl hstate
  · intro j' hj' hstate
    split
    · next hid =>
      obtain rfl := hsame hj' hid
      exact (hbefore hstate).elim
    · exact hstate
  · intro inc _ hinc
    exact .inl hinc

theorem get_addJob {jobId source : String} {inc : ProcessIncarnation}
    (hfree : db.jobs.get jobId = none) (k : String) :
    (db.addJob jobId inc source).jobs.get k = if k = jobId then some
      { id := jobId, incarnationId := inc.id, terminalId := inc.terminalId
        terminalGeneration := inc.terminalGeneration, state := .pending, attempt := 0
        leaseOwner := none, leaseExpiresAt := none, nextAttemptAt := none, source := source
        lastResultJson := none } else db.jobs.get k := by
  rw [Jobs.addJob, Table.get_insert]
  by_cases hk : k = jobId
  · subst hk
    simp [hfree]
  · simp [hk, Ne.symm hk]

theorem mem_addJob {jobId source : String} {inc : ProcessIncarnation}
    (hfree : db.jobs.get jobId = none) {j : OrphanReconcileJob}
    (hj : j ∈ (db.addJob jobId inc source).jobs.rows) :
    (j.id = jobId ∧ j.incarnationId = inc.id ∧ j.state = .pending) ∨ j ∈ db.jobs.rows := by
  rw [Table.mem_rows_iff, get_addJob hfree] at hj
  split at hj
  · cases hj
    exact .inl ⟨rfl, rfl, rfl⟩
  · exact .inr ((Table.mem_rows_iff _ _).mpr hj)

theorem mem_addJob_of_mem {jobId source : String} {inc : ProcessIncarnation}
    (hfree : db.jobs.get jobId = none) {j : OrphanReconcileJob} (hj : j ∈ db.jobs.rows) :
    j ∈ (db.addJob jobId inc source).jobs.rows := by
  rw [Table.mem_rows_iff, get_addJob hfree, if_neg, (Table.mem_rows_iff _ _).mp hj]
  intro hid
  rw [Table.mem_rows_iff, hid, hfree] at hj
  cases hj

theorem HonestRows.addJob (hh : HonestRows db proven) {jobId source : String}
    {inc : ProcessIncarnation} (hfree : db.jobs.get jobId = none)
    (hknown : (db.incarnations.get inc.id).isSome) (hnone : db.jobOf inc.id = none) :
    HonestRows (db.addJob jobId inc source) proven := by
  rw [jobOf_eq_none_iff] at hnone
  refine ⟨?_, ?_, ?_, ?_⟩
  · intro j hj j' hj' heq
    have hget {x : OrphanReconcileJob} (hx : x ∈ (db.addJob jobId inc source).jobs.rows)
        (hid : x.id = jobId) : (db.addJob jobId inc source).jobs.get jobId = some x :=
      (congrArg _ hid.symm).trans ((Table.mem_rows_iff _ _).mp hx)
    obtain ⟨hid, hinc, -⟩ | hold := mem_addJob hfree hj
    · obtain ⟨hid', -, -⟩ | hold' := mem_addJob hfree hj'
      · exact Option.some.inj ((hget hj hid).symm.trans (hget hj' hid'))
      · exact (hnone j' hold' (heq ▸ hinc)).elim
    · obtain ⟨-, hinc', -⟩ | hold' := mem_addJob hfree hj'
      · exact (hnone j hold (heq.trans hinc')).elim
      · exact hh.oneJob j hold j' hold' heq
  · intro j hj
    obtain ⟨-, hinc, -⟩ | hold := mem_addJob hfree hj
    · rw [hinc]
      exact hknown
    · exact hh.known j hold
  · intro j hj hstate
    obtain ⟨-, -, hpending⟩ | hold := mem_addJob hfree hj
    · rw [hpending] at hstate
      cases hstate
    · exact hh.succeeded j hold hstate
  · intro inc' hinc' hstate
    obtain ⟨j, hj, hj'⟩ := hh.reconciled inc' hinc' hstate
    exact ⟨j, mem_addJob_of_mem hfree hj, hj'⟩

/-! ## What a transaction leaves to the executions -/

/-- Leased and succeeded jobs are left as they are, and none is leased anew. -/
structure Spares (db db' : Jobs) : Prop where
  held : ∀ id j, db.jobs.get id = some j → ∃ j', db'.jobs.get id = some j' ∧
    j'.incarnationId = j.incarnationId ∧
      (j.state = .leased ∨ j.state = .succeeded → j'.state = j.state)
  leased : ∀ j' ∈ db'.jobs.rows, j'.state = .leased → ∃ j ∈ db.jobs.rows, j.state = .leased
  known : ∀ id, (db.incarnations.get id).isSome → (db'.incarnations.get id).isSome

theorem Spares.refl (db : Jobs) : Spares db db :=
  ⟨fun _ j hj => ⟨j, hj, rfl, fun _ => rfl⟩, fun j hj hstate => ⟨j, hj, hstate⟩, fun _ hid => hid⟩

theorem Spares.trans {db'' : Jobs} (h₁ : Spares db db') (h₂ : Spares db' db'') :
    Spares db db'' where
  held := by
    intro id j hj
    obtain ⟨j', hj', hinc, hstate⟩ := h₁.held id j hj
    obtain ⟨j'', hj'', hinc', hstate'⟩ := h₂.held id j' hj'
    refine ⟨j'', hj'', hinc'.trans hinc, fun hheld => ?_⟩
    have hsame := hstate hheld
    rw [← hsame] at hheld
    exact (hstate' hheld).trans hsame
  leased := by
    intro j hj hstate
    obtain ⟨j', hj', hstate'⟩ := h₂.leased j hj hstate
    exact h₁.leased j' hj' hstate'
  known id hid := h₂.known id (h₁.known id hid)

theorem Rewrites.spares {f : OrphanReconcileJob → OrphanReconcileJob}
    {g : ProcessIncarnation → ProcessIncarnation} (hr : Rewrites db db' f g)
    (hheld : ∀ j ∈ db.jobs.rows, j.state = .leased ∨ j.state = .succeeded →
      (f j).state = j.state)
    (hleased : ∀ j ∈ db.jobs.rows, (f j).state = .leased → j.state = .leased) : Spares db db' where
  held := by
    intro id j hj
    have hmem := Table.mem_of_get hj
    exact ⟨f j, by rw [hr.jobs, hj]; rfl, hr.keeps j, hheld j hmem⟩
  leased := by
    intro j hj hstate
    obtain ⟨j₀, hj₀, rfl, -⟩ := hr.effect j hj
    exact ⟨j₀, hj₀, hleased j₀ hj₀ hstate⟩
  known id hid := by
    rw [hr.incarnations, Option.isSome_map]
    exact hid

theorem spares_setIncarnation (db : Jobs) (id : String) (state : IncarnationState) :
    Spares db (db.setIncarnation id state) :=
  (rewrites_setIncarnation db id state).spares (fun _ _ _ => rfl) fun _ _ hstate => hstate

theorem spares_addJob {jobId source : String} {inc : ProcessIncarnation}
    (hfree : db.jobs.get jobId = none) : Spares db (db.addJob jobId inc source) where
  held := by
    intro id j hj
    refine ⟨j, ?_, rfl, fun _ => rfl⟩
    rw [get_addJob hfree, if_neg, hj]
    rintro rfl
    rw [hfree] at hj
    cases hj
  leased := by
    intro j hj hstate
    obtain ⟨-, -, hpending⟩ | hold := mem_addJob hfree hj
    · rw [hpending] at hstate
      cases hstate
    · exact ⟨j, hold, hstate⟩
  known _ hid := hid

/-! ## Queueing -/

/-- A queueing call keeps the rows honest and leaves what is leased or succeeded alone. -/
structure Queues (db db' : Jobs) (proven : List String) : Prop where
  rows : HonestRows db' proven
  spares : Spares db db'

theorem Queues.refl (hh : HonestRows db proven) : Queues db db proven := ⟨hh, .refl db⟩

theorem Queues.setIncarnation {id : String} {state : IncarnationState}
    (hq : Queues db db' proven) (hstate : state ≠ .reconciled) :
    Queues db (db'.setIncarnation id state) proven :=
  ⟨hq.rows.setIncarnation fun heq => (hstate heq).elim,
    hq.spares.trans (spares_setIncarnation _ _ _)⟩

theorem Queues.normalize {inc : ProcessIncarnation} (hq : Queues db db' proven) :
    Queues db (db'.normalize inc) proven := by
  unfold Jobs.normalize
  split
  · exact hq.setIncarnation (by decide)
  · exact hq

@[simp] theorem jobs_setIncarnation (db : Jobs) (id : String) (state : IncarnationState) :
    (db.setIncarnation id state).jobs = db.jobs := rfl

@[simp] theorem jobs_normalize (db : Jobs) (inc : ProcessIncarnation) :
    (db.normalize inc).jobs = db.jobs := by
  unfold Jobs.normalize
  split <;> rfl

theorem Queues.addJob {jobId source : String} {inc : ProcessIncarnation}
    (hq : Queues db db' proven) (hjobs : db'.jobs = db.jobs) (hfree : db.jobs.get jobId = none)
    (hknown : (db.incarnations.get inc.id).isSome) (hnone : db.jobOf inc.id = none) :
    Queues db (db'.addJob jobId inc source) proven := by
  have hfree' : db'.jobs.get jobId = none := by rw [hjobs, hfree]
  have hnone' : db'.jobOf inc.id = none := by rw [Jobs.jobOf, hjobs]; exact hnone
  exact ⟨hq.rows.addJob hfree' (hq.spares.known _ hknown) hnone',
    hq.spares.trans (spares_addJob hfree')⟩

theorem queues_requestReconciliation (hh : HonestRows db proven) {id source jobId : String}
    (hfree : db.jobs.get jobId = none) :
    Queues db (requestReconciliation db id source jobId).2 proven := by
  unfold requestReconciliation
  split
  · exact .refl hh
  · next inc hinc =>
    have hid : inc.id = id := Table.key_of_get hinc
    split
    · exact .refl hh
    · split
      · exact .refl hh
      · next hnone =>
        have hknown : (db.incarnations.get inc.id).isSome := by rw [hid, hinc]; rfl
        rw [← hid] at hnone
        refine Queues.addJob ?_ ?_ hfree hknown hnone
        · split
          · exact (Queues.refl hh).setIncarnation (by decide)
          · exact .refl hh
        · split <;> rfl

theorem queues_forceReconcileIncarnation (hh : HonestRows db proven) {id source jobId : String}
    (hfree : db.jobs.get jobId = none) :
    Queues db (forceReconcileIncarnation db id source jobId).2 proven := by
  unfold forceReconcileIncarnation
  split
  · exact .refl hh
  · next inc hinc =>
    have hid : inc.id = id := Table.key_of_get hinc
    split
    · split
      · split <;> exact .refl hh
      · exact .refl hh
    · split
      · next hnone =>
        have hknown : (db.incarnations.get inc.id).isSome := by rw [hid, hinc]; rfl
        rw [← hid] at hnone
        exact (Queues.refl hh).normalize.addJob (jobs_normalize _ _) hfree hknown hnone
      · next existing hexisting =>
        obtain ⟨hmem, hincarnation⟩ := jobOf_eq_some hexisting
        have hget := (Table.mem_rows_iff _ _).mp hmem
        split
        · next hstate =>
          exact ⟨hh.setIncarnation fun _ => ⟨existing, hmem, hincarnation, hstate⟩,
            spares_setIncarnation _ _ _⟩
        · next hstate =>
          apply Queues.normalize
          refine ⟨hh.setJob hget (by rw [hstate]; decide) (fun hafter => by cases hafter), ?_⟩
          apply (rewrites_setJob _ _ _).spares
          · intro j hj hheld
            split
            · next hsame =>
              have hj' := (Table.mem_rows_iff _ _).mp hj
              rw [hsame, hget] at hj'
              cases hj'
              rw [hstate] at hheld
              obtain hleased | hsucceeded := hheld
              · cases hleased
              · cases hsucceeded
            · rfl
          · intro j _ hleased
            split at hleased
            · cases hleased
            · exact hleased
        · exact (Queues.refl hh).normalize

/-! ## Startup -/

theorem expireLeases_honest (hh : HonestRows db proven) (now : Nat) :
    HonestRows (expireLeases db now) proven := by
  apply hh.rewrite (rewrites_expireLeases db now)
  · intro j _ hstate
    split at hstate
    · cases hstate
    · exact .inl hstate
  · intro j _ hstate
    rw [if_neg]
    · exact hstate
    · simp [hstate]
  · intro inc _ hinc
    exact .inl hinc

theorem queues_forceQueue (uuid : String → Option String) (queued : String × String)
    (hh : HonestRows db proven) : Queues db (forceQueue uuid db queued) proven := by
  unfold forceQueue
  split
  · exact .refl hh
  · split
    · exact .refl hh
    · next hfree =>
      rw [Option.not_isSome_iff_eq_none] at hfree
      exact queues_forceReconcileIncarnation hh hfree

theorem queues_foldl (uuid : String → Option String) (queued : List (String × String))
    (hh : HonestRows db proven) : Queues db (queued.foldl (forceQueue uuid) db) proven := by
  induction queued generalizing db with
  | nil => exact .refl hh
  | cons first rest ih =>
    have hfirst := queues_forceQueue uuid first hh
    have hrest := ih hfirst.rows
    exact ⟨hrest.rows, hfirst.spares.trans hrest.spares⟩

/-- What a startup makes of honest rows: they stay honest, and what is leased behind it is what
the expiry of leases left. -/
theorem startupRecovery_queues (hh : HonestRows db proven) (now : Nat)
    (look : String → StaleLaunch) (uuid : String → Option String) :
    Queues (expireLeases db now) (startupRecovery db now look uuid) proven :=
  queues_foldl uuid _ (expireLeases_honest hh now)

/-- A job is leased behind a startup exactly when some lease had not expired. -/
theorem startupRecovery_leased_iff (hh : HonestRows db proven) (now : Nat)
    (look : String → StaleLaunch) (uuid : String → Option String) :
    (∀ j ∈ (startupRecovery db now look uuid).jobs.rows, j.state ≠ .leased) ↔
      ∀ j ∈ db.jobs.rows, j.state = .leased →
        ∃ expires, j.leaseExpiresAt = some expires ∧ expires < now := by
  have hqueues := startupRecovery_queues hh now look uuid
  have hexpire := rewrites_expireLeases db now
  constructor
  · intro hnone j hj hleased
    by_contra hopen
    have hkept := hexpire.job hj
    rw [if_neg] at hkept
    · obtain ⟨j', hj', -, hstate⟩ := hqueues.spares.held j.id j ((Table.mem_rows_iff _ _).mp hkept)
      exact hnone j' (Table.mem_of_get hj')
        ((hstate (.inl hleased)).trans hleased)
    · rw [Bool.and_eq_true, Option.any_eq_true]
      rintro ⟨-, expires, hexpires, hlt⟩
      exact hopen ⟨expires, hexpires, by simpa using hlt⟩
  · intro hexpired j hj hleased
    obtain ⟨j', hj', hleased'⟩ := hqueues.spares.leased j hj hleased
    obtain ⟨j₀, hj₀, rfl, -⟩ := hexpire.effect j' hj'
    split at hleased'
    · cases hleased'
    · next hopen =>
      obtain ⟨expires, hexpires, hlt⟩ := hexpired j₀ hj₀ hleased'
      exact hopen (by simp [hleased', hexpires, hlt])

/-! ## Executions -/

/-- What an execution needs of its job where it stands. -/
def Phase.Needs (proven : List String) (jobId : String) : Phase → JobState → Prop
  | .settling .missing, _ => False
  | .settling (.complete _), state => state = .leased ∧ jobId ∈ proven
  | .reconciling, state => state = .succeeded
  | .notifying, _ => True
  | _, state => state = .leased

/-- The job of an execution is held by it. -/
def Held (db : Jobs) (proven : List String) (e : Execution) : Prop :=
  ∃ j, db.jobs.get e.jobId = some j ∧ j.incarnationId = e.incarnationId ∧
    e.phase.Needs proven e.jobId j.state

structure Sound (h : Reconciler) : Prop where
  rows : HonestRows h.db h.proven
  held : ∀ e ∈ h.executions, Held h.db h.proven e
  single : (h.executions.map (·.jobId)).Nodup
  detached : h.detached.Nodup
  alone : h.dispatching = true ∨ h.executions ≠ [] → h.detached = []

theorem Phase.Needs.state {proven : List String} {jobId : String} {phase : Phase}
    {state : JobState} (hneeds : phase.Needs proven jobId state) (hphase : phase ≠ .notifying) :
    state = .leased ∨ state = .succeeded := by
  cases phase with
  | settling settlement =>
    cases settlement with
    | missing => exact hneeds.elim
    | complete _ => exact .inl hneeds.1
    | _ => exact .inl hneeds
  | reconciling => exact .inr hneeds
  | notifying => exact (hphase rfl).elim
  | _ => exact .inl hneeds

theorem Phase.Needs.mono {proven proven' : List String} {jobId : String} {phase : Phase}
    {state : JobState} (hneeds : phase.Needs proven jobId state)
    (hsub : ∀ id ∈ proven, id ∈ proven') : phase.Needs proven' jobId state := by
  cases phase with
  | settling settlement =>
    cases settlement with
    | complete _ => exact ⟨hneeds.1, hsub _ hneeds.2⟩
    | missing | retry | attention => exact hneeds
  | _ => exact hneeds

theorem Held.spares {e : Execution} (hheld : Held db proven e) (hs : Spares db db') :
    Held db' proven e := by
  obtain ⟨j, hj, hinc, hneeds⟩ := hheld
  obtain ⟨j', hj', hinc', hstate⟩ := hs.held e.jobId j hj
  refine ⟨j', hj', hinc'.trans hinc, ?_⟩
  by_cases hphase : e.phase = .notifying
  · rw [hphase]
    trivial
  · rw [hstate (hneeds.state hphase)]
    exact hneeds

/-- The other executions are of other jobs. -/
theorem Sound.other (hs : Sound h) {i k : Nat} {e e' : Execution} (he : h.executions[i]? = some e)
    (he' : h.executions[k]? = some e') (hne : k ≠ i) : e'.jobId ≠ e.jobId := by
  intro hsame
  have hi : (h.executions.map (·.jobId))[i]? = some e.jobId := by simp [he]
  have hk : (h.executions.map (·.jobId))[k]? = some e.jobId := by simp [he', hsame]
  have hlt : k < (h.executions.map (·.jobId)).length := (List.getElem?_eq_some_iff.mp hk).1
  exact hne ((List.getElem?_inj hlt hs.single).mp (hk.trans hi.symm))

theorem mem_goOn {i : Nat} {e x : Execution} {phase : Option Phase}
    (hx : x ∈ (h.goOn i e phase).executions) :
    (∃ p, phase = some p ∧ x = { e with phase := p }) ∨ ∃ k, k ≠ i ∧ h.executions[k]? = some x := by
  cases phase with
  | none =>
    obtain ⟨k, hk, hget⟩ := List.mem_eraseIdx_iff_getElem?.mp hx
    exact .inr ⟨k, hk, hget⟩
  | some p =>
    obtain ⟨k, hget⟩ := List.mem_iff_getElem?.mp hx
    simp only [Reconciler.goOn] at hget
    by_cases hk : k = i
    · subst hk
      rw [List.getElem?_set_self'] at hget
      obtain ⟨_, -, rfl⟩ := Option.map_eq_some_iff.mp hget
      exact .inl ⟨p, rfl, rfl⟩
    · rw [List.getElem?_set_ne (Ne.symm hk)] at hget
      exact .inr ⟨k, hk, hget⟩

/-- One execution moves: it holds its job where it stands then, and the others hold theirs. -/
theorem Sound.goOn (hs : Sound h) {i : Nat} {e : Execution} (he : h.executions[i]? = some e)
    {phase : Option Phase} {db' : Jobs} {proven' : List String}
    (hrows : HonestRows db' proven')
    (hothers : ∀ x ∈ h.executions, x.jobId ≠ e.jobId → Held db' proven' x)
    (hown : ∀ p, phase = some p → Held db' proven' { e with phase := p }) :
    Sound { h.goOn i e phase with db := db', proven := proven' } where
  rows := hrows
  held := by
    intro x hx
    obtain ⟨p, hp, rfl⟩ | ⟨k, hk, hget⟩ := mem_goOn hx
    · exact hown p hp
    · exact hothers x (List.mem_of_getElem? hget) (hs.other he hget hk)
  single := by
    cases phase with
    | none =>
      exact hs.single.sublist ((List.eraseIdx_sublist _ _).map _)
    | some p =>
      have hsame : (h.executions.set i { e with phase := p }).map (·.jobId) =
          h.executions.map (·.jobId) := by
        obtain ⟨hlt, rfl⟩ := List.getElem?_eq_some_iff.mp he
        rw [List.map_set]
        have hlt' : i < (h.executions.map (·.jobId)).length := by
          rw [List.length_map]
          exact hlt
        have hget : h.executions[i].jobId = (h.executions.map (·.jobId))[i] := by
          rw [List.getElem_map]
        simp only [hget, List.set_getElem_self]
      simp only [Reconciler.goOn, hsame]
      exact hs.single
  detached := hs.detached
  alone := by
    intro _
    exact hs.alone (.inr fun hnil => by rw [hnil] at he; cases he)

theorem Sound.attempts_nodup (hs : Sound h) : h.attempts.Nodup := by
  unfold Reconciler.attempts
  by_cases hnil : h.executions = []
  · rw [hnil]
    exact hs.detached
  · rw [hs.alone (.inr hnil), List.append_nil]
    exact hs.single.sublist (List.filter_sublist.map _)

/-! ## One step -/

theorem effect_of {α : Type} {P : α → Prop} (outcome : CallOutcome) {a b : α} (ha : P a)
    (hb : P b) : P (outcome.effect a b) := by
  unfold CallOutcome.effect
  split
  · exact ha
  · exact hb

theorem Sound.queues (hs : Sound h) (hq : Queues h.db db' h.proven) : Sound { h with db := db' } :=
  ⟨hq.rows, fun e he => (hs.held e he).spares hq.spares, hs.single, hs.detached, hs.alone⟩

theorem queues_reserve (hh : HonestRows db proven) (inc : ProcessIncarnation) :
    Queues db { db with incarnations := db.incarnations.insert { inc with state := .launching } }
      proven := by
  have hknown (id : String) (hid : (db.incarnations.get id).isSome) :
      ((db.incarnations.insert { inc with state := .launching }).get id).isSome := by
    rw [Table.get_insert, Option.isSome_or, hid, Bool.true_or]
  refine ⟨⟨hh.oneJob, fun j hj => hknown _ (hh.known j hj), hh.succeeded, ?_⟩,
    ⟨fun _ j hj => ⟨j, hj, rfl, fun _ => rfl⟩, fun j hj hstate => ⟨j, hj, hstate⟩, hknown⟩⟩
  intro inc' hinc' hstate
  rw [Table.mem_rows_iff, Table.get_insert, Option.or_eq_some_iff] at hinc'
  obtain hold | ⟨-, hnew⟩ := hinc'
  · exact hh.reconciled inc' ((Table.mem_rows_iff _ _).mpr hold) hstate
  · split at hnew
    · cases hnew
      cases hstate
    · cases hnew

theorem queues_transition (hh : HonestRows db proven) {id : String}
    {source target : IncarnationState} (htarget : target ≠ .reconciled) :
    Queues db (Reconciler.transition db id source target) proven := by
  unfold Reconciler.transition
  split
  · exact .refl hh
  · split
    · exact (Queues.refl hh).setIncarnation htarget
    · exact .refl hh

theorem get_setJob_of_ne {jobId k : String} (hne : k ≠ jobId)
    (f : OrphanReconcileJob → OrphanReconcileJob) :
    (db.setJob jobId f).jobs.get k = db.jobs.get k := by
  rw [Jobs.setJob, Table.get_updateKey]
  cases db.jobs.get k with
  | none => rfl
  | some j => simp [hne]

theorem get_setJob_self {jobId : String} {j : OrphanReconcileJob}
    (hj : db.jobs.get jobId = some j) (f : OrphanReconcileJob → OrphanReconcileJob) :
    (db.setJob jobId f).jobs.get jobId =
      some { f j with id := j.id, incarnationId := j.incarnationId } := by
  rw [Jobs.setJob, Table.get_updateKey, hj]
  simp

theorem Held.setJob_of_ne {e : Execution} {jobId : String} (hheld : Held db proven e)
    (hne : e.jobId ≠ jobId) (f : OrphanReconcileJob → OrphanReconcileJob) :
    Held (db.setJob jobId f) proven e := by
  obtain ⟨j, hj, hinc, hneeds⟩ := hheld
  exact ⟨j, by rw [get_setJob_of_ne hne, hj], hinc, hneeds⟩

/-- The transaction of a settlement, by an execution that holds its job. -/
theorem settle_spec (hh : HonestRows db proven) {e : Execution} {settlement : Settlement}
    (hphase : e.phase = .settling settlement) (hheld : Held db proven e) (now : Nat) :
    HonestRows (settle db e.jobId now settlement) proven ∧
      (∀ x, x.jobId ≠ e.jobId → Held db proven x →
        Held (settle db e.jobId now settlement) proven x) ∧
      ∀ p, settlement.next = some p →
        Held (settle db e.jobId now settlement) proven { e with phase := p } := by
  obtain ⟨j, hj, hinc, hneeds⟩ := hheld
  rw [hphase] at hneeds
  cases settlement with
  | missing => exact hneeds.elim
  | complete detail =>
    obtain ⟨hleased, hproven⟩ := hneeds
    refine ⟨hh.setJob hj (by rw [hleased]; decide) fun _ => hproven,
      fun x hne hx => hx.setJob_of_ne hne _, ?_⟩
    rintro p hp
    cases hp
    exact ⟨_, get_setJob_self hj _, hinc, rfl⟩
  | retry delay =>
    have hleased : j.state = .leased := hneeds
    exact ⟨hh.setJob hj (by rw [hleased]; decide) (fun hafter => by cases hafter),
      fun x hne hx => hx.setJob_of_ne hne _, fun p hp => by cases hp⟩
  | attention code =>
    have hleased : j.state = .leased := hneeds
    refine ⟨hh.setJob hj (by rw [hleased]; decide) (fun hafter => by cases hafter),
      fun x hne hx => hx.setJob_of_ne hne _, ?_⟩
    rintro p hp
    cases hp
    exact ⟨_, get_setJob_self hj _, hinc, trivial⟩

theorem Sound.settled (hs : Sound h) {i : Nat} {e : Execution} (he : h.executions[i]? = some e)
    {settlement : Settlement} (hphase : e.phase = .settling settlement) (now : Nat)
    (outcome : CallOutcome) :
    Sound { h.goOn i e (Reconciler.after outcome settlement.next) with
      db := outcome.effect h.db (settle h.db e.jobId now settlement) } := by
  have hheld := hs.held e (List.mem_of_getElem? he)
  obtain ⟨hrows, hothers, hown⟩ := settle_spec hs.rows hphase hheld now
  apply hs.goOn he
  · exact effect_of (P := fun db => HonestRows db h.proven) outcome hs.rows hrows
  · intro x hx hne
    exact effect_of (P := fun db => Held db h.proven x) outcome (hs.held x hx)
      (hothers x hne (hs.held x hx))
  · intro p hp
    cases outcome with
    | returns => exact hown p hp
    | raises applied => cases hp

/-- The rewriting of the jobs that are claimed. -/
theorem rewrites_claimJobs (db : Jobs) (chosen : List String) (limit now duration : Nat)
    (owner : String) :
    Rewrites db (claimJobs db chosen limit now duration owner).2
      (fun j => if decide (j.id ∈ (((db.jobs.select fun job => decide (job.id ∈ chosen) &&
          job.due now).take limit).map (·.id))) then
        { j with
          state := .leased, leaseOwner := some owner, leaseExpiresAt := some (now + duration)
          attempt := j.attempt + 1 } else j)
      fun inc => inc where
  jobs k := Table.get_update _ _ _ k
  incarnations _ := Option.map_id'.symm
  keeps j := by split <;> rfl

/-- What is claimed was due, and is leased then. -/
theorem mem_claimJobs {chosen : List String} {limit now duration : Nat} {owner : String}
    {pair : String × String}
    (hpair : pair ∈ (claimJobs db chosen limit now duration owner).1) :
    ∃ j ∈ db.jobs.rows, pair = (j.id, j.incarnationId) ∧ j.due now = true ∧
      ∃ j', (claimJobs db chosen limit now duration owner).2.jobs.get j.id = some j' ∧
        j'.incarnationId = j.incarnationId ∧ j'.state = .leased := by
  obtain ⟨j, hj, rfl⟩ := List.mem_map.mp hpair
  have hselected := List.mem_of_mem_take hj
  rw [Table.mem_select_iff, Bool.and_eq_true] at hselected
  obtain ⟨hget, -, hdue⟩ := hselected
  refine ⟨j, (Table.mem_rows_iff _ _).mpr hget, rfl, hdue, ?_⟩
  have hclaimed := (rewrites_claimJobs db chosen limit now duration owner).jobs j.id
  rw [hget, Option.map_some, if_pos (decide_eq_true (List.mem_map_of_mem hj))] at hclaimed
  exact ⟨_, hclaimed, rfl, rfl⟩

theorem claimJobs_nodup {chosen : List String} {limit now duration : Nat} {owner : String} :
    ((claimJobs db chosen limit now duration owner).1.map Prod.fst).Nodup := by
  rw [claimJobs, List.map_map]
  exact (db.jobs.select_nodup _).sublist ((List.take_sublist _ _).map _)

theorem claimJobs_honest (hh : HonestRows db proven) {chosen : List String}
    {limit now duration : Nat} {owner : String} :
    HonestRows (claimJobs db chosen limit now duration owner).2 proven := by
  apply hh.rewrite (rewrites_claimJobs db chosen limit now duration owner)
  · intro j _ hstate
    split at hstate
    · cases hstate
    · exact .inl hstate
  · intro j hj hstate
    rw [if_neg]
    · exact hstate
    · -- a succeeded job is not due
      rw [decide_eq_true_eq, List.mem_map]
      rintro ⟨j', hj', hid⟩
      have hselected := List.mem_of_mem_take hj'
      rw [Table.mem_select_iff, Bool.and_eq_true] at hselected
      obtain ⟨hget, -, hdue⟩ := hselected
      rw [hid, (Table.mem_rows_iff _ _).mp hj] at hget
      cases hget
      simp [OrphanReconcileJob.due, hstate] at hdue
  · intro inc _ hinc
    exact .inl hinc

/-- Only an attempt that returned success is settled as one. -/
theorem settlementOf_needs {jobId : String} {attempt : Nat} {outcome : AttemptOutcome}
    {state : JobState} (hleased : state = .leased) :
    (Phase.settling (settlementOf attempt outcome)).Needs
      (if outcome.succeeded then jobId :: proven else proven) jobId state := by
  cases outcome with
  | raised => exact hleased
  | result code detail =>
    simp only [settlementOf, AttemptOutcome.succeeded, decide_eq_true_eq]
    split
    · exact ⟨hleased, List.mem_cons_self⟩
    · split <;> exact hleased

theorem Sound.claim (hs : Sound h) (chosen : List String) (now : Nat) (owner : String)
    (outcome : CallOutcome) : Sound (h.step (.claim chosen now owner outcome)) := by
  simp only [Reconciler.step]
  split
  · next hcan =>
    have hdetached := hs.alone (.inl hcan.1)
    refine ⟨effect_of (P := fun db' => HonestRows db' h.proven) outcome hs.rows
      (claimJobs_honest hs.rows), ?_, ?_, hs.detached, fun _ => hdetached⟩
    · intro e he
      cases outcome with
      | raises applied => cases he
      | returns =>
        obtain ⟨pair, hpair, rfl⟩ := List.mem_map.mp he
        obtain ⟨j, -, rfl, -, j', hj', hinc, hleased⟩ := mem_claimJobs hpair
        exact ⟨j', hj', hinc, hleased⟩
    · cases outcome with
      | raises applied => exact List.nodup_nil
      | returns =>
        simp only [if_true, List.map_map]
        exact claimJobs_nodup
  · exact hs

/-- A step of one execution is sound if it is where the execution holds its job. -/
theorem Sound.ofExecution (hs : Sound h) {i : Nat} {f : Execution → Reconciler}
    (hf : ∀ e, h.executions[i]? = some e → Held h.db h.proven e → Sound (f e)) :
    Sound (h.ofExecution i f) := by
  unfold Reconciler.ofExecution
  split
  · exact hs
  · next e he => exact hf e he (hs.held e (List.mem_of_getElem? he))

theorem Sound.fetch (hs : Sound h) (i : Nat) (outcome : CallOutcome) :
    Sound (h.step (.fetch i outcome)) := by
  refine hs.ofExecution ?_
  rintro e he ⟨j, hj, hinc, hneeds⟩
  split
  · next hphase =>
    rw [hphase] at hneeds
    apply hs.goOn he hs.rows fun x hx _ => hs.held x hx
    intro p hp
    cases outcome with
    | raises applied => cases hp
    | returns =>
      cases hp
      refine ⟨j, hj, hinc, ?_⟩
      have hknown := hs.rows.known j (Table.mem_of_get hj)
      obtain ⟨inc, hget⟩ := Option.isSome_iff_exists.mp hknown
      rw [hinc] at hget
      simp only [hget]
      exact hneeds
  · exact hs

theorem Sound.readAttempt (hs : Sound h) (i : Nat) (outcome : CallOutcome) :
    Sound (h.step (.readAttempt i outcome)) := by
  refine hs.ofExecution ?_
  rintro e he ⟨j, hj, hinc, hneeds⟩
  split
  · next hphase =>
    rw [hphase] at hneeds
    apply hs.goOn he hs.rows fun x hx _ => hs.held x hx
    intro p hp
    cases outcome with
    | raises applied => cases hp
    | returns =>
      cases hp
      exact ⟨j, hj, hinc, hneeds⟩
  · exact hs

theorem Sound.attempted (hs : Sound h) (i : Nat) (outcome : AttemptOutcome) :
    Sound (h.step (.attempted i outcome)) := by
  refine hs.ofExecution ?_
  rintro e he ⟨j, hj, hinc, hneeds⟩
  split
  · next attempt hphase =>
    have hsub (id : String) (hid : id ∈ h.proven) :
        id ∈ if outcome.succeeded then e.jobId :: h.proven else h.proven := by
      split
      · exact List.mem_cons_of_mem _ hid
      · exact hid
    have hmono {x : Execution} (hx : Held h.db h.proven x) :
        Held h.db (if outcome.succeeded then e.jobId :: h.proven else h.proven) x := by
      obtain ⟨j, hj, hinc, hneeds⟩ := hx
      exact ⟨j, hj, hinc, hneeds.mono hsub⟩
    rw [hphase] at hneeds
    apply hs.goOn he (hs.rows.mono hsub) fun x hx _ => hmono (hs.held x hx)
    intro p hp
    cases hp
    exact ⟨j, hj, hinc, settlementOf_needs hneeds⟩
  · exact hs

theorem Sound.reconciled (hs : Sound h) (i : Nat) (outcome : CallOutcome) :
    Sound (h.step (.reconciled i outcome)) := by
  refine hs.ofExecution ?_
  rintro e he ⟨j, hj, hinc, hneeds⟩
  split
  · next hphase =>
    rw [hphase] at hneeds
    have hmem := Table.mem_of_get hj
    apply hs.goOn he
    · exact effect_of (P := fun db' => HonestRows db' h.proven) outcome hs.rows
        (hs.rows.setIncarnation fun _ => ⟨j, hmem, hinc, hneeds⟩)
    · intro x hx _
      exact effect_of (P := fun db' => Held db' h.proven x) outcome (hs.held x hx)
        ((hs.held x hx).spares (spares_setIncarnation _ _ _))
    · intro p hp
      cases hp
  · exact hs

/-- What a step leaves of the properties, whatever it is. -/
theorem Sound.step (hs : Sound h) (a : JobStep) : Sound (h.step a) := by
  cases a with
  | reserve inc => exact hs.queues (queues_reserve hs.rows inc)
  | request id source jobId outcome =>
    simp only [Reconciler.step]
    split
    · exact hs
    · next hfree =>
      rw [Option.not_isSome_iff_eq_none] at hfree
      exact hs.queues (effect_of (P := fun db' => Queues h.db db' h.proven) outcome
        (.refl hs.rows) (queues_requestReconciliation hs.rows hfree))
  | force id source jobId outcome =>
    simp only [Reconciler.step]
    split
    · exact hs
    · next hfree =>
      rw [Option.not_isSome_iff_eq_none] at hfree
      exact hs.queues (effect_of (P := fun db' => Queues h.db db' h.proven) outcome
        (.refl hs.rows) (queues_forceReconcileIncarnation hs.rows hfree))
  | claim chosen now owner outcome => exact hs.claim chosen now owner outcome
  | fetch i outcome => exact hs.fetch i outcome
  | readAttempt i outcome => exact hs.readAttempt i outcome
  | attempted i outcome => exact hs.attempted i outcome
  | settled i now outcome =>
    refine hs.ofExecution fun e he _ => ?_
    split
    · next settlement hphase => exact hs.settled he hphase now outcome
    · exact hs
  | reconciled i outcome => exact hs.reconciled i outcome
  | notified i =>
    refine hs.ofExecution fun e he _ => ?_
    split
    · have hended (p : Phase) (hp : none = some p) :
          Held h.db h.proven { e with phase := p } := by cases hp
      exact hs.goOn he hs.rows (fun x hx _ => hs.held x hx) hended
    · exact hs
  | cancel =>
    refine ⟨hs.rows, ?_, List.nodup_nil, hs.attempts_nodup, ?_⟩
    · intro e he
      cases he
    · intro hbusy
      simp [Reconciler.step] at hbusy
  | detachedEnds i =>
    refine ⟨hs.rows, hs.held, hs.single, hs.detached.sublist (List.eraseIdx_sublist _ _), ?_⟩
    intro hbusy
    simp only [Reconciler.step]
    rw [hs.alone hbusy, List.eraseIdx_nil]
  | kill =>
    refine ⟨hs.rows, ?_, List.nodup_nil, List.nodup_nil, fun _ => rfl⟩
    intro e he
    cases he
  | startup now look uuid outcome =>
    refine ⟨effect_of (P := fun db' => HonestRows db' h.proven) outcome hs.rows
      (startupRecovery_queues hs.rows now look uuid).rows, ?_, List.nodup_nil, List.nodup_nil,
      fun _ => rfl⟩
    intro e he
    cases he
  | _ => exact hs.queues (queues_transition hs.rows (by decide))

theorem Sound.exec (hs : Sound h) (a : JobStep) : Sound (h.exec a) := by
  obtain ⟨hrows, hheld, hsingle, hdetached, halone⟩ := hs.step a
  exact ⟨hrows, hheld, hsingle, hdetached, halone⟩

theorem Sound.truthful (hs : Sound h) : Truthful h :=
  ⟨hs.rows.oneJob, hs.rows.succeeded, hs.rows.reconciled, hs.attempts_nodup⟩

/-! ## Runs -/

theorem sound_start : Sound Reconciler.start := by
  refine ⟨⟨?_, ?_, ?_, ?_⟩, ?_, List.nodup_nil, List.nodup_nil, fun _ => rfl⟩
  · intro j hj
    cases hj
  · intro j hj
    cases hj
  · intro j hj
    cases hj
  · intro inc hinc
    cases hinc
  · intro e he
    cases he

/-- Behind a startup the unsettled jobs are due some time, exactly when no lease was open. -/
theorem rearmed_exec_iff (hs : Sound h) (a : JobStep) : Rearmed (h.exec a) ↔ LeasesExpired h a := by
  cases a with
  | startup now look uuid outcome =>
    cases outcome with
    | raises applied => exact iff_of_true (fun hrecovered => by cases hrecovered) trivial
    | returns =>
      refine Iff.trans ?_ (startupRecovery_leased_iff hs.rows now look uuid)
      constructor
      · intro hrearmed j hj hleased
        have hdue := due_eventually_iff.mp (hrearmed rfl j hj (by rw [hleased]; decide)
          (by rw [hleased]; decide))
        rw [hleased] at hdue
        obtain hpending | hretry := hdue
        · cases hpending
        · cases hretry
      · intro hnone _ j hj hsucceeded hattention
        rw [due_eventually_iff]
        have hfree := hnone j hj
        cases hstate : j.state with
        | pending => exact .inl rfl
        | retryWait => exact .inr rfl
        | leased => exact (hfree hstate).elim
        | succeeded => exact (hsucceeded hstate).elim
        | attentionRequired => exact (hattention hstate).elim
  | _ => exact iff_of_true (fun hrecovered => by cases hrecovered) trivial

/-- In every run the rows are truthful, and the unsettled jobs are due some time behind each
startup exactly when every startup that comes through finds the leases expired. -/
theorem jobs_honest_iff (steps : List JobStep) :
    (∀ before after, steps = before ++ after →
        Truthful (run Reconciler.exec .start before) ∧ Rearmed (run Reconciler.exec .start before)) ↔
      StepsSatisfy Reconciler.exec LeasesExpired .start steps := by
  have hrun := forall_states_iff LeasesExpired Sound Rearmed (fun _ a hs => hs.exec a)
    (fun _ a hs _ => rearmed_exec_iff hs a) Reconciler.start sound_start
    (fun hrecovered => by cases hrecovered) steps
  rw [← hrun]
  constructor
  · intro hall before after heq
    exact (hall before after heq).2
  · intro hall before after heq
    have hsound : Sound (run Reconciler.exec .start before) :=
      run_invariant Sound (fun _ a hs => hs.exec a) _ sound_start before
    exact ⟨hsound.truthful, hall before after heq⟩

/-- The server is killed while a job is leased and comes back five seconds later. -/
def quickRestart : List JobStep :=
  [.startup 0 (fun _ => .unproven) (fun _ => none) .returns,
    .reserve ⟨"inc-1", "t-1", 1, .launching, 0⟩, .activate "inc-1",
    .request "inc-1" "pane_gone" "job-1" .returns,
    .claim ["job-1"] 1000000 "dispatcher" .returns, .kill,
    .startup 6000000 (fun _ => .unproven) (fun _ => none) .returns]

/-- Behind the second startup the job is still leased, to a dispatcher that is gone. -/
theorem quickRestart_not_rearmed :
    ¬ ∀ steps : List JobStep, Rearmed (run Reconciler.exec .start steps) := by
  intro h
  have hjob : (run Reconciler.exec .start quickRestart).db.jobs.get "job-1" =
      some ⟨"job-1", "inc-1", "t-1", 1, .leased, 1, some "dispatcher", some 31000000, none,
        "pane_gone", none⟩ := by decide +kernel
  have hdue := h quickRestart rfl _ (Table.mem_of_get hjob) (by decide)
    (by decide)
  obtain hpending | hretry := due_eventually_iff.mp hdue
  · cases hpending
  · cases hretry

end CliAgentOrchestrator.Orphan
