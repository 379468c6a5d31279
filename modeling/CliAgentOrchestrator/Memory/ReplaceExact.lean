import CliAgentOrchestrator.Memory.ReplaceSet

/-!
# The replacement is exact

A call that returns leaves the rows an operator decided on and one active row for each other valid
target, with the values of its last valid edge; the other rows stay, and the counts of the report split
the old and the new targets. The one value that is not carried is a confidence that is not a number: no
comparison refuses it, and the column of reals has no place for it (`replaceSet_exact_iff`).
-/

set_option autoImplicit false

namespace CliAgentOrchestrator.Memory

open Library

/-! ## What exact means -/

section Exact

variable (w : ReplaceWorld) (c : ReplaceCall)

/-- The sanitised source of a call. -/
def ReplaceCall.source : Text := (sanitizeKey c.sourceKey).getD []

/-- The rows of the tuple a call is about. -/
def ReplaceCall.owns (r : RelationshipRow) : Bool := inTuple c c.source r

/-- The row carries the values of an edge. -/
structure Carries (e : EdgeInput) (r : RelationshipRow) : Prop where
  status : r.status = text "active"
  confidence : validateConfidence e.confidence = .ok r.confidence
  rank : r.rank = e.rank
  attributes : validateAttributes e.attributes = some r.attributesJson

/-- The last valid edge of a target on which no operator decided. -/
def Writes (before : RelationshipTable) (tgt : Text) (e : EdgeInput) : Prop :=
  lastValid w c c.source tgt = some e
    ∧ ∀ r ∈ before.rows, c.owns r = true → r.targetKey = tgt → isTerminal r = false

def oldTargets (before : RelationshipTable) : Finset Text :=
  ((before.rows.filter c.owns).map (·.targetKey)).toFinset

def newTargets : Finset Text := (c.edges.filterMap (validTarget w c c.source)).toFinset

def decidedTargets (before : RelationshipTable) : Finset Text :=
  (((before.rows.filter c.owns).filter isTerminal).map (·.targetKey)).toFinset

/-- A row without the times of its last change. -/
def untimed (r : RelationshipRow) : RelationshipRow :=
  { r with sourceUpdatedAt := none, updatedAt := none }

/-- The report counts the parts of the old and the new targets, and lists the rows it left as they
are. -/
structure Partitions (before : RelationshipTable) (report : ReplaceReport) : Prop where
  added : report.added = (newTargets w c \ oldTargets c before).card
  kept : report.kept = ((oldTargets c before ∩ newTargets w c) \ decidedTargets c before).card
  removed : report.removed = ((oldTargets c before \ newTargets w c) \ decidedTargets c before).card
  preserved :
    report.preserved.Perm
      (((before.rows.filter c.owns).filter isTerminal).map fun r => (r.targetKey, r.status))
  total :
    report.added + report.kept + report.removed + report.preserved.length
      = (oldTargets c before ∪ newTargets w c).card

/-- An exact replacement. -/
structure Exact (before after : RelationshipTable) (report : ReplaceReport) : Prop where
  decided : ∀ r ∈ before.rows, c.owns r = true → isTerminal r = true → r ∈ after.rows
  written : ∀ tgt e, Writes w c before tgt e →
    ∃ r ∈ after.rows, (c.owns r = true ∧ r.targetKey = tgt ∧ Carries e r)
      ∧ ∀ x ∈ after.rows, c.owns x = true → x.targetKey = tgt → x = r
  only : ∀ r ∈ after.rows, c.owns r = true →
    (r ∈ before.rows ∧ isTerminal r = true) ∨ ∃ e, Writes w c before r.targetKey e ∧ Carries e r
  others : after.rows.filter (fun r => !c.owns r) = before.rows.filter fun r => !c.owns r
  again : ∀ w' : ReplaceWorld, w'.memories = w.memories →
    (replaceSet w' c after).2.rows.map untimed = after.rows.map untimed
  report : Partitions w c before report

end Exact

/-! ## The rows that are left -/

section Rows

variable {w : ReplaceWorld} {c : ReplaceCall} {before after : RelationshipTable}
  {valid : Dict Text EdgeInput}

/-- A call that returned wrote the set of its last valid edges. -/
structure Replaced (w : ReplaceWorld) (c : ReplaceCall) (before after : RelationshipTable)
    (valid : Dict Text EdgeInput) : Prop where
  find : ∀ tgt, valid.find tgt = lastValid w c c.source tgt
  rows : after.rows = (replacedRows w c c.source before valid).map stored

/-- Every confidence the call writes is a number. -/
def Numbers (w : ReplaceWorld) (c : ReplaceCall) (before : RelationshipTable) : Prop :=
  ∀ tgt e, Writes w c before tgt e → e.confidence ≠ .float .nan

theorem replaced_of_returns {report : ReplaceReport}
    (h : replaceSet w c before = (.ok report, after)) :
    ∃ valid rejected, Replaced w c before after valid
      ∧ report = replacedReport c c.source before valid rejected := by
  obtain ⟨src, valid, rejected, hsource, hfind, hrows, hreport⟩ := replaceSet_ok h
  have hsrc : c.source = src := by rw [ReplaceCall.source, hsource]; rfl
  subst hsrc
  exact ⟨valid, rejected, ⟨hfind, hrows⟩, hreport⟩

theorem stored_of_number {r : RelationshipRow} (h : r.confidence ≠ some .nan) : stored r = r :=
  if_neg h

/-- A NaN passes the check of the range. -/
theorem validateConfidence_eq_nan {x : Confidence} :
    validateConfidence x = .ok (some .nan) ↔ x = .float .nan := by
  constructor
  · intro h
    cases x with
    | int n =>
      unfold validateConfidence at h
      dsimp only at h
      split_ifs at h
      exact nomatch h
    | float y =>
      unfold validateConfidence at h
      dsimp only at h
      split_ifs at h
      rw [Option.some.inj (Except.ok.inj h)]
    | _ => exact nomatch h
  · rintro rfl
    rfl

/-- A valid edge is written with the values that passed. -/
theorem carries_of_validTarget {e : EdgeInput} {tgt : Text} {r : RelationshipRow}
    (h : validTarget w c c.source e = some tgt) (hstatus : r.status = text "active")
    (hconf : r.confidence = confidenceOf e) (hrank : r.rank = e.rank)
    (hattrs : r.attributesJson = attributesOf e) : Carries e r := by
  obtain ⟨confidence, attributes, hconfidence, hattributes⟩ := checks_of_validTarget h
  refine ⟨hstatus, ?_, hrank, ?_⟩
  · rw [hconf, confidenceOf, hconfidence]
    rfl
  · rw [hattrs, attributesOf, hattributes]
    rfl

theorem Carries.confidence_eq {e : EdgeInput} {r : RelationshipRow} (h : Carries e r) :
    confidenceOf e = r.confidence := by
  rw [confidenceOf, h.confidence]
  rfl

theorem Carries.attributes_eq {e : EdgeInput} {r : RelationshipRow} (h : Carries e r) :
    attributesOf e = r.attributesJson := by
  rw [attributesOf, h.attributes]
  rfl

/-- The columns that place a row stay. -/
theorem edge_settled (r : RelationshipRow) :
    (settled w c c.source valid r).edge = r.edge ∧ (settled w c c.source valid r).id = r.id := by
  unfold settled
  split_ifs
  · split <;> exact ⟨rfl, rfl⟩
  · exact ⟨rfl, rfl⟩

theorem owns_of_edge {r x : RelationshipRow} (h : r.edge = x.edge) : c.owns r = c.owns x := by
  obtain ⟨hscope, hscopeId, hsource, -, htype, horigin⟩ := RelationshipEdge.mk.inj h
  simp only [ReplaceCall.owns, inTuple, hscope, hscopeId, hsource, htype, horigin]

theorem owns_settled (r : RelationshipRow) : c.owns (settled w c c.source valid r) = c.owns r :=
  owns_of_edge (edge_settled r).1

theorem targetKey_settled (r : RelationshipRow) :
    (settled w c c.source valid r).targetKey = r.targetKey :=
  (RelationshipEdge.mk.inj (edge_settled r).1).2.2.2.1

theorem settled_of_not {r : RelationshipRow} (h : ¬ (c.owns r = true ∧ isTerminal r = false)) :
    settled w c c.source valid r = r := by
  unfold settled
  rw [if_neg]
  simpa [ReplaceCall.owns] using h

theorem settled_of_find {r : RelationshipRow} {e : EdgeInput} (howns : c.owns r = true)
    (hterminal : isTerminal r = false) (hfind : valid.find r.targetKey = some e) :
    settled w c c.source valid r
      = rewrite w c c.source e (confidenceOf e) (attributesOf e) r := by
  have howns' : inTuple c c.source r = true := howns
  simp only [settled, howns', hterminal, hfind]
  rfl

theorem owns_added (entry : Text × EdgeInput) : c.owns (added w c c.source entry) = true :=
  inTuple_iff.mpr ⟨rfl, rfl, rfl, rfl, rfl⟩

theorem Replaced.validTarget (h : Replaced w c before after valid) {tgt : Text} {e : EdgeInput}
    (hfind : valid.find tgt = some e) : validTarget w c c.source e = some tgt := by
  rw [h.find] at hfind
  exact validTarget_of_lastValid hfind

/-- A row that is rewritten is that of a target without a decision. -/
theorem Replaced.writes_of_row (h : Replaced w c before after valid) {x : RelationshipRow}
    {e : EdgeInput} (hx : x ∈ before.rows) (howns : c.owns x = true)
    (hterminal : isTerminal x = false) (hfind : valid.find x.targetKey = some e) :
    Writes w c before x.targetKey e := by
  refine ⟨(h.find _).symm.trans hfind, ?_⟩
  intro r hr hrowns hkey
  rw [eq_of_target hr hx hrowns howns hkey]
  exact hterminal

theorem Replaced.writes_of_added (h : Replaced w c before after valid) {entry : Text × EdgeInput}
    (hentry : entry ∈ valid.rows)
    (hadded : isAdded (before.rows.filter (inTuple c c.source)) entry = true) :
    Writes w c before entry.1 entry.2 := by
  refine ⟨(h.find _).symm.trans (Dict.find_eq_some_iff.mpr hentry), ?_⟩
  intro r hr hrowns hkey
  exact absurd hkey (rowFor_eq_none_iff.mp (Option.isNone_iff_eq_none.mp hadded) r hr hrowns)

theorem mem_replacedRows {r : RelationshipRow} :
    r ∈ replacedRows w c c.source before valid
      ↔ (∃ x ∈ before.rows, (c.owns x = true → isDropped valid x = false)
          ∧ settled w c c.source valid x = r)
        ∨ ∃ entry ∈ valid.rows, isAdded (before.rows.filter (inTuple c c.source)) entry = true
          ∧ added w c c.source entry = r := by
  unfold replacedRows
  rw [List.mem_append, List.mem_map, List.mem_map]
  apply or_congr
  · apply exists_congr
    intro x
    have hkept : (!(inTuple c c.source x && isDropped valid x)) = true
        ↔ (c.owns x = true → isDropped valid x = false) := by
      cases howns : inTuple c c.source x <;> simp [ReplaceCall.owns, howns]
    rw [List.mem_filter, and_assoc, hkept]
  · apply exists_congr
    intro entry
    rw [List.mem_filter, and_assoc]

/-- A row that is left was there before, or carries the last valid edge of its target. -/
theorem Replaced.row_cases (h : Replaced w c before after valid) {r : RelationshipRow}
    (hr : r ∈ replacedRows w c c.source before valid) :
    (r ∈ before.rows ∧ (c.owns r = true → isTerminal r = true))
      ∨ ∃ e, Writes w c before r.targetKey e ∧ Carries e r := by
  rcases mem_replacedRows.mp hr with ⟨x, hx, hkept, rfl⟩ | ⟨entry, hentry, hadded, rfl⟩
  · by_cases hown : c.owns x = true ∧ isTerminal x = false
    · obtain ⟨howns, hterminal⟩ := hown
      have hdropped := hkept howns
      rw [isDropped, hterminal, Bool.not_false, Bool.and_true, Bool.not_eq_false'] at hdropped
      obtain ⟨e, hfind⟩ := Option.isSome_iff_exists.mp hdropped
      right
      refine ⟨e, ?_, ?_⟩
      · rw [targetKey_settled]
        exact h.writes_of_row hx howns hterminal hfind
      · rw [settled_of_find howns hterminal hfind]
        exact carries_of_validTarget (h.validTarget hfind) rfl rfl rfl rfl
    · left
      rw [settled_of_not hown]
      refine ⟨hx, fun howns => ?_⟩
      by_contra hterminal
      exact hown ⟨howns, by simpa using hterminal⟩
  · right
    have hfind := Dict.find_eq_some_iff.mpr hentry
    exact ⟨entry.2, h.writes_of_added hentry hadded,
      carries_of_validTarget (h.validTarget hfind) rfl rfl rfl rfl⟩

/-- Where every confidence is a number, the rows are stored as they are. -/
theorem Replaced.rows_eq (h : Replaced w c before after valid) (hnumbers : Numbers w c before) :
    after.rows = replacedRows w c c.source before valid := by
  rw [h.rows]
  refine (List.map_congr_left (g := id) fun r hr => ?_).trans (List.map_id _)
  apply stored_of_number
  rcases h.row_cases hr with ⟨hbefore, -⟩ | ⟨e, hwrites, hcarries⟩
  · exact before.reals r hbefore
  · intro hnan
    have hconf := hcarries.confidence
    rw [hnan, validateConfidence_eq_nan] at hconf
    exact hnumbers _ _ hwrites hconf

/-- A written target has a row. -/
theorem Replaced.exists_row (h : Replaced w c before after valid) {tgt : Text} {e : EdgeInput}
    (hwrites : Writes w c before tgt e) :
    ∃ r ∈ replacedRows w c c.source before valid, c.owns r = true ∧ r.targetKey = tgt := by
  have hfind : valid.find tgt = some e := (h.find tgt).trans hwrites.1
  cases hrow : rowFor (before.rows.filter (inTuple c c.source)) tgt with
  | some x =>
    obtain ⟨hx, howns, hkey⟩ := rowFor_eq_some_iff.mp hrow
    refine ⟨settled w c c.source valid x, ?_, ?_, ?_⟩
    · refine mem_replacedRows.mpr (Or.inl ⟨x, hx, fun _ => ?_, rfl⟩)
      simp [isDropped, hkey, hfind]
    · rw [owns_settled]
      exact howns
    · rw [targetKey_settled]
      exact hkey
  | none =>
    refine ⟨added w c c.source (tgt, e), ?_, owns_added _, rfl⟩
    refine mem_replacedRows.mpr (Or.inr ⟨(tgt, e), Dict.find_eq_some_iff.mp hfind, ?_, rfl⟩)
    simp [isAdded, hrow]

/-- A row an operator decided on stays. -/
theorem terminal_stays {r : RelationshipRow} (hr : r ∈ before.rows)
    (hterminal : isTerminal r = true) : r ∈ replacedRows w c c.source before valid := by
  refine mem_replacedRows.mpr (Or.inl ⟨r, hr, fun _ => ?_, ?_⟩)
  · simp [isDropped, hterminal]
  · apply settled_of_not
    simp [hterminal]

theorem filter_replacedRows_others :
    (replacedRows w c c.source before valid).filter (fun r => !c.owns r)
      = before.rows.filter fun r => !c.owns r := by
  unfold replacedRows
  have hadded : ((valid.rows.filter (isAdded (before.rows.filter (inTuple c c.source)))).map
      (added w c c.source)).filter (fun r => !c.owns r) = [] := by
    rw [List.filter_eq_nil_iff]
    intro r hr
    obtain ⟨entry, -, rfl⟩ := List.mem_map.mp hr
    simp [owns_added]
  rw [List.filter_append, hadded, List.append_nil, List.filter_map, List.filter_filter]
  have hsame : (before.rows.filter fun x => ((fun r => !c.owns r) ∘ settled w c c.source valid) x
      && !(inTuple c c.source x && isDropped valid x)) = before.rows.filter fun r => !c.owns r := by
    apply List.filter_congr
    intro x _
    rw [Function.comp_apply, owns_settled]
    by_cases howns : c.owns x = true
    · simp [howns]
    · have hout : inTuple c c.source x = false := by simpa [ReplaceCall.owns] using howns
      simp [howns, hout]
  rw [hsame]
  refine (List.map_congr_left (g := id) fun x hx => ?_).trans (List.map_id _)
  have hout := (List.mem_filter.mp hx).2
  apply settled_of_not
  simp_all

end Rows

/-! ## The call again -/

section Again

variable {w w' : ReplaceWorld} {c : ReplaceCall} {before after : RelationshipTable}
  {valid valid' : Dict Text EdgeInput}

/-- What is valid depends on the memories alone. -/
theorem lastValid_congr (hmem : w'.memories = w.memories) (tgt : Text) :
    lastValid w' c c.source tgt = lastValid w c c.source tgt := by
  unfold lastValid validTarget
  rw [hmem]

/-- Every row of an exact replacement is written with what it carries. -/
theorem untimed_settled {r : RelationshipRow} {e : EdgeInput} (howns : c.owns r = true)
    (hterminal : isTerminal r = false) (hfind : valid'.find r.targetKey = some e)
    (hcarries : Carries e r) : untimed (settled w' c c.source valid' r) = untimed r := by
  rw [settled_of_find howns hterminal hfind, hcarries.confidence_eq, hcarries.attributes_eq]
  unfold rewrite untimed
  rw [← hcarries.status, ← hcarries.rank]

theorem untimed_stored {r : RelationshipRow} (h : r.confidence ≠ some .nan) :
    untimed (stored r) = untimed r := by
  rw [stored_of_number h]

theorem confidence_of_untimed {r x : RelationshipRow} (h : untimed r = untimed x) :
    r.confidence = x.confidence :=
  congrArg (·.confidence) h

/-- After an exact replacement the same set drops no row, adds none and rewrites each with the values it
has. -/
theorem untimed_replacedRows (hmem : w'.memories = w.memories)
    (hfind : ∀ tgt, valid'.find tgt = lastValid w' c c.source tgt)
    (honly : ∀ r ∈ after.rows, c.owns r = true →
      (r ∈ before.rows ∧ isTerminal r = true)
        ∨ ∃ e, Writes w c before r.targetKey e ∧ Carries e r)
    (hrow : ∀ tgt e, lastValid w c c.source tgt = some e →
      ∃ r ∈ after.rows, c.owns r = true ∧ r.targetKey = tgt) :
    ((replacedRows w' c c.source after valid').map stored).map untimed = after.rows.map untimed := by
  have hvalid : ∀ r ∈ after.rows, c.owns r = true → isTerminal r = false →
      ∃ e, valid'.find r.targetKey = some e ∧ Carries e r := by
    intro r hr howns hterminal
    rcases honly r hr howns with ⟨-, hdecided⟩ | ⟨e, hwrites, hcarries⟩
    · rw [hterminal] at hdecided
      exact nomatch hdecided
    · exact ⟨e, ((hfind _).trans (lastValid_congr hmem _)).trans hwrites.1, hcarries⟩
  have hkept : (after.rows.filter fun x => !(inTuple c c.source x && isDropped valid' x))
      = after.rows := by
    rw [List.filter_eq_self]
    intro r hr
    by_cases hown : c.owns r = true ∧ isTerminal r = false
    · obtain ⟨e, hsome, -⟩ := hvalid r hr hown.1 hown.2
      simp [isDropped, hsome]
    · rcases Bool.eq_false_or_eq_true (isTerminal r) with hterminal | hterminal
      · simp [isDropped, hterminal]
      · have hout : inTuple c c.source r = false := by
          simpa [ReplaceCall.owns, hterminal] using hown
        simp [hout]
  have hnone : valid'.rows.filter (isAdded (after.rows.filter (inTuple c c.source))) = [] := by
    rw [List.filter_eq_nil_iff]
    rintro ⟨tgt, e⟩ hentry hadded
    have hlast := ((lastValid_congr hmem tgt).symm.trans (hfind tgt).symm).trans
      (Dict.find_eq_some_iff.mpr hentry)
    obtain ⟨r, hr, howns, hkey⟩ := hrow tgt e hlast
    exact rowFor_eq_none_iff.mp (Option.isNone_iff_eq_none.mp hadded) r hr howns hkey
  rw [replacedRows, hkept, hnone, List.map_nil, List.append_nil, List.map_map, List.map_map]
  apply List.map_congr_left
  intro r hr
  have hsame : untimed (settled w' c c.source valid' r) = untimed r := by
    by_cases hown : c.owns r = true ∧ isTerminal r = false
    · obtain ⟨e, hsome, hcarries⟩ := hvalid r hr hown.1 hown.2
      exact untimed_settled hown.1 hown.2 hsome hcarries
    · rw [settled_of_not hown]
  refine (untimed_stored ?_).trans hsame
  rw [confidence_of_untimed hsame]
  exact after.reals r hr

end Again

/-! ## The report -/

section Report

variable {w : ReplaceWorld} {c : ReplaceCall} {before after : RelationshipTable}
  {valid : Dict Text EdgeInput}

theorem rowFor_owns_eq_some {tgt : Text} {r : RelationshipRow} :
    rowFor (before.rows.filter c.owns) tgt = some r
      ↔ r ∈ before.rows ∧ c.owns r = true ∧ r.targetKey = tgt :=
  rowFor_eq_some_iff

theorem rowFor_owns_eq_none {tgt : Text} :
    rowFor (before.rows.filter c.owns) tgt = none
      ↔ ∀ r ∈ before.rows, c.owns r = true → r.targetKey ≠ tgt :=
  rowFor_eq_none_iff

theorem mem_oldTargets {tgt : Text} :
    tgt ∈ oldTargets c before ↔ ∃ r ∈ before.rows, c.owns r = true ∧ r.targetKey = tgt := by
  simp [oldTargets, and_assoc]

theorem mem_decidedTargets {tgt : Text} :
    tgt ∈ decidedTargets c before
      ↔ ∃ r ∈ before.rows, isTerminal r = true ∧ c.owns r = true ∧ r.targetKey = tgt := by
  simp [decidedTargets, and_assoc]

theorem mem_newTargets {tgt : Text} :
    tgt ∈ newTargets w c ↔ (lastValid w c c.source tgt).isSome = true := by
  rw [newTargets, List.mem_toFinset, List.mem_filterMap, lastValid, List.getLast?_isSome]
  constructor
  · rintro ⟨e, he, hvalid⟩ hnil
    have hmem : e ∈ c.edges.filter fun e => validTarget w c c.source e = some tgt :=
      List.mem_filter.mpr ⟨he, by simpa using hvalid⟩
    rw [hnil] at hmem
    exact List.not_mem_nil hmem
  · intro hne
    obtain ⟨e, he⟩ := List.exists_mem_of_ne_nil _ hne
    exact ⟨e, List.mem_of_mem_filter he, by simpa using (List.mem_filter.mp he).2⟩

theorem Replaced.mem_newTargets (h : Replaced w c before after valid) {tgt : Text} :
    tgt ∈ newTargets w c ↔ ∃ e, (tgt, e) ∈ valid.rows := by
  rw [Memory.mem_newTargets, ← h.find, Option.isSome_iff_exists]
  exact exists_congr fun e => Dict.find_eq_some_iff

theorem nodup_rows : before.rows.Nodup := before.ids.of_map

/-- Rows of the tuple are as many as their targets. -/
theorem length_eq_card_targets {rows : List RelationshipRow}
    (hrows : rows.Sublist (before.rows.filter c.owns)) :
    rows.length = (rows.map (·.targetKey)).toFinset.card := by
  have hnodup : (rows.map (·.targetKey)).Nodup := by
    apply List.Nodup.map_on
    · intro r hr x hx hkey
      obtain ⟨hr, hrowns⟩ := List.mem_filter.mp (hrows.subset hr)
      obtain ⟨hx, hxowns⟩ := List.mem_filter.mp (hrows.subset hx)
      exact eq_of_target hr hx hrowns hxowns hkey
    · exact (nodup_rows.filter _).sublist hrows
  rw [List.toFinset_card_of_nodup hnodup, List.length_map]

/-- Entries of the set are as many as their targets. -/
theorem length_eq_card_keys (p : Text × EdgeInput → Bool) :
    (valid.rows.filter p).length = ((valid.rows.filter p).map Prod.fst).toFinset.card := by
  have hnodup : ((valid.rows.filter p).map Prod.fst).Nodup :=
    valid.unique.sublist (List.filter_sublist.map _)
  rw [List.toFinset_card_of_nodup hnodup, List.length_map]

theorem mem_keys_filter {p : Text × EdgeInput → Bool} {tgt : Text} :
    tgt ∈ ((valid.rows.filter p).map Prod.fst).toFinset
      ↔ ∃ e, (tgt, e) ∈ valid.rows ∧ p (tgt, e) = true := by
  simp

theorem Replaced.added_card (h : Replaced w c before after valid) :
    (valid.rows.filter (isAdded (before.rows.filter c.owns))).length
      = (newTargets w c \ oldTargets c before).card := by
  rw [length_eq_card_keys]
  congr 1
  ext tgt
  rw [mem_keys_filter, Finset.mem_sdiff, h.mem_newTargets, mem_oldTargets]
  have hnone : ∀ e : EdgeInput, isAdded (before.rows.filter c.owns) (tgt, e) = true
      ↔ ¬ ∃ r ∈ before.rows, c.owns r = true ∧ r.targetKey = tgt := by
    intro e
    rw [isAdded, Option.isNone_iff_eq_none]
    refine rowFor_owns_eq_none.trans ?_
    constructor
    · rintro hno ⟨r, hr, howns, hkey⟩
      exact hno r hr howns hkey
    · intro hno r hr howns hkey
      exact hno ⟨r, hr, howns, hkey⟩
  simp only [hnone, exists_and_right]

theorem isKept_iff {tgt : Text} {e : EdgeInput} :
    isKept (before.rows.filter c.owns) (tgt, e) = true
      ↔ tgt ∈ oldTargets c before ∧ tgt ∉ decidedTargets c before := by
  rw [isKept, Option.any_eq_true, mem_oldTargets, mem_decidedTargets]
  constructor
  · rintro ⟨r, hrow, hterminal⟩
    obtain ⟨hr, howns, hkey⟩ := rowFor_owns_eq_some.mp hrow
    refine ⟨⟨r, hr, howns, hkey⟩, ?_⟩
    rintro ⟨x, hx, hxterminal, hxowns, hxkey⟩
    rw [eq_of_target hx hr hxowns howns (hxkey.trans hkey.symm)] at hxterminal
    simp [hxterminal] at hterminal
  · rintro ⟨⟨r, hr, howns, hkey⟩, hnot⟩
    refine ⟨r, rowFor_owns_eq_some.mpr ⟨hr, howns, hkey⟩, ?_⟩
    by_contra hterminal
    exact hnot ⟨r, hr, by simpa using hterminal, howns, hkey⟩

theorem Replaced.kept_card (h : Replaced w c before after valid) :
    (valid.rows.filter (isKept (before.rows.filter c.owns))).length
      = ((oldTargets c before ∩ newTargets w c) \ decidedTargets c before).card := by
  rw [length_eq_card_keys]
  congr 1
  ext tgt
  rw [mem_keys_filter, Finset.mem_sdiff, Finset.mem_inter, h.mem_newTargets]
  simp only [isKept_iff, exists_and_right]
  tauto

theorem Replaced.removed_card (h : Replaced w c before after valid) :
    ((before.rows.filter c.owns).filter (isDropped valid)).length
      = ((oldTargets c before \ newTargets w c) \ decidedTargets c before).card := by
  rw [length_eq_card_targets List.filter_sublist]
  congr 1
  ext tgt
  rw [List.mem_toFinset, List.mem_map, Finset.mem_sdiff, Finset.mem_sdiff, Memory.mem_newTargets,
    ← h.find, mem_oldTargets, mem_decidedTargets]
  constructor
  · rintro ⟨r, hr, rfl⟩
    obtain ⟨hmem, hdropped⟩ := List.mem_filter.mp hr
    obtain ⟨hr, howns⟩ := List.mem_filter.mp hmem
    obtain ⟨hgone, hterminal⟩ := Bool.and_eq_true_iff.mp hdropped
    refine ⟨⟨⟨r, hr, howns, rfl⟩, by simpa using hgone⟩, ?_⟩
    rintro ⟨x, hx, hxterminal, hxowns, hxkey⟩
    rw [eq_of_target hx hr hxowns howns hxkey] at hxterminal
    simp [hxterminal] at hterminal
  · rintro ⟨⟨⟨r, hr, howns, hkey⟩, hgone⟩, hnot⟩
    refine ⟨r, List.mem_filter.mpr ⟨List.mem_filter.mpr ⟨hr, howns⟩, ?_⟩, hkey⟩
    have hterminal : ¬ isTerminal r = true := fun hterminal =>
      hnot ⟨r, hr, hterminal, howns, hkey⟩
    simpa [isDropped, hkey, hterminal] using hgone

/-- The rows the report lists are those an operator decided on. -/
theorem preserved_perm :
    ((before.rows.filter c.owns).filter (isRetained valid)
      ++ valid.rows.filterMap (decided (before.rows.filter c.owns))).Perm
      ((before.rows.filter c.owns).filter isTerminal) := by
  have hdecided : ∀ {entry : Text × EdgeInput} {r : RelationshipRow},
      decided (before.rows.filter c.owns) entry = some r
        ↔ (r ∈ before.rows ∧ c.owns r = true ∧ r.targetKey = entry.1) ∧ isTerminal r = true := by
    intro entry r
    rw [decided, Option.filter_eq_some_iff]
    exact and_congr_left' rowFor_owns_eq_some
  have hkeys : valid.rows.filterMap (decided (before.rows.filter c.owns))
      = (valid.rows.map Prod.fst).filterMap fun tgt =>
        (rowFor (before.rows.filter c.owns) tgt).filter isTerminal := by
    rw [List.filterMap_map]
    rfl
  have hretained : ∀ {r : RelationshipRow},
      r ∈ (before.rows.filter c.owns).filter (isRetained valid)
        ↔ (r ∈ before.rows ∧ c.owns r = true)
          ∧ (valid.find r.targetKey = none ∧ isTerminal r = true) := by
    intro r
    rw [List.mem_filter, List.mem_filter, isRetained]
    simp
  apply (List.perm_ext_iff_of_nodup ?_ ((nodup_rows.filter _).filter _)).mpr
  · intro r
    rw [List.mem_append, hretained, List.mem_filterMap, List.mem_filter, List.mem_filter]
    constructor
    · rintro (⟨hr, -, hterminal⟩ | ⟨entry, -, hrow⟩)
      · exact ⟨hr, hterminal⟩
      · obtain ⟨⟨hr, howns, -⟩, hterminal⟩ := hdecided.mp hrow
        exact ⟨⟨hr, howns⟩, hterminal⟩
    · rintro ⟨hr, hterminal⟩
      cases hfind : valid.find r.targetKey with
      | none => exact Or.inl ⟨hr, rfl, hterminal⟩
      | some e =>
        exact Or.inr ⟨(r.targetKey, e), Dict.find_eq_some_iff.mp hfind,
          hdecided.mpr ⟨⟨hr.1, hr.2, rfl⟩, hterminal⟩⟩
  · rw [List.nodup_append]
    refine ⟨(nodup_rows.filter _).filter _, ?_, ?_⟩
    · rw [hkeys]
      apply List.Nodup.filterMap _ valid.unique
      intro tgt tgt' r hr hr'
      rw [Option.mem_def, Option.filter_eq_some_iff] at hr hr'
      have hkey := (rowFor_owns_eq_some.mp hr.1).2.2
      have hkey' := (rowFor_owns_eq_some.mp hr'.1).2.2
      exact hkey.symm.trans hkey'
    · rintro r hr x hx rfl
      obtain ⟨entry, hentry, hrow⟩ := List.mem_filterMap.mp hx
      have hfind := (hretained.mp hr).2.1
      rw [(hdecided.mp hrow).1.2.2, Dict.find_eq_some_iff.mpr hentry] at hfind
      cases hfind

theorem decided_subset : decidedTargets c before ⊆ oldTargets c before := by
  intro tgt h
  obtain ⟨r, hr, -, howns, hkey⟩ := mem_decidedTargets.mp h
  exact mem_oldTargets.mpr ⟨r, hr, howns, hkey⟩

/-- Four parts of two sets of targets. -/
theorem card_parts {old new decided : Finset Text} (h : decided ⊆ old) :
    (new \ old).card + ((old ∩ new) \ decided).card + ((old \ new) \ decided).card + decided.card
      = (old ∪ new).card := by
  have hnew : (new \ old).card + old.card = (old ∪ new).card := by
    rw [Finset.card_sdiff_add_card, Finset.union_comm]
  have hold : (old \ decided).card + decided.card = old.card :=
    Finset.card_sdiff_add_card_eq_card h
  have hrest : ((old ∩ new) \ decided).card + ((old \ new) \ decided).card
      = (old \ decided).card := by
    rw [← Finset.card_inter_add_card_sdiff (old \ decided) new]
    congr 2
    · ext tgt
      simp only [Finset.mem_sdiff, Finset.mem_inter]
      tauto
    · ext tgt
      simp only [Finset.mem_sdiff]
      tauto
  omega

theorem Replaced.partitions (h : Replaced w c before after valid)
    (rejected : List (Text × Text)) :
    Partitions w c before (replacedReport c c.source before valid rejected) := by
  have hperm := (@preserved_perm c before valid).map fun r => (r.targetKey, r.status)
  have hdecided : ((before.rows.filter c.owns).filter isTerminal).length
      = (decidedTargets c before).card :=
    length_eq_card_targets List.filter_sublist
  refine ⟨h.added_card, h.kept_card, h.removed_card, hperm, ?_⟩
  rw [← card_parts decided_subset, ← hdecided, ← h.added_card, ← h.kept_card, ← h.removed_card]
  have hlength : (replacedReport c c.source before valid rejected).preserved.length
      = ((before.rows.filter c.owns).filter isTerminal).length :=
    hperm.length_eq.trans (List.length_map _)
  rw [hlength]
  rfl

end Report

/-! ## Exactness -/

section Exactness

variable {w : ReplaceWorld} {c : ReplaceCall} {before after : RelationshipTable}
  {valid : Dict Text EdgeInput} {report : ReplaceReport}

theorem Replaced.only (h : Replaced w c before after valid) (hnumbers : Numbers w c before)
    {r : RelationshipRow} (hr : r ∈ after.rows) (howns : c.owns r = true) :
    (r ∈ before.rows ∧ isTerminal r = true)
      ∨ ∃ e, Writes w c before r.targetKey e ∧ Carries e r := by
  rw [h.rows_eq hnumbers] at hr
  rcases h.row_cases hr with ⟨hbefore, hterminal⟩ | hcarries
  · exact Or.inl ⟨hbefore, hterminal howns⟩
  · exact Or.inr hcarries

theorem Replaced.written (h : Replaced w c before after valid) (hnumbers : Numbers w c before)
    {tgt : Text} {e : EdgeInput} (hwrites : Writes w c before tgt e) :
    ∃ r ∈ after.rows, (c.owns r = true ∧ r.targetKey = tgt ∧ Carries e r)
      ∧ ∀ x ∈ after.rows, c.owns x = true → x.targetKey = tgt → x = r := by
  obtain ⟨r, hr, howns, hkey⟩ := h.exists_row hwrites
  rw [← h.rows_eq hnumbers] at hr
  refine ⟨r, hr, ⟨howns, hkey, ?_⟩, ?_⟩
  · rcases h.only hnumbers hr howns with ⟨hbefore, hterminal⟩ | ⟨e', hwrites', hcarries⟩
    · rw [hwrites.2 r hbefore howns hkey] at hterminal
      exact nomatch hterminal
    · have he : e' = e := by
        have hlast := hwrites'.1
        rw [hkey, hwrites.1] at hlast
        exact (Option.some.inj hlast).symm
      exact he ▸ hcarries
  · intro x hx hxowns hxkey
    exact eq_of_target hx hr hxowns howns (hxkey.trans hkey.symm)

/-- A valid target has a row afterwards. -/
theorem Replaced.row_of_valid (h : Replaced w c before after valid)
    (hnumbers : Numbers w c before) {tgt : Text} {e : EdgeInput}
    (hlast : lastValid w c c.source tgt = some e) :
    ∃ r ∈ after.rows, c.owns r = true ∧ r.targetKey = tgt := by
  by_cases hdecided : tgt ∈ decidedTargets c before
  · obtain ⟨r, hr, hterminal, howns, hkey⟩ := mem_decidedTargets.mp hdecided
    refine ⟨r, ?_, howns, hkey⟩
    rw [h.rows_eq hnumbers]
    exact terminal_stays hr hterminal
  · have hwrites : Writes w c before tgt e := by
      refine ⟨hlast, fun r hr howns hkey => ?_⟩
      by_contra hterminal
      exact hdecided (mem_decidedTargets.mpr ⟨r, hr, by simpa using hterminal, howns, hkey⟩)
    obtain ⟨r, hr, ⟨howns, hkey, -⟩, -⟩ := h.written hnumbers hwrites
    exact ⟨r, hr, howns, hkey⟩

theorem Replaced.again (h : Replaced w c before after valid) (hnumbers : Numbers w c before)
    {w' : ReplaceWorld} (hmem : w'.memories = w.memories) :
    (replaceSet w' c after).2.rows.map untimed = after.rows.map untimed := by
  rcases hcall : replaceSet w' c after with ⟨result, after'⟩
  cases result with
  | error raised => rw [replaceSet_error hcall]
  | ok report' =>
    obtain ⟨valid', rejected', hagain, -⟩ := replaced_of_returns hcall
    change after'.rows.map untimed = _
    rw [hagain.rows]
    exact untimed_replacedRows hmem hagain.find (fun r hr => h.only hnumbers hr)
      fun tgt e => h.row_of_valid hnumbers

theorem Replaced.exact (h : Replaced w c before after valid) (hnumbers : Numbers w c before)
    (rejected : List (Text × Text)) :
    Exact w c before after (replacedReport c c.source before valid rejected) where
  decided r hr howns hterminal := by
    rw [h.rows_eq hnumbers]
    exact terminal_stays hr hterminal
  written tgt e := h.written hnumbers
  only r := h.only hnumbers
  others := by
    rw [h.rows_eq hnumbers]
    exact filter_replacedRows_others
  again w' := h.again hnumbers
  report := h.partitions rejected

/-- The column has no place for a NaN. -/
theorem Exact.numbers (h : Exact w c before after report) : Numbers w c before := by
  rintro tgt e hwrites hnan
  obtain ⟨r, hr, ⟨-, -, hcarries⟩, -⟩ := h.written tgt e hwrites
  have hconf := hcarries.confidence
  rw [hnan, validateConfidence_eq_nan.mpr rfl] at hconf
  exact after.reals r hr (Except.ok.inj hconf).symm

end Exactness

/-- A call that raises changes nothing, and one that returns is exact as long as no target without a
decision has a NaN in its last valid edge. -/
theorem replaceSet_exact_iff (w : ReplaceWorld) (c : ReplaceCall) (before : RelationshipTable) :
    (∀ raised after, replaceSet w c before = (.error raised, after) → after = before)
      ∧ ∀ report after, replaceSet w c before = (.ok report, after) →
        (Exact w c before after report ↔ Numbers w c before) := by
  refine ⟨fun raised after => replaceSet_error, fun report after h => ?_⟩
  obtain ⟨valid, rejected, hreplaced, rfl⟩ := replaced_of_returns h
  exact ⟨Exact.numbers, fun hnumbers => hreplaced.exact hnumbers rejected⟩

/-! ## Two calls -/

section Calls

/-- Two memories, and a database that takes the transaction. -/
def twoMemories : ReplaceWorld where
  memories :=
    [⟨text "api", text "global", none, some 3⟩, ⟨text "auth", text "global", none, none⟩]
  now := 7
  uuid := fun tgt => tgt
  takes := true

/-- A producer that reports edges from `api`. -/
def reports (edges : List EdgeInput) : ReplaceCall where
  scope := text "global"
  scopeId := none
  sourceKey := text "API"
  origin := text "compiler"
  type := text "relates_to"
  edges := edges

def noRelationships : RelationshipTable := ⟨[], List.nodup_nil, List.nodup_nil, by simp⟩

theorem mem_edges_of_writes {w : ReplaceWorld} {c : ReplaceCall} {before : RelationshipTable}
    {tgt : Text} {e : EdgeInput} (h : Writes w c before tgt e) : e ∈ c.edges :=
  List.mem_of_mem_filter (List.mem_of_getLast? h.1)

theorem returns_of_isSome {w : ReplaceWorld} {c : ReplaceCall} {before : RelationshipTable}
    (h : (replaceSet w c before).1.toOption.isSome = true) :
    ∃ report after, replaceSet w c before = (.ok report, after) := by
  rcases hcall : replaceSet w c before with ⟨result, after⟩
  rw [hcall] at h
  cases result with
  | error raised => exact nomatch h
  | ok report => exact ⟨report, after, rfl⟩

/-- Two edges for one target, half sure and sure. -/
def sureEdges : List EdgeInput :=
  [{ targetKey := text "Auth", confidence := .float (.finite ⟨false, 1, 1⟩) },
    { targetKey := text "auth", confidence := .int 1, rank := some 2 }]

/-- `api` pointed at itself, by the same producer. -/
def oneRelationship : RelationshipTable :=
  ⟨[{ id := text "1", scope := text "global", scopeId := [], sourceKey := text "api"
      targetKey := text "api", type := text "relates_to", status := text "active"
      rank := none, createdAt := none, origin := text "compiler", confidence := none
      attributesJson := none
      sourceUpdatedAt := none, updatedAt := none }], by simp, by simp, by simp⟩

/-- The old edge goes, and the later of the two for one target comes. -/
theorem replaceSet_exact_sure :
    ∃ report after, replaceSet twoMemories (reports sureEdges) oneRelationship
        = (.ok report, after)
      ∧ Exact twoMemories (reports sureEdges) oneRelationship after report := by
  have hok : (replaceSet twoMemories (reports sureEdges) oneRelationship).1.toOption.isSome
      = true := by decide +kernel
  obtain ⟨report, after, h⟩ := returns_of_isSome hok
  refine ⟨report, after, h, ((replaceSet_exact_iff _ _ _).2 report after h).mpr ?_⟩
  intro tgt e hwrites
  rcases List.mem_pair.mp (mem_edges_of_writes hwrites) with rfl | rfl
  · intro hnan
    exact nomatch Confidence.float.inj hnan
  · exact fun hnan => nomatch hnan

/-- An edge whose confidence is not a number. -/
def nanEdge : EdgeInput := { targetKey := text "auth", confidence := .float .nan }

/-- It is valid and active, and its confidence is gone. -/
theorem nan_not_carried :
    ∃ report after, replaceSet twoMemories (reports [nanEdge]) noRelationships = (.ok report, after)
      ∧ ¬ Exact twoMemories (reports [nanEdge]) noRelationships after report := by
  have hok : (replaceSet twoMemories (reports [nanEdge]) noRelationships).1.toOption.isSome
      = true := by decide +kernel
  obtain ⟨report, after, h⟩ := returns_of_isSome hok
  refine ⟨report, after, h, fun hexact => ?_⟩
  have hvalid : (lastValid twoMemories (reports [nanEdge]) (reports [nanEdge]).source
      (text "auth")).isSome = true := by decide +kernel
  obtain ⟨e, hlast⟩ := Option.isSome_iff_exists.mp hvalid
  have hwrites : Writes twoMemories (reports [nanEdge]) noRelationships (text "auth") e :=
    ⟨hlast, fun r hr => absurd hr List.not_mem_nil⟩
  have he : e = nanEdge := List.mem_singleton.mp (mem_edges_of_writes hwrites)
  exact hexact.numbers _ _ hwrites (congrArg (·.confidence) he)

end Calls

end CliAgentOrchestrator.Memory
