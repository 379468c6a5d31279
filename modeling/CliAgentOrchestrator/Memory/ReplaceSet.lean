import CliAgentOrchestrator.Library.Decimal
import CliAgentOrchestrator.Library.ValueTree
import CliAgentOrchestrator.Memory.Relationships

/-!
# Replacing the edges of a producer

`replace_set`: a producer hands over its whole set of edges for one source, and the rows of its tuple
become that set, except for the rows an operator rejected or deleted, which stay as they are. Each edge is
checked by itself, and the last one that passes counts for its target. The rows are changed in one
transaction; `replaceSet_ok` says what is in the table once it is committed.
-/

set_option autoImplicit false

namespace CliAgentOrchestrator.Memory

open Library

/-! ## The table -/

/-- The remaining columns of an edge.

SOURCE: clients/database.py:1387-1459
(`MemoryRelationshipModel`) -/
structure RelationshipRow extends MemoryRelationship where
  origin : Text
  confidence : Option PyFloat
  attributesJson : Option Text
  sourceUpdatedAt : Option Nat
  updatedAt : Option Nat

/-- The columns of the UNIQUE constraint. -/
structure RelationshipEdge where
  scope : Text
  scopeId : Text
  sourceKey : Text
  targetKey : Text
  type : Text
  origin : Text
deriving DecidableEq

def RelationshipRow.edge (r : RelationshipRow) : RelationshipEdge :=
  ⟨r.scope, r.scopeId, r.sourceKey, r.targetKey, r.type, r.origin⟩

/-- The table with its constraints; a column of reals holds no NaN. -/
structure RelationshipTable where
  rows : List RelationshipRow
  ids : (rows.map (·.id)).Nodup
  edges : (rows.map (·.edge)).Nodup
  reals : ∀ r ∈ rows, r.confidence ≠ some .nan

/-- A NaN is bound as NULL. -/
def stored (r : RelationshipRow) : RelationshipRow :=
  if r.confidence = some .nan then { r with confidence := none } else r

/-- The columns of a memory that the checks use.

SOURCE: clients/database.py (`MemoryMetadataModel`) -/
structure MemoryMetadata where
  key : Text
  scope : Text
  scopeId : Option Text
  updatedAt : Option Nat

/-! ## Checks -/

inductive Raised
  | valueError
  | overflowError
  | integrityError
  | operationalError

/-- `VALID_TYPES` -/
def validTypes : List Text := [text "relates_to", text "contradiction", text "supersedes"]

/-- `VALID_ORIGINS` -/
def validOrigins : List Text :=
  [text "compiler", text "wiki_lint", text "human", text "legacy_related_keys",
    text "external_import"]

/-- `CURATION_TERMINAL_STATUSES` -/
def curationTerminalStatuses : List Text := [text "rejected", text "deleted"]

/-- `MAX_EDGES_PER_MUTATION` -/
def maxEdgesPerMutation : Nat := 64

/-- `MAX_ATTRIBUTES_BYTES` -/
def maxAttributesBytes : Nat := 2048

/-- What a caller may pass as a confidence; a bool is no number here. -/
inductive Confidence
  | none
  | int (n : Int)
  | float (x : PyFloat)
  | other

/-- What a caller may pass as attributes; the last is no dictionary, or one that is not
JSON. -/
inductive Attributes
  | none
  | dict (fields : List (Text × ValueTree Text Text))
  | other

/-- SOURCE: services/memory_relationship_service.py:129-136 -/
structure EdgeInput where
  targetKey : Text
  confidence : Confidence := .none
  rank : Option Int := none
  attributes : Attributes := .none

/-- `value < 0.0 or value > 1.0`, which no comparison with a NaN is. -/
def outOfRange : PyFloat → Bool
  | .finite x => (x.negative && x.numerator != 0) || x.numerator > 2 ^ x.shift
  | .inf _ => true
  | .nan => false

/-- SOURCE: services/memory_relationship_service.py:229-238 -/
def validateConfidence : Confidence → Except Raised (Option PyFloat)
  | .none => .ok none
  | .other => .error .valueError
  | .int n =>
    -- `float(n)` overflows from halfway between the largest double and the next power of two
    if 2 ^ 1024 - 2 ^ 970 ≤ n.natAbs then .error .overflowError
    else if n < 0 ∨ 1 < n then .error .valueError
    else .ok (some (.finite ⟨false, n.toNat, 0⟩))
  | .float x => if outOfRange x then .error .valueError else .ok (some x)

/-- The attributes as they are stored; none is a `ValueError`.

SOURCE: services/memory_relationship_service.py:240-266 -/
def validateAttributes : Attributes → Option (Option Text)
  | .none => some none
  | .other => none
  | .dict fields =>
    let encoded := (ValueTree.dict fields).sortKeys.dumps
    if maxAttributesBytes < encoded.length then none else some (some encoded)

/-- SOURCE: services/memory_relationship_service.py:276-292
(`_assert_endpoint_exists`) -/
def endpointExists (memories : List MemoryMetadata) (scope : Text) (scopeId : Option Text)
    (key : Text) : Bool :=
  memories.any fun m => m.key == key && m.scope == scope && m.scopeId == scopeId

/-- The time the source was last changed: the last of the rows that has one.

SOURCE: services/memory_relationship_service.py:797-811 -/
def sourceUpdated (memories : List MemoryMetadata) (scope : Text) (scopeId : Option Text)
    (key : Text) : Option Nat :=
  ((memories.filter fun m => m.key == key && m.scope == scope && m.scopeId == scopeId).filterMap
    (·.updatedAt)).getLast?

/-! ## The call -/

/-- SOURCE: services/memory_relationship_service.py:114-126 -/
structure ReplaceReport where
  added : Nat := 0
  kept : Nat := 0
  removed : Nat := 0
  rejected : List (Text × Text) := []
  preserved : List (Text × Text) := []

structure ReplaceCall where
  scope : Text
  scopeId : Option Text
  sourceKey : Text
  origin : Text
  type : Text
  edges : List EdgeInput

/-- What the call meets: the memories, the clock, an id for the row of each new target, and whether
the database takes the transaction. -/
structure ReplaceWorld where
  memories : List MemoryMetadata
  now : Nat
  uuid : Text → Text
  takes : Bool

/-- The objects of the session: the rows that were read and the ones added. -/
structure ReplaceSession where
  rows : List RelationshipRow
  pending : List RelationshipRow := []
  report : ReplaceReport := {}

section Call

variable (w : ReplaceWorld) (c : ReplaceCall) (src : Text)

/-- One edge of the batch: it is valid for its target, or reported.

SOURCE: services/memory_relationship_service.py:513-538 -/
def admitEdge (found : Dict Text EdgeInput × List (Text × Text)) (edge : EdgeInput) :
    Except Raised (Dict Text EdgeInput × List (Text × Text)) :=
  match sanitizeKey edge.targetKey with
  | none => .ok (found.1, found.2 ++ [(edge.targetKey, text "unsanitised")])
  | some tgt =>
    if tgt = src then .ok (found.1, found.2 ++ [(tgt, text "self")])
    else
      match validateConfidence edge.confidence, validateAttributes edge.attributes with
      | .error .valueError, _ =>
        .ok (found.1, found.2 ++ [(tgt, text "invalid_attrs_or_confidence")])
      | .error e, _ => .error e
      | .ok _, none => .ok (found.1, found.2 ++ [(tgt, text "invalid_attrs_or_confidence")])
      | .ok _, some _ =>
        if endpointExists w.memories c.scope c.scopeId tgt then
          .ok (found.1.assign tgt edge, found.2)
        else .ok (found.1, found.2 ++ [(tgt, text "dangling")])

/-- The rows of the producer.

SOURCE: services/memory_relationship_service.py:542-552 -/
def inTuple (r : RelationshipRow) : Bool :=
  r.scope == c.scope && r.scopeId == toSentinel c.scopeId && r.sourceKey == src
    && r.origin == c.origin && r.type == c.type

def isTerminal (r : RelationshipRow) : Bool := curationTerminalStatuses.contains r.status

def ReplaceReport.preserve (report : ReplaceReport) (r : RelationshipRow) : ReplaceReport :=
  { report with preserved := report.preserved ++ [(r.targetKey, r.status)] }

/-- SOURCE: services/memory_relationship_service.py:561-567 -/
def dropStep (valid : Dict Text EdgeInput) (s : ReplaceSession) (r : RelationshipRow) :
    ReplaceSession :=
  if (valid.find r.targetKey).isSome then s
  else if isTerminal r then { s with report := s.report.preserve r }
  else
    { s with
      rows := s.rows.filter (·.id ≠ r.id)
      report := { s.report with removed := s.report.removed + 1 } }

/-- The row for a target, `existing_by_target.get(tgt)`. -/
def rowFor (existing : List RelationshipRow) (tgt : Text) : Option RelationshipRow :=
  existing.find? (·.targetKey == tgt)

/-- What is written over a row that stays. -/
def rewrite (edge : EdgeInput) (confidence : Option PyFloat) (attributesJson : Option Text)
    (r : RelationshipRow) : RelationshipRow :=
  { r with
    confidence := confidence
    rank := edge.rank
    attributesJson := attributesJson
    status := text "active"
    sourceUpdatedAt := sourceUpdated w.memories c.scope c.scopeId src
    updatedAt := some w.now }

/-- A row for a target that has none. -/
def newRow (tgt : Text) (edge : EdgeInput) (confidence : Option PyFloat)
    (attributesJson : Option Text) : RelationshipRow where
  id := w.uuid tgt
  scope := c.scope
  scopeId := toSentinel c.scopeId
  sourceKey := src
  targetKey := tgt
  type := c.type
  status := text "active"
  rank := edge.rank
  createdAt := some w.now
  origin := c.origin
  confidence := confidence
  attributesJson := attributesJson
  sourceUpdatedAt := sourceUpdated w.memories c.scope c.scopeId src
  updatedAt := some w.now

/-- SOURCE: services/memory_relationship_service.py:575-620 -/
def writeStep (existing : List RelationshipRow) (s : ReplaceSession) (entry : Text × EdgeInput) :
    Except Raised ReplaceSession :=
  match validateAttributes entry.2.attributes with
  | none => .error .valueError
  | some attributesJson =>
    match rowFor existing entry.1 with
    | some r =>
      if isTerminal r then .ok { s with report := s.report.preserve r }
      else do
        let confidence ← validateConfidence entry.2.confidence
        .ok
          { s with
            rows := s.rows.map fun x =>
              if x.id = r.id then rewrite w c src entry.2 confidence attributesJson x else x
            report := { s.report with kept := s.report.kept + 1 } }
    | none => do
      let confidence ← validateConfidence entry.2.confidence
      .ok
        { s with
          pending := s.pending ++ [newRow w c src entry.1 entry.2 confidence attributesJson]
          report := { s.report with added := s.report.added + 1 } }

/-- The constraints are checked as the rows are written. -/
def commit (rows : List RelationshipRow) : Except Raised RelationshipTable :=
  if !w.takes then .error .operationalError
  else if h : ((rows.map stored).map (·.id)).Nodup ∧ ((rows.map stored).map (·.edge)).Nodup then
    .ok
      { rows := rows.map stored
        ids := h.1
        edges := h.2
        reals := by
          intro r hr
          obtain ⟨x, -, rfl⟩ := List.mem_map.mp hr
          unfold stored
          split_ifs with hnan
          · exact fun h => (nomatch h)
          · exact hnan }
  else .error .integrityError

/-- The transaction: nothing is written before the end of it. -/
def transaction (table : RelationshipTable) :
    Except Raised (ReplaceReport × RelationshipTable) :=
  if c.type ∉ validTypes then .error .valueError
  else if c.origin ∉ validOrigins then .error .valueError
  else if maxEdgesPerMutation < c.edges.length then .error .valueError
  else
    match sanitizeKey c.sourceKey with
    | none => .error .valueError
    | some src =>
      match c.edges.foldlM (admitEdge w c src) (Table.empty, []) with
      | .error e => .error e
      | .ok (valid, rejected) =>
        if !endpointExists w.memories c.scope c.scopeId src then .error .valueError
        else do
          -- the targets of a tuple are distinct, so the dictionary over them is these rows in order
          let existing := table.rows.filter (inTuple c src)
          let dropped := existing.foldl (dropStep valid)
            { rows := table.rows, report := { rejected := rejected } }
          let written ← valid.rows.foldlM (writeStep w c src existing) dropped
          let after ← commit w (written.rows ++ written.pending)
          .ok (written.report, after)

/-- SOURCE: services/memory_relationship_service.py:477-623
(`replace_set`) -/
def replaceSet (table : RelationshipTable) : Except Raised ReplaceReport × RelationshipTable :=
  match transaction w c table with
  | .ok (report, after) => (.ok report, after)
  | .error e => (.error e, table)

/-! ## What is admitted -/

/-- The target of an edge that passes every check. -/
def validTarget (e : EdgeInput) : Option Text :=
  match sanitizeKey e.targetKey with
  | none => none
  | some tgt =>
    if tgt ≠ src ∧ (validateConfidence e.confidence).toOption.isSome
        ∧ (validateAttributes e.attributes).isSome
        ∧ endpointExists w.memories c.scope c.scopeId tgt then some tgt
    else none

/-- The last edge that is valid for a target. -/
def lastValid (tgt : Text) : Option EdgeInput :=
  (c.edges.filter fun e => validTarget w c src e = some tgt).getLast?

variable {w c src}

theorem admitEdge_ok {found found' : Dict Text EdgeInput × List (Text × Text)} {e : EdgeInput}
    (h : admitEdge w c src found e = .ok found') :
    found'.1 = match validTarget w c src e with
      | some tgt => found.1.assign tgt e
      | none => found.1 := by
  unfold admitEdge at h
  unfold validTarget
  cases hkey : sanitizeKey e.targetKey with
  | none =>
    simp only [hkey, Except.ok.injEq] at h
    rw [← h]
  | some tgt =>
    simp only [hkey] at h ⊢
    by_cases hself : tgt = src
    · simp only [hself, if_pos, Except.ok.injEq] at h
      rw [← h, if_neg (by simp [hself])]
    · rw [if_neg hself] at h
      cases hconf : validateConfidence e.confidence with
      | error raised =>
        rw [if_neg (by simp [Except.toOption])]
        rw [hconf] at h
        cases raised <;> simp_all
        rw [← h]
      | ok confidence =>
        rw [hconf] at h
        cases hattrs : validateAttributes e.attributes with
        | none =>
          rw [hattrs] at h
          rw [if_neg (by simp)]
          rw [← Except.ok.inj h]
        | some attributes =>
          rw [hattrs] at h
          dsimp only at h
          split_ifs at h with hend
          · rw [if_pos ⟨hself, rfl, rfl, hend⟩, ← Except.ok.inj h]
          · rw [if_neg (fun hall => hend hall.2.2.2), ← Except.ok.inj h]

/-- An edge that is valid passes its checks. -/
theorem checks_of_validTarget {e : EdgeInput} {tgt : Text}
    (h : validTarget w c src e = some tgt) :
    ∃ confidence attributes, validateConfidence e.confidence = .ok confidence
      ∧ validateAttributes e.attributes = some attributes := by
  unfold validTarget at h
  cases hkey : sanitizeKey e.targetKey with
  | none =>
    rw [hkey] at h
    exact nomatch h
  | some key =>
    simp only [hkey] at h
    split_ifs at h with hall
    obtain ⟨-, hconf, hattrs, -⟩ := hall
    obtain ⟨attributes, hattributes⟩ := Option.isSome_iff_exists.mp hattrs
    cases hconfidence : validateConfidence e.confidence with
    | error raised =>
      rw [hconfidence] at hconf
      exact nomatch hconf
    | ok confidence => exact ⟨confidence, attributes, rfl, hattributes⟩

theorem find_foldlM_admitEdge {edges : List EdgeInput}
    {found found' : Dict Text EdgeInput × List (Text × Text)}
    (h : edges.foldlM (admitEdge w c src) found = .ok found') (tgt : Text) :
    found'.1.find tgt
      = ((edges.filter fun e => validTarget w c src e = some tgt).getLast?).or
        (found.1.find tgt) := by
  induction edges generalizing found with
  | nil =>
    rw [List.foldlM_nil] at h
    rw [Except.ok.inj h]
    rfl
  | cons e rest ih =>
    rw [List.foldlM_cons] at h
    cases hstep : admitEdge w c src found e with
    | error raised =>
      rw [hstep] at h
      exact nomatch h
    | ok next =>
      rw [hstep] at h
      rw [ih h, admitEdge_ok hstep]
      cases hvalid : validTarget w c src e with
      | none => rw [List.filter_cons_of_neg (by simp [hvalid])]
      | some key =>
        dsimp only
        rw [Dict.find_assign]
        by_cases hkey : tgt = key
        · rw [if_pos hkey, List.filter_cons_of_pos (by simp [hvalid, hkey]), List.getLast?_cons]
          cases (rest.filter fun e => validTarget w c src e = some tgt).getLast? <;> rfl
        · rw [if_neg hkey, List.filter_cons_of_neg (by simpa [hvalid] using Ne.symm hkey)]

/-- What the loop over the edges leaves under a target. -/
theorem find_admitted {valid : Dict Text EdgeInput} {rejected : List (Text × Text)}
    (h : c.edges.foldlM (admitEdge w c src) (Table.empty, []) = .ok (valid, rejected)) (tgt : Text) :
    valid.find tgt = lastValid w c src tgt := by
  rw [find_foldlM_admitEdge h, Dict.find_empty, Option.or_none]
  rfl

theorem validTarget_of_lastValid {tgt : Text} {e : EdgeInput}
    (h : lastValid w c src tgt = some e) : validTarget w c src e = some tgt := by
  have hmem := List.mem_of_getLast? h
  simpa using (List.mem_filter.mp hmem).2

/-! ## The rows that were there -/

section Rows

variable {table : RelationshipTable}

theorem inTuple_iff {r : RelationshipRow} :
    inTuple c src r = true ↔ r.scope = c.scope ∧ r.scopeId = toSentinel c.scopeId
      ∧ r.sourceKey = src ∧ r.origin = c.origin ∧ r.type = c.type := by
  simp [inTuple, and_assoc]

/-- The tuple has one row for each target. -/
theorem eq_of_target {r x : RelationshipRow} (hr : r ∈ table.rows) (hx : x ∈ table.rows)
    (hrt : inTuple c src r = true) (hxt : inTuple c src x = true)
    (h : r.targetKey = x.targetKey) : r = x := by
  obtain ⟨hr₁, hr₂, hr₃, hr₄, hr₅⟩ := inTuple_iff.mp hrt
  obtain ⟨hx₁, hx₂, hx₃, hx₄, hx₅⟩ := inTuple_iff.mp hxt
  apply List.inj_on_of_nodup_map table.edges hr hx
  simp only [RelationshipRow.edge, hr₁, hr₂, hr₃, hr₄, hr₅, hx₁, hx₂, hx₃, hx₄, hx₅, h]

theorem rowFor_eq_some_iff {tgt : Text} {r : RelationshipRow} :
    rowFor (table.rows.filter (inTuple c src)) tgt = some r
      ↔ r ∈ table.rows ∧ inTuple c src r = true ∧ r.targetKey = tgt := by
  constructor
  · intro h
    obtain ⟨hmem, htuple⟩ := List.mem_filter.mp (List.mem_of_find?_eq_some h)
    exact ⟨hmem, htuple, by simpa using List.find?_some h⟩
  · rintro ⟨hmem, htuple, hkey⟩
    cases hfind : rowFor (table.rows.filter (inTuple c src)) tgt with
    | none =>
      have hne := List.find?_eq_none.mp hfind r (List.mem_filter.mpr ⟨hmem, htuple⟩)
      exact absurd (by simpa using hkey) hne
    | some x =>
      obtain ⟨hx, hxt⟩ := List.mem_filter.mp (List.mem_of_find?_eq_some hfind)
      have hxkey : x.targetKey = tgt := by simpa using List.find?_some hfind
      rw [eq_of_target hx hmem hxt htuple (hxkey.trans hkey.symm)]

theorem rowFor_eq_none_iff {tgt : Text} :
    rowFor (table.rows.filter (inTuple c src)) tgt = none
      ↔ ∀ r ∈ table.rows, inTuple c src r = true → r.targetKey ≠ tgt := by
  constructor
  · intro h r hr htuple hkey
    rw [rowFor_eq_some_iff.mpr ⟨hr, htuple, hkey⟩] at h
    exact nomatch h
  · intro h
    cases hfind : rowFor (table.rows.filter (inTuple c src)) tgt with
    | none => rfl
    | some x =>
      obtain ⟨hx, htuple, hkey⟩ := rowFor_eq_some_iff.mp hfind
      exact absurd hkey (h x hx htuple)

end Rows

/-! ## The drops -/

/-- A row the producer no longer reports, and no operator decided on. -/
def isDropped (valid : Dict Text EdgeInput) (r : RelationshipRow) : Bool :=
  !(valid.find r.targetKey).isSome && !isTerminal r

/-- A row an operator decided on that the producer no longer reports. -/
def isRetained (valid : Dict Text EdgeInput) (r : RelationshipRow) : Bool :=
  !(valid.find r.targetKey).isSome && isTerminal r

theorem foldl_dropStep (valid : Dict Text EdgeInput) (existing : List RelationshipRow)
    (s : ReplaceSession) :
    existing.foldl (dropStep valid) s =
      { s with
        rows := s.rows.filter fun x => !(existing.filter (isDropped valid)).any (·.id == x.id)
        report :=
          { s.report with
            removed := s.report.removed + (existing.filter (isDropped valid)).length
            preserved := s.report.preserved
              ++ (existing.filter (isRetained valid)).map fun r => (r.targetKey, r.status) } } := by
  induction existing generalizing s with
  | nil => simp
  | cons r rest ih =>
    rw [List.foldl_cons, ih]
    unfold dropStep
    by_cases hvalid : (valid.find r.targetKey).isSome = true
    · simp [hvalid, isDropped, isRetained]
    · by_cases hterminal : isTerminal r = true
      · simp [hvalid, hterminal, isDropped, isRetained, ReplaceReport.preserve]
      · rw [if_neg hvalid, if_neg hterminal]
        have hdrop : isDropped valid r = true := by simp [isDropped, hvalid, hterminal]
        have hnot : isRetained valid r = false := by simp [isRetained, hterminal]
        rw [List.filter_cons_of_pos hdrop, List.filter_cons_of_neg (by simp [hnot])]
        simp only [List.filter_filter, List.any_cons, Bool.not_or, List.length_cons,
          ReplaceSession.mk.injEq, ReplaceReport.mk.injEq, true_and, and_true]
        refine ⟨?_, by omega⟩
        apply List.filter_congr
        intro x _
        rw [Bool.and_comm]
        congr 1
        by_cases hid : x.id = r.id
        · simp [hid]
        · have hid' : r.id ≠ x.id := Ne.symm hid
          simp [hid, hid']

/-! ## The writes -/

/-- The confidence and the attributes of an edge that passes its checks. -/
def confidenceOf (e : EdgeInput) : Option PyFloat :=
  (validateConfidence e.confidence).toOption.join

def attributesOf (e : EdgeInput) : Option Text := (validateAttributes e.attributes).join

section Writes

variable (w c src)

/-- A row after one entry is written. -/
def overwrite (existing : List RelationshipRow) (x : RelationshipRow) (entry : Text × EdgeInput) :
    RelationshipRow :=
  match rowFor existing entry.1 with
  | some r =>
    if isTerminal r then x
    else if x.id = r.id then
      rewrite w c src entry.2 (confidenceOf entry.2) (attributesOf entry.2) x
    else x
  | none => x

def isAdded (existing : List RelationshipRow) (entry : Text × EdgeInput) : Bool :=
  (rowFor existing entry.1).isNone

def isKept (existing : List RelationshipRow) (entry : Text × EdgeInput) : Bool :=
  (rowFor existing entry.1).any fun r => !isTerminal r

/-- The row of an operator's decision that an entry meets. -/
def decided (existing : List RelationshipRow) (entry : Text × EdgeInput) :
    Option RelationshipRow :=
  (rowFor existing entry.1).filter isTerminal

def added (entry : Text × EdgeInput) : RelationshipRow :=
  newRow w c src entry.1 entry.2 (confidenceOf entry.2) (attributesOf entry.2)

/-- A row after the whole set is written. -/
def settled (valid : Dict Text EdgeInput) (x : RelationshipRow) : RelationshipRow :=
  if inTuple c src x && !isTerminal x then
    match valid.find x.targetKey with
    | some e => rewrite w c src e (confidenceOf e) (attributesOf e) x
    | none => x
  else x

variable {w c src}

/-- The loop over the edges writes each row once. -/
theorem foldlM_writeStep (existing : List RelationshipRow) {es : List (Text × EdgeInput)}
    (hes : ∀ entry ∈ es, validTarget w c src entry.2 = some entry.1) (s : ReplaceSession) :
    es.foldlM (writeStep w c src existing) s =
      .ok
        { rows := s.rows.map fun x => es.foldl (overwrite w c src existing) x
          pending := s.pending ++ (es.filter (isAdded existing)).map (added w c src)
          report :=
            { s.report with
              added := s.report.added + (es.filter (isAdded existing)).length
              kept := s.report.kept + (es.filter (isKept existing)).length
              preserved := s.report.preserved
                ++ (es.filterMap (decided existing)).map fun r => (r.targetKey, r.status) } } := by
  induction es generalizing s with
  | nil => simp; rfl
  | cons entry rest ih =>
    obtain ⟨confidence, attributes, hconf, hattrs⟩ :=
      checks_of_validTarget (hes entry List.mem_cons_self)
    have hc : confidenceOf entry.2 = confidence := by rw [confidenceOf, hconf]; rfl
    have ha : attributesOf entry.2 = attributes := by rw [attributesOf, hattrs]; rfl
    have hrest := ih fun e he => hes e (List.mem_cons_of_mem entry he)
    rw [List.foldlM_cons]
    simp only [List.foldl_cons]
    cases hrow : rowFor existing entry.1 with
    | none =>
      have hstep : writeStep w c src existing s entry = .ok
          { s with
            pending := s.pending ++ [added w c src entry]
            report := { s.report with added := s.report.added + 1 } } := by
        simp only [writeStep, hattrs, hrow, hconf, added, hc, ha]
        rfl
      have hsame : ∀ x, overwrite w c src existing x entry = x := by
        intro x
        simp only [overwrite, hrow]
      rw [hstep]
      refine (hrest _).trans ?_
      have hadd : isAdded existing entry = true := by simp [isAdded, hrow]
      have hkept : ¬ isKept existing entry = true := by simp [isKept, hrow]
      have hdec : decided existing entry = none := by simp [decided, hrow]
      simp only [hsame, List.filter_cons_of_pos hadd, List.filter_cons_of_neg hkept,
        List.filterMap_cons_none hdec, List.map_cons, List.length_cons, List.append_assoc,
        List.singleton_append, Nat.add_assoc, Nat.add_comm 1]
    | some r =>
      have hadd : ¬ isAdded existing entry = true := by simp [isAdded, hrow]
      by_cases hterminal : isTerminal r = true
      · have hstep : writeStep w c src existing s entry
            = .ok { s with report := s.report.preserve r } := by
          simp only [writeStep, hattrs, hrow, hterminal, if_true]
        have hsame : ∀ x, overwrite w c src existing x entry = x := by
          intro x
          simp only [overwrite, hrow, hterminal, if_true]
        rw [hstep]
        refine (hrest _).trans ?_
        have hkept : ¬ isKept existing entry = true := by simp [isKept, hrow, hterminal]
        have hdec : decided existing entry = some r := by simp [decided, hrow, hterminal]
        simp only [hsame, List.filter_cons_of_neg hadd, List.filter_cons_of_neg hkept,
          List.filterMap_cons_some hdec, List.map_cons, ReplaceReport.preserve,
          List.append_assoc, List.singleton_append]
      · have hstep : writeStep w c src existing s entry = .ok
            { s with
              rows := s.rows.map fun x => overwrite w c src existing x entry
              report := { s.report with kept := s.report.kept + 1 } } := by
          simp only [writeStep, hattrs, hrow, hterminal, hconf, overwrite, hc, ha]
          rfl
        rw [hstep]
        refine (hrest _).trans ?_
        have hkept : isKept existing entry = true := by simp [isKept, hrow, hterminal]
        have hdec : decided existing entry = none := by simp [decided, hrow, hterminal]
        simp only [List.map_map, Function.comp_def, List.filter_cons_of_neg hadd,
          List.filter_cons_of_pos hkept, List.filterMap_cons_none hdec, List.length_cons,
          Nat.add_assoc, Nat.add_comm 1]

section Settled

variable {table : RelationshipTable}

/-- An entry leaves the row of another target alone. -/
theorem overwrite_of_ne {x y : RelationshipRow} {entry : Text × EdgeInput} (hx : x ∈ table.rows)
    (hid : y.id = x.id)
    (hother : entry.1 = x.targetKey → ¬ (inTuple c src x = true ∧ ¬ isTerminal x = true)) :
    overwrite w c src (table.rows.filter (inTuple c src)) y entry = y := by
  unfold overwrite
  cases hrow : rowFor (table.rows.filter (inTuple c src)) entry.1 with
  | none => rfl
  | some r =>
    obtain ⟨hr, htuple, hkey⟩ := rowFor_eq_some_iff.mp hrow
    dsimp only
    split_ifs with hterminal hsame
    · rfl
    · have hrx : r = x := List.inj_on_of_nodup_map table.ids hr hx (hsame.symm.trans hid)
      subst hrx
      exact absurd ⟨htuple, hterminal⟩ (hother hkey.symm)
    · rfl

theorem overwrite_of_eq {x y : RelationshipRow} {entry : Text × EdgeInput} (hx : x ∈ table.rows)
    (hid : y.id = x.id) (hkey : entry.1 = x.targetKey) (htuple : inTuple c src x = true)
    (hterminal : ¬ isTerminal x = true) :
    overwrite w c src (table.rows.filter (inTuple c src)) y entry
      = rewrite w c src entry.2 (confidenceOf entry.2) (attributesOf entry.2) y := by
  have hrow : rowFor (table.rows.filter (inTuple c src)) entry.1 = some x :=
    rowFor_eq_some_iff.mpr ⟨hx, htuple, hkey.symm⟩
  simp only [overwrite, hrow, hterminal, hid]
  simp

theorem foldl_overwrite_of_notMem {x y : RelationshipRow} {es : List (Text × EdgeInput)}
    (hx : x ∈ table.rows) (hid : y.id = x.id)
    (hother : ∀ entry ∈ es,
      entry.1 = x.targetKey → ¬ (inTuple c src x = true ∧ ¬ isTerminal x = true)) :
    es.foldl (overwrite w c src (table.rows.filter (inTuple c src))) y = y := by
  induction es with
  | nil => rfl
  | cons entry rest ih =>
    rw [List.foldl_cons, overwrite_of_ne hx hid (hother entry List.mem_cons_self)]
    exact ih fun e he => hother e (List.mem_cons_of_mem entry he)

theorem foldl_overwrite_of_mem {x y : RelationshipRow} {es : List (Text × EdgeInput)}
    {e : EdgeInput} (hx : x ∈ table.rows) (hid : y.id = x.id) (hes : (es.map Prod.fst).Nodup)
    (hmem : (x.targetKey, e) ∈ es) (htuple : inTuple c src x = true)
    (hterminal : ¬ isTerminal x = true) :
    es.foldl (overwrite w c src (table.rows.filter (inTuple c src))) y
      = rewrite w c src e (confidenceOf e) (attributesOf e) y := by
  induction es with
  | nil => exact absurd hmem List.not_mem_nil
  | cons entry rest ih =>
    rw [List.map_cons, List.nodup_cons] at hes
    rw [List.foldl_cons]
    rcases List.mem_cons.mp hmem with heq | hrest
    · subst heq
      have hid' : (rewrite w c src e (confidenceOf e) (attributesOf e) y).id = x.id := hid
      rw [overwrite_of_eq hx hid rfl htuple hterminal]
      apply foldl_overwrite_of_notMem hx hid'
      intro entry hentry hkey
      exact absurd (List.mem_map.mpr ⟨entry, hentry, hkey⟩) hes.1
    · have hne : entry.1 ≠ x.targetKey := by
        intro hkey
        exact hes.1 (List.mem_map.mpr ⟨(x.targetKey, e), hrest, hkey.symm⟩)
      rw [overwrite_of_ne hx hid fun h => absurd h hne]
      exact ih hes.2 hrest

/-- Row by row, the loop over the entries is one look into the set. -/
theorem foldl_overwrite (valid : Dict Text EdgeInput) {x : RelationshipRow}
    (hx : x ∈ table.rows) :
    valid.rows.foldl (overwrite w c src (table.rows.filter (inTuple c src))) x
      = settled w c src valid x := by
  unfold settled
  by_cases hown : inTuple c src x = true ∧ ¬ isTerminal x = true
  · rw [if_pos (by simp [hown.1, hown.2])]
    cases hfind : valid.find x.targetKey with
    | some e =>
      exact foldl_overwrite_of_mem hx rfl valid.unique (Dict.find_eq_some_iff.mp hfind) hown.1
        hown.2
    | none =>
      apply foldl_overwrite_of_notMem hx rfl
      rintro ⟨key, e⟩ hentry rfl
      rw [Dict.find_eq_some_iff.mpr hentry] at hfind
      exact nomatch hfind
  · rw [if_neg (by simpa using hown)]
    exact foldl_overwrite_of_notMem hx rfl fun _ _ _ => hown

theorem filter_notDropped (valid : Dict Text EdgeInput) :
    (table.rows.filter fun x =>
      !((table.rows.filter (inTuple c src)).filter (isDropped valid)).any (·.id == x.id))
      = table.rows.filter fun x => !(inTuple c src x && isDropped valid x) := by
  apply List.filter_congr
  intro x hx
  congr 1
  rw [Bool.eq_iff_iff, List.any_eq_true]
  constructor
  · rintro ⟨r, hr, hid⟩
    obtain ⟨hmem, hdrop⟩ := List.mem_filter.mp hr
    obtain ⟨hrow, htuple⟩ := List.mem_filter.mp hmem
    rw [← List.inj_on_of_nodup_map table.ids hrow hx (eq_of_beq hid), htuple, hdrop]
    rfl
  · intro h
    obtain ⟨htuple, hdrop⟩ := Bool.and_eq_true_iff.mp h
    exact ⟨x, List.mem_filter.mpr ⟨List.mem_filter.mpr ⟨hx, htuple⟩, hdrop⟩, by simp⟩

end Settled

end Writes

/-! ## A call that returns -/

section Returned

variable (w c src)

/-- The rows once the set is written. -/
def replacedRows (table : RelationshipTable) (valid : Dict Text EdgeInput) :
    List RelationshipRow :=
  (table.rows.filter fun x => !(inTuple c src x && isDropped valid x)).map (settled w c src valid)
    ++ (valid.rows.filter (isAdded (table.rows.filter (inTuple c src)))).map (added w c src)

def replacedReport (table : RelationshipTable) (valid : Dict Text EdgeInput)
    (rejected : List (Text × Text)) : ReplaceReport :=
  let existing := table.rows.filter (inTuple c src)
  { added := (valid.rows.filter (isAdded existing)).length
    kept := (valid.rows.filter (isKept existing)).length
    removed := (existing.filter (isDropped valid)).length
    rejected := rejected
    preserved :=
      (existing.filter (isRetained valid) ++ valid.rows.filterMap (decided existing)).map
        fun r => (r.targetKey, r.status) }

variable {w c src}

theorem commit_ok {rows : List RelationshipRow} {after : RelationshipTable}
    (h : commit w rows = .ok after) : after.rows = rows.map stored := by
  unfold commit at h
  split_ifs at h
  rw [← Except.ok.inj h]

theorem transaction_ok {table after : RelationshipTable} {report : ReplaceReport}
    (h : transaction w c table = .ok (report, after)) :
    ∃ src valid rejected, sanitizeKey c.sourceKey = some src
      ∧ (∀ tgt, valid.find tgt = lastValid w c src tgt)
      ∧ after.rows = (replacedRows w c src table valid).map stored
      ∧ report = replacedReport c src table valid rejected := by
  unfold transaction at h
  split_ifs at h with htype horigin hmany
  cases hsource : sanitizeKey c.sourceKey with
  | none =>
    rw [hsource] at h
    cases h
  | some src =>
    simp only [hsource] at h
    cases hadmitted : c.edges.foldlM (admitEdge w c src) (Table.empty, []) with
    | error e =>
      rw [hadmitted] at h
      cases h
    | ok found =>
      obtain ⟨valid, rejected⟩ := found
      have hfind := find_admitted hadmitted
      have hvalid : ∀ entry ∈ valid.rows, validTarget w c src entry.2 = some entry.1 := by
        intro entry hentry
        apply validTarget_of_lastValid
        rw [← hfind]
        exact Dict.find_eq_some_iff.mpr hentry
      rw [hadmitted] at h
      dsimp only at h
      split_ifs at h with hsrc
      rw [foldl_dropStep, foldlM_writeStep _ hvalid] at h
      dsimp only [bind, Except.bind] at h
      rw [filter_notDropped, List.nil_append, List.map_congr_left (g := settled w c src valid)
        fun x hx => foldl_overwrite valid (List.mem_of_mem_filter hx)] at h
      split at h
      · cases h
      · rename_i t hcommit
        obtain ⟨hreport, hafter⟩ := Prod.mk.inj (Except.ok.inj h)
        refine ⟨src, valid, rejected, rfl, hfind, ?_, ?_⟩
        · rw [← hafter]
          exact commit_ok hcommit
        · rw [← hreport]
          simp only [replacedReport, List.map_append, List.nil_append, Nat.zero_add]

theorem replaceSet_ok {table after : RelationshipTable} {report : ReplaceReport}
    (h : replaceSet w c table = (.ok report, after)) :
    ∃ src valid rejected, sanitizeKey c.sourceKey = some src
      ∧ (∀ tgt, valid.find tgt = lastValid w c src tgt)
      ∧ after.rows = (replacedRows w c src table valid).map stored
      ∧ report = replacedReport c src table valid rejected := by
  unfold replaceSet at h
  split at h
  · rename_i report' after' htransaction
    obtain ⟨hreport, rfl⟩ := Prod.mk.inj h
    rw [Except.ok.inj hreport] at htransaction
    exact transaction_ok htransaction
  · cases (Prod.mk.inj h).1

theorem replaceSet_error {table after : RelationshipTable} {raised : Raised}
    (h : replaceSet w c table = (.error raised, after)) : after = table := by
  unfold replaceSet at h
  split at h
  · exact nomatch (Prod.mk.inj h).1
  · exact (Prod.mk.inj h).2.symm

end Returned

end Call

end CliAgentOrchestrator.Memory
