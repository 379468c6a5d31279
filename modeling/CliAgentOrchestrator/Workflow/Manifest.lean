import Mathlib.Algebra.GroupWithZero.Nat
import CliAgentOrchestrator.Library.JsonTree
import CliAgentOrchestrator.Memory.Redact

/-!
# The frozen execution manifest

`services/execution_manifest.py`: the record of how a run was launched, kept in the column
`manifest_json`. The column is followed by the document its text decodes to; `json.dumps` is needed
for the size of that text only. What `document` lays out `parse` reads back (`parse_document`), and
the memory record is filled by `withMemory`, which fails on a text that has no UTF-8 form and on
nothing else (`withMemory_isSome`).

The digest is a parameter: it is stored and never read here.
-/

set_option autoImplicit false

namespace CliAgentOrchestrator.Workflow.ExecutionManifest

open Library Memory

/-! ## The envelope -/

/-- A field holds whatever the decoded document held there.

SOURCE: services/execution_manifest.py:63-75
(`FrozenMemoryRecord`) -/
structure FrozenMemoryRecord where
  content : JsonTree
  source : JsonTree
  contentHash : JsonTree
  truncated : JsonTree
deriving DecidableEq

/-- SOURCE: services/execution_manifest.py:78-112
(`ExecutionManifestEnvelope`) -/
structure ExecutionManifestEnvelope where
  planId : JsonTree
  sourceHash : JsonTree
  inputs : JsonTree
  repoBaseline : JsonTree
  provider : JsonTree
  model : JsonTree
  profile : JsonTree
  permissions : JsonTree
  limits : JsonTree
  retryPolicy : JsonTree
  memory : FrozenMemoryRecord
  truncated : JsonTree
  redacted : JsonTree
  notes : JsonTree := .str []
deriving DecidableEq

/-! ## The document -/

/-- A member that is dropped where its value is `None`. -/
def omittable (key : Text) (value : JsonTree) : List (Text × JsonTree) :=
  if value = .null then [] else [(key, value)]

/-- SOURCE: services/execution_manifest.py:124-151 (`_document`) -/
def document (envelope : ExecutionManifestEnvelope) : JsonTree :=
  .obj ([(text "plan_id", envelope.planId), (text "source_hash", envelope.sourceHash),
      (text "inputs", envelope.inputs), (text "repo_baseline", envelope.repoBaseline)]
    ++ (omittable (text "provider") envelope.provider
    ++ (omittable (text "model") envelope.model
    ++ (omittable (text "profile") envelope.profile
    ++ (omittable (text "permissions") envelope.permissions
    ++ (omittable (text "limits") envelope.limits
    ++ (omittable (text "retry_policy") envelope.retryPolicy
    ++ ([(text "memory", .obj
          [(text "content", envelope.memory.content), (text "source", envelope.memory.source),
            (text "content_hash", envelope.memory.contentHash),
            (text "truncated", envelope.memory.truncated)]),
        (text "truncated", envelope.truncated), (text "redacted", envelope.redacted)]
    ++ if envelope.notes.truthy then [(text "notes", envelope.notes)] else []))))))))

/-- `document[key]`, for a key an object may lack. -/
def optional (doc : JsonTree) (key : Text) : JsonTree := (doc.member key).getD .null

/-- What is no object, or lacks one of the keys, is no envelope.

SOURCE: services/execution_manifest.py:321-358 (`parse`) -/
def parse (doc : JsonTree) : Option ExecutionManifestEnvelope := do
  let memory ← doc.member (text "memory")
  some
    { planId := ← doc.member (text "plan_id")
      sourceHash := ← doc.member (text "source_hash")
      inputs := ← doc.member (text "inputs")
      repoBaseline := ← doc.member (text "repo_baseline")
      provider := optional doc (text "provider")
      model := optional doc (text "model")
      profile := optional doc (text "profile")
      permissions := optional doc (text "permissions")
      limits := optional doc (text "limits")
      retryPolicy := optional doc (text "retry_policy")
      memory :=
        { content := ← memory.member (text "content")
          source := ← memory.member (text "source")
          contentHash := ← memory.member (text "content_hash")
          truncated := ← memory.member (text "truncated") }
      truncated := ← doc.member (text "truncated")
      redacted := ← doc.member (text "redacted")
      notes := (doc.member (text "notes")).getD (.str []) }

theorem lookup_omittable (key k : Text) (value : JsonTree) :
    (omittable key value).lookup k = if k = key ∧ value ≠ .null then some value else none := by
  unfold omittable
  by_cases hvalue : value = .null
  · simp [hvalue]
  · by_cases hkey : k = key
    · simp [hvalue, hkey]
    · simp [hvalue, hkey, List.lookup_cons, beq_false_of_ne hkey]

theorem lookup_member (k key : Text) (value : JsonTree) (rest : List (Text × JsonTree)) :
    List.lookup k ((key, value) :: rest) = if k = key then some value else rest.lookup k := by
  by_cases h : k = key
  · simp [h]
  · rw [List.lookup_cons, beq_false_of_ne h, if_neg h]

theorem getD_omittable (value : JsonTree) :
    (if value = .null then none else some value).getD .null = value := by
  by_cases h : value = .null <;> simp [h]

/-- What was laid out is read back; notes that were dropped come back empty. -/
theorem parse_document (envelope : ExecutionManifestEnvelope) :
    parse (document envelope) = some { envelope with
      notes := if envelope.notes.truthy then envelope.notes else .str [] } := by
  obtain ⟨planId, sourceHash, inputs, repoBaseline, provider, model, profile, permissions, limits,
    retryPolicy, memory, truncated, redacted, notes⟩ := envelope
  by_cases hnotes : notes.truthy = true
  · simp +decide [parse, document, optional, JsonTree.member, List.lookup_append,
      lookup_omittable, lookup_member, getD_omittable, hnotes]
  · simp +decide [parse, document, optional, JsonTree.member, List.lookup_append,
      lookup_omittable, lookup_member, getD_omittable, hnotes]

/-! ## The bound -/

/-- SOURCE: constants.py:957 (`WORKFLOW_MANIFEST_MAX_BYTES`) -/
def workflowManifestMaxBytes : Nat := 256 * 1024

/-- The size of a character in UTF-8. -/
def utf8Size (c : Nat) : Nat :=
  if c < 0x80 then 1 else if c < 0x800 then 2 else if c < 0x10000 then 3 else 4

/-- `len(text.encode("utf-8"))`. -/
def utf8Length (t : Text) : Nat := (t.map utf8Size).sum

/-- The bytes cut at the limit and decoded, what is left of a broken character dropped. -/
def takeBytes : Nat → Text → Text
  | _, [] => []
  | limit, c :: rest =>
    if utf8Size c ≤ limit then c :: takeBytes (limit - utf8Size c) rest else []

/-- SOURCE: services/execution_manifest.py:154-155
(`_encoded_length`) -/
def encodedLength (envelope : ExecutionManifestEnvelope) : Nat :=
  utf8Length (document envelope).dumps

/-- The envelope with its memory content cut to a number of bytes. -/
def trimmed (envelope : ExecutionManifestEnvelope) (content : Text) (keep : Nat) :
    ExecutionManifestEnvelope :=
  { envelope with
    memory :=
      { envelope.memory with
        content := .str (takeBytes keep content)
        truncated := .bool true }
    truncated := .bool true }

/-- Less and less of the content until the document fits, or nothing is left of it. -/
def trim (envelope : ExecutionManifestEnvelope) (content : Text) (keep : Nat) :
    ExecutionManifestEnvelope :=
  if encodedLength (trimmed envelope content keep) ≤ workflowManifestMaxBytes ∨ keep = 0 then
    trimmed envelope content keep
  else trim envelope content (keep - max 1 (keep / 8))
termination_by keep

/-- SOURCE: services/execution_manifest.py:236-263 (`_bound`) -/
def bound (envelope : ExecutionManifestEnvelope) : Option ExecutionManifestEnvelope :=
  if encodedLength envelope ≤ workflowManifestMaxBytes then some envelope
  else
    match envelope.memory.content with
    | .str content =>
      if content.any isSurrogate then none
      else
        some (trim envelope content
          (utf8Length content - (encodedLength envelope - workflowManifestMaxBytes)))
    | _ => none

theorem trim_eq_trimmed (envelope : ExecutionManifestEnvelope) (content : Text) (keep : Nat) :
    ∃ k ≤ keep, trim envelope content keep = trimmed envelope content k := by
  induction keep using Nat.strong_induction_on with
  | h keep ih =>
    rw [trim]
    split_ifs with h
    · exact ⟨keep, le_rfl, rfl⟩
    · obtain ⟨k, hk, heq⟩ := ih (keep - max 1 (keep / 8)) (by omega)
      exact ⟨k, by omega, heq⟩

/-- Bounding touches the memory record's content and the two flags. -/
theorem bound_memory {envelope bounded : ExecutionManifestEnvelope}
    (h : bound envelope = some bounded) :
    bounded.memory.source = envelope.memory.source
      ∧ (bounded.memory.content = envelope.memory.content
          ∨ ∃ content keep, envelope.memory.content = .str content
              ∧ bounded.memory.content = .str (takeBytes keep content)) := by
  unfold bound at h
  split_ifs at h
  · cases h
    exact ⟨rfl, .inl rfl⟩
  · cases hcontent : envelope.memory.content with
    | str content =>
      simp only [hcontent] at h
      split_ifs at h
      cases h
      obtain ⟨k, -, heq⟩ := trim_eq_trimmed envelope content
        (utf8Length content - (encodedLength envelope - workflowManifestMaxBytes))
      rw [heq]
      exact ⟨rfl, .inr ⟨content, k, rfl, rfl⟩⟩
    | _ =>
      simp only [hcontent] at h
      cases h

/-! ## Filling the memory record -/

section Fill

variable (sha256 : Text → Text)

/-- The envelope with its memory record redacted and not yet bounded. The two keys of the pair
that is redacted hold no credential themselves. -/
def replaceMemory (envelope : ExecutionManifestEnvelope) (content source : Text) :
    ExecutionManifestEnvelope :=
  { envelope with
    memory :=
      { content := .str (Memory.redactSecrets content).1
        source := .str (Memory.redactSecrets source).1
        contentHash := .str (sha256 content)
        truncated := .bool false }
    redacted :=
      if envelope.redacted.truthy then envelope.redacted
      else .bool ((Memory.redactSecrets content).1 ≠ content
        ∨ (Memory.redactSecrets source).1 ≠ source) }

/-- The digest is taken first, and needs the UTF-8 form of the text.

SOURCE: services/execution_manifest.py:266-313 (`with_memory`) -/
def withMemory (envelope : ExecutionManifestEnvelope) (content source : Text) :
    Option ExecutionManifestEnvelope :=
  if content.any isSurrogate then none
  else bound (replaceMemory sha256 envelope content source)

theorem any_isSurrogate_iff {t : Text} : t.any isSurrogate = false ↔ Library.Encodable t := by
  unfold Library.Encodable
  rw [List.any_eq_false]
  exact forall₂_congr fun c _ => by simp

theorem bound_isSome {envelope : ExecutionManifestEnvelope} {content : Text}
    (hcontent : envelope.memory.content = .str content) (h : Library.Encodable content) :
    (bound envelope).isSome = true := by
  unfold bound
  split_ifs
  · rfl
  · rw [hcontent]
    dsimp only
    rw [any_isSurrogate_iff.mpr h]
    rfl

/-- A text that has a UTF-8 form can be filled in. -/
theorem withMemory_isSome {content : Text} (h : Library.Encodable content)
    (envelope : ExecutionManifestEnvelope) (source : Text) :
    (withMemory sha256 envelope content source).isSome = true := by
  have hcontent : (replaceMemory sha256 envelope content source).memory.content
      = .str (Memory.redactSecrets content).1 := rfl
  rw [withMemory, if_neg (by simp [any_isSurrogate_iff.mpr h])]
  exact bound_isSome hcontent (encodable_redactSecrets h)

/-- What a filled envelope records: the source it was given, and a text. -/
theorem withMemory_memory {envelope filled : ExecutionManifestEnvelope} {content source : Text}
    (h : withMemory sha256 envelope content source = some filled) :
    filled.memory.source = .str (Memory.redactSecrets source).1
      ∧ ∃ kept, filled.memory.content = .str kept := by
  unfold withMemory at h
  split_ifs at h
  obtain ⟨hsource, hcontent⟩ := bound_memory h
  refine ⟨hsource, ?_⟩
  obtain hcontent | ⟨whole, keep, -, hcontent⟩ := hcontent
  · exact ⟨_, hcontent⟩
  · exact ⟨_, hcontent⟩

end Fill

end CliAgentOrchestrator.Workflow.ExecutionManifest
