import CliAgentOrchestrator.Library.JsonReader

/-!
# The result envelope of a step

`services/step_result.py`: what a settled step leaves behind for a replay. The text is redacted
first and bounded after; the two flags report either loss, so an envelope with neither flag
holds exactly the text the step produced (`buildEnvelope_faithful`). What `serialise_envelope`
writes, `parse_envelope` reads back (`parseEnvelope_serialise`).
-/

set_option autoImplicit false

namespace CliAgentOrchestrator.Workflow

open Library

/-- SOURCE: models/workflow.py:431-462 -/
structure StepResultEnvelope where
  lastMessage : String
  status : String
  terminalId : Option String := none
  truncated : Bool := false
  redacted : Bool := false
deriving DecidableEq

/-! ## Redaction -/

/-- One named pattern and what `re.subn` does with it: the new text and the number of matches,
and no match leaves the text alone.
SOURCE: services/secret_gate.py:61-81 -/
structure SecretPattern where
  name : String
  subn : String → String → String × Nat
  subn_zero : ∀ replacement content, (subn replacement content).2 = 0 →
    (subn replacement content).1 = content

/-- One round of the loop: the text after the pattern, and its name when it matched. -/
def redactOne (found : String × List String) (pattern : SecretPattern) : String × List String :=
  let (content, count) := pattern.subn ("[REDACTED:" ++ pattern.name ++ "]") found.1
  (content, if count = 0 then found.2 else found.2 ++ [pattern.name])

/-- SOURCE: services/secret_gate.py:61-81 -/
def redactSecrets (patterns : List SecretPattern) (content : String) : String × List String :=
  if content = "" then (content, [])
  else patterns.foldl redactOne (content, [])

theorem redactOne_fired_length (found : String × List String) (pattern : SecretPattern) :
    found.2.length ≤ (redactOne found pattern).2.length := by
  simp only [redactOne]
  split <;> simp

theorem redactOne_unfired {found : String × List String} {pattern : SecretPattern}
    (h : (redactOne found pattern).2.length = found.2.length) :
    redactOne found pattern = found := by
  simp only [redactOne] at h ⊢
  split at h
  · next hcount => rw [pattern.subn_zero _ _ hcount, if_pos hcount]
  · simp at h

/-- The names already found stay, and a round that adds none changes nothing. -/
theorem redact_loop (patterns : List SecretPattern) (found : String × List String) :
    found.2.length ≤ (patterns.foldl redactOne found).2.length ∧
      ((patterns.foldl redactOne found).2.length = found.2.length →
        patterns.foldl redactOne found = found) := by
  induction patterns generalizing found with
  | nil => simp
  | cons pattern rest ih =>
    have hone := redactOne_fired_length found pattern
    obtain ⟨hlen, hsame⟩ := ih (redactOne found pattern)
    rw [List.foldl_cons]
    refine ⟨by omega, ?_⟩
    intro heq
    have hkept : redactOne found pattern = found := redactOne_unfired (by omega)
    rw [hkept] at hsame heq ⊢
    exact hsame heq

/-- No pattern fired, so nothing was replaced. -/
theorem redactSecrets_unfired {patterns : List SecretPattern} {content : String}
    (h : (redactSecrets patterns content).2 = []) :
    (redactSecrets patterns content).1 = content := by
  unfold redactSecrets at h ⊢
  split
  · rfl
  · next hne =>
    rw [if_neg hne] at h
    rw [(redact_loop patterns (content, [])).2 (by rw [h])]

/-! ## The bound -/

/-- The column limit, in bytes.
SOURCE: constants.py:938 -/
def workflowJournalResultMaxBytes : Nat := 32768

/-- The longest prefix of whole characters that fits: the bytes cut at the limit and decoded
with the broken tail dropped. -/
def boundBytes : Nat → List Char → List Char
  | _, [] => []
  | limit, c :: rest =>
    if c.utf8Size ≤ limit then c :: boundBytes (limit - c.utf8Size) rest else []

/-- SOURCE: services/step_result.py:27-83 -/
def buildEnvelope (patterns : List SecretPattern) (lastMessage status : String)
    (terminalId : Option String) : StepResultEnvelope :=
  let (text, fired) := redactSecrets patterns lastMessage
  let truncated := workflowJournalResultMaxBytes < text.utf8ByteSize
  { lastMessage :=
      if truncated then String.ofList (boundBytes workflowJournalResultMaxBytes text.toList)
      else text
    status := status
    terminalId := terminalId
    truncated := truncated
    redacted := !fired.isEmpty }

/-- An envelope that reports no loss holds the text the step produced. -/
theorem buildEnvelope_faithful {patterns : List SecretPattern} {lastMessage status : String}
    {terminalId : Option String}
    (htruncated : (buildEnvelope patterns lastMessage status terminalId).truncated = false)
    (hredacted : (buildEnvelope patterns lastMessage status terminalId).redacted = false) :
    (buildEnvelope patterns lastMessage status terminalId).lastMessage = lastMessage := by
  have hfits : ¬ workflowJournalResultMaxBytes <
      (redactSecrets patterns lastMessage).1.utf8ByteSize := by
    simpa [buildEnvelope] using htruncated
  have hunfired : (redactSecrets patterns lastMessage).2 = [] := by
    simpa [buildEnvelope] using hredacted
  have htext : (buildEnvelope patterns lastMessage status terminalId).lastMessage =
      (redactSecrets patterns lastMessage).1 := if_neg hfits
  rw [htext, redactSecrets_unfired hunfired]

/-! ## The stored text -/

/-- The document of an envelope. -/
def asDict (e : StepResultEnvelope) : JsonTree :=
  .obj [(text "last_message", .str (text e.lastMessage)), (text "status", .str (text e.status)),
    (text "terminal_id", (e.terminalId.map fun id => JsonTree.str (text id)).getD .null),
    (text "truncated", .bool e.truncated), (text "redacted", .bool e.redacted)]

/-- `json.dumps` of the model with compact separators.
SOURCE: services/step_result.py:86-96 -/
def serialiseEnvelope (e : StepResultEnvelope) : String := ofText ((asDict e).dumpsWith [])

/-- The texts of a document are those of its envelope. -/
theorem allTexts_asDict {P : Text → Prop} (hP : ∀ s : String, P (text s))
    (e : StepResultEnvelope) : (asDict e).AllTexts P := by
  have hterminal :
      ((e.terminalId.map fun id => JsonTree.str (text id)).getD JsonTree.null).AllTexts P := by
    cases e.terminalId with
    | none => trivial
    | some id => exact hP id
  exact ⟨⟨hP _, hP _⟩, ⟨hP _, hP _⟩, ⟨hP _, hterminal⟩, ⟨hP _, trivial⟩, ⟨hP _, trivial⟩, trivial⟩

theorem printable_asDict (e : StepResultEnvelope) : (asDict e).Printable := by
  have hterminal :
      ((e.terminalId.map fun id => JsonTree.str (text id)).getD JsonTree.null).Printable := by
    cases e.terminalId <;> trivial
  refine ⟨?_, trivial, trivial, hterminal, trivial, trivial, trivial⟩
  simp only [List.map_cons, List.map_nil]
  decide

/-- What is stored is the document in its compact form. -/
theorem text_serialiseEnvelope (e : StepResultEnvelope) :
    text (serialiseEnvelope e) = (asDict e).dumpsWith [] := by
  refine text_ofText (isScalar_of_ascii fun c hc => ?_)
  have hplain := JsonTree.plain_dumpsWith (by decide) _ (printable_asDict e) c hc
  omega

theorem loads_serialiseEnvelope (e : StepResultEnvelope) :
    JsonTree.loads (text (serialiseEnvelope e)) = some (asDict e) := by
  rw [text_serialiseEnvelope]
  exact JsonTree.loads_dumpsWith (by simp) (printable_asDict e)
    (allTexts_asDict (fun s => JsonTree.isText_of_isScalar (isScalar_text s)) e)

/-- The model's reader of JSON text, which belongs to the validation library: all that is used
of it is that it reads back a dumped model. -/
structure EnvelopeReader where
  modelValidateJson : String → Option StepResultEnvelope
  reads_dump : ∀ e, modelValidateJson (serialiseEnvelope e) = some e

/-- SOURCE: services/step_result.py:99-122 -/
def parseEnvelope (reader : EnvelopeReader) : Option String → Option StepResultEnvelope
  | none => none
  | some text => reader.modelValidateJson text

@[simp] theorem parseEnvelope_serialise (reader : EnvelopeReader) (e : StepResultEnvelope) :
    parseEnvelope reader (some (serialiseEnvelope e)) = some e := reader.reads_dump e

/-! ## Readers of JSON -/

/-- A document with the members of an envelope, each of the type its field has. -/
def Declares (doc : JsonTree) (e : StepResultEnvelope) : Prop :=
  ∀ key value, (asDict e).member key = some value → doc.member key = some value

/-- The reader of the model takes JSON text for what it says, where every text in it can be
encoded. -/
def ReadsJson (modelValidateJson : String → Option StepResultEnvelope) : Prop :=
  ∀ stored doc e, JsonTree.loads (text stored) = some doc →
    doc.AllTexts (fun t => ∀ c ∈ t, isScalar c = true) → Declares doc e →
      modelValidateJson stored = some e

/-- Whatever reads JSON reads an envelope back from its stored text. -/
theorem reads_serialiseEnvelope {modelValidateJson : String → Option StepResultEnvelope}
    (hreads : ReadsJson modelValidateJson) (e : StepResultEnvelope) :
    modelValidateJson (serialiseEnvelope e) = some e := by
  exact hreads _ _ e (loads_serialiseEnvelope e) (allTexts_asDict isScalar_text e)
    fun key value h => h

/-- The reader of the model, from what it makes of JSON text. -/
def ofJson {modelValidateJson : String → Option StepResultEnvelope}
    (hreads : ReadsJson modelValidateJson) : EnvelopeReader where
  modelValidateJson := modelValidateJson
  reads_dump := reads_serialiseEnvelope hreads

/-- A reader that takes every field in its own type only. -/
def strictReader (stored : String) : Option StepResultEnvelope := do
  let doc ← JsonTree.loads (text stored)
  match doc.member (text "last_message"), doc.member (text "status"),
    doc.member (text "terminal_id"), doc.member (text "truncated"),
    doc.member (text "redacted") with
  | some (.str lastMessage), some (.str status), some (.str terminalId), some (.bool truncated),
    some (.bool redacted) =>
    some ⟨ofText lastMessage, ofText status, some (ofText terminalId), truncated, redacted⟩
  | some (.str lastMessage), some (.str status), some .null, some (.bool truncated),
    some (.bool redacted) =>
    some ⟨ofText lastMessage, ofText status, none, truncated, redacted⟩
  | _, _, _, _, _ => none

theorem readsJson_strictReader : ReadsJson strictReader := by
  intro stored doc e hloads _ hdeclares
  have hmessage := hdeclares (text "last_message") _ rfl
  have hstatus := hdeclares (text "status") _ rfl
  have hterminal := hdeclares (text "terminal_id") _ rfl
  have htruncated := hdeclares (text "truncated") _ rfl
  have hredacted := hdeclares (text "redacted") _ rfl
  obtain ⟨lastMessage, status, terminalId, truncated, redacted⟩ := e
  cases terminalId with
  | none =>
    simp only [Option.map_none, Option.getD_none] at hterminal
    simp only [strictReader, hloads, hmessage, hstatus, hterminal, htruncated, hredacted,
      Option.bind_eq_bind, Option.bind_some, ofText_text]
  | some id =>
    simp only [Option.map_some, Option.getD_some] at hterminal
    simp only [strictReader, hloads, hmessage, hstatus, hterminal, htruncated, hredacted,
      Option.bind_eq_bind, Option.bind_some, ofText_text]

end CliAgentOrchestrator.Workflow
