import CliAgentOrchestrator.Library.Lines
import CliAgentOrchestrator.Truth.Emit

/-!
# The two tailers

`adapters/truth/codex_rollout.py` and `claude_transcript.py`: one file read by any number of
sources that share its cursor. A poll is a statement of the file's size, a look at the cursor
under the lock, a read, one step for each line and a last one that moves the cursor; between
any two of them the file may grow and other polls of the same file may run.

The bytes of a record are decoded by Python's `json.loads`, which is a parameter. The file only
grows, so its inode never changes; the table of cursors has room, so none is evicted.
-/

set_option autoImplicit false

namespace CliAgentOrchestrator.Truth

open CliAgentOrchestrator.Core Library

/-! ## Records -/

/-- A decoded JSON value; a number is the text `str` gives of it. -/
inductive Json
  | null
  | bool (value : Bool)
  | num (text : String)
  | str (text : String)
  | arr (items : List Json)
  | obj (fields : List (String × Json))

/-- A decoded JSON object. -/
abbrev Record := List (String × Json)

/-- What `json.loads` comes to: a value, a `ValueError` (which the decode errors are), or any other
exception, such as the `RecursionError` of a text nested too deep. -/
inductive Loaded
  | value (json : Json)
  | refused
  | raised

/-- What the tailers ask of Python: `json.loads`, and `str` of a value, which raises where there is
none. -/
structure Python where
  loads : List UInt8 → Loaded
  str : Json → Option String

/-- A value that is a string. -/
def Json.asStr : Json → Option String
  | str text => some text
  | _ => none

/-- A value that is an object. -/
def Json.asObj : Json → Option Record
  | obj fields => some fields
  | _ => none

/-- `bool(value)`. -/
def Json.truthy : Json → Bool
  | null => false
  | bool value => value
  | num text => ¬ text ∈ ["0", "0.0", "-0.0"]
  | str text => text ≠ ""
  | arr items => ¬ items.isEmpty
  | obj fields => ¬ fields.isEmpty

/-- `record.get(key)`, where the value is a string. -/
def Record.str (record : Record) (key : String) : Option String :=
  (record.lookup key).bind Json.asStr

/-- `record.get(key) or …`. -/
def Record.truthy (record : Record) (key : String) : Option Json :=
  (record.lookup key).filter Json.truthy

def newline : UInt8 := 10

/-- What `bytes.strip` removes. -/
def isByteSpace (b : UInt8) : Bool := b == 32 || (9 ≤ b && b ≤ 13)

/-- What a line comes to: nothing, a record, or an exception that leaves the poll. -/
inductive Decoded
  | skipped
  | record (record : Record)
  | raised

/-- SOURCE: adapters/truth/codex_rollout.py:354-361, claude_transcript.py:406-413 -/
def decode (py : Python) (raw : List UInt8) : Decoded :=
  let text := ((raw.dropWhile isByteSpace).reverse.dropWhile isByteSpace).reverse
  if text.isEmpty then .skipped
  else
    match py.loads text with
    | .value (.obj fields) => .record fields
    | .value _ | .refused => .skipped
    | .raised => .raised

/-! ## Sources and what they make of a record -/

/-- The declaration of one source object. -/
structure Source where
  terminalId : String
  terminalId_ne : terminalId ≠ ""
  sessionId : String
  resumed : Bool

/-- What classification remembers: the source objects that have announced their session, and the
prompt ids of the file. -/
structure Memory where
  announced : List Nat := []
  seenPromptIds : List String := []

/-- One event a record asserts. -/
structure Emission where
  kind : EventKind
  sourceRef : String
  payload : Payload

/-- What a source makes of the record at an offset: the events it is to emit, or nothing where
building them raises. `id` names the source object. -/
abbrev Adapter :=
  (py : Python) → (path : String) → (id : Nat) → Source → Memory → (offset : Nat) → Record →
    Memory × Option (List Emission)

/-- SOURCE: adapters/truth/codex_rollout.py:439-455 -/
def isResume (source : Source) (payload : Record) : Bool :=
  source.resumed || payload.str "thread_source" == some "resumed" ||
    ["resumed_from", "parent_id", "rollout_id"].any fun key => (payload.lookup key).isSome

/-- SOURCE: adapters/truth/codex_rollout.py:408-437 -/
def codexClassify (source : Source) (record : Record) : Option EventKind :=
  let payload := ((record.lookup "payload").bind Json.asObj).getD []
  match record.str "type" with
  | some "session_meta" =>
    some (if isResume source payload then .sessionResumed else .sessionStarted)
  | some "event_msg" =>
    match payload.str "type" with
    | some "task_started" => some .turnStarted
    | some "task_complete" => some .turnEnded
    | _ => none
  | some "response_item" =>
    if payload.str "type" = some "message" ∧ payload.str "role" = some "user" then
      some .submissionConfirmed
    else none
  | _ => none

/-- SOURCE: adapters/truth/codex_rollout.py:378-379 -/
def codexSourceRef (path : String) (offset : Nat) : String :=
  "rollout:" ++ path ++ "#" ++ toString offset

/-- SOURCE: adapters/truth/codex_rollout.py:381-406 -/
def codex : Adapter := fun _ path _ source memory offset record =>
  let payload := ((record.lookup "payload").bind Json.asObj).getD []
  (memory, some ((codexClassify source record).toList.map fun kind =>
    { kind := kind
      sourceRef := codexSourceRef path offset
      payload := [("record_type", record.str "type"), ("payload_type", payload.str "type"),
        ("rollout_timestamp", record.str "timestamp"), ("ordinal", record.str "ordinal")] }))

/-- SOURCE: adapters/truth/claude_transcript.py:549-573 -/
def firstContentType (record : Record) : Option String :=
  match ((record.lookup "message").bind Json.asObj).bind fun message => message.lookup "content" with
  | some (.arr (first :: _)) => first.asObj.bind fun block => block.str "type"
  | _ => none

/-- SOURCE: adapters/truth/claude_transcript.py:512-546 -/
def ownKinds (memory : Memory) (record : Record) : Memory × List EventKind :=
  match record.str "type" with
  | some "system" =>
    (memory, if record.str "subtype" = some "turn_duration" then [.turnEnded] else [])
  | some "assistant" =>
    (memory, if firstContentType record = some "tool_use" then [.toolCalled] else [])
  | some "user" =>
    match firstContentType record with
    | some "tool_result" => (memory, [.toolResult])
    | some "text" =>
      match (((record.truthy "promptId").or (record.lookup "prompt_id")).bind Json.asStr).filter
          (· ≠ "") with
      | some promptId =>
        if promptId ∈ memory.seenPromptIds then (memory, [])
        else
          ({ memory with seenPromptIds := promptId :: memory.seenPromptIds },
            [.turnStarted, .submissionConfirmed])
      | none => (memory, [.turnStarted, .submissionConfirmed])
    | _ => (memory, [])
  | _ => (memory, [])

/-- SOURCE: adapters/truth/claude_transcript.py:575-597 -/
def sessionKind (id : Nat) (source : Source) (memory : Memory) (record : Record) :
    Memory × List EventKind :=
  if id ∈ memory.announced then (memory, [])
  else
    let differs := ((record.str "sessionId").filter (· ≠ "")).any fun session =>
      source.sessionId ≠ "" && session ≠ source.sessionId
    ({ memory with announced := id :: memory.announced },
      [if source.resumed || differs then .sessionResumed else .sessionStarted])

/-- The session announcement comes before the record's own kinds.
SOURCE: adapters/truth/claude_transcript.py:483-510 -/
def claudeClassify (id : Nat) (source : Source) (memory : Memory) (record : Record) :
    Memory × List EventKind :=
  match ownKinds memory record with
  | (memory, []) => (memory, [])
  | (memory, own) =>
    let (memory, session) := sessionKind id source memory record
    (memory, session ++ own)

/-- SOURCE: adapters/truth/claude_transcript.py:430-440 -/
def claudeSourceRef (py : Python) (path : String) (record : Record) (offset : Nat) :
    Option String :=
  match (record.truthy "uuid").or (record.truthy "parentUuid") with
  | some discriminator => (py.str discriminator).bind (sourceRef "transcript" path)
  | none => sourceRef "transcript" path ("@" ++ toString offset)

/-- SOURCE: adapters/truth/claude_transcript.py:442-481 -/
def claude : Adapter := fun py path id source memory offset record =>
  if ["user", "assistant", "system"].any fun kind => record.str "type" == some kind then
    match claudeClassify id source memory record with
    | (memory, []) => (memory, some [])
    | (memory, kinds) =>
      (memory, (claudeSourceRef py path record offset).map fun ref => kinds.map fun kind =>
        { kind := kind
          sourceRef := ref
          payload := [("record_type", record.str "type"), ("subtype", record.str "subtype"),
            ("session_id", record.str "sessionId"),
            ("transcript_timestamp", record.str "timestamp"), ("uuid", record.str "uuid")] })
  else (memory, some [])

/-- SOURCE: adapters/truth/codex_rollout.py:381-406, claude_transcript.py:442-481 -/
def Emission.draft (e : Emission) (source : Source) (now : Int) : EventDraft where
  terminalId := source.terminalId
  kind := .event e.kind
  producer := .jsonl
  confidence := .authoritative
  observedAt := now
  payload := e.payload
  sourceRef := some e.sourceRef
  runId := none
  msgId := none
  evidence := none
  idempotencyKey := none
  terminalId_ne := source.terminalId_ne
  evidence_eq_none _ := rfl

/-! ## The machine -/

/-- SOURCE: adapters/truth/codex_rollout.py:85, claude_transcript.py:116 -/
def maxPollBytes : Nat := 4 * 1024 * 1024

/-- SOURCE: adapters/truth/codex_rollout.py:93-106, claude_transcript.py:135-157 -/
structure FileCursor where
  offset : Nat := 0
  inode : Option Nat := none
  size : Nat := 0
  seeded : Bool := false

/-- Where a poll stands: it has the size of the file, it has its offset, or it has lines to go
through and the offset to leave. -/
inductive Phase
  | statted (size : Nat)
  | opened (startOffset : Nat)
  | reading (records : List (Nat × List UInt8)) (stop : Nat)

/-- A poll under way, of one source object. -/
structure Poll where
  reader : Nat
  phase : Phase

/-- A file that is tailed. -/
structure Tailer where
  py : Python
  path : String
  inode : Nat
  adapter : Adapter

/-- The file, what the tailers keep of it, and the drafts `emit` has stored. `seededAt` is the
offset the cursor was first attached at; nothing reads it. -/
structure Tail where
  file : Option (List UInt8) := none
  cursor : FileCursor := {}
  seededAt : Nat := 0
  sources : List Source := []
  polls : List Poll := []
  memory : Memory := {}
  lastSubmissionRef : Nat → Option String := fun _ => none
  stored : List EventDraft := []

/-- SOURCE: adapters/truth/codex_rollout.py:187-217, claude_transcript.py:237-268 -/
def Tail.seedCursor (inode : Nat) (t : Tail) : Tail :=
  if t.cursor.seeded then t
  else
    match t.file with
    | none => { t with cursor := { seeded := true }, seededAt := 0 }
    | some bytes =>
      { t with
        cursor :=
          { offset := bytes.length, inode := some inode, size := bytes.length, seeded := true }
        seededAt := bytes.length }

/-- The cursor a poll leaves under the lock; a file that looks rotated is read from its head.
SOURCE: adapters/truth/codex_rollout.py:299-312, claude_transcript.py:351-366 -/
def lockCursor (inode size : Nat) (c : FileCursor) (memory : Memory) : FileCursor × Memory :=
  let rotated := c.inode.isSome && (c.inode ≠ some inode || size < c.offset)
  ({ c with offset := if rotated then 0 else c.offset, inode := some inode, size := size },
    if rotated then { memory with seenPromptIds := [] } else memory)

/-- A step of a tailed file. -/
inductive TailStep
  /-- The worker appends to its file. -/
  | grow (bytes : List UInt8)
  /-- `attach` makes a source object. -/
  | attach (source : Source)
  /-- A source begins a poll. -/
  | stat (reader : Nat)
  | lock (i : Nat)
  | read (i : Nat)
  /-- A poll goes through its next line; `fails` are the emits that return nothing. -/
  | record (i : Nat) (now : Int) (fails : Nat → Bool)
  | finish (i : Nat)

/-- The drafts of a record that `emit` stores. -/
def keptDrafts (source : Source) (now : Int) (fails : Nat → Bool) (emissions : List Emission) :
    List (Emission × EventDraft) :=
  ((emissions.zipIdx).filter fun e => !fails e.2).map fun e => (e.1, e.1.draft source now)

/-- SOURCE: adapters/truth/codex_rollout.py:350-363, 381-406, claude_transcript.py:402-415,
442-481 -/
def Tail.record (cfg : Tailer) (t : Tail) (i : Nat) (now : Int) (fails : Nat → Bool)
    (reader : Nat) (source : Source) (line : Nat × List UInt8) (rest : List (Nat × List UInt8))
    (stop : Nat) : Tail :=
  let next := { t with polls := t.polls.set i ⟨reader, .reading rest stop⟩ }
  match decode cfg.py line.2 with
  | .skipped => next
  | .raised => { t with polls := t.polls.eraseIdx i }
  | .record record =>
    match cfg.adapter cfg.py cfg.path reader source t.memory line.1 record with
    | (memory, none) => { t with memory := memory, polls := t.polls.eraseIdx i }
    | (memory, some emissions) =>
      let kept := keptDrafts source now fails emissions
      { next with
        memory := memory
        stored := t.stored ++ kept.map Prod.snd
        lastSubmissionRef := kept.foldl
          (fun last e =>
            if e.1.kind = .submissionConfirmed then Function.update last reader (some e.1.sourceRef)
            else last) t.lastSubmissionRef }

/-- SOURCE: adapters/truth/codex_rollout.py:275-367, claude_transcript.py:328-419 -/
def TailStep.exec (cfg : Tailer) (t : Tail) : TailStep → Tail
  | grow bytes => { t with file := some (t.file.getD [] ++ bytes) }
  | attach source => { t.seedCursor cfg.inode with sources := t.sources ++ [source] }
  | stat reader =>
    match t.file, t.sources[reader]? with
    | some bytes, some _ => { t with polls := t.polls ++ [⟨reader, .statted bytes.length⟩] }
    | _, _ => t
  | lock i =>
    match t.polls[i]? with
    | some ⟨reader, .statted size⟩ =>
      let (cursor, memory) := lockCursor cfg.inode size t.cursor t.memory
      let locked := { t with cursor := cursor, memory := memory }
      if size ≤ cursor.offset then { locked with polls := t.polls.eraseIdx i }
      else { locked with polls := t.polls.set i ⟨reader, .opened cursor.offset⟩ }
    | _ => t
  | read i =>
    match t.polls[i]? with
    | some ⟨reader, .opened startOffset⟩ =>
      let chunk := ((t.file.getD []).drop startOffset).take maxPollBytes
      let complete := upToLast newline chunk
      if newline ∉ chunk ∧ maxPollBytes ≤ chunk.length then
        { t with
          cursor := { t.cursor with offset := startOffset + chunk.length }
          polls := t.polls.eraseIdx i }
      else if newline ∉ chunk then { t with polls := t.polls.eraseIdx i }
      else
        { t with
          polls := t.polls.set i
            ⟨reader, .reading (numbered startOffset (lines newline complete))
              (startOffset + complete.length)⟩ }
    | _ => t
  | record i now fails =>
    match t.polls[i]? with
    | some ⟨reader, .reading (line :: rest) stop⟩ =>
      match t.sources[reader]? with
      | some source => t.record cfg i now fails reader source line rest stop
      | none => t
    | _ => t
  | finish i =>
    match t.polls[i]? with
    | some ⟨_, .reading [] stop⟩ =>
      { t with cursor := { t.cursor with offset := stop }, polls := t.polls.eraseIdx i }
    | _ => t

end CliAgentOrchestrator.Truth
