import CliAgentOrchestrator.Library.Dict
import CliAgentOrchestrator.Library.JsonReader
import CliAgentOrchestrator.Library.Machine
import Mathlib.Algebra.Order.Ring.Rat

/-!
# Whether a terminal is asking

The markers of `services/question_state.py`: opened and cleared by hooks (`pushMarker`), and set to
what the transcript says (`reconcile`). The transcript is read line by line; the calls of tools and
their results are paired by id.

The service takes a terminal for asking when some id that was called has had no result since its
first call (`classify_eq_opened_iff`), where its description speaks of the newest call only
(`newestUnanswered`). The two say the same of a transcript exactly when it is `Regular`, and over
any run of calls the service follows the newest call and lets old markers expire if and only if
every transcript that was read was regular (`follows_and_expires_iff`).
-/

set_option autoImplicit false

namespace CliAgentOrchestrator.Terminal

open Library

/-! ## Transcripts -/

/-- What `json.loads` does with a line: a document, a `JSONDecodeError`, or another exception, such
as those for too deep a nesting and too long an integer. -/
inductive Decoded
  | document (value : JsonTree)
  | malformed
  | raised

/-- A member of a dictionary that is itself one of the blocks; other items are passed over.

SOURCE: services/question_state.py:215-226 -/
def iterContentBlocks (record : JsonTree) : List JsonTree :=
  match (record.member (text "message")).bind (JsonTree.member (text "content")) with
  | some (.arr items) => items.filter fun block =>
      match block with
      | .obj _ => true
      | _ => false
  | _ => []

def isUse (block : JsonTree) : Bool := block.member (text "type") == some (.str (text "tool_use"))

def isResult (block : JsonTree) : Bool :=
  block.member (text "type") == some (.str (text "tool_result"))

/-- The id that a call is made under. -/
def useId (block : JsonTree) : Option JsonTree := block.member (text "id")

/-- The id that a result is for. -/
def resultId (block : JsonTree) : Option JsonTree := block.member (text "tool_use_id")

section Reading

variable (loads : Text → Decoded)

/-- The blocks of the lines; none where a line raises. -/
def blocksOfLines : List Text → Option (List JsonTree)
  | [] => some []
  | line :: rest =>
    if (strip line).isEmpty then blocksOfLines rest
    else
      match loads (strip line) with
      | .document record => (blocksOfLines rest).map (iterContentBlocks record ++ ·)
      | .malformed => blocksOfLines rest
      | .raised => none

/-- The blocks of a transcript in text mode; none where it is not UTF-8. -/
def blocksOf (transcript : List Nat) : Option (List JsonTree) :=
  (decodeStrict transcript).bind fun content =>
    blocksOfLines loads ((universalNewlines content).splitOn 10)

end Reading

/-- The calls seen so far, with whether each has its result, and their order. -/
structure Pairing where
  seenUse : Dict Text Bool
  order : List Text

def Pairing.empty : Pairing := ⟨Table.empty, []⟩

/-- One block. A call under an id that was seen changes nothing.

SOURCE: services/question_state.py:250-262 -/
def Pairing.step (p : Pairing) (block : JsonTree) : Pairing :=
  if isUse block then
    match useId block with
    | some (.str id) =>
      if (p.seenUse.find id).isSome then p else ⟨p.seenUse.assign id false, p.order ++ [id]⟩
    | _ => p
  else if isResult block then
    match resultId block with
    | some (.str id) =>
      if (p.seenUse.find id).isSome then { p with seenUse := p.seenUse.assign id true } else p
    | _ => p
  else p

inductive Level
  | opened
  | closed

/-- SOURCE: services/question_state.py:233-273 -/
def classify (blocks : List JsonTree) : Level :=
  let p := blocks.foldl Pairing.step .empty
  if p.order.any fun id => !(p.seenUse.find id).getD false then .opened else .closed

/-- The transcript may be unbound or absent, or not be read.

SOURCE: services/question_state.py:191-213 -/
def parseTranscript (loads : Text → Decoded) (transcript : Option (List Nat)) : Option Level :=
  (transcript.bind (blocksOf loads)).map classify

/-! ## Markers -/

inductive SourceLayer
  | hook
  | transcript
  | screen

/-- SOURCE: services/question_state.py:57-64 -/
structure MarkerState where
  isOpen : Bool
  openedAt : Option ℚ
  sourceLayer : SourceLayer
  toolName : Option String
  clocked : isOpen = openedAt.isSome

def MarkerState.opened (now : ℚ) (sourceLayer : SourceLayer) (toolName : Option String) :
    MarkerState := ⟨true, some now, sourceLayer, toolName, rfl⟩

def MarkerState.cleared (m : MarkerState) : MarkerState :=
  ⟨false, none, m.sourceLayer, m.toolName, rfl⟩

abbrev Markers := Dict String MarkerState

/-- SOURCE: services/question_state.py:86-122 -/
def pushMarker (markers : Markers) (terminalId kind : String) (sourceLayer : SourceLayer)
    (toolName : Option String) (now : ℚ) : Markers :=
  match markers.find terminalId with
  | none =>
    if kind = "question_open" then
      markers.assign terminalId (.opened now sourceLayer toolName)
    else markers
  | some state =>
    if kind = "question_open" then
      if state.isOpen then
        markers.assign terminalId
          { state with sourceLayer := sourceLayer, toolName := toolName.orElse fun _ => state.toolName }
      else markers.assign terminalId (.opened now sourceLayer toolName)
    else if kind = "question_clear" ∧ state.isOpen then markers.assign terminalId state.cleared
    else markers

/-- SOURCE: services/question_state.py:125-128 -/
def isOpen (markers : Markers) (terminalId : String) : Bool :=
  (markers.find terminalId).any MarkerState.isOpen

/-- SOURCE: services/question_state.py:135-138 -/
def forget (markers : Markers) (terminalId : String) : Markers := markers.pop terminalId

/-- SOURCE: services/question_state.py:145-189 -/
def reconcile (loads : Text → Decoded) (markers : Markers) (terminalId : String)
    (transcript : Option (List Nat)) (now ttl : ℚ) : Markers :=
  match parseTranscript loads transcript with
  | some .opened =>
    if isOpen markers terminalId then markers
    else markers.assign terminalId (.opened now .transcript none)
  | some .closed =>
    match markers.find terminalId with
    | some state => if state.isOpen then markers.assign terminalId state.cleared else markers
    | none => markers
  | none =>
    match markers.find terminalId with
    | some state =>
      match state.openedAt with
      | some openedAt =>
        if ttl ≤ now - openedAt then markers.assign terminalId state.cleared else markers
      | none => markers
    | none => markers

/-! ## What the transcript says -/

/-- A call under a text id. -/
def uses (id : Text) (block : JsonTree) : Bool := isUse block && useId block == some (.str id)

/-- A result for a call. -/
def answers (id : Option JsonTree) (block : JsonTree) : Bool :=
  isResult block && (resultId block).isSome && resultId block == id

/-- The newest call and the blocks behind it. -/
def newestUse : List JsonTree → Option (JsonTree × List JsonTree)
  | [] => none
  | block :: rest => (newestUse rest).orElse fun _ => if isUse block then some (block, rest) else none

/-- The newest call has no result with its id behind it. -/
def newestUnanswered (blocks : List JsonTree) : Bool :=
  (newestUse blocks).any fun (call, rest) => !rest.any (answers (useId call))

/-- A result for the id stands somewhere behind a call under it. -/
def AnsweredSince (blocks : List JsonTree) (id : Text) : Prop :=
  ∃ before call after, blocks = before ++ call :: after ∧ uses id call = true
    ∧ ∃ block ∈ after, answers (some (.str id)) block = true

/-- The id was called and has had no result since. -/
def Abandoned (blocks : List JsonTree) (id : Text) : Prop :=
  (∃ block ∈ blocks, uses id block = true) ∧ ¬AnsweredSince blocks id

/-- Before an answered newest call nothing was abandoned; next to an unanswered one whose id is no
text, or was called and answered before, another id is abandoned. -/
structure Regular (blocks : List JsonTree) : Prop where
  settled : newestUnanswered blocks = false → ∀ id, ¬Abandoned blocks id
  fresh : ∀ call rest, newestUse blocks = some (call, rest) → newestUnanswered blocks = true →
    (∀ id, useId call = some (.str id) → AnsweredSince blocks id) → ∃ id, Abandoned blocks id

/-! ## The pairing -/

theorem answeredSince_concat (blocks : List JsonTree) (block : JsonTree) (id : Text) :
    AnsweredSince (blocks ++ [block]) id ↔ AnsweredSince blocks id
      ∨ (∃ call ∈ blocks, uses id call = true) ∧ answers (some (.str id)) block = true := by
  constructor
  · rintro ⟨before, call, after, heq, hcall, result, hresult, hanswers⟩
    cases after using List.reverseRecOn with
    | nil => exact absurd hresult List.not_mem_nil
    | append_singleton after last =>
      rw [← List.cons_append, ← List.append_assoc] at heq
      obtain ⟨rfl, hlast⟩ := List.append_inj' heq rfl
      cases List.cons.inj hlast |>.1
      rcases List.mem_append.mp hresult with hbefore | hend
      · exact .inl ⟨before, call, after, rfl, hcall, result, hbefore, hanswers⟩
      · rw [List.mem_singleton.mp hend] at hanswers
        exact .inr ⟨⟨call, by simp, hcall⟩, hanswers⟩
  · rintro (⟨before, call, after, rfl, hcall, result, hresult, hanswers⟩
      | ⟨⟨call, hmem, hcall⟩, hanswers⟩)
    · exact ⟨before, call, after ++ [block], by simp, hcall, result,
        List.mem_append_left _ hresult, hanswers⟩
    · obtain ⟨before, after, rfl⟩ := List.append_of_mem hmem
      exact ⟨before, call, after ++ [block], by simp, hcall, block, by simp, hanswers⟩

/-- What the pairing holds after the blocks: every id that was called, in `order` and with whether
it was answered since. -/
structure Paired (blocks : List JsonTree) (p : Pairing) : Prop where
  order : ∀ id, id ∈ p.order ↔ ∃ block ∈ blocks, uses id block = true
  seen : ∀ id, (p.seenUse.find id).isSome = true ↔ ∃ block ∈ blocks, uses id block = true
  answered : ∀ id, p.seenUse.find id = some true ↔ AnsweredSince blocks id

/-- A block that neither calls nor answers under any text leaves everything as it is. -/
theorem Paired.skip {blocks : List JsonTree} {p : Pairing} (h : Paired blocks p) {block : JsonTree}
    (huses : ∀ id, uses id block = false)
    (hanswers : ∀ id, (∃ call ∈ blocks, uses id call = true) →
      answers (some (.str id)) block = false) : Paired (blocks ++ [block]) p where
  order id := by simp [h.order id, huses id]
  seen id := by simp [h.seen id, huses id]
  answered id := by
    rw [h.answered, answeredSince_concat]
    constructor
    · exact .inl
    · rintro (hsince | ⟨hcalled, htrue⟩)
      · exact hsince
      · rw [hanswers id hcalled] at htrue
        exact absurd htrue Bool.false_ne_true

theorem uses_eq_false_of_isUse {block : JsonTree} (h : isUse block = false) (id : Text) :
    uses id block = false := by
  rw [uses, h, Bool.false_and]

theorem answers_eq_false_of_isUse {block : JsonTree} (h : isUse block = true)
    (id : Option JsonTree) : answers id block = false := by
  have hresult : isResult block = false := by
    rw [isUse, beq_iff_eq] at h
    rw [isResult, h]
    decide
  rw [answers, hresult, Bool.false_and, Bool.false_and]

theorem uses_iff_of_useId {block : JsonTree} (h : isUse block = true) {i : Text}
    (hid : useId block = some (.str i)) (id : Text) : uses id block = true ↔ id = i := by
  rw [uses, h, Bool.true_and, hid, beq_iff_eq, Option.some.injEq, JsonTree.str.injEq]
  exact eq_comm

theorem answers_iff_of_resultId {block : JsonTree} (h : isResult block = true) {i : Text}
    (hid : resultId block = some (.str i)) (id : Text) :
    answers (some (.str id)) block = true ↔ id = i := by
  rw [answers, h, Bool.true_and, hid, Option.isSome_some, Bool.true_and, beq_iff_eq,
    Option.some.injEq, JsonTree.str.injEq]
  exact eq_comm

/-- One more block. -/
theorem Paired.step {blocks : List JsonTree} {p : Pairing} (h : Paired blocks p)
    (block : JsonTree) : Paired (blocks ++ [block]) (p.step block) := by
  unfold Pairing.step
  by_cases huse : isUse block = true
  · rw [if_pos huse]
    have hanswers := answers_eq_false_of_isUse huse
    split
    · next i hid =>
      have huses := uses_iff_of_useId huse hid
      by_cases hseen : (p.seenUse.find i).isSome = true
      · -- the id was called before
        rw [if_pos hseen]
        have hcalled : ∀ id, (∃ call ∈ blocks, uses id call = true)
            ↔ ∃ call ∈ blocks ++ [block], uses id call = true := by
          intro id
          simp only [List.mem_append, List.mem_singleton, or_and_right, exists_or,
            exists_eq_left, huses id]
          constructor
          · exact .inl
          · rintro (hcalled | rfl)
            · exact hcalled
            · exact (h.seen id).mp hseen
        refine ⟨fun id => ?_, fun id => ?_, fun id => ?_⟩
        · rw [h.order, hcalled]
        · rw [h.seen, hcalled]
        · rw [h.answered, answeredSince_concat, hanswers]
          simp
      · rw [if_neg hseen]
        refine ⟨fun id => ?_, fun id => ?_, fun id => ?_⟩
        · simp [h.order, huses id, or_and_right, exists_or]
        · rw [Dict.find_assign]
          by_cases hi : id = i
          · simp [hi, (huses i).mpr rfl]
          · have hother : uses id block = false :=
              Bool.eq_false_iff.mpr fun htrue => hi ((huses id).mp htrue)
            simp [hi, h.seen, hother]
        · rw [Dict.find_assign, answeredSince_concat, hanswers, ← h.answered]
          by_cases hi : id = i
          · subst hi
            rw [Option.not_isSome_iff_eq_none] at hseen
            simp [hseen]
          · simp [hi]
    · next hid =>
      refine h.skip (fun id => ?_) fun id _ => hanswers _
      rw [uses, huse, Bool.true_and, beq_eq_false_iff_ne]
      exact hid id
  · have huse : isUse block = false := Bool.eq_false_iff.mpr huse
    rw [if_neg (by simp [huse])]
    have huses := uses_eq_false_of_isUse huse
    by_cases hresult : isResult block = true
    · rw [if_pos hresult]
      split
      · next i hid =>
        have hanswers := answers_iff_of_resultId hresult hid
        by_cases hseen : (p.seenUse.find i).isSome = true
        · rw [if_pos hseen]
          refine ⟨fun id => ?_, fun id => ?_, fun id => ?_⟩
          · simp [h.order id, huses id]
          · rw [Dict.find_assign]
            by_cases hi : id = i
            · subst hi
              simpa [huses id] using (h.seen id).mp hseen
            · simp [hi, h.seen, huses id]
          · rw [Dict.find_assign, answeredSince_concat, hanswers id, ← h.answered]
            by_cases hi : id = i
            · subst hi
              simpa using .inr ((h.seen id).mp hseen)
            · simp [hi]
        · rw [if_neg hseen]
          refine h.skip huses fun id hcalled => Bool.eq_false_iff.mpr fun htrue => hseen ?_
          rw [← (hanswers id).mp htrue]
          exact (h.seen id).mpr hcalled
      · next hid =>
        refine h.skip huses fun id _ => ?_
        rw [answers, beq_eq_false_iff_ne.mpr (hid id), Bool.and_false]
    · rw [if_neg hresult]
      refine h.skip huses fun id _ => ?_
      rw [answers, Bool.eq_false_iff.mpr hresult, Bool.false_and, Bool.false_and]

theorem paired_foldl (blocks : List JsonTree) :
    Paired blocks (blocks.foldl Pairing.step .empty) := by
  induction blocks using List.reverseRecOn with
  | nil => exact ⟨fun id => by simp [Pairing.empty], fun id => by simp [Pairing.empty], fun id => by
      simp [Pairing.empty, AnsweredSince]⟩
  | append_singleton blocks block ih =>
    rw [List.foldl_append]
    exact ih.step block

/-- The terminal is taken for asking when some id was abandoned. -/
theorem classify_eq_opened_iff (blocks : List JsonTree) :
    classify blocks = .opened ↔ ∃ id, Abandoned blocks id := by
  have h := paired_foldl blocks
  unfold classify
  generalize blocks.foldl Pairing.step .empty = p at h
  have hany : (p.order.any fun id => !(p.seenUse.find id).getD false) = true
      ↔ ∃ id, Abandoned blocks id := by
    rw [List.any_eq_true]
    refine exists_congr fun id => and_congr (h.order id) ?_
    rw [← h.answered]
    rcases p.seenUse.find id with _ | _ | _ <;> simp
  dsimp only
  split
  · next htrue => exact ⟨fun _ => hany.mp htrue, fun _ => rfl⟩
  · next hfalse =>
    refine ⟨fun hopened => ?_, fun hex => absurd (hany.mpr hex) hfalse⟩
    cases hopened

theorem mem_of_newestUse {blocks rest : List JsonTree} {call : JsonTree}
    (h : newestUse blocks = some (call, rest)) : call ∈ blocks ∧ isUse call = true := by
  induction blocks with
  | nil => exact absurd h (by simp [newestUse])
  | cons block blocks ih =>
    rw [newestUse] at h
    cases htail : newestUse blocks with
    | some found =>
      rw [htail] at h
      cases h
      obtain ⟨hmem, huse⟩ := ih htail
      exact ⟨List.mem_cons_of_mem _ hmem, huse⟩
    | none =>
      rw [htail] at h
      by_cases huse : isUse block = true
      · simp only [Option.orElse_none, huse, if_true, Option.some.injEq, Prod.mk.injEq] at h
        obtain ⟨rfl, rfl⟩ := h
        exact ⟨List.mem_cons_self, huse⟩
      · simp [huse] at h

/-- The service and its description say the same of a transcript exactly when it is regular. -/
theorem classify_iff_newestUnanswered (blocks : List JsonTree) :
    (classify blocks = .opened ↔ newestUnanswered blocks = true) ↔ Regular blocks := by
  rw [classify_eq_opened_iff]
  constructor
  · intro h
    refine ⟨fun hfalse id hid => ?_, fun _ _ _ htrue _ => h.mpr htrue⟩
    rw [h.mp ⟨id, hid⟩] at hfalse
    exact absurd hfalse (by decide)
  · intro h
    constructor
    · rintro ⟨id, hid⟩
      by_contra hfalse
      exact h.settled (Bool.eq_false_iff.mpr hfalse) id hid
    · intro htrue
      obtain ⟨call, rest, hnewest⟩ : ∃ call rest, newestUse blocks = some (call, rest) := by
        unfold newestUnanswered at htrue
        cases hnewest : newestUse blocks with
        | none => simp [hnewest] at htrue
        | some found => exact ⟨found.1, found.2, rfl⟩
      obtain ⟨hmem, huse⟩ := mem_of_newestUse hnewest
      by_cases hsince : ∀ id, useId call = some (.str id) → AnsweredSince blocks id
      · exact h.fresh call rest hnewest htrue hsince
      · push Not at hsince
        obtain ⟨id, hid, hsince⟩ := hsince
        refine ⟨id, ⟨call, hmem, ?_⟩, hsince⟩
        rw [uses, huse, hid, Bool.true_and, beq_self_eq_true]

/-! ## Runs -/

/-- A call of the service. -/
inductive Call
  | pushMarker (terminalId kind : String) (sourceLayer : SourceLayer) (toolName : Option String)
      (now : ℚ)
  | reconcile (terminalId : String) (transcript : Option (List Nat)) (now ttl : ℚ)
  | forget (terminalId : String)

/-- The clock of a call. -/
def Call.now : Call → Option ℚ
  | .pushMarker _ _ _ _ now => some now
  | .reconcile _ _ now _ => some now
  | .forget _ => none

variable (loads : Text → Decoded)

def step (markers : Markers) : Call → Markers
  | .pushMarker terminalId kind sourceLayer toolName now =>
    pushMarker markers terminalId kind sourceLayer toolName now
  | .reconcile terminalId transcript now ttl =>
    reconcile loads markers terminalId transcript now ttl
  | .forget terminalId => forget markers terminalId

/-- The markers after calls on a service that has none. -/
def run (calls : List Call) : Markers := Library.run (step loads) Table.empty calls

/-- After every reconcile that could read the transcript the terminal is taken for asking if and
only if the newest call is unanswered. -/
def Follows (calls : List Call) : Prop :=
  ∀ earlier later terminalId transcript now ttl blocks,
    calls = earlier ++ .reconcile terminalId (some transcript) now ttl :: later →
    blocksOf loads transcript = some blocks →
    (isOpen (run loads (earlier ++ [.reconcile terminalId (some transcript) now ttl])) terminalId
        = true ↔ newestUnanswered blocks = true)

/-- A marker that one call opened and that stayed open since is closed by a reconcile that cannot
read the transcript and comes the TTL after that call. -/
def Expires (calls : List Call) : Prop :=
  ∀ earlier opening between later terminalId transcript opened now ttl,
    calls = earlier ++ opening :: (between ++ .reconcile terminalId transcript now ttl :: later) →
    isOpen (run loads earlier) terminalId = false → opening.now = some opened →
    (∀ n ≤ between.length,
      isOpen (run loads (earlier ++ opening :: between.take n)) terminalId = true) →
    parseTranscript loads transcript = none → opened + ttl ≤ now →
    isOpen (run loads (earlier ++ opening :: (between ++
      [.reconcile terminalId transcript now ttl]))) terminalId = false

/-- Since when the marker of a terminal is open. -/
def openedAt (markers : Markers) (terminalId : String) : Option ℚ :=
  (markers.find terminalId).bind MarkerState.openedAt

theorem isOpen_eq_isSome (markers : Markers) (terminalId : String) :
    isOpen markers terminalId = (openedAt markers terminalId).isSome := by
  unfold isOpen openedAt
  cases markers.find terminalId with
  | none => rfl
  | some state => exact state.clocked

theorem run_concat (calls : List Call) (call : Call) :
    run loads (calls ++ [call]) = step loads (run loads calls) call :=
  Library.run_concat Table.empty calls call

theorem openedAt_assign (markers : Markers) (terminalId other : String) (state : MarkerState) :
    openedAt (markers.assign terminalId state) other
      = if other = terminalId then state.openedAt else openedAt markers other := by
  unfold openedAt
  rw [Dict.find_assign]
  by_cases h : other = terminalId <;> simp [h]

/-- What a call at `now` may do to the clock of a marker: nothing, or set it to its own where the
marker was closed, or close it. -/
def ClockStep (now : Option ℚ) (before after : Markers) (terminalId : String) : Prop :=
  openedAt after terminalId = openedAt before terminalId
    ∨ (isOpen before terminalId = false ∧ openedAt after terminalId = now)
    ∨ isOpen after terminalId = false

theorem clockStep_cleared (now : Option ℚ) (markers : Markers) (terminalId other : String)
    (state : MarkerState) :
    ClockStep now markers (markers.assign terminalId state.cleared) other := by
  by_cases h : other = terminalId
  · refine .inr (.inr ?_)
    rw [isOpen_eq_isSome, openedAt_assign, if_pos h]
    rfl
  · exact .inl (by rw [openedAt_assign, if_neg h])

theorem clockStep_opened {markers : Markers} {terminalId : String}
    (hclosed : isOpen markers terminalId = false) (now : ℚ) (sourceLayer : SourceLayer)
    (toolName : Option String) (other : String) :
    ClockStep (some now) markers
      (markers.assign terminalId (.opened now sourceLayer toolName)) other := by
  by_cases h : other = terminalId
  · subst h
    exact .inr (.inl ⟨hclosed, by rw [openedAt_assign, if_pos rfl]; rfl⟩)
  · exact .inl (by rw [openedAt_assign, if_neg h])

theorem isOpen_of_find {markers : Markers} {terminalId : String} {state : MarkerState}
    (h : markers.find terminalId = some state) : isOpen markers terminalId = state.isOpen := by
  rw [isOpen, h]
  rfl

theorem clockStep_pushMarker (markers : Markers) (terminalId kind : String)
    (sourceLayer : SourceLayer) (toolName : Option String) (now : ℚ) (other : String) :
    ClockStep (some now) markers (pushMarker markers terminalId kind sourceLayer toolName now)
      other := by
  unfold pushMarker
  split
  · next hfind =>
    have hclosed : isOpen markers terminalId = false := by
      rw [isOpen, hfind]
      rfl
    split
    · exact clockStep_opened hclosed now sourceLayer toolName other
    · exact .inl rfl
  · next state hfind =>
    split
    · split
      · -- a repeated open keeps the clock
        refine .inl ?_
        rw [openedAt_assign]
        by_cases h : other = terminalId
        · rw [if_pos h, h, openedAt, hfind]
          rfl
        · rw [if_neg h]
      · next hopen =>
        refine clockStep_opened ?_ now sourceLayer toolName other
        rw [isOpen_of_find hfind]
        exact Bool.eq_false_iff.mpr hopen
    · split
      · exact clockStep_cleared _ markers terminalId other state
      · exact .inl rfl

theorem clockStep_reconcile (markers : Markers) (terminalId : String)
    (transcript : Option (List Nat)) (now ttl : ℚ) (other : String) :
    ClockStep (some now) markers (reconcile loads markers terminalId transcript now ttl) other := by
  unfold reconcile
  split
  · split
    · exact .inl rfl
    · next hopen =>
      exact clockStep_opened (Bool.eq_false_iff.mpr hopen) now .transcript none other
  · split
    · next state hfind =>
      split
      · exact clockStep_cleared _ markers terminalId other state
      · exact .inl rfl
    · exact .inl rfl
  · split
    · next state hfind =>
      split
      · split
        · exact clockStep_cleared _ markers terminalId other state
        · exact .inl rfl
      · exact .inl rfl
    · exact .inl rfl

theorem clockStep_step (markers : Markers) (call : Call) (terminalId : String) :
    ClockStep call.now markers (step loads markers call) terminalId := by
  cases call with
  | pushMarker target kind sourceLayer toolName now =>
    exact clockStep_pushMarker markers target kind sourceLayer toolName now terminalId
  | reconcile target transcript now ttl =>
    exact clockStep_reconcile loads markers target transcript now ttl terminalId
  | forget target =>
    by_cases h : terminalId = target
    · refine .inr (.inr ?_)
      rw [step, forget, isOpen, Dict.find_pop, if_pos h]
      rfl
    · refine .inl ?_
      rw [step, forget, openedAt, Dict.find_pop, if_neg h]
      rfl

/-- The clock of a marker that stays open is that of the call that opened it. -/
theorem openedAt_run {earlier between : List Call} {opening : Call} {terminalId : String}
    {opened : ℚ} (hclosed : isOpen (run loads earlier) terminalId = false)
    (hnow : opening.now = some opened)
    (hopen : ∀ n ≤ between.length,
      isOpen (run loads (earlier ++ opening :: between.take n)) terminalId = true) :
    openedAt (run loads (earlier ++ opening :: between)) terminalId = some opened := by
  induction between using List.reverseRecOn with
  | nil =>
    have htrue := hopen 0 (Nat.zero_le _)
    rw [List.take_nil, run_concat] at htrue
    rw [run_concat]
    rcases clockStep_step loads (run loads earlier) opening terminalId with hsame | ⟨-, hset⟩ | hfalse
    · rw [isOpen_eq_isSome, hsame, ← isOpen_eq_isSome, hclosed] at htrue
      exact absurd htrue Bool.false_ne_true
    · rw [hset, hnow]
    · rw [hfalse] at htrue
      exact absurd htrue Bool.false_ne_true
  | append_singleton between call ih =>
    have hlength : (between ++ [call]).length = between.length + 1 := by simp
    have hbefore := hopen between.length (by omega)
    rw [List.take_left] at hbefore
    have hafter := hopen (between.length + 1) (by omega)
    rw [List.take_of_length_le (by omega), ← List.cons_append, ← List.append_assoc, run_concat]
      at hafter
    have hclock := ih fun n hn => by
      have := hopen n (by omega)
      rwa [List.take_append_of_le_length hn] at this
    rw [← List.cons_append, ← List.append_assoc, run_concat]
    rcases clockStep_step loads (run loads (earlier ++ opening :: between)) call terminalId with
      hsame | ⟨hfalse, -⟩ | hfalse
    · rw [hsame, hclock]
    · rw [hfalse] at hbefore
      exact absurd hbefore Bool.false_ne_true
    · rw [hfalse] at hafter
      exact absurd hafter Bool.false_ne_true

/-- A reconcile that reads the transcript leaves what the transcript says. -/
theorem isOpen_reconcile {transcript : Option (List Nat)} {level : Level}
    (h : parseTranscript loads transcript = some level) (markers : Markers) (terminalId : String)
    (now ttl : ℚ) :
    isOpen (reconcile loads markers terminalId transcript now ttl) terminalId = true
      ↔ level = .opened := by
  unfold reconcile
  rw [h]
  cases level with
  | opened =>
    refine ⟨fun _ => rfl, fun _ => ?_⟩
    dsimp only
    split
    · next hopen => exact hopen
    · rw [isOpen, Dict.find_assign, if_pos rfl]
      rfl
  | closed =>
    refine ⟨fun htrue => ?_, fun heq => nomatch heq⟩
    dsimp only at htrue
    split at htrue
    · next state hfind =>
      split at htrue
      · rw [isOpen, Dict.find_assign, if_pos rfl] at htrue
        exact absurd htrue Bool.false_ne_true
      · next hopen =>
        rw [isOpen_of_find hfind] at htrue
        exact absurd htrue hopen
    · next hfind =>
      rw [isOpen, hfind] at htrue
      exact absurd htrue Bool.false_ne_true

/-- A reconcile that reads nothing closes a marker as old as the TTL. -/
theorem isOpen_reconcile_of_expired {transcript : Option (List Nat)}
    (h : parseTranscript loads transcript = none) {markers : Markers} {terminalId : String}
    {opened : ℚ} (hopened : openedAt markers terminalId = some opened) {now ttl : ℚ}
    (hold : opened + ttl ≤ now) :
    isOpen (reconcile loads markers terminalId transcript now ttl) terminalId = false := by
  obtain ⟨state, hfind, hstate⟩ := Option.bind_eq_some_iff.mp hopened
  unfold reconcile
  rw [h]
  dsimp only
  rw [hfind]
  dsimp only
  rw [hstate]
  dsimp only
  rw [if_pos (le_sub_iff_add_le'.mpr hold), isOpen, Dict.find_assign, if_pos rfl]
  rfl

/-- Every marker that outlives the TTL unread expires. -/
theorem expires (calls : List Call) : Expires loads calls := by
  intro earlier opening between later terminalId transcript opened now ttl _ hclosed hnow hopen
    hunread hold
  rw [← List.cons_append, ← List.append_assoc, run_concat]
  exact isOpen_reconcile_of_expired loads hunread (openedAt_run loads hclosed hnow hopen) hold

/-- Over a run the service follows the newest call, and old markers expire, if and only if every
transcript that was read was regular. -/
theorem follows_and_expires_iff (calls : List Call) :
    (Follows loads calls ∧ Expires loads calls)
      ↔ ∀ terminalId transcript now ttl blocks,
          .reconcile terminalId (some transcript) now ttl ∈ calls →
          blocksOf loads transcript = some blocks → Regular blocks := by
  have hstep : ∀ earlier terminalId transcript now ttl blocks,
      blocksOf loads transcript = some blocks →
      (isOpen (run loads (earlier ++ [.reconcile terminalId (some transcript) now ttl]))
          terminalId = true ↔ classify blocks = .opened) := by
    intro earlier terminalId transcript now ttl blocks hblocks
    rw [run_concat]
    refine isOpen_reconcile loads ?_ _ terminalId now ttl
    rw [parseTranscript, Option.bind_some, hblocks, Option.map_some]
  constructor
  · rintro ⟨hfollows, -⟩ terminalId transcript now ttl blocks hmem hblocks
    obtain ⟨earlier, later, rfl⟩ := List.append_of_mem hmem
    refine (classify_iff_newestUnanswered blocks).mp ?_
    rw [← hstep earlier terminalId transcript now ttl blocks hblocks]
    exact hfollows earlier later terminalId transcript now ttl blocks rfl hblocks
  · intro hregular
    refine ⟨?_, expires loads calls⟩
    rintro earlier later terminalId transcript now ttl blocks rfl hblocks
    rw [hstep earlier terminalId transcript now ttl blocks hblocks]
    exact (classify_iff_newestUnanswered blocks).mpr
      (hregular terminalId transcript now ttl blocks (by simp) hblocks)

/-- `json.loads` on texts that it reads or takes for malformed. -/
def pythonLoads (line : Text) : Decoded :=
  match JsonTree.loads line with
  | some record => .document record
  | none => .malformed

/-- A call that was interrupted, and a later one with its result. -/
def interruptedTranscript : List Nat :=
  text "\x7b\"message\":\x7b\"content\":[\x7b\"type\":\"tool_use\",\"id\":\"a\"\x7d]\x7d\x7d\n"
    ++ text "\x7b\"message\":\x7b\"content\":[\x7b\"type\":\"tool_use\",\"id\":\"b\"\x7d]\x7d\x7d\n"
    ++ text
      "\x7b\"message\":\x7b\"content\":[\x7b\"type\":\"tool_result\",\"tool_use_id\":\"b\"\x7d]\x7d\x7d\n"

/-- The newest call is answered, and the reconcile opens the marker. -/
theorem interrupted_call_opens :
    isOpen (run pythonLoads [.reconcile "t" (some interruptedTranscript) 0 300]) "t" = true
      ∧ (blocksOf pythonLoads interruptedTranscript).map newestUnanswered = some false := by
  decide +kernel

end CliAgentOrchestrator.Terminal
