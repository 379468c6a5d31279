import CliAgentOrchestrator.Library.Decimal
import CliAgentOrchestrator.Memory.Redact
import CliAgentOrchestrator.Workflow.Envelope

/-!
# What a settle stores

`_sanitise_error` and `build_envelope` on texts as Python has them: code points, lone surrogates
included, which have no UTF-8 form. Both redact, encode and cut the bytes, the message behind its
limit and the error in front of it. On a text that can be encoded both end, within the limit, and say
what they dropped; on any other the encoding raises (`settles_clean_iff`). On a string the envelope is
the one of `Workflow.buildEnvelope` (`buildEnvelope_text`).
-/

set_option autoImplicit false

namespace CliAgentOrchestrator.Workflow.Settle

open Library

/-! ## Encoding -/

/-- What is raised. -/
inductive Raised
  | unicodeEncodeError

/-- `text.encode("utf-8")`. -/
def encode (t : Text) : Except Raised (List Nat) :=
  if t.all isScalar then .ok (utf8 t) else .error .unicodeEncodeError

/-! ## Settling -/

variable (redactSecrets : Text → Text × List Text)

/-- SOURCE: services/step_result.py:25-83 -/
def buildEnvelope (lastMessage : Text) (status : String) (terminalId : Option String) :
    Except Raised StepResultEnvelope := do
  let (text, fired) := redactSecrets lastMessage
  let encoded ← encode text
  let truncated := workflowJournalResultMaxBytes < encoded.length
  let text :=
    if truncated then decodeIgnore (encoded.take workflowJournalResultMaxBytes) else text
  .ok
    { lastMessage := ofText text
      status := status
      terminalId := terminalId
      truncated := truncated
      redacted := !fired.isEmpty }

/-- SOURCE: services/script_runner.py:588-590
(`_ERROR_TRUNCATION_MARKER`) -/
def errorTruncationMarker (dropped : Nat) : Text :=
  text "[... error truncated: " ++ digits dropped
    ++ text " leading bytes dropped; showing tail ...]\n"

/-- SOURCE: services/script_runner.py:603-667 (`_sanitise_error`) -/
def sanitiseError : Option Text → Except Raised (Option Text)
  | none => .ok none
  | some error => do
    let (text, _) := redactSecrets error
    let cap := workflowJournalResultMaxBytes
    let encoded ← encode text
    let total := encoded.length
    if total ≤ cap then .ok (some text)
    else
      let marker ← encode (errorTruncationMarker total)
      if cap ≤ marker.length then .ok (some (decodeIgnore (marker.take cap)))
      else
        let keep := cap - marker.length
        let tail := decodeIgnore (encoded.drop (total - keep))
        let kept ← encode tail
        .ok (some (errorTruncationMarker (total - kept.length) ++ tail))

/-! ## What is promised -/

/-- The text has a UTF-8 form, and it is within the limit. -/
def Bounded (t : Text) : Prop :=
  ∃ bytes, encode t = .ok bytes ∧ bytes.length ≤ workflowJournalResultMaxBytes

/-- The whole text, or the number of the bytes that were dropped and the end of the text. -/
def Reported (text stored : Text) : Prop :=
  if (utf8 text).length ≤ workflowJournalResultMaxBytes then stored = text
  else ∃ tail, tail <:+ text
    ∧ stored = errorTruncationMarker ((utf8 text).length - (utf8 tail).length) ++ tail

/-! ## The marker -/

theorem errorTruncationMarker_ascii (dropped : Nat) :
    ∀ c ∈ errorTruncationMarker dropped, c < 0x80 := by
  intro c hc
  simp only [errorTruncationMarker, List.mem_append] at hc
  obtain (hc | hc) | hc := hc
  · revert c
    decide
  · have hdigit := mem_digits hc
    omega
  · revert c
    decide

/-- A smaller number is not written longer. -/
theorem length_errorTruncationMarker_le {m n : Nat} (h : m ≤ n) :
    (errorTruncationMarker m).length ≤ (errorTruncationMarker n).length := by
  have hpos : 0 < (digits n).length := List.length_pos_iff.mpr (digits_ne_nil n)
  have hn : n < 10 ^ (digits n).length := (length_digits_le_iff hpos).mp le_rfl
  have hdigits : (digits m).length ≤ (digits n).length := (length_digits_le_iff hpos).mpr (by omega)
  simp only [errorTruncationMarker, List.length_append]
  omega

/-- The line break of the marker is its last character. -/
theorem lf_notMem_take_marker {dropped limit : Nat}
    (h : limit < (errorTruncationMarker dropped).length) :
    10 ∉ (errorTruncationMarker dropped).take limit := by
  have hlast : errorTruncationMarker dropped = (text "[... error truncated: " ++ digits dropped
      ++ text " leading bytes dropped; showing tail ...]") ++ [10] := by
    simp only [errorTruncationMarker, List.append_assoc]
    rfl
  rw [hlast] at h ⊢
  rw [List.length_append, List.length_singleton] at h
  rw [List.take_append_of_le_length (by omega)]
  intro hmem
  have hmem := List.mem_of_mem_take hmem
  simp only [List.mem_append] at hmem
  obtain (hmem | hmem) | hmem := hmem
  · revert hmem
    decide
  · have hdigit := mem_digits hmem
    omega
  · revert hmem
    decide

theorem lf_mem_marker (dropped : Nat) : 10 ∈ errorTruncationMarker dropped := by
  simp only [errorTruncationMarker, List.mem_append]
  exact .inr (by decide)

/-! ## Either function, where it ends -/

theorem encode_eq_ok_iff {t : Text} {bytes : List Nat} :
    encode t = .ok bytes ↔ (∀ c ∈ t, isScalar c = true) ∧ bytes = utf8 t := by
  unfold encode
  split_ifs with h
  · rw [List.all_eq_true] at h
    constructor
    · intro heq
      exact ⟨h, (Except.ok.inj heq).symm⟩
    · rintro ⟨-, rfl⟩
      rfl
  · rw [List.all_eq_true] at h
    exact ⟨fun heq => (nomatch heq), fun ⟨hall, _⟩ => absurd hall h⟩

theorem bounded_iff {t : Text} : Bounded t ↔
    (∀ c ∈ t, isScalar c = true) ∧ (utf8 t).length ≤ workflowJournalResultMaxBytes := by
  constructor
  · rintro ⟨bytes, hencode, hle⟩
    obtain ⟨hscalar, rfl⟩ := encode_eq_ok_iff.mp hencode
    exact ⟨hscalar, hle⟩
  · rintro ⟨hscalar, hle⟩
    exact ⟨utf8 t, encode_eq_ok_iff.mpr ⟨hscalar, rfl⟩, hle⟩

variable {redactSecrets}

theorem buildEnvelope_of_scalar {lastMessage : Text} (status : String) (terminalId : Option String)
    (h : ∀ c ∈ (redactSecrets lastMessage).1, isScalar c = true) :
    ∃ e, buildEnvelope redactSecrets lastMessage status terminalId = .ok e
      ∧ Bounded (text e.lastMessage) := by
  have hencode := encode_eq_ok_iff.mpr ⟨h, rfl⟩
  refine ⟨_, by simp only [buildEnvelope, hencode]; rfl, ?_⟩
  dsimp only
  by_cases hlong : workflowJournalResultMaxBytes < (utf8 (redactSecrets lastMessage).1).length
  · have hkept : ∀ c ∈ takeWhole workflowJournalResultMaxBytes (redactSecrets lastMessage).1,
        isScalar c = true := fun c hc => h c ((takeWhole_prefixOf _ _).subset hc)
    rw [if_pos hlong, decodeIgnore_take_utf8 h, text_ofText hkept]
    exact bounded_iff.mpr ⟨hkept, length_takeWhole_le _ _⟩
  · rw [if_neg hlong, text_ofText h]
    exact bounded_iff.mpr ⟨h, by omega⟩

theorem scalar_of_buildEnvelope {lastMessage : Text} {status : String} {terminalId : Option String}
    {e : StepResultEnvelope} (h : buildEnvelope redactSecrets lastMessage status terminalId = .ok e) :
    ∀ c ∈ (redactSecrets lastMessage).1, isScalar c = true := by
  cases hencode : encode (redactSecrets lastMessage).1 with
  | error _ =>
    simp only [buildEnvelope, hencode] at h
    cases h
  | ok bytes => exact (encode_eq_ok_iff.mp hencode).1

/-- The cases of a text that can be encoded: it is short, its marker alone is too long, or the end of
it is kept behind the marker. -/
theorem sanitiseError_cases {error t : Text} (ht : (redactSecrets error).1 = t)
    (h : ∀ c ∈ t, isScalar c = true) :
    ((utf8 t).length ≤ workflowJournalResultMaxBytes
        ∧ sanitiseError redactSecrets (some error) = .ok (some t))
      ∨ (workflowJournalResultMaxBytes < (utf8 t).length
        ∧ workflowJournalResultMaxBytes ≤ (errorTruncationMarker (utf8 t).length).length
        ∧ sanitiseError redactSecrets (some error) = .ok (some
          ((errorTruncationMarker (utf8 t).length).take workflowJournalResultMaxBytes)))
      ∨ (workflowJournalResultMaxBytes < (utf8 t).length ∧ ∃ keep tail,
        keep + (errorTruncationMarker (utf8 t).length).length = workflowJournalResultMaxBytes
          ∧ tail <:+ t ∧ (utf8 tail).length ≤ keep
          ∧ sanitiseError redactSecrets (some error) = .ok (some
            (errorTruncationMarker ((utf8 t).length - (utf8 tail).length) ++ tail))) := by
  subst ht
  generalize hcap : workflowJournalResultMaxBytes = cap
  have hencode := encode_eq_ok_iff.mpr ⟨h, rfl⟩
  have hascii := errorTruncationMarker_ascii (utf8 (redactSecrets error).1).length
  have hmarker : encode (errorTruncationMarker (utf8 (redactSecrets error).1).length)
      = .ok (errorTruncationMarker (utf8 (redactSecrets error).1).length) :=
    encode_eq_ok_iff.mpr ⟨isScalar_of_ascii hascii, (utf8_ascii hascii).symm⟩
  by_cases hshort : (utf8 (redactSecrets error).1).length ≤ cap
  · refine .inl ⟨hshort, ?_⟩
    simp only [sanitiseError, hencode, hcap]
    exact if_pos hshort
  · have hlong : cap < (utf8 (redactSecrets error).1).length := Nat.lt_of_not_le hshort
    generalize hm : errorTruncationMarker (utf8 (redactSecrets error).1).length = marker
      at hascii hmarker ⊢
    by_cases hover : cap ≤ marker.length
    · refine .inr (.inl ⟨hlong, hover, ?_⟩)
      have hcut : decodeIgnore (marker.take cap) = marker.take cap := by
        have hfront : ∀ c ∈ marker.take cap, c < 0x80 :=
          fun c hc => hascii c (List.mem_of_mem_take hc)
        conv_lhs => rw [← utf8_ascii hfront]
        exact decodeIgnore_utf8 (isScalar_of_ascii hfront)
      simp only [sanitiseError, hencode, hcap]
      refine (if_neg hshort).trans ?_
      rw [hm, hmarker]
      refine (if_pos hover).trans ?_
      rw [hcut]
    · refine .inr (.inr ⟨hlong, cap - marker.length,
        dropWhole ((utf8 (redactSecrets error).1).length - (cap - marker.length))
          (redactSecrets error).1, by omega, dropWhole_suffix _ _, ?_, ?_⟩)
      · have hdrop := length_dropWhole_le
          ((utf8 (redactSecrets error).1).length - (cap - marker.length)) (redactSecrets error).1
        omega
      · have hkept : encode (dropWhole ((utf8 (redactSecrets error).1).length
            - (cap - marker.length)) (redactSecrets error).1) = .ok _ :=
          encode_eq_ok_iff.mpr
            ⟨fun c hc => h c ((dropWhole_suffix _ _).subset hc), rfl⟩
        simp only [sanitiseError, hencode, hcap]
        refine (if_neg hshort).trans ?_
        rw [hm, hmarker]
        refine (if_neg hover).trans ?_
        rw [decodeIgnore_drop_utf8 h, hkept]
        rfl

theorem scalar_of_sanitiseError {error stored : Text}
    (h : sanitiseError redactSecrets (some error) = .ok (some stored)) :
    ∀ c ∈ (redactSecrets error).1, isScalar c = true := by
  cases hencode : encode (redactSecrets error).1 with
  | error _ =>
    simp only [sanitiseError, hencode] at h
    cases h
  | ok bytes => exact (encode_eq_ok_iff.mp hencode).1

theorem length_utf8_append_marker {dropped : Nat} (tail : Text) :
    (utf8 (errorTruncationMarker dropped ++ tail)).length
      = (errorTruncationMarker dropped).length + (utf8 tail).length := by
  rw [utf8_append, utf8_ascii (errorTruncationMarker_ascii dropped), List.length_append]

/-- The marker and the end of the text are within the limit, as the number that is named is at most
the number there was room for. -/
theorem sanitiseError_of_scalar {error : Text}
    (h : ∀ c ∈ (redactSecrets error).1, isScalar c = true) :
    (∃ stored, sanitiseError redactSecrets (some error) = .ok (some stored) ∧ Bounded stored
        ∧ Reported (redactSecrets error).1 stored) ↔
      (utf8 (redactSecrets error).1).length ≤ workflowJournalResultMaxBytes
        ∨ (errorTruncationMarker (utf8 (redactSecrets error).1).length).length
          ≤ workflowJournalResultMaxBytes := by
  obtain ⟨hshort, heq⟩ | ⟨hlong, hover, heq⟩ | ⟨hlong, keep, tail, hkeep, htail, hle, heq⟩ :=
    sanitiseError_cases rfl h
  · refine ⟨fun _ => .inl hshort, fun _ => ⟨_, heq, bounded_iff.mpr ⟨h, hshort⟩, ?_⟩⟩
    exact (if_pos hshort).mpr rfl
  · constructor
    · rintro ⟨stored, hstored, -, hreported⟩
      cases heq.symm.trans hstored
      obtain ⟨tail, -, htail⟩ := (if_neg (Nat.not_le_of_lt hlong)).mp hreported
      by_contra hboth
      refine lf_notMem_take_marker (Nat.lt_of_not_le fun hfits => hboth (.inr hfits)) ?_
      rw [htail]
      exact List.mem_append_left _ (lf_mem_marker _)
    · intro hfits
      have hlength : (errorTruncationMarker (utf8 (redactSecrets error).1).length).length
          = workflowJournalResultMaxBytes := by omega
      rw [List.take_of_length_le hlength.le] at heq
      have hascii := errorTruncationMarker_ascii (utf8 (redactSecrets error).1).length
      refine ⟨_, heq, bounded_iff.mpr ⟨isScalar_of_ascii hascii, ?_⟩, ?_⟩
      · rw [utf8_ascii hascii, hlength]
      · refine (if_neg (Nat.not_le_of_lt hlong)).mpr ⟨[], List.nil_suffix, ?_⟩
        rw [List.append_nil]
        rfl
  · have hmarker := length_errorTruncationMarker_le
      (Nat.sub_le (utf8 (redactSecrets error).1).length (utf8 tail).length)
    refine ⟨fun _ => .inr (by omega), fun _ => ⟨_, heq, bounded_iff.mpr ⟨?_, ?_⟩, ?_⟩⟩
    · intro c hc
      obtain hc | hc := List.mem_append.mp hc
      · exact isScalar_of_ascii (errorTruncationMarker_ascii _) c hc
      · exact h c (htail.subset hc)
    · rw [length_utf8_append_marker]
      omega
    · exact (if_neg (Nat.not_le_of_lt hlong)).mpr ⟨tail, htail, rfl⟩

/-! ## Settling as a whole -/

/-- A settle stores both texts as it should exactly where both can be encoded after they are redacted,
and the error, where it is too long, leaves room for the marker that says so. -/
theorem settles_clean_iff {modelValidateJson : String → Option StepResultEnvelope}
    (hreads : ReadsJson modelValidateJson) (redactSecrets : Text → Text × List Text)
    (lastMessage error : Text) (status : String) (terminalId : Option String) :
    ((∃ e, buildEnvelope redactSecrets lastMessage status terminalId = .ok e
        ∧ Bounded (text e.lastMessage)
        ∧ parseEnvelope (ofJson hreads) (some (serialiseEnvelope e)) = some e)
      ∧ ∃ stored, sanitiseError redactSecrets (some error) = .ok (some stored)
        ∧ Bounded stored ∧ Reported (redactSecrets error).1 stored) ↔
      (∀ c ∈ (redactSecrets lastMessage).1, isScalar c = true)
        ∧ (∀ c ∈ (redactSecrets error).1, isScalar c = true)
        ∧ ((utf8 (redactSecrets error).1).length ≤ workflowJournalResultMaxBytes
          ∨ (errorTruncationMarker (utf8 (redactSecrets error).1).length).length
            ≤ workflowJournalResultMaxBytes) := by
  constructor
  · rintro ⟨⟨e, hbuild, -, -⟩, stored, hstored, hrest⟩
    have herror := scalar_of_sanitiseError hstored
    exact ⟨scalar_of_buildEnvelope hbuild, herror,
      (sanitiseError_of_scalar herror).mp ⟨stored, hstored, hrest⟩⟩
  · rintro ⟨hmessage, herror, hfits⟩
    obtain ⟨e, hbuild, hbounded⟩ := buildEnvelope_of_scalar status terminalId hmessage
    exact ⟨⟨e, hbuild, hbounded, reads_serialiseEnvelope hreads e⟩,
      (sanitiseError_of_scalar herror).mpr hfits⟩

/-- An output and an error without surrogates. -/
theorem settles_clean_done :
    ((∃ e, buildEnvelope Memory.redactSecrets (text "done") "completed" none = .ok e
        ∧ Bounded (text e.lastMessage)
        ∧ parseEnvelope (ofJson readsJson_strictReader) (some (serialiseEnvelope e)) = some e)
      ∧ ∃ stored, sanitiseError Memory.redactSecrets (some (text "late")) = .ok (some stored)
        ∧ Bounded stored ∧ Reported (Memory.redactSecrets (text "late")).1 stored) ↔
      (∀ c ∈ (Memory.redactSecrets (text "done")).1, isScalar c = true)
        ∧ (∀ c ∈ (Memory.redactSecrets (text "late")).1, isScalar c = true)
        ∧ ((utf8 (Memory.redactSecrets (text "late")).1).length ≤ workflowJournalResultMaxBytes
          ∨ (errorTruncationMarker (utf8 (Memory.redactSecrets (text "late")).1).length).length
            ≤ workflowJournalResultMaxBytes) :=
  settles_clean_iff readsJson_strictReader Memory.redactSecrets (text "done") (text "late")
    "completed" none

/-- A lone surrogate, as a byte that is no UTF-8 leaves in a decoded name, raises in both. -/
theorem surrogate_unsettled :
    ¬∀ t : Text, (∃ e, buildEnvelope Memory.redactSecrets t "completed" none = .ok e)
      ∧ ∃ stored, sanitiseError Memory.redactSecrets (some t) = .ok stored := by
  intro h
  obtain ⟨⟨e, hbuild⟩, -⟩ := h [0xDC80]
  have hscalar := scalar_of_buildEnvelope hbuild
  exact absurd hscalar (by decide +kernel)

/-! ## Texts without surrogates -/

theorem length_utf8Char_toNat (c : Char) : (utf8Char c.toNat).length = c.utf8Size := by
  have hle : ∀ n : UInt32, c.val ≤ n ↔ c.toNat ≤ n.toNat := fun n => UInt32.le_iff_toNat_le
  simp only [utf8Char, Char.utf8Size, hle, UInt32.toNat_ofNatLT]
  split_ifs <;> first | rfl | omega

theorem length_utf8_text (s : String) : (utf8 (text s)).length = s.utf8ByteSize := by
  rw [← String.ofList_toList (s := s)]
  generalize s.toList = chars
  induction chars with
  | nil => rfl
  | cons c chars ih =>
    rw [text_ofList] at ih ⊢
    rw [List.map_cons, utf8_cons, List.length_append, ih, length_utf8Char_toNat]
    simp

theorem ofText_takeWhole (limit : Nat) (chars : List Char) :
    ofText (takeWhole limit (chars.map Char.toNat)) = String.ofList (boundBytes limit chars) := by
  have hkept : (takeWhole limit (chars.map Char.toNat)).map Char.ofNat = boundBytes limit chars := by
    induction chars generalizing limit with
    | nil => rfl
    | cons c chars ih =>
      rw [List.map_cons, takeWhole, boundBytes, length_utf8Char_toNat]
      split
      · rw [List.map_cons, Char.ofNat_toNat, ih]
      · rfl
  exact congrArg String.ofList hkept

/-- A string has no surrogates, and its envelope is the one of the model on strings. -/
theorem buildEnvelope_text {patterns : List SecretPattern} {lastMessage status : String}
    {terminalId : Option String}
    (hredact : redactSecrets (text lastMessage) =
      (text (Workflow.redactSecrets patterns lastMessage).1,
        (Workflow.redactSecrets patterns lastMessage).2.map text)) :
    buildEnvelope redactSecrets (text lastMessage) status terminalId =
      .ok (Workflow.buildEnvelope patterns lastMessage status terminalId) := by
  have hencode := fun s : String => encode_eq_ok_iff.mpr ⟨isScalar_text s, rfl⟩
  simp only [buildEnvelope, Workflow.buildEnvelope, hredact, hencode]
  refine congrArg Except.ok ?_
  simp only [length_utf8_text, List.isEmpty_map]
  split
  · rw [decodeIgnore_take_utf8 (isScalar_text _), text, ofText_takeWhole]
  · rw [ofText_text]

end CliAgentOrchestrator.Workflow.Settle
