import CliAgentOrchestrator.Memory.Topic
import Mathlib.Data.Nat.Digits.Defs

/-!
# The index of a container

Each container keeps an `index.md` beside its topic files: a title, the time of the last change
and, for each scope, a section with a line for each topic. `_update_index` reads the lines, drops
those it takes for the topic's own by looking for two substrings, and puts the new line under the
section header; `_parse_index` reads scope, key and path back from the lines.
-/

set_option autoImplicit false

namespace CliAgentOrchestrator.Memory

open Library

/-! ## Topics -/

/-- `[A-Za-z0-9._-]`. -/
def isComponentChar (c : Nat) : Bool :=
  isAsciiLetter c || isDigit c || c == 46 || c == 95 || c == 45

/-- SOURCE: utils/path_validation.py:160-199
(`validate_path_component`) -/
def isComponent (t : Text) : Bool :=
  !t.isEmpty && t != [46] && t != [46, 46] && t.all isComponentChar

/-- Whether memories of the scope belong to a scope id. -/
def Scope.hasId : Scope → Bool
  | .project | .session | .agent => true
  | .global | .federated => false

/-- Whether the scope id is part of the path below the container. -/
def Scope.nests : Scope → Bool
  | .session | .agent => true
  | .global | .project | .federated => false

/-- What names a topic, past the checks of `store`. -/
structure TopicId where
  scope : Scope
  scopeId : Option Text
  key : Text
  key_ne : key ≠ []
  key_chars : ∀ c ∈ key, isSlugChar c = true
  id_isSome : scopeId.isSome = scope.hasId
  id_component : ∀ id, scopeId = some id → isComponent id = true
deriving DecidableEq

/-- The directory of the topic below the memory base. -/
def TopicId.container (t : TopicId) : Text :=
  match t.scope with
  | .project => t.scopeId.getD []
  | .federated => text "federated"
  | .global | .session | .agent => text "global"

/-- The scope id in the topic's path. -/
def TopicId.nested (t : TopicId) : Option Text := if t.scope.nests then t.scopeId else none

/-- The path of the topic below the `wiki` directory of its container.

SOURCE: services/memory_service.py:1772-1775 -/
def TopicId.path (t : TopicId) : Text :=
  match t.nested with
  | some id => t.scope.value ++ [47] ++ id ++ [47] ++ t.key ++ text ".md"
  | none => t.scope.value ++ [47] ++ t.key ++ text ".md"

/-! ## Writing the index -/

/-- `int(len(content.split()) * 1.3)`. -/
def estTokens (content : Text) : Nat := (words content).length * 13 / 10

/-- A number in decimal digits. -/
def numberText (n : Nat) : Text :=
  if n = 0 then [48] else ((Nat.digits 10 n).map (48 + ·)).reverse

/-- `- [key](path)`. -/
def TopicId.link (t : TopicId) : Text := text "- [" ++ t.key ++ text "](" ++ t.path ++ text ")"

/-- The line of a topic. -/
def entryLine (t : TopicId) (type : MemoryType) (tags : Text) (tokens : Nat) (time : Stamp) :
    Text :=
  t.link ++ text " — type:" ++ type.value ++ text " tags:" ++ tags ++ text " ~"
    ++ numberText tokens ++ text "tok updated:" ++ time.iso

def updatedLine (time : Stamp) : Text := text "<!-- Updated: " ++ time.iso ++ text " -->"

def sectionHeader (s : Scope) : Text := text "## " ++ s.value

/-- The lines of an index that does not exist yet. -/
def newIndex (time : Stamp) : List Text := [text "# CAO Memory Index", updatedLine time, []]

/-- The first line that carries a time of change gets the new one. -/
def stampUpdated (time : Stamp) : List Text → List Text
  | [] => []
  | line :: rest =>
    if (text "<!-- Updated:").isPrefixOf line then updatedLine time :: rest
    else line :: stampUpdated time rest

/-- The section of the scope, added at the end where there is none. -/
def ensureSection (s : Scope) (lines : List Text) : List Text :=
  if lines.any fun line => strip line == sectionHeader s then lines
  else lines ++ [[], sectionHeader s]

/-- A line that is taken for the topic's own. -/
def drops (t : TopicId) (line : Text) : Bool :=
  found (fits (shape (text "[" ++ t.key ++ text "]("))) line && found (fits (shape t.path)) line

/-- `lines.insert(section_idx + 1, entry)`. -/
def insertEntry (s : Scope) (entry : Text) : List Text → List Text
  | [] => []
  | line :: rest =>
    if strip line == sectionHeader s then line :: entry :: rest
    else line :: insertEntry s entry rest

/-- The lines after an update, which brings an entry unless the topic is removed. -/
def updatedLines (t : TopicId) (entry : Option Text) (time : Stamp) (lines : List Text) :
    List Text :=
  let lines := ensureSection t.scope (stampUpdated time lines)
  let lines := lines.filter fun line => !drops t line
  match entry with
  | none => lines
  | some line => insertEntry t.scope line (ensureSection t.scope lines)

/-- The lines of an index file. -/
def linesOf (file : Text) : List Text := splitlines (universalNewlines file)

/-- SOURCE: services/memory_service.py:1744-1843 (`_update_index`,
under the index lock; `action` is `remove` where there is no entry) -/
def updateIndex (t : TopicId) (entry : Option Text) (time : Stamp) (file : Option Text) : Text :=
  let lines :=
    match file with
    | some raw => linesOf raw
    | none => newIndex time
  joinLines (updatedLines t entry time lines) ++ [10]

/-! ## Reading it -/

/-- What an entry of the index says. -/
structure IndexEntry where
  key : Text
  path : Text
  type : Text
  tags : Text
  updated : Text
  scope : Scope
  scopeId : Option Text

/-- ` ~(\d+)tok updated:(\S+)$`: the time. -/
def entryEnd (t : Text) : Option Text :=
  (t.dropPrefix? (text " ~")).bind fun t =>
    if (t.takeWhile isDecimal).isEmpty then none
    else
      ((t.dropWhile isDecimal).dropPrefix? (text "tok updated:")).bind fun t =>
        if t.isEmpty || t.any isSpace then none else some t

/-- `(.*?)` and the end of an entry: the tags and the time. -/
def entryTail : Text → Option (Text × Text)
  | [] => none
  | c :: t =>
    match entryEnd (c :: t) with
    | some updated => some ([], updated)
    | none => if c = 10 then none else (entryTail t).map fun (tags, updated) => (c :: tags, updated)

/-- SOURCE: services/memory_format.py:13-17, 25-27
(`INDEX_ENTRY_RE`, `parse_index_entry`): key, path, type, tags and time. -/
def parseIndexEntry (line : Text) : Option (Text × Text × Text × Text × Text) :=
  (line.dropPrefix? (text "- [")).bind fun t =>
    let key := t.takeWhile (· != 93)
    if key.isEmpty then none
    else
      ((t.dropWhile (· != 93)).dropPrefix? (text "](")).bind fun t =>
        let path := t.takeWhile (· != 41)
        if path.isEmpty then none
        else
          ((t.dropWhile (· != 41)).dropPrefix? (text ") — type:")).bind fun t =>
            let type := t.takeWhile fun c => !isSpace c
            if type.isEmpty then none
            else
              ((t.dropWhile fun c => !isSpace c).dropPrefix? (text " tags:")).bind fun t =>
                (entryTail t).map fun (tags, updated) => (key, path, type, tags, updated)

/-- The scope a section header names. -/
def scopeOf (heading : Text) : Option Scope :=
  [Scope.global, .project, .session, .agent, .federated].find? fun s => s.value.isPrefixOf heading

/-- The scope id an entry's path holds. -/
def pathScopeId (path : Text) : Option Text :=
  match path.splitOn 47 with
  | first :: id :: _ :: _ =>
    if first = Scope.session.value ∨ first = Scope.agent.value then some id else none
  | _ => none

/-- The loop of `_parse_index`; the scope is that of the last section header. -/
def parseLines : Option Scope → List Text → List IndexEntry
  | _, [] => []
  | current, line :: rest =>
    if (text "## ").isPrefixOf line then
      parseLines ((scopeOf (strip (line.drop 3))).or current) rest
    else
      match parseIndexEntry line, current with
      | some (key, path, type, tags, updated), some scope =>
        ⟨key, path, type, normalizeTags tags, updated, scope, pathScopeId path⟩
          :: parseLines current rest
      | _, _ => parseLines current rest

/-- SOURCE: services/memory_service.py:2586-2632 (`_parse_index`) -/
def parseIndex (file : Text) : List IndexEntry := parseLines none (linesOf file)

/-! ## Reading a line that was written -/

theorem mem_numberText {n c : Nat} (h : c ∈ numberText n) : 48 ≤ c ∧ c < 58 := by
  unfold numberText at h
  split_ifs at h with hn
  · obtain rfl := List.mem_singleton.mp h
    exact ⟨le_refl _, by omega⟩
  · obtain ⟨d, hd, rfl⟩ := List.mem_map.mp (List.mem_reverse.mp h)
    have hlt := Nat.digits_lt_base (by omega) hd
    omega

theorem numberText_ne (n : Nat) : numberText n ≠ [] := by
  unfold numberText
  split_ifs with hn
  · simp
  · simpa using Nat.digits_ne_nil_iff_ne_zero.mpr hn

theorem isDecimal_of_mem_numberText {n c : Nat} (h : c ∈ numberText n) : isDecimal c = true := by
  obtain ⟨hlo, hhi⟩ := mem_numberText h
  have hdigit := decimal_ascii (d := c - 48) (by omega)
  rw [show 48 + (c - 48) = c by omega] at hdigit
  rw [isDecimal, hdigit]
  rfl

theorem notSpace_iso (time : Stamp) : ∀ c ∈ time.iso, isSpace c = false := by
  intro c hc
  have h := time.iso_chars c hc
  simp only [isSpace, Bool.or_eq_false_iff, Bool.and_eq_false_iff, decide_eq_false_iff_not,
    beq_eq_false_iff_ne]
  omega

/-- The end of an entry as it is written. -/
def entryClose (tokens : Nat) (time : Stamp) : Text :=
  text " ~" ++ (numberText tokens ++ (text "tok updated:" ++ time.iso))

theorem entryEnd_close (tokens : Nat) (time : Stamp) :
    entryEnd (entryClose tokens time) = some time.iso := by
  have hnumber : ∀ c ∈ numberText tokens, isDecimal c = true :=
    fun c hc => isDecimal_of_mem_numberText hc
  have htok : text "tok updated:" ++ time.iso = 116 :: (text "ok updated:" ++ time.iso) := rfl
  have htake : (numberText tokens ++ (text "tok updated:" ++ time.iso)).takeWhile isDecimal
      = numberText tokens := by
    rw [htok]
    exact takeWhile_append_stop hnumber (by decide) _
  have hdrop : (numberText tokens ++ (text "tok updated:" ++ time.iso)).dropWhile isDecimal
      = text "tok updated:" ++ time.iso := by
    rw [htok]
    exact dropWhile_append_stop hnumber (by decide) _
  have hne : (numberText tokens).isEmpty = false := List.isEmpty_eq_false_iff.mpr (numberText_ne _)
  have hiso : (time.iso.isEmpty || time.iso.any isSpace) = false := by
    rw [Bool.or_eq_false_iff, List.any_eq_false]
    refine ⟨rfl, fun c hc => ?_⟩
    rw [notSpace_iso time c hc]
    exact Bool.false_ne_true
  rw [entryEnd, entryClose]
  simp only [dropPrefix_append, Option.bind_some, htake, hdrop, hne, hiso, Bool.false_eq_true,
    if_false]

theorem entryEnd_spec {t updated : Text} (h : entryEnd t = some updated) :
    ∃ digits, t = text " ~" ++ (digits ++ (text "tok updated:" ++ updated))
      ∧ (∀ c ∈ digits, isDecimal c = true) ∧ ∀ c ∈ updated, isSpace c = false := by
  simp only [entryEnd, Option.bind_eq_some_iff] at h
  obtain ⟨t₁, h₁, h⟩ := h
  split_ifs at h with hempty
  obtain ⟨t₂, h₂, h⟩ := Option.bind_eq_some_iff.mp h
  split_ifs at h with hspace
  cases h
  rw [Bool.or_eq_true, not_or, Bool.not_eq_true, Bool.not_eq_true, List.any_eq_false] at hspace
  refine ⟨t₁.takeWhile isDecimal, ?_, fun c hc => List.mem_takeWhile_imp hc, fun c hc => ?_⟩
  · rw [dropPrefix_spec h₁, ← dropPrefix_spec h₂, List.takeWhile_append_dropWhile]
  · exact Bool.eq_false_iff.mpr (hspace.2 c hc)

/-- Nothing in front of the end of an entry begins one: the time would hold a blank. -/
theorem entryEnd_append_close {u : Text} (hu : u ≠ []) (tokens : Nat) (time : Stamp) :
    entryEnd (u ++ entryClose tokens time) = none := by
  rw [Option.eq_none_iff_forall_ne_some]
  intro updated h
  obtain ⟨digits, hshape, hdigits, hupdated⟩ := entryEnd_spec h
  have hfront : 32 ∉ 126 :: (digits ++ text "tok") := by
    intro hmem
    rw [List.mem_cons, List.mem_append] at hmem
    obtain hmem | hmem | hmem := hmem
    · cases hmem
    · exact absurd (hdigits 32 hmem) (by decide)
    · exact absurd hmem (by decide)
  have hback : 32 ∉ text "updated:" ++ updated := by
    intro hmem
    obtain hmem | hmem := List.mem_append.mp hmem
    · exact absurd hmem (by decide)
    · exact absurd (hupdated 32 hmem) (by decide)
  obtain ⟨c, u, rfl⟩ := List.exists_cons_of_ne_nil hu
  have hsame : (126 :: (digits ++ text "tok")) ++ 32 :: (text "updated:" ++ updated)
      = u ++ 32 :: (126 :: (numberText tokens ++ (text "tok updated:" ++ time.iso))) := by
    have hwritten : entryClose tokens time
        = 32 :: 126 :: (numberText tokens ++ (text "tok updated:" ++ time.iso)) := rfl
    have hread : text " ~" ++ (digits ++ (text "tok updated:" ++ updated))
        = 32 :: 126 :: (digits ++ (text "tok updated:" ++ updated)) := rfl
    rw [hwritten, hread, List.cons_append] at hshape
    have htail := (List.cons.inj hshape).2
    rw [htail]
    simp [text]
  obtain ⟨-, -, hrest⟩ := (List.append_cons_inj_of_notMem hfront hback).mp hsame
  exact absurd (List.cons.inj hrest).1 (by decide)

/-- The tags of an entry are what stands before its end. -/
theorem entryTail_close {tags : Text} (hlf : 10 ∉ tags) (tokens : Nat) (time : Stamp) :
    entryTail (tags ++ entryClose tokens time) = some (tags, time.iso) := by
  induction tags with
  | nil =>
    have hclose : entryEnd (32 :: (entryClose tokens time).tail) = some time.iso :=
      entryEnd_close tokens time
    show entryTail (32 :: (entryClose tokens time).tail) = _
    simp only [entryTail, hclose]
  | cons c tags ih =>
    have hno := entryEnd_append_close (List.cons_ne_nil c tags) tokens time
    have hc : c ≠ 10 := fun heq => hlf (by simp [heq])
    rw [List.cons_append] at hno ⊢
    simp only [entryTail, hno, if_neg hc, ih fun hmem => hlf (by simp [hmem]), Option.map_some]

theorem TopicId.key_notMem (t : TopicId) {c : Nat} (hc : isSlugChar c = false) : c ∉ t.key := by
  intro hmem
  rw [t.key_chars c hmem] at hc
  cases hc

theorem isComponentChar_of_mem {id : Text} (h : isComponent id = true) :
    ∀ c ∈ id, isComponentChar c = true := by
  simp only [isComponent, Bool.and_eq_true] at h
  exact List.all_eq_true.mp h.2

theorem TopicId.nested_chars (t : TopicId) {id : Text} (h : t.nested = some id) :
    ∀ c ∈ id, isComponentChar c = true := by
  unfold TopicId.nested at h
  split_ifs at h
  exact isComponentChar_of_mem (t.id_component id h)

/-- Which characters a path holds. -/
theorem TopicId.path_chars (t : TopicId) :
    ∀ c ∈ t.path, isComponentChar c = true ∨ c = 47 := by
  have hscope : ∀ c ∈ t.scope.value, isComponentChar c = true := by
    cases t.scope <;> decide
  have hkey : ∀ c ∈ t.key, isComponentChar c = true := by
    intro c hc
    have h := t.key_chars c hc
    simp only [isSlugChar, Bool.or_eq_true, Bool.and_eq_true, decide_eq_true_eq, beq_iff_eq] at h
    simp only [isComponentChar, isAsciiLetter, isDigit, Bool.or_eq_true, Bool.and_eq_true,
      decide_eq_true_eq, beq_iff_eq]
    omega
  have hend : ∀ c ∈ text ".md", isComponentChar c = true := by decide
  intro c hc
  unfold TopicId.path at hc
  cases hid : t.nested with
  | none =>
    simp only [hid, List.mem_append, List.mem_singleton] at hc
    obtain ((hc | hc) | hc) | hc := hc
    · exact .inl (hscope c hc)
    · exact .inr hc
    · exact .inl (hkey c hc)
    · exact .inl (hend c hc)
  | some id =>
    simp only [hid, List.mem_append, List.mem_singleton] at hc
    obtain ((((hc | hc) | hc) | hc) | hc) | hc := hc
    · exact .inl (hscope c hc)
    · exact .inr hc
    · exact .inl (t.nested_chars hid c hc)
    · exact .inr hc
    · exact .inl (hkey c hc)
    · exact .inl (hend c hc)

theorem TopicId.path_notMem (t : TopicId) {c : Nat} (hc : isComponentChar c = false)
    (hslash : c ≠ 47) : c ∉ t.path := by
  intro hmem
  obtain h | h := t.path_chars c hmem
  · rw [hc] at h
    cases h
  · exact hslash h

theorem TopicId.path_ne (t : TopicId) : t.path ≠ [] := by
  unfold TopicId.path
  cases t.nested <;> simp [text]

/-- The line of a topic is read back. -/
theorem parseIndexEntry_entryLine (t : TopicId) (type : MemoryType) {tags : Text} (hlf : 10 ∉ tags)
    (tokens : Nat) (time : Stamp) :
    parseIndexEntry (entryLine t type tags tokens time)
      = some (t.key, t.path, type.value, tags, time.iso) := by
  have hshape : entryLine t type tags tokens time
      = text "- [" ++ (t.key ++ (text "](" ++ (t.path ++ (text ") — type:" ++ (type.value
        ++ (text " tags:" ++ (tags ++ entryClose tokens time))))))) := by
    simp [entryLine, TopicId.link, entryClose, text]
  have hkey := bne_of_notMem (t.key_notMem (show isSlugChar 93 = false by decide))
  have hpath := bne_of_notMem
    (t.path_notMem (show isComponentChar 41 = false by decide) (by decide))
  have htype : ∀ c ∈ type.value, (!isSpace c) = true := by cases type <;> decide
  have hkeyTake : ∀ u, (t.key ++ (text "](" ++ u)).takeWhile (· != 93) = t.key :=
    fun u => takeWhile_append_stop hkey (by decide) _
  have hkeyDrop : ∀ u, (t.key ++ (text "](" ++ u)).dropWhile (· != 93) = text "](" ++ u :=
    fun u => dropWhile_append_stop hkey (by decide) _
  have hpathTake : ∀ u, (t.path ++ (text ") — type:" ++ u)).takeWhile (· != 41) = t.path :=
    fun u => takeWhile_append_stop hpath (by decide) _
  have hpathDrop : ∀ u, (t.path ++ (text ") — type:" ++ u)).dropWhile (· != 41)
      = text ") — type:" ++ u := fun u => dropWhile_append_stop hpath (by decide) _
  have htypeTake : ∀ u, (type.value ++ (text " tags:" ++ u)).takeWhile (fun c => !isSpace c)
      = type.value := fun u => takeWhile_append_stop htype (by decide) _
  have htypeDrop : ∀ u, (type.value ++ (text " tags:" ++ u)).dropWhile (fun c => !isSpace c)
      = text " tags:" ++ u := fun u => dropWhile_append_stop htype (by decide) _
  have hkeyNe : t.key.isEmpty = false := List.isEmpty_eq_false_iff.mpr t.key_ne
  have hpathNe : t.path.isEmpty = false := List.isEmpty_eq_false_iff.mpr t.path_ne
  have htypeNe : type.value.isEmpty = false := by cases type <;> rfl
  rw [hshape, parseIndexEntry]
  simp only [dropPrefix_append, Option.bind_some, hkeyTake, hkeyDrop, hkeyNe, hpathTake,
    hpathDrop, hpathNe, htypeTake, htypeDrop, htypeNe, entryTail_close hlf, Option.map_some,
    Bool.false_eq_true, if_false]

/-- The parts of a path: scope, scope id where it nests, file name. -/
theorem TopicId.path_splitOn (t : TopicId) :
    t.path.splitOn 47 = t.scope.value :: (t.nested.toList ++ [t.key ++ text ".md"]) := by
  have hscope : 47 ∉ t.scope.value := t.scope.notMem_value (by decide)
  have hkey : 47 ∉ t.key ++ text ".md" := by
    rw [List.mem_append, not_or]
    exact ⟨t.key_notMem (by decide), by decide⟩
  unfold TopicId.path
  cases hid : t.nested with
  | none =>
    simp only [Option.toList_none, List.nil_append]
    rw [List.append_assoc, List.append_assoc, List.singleton_append,
      List.splitOn_append_cons_self_of_not_mem hscope, List.splitOn_eq_singleton hkey]
  | some id =>
    have hidSlash : 47 ∉ id := fun hmem =>
      absurd (t.nested_chars hid 47 hmem) (by decide)
    simp only [Option.toList_some, List.singleton_append]
    rw [List.append_assoc, List.append_assoc, List.append_assoc, List.append_assoc,
      List.singleton_append, List.splitOn_append_cons_self_of_not_mem hscope,
      List.singleton_append, List.splitOn_append_cons_self_of_not_mem hidSlash,
      List.splitOn_eq_singleton hkey]

/-- The scope id in a path is the one that was put there. -/
theorem pathScopeId_path (t : TopicId) : pathScopeId t.path = t.nested := by
  unfold pathScopeId
  rw [t.path_splitOn]
  cases hid : t.nested with
  | none => rfl
  | some id =>
    have hnests : t.scope.value = Scope.session.value ∨ t.scope.value = Scope.agent.value := by
      unfold TopicId.nested at hid
      cases hs : t.scope <;> simp [hs, Scope.nests] at hid ⊢
    exact if_pos hnests

theorem Scope.value_injective : Function.Injective Scope.value := by
  intro a b h
  cases a <;> cases b <;> first | rfl | exact absurd h (by decide)

/-- Within a container a path belongs to one topic. -/
theorem TopicId.eq_of_path {t u : TopicId} (hcontainer : t.container = u.container)
    (hpath : t.path = u.path) : t = u := by
  have hparts := congrArg (List.splitOn 47) hpath
  rw [t.path_splitOn, u.path_splitOn] at hparts
  obtain ⟨hvalue, hparts⟩ := List.cons.inj hparts
  have hscope := Scope.value_injective hvalue
  obtain ⟨hnested, hfile⟩ := List.append_inj' hparts rfl
  have hkey := List.append_cancel_right (List.cons.inj hfile).1
  have hid : t.nested = u.nested := by rw [← pathScopeId_path, hpath, pathScopeId_path]
  have hscopeId : t.scopeId = u.scopeId := by
    have ht := t.id_isSome
    have hu := u.id_isSome
    simp only [TopicId.nested, TopicId.container, ← hscope] at hid hcontainer hu
    cases hs : t.scope with
    | project =>
      simp only [hs, Scope.hasId, Option.isSome_iff_exists] at ht hu hcontainer
      obtain ⟨⟨a, ha⟩, b, hb⟩ := ht, hu
      rw [ha, hb] at hcontainer ⊢
      exact congrArg some hcontainer
    | session | agent => simpa [hs, Scope.nests] using hid
    | _ =>
      simp only [hs, Scope.hasId, Option.isSome_eq_false_iff, Option.isNone_iff_eq_none] at ht hu
      rw [ht, hu]
  cases t
  cases u
  simp only [TopicId.mk.injEq]
  exact ⟨hscope, hscopeId, hkey⟩

theorem scopeOf_sectionHeader (s : Scope) :
    scopeOf (strip ((sectionHeader s).drop 3)) = some s := by
  cases s <;> decide

end CliAgentOrchestrator.Memory
