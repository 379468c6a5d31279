import CliAgentOrchestrator.Memory.IndexItems
import CliAgentOrchestrator.Memory.Service

/-!
# An index lists the topics of its container

Over any run of stores and forgets the index of a container lists the topics that have a file
there, as long as no update drops another topic's line. It can: a line is dropped for holding the
topic's key and path somewhere, and the path of a global topic can end a longer path.
-/

set_option autoImplicit false

namespace CliAgentOrchestrator.Memory

open Library

/-! ## The property -/

/-- The index of a container lists the topics that have a file there, each once. -/
def Listed (b : Base) (c : Text) : Prop :=
  match b.index c with
  | none => ∀ t : TopicId, t.container = c → b.files t = none
  | some raw => ∃ topics : List TopicId, topics.Nodup
      ∧ (∀ t, t ∈ topics ↔ t.container = c ∧ b.files t ≠ none)
      ∧ (parseIndex raw).map IndexEntry.topicFields = topics.map TopicId.fields

/-- The lines of the index an update of the topic finds. -/
def indexLines (b : Base) (t : TopicId) : List Text := ((b.index t.container).map linesOf).getD []

/-- An update of the topic drops no line but the topic's own. -/
def Spares (b : Base) (t : TopicId) : Prop :=
  ∀ line ∈ indexLines b t, drops t line = true → t.link <+: line

/-- The calls that keep the indexes: the lines of the other topics are spared, and the tags hold
none of the line breaks `splitlines` knows. -/
def IndexSafe (b : Base) : Call → Prop
  | .store a => ∀ t ∈ a.topic, Spares b t ∧ Unbroken (normalizeTags a.tags)
  | .forget a => ∀ t ∈ a.topic, b.files t ≠ none → Spares b t

/-- The tags of a store hold no newline. -/
def Call.NewlineFree : Call → Prop
  | .store a => 10 ∉ a.tags ∧ 13 ∉ a.tags
  | .forget _ => True

/-! ## The invariant -/

/-- The items an index file was written from. -/
structure Indexed (files : TopicId → Option Text) (c raw : Text) (items : List Item) : Prop where
  written : raw = joinLines (items.map Item.line) ++ [10]
  inhabited : items ≠ []
  unbroken : ∀ item ∈ items, Unbroken item.line
  sectioned : Sectioned none items
  nodup : (topicsOf items).Nodup
  mem_iff : ∀ t, t ∈ topicsOf items ↔ t.container = c ∧ files t ≠ none

/-- Every index was written from items, and where there is none there are no topics. -/
def WellIndexed (b : Base) : Prop :=
  ∀ c, (∀ raw, b.index c = some raw → ∃ items, Indexed b.files c raw items)
    ∧ (b.index c = none → ∀ t : TopicId, t.container = c → b.files t = none)

/-- The lines that were written are the lines that are read. -/
theorem linesOf_written {items : List Item} (hne : items ≠ [])
    (h : ∀ item ∈ items, Unbroken item.line) :
    linesOf (joinLines (items.map Item.line) ++ [10]) = items.map Item.line := by
  have hlines : ∀ line ∈ items.map Item.line, Unbroken line := by
    intro line hline
    obtain ⟨item, hitem, rfl⟩ := List.mem_map.mp hline
    exact h item hitem
  have hcr : 13 ∉ joined (items.map Item.line) := by
    intro hmem
    exact absurd (lf_of_mem_joined hlines 13 hmem rfl) (by decide)
  rw [joinLines_append_lf (by simpa using hne), linesOf, universalNewlines_of_notMem hcr,
    splitlines_joined hlines]

theorem Indexed.listed {b : Base} {c raw : Text} {items : List Item}
    (h : Indexed b.files c raw items) (hindex : b.index c = some raw) : Listed b c := by
  simp only [Listed, hindex]
  refine ⟨topicsOf items, h.nodup, h.mem_iff, ?_⟩
  rw [parseIndex, h.written, linesOf_written h.inhabited h.unbroken]
  exact parseLines_items h.unbroken h.sectioned

theorem WellIndexed.listed {b : Base} (h : WellIndexed b) (c : Text) : Listed b c := by
  cases hindex : b.index c with
  | none =>
    simp only [Listed, hindex]
    exact (h c).2 hindex
  | some raw =>
    obtain ⟨items, hitems⟩ := (h c).1 raw hindex
    exact hitems.listed hindex

/-- The link of a topic begins only its own line. -/
theorem TopicId.path_eq_of_link {t u : TopicId} {type : MemoryType} {tags : Text} {tokens : Nat}
    {time : Stamp} (h : t.link <+: entryLine u type tags tokens time) : t.path = u.path := by
  obtain ⟨more, hmore⟩ := h
  have hshape : text "- [" ++ (t.key ++ 93 :: (40 :: (t.path ++ 41 :: more)))
      = text "- [" ++ (u.key ++ 93 :: (40 :: (u.path ++ 41 :: (text " — type:" ++ type.value
        ++ text " tags:" ++ tags ++ text " ~" ++ numberText tokens ++ text "tok updated:"
        ++ time.iso)))) := by
    simpa [TopicId.link, entryLine, text] using hmore
  have hkeys : ∀ v : TopicId, 93 ∉ v.key := fun v => v.key_notMem (by decide)
  have hpaths : ∀ v : TopicId, 41 ∉ v.path := fun v => v.path_notMem (by decide) (by decide)
  obtain ⟨-, hrest⟩ := append_stop_inj (hkeys t) (hkeys u) (List.append_cancel_left hshape)
  exact (append_stop_inj (hpaths t) (hpaths u) (List.cons.inj hrest).2).1

/-- An update keeps the items of the index, with the files of the topic and the new entry. -/
theorem indexed_update {b : Base} (hb : WellIndexed b) {t : TopicId} {entry : Option Item}
    {time : Stamp} {file : Option Text} (hentry : ∀ item, entry = some item → item.topic = some t)
    (hunbroken : ∀ item, entry = some item → Unbroken item.line)
    (hfile : file ≠ none ↔ entry ≠ none) (hspares : Spares b t) :
    ∃ items, Indexed (Function.update b.files t file) t.container
      (updateIndex t (entry.map Item.line) time (b.index t.container)) items := by
  -- the items the update starts from
  obtain ⟨items, hlines, hitems, hsectioned, hnodup, hmem, hspared⟩ :
      ∃ items : List Item,
        updateIndex t (entry.map Item.line) time (b.index t.container)
            = joinLines (updatedLines t (entry.map Item.line) time (items.map Item.line)) ++ [10]
          ∧ (∀ item ∈ items, Unbroken item.line) ∧ Sectioned none items
          ∧ (topicsOf items).Nodup
          ∧ (∀ u, u ∈ topicsOf items ↔ u.container = t.container ∧ b.files u ≠ none)
          ∧ ∀ item ∈ items, drops t item.line = true → item.topic = some t := by
    cases hindex : b.index t.container with
    | none =>
      have hnone := (hb t.container).2 hindex
      refine ⟨[.title, .updated time, .blank], rfl, ?_, trivial, List.nodup_nil, ?_, ?_⟩
      · intro item hitem
        simp only [List.mem_cons, List.not_mem_nil, or_false] at hitem
        obtain rfl | rfl | rfl := hitem
        · unfold Unbroken
          decide
        · exact unbroken_updatedLine time
        · exact fun c hc => by cases hc
      · intro u
        refine iff_of_false (by simp [topicsOf, Item.topic]) fun h => ?_
        exact h.2 (hnone u h.1)
      · intro item hitem hdrop
        obtain ⟨topic, type, tags, tokens, updated, rfl⟩ := Item.drops_line hdrop
        simp at hitem
    | some raw =>
      obtain ⟨items, hitems⟩ := (hb t.container).1 raw hindex
      have hread : linesOf raw = items.map Item.line := by
        rw [hitems.written]
        exact linesOf_written hitems.inhabited hitems.unbroken
      refine ⟨items, ?_, hitems.unbroken, hitems.sectioned, hitems.nodup, hitems.mem_iff, ?_⟩
      · simp only [updateIndex, hread]
      · intro item hitem hdrop
        have hlines : item.line ∈ indexLines b t := by
          rw [indexLines, hindex, Option.map_some, Option.getD_some, hread]
          exact List.mem_map_of_mem hitem
        have hlink := hspares item.line hlines hdrop
        obtain ⟨topic, type, tags, tokens, updated, rfl⟩ := Item.drops_line hdrop
        have hlisted : topic ∈ topicsOf items := List.mem_filterMap.mpr ⟨_, hitem, rfl⟩
        have hcontainer := ((hitems.mem_iff topic).mp hlisted).1
        rw [← TopicId.eq_of_path hcontainer.symm (TopicId.path_eq_of_link hlink)]
        rfl
  have hperm : (topicsOf (updatedItems t entry time items)).Perm
      ((entry.map fun _ => t).toList ++ (topicsOf items).filter fun u => u ≠ t) :=
    topicsOf_updatedItems hentry hspared
  have hnotMem : t ∉ (topicsOf items).filter fun u => u ≠ t := by simp
  have hfiltered := hnodup.filter fun u => u ≠ t
  refine ⟨updatedItems t entry time items, ?_, updatedItems_ne t entry time items,
    unbroken_updatedItems hitems hunbroken, sectioned_updatedItems hentry hsectioned,
    hperm.nodup_iff.mpr ?_, fun u => ?_⟩
  · rw [hlines, updatedLines_map]
  · cases entry with
    | none => exact hfiltered
    | some item => exact List.nodup_cons.mpr ⟨hnotMem, hfiltered⟩
  · rw [hperm.mem_iff, List.mem_append, List.mem_filter, hmem, Function.update_apply]
    by_cases hu : u = t
    · subst hu
      cases entry with
      | _ => simpa using hfile
    · have hnew : u ∉ (entry.map fun _ => t).toList := by
        cases entry <;> simp [hu]
      simp [hu, hnew]

/-- An update of one container's index leaves the other containers as they are. -/
theorem wellIndexed_update {b b' : Base} (hb : WellIndexed b) {t : TopicId} {entry : Option Item}
    {time : Stamp} {file : Option Text} (hentry : ∀ item, entry = some item → item.topic = some t)
    (hunbroken : ∀ item, entry = some item → Unbroken item.line)
    (hfile : file ≠ none ↔ entry ≠ none) (hspares : Spares b t)
    (hfiles : b'.files = Function.update b.files t file)
    (hindex : b'.index = Function.update b.index t.container
      (some (updateIndex t (entry.map Item.line) time (b.index t.container)))) :
    WellIndexed b' := by
  intro c
  by_cases hc : c = t.container
  · subst hc
    obtain ⟨items, hitems⟩ := indexed_update hb hentry hunbroken hfile hspares
    rw [hindex, hfiles, Function.update_self]
    refine ⟨fun raw hraw => ?_, fun hnone => by cases hnone⟩
    cases hraw
    exact ⟨items, hitems⟩
  · have hsame : ∀ u : TopicId, u.container = c → Function.update b.files t file u = b.files u := by
      rintro u rfl
      rw [Function.update_of_ne]
      rintro rfl
      exact hc rfl
    rw [hindex, hfiles, Function.update_of_ne hc]
    refine ⟨fun raw hraw => ?_, fun hnone u hu => ?_⟩
    · obtain ⟨items, hitems⟩ := (hb c).1 raw hraw
      refine ⟨items, hitems.written, hitems.inhabited, hitems.unbroken, hitems.sectioned,
        hitems.nodup, fun u => ?_⟩
      rw [hitems.mem_iff]
      exact and_congr_right fun hu => by rw [hsame u hu]
    · rw [hsame u hu]
      exact (hb c).2 hnone u hu

/-- The line of an entry holds a break only where its tags do. -/
theorem unbroken_entryLine {t : TopicId} {type : MemoryType} {tags : Text} (h : Unbroken tags)
    (tokens : Nat) (time : Stamp) : Unbroken (entryLine t type tags tokens time) := by
  have hkey : Unbroken t.key := by
    intro c hc
    rw [Bool.eq_false_iff]
    intro hbreak
    have hslug := t.key_chars c hc
    simp only [isSlugChar, Bool.or_eq_true, Bool.and_eq_true, decide_eq_true_eq, beq_iff_eq]
      at hslug
    simp only [isLineBreak, Bool.or_eq_true, Bool.and_eq_true, decide_eq_true_eq, beq_iff_eq]
      at hbreak
    omega
  have hpath : Unbroken t.path := by
    intro c hc
    rw [Bool.eq_false_iff]
    intro hbreak
    have hchar := t.path_chars c hc
    simp only [isComponentChar, isAsciiLetter, isDigit, Bool.or_eq_true, Bool.and_eq_true,
      decide_eq_true_eq, beq_iff_eq] at hchar
    simp only [isLineBreak, Bool.or_eq_true, Bool.and_eq_true, decide_eq_true_eq, beq_iff_eq]
      at hbreak
    omega
  have hnumber : Unbroken (numberText tokens) := by
    intro c hc
    rw [Bool.eq_false_iff]
    intro hbreak
    have hdigit := mem_numberText hc
    simp only [isLineBreak, Bool.or_eq_true, Bool.and_eq_true, decide_eq_true_eq, beq_iff_eq]
      at hbreak
    omega
  have htype : Unbroken type.value := by
    unfold Unbroken
    cases type <;> decide
  have hopen : Unbroken (text "- [") := by
    unfold Unbroken
    decide
  have hmiddle : Unbroken (text "](") := by
    unfold Unbroken
    decide
  have hclose : Unbroken (text ")") := by
    unfold Unbroken
    decide
  have hfixed : Unbroken (text " — type:") ∧ Unbroken (text " tags:") ∧ Unbroken (text " ~")
      ∧ Unbroken (text "tok updated:") := by
    unfold Unbroken
    decide
  simp only [entryLine, TopicId.link, unbroken_append]
  exact ⟨⟨⟨⟨⟨⟨⟨⟨⟨⟨⟨⟨hopen, hkey⟩, hmiddle⟩, hpath⟩, hclose⟩, hfixed.1⟩, htype⟩, hfixed.2.1⟩, h⟩,
    hfixed.2.2.1⟩, hnumber⟩, hfixed.2.2.2⟩, unbroken_iso time⟩

/-! ## Runs -/

theorem wellIndexed_empty : WellIndexed Base.empty :=
  fun _ => ⟨fun raw hraw => absurd hraw.symm (Option.some_ne_none raw), fun _ _ _ => rfl⟩

theorem wellIndexed_exec (b : Base) (call : Call) (hsafe : IndexSafe b call)
    (hb : WellIndexed b) : WellIndexed (exec b call) := by
  obtain ⟨hfiles, hindex⟩ | ⟨a, t, w, rfl, ht, -, hfiles, hindex⟩
    | ⟨a, t, raw, rfl, ht, hraw, hfiles, hindex⟩ := exec_cases b call
  · intro c
    rw [hfiles, hindex]
    exact hb c
  · obtain ⟨hspares, htags⟩ := hsafe t ht
    let new : Item := .entry t a.type (normalizeTags a.tags) (estTokens a.content) w.time
    have hnew : some new ≠ none := Option.some_ne_none new
    refine wellIndexed_update hb (fun item hitem => ?_) (fun item hitem => ?_)
      (iff_of_true (Option.some_ne_none w.text) hnew) hspares hfiles hindex
    · cases hitem
      rfl
    · cases hitem
      exact unbroken_entryLine htags _ _
  · have hspares := hsafe t ht (by simp [hraw])
    have hnone : (none : Option Text) ≠ none ↔ (none : Option Item) ≠ none := by simp
    refine wellIndexed_update hb (fun item hitem => ?_) (fun item hitem => ?_) hnone hspares
      hfiles hindex
    · cases hitem
    · cases hitem

/-- In every state of a run of such calls every index lists the topics of its container. -/
theorem listed_of_safe (calls : List Call) (h : StepsSatisfy exec IndexSafe Base.empty calls)
    {before after : List Call} (hcalls : calls = before ++ after) (c : Text) :
    Listed (run exec Base.empty before) c := by
  subst hcalls
  rw [stepsSatisfy_append] at h
  exact (run_invariant_of IndexSafe WellIndexed (fun b call => wellIndexed_exec b call) Base.empty
    wellIndexed_empty before h.1).listed c

/-- A store of the key `a` with the content `hi` on the first day of 2026. -/
def storeA (scope : Scope) (scopeId : Option Text) : Call :=
  .store
    { scope := scope
      callerScope := none
      scopeId := scopeId
      key := some (text "a")
      type := .project
      tags := text "t"
      content := text "hi"
      occurredAt := none
      now := Stamp.at newYear2026
      fresh := text "0" }

/-- A session entry and a global one of the same key. -/
theorem listed_of_safe_store :
    StepsSatisfy exec IndexSafe Base.empty [storeA .session (some (text "s1")), storeA .global none]
      ∧ Listed (run exec Base.empty [storeA .session (some (text "s1")), storeA .global none])
        (text "global") := by
  have hsafe : StepsSatisfy exec IndexSafe Base.empty
      [storeA .session (some (text "s1")), storeA .global none] := by
    simp only [StepsSatisfy, IndexSafe, storeA, Spares, Unbroken]
    decide +kernel
  exact ⟨hsafe, listed_of_safe _ hsafe (List.append_nil _).symm _⟩

/-- Storing the global `a` drops the line of the `a` of a session whose id ends in `global`. -/
theorem path_suffix_drops_a_line :
    ¬ ∀ calls : List Call, (∀ call ∈ calls, call.NewlineFree) →
      ∀ c, Listed (run exec Base.empty calls) c := by
  intro h
  have hfree : ∀ scope scopeId, (storeA scope scopeId).NewlineFree := by
    intro scope scopeId
    simp only [storeA, Call.NewlineFree]
    decide
  have hlisted := h [storeA .session (some (text "xglobal")), storeA .global none] (by simp [hfree])
    (text "global")
  have hindex : ((run exec Base.empty
        [storeA .session (some (text "xglobal")), storeA .global none]).index (text "global")).map
          (fun raw => (parseIndex raw).map IndexEntry.topicFields)
      = some [(text "a", .global, none, text "global/a.md")] := by
    decide +kernel
  obtain ⟨session, hsession⟩ : ∃ t, TopicId.ofNames .session (some (text "xglobal")) (text "a")
      = some t := Option.isSome_iff_exists.mp (by decide)
  have hfile : (TopicId.ofNames .session (some (text "xglobal")) (text "a")).any (fun t =>
      ((run exec Base.empty
        [storeA .session (some (text "xglobal")), storeA .global none]).files t).isSome
      && decide (t.container = text "global") && decide (t.scope = .session)) = true := by
    decide +kernel
  rw [hsession, Option.any_some, Bool.and_eq_true, Bool.and_eq_true, decide_eq_true_eq,
    decide_eq_true_eq] at hfile
  obtain ⟨⟨hexists, hcontainer⟩, hscope⟩ := hfile
  obtain ⟨raw, hraw, hfields⟩ := Option.map_eq_some_iff.mp hindex
  simp only [Listed, hraw] at hlisted
  obtain ⟨topics, -, hmem, htopics⟩ := hlisted
  have hlisted := (hmem session).mpr ⟨hcontainer, Option.isSome_iff_ne_none.mp hexists⟩
  have hfield : session.fields ∈ topics.map TopicId.fields := List.mem_map_of_mem hlisted
  rw [← htopics, hfields, List.mem_singleton] at hfield
  have hother : session.scope = .global := congrArg (fun fields => fields.2.1) hfield
  rw [hscope] at hother
  cases hother

end CliAgentOrchestrator.Memory
