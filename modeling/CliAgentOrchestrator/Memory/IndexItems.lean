import CliAgentOrchestrator.Memory.Index

/-!
# The lines of an index

An index that `_update_index` alone has written is a list of items: the title, the time of change,
blank lines, section headers and entries. Here each step of an update is a step on items, and an
index is read back as the entries of its items, as long as each stands under its own scope.
-/

set_option autoImplicit false

namespace CliAgentOrchestrator.Memory

open Library

/-- A line of an index. -/
inductive Item where
  | title
  | updated (time : Stamp)
  | blank
  | header (scope : Scope)
  | entry (topic : TopicId) (type : MemoryType) (tags : Text) (tokens : Nat) (time : Stamp)
deriving DecidableEq

def Item.line : Item → Text
  | .title => text "# CAO Memory Index"
  | .updated time => updatedLine time
  | .blank => []
  | .header scope => sectionHeader scope
  | .entry topic type tags tokens time => entryLine topic type tags tokens time

def Item.topic : Item → Option TopicId
  | .entry topic _ _ _ _ => some topic
  | .title | .updated _ | .blank | .header _ => none

/-- The topics an index lists, in order. -/
def topicsOf (items : List Item) : List TopicId := items.filterMap Item.topic

/-- Each entry stands in the section of its scope; the section so far is given. -/
def Sectioned : Option Scope → List Item → Prop
  | _, [] => True
  | current, item :: rest =>
    match item with
    | .header scope => Sectioned (some scope) rest
    | .entry topic _ _ _ _ => current = some topic.scope ∧ Sectioned current rest
    | .title | .updated _ | .blank => Sectioned current rest

/-! ## What a line tells of its item -/

theorem Item.strip_line_iff (item : Item) (s : Scope) :
    (strip item.line == sectionHeader s) = decide (item = .header s) := by
  cases item with
  | header scope => cases s <;> cases scope <;> decide
  | updated time =>
    obtain ⟨rest, hrest⟩ := strip_cons (show isSpace 60 = false by decide)
      (text "!-- Updated: " ++ time.iso ++ text " -->")
    have hline : Item.line (.updated time)
        = 60 :: (text "!-- Updated: " ++ time.iso ++ text " -->") := rfl
    rw [hline, hrest]
    rfl
  | entry topic type tags tokens time =>
    obtain ⟨more, hline⟩ : ∃ more, Item.line (.entry topic type tags tokens time) = 45 :: more :=
      ⟨_, rfl⟩
    obtain ⟨rest, hrest⟩ := strip_cons (show isSpace 45 = false by decide) more
    rw [hline, hrest]
    rfl
  | _ => cases s <;> decide

theorem Item.prefix_line_iff (item : Item) :
    (text "<!-- Updated:").isPrefixOf item.line = true ↔ ∃ time, item = .updated time := by
  cases item with
  | header scope => cases scope <;> simp [Item.line, sectionHeader, text]
  | updated time =>
    refine iff_of_true ?_ ⟨time, rfl⟩
    rfl
  | entry topic type tags tokens time =>
    refine iff_of_false ?_ (by simp)
    show ¬ (text "<!-- Updated:").isPrefixOf (45 :: _) = true
    simp [text]
  | _ => simp [Item.line, text]

/-- Only a line with a bracket is dropped, and only entries have one. -/
theorem Item.drops_line {t : TopicId} {item : Item} (h : drops t item.line = true) :
    ∃ topic type tags tokens time, item = .entry topic type tags tokens time := by
  have hbracket : 91 ∈ item.line := by
    rw [drops, Bool.and_eq_true, found_shape_iff] at h
    exact h.1.subset (by simp [text])
  cases item with
  | header scope => exact absurd hbracket (by cases scope <;> decide)
  | updated time =>
    have hiso : 91 ∉ time.iso := by
      intro hmem
      have h := time.iso_chars 91 hmem
      omega
    simp only [Item.line, updatedLine, List.mem_append] at hbracket
    obtain (hmem | hmem) | hmem := hbracket
    · exact absurd hmem (by decide)
    · exact absurd hmem hiso
    · exact absurd hmem (by decide)
  | entry topic type tags tokens time => exact ⟨topic, type, tags, tokens, time, rfl⟩
  | _ => exact absurd hbracket (by decide)

theorem unbroken_iso (time : Stamp) : Unbroken time.iso := by
  intro c hc
  rw [Bool.eq_false_iff]
  intro hbreak
  have hspace := isSpace_of_isLineBreak hbreak
  rw [notSpace_iso time c hc] at hspace
  cases hspace

theorem unbroken_updatedLine (time : Stamp) : Unbroken (updatedLine time) := by
  rw [updatedLine, unbroken_append, unbroken_append]
  exact ⟨⟨by unfold Unbroken; decide, unbroken_iso time⟩, by unfold Unbroken; decide⟩

theorem unbroken_sectionHeader (s : Scope) : Unbroken (sectionHeader s) := by
  unfold Unbroken
  cases s <;> decide

/-! ## An update on items -/

/-- `stampUpdated` on items. -/
def restamp (time : Stamp) : List Item → List Item
  | [] => []
  | item :: rest =>
    if (text "<!-- Updated:").isPrefixOf item.line then .updated time :: rest
    else item :: restamp time rest

/-- `ensureSection` on items. -/
def withSection (s : Scope) (items : List Item) : List Item :=
  if Item.header s ∈ items then items else items ++ [.blank, .header s]

/-- `insertEntry` on items. -/
def placeEntry (s : Scope) (entry : Item) : List Item → List Item
  | [] => []
  | item :: rest =>
    if item = .header s then item :: entry :: rest else item :: placeEntry s entry rest

/-- The items without those an update of the topic drops. -/
def keptItems (t : TopicId) (items : List Item) : List Item :=
  items.filter fun item => !drops t item.line

/-- `updatedLines` on items. -/
def updatedItems (t : TopicId) (entry : Option Item) (time : Stamp) (items : List Item) :
    List Item :=
  let items := keptItems t (withSection t.scope (restamp time items))
  match entry with
  | none => items
  | some item => placeEntry t.scope item (withSection t.scope items)

theorem stampUpdated_map (time : Stamp) (items : List Item) :
    stampUpdated time (items.map Item.line) = (restamp time items).map Item.line := by
  induction items with
  | nil => rfl
  | cons item rest ih =>
    simp only [List.map_cons, stampUpdated, restamp]
    split_ifs
    · rfl
    · rw [ih, List.map_cons]

theorem ensureSection_map (s : Scope) (items : List Item) :
    ensureSection s (items.map Item.line) = (withSection s items).map Item.line := by
  have hany : ((items.map Item.line).any fun line => strip line == sectionHeader s) = true
      ↔ Item.header s ∈ items := by
    rw [List.any_map, List.any_eq_true]
    simp only [Function.comp_apply, Item.strip_line_iff, decide_eq_true_eq]
    exact ⟨fun ⟨item, hmem, heq⟩ => heq ▸ hmem, fun hmem => ⟨_, hmem, rfl⟩⟩
  unfold ensureSection withSection
  split_ifs with hline hitem hitem
  · rfl
  · exact absurd (hany.mp hline) hitem
  · exact absurd (hany.mpr hitem) hline
  · rw [List.map_append]
    rfl

theorem insertEntry_map (s : Scope) (entry : Item) (items : List Item) :
    insertEntry s entry.line (items.map Item.line) = (placeEntry s entry items).map Item.line := by
  induction items with
  | nil => rfl
  | cons item rest ih =>
    simp only [List.map_cons, insertEntry, placeEntry, Item.strip_line_iff, decide_eq_true_eq]
    split_ifs
    · rfl
    · rw [ih, List.map_cons]

theorem updatedLines_map (t : TopicId) (entry : Option Item) (time : Stamp) (items : List Item) :
    updatedLines t (entry.map Item.line) time (items.map Item.line)
      = (updatedItems t entry time items).map Item.line := by
  have hkept : (ensureSection t.scope (stampUpdated time (items.map Item.line))).filter
        (fun line => !drops t line)
      = (keptItems t (withSection t.scope (restamp time items))).map Item.line := by
    rw [stampUpdated_map, ensureSection_map, List.filter_map]
    rfl
  simp only [updatedLines, updatedItems, hkept]
  cases entry with
  | none => rfl
  | some item =>
    simp only [Option.map_some]
    rw [ensureSection_map, insertEntry_map]

/-! ## What an update keeps -/

theorem mem_restamp {time : Stamp} {items : List Item} {item : Item}
    (h : item ∈ restamp time items) : item ∈ items ∨ item = .updated time := by
  induction items with
  | nil => cases h
  | cons first rest ih =>
    rw [restamp] at h
    split_ifs at h
    · obtain rfl | h := List.mem_cons.mp h
      · exact .inr rfl
      · exact .inl (List.mem_cons_of_mem _ h)
    · obtain rfl | h := List.mem_cons.mp h
      · exact .inl List.mem_cons_self
      · exact (ih h).imp (List.mem_cons_of_mem _) id

theorem mem_withSection {s : Scope} {items : List Item} {item : Item}
    (h : item ∈ withSection s items) : item ∈ items ∨ item = .blank ∨ item = .header s := by
  unfold withSection at h
  split_ifs at h
  · exact .inl h
  · simpa using h

theorem header_mem_withSection (s : Scope) (items : List Item) :
    Item.header s ∈ withSection s items := by
  unfold withSection
  split_ifs with hmem
  · exact hmem
  · simp

theorem mem_placeEntry {s : Scope} {entry item : Item} {items : List Item}
    (h : item ∈ placeEntry s entry items) : item ∈ items ∨ item = entry := by
  induction items with
  | nil => cases h
  | cons first rest ih =>
    rw [placeEntry] at h
    split_ifs at h
    · simp only [List.mem_cons] at h ⊢
      tauto
    · obtain rfl | h := List.mem_cons.mp h
      · exact .inl List.mem_cons_self
      · exact (ih h).imp (List.mem_cons_of_mem _) id

/-- What an update adds to the lines holds no break unless the entry does. -/
theorem unbroken_updatedItems {t : TopicId} {entry : Option Item} {time : Stamp}
    {items : List Item} (h : ∀ item ∈ items, Unbroken item.line)
    (hentry : ∀ item, entry = some item → Unbroken item.line) :
    ∀ item ∈ updatedItems t entry time items, Unbroken item.line := by
  have hblank : Unbroken Item.blank.line := fun c hc => by cases hc
  have hsection : ∀ {items : List Item}, (∀ item ∈ items, Unbroken item.line) →
      ∀ item ∈ withSection t.scope items, Unbroken item.line := by
    intro items h item hmem
    obtain hmem | rfl | rfl := mem_withSection hmem
    · exact h item hmem
    · exact hblank
    · exact unbroken_sectionHeader t.scope
  have hstamped : ∀ item ∈ restamp time items, Unbroken item.line := by
    intro item hmem
    obtain hmem | rfl := mem_restamp hmem
    · exact h item hmem
    · exact unbroken_updatedLine time
  have hkept : ∀ item ∈ keptItems t (withSection t.scope (restamp time items)),
      Unbroken item.line :=
    fun item hmem => hsection hstamped item (List.mem_filter.mp hmem).1
  simp only [updatedItems]
  cases entry with
  | none => exact hkept
  | some new =>
    intro item hmem
    obtain hmem | rfl := mem_placeEntry hmem
    · exact hsection hkept item hmem
    · exact hentry item rfl

/-! ### Sections -/

theorem sectioned_restamp {current : Option Scope} {items : List Item} (time : Stamp)
    (h : Sectioned current items) : Sectioned current (restamp time items) := by
  induction items generalizing current with
  | nil => trivial
  | cons item rest ih =>
    rw [restamp]
    split_ifs with hstamp
    · obtain ⟨old, rfl⟩ := item.prefix_line_iff.mp hstamp
      exact h
    · cases item with
      | entry topic type tags tokens updated => exact ⟨h.1, ih h.2⟩
      | _ => exact ih h

theorem sectioned_withSection {current : Option Scope} {items : List Item} (s : Scope)
    (h : Sectioned current items) : Sectioned current (withSection s items) := by
  unfold withSection
  split_ifs
  · exact h
  · clear * - h
    induction items generalizing current with
    | nil => trivial
    | cons item rest ih =>
      cases item with
      | entry topic type tags tokens updated => exact ⟨h.1, ih h.2⟩
      | _ => exact ih h

/-- Dropping entries leaves the others where they are. -/
theorem sectioned_keptItems {current : Option Scope} {items : List Item} (t : TopicId)
    (h : Sectioned current items) : Sectioned current (keptItems t items) := by
  induction items generalizing current with
  | nil => trivial
  | cons item rest ih =>
    unfold keptItems at ih ⊢
    cases hdrop : drops t item.line with
    | true =>
      obtain ⟨topic, type, tags, tokens, updated, rfl⟩ := Item.drops_line hdrop
      rw [List.filter_cons_of_neg (by simp [hdrop])]
      exact ih h.2
    | false =>
      rw [List.filter_cons_of_pos (by simp [hdrop])]
      cases item with
      | entry topic type tags tokens updated => exact ⟨h.1, ih h.2⟩
      | _ => exact ih h

theorem sectioned_placeEntry {current : Option Scope} {items : List Item} {entry : Item}
    {topic : TopicId} (hentry : entry.topic = some topic) (h : Sectioned current items) :
    Sectioned current (placeEntry topic.scope entry items) := by
  induction items generalizing current with
  | nil => trivial
  | cons item rest ih =>
    rw [placeEntry]
    split_ifs with hheader
    · subst hheader
      cases entry with
      | entry other type tags tokens updated =>
        cases hentry
        exact ⟨rfl, h⟩
      | _ => cases hentry
    · cases item with
      | entry topic type tags tokens updated => exact ⟨h.1, ih h.2⟩
      | _ => exact ih h

/-! ### Topics -/

theorem topicsOf_restamp (time : Stamp) (items : List Item) :
    topicsOf (restamp time items) = topicsOf items := by
  induction items with
  | nil => rfl
  | cons item rest ih =>
    rw [restamp]
    split_ifs with hstamp
    · obtain ⟨old, rfl⟩ := item.prefix_line_iff.mp hstamp
      rfl
    · unfold topicsOf at ih ⊢
      rw [List.filterMap_cons, List.filterMap_cons, ih]

theorem topicsOf_withSection (s : Scope) (items : List Item) :
    topicsOf (withSection s items) = topicsOf items := by
  unfold withSection topicsOf
  split_ifs
  · rfl
  · rw [List.filterMap_append]
    exact List.append_nil _

theorem topicsOf_placeEntry {s : Scope} {entry : Item} {topic : TopicId} {items : List Item}
    (hentry : entry.topic = some topic) (h : Item.header s ∈ items) :
    (topicsOf (placeEntry s entry items)).Perm (topic :: topicsOf items) := by
  induction items with
  | nil => cases h
  | cons item rest ih =>
    rw [placeEntry]
    unfold topicsOf at ih ⊢
    split_ifs with hheader
    · subst hheader
      rw [List.filterMap_cons_none rfl, List.filterMap_cons_some hentry,
        List.filterMap_cons_none rfl]
    · have hrest : Item.header s ∈ rest := by
        obtain heq | hmem := List.mem_cons.mp h
        · exact absurd heq.symm hheader
        · exact hmem
      cases htopic : item.topic with
      | none =>
        rw [List.filterMap_cons_none htopic, List.filterMap_cons_none htopic]
        exact ih hrest
      | some other =>
        rw [List.filterMap_cons_some htopic, List.filterMap_cons_some htopic]
        exact ((ih hrest).cons other).trans (List.Perm.swap topic other _)

/-- The topic's own line is always taken for its own. -/
theorem drops_entryLine (t : TopicId) (type : MemoryType) (tags : Text) (tokens : Nat)
    (time : Stamp) : drops t (entryLine t type tags tokens time) = true := by
  rw [drops, Bool.and_eq_true, found_shape_iff, found_shape_iff]
  constructor
  · refine ⟨text "- ", t.path ++ text ") — type:" ++ type.value ++ text " tags:" ++ tags
      ++ text " ~" ++ numberText tokens ++ text "tok updated:" ++ time.iso, ?_⟩
    simp [entryLine, TopicId.link, text]
  · refine ⟨text "- [" ++ t.key ++ text "](", text ") — type:" ++ type.value ++ text " tags:"
      ++ tags ++ text " ~" ++ numberText tokens ++ text "tok updated:" ++ time.iso, ?_⟩
    simp [entryLine, TopicId.link, text]

/-- Where no other topic's line is dropped, dropping takes out the topic alone. -/
theorem topicsOf_keptItems {t : TopicId} {items : List Item}
    (h : ∀ item ∈ items, drops t item.line = true → item.topic = some t) :
    topicsOf (keptItems t items) = (topicsOf items).filter fun u => u ≠ t := by
  induction items with
  | nil => rfl
  | cons item rest ih =>
    have hrest := ih fun other hmem => h other (List.mem_cons_of_mem _ hmem)
    unfold topicsOf keptItems at hrest ⊢
    cases hdrop : drops t item.line with
    | true =>
      have hown := h item List.mem_cons_self hdrop
      rw [List.filter_cons_of_neg (by simp [hdrop]), List.filterMap_cons_some hown,
        List.filter_cons_of_neg (by simp), hrest]
    | false =>
      rw [List.filter_cons_of_pos (by simp [hdrop])]
      cases htopic : item.topic with
      | none => rw [List.filterMap_cons_none htopic, List.filterMap_cons_none htopic, hrest]
      | some u =>
        have hne : u ≠ t := by
          rintro rfl
          cases item with
          | entry topic type tags tokens updated =>
            obtain rfl := Option.some.inj htopic
            have hown := drops_entryLine topic type tags tokens updated
            rw [Item.line, hown] at hdrop
            cases hdrop
          | _ => cases htopic
        rw [List.filterMap_cons_some htopic, List.filterMap_cons_some htopic,
          List.filter_cons_of_pos (by simp [hne]), hrest]

/-- Updated, an index lists the topics it listed without the updated one, and the new entry. -/
theorem topicsOf_updatedItems {t : TopicId} {entry : Option Item} {time : Stamp}
    {items : List Item} (hentry : ∀ item, entry = some item → item.topic = some t)
    (h : ∀ item ∈ items, drops t item.line = true → item.topic = some t) :
    (topicsOf (updatedItems t entry time items)).Perm
      ((entry.map fun _ => t).toList ++ (topicsOf items).filter fun u => u ≠ t) := by
  have hspared : ∀ item ∈ withSection t.scope (restamp time items),
      drops t item.line = true → item.topic = some t := by
    intro item hmem hdrop
    obtain ⟨topic, type, tags, tokens, updated, rfl⟩ := Item.drops_line hdrop
    obtain hmem | hmem | hmem := mem_withSection hmem
    · obtain hmem | hmem := mem_restamp hmem
      · exact h _ hmem hdrop
      · cases hmem
    · cases hmem
    · cases hmem
  have hkept : topicsOf (keptItems t (withSection t.scope (restamp time items)))
      = (topicsOf items).filter fun u => u ≠ t := by
    rw [topicsOf_keptItems hspared, topicsOf_withSection, topicsOf_restamp]
  cases entry with
  | none => exact .of_eq hkept
  | some item =>
    have hplaced := topicsOf_placeEntry (hentry item rfl) (header_mem_withSection t.scope
      (keptItems t (withSection t.scope (restamp time items))))
    rw [topicsOf_withSection, hkept] at hplaced
    exact hplaced

theorem sectioned_updatedItems {t : TopicId} {entry : Option Item} {time : Stamp}
    {items : List Item} (hentry : ∀ item, entry = some item → item.topic = some t)
    (h : Sectioned none items) : Sectioned none (updatedItems t entry time items) := by
  have hkept := sectioned_keptItems t (sectioned_withSection t.scope (sectioned_restamp time h))
  cases entry with
  | none => exact hkept
  | some item => exact sectioned_placeEntry (hentry item rfl) (sectioned_withSection t.scope hkept)

theorem updatedItems_ne (t : TopicId) (entry : Option Item) (time : Stamp) (items : List Item) :
    updatedItems t entry time items ≠ [] := by
  cases entry with
  | none =>
    have hheader : Item.header t.scope ∈ updatedItems t none time items := by
      refine List.mem_filter.mpr ⟨header_mem_withSection _ _, ?_⟩
      rw [Bool.not_eq_true', Bool.eq_false_iff]
      intro hdrop
      obtain ⟨topic, type, tags, tokens, updated, heq⟩ := Item.drops_line hdrop
      cases heq
    exact List.ne_nil_of_mem hheader
  | some item =>
    have hne : ∀ {items : List Item}, items ≠ [] → placeEntry t.scope item items ≠ [] := by
      intro items hitems
      obtain ⟨first, rest, rfl⟩ := List.exists_cons_of_ne_nil hitems
      rw [placeEntry]
      split_ifs <;> exact List.cons_ne_nil _ _
    exact hne (List.ne_nil_of_mem (header_mem_withSection _ _))

/-! ## Reading the items back -/

/-- What an entry says of the topic it is about. -/
def IndexEntry.topicFields (e : IndexEntry) : Text × Scope × Option Text × Text :=
  (e.key, e.scope, e.scopeId, e.path)

/-- What an entry should say of the topic: the scope id of a project is its container and no part
of the path. -/
def TopicId.fields (t : TopicId) : Text × Scope × Option Text × Text :=
  (t.key, t.scope, t.nested, t.path)

theorem parseIndexEntry_of_start {line : Text} (h : (text "- [").isPrefixOf line = false) :
    parseIndexEntry line = none := by
  have hnone : line.dropPrefix? (text "- [") = none := by
    rw [Option.eq_none_iff_forall_ne_some]
    intro rest hrest
    have hmatch : text "- [" <+: line := ⟨rest, (dropPrefix_spec hrest).symm⟩
    rw [List.isPrefixOf_iff_prefix.mpr hmatch] at h
    cases h
  rw [parseIndexEntry, hnone]
  rfl

/-- The lines of an index are read as its items. -/
theorem parseLines_items {current : Option Scope} {items : List Item}
    (hunbroken : ∀ item ∈ items, Unbroken item.line) (h : Sectioned current items) :
    (parseLines current (items.map Item.line)).map IndexEntry.topicFields
      = (topicsOf items).map TopicId.fields := by
  induction items generalizing current with
  | nil => rfl
  | cons item rest ih =>
    have hrest : ∀ item ∈ rest, Unbroken item.line :=
      fun item hmem => hunbroken item (List.mem_cons_of_mem _ hmem)
    have hplain : ∀ {item : Item}, item.topic = none → (text "## ").isPrefixOf item.line = false →
        (text "- [").isPrefixOf item.line = false → Sectioned current rest →
        (parseLines current ((item :: rest).map Item.line)).map IndexEntry.topicFields
          = (topicsOf (item :: rest)).map TopicId.fields := by
      intro item htopic hheader hentry hsectioned
      rw [topicsOf, List.filterMap_cons_none htopic, List.map_cons]
      simp only [parseLines, hheader, parseIndexEntry_of_start hentry, Bool.false_eq_true, if_false]
      exact ih hrest hsectioned
    cases item with
    | title => exact hplain rfl (by decide) (by decide) h
    | header scope =>
      have hheader : (text "## ").isPrefixOf (Item.header scope).line = true := by
        cases scope <;> decide
      have hscope : scopeOf (strip ((Item.header scope).line.drop 3)) = some scope :=
        scopeOf_sectionHeader scope
      simp only [List.map_cons, parseLines, hheader, if_true, hscope, Option.some_or]
      exact ih hrest h
    | entry topic type tags tokens time =>
      obtain ⟨rfl, hsectioned⟩ := h
      have hlf : 10 ∉ tags := by
        intro hmem
        have hbreak := hunbroken _ List.mem_cons_self 10
          (by simp [Item.line, entryLine, hmem])
        exact absurd hbreak (by decide)
      have hheader : (text "## ").isPrefixOf (Item.entry topic type tags tokens time).line = false :=
        rfl
      have hread : parseIndexEntry (Item.entry topic type tags tokens time).line
          = some (topic.key, topic.path, type.value, tags, time.iso) :=
        parseIndexEntry_entryLine topic type hlf tokens time
      have htopics : topicsOf (.entry topic type tags tokens time :: rest)
          = topic :: topicsOf rest := rfl
      rw [htopics]
      simp only [List.map_cons, parseLines, hheader, hread, Bool.false_eq_true, if_false]
      refine congrArg₂ List.cons ?_ (ih hrest hsectioned)
      simp only [IndexEntry.topicFields, TopicId.fields, pathScopeId_path]
    | _ => exact hplain rfl rfl rfl h

end CliAgentOrchestrator.Memory
