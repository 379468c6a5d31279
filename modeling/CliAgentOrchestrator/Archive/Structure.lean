import CliAgentOrchestrator.Archive.Spoofing

/-!
# The structure of a topic file after an import

What an import hands to `store` should add one section to the topic file and nothing that reads as
structure. It does exactly for the files of `Unspoofed` (`harmless_iff_unspoofed`): the escapes
leave a heading behind an odd run of number signs and a comment opener that `id:` follows on
another line, and the tags, which nothing escapes, are a line of the file and a template of
`re.sub` at once.
-/

set_option autoImplicit false

namespace CliAgentOrchestrator.Archive

open Library Memory

/-- What the tags are joined from. -/
def TagsValue.pieces : TagsValue → List Text
  | .list items => (items.map strip).filter fun item => !item.isEmpty
  | .string value => [value]
  | .other => []

/-- The entry `store` makes of what it is handed. -/
def Handed.entry (h : Handed) (scope : Scope) : Entry :=
  ⟨scope, h.type, normalizeTags h.tags, h.content, h.occurredAt⟩

/-- The topic file has one section more than before, and its header is the one of the entry. An
old file counts where its own header line holds no heading. -/
def StoredAsOne (key : Text) (e : Entry) (file : Option Text) (w : Written) : Prop :=
  match file with
  | none =>
    (headings (universalNewlines w.text)).length = 1
      ∧ w.text = freshText key w.memoryId e w.time w.body
  | some raw =>
    ∀ before line rest, findHeader (universalNewlines raw) = some (before, line, rest) →
      headings line = [] →
        (headings (universalNewlines w.text)).length
            = (headings (universalNewlines raw)).length + 1
          ∧ w.text = appendedText
              (before ++ header w.memoryId e.scope.value e.type.value e.tags ++ rest) w.time w.body

/-- Nothing that is handed to `store` reads as structure of a topic file. -/
structure Harmless (key : Text) (h : Handed) : Prop where
  noHeading : found (fits headingShape) h.content = false
  noHeader : found opensHeader h.content = false
  oneLine : Unbroken h.tags
  noClose : ¬ text "-->" <:+: h.tags
  stored : ∀ fresh scope now file w, (∀ c ∈ fresh, isIdChar c = true) →
    storeText key fresh (h.entry scope) now file = .ok w →
      StoredAsOne key (h.entry scope) file w

/-- The tags in the header as the template ends with them. -/
def tagsTemplate (tags : Text) : Text := normalizeTags tags ++ text " -->"

/-- The bundle file holds nothing the import lets through. -/
structure Unspoofed (post : Post) : Prop where
  /-- No line outside See Also blocks holds a heading behind an odd run of number signs. -/
  signs : ∀ line ∈ bodyLines post.content, oddHeading 0 line = false
  /-- No comment opener at the end of such a line is continued on a later one. -/
  openers : straddles (fun line => endsOpen line && !found opensHeader line)
    (bodyLines post.content) = false
  tags_line : ∀ piece ∈ post.tags.pieces, Unbroken piece
  tags_close : ∀ piece ∈ post.tags.pieces, ¬ text "-->" <:+: piece
  tags_heading : headings (normalizeTags (coerceTags post.tags)) = []
  /-- As a template the tags stand for themselves or are refused. -/
  tags_template : quiet (tagsTemplate (coerceTags post.tags)) = true
    ∨ expand [] (tagsTemplate (coerceTags post.tags)) = none

/-- `store` can write what it is handed: its time has a UTC form, its text a UTF-8 form. -/
structure Storable (h : Handed) : Prop where
  time : h.occurredAt ≠ some .outOfRange
  content : Encodable h.content
  tags : Encodable (normalizeTags h.tags)

theorem coerceTags_eq (raw : TagsValue) : coerceTags raw = [44].intercalate raw.pieces := by
  cases raw with
  | string value => simp [coerceTags, TagsValue.pieces]
  | _ => rfl

theorem unbroken_coerceTags_iff (raw : TagsValue) :
    Unbroken (coerceTags raw) ↔ ∀ piece ∈ raw.pieces, Unbroken piece := by
  rw [coerceTags_eq]
  constructor
  · intro h piece hpiece c hc
    exact h c (mem_intercalate_of_mem hpiece hc)
  · intro h c hc
    obtain rfl | ⟨piece, hpiece, hc⟩ := mem_intercalate hc
    · rfl
    · exact h piece hpiece c hc

theorem close_coerceTags_iff (raw : TagsValue) :
    text "-->" <:+: coerceTags raw ↔ ∃ piece ∈ raw.pieces, text "-->" <:+: piece := by
  rw [coerceTags_eq]
  exact infix_intercalate_iff (by decide) (by decide) _

theorem handed_spec {stem : Text} {post : Post} {h : Handed} (hh : handed stem post = some h) :
    (∀ c ∈ stem, isSlugChar c = true) ∧ h.content = importedBody stem post.content
      ∧ h.tags = coerceTags post.tags := by
  unfold handed at hh
  split_ifs at hh with hkey
  obtain ⟨raw, -, rfl⟩ := Option.map_eq_some_iff.mp hh
  exact ⟨isSlugChar_of_mem_key hkey, rfl, rfl⟩

/-! ## What is stored -/

/-- A file without spoofed structure becomes one section. -/
theorem storedAsOne_of_unspoofed {key fresh : Text} {e : Entry} {now : Datetime}
    {file : Option Text} {w : Written} (hkey : ∀ c ∈ key, isSlugChar c = true)
    (hfresh : ∀ c ∈ fresh, isIdChar c = true) (hcontent : headings e.content = [])
    (htags : headings e.tags = [])
    (htemplate : quiet (e.tags ++ text " -->") = true ∨ expand [] (e.tags ++ text " -->") = none)
    (hstored : storeText key fresh e now file = .ok w) : StoredAsOne key e file w := by
  cases file with
  | none =>
    obtain ⟨occurredAt, -, hid, hplaced, htext, -⟩ := storeText_fresh hstored
    have hbody : headings w.body = [] := by
      have h := headings_placed occurredAt none now e.content
      rw [← hplaced] at h
      rw [← hcontent, ← h]
    refine ⟨?_, by rw [hid]; exact htext⟩
    rw [headings_universalNewlines, htext, headings_freshText hkey hfresh, htags, hbody]
    rfl
  | some raw =>
    intro before line rest hfind hline
    obtain ⟨occurredAt, times, rewritten, -, -, hid, hrewrite, hplaced, htext, -⟩ :=
      storeText_update hstored
    have hidChars : ∀ c ∈ w.memoryId, isIdChar c = true := by
      rw [hid]
      exact memoryId_chars hfresh _
    have hbody : headings w.body = [] := by
      have h := headings_placed occurredAt (times.map Prod.snd) now e.content
      rw [← hplaced] at h
      rw [← hcontent, ← h]
    have hquiet : quiet (e.tags ++ text " -->") = true := by
      refine htemplate.resolve_right fun hnone => ?_
      have hnew := expandFrom_isSome line [] (t := e.tags ++ text " -->") (n := 0)
      rw [show expandFrom [] 0 (e.tags ++ text " -->") = none from hnone] at hnew
      simp only [rewriteHeader, hfind, header_eq,
        expand_append_of_notMem (notMem_entryFront hidChars e.scope e.type),
        Option.map_eq_some_iff] at hrewrite
      obtain ⟨_, ⟨tail, htail, -⟩, -⟩ := hrewrite
      rw [show expandFrom line 0 (e.tags ++ text " -->") = some tail from htail] at hnew
      cases hnew
    rw [rewriteHeader_quiet hidChars e.scope e.type hquiet hfind] at hrewrite
    cases hrewrite
    obtain ⟨hexisting, -⟩ := findHeader_spec hfind
    refine ⟨?_, htext⟩
    rw [headings_universalNewlines, htext, headings_appendedText,
      headings_between (header_brackets _ _ _ _), headings_entryHeader hidChars, htags, hbody,
      hexisting, headings_between (findHeader_brackets hfind), hline]
    simp only [List.append_nil, List.length_append, List.length_cons, List.length_nil]

theorem Storable.entry_time {h : Handed} (hs : Storable h) (scope : Scope) :
    ∃ occurredAt, (h.entry scope).time = .ok occurredAt := by
  have htime := hs.time
  unfold Entry.time Handed.entry
  cases hocc : h.occurredAt with
  | none => exact ⟨none, rfl⟩
  | some occurred =>
    cases occurred with
    | utc time => exact ⟨some time, rfl⟩
    | outOfRange => exact absurd hocc htime

/-- A heading in the tags is a second section of a new file. -/
theorem tags_heading_of_harmless {key : Text} {h : Handed} (hkey : ∀ c ∈ key, isSlugChar c = true)
    (hs : Storable h) (hh : Harmless key h) : headings (normalizeTags h.tags) = [] := by
  obtain ⟨now⟩ := Datetime.nonempty
  obtain ⟨occurredAt, htime⟩ := hs.entry_time .global
  have hnoId : ∀ c ∈ ([] : Text), isIdChar c = true := by simp
  obtain ⟨w, hw⟩ : ∃ w, storeText key [] (h.entry .global) now none = .ok w :=
    storeText_fresh_ok htime
      (encodable_freshText hkey hnoId hs.tags (encodable_placed hs.content))
  obtain ⟨hcount, htext⟩ := hh.stored [] .global now none w hnoId hw
  obtain ⟨-, -, hid, -, -, -⟩ := storeText_fresh hw
  rw [headings_universalNewlines, htext, hid, headings_freshText hkey hnoId, List.length_append,
    List.length_cons] at hcount
  have hnone : (headings (normalizeTags h.tags)).length + ((headings w.body).length + 1) = 1 :=
    hcount
  exact List.length_eq_zero_iff.mp (by omega)

/-- An escape in the tags changes the header of a file whose old header is long enough. -/
theorem tags_template_of_harmless {key : Text} {h : Handed} (hs : Storable h)
    (hh : Harmless key h) :
    quiet (tagsTemplate h.tags) = true ∨ expand [] (tagsTemplate h.tags) = none := by
  by_contra hno
  obtain ⟨hloud, htaken⟩ := not_or.mp hno
  obtain ⟨now⟩ := Datetime.nonempty
  obtain ⟨occurredAt, htime⟩ := hs.entry_time .global
  have hid : ∀ c ∈ [48], isIdChar c = true := by decide
  -- The old header is longer than the one that replaces it.
  let long := List.replicate (header [48] Scope.global.value h.type.value
    (normalizeTags h.tags)).length 97
  let old := header [48] Scope.global.value MemoryType.user.value long
  have hfields : HeaderFields [48] Scope.global.value MemoryType.user.value long := by
    refine ⟨by decide, hid, by decide, by decide, by decide, by decide, ?_, ?_⟩
    · intro hmem
      exact absurd (List.eq_of_mem_replicate hmem) (by decide)
    · intro hin
      exact absurd (List.eq_of_mem_replicate (hin.subset (show 32 ∈ text " -->" by decide)))
        (by decide)
  have hline : headings old = [] := by
    refine (headings_entryHeader hid ⟨.global, .user, long, [], none⟩).trans (headings_of_notMem ?_)
    intro hmem
    exact absurd (List.eq_of_mem_replicate hmem) (by decide)
  have hread : universalNewlines (old ++ [120]) = old ++ [120] := by
    refine universalNewlines_of_notMem ?_
    simp only [old, header_eq, List.mem_append, not_or]
    refine ⟨⟨notMem_headerFront (by decide) (by decide) (by decide) (by decide), ?_, by decide⟩,
      by decide⟩
    intro hmem
    exact absurd (List.eq_of_mem_replicate hmem) (by decide)
  have hfind : findHeader (universalNewlines (old ++ [120])) = some ([], old, [120]) := by
    rw [hread]
    exact findHeader_header hfields [120]
  have htimes : sectionTimes (universalNewlines (old ++ [120])) = .ok none := by
    refine sectionTimes_of_headings ?_
    have hbetween := headings_between (header_brackets [48] Scope.global.value
      MemoryType.user.value long) [] [120]
    rw [headings_universalNewlines]
    exact hbetween.trans (by rw [show headings (header _ _ _ long) = [] from hline]; rfl)
  have hmemory : memoryId [48] (universalNewlines (old ++ [120])) = [48] := by
    rw [hread, memoryId, runAfter_header (by decide) hid]
    rfl
  obtain ⟨line, hexpand⟩ : ∃ line, expand old (header [48] Scope.global.value h.type.value
      (normalizeTags h.tags)) = some line := by
    have hsome := expandFrom_isSome old [] (t := tagsTemplate h.tags) (n := 0)
    have htaken' : (expandFrom [] 0 (tagsTemplate h.tags)).isSome = true :=
      Option.isSome_iff_ne_none.mpr htaken
    rw [htaken', Option.isSome_iff_exists] at hsome
    obtain ⟨tail, htail⟩ := hsome
    refine ⟨headerFront [48] Scope.global.value h.type.value ++ tail, ?_⟩
    rw [header_eq, expand_append_of_notMem (notMem_entryFront hid .global h.type)]
    exact congrArg (Option.map _) htail
  have hrewrite : rewriteHeader (header (memoryId [48] (universalNewlines (old ++ [120])))
      Scope.global.value h.type.value (normalizeTags h.tags)) (universalNewlines (old ++ [120]))
        = some (line ++ [120]) := by
    rw [hmemory]
    simp only [rewriteHeader, hfind, hexpand, Option.map_some, List.nil_append]
  have hline' : Library.Encodable (line ++ [120]) := by
    have hlong : Library.Encodable long :=
      encodable_of_ascii fun c hc => by rw [List.eq_of_mem_replicate hc]; decide
    exact encodable_append.mpr ⟨encodable_expandFrom (encodable_header hid hlong .global .user)
      (encodable_header hid hs.tags .global h.type) hexpand, by decide⟩
  obtain ⟨w, hw⟩ : ∃ w, storeText key [48] (h.entry .global) now (some (old ++ [120])) = .ok w :=
    storeText_update_ok htime htimes hrewrite
      (encodable_appendedText hline' (encodable_placed hs.content))
  obtain ⟨-, htext⟩ := hh.stored [48] .global now (some (old ++ [120])) w hid hw [] old [120]
    hfind hline
  obtain ⟨-, -, rewritten, -, -, hwid, hrewritten, -, htext', -⟩ := storeText_update hw
  have hsame : line ++ [120] = rewritten := by
    rw [hwid] at hrewritten
    exact Option.some.inj (hrewrite.symm.trans hrewritten)
  rw [htext', ← hsame, hwid, hmemory] at htext
  have hstripped := appendedText_inj htext
  rw [rstrip, rstrip, List.rdropWhile_concat_neg _ _ _ (by decide), List.nil_append,
    List.rdropWhile_concat_neg _ _ _ (by decide)] at hstripped
  have hkept : line = header [48] Scope.global.value h.type.value (normalizeTags h.tags) :=
    List.append_cancel_right hstripped
  rw [hkept] at hexpand
  have hlength : (header [48] Scope.global.value h.type.value (normalizeTags h.tags)).length
      < old.length := by
    simp only [old, header, List.length_append, long, List.length_replicate]
    have hlead : 0 < (text "<!-- id: ").length := by decide
    omega
  have hquiet := quiet_of_expand hlength hexpand
  rw [header_eq, quiet_append_of_notMem (notMem_entryFront hid .global h.type)] at hquiet
  exact hloud hquiet

/-- What an import hands to `store` adds one section and reads as nothing else exactly for the
files without the spoofs the escapes miss. -/
theorem harmless_iff_unspoofed {stem : Text} {post : Post} {h : Handed}
    (hhanded : handed stem post = some h) (hs : Storable h) :
    Harmless stem h ↔ Unspoofed post := by
  obtain ⟨hkey, hcontent, htags⟩ := handed_spec hhanded
  have hheading : found (fits headingShape) h.content = false
      ↔ ∀ line ∈ bodyLines post.content, oddHeading 0 line = false := by
    rw [hcontent, found_heading_importedBody hkey, List.any_eq_false]
    simp only [Bool.not_eq_true]
  have hopener : found opensHeader h.content
      = straddles (fun line => endsOpen line && !found opensHeader line)
        (bodyLines post.content) := by
    rw [hcontent, found_opensHeader_importedBody hkey]
  constructor
  · intro hh
    refine ⟨hheading.mp hh.noHeading, hopener ▸ hh.noHeader, ?_, ?_, ?_, ?_⟩
    · exact (unbroken_coerceTags_iff _).mp (htags ▸ hh.oneLine)
    · intro piece hpiece hin
      refine hh.noClose ?_
      rw [htags]
      exact (close_coerceTags_iff _).mpr ⟨piece, hpiece, hin⟩
    · rw [← htags]
      exact tags_heading_of_harmless hkey hs hh
    · rw [← htags]
      exact tags_template_of_harmless hs hh
  · intro hpost
    refine ⟨hheading.mpr hpost.signs, hopener.trans hpost.openers, ?_, ?_, ?_⟩
    · rw [htags]
      exact (unbroken_coerceTags_iff _).mpr hpost.tags_line
    · rw [htags]
      intro hin
      obtain ⟨piece, hpiece, hin⟩ := (close_coerceTags_iff _).mp hin
      exact hpost.tags_close piece hpiece hin
    · intro fresh scope now file w hfresh hstored
      have hnone : headings h.content = [] := by
        have hno := hheading.mpr hpost.signs
        rw [Bool.eq_false_iff, ne_eq, found_fits_iff headingShape_ne, ne_eq, not_not] at hno
        exact hno
      have htagsNone : headings (h.entry scope).tags = [] := by
        show headings (normalizeTags h.tags) = []
        rw [htags]
        exact hpost.tags_heading
      have htemplate : quiet ((h.entry scope).tags ++ text " -->") = true
          ∨ expand [] ((h.entry scope).tags ++ text " -->") = none := by
        show quiet (tagsTemplate h.tags) = true ∨ expand [] (tagsTemplate h.tags) = none
        rw [htags]
        exact hpost.tags_template
      exact storedAsOne_of_unspoofed hkey hfresh hnone htagsNone htemplate hstored

/-- A heading and a comment. -/
def plainPost : Post :=
  ⟨some (text "user"), .string (text "a,b"), none, text "## 2024-01-01T00:00:00Z\n<!-- id: 1"⟩

/-- Both are escaped. -/
theorem harmless_iff_unspoofed_plain :
    Harmless (text "note")
        ⟨text "\\#\\# 2024-01-01T00:00:00Z\n<!\\-- id: 1", .user, text "a,b", none⟩ ↔
      Unspoofed plainPost :=
  harmless_iff_unspoofed rfl ⟨by simp, by decide, by decide⟩

/-- A heading behind three number signs. -/
def oddPost : Post := ⟨some (text "user"), .other, none, text "### 2024-01-01T00:00:00Z"⟩

/-- One of the three signs is paired off and the heading stands. -/
theorem odd_signs_spoof :
    ¬ ∀ (stem : Text) (post : Post) (h : Handed), handed stem post = some h → Storable h →
      Harmless stem h := by
  intro hall
  have hharmless := hall (text "note") oddPost
    ⟨text "\\#\\## 2024-01-01T00:00:00Z", .user, [], none⟩ rfl ⟨by simp, by decide, by decide⟩
  exact absurd hharmless.noHeading (by decide)

end CliAgentOrchestrator.Archive
