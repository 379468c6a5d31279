import CliAgentOrchestrator.Memory.Topic

/-!
# What the import hands to `store`

A bundle file comes with its frontmatter and its body. The import drops the See Also blocks of
the body, escapes the lines that look like the structure of a topic file, drops the heading with
the key and hands the rest to `store`, with the tags the frontmatter names. The escapes are made
line by line, by replacing written-out texts.
-/

set_option autoImplicit false

namespace CliAgentOrchestrator.Archive

open Library Memory

/-- The `tags` of a frontmatter: a list, whose items are taken as `str` shows them, a string, or
something else. -/
inductive TagsValue where
  | list (items : List Text)
  | string (value : Text)
  | other

/-- A bundle file as the frontmatter parser gives it: the `type` as `str` shows it, the `tags`,
what `_coerce_timestamp` makes of the `timestamp`, and the body. -/
structure Post where
  type : Option Text
  tags : TagsValue
  occurredAt : Option Occurred
  content : Text

/-- The arguments of `store` that come from the file. -/
structure Handed where
  content : Text
  type : MemoryType
  tags : Text
  occurredAt : Option Occurred

/-- SOURCE: services/memory_archive/okf.py:418-425
(`_coerce_tags`) -/
def coerceTags : TagsValue → Text
  | .list items => [44].intercalate ((items.map strip).filter fun item => !item.isEmpty)
  | .string value => value
  | .other => []

/-- An unknown type is taken as a reference. -/
def coerceType (raw : Text) : MemoryType :=
  if raw = MemoryType.user.value then .user
  else if raw = MemoryType.feedback.value then .feedback
  else if raw = MemoryType.project.value then .project
  else .reference

/-- `^- \[[^\]]*\]\([^)]*\)`. -/
def isLink (line : Text) : Bool :=
  match line.dropPrefix? (text "- [") with
  | none => false
  | some rest =>
    match (rest.dropWhile (· != 93)).dropPrefix? (text "](") with
    | none => false
    | some target => target.elem 41

/-- The loop of `_strip_see_also_block`: the lines that stay and the links that go. -/
def keptLines : Bool → List Text → List Text × Nat
  | _, [] => ([], 0)
  | inBlock, line :: rest =>
    let stripped := strip line
    if stripped = text "## See Also" then keptLines true rest
    else if inBlock && !(text "## ").isPrefixOf stripped then
      let (out, dropped) := keptLines true rest
      (out, dropped + if isLink stripped then 1 else 0)
    else
      let (out, dropped) := keptLines false rest
      (line :: out, dropped)

/-- SOURCE: services/memory_archive/okf.py:444-465 -/
def stripSeeAlsoBlock (body : Text) : Text × Nat :=
  let (out, dropped) := keptLines false (splitlines body)
  (joinLines out, dropped)

def escapeSigns (line : Text) : Text := replaceAll (text "##") (text "\\#\\#") line

def escapeOpeners (line : Text) : Text := replaceAll (text "<!--") (text "<!\\--") line

/-- The first of the two escapes of a line. -/
def signsEscaped (line : Text) : Text :=
  if found (fits headingShape) line then escapeSigns line else line

/-- The second. -/
def openersEscaped (line : Text) : Text :=
  if found opensHeader line then escapeOpeners line else line

/-- One line of `_escape_structural_markers`. -/
def escapeLine (line : Text) : Text × Bool :=
  (openersEscaped (signsEscaped line),
    found (fits headingShape) line || found opensHeader (signsEscaped line))

/-- SOURCE: services/memory_archive/okf.py:468-487 -/
def escapeStructuralMarkers (body : Text) : Text × Bool :=
  let lines := (splitlines body).map escapeLine
  (joinLines (lines.map Prod.fst), lines.any Prod.snd)

/-- SOURCE: services/memory_archive/okf.py:489-495 -/
def stripLeadingH1 (body key : Text) : Text :=
  match splitlines (lstrip (· == 10) body) with
  | [] => body
  | first :: rest => if strip first = text "# " ++ key then joinLines rest else body

/-- The body as it is handed on. -/
def importedBody (key content : Text) : Text :=
  strip (stripLeadingH1 (escapeStructuralMarkers (stripSeeAlsoBlock content).1).1 key)

/-- SOURCE: services/memory_archive/okf.py:271-331
(`_import_one_topic` as far as a file's own content decides; none is a rejection) -/
def handed (stem : Text) (post : Post) : Option Handed :=
  if sanitizeKey stem = some stem then
    post.type.map fun raw =>
      ⟨importedBody stem post.content, coerceType raw, coerceTags post.tags, post.occurredAt⟩
  else none

end CliAgentOrchestrator.Archive
