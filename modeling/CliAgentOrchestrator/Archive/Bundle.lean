import CliAgentOrchestrator.Archive.Import
import CliAgentOrchestrator.Memory.Service

/-!
# Importing a bundle

The files of a bundle go through one pipeline each. A real run ends it with `store`, after a
`forget` where a topic is replaced; a dry run counts what it takes a real run to do. What `store`
raises is caught where it is a `ValueError` and ends the import otherwise.
-/

set_option autoImplicit false

namespace CliAgentOrchestrator.Archive

open Library Memory

/-! ## What `store` raises -/

/-- An exception, by whether `except ValueError` catches it. -/
inductive Refusal where
  | valueError
  | other

/-- `UnicodeEncodeError` and what `strptime` raises are `ValueError`s; `OverflowError`, `re.error`
and `IndexError` are not. -/
def refusalOf : Fault → Refusal
  | .overflow => .other
  | .badTime => .valueError
  | .badTemplate => .other
  | .notEncodable => .valueError

/-- `store`, with what it raises.

SOURCE: services/memory_service.py:730-991 -/
def storeOutcome (a : StoreArgs) (b : Base) : Except Refusal (Base × Written) :=
  if a.screened then .error .valueError
  else if scopeWriteAllowed (resolveCallerScope a.callerScope) a.scope then
    match a.named with
    | none => .error .valueError
    | some t =>
      match storeTopic a t b with
      | .error fault => .error (refusalOf fault)
      | .ok r => .ok r
  else .error .other

/-! ## The report -/

/-- SOURCE: services/memory_archive/base.py (`ImportReport`, its
counters) -/
structure Report where
  imported : Nat
  replaced : Nat
  merged : Nat
  skippedConflict : Nat
  rejected : Nat
  seeAlsoDropped : Nat
  bodiesEscaped : Nat
  timestampsClamped : Nat

def Report.empty : Report := ⟨0, 0, 0, 0, 0, 0, 0, 0⟩

/-- Two parts of a report taken together. -/
def Report.add (r s : Report) : Report :=
  ⟨r.imported + s.imported, r.replaced + s.replaced, r.merged + s.merged,
    r.skippedConflict + s.skippedConflict, r.rejected + s.rejected,
    r.seeAlsoDropped + s.seeAlsoDropped, r.bodiesEscaped + s.bodiesEscaped,
    r.timestampsClamped + s.timestampsClamped⟩

/-! ## One file -/

inductive Policy where
  | skip
  | replace
  | merge
deriving DecidableEq

/-- The arguments of an import, past the checks of the target scope; `fresh` is the UUID made for
a key. -/
structure Setting where
  scope : Scope
  scopeId : Option Text
  policy : Policy
  callerScope : Option Text
  now : Datetime
  fresh : Text → Text
  target : scope = .global ∨ scope = .project ∨ scope = .federated
  id_isSome : scopeId.isSome = scope.hasId

/-- A file under the bundle root: its path, whether it is a link or leaves the root, and what the
frontmatter parser makes of it. `late` says of a time without a UTC form which end it is off. -/
structure BundleFile where
  rel : Text
  outside : Bool
  post : Option Post
  late : Bool

/-- `Path(rel).stem` of a path that ends in `.md`. -/
def BundleFile.stem (f : BundleFile) : Text :=
  if f.rel = text ".md" then f.rel else f.rel.take (f.rel.length - 3)

/-- What an import leaves behind. -/
structure Outcome where
  base : Base
  report : Report
  raised : Bool

/-- The part of the report that is made before the base is looked at. -/
def bodyReport (post : Post) : Report :=
  { Report.empty with
    seeAlsoDropped := (stripSeeAlsoBlock post.content).2
    bodiesEscaped :=
      if (escapeStructuralMarkers (stripSeeAlsoBlock post.content).1).2 then 1 else 0 }

/-- A file that is turned down: one more rejection. -/
def rejecting (b : Base) (r : Report) : Outcome := ⟨b, { r with rejected := r.rejected + 1 }, false⟩

/-- The call of `store` for a file. -/
def Setting.storeArgs (g : Setting) (key : Text) (h : Handed) : StoreArgs :=
  { scope := g.scope
    callerScope := g.callerScope
    scopeId := g.scopeId
    key := some key
    type := h.type
    tags := h.tags
    content := h.content
    occurredAt := h.occurredAt
    now := g.now
    fresh := g.fresh key }

/-- SOURCE: services/memory_service.py:677-695
(`_occurred_at_would_clamp`, also for a time without a UTC form) -/
def wouldClampAt (occurredAt : Option Occurred) (late : Bool) (latest : Option Stamp)
    (now : Datetime) : Bool :=
  match occurredAt with
  | none => false
  | some (.utc time) => occurredAtWouldClamp (some time) latest now
  | some .outOfRange => late || latest.isSome

/-- SOURCE: services/memory_archive/okf.py:497-531 (`_would_clamp`);
none where `strptime` raises. `existing` is the file that a merge adds to. -/
def wouldClamp (occurredAt : Option Occurred) (late : Bool) (existing : Option Text)
    (now : Datetime) : Option Bool :=
  if occurredAt.isNone then some false
  else if wouldClampAt occurredAt late none now then some true
  else
    match existing.bind fun raw => (timestamps (universalNewlines raw)).getLast? with
    | none => some (wouldClampAt occurredAt late none now)
    | some latest => (strptime latest).map fun stamp => wouldClampAt occurredAt late (some stamp) now

/-- What a file that gets through counts as. -/
def Setting.counted (g : Setting) (existing : Option Text) (clamped : Bool) (r : Report) : Report :=
  let r := { r with timestampsClamped := r.timestampsClamped + if clamped then 1 else 0 }
  match existing, g.policy with
  | none, _ => { r with imported := r.imported + 1 }
  | some _, .replace => { r with replaced := r.replaced + 1 }
  | some _, _ => { r with merged := r.merged + 1 }

/-- The file that is added to: a topic that is replaced is started anew. -/
def Setting.addedTo (g : Setting) (existing : Option Text) : Option Text :=
  if g.policy = .replace then none else existing

/-- The base once the topic to be replaced is forgotten. -/
def Setting.cleared (g : Setting) (key : Text) (t : TopicId) (b : Base) : Base :=
  if (b.files t).isSome ∧ g.policy = .replace then
    forgetTopic ⟨g.scope, g.scopeId, key, g.now⟩ t b
  else b

/-- A file that has come to the write.

SOURCE: services/memory_archive/okf.py:346-398
(`_import_one_topic`) -/
def Setting.write (g : Setting) (dry : Bool) (f : BundleFile) (a : StoreArgs) (t : TopicId)
    (b : Base) (r : Report) : Outcome :=
  let existing := b.files t
  if dry then
    match wouldClamp a.occurredAt f.late (g.addedTo existing) g.now with
    | none => ⟨b, r, true⟩
    | some clamped => ⟨b, g.counted existing clamped r, false⟩
  else
    let cleared := g.cleared f.stem t b
    match storeOutcome a cleared with
    | .error .valueError => rejecting cleared r
    | .error .other => ⟨cleared, r, true⟩
    | .ok (b', w) => ⟨b', g.counted existing w.clamped r, false⟩

/-- SOURCE: services/memory_archive/okf.py:271-398
(`_import_one_topic`) -/
def Setting.importOne (g : Setting) (dry : Bool) (f : BundleFile) (b : Base) : Outcome :=
  match f.post with
  | none => rejecting b Report.empty
  | some post =>
    match handed f.stem post with
    | none => rejecting b Report.empty
    | some h =>
      let a := g.storeArgs f.stem h
      if a.screened then rejecting b (bodyReport post)
      else
        match a.named with
        | none => ⟨b, bodyReport post, true⟩
        | some t =>
          if (b.files t).isSome ∧ g.policy = .skip then
            ⟨b, { bodyReport post with skippedConflict := 1 }, false⟩
          else g.write dry f a t b (bodyReport post)

/-! ## The bundle -/

/-- The files a bundle keeps for itself are passed over. -/
def BundleFile.reserved (f : BundleFile) : Bool :=
  [text "index.md", text "manifest.md"].contains ((f.rel.splitOn 47).getLastD [])
    || (f.rel.splitOn 47).headD [] == text "history"

/-- What one file adds.

SOURCE: services/memory_archive/okf.py:224-251 (the loop of
`import_bundle`) -/
def Setting.importFile (g : Setting) (dry : Bool) (f : BundleFile) (b : Base) : Outcome :=
  if f.reserved then ⟨b, Report.empty, false⟩
  else if f.outside then rejecting b Report.empty
  else if f.rel.contains 47 then rejecting b Report.empty
  else g.importOne dry f b

/-- The files in turn; what is raised ends the import. -/
def Setting.importFiles (g : Setting) (dry : Bool) : List BundleFile → Base → Outcome
  | [], b => ⟨b, Report.empty, false⟩
  | f :: rest, b =>
    let o := g.importFile dry f b
    if o.raised then o
    else
      let more := g.importFiles dry rest o.base
      ⟨more.base, o.report.add more.report, more.raised⟩

/-- The Markdown files of a bundle: no two have one path. -/
structure Bundle where
  files : List BundleFile
  nodup : (files.map BundleFile.rel).Nodup
  markdown : ∀ f ∈ files, text ".md" <:+ f.rel

end CliAgentOrchestrator.Archive
