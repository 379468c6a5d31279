import CliAgentOrchestrator.Library.Document

/-!
# JSON Pointer and JSON Patch

A pointer is a text of reference tokens, each behind a `/`, with `~0` for `~` and `~1` for `/`
(`parsePointer`). A patch operation adds, removes or replaces what its pointer names
(`PatchOp.apply`), and a patch is its operations in order, failing as soon as one fails
(`applyAll`).

An operation below a place changes only that place: `Framed tokens plug` says that an edit behind
`tokens` of the document `plug d` is the edit of `d`. Frames nest (`Framed.under`), so a patch of a
nested object is read there and carried out.
-/

set_option autoImplicit false

namespace Library

/-! ## Pointers -/

/-- A reference token read back; a `~` before anything but `0` and `1` is an error. -/
def unescape : Text → Option Text
  | [] => some []
  | 126 :: 48 :: rest => (unescape rest).map (126 :: ·)
  | 126 :: 49 :: rest => (unescape rest).map (47 :: ·)
  | 126 :: _ => none
  | c :: rest => (unescape rest).map (c :: ·)

/-- The tokens of a pointer: none for the whole document, and one behind each `/`. -/
def parsePointer : Text → Option (List Text)
  | [] => some []
  | 47 :: rest => (rest.splitOn 47).mapM unescape
  | _ => none

@[simp] theorem parsePointer_nil : parsePointer [] = some [] := rfl

theorem parsePointer_append {base token key : Text} {tokens : List Text}
    (hbase : parsePointer base = some tokens) (hplain : 47 ∉ token)
    (htoken : unescape token = some key) :
    parsePointer (base ++ 47 :: token) = some (tokens ++ [key]) := by
  have hlast : token.splitOn 47 = [token] := List.splitOn_eq_singleton hplain
  match base, hbase with
  | [], hbase =>
    cases hbase
    rw [List.nil_append, parsePointer, hlast]
    simp [htoken]
  | 47 :: rest, hbase =>
    rw [parsePointer] at hbase
    rw [List.cons_append, parsePointer, List.splitOn_append_cons_self, hlast, List.mapM_append,
      hbase]
    simp [htoken]

/-! ## Operations -/

/-- What an operation does at its place. -/
inductive Change (σ : Type)
  | add (value : Document σ)
  | remove
  | replace (value : Document σ)

/-- An operation and the pointer to its place. -/
structure PatchOp (σ : Type) where
  op : Change σ
  path : Text

variable {σ : Type}

/-- An array index: `0`, or digits that begin with another one. -/
def arrayIndex (token : Text) : Option Nat :=
  if token ≠ [] ∧ (∀ c ∈ token, 48 ≤ c ∧ c ≤ 57) ∧ (token.head? = some 48 → token = [48]) then
    some (token.foldl (fun n c => 10 * n + (c - 48)) 0)
  else none

/-- At a member: added over what is there or not, removed and replaced only when it is there. -/
def Change.onField (key : Text) (fields : List (Text × Document σ)) :
    Change σ → Option (List (Text × Document σ))
  | .add value => some (Document.setField key value fields)
  | .remove =>
    if (fields.lookup key).isSome then some (Document.eraseField key fields) else none
  | .replace value =>
    if (fields.lookup key).isSome then some (Document.setField key value fields) else none

/-- At an item: added before an index up to the end, which is also `-`, removed and replaced at an
index that is there. -/
def Change.onItem (token : Text) (items : List (Document σ)) :
    Change σ → Option (List (Document σ))
  | .add value =>
    if token = [45] then some (items ++ [value])
    else (arrayIndex token).bind fun i =>
      if i ≤ items.length then some (items.insertIdx i value) else none
  | .remove =>
    (arrayIndex token).bind fun i => if i < items.length then some (items.eraseIdx i) else none
  | .replace value =>
    (arrayIndex token).bind fun i => if i < items.length then some (items.set i value) else none

/-- A change behind tokens. What the tokens pass through is there; the whole document may be set
and not removed. -/
def Change.edit (change : Change σ) : List Text → Document σ → Option (Document σ)
  | [], _ =>
    match change with
    | .add value => some value
    | .remove => none
    | .replace value => some value
  | [key], .obj fields => (change.onField key fields).map .obj
  | [token], .arr items => (change.onItem token items).map .arr
  | key :: rest, .obj fields =>
    (fields.lookup key).bind fun child =>
      (change.edit rest child).map fun child => .obj (Document.setField key child fields)
  | token :: rest, .arr items =>
    (arrayIndex token).bind fun i => items[i]?.bind fun child =>
      (change.edit rest child).map fun child => .arr (items.set i child)
  | _ :: _, .scalar _ => none

def PatchOp.apply (op : PatchOp σ) (d : Document σ) : Option (Document σ) :=
  (parsePointer op.path).bind fun tokens => op.op.edit tokens d

/-- A patch, operation after operation. -/
def applyAll (ops : List (PatchOp σ)) (d : Document σ) : Option (Document σ) :=
  ops.foldlM (fun d op => op.apply d) d

@[simp] theorem applyAll_nil (d : Document σ) : applyAll [] d = some d := rfl

theorem applyAll_append (ops more : List (PatchOp σ)) (d : Document σ) :
    applyAll (ops ++ more) d = (applyAll ops d).bind (applyAll more) := List.foldlM_append

@[simp] theorem applyAll_singleton (op : PatchOp σ) (d : Document σ) :
    applyAll [op] d = op.apply d := by
  simp [applyAll]

theorem Change.edit_singleton (change : Change σ) (key : Text)
    (fields : List (Text × Document σ)) :
    change.edit [key] (.obj fields) = (change.onField key fields).map .obj := rfl

theorem Change.edit_cons (change : Change σ) (key : Text) {rest : List Text} (h : rest ≠ [])
    (fields : List (Text × Document σ)) :
    change.edit (key :: rest) (.obj fields)
      = (fields.lookup key).bind fun child =>
          (change.edit rest child).map fun child => .obj (Document.setField key child fields) := by
  obtain ⟨token, rest, rfl⟩ := List.exists_cons_of_ne_nil h
  rfl

/-! ## Frames -/

/-- An edit behind `tokens`, of the document that `plug` puts its argument into there, is an edit
of the argument. -/
def Framed (tokens : List Text) (plug : Document σ → Document σ) : Prop :=
  ∀ (change : Change σ) (rest : List Text) (d : Document σ), rest ≠ [] →
    change.edit (tokens ++ rest) (plug d) = (change.edit rest d).map plug

theorem framed_nil : Framed ([] : List Text) (id : Document σ → Document σ) :=
  fun _ _ _ _ => Option.map_id.symm ▸ rfl

/-- A member of what is framed is framed. -/
theorem Framed.under {tokens : List Text} {plug : Document σ → Document σ}
    (h : Framed tokens plug) (key : Text) (fields : List (Text × Document σ)) :
    Framed (tokens ++ [key]) fun d => plug (.obj (Document.setField key d fields)) := by
  intro change rest d hrest
  rw [List.append_assoc, List.singleton_append, h change (key :: rest) _ (List.cons_ne_nil _ _),
    Change.edit_cons change key hrest, Document.lookup_setField, if_pos rfl, Option.bind_some,
    Option.map_map]
  simp only [Document.setField_setField]
  rfl

/-- One operation at a member of a framed object. -/
theorem Framed.apply {tokens : List Text} {plug : Document σ → Document σ}
    (h : Framed tokens plug) {op : PatchOp σ} {key : Text}
    (hpath : parsePointer op.path = some (tokens ++ [key]))
    (fields : List (Text × Document σ)) :
    op.apply (plug (.obj fields))
      = (op.op.onField key fields).map fun fields => plug (.obj fields) := by
  rw [PatchOp.apply, hpath, Option.bind_some, h _ _ _ (List.cons_ne_nil _ _),
    Change.edit_singleton, Option.map_map]
  rfl

end Library
