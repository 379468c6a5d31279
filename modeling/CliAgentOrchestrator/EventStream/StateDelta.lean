import CliAgentOrchestrator.Library.JsonPatch
import Mathlib.Data.List.Dedup
import Mathlib.Data.List.Lex
import Mathlib.Data.List.Sort
import Mathlib.Data.Rat.Defs

/-!
# Snapshot patches

`diff_snapshot` of `services/ui_state_service.py`: the patch from one dashboard snapshot to the
next, and the frame that carries it. Members that the language finds equal are skipped
(`pyEqual`), and to the language `True` is `1`; to a JSON reader it is not (`jsonEqual`).

The patch always applies, and member by member the outcome is the new snapshot or, where the
member was skipped, the old one (`applyAll_diffMembers`). So the round trip fails exactly where
two values that face each other are equal in the one sense and not in the other
(`diffSnapshot_roundTrip_iff`).
-/

set_option autoImplicit false

namespace CliAgentOrchestrator.EventStream

open Library

/-! ## Snapshots -/

/-- A scalar of a decoded document; a number is its value. -/
inductive Scalar
  | null
  | bool (value : Bool)
  | num (value : ℚ)
  | str (content : Text)
deriving DecidableEq

abbrev Value := Document Scalar

/-- A dictionary with text keys. -/
structure Snapshot where
  fields : List (Text × Value)
  tidy : (Document.obj fields).Tidy

def Snapshot.toValue (s : Snapshot) : Value := .obj s.fields

/-- A Boolean is an integer to the language. -/
def Scalar.number : Scalar → Option ℚ
  | .bool value => some (if value then 1 else 0)
  | .num value => some value
  | _ => none

/-- `==` on scalars. -/
def Scalar.pySame (a b : Scalar) : Bool :=
  match a.number, b.number with
  | some p, some q => p == q
  | _, _ => a == b

/-- `==` on decoded values. -/
def pyEqual (a b : Value) : Bool := a.agree Scalar.pySame b

/-- Equal as JSON values. -/
def jsonEqual (a b : Value) : Bool := a.agree (· == ·) b

/-! ## The patch -/

/-- SOURCE: services/ui_state_service.py:38 -/
def wholeKeyReplace : List Text := [text "terminals", text "sessions"]

/-- SOURCE: services/ui_state_service.py:41-48 -/
def escapeToken (token : Text) : Text :=
  (token.flatMap fun c => if c = 126 then [126, 48] else [c]).flatMap fun c =>
    if c = 47 then [126, 49] else [c]

/-- `sorted(set(prev) | set(curr))`. -/
def unionKeys (prev curr : List (Text × Value)) : List Text :=
  (prev.map Prod.fst ++ curr.map Prod.fst).dedup.insertionSort (· ≤ ·)

/-- The operations for the members of two dictionaries behind a pointer. The keys in `whole` are
replaced and not looked into; below the first level there are none.

SOURCE: services/ui_state_service.py:155-196 -/
def diffMembers (whole : List Text) (prev curr : List (Text × Value)) (base : Text) :
    List (PatchOp Scalar) :=
  (unionKeys prev curr).flatMap fun key =>
    let pointer := base ++ 47 :: escapeToken key
    match _hprev : prev.lookup key, curr.lookup key with
    | some _, none => [⟨.remove, pointer⟩]
    | none, some value => [⟨.add value, pointer⟩]
    | none, none => []
    | some old, some value =>
      if pyEqual old value then []
      else if key ∈ whole then [⟨.replace value, pointer⟩]
      else
        match _hold : old, value with
        | .obj old, .obj value => diffMembers [] old value pointer
        | _, value => [⟨.replace value, pointer⟩]
termination_by sizeOf prev
decreasing_by
  have hmem := List.sizeOf_lt_of_mem (Document.mem_of_lookup _hprev)
  simp at hmem
  omega

/-- SOURCE: services/ui_state_service.py:139-171 -/
def diffSnapshot (prev curr : Snapshot) : List (PatchOp Scalar) :=
  diffMembers wholeKeyReplace prev.fields curr.fields []

/-- SOURCE: services/ui_state_service.py:174-196 -/
def diffDict (prev curr : List (Text × Value)) (base : Text) : List (PatchOp Scalar) :=
  diffMembers [] prev curr base

/-- SOURCE: services/agui_stream.py:379-390 -/
def stateDeltaFrame (prev curr : Snapshot) : Option (Text × List (PatchOp Scalar)) :=
  let ops := diffSnapshot prev curr
  if ops.isEmpty then none else some (text "STATE_DELTA", ops)

/-! ## Where the two equalities part -/

/-- The places whose values the diff may compare: every path of names, but none below a key that is
replaced whole. -/
def Compared (whole : List Text) : List Text → Prop
  | [] => False
  | [_] => True
  | key :: _ :: _ => key ∉ whole

/-- Wherever two values are compared, equal to the language is equal in JSON. -/
def Faithful (whole : List Text) (prev curr : List (Text × Value)) : Prop :=
  ∀ path a b, Compared whole path → (Document.obj prev).reach path = some a →
    (Document.obj curr).reach path = some b → pyEqual a b = true → jsonEqual a b = true

/-- The same for the values of one key. -/
def KeyFaithful (whole : List Text) (key : Text) (prev curr : Option Value) : Prop :=
  ∀ old value, prev = some old → curr = some value →
    (pyEqual old value = true → jsonEqual old value = true)
      ∧ (key ∉ whole → ∀ p c, old = .obj p → value = .obj c → Faithful [] p c)

theorem compared_nil {path : List Text} (h : path ≠ []) : Compared [] path :=
  match path, h with
  | [_], _ => trivial
  | _ :: _ :: _, _ => List.not_mem_nil

theorem faithful_iff (whole : List Text) (prev curr : List (Text × Value)) :
    Faithful whole prev curr
      ↔ ∀ key, KeyFaithful whole key (prev.lookup key) (curr.lookup key) := by
  constructor
  · intro h key old value hold hvalue
    refine ⟨h [key] old value trivial ?_ ?_, ?_⟩
    · simpa [Document.reach, Document.member] using hold
    · simpa [Document.reach, Document.member] using hvalue
    · rintro hkey p c rfl rfl path a b hpath ha hb
      obtain ⟨next, rest, rfl⟩ : ∃ next rest, path = next :: rest := by
        cases path with
        | nil => exact hpath.elim
        | cons next rest => exact ⟨next, rest, rfl⟩
      exact h (key :: next :: rest) a b hkey
        (Option.bind_eq_some_iff.mpr ⟨_, hold, ha⟩) (Option.bind_eq_some_iff.mpr ⟨_, hvalue, hb⟩)
  · intro h path a b hpath ha hb
    rcases path with _ | ⟨key, _ | ⟨next, rest⟩⟩
    · exact hpath.elim
    · obtain ⟨old, hold, ha⟩ := Option.bind_eq_some_iff.mp ha
      obtain ⟨value, hvalue, hb⟩ := Option.bind_eq_some_iff.mp hb
      cases ha
      cases hb
      exact (h key _ _ hold hvalue).1
    · obtain ⟨old, hold, ha⟩ := Option.bind_eq_some_iff.mp ha
      obtain ⟨value, hvalue, hb⟩ := Option.bind_eq_some_iff.mp hb
      have hobj : ∀ {d x : Value}, d.reach (next :: rest) = some x → ∃ fields, d = .obj fields := by
        intro d x hd
        cases d with
        | obj fields => exact ⟨fields, rfl⟩
        | _ => simp [Document.reach, Document.member] at hd
      obtain ⟨p, rfl⟩ := hobj ha
      obtain ⟨c, rfl⟩ := hobj hb
      exact (h key _ _ hold hvalue).2 hpath p c rfl rfl (next :: rest) a b
        (compared_nil (List.cons_ne_nil _ _)) ha hb

theorem pyEqual_of_jsonEqual {a b : Value} (h : jsonEqual a b = true) : pyEqual a b = true := by
  refine Document.agree_mono (fun a b hab => ?_) a b h
  rw [beq_iff_eq.mp hab, Scalar.pySame]
  cases b <;> simp [Scalar.number]

theorem jsonEqual_refl {d : Value} (h : d.Tidy) : jsonEqual d d = true :=
  Document.agree_refl (fun _ => BEq.rfl) d h

/-- Documents that are equal in JSON are so wherever they are compared. -/
theorem faithful_of_jsonEqual {p c : List (Text × Value)} (whole : List Text)
    (h : jsonEqual (.obj p) (.obj c) = true) : Faithful whole p c :=
  fun _ _ _ _ ha hb _ => Document.agree_reach h ha hb

/-! ## Pointers -/

theorem notMem_escapeToken (token : Text) : 47 ∉ escapeToken token := by
  intro h
  obtain ⟨c, -, hc⟩ := List.mem_flatMap.mp h
  by_cases h47 : c = 47
  · rw [if_pos h47] at hc
    simp at hc
  · rw [if_neg h47, List.mem_singleton] at hc
    exact h47 hc.symm

theorem escapeToken_cons (c : Nat) (token : Text) :
    escapeToken (c :: token) = (if c = 126 then [126, 48] else if c = 47 then [126, 49] else [c])
      ++ escapeToken token := by
  rw [escapeToken, List.flatMap_cons, List.flatMap_append]
  congr 1
  by_cases h126 : c = 126
  · simp [h126]
  · simp [h126]

theorem unescape_cons_of_ne {c : Nat} (h : c ≠ 126) (rest : Text) :
    unescape (c :: rest) = (unescape rest).map (c :: ·) := by
  rw [unescape]
  · rintro _ rfl
    exact absurd rfl h
  · rintro _ rfl
    exact absurd rfl h
  · rintro rfl
    exact absurd rfl h

/-- A token survives its escaping. -/
theorem unescape_escapeToken (token : Text) : unescape (escapeToken token) = some token := by
  induction token with
  | nil => rfl
  | cons c token ih =>
    rw [escapeToken_cons]
    by_cases h126 : c = 126
    · subst h126
      simp [unescape, ih]
    · by_cases h47 : c = 47
      · subst h47
        simp [unescape, ih]
      · rw [if_neg h126, if_neg h47, List.singleton_append, unescape_cons_of_ne h126, ih]
        rfl

theorem parsePointer_escapeToken {base : Text} {tokens : List Text}
    (h : parsePointer base = some tokens) (key : Text) :
    parsePointer (base ++ 47 :: escapeToken key) = some (tokens ++ [key]) :=
  parsePointer_append h (notMem_escapeToken key) (unescape_escapeToken key)

/-! ## The operations of one key -/

/-- The operations for the values of one key. -/
def keyOps (whole : List Text) (base key : Text) (prev curr : Option Value) :
    List (PatchOp Scalar) :=
  let pointer := base ++ 47 :: escapeToken key
  match prev, curr with
  | some _, none => [⟨.remove, pointer⟩]
  | none, some value => [⟨.add value, pointer⟩]
  | none, none => []
  | some old, some value =>
    if pyEqual old value then []
    else if key ∈ whole then [⟨.replace value, pointer⟩]
    else
      match old, value with
      | .obj old, .obj value => diffMembers [] old value pointer
      | _, value => [⟨.replace value, pointer⟩]

theorem diffMembers_eq (whole : List Text) (prev curr : List (Text × Value)) (base : Text) :
    diffMembers whole prev curr base
      = (unionKeys prev curr).flatMap fun key =>
          keyOps whole base key (prev.lookup key) (curr.lookup key) := by
  rw [diffMembers]
  refine List.flatMap_congr fun key _ => ?_
  unfold keyOps
  dsimp only
  split
  · simp only [*]
  · simp only [*]
  · simp only [*]
  · next old value _ _ =>
    simp only [*]
    refine if_congr Iff.rfl rfl (if_congr Iff.rfl rfl ?_)
    cases old <;> cases value <;> rfl

theorem mem_unionKeys {prev curr : List (Text × Value)} {key : Text} :
    key ∈ unionKeys prev curr ↔ key ∈ prev.map Prod.fst ∨ key ∈ curr.map Prod.fst := by
  rw [unionKeys, List.mem_insertionSort, List.mem_dedup, List.mem_append]

theorem nodup_unionKeys (prev curr : List (Text × Value)) : (unionKeys prev curr).Nodup :=
  (List.perm_insertionSort _ _).nodup_iff.mpr (List.nodup_dedup _)

/-- What the operations of a key make of an object that has the old value there: nothing changes
at other keys, and the key has the new value as far as JSON can tell. -/
def KeyCarried (whole : List Text) (key : Text) (prev curr : Option Value)
    (fields fields' : List (Text × Value)) : Prop :=
  (fields'.map Prod.fst).Nodup ∧ (∀ j, j ≠ key → fields'.lookup j = fields.lookup j)
    ∧ (Option.Rel (fun a b => jsonEqual a b = true) (fields'.lookup key) curr
        ↔ KeyFaithful whole key prev curr)

/-- What the operations of two dictionaries make of the first. -/
def Carried (whole : List Text) (prev curr fields' : List (Text × Value)) : Prop :=
  (fields'.map Prod.fst).Nodup
    ∧ (jsonEqual (.obj fields') (.obj curr) = true ↔ Faithful whole prev curr)

theorem keyFaithful_of_none_left (whole : List Text) (key : Text) (curr : Option Value) :
    KeyFaithful whole key none curr := fun _ _ h _ => nomatch h

theorem keyFaithful_of_none_right (whole : List Text) (key : Text) (prev : Option Value) :
    KeyFaithful whole key prev none := fun _ _ _ h => nomatch h

/-- A key whose new value is written is carried. -/
theorem keyCarried_setField {whole : List Text} {key : Text} {prev : Option Value} {value : Value}
    {fields : List (Text × Value)} (hnodup : (fields.map Prod.fst).Nodup) (hvalue : value.Tidy)
    (h : KeyFaithful whole key prev (some value)) :
    KeyCarried whole key prev (some value) fields (Document.setField key value fields) := by
  refine ⟨Document.nodup_setField key value hnodup, fun j hj => ?_, ?_⟩
  · rw [Document.lookup_setField, if_neg hj]
  · rw [Document.lookup_setField, if_pos rfl]
    exact ⟨fun _ => h, fun _ => .some (jsonEqual_refl hvalue)⟩

/-- The values of a key that are not both objects, or not looked into, part nowhere once the
language tells them apart. -/
theorem keyFaithful_of_not_pyEqual {whole : List Text} {key : Text} {old value : Value}
    (hne : pyEqual old value = false)
    (h : key ∉ whole → ∀ p c, old = .obj p → value ≠ .obj c) :
    KeyFaithful whole key (some old) (some value) := by
  intro a b ha hb
  cases ha
  cases hb
  refine ⟨fun heq => ?_, fun hkey p c hp hc => absurd hc (h hkey p c hp)⟩
  rw [hne] at heq
  exact absurd heq Bool.false_ne_true

/-- The operations on one member, applied where it stands. -/
theorem applyAll_keyOps (whole : List Text) {base key : Text} {tokens : List Text}
    {plug : Value → Value} (hframe : Framed tokens plug)
    (hbase : parsePointer base = some tokens) {prev curr : Option Value}
    {fields : List (Text × Value)} (hnodup : (fields.map Prod.fst).Nodup)
    (hfields : fields.lookup key = prev) (htidy : ∀ value, curr = some value → value.Tidy)
    (hinner : ∀ p c, prev = some (.obj p) → curr = some (.obj c) →
      ∀ {base : Text} {tokens : List Text} {plug : Value → Value}, Framed tokens plug →
        parsePointer base = some tokens →
          ∃ fields', applyAll (diffMembers [] p c base) (plug (.obj p)) = some (plug (.obj fields'))
            ∧ Carried [] p c fields') :
    ∃ fields', applyAll (keyOps whole base key prev curr) (plug (.obj fields))
        = some (plug (.obj fields')) ∧ KeyCarried whole key prev curr fields fields' := by
  have hpath := parsePointer_escapeToken hbase key
  have hreplace : ∀ {old value : Value}, prev = some old → curr = some value →
      KeyFaithful whole key prev curr →
      ∃ fields', applyAll [⟨.replace value, base ++ 47 :: escapeToken key⟩] (plug (.obj fields))
        = some (plug (.obj fields')) ∧ KeyCarried whole key prev curr fields fields' := by
    rintro old value rfl rfl hfaithful
    refine ⟨_, ?_, keyCarried_setField hnodup (htidy value rfl) hfaithful⟩
    rw [applyAll_singleton, hframe.apply hpath, Change.onField, hfields, Option.isSome_some,
      if_pos rfl]
    rfl
  cases prev with
  | none =>
    cases curr with
    | none =>
      refine ⟨fields, rfl, hnodup, fun _ _ => rfl, fun _ => keyFaithful_of_none_left _ _ _, ?_⟩
      intro
      rw [hfields]
      exact .none
    | some value =>
      refine ⟨_, ?_, keyCarried_setField hnodup (htidy value rfl)
        (keyFaithful_of_none_left _ _ _)⟩
      simp only [keyOps]
      rw [applyAll_singleton, hframe.apply hpath]
      rfl
  | some old =>
    cases curr with
    | none =>
      refine ⟨Document.eraseField key fields, ?_, Document.nodup_eraseField key hnodup,
        fun j hj => ?_, fun _ => keyFaithful_of_none_right _ _ _, fun _ => ?_⟩
      · simp only [keyOps]
        rw [applyAll_singleton, hframe.apply hpath, Change.onField, hfields,
          Option.isSome_some, if_pos rfl]
        rfl
      · rw [Document.lookup_eraseField, if_neg hj]
      · rw [Document.lookup_eraseField, if_pos rfl]
        exact .none
    | some value =>
      simp only [keyOps]
      by_cases heq : pyEqual old value = true
      · -- a skipped member stays what it was
        rw [if_pos heq]
        refine ⟨fields, rfl, hnodup, fun _ _ => rfl, ?_⟩
        rw [hfields]
        constructor
        · rintro (hab | _) a b ha hb
          cases ha
          cases hb
          refine ⟨fun _ => hab, ?_⟩
          rintro - p c rfl rfl
          exact faithful_of_jsonEqual [] hab
        · intro h
          exact .some ((h old value rfl rfl).1 heq)
      · have hne : pyEqual old value = false := Bool.eq_false_iff.mpr heq
        rw [if_neg heq]
        by_cases hwhole : key ∈ whole
        · rw [if_pos hwhole]
          exact hreplace rfl rfl
            (keyFaithful_of_not_pyEqual hne fun hkey => absurd hwhole hkey)
        · rw [if_neg hwhole]
          split
          · next p c =>
            -- below the key the frame is one member deeper
            obtain ⟨inner, happly, hinnerNodup, hiff⟩ :=
              hinner p c rfl rfl (hframe.under key fields) hpath
            simp only [Document.setField_of_lookup hfields] at happly
            refine ⟨_, happly, Document.nodup_setField key _ hnodup, fun j hj => ?_, ?_⟩
            · rw [Document.lookup_setField, if_neg hj]
            · rw [Document.lookup_setField, if_pos rfl]
              constructor
              · rintro (hab | _) a b ha hb
                cases ha
                cases hb
                refine ⟨fun h => absurd h heq, ?_⟩
                rintro - _ _ ⟨⟩ ⟨⟩
                exact hiff.mp hab
              · intro h
                exact .some (hiff.mpr ((h _ _ rfl rfl).2 hwhole p c rfl rfl))
          · next hobj =>
            exact hreplace rfl rfl
              (keyFaithful_of_not_pyEqual hne fun _ p c hp hc => hobj p c hp hc)

/-! ## The whole patch -/

/-- The operations of keys that have their old values, one key after the other. -/
theorem applyAll_keys (whole : List Text) {base : Text} {tokens : List Text}
    {plug : Value → Value} (hframe : Framed tokens plug)
    (hbase : parsePointer base = some tokens) {prev curr : List (Text × Value)}
    (hcurr : (Document.obj curr).Tidy)
    (hinner : ∀ key p c, prev.lookup key = some (.obj p) → curr.lookup key = some (.obj c) →
      ∀ {base : Text} {tokens : List Text} {plug : Value → Value}, Framed tokens plug →
        parsePointer base = some tokens →
          ∃ fields', applyAll (diffMembers [] p c base) (plug (.obj p)) = some (plug (.obj fields'))
            ∧ Carried [] p c fields')
    {keys : List Text} (hkeys : keys.Nodup) {fields : List (Text × Value)}
    (hnodup : (fields.map Prod.fst).Nodup)
    (hold : ∀ key ∈ keys, fields.lookup key = prev.lookup key) :
    ∃ fields', applyAll (keys.flatMap fun key =>
          keyOps whole base key (prev.lookup key) (curr.lookup key)) (plug (.obj fields))
        = some (plug (.obj fields')) ∧ (fields'.map Prod.fst).Nodup
      ∧ (∀ j, j ∉ keys → fields'.lookup j = fields.lookup j)
      ∧ ∀ key ∈ keys, Option.Rel (fun a b => jsonEqual a b = true) (fields'.lookup key)
            (curr.lookup key)
          ↔ KeyFaithful whole key (prev.lookup key) (curr.lookup key) := by
  induction keys generalizing fields with
  | nil => exact ⟨fields, rfl, hnodup, fun _ _ => rfl, List.forall_mem_nil _⟩
  | cons key keys ih =>
    rw [List.nodup_cons] at hkeys
    obtain ⟨hkey, hrest⟩ := List.forall_mem_cons.mp hold
    obtain ⟨mid, happly, hmid, hothers, hcarried⟩ := applyAll_keyOps whole hframe
      hbase hnodup hkey (fun _ hvalue => hcurr.lookup hvalue) (hinner key)
    have hmidOld : ∀ j ∈ keys, mid.lookup j = prev.lookup j := by
      intro j hj
      have hne : j ≠ key := by
        rintro rfl
        exact hkeys.1 hj
      rw [hothers j hne, hrest j hj]
    obtain ⟨fields', happly', hnodup', hothers', hcarried'⟩ := ih hkeys.2 hmid hmidOld
    refine ⟨fields', ?_, hnodup', fun j hj => ?_, ?_⟩
    · rw [List.flatMap_cons, applyAll_append, happly, Option.bind_some, happly']
    · rw [List.mem_cons, not_or] at hj
      rw [hothers' j hj.2, hothers j hj.1]
    · refine List.forall_mem_cons.mpr ⟨?_, hcarried'⟩
      rw [hothers' key hkeys.1]
      exact hcarried

/-- A patch applies, and it carries the old dictionary to the new one exactly where the two
equalities do not part. -/
theorem applyAll_diffMembers (whole : List Text) {prev curr : List (Text × Value)}
    (hprev : (Document.obj prev).Tidy) (hcurr : (Document.obj curr).Tidy) {base : Text}
    {tokens : List Text} {plug : Value → Value} (hframe : Framed tokens plug)
    (hbase : parsePointer base = some tokens) :
    ∃ fields', applyAll (diffMembers whole prev curr base) (plug (.obj prev))
        = some (plug (.obj fields')) ∧ Carried whole prev curr fields' := by
  have hinner : ∀ key p c, prev.lookup key = some (.obj p) → curr.lookup key = some (.obj c) →
      ∀ {base : Text} {tokens : List Text} {plug : Value → Value}, Framed tokens plug →
        parsePointer base = some tokens →
          ∃ fields', applyAll (diffMembers [] p c base) (plug (.obj p)) = some (plug (.obj fields'))
            ∧ Carried [] p c fields' := by
    intro key p c hp hc base tokens plug hframe hbase
    have hsmaller : sizeOf p < sizeOf prev := by
      have hmem := List.sizeOf_lt_of_mem (Document.mem_of_lookup hp)
      simp at hmem
      omega
    exact applyAll_diffMembers [] (hprev.lookup hp) (hcurr.lookup hc) hframe hbase
  obtain ⟨fields', happly, hnodup, hothers, hcarried⟩ := applyAll_keys whole hframe
    hbase hcurr hinner (nodup_unionKeys prev curr) hprev.1 fun _ _ => rfl
  rw [← diffMembers_eq] at happly
  refine ⟨fields', happly, hnodup, ?_⟩
  rw [jsonEqual, Document.agree_obj_iff hnodup hcurr.1, faithful_iff]
  refine forall_congr' fun key => ?_
  by_cases hkey : key ∈ unionKeys prev curr
  · exact hcarried key hkey
  · rw [hothers key hkey]
    rw [mem_unionKeys, not_or, ← Document.lookup_isSome_iff_mem,
      ← Document.lookup_isSome_iff_mem, Option.not_isSome_iff_eq_none,
      Option.not_isSome_iff_eq_none] at hkey
    rw [hkey.1, hkey.2]
    exact ⟨fun _ => keyFaithful_of_none_left _ _ _, fun _ => .none⟩
termination_by sizeOf prev

/-- Nothing is sent between snapshots that are equal in JSON. -/
theorem diffSnapshot_of_jsonEqual {prev curr : Snapshot}
    (h : jsonEqual prev.toValue curr.toValue = true) : diffSnapshot prev curr = [] := by
  rw [diffSnapshot, diffMembers_eq, List.flatMap_eq_nil_iff]
  intro key _
  have hrel := (Document.agree_obj_iff prev.tidy.1 curr.tidy.1).mp h key
  generalize prev.fields.lookup key = old at hrel
  generalize curr.fields.lookup key = value at hrel
  cases hrel with
  | none => rfl
  | some hab => exact if_pos (pyEqual_of_jsonEqual hab)

/-- The patch between two snapshots round-trips, and is empty exactly between equal ones, if and
only if no two values it compares are equal to the language and not in JSON. -/
theorem diffSnapshot_roundTrip_iff (prev curr : Snapshot) :
    ((∃ d, applyAll (diffSnapshot prev curr) prev.toValue = some d
          ∧ jsonEqual d curr.toValue = true)
        ∧ (diffSnapshot prev curr = [] ↔ jsonEqual prev.toValue curr.toValue = true))
      ↔ ∀ path a b, Compared wholeKeyReplace path → prev.toValue.reach path = some a →
          curr.toValue.reach path = some b → pyEqual a b = true → jsonEqual a b = true := by
  obtain ⟨fields', happly, -, hiff⟩ := applyAll_diffMembers wholeKeyReplace
    prev.tidy curr.tidy framed_nil parsePointer_nil
  have happly : applyAll (diffSnapshot prev curr) prev.toValue = some (.obj fields') := happly
  constructor
  · rintro ⟨⟨d, hd, hequal⟩, -⟩
    rw [happly] at hd
    cases hd
    exact hiff.mp hequal
  · intro hfaithful
    have hequal : jsonEqual (.obj fields') curr.toValue = true := hiff.mpr hfaithful
    refine ⟨⟨_, happly, hequal⟩, fun hnil => ?_, diffSnapshot_of_jsonEqual⟩
    rw [hnil, applyAll_nil] at happly
    rw [Option.some.inj happly]
    exact hequal

/-- The snapshot with one member. -/
def Snapshot.single (key : Text) (value : Scalar) : Snapshot where
  fields := [(key, .scalar value)]
  tidy := ⟨by simp, trivial, trivial⟩

/-- `{"a": true}` to `{"a": 1}` is an empty patch. -/
theorem true_to_one_unsent :
    diffSnapshot (.single (text "a") (.bool true)) (.single (text "a") (.num 1)) = []
      ∧ jsonEqual (Snapshot.single (text "a") (.bool true)).toValue
          (Snapshot.single (text "a") (.num 1)).toValue = false := by
  refine ⟨?_, by decide⟩
  rw [diffSnapshot, diffMembers_eq]
  decide +kernel

end CliAgentOrchestrator.EventStream
