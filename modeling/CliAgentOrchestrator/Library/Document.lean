import CliAgentOrchestrator.Library.Text
import Mathlib.Data.List.Nodup
import Mathlib.Data.List.Perm.Subperm

/-!
# Documents compared up to their scalars

A JSON document over scalars of any type. Two documents agree (`agree`) when they have one shape
and the scalars that face each other pass a test, so that one comparison serves for several
notions of equal scalars; on objects the order of the members does not count (`agree_obj_iff`).

`reach` follows a path of member names. The members of an object are set and erased one name at a
time, and each operation is read back through `lookup`.
-/

set_option autoImplicit false

namespace Library

/-- A document with scalars `σ`. -/
inductive Document (σ : Type)
  | scalar (value : σ)
  | arr (items : List (Document σ))
  | obj (fields : List (Text × Document σ))

namespace Document

variable {σ : Type}

mutual

/-- No object has a name twice. -/
def Tidy : Document σ → Prop
  | scalar _ => True
  | arr items => TidyItems items
  | obj fields => (fields.map Prod.fst).Nodup ∧ TidyFields fields

def TidyItems : List (Document σ) → Prop
  | [] => True
  | item :: rest => Tidy item ∧ TidyItems rest

def TidyFields : List (Text × Document σ) → Prop
  | [] => True
  | (_, value) :: rest => Tidy value ∧ TidyFields rest

end

theorem tidyFields_iff (fields : List (Text × Document σ)) :
    TidyFields fields ↔ ∀ p ∈ fields, Tidy p.2 := by
  induction fields with
  | nil => simp [TidyFields]
  | cons p rest ih =>
    obtain ⟨key, value⟩ := p
    rw [TidyFields, List.forall_mem_cons, ih]

/-! ## Members -/

theorem lookup_cons_ite (j key : Text) (value : Document σ) (rest : List (Text × Document σ)) :
    ((j, value) :: rest).lookup key = if key = j then some value else rest.lookup key := by
  rw [List.lookup_cons]
  by_cases hj : key = j
  · rw [if_pos hj, beq_iff_eq.mpr hj]
  · rw [if_neg hj, beq_eq_false_iff_ne.mpr hj]

theorem mem_of_lookup {fields : List (Text × Document σ)} {key : Text} {value : Document σ}
    (h : fields.lookup key = some value) : (key, value) ∈ fields := by
  obtain ⟨before, behind, rfl, -⟩ := List.lookup_eq_some_iff.mp h
  exact List.mem_append_right before List.mem_cons_self

theorem lookup_of_mem {fields : List (Text × Document σ)}
    (hnodup : (fields.map Prod.fst).Nodup) {key : Text} {value : Document σ}
    (h : (key, value) ∈ fields) : fields.lookup key = some value := by
  induction fields with
  | nil => exact absurd h List.not_mem_nil
  | cons p rest ih =>
    obtain ⟨j, w⟩ := p
    rw [List.map_cons, List.nodup_cons] at hnodup
    rw [lookup_cons_ite]
    rcases List.mem_cons.mp h with heq | hrest
    · cases heq
      exact if_pos rfl
    · have hne : key ≠ j := by
        rintro rfl
        exact hnodup.1 (List.mem_map.mpr ⟨(key, value), hrest, rfl⟩)
      rw [if_neg hne]
      exact ih hnodup.2 hrest

theorem lookup_isSome_iff_mem {fields : List (Text × Document σ)} {key : Text} :
    (fields.lookup key).isSome = true ↔ key ∈ fields.map Prod.fst := by
  rw [List.lookup_isSome_iff, List.mem_map]
  simp only [beq_iff_eq]
  constructor
  · rintro ⟨p, hp, hkey⟩
    exact ⟨p, hp, hkey.symm⟩
  · rintro ⟨p, hp, hkey⟩
    exact ⟨p, hp, hkey.symm⟩

theorem Tidy.lookup {fields : List (Text × Document σ)} (h : Tidy (obj fields)) {key : Text}
    {value : Document σ} (hvalue : fields.lookup key = some value) : Tidy value :=
  (tidyFields_iff fields).mp h.2 _ (mem_of_lookup hvalue)

/-- The value under a name; nothing has members but an object. -/
def member (key : Text) : Document σ → Option (Document σ)
  | obj fields => fields.lookup key
  | _ => none

/-- What stands at the end of a path of names. -/
def reach : List Text → Document σ → Option (Document σ)
  | [], d => some d
  | key :: rest, d => (d.member key).bind (reach rest)

/-- The members with one of them set: in its place when the name is there, behind the others when
it is not. -/
def setField (key : Text) (value : Document σ) :
    List (Text × Document σ) → List (Text × Document σ)
  | [] => [(key, value)]
  | (j, w) :: rest => if j = key then (key, value) :: rest else (j, w) :: setField key value rest

/-- The members without a name. -/
def eraseField (key : Text) (fields : List (Text × Document σ)) : List (Text × Document σ) :=
  fields.filter fun p => p.1 ≠ key

@[simp] theorem lookup_setField (key j : Text) (value : Document σ)
    (fields : List (Text × Document σ)) :
    (setField key value fields).lookup j = if j = key then some value else fields.lookup j := by
  induction fields with
  | nil => rw [setField, lookup_cons_ite]
  | cons p rest ih =>
    obtain ⟨i, w⟩ := p
    by_cases hi : i = key
    · subst hi
      rw [setField, if_pos rfl, lookup_cons_ite, lookup_cons_ite]
      by_cases hj : j = i <;> simp only [hj, if_true, if_false]
    · rw [setField, if_neg hi, lookup_cons_ite, lookup_cons_ite, ih]
      by_cases hj : j = i
      · subst hj
        simp [hi]
      · simp [hj]

@[simp] theorem lookup_eraseField (key j : Text) (fields : List (Text × Document σ)) :
    (eraseField key fields).lookup j = if j = key then none else fields.lookup j := by
  induction fields with
  | nil => simp [eraseField]
  | cons p rest ih =>
    obtain ⟨i, w⟩ := p
    rw [eraseField] at ih ⊢
    by_cases hi : i = key
    · subst hi
      rw [List.filter_cons_of_neg (by simp), ih, lookup_cons_ite]
      by_cases hj : j = i <;> simp [hj]
    · rw [List.filter_cons_of_pos (by simpa using hi), lookup_cons_ite, lookup_cons_ite, ih]
      by_cases hj : j = i
      · subst hj
        simp [hi]
      · simp [hj]

theorem mem_keys_setField {key j : Text} {value : Document σ}
    {fields : List (Text × Document σ)} :
    j ∈ (setField key value fields).map Prod.fst ↔ j = key ∨ j ∈ fields.map Prod.fst := by
  rw [← lookup_isSome_iff_mem, lookup_setField, ← lookup_isSome_iff_mem]
  by_cases hj : j = key <;> simp [hj]

theorem nodup_setField (key : Text) (value : Document σ) {fields : List (Text × Document σ)}
    (h : (fields.map Prod.fst).Nodup) : ((setField key value fields).map Prod.fst).Nodup := by
  induction fields with
  | nil => simp [setField]
  | cons p rest ih =>
    obtain ⟨j, w⟩ := p
    rw [List.map_cons, List.nodup_cons] at h
    by_cases hj : j = key
    · subst hj
      rw [setField, if_pos rfl, List.map_cons, List.nodup_cons]
      exact h
    · rw [setField, if_neg hj, List.map_cons, List.nodup_cons, mem_keys_setField]
      exact ⟨fun hmem => hmem.elim hj h.1, ih h.2⟩

theorem nodup_eraseField (key : Text) {fields : List (Text × Document σ)}
    (h : (fields.map Prod.fst).Nodup) : ((eraseField key fields).map Prod.fst).Nodup :=
  h.sublist (List.filter_sublist.map Prod.fst)

/-- Setting a member to what it is changes nothing. -/
theorem setField_of_lookup {key : Text} {value : Document σ}
    {fields : List (Text × Document σ)} (h : fields.lookup key = some value) :
    setField key value fields = fields := by
  induction fields with
  | nil => simp at h
  | cons p rest ih =>
    obtain ⟨j, w⟩ := p
    rw [lookup_cons_ite] at h
    by_cases hj : j = key
    · subst hj
      rw [if_pos rfl] at h
      rw [setField, if_pos rfl, Option.some.inj h]
    · rw [if_neg (Ne.symm hj)] at h
      rw [setField, if_neg hj, ih h]

@[simp] theorem setField_setField (key : Text) (a b : Document σ)
    (fields : List (Text × Document σ)) :
    setField key b (setField key a fields) = setField key b fields := by
  induction fields with
  | nil => simp [setField]
  | cons p rest ih =>
    obtain ⟨j, w⟩ := p
    by_cases hj : j = key
    · simp [setField, hj]
    · simp [setField, hj, ih]

/-! ## Comparing -/

mutual

/-- One shape, and scalars that pass the test: items in order, as many members under the same
names. -/
def agree (same : σ → σ → Bool) : Document σ → Document σ → Bool
  | scalar a, scalar b => same a b
  | arr as, arr bs => agreeItems same as bs
  | obj as, obj bs => as.length == bs.length && agreeFields same as bs
  | _, _ => false

def agreeItems (same : σ → σ → Bool) : List (Document σ) → List (Document σ) → Bool
  | [], [] => true
  | a :: as, b :: bs => agree same a b && agreeItems same as bs
  | _, _ => false

def agreeFields (same : σ → σ → Bool) :
    List (Text × Document σ) → List (Text × Document σ) → Bool
  | [], _ => true
  | (key, a) :: as, bs =>
    (match bs.lookup key with
      | some b => agree same a b
      | none => false) && agreeFields same as bs

end

variable {same : σ → σ → Bool}

theorem agreeFields_iff (as bs : List (Text × Document σ)) :
    agreeFields same as bs = true
      ↔ ∀ p ∈ as, ∃ b, bs.lookup p.1 = some b ∧ agree same p.2 b = true := by
  induction as with
  | nil => simp [agreeFields]
  | cons p as ih =>
    obtain ⟨key, a⟩ := p
    rw [agreeFields, Bool.and_eq_true, ih, List.forall_mem_cons]
    cases bs.lookup key <;> simp

/-- Objects agree name by name. -/
theorem agree_obj_iff {as bs : List (Text × Document σ)} (has : (as.map Prod.fst).Nodup)
    (hbs : (bs.map Prod.fst).Nodup) :
    agree same (obj as) (obj bs) = true
      ↔ ∀ key, Option.Rel (fun a b => agree same a b = true) (as.lookup key)
          (bs.lookup key) := by
  rw [agree, Bool.and_eq_true, beq_iff_eq, agreeFields_iff]
  constructor
  · rintro ⟨hlength, hall⟩ key
    have hsubset : as.map Prod.fst ⊆ bs.map Prod.fst := by
      intro j hj
      obtain ⟨p, hp, rfl⟩ := List.mem_map.mp hj
      obtain ⟨b, hb, -⟩ := hall p hp
      exact lookup_isSome_iff_mem.mp (by rw [hb]; rfl)
    have hperm : (as.map Prod.fst).Perm (bs.map Prod.fst) :=
      (has.subperm hsubset).perm_of_length_le (by simp [hlength])
    cases ha : as.lookup key with
    | some a =>
      obtain ⟨b, hb, hab⟩ := hall (key, a) (mem_of_lookup ha)
      rw [hb]
      exact .some hab
    | none =>
      cases hb : bs.lookup key with
      | none => exact .none
      | some b =>
        have hkey : key ∈ bs.map Prod.fst := lookup_isSome_iff_mem.mp (by rw [hb]; rfl)
        have := lookup_isSome_iff_mem.mpr (hperm.mem_iff.mpr hkey)
        rw [ha] at this
        exact absurd this Bool.false_ne_true
  · intro hrel
    have hkeys : ∀ key, key ∈ as.map Prod.fst ↔ key ∈ bs.map Prod.fst := by
      intro key
      rw [← lookup_isSome_iff_mem, ← lookup_isSome_iff_mem]
      have hr := hrel key
      generalize as.lookup key = x at hr
      generalize bs.lookup key = y at hr
      cases hr <;> simp
    refine ⟨?_, ?_⟩
    · have hperm := (List.perm_ext_iff_of_nodup has hbs).mpr hkeys
      simpa using hperm.length_eq
    · rintro ⟨key, a⟩ hp
      have hr := hrel key
      rw [lookup_of_mem has hp] at hr
      cases hb : bs.lookup key with
      | none =>
        rw [hb] at hr
        cases hr
      | some b =>
        rw [hb] at hr
        cases hr with
        | some hab => exact ⟨b, rfl, hab⟩

mutual

/-- A weaker test keeps the agreement. -/
theorem agree_mono {same' : σ → σ → Bool} (h : ∀ a b, same a b = true → same' a b = true)
    (a b : Document σ) (hab : agree same a b = true) : agree same' a b = true := by
  cases a with
  | scalar a =>
    cases b with
    | scalar b => exact h a b hab
    | _ => exact absurd hab (by simp [agree])
  | arr as =>
    cases b with
    | arr bs => exact agreeItems_mono h as bs hab
    | _ => exact absurd hab (by simp [agree])
  | obj as =>
    cases b with
    | obj bs =>
      rw [agree, Bool.and_eq_true] at hab ⊢
      exact ⟨hab.1, agreeFields_mono h as bs hab.2⟩
    | _ => exact absurd hab (by simp [agree])

theorem agreeItems_mono {same' : σ → σ → Bool} (h : ∀ a b, same a b = true → same' a b = true)
    (as bs : List (Document σ)) (hab : agreeItems same as bs = true) :
    agreeItems same' as bs = true := by
  cases as with
  | nil =>
    cases bs with
    | nil => rfl
    | cons b bs => exact absurd hab (by simp [agreeItems])
  | cons a as =>
    cases bs with
    | nil => exact absurd hab (by simp [agreeItems])
    | cons b bs =>
      rw [agreeItems, Bool.and_eq_true] at hab ⊢
      exact ⟨agree_mono h a b hab.1, agreeItems_mono h as bs hab.2⟩

theorem agreeFields_mono {same' : σ → σ → Bool} (h : ∀ a b, same a b = true → same' a b = true)
    (as bs : List (Text × Document σ)) (hab : agreeFields same as bs = true) :
    agreeFields same' as bs = true := by
  cases as with
  | nil => rfl
  | cons p as =>
    obtain ⟨key, a⟩ := p
    rw [agreeFields, Bool.and_eq_true] at hab ⊢
    refine ⟨?_, agreeFields_mono h as bs hab.2⟩
    cases hb : bs.lookup key with
    | none => exact absurd hab.1 (by simp [hb])
    | some b =>
      have hhead := hab.1
      rw [hb] at hhead
      exact agree_mono h a b hhead

end

mutual

/-- A tidy document agrees with itself. -/
theorem agree_refl (h : ∀ a, same a a = true) (d : Document σ) (hd : Tidy d) :
    agree same d d = true := by
  cases d with
  | scalar a => exact h a
  | arr items => exact agreeItems_refl h items hd
  | obj fields =>
    rw [agree, beq_self_eq_true, Bool.true_and, agreeFields_iff]
    rintro ⟨key, a⟩ hp
    exact ⟨a, lookup_of_mem hd.1 hp, agreeValues_refl h fields hd.2 _ hp⟩

theorem agreeItems_refl (h : ∀ a, same a a = true) (items : List (Document σ))
    (hd : TidyItems items) : agreeItems same items items = true := by
  cases items with
  | nil => rfl
  | cons item rest =>
    rw [agreeItems, Bool.and_eq_true]
    exact ⟨agree_refl h item hd.1, agreeItems_refl h rest hd.2⟩

theorem agreeValues_refl (h : ∀ a, same a a = true) (fields : List (Text × Document σ))
    (hd : TidyFields fields) : ∀ p ∈ fields, agree same p.2 p.2 = true := by
  cases fields with
  | nil => exact List.forall_mem_nil _
  | cons p rest =>
    obtain ⟨key, value⟩ := p
    exact List.forall_mem_cons.mpr ⟨agree_refl h value hd.1, agreeValues_refl h rest hd.2⟩

end

/-- What agrees agrees at every member that both have. -/
theorem agree_member {a b x y : Document σ} {key : Text} (hab : agree same a b = true)
    (hx : a.member key = some x) (hy : b.member key = some y) : agree same x y = true := by
  cases a with
  | obj as =>
    cases b with
    | obj bs =>
      rw [agree, Bool.and_eq_true, agreeFields_iff] at hab
      obtain ⟨b, hb, hagree⟩ := hab.2 (key, x) (mem_of_lookup hx)
      rw [show bs.lookup key = some y from hy] at hb
      rw [Option.some.inj hb]
      exact hagree
    | _ => exact absurd hy (by simp [member])
  | _ => exact absurd hx (by simp [member])

/-- What agrees agrees wherever both can be followed. -/
theorem agree_reach {path : List Text} {a b x y : Document σ} (hab : agree same a b = true)
    (hx : a.reach path = some x) (hy : b.reach path = some y) : agree same x y = true := by
  induction path generalizing a b with
  | nil =>
    cases hx
    cases hy
    exact hab
  | cons key rest ih =>
    obtain ⟨a', ha, hx⟩ := Option.bind_eq_some_iff.mp hx
    obtain ⟨b', hb, hy⟩ := Option.bind_eq_some_iff.mp hy
    exact ih (agree_member hab ha hb) hx hy

end Document

end Library
