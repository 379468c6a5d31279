import CliAgentOrchestrator.Library.JsonTree
import Mathlib.Data.List.Lex
import Mathlib.Data.List.Sort

/-!
# Trees of values

A JSON value whose leaves (strings, numbers) and whose keys are of any type, so that one tree can be
read in several ways: `map` changes the leaves and the keys in place. Two trees that one reading
takes for the same are told apart by another exactly where two keys or two leaves that face each
other are (`map_eq_iff_of_map_eq`).

`toJson` writes a tree of texts as a document. What `json.dumps` makes of it gives back the tree, as
far as the escapes of its texts do (`dumps_eq_iff`).
-/

set_option autoImplicit false

namespace Library

/-- A value over leaves `α` and keys `κ`. -/
inductive ValueTree (κ α : Type)
  | null
  | bool (value : Bool)
  | leaf (content : α)
  | list (items : List (ValueTree κ α))
  | dict (fields : List (κ × ValueTree κ α))

namespace ValueTree

variable {κ κ' α α' : Type}

section Induction

variable {P : ValueTree κ α → Prop} (hnull : P null) (hbool : ∀ b, P (bool b))
  (hleaf : ∀ a, P (leaf a)) (hlist : ∀ items, (∀ t ∈ items, P t) → P (list items))
  (hdict : ∀ fields, (∀ p ∈ fields, P p.2) → P (dict fields))

include hnull hbool hleaf hlist hdict

set_option linter.unusedSectionVars false

mutual

theorem ind : ∀ t, P t
  | null => hnull
  | bool b => hbool b
  | leaf a => hleaf a
  | list items => hlist items (indItems items)
  | dict fields => hdict fields (indFields fields)

theorem indItems : ∀ items : List (ValueTree κ α), ∀ t ∈ items, P t
  | [] => List.forall_mem_nil P
  | item :: rest => List.forall_mem_cons.mpr ⟨ind item, indItems rest⟩

theorem indFields : ∀ fields : List (κ × ValueTree κ α), ∀ p ∈ fields, P p.2
  | [] => List.forall_mem_nil fun p : κ × ValueTree κ α => P p.2
  | (_, value) :: rest => List.forall_mem_cons.mpr ⟨ind value, indFields rest⟩

end

end Induction

/-! ## Reading a tree -/

mutual

def map (f : κ → κ') (g : α → α') : ValueTree κ α → ValueTree κ' α'
  | null => null
  | bool b => bool b
  | leaf a => leaf (g a)
  | list items => list (mapItems f g items)
  | dict fields => dict (mapFields f g fields)

def mapItems (f : κ → κ') (g : α → α') : List (ValueTree κ α) → List (ValueTree κ' α')
  | [] => []
  | item :: rest => map f g item :: mapItems f g rest

def mapFields (f : κ → κ') (g : α → α') : List (κ × ValueTree κ α) → List (κ' × ValueTree κ' α')
  | [] => []
  | (key, value) :: rest => (f key, map f g value) :: mapFields f g rest

end

mutual

/-- The keys, from the left to the right. -/
def keys : ValueTree κ α → List κ
  | null => []
  | bool _ => []
  | leaf _ => []
  | list items => keysItems items
  | dict fields => keysFields fields

def keysItems : List (ValueTree κ α) → List κ
  | [] => []
  | item :: rest => keys item ++ keysItems rest

def keysFields : List (κ × ValueTree κ α) → List κ
  | [] => []
  | (key, value) :: rest => key :: (keys value ++ keysFields rest)

end

mutual

/-- The leaves, from the left to the right. -/
def leaves : ValueTree κ α → List α
  | null => []
  | bool _ => []
  | leaf a => [a]
  | list items => leavesItems items
  | dict fields => leavesFields fields

def leavesItems : List (ValueTree κ α) → List α
  | [] => []
  | item :: rest => leaves item ++ leavesItems rest

def leavesFields : List (κ × ValueTree κ α) → List α
  | [] => []
  | (_, value) :: rest => leaves value ++ leavesFields rest

end

section Map

variable (f : κ → κ') (g : α → α')

theorem mapItems_eq (items : List (ValueTree κ α)) : mapItems f g items = items.map (map f g) := by
  induction items with
  | nil => rfl
  | cons item rest ih => rw [mapItems, ih, List.map_cons]

theorem mapFields_eq (fields : List (κ × ValueTree κ α)) :
    mapFields f g fields = fields.map fun p => (f p.1, map f g p.2) := by
  induction fields with
  | nil => rfl
  | cons p rest ih => rw [mapFields, ih, List.map_cons]

@[simp] theorem map_list (items : List (ValueTree κ α)) :
    map f g (list items) = list (items.map (map f g)) := by
  rw [map, mapItems_eq]

@[simp] theorem map_dict (fields : List (κ × ValueTree κ α)) :
    map f g (dict fields) = dict (fields.map fun p => (f p.1, map f g p.2)) := by
  rw [map, mapFields_eq]

end Map

@[simp] theorem keys_list (items : List (ValueTree κ α)) :
    keys (list items) = items.flatMap keys := by
  rw [keys]
  induction items with
  | nil => rfl
  | cons item rest ih => rw [keysItems, ih, List.flatMap_cons]

@[simp] theorem keys_dict (fields : List (κ × ValueTree κ α)) :
    keys (dict fields) = fields.flatMap fun p => p.1 :: keys p.2 := by
  rw [keys]
  induction fields with
  | nil => rfl
  | cons p rest ih => rw [keysFields, ih, List.flatMap_cons, List.cons_append]

@[simp] theorem leaves_list (items : List (ValueTree κ α)) :
    leaves (list items) = items.flatMap leaves := by
  rw [leaves]
  induction items with
  | nil => rfl
  | cons item rest ih => rw [leavesItems, ih, List.flatMap_cons]

@[simp] theorem leaves_dict (fields : List (κ × ValueTree κ α)) :
    leaves (dict fields) = fields.flatMap fun p => leaves p.2 := by
  rw [leaves]
  induction fields with
  | nil => rfl
  | cons p rest ih => rw [leavesFields, ih, List.flatMap_cons]

theorem map_map {κ'' α'' : Type} (f : κ → κ') (g : α → α') (f' : κ' → κ'') (g' : α' → α'')
    (t : ValueTree κ α) : map f' g' (map f g t) = map (f' ∘ f) (g' ∘ g) t := by
  induction t using ind with
  | hlist items ih =>
    simp only [map_list, List.map_map, list.injEq]
    exact List.map_congr_left ih
  | hdict fields ih =>
    simp only [map_dict, List.map_map, dict.injEq]
    refine List.map_congr_left fun p hp => ?_
    simp only [Function.comp_apply, ih p hp]
  | _ => rfl

theorem keys_map (f : κ → κ') (g : α → α') (t : ValueTree κ α) :
    keys (map f g t) = (keys t).map f := by
  induction t using ind with
  | hlist items ih =>
    rw [map_list, keys_list, keys_list, List.flatMap_map, List.map_flatMap]
    exact List.flatMap_congr ih
  | hdict fields ih =>
    rw [map_dict, keys_dict, keys_dict, List.flatMap_map, List.map_flatMap]
    refine List.flatMap_congr fun p hp => ?_
    rw [ih p hp, List.map_cons]
  | _ => rfl

theorem leaves_map (f : κ → κ') (g : α → α') (t : ValueTree κ α) :
    leaves (map f g t) = (leaves t).map g := by
  induction t using ind with
  | hlist items ih =>
    rw [map_list, leaves_list, leaves_list, List.flatMap_map, List.map_flatMap]
    exact List.flatMap_congr ih
  | hdict fields ih =>
    rw [map_dict, leaves_dict, leaves_dict, List.flatMap_map, List.map_flatMap]
    exact List.flatMap_congr ih
  | _ => rfl

/-! ## Two readings -/

section Readings

variable {κ₁ κ₂ α₁ α₂ : Type} {f : κ → κ₁} {g : α → α₁} {f' : κ → κ₂} {g' : α → α₂}

theorem length_keys_of_map_eq {t u : ValueTree κ α} (h : map f g t = map f g u) :
    (keys t).length = (keys u).length := by
  have hkeys := congrArg (List.length ∘ keys) h
  simpa [keys_map] using hkeys

theorem length_leaves_of_map_eq {t u : ValueTree κ α} (h : map f g t = map f g u) :
    (leaves t).length = (leaves u).length := by
  have hleaves := congrArg (List.length ∘ leaves) h
  simpa [leaves_map] using hleaves

/-- What tells the parts of two sequences apart tells the sequences apart, if the parts line up. -/
theorem map_eq_iff_of_parts {β γ γ' : Type} {p : β → γ} {q : β → γ'} {k : β → List κ}
    {l : β → List α} (xs : List β)
    (hparts : ∀ x ∈ xs, ∀ y, p x = p y →
      (k x).length = (k y).length ∧ (l x).length = (l y).length
        ∧ (q x = q y ↔ (k x).map f' = (k y).map f' ∧ (l x).map g' = (l y).map g')) :
    ∀ ys : List β, xs.map p = ys.map p → (xs.map q = ys.map q ↔
      (xs.flatMap k).map f' = (ys.flatMap k).map f'
        ∧ (xs.flatMap l).map g' = (ys.flatMap l).map g') := by
  induction xs with
  | nil =>
    intro ys h
    rw [List.map_eq_nil_iff.mp h.symm]
    exact iff_of_true rfl ⟨rfl, rfl⟩
  | cons x xs ih =>
    rintro (_ | ⟨y, ys⟩) h
    · cases h
    · obtain ⟨hxy, hrest⟩ := List.cons.inj h
      obtain ⟨hkeys, hleaves, hiff⟩ := hparts x List.mem_cons_self y hxy
      have ih := ih (fun x hx => hparts x (List.mem_cons_of_mem _ hx)) ys hrest
      simp only [List.map_cons, List.cons.injEq, List.flatMap_cons, List.map_append, hiff, ih]
      constructor
      · rintro ⟨⟨hk, hl⟩, hks, hls⟩
        exact ⟨by rw [hk, hks], by rw [hl, hls]⟩
      · rintro ⟨hks, hls⟩
        obtain ⟨hk, hks⟩ := List.append_inj hks (by simpa using hkeys)
        obtain ⟨hl, hls⟩ := List.append_inj hls (by simpa using hleaves)
        exact ⟨⟨hk, hl⟩, hks, hls⟩

/-- Trees that are one in the first reading are one in the second exactly where their keys and
their leaves are. -/
theorem map_eq_iff_of_map_eq (t : ValueTree κ α) : ∀ u, map f g t = map f g u →
    (map f' g' t = map f' g' u ↔ (keys t).map f' = (keys u).map f'
      ∧ (leaves t).map g' = (leaves u).map g') := by
  induction t using ind with
  | hnull =>
    rintro (_ | b | a | items | fields) h
    · exact iff_of_true rfl ⟨rfl, rfl⟩
    all_goals simp [map] at h
  | hbool b =>
    rintro (_ | b' | a | items | fields) h
    · simp [map] at h
    · obtain rfl : b = b' := by simpa [map] using h
      exact iff_of_true rfl ⟨rfl, rfl⟩
    all_goals simp [map] at h
  | hleaf a =>
    rintro (_ | b | a' | items | fields) h
    · simp [map] at h
    · simp [map] at h
    · simp [map, keys, leaves]
    all_goals simp [map] at h
  | hlist items ih =>
    rintro (_ | b | a | items' | fields) h
    · simp [map] at h
    · simp [map] at h
    · simp [map] at h
    · simp only [map_list, list.injEq, keys_list, leaves_list] at h ⊢
      exact map_eq_iff_of_parts items (fun t ht u htu =>
        ⟨length_keys_of_map_eq htu, length_leaves_of_map_eq htu, ih t ht u htu⟩) items' h
    · simp [map] at h
  | hdict fields ih =>
    rintro (_ | b | a | items | fields') h
    · simp [map] at h
    · simp [map] at h
    · simp [map] at h
    · simp [map] at h
    · simp only [map_dict, dict.injEq, keys_dict, leaves_dict] at h ⊢
      refine map_eq_iff_of_parts fields (fun p hp q hpq => ?_) fields' h
      obtain ⟨-, hvalue⟩ := Prod.mk.inj hpq
      refine ⟨?_, length_leaves_of_map_eq hvalue, ?_⟩
      · simpa using length_keys_of_map_eq hvalue
      · rw [Prod.mk.injEq, ih p hp q.2 hvalue]
        simp only [List.map_cons, List.cons.injEq, and_assoc]

end Readings

/-! ## Sorting the keys -/

section SortKeys

variable [LinearOrder κ]

def sortFields {β : Type} (fields : List (κ × β)) : List (κ × β) :=
  fields.insertionSort fun a b => a.1 ≤ b.1

mutual

/-- `sort_keys=True`, at every depth. -/
def sortKeys : ValueTree κ α → ValueTree κ α
  | null => null
  | bool b => bool b
  | leaf a => leaf a
  | list items => list (sortKeysItems items)
  | dict fields => dict (sortFields (sortKeysFields fields))

def sortKeysItems : List (ValueTree κ α) → List (ValueTree κ α)
  | [] => []
  | item :: rest => sortKeys item :: sortKeysItems rest

def sortKeysFields : List (κ × ValueTree κ α) → List (κ × ValueTree κ α)
  | [] => []
  | (key, value) :: rest => (key, sortKeys value) :: sortKeysFields rest

end

theorem sortKeysItems_eq (items : List (ValueTree κ α)) :
    sortKeysItems items = items.map sortKeys := by
  induction items with
  | nil => rfl
  | cons item rest ih => rw [sortKeysItems, ih, List.map_cons]

theorem sortKeysFields_eq (fields : List (κ × ValueTree κ α)) :
    sortKeysFields fields = fields.map fun p => (p.1, sortKeys p.2) := by
  induction fields with
  | nil => rfl
  | cons p rest ih => rw [sortKeysFields, ih, List.map_cons]

/-- Changing the leaves does not change the order of the keys. -/
theorem sortKeys_map (g : α → α') (t : ValueTree κ α) :
    sortKeys (map id g t) = map id g (sortKeys t) := by
  induction t using ind with
  | hlist items ih =>
    simp only [map_list, sortKeys, sortKeysItems_eq, List.map_map, list.injEq]
    exact List.map_congr_left ih
  | hdict fields ih =>
    simp only [map_dict, sortKeys, sortKeysFields_eq, List.map_map, dict.injEq, sortFields, id_eq]
    rw [List.map_insertionSort _ (fun a b : κ × ValueTree κ α' => a.1 ≤ b.1) _ _
      fun _ _ _ _ => Iff.rfl, List.map_map]
    refine congrArg _ (List.map_congr_left fun p hp => ?_)
    simp only [Function.comp_apply, ih p hp]
  | _ => rfl

end SortKeys

/-! ## Writing a tree of texts -/

mutual

def toJson : ValueTree Text Text → JsonTree
  | null => .null
  | bool b => .bool b
  | leaf t => .str t
  | list items => .arr (toJsonItems items)
  | dict fields => .obj (toJsonFields fields)

def toJsonItems : List (ValueTree Text Text) → List JsonTree
  | [] => []
  | item :: rest => toJson item :: toJsonItems rest

def toJsonFields : List (Text × ValueTree Text Text) → List (Text × JsonTree)
  | [] => []
  | (key, value) :: rest => (key, toJson value) :: toJsonFields rest

end

/-- `json.dumps`, compact. -/
def dumps (t : ValueTree Text Text) : Text := (toJson t).dumps

/-- A field of an object. -/
def dumpsField (p : Text × ValueTree Text Text) : Text := JsonTree.literal p.1 ++ 58 :: dumps p.2

theorem dumps_list (items : List (ValueTree Text Text)) :
    dumps (list items) = 91 :: ([44].intercalate (items.map dumps) ++ [93]) := by
  have hitems : JsonTree.dumpsItems (toJsonItems items) = items.map dumps := by
    induction items with
    | nil => rfl
    | cons item rest ih => rw [toJsonItems, JsonTree.dumpsItems, ih, List.map_cons, dumps]
  rw [dumps, toJson, JsonTree.dumps, hitems]

theorem dumps_dict (fields : List (Text × ValueTree Text Text)) :
    dumps (dict fields) = 123 :: ([44].intercalate (fields.map dumpsField) ++ [125]) := by
  have hfields : JsonTree.dumpsFields (toJsonFields fields) = fields.map dumpsField := by
    induction fields with
    | nil => rfl
    | cons p rest ih => rw [toJsonFields, JsonTree.dumpsFields, ih, List.map_cons, dumpsField, dumps]
  rw [dumps, toJson, JsonTree.dumps, hfields]

/-- What a document begins with. -/
def opener : ValueTree Text Text → Nat
  | null => 110
  | bool true => 116
  | bool false => 102
  | leaf _ => 34
  | list _ => 91
  | dict _ => 123

theorem dumps_eq_cons (t : ValueTree Text Text) : ∃ rest, dumps t = opener t :: rest := by
  cases t with
  | null => exact ⟨text "ull", rfl⟩
  | bool b =>
    cases b with
    | true => exact ⟨text "rue", rfl⟩
    | false => exact ⟨text "alse", rfl⟩
  | leaf a => exact ⟨_, rfl⟩
  | list items => exact ⟨_, dumps_list items⟩
  | dict fields => exact ⟨_, dumps_dict fields⟩

theorem opener_ne (t : ValueTree Text Text) : opener t ≠ 93 := by
  unfold opener
  split <;> decide

theorem opener_eq {t u : ValueTree Text Text} {r s : Text} (h : dumps t ++ r = dumps u ++ s) :
    opener t = opener u := by
  obtain ⟨t', ht⟩ := dumps_eq_cons t
  obtain ⟨u', hu⟩ := dumps_eq_cons u
  rw [ht, hu] at h
  exact (List.cons.inj h).1

/-- The tree of the escaped texts. -/
def escapedTexts (t : ValueTree Text Text) : ValueTree Text Text :=
  map JsonTree.escaped JsonTree.escaped t

theorem escapedTexts_list (items : List (ValueTree Text Text)) :
    escapedTexts (list items) = list (items.map escapedTexts) := map_list _ _ items

theorem escapedTexts_dict (fields : List (Text × ValueTree Text Text)) :
    escapedTexts (dict fields)
      = dict (fields.map fun p => (JsonTree.escaped p.1, escapedTexts p.2)) := map_dict _ _ fields

/-- A document ends by itself, and shows its tree up to the escapes. -/
theorem dumps_append_inj (t : ValueTree Text Text) : ∀ (u : ValueTree Text Text) (r s : Text),
    dumps t ++ r = dumps u ++ s → escapedTexts t = escapedTexts u ∧ r = s := by
  induction t using ind with
  | hnull =>
    rintro (_ | (_ | _) | a | items | fields) r s h
    · exact ⟨rfl, List.append_cancel_left h⟩
    all_goals exact absurd (opener_eq h) (by simp [opener])
  | hbool b =>
    intro u r s h
    have hopen := opener_eq h
    cases b with
    | true =>
      obtain _ | (_ | _) | a | items | fields := u
      case bool.true => exact ⟨rfl, List.append_cancel_left h⟩
      all_goals exact absurd hopen (by simp [opener])
    | false =>
      obtain _ | (_ | _) | a | items | fields := u
      case bool.false => exact ⟨rfl, List.append_cancel_left h⟩
      all_goals exact absurd hopen (by simp [opener])
  | hleaf a =>
    rintro (_ | (_ | _) | b | items | fields) r s h
    case leaf =>
      obtain ⟨hab, hrs⟩ := JsonTree.literal_append_inj h
      exact ⟨congrArg leaf hab, hrs⟩
    all_goals exact absurd (opener_eq h) (by simp [opener])
  | hlist items ih =>
    rintro (_ | (_ | _) | b | items' | fields) r s h
    case list =>
      rw [dumps_list, dumps_list, List.cons_append, List.cons_append, List.append_assoc,
        List.append_assoc] at h
      have hparts := JsonTree.intercalate_append_inj (m := escapedTexts) (by decide)
        (fun t rest heq => ?_) (fun t heq => ?_) ih items' r s (List.cons.inj h).2
      · rw [escapedTexts_list, escapedTexts_list, list.injEq]
        exact hparts
      · obtain ⟨t', ht⟩ := dumps_eq_cons t
        rw [ht] at heq
        exact opener_ne t (List.cons.inj heq).1
      · obtain ⟨t', ht⟩ := dumps_eq_cons t
        rw [ht] at heq
        cases heq
    all_goals exact absurd (opener_eq h) (by simp [opener])
  | hdict fields ih =>
    rintro (_ | (_ | _) | b | items | fields') r s h
    case dict =>
      rw [dumps_dict, dumps_dict, List.cons_append, List.cons_append, List.append_assoc,
        List.append_assoc] at h
      have hparts := JsonTree.intercalate_append_inj
        (m := fun p => (JsonTree.escaped p.1, escapedTexts p.2)) (by decide)
        (fun p rest heq => ?_) (fun p heq => ?_) (fun p hp q r s hpq => ?_) fields' r s
        (List.cons.inj h).2
      · rw [escapedTexts_dict, escapedTexts_dict, dict.injEq]
        exact hparts
      · cases (List.cons.inj heq).1
      · cases heq
      · rw [dumpsField, dumpsField, List.append_assoc, List.append_assoc] at hpq
        obtain ⟨hkey, hrest⟩ := JsonTree.literal_append_inj hpq
        obtain ⟨hvalue, hrs⟩ := ih p hp q.2 r s (List.cons.inj hrest).2
        exact ⟨Prod.ext hkey hvalue, hrs⟩
    all_goals exact absurd (opener_eq h) (by simp [opener])

/-- The document depends on the escapes only. -/
theorem dumps_congr (t : ValueTree Text Text) :
    ∀ u, escapedTexts t = escapedTexts u → dumps t = dumps u := by
  induction t using ind with
  | hnull =>
    rintro (_ | b | a | items | fields) h
    · rfl
    all_goals simp [escapedTexts, map] at h
  | hbool b =>
    rintro (_ | b' | a | items | fields) h
    case bool =>
      obtain rfl : b = b' := by simpa [escapedTexts, map] using h
      rfl
    all_goals simp [escapedTexts, map] at h
  | hleaf a =>
    rintro (_ | b | a' | items | fields) h
    case leaf =>
      have hescaped : JsonTree.escaped a = JsonTree.escaped a' := by
        simpa [escapedTexts, map] using h
      exact JsonTree.literal_congr hescaped
    all_goals simp [escapedTexts, map] at h
  | hlist items ih =>
    rintro (_ | b | a | items' | fields) h
    case list =>
      rw [escapedTexts_list, escapedTexts_list, list.injEq] at h
      rw [dumps_list, dumps_list, map_eq_of_map_eq (fun x hx y _ => ih x hx y) h]
    all_goals simp [escapedTexts, map] at h
  | hdict fields ih =>
    rintro (_ | b | a | items | fields') h
    case dict =>
      rw [escapedTexts_dict, escapedTexts_dict, dict.injEq] at h
      rw [dumps_dict, dumps_dict]
      refine congrArg (fun parts => 123 :: ([44].intercalate parts ++ [125]))
        (map_eq_of_map_eq (fun p hp q _ hpq => ?_) h)
      obtain ⟨hkey, hvalue⟩ := Prod.mk.inj hpq
      rw [dumpsField, dumpsField, JsonTree.literal_congr hkey, ih p hp q.2 hvalue]
    all_goals simp [escapedTexts, map] at h

theorem dumps_eq_iff (t u : ValueTree Text Text) :
    dumps t = dumps u ↔ escapedTexts t = escapedTexts u := by
  refine ⟨fun h => ?_, dumps_congr t u⟩
  exact (dumps_append_inj t u [] [] (by rw [h])).1

end ValueTree

end Library
