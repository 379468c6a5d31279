import CliAgentOrchestrator.Library.Decimal
import CliAgentOrchestrator.Library.Utf8
import CliAgentOrchestrator.Library.ValueTree

/-!
# The plan identifier

`services/plan_identifier.py`: nine components, each behind its length, are hashed. The frames give
every component back (`framed_eq_iff`), and a component gives back its tree up to the way leaves are
spelled: a number is written as a string, so it can face a string that spells it, and a number that
is not whole is rounded to six decimals, so it can face a different one (`framed_identifies_iff`).
-/

set_option autoImplicit false

namespace CliAgentOrchestrator.Workflow

open Library

/-! ## The bytes that are hashed -/

/-- An int or a finite float. -/
inductive PyNumber
  | int (n : Int)
  | float (x : FiniteFloat)

namespace PyNumber

def value : PyNumber → ℚ
  | int n => n
  | float x => x.value

/-- `_number` of a number.

SOURCE: services/plan_identifier.py:128-143 -/
def number : PyNumber → Text
  | int n => intText n
  | float x => if x.isInteger then intText x.toInt else x.fixed6

/-- Equal numbers are spelled alike. -/
theorem number_congr {m n : PyNumber} (h : m.value = n.value) : m.number = n.number := by
  have hwhole : ∀ (x : FiniteFloat) (k : Int), x.value = k → (float x).number = intText k := by
    intro x k hk
    have hint := FiniteFloat.isInteger_of_value hk
    have hvalue := FiniteFloat.value_of_isInteger hint
    rw [hk] at hvalue
    rw [number, if_pos hint, Int.cast_inj.mp hvalue]
  cases m with
  | int a =>
    cases n with
    | int b => rw [Int.cast_inj.mp h]
    | float y => exact (hwhole y a h.symm).symm
  | float x =>
    cases n with
    | int b => exact hwhole x b h
    | float y =>
      have h : x.value = y.value := h
      cases hx : x.isInteger with
      | true =>
        have hvalue := FiniteFloat.value_of_isInteger hx
        rw [hwhole x _ hvalue, hwhole y _ (h.symm.trans hvalue)]
      | false =>
        have hy : y.isInteger = false := by
          rw [Bool.eq_false_iff]
          intro hy
          have hvalue := FiniteFloat.value_of_isInteger hy
          rw [FiniteFloat.isInteger_of_value (h.trans hvalue)] at hx
          cases hx
        rw [number, number, hx, hy]
        exact FiniteFloat.fixed6_congr h hx

end PyNumber

/-- A decoded JSON value: its leaves are strings and numbers. -/
abbrev PlanValue := ValueTree Text (Text ⊕ PyNumber)

/-- SOURCE: services/plan_identifier.py:96-120 -/
structure PlanFields where
  sourceHash : Option Text
  inputs : PlanValue
  repoBaseline : PlanValue
  provider : Option Text
  model : Option Text
  profile : Option Text
  permissions : PlanValue
  limits : PlanValue
  retryPolicy : PlanValue

namespace PlanFields

/-- SOURCE: services/plan_identifier.py:63-70 -/
def notSupplied : Text := 1 :: text "not-supplied"

/-- SOURCE: services/plan_identifier.py:123-125 -/
def textOf (value : Option Text) : Text := value.getD notSupplied

/-- A leaf as a string. -/
def spelling : Text ⊕ PyNumber → Text
  | .inl t => t
  | .inr n => n.number

/-- SOURCE: services/plan_identifier.py:146-161 -/
def canonicalise (node : PlanValue) : ValueTree Text Text := node.map id spelling

/-- `structure` of the source, a keyword here.

SOURCE: services/plan_identifier.py:164-181 -/
def structureText (value : PlanValue) : Text := (canonicalise value).sortKeys.dumps

/-- SOURCE: services/plan_identifier.py:184-188 -/
def frame (component : Text) : List Nat :=
  utf8 (digits (utf8 component).length ++ [58]) ++ utf8 component

/-- SOURCE: services/plan_identifier.py:206-216 -/
def components (f : PlanFields) : List Text :=
  [textOf f.sourceHash, structureText f.inputs, structureText f.repoBaseline, textOf f.provider,
    textOf f.model, textOf f.profile, structureText f.permissions, structureText f.limits,
    structureText f.retryPolicy]

/-- The bytes that `compute` hashes.

SOURCE: services/plan_identifier.py:217-218 -/
def framed (f : PlanFields) : List Nat := f.components.flatMap frame

/-! ## Plans -/

/-- The scalars are not the mark of a missing one, and have a UTF-8 form. -/
def Plain (f : PlanFields) : Prop :=
  ∀ t ∈ f.sourceHash.toList ++ f.provider.toList ++ f.model.toList ++ f.profile.toList,
    t ≠ notSupplied ∧ Library.Encodable t

instance (f : PlanFields) : Decidable f.Plain := inferInstanceAs (Decidable (∀ t ∈ _, _))

/-- A leaf as a value. -/
def meaning : Text ⊕ PyNumber → Text ⊕ ℚ := Sum.map id PyNumber.value

/-- One value: the order of keys does not matter, and a number is its value. -/
def SameValue (v w : PlanValue) : Prop := v.sortKeys.map id meaning = w.sortKeys.map id meaning

/-- One value as far as keys and leaves are spelled. -/
def ReadsAlike (v w : PlanValue) : Prop :=
  v.sortKeys.map JsonTree.escaped (JsonTree.escaped ∘ spelling)
    = w.sortKeys.map JsonTree.escaped (JsonTree.escaped ∘ spelling)

/-- Under sorted keys, some key faces a different key, or some leaf a leaf of another value. -/
def Differs (v w : PlanValue) : Prop :=
  (∃ p ∈ v.sortKeys.keys.zip w.sortKeys.keys, p.1 ≠ p.2)
    ∨ ∃ p ∈ v.sortKeys.leaves.zip w.sortKeys.leaves, meaning p.1 ≠ meaning p.2

def SameScalars (f g : PlanFields) : Prop :=
  f.sourceHash = g.sourceHash ∧ f.provider = g.provider ∧ f.model = g.model
    ∧ f.profile = g.profile

/-- The structured fields of two plans, side by side. -/
def structures (f g : PlanFields) : List (PlanValue × PlanValue) :=
  [(f.inputs, g.inputs), (f.repoBaseline, g.repoBaseline), (f.permissions, g.permissions),
    (f.limits, g.limits), (f.retryPolicy, g.retryPolicy)]

/-- The same plan. -/
def Agree (f g : PlanFields) : Prop :=
  f.SameScalars g ∧ ∀ p ∈ f.structures g, SameValue p.1 p.2

/-- The plans have one shape and their keys and leaves are spelled alike, but two of them that face
each other are not the same. -/
def Confusable (f g : PlanFields) : Prop :=
  f.SameScalars g ∧ (∀ p ∈ f.structures g, ReadsAlike p.1 p.2)
    ∧ ∃ p ∈ f.structures g, Differs p.1 p.2

/-! ## One structured field -/

theorem structureText_eq_iff (v w : PlanValue) :
    structureText v = structureText w ↔ ReadsAlike v w := by
  have hescaped : ∀ v : PlanValue, (canonicalise v).sortKeys.escapedTexts
      = v.sortKeys.map JsonTree.escaped (JsonTree.escaped ∘ spelling) := by
    intro v
    rw [canonicalise, ValueTree.sortKeys_map, ValueTree.escapedTexts, ValueTree.map_map]
    rfl
  rw [structureText, structureText, ValueTree.dumps_eq_iff, hescaped, hescaped, ReadsAlike]

theorem map_eq_map_iff_zip {β γ : Type} {h : β → γ} {xs ys : List β}
    (hlength : xs.length = ys.length) :
    xs.map h = ys.map h ↔ ∀ p ∈ xs.zip ys, h p.1 = h p.2 := by
  induction xs generalizing ys with
  | nil =>
    rw [List.length_eq_zero_iff.mp hlength.symm]
    simp
  | cons x xs ih =>
    cases ys with
    | nil => cases hlength
    | cons y ys =>
      rw [List.zip_cons_cons, List.forall_mem_cons, ← ih (Nat.succ.inj hlength), List.map_cons,
        List.map_cons, List.cons.injEq]

/-- Values that are spelled alike are the same where nothing that faces each other differs. -/
theorem sameValue_iff_of_readsAlike {v w : PlanValue} (h : ReadsAlike v w) :
    SameValue v w ↔ ¬Differs v w := by
  have hkeys := ValueTree.length_keys_of_map_eq h
  have hleaves := ValueTree.length_leaves_of_map_eq h
  rw [SameValue, ValueTree.map_eq_iff_of_map_eq v.sortKeys w.sortKeys h, map_eq_map_iff_zip hkeys,
    map_eq_map_iff_zip hleaves, Differs, not_or]
  simp only [not_exists, not_and, ne_eq, not_not, id_eq]

theorem spelling_congr {a b : Text ⊕ PyNumber} (h : meaning a = meaning b) :
    spelling a = spelling b := by
  cases a with
  | inl s =>
    cases b with
    | inl t => exact Sum.inl.inj h
    | inr n => cases h
  | inr m =>
    cases b with
    | inl t => cases h
    | inr n => exact PyNumber.number_congr (Sum.inr.inj h)

theorem ReadsAlike.of_sameValue {v w : PlanValue} (h : SameValue v w) : ReadsAlike v w := by
  have hkeys : v.sortKeys.keys.map id = w.sortKeys.keys.map id := by
    rw [← ValueTree.keys_map id meaning, ← ValueTree.keys_map id meaning, h]
  have hleaves : v.sortKeys.leaves.map meaning = w.sortKeys.leaves.map meaning := by
    rw [← ValueTree.leaves_map id meaning, ← ValueTree.leaves_map id meaning, h]
  rw [ReadsAlike, ValueTree.map_eq_iff_of_map_eq v.sortKeys w.sortKeys h]
  constructor
  · exact map_eq_of_map_eq (fun _ _ _ _ hab => congrArg _ hab) hkeys
  · refine map_eq_of_map_eq (fun a _ b _ hab => ?_) hleaves
    exact congrArg JsonTree.escaped (spelling_congr hab)

/-! ## The whole plan -/

/-- A colon is no digit, and a digit is one byte. -/
theorem frame_eq (component : Text) :
    frame component = digits (utf8 component).length ++ 58 :: utf8 component := by
  rw [frame, utf8_ascii, List.append_assoc]
  · rfl
  · intro c hc
    obtain hc | hc := List.mem_append.mp hc
    · have := mem_digits hc
      omega
    · rw [List.mem_singleton.mp hc]
      decide

theorem frame_append_inj {a b : Text} {r s : List Nat} (h : frame a ++ r = frame b ++ s) :
    a = b ∧ r = s := by
  have hcolon : ∀ n, 58 ∉ digits n := by
    intro n hmem
    have := mem_digits hmem
    omega
  rw [frame_eq, frame_eq, List.append_assoc, List.append_assoc] at h
  obtain ⟨hlength, hrest⟩ := append_stop_inj (hcolon _) (hcolon _) h
  obtain ⟨hbytes, hrs⟩ := List.append_inj hrest (digits_injective hlength)
  exact ⟨utf8_injective hbytes, hrs⟩

theorem flatMap_frame_inj {xs ys : List Text} (hlength : xs.length = ys.length)
    (h : xs.flatMap frame = ys.flatMap frame) : xs = ys := by
  induction xs generalizing ys with
  | nil => exact (List.length_eq_zero_iff.mp hlength.symm).symm
  | cons x xs ih =>
    cases ys with
    | nil => cases hlength
    | cons y ys =>
      obtain ⟨rfl, hrest⟩ := frame_append_inj h
      rw [ih (Nat.succ.inj hlength) hrest]

theorem textOf_inj {a b : Option Text} (ha : ∀ t ∈ a, t ≠ notSupplied)
    (hb : ∀ t ∈ b, t ≠ notSupplied) : textOf a = textOf b ↔ a = b := by
  refine ⟨fun h => ?_, fun h => congrArg textOf h⟩
  cases a with
  | none =>
    cases b with
    | none => rfl
    | some b => exact absurd h.symm (hb b rfl)
  | some a =>
    cases b with
    | none => exact absurd h (ha a rfl)
    | some b => exact congrArg some h

variable {f g : PlanFields}

theorem Plain.ne_notSupplied (h : f.Plain) {a : Option Text}
    (ha : a ∈ [f.sourceHash, f.provider, f.model, f.profile]) : ∀ t ∈ a, t ≠ notSupplied := by
  intro t ht
  refine (h t ?_).1
  simp only [List.mem_cons, List.not_mem_nil, or_false] at ha
  obtain rfl | rfl | rfl | rfl := ha <;> simp [Option.mem_def.mp ht]

/-- The frames give back every component, and with it every field as far as it is spelled. -/
theorem framed_eq_iff (hf : f.Plain) (hg : g.Plain) :
    f.framed = g.framed ↔ f.SameScalars g ∧ ∀ p ∈ f.structures g, ReadsAlike p.1 p.2 := by
  have hcomponents : f.framed = g.framed ↔ f.components = g.components :=
    ⟨flatMap_frame_inj rfl, fun h => by rw [framed, framed, h]⟩
  have hscalar : ∀ {a b : Option Text}, a ∈ [f.sourceHash, f.provider, f.model, f.profile] →
      b ∈ [g.sourceHash, g.provider, g.model, g.profile] → (textOf a = textOf b ↔ a = b) :=
    fun ha hb => textOf_inj (hf.ne_notSupplied ha) (hg.ne_notSupplied hb)
  have h1 := hscalar (a := f.sourceHash) (b := g.sourceHash) (by simp) (by simp)
  have h2 := hscalar (a := f.provider) (b := g.provider) (by simp) (by simp)
  have h3 := hscalar (a := f.model) (b := g.model) (by simp) (by simp)
  have h4 := hscalar (a := f.profile) (b := g.profile) (by simp) (by simp)
  rw [hcomponents]
  simp only [components, List.cons.injEq, and_true, structureText_eq_iff, h1, h2, h3, h4,
    SameScalars, structures, List.forall_mem_cons, List.not_mem_nil, false_implies, implies_true]
  constructor
  · rintro ⟨hsource, hinputs, hbaseline, hprovider, hmodel, hprofile, hpermissions, hlimits, hretry⟩
    exact ⟨⟨hsource, hprovider, hmodel, hprofile⟩, hinputs, hbaseline, hpermissions, hlimits, hretry⟩
  · rintro ⟨⟨hsource, hprovider, hmodel, hprofile⟩, hinputs, hbaseline, hpermissions, hlimits, hretry⟩
    exact ⟨hsource, hinputs, hbaseline, hprovider, hmodel, hprofile, hpermissions, hlimits, hretry⟩

/-- The bytes identify the plan exactly where the two plans are not spelled alike with a key or a leaf
that faces a different one. -/
theorem framed_identifies_iff (f g : PlanFields) (hf : f.Plain) (hg : g.Plain) :
    (f.framed = g.framed ↔ f.Agree g) ↔ ¬f.Confusable g := by
  rw [framed_eq_iff hf hg, Agree, Confusable]
  constructor
  · rintro h ⟨hscalars, halike, p, hp, hdiffers⟩
    have hsame := (h.mp ⟨hscalars, halike⟩).2 p hp
    exact (sameValue_iff_of_readsAlike (halike p hp)).mp hsame hdiffers
  · intro h
    refine and_congr_right fun hscalars => ⟨fun halike p hp => ?_, fun hsame p hp => ?_⟩
    · refine (sameValue_iff_of_readsAlike (halike p hp)).mpr fun hdiffers => ?_
      exact h ⟨hscalars, halike, p, hp, hdiffers⟩
    · exact ReadsAlike.of_sameValue (hsame p hp)

/-- A plan with these inputs. -/
def planWith (inputs : PlanValue) : PlanFields where
  sourceHash := some (text "5f2b")
  inputs := inputs
  repoBaseline := .null
  provider := none
  model := none
  profile := none
  permissions := .list []
  limits := .dict [(text "timeout", .leaf (.inr (.int 600)))]
  retryPolicy := .null

def retries (n : Int) : PlanValue := .dict [(text "retries", .leaf (.inr (.int n)))]

/-- Three retries against four. -/
theorem framed_identifies_planWith :
    ((planWith (retries 3)).framed = (planWith (retries 4)).framed ↔
        (planWith (retries 3)).Agree (planWith (retries 4))) ↔
      ¬(planWith (retries 3)).Confusable (planWith (retries 4)) :=
  framed_identifies_iff _ _ (by decide) (by decide)

/-- The number 600 is hashed as the string "600" is. -/
theorem planWith_confused :
    ¬∀ f g : PlanFields, f.Plain → g.Plain → (f.framed = g.framed ↔ f.Agree g) := by
  intro h
  have hsame := (h (planWith (.leaf (.inr (.int 600)))) (planWith (.leaf (.inl (text "600"))))
    (by decide) (by decide)).mp (by decide +kernel)
  have hvalue : SameValue (.leaf (.inr (.int 600))) (.leaf (.inl (text "600"))) :=
    hsame.2 _ List.mem_cons_self
  have hleaf := ValueTree.leaf.inj hvalue
  cases hleaf

end PlanFields

end CliAgentOrchestrator.Workflow
