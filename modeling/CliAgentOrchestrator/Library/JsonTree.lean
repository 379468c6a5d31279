import CliAgentOrchestrator.Library.Text

/-!
# JSON documents

A decoded document as a tree over code points, so that a lone surrogate, which a text may hold
and UTF-8 may not, has its place. The tree is compared by structure (`same_iff`), asked for its
members and its truth, and written in the compact ASCII form (`dumps`).
-/

set_option autoImplicit false

namespace Library

/-- A decoded JSON value. A number is the token it is written as; the keys of an object are
distinct. -/
inductive JsonTree
  | null
  | bool (value : Bool)
  | num (token : Text)
  | str (content : Text)
  | arr (items : List JsonTree)
  | obj (fields : List (Text × JsonTree))

namespace JsonTree

/-! ## Comparing -/

mutual

/-- Whether two trees are one. -/
def same : JsonTree → JsonTree → Bool
  | null, null => true
  | bool a, bool b => a == b
  | num a, num b => a == b
  | str a, str b => a == b
  | arr a, arr b => sameItems a b
  | obj a, obj b => sameFields a b
  | _, _ => false

def sameItems : List JsonTree → List JsonTree → Bool
  | [], [] => true
  | a :: as, b :: bs => same a b && sameItems as bs
  | _, _ => false

def sameFields : List (Text × JsonTree) → List (Text × JsonTree) → Bool
  | [], [] => true
  | (k, a) :: as, (l, b) :: bs => (k == l && same a b) && sameFields as bs
  | _, _ => false

end

mutual

theorem same_iff (a b : JsonTree) : same a b = true ↔ a = b := by
  cases a with
  | arr as =>
    cases b with
    | arr bs => rw [same, sameItems_iff as bs, arr.injEq]
    | _ => simp [same]
  | obj as =>
    cases b with
    | obj bs => rw [same, sameFields_iff as bs, obj.injEq]
    | _ => simp [same]
  | _ => cases b <;> simp [same]

theorem sameItems_iff (as bs : List JsonTree) : sameItems as bs = true ↔ as = bs := by
  cases as with
  | nil => cases bs <;> simp [sameItems]
  | cons a as =>
    cases bs with
    | nil => simp [sameItems]
    | cons b bs =>
      rw [sameItems, Bool.and_eq_true, same_iff a b, sameItems_iff as bs, List.cons.injEq]

theorem sameFields_iff (as bs : List (Text × JsonTree)) :
    sameFields as bs = true ↔ as = bs := by
  cases as with
  | nil => cases bs <;> simp [sameFields]
  | cons a as =>
    cases bs with
    | nil => simp [sameFields]
    | cons b bs =>
      obtain ⟨k, a⟩ := a
      obtain ⟨l, b⟩ := b
      rw [sameFields, Bool.and_eq_true, Bool.and_eq_true, beq_iff_eq, same_iff a b,
        sameFields_iff as bs, List.cons.injEq, Prod.mk.injEq]

end

instance : DecidableEq JsonTree := fun a b => decidable_of_iff _ (same_iff a b)

/-! ## Asking -/

/-- The value of a member; nothing has members but an object. -/
def member (key : Text) : JsonTree → Option JsonTree
  | obj fields => fields.lookup key
  | _ => none

/-- The truth of a value. -/
def truthy : JsonTree → Bool
  | null => false
  | bool value => value
  | num token => !([text "0", text "0.0", text "-0.0"].contains token)
  | str content => !content.isEmpty
  | arr items => !items.isEmpty
  | obj fields => !fields.isEmpty

/-! ## Writing -/

/-- A code unit as `\u` and four hexadecimal digits. -/
def unitEscape (n : Nat) : Text :=
  [92, 117] ++ [n / 4096 % 16, n / 256 % 16, n / 16 % 16, n % 16].map fun d =>
    (Nat.digitChar d).toNat

/-- One character of a literal: printable ASCII as it is but for the quote and the backslash, the
short escapes where they exist, everything else as its UTF-16 code units. -/
def escapeCode (c : Nat) : Text :=
  if c = 34 ∨ c = 92 then [92, c]
  else if c = 8 then [92, 98]
  else if c = 9 then [92, 116]
  else if c = 10 then [92, 110]
  else if c = 12 then [92, 102]
  else if c = 13 then [92, 114]
  else if 32 ≤ c ∧ c ≤ 126 then [c]
  else if c < 0x10000 then unitEscape c
  else unitEscape (0xD800 + (c - 0x10000) / 0x400) ++ unitEscape (0xDC00 + (c - 0x10000) % 0x400)

/-- A text between quotes. -/
def literal (t : Text) : Text := 34 :: (t.flatMap escapeCode ++ [34])

mutual

/-- The compact form: `,` and `:` with nothing around them. -/
def dumps : JsonTree → Text
  | null => text "null"
  | bool true => text "true"
  | bool false => text "false"
  | num token => token
  | str content => literal content
  | arr items => 91 :: ([44].intercalate (dumpsItems items) ++ [93])
  | obj fields => 123 :: ([44].intercalate (dumpsFields fields) ++ [125])

def dumpsItems : List JsonTree → List Text
  | [] => []
  | item :: rest => dumps item :: dumpsItems rest

def dumpsFields : List (Text × JsonTree) → List Text
  | [] => []
  | (key, value) :: rest => (literal key ++ 58 :: dumps value) :: dumpsFields rest

end

/-! ## Where a literal ends -/

/-- What stands between the quotes of a literal. -/
def escaped (t : Text) : Text := t.flatMap escapeCode

/-- The body of a literal and what follows its closing quote. -/
def closing : Text → Option (Text × Text)
  | [] => none
  | [92] => none
  | 34 :: rest => some ([], rest)
  | 92 :: c :: rest => (closing rest).map fun (body, after) => (92 :: c :: body, after)
  | c :: rest => (closing rest).map fun (body, after) => (c :: body, after)

theorem closing_backslash (c : Nat) (rest : Text) :
    closing (92 :: c :: rest) = (closing rest).map fun (body, after) => (92 :: c :: body, after) := by
  rw [closing]

theorem closing_cons {c : Nat} (hquote : c ≠ 34) (hslash : c ≠ 92) (rest : Text) :
    closing (c :: rest) = (closing rest).map fun (body, after) => (c :: body, after) := by
  rw [closing] <;> simp [hquote, hslash]

/-- A hexadecimal digit is no quote and no backslash. -/
theorem hexDigit_plain (n : Nat) :
    (Nat.digitChar (n % 16)).toNat ≠ 34 ∧ (Nat.digitChar (n % 16)).toNat ≠ 92 := by
  have hall : ∀ d < 16, (Nat.digitChar d).toNat ≠ 34 ∧ (Nat.digitChar d).toNat ≠ 92 := by decide
  exact hall (n % 16) (Nat.mod_lt n (by omega))

theorem closing_unitEscape (n : Nat) (rest : Text) :
    closing (unitEscape n ++ rest)
      = (closing rest).map fun (body, after) => (unitEscape n ++ body, after) := by
  have hplain : ∀ m, ∀ rest, closing ((Nat.digitChar (m % 16)).toNat :: rest)
      = (closing rest).map fun (body, after) => ((Nat.digitChar (m % 16)).toNat :: body, after) :=
    fun m rest => closing_cons (hexDigit_plain m).1 (hexDigit_plain m).2 rest
  simp only [unitEscape, List.map_cons, List.map_nil, List.cons_append, List.nil_append,
    closing_backslash, hplain, Option.map_map]
  rfl

theorem closing_escapeCode (c : Nat) (rest : Text) :
    closing (escapeCode c ++ rest)
      = (closing rest).map fun (body, after) => (escapeCode c ++ body, after) := by
  unfold escapeCode
  split_ifs with h1 h2 h3 h4 h5 h6 h7 h8
  · exact closing_backslash c rest
  · exact closing_backslash 98 rest
  · exact closing_backslash 116 rest
  · exact closing_backslash 110 rest
  · exact closing_backslash 102 rest
  · exact closing_backslash 114 rest
  · exact closing_cons (fun h => h1 (.inl h)) (fun h => h1 (.inr h)) rest
  · exact closing_unitEscape c rest
  · rw [List.append_assoc, closing_unitEscape, closing_unitEscape, Option.map_map]
    simp only [List.append_assoc]
    rfl

theorem closing_escaped (t rest : Text) : closing (escaped t ++ 34 :: rest) = some (escaped t, rest) := by
  induction t with
  | nil => rw [escaped, List.flatMap_nil, List.nil_append, closing]
  | cons c t ih =>
    rw [escaped, List.flatMap_cons, List.append_assoc, closing_escapeCode, ← escaped, ih]
    rfl

/-- A literal shows its escaped text and ends where it closes. -/
theorem literal_append_inj {a b r s : Text} (h : literal a ++ r = literal b ++ s) :
    escaped a = escaped b ∧ r = s := by
  have hbody : escaped a ++ 34 :: r = escaped b ++ 34 :: s := by
    simpa [literal, escaped] using h
  have hclose := closing_escaped a r
  rw [hbody, closing_escaped b s] at hclose
  obtain ⟨hab, hrs⟩ := Prod.mk.inj (Option.some.inj hclose)
  exact ⟨hab.symm, hrs.symm⟩

theorem literal_congr {a b : Text} (h : escaped a = escaped b) : literal a = literal b := by
  rw [literal, literal, ← escaped, ← escaped, h]

/-! ## Where a sequence ends -/

/-- What follows the first part of a sequence. -/
def closeAfter (close : Nat) (rest : List Text) (after : Text) : Text :=
  match rest with
  | [] => close :: after
  | x :: rest => 44 :: ([44].intercalate (x :: rest) ++ close :: after)

theorem intercalate_cons_append (x : Text) (rest : List Text) (close : Nat) (after : Text) :
    [44].intercalate (x :: rest) ++ close :: after = x ++ closeAfter close rest after := by
  cases rest with
  | nil => rw [List.intercalate_singleton, closeAfter]
  | cons y rest =>
    rw [List.intercalate_cons_cons, closeAfter, List.append_assoc, List.append_assoc]
    rfl

theorem append_ne_close {x : Text} {close : Nat} (hbegin : ∀ rest, x ≠ close :: rest) (hne : x ≠ [])
    (after rest : Text) : x ++ after ≠ close :: rest := by
  obtain ⟨c, x, rfl⟩ := List.exists_cons_of_ne_nil hne
  intro h
  cases h
  exact hbegin x rfl

/-- Sequences whose parts end by themselves, and do not begin with the closing bracket, end at
it. -/
theorem intercalate_append_inj {β γ : Type} {p : β → Text} {m : β → γ} {close : Nat} {xs : List β}
    (hclose : close ≠ 44) (hbegin : ∀ x rest, p x ≠ close :: rest) (hne : ∀ x, p x ≠ [])
    (hparts : ∀ x ∈ xs, ∀ y r s, p x ++ r = p y ++ s → m x = m y ∧ r = s) :
    ∀ (ys : List β) (r s : Text),
      [44].intercalate (xs.map p) ++ close :: r = [44].intercalate (ys.map p) ++ close :: s →
        xs.map m = ys.map m ∧ r = s := by
  induction xs with
  | nil =>
    rintro (_ | ⟨y, ys⟩) r s h
    · exact ⟨rfl, (List.cons.inj h).2⟩
    · rw [List.map_cons, intercalate_cons_append] at h
      exact absurd h.symm (append_ne_close (hbegin y) (hne y) _ r)
  | cons x xs ih =>
    have ih := ih fun x hx => hparts x (List.mem_cons_of_mem _ hx)
    rintro (_ | ⟨y, ys⟩) r s h
    · rw [List.map_cons, intercalate_cons_append] at h
      exact absurd h (append_ne_close (hbegin x) (hne x) _ s)
    · rw [List.map_cons, List.map_cons, intercalate_cons_append, intercalate_cons_append] at h
      obtain ⟨hxy, hrest⟩ := hparts x List.mem_cons_self y _ _ h
      have hgoal : xs.map m = ys.map m ∧ r = s := by
        cases xs with
        | nil =>
          cases ys with
          | nil => exact ⟨rfl, (List.cons.inj hrest).2⟩
          | cons y' ys => exact absurd (List.cons.inj hrest).1 hclose
        | cons x' xs =>
          cases ys with
          | nil => exact absurd (List.cons.inj hrest).1.symm hclose
          | cons y' ys => exact ih (y' :: ys) r s (List.cons.inj hrest).2
      exact ⟨by rw [List.map_cons, List.map_cons, hxy, hgoal.1], hgoal.2⟩

end JsonTree

end Library
