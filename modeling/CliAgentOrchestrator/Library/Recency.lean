import Mathlib.Data.List.Dedup
import Mathlib.Data.List.Induction

/-!
# A capped map that forgets the oldest write

A map kept as the list of its entries, oldest write first: a write moves its key to the end,
and what stands more than `cap` from the end is dropped. `get_build` says what such a map
answers in terms of the writes alone: the last write of a key, as long as fewer than `cap`
other keys were written after it.
-/

set_option autoImplicit false

namespace Library.Recency

variable {κ β : Type} [DecidableEq κ]

/-- The last `n` entries of a list. -/
def keepLast {α : Type} (n : Nat) (l : List α) : List α := l.drop (l.length - n)

/-- A write: the key's entry goes to the end, the oldest entries over the cap go. -/
def put (cap : Nat) (l : List (κ × β)) (k : κ) (v : β) : List (κ × β) :=
  keepLast cap (l.filter (fun e => decide (e.1 ≠ k)) ++ [(k, v)])

def get (l : List (κ × β)) (k : κ) : Option β := (l.find? fun e => decide (e.1 = k)).map Prod.snd

/-- The map a list of writes leaves. -/
def build (cap : Nat) (writes : List (κ × β)) : List (κ × β) :=
  writes.foldl (fun l e => put cap l e.1 e.2) []

/-- The last write of each key, in order. -/
def latest : List (κ × β) → List (κ × β)
  | [] => []
  | e :: rest => if e.1 ∈ rest.map Prod.fst then latest rest else e :: latest rest

/-- The write of a key that its map still answers. -/
def Survives (cap : Nat) (writes : List (κ × β)) (k : κ) (v : β) : Prop :=
  ∃ before after, writes = before ++ (k, v) :: after ∧ k ∉ after.map Prod.fst ∧
    (after.map Prod.fst).dedup.length < cap

/-! ## The last writes -/

theorem map_fst_latest (writes : List (κ × β)) :
    (latest writes).map Prod.fst = (writes.map Prod.fst).dedup := by
  induction writes with
  | nil => rfl
  | cons e rest ih =>
    rw [latest, List.map_cons]
    split
    · next h => rw [List.dedup_cons_of_mem h, ih]
    · next h => rw [List.dedup_cons_of_notMem h, List.map_cons, ih]

theorem nodup_latest (writes : List (κ × β)) : ((latest writes).map Prod.fst).Nodup := by
  rw [map_fst_latest]
  exact List.nodup_dedup _

theorem latest_concat (writes : List (κ × β)) (k : κ) (v : β) :
    latest (writes ++ [(k, v)]) =
      (latest writes).filter (fun e => decide (e.1 ≠ k)) ++ [(k, v)] := by
  induction writes with
  | nil => simp [latest]
  | cons e rest ih =>
    have hkeys : e.1 ∈ (rest ++ [(k, v)]).map Prod.fst ↔ e.1 ∈ rest.map Prod.fst ∨ e.1 = k := by
      simp
    rw [List.cons_append, latest, latest, ih]
    by_cases hrest : e.1 ∈ rest.map Prod.fst
    · rw [if_pos (hkeys.mpr (.inl hrest)), if_pos hrest]
    · by_cases hk : e.1 = k
      · rw [if_pos (hkeys.mpr (.inr hk)), if_neg hrest, List.filter_cons_of_neg (by simp [hk])]
      · have hnew : ¬ e.1 ∈ (rest ++ [(k, v)]).map Prod.fst := by
          rw [hkeys]
          exact not_or.mpr ⟨hrest, hk⟩
        rw [if_neg hnew, if_neg hrest, List.filter_cons_of_pos (by simpa using hk)]
        rfl

/-- The entry of a key among the last writes, with the keys written after it behind it. -/
theorem mem_latest_iff (writes : List (κ × β)) (k : κ) (v : β) (n : Nat) :
    (∃ before after, latest writes = before ++ (k, v) :: after ∧ after.length < n) ↔
      Survives n writes k v := by
  induction writes with
  | nil =>
    constructor
    · rintro ⟨before, after, h, -⟩
      simp [latest] at h
    · rintro ⟨before, after, h, -⟩
      simp at h
  | cons e rest ih =>
    rw [latest]
    by_cases hrest : e.1 ∈ rest.map Prod.fst
    · rw [if_pos hrest, ih]
      constructor
      · rintro ⟨before, after, rfl, hnot, hlen⟩
        exact ⟨e :: before, after, rfl, hnot, hlen⟩
      · rintro ⟨before, after, heq, hnot, hlen⟩
        cases before with
        | nil =>
          cases heq
          exact absurd hrest hnot
        | cons b before =>
          cases heq
          exact ⟨before, after, rfl, hnot, hlen⟩
    · rw [if_neg hrest]
      constructor
      · rintro ⟨before, after, heq, hlen⟩
        cases before with
        | nil =>
          cases heq
          refine ⟨[], rest, rfl, hrest, ?_⟩
          rwa [← map_fst_latest, List.length_map]
        | cons b before =>
          obtain ⟨-, heq⟩ := List.cons.inj heq
          obtain ⟨before', after', rfl, hnot, hlen'⟩ := ih.mp ⟨before, after, heq, hlen⟩
          exact ⟨e :: before', after', rfl, hnot, hlen'⟩
      · rintro ⟨before, after, heq, hnot, hlen⟩
        cases before with
        | nil =>
          cases heq
          refine ⟨[], latest rest, rfl, ?_⟩
          rwa [← map_fst_latest, List.length_map] at hlen
        | cons b before =>
          cases heq
          obtain ⟨before', after', heq', hlen'⟩ := ih.mpr ⟨before, after, rfl, hnot, hlen⟩
          exact ⟨e :: before', after', by rw [heq', List.cons_append], hlen'⟩

/-! ## The capped list -/

theorem keepLast_of_length_le {α : Type} {n : Nat} {l : List α} (h : l.length ≤ n) :
    keepLast n l = l := by
  rw [keepLast, Nat.sub_eq_zero_of_le h, List.drop_zero]

/-- What is kept does not look at what stands before enough entries. -/
theorem keepLast_append {α : Type} {n : Nat} (l : List α) {m : List α} (h : n ≤ m.length) :
    keepLast n (l ++ m) = keepLast n m := by
  have hsub : (l ++ m).length - n = l.length + (m.length - n) := by
    rw [List.length_append]
    omega
  rw [keepLast, hsub, ← List.drop_drop, List.drop_left, keepLast]

/-- What fits is kept. -/
theorem keepLast_append_of_length_le {α : Type} {n : Nat} (l : List α) {m : List α}
    (h : m.length ≤ n) : keepLast n (l ++ m) = keepLast (n - m.length) l ++ m := by
  have hsub : (l ++ m).length - n = l.length - (n - m.length) := by
    rw [List.length_append]
    omega
  rw [keepLast, hsub, List.drop_append_of_le_length (Nat.sub_le _ _), keepLast]

theorem exists_append_keepLast {α : Type} (n : Nat) (l : List α) :
    ∃ before, l = before ++ keepLast n l ∧ (before = [] ∨ n ≤ (keepLast n l).length) := by
  refine ⟨l.take (l.length - n), (List.take_append_drop _ _).symm, ?_⟩
  obtain hle | hlt := Nat.le_total l.length n
  · left
    rw [Nat.sub_eq_zero_of_le hle, List.take_zero]
  · right
    rw [keepLast, List.length_drop]
    omega

/-- A key stands in one entry, so taking it out drops one entry at most. -/
theorem length_le_length_filter {l : List (κ × β)} (hl : (l.map Prod.fst).Nodup) (k : κ) :
    l.length ≤ (l.filter fun e => decide (e.1 ≠ k)).length + 1 := by
  induction l with
  | nil => exact Nat.zero_le _
  | cons e rest ih =>
    rw [List.map_cons, List.nodup_cons] at hl
    by_cases hk : e.1 = k
    · have hall : rest.filter (fun e => decide (e.1 ≠ k)) = rest := by
        rw [List.filter_eq_self]
        intro f hf
        have hne : f.1 ≠ k := fun heq => hl.1 (hk.trans heq.symm ▸ List.mem_map_of_mem hf)
        simpa using hne
      have hdropped : (e :: rest).filter (fun e => decide (e.1 ≠ k)) = rest := by
        simpa [hk] using hall
      exact Nat.le_of_eq (by rw [hdropped, List.length_cons])
    · have hrest := ih hl.2
      rw [List.filter_cons_of_pos (by simpa using hk), List.length_cons, List.length_cons]
      omega

/-- A list may be cut before it grows. -/
theorem keepLast_keepLast_append {α : Type} (n : Nat) (l m : List α) :
    keepLast n (keepLast n l ++ m) = keepLast n (l ++ m) := by
  obtain ⟨before, hsplit, rfl | hlong⟩ := exists_append_keepLast n l
  · rw [List.nil_append] at hsplit
    rw [← hsplit]
  · have hlength : n ≤ (keepLast n l ++ m).length := by
      rw [List.length_append]
      omega
    calc keepLast n (keepLast n l ++ m)
        = keepLast n (before ++ (keepLast n l ++ m)) := (keepLast_append _ hlength).symm
      _ = keepLast n (l ++ m) := by rw [← List.append_assoc, ← hsplit]

/-- A write sees of the map only what the cap keeps of it. -/
theorem put_keepLast {cap : Nat} {l : List (κ × β)} (hl : (l.map Prod.fst).Nodup) (k : κ) (v : β) :
    put cap (keepLast cap l) k v = put cap l k v := by
  obtain ⟨before, hsplit, hlong⟩ := exists_append_keepLast cap l
  obtain rfl | hlong := hlong
  · rw [List.nil_append] at hsplit
    rw [← hsplit]
  · have hkept : ((keepLast cap l).map Prod.fst).Nodup := by
      rw [hsplit, List.map_append] at hl
      exact (List.nodup_append.mp hl).2.1
    have hone : cap ≤ ((keepLast cap l).filter (fun e => decide (e.1 ≠ k)) ++ [(k, v)]).length := by
      have hdrop := length_le_length_filter hkept k
      rw [List.length_append, List.length_singleton]
      omega
    rw [put, put]
    conv_rhs => rw [hsplit, List.filter_append, List.append_assoc, keepLast_append _ hone]

theorem build_concat (cap : Nat) (writes : List (κ × β)) (k : κ) (v : β) :
    build cap (writes ++ [(k, v)]) = put cap (build cap writes) k v := by
  rw [build, List.foldl_append]
  rfl

/-- The map is what the cap keeps of the last writes. -/
theorem build_eq (cap : Nat) (writes : List (κ × β)) :
    build cap writes = keepLast cap (latest writes) := by
  induction writes using List.reverseRecOn with
  | nil => exact (keepLast_of_length_le (Nat.zero_le _)).symm
  | append_singleton writes e ih =>
    rw [build_concat cap writes e.1 e.2, ih, put_keepLast (nodup_latest writes), put,
      ← latest_concat]

/-! ## Reads -/

theorem get_eq_some_iff {l : List (κ × β)} (hl : (l.map Prod.fst).Nodup) (k : κ) (v : β) :
    get l k = some v ↔ (k, v) ∈ l := by
  induction l with
  | nil => simp [get]
  | cons e rest ih =>
    rw [List.map_cons, List.nodup_cons] at hl
    by_cases hk : e.1 = k
    · have hrest : (k, v) ∉ rest := fun hmem => hl.1 (hk ▸ List.mem_map_of_mem hmem)
      have hget : get (e :: rest) k = some e.2 := by
        rw [get, List.find?_cons_of_pos (by simpa using hk), Option.map_some]
      rw [hget, List.mem_cons, or_iff_left hrest, ← hk]
      constructor
      · intro h
        rw [← Option.some.inj h]
      · intro h
        rw [← h]
    · have hget : get (e :: rest) k = get rest k := by
        rw [get, List.find?_cons_of_neg (by simpa using hk), get]
      have hhead : (k, v) ≠ e := fun h => hk (h ▸ rfl)
      rw [hget, ih hl.2, List.mem_cons, or_iff_right hhead]

theorem mem_keepLast_iff {α : Type} (n : Nat) (l : List α) (a : α) :
    a ∈ keepLast n l ↔ ∃ before after, l = before ++ a :: after ∧ after.length < n := by
  obtain ⟨front, hsplit, hlong⟩ := exists_append_keepLast n l
  constructor
  · intro h
    obtain ⟨mid, after, hkept⟩ := List.append_of_mem h
    refine ⟨front ++ mid, after, by rw [List.append_assoc, ← hkept, ← hsplit], ?_⟩
    have hlen : (keepLast n l).length ≤ n := by
      rw [keepLast, List.length_drop]
      omega
    rw [hkept, List.length_append, List.length_cons] at hlen
    omega
  · rintro ⟨before, after, rfl, hlen⟩
    have hfits : keepLast n (before ++ a :: after) =
        before.drop ((before ++ a :: after).length - n) ++ a :: after := by
      rw [keepLast, List.drop_append_of_le_length]
      rw [List.length_append, List.length_cons]
      omega
    rw [hfits]
    exact List.mem_append_right _ List.mem_cons_self

/-- A read answers the last write of its key, unless as many keys as the map holds were
written after it. -/
theorem get_build (cap : Nat) (writes : List (κ × β)) (k : κ) (v : β) :
    get (build cap writes) k = some v ↔ Survives cap writes k v := by
  have hkept : ((keepLast cap (latest writes)).map Prod.fst).Nodup := by
    obtain ⟨front, hsplit, -⟩ := exists_append_keepLast cap (latest writes)
    have hall := nodup_latest writes
    rw [hsplit, List.map_append] at hall
    exact (List.nodup_append.mp hall).2.1
  rw [build_eq, get_eq_some_iff hkept, mem_keepLast_iff, mem_latest_iff]

end Library.Recency
