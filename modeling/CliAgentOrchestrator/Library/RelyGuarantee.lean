import CliAgentOrchestrator.Library.Program

/-!
# Programs among others

A program whose operations are taken one at a time, with steps of others in between, is judged by
what those steps keep to. `Sat` reads a program as a tree: before each operation the others may
have moved the state along `rely`, the operation finds `pre`, the program answers for `guar`, and
`post` holds of its result from then on. `Meets` is about what a program is still going to do: on
every way down, as long as what it finds `fits`, it reaches a rest that is a `goal`, and takes no
operation to `avoid` before. `Always` holds of each rest that it comes to in this way.
-/

set_option autoImplicit false

namespace Library

namespace Program

variable {Op : Type} {Answer : Op → Type} {α β σ : Type}

/-- The operation that comes next. -/
def head? : Program Op Answer α → Option Op
  | done _ => none
  | step op _ => some op

/-- One operation taken. -/
def advance (exec : ∀ op, σ → Answer op × σ) : Program Op Answer α → σ → Program Op Answer α × σ
  | done result, s => (done result, s)
  | step op next, s => (next (exec op s).1, (exec op s).2)

variable (exec : ∀ op, σ → Answer op × σ)

/-- A program with the move of the others before each operation laid down. -/
def scripted : Program Op Answer α → List (σ → σ) → σ → Option (α × σ)
  | done result, _, s => some (result, s)
  | step _ _, [], _ => none
  | step op next, move :: moves, s =>
    (next (exec op (move s)).1).scripted moves (exec op (move s)).2

/-! ## What a program keeps to -/

section Sat

variable (rely : σ → σ → Prop) (pre guar : Op → σ → Prop)

/-- The program from a state that the others may move on along `rely`. -/
def Sat (post : α → σ → Prop) : Program Op Answer α → σ → Prop
  | done result, s => ∀ s', rely s s' → post result s'
  | step op next, s => ∀ s', rely s s' → pre op s' →
      guar op s' ∧ (next (exec op s').1).Sat post (exec op s').2

variable {exec rely pre guar}

theorem Sat.mono (htrans : ∀ a b c, rely a b → rely b c → rely a c) {post : α → σ → Prop}
    {p : Program Op Answer α} {s s' : σ} (h : p.Sat exec rely pre guar post s)
    (hrely : rely s s') : p.Sat exec rely pre guar post s' := by
  cases p with
  | _ => exact fun t ht => h t (htrans s s' t hrely ht)

theorem Sat.bind (hrefl : ∀ s, rely s s) {post : β → σ → Prop} {p : Program Op Answer α}
    {k : α → Program Op Answer β} {s : σ}
    (h : p.Sat exec rely pre guar (fun a s' => (k a).Sat exec rely pre guar post s') s) :
    (p >>= k).Sat exec rely pre guar post s := by
  show (p.bind k).Sat exec rely pre guar post s
  induction p generalizing s with
  | done result => exact h s (hrefl s)
  | step op next ih =>
    intro s' hrely hpre
    obtain ⟨hguar, hnext⟩ := h s' hrely hpre
    exact ⟨hguar, ih _ hnext⟩

theorem sat_call {op : Op} {post : Answer op → σ → Prop} {s : σ}
    (h : ∀ s', rely s s' → pre op s' → guar op s' ∧
      ∀ t, rely (exec op s').2 t → post (exec op s').1 t) :
    (call op : Program Op Answer (Answer op)).Sat exec rely pre guar post s := h

/-- A weaker end. -/
theorem Sat.imp {post post' : α → σ → Prop} {p : Program Op Answer α} {s : σ}
    (h : p.Sat exec rely pre guar post s) (himp : ∀ result s', post result s' → post' result s') :
    p.Sat exec rely pre guar post' s := by
  induction p generalizing s with
  | done result => exact fun s' hrely => himp _ _ (h s' hrely)
  | step op next ih =>
    intro s' hrely hpre
    obtain ⟨hguar, hnext⟩ := h s' hrely hpre
    exact ⟨hguar, ih _ hnext⟩

/-- Where the program's own operations move the state along `rely` too, so does all of it. -/
theorem Sat.since (hrefl : ∀ s, rely s s) (htrans : ∀ a b c, rely a b → rely b c → rely a c)
    (hown : ∀ op s, pre op s → guar op s → rely s (exec op s).2) {post : α → σ → Prop}
    {p : Program Op Answer α} {s : σ} (h : p.Sat exec rely pre guar post s) :
    p.Sat exec rely pre guar (fun result s' => rely s s' ∧ post result s') s := by
  have hfrom : ∀ s₀, rely s₀ s →
      p.Sat exec rely pre guar (fun result s' => rely s₀ s' ∧ post result s') s := by
    induction p generalizing s with
    | done result => exact fun s₀ h₀ s' hrely => ⟨htrans s₀ s s' h₀ hrely, h s' hrely⟩
    | step op next ih =>
      intro s₀ h₀ s' hrely hpre
      obtain ⟨hguar, hnext⟩ := h s' hrely hpre
      exact ⟨hguar, ih _ hnext s₀
        (htrans s₀ s' _ (htrans s₀ s s' h₀ hrely) (hown op s' hpre hguar))⟩
  exact hfrom s (hrefl s)

/-- What a program comes to on a script that the others may follow. -/
theorem Sat.scripted {post : α → σ → Prop} {p : Program Op Answer α} {moves : List (σ → σ)} {s : σ}
    (h : p.Sat exec rely pre guar post s) (hrefl : ∀ s, rely s s)
    (hmoves : ∀ move ∈ moves, ∀ s, rely s (move s) ∧ ∀ op, pre op (move s)) {result : α} {s' : σ}
    (hrun : p.scripted exec moves s = some (result, s')) : post result s' := by
  induction p generalizing moves s with
  | done result =>
    cases hrun
    exact h _ (hrefl _)
  | step op next ih =>
    cases moves with
    | nil => cases hrun
    | cons move moves =>
      obtain ⟨hmove, hrest⟩ := List.forall_mem_cons.mp hmoves
      exact ih _ (h _ (hmove s).1 ((hmove s).2 op)).2 hrest hrun

end Sat

/-! ## What a program is going to do -/

section Meets

variable (fits : Op → σ → Prop) (avoid : Op → Prop)

/-- Every way down comes to the goal. -/
def Meets (goal : Program Op Answer α → Prop) : Program Op Answer α → Prop
  | done result => goal (done result)
  | step op next => goal (step op next) ∨
      ¬ avoid op ∧ ∀ s, fits op s → (next (exec op s).1).Meets goal

variable {exec fits avoid}

/-- The first part ends, and the rest meets the goal from any of its results. -/
theorem Meets.bind {goal : Program Op Answer β → Prop} {p : Program Op Answer α}
    {k : α → Program Op Answer β}
    (h : p.Meets exec fits avoid
      fun q => ∃ a, q = done a ∧ (k a).Meets exec fits avoid goal) :
    (p >>= k).Meets exec fits avoid goal := by
  show (p.bind k).Meets exec fits avoid goal
  induction p with
  | done result =>
    obtain ⟨a, heq, ha⟩ := h
    cases heq
    exact ha
  | step op next ih =>
    obtain ⟨a, heq, -⟩ | ⟨havoid, hnext⟩ := h
    · cases heq
    · exact .inr ⟨havoid, fun s hs => ih _ (hnext s hs)⟩

theorem Meets.imp {goal goal' : Program Op Answer α → Prop} {p : Program Op Answer α}
    (h : p.Meets exec fits avoid goal) (himp : ∀ q, goal q → goal' q) :
    p.Meets exec fits avoid goal' := by
  induction p with
  | done result => exact himp _ h
  | step op next ih =>
    obtain hgoal | ⟨havoid, hnext⟩ := h
    · exact .inl (himp _ hgoal)
    · exact .inr ⟨havoid, fun s hs => ih _ (hnext s hs)⟩

/-- The operation is come to in the first part already. -/
theorem Meets.bind_left {op₀ : Op} {p : Program Op Answer α} {k : α → Program Op Answer β}
    (h : p.Meets exec fits avoid fun q => q.head? = some op₀) :
    (p >>= k).Meets exec fits avoid fun q => q.head? = some op₀ := by
  show (p.bind k).Meets exec fits avoid _
  induction p with
  | done result => cases h
  | step op next ih =>
    obtain hgoal | ⟨havoid, hnext⟩ := h
    · exact .inl hgoal
    · exact .inr ⟨havoid, fun s hs => ih _ (hnext s hs)⟩

end Meets

/-! ## Wherever a program is -/

section Always

variable (fits : Op → σ → Prop) (good : ∀ op, (Answer op → Program Op Answer α) → Prop)

/-- Wherever the program comes to, what is left of it is good. -/
def Always : Program Op Answer α → Prop
  | done _ => True
  | step op next => good op next ∧ ∀ s, fits op s → (next (exec op s).1).Always

variable {exec fits good}

theorem Always.of_all {P : Op → Prop} (hgood : ∀ op next, P op → good op next)
    {p : Program Op Answer α} (h : p.All P) : p.Always exec fits good := by
  induction p with
  | done result => trivial
  | step op next ih => exact ⟨hgood op next h.1, fun s _ => ih _ (h.2 _)⟩

end Always

end Program

end Library
