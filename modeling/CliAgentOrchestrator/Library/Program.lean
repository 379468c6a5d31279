import CliAgentOrchestrator.Library.Machine

/-!
# Programs of atomic operations

A caller that goes to a shared state several times, each time for one atomic operation, is a
`Program`: a tree of operations, whose next one may depend on every answer so far. The operations
are data, so what a program is about to do can be read off it. `alone` runs one with nobody else
about; many of them are run by a machine whose state holds what is left of each, one operation of
one of them at a time.

`All` is a condition on every operation a program may come to, whatever is answered.
-/

set_option autoImplicit false

namespace Library

/-- Done with a result, or one more operation. -/
inductive Program (Op : Type) (Answer : Op → Type) (α : Type)
  | done (result : α)
  | step (op : Op) (next : Answer op → Program Op Answer α)

namespace Program

variable {Op : Type} {Answer : Op → Type} {α β σ : Type}

protected def bind : Program Op Answer α → (α → Program Op Answer β) → Program Op Answer β
  | done result, k => k result
  | step op next, k => step op fun answer => (next answer).bind k

instance : Monad (Program Op Answer) where
  pure := done
  bind := Program.bind

theorem bind_assoc {γ : Type} (p : Program Op Answer α) (k : α → Program Op Answer β)
    (k' : β → Program Op Answer γ) : (p >>= k) >>= k' = p >>= fun a => k a >>= k' := by
  show (p.bind k).bind k' = p.bind fun a => (k a).bind k'
  induction p with
  | done result => rfl
  | step op next ih => exact congrArg (step op) (funext ih)

def call (op : Op) : Program Op Answer (Answer op) := step op done

/-- The result, and the state behind it, with nobody else about. -/
def alone (exec : ∀ op, σ → Answer op × σ) : Program Op Answer α → σ → α × σ
  | done result, s => (result, s)
  | step op next, s => (next (exec op s).1).alone exec (exec op s).2

section Alone

variable {exec : ∀ op, σ → Answer op × σ}

theorem alone_call (op : Op) (s : σ) :
    (call op : Program Op Answer (Answer op)).alone exec s = exec op s := rfl

@[simp] theorem alone_bind (p : Program Op Answer α) (k : α → Program Op Answer β) (s : σ) :
    (p >>= k).alone exec s = (k (p.alone exec s).1).alone exec (p.alone exec s).2 := by
  show (p.bind k).alone exec s = _
  induction p generalizing s with
  | done result => rfl
  | step op next ih => exact ih (exec op s).1 (exec op s).2

theorem alone_ite (c : Prop) [Decidable c] (p q : Program Op Answer α) (s : σ) :
    (if c then p else q).alone exec s = if c then p.alone exec s else q.alone exec s := by
  split <;> rfl

end Alone

/-- Every operation the program may come to meets `P`. -/
def All (P : Op → Prop) : Program Op Answer α → Prop
  | done _ => True
  | step op next => P op ∧ ∀ answer, (next answer).All P

section All

variable {P : Op → Prop}

theorem all_pure (result : α) : (pure result : Program Op Answer α).All P := trivial

theorem all_call {op : Op} (h : P op) : (call op : Program Op Answer (Answer op)).All P :=
  ⟨h, fun _ => trivial⟩

theorem all_bind {p : Program Op Answer α} {k : α → Program Op Answer β} (h : p.All P)
    (hk : ∀ result, (k result).All P) : (p >>= k).All P := by
  show (p.bind k).All P
  induction p with
  | done result => exact hk result
  | step op next ih => exact ⟨h.1, fun answer => ih answer (h.2 answer)⟩

/-- An operation and what follows its answer. -/
theorem all_step {op : Op} {k : Answer op → Program Op Answer β} (h : P op)
    (hk : ∀ answer, (k answer).All P) : (call op >>= k).All P := ⟨h, hk⟩

theorem All.imp {P' : Op → Prop} {p : Program Op Answer α} (h : p.All P)
    (himp : ∀ op, P op → P' op) : p.All P' := by
  induction p with
  | done result => trivial
  | step op next ih => exact ⟨himp op h.1, fun answer => ih answer (h.2 answer)⟩

end All

end Program

end Library
