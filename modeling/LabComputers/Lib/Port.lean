import Mathlib.Data.Int.Notation
import Mathlib.Data.Nat.Notation
import Mathlib.Tactic.SplitIfs

/-!
# Port programs

A driver talks to its device through single port accesses.  A `Prog α` is such a driver: a tree
that either returns a value or performs one port access and continues with the device's reply.
The tree fixes which accesses are made and in which order, and leaves open what answers them:

* `Prog.exec` answers the accesses from a stream of replies, and `Prog.trace` records them;
* `Prog.serve` lets a device answer them, which changes with each access;
* a concurrent device answers one access at a time, through the constructor `Prog.io`, and may
  change between two of them.

`Prog.Avoids op p` says that `p` never performs an access satisfying `op`, and `Prog.Metered` relates the
value of a program to the number of its reads.
-/

namespace Port

/-- What one port access returns: the result code of the call and the word that was read. -/
structure Reply where
  res : ℤ
  val : UInt32
  deriving DecidableEq, Repr

/-- A port access. -/
inductive Op where
  | inb (port : ℕ)
  | outb (port : ℕ) (val : UInt32)
  deriving DecidableEq, Repr

/-- A program over port accesses that returns an `α`. -/
inductive Prog (α : Type) where
  | ret (a : α)
  | io (op : Op) (k : Reply → Prog α)

namespace Prog

variable {α β : Type}

/-- Run `p`, then continue with its value. -/
def bind : Prog α → (α → Prog β) → Prog β
  | ret a, f => f a
  | io op k, f => io op fun r => (k r).bind f

instance : Monad Prog where
  pure := ret
  bind := bind

@[simp] theorem pure_eq_ret (a : α) : (pure a : Prog α) = ret a := rfl

@[simp] theorem ret_bind (a : α) (f : α → Prog β) : ret a >>= f = f a := rfl

@[simp] theorem io_bind (op : Op) (k : Reply → Prog α) (f : α → Prog β) :
    io op k >>= f = io op fun r => k r >>= f := rfl

/-- Answer the accesses of a program with successive replies; the replies left over are returned
with the value. -/
def exec : Prog α → (ℕ → Reply) → α × (ℕ → Reply)
  | ret a, rs => (a, rs)
  | io _ k, rs => (k (rs 0)).exec fun n => rs (n + 1)

@[simp] theorem exec_ret (a : α) (rs : ℕ → Reply) : (ret a).exec rs = (a, rs) := rfl

@[simp] theorem exec_io (op : Op) (k : Reply → Prog α) (rs : ℕ → Reply) :
    (io op k).exec rs = (k (rs 0)).exec fun n => rs (n + 1) := rfl

@[simp] theorem exec_ite (c : Prop) [Decidable c] (p q : Prog α) (rs : ℕ → Reply) :
    (if c then p else q).exec rs = if c then p.exec rs else q.exec rs := by
  split_ifs <;> rfl

/-- The value a program returns on a stream of replies. -/
def value (p : Prog α) (rs : ℕ → Reply) : α := (p.exec rs).1

theorem exec_bind (p : Prog α) (f : α → Prog β) (rs : ℕ → Reply) :
    (p >>= f).exec rs = (f (p.exec rs).1).exec (p.exec rs).2 := by
  induction p generalizing rs with
  | ret a => rfl
  | io op k ih => exact ih (rs 0) fun n => rs (n + 1)

/-- The accesses a program makes on a stream of replies, each with its reply. -/
def trace : Prog α → (ℕ → Reply) → List (Op × Reply)
  | ret _, _ => []
  | io op k, rs => (op, rs 0) :: (k (rs 0)).trace fun n => rs (n + 1)

@[simp] theorem trace_ret (a : α) (rs : ℕ → Reply) : (ret a).trace rs = [] := rfl

@[simp] theorem trace_io (op : Op) (k : Reply → Prog α) (rs : ℕ → Reply) :
    (io op k).trace rs = (op, rs 0) :: (k (rs 0)).trace fun n => rs (n + 1) := rfl

@[simp] theorem trace_ite (c : Prop) [Decidable c] (p q : Prog α) (rs : ℕ → Reply) :
    (if c then p else q).trace rs = if c then p.trace rs else q.trace rs := by
  split_ifs <;> rfl

theorem trace_bind (p : Prog α) (f : α → Prog β) (rs : ℕ → Reply) :
    (p >>= f).trace rs = p.trace rs ++ (f (p.exec rs).1).trace (p.exec rs).2 := by
  induction p generalizing rs with
  | ret a => rfl
  | io op k ih => exact congrArg _ (ih (rs 0) fun n => rs (n + 1))

/-- Run a program on a device: the value it returns, and the device after it. -/
def serve {δ : Type} (answer : δ → Op → Reply × δ) : Prog α → δ → α × δ
  | ret a, d => (a, d)
  | io op k, d => (k (answer d op).1).serve answer (answer d op).2

section Serve

variable {δ : Type} (answer : δ → Op → Reply × δ)

@[simp] theorem serve_ret (a : α) (d : δ) : (ret a).serve answer d = (a, d) := rfl

@[simp] theorem serve_io (op : Op) (k : Reply → Prog α) (d : δ) :
    (io op k).serve answer d = (k (answer d op).1).serve answer (answer d op).2 := rfl

theorem serve_bind (p : Prog α) (f : α → Prog β) (d : δ) :
    (p >>= f).serve answer d = (f (p.serve answer d).1).serve answer (p.serve answer d).2 := by
  induction p generalizing d with
  | ret a => rfl
  | io op k ih => exact ih (answer d op).1 (answer d op).2

end Serve

/-- The number of reads that a program makes on a stream of replies. -/
def reads : Prog α → (ℕ → Reply) → ℕ
  | ret _, _ => 0
  | io (.inb _) k, rs => ((k (rs 0)).reads fun n => rs (n + 1)) + 1
  | io (.outb _ _) k, rs => (k (rs 0)).reads fun n => rs (n + 1)

/-- Whatever is replied, the value of the program and the number of its reads, counted on from `n`,
satisfy `post`. -/
def Metered (post : α → ℕ → Prop) (n : ℕ) : Prog α → Prop
  | ret a => post a n
  | io (.inb _) k => ∀ r, (k r).Metered post (n + 1)
  | io (.outb _ _) k => ∀ r, (k r).Metered post n

section Metered

variable {post post' : α → ℕ → Prop} {n : ℕ}

theorem Metered.value {p : Prog α} (h : p.Metered post n) (rs : ℕ → Reply) :
    post (p.value rs) (n + p.reads rs) := by
  induction p generalizing n rs with
  | ret a => exact h
  | io op k ih =>
    cases op with
    | inb port =>
      have rest := ih (rs 0) (h (rs 0)) fun n => rs (n + 1)
      rw [Nat.add_right_comm, Nat.add_assoc] at rest
      exact rest
    | outb port val => exact ih (rs 0) (h (rs 0)) fun n => rs (n + 1)

theorem Metered.mono {p : Prog α} (h : p.Metered post n) (weaker : ∀ a n, post a n → post' a n) :
    p.Metered post' n := by
  induction p generalizing n with
  | ret a => exact weaker a n h
  | io op k ih => cases op <;> exact fun r => ih r (h r)

theorem Metered.bind {p : Prog α} {f : α → Prog β} {post : β → ℕ → Prop}
    (h : p.Metered (fun a n => (f a).Metered post n) n) : (p >>= f).Metered post n := by
  induction p generalizing n with
  | ret a => exact h
  | io op k ih => cases op <;> exact fun r => ih r (h r)

end Metered

/-- No access of the program satisfies `op`. -/
def Avoids (op : Op → Prop) : Prog α → Prop
  | ret _ => True
  | io o k => ¬ op o ∧ ∀ r, (k r).Avoids op

end Prog

end Port
