/-
Programs with a local array.

Beside its statements such a program reads and writes the entries of an
array of its own. `onArray` runs both; `accesses` are the indices that a run
reads and writes, in their order. A program of statements alone can be
`lift`ed: it leaves the array alone.
-/
import FinalServer.Prog
import Mathlib.Logic.Function.Basic

universe u v w

/-- A statement, or an access to the array. -/
inductive ArrayOp (Q : Type u) (V : Type v)
  | stmt (q : Q)
  | read (i : Nat)
  | write (i : Nat) (x : V)

namespace ArrayOp

variable {Q : Type u} {V : Type v} {R : Q → Type v} {σ : Type*}

/-- A read answers with the entry. -/
@[reducible] def Result (R : Q → Type v) : ArrayOp Q V → Type v
  | .stmt q => R q
  | .read _ => V
  | .write .. => PUnit

/-- The index of an access. -/
def index : ArrayOp Q V → Option Nat
  | .stmt _ => none
  | .read i | .write i _ => some i

/-- The accesses stay below a bound. -/
def Below (n : Nat) (o : ArrayOp Q V) : Prop := ∀ i ∈ o.index, i < n

/-- The array is kept beside the store. -/
def exec (exec : (q : Q) → σ → R q × σ) : (o : ArrayOp Q V) → (Nat → V) × σ → o.Result R × (Nat → V) × σ
  | .stmt q, s => ((exec q s.2).1, s.1, (exec q s.2).2)
  | .read i, s => (s.1 i, s)
  | .write i x, s => (⟨⟩, Function.update s.1 i x, s.2)

end ArrayOp

/-- A program with statements `Q` and an array of `V`. -/
abbrev ArrayProg (Q : Type u) (R : Q → Type v) (V : Type v) (α : Type w) := Prog (ArrayOp Q V) (ArrayOp.Result R) α

namespace Prog

variable {Q : Type u} {V : Type v} {R : Q → Type v} {α β : Type w} {σ : Type*}

/-- A program of statements alone. -/
def lift : Prog Q R α → ArrayProg Q R V α
  | ret a => ret a
  | call q k => call (.stmt q) fun r => (k r).lift

/-- The program alone, from an array and a store. -/
def onArray (exec : (q : Q) → σ → R q × σ) (p : ArrayProg Q R V α) (s : (Nat → V) × σ) : α × (Nat → V) × σ :=
  p.run (ArrayOp.exec exec) s

/-- The indices a run accesses. -/
def accesses (exec : (q : Q) → σ → R q × σ) : ArrayProg Q R V α → (Nat → V) × σ → List Nat
  | ret _, _ => []
  | call o k, s => o.index.toList ++ (k (ArrayOp.exec exec o s).1).accesses exec (ArrayOp.exec exec o s).2

section Run

variable {exec : (q : Q) → σ → R q × σ} {s : (Nat → V) × σ}

@[simp] theorem onArray_ret (a : α) : (ret a : ArrayProg Q R V α).onArray exec s = (a, s) := rfl

@[simp] theorem onArray_bind (p : ArrayProg Q R V α) (f : α → ArrayProg Q R V β) :
    (p >>= f).onArray exec s = (f (p.onArray exec s).1).onArray exec (p.onArray exec s).2 := run_bind _ _ _ _

@[simp] theorem onArray_lift (p : Prog Q R α) :
    (p.lift : ArrayProg Q R V α).onArray exec s = ((p.run exec s.2).1, s.1, (p.run exec s.2).2) := by
  induction p generalizing s with
  | ret a => rfl
  | call q k ih => exact ih _

theorem accesses_bind (p : ArrayProg Q R V α) (f : α → ArrayProg Q R V β) :
    (p >>= f).accesses exec s =
      p.accesses exec s ++ (f (p.onArray exec s).1).accesses exec (p.onArray exec s).2 := by
  induction p generalizing s with
  | ret a => rfl
  | call o k ih =>
    simp only [call_bind, accesses, ih, List.append_assoc]
    rfl

theorem only_lift {n : Nat} (p : Prog Q R α) : Only (ArrayOp.Below n) (p.lift : ArrayProg Q R V α) := by
  induction p with
  | ret a => exact .ret a
  | call q k ih => exact .call (fun i hi => by cases hi) ih

/-- What bounds every access a program can make bounds those of a run. -/
theorem Only.accesses_lt {n : Nat} {p : ArrayProg Q R V α} (hp : Only (ArrayOp.Below n) p) :
    ∀ i ∈ p.accesses exec s, i < n := by
  induction hp generalizing s with
  | ret a => intro i hi; cases hi
  | @call o k ho _ ih =>
    intro i hi
    rcases List.mem_append.mp hi with hi | hi
    · exact ho i (by simpa using hi)
    · exact ih _ i hi

end Run

end Prog
