/-
Programs that keep a log.

Beside its statements such a program notes what it does. `notes` is the log
of a run; `forget` is the program without it, which does the same to the
store. A program of statements alone can be lifted: it notes nothing.
-/
import FinalServer.Prog

universe u v w

/-- A statement, or a note. -/
inductive LogOp (Q : Type u) (L : Type v)
  | stmt (q : Q)
  | note (x : L)

namespace LogOp

variable {Q : Type u} {L : Type v} {R : Q → Type v}

/-- A note has no answer. -/
@[reducible] def Result (R : Q → Type v) : LogOp Q L → Type v
  | .stmt q => R q
  | .note _ => PUnit

/-- What is noted is in `P`. -/
def Notes (P : L → Prop) : LogOp Q L → Prop
  | .stmt _ => True
  | .note x => P x

end LogOp

/-- A program with statements `Q` and a log of `L`. -/
abbrev LogProg (Q : Type u) (R : Q → Type v) (L : Type v) (α : Type w) := Prog (LogOp Q L) (LogOp.Result R) α

namespace Prog

variable {Q : Type u} {L : Type v} {R : Q → Type v} {α β : Type w} {σ : Type*}

/-- A program of statements alone. -/
def unlogged : Prog Q R α → LogProg Q R L α
  | ret a => ret a
  | call q k => call (.stmt q) fun r => (k r).unlogged

/-- One note. -/
def note (x : L) : LogProg Q R L PUnit := call (.note x) ret

/-- The program without its log. -/
def forget : LogProg Q R L α → Prog Q R α
  | ret a => ret a
  | call (.stmt q) k => call q fun r => (k r).forget
  | call (.note _) k => (k ⟨⟩).forget

/-- The log of a run. -/
def notes (exec : (q : Q) → σ → R q × σ) : LogProg Q R L α → σ → List L
  | ret _, _ => []
  | call (.stmt q) k, s => (k (exec q s).1).notes exec (exec q s).2
  | call (.note x) k, s => x :: (k ⟨⟩).notes exec s

@[simp] theorem forget_ret (a : α) : (ret a : LogProg Q R L α).forget = ret a := rfl

@[simp] theorem forget_note (x : L) : (note x : LogProg Q R L PUnit).forget = ret ⟨⟩ := rfl

@[simp] theorem forget_bind (p : LogProg Q R L α) (f : α → LogProg Q R L β) :
    (p >>= f).forget = p.forget >>= fun a => (f a).forget := by
  induction p with
  | ret a => rfl
  | call o k ih =>
    cases o with
    | stmt q => exact congrArg (call q) (funext ih)
    | note x => exact ih ⟨⟩

@[simp] theorem forget_unlogged (p : Prog Q R α) : (p.unlogged : LogProg Q R L α).forget = p := by
  induction p with
  | ret a => rfl
  | call q k ih => exact congrArg (call q) (funext ih)

/-- A call of what keeps no log, and what follows it. -/
theorem forget_unlogged_bind {p : Prog Q R α} {f : α → LogProg Q R L β} {g : α → Prog Q R β}
    (h : ∀ a, (f a).forget = g a) : (p.unlogged >>= f).forget = p >>= g := by
  rw [forget_bind, forget_unlogged]
  exact bind_congr h

section Run

variable {exec : (q : Q) → σ → R q × σ} {s : σ}

@[simp] theorem notes_ret (a : α) : (ret a : LogProg Q R L α).notes exec s = [] := rfl

@[simp] theorem notes_note (x : L) : (note x : LogProg Q R L PUnit).notes exec s = [x] := rfl

theorem notes_bind (p : LogProg Q R L α) (f : α → LogProg Q R L β) : (p >>= f).notes exec s =
    p.notes exec s ++ (f (p.forget.run exec s).1).notes exec (p.forget.run exec s).2 := by
  induction p generalizing s with
  | ret a => rfl
  | call o k ih =>
    cases o with
    | stmt q => exact ih _
    | note x => exact congrArg (x :: ·) (ih ⟨⟩)

@[simp] theorem notes_unlogged (p : Prog Q R α) : (p.unlogged : LogProg Q R L α).notes exec s = [] := by
  induction p generalizing s with
  | ret a => rfl
  | call q k ih => exact ih _

end Run

variable {P : L → Prop}

theorem only_unlogged (p : Prog Q R α) : Only (LogOp.Notes P) (p.unlogged : LogProg Q R L α) := by
  induction p with
  | ret a => exact .ret a
  | call q k ih => exact .call trivial ih

theorem only_note {x : L} (hx : P x) : Only (LogOp.Notes P) (note x : LogProg Q R L PUnit) := .call hx .ret

/-- What a program can note at all bounds the log of every run. -/
theorem Only.notes {exec : (q : Q) → σ → R q × σ} {p : LogProg Q R L α} (hp : Only (LogOp.Notes P) p) (s : σ) :
    ∀ x ∈ p.notes exec s, P x := by
  induction hp generalizing s with
  | ret a => intro x hx; cases hx
  | @call o k ho _ ih =>
    cases o with
    | stmt q => exact ih _ _
    | note y =>
      intro x hx
      rcases List.mem_cons.mp hx with rfl | hx
      · exact ho
      · exact ih ⟨⟩ s x hx

end Prog
