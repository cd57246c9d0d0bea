/-
Programs that talk to a store through atomic statements.

A program is what it returns, or a statement and how it goes on with the
answer. `run` executes one alone; what other programs may do between its
statements is `Pool`'s subject. The rules are the usual ones: a run of a
sequence is a run after a run, an invariant of the statements a program can
issue is an invariant of its run, and programs that no store tells apart are
the same.
-/
import Mathlib.Logic.Basic

universe u v w

/-- A program over the statements `Q`, whose answer to `q` is an `R q`. -/
inductive Prog (Q : Type u) (R : Q → Type v) (α : Type w)
  | ret (a : α)
  | call (q : Q) (k : R q → Prog Q R α)

namespace Prog

variable {Q : Type u} {R : Q → Type v} {α β : Type w} {σ : Type*}

/-- Sequencing. -/
def bind : Prog Q R α → (α → Prog Q R β) → Prog Q R β
  | ret a, f => f a
  | call q k, f => call q fun r => (k r).bind f

instance : Monad (Prog Q R) where
  pure := ret
  bind := bind

/-- One statement. -/
def stmt (q : Q) : Prog Q R (R q) := call q ret

@[simp] theorem pure_eq (a : α) : (pure a : Prog Q R α) = ret a := rfl

@[simp] theorem ret_bind (a : α) (f : α → Prog Q R β) : (ret a : Prog Q R α) >>= f = f a := rfl

@[simp] theorem call_bind (q : Q) (k : R q → Prog Q R α) (f : α → Prog Q R β) :
    call q k >>= f = call q fun r => k r >>= f := rfl

theorem bind_assoc {γ : Type w} (p : Prog Q R α) (f : α → Prog Q R β) (g : β → Prog Q R γ) :
    p >>= f >>= g = p >>= fun a => f a >>= g := by
  induction p with
  | ret a => rfl
  | call q k ih => simp only [call_bind, ih]

theorem bind_ret (p : Prog Q R α) : p >>= ret = p := by
  induction p with
  | ret a => rfl
  | call q k ih => simp only [call_bind, ih]

theorem bind_congr {p : Prog Q R α} {f g : α → Prog Q R β} (h : ∀ a, f a = g a) : p >>= f = p >>= g := by
  rw [funext h]

/-- What two programs that start with one statement do after its answer. -/
theorem call_inj {q : Q} {k k' : R q → Prog Q R α} (h : call q k = call q k') (r : R q) : k r = k' r := by
  cases h
  rfl

/-- Programs that differ in what they return differ after an injective reading of it. -/
theorem bind_ret_inj {p p' : Prog Q R α} {f : α → β} (hf : ∀ a b, f a = f b → a = b)
    (h : (p >>= fun a => ret (f a)) = p' >>= fun a => ret (f a)) : p = p' := by
  induction p generalizing p' with
  | ret a =>
    cases p' with
    | ret b => rw [hf a b (Prog.ret.inj h)]
    | call q k => cases h
  | call q k ih =>
    cases p' with
    | ret b => cases h
    | call q' k' =>
      simp only [call_bind] at h
      obtain rfl : q = q' := (Prog.call.inj h).1
      exact congrArg (call q) (funext fun r => ih r (call_inj h r))

/-! ## Runs -/

section Run

variable (exec : (q : Q) → σ → R q × σ)

/-- The program alone, from a store. -/
def run : Prog Q R α → σ → α × σ
  | ret a, s => (a, s)
  | call q k, s => (k (exec q s).1).run (exec q s).2

@[simp] theorem run_ret (a : α) (s : σ) : (ret a : Prog Q R α).run exec s = (a, s) := rfl

@[simp] theorem run_call (q : Q) (k : R q → Prog Q R α) (s : σ) :
    (call q k).run exec s = (k (exec q s).1).run exec (exec q s).2 := rfl

@[simp] theorem run_bind (p : Prog Q R α) (f : α → Prog Q R β) (s : σ) :
    (p >>= f).run exec s = (f (p.run exec s).1).run exec (p.run exec s).2 := by
  induction p generalizing s with
  | ret a => rfl
  | call q k ih => simp only [call_bind, run_call, ih]

end Run

/-! ## What is seen of a program -/

section Observe

/-- The statements of a program, with their answers, and what it returns, when
`answers` says how the store answers a statement after those before it. -/
def observe : Prog Q R α → (List (Σ q, R q) → (q : Q) → R q) → List (Σ q, R q) × α
  | ret a, _ => ([], a)
  | call q k, answers =>
    let r := answers [] q
    let rest := (k r).observe fun past => answers (⟨q, r⟩ :: past)
    (⟨q, r⟩ :: rest.1, rest.2)

/-- Programs that no store tells apart are the same. -/
theorem eq_iff_observe [∀ q, Inhabited (R q)] {p p' : Prog Q R α} :
    (∀ answers, p.observe answers = p'.observe answers) ↔ p = p' := by
  refine ⟨fun h => ?_, fun h => h ▸ fun _ => rfl⟩
  induction p generalizing p' with
  | ret a =>
    cases p' with
    | ret a' => exact congrArg ret (Prod.mk.inj (h fun _ _ => default)).2
    | call q' k' => cases (Prod.mk.inj (h fun _ _ => default)).1
  | call q k ih =>
    cases p' with
    | ret a' => cases (Prod.mk.inj (h fun _ _ => default)).1
    | call q' k' =>
      obtain rfl : q = q' := by
        have hpast := (Prod.mk.inj (h fun _ _ => default)).1
        exact congrArg Sigma.fst (List.cons.inj hpast).1
      refine congrArg (call q) (funext fun r => ih r fun answers => ?_)
      -- A store that answers `r` first, and then as `answers`.
      classical
      have hr := h fun past q' => match past with
        | [] => if hq : q = q' then hq ▸ r else default
        | _ :: past => answers past q'
      simp only [observe, dite_true] at hr
      exact Prod.ext (List.cons.inj (Prod.mk.inj hr).1).2 (Prod.mk.inj hr).2

end Observe

/-! ## The statements a program can issue -/

/-- Every statement the program can issue, whatever the answers, is in `P`. -/
inductive Only (P : Q → Prop) : Prog Q R α → Prop
  | ret (a : α) : Only P (ret a)
  | call {q : Q} {k : R q → Prog Q R α} (hq : P q) (hk : ∀ r, Only P (k r)) : Only P (call q k)

theorem Only.bind {P : Q → Prop} {p : Prog Q R α} {f : α → Prog Q R β} (hp : Only P p)
    (hf : ∀ a, Only P (f a)) : Only P (p >>= f) := by
  induction hp with
  | ret a => exact hf a
  | call hq _ ih => exact .call hq ih

theorem Only.mono {P P' : Q → Prop} {p : Prog Q R α} (hp : Only P p) (h : ∀ q, P q → P' q) :
    Only P' p := by
  induction hp with
  | ret a => exact .ret a
  | call hq _ ih => exact .call (h _ hq) ih

theorem only_true (p : Prog Q R α) : Only (fun _ => True) p := by
  induction p with
  | ret a => exact .ret a
  | call q k ih => exact .call trivial ih

variable {exec : (q : Q) → σ → R q × σ}

/-- An invariant of the statements is an invariant of the run. -/
theorem Only.invariant {P : Q → Prop} {I : σ → Prop} {p : Prog Q R α} (hp : Only P p)
    (hexec : ∀ q s, P q → I s → I (exec q s).2) {s : σ} (hs : I s) : I (p.run exec s).2 := by
  induction hp generalizing s with
  | ret a => exact hs
  | call hq _ ih => exact ih _ (hexec _ _ hq hs)

end Prog
