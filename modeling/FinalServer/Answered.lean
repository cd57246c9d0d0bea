/-
What a program issues and returns, given what it is answered.

`Meets G A P` promises that every statement of a program is in `G` and that
what it returns is in `P`, as long as the answers are in `A`. A store whose
invariant gives such answers to such statements, and survives them, holds
the program to the promise.
-/
import FinalServer.Prog

universe u v w

namespace Prog

variable {Q : Type u} {R : Q → Type v} {α β : Type w} {σ : Type*}

/-- The statements are in `G` and what is returned is in `P`, if the answers are in `A`. -/
inductive Meets (G : Q → Prop) (A : (q : Q) → R q → Prop) (P : α → Prop) : Prog Q R α → Prop
  | ret {a : α} (h : P a) : Meets G A P (ret a)
  | call {q : Q} {k : R q → Prog Q R α} (hq : G q) (hk : ∀ r, A q r → Meets G A P (k r)) : Meets G A P (call q k)

variable {G : Q → Prop} {A : (q : Q) → R q → Prop} {P : α → Prop} {P' : β → Prop}

theorem Meets.bind {p : Prog Q R α} {f : α → Prog Q R β} (hp : Meets G A P p)
    (hf : ∀ a, P a → Meets G A P' (f a)) : Meets G A P' (p >>= f) := by
  induction hp with
  | ret h => exact hf _ h
  | call hq _ ih => exact .call hq ih

theorem Meets.mono {P' : α → Prop} {p : Prog Q R α} (hp : Meets G A P p) (h : ∀ a, P a → P' a) : Meets G A P' p := by
  induction hp with
  | ret ha => exact .ret (h _ ha)
  | call hq _ ih => exact .call hq ih

theorem Meets.stmt {q : Q} (hq : G q) : Meets G A (A q) (Prog.stmt q : Prog Q R (R q)) := .call hq fun _ hr => .ret hr

/-- A program of statements in `G`, of which nothing is asked. -/
theorem Meets.of_only {p : Prog Q R α} (hp : Only G p) : Meets G A (fun _ => True) p := by
  induction hp with
  | ret a => exact .ret trivial
  | call hq _ ih => exact .call hq fun r _ => ih r

/-- **The promise is kept in a run.** -/
theorem Meets.run {exec : (q : Q) → σ → R q × σ} {I : σ → Prop} {p : Prog Q R α} (hp : Meets G A P p)
    (hexec : ∀ q s, G q → I s → A q (exec q s).1 ∧ I (exec q s).2) {s : σ} (hs : I s) :
    P (p.run exec s).1 ∧ I (p.run exec s).2 := by
  induction hp generalizing s with
  | ret h => exact ⟨h, hs⟩
  | call hq _ ih =>
    obtain ⟨hans, hnext⟩ := hexec _ _ hq hs
    exact ih _ hans hnext

end Prog
