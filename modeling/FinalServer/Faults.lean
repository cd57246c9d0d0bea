/-
Programs whose statements may fail.

A statement that fails answers with its refusal and has no effect. Which
ones fail is a sequence, one entry a statement. A program that returns a
value of `P` only after refusals is `AllOrNothing`: when it returns one, the
store is as it was, whatever failed.
-/
import FinalServer.Prog

universe u v w

namespace Prog

variable {Q : Type u} {R : Q → Type v} {α β : Type w} {σ : Type*}

/-- A store whose next statement fails where the sequence says so. -/
def faulty (exec : (q : Q) → σ → R q × σ) (refused : (q : Q) → R q) (q : Q) (s : (Nat → Bool) × σ) :
    R q × (Nat → Bool) × σ :=
  if s.1 0 then (refused q, fun n => s.1 (n + 1), s.2)
  else ((exec q s.2).1, fun n => s.1 (n + 1), (exec q s.2).2)

/-- With a sequence that fails nothing the program runs as it does alone. -/
theorem run_faulty_never (exec : (q : Q) → σ → R q × σ) (refused : (q : Q) → R q) (p : Prog Q R α) (s : σ) :
    p.run (faulty exec refused) (fun _ => false, s) = ((p.run exec s).1, fun _ => false, (p.run exec s).2) := by
  induction p generalizing s with
  | ret a => rfl
  | call q k ih => exact ih _ _

/-! ## What a program can return -/

/-- Whatever the answers, the program returns a value of `P`. -/
inductive Returns (P : α → Prop) : Prog Q R α → Prop
  | ret {a : α} (ha : P a) : Returns P (ret a)
  | call {q : Q} {k : R q → Prog Q R α} (hk : ∀ r, Returns P (k r)) : Returns P (call q k)

theorem Returns.bind {P : β → Prop} {f : α → Prog Q R β} (p : Prog Q R α) (hf : ∀ a, Returns P (f a)) :
    Returns P (p >>= f) := by
  induction p with
  | ret a => exact hf a
  | call q k ih => exact .call ih

theorem Returns.ite {P : α → Prop} {c : Prop} [Decidable c] {p q : Prog Q R α} (hp : Returns P p) (hq : Returns P q) :
    Returns P (if c then p else q) := by
  split
  · exact hp
  · exact hq

theorem Returns.run {P : α → Prop} {p : Prog Q R α} {exec : (q : Q) → σ → R q × σ} (h : Returns P p) (s : σ) :
    P (p.run exec s).1 := by
  induction h generalizing s with
  | ret ha => exact ha
  | call _ ih => exact ih _ _

/-! ## All or nothing -/

/-- Before the program returns a value of `P` it issues statements that only
read, and others that are refused. -/
inductive AllOrNothing (refused : (q : Q) → R q) (reads : Q → Prop) (P : α → Prop) : Prog Q R α → Prop
  | ret (a : α) : AllOrNothing refused reads P (ret a)
  | never {p : Prog Q R α} (h : Returns (fun a => ¬ P a) p) : AllOrNothing refused reads P p
  | read {q : Q} {k : R q → Prog Q R α} (hq : reads q) (hk : ∀ r, AllOrNothing refused reads P (k r)) :
      AllOrNothing refused reads P (call q k)
  | write {q : Q} {k : R q → Prog Q R α} (hrefused : AllOrNothing refused reads P (k (refused q)))
      (hdone : ∀ r, r ≠ refused q → Returns (fun a => ¬ P a) (k r)) : AllOrNothing refused reads P (call q k)

variable {refused : (q : Q) → R q} {reads : Q → Prop}

theorem AllOrNothing.bind {P' : α → Prop} {P : β → Prop} {p : Prog Q R α} {f : α → Prog Q R β}
    (hp : AllOrNothing refused reads P' p) (hf : ∀ a, P' a → AllOrNothing refused reads P (f a))
    (hnot : ∀ a, ¬ P' a → Returns (fun b => ¬ P b) (f a)) : AllOrNothing refused reads P (p >>= f) := by
  have hany : ∀ p : Prog Q R α, Returns (fun a => ¬ P' a) p → Returns (fun b => ¬ P b) (p >>= f) := by
    intro p hp
    induction hp with
    | ret ha => exact hnot _ ha
    | call _ ih => exact .call ih
  induction hp with
  | ret a =>
    by_cases ha : P' a
    · exact hf a ha
    · exact .never (hnot a ha)
  | never h => exact .never (hany _ h)
  | read hq _ ih => exact .read hq ih
  | write _ hdone ih => exact .write ih fun r hr => hany _ (hdone r hr)

/-- A statement that writes, and what follows it. -/
theorem AllOrNothing.write_bind {R : Q → Type w} {refused : (q : Q) → R q} {q : Q} {P : β → Prop}
    {f : R q → Prog Q R β}
    (hrefused : AllOrNothing refused reads P (f (refused q)))
    (hdone : ∀ r, r ≠ refused q → Returns (fun b => ¬ P b) (f r)) :
    AllOrNothing refused reads P (stmt q >>= f) := .write hrefused hdone

/-- A program that only reads, and what follows it. -/
theorem AllOrNothing.reads_bind {P : β → Prop} {p : Prog Q R α} {f : α → Prog Q R β} (hp : Only reads p)
    (hf : ∀ a, AllOrNothing refused reads P (f a)) : AllOrNothing refused reads P (p >>= f) := by
  induction hp with
  | ret a => exact hf a
  | call hq _ ih => exact .read hq ih

theorem AllOrNothing.of_only {P : α → Prop} {p : Prog Q R α} (hp : Only reads p) :
    AllOrNothing refused reads P p := by
  induction hp with
  | ret a => exact .ret a
  | call hq _ ih => exact .read hq ih

/-- A program that is all or nothing and returns a value of `P` has changed
nothing, whichever statements failed. -/
theorem AllOrNothing.run_faulty {exec : (q : Q) → σ → R q × σ}
    (hreads : ∀ q s, reads q → (exec q s).2 = s) (hrefused : ∀ q s, (exec q s).1 = refused q → (exec q s).2 = s)
    {P : α → Prop} {p : Prog Q R α} (hp : AllOrNothing refused reads P p) (s : (Nat → Bool) × σ)
    (hP : P (p.run (faulty exec refused) s).1) : (p.run (faulty exec refused) s).2.2 = s.2 := by
  induction hp generalizing s with
  | ret a => rfl
  | never h => exact absurd hP (h.run s)
  | @read q k hq _ ih =>
    have hsame : (faulty exec refused q s).2.2 = s.2 := by
      unfold faulty
      split
      · rfl
      · exact hreads q s.2 hq
    exact (ih _ _ hP).trans hsame
  | @write q k _ hdone ih =>
    rw [run_call] at hP ⊢
    by_cases hr : (faulty exec refused q s).1 = refused q
    · have hsame : (faulty exec refused q s).2.2 = s.2 := by
        unfold faulty at hr ⊢
        split at hr
        next hfail => rw [if_pos hfail]
        next hfail =>
          rw [if_neg hfail]
          exact hrefused q s.2 hr
      rw [hr] at hP ⊢
      exact (ih _ hP).trans hsame
    · exact absurd hP ((hdone _ hr).run _)

end Prog
