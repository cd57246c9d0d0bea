/-
A process among others, and the same process alone.

Two programs are alike if their statements are paired, and paired answers
lead to programs that are alike. A process whose statements the others do
not disturb runs in a pool as a program like it runs alone: `Along.alone`
carries a relation between the store of the pool and that of the lone run
through every schedule.
-/
import FinalServer.Answered
import FinalServer.Pool

universe u v w

namespace Prog

variable {Q : Type u} {R : Q → Type v} {α β : Type w} {σ : Type*}

/-- Statements related by `S`, whose answers related by `A` lead to programs
alike, and in the end values related by `E`. -/
inductive Alike (S : Q → Q → Prop) (A : (q q' : Q) → R q → R q' → Prop) (E : α → α → Prop) :
    Prog Q R α → Prog Q R α → Prop
  | ret {a a' : α} (h : E a a') : Alike S A E (ret a) (ret a')
  | call {q q' : Q} {k : R q → Prog Q R α} {k' : R q' → Prog Q R α} (hq : S q q')
      (hk : ∀ r r', A q q' r r' → Alike S A E (k r) (k' r')) : Alike S A E (call q k) (call q' k')

variable {S : Q → Q → Prop} {A : (q q' : Q) → R q → R q' → Prop} {E : α → α → Prop} {F : β → β → Prop}

theorem Alike.bind {p p' : Prog Q R α} {f f' : α → Prog Q R β} (hp : Alike S A E p p')
    (hf : ∀ a a', E a a' → Alike S A F (f a) (f' a')) : Alike S A F (p >>= f) (p' >>= f') := by
  induction hp with
  | ret h => exact hf _ _ h
  | call hq _ ih => exact .call hq ih

end Prog

section Result

variable {Q : Type u} {R : Q → Type v} {α : Type w}

/-- What the process has returned, if it has. -/
def Process.result (p : Process Q R α) : Option α :=
  match p.rest with
  | .ret a => some a
  | .call _ _ => none

theorem Process.rest_of_result {p : Process Q R α} {a : α} (h : p.result = some a) : p.rest = .ret a := by
  rw [result] at h
  cases hrest : p.rest with
  | ret b =>
    rw [hrest] at h
    rw [Option.some.inj h]
  | call q k =>
    rw [hrest] at h
    cases h

end Result

namespace Pool

open Prog (Alike Meets)

variable {ι σ : Type*} {Q : Type u} {R : Q → Type v} {α : Type w} [DecidableEq ι] {exec : (q : Q) → σ → R q × σ}
  {S : Q → Q → Prop} {A : (q q' : Q) → R q → R q' → Prop} {E : α → α → Prop} {G : Q → Prop}
  {B : (q : Q) → R q → Prop} {V : σ → σ → Prop} {ok : σ → Q → Prop}

/-- The statements of the others keep the relation of the stores, and those of
the process itself, paired with the lone ones, keep it and get paired answers;
all where `ok` admits the statement. -/
structure Undisturbed (exec : (q : Q) → σ → R q × σ) (S : Q → Q → Prop) (A : (q q' : Q) → R q → R q' → Prop)
    (G : Q → Prop) (B : (q : Q) → R q → Prop) (V : σ → σ → Prop) (ok : σ → Q → Prop) : Prop where
  own : ∀ q q' s s', S q q' → ok s q → V s s' → A q q' (exec q s).1 (exec q' s').1 ∧ V (exec q s).2 (exec q' s').2
  other : ∀ q s s', G q → ok s q → V s s' → B q (exec q s).1 ∧ V (exec q s).2 s'

/-- A process of the pool and what is left of the lone run of a program like it. -/
structure Beside (S : Q → Q → Prop) (A : (q q' : Q) → R q → R q' → Prop) (E : α → α → Prop) (G : Q → Prop)
    (B : (q : Q) → R q → Prop) (V : σ → σ → Prop) (P : Pool ι σ Q R α) (i : ι) (lone : Prog Q R α) (s : σ) :
    Prop where
  alike : Alike S A E (P.process i).rest lone
  stores : V P.store s
  others : ∀ j, j ≠ i → Meets G B (fun _ => True) (P.process j).rest

/-- A step of the pool is a statement of the lone run, or none. -/
theorem Beside.step (hund : Undisturbed exec S A G B V ok) {P : Pool ι σ Q R α} {i : ι} {lone : Prog Q R α} {s : σ}
    (h : Beside S A E G B V P i lone s) (j : ι) (hok : Allows (fun s _ q => ok s q) P j) :
    ∃ lone' s', Beside S A E G B V (P.step exec j) i lone' s' ∧ lone'.run exec s' = lone.run exec s := by
  obtain ⟨halike, hstores, hothers⟩ := h
  rw [Allows] at hok
  rw [Pool.step]
  split
  · exact ⟨lone, s, ⟨halike, hstores, hothers⟩, rfl⟩
  next q k hrest =>
  rw [hrest] at hok
  by_cases hj : j = i
  · subst hj
    rw [hrest] at halike
    cases halike with
    | @call _ q' _ k' hq hk =>
      obtain ⟨hans, hnext⟩ := hund.own q q' P.store s hq hok hstores
      refine ⟨k' (exec q' s).1, (exec q' s).2, ⟨?_, hnext, fun l hl => ?_⟩, rfl⟩
      · simpa only [Function.update_self] using hk _ _ hans
      · simpa only [Function.update_of_ne hl] using hothers l hl
  · have hmeets := hothers j hj
    rw [hrest] at hmeets
    cases hmeets with
    | call hq hk =>
      obtain ⟨hans, hnext⟩ := hund.other q P.store s hq hok hstores
      refine ⟨lone, s, ⟨?_, hnext, fun l hl => ?_⟩, rfl⟩
      · simpa only [Function.update_of_ne (Ne.symm hj)] using halike
      · by_cases hlj : l = j
        · subst hlj
          simpa only [Function.update_self] using hk _ hans
        · simpa only [Function.update_of_ne hlj] using hothers l hl

/-- **Rule of isolation.** Whatever the schedule, a process that has returned
has returned what the program like it returns alone, and the stores are related. -/
theorem Along.alone (hund : Undisturbed exec S A G B V ok) {P : Pool ι σ Q R α} {schedule : List ι}
    (hok : Run.Along (Pool.step exec) (Allows fun s _ q => ok s q) P schedule) {i : ι} {lone : Prog Q R α} {s : σ}
    (h : Beside S A E G B V P i lone s) {a : α}
    (hdone : ((Run.exec (Pool.step exec) P schedule).process i).rest = .ret a) :
    E a (lone.run exec s).1 ∧ V (Run.exec (Pool.step exec) P schedule).store (lone.run exec s).2 := by
  have hbeside := hok.invariant
    (I := fun P => ∃ lone' s', Beside S A E G B V P i lone' s' ∧ lone'.run exec s' = lone.run exec s)
    (fun P j hP hok => by
      obtain ⟨lone', s', hb, hrun⟩ := hP
      obtain ⟨lone'', s'', hb', hrun'⟩ := hb.step hund j hok
      exact ⟨lone'', s'', hb', hrun'.trans hrun⟩)
    ⟨lone, s, h, rfl⟩
  obtain ⟨lone', s', hb, hrun⟩ := hbeside
  have halike := hb.alike
  rw [hdone] at halike
  cases halike with
  | ret he => exact hrun ▸ ⟨he, hb.stores⟩

end Pool
