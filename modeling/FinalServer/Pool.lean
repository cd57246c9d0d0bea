/-
Programs that run at the same time over one store.

A pool is a store and the processes by name; a step lets one of them issue
its next statement, so a schedule is a list of names. `Follows` gives a
process a ghost state, its duty, which moves with its statements by a rule;
`Along.follows` is then the induction over a schedule: what every statement
preserves, of the store and the duties of all processes together, a whole
schedule preserves.
-/
import FinalServer.Prog
import FinalServer.Run
import Mathlib.Logic.Function.Basic

universe u v w

/-- A program on its way: the statements it has issued, with their answers, and
what is left of it. -/
structure Process (Q : Type u) (R : Q → Type v) (α : Type w) where
  past : List (Σ q, R q)
  rest : Prog Q R α

/-- The program has returned. -/
def Process.done {Q : Type u} {R : Q → Type v} {α : Type w} (p : Process Q R α) : Bool :=
  match p.rest with
  | .ret _ => true
  | .call _ _ => false

structure Pool (ι : Type*) (σ : Type*) (Q : Type u) (R : Q → Type v) (α : Type w) where
  store : σ
  process : ι → Process Q R α

namespace Pool

variable {ι σ : Type*} {Q : Type u} {R : Q → Type v} {α β : Type w} {D : Type*}

/-- Programs that have not begun. -/
def start (s : σ) (programs : ι → Prog Q R α) : Pool ι σ Q R α := ⟨s, fun i => ⟨[], programs i⟩⟩

/-- The next statement of process `i`, if it has one. -/
def step [DecidableEq ι] (exec : (q : Q) → σ → R q × σ) (P : Pool ι σ Q R α) (i : ι) : Pool ι σ Q R α :=
  match (P.process i).rest with
  | .ret _ => P
  | .call q k =>
    let r := (exec q P.store).1
    { store := (exec q P.store).2
      process := Function.update P.process i ⟨(P.process i).past ++ [⟨q, r⟩], k r⟩ }

/-- What the process is about to issue meets `ok`, in the light of its past. -/
def Allows (ok : σ → List (Σ q, R q) → Q → Prop) (P : Pool ι σ Q R α) (i : ι) : Prop :=
  match (P.process i).rest with
  | .ret _ => True
  | .call q _ => ok P.store (P.process i).past q

instance {ok : σ → List (Σ q, R q) → Q → Prop} [h : ∀ s past q, Decidable (ok s past q)]
    (P : Pool ι σ Q R α) (i : ι) : Decidable (Allows ok P i) :=
  match hr : (P.process i).rest with
  | .ret _ => isTrue (by simp only [Allows, hr])
  | .call q _ => decidable_of_iff (ok P.store (P.process i).past q) (by simp only [Allows, hr])

/-! ## Duties -/

section Follows

variable (exec : (q : Q) → σ → R q × σ) (rule : List (Σ q, R q) → D → (q : Q) → (R q → D) → Prop)

/-- With this past and duty every statement of the program moves the duty by
the rule, whatever the store answers, and it returns with a duty in `last`. -/
inductive Follows (last : D → Prop) : List (Σ q, R q) → D → Prog Q R α → Prop
  | ret {past : List (Σ q, R q)} {x : D} (a : α) (h : last x) : Follows last past x (.ret a)
  | call {past : List (Σ q, R q)} {x : D} {q : Q} {k : R q → Prog Q R α} (next : R q → D)
      (hq : rule past x q next)
      (hk : ∀ s : σ, Follows last (past ++ [⟨q, (exec q s).1⟩]) (next (exec q s).1) (k (exec q s).1)) :
      Follows last past x (.call q k)

variable {exec rule} {last J : D → Prop} {past : List (Σ q, R q)} {x : D}

theorem Follows.bind {p : Prog Q R α} {f : α → Prog Q R β} (hp : Follows exec rule J past x p)
    (hf : ∀ past' y a, past <+: past' → J y → Follows exec rule last past' y (f a)) :
    Follows exec rule last past x (p >>= f) := by
  induction hp with
  | ret a h => exact hf _ _ a List.prefix_rfl h
  | call next hq _ ih =>
    refine .call next hq fun s => ih s fun past' y a hpre hy => ?_
    exact hf past' y a ((List.prefix_append _ _).trans hpre) hy

/-- A program of statements that leave the duty alone, and then another. -/
theorem Follows.of_only {P : Q → Prop} {p : Prog Q R α} {f : α → Prog Q R β} (hp : Prog.Only P p)
    (hP : ∀ past q, P q → rule past x q fun _ => x)
    (hf : ∀ past' a, past <+: past' → Follows exec rule last past' x (f a)) :
    Follows exec rule last past x (p >>= f) := by
  refine .bind (J := (· = x)) ?_ fun past' y a hpre hy => hy ▸ hf past' a hpre
  clear hf
  induction hp generalizing past with
  | ret a => exact .ret a rfl
  | call hq _ ih => exact .call _ (hP _ _ hq) fun s => ih _

/-- **Rule of concurrent runs.** If every statement that the rule and `ok`
admit preserves `I`, of the store and of all duties, then a schedule of such
statements does. -/
theorem Along.follows [DecidableEq ι] {ok : σ → List (Σ q, R q) → Q → Prop} {I : σ → (ι → D) → Prop}
    {P : Pool ι σ Q R α} {schedule : List ι} (h : Run.Along (step exec) (Allows ok) P schedule) {g : ι → D}
    (hg : ∀ i, Follows exec rule last (P.process i).past (g i) (P.process i).rest) (hs : I P.store g)
    (hI : ∀ s g i past q next, I s g → rule past (g i) q next → ok s past q →
      I (exec q s).2 (Function.update g i (next (exec q s).1))) :
    ∃ g', (∀ i, Follows exec rule last ((Run.exec (step exec) P schedule).process i).past (g' i)
        ((Run.exec (step exec) P schedule).process i).rest) ∧ I (Run.exec (step exec) P schedule).store g' := by
  refine h.invariant (I := fun P => ∃ g : ι → D, (∀ i, Follows exec rule last (P.process i).past (g i)
    (P.process i).rest) ∧ I P.store g) ?_ ⟨g, hg, hs⟩
  rintro P i ⟨g, hg, hs⟩ hok
  have hi := hg i
  rw [Allows] at hok
  rw [step]
  split
  · exact ⟨g, hg, hs⟩
  next q k hrest =>
    rw [hrest] at hi hok
    cases hi with
    | call next hq hk =>
      refine ⟨Function.update g i (next (exec q P.store).1), fun j => ?_, hI _ _ _ _ _ _ hs hq hok⟩
      by_cases hj : j = i
      · subst hj
        simpa only [Function.update_self] using hk P.store
      · simpa only [Function.update_of_ne hj] using hg j

/-- Who has returned has a last duty. -/
theorem Follows.last_of_done {p : Process Q R α} (h : Follows exec rule last p.past x p.rest)
    (hdone : p.done = true) : last x := by
  rw [Process.done] at hdone
  split at hdone
  next a hrest =>
    rw [hrest] at h
    cases h with
    | ret _ hx => exact hx
  next => cases hdone

end Follows

end Pool
