/-
Runs of a step function over a list of events.

`Along ok` says that every event of a run meets `ok` in the state it is
taken in; it is how an assumption on the environment, or the condition
under which a property holds, is put on a whole run. The rules turn what
one step does into what the run does.
-/
import Mathlib.Data.List.Induction

namespace Run

variable {σ ε : Type*} (step : σ → ε → σ)

/-- The state after the events. -/
def exec (s : σ) (es : List ε) : σ := es.foldl step s

/-- Every event of the run meets `ok` in the state it is taken in. -/
def Along (ok : σ → ε → Prop) : σ → List ε → Prop
  | _, [] => True
  | s, e :: es => ok s e ∧ Along ok (step s e) es

/-- What the events of a run put out, in order. -/
def outputs {β : Type*} (out : σ → ε → Option β) : σ → List ε → List β
  | _, [] => []
  | s, e :: es => (out s e).toList ++ outputs out (step s e) es

variable {step} {ok : σ → ε → Prop} {s : σ}

instance Along.decidable [∀ s e, Decidable (ok s e)] : ∀ s es, Decidable (Along step ok s es)
  | _, [] => .isTrue trivial
  | s, e :: es => @instDecidableAnd _ _ inferInstance (Along.decidable (step s e) es)

@[simp] theorem exec_nil : exec step s [] = s := rfl

@[simp] theorem exec_cons {e : ε} {es : List ε} : exec step s (e :: es) = exec step (step s e) es := rfl

theorem exec_append {es fs : List ε} : exec step s (es ++ fs) = exec step (exec step s es) fs := by
  simp [exec]

theorem along_true (es : List ε) : Along step (fun _ _ => True) s es := by
  induction es generalizing s with
  | nil => trivial
  | cons e es ih => exact ⟨trivial, ih⟩

theorem Along.mono {ok' : σ → ε → Prop} {es : List ε} (h : Along step ok s es)
    (hok : ∀ s e, ok s e → ok' s e) : Along step ok' s es := by
  induction es generalizing s with
  | nil => trivial
  | cons e es ih => exact ⟨hok _ _ h.1, ih h.2⟩

theorem Along.and {ok' : σ → ε → Prop} {es : List ε} (h : Along step ok s es)
    (h' : Along step ok' s es) : Along step (fun s e => ok s e ∧ ok' s e) s es := by
  induction es generalizing s with
  | nil => trivial
  | cons e es ih => exact ⟨⟨h.1, h'.1⟩, ih h.2 h'.2⟩

/-- What every admitted step preserves holds at the end of an admitted run. -/
theorem Along.invariant {I : σ → Prop} {es : List ε} (h : Along step ok s es)
    (hstep : ∀ s e, I s → ok s e → I (step s e)) (hs : I s) : I (exec step s es) := by
  induction es generalizing s with
  | nil => exact hs
  | cons e es ih => exact ih h.2 (hstep _ _ hs h.1)

/-- What holds of every admitted step under an invariant holds along an admitted run. -/
theorem Along.of_invariant {I : σ → Prop} {ok' : σ → ε → Prop} {es : List ε} (h : Along step ok s es)
    (hstep : ∀ s e, I s → ok s e → ok' s e ∧ I (step s e)) (hs : I s) : Along step ok' s es := by
  induction es generalizing s with
  | nil => trivial
  | cons e es ih =>
    obtain ⟨he, hs'⟩ := hstep _ _ hs h.1
    exact ⟨he, ih h.2 hs'⟩

/-- The same for an invariant of the outputs so far and the state. -/
theorem Along.outputs_invariant {β : Type*} {out : σ → ε → Option β} {I : List β → σ → Prop} {es : List ε}
    (h : Along step ok s es) (hstep : ∀ bs s e, I bs s → ok s e → I (bs ++ (out s e).toList) (step s e))
    (hs : I [] s) : I (outputs step out s es) (exec step s es) := by
  have hfrom : ∀ bs, I bs s → I (bs ++ outputs step out s es) (exec step s es) := by
    clear hs
    intro bs hs
    induction es generalizing s bs with
    | nil => rwa [outputs, List.append_nil]
    | cons e es ih =>
      rw [outputs, ← List.append_assoc]
      exact ih h.2 _ (hstep _ _ _ hs h.1)
  exact hfrom [] hs

theorem Along.of_prefix {es pre : List ε} (h : Along step ok s es) (hpre : pre <+: es) : Along step ok s pre := by
  induction pre generalizing s es with
  | nil => trivial
  | cons e pre ih =>
    obtain ⟨rest, rfl⟩ := hpre
    exact ⟨h.1, ih h.2 (List.prefix_append _ _)⟩

theorem along_append {es fs : List ε} :
    Along step ok s (es ++ fs) ↔ Along step ok s es ∧ Along step ok (exec step s es) fs := by
  induction es generalizing s with
  | nil => simp [Along]
  | cons e es ih => simp only [List.cons_append, Along, ih, exec_cons, and_assoc]

/-- The same for an invariant that looks back at the run so far. -/
theorem Along.history {I : List ε → σ → Prop} {es : List ε} (h : Along step ok s es)
    (hstep : ∀ pre e, I pre (exec step s pre) → ok (exec step s pre) e → I (pre ++ [e]) (step (exec step s pre) e))
    (hs : I [] s) : I es (exec step s es) := by
  induction es using List.reverseRecOn with
  | nil => exact hs
  | append_singleton es e ih =>
    obtain ⟨hes, he, -⟩ := along_append.mp h
    rw [exec_append]
    exact hstep es e (ih hes) he

theorem along_forall {ι : Type*} {ok : ι → σ → ε → Prop} {es : List ε} :
    Along step (fun s e => ∀ i, ok i s e) s es ↔ ∀ i, Along step (ok i) s es := by
  induction es generalizing s with
  | nil => simp [Along]
  | cons e es ih => simp only [Along, ih, forall_and]

/-- Two properties of steps that agree where an invariant holds hold along the
same runs. The steps that meet them have to keep the invariant, no others. -/
theorem along_iff_along {J : σ → Prop} {ok' : σ → ε → Prop} {es : List ε} (hs : J s)
    (hJ : ∀ s e, J s → ok s e → J (step s e)) (h : ∀ s e, J s → (ok s e ↔ ok' s e)) :
    Along step ok s es ↔ Along step ok' s es := by
  induction es generalizing s with
  | nil => exact Iff.rfl
  | cons e es ih =>
    simp only [Along, ← h s e hs]
    exact and_congr_right fun he => ih (hJ s e hs he)

/-- When, under `A`, a step keeps `I` exactly if it meets `ok`, a run keeps
`I` exactly if all its steps do. -/
theorem Along.iff_along {I : σ → Prop} {A : σ → ε → Prop} {es : List ε} (hA : Along step A s es)
    (hstep : ∀ s e, A s e → (I (step s e) ↔ I s ∧ ok s e)) :
    I (exec step s es) ↔ I s ∧ Along step ok s es := by
  induction es generalizing s with
  | nil => simp [Along]
  | cons e es ih => rw [exec_cons, ih hA.2, hstep _ _ hA.1, Along, and_assoc]

/-- The same for a property of every state the run passes through. -/
theorem Along.forall_prefix_iff {I J : σ → Prop} {A : σ → ε → Prop} {es : List ε}
    (hA : Along step A s es) (hJ : ∀ s e, J s → A s e → J (step s e)) (hs : J s)
    (hstep : ∀ s e, J s → A s e → I s → (I (step s e) ↔ ok s e)) (hi : I s) :
    (∀ pre, pre <+: es → I (exec step s pre)) ↔ Along step ok s es := by
  induction es generalizing s with
  | nil => simp [Along, hi]
  | cons e es ih =>
    constructor
    · intro h
      have he := (hstep _ _ hs hA.1 hi).mp (h [e] (by simp))
      refine ⟨he, (ih hA.2 (hJ _ _ hs hA.1) ((hstep _ _ hs hA.1 hi).mpr he)).mp ?_⟩
      intro pre hpre
      exact h (e :: pre) (by simpa using hpre)
    · rintro ⟨he, hes⟩ pre hpre
      have hi' := (hstep _ _ hs hA.1 hi).mpr he
      cases pre with
      | nil => exact hi
      | cons e' pre =>
        obtain ⟨heq, htail⟩ := List.cons_prefix_cons.mp hpre
        subst heq
        exact (ih hA.2 (hJ _ _ hs hA.1) hi').mpr hes pre htail

end Run
