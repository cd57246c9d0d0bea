/-
Runs of two step functions side by side.

Two step functions over one state that agree under an invariant run alike.
-/
import FinalServer.Run

namespace Run

variable {σ τ ε ε' : Type*} {step : σ → ε → σ} {ok : σ → ε → Prop} {s : σ}

theorem along_of_forall {P : ε → Prop} {es : List ε} (h : ∀ e ∈ es, P e) : Along step (fun _ e => P e) s es := by
  induction es generalizing s with
  | nil => trivial
  | cons e es ih => exact ⟨h e List.mem_cons_self, ih fun e he => h e (List.mem_cons_of_mem _ he)⟩

/-- Two step functions that agree where an invariant holds run alike. -/
theorem Along.exec_congr {step' : σ → ε → σ} {I : σ → Prop} {es : List ε} (h : Along step ok s es)
    (hstep : ∀ s e, I s → ok s e → step' s e = step s e ∧ I (step s e)) (hs : I s) :
    exec step' s es = exec step s es := by
  induction es generalizing s with
  | nil => rfl
  | cons e es ih =>
    obtain ⟨heq, hnext⟩ := hstep s e hs h.1
    rw [exec_cons, exec_cons, heq]
    exact ih h.2 hnext

end Run
