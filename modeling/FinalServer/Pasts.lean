/-
What the processes of a pool have done.

A process records its statements with their answers. `Leads` says which
records a program can leave; what every admitted statement preserves, of the
store and the records of all processes, a schedule preserves.
-/
import FinalServer.Pool

universe u v w

namespace Prog

variable {Q : Type u} {R : Q → Type v} {α : Type w} {A : (q : Q) → R q → Prop}

/-- The program, its statements answered by these answers of `A`, has this left. -/
inductive Leads (A : (q : Q) → R q → Prop) : Prog Q R α → List (Σ q, R q) → Prog Q R α → Prop
  | refl (p : Prog Q R α) : Leads A p [] p
  | call {q : Q} {k : R q → Prog Q R α} {r : R q} {past : List (Σ q, R q)} {p : Prog Q R α} (hr : A q r)
      (h : Leads A (k r) past p) : Leads A (call q k) (⟨q, r⟩ :: past) p

theorem Leads.concat {p : Prog Q R α} {past : List (Σ q, R q)} {q : Q} {k : R q → Prog Q R α}
    (h : Leads A p past (.call q k)) {r : R q} (hr : A q r) : Leads A p (past ++ [⟨q, r⟩]) (k r) := by
  generalize hrest : Prog.call q k = rest at h
  induction h with
  | refl =>
    subst hrest
    exact .call hr (.refl _)
  | call hr' _ ih => exact .call hr' (ih hrest)

end Prog

namespace Pool

variable {ι σ : Type*} {Q : Type u} {R : Q → Type v} {α : Type w} [DecidableEq ι] {exec : (q : Q) → σ → R q × σ}

/-- Every process has done what its program does, with answers of the store. -/
theorem start_leads (s : σ) (programs : ι → Prog Q R α) (schedule : List ι) (i : ι) :
    Prog.Leads (fun q r => ∃ s, (exec q s).1 = r) (programs i)
      ((Run.exec (step exec) (start s programs) schedule).process i).past
      ((Run.exec (step exec) (start s programs) schedule).process i).rest := by
  refine (Run.along_true schedule).invariant (I := fun P : Pool ι σ Q R α =>
    Prog.Leads (fun q r => ∃ s, (exec q s).1 = r) (programs i) (P.process i).past (P.process i).rest) ?_ (.refl _)
  intro P j h _
  rw [step]
  split
  · exact h
  next q k hrest =>
    by_cases hij : i = j
    · subst hij
      rw [hrest] at h
      simpa only [Function.update_self] using h.concat ⟨P.store, rfl⟩
    · simpa only [Function.update_of_ne hij] using h

/-- What every statement that `ok` admits preserves of the store and the
records, a schedule of such statements preserves. -/
theorem along_pasts {I : σ → (ι → List (Σ q, R q)) → Prop} {ok : Q → Prop}
    (hI : ∀ s past i q, ok q → I s past → I (exec q s).2 (Function.update past i (past i ++ [⟨q, (exec q s).1⟩])))
    {P : Pool ι σ Q R α} {schedule : List ι}
    (h : Run.Along (step exec) (Allows fun _ _ q => ok q) P schedule) (hs : I P.store fun i => (P.process i).past) :
    I (Run.exec (step exec) P schedule).store fun i => ((Run.exec (step exec) P schedule).process i).past := by
  refine h.invariant (I := fun P : Pool ι σ Q R α => I P.store fun i => (P.process i).past) ?_ hs
  intro P i hs hok
  rw [Allows] at hok
  rw [step]
  split
  · exact hs
  next q k hrest =>
    rw [hrest] at hok
    have hnext := hI P.store _ i q hok hs
    have hpast : (fun j => (Function.update P.process i
        (⟨(P.process i).past ++ [⟨q, (exec q P.store).1⟩], k (exec q P.store).1⟩ : Process Q R α) j).past) =
        Function.update (fun j => (P.process j).past) i ((P.process i).past ++ [⟨q, (exec q P.store).1⟩]) := by
      funext j
      by_cases hj : j = i
      · subst hj
        simp only [Function.update_self]
      · simp only [Function.update_of_ne hj]
    show I _ (fun j => _)
    rwa [hpast]

end Pool
