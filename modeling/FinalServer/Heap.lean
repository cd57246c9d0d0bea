/-
A heap of cells at addresses, and programs that work on it.

`malloc` returns some address not in use, or fails, as its allocator says. A
program that touches an address not in use is stuck. `Local` says that a
program has changed no more than its own cells and cells nobody used; it
composes, so what is known about all other cells survives any sequence of
local programs.
-/
import Mathlib.Data.List.Basic
import Mathlib.Logic.Function.Basic

structure Heap (C : Type) where
  cells : Nat → Option C
  /-- No address from here on is in use. -/
  bound : Nat
  unused : ∀ a, bound ≤ a → cells a = none
  /-- How often `malloc` has been called. -/
  mallocs : Nat

namespace Heap

variable {C : Type}

def empty : Heap C := ⟨fun _ => none, 0, fun _ _ => rfl, 0⟩

def set (h : Heap C) (a : Nat) (c : C) : Heap C where
  cells := Function.update h.cells a (some c)
  bound := max h.bound (a + 1)
  unused b hb := by
    rw [Function.update_of_ne (by omega)]
    exact h.unused b (by omega)
  mallocs := h.mallocs

def clear (h : Heap C) (a : Nat) : Heap C where
  cells := Function.update h.cells a none
  bound := h.bound
  unused b hb := by
    rw [Function.update_apply, h.unused b hb]
    split <;> rfl
  mallocs := h.mallocs

/-- A call of `malloc` has been made. -/
def called (h : Heap C) : Heap C := { h with mallocs := h.mallocs + 1 }

@[simp] theorem set_cells (h : Heap C) (a : Nat) (c : C) :
    (h.set a c).cells = Function.update h.cells a (some c) := rfl

@[simp] theorem clear_cells (h : Heap C) (a : Nat) : (h.clear a).cells = Function.update h.cells a none := rfl

@[simp] theorem called_cells (h : Heap C) : h.called.cells = h.cells := rfl

@[simp] theorem set_mallocs (h : Heap C) (a : Nat) (c : C) : (h.set a c).mallocs = h.mallocs := rfl

@[simp] theorem clear_mallocs (h : Heap C) (a : Nat) : (h.clear a).mallocs = h.mallocs := rfl

@[simp] theorem called_mallocs (h : Heap C) : h.called.mallocs = h.mallocs + 1 := rfl

/-- Where `malloc` puts what is asked for, if it can. -/
structure Allocator (C : Type) where
  addr : Heap C → Option Nat
  fresh : ∀ h a, addr h = some a → h.cells a = none

/-- Every allocation succeeds. -/
def Allocator.Total (A : Allocator C) : Prop := ∀ h, (A.addr h).isSome = true

/-- The next address never used. -/
def Allocator.bump : Allocator C where
  addr h := some h.bound
  fresh h a ha := h.unused a (Nat.le_of_eq (Option.some.inj ha))

theorem Allocator.bump_total : (bump (C := C)).Total := fun _ => rfl

/-- The allocator without memory for some calls of `malloc`, counted from the
first one on the heap. -/
def Allocator.failing (A : Allocator C) (fails : Nat → Bool) : Allocator C where
  addr h := if fails h.mallocs then none else A.addr h
  fresh h a ha := by
    split at ha
    · cases ha
    · exact A.fresh h a ha

theorem Allocator.failing_never (A : Allocator C) : A.failing (fun _ => false) = A := rfl

/-! ## Programs -/

/-- A program is stuck (`none`) where it touches an address not in use. -/
def Mem (C α : Type) := Heap C → Option (α × Heap C)

namespace Mem

variable {α β : Type}

instance : Monad (Mem C) where
  pure a h := some (a, h)
  bind x f h := (x h).bind fun r => f r.1 r.2

def stuck : Mem C α := fun _ => none

/-- The pointer is followed; `NULL` has nothing behind it. -/
def deref : Option Nat → Mem C Nat
  | none => stuck
  | some a => pure a

def malloc (A : Allocator C) (c : C) : Mem C (Option Nat) := fun h =>
  match A.addr h with
  | none => some (none, h.called)
  | some a => some (some a, (h.set a c).called)

def load (a : Nat) : Mem C C := fun h => (h.cells a).map fun c => (c, h)

def store (a : Nat) (c : C) : Mem C Unit := fun h => (h.cells a).map fun _ => ((), h.set a c)

def free (a : Nat) : Mem C Unit := fun h => (h.cells a).map fun _ => ((), h.clear a)

variable {h h' : Heap C} {a : Nat} {c : C}

/-- A program that has run is over, and the next one goes on from there. -/
theorem bind_of {x : Mem C α} {v : α} (hx : x h = some (v, h')) (f : α → Mem C β) : (x >>= f) h = f v h' := by
  show (x h).bind _ = _
  rw [hx]
  rfl

theorem deref_of {p : Option Nat} (hp : p = some a) : deref p h = some (a, h) := by
  rw [hp]
  rfl

theorem load_of (hc : h.cells a = some c) : load a h = some (c, h) := by rw [load, hc]; rfl

theorem store_of (hc : h.cells a = some c) (c' : C) : store a c' h = some ((), h.set a c') := by
  rw [store, hc]
  rfl

theorem free_of (hc : h.cells a = some c) : free a h = some ((), h.clear a) := by rw [free, hc]; rfl

/-- `malloc` fails and changes nothing, or gives an address not in use. -/
theorem malloc_cases (A : Allocator C) (c : C) (h : Heap C) :
    (A.addr h = none ∧ malloc A c h = some (none, h.called)) ∨
      ∃ a, h.cells a = none ∧ malloc A c h = some (some a, (h.set a c).called) := by
  cases ha : A.addr h with
  | none => exact .inl ⟨rfl, by rw [malloc, ha]⟩
  | some a => exact .inr ⟨a, A.fresh h a ha, by rw [malloc, ha]⟩

theorem malloc_fails (A : Allocator C) {fails : Nat → Bool} (hf : fails h.mallocs = true) (c : C) :
    malloc (A.failing fails) c h = some (none, h.called) := by
  simp only [malloc, Allocator.failing, hf, if_true]

theorem malloc_succeeds {A : Allocator C} (hA : A.Total) {fails : Nat → Bool} (hf : fails h.mallocs = false) (c : C) :
    ∃ a, h.cells a = none ∧ malloc (A.failing fails) c h = some (some a, (h.set a c).called) := by
  obtain ⟨a, ha⟩ := Option.isSome_iff_exists.mp (hA h)
  refine ⟨a, A.fresh h a ha, ?_⟩
  simp only [malloc, Allocator.failing, hf, Bool.false_eq_true, if_false, ha]

/-- What a program returned went through each of its parts. -/
theorem bind_inv {x : Mem C α} {f : α → Mem C β} {v : β} (hrun : (x >>= f) h = some (v, h')) :
    ∃ u h₁, x h = some (u, h₁) ∧ f u h₁ = some (v, h') := by
  obtain ⟨⟨u, h₁⟩, hx, hf⟩ := Option.bind_eq_some_iff.mp hrun
  exact ⟨u, h₁, hx, hf⟩

/-! ### Programs that allocate nothing -/

/-- The program makes no call of `malloc`. -/
def Quiet (x : Mem C α) : Prop := ∀ h v h', x h = some (v, h') → h'.mallocs = h.mallocs

theorem quiet_pure (v : α) : Quiet (pure v : Mem C α) := by
  rintro h v' h' ⟨⟩
  rfl

theorem quiet_stuck : Quiet (stuck : Mem C α) := fun _ _ _ => nofun

theorem quiet_bind {x : Mem C α} {f : α → Mem C β} (hx : Quiet x) (hf : ∀ v, Quiet (f v)) : Quiet (x >>= f) := by
  intro h v h' hrun
  obtain ⟨u, h₁, hx', hf'⟩ := bind_inv hrun
  exact (hf u h₁ v h' hf').trans (hx h u h₁ hx')

theorem quiet_deref (p : Option Nat) : Quiet (deref p : Mem C Nat) := by
  cases p with
  | none => exact quiet_stuck
  | some a => exact quiet_pure a

theorem quiet_load (a : Nat) : Quiet (load a : Mem C C) := by
  intro h v h' hrun
  obtain ⟨_, -, heq⟩ := Option.map_eq_some_iff.mp hrun
  cases heq
  rfl

theorem quiet_store (a : Nat) (c : C) : Quiet (store a c) := by
  intro h v h' hrun
  obtain ⟨_, -, heq⟩ := Option.map_eq_some_iff.mp hrun
  cases heq
  rfl

theorem quiet_free (a : Nat) : Quiet (free a : Mem C Unit) := by
  intro h v h' hrun
  obtain ⟨_, -, heq⟩ := Option.map_eq_some_iff.mp hrun
  cases heq
  rfl

end Mem

/-! ## What a program leaves alone -/

/-- From `h` to `h'` no cell in use outside `F` has changed, and `F'` has come
from `F` and from addresses not in use. -/
structure Local (h h' : Heap C) (F F' : List Nat) : Prop where
  frame : ∀ a, a ∉ F → h.cells a ≠ none → h'.cells a = h.cells a
  grows : ∀ a ∈ F', a ∈ F ∨ h.cells a = none

namespace Local

variable {h h₁ h₂ : Heap C} {F F₁ F₂ : List Nat} {a : Nat}

theorem refl (h : Heap C) (F : List Nat) : Local h h F F := ⟨fun _ _ _ => rfl, fun _ => .inl⟩

/-- A program that changes no cell at all. -/
theorem of_cells (hcells : h₁.cells = h.cells) (F : List Nat) : Local h h₁ F F :=
  ⟨fun a _ _ => by rw [hcells], fun _ => .inl⟩

theorem trans (h₀₁ : Local h h₁ F F₁) (h₁₂ : Local h₁ h₂ F₁ F₂) : Local h h₂ F F₂ where
  frame a ha hlive := by
    have hcell := h₀₁.frame a ha hlive
    refine (h₁₂.frame a (fun hin => ?_) (hcell ▸ hlive)).trans hcell
    exact (h₀₁.grows a hin).elim ha hlive
  grows a ha := by
    rcases h₁₂.grows a ha with hin | hnone
    · exact h₀₁.grows a hin
    · by_contra hno
      rw [not_or] at hno
      exact hno.2 ((h₀₁.frame a hno.1 hno.2).symm.trans hnone)

/-- A cell in use outside stays outside. -/
theorem notMem (hl : Local h h₁ F F₁) (ha : a ∉ F) (hlive : h.cells a ≠ none) : a ∉ F₁ :=
  fun hin => (hl.grows a hin).elim ha hlive

/-- A cell may be added to what the program may change. -/
theorem cons (hl : Local h h₁ F F₁) (a : Nat) : Local h h₁ (a :: F) (a :: F₁) where
  frame b hb := hl.frame b fun hin => hb (List.mem_cons_of_mem _ hin)
  grows b hb := by
    rcases List.mem_cons.mp hb with rfl | hin
    · exact .inl List.mem_cons_self
    · exact (hl.grows b hin).imp (List.mem_cons_of_mem _) id

/-- Less may be kept, and what is kept may be listed in another way. -/
theorem keep (hl : Local h h₁ F F₁) (hsub : F₂ ⊆ F₁) : Local h h₁ F F₂ := ⟨hl.frame, fun a ha => hl.grows a (hsub ha)⟩

/-- A cell taken into use belongs to the program. -/
theorem alloc (ha : h.cells a = none) (c : C) (F : List Nat) : Local h (h.set a c).called F (a :: F) where
  frame b _ hb := by
    have hne : b ≠ a := fun he => hb (he ▸ ha)
    rw [called_cells, set_cells, Function.update_of_ne hne]
  grows b hb := by
    rcases List.mem_cons.mp hb with rfl | hin
    · exact .inr ha
    · exact .inl hin

theorem set (ha : a ∈ F) (c : C) : Local h (h.set a c) F F where
  frame b hb _ := by
    have hne : b ≠ a := fun he => hb (he ▸ ha)
    rw [set_cells, Function.update_of_ne hne]
  grows _ := .inl

theorem clear (ha : a ∈ F) : Local h (h.clear a) F F where
  frame b hb _ := by
    have hne : b ≠ a := fun he => hb (he ▸ ha)
    rw [clear_cells, Function.update_of_ne hne]
  grows _ := .inl

end Local

end Heap
