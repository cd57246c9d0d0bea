/-
Objects on a heap, each with cells of its own.

`Exchanges` says what a program has done to the memory as a whole: the cells
it was given are free but for those it leaves, and every other cell is as it
was. A `View` is a way to see objects on a heap, which only the cells of an
object decide. So a program that exchanges the cells of some objects leaves
all others alone (`Holds.change`), and what is in use stays what the objects
own (`Owned`).
-/
import FinalServer.Heap
import Mathlib.Data.List.Perm.Subperm

namespace Heap

variable {C X : Type}

/-- From `h` to `h'` the cells `F` have become `F'`: no other cell in use has
changed, `F'` has come from `F` and from addresses not in use, and of `F`
only `F'` is in use. -/
structure Exchanges (h h' : Heap C) (F F' : List Nat) : Prop extends Local h h' F F' where
  used : ∀ a, h'.cells a ≠ none → a ∈ F' ∨ a ∉ F ∧ h.cells a ≠ none

namespace Exchanges

variable {h h₁ h₂ : Heap C} {F F₁ F₂ G : List Nat} {a : Nat}

theorem refl (h : Heap C) (F : List Nat) : Exchanges h h F F :=
  ⟨.refl h F, fun a ha => by
    by_cases hF : a ∈ F
    · exact .inl hF
    · exact .inr ⟨hF, ha⟩⟩

theorem trans (h₀₁ : Exchanges h h₁ F F₁) (h₁₂ : Exchanges h₁ h₂ F₁ F₂) : Exchanges h h₂ F F₂ where
  toLocal := h₀₁.toLocal.trans h₁₂.toLocal
  used a ha := by
    rcases h₁₂.used a ha with hin | ⟨hout, hlive⟩
    · exact .inl hin
    · exact .inr ((h₀₁.used a hlive).resolve_left hout)

/-- The cells may be listed in another way. -/
theorem listed {D E : List Nat} (he : Exchanges h h₁ F F₁) (hF : ∀ a, a ∈ D ↔ a ∈ F)
    (hF₁ : ∀ a, a ∈ E ↔ a ∈ F₁) : Exchanges h h₁ D E where
  frame a ha := he.frame a fun hin => ha ((hF a).mpr hin)
  grows a ha := (he.grows a ((hF₁ a).mp ha)).imp (hF a).mpr id
  used a ha := (he.used a ha).imp (hF₁ a).mpr fun hout => ⟨fun hin => hout.1 ((hF a).mp hin), hout.2⟩

/-- Other cells may be added on both sides. -/
theorem beside (he : Exchanges h h₁ F F₁) (G : List Nat) : Exchanges h h₁ (G ++ F) (G ++ F₁) where
  frame a ha := he.frame a fun hin => ha (List.mem_append_right _ hin)
  grows a ha := by
    rcases List.mem_append.mp ha with hin | hin
    · exact .inl (List.mem_append_left _ hin)
    · exact (he.grows a hin).imp_left (List.mem_append_right _)
  used a ha := by
    by_cases hG : a ∈ G
    · exact .inl (List.mem_append_left _ hG)
    · rcases he.used a ha with hin | ⟨hout, hlive⟩
      · exact .inl (List.mem_append_right _ hin)
      · exact .inr ⟨by simp [hG, hout], hlive⟩

/-- What two programs give back, one after the other. -/
theorem after (he₁ : Exchanges h h₁ F []) (he₂ : Exchanges h₁ h₂ G []) : Exchanges h h₂ (F ++ G) [] := by
  have hboth := (he₁.beside G).listed (D := F ++ G) (E := G) (fun a => by simp [or_comm]) fun a => by simp
  exact hboth.trans he₂

/-- What a program does to some cells it does within more. -/
theorem within (he : Exchanges h h₁ F F) (hsub : F ⊆ G) : Exchanges h h₁ G G := by
  have hiff : ∀ a, a ∈ G ↔ a ∈ G ++ F := fun a => by
    rw [List.mem_append]
    exact ⟨.inl, fun hin => hin.elim id fun hF => hsub hF⟩
  exact (he.beside G).listed hiff hiff

/-- A cell in use is written to. -/
theorem set (ha : a ∈ F) (c : C) : Exchanges h (h.set a c) F F where
  toLocal := .set ha c
  used b hb := by
    by_cases hF : b ∈ F
    · exact .inl hF
    · have hne : b ≠ a := fun he => hF (he ▸ ha)
      rw [set_cells, Function.update_of_ne hne] at hb
      exact .inr ⟨hF, hb⟩

/-- A cell is taken into use. -/
theorem alloc (ha : h.cells a = none) (c : C) : Exchanges h (h.set a c).called [] [a] where
  toLocal := .alloc ha c []
  used b hb := by
    by_cases hne : b = a
    · exact .inl (List.mem_singleton.mpr hne)
    · rw [called_cells, set_cells, Function.update_of_ne hne] at hb
      exact .inr ⟨List.not_mem_nil, hb⟩

/-- A cell is given back. -/
theorem clear (a : Nat) : Exchanges h (h.clear a) [a] [] where
  toLocal := (Local.clear (List.mem_singleton_self a)).keep (List.nil_subset _)
  used b hb := by
    by_cases hne : b = a
    · subst hne
      simp at hb
    · rw [clear_cells, Function.update_of_ne hne] at hb
      exact .inr ⟨by simpa using hne, hb⟩

/-- A cell in use that is none of the program's is as it was. -/
theorem kept {c : C} (he : Exchanges h h₁ F F₁) (ha : a ∉ F) (hc : h.cells a = some c) : h₁.cells a = some c :=
  (he.frame a ha (by simp [hc])).trans hc

end Exchanges

/-- Cells in use are below the bound, so there are no more of them. -/
theorem length_le_bound {h : Heap C} {l : List Nat} (hnodup : l.Nodup) (hlive : ∀ a ∈ l, h.cells a ≠ none) :
    l.length ≤ h.bound := by
  have hsub : l ⊆ List.range h.bound := fun a ha => by
    rw [List.mem_range]
    exact Nat.lt_of_not_le fun hb => hlive a ha (h.unused a hb)
  simpa using (List.subperm_of_subset hnodup hsub).length_le

/-! ## Objects -/

/-- A way to see objects on a heap, each at cells in use, which alone decide that it is there. -/
structure View (C X : Type) where
  Is : Heap C → X → Prop
  cellsOf : X → List Nat
  live : ∀ {h x}, Is h x → ∀ a ∈ cellsOf x, h.cells a ≠ none
  congr : ∀ {h h' x}, Is h x → (∀ a ∈ cellsOf x, h'.cells a = h.cells a) → Is h' x

namespace View

variable {V : View C X} {h h' : Heap C} {x : X} {F F' : List Nat}

/-- A program on other cells leaves the object alone. -/
theorem frame (hx : V.Is h x) (hl : Local h h' F F') (hdisj : ∀ a ∈ V.cellsOf x, a ∉ F) : V.Is h' x :=
  V.congr hx fun a ha => hl.frame a (hdisj a ha) (V.live hx a ha)

/-- Each of the objects is there, and no two share a cell. -/
structure Holds (V : View C X) (h : Heap C) (M : Nat → Option X) : Prop where
  objects : ∀ p x, M p = some x → V.Is h x
  apart : ∀ p q x y, M p = some x → M q = some y → p ≠ q → ∀ a ∈ V.cellsOf x, a ∉ V.cellsOf y

/-- What is in use belongs to the objects. -/
def Owned (V : View C X) (h : Heap C) (M : Nat → Option X) : Prop :=
  ∀ a, h.cells a ≠ none → ∃ p x, M p = some x ∧ a ∈ V.cellsOf x

variable {M M' : Nat → Option X} {S : Nat → Prop}

/-- The cells that a program exchanges are those of the objects at `S`, and
afterwards those of the objects at `S` again. -/
structure Turns (V : View C X) (h' : Heap C) (M M' : Nat → Option X) (S : Nat → Prop) (F F' : List Nat) : Prop where
  before : ∀ a, a ∈ F ↔ ∃ p x, S p ∧ M p = some x ∧ a ∈ V.cellsOf x
  after : ∀ a, a ∈ F' ↔ ∃ p x, S p ∧ M' p = some x ∧ a ∈ V.cellsOf x
  objects : ∀ p x, S p → M' p = some x → V.Is h' x
  apart : ∀ p q x y, S p → S q → M' p = some x → M' q = some y → p ≠ q → ∀ a ∈ V.cellsOf x, a ∉ V.cellsOf y
  others : ∀ p, ¬ S p → M' p = M p

theorem Holds.change (hM : V.Holds h M) (he : Exchanges h h' F F') (ht : V.Turns h' M M' S F F') :
    V.Holds h' M' := by
  -- An object elsewhere has none of the cells.
  have hout : ∀ p x, ¬ S p → M p = some x → ∀ a ∈ V.cellsOf x, a ∉ F := by
    intro p x hp hx a ha hin
    obtain ⟨q, y, hq, hy, hay⟩ := (ht.before a).mp hin
    exact hM.apart p q x y hx hy (fun he => hp (he ▸ hq)) a ha hay
  have hout' : ∀ p x, ¬ S p → M p = some x → ∀ a ∈ V.cellsOf x, a ∉ F' := fun p x hp hx a ha =>
    he.notMem (hout p x hp hx a ha) (V.live (hM.objects p x hx) a ha)
  constructor
  · intro p x hx
    by_cases hp : S p
    · exact ht.objects p x hp hx
    · rw [ht.others p hp] at hx
      exact V.frame (hM.objects p x hx) he.toLocal (hout p x hp hx)
  · intro p q x y hx hy hne a ha hay
    by_cases hp : S p <;> by_cases hq : S q
    · exact ht.apart p q x y hp hq hx hy hne a ha hay
    · rw [ht.others q hq] at hy
      exact hout' q y hq hy a hay ((ht.after a).mpr ⟨p, x, hp, hx, ha⟩)
    · rw [ht.others p hp] at hx
      exact hout' p x hp hx a ha ((ht.after a).mpr ⟨q, y, hq, hy, hay⟩)
    · rw [ht.others p hp] at hx
      rw [ht.others q hq] at hy
      exact hM.apart p q x y hx hy hne a ha hay

/-- Nothing is lost, and nothing left over. -/
theorem Owned.change (hM : V.Owned h M) (he : Exchanges h h' F F') (ht : V.Turns h' M M' S F F') :
    V.Owned h' M' := by
  intro a ha
  rcases he.used a ha with hin | ⟨hout, hlive⟩
  · obtain ⟨p, x, -, hx, hax⟩ := (ht.after a).mp hin
    exact ⟨p, x, hx, hax⟩
  · obtain ⟨p, x, hx, hax⟩ := hM a hlive
    have hp : ¬ S p := fun hp => hout ((ht.before a).mpr ⟨p, x, hp, hx, hax⟩)
    exact ⟨p, x, (ht.others p hp).trans hx, hax⟩

/-- The cells of an object, if there is one. -/
def cells (V : View C X) (o : Option X) : List Nat := o.elim [] V.cellsOf

theorem mem_cells {o : Option X} {a : Nat} : a ∈ V.cells o ↔ ∃ x, o = some x ∧ a ∈ V.cellsOf x := by
  cases o <;> simp [cells]

/-- One object is changed, made or gone. -/
theorem turns_one {p : Nat} {o : Option X} (ho : ∀ x, o = some x → V.Is h' x) :
    V.Turns h' M (Function.update M p o) (· = p) (V.cells (M p)) (V.cells o) where
  before a := by simp [mem_cells]
  after a := by simp [mem_cells]
  objects q x hq hx := by
    subst hq
    exact ho x (by simpa using hx)
  apart q q' x y hq hq' _ _ hne := absurd (hq.trans hq'.symm) hne
  others q hq := Function.update_of_ne hq _ _

/-- Two objects are, and keep apart. -/
theorem turns_two {p q : Nat} (hpq : p ≠ q) {o o' : Option X} (ho : ∀ x, o = some x → V.Is h' x)
    (ho' : ∀ x, o' = some x → V.Is h' x)
    (hapart : ∀ x y, o = some x → o' = some y → ∀ a ∈ V.cellsOf x, a ∉ V.cellsOf y) :
    V.Turns h' M (Function.update (Function.update M q o') p o) (fun r => r = p ∨ r = q)
      (V.cells (M p) ++ V.cells (M q)) (V.cells o ++ V.cells o') := by
  have hp : Function.update (Function.update M q o') p o p = o := Function.update_self ..
  have hq : Function.update (Function.update M q o') p o q = o' := by
    rw [Function.update_of_ne hpq.symm, Function.update_self]
  constructor
  · intro a
    simp [mem_cells, or_and_right, exists_or]
  · intro a
    simp [mem_cells, or_and_right, exists_or, hq]
  · rintro r x (rfl | rfl) hx
    · exact ho x (hp.symm.trans hx)
    · exact ho' x (hq.symm.trans hx)
  · rintro r r' x y (rfl | rfl) (rfl | rfl) hx hy hne
    · exact absurd rfl hne
    · exact hapart x y (hp.symm.trans hx) (hq.symm.trans hy)
    · intro a ha hay
      exact hapart y x (hp.symm.trans hy) (hq.symm.trans hx) a hay ha
    · exact absurd rfl hne
  · intro r hr
    rw [not_or] at hr
    rw [Function.update_of_ne hr.1, Function.update_of_ne hr.2]

end View

end Heap
