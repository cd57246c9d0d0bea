/-
Detaching and replacing one of the children of an item.

The children are cut before the one and after it. Each edit is a few changes
at the ends of the pieces, after which what is left is a chain again; which
they are depends on whether there are children before and after.
-/
import FinalServer.JsonEdits

namespace FinalServer

namespace Cjson

open Heap (Mem Local Exchanges)
open Heap.Mem
open Forest (single)

variable {h h' : Heap Cell}

/-! ## Cutting the children at one of them -/

/-- The parent, the children before, some in the middle and those after share no address. -/
structure Apart (p : Nat) (pre f post : Forest) : Prop where
  before : pre.addrs.Nodup
  item : f.addrs.Nodup
  after : post.addrs.Nodup
  parentBefore : p ∉ pre.addrs
  parentItem : p ∉ f.addrs
  parentAfter : p ∉ post.addrs
  beforeItem : ∀ b ∈ pre.addrs, b ∉ f.addrs
  beforeAfter : ∀ b ∈ pre.addrs, b ∉ post.addrs
  itemAfter : ∀ b ∈ f.addrs, b ∉ post.addrs

theorem apart_of_nodup {p : Nat} {pre f post : Forest} (hnodup : (p :: (pre ++ (f ++ post)).addrs).Nodup) :
    Apart p pre f post := by
  simp only [Forest.addrs_append] at hnodup
  obtain ⟨hp, hnodup⟩ := List.nodup_cons.mp hnodup
  obtain ⟨hpre, hn, hprex⟩ := List.nodup_append.mp hnodup
  obtain ⟨hf, hpost, hfpost⟩ := List.nodup_append.mp hn
  simp only [List.mem_append, not_or] at hp hprex
  exact ⟨hpre, hf, hpost, hp.1, hp.2.1, hp.2.2, fun b hb hin => hprex b hb b (.inl hin) rfl,
    fun b hb hin => hprex b hb b (.inr hin) rfl, fun b hb hin => hfpost b hb b hin rfl⟩

/-- A cell of the parent or of the children is among theirs. -/
theorem singleton_subset {p b : Nat} {pre f post : Forest}
    (hb : b = p ∨ b ∈ pre.addrs ∨ b ∈ f.addrs ∨ b ∈ post.addrs) : [b] ⊆ p :: (pre ++ (f ++ post)).addrs := by
  refine List.cons_subset.mpr ⟨?_, List.nil_subset _⟩
  simpa only [Forest.addrs_append, List.mem_cons, List.mem_append] using hb

/-- An item with a child between others: before it, the child, and after it. -/
structure Cut (h : Heap Cell) (p : Nat) (i : Item) (pre : Forest) (a : Nat) (k : Option (Nat × CString)) (d : Data)
    (xs post : Forest) : Prop where
  cell : h.cells p = some (.item { i with child := (pre ++ (single a k d xs ++ post)).head })
  before : Chain h (pre ++ (single a k d xs ++ post)).last (some a) pre
  item : Chain h (pre.last.or (pre ++ (single a k d xs ++ post)).last) post.head (single a k d xs)
  after : Chain h (some a) none post
  apart : Apart p pre (single a k d xs) post

section Cut

variable {p a b f z : Nat} {i : Item} {pre post xs : Forest} {k : Option (Nat × CString)} {d : Data}

/-- The last child is the last of those after, if there are any. -/
theorem last_after {g : Forest} (hz : post.last = some z) : (pre ++ (g ++ post)).last = some z := by
  rw [Forest.last_append, Forest.last_append, hz]
  rfl

/-- The first child is the first of those before, if there are any. -/
theorem head_before {g : Forest} (hf : pre.head = some f) : (pre ++ g).head = some f := by
  rw [Forest.head_append, hf]
  rfl

theorem Parent.cut (hp : Parent h p i (pre ++ (single a k d xs ++ post)))
    (hnodup : (p :: (pre ++ (single a k d xs ++ post)).addrs).Nodup) : Cut h p i pre a k d xs post := by
  obtain ⟨hcell, hchain⟩ := hp
  rw [chain_append, chain_append] at hchain
  obtain ⟨hpre, hx, hpost⟩ := hchain
  rw [Option.or_none] at hx
  exact ⟨hcell, hpre, hx, hpost, apart_of_nodup hnodup⟩

namespace Cut

variable (hc : Cut h p i pre a k d xs post)

include hc

theorem nextOf : nextOf a h = some (post.head, h) := by
  rw [nextOf_of hc.item.1]
  rfl

theorem prevOf : prevOf a h = some (pre.last.or (pre ++ (single a k d xs ++ post)).last, h) := prevOf_of hc.item.1

theorem childOf : childOf p h = some (pre.head.or (some a), h) := by
  rw [childOf_of hc.cell, Forest.head_append]
  rfl

/-- Other cells may change. -/
theorem frame {F E : List Nat} (hl : Local h h' F E)
    (hout : ∀ b ∈ p :: (pre ++ (single a k d xs ++ post)).addrs, b ∉ F) : Cut h' p i pre a k d xs post := by
  simp only [Forest.addrs_append, List.forall_mem_cons, List.forall_mem_append] at hout
  obtain ⟨hp, hpre, hx, hpost⟩ := hout
  refine ⟨?_, hc.before.frame hl hpre, hc.item.frame hl hx, hc.after.frame hl hpost, hc.apart⟩
  exact (hl.frame p hp (by simp [hc.cell])).trans hc.cell

end Cut

end Cut

/-! ## Detaching -/

section Detach

variable {p a b f z : Nat} {i : Item} {pre post xs : Forest} {k : Option (Nat × CString)} {d : Data}

/-- An item alone has no links. -/
theorem run_unlink {before stop : Option Nat} (hx : Chain h before stop (single a k d xs))
    (hnodup : (single a k d xs).addrs.Nodup) :
    ∃ h₁ h', setPrev a none h = some ((), h₁) ∧ setNext a none h₁ = some ((), h') ∧
      Chain h' none none (single a k d xs) ∧ Exchanges h h' [a] [a] := by
  obtain ⟨h₁, hrun₁, hx₁, he₁⟩ := run_setPrev hx hnodup none
  obtain ⟨h₂, hrun₂, hx₂, he₂⟩ := run_setNext hx₁ hnodup rfl none
  exact ⟨h₁, h₂, hrun₁, hrun₂, hx₂, he₁.trans he₂⟩

/-- The child is detached, and the others stay. -/
def Detaches (h : Heap Cell) (p : Nat) (i : Item) (pre : Forest) (a : Nat) (k : Option (Nat × CString)) (d : Data)
    (xs post : Forest) : Prop :=
  ∃ h', detachItemViaPointer (some p) (some a) h = some (some a, h') ∧ Parent h' p i (pre ++ post) ∧
    Chain h' none none (single a k d xs) ∧
    Exchanges h h' (p :: (pre ++ (single a k d xs ++ post)).addrs) (p :: (pre ++ (single a k d xs ++ post)).addrs)

theorem Cut.detach_only (hc : Cut h p i .nil a k d xs .nil) : Detaches h p i .nil a k d xs .nil := by
  have hpa : p ∉ [a] := fun hin => hc.apart.parentItem (List.mem_singleton.mp hin ▸ mem_single)
  obtain ⟨h₁, hrun₁, hcell₁, he₁⟩ := run_setItem hc.cell fun i => { i with child := none }
  obtain ⟨h₂, h₃, hrun₂, hrun₃, hx₃, he₃⟩ :=
    run_unlink (hc.item.frame he₁.toLocal (notMem_singleton hc.apart.parentItem)) hc.apart.item
  refine ⟨h₃, ?_, ⟨he₃.kept hpa hcell₁, trivial⟩, hx₃, ?_⟩
  · have hchild : Cjson.childOf p h = some (some a, h) := hc.childOf
    have hnext : Cjson.nextOf a h = some (none, h) := hc.nextOf
    simp only [detachItemViaPointer, bind_of hchild, bind_of hc.prevOf, bind_of hnext, ne_eq, not_true_eq_false,
      false_and, if_false, if_true]
    rw [setChild, bind_of hrun₁, bind_of hrun₂, bind_of hrun₃]
    rfl
  · exact (he₁.within (singleton_subset (.inl rfl))).trans
      (he₃.within (singleton_subset (.inr (.inr (.inl mem_single)))))

theorem Cut.detach_first (hc : Cut h p i .nil a k d xs post) (hb : post.head = some b) :
    Detaches h p i .nil a k d xs post := by
  obtain ⟨z, hz⟩ := exists_last hb
  have hbpost := post.head_mem hb
  have hpa : p ∉ [a] := fun hin => hc.apart.parentItem (List.mem_singleton.mp hin ▸ mem_single)
  have hpb : p ∉ [b] := fun hin => hc.apart.parentAfter (List.mem_singleton.mp hin ▸ hbpost)
  have hbx : b ∉ (single a k d xs).addrs := fun hin => hc.apart.itemAfter b hin hbpost
  have hapost := hc.apart.itemAfter a mem_single
  have hprev : Cjson.prevOf a h = some (some z, h) := by
    rw [hc.prevOf, last_after hz]
    rfl
  obtain ⟨h₁, hrun₁, hpost₁, he₁⟩ := run_setPrev_head hc.after hc.apart.after hb (some z)
  have hx₁ := hc.item.frame he₁.toLocal (notMem_singleton hbx)
  have hcell₁ := he₁.kept hpb hc.cell
  obtain ⟨h₂, hrun₂, hcell₂, he₂⟩ := run_setItem hcell₁ fun i => { i with child := some b }
  have hpost₂ := hpost₁.frame he₂.toLocal (notMem_singleton hc.apart.parentAfter)
  obtain ⟨h₃, h₄, hrun₃, hrun₄, hx₄, he₄⟩ :=
    run_unlink (hx₁.frame he₂.toLocal (notMem_singleton hc.apart.parentItem)) hc.apart.item
  refine ⟨h₄, ?_, ⟨?_, ?_⟩, hx₄, ?_⟩
  · have hchild : Cjson.childOf p h = some (some a, h) := hc.childOf
    have hnext : Cjson.nextOf a h = some (some b, h) := hb ▸ hc.nextOf
    have hchild₁ : Cjson.childOf p h₁ = some (some a, h₁) := childOf_of hcell₁
    have hnext₁ : Cjson.nextOf a h₁ = some (some b, h₁) := hb ▸ nextOf_of hx₁.1
    simp only [detachItemViaPointer, bind_of hchild, bind_of hprev, bind_of hnext, ne_eq, not_true_eq_false,
      false_and, if_false, if_true, bind_of hrun₁, bind_of hchild₁, bind_of hnext₁]
    rw [setChild, bind_of hrun₂, bind_of hrun₃, bind_of hrun₄]
    rfl
  · rw [Forest.nil_append, hb]
    exact he₄.kept hpa hcell₂
  · rw [Forest.nil_append, hz]
    exact hpost₂.frame he₄.toLocal (notMem_singleton hapost)
  · exact ((he₁.within (singleton_subset (.inr (.inr (.inr hbpost))))).trans
      (he₂.within (singleton_subset (.inl rfl)))).trans (he₄.within (singleton_subset (.inr (.inr (.inl mem_single)))))

theorem Cut.detach_last (hc : Cut h p i pre a k d xs .nil) (hf : pre.head = some f) :
    Detaches h p i pre a k d xs .nil := by
  obtain ⟨z, hz⟩ := exists_last hf
  have hfpre := pre.head_mem hf
  have hzpre := pre.last_mem hz
  have hapre : a ∉ pre.addrs := fun hin => hc.apart.beforeItem a hin mem_single
  have hfa : some f ≠ some a := fun he => hapre (Option.some.inj he ▸ hfpre)
  have hpa : p ∉ [a] := fun hin => hc.apart.parentItem (List.mem_singleton.mp hin ▸ mem_single)
  have hpf : p ∉ [f] := fun hin => hc.apart.parentBefore (List.mem_singleton.mp hin ▸ hfpre)
  have hpz : p ∉ [z] := fun hin => hc.apart.parentBefore (List.mem_singleton.mp hin ▸ hzpre)
  have hcell := hc.cell
  have hx := hc.item
  rw [head_before hf] at hcell
  rw [hz] at hx
  obtain ⟨h₁, hrun₁, hpre₁, he₁⟩ := run_setNext hc.before hc.apart.before hz none
  have hx₁ := hx.frame he₁.toLocal (notMem_singleton (hc.apart.beforeItem z hzpre))
  have hcell₁ := he₁.kept hpz hcell
  obtain ⟨h₂, hrun₂, hpre₂, he₂⟩ := run_setPrev_head hpre₁ hc.apart.before hf (some z)
  obtain ⟨h₃, h₄, hrun₃, hrun₄, hx₄, he₄⟩ :=
    run_unlink (hx₁.frame he₂.toLocal (notMem_singleton (hc.apart.beforeItem f hfpre))) hc.apart.item
  refine ⟨h₄, ?_, ⟨?_, ?_⟩, hx₄, ?_⟩
  · have hchild : Cjson.childOf p h = some (some f, h) := childOf_of hcell
    have hprev : Cjson.prevOf a h = some (some z, h) := prevOf_of hx.1
    have hnext : Cjson.nextOf a h = some (none, h) := hc.nextOf
    have hchild₁ : Cjson.childOf p h₁ = some (some f, h₁) := childOf_of hcell₁
    have hprev₁ : Cjson.prevOf a h₁ = some (some z, h₁) := prevOf_of hx₁.1
    have hnext₁ : Cjson.nextOf a h₁ = some (none, h₁) := nextOf_of hx₁.1
    simp only [detachItemViaPointer, bind_of hchild, bind_of hprev, bind_of hnext, ne_eq, hfa, not_false_eq_true,
      reduceCtorEq, and_false, if_false, if_true, bind_of (deref_of rfl), bind_of hrun₁, bind_of hchild₁,
      bind_of hnext₁, bind_of hprev₁]
    rw [bind_of hrun₂, bind_of hrun₃, bind_of hrun₄]
    rfl
  · rw [Forest.append_nil, hf]
    exact he₄.kept hpa (he₂.kept hpf hcell₁)
  · rw [Forest.append_nil, hz]
    exact hpre₂.frame he₄.toLocal (notMem_singleton hapre)
  · exact ((he₁.within (singleton_subset (.inr (.inl hzpre)))).trans
      (he₂.within (singleton_subset (.inr (.inl hfpre))))).trans
        (he₄.within (singleton_subset (.inr (.inr (.inl mem_single)))))

theorem Cut.detach_between (hc : Cut h p i pre a k d xs post) (hf : pre.head = some f) (hb : post.head = some b) :
    Detaches h p i pre a k d xs post := by
  obtain ⟨z, hz⟩ := exists_last hf
  obtain ⟨y, hy⟩ := exists_last hb
  have hfpre := pre.head_mem hf
  have hzpre := pre.last_mem hz
  have hbpost := post.head_mem hb
  have hapre : a ∉ pre.addrs := fun hin => hc.apart.beforeItem a hin mem_single
  have hapost := hc.apart.itemAfter a mem_single
  have hfa : some f ≠ some a := fun he => hapre (Option.some.inj he ▸ hfpre)
  have hpa : p ∉ [a] := fun hin => hc.apart.parentItem (List.mem_singleton.mp hin ▸ mem_single)
  have hpb : p ∉ [b] := fun hin => hc.apart.parentAfter (List.mem_singleton.mp hin ▸ hbpost)
  have hpz : p ∉ [z] := fun hin => hc.apart.parentBefore (List.mem_singleton.mp hin ▸ hzpre)
  have hbx : b ∉ (single a k d xs).addrs := fun hin => hc.apart.itemAfter b hin hbpost
  have hbpre : b ∉ pre.addrs := fun hin => hc.apart.beforeAfter b hin hbpost
  have hcell := hc.cell
  have hx := hc.item
  have hpre := hc.before
  rw [head_before hf] at hcell
  rw [hz] at hx
  rw [last_after hy] at hpre
  obtain ⟨h₁, hrun₁, hpre₁, he₁⟩ := run_setNext hpre hc.apart.before hz (some b)
  have hx₁ := hx.frame he₁.toLocal (notMem_singleton (hc.apart.beforeItem z hzpre))
  have hcell₁ := he₁.kept hpz hcell
  obtain ⟨h₂, hrun₂, hpost₂, he₂⟩ := run_setPrev_head
    (hc.after.frame he₁.toLocal (notMem_singleton (hc.apart.beforeAfter z hzpre))) hc.apart.after hb (some z)
  have hx₂ := hx₁.frame he₂.toLocal (notMem_singleton hbx)
  have hcell₂ := he₂.kept hpb hcell₁
  obtain ⟨h₃, h₄, hrun₃, hrun₄, hx₄, he₄⟩ := run_unlink hx₂ hc.apart.item
  refine ⟨h₄, ?_, ⟨?_, ?_⟩, hx₄, ?_⟩
  · have hchild : Cjson.childOf p h = some (some f, h) := childOf_of hcell
    have hprev : Cjson.prevOf a h = some (some z, h) := prevOf_of hx.1
    have hnext : Cjson.nextOf a h = some (some b, h) := hb ▸ hc.nextOf
    have hnext₁ : Cjson.nextOf a h₁ = some (some b, h₁) := hb ▸ nextOf_of hx₁.1
    have hprev₁ : Cjson.prevOf a h₁ = some (some z, h₁) := prevOf_of hx₁.1
    have hchild₂ : Cjson.childOf p h₂ = some (some f, h₂) := childOf_of hcell₂
    have hnext₂ : Cjson.nextOf a h₂ = some (some b, h₂) := hb ▸ nextOf_of hx₂.1
    simp only [detachItemViaPointer, bind_of hchild, bind_of hprev, bind_of hnext, ne_eq, hfa, not_false_eq_true,
      reduceCtorEq, and_false, if_false, if_true, bind_of (deref_of rfl), bind_of hrun₁, bind_of hnext₁,
      bind_of hprev₁, bind_of hrun₂, bind_of hchild₂, bind_of hnext₂]
    rw [bind_of hrun₃, bind_of hrun₄]
    rfl
  · rw [head_before hf]
    exact he₄.kept hpa hcell₂
  · rw [Forest.last_append, hy, chain_append, hb, hz]
    exact ⟨(hpre₁.frame he₂.toLocal (notMem_singleton hbpre)).frame he₄.toLocal (notMem_singleton hapre),
      hpost₂.frame he₄.toLocal (notMem_singleton hapost)⟩
  · exact ((he₁.within (singleton_subset (.inr (.inl hzpre)))).trans
      (he₂.within (singleton_subset (.inr (.inr (.inr hbpost)))))).trans
        (he₄.within (singleton_subset (.inr (.inr (.inl mem_single)))))

theorem Cut.detach (hc : Cut h p i pre a k d xs post) : Detaches h p i pre a k d xs post := by
  cases hf : pre.head with
  | none =>
    obtain rfl := pre.eq_nil_of_head hf
    cases hb : post.head with
    | none =>
      obtain rfl := post.eq_nil_of_head hb
      exact hc.detach_only
    | some b => exact hc.detach_first hb
  | some f =>
    cases hb : post.head with
    | none =>
      obtain rfl := post.eq_nil_of_head hb
      exact hc.detach_last hf
    | some b => exact hc.detach_between hf hb

end Detach

/-! ## Replacing -/

section Replace

variable {p a b f r z : Nat} {i : Item} {pre post xs ys : Forest} {k kr : Option (Nat × CString)} {d dr : Data}

/-- The replacement is linked in where the item was. -/
def Links (h : Heap Cell) (p a : Nat) (i : Item) (pre : Forest) (r : Nat) (kr : Option (Nat × CString)) (dr : Data)
    (ys post : Forest) : Prop :=
  ∃ h', linkTo p a r h = some ((), h') ∧ Parent h' p i (pre ++ (single r kr dr ys ++ post)) ∧
    Exchanges h h' (p :: (pre ++ (single r kr dr ys ++ post)).addrs) (p :: (pre ++ (single r kr dr ys ++ post)).addrs)

theorem Cut.link_only (hc : Cut h p i .nil a k d xs .nil) (hy : Chain h (some a) none (single r kr dr ys))
    (hapart : Apart p .nil (single r kr dr ys) .nil) :
    Links h p a i .nil r kr dr ys .nil := by
  have hpr : p ∉ [r] := fun hin => hapart.parentItem (List.mem_singleton.mp hin ▸ mem_single)
  -- It is the only child, and its own last one.
  obtain ⟨h₁, hrun₁, hy₁, he₁⟩ := run_setPrev hy hapart.item (some r)
  obtain ⟨h₂, hrun₂, hcell₂, he₂⟩ := run_setItem (he₁.kept hpr hc.cell) fun i => { i with child := some r }
  refine ⟨h₂, ?_, ⟨hcell₂, hy₁.frame he₂.toLocal (notMem_singleton hapart.parentItem)⟩, ?_⟩
  · have hnext : Cjson.nextOf r h = some (none, h) := nextOf_of hy.1
    have hchild : Cjson.childOf p h = some (some a, h) := hc.childOf
    have hprev : Cjson.prevOf a h = some (some a, h) := hc.prevOf
    simp only [linkTo, bind_of hnext, bind_of hchild, if_true, bind_of (deref_of rfl), bind_of hprev, bind_of hrun₁]
    exact hrun₂
  · exact (he₁.within (singleton_subset (.inr (.inr (.inl mem_single))))).trans
      (he₂.within (singleton_subset (.inl rfl)))

theorem Cut.link_first (hc : Cut h p i .nil a k d xs post) (hb : post.head = some b) (hz : post.last = some z)
    (hy : Chain h (some z) (some b) (single r kr dr ys)) (hapart : Apart p .nil (single r kr dr ys) post) :
    Links h p a i .nil r kr dr ys post := by
  have hbpost := post.head_mem hb
  have hza : some z ≠ some a := fun he =>
    hc.apart.itemAfter a mem_single (Option.some.inj he ▸ post.last_mem hz)
  have hpb : p ∉ [b] := fun hin => hc.apart.parentAfter (List.mem_singleton.mp hin ▸ hbpost)
  have hbx : b ∉ (single a k d xs).addrs := fun hin => hc.apart.itemAfter b hin hbpost
  have hby : b ∉ (single r kr dr ys).addrs := fun hin => hapart.itemAfter b hin hbpost
  have hx := hc.item
  rw [last_after hz] at hx
  obtain ⟨h₁, hrun₁, hpost₁, he₁⟩ := run_setPrev_head hc.after hc.apart.after hb (some r)
  have hx₁ := hx.frame he₁.toLocal (notMem_singleton hbx)
  have hy₁ := hy.frame he₁.toLocal (notMem_singleton hby)
  have hcell₁ := he₁.kept hpb hc.cell
  obtain ⟨h₂, hrun₂, hcell₂, he₂⟩ := run_setItem hcell₁ fun i => { i with child := some r }
  refine ⟨h₂, ?_, ⟨hcell₂, ?_⟩, ?_⟩
  · have hnext : Cjson.nextOf r h = some (some b, h) := nextOf_of hy.1
    have hchild₁ : Cjson.childOf p h₁ = some (some a, h₁) := childOf_of hcell₁
    have hprev₁ : Cjson.prevOf a h₁ = some (some z, h₁) := prevOf_of hx₁.1
    simp only [linkTo, bind_of hnext, bind_of hrun₁, bind_of hchild₁, if_true, bind_of (deref_of rfl), bind_of hprev₁,
      if_neg hza]
    exact hrun₂
  · rw [last_after hz, Forest.nil_append, chain_append, hb]
    exact ⟨hy₁.frame he₂.toLocal (notMem_singleton hapart.parentItem),
      hpost₁.frame he₂.toLocal (notMem_singleton hc.apart.parentAfter)⟩
  · exact (he₁.within (singleton_subset (.inr (.inr (.inr hbpost))))).trans (he₂.within (singleton_subset (.inl rfl)))

theorem Cut.link_last (hc : Cut h p i pre a k d xs .nil) (hf : pre.head = some f) (hz : pre.last = some z)
    (hy : Chain h (some z) none (single r kr dr ys)) (hapart : Apart p pre (single r kr dr ys) .nil) :
    Links h p a i pre r kr dr ys .nil := by
  have hfpre := pre.head_mem hf
  have hzpre := pre.last_mem hz
  have hfa : some f ≠ some a := fun he => hc.apart.beforeItem f hfpre (Option.some.inj he ▸ mem_single)
  have hpf : p ∉ [f] := fun hin => hc.apart.parentBefore (List.mem_singleton.mp hin ▸ hfpre)
  have hpz : p ∉ [z] := fun hin => hc.apart.parentBefore (List.mem_singleton.mp hin ▸ hzpre)
  have hcell := hc.cell
  rw [head_before hf] at hcell
  obtain ⟨h₁, hrun₁, hpre₁, he₁⟩ := run_setNext hc.before hc.apart.before hz (some r)
  have hy₁ := hy.frame he₁.toLocal (notMem_singleton (hapart.beforeItem z hzpre))
  have hcell₁ := he₁.kept hpz hcell
  obtain ⟨h₂, hrun₂, hpre₂, he₂⟩ := run_setPrev_head hpre₁ hc.apart.before hf (some r)
  refine ⟨h₂, ?_, ⟨?_, ?_⟩, ?_⟩
  · have hnext : Cjson.nextOf r h = some (none, h) := nextOf_of hy.1
    have hchild : Cjson.childOf p h = some (some f, h) := childOf_of hcell
    have hprev : Cjson.prevOf r h = some (some z, h) := prevOf_of hy.1
    have hnext₁ : Cjson.nextOf r h₁ = some (none, h₁) := nextOf_of hy₁.1
    have hchild₁ : Cjson.childOf p h₁ = some (some f, h₁) := childOf_of hcell₁
    simp only [linkTo, bind_of hnext, bind_of hchild, if_neg hfa, bind_of hprev, bind_of hrun₁, bind_of hnext₁, if_true,
      bind_of hchild₁, bind_of (deref_of rfl)]
    exact hrun₂
  · rw [head_before hf]
    exact he₂.kept hpf hcell₁
  · have hlast : (pre ++ (single r kr dr ys ++ Forest.nil)).last = some r := by rw [Forest.last_append]; rfl
    rw [hlast, Forest.append_nil, chain_append, hz]
    exact ⟨hpre₂, hy₁.frame he₂.toLocal (notMem_singleton (hapart.beforeItem f hfpre))⟩
  · exact (he₁.within (singleton_subset (.inr (.inl hzpre)))).trans
      (he₂.within (singleton_subset (.inr (.inl hfpre))))

theorem Cut.link_between (hc : Cut h p i pre a k d xs post) (hf : pre.head = some f) (hb : post.head = some b)
    (hz : pre.last = some z) (hy : Chain h (some z) (some b) (single r kr dr ys))
    (hapart : Apart p pre (single r kr dr ys) post) : Links h p a i pre r kr dr ys post := by
  obtain ⟨y, hlast⟩ := exists_last hb
  have hfpre := pre.head_mem hf
  have hzpre := pre.last_mem hz
  have hbpost := post.head_mem hb
  have hfa : some f ≠ some a := fun he => hc.apart.beforeItem f hfpre (Option.some.inj he ▸ mem_single)
  have hpb : p ∉ [b] := fun hin => hc.apart.parentAfter (List.mem_singleton.mp hin ▸ hbpost)
  have hpz : p ∉ [z] := fun hin => hc.apart.parentBefore (List.mem_singleton.mp hin ▸ hzpre)
  have hbpre : b ∉ pre.addrs := fun hin => hc.apart.beforeAfter b hin hbpost
  have hby : b ∉ (single r kr dr ys).addrs := fun hin => hapart.itemAfter b hin hbpost
  have hcell := hc.cell
  have hpre := hc.before
  rw [head_before hf] at hcell
  rw [last_after hlast] at hpre
  obtain ⟨h₁, hrun₁, hpost₁, he₁⟩ := run_setPrev_head hc.after hc.apart.after hb (some r)
  have hy₁ := hy.frame he₁.toLocal (notMem_singleton hby)
  have hcell₁ := he₁.kept hpb hcell
  obtain ⟨h₂, hrun₂, hpre₂, he₂⟩ := run_setNext (hpre.frame he₁.toLocal (notMem_singleton hbpre)) hc.apart.before hz
    (some r)
  have hy₂ := hy₁.frame he₂.toLocal (notMem_singleton (hapart.beforeItem z hzpre))
  refine ⟨h₂, ?_, ⟨?_, ?_⟩, ?_⟩
  · have hnext : Cjson.nextOf r h = some (some b, h) := nextOf_of hy.1
    have hchild₁ : Cjson.childOf p h₁ = some (some f, h₁) := childOf_of hcell₁
    have hprev₁ : Cjson.prevOf r h₁ = some (some z, h₁) := prevOf_of hy₁.1
    have hnext₂ : Cjson.nextOf r h₂ = some (some b, h₂) := nextOf_of hy₂.1
    simp only [linkTo, bind_of hnext, bind_of hrun₁, bind_of hchild₁, if_neg hfa, bind_of hprev₁, bind_of hrun₂,
      bind_of hnext₂, reduceCtorEq, if_false]
    rfl
  · rw [head_before hf]
    exact he₂.kept hpz hcell₁
  · rw [last_after hlast, chain_append, chain_append, hz, hb]
    exact ⟨hpre₂, hy₂, hpost₁.frame he₂.toLocal (notMem_singleton (hapart.beforeAfter z hzpre))⟩
  · exact (he₁.within (singleton_subset (.inr (.inr (.inr hbpost))))).trans
      (he₂.within (singleton_subset (.inr (.inl hzpre))))

theorem Cut.link (hc : Cut h p i pre a k d xs post)
    (hy : Chain h (pre.last.or (pre ++ (single a k d xs ++ post)).last) post.head (single r kr dr ys))
    (hapart : Apart p pre (single r kr dr ys) post) : Links h p a i pre r kr dr ys post := by
  cases hf : pre.head with
  | none =>
    obtain rfl := pre.eq_nil_of_head hf
    cases hb : post.head with
    | none =>
      obtain rfl := post.eq_nil_of_head hb
      exact hc.link_only hy hapart
    | some b =>
      obtain ⟨z, hz⟩ := exists_last hb
      rw [last_after hz, hb] at hy
      exact hc.link_first hb hz hy hapart
  | some f =>
    obtain ⟨z, hz⟩ := exists_last hf
    rw [hz] at hy
    cases hb : post.head with
    | none =>
      obtain rfl := post.eq_nil_of_head hb
      exact hc.link_last hf hz hy hapart
    | some b =>
      rw [hb] at hy
      exact hc.link_between hf hb hz hy hapart

/-- The item that has been replaced goes with all it has. -/
theorem run_discard {before stop : Option Nat} (hx : Chain h before stop (single a k d xs))
    (hnodup : (single a k d xs).addrs.Nodup) :
    ∃ h₁ h₂ h', setNext a none h = some ((), h₁) ∧ setPrev a none h₁ = some ((), h₂) ∧
      delete (some a) h₂ = some ((), h') ∧ Exchanges h h' (single a k d xs).addrs [] := by
  have hsub : [a] ⊆ (single a k d xs).addrs := List.cons_subset.mpr ⟨List.mem_cons_self, List.nil_subset _⟩
  obtain ⟨h₁, hrun₁, hx₁, he₁⟩ := run_setNext hx hnodup rfl none
  obtain ⟨h₂, hrun₂, hx₂, he₂⟩ := run_setPrev hx₁ hnodup none
  obtain ⟨h₃, hrun₃, he₃⟩ := run_delete hx₂ hnodup
  exact ⟨h₁, h₂, h₃, hrun₁, hrun₂, hrun₃, ((he₁.within hsub).trans (he₂.within hsub)).trans he₃⟩

theorem Cut.replace (hc : Cut h p i pre a k d xs post) (hy : Chain h none none (single r kr dr ys))
    (hny : (single r kr dr ys).addrs.Nodup)
    (hapart : ∀ b ∈ p :: (pre ++ (single a k d xs ++ post)).addrs, b ∉ (single r kr dr ys).addrs) :
    ∃ h', replaceItemViaPointer (some p) (some a) (some r) h = some (true, h') ∧
      Parent h' p i (pre ++ (single r kr dr ys ++ post)) ∧
      Exchanges h h' (p :: ((pre ++ (single a k d xs ++ post)).addrs ++ (single r kr dr ys).addrs))
        (p :: (pre ++ (single r kr dr ys ++ post)).addrs) := by
  have hry : r ∈ (single r kr dr ys).addrs := mem_single
  have hkept : ∀ b ∈ p :: (pre ++ (single a k d xs ++ post)).addrs, b ∉ [r] := fun b hb hin =>
    hapart b hb (List.mem_singleton.mp hin ▸ hry)
  simp only [Forest.addrs_append, List.forall_mem_cons, List.forall_mem_append] at hapart
  obtain ⟨hpy, hprey, hxy, hposty⟩ := hapart
  have hra : r ≠ a := fun he => hxy a mem_single (he ▸ hry)
  have hnew : Apart p pre (single r kr dr ys) post :=
    { hc.apart with item := hny, parentItem := hpy, beforeItem := hprey, itemAfter := fun b hb hin => hposty b hin hb }
  -- The replacement takes the links of the item, and others take links to it.
  obtain ⟨h₁, hrun₁, hy₁, he₁⟩ := run_setNext hy hny rfl post.head
  have hc₁ := hc.frame he₁.toLocal hkept
  obtain ⟨h₂, hrun₂, hy₂, he₂⟩ := run_setPrev hy₁ hny (pre.last.or (pre ++ (single a k d xs ++ post)).last)
  have hc₂ := hc₁.frame he₂.toLocal hkept
  obtain ⟨h₃, hrun₃, hp₃, he₃⟩ := hc₂.link hy₂ hnew
  have hxout : ∀ b ∈ (single a k d xs).addrs, b ∉ p :: (pre ++ (single r kr dr ys ++ post)).addrs := by
    intro b hb
    simp only [Forest.addrs_append, List.mem_cons, List.mem_append, not_or]
    refine ⟨?_, fun hin => hc.apart.beforeItem b hin hb, hxy b hb, hc.apart.itemAfter b hb⟩
    rintro rfl
    exact hc.apart.parentItem hb
  -- The item goes.
  obtain ⟨h₄, h₅, h₆, hrun₄, hrun₅, hrun₆, he₆⟩ := run_discard (hc₂.item.frame he₃.toLocal hxout) hc.apart.item
  refine ⟨h₆, ?_, ?_, ?_⟩
  · have hchild : ∀ o : Option Nat, o.or (some a) ≠ none := fun o => by cases o <;> exact Option.some_ne_none _
    simp only [replaceItemViaPointer, bind_of hc.childOf, if_neg (hchild _), if_neg hra, bind_of hc.nextOf,
      bind_of hrun₁, bind_of hc₁.prevOf, bind_of hrun₂, bind_of hrun₃, bind_of hrun₄, bind_of hrun₅, bind_of hrun₆]
    rfl
  · have hstays : ∀ b ∈ p :: (pre ++ (single r kr dr ys ++ post)).addrs, b ∉ (single a k d xs).addrs :=
      fun b hb hin => hxout b hin hb
    exact ⟨he₆.kept (hstays p List.mem_cons_self) hp₃.cell,
      hp₃.chain.frame he₆.toLocal fun b hb => hstays b (List.mem_cons_of_mem _ hb)⟩
  · have hlinked := ((he₁.trans he₂).within (singleton_subset (.inr (.inr (.inl hry))))).trans he₃
    have hall := (hlinked.beside (single a k d xs).addrs).trans
      ((he₆.beside (p :: (pre ++ (single r kr dr ys ++ post)).addrs)).listed
        (D := (single a k d xs).addrs ++ p :: (pre ++ (single r kr dr ys ++ post)).addrs)
        (fun b => by simp only [List.mem_append, or_comm]) fun _ => Iff.rfl)
    refine hall.listed (fun b => ?_) fun b => ?_
    · simp only [Forest.addrs_append, List.mem_cons, List.mem_append]
      tauto
    · simp only [List.append_nil]

end Replace

end Cjson

end FinalServer
