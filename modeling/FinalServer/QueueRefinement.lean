/-
The linked queue is a queue.

A `Model` knows nothing of nodes: it maps the pointers of the queues there
are to lists of elements. `queue_refines` says that in every sequence of
calls on any number of queues, with allocations that succeed, every function
does to the heap what the model says it does to the lists, answers what the
model answers, and leaves all other queues as they are.
-/
import FinalServer.Queue
import FinalServer.Run

namespace FinalServer

namespace Queue

open Heap (Mem Local Allocator)
open Heap.Mem

/-- What a caller knows of a queue: its elements, oldest first. -/
structure Contents (α : Type) where
  allocationSize : Nat
  elements : List α

/-- The queues there are, by their pointers. -/
abbrev Model (α : Type) := Nat → Option (Contents α)

/-- A call, with what the caller's variable holds where one is passed. -/
inductive Call (α : Type)
  | createQueue (allocSize : Nat)
  | enqueue (q : Option Nat) (data : α)
  | dequeue (q : Option Nat) (data : α)
  | front (q : Option Nat) (data : α)
  | reverse (q : Option Nat)
  | clearQueue (q : Option Nat)
  | copyQueue (q : Option Nat)
  | destroyQueue (q : Option Nat)

/-- The pointer a call returns or leaves in `*q`, and what it leaves in the
caller's variable. -/
structure Reply (α : Type) where
  queue : Option Nat
  data : Option α

variable {α : Type}

def Call.exec (A : Allocator (Cell α)) : Call α → Mem (Cell α) (Reply α)
  | .createQueue n => do
    let q ← Queue.createQueue A n
    pure ⟨q, none⟩
  | .enqueue q data => do
    let q ← Queue.enqueue A q data
    pure ⟨q, none⟩
  | .dequeue q data => do
    let r ← Queue.dequeue q
    pure ⟨r.1, some (r.2.getD data)⟩
  | .front q data => do
    let r ← Queue.front q
    pure ⟨r.1, some (r.2.getD data)⟩
  | .reverse q => do
    let q ← Queue.reverse A q
    pure ⟨q, none⟩
  | .clearQueue q => do
    let q ← Queue.clearQueue q
    pure ⟨q, none⟩
  | .copyQueue q => do
    let q ← Queue.copyQueue A q
    pure ⟨q, none⟩
  | .destroyQueue q => do
    let q ← Queue.destroyQueue q
    pure ⟨q, none⟩

/-- The queue a call is for. -/
def Call.queue : Call α → Option Nat
  | .createQueue _ => none
  | .enqueue q _ | .dequeue q _ | .front q _ => q
  | .reverse q | .clearQueue q | .copyQueue q | .destroyQueue q => q

/-! ## The model -/

namespace Model

variable (M : Model α)

/-- The queue a pointer leads to. -/
def find (q : Option Nat) : Option (Contents α) := q.bind M

/-- A queue's elements change. -/
def change (q : Option Nat) (f : List α → List α) : Model α :=
  match q with
  | none => M
  | some q => Function.update M q ((M q).map fun c => { c with elements := f c.elements })

/-- A queue is made. -/
def add (q : Option Nat) (c : Contents α) : Model α :=
  match q with
  | none => M
  | some q => Function.update M q (some c)

/-- A queue is gone. -/
def remove (q : Option Nat) : Model α :=
  match q with
  | none => M
  | some q => Function.update M q none

/-- The pointer is `NULL` or a queue's. -/
def Legal (c : Call α) : Prop := c.queue.all (fun q => (M q).isSome) = true

instance (c : Call α) : Decidable (M.Legal c) := inferInstanceAs (Decidable (_ = true))

/-- The oldest element, or the queue is empty and the variable untouched. -/
def firstOr (q : Option Nat) (data : α) : Reply α :=
  match (find M q).bind fun c => c.elements.head? with
  | some x => ⟨q, some x⟩
  | none => ⟨none, some data⟩

/-- What a call answers. -/
def Answers : Call α → Reply α → Prop
  | .createQueue _, r => ∃ q, M q = none ∧ r = ⟨some q, none⟩
  | .enqueue q _, r => r = ⟨q, none⟩
  | .dequeue q data, r => r = firstOr M q data
  | .front q data, r => r = firstOr M q data
  | .reverse q, r => r = ⟨q, none⟩
  | .clearQueue q, r => r = ⟨q, none⟩
  | .copyQueue none, r => r = ⟨none, none⟩
  | .copyQueue (some _), r => ∃ q', M q' = none ∧ r = ⟨some q', none⟩
  | .destroyQueue _, r => r = ⟨none, none⟩

/-- What becomes of the queues; a queue that is made has the pointer answered. -/
def next (r : Reply α) : Call α → Model α
  | .createQueue n => M.add r.queue ⟨n, []⟩
  | .enqueue q data => M.change q fun xs => xs ++ [data]
  | .dequeue q _ => M.change q List.tail
  | .front _ _ => M
  | .reverse q => M.change q List.reverse
  | .clearQueue q => M.change q fun _ => []
  | .copyQueue q => (find M q).elim M (M.add r.queue)
  | .destroyQueue q => M.remove q

end Model

/-! ## The heap holds the model's queues -/

/-- Each queue of the model is on the heap, and no two share a cell. -/
structure Represents (h : Heap (Cell α)) (M : Model α) (links : Nat → List (Link α)) : Prop where
  queues : ∀ q c, M q = some c → IsQueue h q c.allocationSize (links q) ∧ elements (links q) = c.elements
  apart : ∀ q q' c c', M q = some c → M q' = some c' → q ≠ q' →
    ∀ a ∈ footprint q (links q), a ∉ footprint q' (links q')

variable {h h' : Heap (Cell α)} {M : Model α} {links : Nat → List (Link α)} {A : Allocator (Cell α)}

/-- A program that works on one queue of the model changes that one alone. -/
theorem Represents.update (hR : Represents h M links) {q : Nat} {o : Option (Contents α)} {ls : List (Link α)}
    {F F' : List Nat} (hl : Local h h' F F')
    (hF : ∀ q' c', M q' = some c' → q' ≠ q → ∀ a ∈ footprint q' (links q'), a ∉ F)
    (hnew : ∀ c, o = some c →
      IsQueue h' q c.allocationSize ls ∧ elements ls = c.elements ∧ footprint q ls = F') :
    Represents h' (Function.update M q o) (Function.update links q ls) := by
  -- What another queue owns is not among the cells of this one afterwards.
  have hothers : ∀ q' c' c, M q' = some c' → q' ≠ q → o = some c →
      ∀ a ∈ footprint q' (links q'), a ∉ footprint q ls := by
    intro q' c' c hc' hne hc a ha
    obtain ⟨-, -, hfp⟩ := hnew c hc
    rw [hfp]
    exact hl.notMem (hF q' c' hc' hne a ha) ((hR.queues q' c' hc').1.live a ha)
  constructor
  · intro q' c' hc'
    by_cases hne : q' = q
    · subst hne
      rw [Function.update_self] at hc' ⊢
      obtain ⟨hq, hels, -⟩ := hnew c' hc'
      exact ⟨hq, hels⟩
    · rw [Function.update_of_ne hne] at hc' ⊢
      obtain ⟨hq, hels⟩ := hR.queues q' c' hc'
      exact ⟨hq.frame hl (hF q' c' hc' hne), hels⟩
  · intro q₁ q₂ c₁ c₂ hc₁ hc₂ hne a ha
    by_cases h₁ : q₁ = q <;> by_cases h₂ : q₂ = q
    · exact absurd (h₁.trans h₂.symm) hne
    · subst h₁
      rw [Function.update_self] at hc₁ ha
      rw [Function.update_of_ne h₂] at hc₂ ⊢
      exact fun hin => hothers q₂ c₂ c₁ hc₂ h₂ hc₁ a hin ha
    · subst h₂
      rw [Function.update_self] at hc₂ ⊢
      rw [Function.update_of_ne h₁] at hc₁ ha
      exact hothers q₁ c₁ c₂ hc₁ h₁ hc₂ a ha
    · rw [Function.update_of_ne h₁] at hc₁ ha
      rw [Function.update_of_ne h₂] at hc₂ ⊢
      exact hR.apart q₁ q₂ c₁ c₂ hc₁ hc₂ hne a ha

/-- A program on a queue changes its elements. -/
theorem Represents.change (hR : Represents h M links) {q : Nat} {c : Contents α} (hc : M q = some c)
    {ls : List (Link α)} {f : List α → List α} (hq : IsQueue h' q c.allocationSize ls)
    (hels : elements ls = f c.elements) (hl : Local h h' (footprint q (links q)) (footprint q ls)) :
    Represents h' (M.change (some q) f) (Function.update links q ls) := by
  refine hR.update hl (fun q' c' hc' hne => hR.apart q' q c' c hc' hc hne) fun c' hc' => ?_
  rw [hc, Option.map_some, Option.some.injEq] at hc'
  subst hc'
  exact ⟨hq, hels, rfl⟩

/-- A new queue comes to those there are. -/
theorem Represents.add (hR : Represents h M links) {q : Nat} {c : Contents α} {ls : List (Link α)}
    (hq : IsQueue h' q c.allocationSize ls) (hels : elements ls = c.elements)
    (hl : Local h h' [] (footprint q ls)) :
    Represents h' (M.add (some q) c) (Function.update links q ls) := by
  refine hR.update hl (fun _ _ _ _ _ _ => List.not_mem_nil) fun c' hc' => ?_
  obtain rfl := Option.some.inj hc'
  exact ⟨hq, hels, rfl⟩

theorem Represents.remove (hR : Represents h M links) {q : Nat} {c : Contents α} (hc : M q = some c)
    (hl : Local h h' (footprint q (links q)) []) :
    Represents h' (M.remove (some q)) (Function.update links q []) :=
  hR.update hl (fun q' c' hc' hne => hR.apart q' q c' c hc' hc hne) nofun

/-- An address not in use is no queue of the model. -/
theorem Represents.fresh (hR : Represents h M links) {q : Nat} (hq : h.cells q = none) : M q = none := by
  cases hc : M q with
  | none => rfl
  | some c => exact absurd hq ((hR.queues q c hc).1.live q List.mem_cons_self)

/-! ## Each call does what the model says -/

/-- A call is not stuck, and its reply and its effect are the model's. -/
def Call.Refines (A : Allocator (Cell α)) (h : Heap (Cell α)) (M : Model α) (c : Call α) : Prop :=
  ∃ r h' links, c.exec A h = some (r, h') ∧ M.Answers c r ∧ Represents h' (M.next r c) links

/-- A function that answers with a pointer, as a call. -/
theorem pointer_of {x : Mem (Cell α) (Option Nat)} {q : Option Nat} (hx : x h = some (q, h')) :
    (x >>= fun q => pure (⟨q, none⟩ : Reply α)) h = some (⟨q, none⟩, h') := by
  rw [bind_of hx]
  rfl

/-- A function that copies an element to the caller, as a call. -/
theorem element_of {x : Mem (Cell α) (Option Nat × Option α)} {q : Option Nat} {v : Option α}
    (hx : x h = some ((q, v), h')) (data : α) :
    (x >>= fun r => pure (⟨r.1, some (r.2.getD data)⟩ : Reply α)) h = some (⟨q, some (v.getD data)⟩, h') := by
  rw [bind_of hx]
  rfl

section Calls

variable {q : Nat} {c : Contents α}

theorem refines_createQueue (hA : A.Total) (hR : Represents h M links) (n : Nat) :
    (Call.createQueue n).Refines A h M := by
  obtain ⟨q, h', hrun, hfresh, hq, hl⟩ := createQueue_total hA n h
  exact ⟨_, h', Function.update links q [], pointer_of hrun, ⟨q, hR.fresh hfresh, rfl⟩,
    hR.add (c := ⟨n, []⟩) hq rfl hl⟩

theorem refines_enqueue (hA : A.Total) (hR : Represents h M links) (hc : M q = some c) (data : α) :
    (Call.enqueue (some q) data).Refines A h M := by
  obtain ⟨hq, hels⟩ := hR.queues q c hc
  obtain ⟨l, h', hrun, hdata, hq', hl⟩ := enqueue_total hA data hq
  refine ⟨_, h', Function.update links q (links q ++ [l]), pointer_of hrun, rfl,
    hR.change (f := fun xs => xs ++ [data]) hc hq' ?_ hl⟩
  simp only [elements, List.map_append, List.map_cons, List.map_nil, hdata] at hels ⊢
  rw [hels]

theorem firstOr_nil (hc : M q = some c) (hels : c.elements = []) (data : α) :
    M.firstOr (some q) data = ⟨none, some data⟩ := by
  simp [Model.firstOr, Model.find, hc, hels]

theorem firstOr_cons {x : α} {xs : List α} (hc : M q = some c) (hels : c.elements = x :: xs) (data : α) :
    M.firstOr (some q) data = ⟨some q, some x⟩ := by
  simp [Model.firstOr, Model.find, hc, hels]

theorem refines_dequeue (hR : Represents h M links) (hc : M q = some c) (data : α) :
    (Call.dequeue (some q) data).Refines A h M := by
  obtain ⟨hq, hels⟩ := hR.queues q c hc
  cases hlinks : links q with
  | nil =>
    rw [hlinks] at hq hels
    refine ⟨_, h, Function.update links q [], element_of (dequeue_nil hq) data,
      (firstOr_nil hc hels.symm data).symm, ?_⟩
    refine hR.change (f := List.tail) hc hq ?_ (hlinks ▸ Local.refl h _)
    rw [← hels]
    rfl
  | cons l ls =>
    rw [hlinks] at hq hels
    obtain ⟨h', hrun, hq', hl⟩ := dequeue_cons hq
    refine ⟨_, h', Function.update links q ls, element_of hrun data,
      (firstOr_cons hc hels.symm data).symm, ?_⟩
    refine hR.change (f := List.tail) hc hq' ?_ (hlinks ▸ hl)
    rw [← hels]
    rfl

theorem refines_front (hR : Represents h M links) (hc : M q = some c) (data : α) :
    (Call.front (some q) data).Refines A h M := by
  obtain ⟨hq, hels⟩ := hR.queues q c hc
  cases hlinks : links q with
  | nil =>
    rw [hlinks] at hq hels
    exact ⟨_, h, links, element_of (front_nil hq) data, (firstOr_nil hc hels.symm data).symm, hR⟩
  | cons l ls =>
    rw [hlinks] at hq hels
    exact ⟨_, h, links, element_of (front_cons hq) data, (firstOr_cons hc hels.symm data).symm, hR⟩

theorem refines_reverse (hA : A.Total) (hR : Represents h M links) (hc : M q = some c) :
    (Call.reverse (some q)).Refines A h M := by
  obtain ⟨hq, hels⟩ := hR.queues q c hc
  obtain ⟨ls, h', hrun, hrev, hq', hl⟩ := reverse_total hA hq
  exact ⟨_, h', Function.update links q ls, pointer_of hrun, rfl,
    hR.change (f := List.reverse) hc hq' (hrev.trans (congrArg List.reverse hels)) hl⟩

theorem refines_clearQueue (hR : Represents h M links) (hc : M q = some c) :
    (Call.clearQueue (some q)).Refines A h M := by
  obtain ⟨h', hrun, hq', hl⟩ := clearQueue_empties (hR.queues q c hc).1
  exact ⟨_, h', Function.update links q [], pointer_of hrun, rfl,
    hR.change (f := fun _ => []) hc hq' rfl hl⟩

theorem refines_copyQueue (hA : A.Total) (hR : Represents h M links) (hc : M q = some c) :
    (Call.copyQueue (some q)).Refines A h M := by
  obtain ⟨hq, hels⟩ := hR.queues q c hc
  obtain ⟨q', ls, h', hrun, hfresh, hcopy, hq', hl⟩ := copyQueue_total hA hq
  refine ⟨_, h', Function.update links q' ls, pointer_of hrun, ⟨q', hR.fresh hfresh, rfl⟩, ?_⟩
  have hnext : M.next ⟨some q', none⟩ (.copyQueue (some q)) = M.add (some q') c := by
    simp [Model.next, Model.find, hc]
  rw [hnext]
  exact hR.add hq' (hcopy.trans hels) hl

theorem refines_destroyQueue (hR : Represents h M links) (hc : M q = some c) :
    (Call.destroyQueue (some q)).Refines A h M := by
  obtain ⟨h', hrun, hl⟩ := destroyQueue_frees (hR.queues q c hc).1
  exact ⟨_, h', Function.update links q [], pointer_of hrun, rfl, hR.remove hc hl⟩

end Calls

/-- One call on a heap that holds the model's queues. -/
theorem call_refines (hA : A.Total) (hR : Represents h M links) {c : Call α} (hc : M.Legal c) :
    c.Refines A h M := by
  -- A queue's pointer has contents in the model.
  have hfind : ∀ q, c.queue = some q → ∃ k, M q = some k := by
    intro q hq
    rw [Model.Legal, hq] at hc
    exact Option.isSome_iff_exists.mp hc
  cases c with
  | createQueue n => exact refines_createQueue hA hR n
  | enqueue q data =>
    cases q with
    | none => exact ⟨_, h, links, rfl, rfl, hR⟩
    | some q => obtain ⟨k, hk⟩ := hfind q rfl; exact refines_enqueue hA hR hk data
  | dequeue q data =>
    cases q with
    | none => exact ⟨_, h, links, rfl, rfl, hR⟩
    | some q => obtain ⟨k, hk⟩ := hfind q rfl; exact refines_dequeue hR hk data
  | front q data =>
    cases q with
    | none => exact ⟨_, h, links, rfl, rfl, hR⟩
    | some q => obtain ⟨k, hk⟩ := hfind q rfl; exact refines_front hR hk data
  | reverse q =>
    cases q with
    | none => exact ⟨_, h, links, rfl, rfl, hR⟩
    | some q => obtain ⟨k, hk⟩ := hfind q rfl; exact refines_reverse hA hR hk
  | clearQueue q =>
    cases q with
    | none => exact ⟨_, h, links, rfl, rfl, hR⟩
    | some q => obtain ⟨k, hk⟩ := hfind q rfl; exact refines_clearQueue hR hk
  | copyQueue q =>
    cases q with
    | none => exact ⟨_, h, links, rfl, rfl, hR⟩
    | some q => obtain ⟨k, hk⟩ := hfind q rfl; exact refines_copyQueue hA hR hk
  | destroyQueue q =>
    cases q with
    | none => exact ⟨_, h, links, rfl, rfl, hR⟩
    | some q => obtain ⟨k, hk⟩ := hfind q rfl; exact refines_destroyQueue hR hk

/-! ## Runs -/

/-- The heap, unless a call got stuck, and the model beside it. -/
structure Sim (α : Type) where
  heap : Option (Heap (Cell α))
  model : Model α

namespace Sim

/-- No queue has been made. -/
def start (h : Heap (Cell α)) : Sim α := ⟨some h, fun _ => none⟩

def step (A : Allocator (Cell α)) (s : Sim α) (c : Call α) : Sim α :=
  match s.heap with
  | none => s
  | some h =>
    match c.exec A h with
    | some (r, h) => ⟨some h, s.model.next r c⟩
    | none => { s with heap := none }

/-- The call returns, with the model's answer. -/
def Answered (A : Allocator (Cell α)) (s : Sim α) (c : Call α) : Prop :=
  ∃ h r h', s.heap = some h ∧ c.exec A h = some (r, h') ∧ s.model.Answers c r

/-- The heap holds the model's queues. -/
def Holds (s : Sim α) : Prop := ∃ h links, s.heap = some h ∧ Represents h s.model links

theorem step_holds (hA : A.Total) {s : Sim α} (hs : s.Holds) {c : Call α} (hc : s.model.Legal c) :
    s.Answered A c ∧ (s.step A c).Holds := by
  obtain ⟨h, links, hheap, hR⟩ := hs
  obtain ⟨r, h', links', hrun, hans, hR'⟩ := call_refines hA hR hc
  refine ⟨⟨h, r, h', hheap, hrun, hans⟩, h', links', ?_⟩
  simp only [step, hheap, hrun]
  exact ⟨trivial, hR'⟩

end Sim

/-- The nodes met from a pointer on, up to `NULL`. -/
def Follows (h : Heap (Cell α)) : Option Nat → List Nat → Prop
  | p, [] => p = none
  | p, n :: ns => p = some n ∧ ∃ m, h.cells n = some (.node m) ∧ Follows h m.next ns

/-- The record at `q` counts the nodes reached from its head, as many as there
are elements, and its tail is the last of them. -/
def Counts (h : Heap (Cell α)) (q : Nat) (c : Contents α) : Prop :=
  ∃ r ns, h.cells q = some (.queue r) ∧ Follows h r.head ns ∧ r.size = ns.length ∧
    r.size = c.elements.length ∧ r.allocationSize = c.allocationSize ∧ (ns ≠ [] → r.tail = ns.getLast?)

theorem Segment.follows {ls : List (Link α)} (hs : Segment h none ls) :
    Follows h (ls.head?.map Link.node) (ls.map Link.node) := by
  induction ls with
  | nil => rfl
  | cons l ls ih => exact ⟨rfl, _, hs.1, by simpa using ih hs.2.2⟩

theorem Represents.counts (hR : Represents h M links) {q : Nat} {c : Contents α} (hc : M q = some c) :
    Counts h q c := by
  obtain ⟨hq, hels⟩ := hR.queues q c hc
  obtain ⟨tail, hrec, htail⟩ := hq.record
  refine ⟨_, (links q).map Link.node, hrec, hq.chain.follows, by simp, ?_, rfl, fun hne => ?_⟩
  · rw [← hels, elements, List.length_map]
  · rw [List.getLast?_map]
    exact htail (by simpa using hne)

/-- **The queue refines a list.** In every sequence of calls, each on `NULL` or
a queue there is, every call returns what the model answers, and in the state
it leaves the heap holds the model's queues, with sizes and tails as they
should be. -/
theorem queue_refines (hA : A.Total) (h : Heap (Cell α)) (calls : List (Call α))
    (hlegal : Run.Along (Sim.step A) (fun s c => s.model.Legal c) (.start h) calls) :
    Run.Along (Sim.step A) (Sim.Answered A) (.start h) calls ∧
      ∃ h' links, (Run.exec (Sim.step A) (.start h) calls).heap = some h' ∧
        Represents h' (Run.exec (Sim.step A) (.start h) calls).model links ∧
        ∀ q c, (Run.exec (Sim.step A) (.start h) calls).model q = some c → Counts h' q c := by
  have hstart : (Sim.start h).Holds := ⟨h, fun _ => [], rfl, nofun, nofun⟩
  constructor
  · exact hlegal.of_invariant (fun s c hs hc => Sim.step_holds hA hs hc) hstart
  · obtain ⟨h', links, hheap, hR⟩ :=
      hlegal.invariant (I := Sim.Holds) (fun s c hs hc => (Sim.step_holds hA hs hc).2) hstart
    exact ⟨h', links, hheap, hR, fun q c => hR.counts⟩

/-- Calls on two queues at the addresses the allocator gives: one is filled,
cleared and filled again, the other is its copy, reversed. -/
def twoQueues : List (Call Nat) :=
  [.createQueue 8, .enqueue (some 0) 5, .clearQueue (some 0), .enqueue (some 0) 6, .enqueue (some 0) 7,
    .copyQueue (some 0), .reverse (some 7), .dequeue (some 7) 0, .destroyQueue (some 0), .front none 3]

theorem queue_refines_twoQueues :
    Run.Along (Sim.step .bump) (Sim.Answered .bump) (.start .empty) twoQueues ∧
      ∃ h' links, (Run.exec (Sim.step .bump) (.start .empty) twoQueues).heap = some h' ∧
        Represents h' (Run.exec (Sim.step .bump) (.start .empty) twoQueues).model links ∧
        ∀ q c, (Run.exec (Sim.step .bump) (.start .empty) twoQueues).model q = some c → Counts h' q c :=
  queue_refines Allocator.bump_total .empty twoQueues (by decide +kernel)

end Queue

end FinalServer
