/-
The linked queue of `lib/queue/queue.c`, on a heap.

A queue is a record with the pointers of its first and its last node; each
node points to a block of its own with the element's bytes. `IsQueue` says
that a record and a chain of nodes are a queue with given elements; every
function has one lemma that says what it does to such a queue, whether or not
the allocations succeed, and that it touches nobody else's memory.
-/
import FinalServer.Heap

namespace FinalServer

namespace Queue

open Heap (Mem Local Allocator)
open Heap.Mem

structure Node where
  data : Nat
  next : Option Nat
  deriving DecidableEq

/-- `struct queue`. A `size_t` does not overflow: so many nodes have no room. -/
structure Record where
  size : Nat
  allocationSize : Nat
  head : Option Nat
  tail : Option Nat
  deriving DecidableEq

/-- What an allocated address holds; a block holds one element's bytes. -/
inductive Cell (α : Type)
  /-- As `malloc` gives it. -/
  | raw
  | node (n : Node)
  | block (data : α)
  | queue (r : Record)

variable {α : Type}

def loadNode (a : Nat) : Mem (Cell α) Node := do
  match ← load a with
  | .node n => pure n
  | _ => stuck

def loadBlock (a : Nat) : Mem (Cell α) α := do
  match ← load a with
  | .block v => pure v
  | _ => stuck

def loadQueue (a : Nat) : Mem (Cell α) Record := do
  match ← load a with
  | .queue r => pure r
  | _ => stuck

/-! ## The functions -/

def createNode (A : Allocator (Cell α)) (data : α) : Mem (Cell α) (Option Nat) := do
  match ← malloc A .raw with
  | none => pure none
  | some toInsert =>
    match ← malloc A .raw with
    | none => do
      free toInsert
      pure none
    | some block => do
      store block (.block data)
      store toInsert (.node ⟨block, none⟩)
      pure (some toInsert)

def createQueue (A : Allocator (Cell α)) (allocSize : Nat) : Mem (Cell α) (Option Nat) := do
  match ← malloc A .raw with
  | none => pure none
  | some q => do
    store q (.queue ⟨0, allocSize, none, none⟩)
    pure (some q)

/-- The new node becomes the last one, and the first one of an empty queue. -/
def linkLast (q : Nat) (r : Record) (toInsert : Nat) : Mem (Cell α) (Option Nat) :=
  if r.size = 0 then do
    store q (.queue { r with size := r.size + 1, head := some toInsert, tail := some toInsert })
    pure (some q)
  else do
    let tail ← deref r.tail
    let n ← loadNode tail
    store tail (.node { n with next := some toInsert })
    store q (.queue { r with size := r.size + 1, tail := some toInsert })
    pure (some q)

def enqueue (A : Allocator (Cell α)) (q : Option Nat) (data : α) : Mem (Cell α) (Option Nat) :=
  match q with
  | none => pure none
  | some q => do
    let r ← loadQueue q
    match ← createNode A data with
    | none => pure none
    | some toInsert => linkLast q r toInsert

/-- The pointer returned, and what is copied to `*data`, if anything is. -/
def dequeue (q : Option Nat) : Mem (Cell α) (Option Nat × Option α) :=
  match q with
  | none => pure (none, none)
  | some q => do
    let r ← loadQueue q
    if r.size = 0 then pure (none, none)
    else do
      let toDel ← deref r.head
      let n ← loadNode toDel
      let data ← loadBlock n.data
      free n.data
      free toDel
      if r.size = 1 then do
        store q (.queue { r with size := r.size - 1, head := none, tail := none })
        pure (some q, some data)
      else do
        store q (.queue { r with size := r.size - 1, head := n.next })
        pure (some q, some data)

/-- The pointer returned, and what is copied to `*data`, if anything is. -/
def front (q : Option Nat) : Mem (Cell α) (Option Nat × Option α) :=
  match q with
  | none => pure (none, none)
  | some q => do
    let r ← loadQueue q
    if r.size = 0 then pure (none, none)
    else do
      let head ← deref r.head
      let n ← loadNode head
      let data ← loadBlock n.data
      pure (some q, some data)

/-- `reverse`, with a bound on the depth of its recursion. -/
def reverseRec (A : Allocator (Cell α)) : Nat → Option Nat → Mem (Cell α) (Option Nat)
  | 0, _ => stuck
  | _ + 1, none => pure none
  | depth + 1, some q => do
    let r ← loadQueue q
    if r.size = 0 then pure (some q)
    else do
      match ← malloc A .raw with
      | none => pure (some q)
      | some data => do
        match (← dequeue (some q)).2 with
        | none => pure ()
        | some v => store data (.block v)
        let _ ← reverseRec A depth (some q)
        let v ← loadBlock data
        let _ ← enqueue A (some q) v
        free data
        pure (some q)

/-- The bound is one more than the size, which is as deep as it goes. -/
def reverse (A : Allocator (Cell α)) (q : Option Nat) : Mem (Cell α) (Option Nat) :=
  match q with
  | none => pure none
  | some a => do
    let r ← loadQueue a
    reverseRec A (r.size + 1) q

/-- The loop of `clearQueue`, with a bound on its turns: while the queue is not
empty, its first node goes. -/
def clearLoop (q : Nat) : Nat → Mem (Cell α) Unit
  | 0 => stuck
  | turns + 1 => do
    let r ← loadQueue q
    if r.size = 0 then pure ()
    else do
      let temp ← deref r.head
      let n ← loadNode temp
      free n.data
      free temp
      store q (.queue { r with size := r.size - 1, head := n.next })
      clearLoop q turns

/-- The bound is one more than the size, for the last look at it. -/
def clearQueue (q : Option Nat) : Mem (Cell α) (Option Nat) :=
  match q with
  | none => pure none
  | some q => do
    let r ← loadQueue q
    clearLoop q (r.size + 1)
    pure (some q)

def getSize (q : Option Nat) : Mem (Cell α) Nat :=
  match q with
  | none => pure 0
  | some q => do
    let r ← loadQueue q
    pure r.size

/-- The loop of `copyQueue` from a node on, with a bound on its turns. -/
def copyLoop (A : Allocator (Cell α)) (newQueue : Nat) : Nat → Option Nat → Mem (Cell α) Unit
  | _, none => pure ()
  | 0, some _ => stuck
  | turns + 1, some node => do
    let n ← loadNode node
    let data ← loadBlock n.data
    let _ ← enqueue A (some newQueue) data
    let n ← loadNode node
    copyLoop A newQueue turns n.next

/-- The bound is the size, which is how many nodes there are. -/
def copyQueue (A : Allocator (Cell α)) (src : Option Nat) : Mem (Cell α) (Option Nat) :=
  match src with
  | none => pure none
  | some src => do
    let r ← loadQueue src
    match ← createQueue A r.allocationSize with
    | none => pure none
    | some newQueue => do
      copyLoop A newQueue r.size r.head
      pure (some newQueue)

/-- What `*q` is set to; a queue that is there is cleared and its record freed. -/
def destroyQueue (q : Option Nat) : Mem (Cell α) (Option Nat) := do
  let _ ← clearQueue q
  match q with
  | none => pure none
  | some q => do
    free q
    pure none

/-! ## A queue on the heap -/

/-- A node, the block of its element, and the element. -/
structure Link (α : Type) where
  node : Nat
  block : Nat
  data : α

/-- The nodes are on the heap, each linked to the next and the last to `stop`. -/
def Segment (h : Heap (Cell α)) (stop : Option Nat) : List (Link α) → Prop
  | [] => True
  | l :: ls =>
    h.cells l.node = some (.node ⟨l.block, (ls.head?.map Link.node).or stop⟩) ∧
      h.cells l.block = some (.block l.data) ∧ Segment h stop ls

/-- The addresses of the nodes and of their blocks. -/
def linkAddrs (ls : List (Link α)) : List Nat := ls.flatMap fun l => [l.node, l.block]

/-- The addresses that belong to a queue. -/
def footprint (q : Nat) (ls : List (Link α)) : List Nat := q :: linkAddrs ls

/-- **The representation.** The record at `q` counts the nodes that can be
reached from its head, and unless there are none its tail is the last of
them. The tail of an empty queue may point anywhere. -/
structure IsQueue (h : Heap (Cell α)) (q allocSize : Nat) (ls : List (Link α)) : Prop where
  record : ∃ tail, h.cells q =
    some (.queue ⟨ls.length, allocSize, ls.head?.map Link.node, tail⟩) ∧
      (ls ≠ [] → tail = ls.getLast?.map Link.node)
  chain : Segment h none ls
  distinct : (footprint q ls).Nodup

variable {h h' : Heap (Cell α)} {q allocSize : Nat} {ls : List (Link α)} {stop : Option Nat}

@[simp] theorem linkAddrs_nil : linkAddrs ([] : List (Link α)) = [] := rfl

@[simp] theorem linkAddrs_cons (l : Link α) (ls : List (Link α)) :
    linkAddrs (l :: ls) = l.node :: l.block :: linkAddrs ls := rfl

@[simp] theorem linkAddrs_append (ls ls' : List (Link α)) :
    linkAddrs (ls ++ ls') = linkAddrs ls ++ linkAddrs ls' := List.flatMap_append

/-- The nodes of a chain in two parts: the first part ends where the second begins. -/
theorem segment_append {ls ls' : List (Link α)} :
    Segment h stop (ls ++ ls') ↔ Segment h ((ls'.head?.map Link.node).or stop) ls ∧ Segment h stop ls' := by
  induction ls with
  | nil => simp [Segment]
  | cons l ls ih =>
    have hnext : ((ls ++ ls').head?.map Link.node).or stop =
        (ls.head?.map Link.node).or ((ls'.head?.map Link.node).or stop) := by
      rw [List.head?_append, ← Option.or_assoc]
      cases ls.head? <;> rfl
    simp only [List.cons_append, Segment, hnext, ih, and_assoc]

/-- Only the cells of its nodes and blocks make a chain. -/
theorem Segment.congr (hs : Segment h stop ls) (hcells : ∀ a ∈ linkAddrs ls, h'.cells a = h.cells a) :
    Segment h' stop ls := by
  induction ls with
  | nil => trivial
  | cons l ls ih =>
    simp only [linkAddrs_cons, List.forall_mem_cons] at hcells
    obtain ⟨hnode, hblock, hrest⟩ := hcells
    exact ⟨hnode.trans hs.1, hblock.trans hs.2.1, ih hs.2.2 hrest⟩

theorem Segment.live (hs : Segment h stop ls) : ∀ a ∈ linkAddrs ls, h.cells a ≠ none := by
  induction ls with
  | nil => nofun
  | cons l ls ih =>
    simp only [linkAddrs_cons, List.forall_mem_cons]
    exact ⟨by simp [hs.1], by simp [hs.2.1], ih hs.2.2⟩

theorem IsQueue.congr (hq : IsQueue h q allocSize ls) (hcells : ∀ a ∈ footprint q ls, h'.cells a = h.cells a) :
    IsQueue h' q allocSize ls where
  record := by
    rw [hcells q List.mem_cons_self]
    exact hq.record
  chain := hq.chain.congr fun a ha => hcells a (List.mem_cons_of_mem _ ha)
  distinct := hq.distinct

/-- A cell that is none of the queue's may change. -/
theorem IsQueue.outside {d : Nat} (hq : IsQueue h q allocSize ls) (hd : d ∉ footprint q ls)
    (hcells : ∀ a, a ≠ d → h'.cells a = h.cells a) : IsQueue h' q allocSize ls :=
  hq.congr fun a ha => hcells a fun he => hd (he ▸ ha)

/-- All cells of a queue are in use. -/
theorem IsQueue.live (hq : IsQueue h q allocSize ls) : ∀ a ∈ footprint q ls, h.cells a ≠ none := by
  obtain ⟨tail, hrec, -⟩ := hq.record
  exact List.forall_mem_cons.mpr ⟨by simp [hrec], hq.chain.live⟩

/-- A local program of somebody else leaves the queue alone. -/
theorem IsQueue.frame {F F' : List Nat} (hq : IsQueue h q allocSize ls) (hl : Local h h' F F')
    (hdisj : ∀ a ∈ footprint q ls, a ∉ F) : IsQueue h' q allocSize ls :=
  hq.congr fun a ha => hl.frame a (hdisj a ha) (hq.live a ha)

/-! ## What the functions do to it -/

variable {A : Allocator (Cell α)}

theorem loadNode_of {a : Nat} {n : Node} (hc : h.cells a = some (.node n)) : loadNode a h = some (n, h) := by
  rw [loadNode, bind_of (load_of hc)]
  rfl

theorem loadBlock_of {a : Nat} {v : α} (hc : h.cells a = some (.block v)) : loadBlock a h = some (v, h) := by
  rw [loadBlock, bind_of (load_of hc)]
  rfl

theorem loadQueue_of {a : Nat} {r : Record} (hc : h.cells a = some (.queue r)) : loadQueue a h = some (r, h) := by
  rw [loadQueue, bind_of (load_of hc)]
  rfl

/-- From `h` to `h₁` a node for an element has been made of two addresses not in use. -/
structure NewNode (h h₁ : Heap (Cell α)) (l : Link α) : Prop where
  freshNode : h.cells l.node = none
  freshBlock : h.cells l.block = none
  ne : l.node ≠ l.block
  node : h₁.cells l.node = some (.node ⟨l.block, none⟩)
  block : h₁.cells l.block = some (.block l.data)
  old : ∀ a, h.cells a ≠ none → h₁.cells a = h.cells a

/-- A node is made, or nothing has changed. -/
theorem createNode_cases (A : Allocator (Cell α)) (data : α) (h : Heap (Cell α)) :
    (¬ A.Total ∧ ∃ h', createNode A data h = some (none, h') ∧ h'.cells = h.cells) ∨
      ∃ l h₁, createNode A data h = some (some l.node, h₁) ∧ l.data = data ∧ NewNode h h₁ l := by
  simp only [createNode]
  rcases malloc_cases A Cell.raw h with ⟨hfail, hm⟩ | ⟨n, hn, hm⟩
  · refine .inl ⟨fun hA => by simpa [hfail] using hA h, h.called, ?_, rfl⟩
    rw [bind_of hm]
    rfl
  rw [bind_of hm]
  have hn₁ : (h.set n .raw).called.cells n = some .raw := Function.update_self ..
  rcases malloc_cases A Cell.raw (h.set n .raw).called with ⟨hfail, hm₂⟩ | ⟨b, hb, hm₂⟩
  · -- The node is given back.
    refine .inl ⟨fun hA => by simpa [hfail] using hA (h.set n .raw).called,
      (h.set n .raw).called.called.clear n, ?_, ?_⟩
    · show (malloc A .raw >>= _) _ = _
      rw [bind_of hm₂]
      show (free n >>= _) _ = _
      rw [bind_of (free_of (c := .raw) hn₁)]
      rfl
    · rw [Heap.clear_cells, Heap.called_cells, Heap.called_cells, Heap.set_cells, Function.update_idem,
        Function.update_eq_self_iff, hn]
  · have hne : n ≠ b := by
      rintro rfl
      simp [hn₁] at hb
    have hb₁ : h.cells b = none := by simpa [Function.update_of_ne hne.symm] using hb
    refine .inr ⟨⟨n, b, data⟩,
      (((h.set n .raw).called.set b .raw).called.set b (.block data)).set n (.node ⟨b, none⟩), ?_, rfl,
      ⟨hn, hb₁, hne, ?_, ?_, fun a ha => ?_⟩⟩
    · show (malloc A .raw >>= _) _ = _
      rw [bind_of hm₂]
      show (store b _ >>= _) _ = _
      rw [bind_of (store_of (c := .raw) (Function.update_self ..) _), bind_of (store_of (c := .raw) ?_ _)]
      · rfl
      · simp [Function.update_of_ne hne]
    · simp
    · simp [Function.update_of_ne hne.symm]
    · have han : a ≠ n := fun he => ha (he ▸ hn)
      have hab : a ≠ b := fun he => ha (he ▸ hb₁)
      simp [Function.update_of_ne han, Function.update_of_ne hab]

section NewNode

variable {h₁ : Heap (Cell α)} {l : Link α}

theorem NewNode.node_notMem (hnew : NewNode h h₁ l) (hq : IsQueue h q allocSize ls) : l.node ∉ footprint q ls :=
  fun hin => hq.live _ hin hnew.freshNode

theorem NewNode.block_notMem (hnew : NewNode h h₁ l) (hq : IsQueue h q allocSize ls) : l.block ∉ footprint q ls :=
  fun hin => hq.live _ hin hnew.freshBlock

/-- A queue may take the new node. -/
theorem NewNode.grows (hnew : NewNode h h₁ l) (q : Nat) (ls : List (Link α)) :
    ∀ a ∈ footprint q (ls ++ [l]), a ∈ footprint q ls ∨ h.cells a = none := by
  intro a ha
  simp only [footprint, linkAddrs_append, linkAddrs_cons, linkAddrs_nil, List.mem_cons, List.mem_append,
    List.not_mem_nil, or_false] at ha ⊢
  rcases ha with rfl | hin | rfl | rfl
  · exact .inl (.inl rfl)
  · exact .inl (.inr hin)
  · exact .inr hnew.freshNode
  · exact .inr hnew.freshBlock

theorem NewNode.distinct (hnew : NewNode h h₁ l) (hq : IsQueue h q allocSize ls) :
    (footprint q (ls ++ [l])).Nodup := by
  have hnF := hnew.node_notMem hq
  have hbF := hnew.block_notMem hq
  have hd := hq.distinct
  simp only [footprint, linkAddrs_append, linkAddrs_cons, linkAddrs_nil, List.nodup_cons, List.nodup_append,
    List.mem_cons, List.mem_append, List.not_mem_nil, or_false, not_or] at hd hnF hbF ⊢
  refine ⟨⟨hd.1, Ne.symm hnF.1, Ne.symm hbF.1⟩, hd.2, ⟨hnew.ne, not_false, List.nodup_nil⟩, ?_⟩
  rintro a ha c (rfl | rfl) rfl
  · exact hnF.2 ha
  · exact hbF.2 ha

/-- The first insertion: head and tail are the new node. -/
theorem NewNode.linkLast_nil (hnew : NewNode h h₁ l) (hq : IsQueue h q allocSize []) {tail : Option Nat}
    (hrec : h₁.cells q = some (.queue ⟨0, allocSize, none, tail⟩)) :
    ∃ h', linkLast q ⟨0, allocSize, none, tail⟩ l.node h₁ = some (some q, h') ∧ IsQueue h' q allocSize [l] ∧
      Local h h' [q] (footprint q [l]) := by
  have hnF := hnew.node_notMem hq
  have hbF := hnew.block_notMem hq
  simp only [footprint, linkAddrs_nil, List.mem_singleton] at hnF hbF
  refine ⟨h₁.set q (.queue ⟨1, allocSize, some l.node, some l.node⟩), ?_, ⟨?_, ?_, hnew.distinct hq⟩, ?_,
    hnew.grows q []⟩
  · rw [linkLast, if_pos rfl, bind_of (store_of hrec _)]
    rfl
  · exact ⟨some l.node, Function.update_self .., fun _ => rfl⟩
  · refine ⟨?_, ?_, trivial⟩
    · rw [Heap.set_cells, Function.update_of_ne hnF, hnew.node]
      rfl
    · rw [Heap.set_cells, Function.update_of_ne hbF, hnew.block]
  · intro a ha hlive
    have haq : a ≠ q := fun he => ha (he ▸ List.mem_cons_self)
    rw [Heap.set_cells, Function.update_of_ne haq, hnew.old a hlive]

/-- The last link of a chain. -/
theorem Segment.last {l : Link α} (hs : Segment h stop (ls ++ [l])) :
    h.cells l.node = some (.node ⟨l.block, stop⟩) ∧ h.cells l.block = some (.block l.data) := by
  obtain ⟨hnode, hblock, -⟩ := (segment_append.mp hs).2
  exact ⟨by simpa using hnode, hblock⟩

/-- Any other insertion: the last node is linked to the new one, which becomes the tail. -/
theorem NewNode.linkLast_concat {last : Link α} (hnew : NewNode h h₁ l)
    (hq : IsQueue h q allocSize (ls ++ [last])) {r : Record} (hrec : h₁.cells q = some (.queue r))
    (hr : r = ⟨(ls ++ [last]).length, allocSize, (ls ++ [last]).head?.map Link.node, some last.node⟩) :
    ∃ h', linkLast q r l.node h₁ = some (some q, h') ∧ IsQueue h' q allocSize (ls ++ [last] ++ [l]) ∧
      Local h h' (footprint q (ls ++ [last])) (footprint q (ls ++ [last] ++ [l])) := by
  obtain ⟨hlast, hlastb⟩ := hq.chain.last
  have hlast₁ : h₁.cells last.node = some (.node ⟨last.block, none⟩) := (hnew.old _ (by simp [hlast])).trans hlast
  have hnF := hnew.node_notMem hq
  have hbF := hnew.block_notMem hq
  have hd := hq.distinct
  simp only [footprint, linkAddrs_append, linkAddrs_cons, linkAddrs_nil, List.nodup_cons, List.nodup_append,
    List.mem_cons, List.mem_append, List.not_mem_nil, or_false, not_or] at hd hnF hbF
  obtain ⟨⟨hqi, hqn, hqb⟩, -, ⟨hlnb, -⟩, hapart⟩ := hd
  have hrec' : (h₁.set last.node (.node ⟨last.block, some l.node⟩)).cells q = some (.queue r) :=
    (Function.update_of_ne hqn _ _).trans hrec
  -- The two cells that change are the tail's and the record's.
  have hcells : ∀ a, a ≠ q → a ≠ last.node → ((h₁.set last.node (.node ⟨last.block, some l.node⟩)).set q
      (.queue { r with size := r.size + 1, tail := some l.node })).cells a = h₁.cells a := by
    intro a haq hal
    rw [Heap.set_cells, Function.update_of_ne haq, Heap.set_cells, Function.update_of_ne hal]
  refine ⟨(h₁.set last.node (.node ⟨last.block, some l.node⟩)).set q
      (.queue { r with size := r.size + 1, tail := some l.node }), ?_, ⟨?_, ?_, hnew.distinct hq⟩, ?_, hnew.grows q _⟩
  · rw [linkLast, if_neg (by simp [hr]), bind_of (deref_of (by rw [hr])), bind_of (loadNode_of hlast₁),
      bind_of (store_of hlast₁ _), bind_of (store_of hrec' _)]
    rfl
  · refine ⟨some l.node, ?_, fun _ => by simp⟩
    rw [Heap.set_cells, Function.update_self, hr]
    simp
  · have hinit := (segment_append.mp hq.chain).1
    rw [segment_append, segment_append]
    refine ⟨⟨hinit.congr fun a ha => ?_, ?_, ?_, trivial⟩, ?_, ?_, trivial⟩
    · have haq : a ≠ q := fun he => hqi (he ▸ ha)
      rw [hcells a haq (hapart a ha _ (.inl rfl)), hnew.old a (hinit.live a ha)]
    · rw [Heap.set_cells, Function.update_of_ne (Ne.symm hqn), Heap.set_cells, Function.update_self]
      rfl
    · rw [hcells _ (Ne.symm hqb) (Ne.symm hlnb), hnew.old _ (by simp [hlastb]), hlastb]
    · rw [hcells _ hnF.1 hnF.2.2.1, hnew.node]
      rfl
    · rw [hcells _ hbF.1 hbF.2.2.1, hnew.block]
  · intro a ha hlive
    simp only [footprint, linkAddrs_append, linkAddrs_cons, List.mem_cons, List.mem_append, not_or] at ha
    rw [hcells a ha.1 ha.2.2.1, hnew.old a hlive]

end NewNode

/-- `enqueue` appends, or nothing has changed. -/
theorem enqueue_cases (A : Allocator (Cell α)) (v : α) (hq : IsQueue h q allocSize ls) :
    (¬ A.Total ∧ ∃ h', enqueue A (some q) v h = some (none, h') ∧ h'.cells = h.cells) ∨
      ∃ l h', enqueue A (some q) v h = some (some q, h') ∧ l.data = v ∧
        IsQueue h' q allocSize (ls ++ [l]) ∧ Local h h' (footprint q ls) (footprint q (ls ++ [l])) := by
  obtain ⟨tail, hrec, htail⟩ := hq.record
  simp only [enqueue]
  rw [bind_of (loadQueue_of hrec)]
  rcases createNode_cases A v h with ⟨hA, h', hnode, hcells⟩ | ⟨l, h₁, hnode, hdata, hnew⟩
  · refine .inl ⟨hA, h', ?_, hcells⟩
    rw [bind_of hnode]
    rfl
  rw [bind_of hnode]
  have hrec₁ := (hnew.old q (by simp [hrec])).trans hrec
  rcases List.eq_nil_or_concat' ls with rfl | ⟨init, last, rfl⟩
  · obtain ⟨h', hrun, hq', hl⟩ := hnew.linkLast_nil hq hrec₁
    exact .inr ⟨l, h', hrun, hdata, hq', hl⟩
  · have htail : tail = some last.node := by simpa using htail (by simp)
    obtain ⟨h', hrun, hq', hl⟩ := hnew.linkLast_concat hq hrec₁ (by rw [htail])
    exact .inr ⟨l, h', hrun, hdata, hq', hl⟩

/-- The elements of a queue, oldest first. -/
def elements (ls : List (Link α)) : List α := ls.map Link.data

@[simp] theorem elements_append (ls ls' : List (Link α)) : elements (ls ++ ls') = elements ls ++ elements ls' :=
  List.map_append

/-! ### Where allocations fail -/

/-- Both allocations of `createNode` succeed, after `m` calls of `malloc`. -/
def nodeFits (fails : Nat → Bool) (m : Nat) : Bool := !fails m && !fails (m + 1)

/-- The calls after `createNode`, which makes no second one when the first fails. -/
def afterNode (fails : Nat → Bool) (m : Nat) : Nat := if fails m then m + 1 else m + 2

/-- `enqueue` on the elements of a queue, after `m` calls; with the calls after it. -/
def appended (fails : Nat → Bool) (xs : List α) (v : α) (m : Nat) : List α × Nat :=
  (if nodeFits fails m then xs ++ [v] else xs, afterNode fails m)

theorem quiet_loadNode (a : Nat) : Quiet (loadNode a : Mem (Cell α) Node) :=
  quiet_bind (quiet_load a) fun c => by
    cases c <;> first | exact quiet_pure _ | exact quiet_stuck

theorem quiet_loadBlock (a : Nat) : Quiet (loadBlock a : Mem (Cell α) α) :=
  quiet_bind (quiet_load a) fun c => by
    cases c <;> first | exact quiet_pure _ | exact quiet_stuck

theorem quiet_loadQueue (a : Nat) : Quiet (loadQueue a : Mem (Cell α) Record) :=
  quiet_bind (quiet_load a) fun c => by
    cases c <;> first | exact quiet_pure _ | exact quiet_stuck

variable {fails : Nat → Bool}

theorem createNode_mallocs (hA : A.Total) {data : α} {p : Option Nat}
    (hrun : createNode (A.failing fails) data h = some (p, h')) :
    p.isSome = nodeFits fails h.mallocs ∧ h'.mallocs = afterNode fails h.mallocs := by
  simp only [createNode] at hrun
  cases hf : fails h.mallocs with
  | true =>
    rw [bind_of (malloc_fails A hf _)] at hrun
    cases hrun
    simp [nodeFits, afterNode, hf]
  | false =>
    obtain ⟨n, -, hm⟩ := malloc_succeeds hA hf Cell.raw
    rw [bind_of hm] at hrun
    obtain ⟨p₂, h₂, hm₂, hrun⟩ := bind_inv hrun
    cases hf₂ : fails (h.mallocs + 1) with
    | true =>
      rw [malloc_fails A hf₂] at hm₂
      cases hm₂
      obtain ⟨_, h₃, hfree, hrun⟩ := bind_inv hrun
      cases hrun
      simp [nodeFits, afterNode, hf, hf₂, quiet_free _ _ _ _ hfree]
    | false =>
      obtain ⟨b, -, hm₃⟩ := malloc_succeeds (h := (h.set n .raw).called) hA hf₂ Cell.raw
      rw [hm₃] at hm₂
      cases hm₂
      obtain ⟨_, h₃, hstore, hrun⟩ := bind_inv hrun
      obtain ⟨_, h₄, hstore', hrun⟩ := bind_inv hrun
      cases hrun
      simp [nodeFits, afterNode, hf, hf₂, quiet_store _ _ _ _ _ hstore', quiet_store _ _ _ _ _ hstore]

theorem quiet_linkLast (q : Nat) (r : Record) (toInsert : Nat) :
    Quiet (linkLast q r toInsert : Mem (Cell α) (Option Nat)) := by
  unfold linkLast
  split
  · exact quiet_bind (quiet_store _ _) fun _ => quiet_pure _
  · refine quiet_bind (quiet_deref _) fun tail => quiet_bind (quiet_loadNode tail) fun n => ?_
    exact quiet_bind (quiet_store _ _) fun _ => quiet_bind (quiet_store _ _) fun _ => quiet_pure _

theorem linkLast_pointer {r : Record} {toInsert : Nat} {p : Option Nat}
    (hrun : linkLast q r toInsert h = some (p, h')) : p = some q := by
  unfold linkLast at hrun
  split at hrun
  · obtain ⟨_, _, -, hrun⟩ := bind_inv hrun
    cases hrun
    rfl
  · obtain ⟨_, _, -, hrun⟩ := bind_inv hrun
    obtain ⟨_, _, -, hrun⟩ := bind_inv hrun
    obtain ⟨_, _, -, hrun⟩ := bind_inv hrun
    obtain ⟨_, _, -, hrun⟩ := bind_inv hrun
    cases hrun
    rfl

theorem enqueue_mallocs (hA : A.Total) {v : α} {p : Option Nat}
    (hrun : enqueue (A.failing fails) (some q) v h = some (p, h')) :
    p.isSome = nodeFits fails h.mallocs ∧ h'.mallocs = afterNode fails h.mallocs := by
  simp only [enqueue] at hrun
  obtain ⟨r, h₁, hload, hrun⟩ := bind_inv hrun
  obtain ⟨node, h₂, hnode, hrun⟩ := bind_inv hrun
  have hload := quiet_loadQueue _ _ _ _ hload
  obtain ⟨hfits, hm⟩ := createNode_mallocs hA hnode
  rw [hload] at hfits hm
  cases node with
  | none =>
    cases hrun
    exact ⟨hfits, hm⟩
  | some n =>
    rw [linkLast_pointer hrun, quiet_linkLast _ _ _ _ _ _ hrun]
    exact ⟨hfits, hm⟩

/-- `enqueue` with allocations that may fail. -/
theorem enqueue_outcome (hA : A.Total) (fails : Nat → Bool) (v : α) (hq : IsQueue h q allocSize ls) :
    ∃ ls' h', enqueue (A.failing fails) (some q) v h = some (if nodeFits fails h.mallocs then some q else none, h') ∧
      elements ls' = (appended fails (elements ls) v h.mallocs).1 ∧
      h'.mallocs = (appended fails (elements ls) v h.mallocs).2 ∧
      IsQueue h' q allocSize ls' ∧ Local h h' (footprint q ls) (footprint q ls') := by
  rcases enqueue_cases (A.failing fails) v hq with ⟨-, h', hrun, hcells⟩ | ⟨l, h', hrun, rfl, hq', hl⟩
  · obtain ⟨hfits, hm⟩ := enqueue_mallocs hA hrun
    have hfits : nodeFits fails h.mallocs = false := hfits.symm
    refine ⟨ls, h', ?_, ?_, hm, hq.congr fun a _ => by rw [hcells], .of_cells hcells _⟩
    · simpa [hfits] using hrun
    · simp [appended, hfits]
  · obtain ⟨hfits, hm⟩ := enqueue_mallocs hA hrun
    have hfits : nodeFits fails h.mallocs = true := hfits.symm
    refine ⟨ls ++ [l], h', ?_, ?_, hm, hq', hl⟩
    · simpa [hfits] using hrun
    · simp [appended, hfits, elements]

/-- `enqueue` when allocations succeed. -/
theorem enqueue_total (hA : A.Total) (v : α) (hq : IsQueue h q allocSize ls) :
    ∃ l h', enqueue A (some q) v h = some (some q, h') ∧ l.data = v ∧ IsQueue h' q allocSize (ls ++ [l]) ∧
      Local h h' (footprint q ls) (footprint q (ls ++ [l])) := by
  rcases enqueue_cases A v hq with ⟨hno, -⟩ | happend
  · exact absurd hA hno
  · exact happend

/-- The first link of a queue. -/
theorem IsQueue.first {l : Link α} (hq : IsQueue h q allocSize (l :: ls)) :
    h.cells l.node = some (.node ⟨l.block, ls.head?.map Link.node⟩) ∧ h.cells l.block = some (.block l.data) := by
  obtain ⟨hnode, hblock, -⟩ := hq.chain
  exact ⟨by simpa using hnode, hblock⟩

/-- The record of a queue that is not empty. -/
theorem IsQueue.record_cons {l : Link α} (hq : IsQueue h q allocSize (l :: ls)) :
    ∃ tail, h.cells q = some (.queue ⟨ls.length + 1, allocSize, some l.node, tail⟩) ∧
      (ls ≠ [] → tail = ls.getLast?.map Link.node) := by
  obtain ⟨tail, hrec, htail⟩ := hq.record
  refine ⟨tail, hrec, fun hne => ?_⟩
  obtain ⟨l', ls, rfl⟩ := List.exists_cons_of_ne_nil hne
  simpa using htail (by simp)

/-- The first node and its block are freed, and the record counts one less. -/
def dropFirst (h : Heap (Cell α)) (q : Nat) (l : Link α) (r : Record) : Heap (Cell α) :=
  ((h.clear l.block).clear l.node).set q (.queue r)

theorem IsQueue.dropFirst {l : Link α} (hq : IsQueue h q allocSize (l :: ls)) (tail : Option Nat)
    (htail : ls ≠ [] → tail = ls.getLast?.map Link.node) :
    IsQueue (dropFirst h q l ⟨ls.length, allocSize, ls.head?.map Link.node, tail⟩) q allocSize ls ∧
      Local h (Queue.dropFirst h q l ⟨ls.length, allocSize, ls.head?.map Link.node, tail⟩)
        (footprint q (l :: ls)) (footprint q ls) := by
  have hd := hq.distinct
  simp only [footprint, linkAddrs_cons, List.nodup_cons, List.mem_cons, not_or] at hd
  obtain ⟨⟨-, -, hqi⟩, ⟨-, hni⟩, hbi, hnd⟩ := hd
  have hcells : ∀ a, a ≠ q → a ≠ l.node → a ≠ l.block →
      (Queue.dropFirst h q l ⟨ls.length, allocSize, ls.head?.map Link.node, tail⟩).cells a = h.cells a := by
    intro a haq han hab
    rw [Queue.dropFirst, Heap.set_cells, Function.update_of_ne haq, Heap.clear_cells, Function.update_of_ne han,
      Heap.clear_cells, Function.update_of_ne hab]
  refine ⟨⟨⟨tail, Function.update_self .., htail⟩, ?_, ?_⟩, ?_, ?_⟩
  · refine hq.chain.2.2.congr fun a ha => hcells a ?_ ?_ ?_
    · exact fun he => hqi (he ▸ ha)
    · exact fun he => hni (he ▸ ha)
    · exact fun he => hbi (he ▸ ha)
  · exact List.nodup_cons.mpr ⟨hqi, hnd⟩
  · intro a ha _
    simp only [footprint, linkAddrs_cons, List.mem_cons, not_or] at ha
    exact hcells a ha.1 ha.2.1 ha.2.2.1
  · intro a ha
    simp only [footprint, linkAddrs_cons, List.mem_cons] at ha ⊢
    rcases ha with rfl | hin
    · exact .inl (.inl rfl)
    · exact .inl (.inr (.inr (.inr hin)))

theorem dequeue_nil (hq : IsQueue h q allocSize []) : dequeue (some q) h = some ((none, none), h) := by
  obtain ⟨tail, hrec, -⟩ := hq.record
  simp only [dequeue]
  rw [bind_of (loadQueue_of hrec)]
  rfl

/-- The frees at the head of a queue. -/
theorem IsQueue.free_first {l : Link α} (hq : IsQueue h q allocSize (l :: ls)) {r : Record}
    (hrec : h.cells q = some (.queue r)) :
    free l.block h = some ((), h.clear l.block) ∧
      free l.node (h.clear l.block) = some ((), (h.clear l.block).clear l.node) ∧
      ((h.clear l.block).clear l.node).cells q = some (.queue r) := by
  obtain ⟨hnode, hblock⟩ := hq.first
  have hd := hq.distinct
  simp only [footprint, linkAddrs_cons, List.nodup_cons, List.mem_cons, not_or] at hd
  obtain ⟨⟨hqn, hqb, -⟩, ⟨hnb, -⟩, -⟩ := hd
  refine ⟨free_of hblock, free_of ((Function.update_of_ne hnb _ _).trans hnode), ?_⟩
  rw [Heap.clear_cells, Function.update_of_ne hqn, Heap.clear_cells, Function.update_of_ne hqb, hrec]

/-- `dequeue` yields the oldest element and removes it. -/
theorem dequeue_cons {l : Link α} (hq : IsQueue h q allocSize (l :: ls)) :
    ∃ h', dequeue (some q) h = some ((some q, some l.data), h') ∧ IsQueue h' q allocSize ls ∧
      Local h h' (footprint q (l :: ls)) (footprint q ls) := by
  obtain ⟨tail, hrec, htail⟩ := hq.record_cons
  obtain ⟨hnode, hblock⟩ := hq.first
  obtain ⟨hfree, hfree', hrec'⟩ := hq.free_first hrec
  simp only [dequeue]
  rw [bind_of (loadQueue_of hrec), if_neg (by simp), bind_of (deref_of rfl), bind_of (loadNode_of hnode),
    bind_of (loadBlock_of hblock), bind_of hfree, bind_of hfree']
  cases ls with
  | nil =>
    obtain ⟨hq', hl⟩ := hq.dropFirst none nofun
    refine ⟨_, ?_, hq', hl⟩
    rw [if_pos (by rfl), bind_of (store_of hrec' _)]
    rfl
  | cons l' ls =>
    obtain ⟨hq', hl⟩ := hq.dropFirst tail htail
    refine ⟨_, ?_, hq', hl⟩
    rw [if_neg (by simp), bind_of (store_of hrec' _)]
    rfl

theorem front_nil (hq : IsQueue h q allocSize []) : front (some q) h = some ((none, none), h) := by
  obtain ⟨tail, hrec, -⟩ := hq.record
  simp only [front]
  rw [bind_of (loadQueue_of hrec)]
  rfl

theorem front_cons {l : Link α} (hq : IsQueue h q allocSize (l :: ls)) :
    front (some q) h = some ((some q, some l.data), h) := by
  obtain ⟨tail, hrec, -⟩ := hq.record_cons
  obtain ⟨hnode, hblock⟩ := hq.first
  simp only [front]
  rw [bind_of (loadQueue_of hrec), if_neg (by simp), bind_of (deref_of rfl), bind_of (loadNode_of hnode),
    bind_of (loadBlock_of hblock)]
  rfl

theorem getSize_eq (hq : IsQueue h q allocSize ls) : getSize (some q) h = some (ls.length, h) := by
  obtain ⟨tail, hrec, -⟩ := hq.record
  simp only [getSize]
  rw [bind_of (loadQueue_of hrec)]
  rfl

/-- A queue is made, or nothing has changed. -/
theorem createQueue_cases (A : Allocator (Cell α)) (allocSize : Nat) (h : Heap (Cell α)) :
    (¬ A.Total ∧ ∃ h', createQueue A allocSize h = some (none, h') ∧ h'.cells = h.cells) ∨
      ∃ q h', createQueue A allocSize h = some (some q, h') ∧ h.cells q = none ∧ IsQueue h' q allocSize [] ∧
        Local h h' [] [q] := by
  simp only [createQueue]
  rcases malloc_cases A Cell.raw h with ⟨hfail, hm⟩ | ⟨q, hq, hm⟩
  · refine .inl ⟨fun hA => by simpa [hfail] using hA h, h.called, ?_, rfl⟩
    rw [bind_of hm]
    rfl
  · refine .inr ⟨q, (h.set q .raw).called.set q (.queue ⟨0, allocSize, none, none⟩), ?_, hq, ?_, ?_⟩
    · rw [bind_of hm]
      show (store q _ >>= _) _ = _
      rw [bind_of (store_of (c := .raw) (Function.update_self ..) _)]
      rfl
    · exact ⟨⟨none, Function.update_self .., nofun⟩, trivial, by simp [footprint]⟩
    · exact (Local.alloc hq .raw []).trans (.set List.mem_cons_self _)

theorem createQueue_total (hA : A.Total) (allocSize : Nat) (h : Heap (Cell α)) :
    ∃ q h', createQueue A allocSize h = some (some q, h') ∧ h.cells q = none ∧ IsQueue h' q allocSize [] ∧
      Local h h' [] [q] := by
  rcases createQueue_cases A allocSize h with ⟨hno, -⟩ | hmade
  · exact absurd hA hno
  · exact hmade

theorem quiet_dequeue (q : Option Nat) : Quiet (dequeue q : Mem (Cell α) (Option Nat × Option α)) := by
  cases q with
  | none => exact quiet_pure _
  | some q =>
    refine quiet_bind (quiet_loadQueue q) fun r => ?_
    split
    · exact quiet_pure _
    · refine quiet_bind (quiet_deref _) fun toDel => quiet_bind (quiet_loadNode toDel) fun n => ?_
      refine quiet_bind (quiet_loadBlock _) fun data => quiet_bind (quiet_free _) fun _ =>
        quiet_bind (quiet_free _) fun _ => ?_
      split <;> exact quiet_bind (quiet_store _ _) fun _ => quiet_pure _

/-- `reverse` on the elements of a queue, after `m` calls of `malloc`: without
a block for the first element all stay where they are. -/
def reversed (fails : Nat → Bool) : List α → Nat → List α × Nat
  | [], m => ([], m)
  | x :: xs, m =>
    if fails m then (x :: xs, m + 1)
    else appended fails (reversed fails xs (m + 1)).1 x (reversed fails xs (m + 1)).2

/-- The recursion of `reverse`: the first element goes to a block of its own,
the rest is reversed, and the element is appended. -/
theorem reverseRec_outcome (hA : A.Total) (fails : Nat → Bool) (hq : IsQueue h q allocSize ls) {depth : Nat}
    (hdepth : ls.length < depth) :
    ∃ ls' h', reverseRec (A.failing fails) depth (some q) h = some (some q, h') ∧
      elements ls' = (reversed fails (elements ls) h.mallocs).1 ∧
      h'.mallocs = (reversed fails (elements ls) h.mallocs).2 ∧
      IsQueue h' q allocSize ls' ∧ Local h h' (footprint q ls) (footprint q ls') := by
  induction ls generalizing h depth with
  | nil =>
    obtain ⟨depth, rfl⟩ : ∃ n, depth = n + 1 := ⟨depth - 1, by simp at hdepth; omega⟩
    obtain ⟨tail, hrec, -⟩ := hq.record
    refine ⟨[], h, ?_, rfl, rfl, hq, Local.refl _ _⟩
    simp only [reverseRec]
    rw [bind_of (loadQueue_of hrec)]
    rfl
  | cons l ls ih =>
    obtain ⟨depth, rfl⟩ : ∃ n, depth = n + 1 := ⟨depth - 1, by simp at hdepth; omega⟩
    obtain ⟨tail, hrec, -⟩ := hq.record_cons
    have hels : elements (l :: ls) = l.data :: elements ls := rfl
    rw [hels, reversed]
    cases hf : fails h.mallocs with
    | true =>
      -- The queue is returned as it is.
      refine ⟨l :: ls, h.called, ?_, rfl, rfl, hq.congr fun _ _ => rfl, .of_cells h.called_cells _⟩
      simp only [reverseRec]
      rw [bind_of (loadQueue_of hrec), if_neg (by simp), bind_of (malloc_fails A hf _)]
      rfl
    | false =>
      -- The block for the first element is none of the queue's cells.
      obtain ⟨d, hd, hm⟩ := malloc_succeeds hA hf (.raw : Cell α)
      have hdF : d ∉ footprint q (l :: ls) := fun hin => hq.live d hin hd
      have hl₁ := Local.alloc hd .raw (footprint q (l :: ls))
      have hq₁ : IsQueue (h.set d .raw).called q allocSize (l :: ls) :=
        hq.outside hdF fun a ha => Function.update_of_ne ha _ _
      have hd₁ : (h.set d .raw).called.cells d = some .raw := Function.update_self ..
      obtain ⟨h₂, hdeq, hq₂, hl₂⟩ := dequeue_cons hq₁
      have hm₂ : h₂.mallocs = h.mallocs + 1 := quiet_dequeue _ _ _ _ hdeq
      have hd₂ : h₂.cells d = some .raw := (hl₂.frame d hdF (by simp [hd₁])).trans hd₁
      have hdF₂ : d ∉ footprint q ls := hl₂.notMem hdF (by simp [hd₁])
      have hq₃ : IsQueue (h₂.set d (.block l.data)) q allocSize ls :=
        hq₂.outside hdF₂ fun a ha => Function.update_of_ne ha _ _
      have hd₃ : (h₂.set d (.block l.data)).cells d = some (.block l.data) := Function.update_self ..
      obtain ⟨ls₄, h₄, hrev, hels₄, hm₄, hq₄, hl₄⟩ := ih hq₃ (show ls.length < depth by simp at hdepth; omega)
      rw [Heap.set_mallocs, hm₂] at hels₄ hm₄
      have hd₄ : h₄.cells d = some (.block l.data) := (hl₄.frame d hdF₂ (by simp [hd₃])).trans hd₃
      have hdF₄ : d ∉ footprint q ls₄ := hl₄.notMem hdF₂ (by simp [hd₃])
      obtain ⟨ls₅, h₅, henq, hels₅, hm₅, hq₅, hl₅⟩ := enqueue_outcome hA fails l.data hq₄
      rw [hels₄, hm₄] at hels₅ hm₅
      have hd₅ : h₅.cells d = some (.block l.data) := (hl₅.frame d hdF₄ (by simp [hd₄])).trans hd₄
      have hdF₅ : d ∉ footprint q ls₅ := hl₅.notMem hdF₄ (by simp [hd₄])
      refine ⟨ls₅, h₅.clear d, ?_, hels₅, hm₅, hq₅.outside hdF₅ fun a ha => Function.update_of_ne ha _ _, ?_⟩
      · simp only [reverseRec]
        rw [bind_of (loadQueue_of hrec), if_neg (by simp), bind_of hm]
        show (dequeue (some q) >>= _) _ = _
        rw [bind_of hdeq]
        show (store d (Cell.block l.data) >>= _) _ = _
        rw [bind_of (store_of hd₂ _), bind_of hrev, bind_of (loadBlock_of hd₄), bind_of henq, bind_of (free_of hd₅)]
        rfl
      · refine hl₁.trans <| (hl₂.cons d).trans <| (Local.set List.mem_cons_self _).trans <|
          (hl₄.cons d).trans <| (hl₅.cons d).trans <| (Local.clear List.mem_cons_self).keep ?_
        exact List.subset_cons_self _ _

/-- `reverse` with allocations that may fail. -/
theorem reverse_outcome (hA : A.Total) (fails : Nat → Bool) (hq : IsQueue h q allocSize ls) :
    ∃ ls' h', reverse (A.failing fails) (some q) h = some (some q, h') ∧
      elements ls' = (reversed fails (elements ls) h.mallocs).1 ∧ IsQueue h' q allocSize ls' ∧
      Local h h' (footprint q ls) (footprint q ls') := by
  obtain ⟨tail, hrec, -⟩ := hq.record
  obtain ⟨ls', h', hrev, hels, -, hrest⟩ := reverseRec_outcome hA fails hq (Nat.lt_succ_self _)
  refine ⟨ls', h', ?_, hels, hrest⟩
  simp only [reverse]
  rw [bind_of (loadQueue_of hrec)]
  exact hrev

/-- Where none fails the elements are reversed. -/
theorem reversed_never (xs : List α) (m : Nat) : (reversed (fun _ => false) xs m).1 = xs.reverse := by
  induction xs generalizing m with
  | nil => rfl
  | cons x xs ih => simp [reversed, appended, nodeFits, ih]

theorem reverse_total (hA : A.Total) (hq : IsQueue h q allocSize ls) :
    ∃ ls' h', reverse A (some q) h = some (some q, h') ∧ elements ls' = (elements ls).reverse ∧
      IsQueue h' q allocSize ls' ∧ Local h h' (footprint q ls) (footprint q ls') := by
  rw [← A.failing_never, ← reversed_never _ h.mallocs]
  exact reverse_outcome hA _ hq

/-- The loop of `clearQueue` ends with an empty queue, whose tail it has not touched. -/
theorem clearLoop_empties (hq : IsQueue h q allocSize ls) {turns : Nat} (hturns : ls.length < turns) :
    ∃ h', clearLoop q turns h = some ((), h') ∧ IsQueue h' q allocSize [] ∧ Local h h' (footprint q ls) [q] := by
  induction ls generalizing h turns with
  | nil =>
    obtain ⟨turns, rfl⟩ : ∃ n, turns = n + 1 := ⟨turns - 1, by simp at hturns; omega⟩
    obtain ⟨tail, hrec, -⟩ := hq.record
    refine ⟨h, ?_, hq, Local.refl _ _⟩
    simp only [clearLoop]
    rw [bind_of (loadQueue_of hrec)]
    rfl
  | cons l ls ih =>
    obtain ⟨turns, rfl⟩ : ∃ n, turns = n + 1 := ⟨turns - 1, by simp at hturns; omega⟩
    obtain ⟨tail, hrec, htail⟩ := hq.record_cons
    obtain ⟨hnode, hblock⟩ := hq.first
    obtain ⟨hfree, hfree', hrec'⟩ := hq.free_first hrec
    obtain ⟨hq', hl⟩ := hq.dropFirst tail htail
    obtain ⟨h', hloop, hq'', hl'⟩ := ih hq' (show ls.length < turns by simp at hturns; omega)
    refine ⟨h', ?_, hq'', hl.trans hl'⟩
    simp only [clearLoop]
    rw [bind_of (loadQueue_of hrec), if_neg (by simp), bind_of (deref_of rfl), bind_of (loadNode_of hnode),
      bind_of hfree, bind_of hfree', bind_of (store_of hrec' _)]
    exact hloop

theorem clearQueue_empties (hq : IsQueue h q allocSize ls) :
    ∃ h', clearQueue (some q) h = some (some q, h') ∧ IsQueue h' q allocSize [] ∧
      Local h h' (footprint q ls) [q] := by
  obtain ⟨tail, hrec, -⟩ := hq.record
  obtain ⟨h', hloop, hq', hl⟩ := clearLoop_empties hq (Nat.lt_succ_self _)
  refine ⟨h', ?_, hq', hl⟩
  simp only [clearQueue]
  rw [bind_of (loadQueue_of hrec), bind_of hloop]
  rfl

/-- Elements appended one after the other, after `m` calls of `malloc`. -/
def copied (fails : Nat → Bool) : List α → List α → Nat → List α × Nat
  | [], done, m => (done, m)
  | x :: xs, done, m => copied fails xs (appended fails done x m).1 (appended fails done x m).2

/-- The loop of `copyQueue`: the elements from a node on are appended to the
new queue, of which the old one shares no cell. -/
theorem copyLoop_outcome (hA : A.Total) (fails : Nat → Bool) {src new srcSize newSize : Nat}
    {before after done : List (Link α)} (hsrc : IsQueue h src srcSize (before ++ after))
    (hnew : IsQueue h new newSize done) (hdisj : ∀ a ∈ footprint src (before ++ after), a ∉ footprint new done)
    {turns : Nat} (hturns : after.length ≤ turns) :
    ∃ done' h', copyLoop (A.failing fails) new turns (after.head?.map Link.node) h = some ((), h') ∧
      elements done' = (copied fails (elements after) (elements done) h.mallocs).1 ∧ IsQueue h' new newSize done' ∧
      Local h h' (footprint new done) (footprint new done') := by
  induction after generalizing h before done turns with
  | nil => exact ⟨done, h, by cases turns <;> rfl, rfl, hnew, Local.refl _ _⟩
  | cons l after ih =>
    obtain ⟨turns, rfl⟩ : ∃ n, turns = n + 1 := ⟨turns - 1, by simp at hturns; omega⟩
    obtain ⟨hnode, hblock, -⟩ := (segment_append.mp hsrc.chain).2
    obtain ⟨done₁, h₁, henq, hels₁, hm₁, hnew₁, hl₁⟩ := enqueue_outcome hA fails l.data hnew
    -- The old queue is where it was, also the node the loop stands on.
    have hsrc₁ := hsrc.frame hl₁ hdisj
    have hnode₁ := (segment_append.mp hsrc₁.chain).2.1
    have hdisj₁ : ∀ a ∈ footprint src (before ++ l :: after), a ∉ footprint new done₁ :=
      fun a ha => hl₁.notMem (hdisj a ha) (hsrc.live a ha)
    rw [← List.singleton_append, ← List.append_assoc] at hsrc₁ hdisj₁
    obtain ⟨done', h', hloop, hels, hnew', hl'⟩ :=
      ih hsrc₁ hnew₁ hdisj₁ (show after.length ≤ turns by simp at hturns; omega)
    refine ⟨done', h', ?_, ?_, hnew', hl₁.trans hl'⟩
    · show copyLoop _ new (turns + 1) (some l.node) h = _
      simp only [copyLoop]
      rw [bind_of (loadNode_of hnode), bind_of (loadBlock_of hblock), bind_of henq, bind_of (loadNode_of hnode₁)]
      simpa using hloop
    · rw [hels, hels₁, hm₁]
      rfl

theorem createQueue_mallocs {q' : Option Nat} (hrun : createQueue A allocSize h = some (q', h')) :
    h'.mallocs = h.mallocs + 1 := by
  simp only [createQueue] at hrun
  rcases malloc_cases A (Cell.raw : Cell α) h with ⟨-, hm⟩ | ⟨q, -, hm⟩
  · rw [bind_of hm] at hrun
    cases hrun
    rfl
  · rw [bind_of hm] at hrun
    obtain ⟨_, _, hstore, hrun⟩ := bind_inv hrun
    cases hrun
    exact quiet_store _ _ _ _ _ hstore

/-- `copyQueue` with allocations that may fail: without a record there is no
copy and nothing has changed, otherwise a copy is returned, of cells nobody used. -/
theorem copyQueue_outcome (hA : A.Total) (fails : Nat → Bool) (hq : IsQueue h q allocSize ls) :
    (fails h.mallocs = true ∧ ∃ h', copyQueue (A.failing fails) (some q) h = some (none, h') ∧ h'.cells = h.cells) ∨
      (fails h.mallocs = false ∧ ∃ q' ls' h', copyQueue (A.failing fails) (some q) h = some (some q', h') ∧
        h.cells q' = none ∧ elements ls' = (copied fails (elements ls) [] (h.mallocs + 1)).1 ∧
        IsQueue h' q' allocSize ls' ∧ Local h h' [] (footprint q' ls')) := by
  obtain ⟨tail, hrec, -⟩ := hq.record
  simp only [copyQueue]
  rw [bind_of (loadQueue_of hrec)]
  cases hf : fails h.mallocs with
  | true =>
    refine .inl ⟨rfl, h.called, ?_, rfl⟩
    have hcreate : createQueue (A.failing fails) allocSize h = some (none, h.called) := by
      rw [createQueue, bind_of (malloc_fails A hf _)]
      rfl
    rw [bind_of hcreate]
    rfl
  | false =>
    refine .inr ⟨rfl, ?_⟩
    rcases createQueue_cases (A.failing fails) allocSize h with
      ⟨-, h₁, hcreate, -⟩ | ⟨q', h₁, hcreate, hfresh, hq', hl₁⟩
    · obtain ⟨a, -, hm⟩ := malloc_succeeds hA hf (Cell.raw : Cell α)
      rw [createQueue, bind_of hm] at hcreate
      obtain ⟨_, _, -, hrun⟩ := bind_inv hcreate
      cases hrun
    have hq₁ : IsQueue h₁ q allocSize ([] ++ ls) := hq.frame hl₁ fun _ _ => List.not_mem_nil
    have hdisj : ∀ a ∈ footprint q ([] ++ ls), a ∉ footprint q' ([] : List (Link α)) := by
      intro a ha hin
      obtain rfl : a = q' := by simpa [footprint] using hin
      exact hq.live a ha hfresh
    obtain ⟨ls', h', hloop, hels, hq'', hl'⟩ := copyLoop_outcome hA fails hq₁ hq' hdisj (Nat.le_refl ls.length)
    rw [createQueue_mallocs hcreate] at hels
    refine ⟨q', ls', h', ?_, hfresh, hels, hq'', hl₁.trans hl'⟩
    rw [bind_of hcreate]
    show (copyLoop _ q' ls.length (ls.head?.map Link.node) >>= _) h₁ = _
    rw [bind_of hloop]
    rfl

theorem copied_never (xs done : List α) (m : Nat) : (copied (fun _ => false) xs done m).1 = done ++ xs := by
  induction xs generalizing done m with
  | nil => simp [copied]
  | cons x xs ih => simp [copied, appended, nodeFits, ih]

/-- `copyQueue` makes an equal queue, of cells nobody used. -/
theorem copyQueue_total (hA : A.Total) (hq : IsQueue h q allocSize ls) :
    ∃ q' ls' h', copyQueue A (some q) h = some (some q', h') ∧ h.cells q' = none ∧
      elements ls' = elements ls ∧ IsQueue h' q' allocSize ls' ∧ Local h h' [] (footprint q' ls') := by
  rcases copyQueue_outcome hA (fun _ => false) hq with ⟨hf, -⟩ | ⟨-, q', ls', h', hrun, hfresh, hels, hrest⟩
  · cases hf
  · rw [copied_never] at hels
    exact ⟨q', ls', h', hrun, hfresh, hels, hrest⟩

/-- `destroyQueue` leaves nothing of the queue. -/
theorem destroyQueue_frees (hq : IsQueue h q allocSize ls) :
    ∃ h', destroyQueue (some q) h = some (none, h') ∧ Local h h' (footprint q ls) [] := by
  obtain ⟨h₁, hclear, hq₁, hl₁⟩ := clearQueue_empties hq
  obtain ⟨tail, hrec, -⟩ := hq₁.record
  refine ⟨h₁.clear q, ?_, hl₁.trans ((Local.clear List.mem_cons_self).keep (List.nil_subset _))⟩
  simp only [destroyQueue]
  rw [bind_of hclear]
  show (free q >>= _) h₁ = _
  rw [bind_of (free_of hrec)]
  rfl

end Queue

end FinalServer
