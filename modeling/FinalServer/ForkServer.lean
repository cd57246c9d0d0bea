/-
The queue server: `server.c`.

The parent accepts connections one after another, puts a request in its queue
for each and forks a child, which works on its own copy of the queue.
`enqueue_request` allocates a `Request` and never fills it, and the parent
never takes one out. `child_takes_own_iff` says when the children get their
own requests all the same.
-/
import FinalServer.Queue
import FinalServer.Run

namespace FinalServer

namespace ForkServer

open Heap (Mem Local Allocator)
open Heap.Mem
open Queue (Cell IsQueue Link elements)

/-- `struct sockaddr_in`, as far as it tells clients apart. -/
structure SockaddrIn where
  sinAddr : UInt32
  sinPort : UInt16
  deriving DecidableEq

structure Request where
  clientFd : Int
  clientAddr : SockaddrIn
  data : List UInt8
  deriving DecidableEq

/-- `sizeof(Request)`. -/
def REQUEST_SIZE : Nat := 1044

/-- A turn of the loop of `main`. -/
structure Accepted where
  /-- The descriptor and the address from `accept`, and the bytes from `read`. -/
  conn : Request
  /-- What the memory `malloc` gives for `new_request` happens to hold. -/
  memory : Request
  /-- `fork` succeeds. -/
  forks : Bool
  /-- What the child's local variable `req` happens to hold. -/
  stack : Request

/-- `enqueue_request`; the connection's data is logged at most. Whether the
request got into the queue, nobody looks at. -/
def enqueueRequest (A : Allocator (Cell Request)) (_conn memory : Request) (q : Option Nat) :
    Mem (Cell Request) Bool := do
  match ← malloc A .raw with
  | none => pure false
  | some _ => do
    let r ← Queue.enqueue A q memory
    pure r.isSome

/-- The child's `handle_client`: the request it answers. -/
def handleClient (q : Option Nat) (stack : Request) : Mem (Cell Request) Request := do
  let r ← Queue.dequeue q
  pure (r.2.getD stack)

/-- The parent: its heap and `request_queue`, and beside them what it has put
in the queue. -/
structure Server where
  heap : Option (Heap (Cell Request))
  requestQueue : Option Nat
  stored : List Request

namespace Server

/-- The state in which `main` enters its loop. -/
def start (A : Allocator (Cell Request)) (h : Heap (Cell Request)) : Server :=
  match Queue.createQueue A REQUEST_SIZE h with
  | some (q, h) => ⟨some h, q, []⟩
  | none => ⟨none, none, []⟩

def step (A : Allocator (Cell Request)) (s : Server) (e : Accepted) : Server :=
  match s.heap with
  | none => s
  | some h =>
    match enqueueRequest A e.conn e.memory s.requestQueue h with
    | some (true, h) => ⟨some h, s.requestQueue, s.stored ++ [e.memory]⟩
    | some (false, h) => ⟨some h, s.requestQueue, s.stored⟩
    | none => { s with heap := none }

/-- What the child forked after a turn takes from its copy of the queue. -/
def childRequest (A : Allocator (Cell Request)) (s : Server) (e : Accepted) : Option Request :=
  match (s.step A e).heap with
  | none => none
  | some h => (handleClient s.requestQueue e.stack h).map (·.1)

/-- The oldest request stored, or `other` if none is. -/
def oldestOr (s : Server) (other : Request) : Request := s.stored.head?.getD other

/-- The queue on the heap holds what was stored; without a queue nothing was. -/
inductive Sound : Server → Prop
  | queue (h : Heap (Cell Request)) (q : Nat) (ls : List (Link Request)) (hq : IsQueue h q REQUEST_SIZE ls) :
      Sound ⟨some h, some q, elements ls⟩
  | noQueue (h : Heap (Cell Request)) : Sound ⟨some h, none, []⟩

theorem sound_start (A : Allocator (Cell Request)) (h : Heap (Cell Request)) : Sound (start A h) := by
  rw [start]
  rcases Queue.createQueue_cases A REQUEST_SIZE h with ⟨-, h', hrun, -⟩ | ⟨q, h', hrun, -, hq, -⟩
  · rw [hrun]
    exact .noQueue h'
  · rw [hrun]
    exact .queue h' q [] hq

/-- A turn stores the memory it was given, or nothing. -/
theorem step_sound {A : Allocator (Cell Request)} {s : Server} (hs : Sound s) (e : Accepted) :
    Sound (s.step A e) := by
  cases hs with
  | noQueue h =>
    have hrun : ∃ h', enqueueRequest A e.conn e.memory none h = some (false, h') := by
      simp only [enqueueRequest]
      rcases malloc_cases A Cell.raw h with ⟨-, hm⟩ | ⟨a, -, hm⟩
      all_goals
        rw [bind_of hm]
        exact ⟨_, rfl⟩
    obtain ⟨h', hrun⟩ := hrun
    simp only [step, hrun]
    exact .noQueue h'
  | queue h q ls hq =>
    simp only [step]
    rcases malloc_cases A Cell.raw h with ⟨-, hm⟩ | ⟨a, ha, hm⟩
    · have hrun : enqueueRequest A e.conn e.memory (some q) h = some (false, h.called) := by
        rw [enqueueRequest, bind_of hm]
        rfl
      rw [hrun]
      exact .queue h.called q ls (hq.congr fun _ _ => rfl)
    · -- The unfilled request is not part of the queue.
      have haF : a ∉ Queue.footprint q ls := fun hin => hq.live a hin ha
      have hq₁ : IsQueue (h.set a .raw).called q REQUEST_SIZE ls :=
        hq.outside haF fun b hb => Function.update_of_ne hb _ _
      rcases Queue.enqueue_cases A e.memory hq₁ with ⟨-, h', henq, hcells⟩ | ⟨l, h', henq, hdata, hq', -⟩
      · have hrun : enqueueRequest A e.conn e.memory (some q) h = some (false, h') := by
          rw [enqueueRequest, bind_of hm]
          exact bind_of henq _
        rw [hrun]
        exact .queue h' q ls (hq₁.congr fun b _ => by rw [hcells])
      · have hrun : enqueueRequest A e.conn e.memory (some q) h = some (true, h') := by
          rw [enqueueRequest, bind_of hm]
          exact bind_of henq _
        rw [hrun, ← hdata]
        have hels : elements ls ++ [l.data] = elements (ls ++ [l]) := by simp [elements]
        rw [hels]
        exact .queue h' q (ls ++ [l]) hq'

theorem step_requestQueue (A : Allocator (Cell Request)) (s : Server) (e : Accepted) :
    (s.step A e).requestQueue = s.requestQueue := by
  rw [step]
  split
  · rfl
  · split <;> rfl

/-- A child takes the oldest request stored. -/
theorem childRequest_eq {A : Allocator (Cell Request)} {s : Server} (hs : Sound s) (e : Accepted) :
    s.childRequest A e = some ((s.step A e).oldestOr e.stack) := by
  have hstep := step_sound (A := A) hs e
  rw [childRequest, ← step_requestQueue A s e]
  generalize s.step A e = t at hstep
  cases hstep with
  | noQueue h => rfl
  | queue h q ls hq =>
    show (handleClient (some q) e.stack h).map _ = _
    rw [handleClient]
    cases ls with
    | nil =>
      rw [bind_of (Queue.dequeue_nil hq)]
      rfl
    | cons l ls =>
      obtain ⟨h', hdeq, -⟩ := Queue.dequeue_cons hq
      rw [bind_of hdeq]
      rfl

end Server

open Server

/-- **Whose request a child takes.** In every run of the server, every child
takes the request of its own connection exactly if, at every fork, the oldest
request stored, which is memory nobody filled, happens to be that request. -/
theorem child_takes_own_iff (A : Allocator (Cell Request)) (h : Heap (Cell Request)) (es : List Accepted) :
    Run.Along (step A) (fun s e => e.forks = true → s.childRequest A e = some e.conn) (start A h) es ↔
      Run.Along (step A) (fun s e => e.forks = true → (s.step A e).oldestOr e.stack = e.conn) (start A h) es := by
  refine Run.along_iff_along (sound_start A h) (fun s e hs _ => step_sound hs e) fun s e hs => ?_
  rw [childRequest_eq hs e, Option.some.injEq]

/-- A connection, accepted while the memory handed out holds zeros. -/
def firstConnection : Accepted where
  conn := ⟨4, ⟨0x7F000001, 50000⟩, [104, 105]⟩
  memory := ⟨0, ⟨0, 0⟩, []⟩
  forks := true
  stack := ⟨0, ⟨0, 0⟩, []⟩

/-- Its child takes a request of nobody's. -/
theorem first_child_takes_other :
    ¬ ∀ (A : Allocator (Cell Request)) (h : Heap (Cell Request)) (es : List Accepted),
      Run.Along (step A) (fun s e => e.forks = true → s.childRequest A e = some e.conn) (start A h) es := by
  intro hall
  have hchild := (hall .bump .empty [firstConnection]).1 rfl
  revert hchild
  decide +kernel

end ForkServer

end FinalServer
