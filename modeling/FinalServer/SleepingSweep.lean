/-
The sweep sleeps with its guards (`proxy.rs`).

`check_heartbeat_expiry` locks every table, marks servers down, and sleeps
for a second or longer before the guards go out of scope. A listener gets a
table's lock only between two sweeps, and when the sweep is quick to ask
again, for one datagram. So a table of `n` servers is sure of one heartbeat a
sleep, not of `n`, and a server is kept up exactly if as many consecutive
heartbeats as sleeps begin in the timeout include it.
-/
import FinalServer.ReverseProxyLd
import Mathlib.Data.List.Nodup
import Mathlib.Logic.Function.Basic

namespace FinalServer

/-! ## The tasks of a proxy -/

/-- Who asks for the lock of a table. -/
inductive Task
  | listener
  | sweep
  deriving DecidableEq

/-- Where a listener is: in `recv_from`, about to ask for the lock with what it
received, or waiting for it. -/
inductive Listener (Addr : Type*)
  | receiving
  | received (d : Datagram Addr)
  | locking (d : Datagram Addr)

/-- A table, what has arrived at its socket, how much that ever was and how much
when the sweep last woke, its listener, and those that asked for its lock: the
first has it. -/
structure Guarded (Addr : Type*) where
  servers : List (Server Addr)
  socket : List (Datagram Addr)
  arrived : Nat
  before : Nat
  listener : Listener Addr
  queue : List Task

/-- Where the sweep is: about to lock the tables that are left, waiting for one,
asleep, or dropping the guards that are left. -/
inductive SweepAt
  | locking (rest : List Role)
  | waiting (role : Role) (rest : List Role)
  | asleep
  | dropping (rest : List Role)

/-- The tasks, how often the sweep has slept, and the time. -/
structure Tasks (Addr : Type*) where
  guarded : Role → Guarded Addr
  sweep : SweepAt
  sleeps : Nat
  now : Nat

/-- A datagram arrives at the socket of a table, its listener takes a step, or
the sweep does. -/
inductive TaskEvent
  | arrive (role : Role)
  | receive (role : Role)
  | lock (role : Role)
  | process (role : Role)
  | sweep

/-- The tables that a proxy sweeps, in this order. -/
def Mode.tables : Mode → List Role
  | .fl => [.logic]
  | .ld => [.data, .logic]

/-- The whole seconds of a time. -/
def wholeSecs (n : Nat) : Nat := n / fromSecs 1

/-- The seconds that have begun. -/
def begunSecs (n : Nat) : Nat := (n + fromSecs 1 - 1) / fromSecs 1

namespace Guarded

variable {Addr : Type*}

def ask (t : Task) (g : Guarded Addr) : Guarded Addr := { g with queue := g.queue ++ [t] }

/-- The guard goes out of scope. -/
def drop (g : Guarded Addr) : Guarded Addr := { g with queue := g.queue.tail }

def arrive (sender : Nat → Addr) (g : Guarded Addr) : Guarded Addr :=
  { g with socket := g.socket ++ [⟨okText, sender g.arrived⟩], arrived := g.arrived + 1 }

def receive (g : Guarded Addr) : Guarded Addr :=
  match g.listener, g.socket with
  | .receiving, d :: rest => { g with listener := .received d, socket := rest }
  | _, _ => g

def lock (g : Guarded Addr) : Guarded Addr :=
  match g.listener with
  | .received d => { g.ask .listener with listener := .locking d }
  | _ => g

/-- The listener has the lock: it processes its datagram and drops the guard. -/
def process [DecidableEq Addr] (parser : AddrParser Addr) (mode : Mode) (now : Nat) (g : Guarded Addr) : Guarded Addr :=
  match g.listener, g.queue.head? with
  | .locking d, some .listener =>
    { g.drop with servers := (listen parser mode.identify now g.servers d).1, listener := .receiving }
  | _, _ => g

def expire (now : Nat) (g : Guarded Addr) : Guarded Addr := { g with servers := checkHeartbeatExpiry now g.servers }

/-- The listener can do nothing now. -/
def blocked (g : Guarded Addr) : Bool :=
  match g.listener with
  | .receiving => g.socket.isEmpty
  | .received _ => false
  | .locking _ => g.queue.head? ≠ some .listener

/-- Every server has delivered an `OK` in each of the seconds, and one since the sweep last woke. -/
def delivered (g : Guarded Addr) (seconds : Nat) : Prop :=
  g.servers.length * seconds ≤ g.arrived ∧ g.before + g.servers.length ≤ g.arrived

instance (g : Guarded Addr) (seconds : Nat) : Decidable (g.delivered seconds) := inferInstanceAs (Decidable (_ ∧ _))

/-- The sweep wakes. -/
def wake (g : Guarded Addr) : Guarded Addr := { g with before := g.arrived }

end Guarded

namespace Tasks

variable {Addr : Type*} [DecidableEq Addr] (parser : AddrParser Addr) (mode : Mode) (duration : Nat)
  (sender : Role → Nat → Addr)

/-- The proxy starts to sweep tables of servers it knows. -/
def start (servers : Role → List (Server Addr)) (now : Nat) : Tasks Addr where
  guarded role := ⟨servers role, [], 0, 0, .receiving, []⟩
  sweep := .locking mode.tables
  sleeps := 0
  now := now

omit [DecidableEq Addr] in
def modify (t : Tasks Addr) (role : Role) (f : Guarded Addr → Guarded Addr) : Tasks Addr :=
  { t with guarded := Function.update t.guarded role (f (t.guarded role)) }

omit [DecidableEq Addr] in
/-- The next step of `check_heartbeat_expiry`, whose sleeps last `duration`. One
is over when the datagrams of the seconds that have passed have arrived, and
the listeners have done what they can, which takes no time. -/
def sweepStep (t : Tasks Addr) : Tasks Addr :=
  match t.sweep with
  | .locking (role :: rest) => { t.modify role (·.ask .sweep) with sweep := .waiting role rest }
  | .waiting role rest =>
    if (t.guarded role).queue.head? = some .sweep then
      { t.modify role (·.expire t.now) with sweep := .locking rest }
    else t
  | .locking [] => { t with sweep := .asleep }
  | .asleep =>
    if ∀ role ∈ mode.tables, (t.guarded role).blocked = true ∧
        (t.guarded role).delivered (wholeSecs ((t.sleeps + 1) * duration)) then
      { guarded := fun role => (t.guarded role).wake, sweep := .dropping mode.tables.reverse
        sleeps := t.sleeps + 1, now := t.now + duration }
    else t
  | .dropping (role :: rest) => { t.modify role (·.drop) with sweep := .dropping rest }
  | .dropping [] => { t with sweep := .locking mode.tables }

/-- Datagrams arrive while time passes. -/
def step (t : Tasks Addr) : TaskEvent → Tasks Addr
  | .arrive role =>
    match t.sweep with
    | .asleep =>
      if (t.guarded role).arrived < (t.guarded role).servers.length * begunSecs ((t.sleeps + 1) * duration) then
        t.modify role (·.arrive (sender role))
      else t
    | _ => t
  | .receive role => t.modify role (·.receive)
  | .lock role => t.modify role (·.lock)
  | .process role => t.modify role (·.process parser mode t.now)
  | .sweep => t.sweepStep mode duration

omit [DecidableEq Addr] in
def AllUp (t : Tasks Addr) : Prop := ∀ role ∈ mode.tables, ∀ s ∈ (t.guarded role).servers, s.isUp = true

end Tasks

/-- Servers that are identified, by different addresses, up, and have had a
heartbeat. -/
structure Reporting {Addr : Type*} (now : Nat) (servers : List (Server Addr)) : Prop where
  identified : ∀ s ∈ servers, ∃ a, s.addrIdentifier = some a
  heard : ∀ s ∈ servers, ∃ last ≤ now, s.lastHeartbeat = some last
  up : ∀ s ∈ servers, s.isUp = true
  distinct : (servers.map (·.addrIdentifier)).Nodup

/-- The senders of each second are the servers, each once. -/
def OncePerSecond {Addr : Type*} (servers : List (Server Addr)) (sender : Nat → Addr) : Prop :=
  ∀ second, ((List.range servers.length).map fun k => some (sender (second * servers.length + k))).Perm
    (servers.map (·.addrIdentifier))

/-- At every sweep `n` each server is the sender of a heartbeat `k` before the
`n`-th, such that the sleeps since the `k + 1`-st sweep are no longer than the
timeout, or its first heartbeat is not timed out yet. -/
def KeptUp {Addr : Type*} (duration now : Nat) (servers : List (Server Addr)) (sender : Nat → Addr) : Prop :=
  ∀ s ∈ servers, ∀ n,
    (∃ k < n, (n - 1 - k) * duration ≤ fromSecs TIMEOUT ∧ s.addrIdentifier = some (sender k)) ∨
      ∃ last ∈ s.lastHeartbeat, now + n * duration ≤ last + fromSecs TIMEOUT

/-! ## What one table sees -/

/-- Where the sweep is with a table. -/
inductive Stage
  | away
  | waiting
  | held
  | asleep
  | woken
  deriving DecidableEq

def SweepAt.stage (role : Role) : SweepAt → Stage
  | .locking rest => if role ∈ rest then .away else .held
  | .waiting role' rest => if role = role' then .waiting else if role ∈ rest then .away else .held
  | .asleep => .asleep
  | .dropping rest => if role ∈ rest then .woken else .away

/-- A table, and where the sweep is with it. -/
structure View (Addr : Type*) where
  guarded : Guarded Addr
  stage : Stage
  sleeps : Nat
  now : Nat

/-- The sweep takes the tables in order, each once. -/
def SweepAt.Within (mode : Mode) : SweepAt → Prop
  | .locking rest => rest <:+ mode.tables
  | .waiting role rest => role :: rest <:+ mode.tables
  | .asleep => True
  | .dropping rest => rest <:+ mode.tables.reverse

theorem nodup_tables (mode : Mode) : mode.tables.Nodup := by
  cases mode <;> decide

section Turn

variable {Addr : Type*} [DecidableEq Addr] {parser : AddrParser Addr} {mode : Mode} {duration : Nat}

/-- What one step changes for a table. -/
inductive Turn (parser : AddrParser Addr) (mode : Mode) (duration : Nat) (sender : Nat → Addr) (v : View Addr) :
    View Addr → Prop
  | nothing : Turn parser mode duration sender v v
  | arrive (hstage : v.stage = .asleep) :
    Turn parser mode duration sender v { v with guarded := v.guarded.arrive sender }
  | receive : Turn parser mode duration sender v { v with guarded := v.guarded.receive }
  | lock : Turn parser mode duration sender v { v with guarded := v.guarded.lock }
  | process : Turn parser mode duration sender v { v with guarded := v.guarded.process parser mode v.now }
  | ask (hstage : v.stage = .away) :
      Turn parser mode duration sender v { v with guarded := v.guarded.ask .sweep, stage := .waiting }
  | sweep (hstage : v.stage = .waiting) (hlock : v.guarded.queue.head? = some .sweep) :
      Turn parser mode duration sender v { v with guarded := v.guarded.expire v.now, stage := .held }
  | sleep (hstage : v.stage = .held) : Turn parser mode duration sender v { v with stage := .asleep }
  | wake (hstage : v.stage = .asleep) (hblocked : v.guarded.blocked = true)
      (hdelivered : v.guarded.delivered (wholeSecs ((v.sleeps + 1) * duration))) : Turn parser mode duration sender v
        { guarded := v.guarded.wake, stage := .woken, sleeps := v.sleeps + 1, now := v.now + duration }
  | drop (hstage : v.stage = .woken) :
    Turn parser mode duration sender v { v with guarded := v.guarded.drop, stage := .away }

namespace Tasks

variable {sender : Role → Nat → Addr} {t : Tasks Addr} {role role' : Role}

def view (t : Tasks Addr) (role : Role) : View Addr := ⟨t.guarded role, t.sweep.stage role, t.sleeps, t.now⟩

omit [DecidableEq Addr] in
@[simp] theorem modify_self (f : Guarded Addr → Guarded Addr) :
    (t.modify role f).guarded role = f (t.guarded role) :=
  Function.update_self _ _ _

omit [DecidableEq Addr] in
@[simp] theorem modify_other (f : Guarded Addr → Guarded Addr) (h : role ≠ role') :
    (t.modify role' f).guarded role = t.guarded role :=
  Function.update_of_ne h _ _

omit [DecidableEq Addr] in
@[simp] theorem modify_sleeps (f : Guarded Addr → Guarded Addr) : (t.modify role f).sleeps = t.sleeps := rfl

omit [DecidableEq Addr] in
@[simp] theorem modify_now (f : Guarded Addr → Guarded Addr) : (t.modify role f).now = t.now := rfl

omit [DecidableEq Addr] in
theorem sweepStep_within (h : t.sweep.Within mode) : (t.sweepStep mode duration).sweep.Within mode := by
  unfold sweepStep
  split
  next role rest heq =>
    rw [heq] at h
    exact h
  next role rest heq =>
    rw [heq] at h
    split
    · exact (List.suffix_cons role rest).trans h
    · rw [heq]
      exact h
  next => trivial
  next heq =>
    split
    · exact List.suffix_rfl
    · rw [heq]
      trivial
  next role rest heq =>
    rw [heq] at h
    exact (List.suffix_cons role rest).trans h
  next => exact List.suffix_rfl

theorem step_within (h : t.sweep.Within mode) (e : TaskEvent) :
    (t.step parser mode duration sender e).sweep.Within mode := by
  cases e with
  | arrive role =>
    simp only [step]
    split
    · split <;> exact h
    · exact h
  | receive role | lock role | process role => exact h
  | sweep => exact sweepStep_within h

omit [DecidableEq Addr] in
theorem view_modify_self (f : Guarded Addr → Guarded Addr) :
    (t.modify role f).view role = { t.view role with guarded := f (t.guarded role) } := by
  rw [view, modify_self]
  rfl

omit [DecidableEq Addr] in
theorem view_modify_other (f : Guarded Addr → Guarded Addr) (h : role ≠ role') :
    (t.modify role' f).view role = t.view role := by
  rw [view, modify_other f h]
  rfl

/-- A step of another table's listener is none of this one's. -/
theorem modify_turn {f : Guarded Addr → Guarded Addr} (role' : Role) (h : role = role' →
      Turn parser mode duration (sender role) (t.view role) { t.view role with guarded := f (t.guarded role) }) :
    Turn parser mode duration (sender role) (t.view role) ((t.modify role' f).view role) := by
  by_cases hrole : role = role'
  · subst hrole
    rw [view_modify_self]
    exact h rfl
  · rw [view_modify_other f hrole]
    exact .nothing

theorem turn_of_view_eq {t' : Tasks Addr} (h : t'.view role = t.view role) :
    Turn parser mode duration (sender role) (t.view role) (t'.view role) :=
  h ▸ .nothing

theorem sweepStep_turn (hw : t.sweep.Within mode) (hrole : role ∈ mode.tables) :
    Turn parser mode duration (sender role) (t.view role) ((t.sweepStep mode duration).view role) := by
  unfold sweepStep
  split
  next role' rest heq =>
    by_cases hsame : role = role'
    · subst hsame
      have hstage : (t.view role).stage = .away := by simp [view, heq, SweepAt.stage]
      have hask : Turn parser mode duration (sender role) (t.view role) _ := .ask hstage
      simpa [view, SweepAt.stage] using hask
    · exact turn_of_view_eq (by simp [view, SweepAt.stage, heq, hsame])
  next role' rest heq =>
    rw [heq] at hw
    split
    next hlock =>
      by_cases hsame : role = role'
      · subst hsame
        have hnot : role ∉ rest := (List.nodup_cons.mp ((nodup_tables mode).sublist hw.sublist)).1
        have hstage : (t.view role).stage = .waiting := by simp [view, heq, SweepAt.stage]
        simpa [view, SweepAt.stage, hnot] using Turn.sweep hstage hlock
      · exact turn_of_view_eq (by simp [view, SweepAt.stage, heq, hsame])
    next => exact .nothing
  next heq =>
    have hstage : (t.view role).stage = .held := by simp [view, heq, SweepAt.stage]
    exact Turn.sleep hstage
  next heq =>
    split
    next hall =>
      obtain ⟨hblocked, hdelivered⟩ := hall role hrole
      have hstage : (t.view role).stage = .asleep := by simp [view, heq, SweepAt.stage]
      simpa [view, SweepAt.stage, hrole] using Turn.wake hstage hblocked hdelivered
    next => exact .nothing
  next role' rest heq =>
    rw [heq] at hw
    by_cases hsame : role = role'
    · subst hsame
      have hnot : role ∉ rest :=
        (List.nodup_cons.mp ((List.nodup_reverse.mpr (nodup_tables mode)).sublist hw.sublist)).1
      have hstage : (t.view role).stage = .woken := by simp [view, heq, SweepAt.stage]
      simpa [view, SweepAt.stage, hnot] using Turn.drop hstage
    · exact turn_of_view_eq (by simp [view, SweepAt.stage, heq, hsame])
  next heq => exact turn_of_view_eq (by simp [view, SweepAt.stage, heq, hrole])

theorem step_turn (hw : t.sweep.Within mode) (hrole : role ∈ mode.tables) (e : TaskEvent) :
    Turn parser mode duration (sender role) (t.view role) ((t.step parser mode duration sender e).view role) := by
  cases e with
  | arrive role' =>
    simp only [step]
    split
    next heq =>
      split
      · refine modify_turn role' fun hsame => ?_
        subst hsame
        exact .arrive (by simp [view, heq, SweepAt.stage])
      · exact .nothing
    next => exact .nothing
  | receive role' => exact modify_turn role' fun _ => .receive
  | lock role' => exact modify_turn role' fun _ => .lock
  | process role' => exact modify_turn role' fun _ => .process
  | sweep => exact sweepStep_turn hw hrole

end Tasks

end Turn

end FinalServer
