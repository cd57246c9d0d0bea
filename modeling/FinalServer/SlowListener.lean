/-
The listener is slow: one heartbeat a sleep (`proxy.rs`).

When the sweep asks for a lock again before the listener is done with its
datagram, the listener processes one between two sweeps and the others wait
(`slowTable`). That schedule takes down every server that is not among the
last senders, of which the timeout holds three if a sleep lasts a second and
two or one if it lasts longer; so with more servers no order of their
heartbeats is safe.
-/
import FinalServer.FairListener
import Mathlib.Data.List.Perm.Basic
import Mathlib.Logic.Function.Iterate

namespace FinalServer

/-! ## One heartbeat a sleep -/

section Runs

variable {Addr : Type*} [DecidableEq Addr] (parser : AddrParser Addr) (mode : Mode) (duration : Nat)
  (sender : Role → Nat → Addr)

namespace Tasks

variable {t : Tasks Addr} {role : Role} {rest roles : List Role} {f : Role → Guarded Addr → Guarded Addr}

omit [DecidableEq Addr] in
/-- The same for each of some tables. -/
def modifyAll (t : Tasks Addr) (roles : List Role) (f : Role → Guarded Addr → Guarded Addr) : Tasks Addr :=
  { t with guarded := fun role => if role ∈ roles then f role (t.guarded role) else t.guarded role }

omit [DecidableEq Addr] in
theorem modifyAll_nil : t.modifyAll [] f = t := by
  simp [modifyAll]

omit [DecidableEq Addr] in
theorem modifyAll_cons (h : role ∉ rest) :
    (t.modify role (f role)).modifyAll rest f = t.modifyAll (role :: rest) f := by
  unfold modifyAll modify
  congr 1
  funext role'
  by_cases hsame : role' = role
  · subst hsame
    simp [h]
  · simp [hsame]

/-- What a table's listener can do while the sweep sleeps: `n` heartbeats
arrive, and it waits with the first. -/
def asleepEvents (n : Role → Nat) (role : Role) : List TaskEvent :=
  List.replicate (n role) (.arrive role) ++ [.receive role, .lock role]

/-- The sweep asks for each lock before its listener is done. -/
def sweepEvents (role : Role) : List TaskEvent := [.sweep, .process role, .sweep]

theorem exec_drop (hnodup : roles.Nodup) (hsweep : t.sweep = .dropping roles) :
    Run.exec (step parser mode duration sender) t (roles.map fun _ => .sweep) =
      { t.modifyAll roles fun _ => Guarded.drop with sweep := .dropping [] } := by
  induction roles generalizing t with
  | nil =>
    rw [modifyAll_nil, ← hsweep]
    rfl
  | cons role rest ih =>
    obtain ⟨hnot, hrest⟩ := List.nodup_cons.mp hnodup
    have hstep : step parser mode duration sender t .sweep =
        { t.modify role (·.drop) with sweep := .dropping rest } := by
      simp only [step, sweepStep, hsweep]
    rw [List.map_cons, Run.exec_cons, hstep, ih hrest rfl, ← modifyAll_cons hnot]
    rfl

theorem exec_sweep (hnodup : roles.Nodup) (hsweep : t.sweep = .locking roles)
    (hlock : ∀ role ∈ roles,
      (((t.guarded role).ask .sweep).process parser mode t.now).queue.head? = some .sweep) :
    Run.exec (step parser mode duration sender) t (roles.flatMap sweepEvents) =
      { t.modifyAll roles fun _ g => ((g.ask .sweep).process parser mode t.now).expire t.now with
        sweep := .locking [] } := by
  induction roles generalizing t with
  | nil =>
    rw [modifyAll_nil, ← hsweep]
    rfl
  | cons role rest ih =>
    obtain ⟨hnot, hrest⟩ := List.nodup_cons.mp hnodup
    have hrole := hlock role List.mem_cons_self
    have hstep : Run.exec (step parser mode duration sender) t (sweepEvents role) =
        { t.modify role fun g => ((g.ask .sweep).process parser mode t.now).expire t.now with
          sweep := .locking rest } := by
      simp [sweepEvents, Run.exec, step, sweepStep, hsweep, modify, hrole]
    rw [List.flatMap_cons, Run.exec_append, hstep, ih hrest rfl, ← modifyAll_cons hnot]
    · rfl
    · intro role' hrole'
      have hne : role' ≠ role := fun hsame => hnot (hsame ▸ hrole')
      have := hlock role' (List.mem_cons_of_mem _ hrole')
      simpa [modify, hne] using this

/-- The arrivals of a sleep at one socket. -/
theorem exec_arrive (n : Nat) (hsweep : t.sweep = .asleep)
    (harrived : (t.guarded role).arrived + n ≤
      (t.guarded role).servers.length * begunSecs ((t.sleeps + 1) * duration)) :
    Run.exec (step parser mode duration sender) t (List.replicate n (.arrive role)) =
      t.modify role (Guarded.arrive (sender role))^[n] := by
  induction n generalizing t with
  | zero => simp [modify]
  | succ n ih =>
    have hlt : (t.guarded role).arrived <
        (t.guarded role).servers.length * begunSecs ((t.sleeps + 1) * duration) := by omega
    have hstep : step parser mode duration sender t (.arrive role) = t.modify role (·.arrive (sender role)) := by
      simp only [step, hsweep, if_pos hlt]
    have hsweep' : (t.modify role (·.arrive (sender role))).sweep = .asleep := hsweep
    rw [List.replicate_succ, Run.exec_cons, hstep, ih hsweep']
    · simp [modify]
    · simp only [modify_self, modify_sleeps, Guarded.arrive]
      omega

theorem exec_asleep {n : Role → Nat} (hnodup : roles.Nodup) (hsweep : t.sweep = .asleep)
    (harrived : ∀ role ∈ roles,
      (t.guarded role).arrived + n role ≤
        (t.guarded role).servers.length * begunSecs ((t.sleeps + 1) * duration)) :
    Run.exec (step parser mode duration sender) t (roles.flatMap (asleepEvents n)) =
      t.modifyAll roles fun role g => ((Guarded.arrive (sender role))^[n role] g).receive.lock := by
  induction roles generalizing t with
  | nil => rw [modifyAll_nil]; rfl
  | cons role rest ih =>
    obtain ⟨hnot, hrest⟩ := List.nodup_cons.mp hnodup
    have hstep : Run.exec (step parser mode duration sender) t (asleepEvents n role) =
        t.modify role fun g => ((Guarded.arrive (sender role))^[n role] g).receive.lock := by
      rw [asleepEvents, Run.exec_append,
        exec_arrive parser mode duration sender _ hsweep (harrived role List.mem_cons_self)]
      simp [Run.exec, step, modify]
    have hsweep' : (t.modify role fun g => ((Guarded.arrive (sender role))^[n role] g).receive.lock).sweep = .asleep :=
      hsweep
    rw [List.flatMap_cons, Run.exec_append, hstep, ih hrest hsweep', ← modifyAll_cons hnot]
    intro role' hrole'
    have hne : role' ≠ role := fun hsame => hnot (hsame ▸ hrole')
    have := harrived role' (List.mem_cons_of_mem _ hrole')
    simpa [modify, hne] using this

end Tasks

end Runs

section Slow

variable {Addr : Type*} [DecidableEq Addr] (parser : AddrParser Addr) (mode : Mode) (duration now : Nat)
  (servers : List (Server Addr)) (sender : Nat → Addr)

/-- A table after the sweep that follows `n` sleeps, when each heartbeat waits
for a sleep of its own. -/
def slowTable : Nat → List (Server Addr)
  | 0 => checkHeartbeatExpiry now servers
  | n + 1 => checkHeartbeatExpiry (now + (n + 1) * duration)
      (listen parser mode.identify (now + (n + 1) * duration) (slowTable n) ⟨okText, sender n⟩).1

/-- The heartbeats between two of them. -/
def okTexts (first count : Nat) : List (Datagram Addr) := (List.range' first count).map fun k => ⟨okText, sender k⟩

/-- The heartbeats of the whole seconds of `n` sleeps. -/
def due (n : Nat) : Nat := servers.length * wholeSecs (n * duration)

def slowGuarded (n : Nat) : Guarded Addr where
  servers := slowTable parser mode duration now servers sender n
  socket := okTexts sender n (due duration servers n - n)
  arrived := due duration servers n
  before := due duration servers n
  listener := .receiving
  queue := [.sweep]

/-- A sleep brings a whole second or more. -/
theorem wholeSecs_succ (hduration : fromSecs 1 ≤ duration) (n : Nat) :
    wholeSecs (n * duration) + 1 ≤ wholeSecs ((n + 1) * duration) := by
  have hpos : 0 < fromSecs 1 := by decide
  rw [wholeSecs, wholeSecs, ← Nat.add_div_right _ hpos]
  exact Nat.div_le_div_right (by rw [Nat.succ_mul]; omega)

theorem le_wholeSecs (hduration : fromSecs 1 ≤ duration) (n : Nat) : n ≤ wholeSecs (n * duration) := by
  rw [wholeSecs, Nat.le_div_iff_mul_le (by decide)]
  exact Nat.mul_le_mul_left n hduration

theorem wholeSecs_le_begunSecs (n : Nat) : wholeSecs n ≤ begunSecs n :=
  Nat.div_le_div_right (by rw [fromSecs]; omega)

theorem slowTable_identifiers (n : Nat) :
    (slowTable parser mode duration now servers sender n).map (·.addrIdentifier) = servers.map (·.addrIdentifier) := by
  induction n with
  | zero => exact checkHeartbeatExpiry_identifiers _ _
  | succ n ih =>
    rw [slowTable, checkHeartbeatExpiry_identifiers, listen_okText_identifiers, ih]

theorem slowTable_length (n : Nat) :
    (slowTable parser mode duration now servers sender n).length = servers.length := by
  simpa using congrArg List.length (slowTable_identifiers parser mode duration now servers sender n)

omit [DecidableEq Addr] in
theorem iterate_arrive (n : Nat) (g : Guarded Addr) :
    (Guarded.arrive sender)^[n] g =
      { g with socket := g.socket ++ okTexts sender g.arrived n, arrived := g.arrived + n } := by
  induction n generalizing g with
  | zero => simp [okTexts]
  | succ n ih =>
    rw [Function.iterate_succ_apply, ih]
    simp only [Guarded.arrive, okTexts, List.append_assoc, List.range'_succ, List.map_cons, List.singleton_append]
    rw [Nat.add_assoc, Nat.add_comm 1 n]

omit [DecidableEq Addr] in
theorem okTexts_append (first count more : Nat) :
    okTexts sender first count ++ okTexts sender (first + count) more = okTexts sender first (count + more) := by
  rw [okTexts, okTexts, ← List.map_append, List.range'_append_1, okTexts]

omit [DecidableEq Addr] in
theorem okTexts_succ (first count : Nat) :
    okTexts sender first (count + 1) = ⟨okText, sender first⟩ :: okTexts sender (first + 1) count := rfl

omit [DecidableEq Addr] in
/-- Each server delivers a heartbeat in a sleep. -/
theorem due_succ (hduration : fromSecs 1 ≤ duration) (n : Nat) :
    due duration servers n + servers.length ≤ due duration servers (n + 1) := by
  rw [due, due, ← Nat.mul_succ]
  exact Nat.mul_le_mul_left _ (wholeSecs_succ duration hduration n)

omit [DecidableEq Addr] in
theorem le_due (hduration : fromSecs 1 ≤ duration) (hpos : 0 < servers.length) (n : Nat) :
    n ≤ due duration servers n :=
  (le_wholeSecs duration hduration n).trans (Nat.le_mul_of_pos_left _ hpos)

/-- The listener waits with the next heartbeat when the sleep is over. -/
theorem slowGuarded_waits (hduration : fromSecs 1 ≤ duration) (n : Nat) (hpos : 0 < servers.length) :
    ((Guarded.arrive sender)^[due duration servers (n + 1) - due duration servers n]
        (slowGuarded parser mode duration now servers sender n)).receive.lock =
      { slowGuarded parser mode duration now servers sender n with
        socket := okTexts sender (n + 1) (due duration servers (n + 1) - (n + 1))
        arrived := due duration servers (n + 1)
        listener := .locking ⟨okText, sender n⟩
        queue := [.sweep, .listener] } := by
  have hle := le_due duration servers hduration hpos n
  have hsucc := le_due duration servers hduration hpos (n + 1)
  have hgrow := due_succ duration servers hduration n
  have hfirst : due duration servers n = n + (due duration servers n - n) := by omega
  have harrived : due duration servers n + (due duration servers (n + 1) - due duration servers n) =
      due duration servers (n + 1) := by omega
  have hcount : due duration servers n - n + (due duration servers (n + 1) - due duration servers n) =
      due duration servers (n + 1) - (n + 1) + 1 := by omega
  have hsocket : okTexts sender n (due duration servers n - n) ++
      okTexts sender (due duration servers n) (due duration servers (n + 1) - due duration servers n) =
        ⟨okText, sender n⟩ :: okTexts sender (n + 1) (due duration servers (n + 1) - (n + 1)) := by
    calc _ = okTexts sender n (due duration servers n - n) ++ okTexts sender (n + (due duration servers n - n))
          (due duration servers (n + 1) - due duration servers n) := by rw [← hfirst]
      _ = _ := by rw [okTexts_append, hcount, okTexts_succ]
  rw [iterate_arrive]
  simp only [slowGuarded, hsocket, harrived]
  rfl

theorem slowGuarded_nobody (n : Nat) :
    slowGuarded parser mode duration now ([] : List (Server Addr)) sender n = ⟨[], [], 0, 0, .receiving, [.sweep]⟩ := by
  have htable : slowTable parser mode duration now ([] : List (Server Addr)) sender n = [] :=
    List.eq_nil_of_length_eq_zero (slowTable_length parser mode duration now [] sender n)
  simp [slowGuarded, htable, okTexts, due]

/-- A sleep of the slow table. -/
theorem slowGuarded_sleep (hduration : fromSecs 1 ≤ duration) (n : Nat) {g : Guarded Addr}
    (hg : ((Guarded.arrive sender)^[due duration servers (n + 1) - due duration servers n]
      (slowGuarded parser mode duration now servers sender n)).receive.lock = g) :
    (g.blocked = true ∧ g.delivered (wholeSecs ((n + 1) * duration))) ∧
      ((g.wake.drop.ask .sweep).process parser mode (now + (n + 1) * duration)).queue.head? = some .sweep ∧
      ((g.wake.drop.ask .sweep).process parser mode (now + (n + 1) * duration)).expire (now + (n + 1) * duration) =
        slowGuarded parser mode duration now servers sender (n + 1) := by
  by_cases hnone : servers = []
  · subst hnone
    have hnodue : ∀ k, due duration ([] : List (Server Addr)) k = 0 := fun k => Nat.zero_mul _
    rw [slowGuarded_nobody, hnodue, hnodue] at hg
    subst hg
    rw [slowGuarded_nobody]
    exact ⟨⟨rfl, (Nat.zero_mul _).le, le_rfl⟩, rfl, rfl⟩
  · rw [slowGuarded_waits parser mode duration now servers sender hduration n (List.length_pos_iff.mpr hnone)] at hg
    subst hg
    refine ⟨⟨rfl, ?_, ?_⟩, rfl, rfl⟩
    · show (slowTable parser mode duration now servers sender n).length * _ ≤ due duration servers (n + 1)
      rw [slowTable_length]
      exact le_rfl
    · show due duration servers n + (slowTable parser mode duration now servers sender n).length ≤ _
      rw [slowTable_length]
      exact due_succ duration servers hduration n

/-- It is the outcome of a sweep. -/
theorem slowTable_swept (n : Nat) : ∃ table,
    slowTable parser mode duration now servers sender n = checkHeartbeatExpiry (now + n * duration) table := by
  cases n with
  | zero => exact ⟨servers, by rw [Nat.zero_mul, Nat.add_zero, slowTable]⟩
  | succ n => exact ⟨_, rfl⟩

omit [DecidableEq Addr] in
/-- The first heartbeat of a server, or one that was processed when its turn came. -/
def TurnOf (duration now : Nat) (sender : Nat → Addr) (n : Nat) (s₀ s : Server Addr) : Prop :=
  s.addrIdentifier = s₀.addrIdentifier ∧ ∃ last, s.lastHeartbeat = some last ∧
    (s₀.lastHeartbeat = some last ∨
      ∃ k < n, s₀.addrIdentifier = some (sender k) ∧ last = now + (k + 1) * duration)

theorem slowTable_turnOf (h : Reporting now servers) (n : Nat) {j : Nat} {s₀ : Server Addr}
    (hs₀ : servers[j]? = some s₀) :
    ∃ s, (slowTable parser mode duration now servers sender n)[j]? = some s ∧ TurnOf duration now sender n s₀ s := by
  induction n with
  | zero =>
    obtain ⟨last, -, hlast⟩ := h.heard s₀ (List.mem_of_getElem? hs₀)
    refine ⟨s₀.expire now, ?_, expire_addrIdentifier now, last, ?_, .inl hlast⟩
    · rw [slowTable, checkHeartbeatExpiry, List.getElem?_map, hs₀, Option.map_some]
    · rw [expire_lastHeartbeat, hlast]
  | succ n ih =>
    obtain ⟨s, hs, hid, last, hlast, hturn⟩ := ih
    have holder : s₀.lastHeartbeat = some last ∨
        ∃ k < n + 1, s₀.addrIdentifier = some (sender k) ∧ last = now + (k + 1) * duration := by
      rcases hturn with hfirst | ⟨k, hk, hsender, hk'⟩
      · exact .inl hfirst
      · exact .inr ⟨k, hk.trans (Nat.lt_succ_self _), hsender, hk'⟩
    simp only [slowTable, checkHeartbeatExpiry, List.getElem?_map, listen_okText]
    split
    next i hi =>
      by_cases hij : i = j
      · subst hij
        obtain ⟨sᵢ, hsᵢ, hidᵢ⟩ := identifiedBy_eq_some hi
        cases hs.symm.trans hsᵢ
        refine ⟨(s.beat (now + (n + 1) * duration)).expire (now + (n + 1) * duration), ?_, ?_, _, ?_,
          .inr ⟨n, Nat.lt_succ_self _, hid.symm.trans hidᵢ, rfl⟩⟩
        · rw [List.getElem?_modify_eq, hs]
          rfl
        · rw [expire_addrIdentifier]
          exact hid
        · rw [expire_lastHeartbeat]
          rfl
      · refine ⟨s.expire (now + (n + 1) * duration), ?_, ?_, last, ?_, holder⟩
        · rw [List.getElem?_modify_ne _ _ hij, hs, Option.map_some]
        · rw [expire_addrIdentifier, hid]
        · rw [expire_lastHeartbeat, hlast]
    next =>
      refine ⟨s.expire (now + (n + 1) * duration), ?_, ?_, last, ?_, holder⟩
      · rw [hs, Option.map_some]
      · rw [expire_addrIdentifier, hid]
      · rw [expire_lastHeartbeat, hlast]

/-- If the sweep leaves the slow table up, each server is one of the last senders. -/
theorem keptUp_of_slowTable (h : Reporting now servers)
    (hup : ∀ n, ∀ s ∈ slowTable parser mode duration now servers sender n, s.isUp = true) :
    KeptUp duration now servers sender := by
  intro s₀ hs₀ n
  obtain ⟨j, hj⟩ := List.mem_iff_getElem?.mp hs₀
  obtain ⟨s, hs, -, last, hlast, hturn⟩ := slowTable_turnOf parser mode duration now servers sender h n hj
  have hisUp := hup n s (List.mem_of_getElem? hs)
  obtain ⟨table, htable⟩ := slowTable_swept parser mode duration now servers sender n
  rw [htable, checkHeartbeatExpiry, List.getElem?_map] at hs
  obtain ⟨s', -, rfl⟩ := Option.map_eq_some_iff.mp hs
  rw [expire_lastHeartbeat] at hlast
  have hrecent := (expire_isUp.mp hisUp).2 last hlast
  rcases hturn with hfirst | ⟨k, hk, hsender, rfl⟩
  · exact .inr ⟨last, hfirst, hrecent⟩
  · refine .inl ⟨k, hk, ?_, hsender⟩
    have hsince : n * duration = (k + 1) * duration + (n - 1 - k) * duration := by
      rw [← Nat.add_mul]
      congr 1
      omega
    omega

end Slow

section Runs

variable {Addr : Type*} [DecidableEq Addr] (parser : AddrParser Addr) {mode : Mode} (duration : Nat)
  (sender : Role → Nat → Addr) {servers : Role → List (Server Addr)} {now : Nat} {t : Tasks Addr}

open Tasks

/-- Where the tasks are, as far as the proxy's tables go. -/
structure At (mode : Mode) (t : Tasks Addr) (sweep : SweepAt) (sleeps now : Nat) (guarded : Role → Guarded Addr) :
    Prop where
  sweep : t.sweep = sweep
  sleeps : t.sleeps = sleeps
  clock : t.now = now
  guarded : ∀ role ∈ mode.tables, t.guarded role = guarded role

variable {sweep : SweepAt} {sleeps : Nat} {g : Role → Guarded Addr}

omit [DecidableEq Addr] in
theorem At.modifyAll (h : At mode t sweep sleeps now g) {roles : List Role}
    (hroles : ∀ role ∈ mode.tables, role ∈ roles) (f : Role → Guarded Addr → Guarded Addr) (sweep' : SweepAt) :
    At mode { t.modifyAll roles f with sweep := sweep' } sweep' sleeps now fun role => f role (g role) where
  sweep := rfl
  sleeps := h.sleeps
  clock := h.clock
  guarded role hrole := by
    rw [← h.guarded role hrole]
    exact if_pos (hroles role hrole)

/-- The heartbeats of a sleep arrive, and the listeners wait. -/
theorem At.arrive (h : At mode t .asleep sleeps now g) (n : Role → Nat)
    (harrived : ∀ role ∈ mode.tables,
      (g role).arrived + n role ≤ (g role).servers.length * begunSecs ((sleeps + 1) * duration)) :
    At mode (Run.exec (step parser mode duration sender) t (mode.tables.flatMap (asleepEvents n))) .asleep sleeps now
      fun role => ((Guarded.arrive (sender role))^[n role] (g role)).receive.lock := by
  have hexec := exec_asleep parser mode duration sender (n := n) (nodup_tables mode) h.sweep
    fun role hrole => by
      rw [h.guarded role hrole, h.sleeps]
      exact harrived role hrole
  rw [hexec]
  have hall := h.modifyAll (fun _ => id)
    (fun role g => ((Guarded.arrive (sender role))^[n role] g).receive.lock) .asleep
  exact ⟨h.sweep, hall.sleeps, hall.clock, hall.guarded⟩

theorem At.wake (h : At mode t .asleep sleeps now g) (hwake : ∀ role ∈ mode.tables,
      (g role).blocked = true ∧ (g role).delivered (wholeSecs ((sleeps + 1) * duration))) :
    At mode (step parser mode duration sender t .sweep) (.dropping mode.tables.reverse) (sleeps + 1) (now + duration)
      fun role => (g role).wake := by
  have hstep : step parser mode duration sender t .sweep =
      { guarded := fun role => (t.guarded role).wake, sweep := .dropping mode.tables.reverse
        sleeps := t.sleeps + 1, now := t.now + duration } := by
    simp only [step, sweepStep, h.sweep]
    refine if_pos fun role hrole => ?_
    rw [h.guarded role hrole, h.sleeps]
    exact hwake role hrole
  rw [hstep]
  exact ⟨rfl, congrArg (· + 1) h.sleeps, congrArg (· + duration) h.clock,
    fun role hrole => congrArg Guarded.wake (h.guarded role hrole)⟩

theorem At.drop (h : At mode t (.dropping mode.tables.reverse) sleeps now g) :
    At mode (Run.exec (step parser mode duration sender) t ((mode.tables.reverse.map fun _ => .sweep) ++ [.sweep]))
      (.locking mode.tables) sleeps now fun role => (g role).drop := by
  have hexec := exec_drop parser mode duration sender
    (List.nodup_reverse.mpr (nodup_tables mode)) h.sweep
  rw [Run.exec_append, hexec]
  have hall := h.modifyAll (fun _ => List.mem_reverse.mpr) (fun _ => Guarded.drop) (.dropping [])
  exact ⟨rfl, hall.sleeps, hall.clock, hall.guarded⟩

/-- The sweep asks for each lock before its listener is done, which so
processes at most one. -/
theorem At.expire (h : At mode t (.locking mode.tables) sleeps now g)
    (hlock : ∀ role ∈ mode.tables, (((g role).ask .sweep).process parser mode now).queue.head? = some .sweep) :
    At mode (Run.exec (step parser mode duration sender) t (mode.tables.flatMap sweepEvents ++ [.sweep]))
      .asleep sleeps now
      fun role => (((g role).ask .sweep).process parser mode now).expire now := by
  have hexec := exec_sweep parser mode duration sender (nodup_tables mode) h.sweep
    fun role hrole => by
      rw [h.guarded role hrole, h.clock]
      exact hlock role hrole
  rw [Run.exec_append, hexec, h.clock]
  have hall := h.modifyAll (fun _ => id) (fun _ g => ((g.ask .sweep).process parser mode now).expire now) (.locking [])
  exact ⟨rfl, hall.sleeps, hall.clock, hall.guarded⟩

/-- A schedule that processes one heartbeat a sleep, of those that arrive. -/
def slowEvents (mode : Mode) (fresh : Nat → Role → Nat) : Nat → List TaskEvent
  | 0 => mode.tables.flatMap sweepEvents ++ [.sweep]
  | n + 1 => slowEvents mode fresh n ++ (mode.tables.flatMap (asleepEvents (fresh n)) ++
      (.sweep :: (((mode.tables.reverse.map fun _ => .sweep) ++ [.sweep]) ++
        (mode.tables.flatMap sweepEvents ++ [.sweep]))))

omit [DecidableEq Addr] in
/-- The heartbeats that arrive in a sleep. -/
def fresh (duration : Nat) (servers : Role → List (Server Addr)) (n : Nat) (role : Role) : Nat :=
  due duration (servers role) (n + 1) - due duration (servers role) n

variable (mode servers now) in
theorem at_slowEvents (hduration : fromSecs 1 ≤ duration) (n : Nat) :
    At mode (Run.exec (step parser mode duration sender) (start mode servers now)
        (slowEvents mode (fresh duration servers) n))
      .asleep n (now + n * duration)
      fun role => slowGuarded parser mode duration now (servers role) (sender role) n := by
  induction n with
  | zero =>
    have hstart : At mode (start mode servers now) (.locking mode.tables) 0 (now + 0 * duration)
        fun role => ⟨servers role, [], 0, 0, .receiving, []⟩ := by
      refine ⟨rfl, rfl, ?_, fun _ _ => rfl⟩
      rw [Nat.zero_mul, Nat.add_zero]
      rfl
    have hexpire := hstart.expire parser duration sender fun role _ => rfl
    refine ⟨hexpire.sweep, hexpire.sleeps, hexpire.clock, fun role hrole => (hexpire.guarded role hrole).trans ?_⟩
    simp [slowGuarded, slowTable, due, wholeSecs, okTexts, Guarded.expire, Guarded.process, Guarded.ask]
  | succ n ih =>
    have hturn := fun role =>
      slowGuarded_sleep parser mode duration now (servers role) (sender role) hduration n rfl
    have harrive := ih.arrive parser duration sender (fresh duration servers n) fun role _ => by
      have hgrow := due_succ duration (servers role) hduration n
      show due duration (servers role) n + fresh duration servers n role ≤
        (slowTable _ _ _ _ _ _ n).length * begunSecs ((n + 1) * duration)
      rw [slowTable_length, fresh, Nat.add_sub_cancel' (by omega)]
      exact Nat.mul_le_mul_left _ (wholeSecs_le_begunSecs _)
    have hwake := harrive.wake parser duration sender fun role _ => (hturn role).1
    have hdrop := hwake.drop parser duration sender
    rw [Nat.add_assoc, ← Nat.succ_mul] at hdrop
    have hexpire := hdrop.expire parser duration sender fun role _ => (hturn role).2.1
    rw [slowEvents, Run.exec_append, Run.exec_append, Run.exec_cons, Run.exec_append]
    exact ⟨hexpire.sweep, hexpire.sleeps, hexpire.clock,
      fun role hrole => (hexpire.guarded role hrole).trans (hturn role).2.2⟩

variable {parser duration sender}

/-- If no run takes a server down, none does when heartbeats wait for a sleep each. -/
theorem keptUp_of_allUp (hduration : fromSecs 1 ≤ duration)
    (hreporting : ∀ role ∈ mode.tables, Reporting now (servers role))
    (hup : ∀ es, (Run.exec (step parser mode duration sender) (start mode servers now) es).AllUp mode) :
    ∀ role ∈ mode.tables, KeptUp duration now (servers role) (sender role) := by
  intro role hrole
  refine keptUp_of_slowTable parser mode duration now (servers role) (sender role)
    (hreporting role hrole) fun n s hs => ?_
  have hat := at_slowEvents parser mode duration sender servers now hduration n
  refine hup (slowEvents mode (fresh duration servers) n) role hrole s ?_
  rw [hat.guarded role hrole]
  exact hs

end Runs

/-! ## Who is kept up -/

section KeptUp

variable {Addr : Type*} {duration now : Nat} {servers : List (Server Addr)} {sender : Nat → Addr}

/-- As many servers are kept up as sleeps begin in the timeout: three at most,
and fewer if a sleep lasts longer than a second. -/
theorem KeptUp.length_le (h : KeptUp duration now servers sender) (hreporting : Reporting now servers)
    (hduration : fromSecs 1 ≤ duration) : (servers.length - 1) * duration ≤ fromSecs TIMEOUT := by
  have hpos : 0 < duration := Nat.lt_of_lt_of_le (by decide) hduration
  rw [← Nat.le_div_iff_mul_le hpos]
  obtain ⟨age, hage⟩ : ∃ age, age = fromSecs TIMEOUT / duration := ⟨_, rfl⟩
  -- No first heartbeat counts any more at the fourth sweep past the timeout.
  have hsubset : servers.map (·.addrIdentifier) ⊆ (List.range' 3 (age + 1)).map fun k => some (sender k) := by
    intro a ha
    obtain ⟨s, hs, rfl⟩ := List.mem_map.mp ha
    rcases h s hs (age + 4) with ⟨k, hk, hago, hid⟩ | ⟨first, hfirst, hrecent⟩
    · have hdiv := (Nat.le_div_iff_mul_le hpos).mpr hago
      rw [← hage] at hdiv
      exact List.mem_map.mpr ⟨k, List.mem_range'_1.mpr (by omega), hid.symm⟩
    · obtain ⟨last, hlast, heard⟩ := hreporting.heard s hs
      rw [heard] at hfirst
      cases hfirst
      have hthree : fromSecs 3 ≤ (age + 4) * duration :=
        (Nat.mul_le_mul_left 3 hduration).trans (Nat.mul_le_mul_right _ (by omega))
      have hlong : fromSecs TIMEOUT < fromSecs 3 := by decide
      omega
  have hlength := (List.subperm_of_subset hreporting.distinct hsubset).length_le
  rw [List.length_map, List.length_map, List.length_range'] at hlength
  rw [← hage]
  omega

/-- A server on its own that has just been heard is kept up. -/
theorem keptUp_of_length_le_one (honce : OncePerSecond servers sender) (hone : servers.length ≤ 1)
    (hheard : ∀ s ∈ servers, s.lastHeartbeat = some now) : KeptUp duration now servers sender := by
  intro s hs n
  cases n with
  | zero => exact .inr ⟨now, hheard s hs, by rw [Nat.zero_mul]; omega⟩
  | succ n =>
    have hlength : servers.length = 1 := by
      have := List.length_pos_of_mem hs
      omega
    have hmem := ((honce n).mem_iff).mpr (List.mem_map_of_mem hs)
    obtain ⟨k, hk, hid⟩ := List.mem_map.mp hmem
    rw [List.mem_range, hlength] at hk
    obtain rfl : k = 0 := by omega
    rw [hlength, Nat.mul_one, Nat.add_zero] at hid
    exact .inl ⟨n, Nat.lt_succ_self n, by simp, hid.symm⟩

end KeptUp

section ServersUp

variable {Addr : Type*} [DecidableEq Addr]

open Tasks

/-- **A server stays up exactly if it is always among the last senders.** The
sweep holds the locks while it sleeps, so a table is sure of one heartbeat a
sleep: no run takes one of its servers down if and only if at every sweep each
server is among the senders of as many heartbeats as sleeps begin in the
timeout, or its first heartbeat is not timed out yet. -/
theorem allUp_iff_keptUp (parser : AddrParser Addr) (mode : Mode) (duration : Nat) (hduration : fromSecs 1 ≤ duration)
    (servers : Role → List (Server Addr)) (now : Nat) (sender : Role → Nat → Addr)
    (hreporting : ∀ role ∈ mode.tables, Reporting now (servers role)) :
    (∀ es, (Run.exec (step parser mode duration sender) (start mode servers now) es).AllUp mode) ↔
      ∀ role ∈ mode.tables, KeptUp duration now (servers role) (sender role) :=
  ⟨keptUp_of_allUp hduration hreporting, allUp_of_keptUp hreporting⟩

/-- Four servers of the client-to-logic proxy, which report in turn. -/
def fourServers : List (Server SocketAddr) := [7000, 7002, 7004, 7006].map fun port =>
  ⟨some (.loopback (port + 1)), .loopback (port + 1), .loopback port, some 0, true⟩

def fourSenders (k : Nat) : SocketAddr := .loopback (7001 + 2 * (k % 4))

theorem fourServers_reporting : Reporting 0 fourServers where
  identified s hs := by
    obtain ⟨port, -, rfl⟩ := List.mem_map.mp hs
    exact ⟨_, rfl⟩
  heard s hs := by
    obtain ⟨port, -, rfl⟩ := List.mem_map.mp hs
    exact ⟨0, le_rfl, rfl⟩
  up s hs := by
    obtain ⟨port, -, rfl⟩ := List.mem_map.mp hs
    rfl
  distinct := by decide

theorem fourServers_oncePerSecond : OncePerSecond fourServers fourSenders := by
  intro second
  have hturn : ∀ k, fourSenders (second * fourServers.length + k) = fourSenders k := by
    intro k
    show SocketAddr.loopback (7001 + 2 * ((second * 4 + k) % 4)) = _
    rw [Nat.mul_add_mod_self_right]
    rfl
  simp only [hturn]
  exact .of_eq (by decide)

theorem fourServers_allUp_iff :
    (∀ es, (Run.exec (step SocketAddr.parser .fl (fromSecs 1) fun _ => fourSenders)
      (start .fl (fun _ => fourServers) 0) es).AllUp .fl) ↔
      ∀ role ∈ Mode.fl.tables, KeptUp (fromSecs 1) 0 fourServers fourSenders :=
  allUp_iff_keptUp SocketAddr.parser .fl (fromSecs 1) le_rfl (fun _ => fourServers) 0 (fun _ => fourSenders)
    fun _ _ => fourServers_reporting

/-- They do not stay up. -/
theorem fourServers_down :
    ¬ ∀ (mode : Mode) (duration : Nat) (servers : Role → List (Server SocketAddr)) (now : Nat)
      (sender : Role → Nat → SocketAddr), fromSecs 1 ≤ duration →
      (∀ role ∈ mode.tables, Reporting now (servers role)) →
      (∀ role ∈ mode.tables, OncePerSecond (servers role) (sender role)) →
      ∀ es, (Run.exec (step SocketAddr.parser mode duration sender) (start mode servers now) es).AllUp mode := by
  intro h
  have hup := h .fl (fromSecs 1) (fun _ => fourServers) 0 (fun _ => fourSenders) le_rfl
    (fun _ _ => fourServers_reporting) fun _ _ => fourServers_oncePerSecond
  have hkept := keptUp_of_allUp le_rfl (fun _ _ => fourServers_reporting) hup .logic (by decide)
  exact absurd (hkept.length_le fourServers_reporting le_rfl) (by decide)

end ServersUp

end FinalServer
