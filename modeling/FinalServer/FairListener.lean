/-
The listener is fair: one heartbeat a sleep (`proxy.rs`).

A listener that waits when the sweep wakes gets the lock before the sweep
does again, so at least one heartbeat is processed between two sweeps. A server
among the last senders therefore has a heartbeat of as many sleeps ago or
fewer (`Credit`), and the sweep leaves it up if these are within the timeout.
-/
import FinalServer.SleepingSweep

namespace FinalServer

/-! ## The heartbeats a server is sure of -/

section Credit

variable {Addr : Type*} {duration start q σ : Nat} {sender : Nat → Addr} {s₀ s : Server Addr}
  {servers₀ servers : List (Server Addr)}

/-- A server that is up after `q` heartbeats were processed, at least one after
each of `σ` sleeps: its own are no longer ago than that many heartbeats in
sleeps. -/
structure Credit (duration start : Nat) (sender : Nat → Addr) (q σ : Nat) (s₀ s : Server Addr) : Prop where
  many : σ ≤ q
  up : s.isUp = true
  identifier : s.addrIdentifier = s₀.addrIdentifier
  recent : ∃ last, s.lastHeartbeat = some last ∧ (∀ first ∈ s₀.lastHeartbeat, first ≤ last) ∧
    ∀ k < q, s.addrIdentifier = some (sender k) → start + σ * duration ≤ last + (q - 1 - k) * duration

/-- The heartbeat of another server. -/
theorem Credit.other (h : Credit duration start sender q σ s₀ s) {σ' : Nat} (hσ : σ' ≤ σ + 1)
    (hother : s.addrIdentifier ≠ some (sender q)) : Credit duration start sender (q + 1) σ' s₀ s := by
  obtain ⟨last, hlast, hfirst, hrecent⟩ := h.recent
  have hmany := h.many
  refine ⟨by omega, h.up, h.identifier, last, hlast, hfirst, fun k hk hid => ?_⟩
  have hne : k ≠ q := by
    rintro rfl
    exact hother hid
  have hkq : k < q := by omega
  have hago := hrecent k hkq hid
  have hlater : q + 1 - 1 - k = q - 1 - k + 1 := by omega
  calc start + σ' * duration ≤ start + (σ + 1) * duration := Nat.add_le_add_left (Nat.mul_le_mul_right _ hσ) _
    _ = start + σ * duration + duration := by rw [Nat.succ_mul, Nat.add_assoc]
    _ ≤ last + (q - 1 - k) * duration + duration := Nat.add_le_add_right hago _
    _ = last + (q + 1 - 1 - k) * duration := by rw [hlater, Nat.succ_mul, Nat.add_assoc]

/-- Its own. -/
theorem Credit.beat (h : Credit duration start sender q σ s₀ s) {σ' : Nat} (hσ : σ' ≤ σ + 1)
    (hstart : ∀ first ∈ s₀.lastHeartbeat, first ≤ start) :
    Credit duration start sender (q + 1) σ' s₀ (s.beat (start + σ' * duration)) := by
  have hmany := h.many
  refine ⟨by omega, rfl, h.identifier, start + σ' * duration, rfl, fun first hfirst => ?_, fun k _ _ => ?_⟩
  · exact (hstart first hfirst).trans (Nat.le_add_right _ _)
  · exact Nat.le_add_right _ _

/-- The sweep after `σ` sleeps leaves a server up that is among the last senders. -/
theorem Credit.expire (h : Credit duration start sender q σ s₀ s)
    (hkept : (∃ k < q, (q - 1 - k) * duration ≤ fromSecs TIMEOUT ∧ s₀.addrIdentifier = some (sender k)) ∨
      ∃ last ∈ s₀.lastHeartbeat, start + q * duration ≤ last + fromSecs TIMEOUT) :
    Credit duration start sender q σ s₀ (s.expire (start + σ * duration)) := by
  obtain ⟨last, hlast, hfirst, hrecent⟩ := h.recent
  refine ⟨h.many, ?_, by rw [expire_addrIdentifier, h.identifier], last, by rw [expire_lastHeartbeat, hlast], hfirst,
    fun k hk hid => hrecent k hk (by rwa [expire_addrIdentifier] at hid)⟩
  refine expire_isUp.mpr ⟨h.up, fun last' hlast' => ?_⟩
  rw [hlast] at hlast'
  cases hlast'
  rcases hkept with ⟨k, hk, hago, hid⟩ | ⟨first, hmem, hrecent₀⟩
  · exact (hrecent k hk (h.identifier.trans hid)).trans (Nat.add_le_add_left hago _)
  · have hlate := hfirst first hmem
    have hmany := Nat.mul_le_mul_right duration h.many
    omega

/-- Every server of a table, against the one at its place at the start. -/
def Credited (duration start : Nat) (sender : Nat → Addr) (servers₀ : List (Server Addr)) (q σ : Nat)
    (servers : List (Server Addr)) : Prop :=
  ∀ (j : Nat) s, servers[j]? = some s → ∃ s₀, servers₀[j]? = some s₀ ∧ Credit duration start sender q σ s₀ s

theorem Reporting.credited (h : Reporting start servers₀) : Credited duration start sender servers₀ 0 0 servers₀ := by
  intro j s hs
  have hmem := List.mem_of_getElem? hs
  obtain ⟨last, -, hlast⟩ := h.heard s hmem
  refine ⟨s, hs, le_rfl, h.up s hmem, rfl, last, hlast, fun first hfirst => ?_, fun k hk => ?_⟩
  · rw [hlast] at hfirst
    cases hfirst
    exact le_rfl
  · exact absurd hk (Nat.not_lt_zero k)

theorem Credited.expire (h : Credited duration start sender servers₀ q σ servers)
    (hkept : KeptUp duration start servers₀ sender) :
    Credited duration start sender servers₀ q σ (checkHeartbeatExpiry (start + σ * duration) servers) := by
  intro j s hs
  rw [checkHeartbeatExpiry, List.getElem?_map] at hs
  obtain ⟨s', hs', rfl⟩ := Option.map_eq_some_iff.mp hs
  obtain ⟨s₀, hs₀, hcredit⟩ := h j s' hs'
  exact ⟨s₀, hs₀, hcredit.expire (hkept s₀ (List.mem_of_getElem? hs₀) q)⟩

variable [DecidableEq Addr] {parser : AddrParser Addr} {identify : Addr → Server Addr → Server Addr}

/-- The listener's turn makes up for a sleep. -/
theorem Credited.listen (h : Credited duration start sender servers₀ q σ servers) {σ' : Nat} (hσ : σ' ≤ σ + 1)
    (hstart : ∀ s₀ ∈ servers₀, ∀ first ∈ s₀.lastHeartbeat, first ≤ start)
    (hdistinct : (servers.map (·.addrIdentifier)).Nodup) :
    Credited duration start sender servers₀ (q + 1) σ'
      (listen parser identify (start + σ' * duration) servers ⟨okText, sender q⟩).1 := by
  rw [listen_okText]
  split
  next i hi =>
    obtain ⟨sᵢ, hsᵢ, hidᵢ⟩ := identifiedBy_eq_some hi
    intro j s hs
    by_cases hij : i = j
    · subst hij
      rw [List.getElem?_modify_eq] at hs
      obtain ⟨s', hs', rfl⟩ := Option.map_eq_some_iff.mp hs
      obtain ⟨s₀, hs₀, hcredit⟩ := h i s' hs'
      exact ⟨s₀, hs₀, hcredit.beat hσ (hstart s₀ (List.mem_of_getElem? hs₀))⟩
    · rw [List.getElem?_modify_ne _ _ hij] at hs
      obtain ⟨s₀, hs₀, hcredit⟩ := h j s hs
      refine ⟨s₀, hs₀, hcredit.other hσ fun hid => hij ?_⟩
      -- two servers with one identifier
      have hlt : i < (servers.map (·.addrIdentifier)).length := by
        rw [List.length_map]
        exact (List.getElem?_eq_some_iff.mp hsᵢ).1
      refine (List.getElem?_inj hlt hdistinct).mp ?_
      simp only [List.getElem?_map, hsᵢ, hs, Option.map_some, hidᵢ, hid]
  next hnone =>
    intro j s hs
    obtain ⟨s₀, hs₀, hcredit⟩ := h j s hs
    refine ⟨s₀, hs₀, hcredit.other hσ fun hid => ?_⟩
    have := List.findIdx?_eq_none_iff.mp hnone s (List.mem_of_getElem? hs)
    simp [hid] at this

end Credit

/-! ## The lock of a table -/

namespace Guarded

variable {Addr : Type*}

/-- The listener has asked for the lock. -/
def asks (g : Guarded Addr) : Bool :=
  match g.listener with
  | .locking _ => true
  | _ => false

/-- What has arrived and is not processed. -/
def pending (g : Guarded Addr) : List (Datagram Addr) :=
  match g.listener with
  | .receiving => g.socket
  | .received d | .locking d => d :: g.socket

/-- A listener that has something to process, and can do nothing, waits. -/
theorem asks_of_blocked {g : Guarded Addr} (hblocked : g.blocked = true) (hpending : g.pending ≠ []) :
    g.asks = true := by
  unfold asks
  unfold blocked at hblocked
  unfold pending at hpending
  split at hblocked
  next hlistener =>
    rw [hlistener] at hpending
    exact absurd (List.isEmpty_iff.mp hblocked) hpending
  next => cases hblocked
  next hlistener => rw [hlistener]

end Guarded

/-- The sweep has the lock. -/
def Stage.holds : Stage → Bool
  | .held | .asleep | .woken => true
  | _ => false

/-- Who can be in the queue of a lock: nobody asks twice. -/
inductive Lock : Stage → Bool → List Task → Prop
  | free : Lock .away false []
  | listening : Lock .away true [.listener]
  | granted : Lock .waiting false [.sweep]
  | ahead : Lock .waiting true [.listener, .sweep]
  | behind : Lock .waiting true [.sweep, .listener]
  | held {stage : Stage} (h : stage.holds = true) : Lock stage false [.sweep]
  | blocking {stage : Stage} (h : stage.holds = true) : Lock stage true [.sweep, .listener]

namespace Lock

variable {stage stage' : Stage} {asks : Bool} {queue : List Task}

theorem ask_listener (h : Lock stage false queue) : Lock stage true (queue ++ [.listener]) := by
  cases h with
  | free => exact .listening
  | granted => exact .behind
  | held hholds => exact .blocking hholds

theorem ask_sweep (h : Lock .away asks queue) : Lock .waiting asks (queue ++ [.sweep]) := by
  cases h with
  | free => exact .granted
  | listening => exact .ahead
  | held hholds | blocking hholds => cases hholds

theorem sweep (h : Lock .waiting asks queue) (hhead : queue.head? = some .sweep) : Lock .held asks queue := by
  cases h with
  | granted => exact .held rfl
  | behind => exact .blocking rfl
  | ahead => cases hhead
  | held hholds | blocking hholds => cases hholds

theorem keep (h : Lock stage asks queue) (hstage : stage.holds = true) (hstage' : stage'.holds = true) :
    Lock stage' asks queue := by
  cases h with
  | held => exact .held hstage'
  | blocking => exact .blocking hstage'
  | free | listening | granted | ahead | behind => cases hstage

theorem drop (h : Lock stage asks queue) (hstage : stage.holds = true) : Lock .away asks queue.tail := by
  cases h with
  | held => exact .free
  | blocking => exact .listening
  | free | listening | granted | ahead | behind => cases hstage

theorem drop_head (h : Lock stage true queue) (hstage : stage.holds = true) :
    queue.tail.head? = some .listener := by
  cases h with
  | blocking => rfl
  | listening | ahead | behind => cases hstage

theorem process (h : Lock stage asks queue) (hhead : queue.head? = some .listener) :
    stage.holds = false ∧ Lock stage false queue.tail := by
  cases h with
  | listening => exact ⟨rfl, .free⟩
  | ahead => exact ⟨rfl, .granted⟩
  | free | granted | behind | held | blocking => cases hhead

/-- Whoever has the lock when the sweep is asleep, it is not the listener. -/
theorem head (h : Lock stage asks queue) (hstage : stage.holds = true) : queue.head? = some .sweep := by
  cases h with
  | held | blocking => rfl
  | free | listening | granted | ahead | behind => cases hstage

end Lock

section Fair

variable {Addr : Type*} {duration start q : Nat} {sender : Nat → Addr} {servers₀ : List (Server Addr)}
  {v v' : View Addr}

/-- The listener gets the lock before the sweep does again. -/
def Ahead (v : View Addr) : Prop :=
  (v.stage = .woken ∧ v.guarded.asks = true) ∨ v.guarded.queue.head? = some .listener

/-- While the sweep has not just woken, the listener is ahead only at the head of the queue. -/
theorem Ahead.head (h : Ahead v) (hstage : v.stage ≠ .woken) : v.guarded.queue.head? = some .listener := by
  rcases h with ⟨hwoken, -⟩ | hhead
  · exact absurd hwoken hstage
  · exact hhead

/-- A table after `q` heartbeats were processed: one after each sleep so far, but
perhaps not yet after the last one. -/
structure Fair (duration start : Nat) (servers₀ : List (Server Addr)) (sender : Nat → Addr) (q : Nat) (v : View Addr) :
    Prop where
  lock : Lock v.stage v.guarded.asks v.guarded.queue
  now : v.now = start + v.sleeps * duration
  identifiers : v.guarded.servers.map (·.addrIdentifier) = servers₀.map (·.addrIdentifier)
  pending : v.guarded.pending = (List.range' q (v.guarded.arrived - q)).map fun k => ⟨okText, sender k⟩
  processed : q ≤ v.guarded.arrived
  before : q ≤ v.guarded.before
  arrived : v.stage ≠ .asleep → v.guarded.arrived = v.guarded.before
  credits : Credited duration start sender servers₀ q v.sleeps v.guarded.servers ∨
    ∃ σ, v.sleeps = σ + 1 ∧ Credited duration start sender servers₀ q σ v.guarded.servers ∧ Ahead v

theorem Fair.up (h : Fair duration start servers₀ sender q v) : ∀ s ∈ v.guarded.servers, s.isUp = true := by
  intro s hs
  obtain ⟨j, hj⟩ := List.mem_iff_getElem?.mp hs
  rcases h.credits with hcredits | ⟨σ, -, hcredits, -⟩
  · obtain ⟨s₀, -, hcredit⟩ := hcredits j s hj
    exact hcredit.up
  · obtain ⟨s₀, -, hcredit⟩ := hcredits j s hj
    exact hcredit.up

/-- When the listener is not ahead, it has had its turn. -/
theorem Fair.credited (h : Fair duration start servers₀ sender q v) (hturn : ¬Ahead v) :
    Credited duration start sender servers₀ q v.sleeps v.guarded.servers := by
  rcases h.credits with hcredits | ⟨σ, -, -, hahead⟩
  · exact hcredits
  · exact absurd hahead hturn

/-- A step that leaves the servers alone and the listener ahead leaves the credits alone. -/
theorem Fair.credits_kept (h : Fair duration start servers₀ sender q v)
    (hservers : v'.guarded.servers = v.guarded.servers)
    (hsleeps : v'.sleeps = v.sleeps) (hahead : Ahead v → Ahead v') :
    Credited duration start sender servers₀ q v'.sleeps v'.guarded.servers ∨
      ∃ σ, v'.sleeps = σ + 1 ∧ Credited duration start sender servers₀ q σ v'.guarded.servers ∧ Ahead v' := by
  rw [hservers, hsleeps]
  rcases h.credits with hcredits | ⟨σ, hσ, hcredits, hv⟩
  · exact .inl hcredits
  · exact .inr ⟨σ, hσ, hcredits, hahead hv⟩

theorem Fair.arrive (h : Fair duration start servers₀ sender q v) (hstage : v.stage = .asleep) :
    Fair duration start servers₀ sender q { v with guarded := v.guarded.arrive sender } where
  lock := h.lock
  now := h.now
  identifiers := h.identifiers
  pending := by
    have hq := h.processed
    have hpending : (v.guarded.arrive sender).pending = v.guarded.pending ++ [⟨okText, sender v.guarded.arrived⟩] := by
      unfold Guarded.pending Guarded.arrive
      cases v.guarded.listener <;> rfl
    have hlength : v.guarded.arrived + 1 - q = v.guarded.arrived - q + 1 := by omega
    have hlast : q + (v.guarded.arrived - q) = v.guarded.arrived := by omega
    show (v.guarded.arrive sender).pending = (List.range' q (v.guarded.arrived + 1 - q)).map _
    rw [hpending, h.pending, hlength, List.range'_1_concat, List.map_append, hlast]
    rfl
  processed := h.processed.trans (Nat.le_succ _)
  before := h.before
  arrived hne := absurd hstage hne
  credits := h.credits

/-- A step of the listener that moves what is pending along. -/
theorem Fair.moved (h : Fair duration start servers₀ sender q v) {g : Guarded Addr}
    (hservers : g.servers = v.guarded.servers) (harrived : g.arrived = v.guarded.arrived)
    (hbefore : g.before = v.guarded.before) (hpending : g.pending = v.guarded.pending)
    (hlock : Lock v.stage g.asks g.queue) (hahead : Ahead v → Ahead { v with guarded := g }) :
    Fair duration start servers₀ sender q { v with guarded := g } where
  lock := hlock
  now := h.now
  identifiers := by rw [hservers, h.identifiers]
  pending := by rw [hpending, harrived, h.pending]
  processed := by rw [harrived]; exact h.processed
  before := by rw [hbefore]; exact h.before
  arrived hne := by rw [harrived, hbefore]; exact h.arrived hne
  credits := h.credits_kept hservers rfl hahead

theorem Fair.receive (h : Fair duration start servers₀ sender q v) :
    Fair duration start servers₀ sender q { v with guarded := v.guarded.receive } := by
  unfold Guarded.receive
  split
  next d rest hlistener hsocket =>
    have hasks : v.guarded.asks = false := by rw [Guarded.asks, hlistener]
    refine h.moved rfl rfl rfl ?_ ?_ fun hahead => ?_
    · simp only [Guarded.pending, hlistener, hsocket]
    · have hlock := h.lock
      rw [hasks] at hlock
      exact hlock
    · rcases hahead with ⟨-, hasked⟩ | hhead
      · exact absurd hasked (by simp [hasks])
      · exact .inr hhead
  next => exact h

/-- Its request is the last in the queue. -/
theorem Fair.asked (h : Fair duration start servers₀ sender q v) :
    Fair duration start servers₀ sender q { v with guarded := v.guarded.lock } := by
  unfold Guarded.lock
  split
  next d hlistener =>
    have hlock := h.lock
    have hasks : v.guarded.asks = false := by rw [Guarded.asks, hlistener]
    rw [hasks] at hlock
    refine h.moved rfl rfl rfl ?_ ?_ fun hahead => ?_
    · simp only [Guarded.pending, hlistener, Guarded.ask]
    · exact hlock.ask_listener
    · rcases hahead with ⟨hwoken, -⟩ | hhead
      · exact .inl ⟨hwoken, rfl⟩
      · refine .inr ?_
        show (v.guarded.queue ++ [Task.listener]).head? = some .listener
        rw [List.head?_append, hhead]
        rfl
  next => exact h

theorem Fair.asked_sweep (h : Fair duration start servers₀ sender q v) (hstage : v.stage = .away) :
    Fair duration start servers₀ sender q { v with guarded := v.guarded.ask .sweep, stage := .waiting } where
  lock := by
    have hlock := h.lock
    rw [hstage] at hlock
    exact hlock.ask_sweep
  now := h.now
  identifiers := h.identifiers
  pending := h.pending
  processed := h.processed
  before := h.before
  arrived _ := h.arrived (by simp [hstage])
  credits := by
    refine h.credits_kept rfl rfl fun hahead => .inr ?_
    show (v.guarded.queue ++ [Task.sweep]).head? = some .listener
    rw [List.head?_append, hahead.head (by simp [hstage])]
    rfl

theorem checkHeartbeatExpiry_identifiers {Addr : Type*} (now : Nat) (servers : List (Server Addr)) :
    (checkHeartbeatExpiry now servers).map (·.addrIdentifier) = servers.map (·.addrIdentifier) := by
  rw [checkHeartbeatExpiry, List.map_map]
  exact List.map_congr_left fun s _ => expire_addrIdentifier now

/-- The sweep finds every table with the turn after its sleep taken. -/
theorem Fair.swept (h : Fair duration start servers₀ sender q v) (hkept : KeptUp duration start servers₀ sender)
    (hstage : v.stage = .waiting) (hhead : v.guarded.queue.head? = some .sweep) :
    Fair duration start servers₀ sender q { v with guarded := v.guarded.expire v.now, stage := .held } where
  lock := by
    have hlock := h.lock
    rw [hstage] at hlock
    exact hlock.sweep hhead
  now := h.now
  identifiers := (checkHeartbeatExpiry_identifiers _ _).trans h.identifiers
  pending := h.pending
  processed := h.processed
  before := h.before
  arrived _ := h.arrived (by simp [hstage])
  credits := by
    refine .inl ?_
    have hturn : ¬Ahead v := by
      intro hahead
      have hlistener := hahead.head (by simp [hstage])
      rw [hhead] at hlistener
      cases hlistener
    have hcredits := (h.credited hturn).expire hkept
    rw [← h.now] at hcredits
    exact hcredits

theorem Fair.slept (h : Fair duration start servers₀ sender q v) (hstage : v.stage = .held) :
    Fair duration start servers₀ sender q { v with stage := .asleep } where
  lock := h.lock.keep (hstage ▸ rfl) rfl
  now := h.now
  identifiers := h.identifiers
  pending := h.pending
  processed := h.processed
  before := h.before
  arrived hne := absurd rfl hne
  credits := h.credits_kept rfl rfl fun hahead => .inr (hahead.head (by simp [hstage]))

/-- At the end of a sleep in which an `OK` arrived, the listener waits. -/
theorem Fair.woken {seconds : Nat} (h : Fair duration start servers₀ sender q v) (hstage : v.stage = .asleep)
    (hblocked : v.guarded.blocked = true) (hdelivered : v.guarded.delivered seconds) :
    Fair duration start servers₀ sender q
      { guarded := v.guarded.wake, stage := .woken, sleeps := v.sleeps + 1, now := v.now + duration } := by
  have hlength : v.guarded.servers.length = servers₀.length := by
    simpa using congrArg List.length h.identifiers
  have hholds : v.stage.holds = true := hstage ▸ rfl
  obtain ⟨-, hfresh⟩ := hdelivered
  have hturn : ¬Ahead v := by
    intro hahead
    have hlistener := hahead.head (by simp [hstage])
    rw [h.lock.head hholds] at hlistener
    cases hlistener
  refine ⟨h.lock.keep hholds rfl, ?_, h.identifiers, h.pending, h.processed, h.processed, fun _ => rfl, ?_⟩
  · show v.now + duration = start + (v.sleeps + 1) * duration
    rw [h.now, Nat.succ_mul, Nat.add_assoc]
  · by_cases hnone : servers₀ = []
    · -- there is nobody to keep up
      refine .inl fun j s hs => ?_
      obtain ⟨s₀, hs₀, -⟩ := h.credited hturn j s hs
      rw [hnone] at hs₀
      cases hs₀
    · refine .inr ⟨v.sleeps, rfl, h.credited hturn, .inl ⟨rfl, ?_⟩⟩
      have hpos := List.length_pos_iff.mpr hnone
      have hbefore := h.before
      refine Guarded.asks_of_blocked (g := v.guarded) hblocked fun hnil => ?_
      have hpending := congrArg List.length h.pending
      rw [hnil, List.length_map, List.length_range', List.length_nil] at hpending
      omega

theorem Fair.dropped (h : Fair duration start servers₀ sender q v) (hstage : v.stage = .woken) :
    Fair duration start servers₀ sender q { v with guarded := v.guarded.drop, stage := .away } := by
  have hholds : v.stage.holds = true := hstage ▸ rfl
  refine { h with lock := h.lock.drop hholds, arrived := fun _ => h.arrived (by simp [hstage]), credits := ?_ }
  rcases h.credits with hcredits | ⟨σ, hσ, hcredits, hahead⟩
  · exact .inl hcredits
  · rcases hahead with ⟨-, hasks⟩ | hhead
    · have hlock := h.lock
      rw [hasks] at hlock
      exact .inr ⟨σ, hσ, hcredits, .inr (hlock.drop_head hholds)⟩
    · rw [h.lock.head hholds] at hhead
      cases hhead

variable [DecidableEq Addr] {parser : AddrParser Addr} {mode : Mode}

theorem listen_okText_identifiers (identify : Addr → Server Addr → Server Addr) (now : Nat)
    (servers : List (Server Addr)) (a : Addr) :
    (listen parser identify now servers ⟨okText, a⟩).1.map (·.addrIdentifier) = servers.map (·.addrIdentifier) := by
  rw [listen_okText]
  split
  · exact map_modify fun s => rfl
  · rfl

/-- The listener's turn: the next heartbeat is processed. -/
theorem Fair.process (h : Fair duration start servers₀ sender q v) (hreporting : Reporting start servers₀) :
    ∃ q', Fair duration start servers₀ sender q' { v with guarded := v.guarded.process parser mode v.now } := by
  unfold Guarded.process
  split
  next d hlistener hhead =>
    obtain ⟨hstage, hlock⟩ := h.lock.process hhead
    have harrived := h.arrived (by rintro hasleep; rw [hasleep] at hstage; cases hstage)
    -- what it holds is the first that is pending
    have hpending := h.pending
    rw [Guarded.pending, hlistener] at hpending
    obtain ⟨m, hm⟩ : ∃ m, v.guarded.arrived - q = m + 1 := by
      cases hlength : v.guarded.arrived - q with
      | zero => simp [hlength] at hpending
      | succ m => exact ⟨m, rfl⟩
    rw [hm, List.range'_succ, List.map_cons, List.cons.injEq] at hpending
    obtain ⟨rfl, hsocket⟩ := hpending
    have hq : v.guarded.arrived - (q + 1) = m := by omega
    have hdistinct : (v.guarded.servers.map (·.addrIdentifier)).Nodup := h.identifiers ▸ hreporting.distinct
    have hstart : ∀ s₀ ∈ servers₀, ∀ first ∈ s₀.lastHeartbeat, first ≤ start := by
      intro s₀ hs₀ first hfirst
      obtain ⟨last, hlast, heard⟩ := hreporting.heard s₀ hs₀
      rw [heard] at hfirst
      cases hfirst
      exact hlast
    refine ⟨q + 1, hlock, h.now, (listen_okText_identifiers _ _ _ _).trans h.identifiers, ?_, ?_, ?_,
      fun _ => harrived, .inl ?_⟩
    · show v.guarded.socket = (List.range' (q + 1) (v.guarded.arrived - (q + 1))).map _
      rw [hq, hsocket]
    · show q + 1 ≤ v.guarded.arrived
      omega
    · show q + 1 ≤ v.guarded.before
      omega
    · rw [h.now]
      rcases h.credits with hcredits | ⟨σ, hσ, hcredits, -⟩
      · exact hcredits.listen (Nat.le_succ _) hstart hdistinct
      · exact hcredits.listen hσ.le hstart hdistinct
  next => exact ⟨q, h⟩

theorem Fair.turn (h : Fair duration start servers₀ sender q v) (hreporting : Reporting start servers₀)
    (hkept : KeptUp duration start servers₀ sender) (hturn : Turn parser mode duration sender v v') :
    ∃ q', Fair duration start servers₀ sender q' v' := by
  cases hturn with
  | nothing => exact ⟨q, h⟩
  | arrive hstage => exact ⟨q, h.arrive hstage⟩
  | receive => exact ⟨q, h.receive⟩
  | lock => exact ⟨q, h.asked⟩
  | process => exact h.process hreporting
  | ask hstage => exact ⟨q, h.asked_sweep hstage⟩
  | sweep hstage hlock => exact ⟨q, h.swept hkept hstage hlock⟩
  | sleep hstage => exact ⟨q, h.slept hstage⟩
  | wake hstage hblocked hdelivered => exact ⟨q, h.woken hstage hblocked hdelivered⟩
  | drop hstage => exact ⟨q, h.dropped hstage⟩

end Fair

section Runs

variable {Addr : Type*} [DecidableEq Addr] {parser : AddrParser Addr} {mode : Mode} {sender : Role → Nat → Addr}
  {servers : Role → List (Server Addr)} {duration now : Nat}

open Tasks

omit [DecidableEq Addr] in
theorem fair_start {role : Role} (hrole : role ∈ mode.tables) (h : Reporting now (servers role)) :
    Fair duration now (servers role) (sender role) 0 ((start mode servers now).view role) where
  lock := by
    have hstage : ((start mode servers now).view role).stage = .away := if_pos hrole
    rw [hstage]
    exact .free
  now := by
    show now = now + 0 * duration
    rw [Nat.zero_mul, Nat.add_zero]
  identifiers := rfl
  pending := rfl
  processed := le_rfl
  before := le_rfl
  arrived _ := rfl
  credits := .inl h.credited

/-- Every table of the proxy is fair. -/
structure AllFair (mode : Mode) (duration now : Nat) (servers : Role → List (Server Addr))
    (sender : Role → Nat → Addr) (t : Tasks Addr) : Prop where
  within : t.sweep.Within mode
  fair : ∀ role ∈ mode.tables, ∃ q, Fair duration now (servers role) (sender role) q (t.view role)

theorem AllFair.step {t : Tasks Addr} (h : AllFair mode duration now servers sender t)
    (hreporting : ∀ role ∈ mode.tables, Reporting now (servers role))
    (hkept : ∀ role ∈ mode.tables, KeptUp duration now (servers role) (sender role)) (e : TaskEvent) :
    AllFair mode duration now servers sender (t.step parser mode duration sender e) where
  within := step_within h.within e
  fair role hrole := by
    obtain ⟨q, hfair⟩ := h.fair role hrole
    exact hfair.turn (hreporting role hrole) (hkept role hrole) (step_turn h.within hrole e)

/-- What keeps the servers up for a timeout keeps them up forever. -/
theorem allUp_of_keptUp (hreporting : ∀ role ∈ mode.tables, Reporting now (servers role))
    (hkept : ∀ role ∈ mode.tables, KeptUp duration now (servers role) (sender role)) (es : List TaskEvent) :
    (Run.exec (step parser mode duration sender) (start mode servers now) es).AllUp mode := by
  have hstart : AllFair mode duration now servers sender (start mode servers now) :=
    ⟨List.suffix_rfl, fun role hrole => ⟨0, fair_start hrole (hreporting role hrole)⟩⟩
  have hinv : AllFair mode duration now servers sender
      (Run.exec (step parser mode duration sender) (start mode servers now) es) :=
    (Run.along_true es).invariant (fun _ e ht _ => ht.step hreporting hkept e) hstart
  intro role hrole
  obtain ⟨q, hfair⟩ := hinv.fair role hrole
  exact hfair.up

end Runs

end FinalServer
