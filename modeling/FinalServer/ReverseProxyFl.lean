/-
The proxy between the clients and the logic servers.

An announcement marks a server up without recording a heartbeat, and the
sweep looks only at servers with one. So a server that announced itself and
then fell silent stays up; every other server that is up after a sweep has
been heard from in time.
-/
import FinalServer.Heartbeat

namespace FinalServer

/-- What changes in a `ReverseProxyFl`. -/
structure ReverseProxyFl (Addr : Type*) where
  logicServers : List (Server Addr)
  nextIndex : Nat

/-- The proxy at work: the time, and who sent the datagrams it has processed, and when. -/
structure FlRun (Addr : Type*) where
  proxy : ReverseProxyFl Addr
  now : Nat
  heard : List (Addr × Nat)

/-- A datagram is processed, the servers are swept, a client connects, or time passes. -/
inductive FlEvent (Addr : Type*)
  | datagram (d : Datagram Addr)
  | expiry
  | connect
  | elapse (n : Nat)

namespace FlRun

variable {Addr : Type*}

/-- The proxy as `from_config_file` makes it. -/
def start (parser : AddrParser Addr) (logicServers : List (List Char)) (now : Nat) : FlRun Addr :=
  ⟨⟨parseAddrPairs parser logicServers, 0⟩, now, []⟩

/-- Where `get_available_backend` sends a client. -/
def getAvailableBackend (r : FlRun Addr) : Option Addr × Nat := getAvailable r.proxy.logicServers r.proxy.nextIndex

variable [DecidableEq Addr] (parser : AddrParser Addr)

def step (r : FlRun Addr) : FlEvent Addr → FlRun Addr
  | .datagram d =>
    { r with
      proxy.logicServers := (ReverseProxyFl.listenForHeartbeats parser r.now r.proxy.logicServers d).1
      heard := r.heard ++ [(d.sender, r.now)] }
  | .expiry => { r with proxy.logicServers := checkHeartbeatExpiry r.now r.proxy.logicServers }
  | .connect => { r with proxy.nextIndex := r.getAvailableBackend.2 }
  | .elapse n => { r with now := r.now + n }

omit [DecidableEq Addr]

/-- A datagram from the server's identified address was processed within the timeout. -/
def HeardWithin (r : FlRun Addr) (s : Server Addr) : Prop :=
  ∃ a ∈ s.addrIdentifier, ∃ h ∈ r.heard, h.1 = a ∧ r.now ≤ h.2 + fromSecs TIMEOUT

/-- Every server that is up was heard from within the timeout, and so was the
one a client is sent to. -/
structure AllHeard (r : FlRun Addr) : Prop where
  up : ∀ s ∈ r.proxy.logicServers, s.isUp = true → r.HeardWithin s
  routed : ∀ a ∈ r.getAvailableBackend.1, ∃ s ∈ r.proxy.logicServers, s.tcpAddr = a ∧ r.HeardWithin s

/-- A server that is up and has not sent an `OK` yet has announced itself, or
sent something else, within the timeout. -/
def NewcomersHeard (r : FlRun Addr) : Prop :=
  ∀ s ∈ r.proxy.logicServers, s.isUp = true → s.lastHeartbeat = none → r.HeardWithin s

/-! ## Heartbeats are heard -/

/-- Since its last heartbeat, or at it, there was a datagram from the server's
identified address. -/
def BeatsHeard (r : FlRun Addr) : Prop :=
  ∀ s ∈ r.proxy.logicServers, ∀ last ∈ s.lastHeartbeat,
    last ≤ r.now ∧ ∃ a ∈ s.addrIdentifier, ∃ h ∈ r.heard, h.1 = a ∧ last ≤ h.2

variable {r : FlRun Addr} {parser}

theorem start_beatsHeard (raw : List (List Char)) (now : Nat) : (start parser raw now).BeatsHeard := by
  intro s hs last hlast
  rw [(parseAddrPairs_new hs).2.1] at hlast
  cases hlast

theorem step_beatsHeard [DecidableEq Addr] (h : r.BeatsHeard) (e : FlEvent Addr) : (r.step parser e).BeatsHeard := by
  cases e with
  | datagram d =>
    -- What was heard before is still heard.
    have hold : ∀ s ∈ r.proxy.logicServers, ∀ last ∈ s.lastHeartbeat,
        last ≤ r.now ∧ ∃ a ∈ s.addrIdentifier, ∃ h ∈ r.heard ++ [(d.sender, r.now)], h.1 = a ∧ last ≤ h.2 := by
      intro s hs last hlast
      obtain ⟨hnow, a, ha, x, hx, hxa, hle⟩ := h s hs last hlast
      exact ⟨hnow, a, ha, x, List.mem_append_left _ hx, hxa, hle⟩
    have hlast : (d.sender, r.now) ∈ r.heard ++ [(d.sender, r.now)] := List.mem_concat_self
    have hlisten := listen_listens parser ReverseProxyFl.identify r.now r.proxy.logicServers d
    simp only [BeatsHeard, step, ReverseProxyFl.listenForHeartbeats]
    generalize (listen parser ReverseProxyFl.identify r.now r.proxy.logicServers d).1 = servers' at hlisten
    cases hlisten with
    | nothing => exact hold
    | beat i hi =>
      intro s hs last hbeat
      rcases mem_modify hs with hs | ⟨s', hs', rfl⟩
      · exact hold s hs last hbeat
      · -- The heartbeat is this datagram.
        obtain ⟨s'', hs'', ha⟩ := creditedTo_eq_some hi
        cases hs'.symm.trans hs''
        cases hbeat
        exact ⟨le_rfl, d.sender, ha, _, hlast, rfl, le_rfl⟩
    | identify i =>
      intro s hs last hbeat
      rcases mem_modify hs with hs | ⟨s', hs', rfl⟩
      · exact hold s hs last hbeat
      · -- The new identifier sent this datagram, after the last heartbeat.
        have hnow := (h s' (List.mem_of_getElem? hs') last hbeat).1
        exact ⟨hnow, d.sender, rfl, _, hlast, rfl, hnow⟩
  | expiry =>
    intro s hs last hlast
    obtain ⟨s', hs', rfl⟩ := List.mem_map.mp hs
    rw [expire_lastHeartbeat] at hlast
    rw [expire_addrIdentifier]
    exact h s' hs' last hlast
  | connect => exact h
  | elapse n =>
    intro s hs last hlast
    obtain ⟨hnow, hheard⟩ := h s hs last hlast
    exact ⟨hnow.trans (Nat.le_add_right _ _), hheard⟩

/-- **One sweep.** After it all are heard exactly when the newcomers were. -/
theorem expiry_allHeard_iff [DecidableEq Addr] (h : r.BeatsHeard) :
    (r.step parser .expiry).AllHeard ↔ r.NewcomersHeard := by
  constructor
  · intro hall s hs hup hnone
    have hup' : (s.expire r.now).isUp = true := expire_isUp.mpr ⟨hup, by simp [hnone]⟩
    have hheard := hall.up _ (List.mem_map_of_mem hs) hup'
    rw [HeardWithin, expire_addrIdentifier] at hheard
    exact hheard
  · intro hnew
    have hup : ∀ s ∈ (r.step parser .expiry).proxy.logicServers, s.isUp = true →
        (r.step parser .expiry).HeardWithin s := by
      intro s hs hup
      obtain ⟨s', hs', rfl⟩ := List.mem_map.mp hs
      obtain ⟨hup', hrecent⟩ := expire_isUp.mp hup
      rw [HeardWithin, expire_addrIdentifier]
      cases hlast : s'.lastHeartbeat with
      | none => exact hnew s' hs' hup' hlast
      | some last =>
        obtain ⟨-, a, ha, x, hx, hxa, hle⟩ := h s' hs' last hlast
        exact ⟨a, ha, x, hx, hxa, (hrecent last hlast).trans (Nat.add_le_add_right hle _)⟩
    refine ⟨hup, fun a ha => ?_⟩
    obtain ⟨s, hs, hs', rfl⟩ := getAvailable_mem ha
    exact ⟨s, hs, rfl, hup s hs hs'⟩

end FlRun

/-- **Sweeps.** In every run of the proxy, every server that is up right after
a sweep was heard from within the timeout exactly when, at every sweep, the
servers that are up without a heartbeat were. -/
theorem expiries_allHeard_iff {Addr : Type*} [DecidableEq Addr] (parser : AddrParser Addr)
    (logicServers : List (List Char)) (now : Nat) (es : List (FlEvent Addr)) :
    Run.Along (FlRun.step parser) (fun r e => e = .expiry → (r.step parser e).AllHeard)
        (.start parser logicServers now) es ↔
      Run.Along (FlRun.step parser) (fun r e => e = .expiry → r.NewcomersHeard)
        (.start parser logicServers now) es := by
  refine Run.along_iff_along (FlRun.start_beatsHeard logicServers now)
    (fun r e h _ => FlRun.step_beatsHeard h e) fun r e h => forall_congr' fun he => ?_
  subst he
  exact FlRun.expiry_allHeard_iff h

/-- One logic server. -/
def oneLine : List (List Char) := ["127.0.0.1:7000 127.0.0.1:7001".toList]

/-- It announces itself and falls silent; three seconds later the servers are swept. -/
def silentNewcomer : List (FlEvent SocketAddr) :=
  [.datagram ⟨"127.0.0.1:7000 127.0.0.1:7001".toList, .loopback 7001⟩, .elapse (fromSecs 3), .expiry]

/-- The silent server is still up. -/
theorem silent_newcomer_up :
    ¬ ∀ (logicServers : List (List Char)) (now : Nat) (es : List (FlEvent SocketAddr)),
      Run.Along (FlRun.step SocketAddr.parser) (fun r e => e = .expiry → (r.step SocketAddr.parser e).AllHeard)
        (.start SocketAddr.parser logicServers now) es := by
  intro h
  obtain ⟨-, -, hsweep, -⟩ := h oneLine 0 silentNewcomer
  have hup := (hsweep rfl).up
  have hheard := hup ⟨some (.loopback 7001), .loopback 7001, .loopback 7000, none, true⟩
    (List.mem_of_getElem? (i := 0) rfl) rfl
  obtain ⟨a, -, x, hx, -, hle⟩ := hheard
  obtain rfl : x = (.loopback 7001, 0) := List.mem_singleton.mp hx
  exact absurd hle (by decide)

end FinalServer
