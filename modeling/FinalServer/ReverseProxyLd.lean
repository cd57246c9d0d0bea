/-
The proxy between the logic servers and the data servers.

Here an announcement does not mark a server up: only an `OK` does, and it
records the heartbeat. So whoever is up is identified, and its heartbeat is
its latest `OK`, which no sweep has found too old (`Fresh`). That is what a
connection can rely on.
-/
import FinalServer.Heartbeat
import Mathlib.Logic.Function.Basic

namespace FinalServer

/-- The two tables: `data_servers` is the backend, `logic_servers` the frontend. -/
inductive Role
  | data
  | logic
  deriving DecidableEq

/-- What changes in a `ReverseProxyLd`. -/
structure ReverseProxyLd (Addr : Type*) where
  servers : Role → List (Server Addr)
  nextIndex : Nat

/-- The proxy at work: the time, the `OK`s that were taken, by the place of the
server and with their times, and when each table was last swept. -/
structure LdRun (Addr : Type*) where
  proxy : ReverseProxyLd Addr
  now : Nat
  oks : Role → List (Nat × Nat)
  swept : Role → Option Nat

/-- A listener processes a datagram, a table is swept, a connection asks for a
server of a table, or time passes. -/
inductive LdEvent (Addr : Type*)
  | datagram (role : Role) (d : Datagram Addr)
  | expiry (role : Role)
  | connect (role : Role)
  | elapse (n : Nat)

namespace LdRun

variable {Addr : Type*}

/-- The proxy as `from_config_file` makes it. -/
def start (parser : AddrParser Addr) (raw : Role → List (List Char)) (now : Nat) : LdRun Addr :=
  ⟨⟨fun role => parseAddrPairs parser (raw role), 0⟩, now, fun _ => [], fun _ => none⟩

/-- `get_available_backend` for the data servers, `get_available_frontend` for the logic servers. -/
def getAvailable (r : LdRun Addr) (role : Role) : Option Addr × Nat :=
  FinalServer.getAvailable (r.proxy.servers role) r.proxy.nextIndex

variable [DecidableEq Addr] (parser : AddrParser Addr)

def step (r : LdRun Addr) : LdEvent Addr → LdRun Addr
  | .datagram role d =>
    { r with
      proxy.servers := Function.update r.proxy.servers role
        (ReverseProxyLd.listenForHeartbeats parser r.now (r.proxy.servers role) d).1
      oks := Function.update r.oks role
        (r.oks role ++ ((creditedTo (r.proxy.servers role) d).map (·, r.now)).toList) }
  | .expiry role =>
    { r with
      proxy.servers := Function.update r.proxy.servers role (checkHeartbeatExpiry r.now (r.proxy.servers role))
      swept := Function.update r.swept role (some r.now) }
  | .connect role => { r with proxy.nextIndex := (r.getAvailable role).2 }
  | .elapse n => { r with now := r.now + n }

omit [DecidableEq Addr]

/-- The time of the latest `OK` taken for the server at a place. -/
def latestOk (r : LdRun Addr) (role : Role) (place : Nat) : Option Nat :=
  ((r.oks role).filter (·.1 = place)).getLast?.map (·.2)

/-- What a connection may rely on of the server at a place: it is identified,
and its latest `OK` was no older than the timeout at the latest sweep, or came
after it. -/
structure Fresh (r : LdRun Addr) (role : Role) (place : Nat) (s : Server Addr) : Prop where
  identified : s.addrIdentifier.isSome = true
  recent : ∃ last ∈ r.latestOk role place, ∀ t ∈ r.swept role, t - last ≤ fromSecs TIMEOUT ∨ t < last

/-- An address of a configured server that is fresh. -/
def Routable (parser : AddrParser Addr) (raw : Role → List (List Char)) (r : LdRun Addr) (role : Role) (a : Addr) :
    Prop :=
  ∃ place s, (r.proxy.servers role)[place]? = some s ∧ s.tcpAddr = a ∧
    (∃ c ∈ parseAddrPairs parser (raw role), c.tcpAddr = s.tcpAddr ∧ c.udpAddr = s.udpAddr) ∧ r.Fresh role place s

/-! ## Who is up is fresh -/

/-- What holds of the entry at a place: it was configured, its heartbeat is the
latest `OK` taken for it, only identified servers have one, and whoever is up
has a recent one. -/
structure Entry (parser : AddrParser Addr) (raw : Role → List (List Char)) (r : LdRun Addr) (role : Role)
    (place : Nat) (s : Server Addr) : Prop where
  configured : ∃ c ∈ parseAddrPairs parser (raw role), c.tcpAddr = s.tcpAddr ∧ c.udpAddr = s.udpAddr
  beat : s.lastHeartbeat = r.latestOk role place
  identified : s.lastHeartbeat.isSome = true → s.addrIdentifier.isSome = true
  up : s.isUp = true → ∃ last ∈ s.lastHeartbeat, ∀ t ∈ r.swept role, t - last ≤ fromSecs TIMEOUT ∨ t < last

/-- The invariant of the proxy. -/
structure Sound (parser : AddrParser Addr) (raw : Role → List (List Char)) (r : LdRun Addr) : Prop where
  entry : ∀ role place s, (r.proxy.servers role)[place]? = some s → Entry parser raw r role place s
  swept : ∀ role, ∀ t ∈ r.swept role, t ≤ r.now

variable {parser} {raw : Role → List (List Char)} {r : LdRun Addr} {role : Role} {place : Nat} {s : Server Addr}

theorem start_sound (now : Nat) : Sound parser raw (start parser raw now) where
  entry role place s hs := by
    have hmem : s ∈ parseAddrPairs parser (raw role) := List.mem_of_getElem? hs
    obtain ⟨-, hbeat, hup⟩ := parseAddrPairs_new hmem
    exact ⟨⟨s, hmem, rfl, rfl⟩, hbeat, by simp [hbeat], by simp [hup]⟩
  swept role t ht := by cases ht

/-- The entries of a table depend on the `OK`s taken for them and the latest sweep only. -/
theorem Entry.congr {r' : LdRun Addr} (h : Entry parser raw r role place s)
    (hok : r'.latestOk role place = r.latestOk role place) (hswept : r'.swept role = r.swept role) :
    Entry parser raw r' role place s where
  configured := h.configured
  beat := hok ▸ h.beat
  identified := h.identified
  up := hswept ▸ h.up

/-- Who is up is routable. -/
theorem Sound.routable (h : Sound parser raw r) {a : Addr} (ha : (r.getAvailable role).1 = some a) :
    Routable parser raw r role a := by
  obtain ⟨s, hs, hup, rfl⟩ := getAvailable_mem ha
  obtain ⟨place, hplace⟩ := List.mem_iff_getElem?.mp hs
  have hentry := h.entry role place s hplace
  obtain ⟨last, hlast, hrecent⟩ := hentry.up hup
  refine ⟨place, s, hplace, rfl, hentry.configured, ?_, last, ?_, hrecent⟩
  · exact hentry.identified (Option.isSome_of_mem hlast)
  · exact hentry.beat ▸ hlast

section Step

variable [DecidableEq Addr]

theorem step_other (parser : AddrParser Addr) (r : LdRun Addr) {e : LdEvent Addr} {role role' : Role}
    (hne : role' ≠ role) (he : (∃ d, e = .datagram role d) ∨ e = .expiry role) :
    (r.step parser e).proxy.servers role' = r.proxy.servers role' ∧ (r.step parser e).oks role' = r.oks role' ∧
      (r.step parser e).swept role' = r.swept role' := by
  rcases he with ⟨d, rfl⟩ | rfl
  · exact ⟨Function.update_of_ne hne .., Function.update_of_ne hne .., rfl⟩
  · exact ⟨Function.update_of_ne hne .., rfl, Function.update_of_ne hne ..⟩

/-- The latest `OK` of a place, after one more. -/
theorem latestOk_datagram (parser : AddrParser Addr) (r : LdRun Addr) (role : Role) (place : Nat)
    (d : Datagram Addr) : (r.step parser (.datagram role d)).latestOk role place =
    if creditedTo (r.proxy.servers role) d = some place then some r.now else r.latestOk role place := by
  simp only [latestOk, step, Function.update_self, List.filter_append]
  cases creditedTo (r.proxy.servers role) d with
  | none => simp
  | some i =>
    by_cases hi : i = place
    · subst hi
      simp
    · simp [hi]

theorem datagram_entry (h : Sound parser raw r) (d : Datagram Addr)
    (hs : ((r.step parser (.datagram role d)).proxy.servers role)[place]? = some s) :
    Entry parser raw (r.step parser (.datagram role d)) role place s := by
  have hok := latestOk_datagram parser r role place d
  have hlisten := listen_listens parser ReverseProxyLd.identify r.now (r.proxy.servers role) d
  simp only [step, Function.update_self, ReverseProxyLd.listenForHeartbeats] at hs
  generalize (listen parser ReverseProxyLd.identify r.now (r.proxy.servers role) d).1 = servers' at hlisten hs
  cases hlisten with
  | nothing hcredit =>
    rw [hcredit, if_neg (by simp)] at hok
    exact (h.entry role place s hs).congr hok rfl
  | beat i hcredit =>
    by_cases hi : i = place
    · subst hi
      rw [hcredit, if_pos rfl] at hok
      rw [List.getElem?_modify_eq] at hs
      obtain ⟨s', hs', rfl⟩ := Option.map_eq_some_iff.mp hs
      obtain ⟨s'', hs'', hid⟩ := creditedTo_eq_some hcredit
      cases hs'.symm.trans hs''
      refine ⟨(h.entry role i s' hs').configured, hok.symm, fun _ => ?_, fun _ => ⟨r.now, rfl, fun t ht => .inl ?_⟩⟩
      · exact Option.isSome_iff_exists.mpr ⟨_, hid⟩
      · have := h.swept role t ht
        omega
    · rw [hcredit, if_neg (by simpa using hi)] at hok
      rw [List.getElem?_modify_ne _ _ hi] at hs
      exact (h.entry role place s hs).congr hok rfl
  | identify i hcredit =>
    rw [hcredit, if_neg (by simp)] at hok
    by_cases hi : i = place
    · subst hi
      rw [List.getElem?_modify_eq] at hs
      obtain ⟨s', hs', rfl⟩ := Option.map_eq_some_iff.mp hs
      have hold := h.entry role i s' hs'
      exact ⟨hold.configured, hok ▸ hold.beat, fun _ => rfl, hold.up⟩
    · rw [List.getElem?_modify_ne _ _ hi] at hs
      exact (h.entry role place s hs).congr hok rfl

theorem expiry_entry (h : Sound parser raw r)
    (hs : ((r.step parser (.expiry role)).proxy.servers role)[place]? = some s) :
    Entry parser raw (r.step parser (.expiry role)) role place s := by
  simp only [step, Function.update_self, checkHeartbeatExpiry, List.getElem?_map] at hs
  obtain ⟨s', hs', rfl⟩ := Option.map_eq_some_iff.mp hs
  have hold := h.entry role place s' hs'
  refine ⟨?_, ?_, ?_, fun hup => ?_⟩
  · obtain ⟨c, hc, htcp, hudp⟩ := hold.configured
    exact ⟨c, hc, htcp.trans (expire_addrs _).1.symm, hudp.trans (expire_addrs _).2.symm⟩
  · rw [expire_lastHeartbeat]
    exact hold.beat
  · rw [expire_lastHeartbeat, expire_addrIdentifier]
    exact hold.identified
  · obtain ⟨hup, hrecent⟩ := expire_isUp.mp hup
    obtain ⟨last, hlast, -⟩ := hold.up hup
    rw [expire_lastHeartbeat]
    refine ⟨last, hlast, fun t ht => .inl ?_⟩
    simp only [step, Function.update_self, Option.mem_def, Option.some.injEq] at ht
    have := hrecent last hlast
    omega

/-- **One step.** -/
theorem step_sound (h : Sound parser raw r) (e : LdEvent Addr) : Sound parser raw (r.step parser e) := by
  cases e with
  | datagram role d =>
    refine ⟨fun role' place s hs => ?_, h.swept⟩
    by_cases hrole : role' = role
    · subst hrole
      exact datagram_entry h d hs
    · obtain ⟨hservers, hoks, hswept⟩ := step_other parser r hrole (.inl ⟨d, rfl⟩)
      rw [hservers] at hs
      exact (h.entry role' place s hs).congr (by rw [latestOk, hoks, latestOk]) hswept
  | expiry role =>
    refine ⟨fun role' place s hs => ?_, fun role' t ht => ?_⟩
    · by_cases hrole : role' = role
      · subst hrole
        exact expiry_entry h hs
      · obtain ⟨hservers, hoks, hswept⟩ := step_other parser r hrole (.inr rfl)
        rw [hservers] at hs
        exact (h.entry role' place s hs).congr (by rw [latestOk, hoks, latestOk]) hswept
    · by_cases hrole : role' = role
      · subst hrole
        simp only [step, Function.update_self, Option.mem_def, Option.some.injEq] at ht
        exact ht.ge
      · rw [(step_other parser r hrole (.inr rfl)).2.2] at ht
        exact h.swept role' t ht
  | connect role => exact ⟨fun role' place s hs => (h.entry role' place s hs).congr rfl rfl, h.swept⟩
  | elapse n =>
    exact ⟨fun role' place s hs => (h.entry role' place s hs).congr rfl rfl,
      fun role' t ht => (h.swept role' t ht).trans (Nat.le_add_right _ _)⟩

end Step

end LdRun

/-- **Routing.** In every run of the proxy every address a connection is given
is that of a configured, identified server whose latest `OK` was no older than
the timeout at the latest sweep of its table, or came after it. -/
theorem connect_routable {Addr : Type*} [DecidableEq Addr] (parser : AddrParser Addr)
    (raw : Role → List (List Char)) (now : Nat) (es : List (LdEvent Addr)) :
    Run.Along (LdRun.step parser)
      (fun r e => ∀ role, e = .connect role → ∀ a ∈ (r.getAvailable role).1, r.Routable parser raw role a)
      (.start parser raw now) es := by
  refine (Run.along_iff_along (LdRun.start_sound now)
    (fun r e h _ => LdRun.step_sound h e) fun r e h => iff_of_true ?_ trivial).mpr (Run.along_true es)
  intro role _ a ha
  exact h.routable ha

end FinalServer
