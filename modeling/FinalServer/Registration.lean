/-
How a server registers with a proxy, over a network that loses datagrams.

A server's daemon sends a load balancer its addresses until that answers
`OK`, and `OK` from then on, until it answers `AUTH`. Either side can forget
at any time, and datagrams arrive late, twice or never. What cannot go wrong
is who an entry of the proxy is identified with (`Sound`); so whatever the
two remember, three rounds in which nothing is lost put it right.
-/
import FinalServer.Heartbeat
import Mathlib.Logic.Function.Basic

namespace FinalServer

/-! ## The daemons -/

/-- A load balancer as a daemon knows it: `state == SENDING_OK` in
`udp_lb_daemon`, `auth_done` in `udp_daemon`. -/
structure LoadBalancer (Addr : Type*) where
  addr : Addr
  authDone : Bool

/-- The logic server's daemon, and the data server's. -/
inductive Daemon
  | udpLbDaemon
  | udpDaemon
  deriving DecidableEq

/-- `"%s %s"` of a server's addresses. -/
def announcement (tcp udp : List Char) : List Char := tcp ++ ' ' :: udp

/-- What is sent to a load balancer. -/
def LoadBalancer.message {Addr : Type*} (lb : LoadBalancer Addr) (tcp udp : List Char) : List Char :=
  if lb.authDone then okText else announcement tcp udp

/-- What an answer of the load balancer changes. -/
def LoadBalancer.answer {Addr : Type*} (text : List Char) (lb : LoadBalancer Addr) : LoadBalancer Addr :=
  if text = okText then { lb with authDone := true }
  else if text = authText then { lb with authDone := false }
  else lb

/-- A datagram from an address: the logic server's daemon takes it for every
load balancer with this address, the data server's for the first. -/
def Daemon.receive {Addr : Type*} [DecidableEq Addr] (sender : Addr) (text : List Char)
    (lbs : List (LoadBalancer Addr)) : Daemon → List (LoadBalancer Addr)
  | .udpLbDaemon => lbs.map fun lb => if lb.addr = sender then lb.answer text else lb
  | .udpDaemon =>
    match lbs.findIdx? fun lb => lb.addr = sender with
    | some i => lbs.modify i (LoadBalancer.answer text)
    | none => lbs

/-- A daemon that starts: `auth_done` is whatever the array held. -/
def Daemon.start {Addr : Type*} (addrs : List Addr) (authDone : Nat → Bool) : Daemon → List (LoadBalancer Addr)
  | .udpLbDaemon => addrs.map fun addr => ⟨addr, false⟩
  | .udpDaemon => addrs.mapIdx fun i addr => ⟨addr, authDone i⟩

/-! ## The network -/

/-- A listener of a proxy and the servers that report to it: each announces one
configured pair from one address, and no two the same pair or from the same
address. -/
structure Fleet (ι Addr : Type*) (parser : AddrParser Addr) [DecidableEq Addr] where
  mode : Mode
  proxyAddr : Addr
  raw : List (List Char)
  source : ι → Addr
  tcp : ι → List Char
  udp : ι → List Char
  tcpAddr : ι → Addr
  udpAddr : ι → Addr
  daemon : ι → Daemon
  lbAddrs : ι → List Addr
  source_inj : Function.Injective source
  parse_tcp : ∀ i, parser.parse (tcp i) = some (tcpAddr i)
  parse_udp : ∀ i, parser.parse (udp i) = some (udpAddr i)
  pair_inj : ∀ i j, tcpAddr i = tcpAddr j → udpAddr i = udpAddr j → i = j
  configured : ∀ i, ∃ s ∈ parseAddrPairs parser raw, s.tcpAddr = tcpAddr i ∧ s.udpAddr = udpAddr i
  reports : ∀ i, proxyAddr ∈ lbAddrs i

/-- The proxy's table, the servers' daemons, and the datagrams in flight. -/
structure Net (ι Addr : Type*) where
  table : List (Server Addr)
  now : Nat
  lbs : ι → List (LoadBalancer Addr)
  toProxy : List (Datagram Addr)
  toServers : List (Addr × List Char)

/-- A daemon sends to its load balancer at a place, the proxy or a server
receives a datagram in flight, a server receives one from another load
balancer, the proxy sweeps, time passes, or the proxy or a server restarts.
What was received can be received again; what never is, is lost. -/
inductive NetEvent (ι Addr : Type*)
  | send (i : ι) (place : Nat)
  | toProxy (place : Nat)
  | toServer (i : ι) (place : Nat)
  | foreign (i : ι) (sender : Addr) (text : List Char)
  | expiry
  | elapse (n : Nat)
  | restartProxy
  | restartServer (i : ι) (authDone : Nat → Bool)

namespace Fleet

variable {ι Addr : Type*} {parser : AddrParser Addr} [DecidableEq Addr] (f : Fleet ι Addr parser)

/-- What server `i` announces. -/
def announces (i : ι) : List Char := announcement (f.tcp i) (f.udp i)

/-- Everybody has just started. -/
def start (authDone : ι → Nat → Bool) (now : Nat) : Net ι Addr where
  table := parseAddrPairs parser f.raw
  now := now
  lbs i := (f.daemon i).start (f.lbAddrs i) (authDone i)
  toProxy := []
  toServers := []

/-- The proxy processes a datagram; its reply, if any, is in flight. -/
def handle (n : Net ι Addr) (d : Datagram Addr) : Net ι Addr :=
  let (table, reply) := listen parser f.mode.identify n.now n.table d
  { n with table, toServers := n.toServers ++ (reply.map fun text => (d.sender, text)).toList }

/-- Server `i` processes a datagram. -/
def receive [DecidableEq ι] (n : Net ι Addr) (i : ι) (sender : Addr) (text : List Char) : Net ι Addr :=
  { n with lbs := Function.update n.lbs i ((f.daemon i).receive sender text (n.lbs i)) }

def step [DecidableEq ι] (n : Net ι Addr) : NetEvent ι Addr → Net ι Addr
  | .send i place =>
    match (n.lbs i)[place]? with
    | some lb =>
      if lb.addr = f.proxyAddr then
        { n with toProxy := n.toProxy ++ [⟨lb.message (f.tcp i) (f.udp i), f.source i⟩] }
      else n
    | none => n
  | .toProxy place =>
    match n.toProxy[place]? with
    | some d => f.handle n d
    | none => n
  | .toServer i place =>
    match n.toServers[place]? with
    | some (addr, text) => if addr = f.source i then f.receive n i f.proxyAddr text else n
    | none => n
  | .foreign i sender text => if sender = f.proxyAddr then n else f.receive n i sender text
  | .expiry => { n with table := checkHeartbeatExpiry n.now n.table }
  | .elapse k => { n with now := n.now + k }
  | .restartProxy => { n with table := parseAddrPairs parser f.raw }
  | .restartServer i authDone =>
    { n with lbs := Function.update n.lbs i ((f.daemon i).start (f.lbAddrs i) authDone) }

/-- The datagrams in flight are lost. -/
def dropAll (n : Net ι Addr) : Net ι Addr := { n with toProxy := [], toServers := [] }

/-- The proxy's entry in the daemon of server `i`. -/
def current (n : Net ι Addr) (i : ι) : Option (LoadBalancer Addr) := (n.lbs i).find? fun lb => lb.addr = f.proxyAddr

/-- A round without loss: the server sends its current message, the proxy
processes it, and the server its reply, if there is one. -/
def round [DecidableEq ι] (i : ι) (n : Net ι Addr) : Net ι Addr :=
  match f.current n i with
  | some lb =>
    let (table, reply) := listen parser f.mode.identify n.now n.table ⟨lb.message (f.tcp i) (f.udp i), f.source i⟩
    match reply with
    | some text => f.receive { n with table } i f.proxyAddr text
    | none => { n with table }
  | none => n

/-- What may happen between the rounds of server `i`: anything but a restart of
the proxy or of the server, or another message of the server. -/
def Between (i : ι) : NetEvent ι Addr → Prop
  | .send j _ | .restartServer j _ => j ≠ i
  | .restartProxy => False
  | _ => True

/-- The server sends `OK`, and its entry is identified with its address, up,
and has its heartbeat now. -/
structure Registered (n : Net ι Addr) (i : ι) : Prop where
  sendsOk : ∃ lb ∈ f.current n i, lb.authDone = true
  entry : ∃ place s, configuredAs n.table (f.tcpAddr i) (f.udpAddr i) = some place ∧ n.table[place]? = some s ∧
    s.addrIdentifier = some (f.source i) ∧ s.isUp = true ∧ s.lastHeartbeat = some n.now

end Fleet

/-! ## What a daemon keeps -/

section Daemon

variable {α : Type*} {p : α → Bool} {g : α → α} {l : List α}

theorem find?_modify_first (hg : ∀ a, p (g a) = p a) :
    ((match l.findIdx? p with | some i => l.modify i g | none => l).find? p) = (l.find? p).map g := by
  induction l with
  | nil => rfl
  | cons a l ih =>
    rw [List.findIdx?_cons]
    by_cases ha : p a = true
    · simp [ha, hg]
    · have hga : p (g a) ≠ true := hg a ▸ ha
      rw [if_neg ha, List.find?_cons_of_neg ha, ← ih]
      cases l.findIdx? p with
      | none => simp [ha]
      | some i => simp [ha]

theorem find?_modify_other {i : Nat} (hg : ∀ a, p (g a) = p a) (hi : ∀ a ∈ l[i]?, p a = false) :
    (l.modify i g).find? p = l.find? p := by
  induction l generalizing i with
  | nil => cases i <;> rfl
  | cons a l ih =>
    cases i with
    | zero =>
      have ha : p a = false := hi a rfl
      simp [ha, hg]
    | succ i =>
      rw [List.modify_succ_cons, List.find?_cons, List.find?_cons, ih hi]

variable {Addr : Type*} {lbs : List (LoadBalancer Addr)} {sender addr : Addr} {text : List Char}

@[simp] theorem answer_addr (lb : LoadBalancer Addr) : (lb.answer text).addr = lb.addr := by
  unfold LoadBalancer.answer
  split
  · rfl
  · split <;> rfl

theorem map_addr_start (k : Daemon) (addrs : List Addr) (authDone : Nat → Bool) :
    (k.start addrs authDone).map (·.addr) = addrs := by
  cases k with
  | udpLbDaemon => simp [Daemon.start, Function.comp_def]
  | udpDaemon => exact List.ext_getElem? fun j => by simp [Daemon.start, Function.comp_def]

variable [DecidableEq Addr]

/-- The daemon takes an answer for the load balancer that sent it. -/
theorem find?_receive (k : Daemon) :
    ((k.receive sender text lbs).find? fun lb => lb.addr = sender) =
      (lbs.find? fun lb => lb.addr = sender).map (LoadBalancer.answer text) := by
  cases k with
  | udpLbDaemon =>
    have hsame : ((fun lb => decide (lb.addr = sender)) ∘ fun lb : LoadBalancer Addr =>
        if lb.addr = sender then lb.answer text else lb) = fun lb => decide (lb.addr = sender) := by
      funext lb
      simp only [Function.comp_apply]
      split <;> simp
    rw [Daemon.receive, List.find?_map, hsame]
    cases hfind : lbs.find? fun lb => lb.addr = sender with
    | none => rfl
    | some lb =>
      have hlb : lb.addr = sender := by simpa using List.find?_some hfind
      simp [hlb]
  | udpDaemon => exact find?_modify_first fun lb => by simp

/-- Another's answer leaves it alone. -/
theorem find?_receive_other (k : Daemon) (hne : sender ≠ addr) :
    ((k.receive sender text lbs).find? fun lb => lb.addr = addr) = lbs.find? fun lb => lb.addr = addr := by
  cases k with
  | udpLbDaemon =>
    have hsame : ((fun lb => decide (lb.addr = addr)) ∘ fun lb : LoadBalancer Addr =>
        if lb.addr = sender then lb.answer text else lb) = fun lb => decide (lb.addr = addr) := by
      funext lb
      simp only [Function.comp_apply]
      split <;> simp
    rw [Daemon.receive, List.find?_map, hsame]
    cases hfind : lbs.find? fun lb => lb.addr = addr with
    | none => rfl
    | some lb =>
      have hlb : lb.addr = addr := by simpa using List.find?_some hfind
      simp [hlb, hne.symm]
  | udpDaemon =>
    simp only [Daemon.receive]
    split
    next i hi =>
      refine find?_modify_other (fun lb => by simp) fun lb hlb => ?_
      obtain ⟨hlt, hsender, -⟩ := List.findIdx?_eq_some_iff_getElem.mp hi
      rw [List.getElem?_eq_getElem hlt] at hlb
      cases hlb
      have hsender : lbs[i].addr = sender := of_decide_eq_true hsender
      simp [hsender, hne]
    next => rfl

theorem map_addr_receive (k : Daemon) : (k.receive sender text lbs).map (·.addr) = lbs.map (·.addr) := by
  cases k with
  | udpLbDaemon =>
    rw [Daemon.receive, List.map_map]
    refine List.map_congr_left fun lb _ => ?_
    simp only [Function.comp_apply]
    split <;> simp
  | udpDaemon =>
    simp only [Daemon.receive]
    split
    · exact map_modify fun lb => answer_addr lb
    · rfl

end Daemon

/-! ## What the proxy makes of their messages -/

section Listen

variable {Addr : Type*} [DecidableEq Addr] {parser : AddrParser Addr} {identify : Addr → Server Addr → Server Addr}
  {now : Nat} {servers : List (Server Addr)} {sender : Addr}

theorem listen_announcement {tcp udp : List Char} {tcpAddr udpAddr : Addr} (htcp : parser.parse tcp = some tcpAddr)
    (hudp : parser.parse udp = some udpAddr) :
    listen parser identify now servers ⟨announcement tcp udp, sender⟩ =
      match configuredAs servers tcpAddr udpAddr with
      | some i => (servers.modify i (identify sender), some okText)
      | none => (servers, none) := by
  have hblank : ' ' ∈ announcement tcp udp := List.mem_append_right _ List.mem_cons_self
  have hne : announcement tcp udp ≠ okText := by
    intro heq
    rw [heq] at hblank
    exact absurd hblank (by decide)
  have htrim : trim (announcement tcp udp) = announcement tcp udp := trim_pair (parser.word htcp) (parser.word hudp)
  have hsplit : splitWhitespace (announcement tcp udp) = [tcp, udp] :=
    splitWhitespace_pair (parser.word htcp) (parser.word hudp)
  simp only [listen, htrim, hsplit, htcp, hudp]
  refine (if_neg hne).trans ((if_pos hblank).trans ?_)
  rfl

/-- What a table is configured as. -/
def addrsOf (servers : List (Server Addr)) : List (Addr × Addr) := servers.map fun s => (s.tcpAddr, s.udpAddr)

theorem configuredAs_congr {servers' : List (Server Addr)} (h : addrsOf servers' = addrsOf servers)
    (tcpAddr udpAddr : Addr) : configuredAs servers' tcpAddr udpAddr = configuredAs servers tcpAddr udpAddr := by
  have hmap : ∀ l : List (Server Addr), configuredAs l tcpAddr udpAddr =
      (addrsOf l).findIdx? fun a => a.2 = udpAddr ∧ a.1 = tcpAddr := by
    intro l
    rw [addrsOf, List.findIdx?_map]
    rfl
  rw [hmap, h, ← hmap]

omit [DecidableEq Addr] in
theorem addrsOf_modify {i : Nat} {g : Server Addr → Server Addr}
    (hg : ∀ s, (g s).tcpAddr = s.tcpAddr ∧ (g s).udpAddr = s.udpAddr) :
    addrsOf (servers.modify i g) = addrsOf servers :=
  map_modify fun s => Prod.ext (hg s).1 (hg s).2

end Listen

/-! ## Who an entry is identified with -/

namespace Fleet

variable {ι Addr : Type*} [DecidableEq Addr] {parser : AddrParser Addr} {f : Fleet ι Addr parser} {n : Net ι Addr}
  {i j : ι}

/-- The place of server `i` in the proxy's table. -/
def place (f : Fleet ι Addr parser) (i : ι) : Option Nat :=
  configuredAs (parseAddrPairs parser f.raw) (f.tcpAddr i) (f.udpAddr i)

/-- An entry is identified with the address of the server that announces its
pair, and what is in flight to the proxy comes from a server's daemon. -/
structure Sound (f : Fleet ι Addr parser) (n : Net ι Addr) : Prop where
  addrs : addrsOf n.table = addrsOf (parseAddrPairs parser f.raw)
  identified : ∀ p s, n.table[p]? = some s → ∀ a ∈ s.addrIdentifier, ∃ j, f.source j = a ∧ f.place j = some p
  flight : ∀ d ∈ n.toProxy, ∃ j, d.sender = f.source j ∧ (d.text = okText ∨ d.text = f.announces j)
  lbs : ∀ i, (n.lbs i).map (·.addr) = f.lbAddrs i

theorem exists_place (f : Fleet ι Addr parser) (i : ι) : ∃ p, f.place i = some p := by
  obtain ⟨s, hs, htcp, hudp⟩ := f.configured i
  refine Option.isSome_iff_exists.mp ?_
  rw [place, configuredAs, List.findIdx?_isSome, List.any_eq_true]
  exact ⟨s, hs, by simp [htcp, hudp]⟩

theorem place_inj {p : Nat} (hi : f.place i = some p) (hj : f.place j = some p) : i = j := by
  obtain ⟨s, hs, htcp, hudp⟩ := configuredAs_eq_some hi
  obtain ⟨s', hs', htcp', hudp'⟩ := configuredAs_eq_some hj
  cases hs.symm.trans hs'
  exact f.pair_inj i j (htcp.symm.trans htcp') (hudp.symm.trans hudp')

/-- The table has the server where the configuration has it. -/
theorem Sound.place_eq (h : f.Sound n) (i : ι) : configuredAs n.table (f.tcpAddr i) (f.udpAddr i) = f.place i :=
  configuredAs_congr h.addrs _ _

theorem Sound.entry (h : f.Sound n) {p : Nat} (hi : f.place i = some p) : ∃ s, n.table[p]? = some s := by
  obtain ⟨s, hs, -⟩ := configuredAs_eq_some ((h.place_eq i).trans hi)
  exact ⟨s, hs⟩

/-- The proxy has identified server `i`. -/
def Identified (f : Fleet ι Addr parser) (n : Net ι Addr) (i : ι) : Prop :=
  ∃ p s, f.place i = some p ∧ n.table[p]? = some s ∧ s.addrIdentifier = some (f.source i)

/-- Whom an address identifies is the server's own entry. -/
theorem Sound.identifiedBy_place (h : f.Sound n) {p : Nat} (hp : identifiedBy n.table (f.source i) = some p) :
    f.place i = some p := by
  obtain ⟨s, hs, hid⟩ := identifiedBy_eq_some hp
  obtain ⟨j, hj, hplace⟩ := h.identified p s hs _ hid
  rwa [f.source_inj hj] at hplace

theorem Sound.identified_iff_identifiedBy (h : f.Sound n) :
    f.Identified n i ↔ ∃ p, identifiedBy n.table (f.source i) = some p := by
  constructor
  · rintro ⟨p, s, -, hs, hid⟩
    refine Option.isSome_iff_exists.mp ?_
    rw [identifiedBy, List.findIdx?_isSome, List.any_eq_true]
    exact ⟨s, List.mem_of_getElem? hs, by simp [hid]⟩
  · rintro ⟨p, hp⟩
    obtain ⟨s, hs, hid⟩ := identifiedBy_eq_some hp
    exact ⟨p, s, h.identifiedBy_place hp, hs, hid⟩

/-- Two tables with the same addresses and identifiers are as sound as each other. -/
theorem Sound.table (h : f.Sound n) {table : List (Server Addr)} (haddrs : addrsOf table = addrsOf n.table)
    (hid : ∀ p s, table[p]? = some s → ∀ a ∈ s.addrIdentifier, ∃ j, f.source j = a ∧ f.place j = some p) :
    f.Sound { n with table } :=
  ⟨haddrs.trans h.addrs, hid, h.flight, h.lbs⟩

omit [DecidableEq Addr] in
theorem identify_addrs (mode : Mode) (a : Addr) (s : Server Addr) :
    (mode.identify a s).tcpAddr = s.tcpAddr ∧ (mode.identify a s).udpAddr = s.udpAddr := by
  cases mode <;> exact ⟨rfl, rfl⟩

omit [DecidableEq Addr] in
theorem identify_addrIdentifier (mode : Mode) (a : Addr) (s : Server Addr) :
    (mode.identify a s).addrIdentifier = some a := by
  cases mode <;> rfl

/-- A heartbeat changes no identifier. -/
theorem Sound.beat (h : f.Sound n) (p now : Nat) : f.Sound { n with table := n.table.modify p (Server.beat now) } := by
  refine h.table (addrsOf_modify fun s => ⟨rfl, rfl⟩) fun q s hs a ha => ?_
  rw [List.getElem?_modify] at hs
  obtain ⟨s', hs', rfl⟩ := Option.map_eq_some_iff.mp hs
  refine h.identified q s' hs' a ?_
  split at ha <;> exact ha

/-- An announcement identifies the entry of its sender. -/
theorem Sound.identify (h : f.Sound n) {p : Nat} (hp : f.place i = some p) :
    f.Sound { n with table := n.table.modify p (f.mode.identify (f.source i)) } := by
  refine h.table (addrsOf_modify fun s => identify_addrs _ _ s) fun q s hs a ha => ?_
  by_cases hq : p = q
  · subst hq
    rw [List.getElem?_modify_eq] at hs
    obtain ⟨s', hs', rfl⟩ := Option.map_eq_some_iff.mp hs
    rw [identify_addrIdentifier] at ha
    cases ha
    exact ⟨i, rfl, hp⟩
  · rw [List.getElem?_modify_ne _ _ hq] at hs
    exact h.identified q s hs a ha

/-- What the proxy does with a message of server `j`: a heartbeat of its entry,
nothing, or its identification. -/
theorem Sound.listen_cases (h : f.Sound n) {text : List Char} (htext : text = okText ∨ text = f.announces j) :
    (listen parser f.mode.identify n.now n.table ⟨text, f.source j⟩).1 = n.table ∨ ∃ p, f.place j = some p ∧
      ((listen parser f.mode.identify n.now n.table ⟨text, f.source j⟩).1 = n.table.modify p (Server.beat n.now) ∨
        (listen parser f.mode.identify n.now n.table ⟨text, f.source j⟩).1 =
          n.table.modify p (f.mode.identify (f.source j))) := by
  rcases htext with rfl | rfl
  · rw [listen_okText]
    split
    next p hp => exact .inr ⟨p, h.identifiedBy_place hp, .inl rfl⟩
    next => exact .inl rfl
  · rw [announces, listen_announcement (f.parse_tcp j) (f.parse_udp j), h.place_eq]
    split
    next p hp => exact .inr ⟨p, hp, .inr rfl⟩
    next => exact .inl rfl

theorem Sound.listened (h : f.Sound n) {text : List Char} (htext : text = okText ∨ text = f.announces j) :
    f.Sound { n with table := (listen parser f.mode.identify n.now n.table ⟨text, f.source j⟩).1 } := by
  rcases h.listen_cases htext with htable | ⟨p, hp, htable | htable⟩
  · rw [htable]
    exact h
  · rw [htable]
    exact h.beat p n.now
  · rw [htable]
    exact h.identify hp

/-- A message of another server leaves the identification of `i` alone. -/
theorem Sound.listened_identified (h : f.Sound n) {text : List Char}
    (htext : text = okText ∨ text = f.announces j) (hji : j ≠ i) (hid : f.Identified n i) :
    f.Identified { n with table := (listen parser f.mode.identify n.now n.table ⟨text, f.source j⟩).1 } i := by
  obtain ⟨q, s, hq, hs, hids⟩ := hid
  refine ⟨q, s, hq, ?_, hids⟩
  rcases h.listen_cases htext with htable | ⟨p, hp, htable⟩
  · simpa only [htable] using hs
  · have hne : p ≠ q := fun hpq => hji (place_inj hp (hpq ▸ hq))
    rcases htable with htable | htable
    · simpa only [htable, List.getElem?_modify_ne _ _ hne] using hs
    · simpa only [htable, List.getElem?_modify_ne _ _ hne] using hs

/-! ## Every reachable network -/

/-- The sweep changes no identifier. -/
theorem Sound.expiry (h : f.Sound n) (now : Nat) : f.Sound { n with table := checkHeartbeatExpiry now n.table } := by
  refine h.table ?_ fun p s hs a ha => ?_
  · rw [addrsOf, checkHeartbeatExpiry, List.map_map]
    exact List.map_congr_left fun s _ => Prod.ext (expire_addrs now).1 (expire_addrs now).2
  · rw [checkHeartbeatExpiry, List.getElem?_map] at hs
    obtain ⟨s', hs', rfl⟩ := Option.map_eq_some_iff.mp hs
    rw [expire_addrIdentifier] at ha
    exact h.identified p s' hs' a ha

/-- A proxy that starts has identified nobody. -/
theorem start_sound (authDone : ι → Nat → Bool) (now : Nat) : f.Sound (f.start authDone now) where
  addrs := rfl
  identified p s hs a ha := by
    rw [(parseAddrPairs_new (List.mem_of_getElem? hs)).1] at ha
    cases ha
  flight d hd := by cases hd
  lbs i := map_addr_start _ _ _

theorem message_cases (lb : LoadBalancer Addr) (i : ι) :
    lb.message (f.tcp i) (f.udp i) = okText ∨ lb.message (f.tcp i) (f.udp i) = f.announces i := by
  unfold LoadBalancer.message
  split
  · exact .inl rfl
  · exact .inr rfl

variable [DecidableEq ι] {n' : Net ι Addr} {e : NetEvent ι Addr}

/-- What an event does: nothing, or what it is named after. -/
inductive Steps (f : Fleet ι Addr parser) (n : Net ι Addr) : NetEvent ι Addr → Net ι Addr → Prop
  | nothing (e : NetEvent ι Addr) : Steps f n e n
  | send (i : ι) (place : Nat) (lb : LoadBalancer Addr) : Steps f n (.send i place)
      { n with toProxy := n.toProxy ++ [⟨lb.message (f.tcp i) (f.udp i), f.source i⟩] }
  | toProxy (place : Nat) (d : Datagram Addr) (hd : d ∈ n.toProxy) : Steps f n (.toProxy place) (f.handle n d)
  | toServer (i : ι) (place : Nat) (text : List Char) (hm : (f.source i, text) ∈ n.toServers) :
      Steps f n (.toServer i place) (f.receive n i f.proxyAddr text)
  | foreign (i : ι) (sender : Addr) (text : List Char) (hne : sender ≠ f.proxyAddr) :
      Steps f n (.foreign i sender text) (f.receive n i sender text)
  | expiry : Steps f n .expiry { n with table := checkHeartbeatExpiry n.now n.table }
  | elapse (k : Nat) : Steps f n (.elapse k) { n with now := n.now + k }
  | restartProxy : Steps f n .restartProxy { n with table := parseAddrPairs parser f.raw }
  | restartServer (i : ι) (authDone : Nat → Bool) : Steps f n (.restartServer i authDone)
      { n with lbs := Function.update n.lbs i ((f.daemon i).start (f.lbAddrs i) authDone) }

theorem step_steps (f : Fleet ι Addr parser) (n : Net ι Addr) (e : NetEvent ι Addr) : Steps f n e (f.step n e) := by
  cases e with
  | send i place =>
    simp only [step]
    split
    next lb _ =>
      split
      · exact .send i place lb
      · exact .nothing _
    next => exact .nothing _
  | toProxy place =>
    simp only [step]
    split
    next d hd => exact .toProxy place d (List.mem_of_getElem? hd)
    next => exact .nothing _
  | toServer i place =>
    simp only [step]
    split
    next addr text hm =>
      split
      next haddr =>
        subst haddr
        exact .toServer i place text (List.mem_of_getElem? hm)
      next => exact .nothing _
    next => exact .nothing _
  | foreign i sender text =>
    simp only [step]
    split
    next => exact .nothing _
    next hne => exact .foreign i sender text hne
  | expiry => exact .expiry
  | elapse k => exact .elapse k
  | restartProxy => exact .restartProxy
  | restartServer i authDone => exact .restartServer i authDone

theorem Sound.receive (h : f.Sound n) (i : ι) (sender : Addr) (text : List Char) :
    f.Sound (f.receive n i sender text) where
  addrs := h.addrs
  identified := h.identified
  flight := h.flight
  lbs j := by
    by_cases hj : j = i
    · subst hj
      simp only [Fleet.receive, Function.update_self]
      exact (map_addr_receive _).trans (h.lbs j)
    · simp only [Fleet.receive, Function.update_of_ne hj]
      exact h.lbs j

theorem Sound.step (h : f.Sound n) (hstep : Steps f n e n') : f.Sound n' := by
  cases hstep with
  | nothing => exact h
  | send i place lb =>
    refine ⟨h.addrs, h.identified, fun d hd => ?_, h.lbs⟩
    rcases List.mem_append.mp hd with hd | hd
    · exact h.flight d hd
    · cases List.mem_singleton.mp hd
      exact ⟨i, rfl, message_cases lb i⟩
  | toProxy place d hd =>
    obtain ⟨j, hj, htext⟩ := h.flight d hd
    obtain ⟨text, sender⟩ := d
    subst hj
    have hlistened := h.listened htext
    exact ⟨hlistened.addrs, hlistened.identified, h.flight, h.lbs⟩
  | toServer i place text => exact h.receive i f.proxyAddr text
  | foreign i sender text => exact h.receive i sender text
  | expiry => exact h.expiry n.now
  | elapse k => exact ⟨h.addrs, h.identified, h.flight, h.lbs⟩
  | restartProxy =>
    refine ⟨rfl, fun p s hs a ha => ?_, h.flight, h.lbs⟩
    rw [(parseAddrPairs_new (List.mem_of_getElem? hs)).1] at ha
    cases ha
  | restartServer i authDone =>
    refine ⟨h.addrs, h.identified, h.flight, fun j => ?_⟩
    by_cases hj : j = i
    · subst hj
      simp only [Function.update_self]
      exact map_addr_start _ _ _
    · simp only [Function.update_of_ne hj]
      exact h.lbs j

/-- Whatever was lost, late, twice or forgotten. -/
theorem Sound.exec (h : f.Sound n) (es : List (NetEvent ι Addr)) : f.Sound (Run.exec f.step n es) :=
  (Run.along_true es).invariant (fun n e hn _ => hn.step (step_steps f n e)) h

/-! ## Between the rounds of a server -/

/-- Nothing from server `i`, nor to it, is in flight. -/
structure Quiet (f : Fleet ι Addr parser) (n : Net ι Addr) (i : ι) : Prop extends f.Sound n where
  fromServer : ∀ d ∈ n.toProxy, d.sender ≠ f.source i
  toServer : ∀ m ∈ n.toServers, m.1 ≠ f.source i

/-- Server `i` sends `OK`. -/
def SendsOk (f : Fleet ι Addr parser) (n : Net ι Addr) (i : ι) : Prop := ∃ lb ∈ f.current n i, lb.authDone = true

omit [DecidableEq ι] in
theorem Sound.dropAll (h : f.Sound n) (i : ι) : f.Quiet (dropAll n) i where
  addrs := h.addrs
  identified := h.identified
  flight d hd := by cases hd
  lbs := h.lbs
  fromServer d hd := by cases hd
  toServer m hm := by cases hm

theorem Quiet.step (h : f.Quiet n i) (he : Between i e) (hstep : Steps f n e n') : f.Quiet n' i := by
  refine { h.toSound.step hstep with fromServer := ?_, toServer := ?_ }
  · cases hstep with
    | send j place lb =>
      intro d hd
      rcases List.mem_append.mp hd with hd | hd
      · exact h.fromServer d hd
      · cases List.mem_singleton.mp hd
        exact fun heq => he (f.source_inj heq)
    | restartProxy => exact he.elim
    | _ => exact h.fromServer
  · cases hstep with
    | toProxy place d hd =>
      intro m hm
      rcases List.mem_append.mp hm with hm | hm
      · exact h.toServer m hm
      · obtain ⟨text, -, rfl⟩ := Option.map_eq_some_iff.mp (Option.mem_toList.mp hm)
        exact h.fromServer d hd
    | restartProxy => exact he.elim
    | _ => exact h.toServer

theorem current_receive {sender : Addr} (text : List Char) (hj : j = i → sender ≠ f.proxyAddr) :
    f.current (f.receive n j sender text) i = f.current n i := by
  by_cases hji : j = i
  · subst hji
    simp only [current, Fleet.receive, Function.update_self]
    exact find?_receive_other _ (hj rfl)
  · simp only [current, Fleet.receive, Function.update_of_ne (Ne.symm hji)]

/-- What happens between its rounds leaves what server `i` sends alone. -/
theorem Quiet.current_step (h : f.Quiet n i) (he : Between i e) (hstep : Steps f n e n') :
    f.current n' i = f.current n i := by
  cases hstep with
  | nothing | send | toProxy | expiry | elapse => rfl
  | toServer j place text hm =>
    refine current_receive text fun hji => ?_
    subst hji
    exact absurd rfl (h.toServer _ hm)
  | foreign j sender text hne => exact current_receive text fun _ => hne
  | restartProxy => exact he.elim
  | restartServer j authDone =>
    have hij : i ≠ j := fun hij => he hij.symm
    simp only [current, Function.update_of_ne hij]

/-- And its identification. -/
theorem Quiet.identified_step (h : f.Quiet n i) (he : Between i e) (hstep : Steps f n e n')
    (hid : f.Identified n i) : f.Identified n' i := by
  cases hstep with
  | nothing | send | toServer | foreign | elapse | restartServer => exact hid
  | toProxy place d hd =>
    obtain ⟨j, hj, htext⟩ := h.flight d hd
    have hji : j ≠ i := fun hji => h.fromServer d hd (hji ▸ hj)
    obtain ⟨text, sender⟩ := d
    subst hj
    exact h.toSound.listened_identified htext hji hid
  | expiry =>
    obtain ⟨p, s, hp, hs, hids⟩ := hid
    refine ⟨p, s.expire n.now, hp, ?_, by rwa [expire_addrIdentifier]⟩
    simp only [checkHeartbeatExpiry, List.getElem?_map, hs, Option.map_some]
  | restartProxy => exact he.elim

/-- Any number of such steps. -/
theorem Quiet.between (h : f.Quiet n i) {es : List (NetEvent ι Addr)} (hes : ∀ e ∈ es, Between i e) :
    f.Quiet (Run.exec f.step n es) i ∧ f.current (Run.exec f.step n es) i = f.current n i ∧
      (f.Identified n i → f.Identified (Run.exec f.step n es) i) := by
  induction es generalizing n with
  | nil => exact ⟨h, rfl, id⟩
  | cons e es ih =>
    have he := hes e List.mem_cons_self
    have hstep := step_steps f n e
    obtain ⟨hquiet, hcurrent, hid⟩ := ih (h.step he hstep) fun e' he' => hes e' (List.mem_cons_of_mem _ he')
    exact ⟨hquiet, hcurrent.trans (h.current_step he hstep), fun hn => hid (h.identified_step he hstep hn)⟩

/-! ## The rounds -/

/-- What the proxy makes of the message of a round. -/
def heard (f : Fleet ι Addr parser) (n : Net ι Addr) (i : ι) (text : List Char) :
    List (Server Addr) × Option (List Char) :=
  listen parser f.mode.identify n.now n.table ⟨text, f.source i⟩

theorem round_eq {lb : LoadBalancer Addr} (hlb : f.current n i = some lb) {table : List (Server Addr)}
    {reply : Option (List Char)} (hheard : f.heard n i (lb.message (f.tcp i) (f.udp i)) = (table, reply)) :
    f.round i n = match reply with
      | some text => f.receive { n with table } i f.proxyAddr text
      | none => { n with table } := by
  unfold heard at hheard
  simp only [round, hlb, hheard]
  cases reply <;> rfl

omit [DecidableEq ι] in
/-- Every server reports to the proxy. -/
theorem Sound.exists_current (h : f.Sound n) (i : ι) : ∃ lb, f.current n i = some lb := by
  have hmem := f.reports i
  rw [← h.lbs i] at hmem
  obtain ⟨lb, hlb, haddr⟩ := List.mem_map.mp hmem
  refine Option.isSome_iff_exists.mp ?_
  rw [current, List.find?_isSome]
  exact ⟨lb, hlb, decide_eq_true haddr⟩

theorem current_received (text : List Char) :
    f.current (f.receive n i f.proxyAddr text) i = (f.current n i).map (LoadBalancer.answer text) := by
  simp only [current, Fleet.receive, Function.update_self]
  exact find?_receive _

/-- A server that announces itself is identified, and told so. -/
theorem Sound.round_announces (h : f.Sound n) (hn : ¬f.SendsOk n i) :
    f.SendsOk (f.round i n) i ∧ f.Identified (f.round i n) i := by
  obtain ⟨lb, hlb⟩ := h.exists_current i
  have hdone : lb.authDone ≠ true := fun hdone => hn ⟨lb, hlb, hdone⟩
  obtain ⟨p, hp⟩ := f.exists_place i
  obtain ⟨s, hs⟩ := h.entry hp
  have hheard : f.heard n i (lb.message (f.tcp i) (f.udp i)) =
      (n.table.modify p (f.mode.identify (f.source i)), some okText) := by
    rw [LoadBalancer.message, if_neg hdone, heard, listen_announcement (f.parse_tcp i) (f.parse_udp i), h.place_eq, hp]
  rw [round_eq hlb hheard]
  constructor
  · refine ⟨{ lb with authDone := true }, ?_, rfl⟩
    rw [current_received]
    exact Option.map_eq_some_iff.mpr ⟨lb, hlb, if_pos rfl⟩
  · refine ⟨p, f.mode.identify (f.source i) s, hp, ?_, identify_addrIdentifier _ _ _⟩
    simp only [Fleet.receive, List.getElem?_modify_eq, hs]
    rfl

/-- A server that sends `OK` and is not identified is asked to announce itself. -/
theorem Sound.round_unknown (h : f.Sound n) (hn : f.SendsOk n i) (hid : ¬f.Identified n i) :
    ¬f.SendsOk (f.round i n) i := by
  obtain ⟨lb, hlb, hdone⟩ := hn
  have hunknown : identifiedBy n.table (f.source i) = none :=
    Option.eq_none_iff_forall_ne_some.mpr fun p hp => hid (h.identified_iff_identifiedBy.mpr ⟨p, hp⟩)
  have hheard : f.heard n i (lb.message (f.tcp i) (f.udp i)) = (n.table, some authText) := by
    rw [LoadBalancer.message, if_pos hdone, heard, listen_okText, hunknown]
  rw [round_eq hlb hheard]
  rintro ⟨lb', hlb', hdone'⟩
  rw [current_received] at hlb'
  obtain ⟨lb'', -, rfl⟩ := Option.map_eq_some_iff.mp hlb'
  have hne : authText ≠ okText := by decide
  rw [LoadBalancer.answer, if_neg hne, if_pos rfl] at hdone'
  exact Bool.false_ne_true hdone'

/-- The `OK` of an identified server is its heartbeat, and is not answered. -/
theorem Sound.round_ok (h : f.Sound n) (hn : f.SendsOk n i) (hid : f.Identified n i) :
    f.Registered (f.round i n) i := by
  obtain ⟨lb, hlb, hdone⟩ := hn
  obtain ⟨p, hp⟩ := h.identified_iff_identifiedBy.mp hid
  obtain ⟨s, hs, hids⟩ := identifiedBy_eq_some hp
  have hheard : f.heard n i (lb.message (f.tcp i) (f.udp i)) = (n.table.modify p (Server.beat n.now), none) := by
    rw [LoadBalancer.message, if_pos hdone, heard, listen_okText, hp]
  rw [round_eq hlb hheard]
  have hplace := h.identifiedBy_place hp
  refine ⟨⟨lb, hlb, hdone⟩, p, s.beat n.now, ?_, ?_, hids, rfl, rfl⟩
  · exact ((h.beat p n.now).place_eq i).trans hplace
  · simp only [List.getElem?_modify_eq, hs]
    rfl

theorem Quiet.round (h : f.Quiet n i) : f.Quiet (f.round i n) i := by
  obtain ⟨lb, hlb⟩ := h.exists_current i
  have hlistened := h.toSound.listened (message_cases lb i)
  cases hheard : f.heard n i (lb.message (f.tcp i) (f.udp i)) with
  | mk table reply =>
    have htable : f.Sound { n with table } := by
      unfold heard at hheard
      rwa [hheard] at hlistened
    rw [round_eq hlb hheard]
    cases reply with
    | none => exact { htable with fromServer := h.fromServer, toServer := h.toServer }
    | some text => exact { htable.receive i f.proxyAddr text with fromServer := h.fromServer, toServer := h.toServer }

/-- The server sends `OK` and the proxy has identified it. -/
structure Agreed (f : Fleet ι Addr parser) (n : Net ι Addr) (i : ι) : Prop where
  sendsOk : f.SendsOk n i
  identified : f.Identified n i

omit [DecidableEq ι] in
theorem Registered.agreed (h : f.Sound n) (hr : f.Registered n i) : f.Agreed n i := by
  obtain ⟨hok, p, s, hp, hs, hids, -, -⟩ := hr
  exact ⟨hok, p, s, (h.place_eq i).symm.trans hp, hs, hids⟩

/-- After any round the two agree, or the server announces itself next. -/
theorem Quiet.round_settles (h : f.Quiet n i) : f.Agreed (f.round i n) i ∨ ¬f.SendsOk (f.round i n) i := by
  by_cases hok : f.SendsOk n i
  · by_cases hid : f.Identified n i
    · exact .inl (Registered.agreed h.round.toSound (h.round_ok hok hid))
    · exact .inr (h.round_unknown hok hid)
  · obtain ⟨hok', hid'⟩ := h.round_announces hok
    exact .inl ⟨hok', hid'⟩

/-- From there, one round makes them agree. -/
theorem Quiet.round_agreed (h : f.Quiet n i) (hn : f.Agreed n i ∨ ¬f.SendsOk n i) : f.Agreed (f.round i n) i := by
  rcases hn with hn | hn
  · exact Registered.agreed h.round.toSound (h.round_ok hn.sendsOk hn.identified)
  · obtain ⟨hok', hid'⟩ := h.round_announces hn
    exact ⟨hok', hid'⟩

variable {es : List (NetEvent ι Addr)}

theorem Quiet.sendsOk_between (h : f.Quiet n i) (hes : ∀ e ∈ es, Between i e) :
    f.SendsOk (Run.exec f.step n es) i ↔ f.SendsOk n i := by
  rw [SendsOk, SendsOk, (h.between hes).2.1]

theorem Quiet.agreed_between (h : f.Quiet n i) (hes : ∀ e ∈ es, Between i e) (hn : f.Agreed n i) :
    f.Agreed (Run.exec f.step n es) i :=
  ⟨(h.sendsOk_between hes).mpr hn.sendsOk, (h.between hes).2.2 hn.identified⟩

/-- A round without loss, after what happens before it. -/
def nextRound (f : Fleet ι Addr parser) (i : ι) (n : Net ι Addr) (before : List (NetEvent ι Addr)) : Net ι Addr :=
  f.round i (Run.exec f.step n before)

/-- **Three rounds register a server.** From every network that loss, delay,
duplication, reordering and restarts lead to, whatever the daemons held when
they started, once the datagrams in flight are gone three rounds without loss
of a server leave it sending `OK`, and its entry in the proxy's table
identified with its address, up, and with the last round as its heartbeat;
whatever the other servers, the sweep and the clock do between the rounds. -/
theorem registered_after_three_rounds (f : Fleet ι Addr parser) (authDone : ι → Nat → Bool) (now : Nat)
    (es : List (NetEvent ι Addr)) (i : ι) (before₁ before₂ before₃ : List (NetEvent ι Addr))
    (h₁ : ∀ e ∈ before₁, Between i e) (h₂ : ∀ e ∈ before₂, Between i e) (h₃ : ∀ e ∈ before₃, Between i e) :
    f.Registered (f.nextRound i (f.nextRound i (f.nextRound i
      (dropAll (Run.exec f.step (f.start authDone now) es)) before₁) before₂) before₃) i := by
  have hstart : f.Quiet (dropAll (Run.exec f.step (f.start authDone now) es)) i :=
    ((start_sound authDone now).exec es).dropAll i
  -- each round is entered in a quiet network
  have hquiet₁ := (hstart.between h₁).1
  have hquiet₂ := (hquiet₁.round.between h₂).1
  have hquiet₃ := (hquiet₂.round.between h₃).1
  -- the first finds anything, the second an agreement or an announcement
  have hsecond : f.Agreed (f.round i _) i := hquiet₂.round_agreed <| by
    rcases hquiet₁.round_settles with hagreed | hsilent
    · exact .inl (hquiet₁.round.agreed_between h₂ hagreed)
    · exact .inr (mt (hquiet₁.round.sendsOk_between h₂).mp hsilent)
  have hthird := hquiet₂.round.agreed_between h₃ hsecond
  exact hquiet₃.round_ok hthird.sendsOk hthird.identified

/-- Two data servers, which report to the logic-to-data proxy only. -/
def twoDataServers : Fleet Bool SocketAddr SocketAddr.parser where
  mode := .ld
  proxyAddr := .loopback 5001
  raw := ["127.0.0.1:7000 127.0.0.1:7001".toList, "127.0.0.1:7002 127.0.0.1:7003".toList]
  source i := bif i then .loopback 7001 else .loopback 7003
  tcp i := bif i then "127.0.0.1:7000".toList else "127.0.0.1:7002".toList
  udp i := bif i then "127.0.0.1:7001".toList else "127.0.0.1:7003".toList
  tcpAddr i := bif i then .loopback 7000 else .loopback 7002
  udpAddr i := bif i then .loopback 7001 else .loopback 7003
  daemon _ := .udpDaemon
  lbAddrs _ := [.loopback 5001]
  source_inj := by unfold Function.Injective; decide
  parse_tcp := by decide
  parse_udp := by decide
  pair_inj := by decide
  configured := by decide
  reports := by decide

/-- The first server believes that the proxy knows it; the other reports between
its rounds. -/
theorem twoDataServers_registered :
    twoDataServers.Registered
      (twoDataServers.nextRound true (twoDataServers.nextRound true (twoDataServers.nextRound true
        (dropAll (Run.exec twoDataServers.step (twoDataServers.start (fun _ _ => true) 0)
          [.send true 0, .send false 0, .toProxy 0, .restartProxy]))
        [.send false 0, .toProxy 0, .elapse 1]) [.expiry]) [.foreign true (.loopback 9000) okText]) true :=
  registered_after_three_rounds twoDataServers (fun _ _ => true) 0
    [.send true 0, .send false 0, .toProxy 0, .restartProxy] true [.send false 0, .toProxy 0, .elapse 1] [.expiry]
    [.foreign true (.loopback 9000) okText] (by simp [Between]) (by simp [Between]) (by simp [Between])

end Fleet

end FinalServer
