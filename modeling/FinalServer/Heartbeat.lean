/-
The tables of servers of the two reverse proxies (`proxy.rs`).

Both proxies keep a table of configured servers. A listener takes the
datagrams of the servers: an announcement of a configured pair of addresses
identifies its sender, and an `OK` of an identified sender is a heartbeat.
The two listeners differ in what an announcement changes. A sweep marks
servers down, and a connection goes to one of those that are up.
-/
import FinalServer.Run
import FinalServer.SocketAddr
import Mathlib.Data.List.Defs

namespace FinalServer

/-- An entry of a table. Instants are in nanoseconds. -/
structure Server (Addr : Type*) where
  addrIdentifier : Option Addr
  udpAddr : Addr
  tcpAddr : Addr
  lastHeartbeat : Option Nat
  isUp : Bool

/-- What a listener receives: the text of at most 128 bytes, and the sender. -/
structure Datagram (Addr : Type*) where
  text : List Char
  sender : Addr

def TIMEOUT : Nat := 2

/-- `Duration::from_secs`. -/
def fromSecs (n : Nat) : Nat := n * 1000000000

variable {Addr : Type*} (parser : AddrParser Addr)

/-- A line of the configuration: the TCP address of a server, and its UDP address. -/
def parseAddrPair (line : List Char) : Option (Server Addr) :=
  match splitWhitespace line with
  | tcp :: udp :: _ => do
    let tcpAddr ← parser.parse tcp
    let udpAddr ← parser.parse udp
    return { addrIdentifier := none, tcpAddr, udpAddr, lastHeartbeat := none, isUp := false }
  | _ => none

/-- `parse_addr_pairs`: lines that are no pair are left out. -/
def parseAddrPairs (raw : List (List Char)) : List (Server Addr) := raw.filterMap (parseAddrPair parser)

variable [DecidableEq Addr]

/-! ## The listeners -/

def okText : List Char := "OK".toList

def authText : List Char := "AUTH".toList

/-- The place of the first server identified by this address. -/
def identifiedBy (servers : List (Server Addr)) (sender : Addr) : Option Nat :=
  servers.findIdx? fun s => s.addrIdentifier = some sender

/-- The server an `OK` counts for, if the datagram is one. -/
def creditedTo (servers : List (Server Addr)) (d : Datagram Addr) : Option Nat :=
  if trim d.text = okText then identifiedBy servers d.sender else none

/-- The place of the first server with this pair of addresses. -/
def configuredAs (servers : List (Server Addr)) (tcpAddr udpAddr : Addr) : Option Nat :=
  servers.findIdx? fun s => s.udpAddr = udpAddr ∧ s.tcpAddr = tcpAddr

/-- A heartbeat. -/
def Server.beat (now : Nat) (s : Server Addr) : Server Addr := { s with lastHeartbeat := some now, isUp := true }

/-- One turn of `listen_for_heartbeats`, with the reply to the sender; what an
announcement changes is `identify`. -/
def listen (identify : Addr → Server Addr → Server Addr) (now : Nat) (servers : List (Server Addr))
    (d : Datagram Addr) : List (Server Addr) × Option (List Char) :=
  let message := trim d.text
  if message = okText then
    match identifiedBy servers d.sender with
    | some i => (servers.modify i (Server.beat now), none)
    | none => (servers, some authText)
  else if ' ' ∈ message then
    match splitWhitespace message with
    | [tcp, udp] =>
      match parser.parse tcp, parser.parse udp with
      | some tcpAddr, some udpAddr =>
        match configuredAs servers tcpAddr udpAddr with
        | some i => (servers.modify i (identify d.sender), some okText)
        | none => (servers, none)
      | _, _ => (servers, none)
    | _ => (servers, none)
  else (servers, none)

/-- What identification changes in the client-to-logic proxy: the server is up. -/
def ReverseProxyFl.identify (sender : Addr) (s : Server Addr) : Server Addr :=
  { s with addrIdentifier := some sender, isUp := true }

/-- What identification changes in the logic-to-data proxy. -/
def ReverseProxyLd.identify (sender : Addr) (s : Server Addr) : Server Addr := { s with addrIdentifier := some sender }

def ReverseProxyFl.listenForHeartbeats : Nat → List (Server Addr) → Datagram Addr →
    List (Server Addr) × Option (List Char) :=
  listen parser ReverseProxyFl.identify

def ReverseProxyLd.listenForHeartbeats : Nat → List (Server Addr) → Datagram Addr →
    List (Server Addr) × Option (List Char) :=
  listen parser ReverseProxyLd.identify

/-- The two proxies. -/
inductive Mode
  | fl
  | ld

def Mode.identify : Mode → Addr → Server Addr → Server Addr
  | .fl => ReverseProxyFl.identify
  | .ld => ReverseProxyLd.identify

omit [DecidableEq Addr]

/-! ## The sweep and the choice of a server -/

/-- A server with a heartbeat longer ago than the timeout is down. -/
def Server.expire (now : Nat) (s : Server Addr) : Server Addr :=
  match s.lastHeartbeat with
  | some last => if fromSecs TIMEOUT < now - last then { s with isUp := false } else s
  | none => s

/-- The loop of `check_heartbeat_expiry` over a table. -/
def checkHeartbeatExpiry (now : Nat) (servers : List (Server Addr)) : List (Server Addr) :=
  servers.map (Server.expire now)

/-- The servers that are up. -/
def available (servers : List (Server Addr)) : List (Server Addr) := servers.filter (·.isUp)

/-- Where an `AtomicUsize` wraps: `2 ^ 64`. -/
def USIZE : Nat := 18446744073709551616

/-- The place among the available servers that `next_index` selects, and the
counter after that. -/
def nextPlace (servers : List (Server Addr)) (nextIndex : Nat) : Option Nat × Nat :=
  if available servers = [] then (none, nextIndex)
  else (some (nextIndex % (available servers).length), (nextIndex + 1) % USIZE)

/-- `get_available_backend` and `get_available_frontend` on their tables. -/
def getAvailable (servers : List (Server Addr)) (nextIndex : Nat) : Option Addr × Nat :=
  let (place, nextIndex) := nextPlace servers nextIndex
  (place.bind fun i => (available servers)[i]?.map (·.tcpAddr), nextIndex)

/-! ## What they do to a server -/

section Step

variable {parser} {servers : List (Server Addr)} {s : Server Addr}

theorem mem_modify {i : Nat} {f : Server Addr → Server Addr} (h : s ∈ servers.modify i f) :
    s ∈ servers ∨ ∃ s', servers[i]? = some s' ∧ s = f s' := by
  obtain ⟨j, hj⟩ := List.mem_iff_getElem?.mp h
  by_cases hij : i = j
  · subst hij
    rw [List.getElem?_modify_eq] at hj
    obtain ⟨s', hs', rfl⟩ := Option.map_eq_some_iff.mp hj
    exact .inr ⟨s', hs', rfl⟩
  · rw [List.getElem?_modify_ne _ _ hij] at hj
    exact .inl (List.mem_of_getElem? hj)

theorem map_modify {α β : Type*} {g : α → α} {h : α → β} {l : List α} {i : Nat} (hg : ∀ a, h (g a) = h a) :
    (l.modify i g).map h = l.map h := by
  induction l generalizing i with
  | nil => cases i <;> rfl
  | cons a l ih =>
    cases i with
    | zero => simp [hg]
    | succ i => rw [List.modify_succ_cons, List.map_cons, List.map_cons, ih]

/-- A configured server is not identified, has no heartbeat and is down. -/
theorem parseAddrPairs_new {parser : AddrParser Addr} {raw : List (List Char)} (hs : s ∈ parseAddrPairs parser raw) :
    s.addrIdentifier = none ∧ s.lastHeartbeat = none ∧ s.isUp = false := by
  obtain ⟨line, -, hline⟩ := List.mem_filterMap.mp hs
  unfold parseAddrPair at hline
  split at hline
  next =>
    simp only [bind, Option.bind_eq_some_iff] at hline
    obtain ⟨_, -, _, -, heq⟩ := hline
    cases heq
    exact ⟨rfl, rfl, rfl⟩
  next => cases hline

theorem getAvailable_mem {nextIndex : Nat} {a : Addr} (h : (getAvailable servers nextIndex).1 = some a) :
    ∃ s ∈ servers, s.isUp = true ∧ s.tcpAddr = a := by
  obtain ⟨i, -, hi⟩ := Option.bind_eq_some_iff.mp h
  obtain ⟨s, hs, ha⟩ := Option.map_eq_some_iff.mp hi
  obtain ⟨hmem, hup⟩ := List.mem_filter.mp (List.mem_of_getElem? hs)
  exact ⟨s, hmem, hup, ha⟩

@[simp] theorem expire_addrIdentifier (now : Nat) : (s.expire now).addrIdentifier = s.addrIdentifier := by
  unfold Server.expire
  split
  · split <;> rfl
  · rfl

@[simp] theorem expire_lastHeartbeat (now : Nat) : (s.expire now).lastHeartbeat = s.lastHeartbeat := by
  unfold Server.expire
  split
  · split <;> rfl
  · rfl

@[simp] theorem expire_addrs (now : Nat) : (s.expire now).tcpAddr = s.tcpAddr ∧ (s.expire now).udpAddr = s.udpAddr := by
  unfold Server.expire
  split
  · split <;> exact ⟨rfl, rfl⟩
  · exact ⟨rfl, rfl⟩

/-- A sweep leaves a server up if its heartbeat, when it had one, is recent. -/
theorem expire_isUp {now : Nat} :
    (s.expire now).isUp = true ↔ s.isUp = true ∧ ∀ last ∈ s.lastHeartbeat, now ≤ last + fromSecs TIMEOUT := by
  unfold Server.expire
  cases hlast : s.lastHeartbeat with
  | none => simp
  | some last =>
    simp only [Option.mem_def, Option.some.injEq, forall_eq']
    split
    next h =>
      refine iff_of_false Bool.false_ne_true fun h' => ?_
      have := h'.2
      omega
    next h => exact ⟨fun hup => ⟨hup, by omega⟩, fun h' => h'.1⟩

variable [DecidableEq Addr] {identify : Addr → Server Addr → Server Addr} {now : Nat} {d : Datagram Addr}

theorem identifiedBy_eq_some {sender : Addr} {i : Nat} (h : identifiedBy servers sender = some i) :
    ∃ s, servers[i]? = some s ∧ s.addrIdentifier = some sender := by
  obtain ⟨hi, hs, -⟩ := List.findIdx?_eq_some_iff_getElem.mp h
  exact ⟨servers[i], List.getElem?_eq_getElem hi, of_decide_eq_true hs⟩

theorem listen_okText {sender : Addr} : listen parser identify now servers ⟨okText, sender⟩ =
    match identifiedBy servers sender with
    | some i => (servers.modify i (Server.beat now), none)
    | none => (servers, some authText) := by
  have hok : trim okText = okText := by decide
  simp only [listen]
  rw [if_pos hok]

/-- What a datagram does: nothing, or a heartbeat of the server it counts for,
or the identification of a configured server. -/
inductive Listens (identify : Addr → Server Addr → Server Addr) (now : Nat) (servers : List (Server Addr))
    (d : Datagram Addr) : List (Server Addr) → Prop
  | nothing (h : creditedTo servers d = none) : Listens identify now servers d servers
  | beat (i : Nat) (h : creditedTo servers d = some i) :
      Listens identify now servers d (servers.modify i (Server.beat now))
  | identify (i : Nat) (h : creditedTo servers d = none) :
      Listens identify now servers d (servers.modify i (identify d.sender))

theorem listen_listens (parser : AddrParser Addr) (identify : Addr → Server Addr → Server Addr) (now : Nat)
    (servers : List (Server Addr)) (d : Datagram Addr) :
    Listens identify now servers d (listen parser identify now servers d).1 := by
  unfold listen
  by_cases hok : trim d.text = okText
  · have hcredit : creditedTo servers d = identifiedBy servers d.sender := if_pos hok
    simp only [if_pos hok]
    split
    next i hi => exact .beat i (hcredit.trans hi)
    next hnone => exact .nothing (hcredit.trans hnone)
  · have hcredit : creditedTo servers d = none := if_neg hok
    simp only [if_neg hok]
    split
    · split
      · split
        · split
          next i _ => exact .identify i hcredit
          next => exact .nothing hcredit
        · exact .nothing hcredit
      · exact .nothing hcredit
    · exact .nothing hcredit

theorem creditedTo_eq_some {i : Nat} (h : creditedTo servers d = some i) :
    ∃ s, servers[i]? = some s ∧ s.addrIdentifier = some d.sender := by
  unfold creditedTo at h
  split at h
  · exact identifiedBy_eq_some h
  · cases h

theorem configuredAs_eq_some {tcpAddr udpAddr : Addr} {i : Nat} (h : configuredAs servers tcpAddr udpAddr = some i) :
    ∃ s, servers[i]? = some s ∧ s.tcpAddr = tcpAddr ∧ s.udpAddr = udpAddr := by
  obtain ⟨hi, hs, -⟩ := List.findIdx?_eq_some_iff_getElem.mp h
  have hs := of_decide_eq_true hs
  exact ⟨servers[i], List.getElem?_eq_getElem hi, hs.2, hs.1⟩

end Step

end FinalServer
