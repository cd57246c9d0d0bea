/-
Who is identified by which address, in both proxies (`proxy.rs`).

An announcement sets the identifier of the entry it names and looks at no
other. So an address that announces two configured pairs identifies two
entries, and its heartbeats count for the first in the table. While every
address announces one pair only, no two entries share an identifier and an
`OK` refreshes the server that announced itself (`identified_iff`).
-/
import FinalServer.ReverseProxyFl
import FinalServer.ReverseProxyLd

namespace FinalServer

/-! ## The latest of many announcements -/

/-- Server `i` announced itself from `a`, and since then neither has it announced
itself again nor has another from `a`. -/
def LastAnnounced {α : Type*} (announcements : List (Nat × α)) (i : Nat) (a : α) : Prop :=
  ∃ before after, announcements = before ++ (i, a) :: after ∧ ∀ p ∈ after, p.1 ≠ i ∧ p.2 ≠ a

section LastAnnounced

variable {α : Type*} {announcements : List (Nat × α)} {i j : Nat} {a b : α}

theorem lastAnnounced_nil : ¬ LastAnnounced [] i a := by
  rintro ⟨before, after, h, -⟩
  simp at h

theorem lastAnnounced_concat : LastAnnounced (announcements ++ [(j, b)]) i a ↔
    i = j ∧ a = b ∨ i ≠ j ∧ a ≠ b ∧ LastAnnounced announcements i a := by
  constructor
  · rintro ⟨before, after, h, hafter⟩
    rcases List.eq_nil_or_concat after with rfl | ⟨after, p, rfl⟩
    · obtain ⟨-, heq⟩ := List.append_inj' h rfl
      cases heq
      exact .inl ⟨rfl, rfl⟩
    · rw [List.concat_eq_append, ← List.cons_append, ← List.append_assoc] at h
      obtain ⟨rfl, heq⟩ := List.append_inj' h rfl
      cases heq
      have hlast := hafter (j, b) (by simp)
      refine .inr ⟨Ne.symm hlast.1, Ne.symm hlast.2, before, after, rfl, fun p hp => hafter p ?_⟩
      simp [hp]
  · rintro (⟨rfl, rfl⟩ | ⟨hi, ha, before, after, rfl, hafter⟩)
    · exact ⟨announcements, [], rfl, by simp⟩
    · refine ⟨before, after ++ [(j, b)], by simp, fun p hp => ?_⟩
      rcases List.mem_append.mp hp with hp | hp
      · exact hafter p hp
      · rw [List.mem_singleton.mp hp]
        exact ⟨Ne.symm hi, Ne.symm ha⟩

end LastAnnounced

/-! ## One table -/

section Table

variable {Addr : Type*}

/-- Server `i` is identified by `a`. -/
def Identifies (servers : List (Server Addr)) (i : Nat) (a : Addr) : Prop :=
  (servers.map (·.addrIdentifier))[i]? = some (some a)

/-- No two entries have the same `addr_identifier`. -/
def DistinctIdentifiers (servers : List (Server Addr)) : Prop :=
  ∀ i j a, Identifies servers i a → Identifies servers j a → i = j

/-- An announcement of server `p.1` from `p.2` finds no other server identified by that address. -/
def NewIdentifier (servers : List (Server Addr)) (p : Nat × Addr) : Prop :=
  ∀ j, Identifies servers j p.2 → j = p.1

/-- The table after these announcements: no two entries share an identifier, and
an `OK` is a heartbeat of the server that last announced itself from its sender,
and of no other. -/
structure Identified [DecidableEq Addr] (parser : AddrParser Addr) (identify : Addr → Server Addr → Server Addr)
    (now : Nat) (announcements : List (Nat × Addr)) (servers : List (Server Addr)) : Prop where
  distinct : DistinctIdentifiers servers
  refreshed : ∀ d : Datagram Addr, trim d.text = okText → ∀ i,
    (LastAnnounced announcements i d.sender →
      (listen parser identify now servers d).1[i]? = servers[i]?.map (Server.beat now)) ∧
    (¬ LastAnnounced announcements i d.sender → (listen parser identify now servers d).1[i]? = servers[i]?)

/-- The server a datagram announces, with the sender. -/
def announcedBy [DecidableEq Addr] (parser : AddrParser Addr) (servers : List (Server Addr)) (d : Datagram Addr) :
    Option (Nat × Addr) :=
  let message := trim d.text
  if message = okText then none
  else if ' ' ∈ message then
    match splitWhitespace message with
    | [tcp, udp] =>
      match parser.parse tcp, parser.parse udp with
      | some tcpAddr, some udpAddr => (configuredAs servers tcpAddr udpAddr).map (·, d.sender)
      | _, _ => none
    | _ => none
  else none

/-- What a step does to the identifiers of a table: nothing, or what one announcement does. -/
def Announces (announced : Option (Nat × Addr)) (servers servers' : List (Server Addr)) : Prop :=
  match announced with
  | some (i, a) => ∀ j b, Identifies servers' j b ↔ if j = i then b = a else Identifies servers j b
  | none => ∀ j b, Identifies servers' j b ↔ Identifies servers j b

variable {servers servers' : List (Server Addr)} {i : Nat} {a : Addr}

theorem identifies_iff : Identifies servers i a ↔ ∃ s, servers[i]? = some s ∧ s.addrIdentifier = some a := by
  rw [Identifies, List.getElem?_map, Option.map_eq_some_iff]

theorem Announces.of_map (h : servers'.map (·.addrIdentifier) = servers.map (·.addrIdentifier)) :
    Announces none servers servers' := fun _ _ => by rw [Identifies, h, Identifies]

/-- An announcement keeps the identifiers distinct if no other server has its. -/
theorem Announces.distinct_iff {announced : Option (Nat × Addr)} (h : Announces announced servers servers')
    (hd : DistinctIdentifiers servers) :
    DistinctIdentifiers servers' ↔ ∀ p ∈ announced, NewIdentifier servers p := by
  cases announced with
  | none => simpa [DistinctIdentifiers, show ∀ j b, _ ↔ _ from h] using hd
  | some p =>
    obtain ⟨i, a⟩ := p
    have h : ∀ j b, Identifies servers' j b ↔ if j = i then b = a else Identifies servers j b := h
    simp only [Option.mem_def, Option.some.injEq, forall_eq', NewIdentifier]
    constructor
    · intro hd' j hj
      by_contra hne
      exact hne (hd' j i a ((h j a).mpr (by rwa [if_neg hne])) ((h i a).mpr (if_pos rfl ▸ rfl)))
    · intro hnew j k b hj hk
      rw [h] at hj hk
      split at hj
      next hji =>
        subst hji hj
        split at hk
        next hki => exact hki.symm
        next hki => exact absurd (hnew k hk) hki
      next hji =>
        split at hk
        next hki =>
          subst hki hk
          exact absurd (hnew j hj) hji
        next => exact hd j k b hj hk

/-- And then the identifiers remain the latest announcements. -/
theorem Announces.lastAnnounced {announced : Option (Nat × Addr)} {announcements : List (Nat × Addr)}
    (h : Announces announced servers servers') (hnew : ∀ p ∈ announced, NewIdentifier servers p)
    (hlast : ∀ j b, Identifies servers j b ↔ LastAnnounced announcements j b) (j : Nat) (b : Addr) :
    Identifies servers' j b ↔ LastAnnounced (announcements ++ announced.toList) j b := by
  cases announced with
  | none =>
    rw [Option.toList_none, List.append_nil, ← hlast]
    exact h j b
  | some p =>
    obtain ⟨i, a⟩ := p
    rw [Option.toList_some, lastAnnounced_concat, ← hlast, show Identifies servers' j b ↔ _ from h j b]
    split
    next hji => simp [hji]
    next hji =>
      have hb : Identifies servers j b → b ≠ a := fun hj hba => hji (hnew (i, a) rfl j (hba ▸ hj))
      simp only [hji, false_and, ne_eq, not_false_eq_true, true_and, false_or]
      exact ⟨fun hj => ⟨hb hj, hj⟩, And.right⟩

variable [DecidableEq Addr] {parser : AddrParser Addr} {identify : Addr → Server Addr → Server Addr} {now : Nat}
  {d : Datagram Addr}

/-- A datagram is a heartbeat, or an announcement, or changes nothing. -/
theorem listen_eq : (listen parser identify now servers d).1 =
    match creditedTo servers d, announcedBy parser servers d with
    | some i, _ => servers.modify i (Server.beat now)
    | none, some (i, a) => servers.modify i (identify a)
    | none, none => servers := by
  unfold listen announcedBy creditedTo
  by_cases hok : trim d.text = okText
  · simp only [if_pos hok]
    cases identifiedBy servers d.sender <;> rfl
  · simp only [if_neg hok]
    split
    · rcases splitWhitespace (trim d.text) with _ | ⟨tcp, _ | ⟨udp, _ | _⟩⟩ <;> try rfl
      dsimp only
      rcases parser.parse tcp with _ | tcpAddr <;> rcases parser.parse udp with _ | udpAddr <;> try rfl
      dsimp only
      cases configuredAs servers tcpAddr udpAddr <;> rfl
    · rfl

theorem announcedBy_eq_some {p : Nat × Addr} (h : announcedBy parser servers d = some p) :
    p.1 < servers.length ∧ creditedTo servers d = none := by
  unfold announcedBy at h
  by_cases hok : trim d.text = okText
  · simp only [if_pos hok] at h
    cases h
  · refine ⟨?_, if_neg hok⟩
    simp only [if_neg hok] at h
    split at h
    · split at h
      · split at h
        next =>
          obtain ⟨i, hi, rfl⟩ := Option.map_eq_some_iff.mp h
          obtain ⟨s, hs, -⟩ := configuredAs_eq_some hi
          exact (List.getElem?_eq_some_iff.mp hs).1
        next => cases h
      · cases h
    · cases h

theorem listen_announces (hidentify : ∀ a s, (identify a s).addrIdentifier = some a) :
    Announces (announcedBy parser servers d) servers (listen parser identify now servers d).1 := by
  rw [listen_eq]
  cases hann : announcedBy parser servers d with
  | none =>
    refine .of_map ?_
    cases creditedTo servers d with
    | none => rfl
    | some i => exact map_modify fun _ => rfl
  | some p =>
    obtain ⟨i, a⟩ := p
    obtain ⟨hi, hcredit⟩ := announcedBy_eq_some hann
    rw [hcredit]
    intro j b
    simp only [identifies_iff, List.getElem?_modify]
    split
    next hji =>
      subst hji
      simp [List.getElem?_eq_getElem hi, hidentify, eq_comm]
    next hji => simp [Ne.symm hji]

/-- Where identifiers are the latest announcements and distinct, an `OK` refreshes
the server that announced itself last. -/
theorem identified_of_lastAnnounced {announcements : List (Nat × Addr)} (hd : DistinctIdentifiers servers)
    (hlast : ∀ j b, Identifies servers j b ↔ LastAnnounced announcements j b) :
    Identified parser identify now announcements servers := by
  refine ⟨hd, fun d hok i => ?_⟩
  rw [← hlast, listen, if_pos hok]
  cases hby : identifiedBy servers d.sender with
  | none =>
    refine ⟨fun hi => ?_, fun _ => rfl⟩
    obtain ⟨s, hs, ha⟩ := identifies_iff.mp hi
    have := List.findIdx?_eq_none_iff.mp hby s (List.mem_of_getElem? hs)
    simp [ha] at this
  | some j =>
    have hj := identifies_iff.mpr (identifiedBy_eq_some hby)
    refine ⟨fun hi => ?_, fun hi => ?_⟩
    · rw [hd i j _ hi hj, List.getElem?_modify_eq, Option.map_eq_map]
    · exact List.getElem?_modify_ne _ _ fun hji => hi (hji ▸ hj)

end Table

/-! ## Runs -/

/-- The rule for a table that is part of a state: if its identifiers change by
announcements only, its entries are told apart in every state of a run exactly
when every announcement finds its address new. -/
theorem forall_prefix_identified_iff {Addr σ ε : Type*} [DecidableEq Addr] (parser : AddrParser Addr)
    (identify : Addr → Server Addr → Server Addr) (now : σ → Nat) {step : σ → ε → σ} {servers : σ → List (Server Addr)}
    {announced : σ → ε → Option (Nat × Addr)} {s : σ} (es : List ε)
    (hstep : ∀ s e, Announces (announced s e) (servers s) (servers (step s e)))
    (hs : ∀ x ∈ servers s, x.addrIdentifier = none) :
    (∀ pre, pre <+: es → Identified parser identify (now (Run.exec step s pre)) (Run.outputs step announced s pre)
        (servers (Run.exec step s pre))) ↔
      Run.Along step (fun s e => ∀ p ∈ announced s e, NewIdentifier (servers s) p) s es := by
  have hnone : ∀ i a, ¬ Identifies (servers s) i a := by
    intro i a hi
    obtain ⟨x, hx, ha⟩ := identifies_iff.mp hi
    rw [hs x (List.mem_of_getElem? hx)] at ha
    cases ha
  have hdistinct : (∀ pre, pre <+: es → DistinctIdentifiers (servers (Run.exec step s pre))) ↔
      Run.Along step (fun s e => ∀ p ∈ announced s e, NewIdentifier (servers s) p) s es :=
    (Run.along_true es).forall_prefix_iff (I := fun s => DistinctIdentifiers (servers s)) (J := fun _ => True)
      (fun _ _ _ _ => trivial) trivial (fun s e _ _ hd => (hstep s e).distinct_iff hd)
      fun i _ a hi => absurd hi (hnone i a)
  refine ⟨fun h => hdistinct.mp fun pre hpre => (h pre hpre).distinct, fun h pre hpre => ?_⟩
  refine identified_of_lastAnnounced (hdistinct.mpr h pre hpre) ?_
  exact (h.of_prefix hpre).outputs_invariant
    (I := fun bs s => ∀ j b, Identifies (servers s) j b ↔ LastAnnounced bs j b)
    (fun bs s e hlast hnew => (hstep s e).lastAnnounced hnew hlast)
    fun j b => iff_of_false (hnone j b) lastAnnounced_nil

namespace FlRun

variable {Addr : Type*} [DecidableEq Addr] (parser : AddrParser Addr)

/-- The announcement that an event is. -/
def announced (r : FlRun Addr) : FlEvent Addr → Option (Nat × Addr)
  | .datagram d => announcedBy parser r.proxy.logicServers d
  | _ => none

/-- The table after these events. -/
def Identified (r : FlRun Addr) (es : List (FlEvent Addr)) : Prop :=
  FinalServer.Identified parser ReverseProxyFl.identify (Run.exec (step parser) r es).now
    (Run.outputs (step parser) (announced parser) r es) (Run.exec (step parser) r es).proxy.logicServers

theorem step_announces (r : FlRun Addr) (e : FlEvent Addr) :
    Announces (r.announced parser e) r.proxy.logicServers (r.step parser e).proxy.logicServers := by
  cases e with
  | datagram d => exact listen_announces fun _ _ => rfl
  | expiry =>
    refine .of_map ?_
    rw [step, checkHeartbeatExpiry, List.map_map]
    exact List.map_congr_left fun s _ => expire_addrIdentifier r.now
  | connect | elapse => exact .of_map rfl

end FlRun

namespace LdRun

variable {Addr : Type*} [DecidableEq Addr] (parser : AddrParser Addr)

/-- The announcement to one of the listeners that an event is. -/
def announced (role : Role) (r : LdRun Addr) : LdEvent Addr → Option (Nat × Addr)
  | .datagram role' d => if role' = role then announcedBy parser (r.proxy.servers role) d else none
  | _ => none

/-- One of the tables after these events. -/
def Identified (role : Role) (r : LdRun Addr) (es : List (LdEvent Addr)) : Prop :=
  FinalServer.Identified parser ReverseProxyLd.identify (Run.exec (step parser) r es).now
    (Run.outputs (step parser) (announced parser role) r es) ((Run.exec (step parser) r es).proxy.servers role)

theorem step_announces (role : Role) (r : LdRun Addr) (e : LdEvent Addr) :
    Announces (r.announced parser role e) (r.proxy.servers role) ((r.step parser e).proxy.servers role) := by
  cases e with
  | datagram role' d =>
    rw [announced]
    split
    next hrole =>
      subst hrole
      simp only [step, Function.update_self]
      exact listen_announces fun _ _ => rfl
    next hrole => exact .of_map (by rw [(step_other parser r (Ne.symm hrole) (.inl ⟨d, rfl⟩)).1])
  | expiry role' =>
    refine .of_map ?_
    by_cases hrole : role = role'
    · subst hrole
      simp only [step, Function.update_self, checkHeartbeatExpiry, List.map_map]
      exact List.map_congr_left fun s _ => expire_addrIdentifier r.now
    · rw [(step_other parser r hrole (.inr rfl)).1]
  | connect | elapse => exact .of_map rfl

end LdRun

/-- **Identifiers.** In both proxies the entries of every table are told apart by
their identifiers in every state of a run, and an `OK` refreshes the server that
last announced itself from its sender, exactly when every announcement of the
run finds no other entry identified by its sender. -/
theorem identified_iff {Addr : Type*} [DecidableEq Addr] (parser : AddrParser Addr) (now : Nat) :
    (∀ (logicServers : List (List Char)) (es : List (FlEvent Addr)),
      (∀ pre, pre <+: es → FlRun.Identified parser (.start parser logicServers now) pre) ↔
        Run.Along (FlRun.step parser) (fun r e => ∀ p ∈ r.announced parser e, NewIdentifier r.proxy.logicServers p)
          (.start parser logicServers now) es) ∧
    ∀ (raw : Role → List (List Char)) (es : List (LdEvent Addr)),
      (∀ pre, pre <+: es → ∀ role, LdRun.Identified parser role (.start parser raw now) pre) ↔
        Run.Along (LdRun.step parser)
          (fun r e => ∀ role, ∀ p ∈ r.announced parser role e, NewIdentifier (r.proxy.servers role) p)
          (.start parser raw now) es := by
  constructor
  · intro logicServers es
    exact forall_prefix_identified_iff parser _ FlRun.now es (FlRun.step_announces parser)
      fun x hx => (parseAddrPairs_new hx).1
  · intro raw es
    have hrole : ∀ role, _ ↔ _ := fun role =>
      forall_prefix_identified_iff parser ReverseProxyLd.identify LdRun.now (s := .start parser raw now) es
        (LdRun.step_announces parser role) fun x hx => (parseAddrPairs_new hx).1
    rw [Run.along_forall]
    constructor
    · intro h role
      exact (hrole role).mp fun pre hpre => h pre hpre role
    · intro h pre hpre role
      exact (hrole role).mpr (h role) pre hpre

/-- Two servers. -/
def twoLines : List (List Char) :=
  ["127.0.0.1:7000 127.0.0.1:7001".toList, "127.0.0.1:7002 127.0.0.1:7003".toList]

/-- One address announces the one and then the other. -/
def announceBoth : List (Datagram SocketAddr) := twoLines.map (⟨·, .loopback 9000⟩)

/-- Then both entries are identified by it, in either proxy. -/
theorem announce_both_shared :
    (¬ ∀ (logicServers : List (List Char)) (now : Nat) (es pre : List (FlEvent SocketAddr)), pre <+: es →
      FlRun.Identified SocketAddr.parser (.start SocketAddr.parser logicServers now) pre) ∧
    ¬ ∀ (raw : Role → List (List Char)) (now : Nat) (es pre : List (LdEvent SocketAddr)), pre <+: es →
      ∀ role, LdRun.Identified SocketAddr.parser role (.start SocketAddr.parser raw now) pre := by
  constructor
  · intro h
    have hd := (h twoLines 0 (announceBoth.map .datagram) _ List.prefix_rfl).distinct
    exact absurd (hd 0 1 (.loopback 9000) rfl rfl) (by decide)
  · intro h
    have hd := (h (fun _ => twoLines) 0 (announceBoth.map (.datagram .data)) _ List.prefix_rfl .data).distinct
    exact absurd (hd 0 1 (.loopback 9000) rfl rfl) (by decide)

end FinalServer
