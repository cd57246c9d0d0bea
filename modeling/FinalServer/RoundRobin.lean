/-
How the client-to-logic proxy spreads its clients.

The proxy has one table and one counter of its own, so consecutive calls get
consecutive numbers modulo the servers that are up: each of these is chosen
as often as the others, up to one (`calls_roundRobin`).
-/
import FinalServer.ReverseProxyFl
import Mathlib.Data.Int.CardIntervalMod

namespace FinalServer

/-- Of consecutive numbers every remainder is had equally often, up to one. -/
theorem countP_range'_mod {k i : Nat} (hi : i < k) (n m : Nat) :
    (List.range' n m).countP (· % k = i) = m / k ∨ (List.range' n m).countP (· % k = i) = (m + k - 1) / k := by
  have hk : 0 < k := by omega
  -- The numbers counted are, once `n` is taken off, those that are `v` modulo `k`.
  obtain ⟨v, hv⟩ : ∃ v, n + v ≡ i [MOD k] := by
    refine ⟨i + (k - n % k), ?_⟩
    have hn := Nat.mod_lt n hk
    have hsum : n + (i + (k - n % k)) = i + k * (n / k + 1) := by
      have := Nat.mod_add_div n k
      rw [Nat.mul_add]
      omega
    rw [Nat.ModEq, hsum, Nat.add_mul_mod_self_left]
  have hcount : (List.range' n m).countP (· % k = i) = Nat.count (· ≡ v [MOD k]) m := by
    rw [List.range'_eq_map_range, List.countP_map, Nat.count]
    refine List.countP_congr fun j _ => ?_
    simp only [Function.comp_apply, decide_eq_true_eq]
    calc (n + j) % k = i ↔ n + j ≡ i [MOD k] := by rw [Nat.ModEq, Nat.mod_eq_of_lt hi]
      _ ↔ n + j ≡ n + v [MOD k] := ⟨fun h => h.trans hv.symm, fun h => h.trans hv⟩
      _ ↔ j ≡ v [MOD k] := ⟨Nat.ModEq.add_left_cancel' n, Nat.ModEq.add_left n⟩
  rw [hcount, Nat.count_modEq_card _ hk]
  split
  next hlt =>
    right
    have hsum : m + k - 1 = m % k - 1 + k * (m / k + 1) := by
      have := Nat.mod_add_div m k
      rw [Nat.mul_add]
      omega
    have hm := Nat.mod_lt m hk
    have hdiv : (m % k - 1) / k = 0 := Nat.div_eq_of_lt (by omega)
    rw [hsum, Nat.add_mul_div_left _ _ hk, hdiv, Nat.zero_add]
  next => exact .inl (Nat.add_zero _)

namespace FlRun

variable {Addr : Type*} [DecidableEq Addr] (parser : AddrParser Addr) (r : FlRun Addr)

/-- What a call of `get_available_backend` returns: the place among the servers
that are up, and the address. -/
def asked (r : FlRun Addr) : FlEvent Addr → Option (Option Nat × Option Addr)
  | .connect => some ((nextPlace r.proxy.logicServers r.proxy.nextIndex).1, r.getAvailableBackend.1)
  | _ => none

/-- The calls of a run. -/
def calls (es : List (FlEvent Addr)) : List (Option Nat × Option Addr) := Run.outputs (step parser) asked r es

/-- No event of the run changes an `is_up`. -/
def FlagsStay (es : List (FlEvent Addr)) : Prop :=
  Run.Along (step parser) (fun r e => (r.step parser e).proxy.logicServers.map (·.isUp) =
    r.proxy.logicServers.map (·.isUp)) r es

/-- The calls of a run go round: none is answered while no server is up;
otherwise each gets a server that is up, and each of these is chosen equally
often, up to one. -/
structure RoundRobin (es : List (FlEvent Addr)) : Prop where
  noneUp : available r.proxy.logicServers = [] →
    (∀ c ∈ r.calls parser es, c = (none, none)) ∧
      (Run.exec (step parser) r es).proxy.nextIndex = r.proxy.nextIndex
  someUp : ∀ k, k = (available r.proxy.logicServers).length → 0 < k →
    (∀ c ∈ r.calls parser es, ∃ i s, i < k ∧ (available r.proxy.logicServers)[i]? = some s ∧
      c = (some i, some s.tcpAddr)) ∧
    ∀ i < k, (r.calls parser es).countP (·.1 = some i) = (r.calls parser es).length / k ∨
      (r.calls parser es).countP (·.1 = some i) = ((r.calls parser es).length + k - 1) / k

variable {parser} {r}

/-! ## What the events leave alone -/

omit [DecidableEq Addr] in
/-- The addresses of the servers that are up are given by the flags and the addresses. -/
theorem available_tcpAddr_congr {servers servers' : List (Server Addr)}
    (hup : servers'.map (·.isUp) = servers.map (·.isUp)) (htcp : servers'.map (·.tcpAddr) = servers.map (·.tcpAddr)) :
    (available servers').map (·.tcpAddr) = (available servers).map (·.tcpAddr) := by
  induction servers generalizing servers' with
  | nil =>
    obtain rfl := List.map_eq_nil_iff.mp hup
    rfl
  | cons s servers ih =>
    obtain ⟨s', rest, rfl, hs, hrest⟩ := List.map_eq_cons_iff.mp hup
    obtain ⟨hhead, htail⟩ := List.cons.inj htcp
    have ih := ih hrest htail
    simp only [available] at ih ⊢
    rw [List.filter_cons, List.filter_cons, hs]
    split
    · rw [List.map_cons, List.map_cons, ih]
      exact congrArg (· :: _) hhead
    · exact ih

theorem listen_tcpAddr (now : Nat) (servers : List (Server Addr)) (d : Datagram Addr) :
    (ReverseProxyFl.listenForHeartbeats parser now servers d).1.map (·.tcpAddr) = servers.map (·.tcpAddr) := by
  have hlisten := listen_listens parser ReverseProxyFl.identify now servers d
  simp only [ReverseProxyFl.listenForHeartbeats]
  generalize (listen parser ReverseProxyFl.identify now servers d).1 = servers' at hlisten
  cases hlisten with
  | nothing => rfl
  | beat => exact map_modify fun _ => rfl
  | identify => exact map_modify fun _ => rfl

theorem step_tcpAddr (parser : AddrParser Addr) (r : FlRun Addr) (e : FlEvent Addr) :
    (r.step parser e).proxy.logicServers.map (·.tcpAddr) = r.proxy.logicServers.map (·.tcpAddr) := by
  cases e with
  | datagram d => exact listen_tcpAddr r.now r.proxy.logicServers d
  | expiry =>
    simp only [step, checkHeartbeatExpiry, List.map_map]
    exact List.map_congr_left fun s _ => (expire_addrs r.now).1
  | connect | elapse => rfl

/-! ## Consecutive calls -/

omit [DecidableEq Addr] in
theorem getAvailable_eq {servers : List (Server Addr)} (hup : available servers ≠ []) (n : Nat) :
    (nextPlace servers n).1 = some (n % (available servers).length) ∧
      (getAvailable servers n).1 = ((available servers).map (·.tcpAddr))[n % (available servers).length]? := by
  simp only [getAvailable, nextPlace, if_neg hup, Option.bind_some, List.getElem?_map]
  exact ⟨trivial, trivial⟩

/-- Without a server that is up nothing is returned and nothing drawn. -/
theorem calls_noneUp {es : List (FlEvent Addr)} (hflags : FlagsStay parser r es)
    (hnone : available r.proxy.logicServers = []) :
    (∀ c ∈ r.calls parser es, c = (none, none)) ∧
      (Run.exec (step parser) r es).proxy.nextIndex = r.proxy.nextIndex := by
  induction es generalizing r with
  | nil => exact ⟨by simp [calls, Run.outputs], rfl⟩
  | cons e es ih =>
    have haddrs := available_tcpAddr_congr hflags.1 (step_tcpAddr parser r e)
    rw [hnone, List.map_nil, List.map_eq_nil_iff] at haddrs
    obtain ⟨hcalls, hnext⟩ := ih hflags.2 haddrs
    have hstep : (∀ c ∈ r.asked e, c = (none, none)) ∧ (r.step parser e).proxy.nextIndex = r.proxy.nextIndex := by
      cases e <;> simp [asked, step, getAvailableBackend, getAvailable, nextPlace, hnone]
    refine ⟨fun c hc => ?_, hnext.trans hstep.2⟩
    rw [calls, Run.outputs, List.mem_append, Option.mem_toList] at hc
    exact hc.elim (hstep.1 c) (hcalls c)

/-- Otherwise the calls get consecutive numbers. -/
theorem calls_someUp {es : List (FlEvent Addr)} (hflags : FlagsStay parser r es)
    (hup : available r.proxy.logicServers ≠ [])
    (hwrap : r.proxy.nextIndex + (r.calls parser es).length < USIZE) :
    r.calls parser es = (List.range' r.proxy.nextIndex (r.calls parser es).length).map fun n =>
      (some (n % (available r.proxy.logicServers).length),
        ((available r.proxy.logicServers).map (·.tcpAddr))[n % (available r.proxy.logicServers).length]?) := by
  induction es generalizing r with
  | nil => rfl
  | cons e es ih =>
    have haddrs := available_tcpAddr_congr hflags.1 (step_tcpAddr parser r e)
    have hlen : (available (r.step parser e).proxy.logicServers).length = (available r.proxy.logicServers).length := by
      have := congrArg List.length haddrs
      rwa [List.length_map, List.length_map] at this
    have hup' : available (r.step parser e).proxy.logicServers ≠ [] :=
      fun h => hup (List.length_eq_zero_iff.mp (by rw [← hlen, h]; rfl))
    have hcons : r.calls parser (e :: es) = (r.asked e).toList ++ (r.step parser e).calls parser es := rfl
    cases hasked : r.asked e with
    | none =>
      have hnext : (r.step parser e).proxy.nextIndex = r.proxy.nextIndex := by
        cases e <;> first | rfl | cases hasked
      rw [hcons, hasked, Option.toList_none, List.nil_append] at hwrap ⊢
      have ih := ih hflags.2 hup' (by rwa [hnext])
      rwa [hnext, hlen, haddrs] at ih
    | some c =>
      obtain rfl : e = .connect := by
        cases e <;> first | rfl | cases hasked
      obtain ⟨hplace, haddr⟩ := getAvailable_eq hup r.proxy.nextIndex
      have hc : c = ((nextPlace r.proxy.logicServers r.proxy.nextIndex).1, r.getAvailableBackend.1) :=
        (Option.some.inj hasked).symm
      rw [hcons, hasked, Option.toList_some, List.singleton_append] at hwrap ⊢
      rw [List.length_cons] at hwrap ⊢
      have hnext : (r.step parser .connect).proxy.nextIndex = r.proxy.nextIndex + 1 := by
        simp only [step, getAvailableBackend, getAvailable, nextPlace, if_neg hup]
        exact Nat.mod_eq_of_lt (by omega)
      have ih := ih hflags.2 hup' (by omega)
      rw [hnext, hlen, haddrs] at ih
      rw [List.range'_succ, List.map_cons, ← ih, hc, hplace]
      exact congrArg (fun a => (_, a) :: _) haddr

end FlRun

/-- **Consecutive calls.** While no flag changes and the counter does not wrap,
the calls of every run go round the servers that are up. -/
theorem calls_roundRobin {Addr : Type*} [DecidableEq Addr] (parser : AddrParser Addr) (r : FlRun Addr)
    (es : List (FlEvent Addr)) (hflags : FlRun.FlagsStay parser r es)
    (hwrap : available r.proxy.logicServers ≠ [] → r.proxy.nextIndex + (r.calls parser es).length < USIZE) :
    FlRun.RoundRobin parser r es where
  noneUp := FlRun.calls_noneUp hflags
  someUp := by
    rintro k rfl hk
    have hup := List.length_pos_iff.mp hk
    have hcalls := FlRun.calls_someUp hflags hup (hwrap hup)
    refine ⟨fun c hc => ?_, fun i hi => ?_⟩
    · rw [hcalls] at hc
      obtain ⟨n, -, rfl⟩ := List.mem_map.mp hc
      have hn := Nat.mod_lt n hk
      refine ⟨n % _, _, hn, List.getElem?_eq_getElem hn, ?_⟩
      rw [List.getElem?_map, List.getElem?_eq_getElem hn, Option.map_some]
    · have hcount : (r.calls parser es).countP (·.1 = some i) =
          (List.range' r.proxy.nextIndex (r.calls parser es).length).countP
            (· % (available r.proxy.logicServers).length = i) := by
        rw [congrArg (List.countP _) hcalls, List.countP_map]
        exact List.countP_congr fun n _ => by simp
      rw [hcount]
      exact countP_range'_mod hi _ _

/-- Two logic servers that are up; the counter has been used before. -/
def twoUp : FlRun SocketAddr :=
  ⟨⟨[⟨none, .loopback 7001, .loopback 7000, none, true⟩, ⟨none, .loopback 7003, .loopback 7002, none, true⟩], 5⟩, 0, []⟩

/-- Of three calls the second server gets two. -/
theorem calls_roundRobin_twoUp :
    FlRun.RoundRobin SocketAddr.parser twoUp [.connect, .elapse 1, .connect, .connect] :=
  calls_roundRobin _ _ _ ⟨rfl, rfl, rfl, rfl, trivial⟩ fun _ => by decide

end FinalServer
