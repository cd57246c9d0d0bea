/-
How evenly the logic-to-data proxy spreads its connections.

Both selectors draw from one counter: a connection gets the next number,
modulo the servers that are up in its own table, and the connections to the
other table use up numbers in between. So a table is used evenly exactly
when the numbers its connections draw are even modulo its servers
(`DrawsEven`), which depends on the order of the connections alone.
-/
import FinalServer.ReverseProxyLd
import Mathlib.Data.List.Count

namespace FinalServer

namespace LdRun

variable {Addr : Type*} [DecidableEq Addr] (parser : AddrParser Addr) (r : LdRun Addr)

/-- The table an event asks for a server, and the place of the server among those that are up. -/
def served (r : LdRun Addr) : LdEvent Addr → Option (Role × Nat)
  | .connect role => (nextPlace (r.proxy.servers role) r.proxy.nextIndex).1.map (role, ·)
  | _ => none

/-- The servers of a table that are up. -/
def upCount (r : LdRun Addr) (role : Role) : Nat := (available (r.proxy.servers role)).length

/-- No event of the run changes an `is_up`. -/
def FlagsStay (es : List (LdEvent Addr)) : Prop :=
  Run.Along (step parser) (fun r e => ∀ role,
    ((r.step parser e).proxy.servers role).map (·.isUp) = (r.proxy.servers role).map (·.isUp)) r es

/-- How often each of the servers that are up was returned differs by one at most. -/
def ServedEven (es : List (LdEvent Addr)) (role : Role) : Prop :=
  ∀ i < r.upCount role, ∀ j < r.upCount role,
    (Run.outputs (step parser) served r es).count (role, i) ≤
      (Run.outputs (step parser) served r es).count (role, j) + 1

end LdRun

/-- The connections that draw a number, in order: those to a table with a server that is up. -/
def draws {Addr : Type*} (upCount : Role → Nat) (es : List (LdEvent Addr)) : List Role :=
  es.filterMap fun
    | .connect role => if upCount role = 0 then none else some role
    | _ => none

/-- How many connections to a table draw a number with this remainder, when
the first number drawn is `start`. -/
def drawn (start : Nat) (upCount : Role → Nat) (order : List Role) (role : Role) (i : Nat) : Nat :=
  (order.zipIdx start).countP fun x => x.1 = role ∧ x.2 % upCount role = i

/-- The numbers that the connections to a table draw are even modulo its servers. -/
def DrawsEven (start : Nat) (upCount : Role → Nat) (order : List Role) (role : Role) : Prop :=
  ∀ i < upCount role, ∀ j < upCount role,
    drawn start upCount order role i ≤ drawn start upCount order role j + 1

namespace LdRun

variable {Addr : Type*} [DecidableEq Addr] {parser : AddrParser Addr} {r : LdRun Addr} {e : LdEvent Addr}

omit [DecidableEq Addr] in
theorem upCount_congr {r' : LdRun Addr} {role : Role}
    (h : (r'.proxy.servers role).map (·.isUp) = (r.proxy.servers role).map (·.isUp)) :
    r'.upCount role = r.upCount role := by
  have hflags : ∀ servers : List (Server Addr), (available servers).length = (servers.map (·.isUp)).countP id := by
    intro servers
    rw [available, ← List.countP_eq_length_filter, List.countP_map]
    rfl
  rw [upCount, hflags, h, ← hflags, upCount]

/-- What an event draws and returns, and the counter after it. -/
theorem served_cases (parser : AddrParser Addr) (hwrap : r.proxy.nextIndex + (draws r.upCount [e]).length < USIZE) :
    (r.served e).toList = ((draws r.upCount [e]).zipIdx r.proxy.nextIndex).map (fun x => (x.1, x.2 % r.upCount x.1)) ∧
      (r.step parser e).proxy.nextIndex = r.proxy.nextIndex + (draws r.upCount [e]).length := by
  cases e with
  | connect role =>
    simp only [step, getAvailable, FinalServer.getAvailable, served, nextPlace]
    by_cases hnone : available (r.proxy.servers role) = []
    · have hup : r.upCount role = 0 := List.length_eq_zero_iff.mpr hnone
      simp [draws, hup, hnone]
    · have hup : r.upCount role ≠ 0 := fun h => hnone (List.length_eq_zero_iff.mp h)
      have hdraws : draws r.upCount [(.connect role : LdEvent Addr)] = [role] := by simp [draws, hup]
      rw [hdraws, List.length_singleton] at hwrap ⊢
      simp only [if_neg hnone]
      exact ⟨rfl, Nat.mod_eq_of_lt hwrap⟩
  | _ => exact ⟨rfl, rfl⟩

/-- The run's connections get the numbers in order, each modulo its own table. -/
theorem outputs_served (hflags : FlagsStay parser r es)
    (hwrap : r.proxy.nextIndex + (draws r.upCount es).length < USIZE) :
    Run.outputs (step parser) served r es =
      ((draws r.upCount es).zipIdx r.proxy.nextIndex).map fun x => (x.1, x.2 % r.upCount x.1) := by
  induction es generalizing r with
  | nil => rfl
  | cons e es ih =>
    have hup : (r.step parser e).upCount = r.upCount := funext fun role => upCount_congr (hflags.1 role)
    have hdraws : draws r.upCount (e :: es) = draws r.upCount [e] ++ draws r.upCount es :=
      List.filterMap_append (l := [e])
    rw [hdraws, List.length_append] at hwrap
    have hfirst : r.proxy.nextIndex + (draws r.upCount [e]).length < USIZE := by omega
    obtain ⟨hserved, hnext⟩ := served_cases parser hfirst
    rw [Run.outputs, hserved, ih hflags.2 (by rw [hup, hnext]; omega), hup, hnext, hdraws, List.zipIdx_append,
      List.map_append]

end LdRun

/-- **Even use.** While no server goes up or down and the counter does not
wrap, both tables are used evenly exactly when the numbers drawn for each are
even modulo the servers that are up in it. -/
theorem servedEven_iff {Addr : Type*} [DecidableEq Addr] (parser : AddrParser Addr) (r : LdRun Addr)
    (es : List (LdEvent Addr)) (hflags : r.FlagsStay parser es)
    (hwrap : r.proxy.nextIndex + (draws r.upCount es).length < USIZE) :
    (∀ role, r.ServedEven parser es role) ↔
      ∀ role, DrawsEven r.proxy.nextIndex r.upCount (draws r.upCount es) role := by
  have hcount : ∀ role i, (Run.outputs (LdRun.step parser) LdRun.served r es).count (role, i) =
      drawn r.proxy.nextIndex r.upCount (draws r.upCount es) role i := by
    intro role i
    rw [LdRun.outputs_served hflags hwrap, List.count, List.countP_map, drawn]
    refine List.countP_congr fun x _ => ?_
    simp only [Function.comp_apply, beq_iff_eq, Prod.mk.injEq, decide_eq_true_eq]
    refine and_congr_right fun hrole => ?_
    rw [hrole]
  simp only [LdRun.ServedEven, DrawsEven, hcount]

/-- Two data servers and a logic server, all up. -/
def threeUp : LdRun SocketAddr where
  proxy :=
    { servers := fun
        | .data => [⟨some (.loopback 7001), .loopback 7001, .loopback 7000, some 0, true⟩,
            ⟨some (.loopback 7003), .loopback 7003, .loopback 7002, some 0, true⟩]
        | .logic => [⟨some (.loopback 7005), .loopback 7005, .loopback 7004, some 0, true⟩]
      nextIndex := 0 }
  now := 0
  oks _ := []
  swept _ := none

/-- Connections from a logic server and a data server in turn. -/
def inTurn : List (LdEvent SocketAddr) := [.connect .data, .connect .logic, .connect .data, .connect .logic]

theorem inTurn_flagsStay : threeUp.FlagsStay SocketAddr.parser inTurn :=
  ⟨fun _ => rfl, fun _ => rfl, fun _ => rfl, fun _ => rfl, trivial⟩

theorem servedEven_iff_inTurn :
    (∀ role, threeUp.ServedEven SocketAddr.parser inTurn role) ↔
      ∀ role, DrawsEven 0 threeUp.upCount (draws threeUp.upCount inTurn) role :=
  servedEven_iff SocketAddr.parser threeUp inTurn inTurn_flagsStay (by decide)

/-- The first data server gets both connections. -/
theorem connections_in_turn_uneven :
    ¬ ∀ (r : LdRun SocketAddr) (es : List (LdEvent SocketAddr)), r.FlagsStay SocketAddr.parser es →
      r.proxy.nextIndex + (draws r.upCount es).length < USIZE → ∀ role, r.ServedEven SocketAddr.parser es role := by
  intro h
  have heven := h threeUp inTurn inTurn_flagsStay (by decide) .data 0 (by decide) 1 (by decide)
  exact absurd heven (by decide)

end FinalServer
