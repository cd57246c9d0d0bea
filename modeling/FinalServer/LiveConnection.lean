/-
The data connection of a session: the one requests are written to and the one
replies are polled from.

`current_db_sock` and `fds[1].fd` are replaced together, after the old
connection has been closed. When `connect_to_db_balancers` fails in between,
the loop goes on with a closed descriptor in both (`live_iff`).
-/
import FinalServer.SessionLogin

namespace FinalServer

open Session

/-- The descriptor that is written to is the one that is polled, and it is
open; so a forwarded request joins the queries whose replies are polled. -/
structure LiveConnection (env : Env) (s : Session) : Prop where
  polled : s.cur.currentDbSock = s.dbFd
  isOpen : s.conns s.dbFd ≠ none
  forwarded : ∀ now raw, (processClientRequest env now s.cur raw).handledLocally = false →
    ∃ queries, s.conns s.dbFd = some queries ∧
      (s.handleClient env now raw).conns s.dbFd =
        some (queries ++ [(processClientRequest env now s.cur raw).message])

/-- The reply brings the stored password of the login that is in its first step. -/
def PasswordMatches (s : Session) : Option Json → Prop
  | some dbJson => ∃ req p, InLogin s req ∧ s.cur.authState = .initial ∧ isSuccess dbJson = true ∧
      req.getObjectItem "password" = some (.string p) ∧ dbJson.getObjectItem "password_hash" = some (.string p)
  | none => False

/-- Where the connection is replaced, the new one is made. -/
def ReconnectSucceeds (s : Session) : Event → Prop
  | .reply _ reply connect => s.running = true → s.awaited ≠ none → PasswordMatches s reply → 0 ≤ connect
  | _ => True

variable {env : Env} {s s' : Session} {now connect : Int}

theorem liveConnection (hpolled : s.cur.currentDbSock = s.dbFd) (hopen : s.conns s.dbFd ≠ none) :
    LiveConnection env s where
  polled := hpolled
  isOpen := hopen
  forwarded now raw hfwd := by
    obtain ⟨queries, hq⟩ := Option.ne_none_iff_exists'.mp hopen
    have hsock := (processClientRequest_keeps env now s.cur raw).2.trans hpolled
    refine ⟨queries, hq, ?_⟩
    simp only [handleClient, hfwd, Bool.false_eq_true, if_false, Session.write, hsock, Function.update_self, hq,
      Option.map_some]

/-- In the loop the two descriptors are one, and none that reports an error. -/
structure OneDescriptor (s : Session) : Prop where
  polled : s.cur.currentDbSock = s.dbFd
  nonneg : 0 ≤ s.dbFd

/-! ## What a reply does to the connection -/

/-- A matching password leads to the reconnection, and nothing else does. -/
theorem handleDbResponse_matches (env : Env) (now connect : Int) {reply : Option Json} (h : PasswordMatches s reply) :
    ∃ req, handleDbResponse env now s reply connect = s.passwordMatched connect req := by
  cases reply with
  | none => cases h
  | some dbJson =>
    obtain ⟨req, p, hl, hst, hok, hp, hh⟩ := h
    refine ⟨req, ?_⟩
    simp only [handleDbResponse, hl.request, hl.action, if_true, hst, initialReply, hp, hh, hok, Bool.not_true,
      Bool.false_eq_true, if_false, ne_eq, not_true_eq_false]

theorem handleDbResponse_connection (env : Env) (now connect : Int) {reply : Option Json}
    (h : ¬ PasswordMatches s reply) :
    (handleDbResponse env now s reply connect).cur.currentDbSock = s.cur.currentDbSock ∧
      (handleDbResponse env now s reply connect).dbFd = s.dbFd ∧
      (handleDbResponse env now s reply connect).conns = s.conns := by
  have hreact := handleDbResponse_reacts env now s reply connect
  generalize handleDbResponse env now s reply connect = s' at hreact ⊢
  cases hreact with
  | error | ignored | relayed | token => exact ⟨rfl, rfl, rfl⟩
  | matched r req p hl hst hs hp hh => exact absurd ⟨req, p, hl, hst, hs, hp, hh⟩ h

/-- Without a new connection the session keeps the closed one. -/
theorem passwordMatched_failed (h : OneDescriptor s) (hc : connect < 0) (req : Json) :
    OneDescriptor (s.passwordMatched connect req) ∧
      (s.passwordMatched connect req).conns (s.passwordMatched connect req).dbFd = none := by
  have hsock : 0 ≤ s.cur.currentDbSock := h.polled ▸ h.nonneg
  simp only [passwordMatched, hsock, if_true, hc]
  refine ⟨⟨h.polled, h.nonneg⟩, ?_⟩
  show Function.update s.conns s.cur.currentDbSock none s.dbFd = none
  rw [h.polled, Function.update_self]

theorem passwordMatched_connected (hc : 0 ≤ connect) (req : Json) :
    OneDescriptor (s.passwordMatched connect req) ∧
      (s.passwordMatched connect req).conns (s.passwordMatched connect req).dbFd ≠ none := by
  simp only [passwordMatched, not_lt.mpr hc, if_false]
  exact ⟨⟨rfl, hc⟩, by simp [Session.write, open_]⟩

theorem handleDbResponse_one (h : OneDescriptor s) (reply : Option Json) :
    OneDescriptor (handleDbResponse env now s reply connect) := by
  by_cases hm : PasswordMatches s reply
  · obtain ⟨req, he⟩ := handleDbResponse_matches env now connect hm
    rw [he]
    by_cases hc : 0 ≤ connect
    · exact (passwordMatched_connected hc req).1
    · exact (passwordMatched_failed h (not_le.mp hc) req).1
  · obtain ⟨hsock, hfd, -⟩ := handleDbResponse_connection env now connect hm
    exact ⟨by rw [hsock, hfd, h.polled], by rw [hfd]; exact h.nonneg⟩

/-- After a reply the connection is open exactly if it need not be replaced, or could be. -/
theorem handleDbResponse_open (env : Env) (now connect : Int) (h : OneDescriptor s)
    (hopen : s.conns s.dbFd ≠ none) (reply : Option Json) :
    (handleDbResponse env now s reply connect).conns (handleDbResponse env now s reply connect).dbFd ≠ none ↔
      (PasswordMatches s reply → 0 ≤ connect) := by
  by_cases hm : PasswordMatches s reply
  · obtain ⟨req, he⟩ := handleDbResponse_matches env now connect hm
    rw [he]
    by_cases hc : 0 ≤ connect
    · exact iff_of_true (passwordMatched_connected hc req).2 fun _ => hc
    · exact iff_of_false (fun hne => hne (passwordMatched_failed h (not_le.mp hc) req).2) fun hall => hc (hall hm)
  · obtain ⟨-, hfd, hconns⟩ := handleDbResponse_connection env now connect hm
    rw [hconns, hfd]
    exact iff_of_true hopen fun h' => absurd h' hm

theorem handleDbResponse_running (env : Env) (now : Int) (s : Session) (reply : Option Json) (connect : Int) :
    (handleDbResponse env now s reply connect).running = s.running := by
  have hreact := handleDbResponse_reacts env now s reply connect
  generalize handleDbResponse env now s reply connect = s' at hreact ⊢
  cases hreact with
  | error | ignored | relayed | token => rfl
  | matched r req p hl =>
    simp only [passwordMatched]
    split <;> split <;> rfl

/-! ## Steps and runs -/

theorem handleClient_one (h : OneDescriptor s) (raw : CString) : OneDescriptor (s.handleClient env now raw) := by
  have hsock := (processClientRequest_keeps env now s.cur raw).2.trans h.polled
  simp only [handleClient]
  split <;> exact ⟨hsock, h.nonneg⟩

/-- A client text leaves an open connection open. -/
theorem handleClient_open (h : OneDescriptor s) (hopen : s.conns s.dbFd ≠ none) (raw : CString) :
    (s.handleClient env now raw).conns (s.handleClient env now raw).dbFd ≠ none := by
  have hsock := (processClientRequest_keeps env now s.cur raw).2.trans h.polled
  simp only [handleClient]
  split
  · exact hopen
  · simpa [Session.write, hsock] using hopen

/-- The descriptors stay one as long as the loop goes on. -/
theorem step_one (env : Env) (e : Event) (h : s.running = true → OneDescriptor s)
    (hrun' : (s.step env e).running = true) : OneDescriptor (s.step env e) := by
  by_cases hrun : s.running = true
  · cases e with
    | client now raw =>
      simp only [Session.step, hrun, if_true]
      exact handleClient_one (h hrun) raw
    | reply now reply connect =>
      simp only [Session.step, hrun, if_true]
      split
      · exact handleDbResponse_one (s := s.answered) ⟨(h hrun).polled, (h hrun).nonneg⟩ reply
      · exact h hrun
    | clientGone | dbGone =>
      simp only [Session.step, hrun, if_true] at hrun'
      cases hrun'
  · rw [step_left env e hrun] at hrun' ⊢
    exact h hrun'

theorem passwordMatches_answered {reply : Option Json} :
    PasswordMatches s.answered reply ↔ PasswordMatches s reply := by
  have hlogin : ∀ req, InLogin s.answered req ↔ InLogin s req :=
    fun req => ⟨fun h => ⟨h.request, h.action⟩, fun h => ⟨h.request, h.action⟩⟩
  cases reply <;> simp only [PasswordMatches, hlogin, answered_cur]

/-- One step of the loop: the connection stays open exactly if a reconnection in it succeeds. -/
theorem step_open (env : Env) (e : Event) (hrun : s.running = true) (h : OneDescriptor s)
    (hopen : s.conns s.dbFd ≠ none) :
    ((s.step env e).running = true → (s.step env e).conns (s.step env e).dbFd ≠ none) ↔
      ReconnectSucceeds s e := by
  cases e with
  | client now raw =>
    simp only [Session.step, hrun, if_true]
    exact iff_of_true (fun _ => handleClient_open h hopen raw) trivial
  | reply now reply connect =>
    simp only [Session.step, hrun, if_true, ReconnectSucceeds]
    split
    next q hq =>
      have hopen' : s.answered.conns s.answered.dbFd ≠ none := by simpa [answered] using hopen
      have hrun' : (handleDbResponse env now s.answered reply connect).running = true :=
        (handleDbResponse_running env now s.answered reply connect).trans hrun
      have hiff := handleDbResponse_open env now connect (s := s.answered)
        ⟨h.polled, h.nonneg⟩ hopen' reply
      rw [passwordMatches_answered] at hiff
      simp only [hrun', true_implies, hq, ne_eq, reduceCtorEq, not_false_eq_true]
      exact hiff
    next hq => exact iff_of_true (fun _ => hopen) fun _ h' => absurd hq h'
  | clientGone | dbGone =>
    simp only [Session.step, hrun, if_true]
    refine iff_of_true (fun hrun' => ?_) trivial
    cases hrun'

/-- **The data connection.** In every state of a run in which the loop goes on, one open
connection is written to and polled, exactly when every reconnection of the run succeeds. -/
theorem live_iff (env : Env) (fd : Int) (hfd : 0 ≤ fd) (es : List Event) :
    (∀ pre, pre <+: es → (Run.exec (step env) (start fd) pre).running = true →
        LiveConnection env (Run.exec (step env) (start fd) pre)) ↔
      Run.Along (step env) ReconnectSucceeds (start fd) es := by
  refine (Run.along_true es).forall_prefix_iff (J := fun s => s.running = true → OneDescriptor s)
    (I := fun s => s.running = true → LiveConnection env s) ?_ ?_ ?_ ?_
  · exact fun s e hone _ => step_one env e hone
  · exact fun _ => ⟨rfl, hfd⟩
  · intro s e hone _ hi
    by_cases hrun : s.running = true
    · rw [← step_open env e hrun (hone hrun) (hi hrun).isOpen]
      exact forall_congr' fun hrun' =>
        ⟨(·.isOpen), liveConnection (step_one env e hone hrun').polled⟩
    · rw [step_left env e hrun]
      refine iff_of_true hi ?_
      cases e with
      | reply now reply connect => exact fun hrun' => absurd hrun' hrun
      | _ => trivial
  · exact fun _ => liveConnection rfl (by simp [start])

/-! ## A login without a second connection -/

theorem live_iff_plainLogin :
    (∀ pre, pre <+: plainLogin → (Run.exec (step loginEnv) (start 5) pre).running = true →
        LiveConnection loginEnv (Run.exec (step loginEnv) (start 5) pre)) ↔
      Run.Along (step loginEnv) ReconnectSucceeds (start 5) plainLogin :=
  live_iff loginEnv 5 (by decide) plainLogin

/-- Alice's password matches, and no data server can be reached. -/
def unreachableLogin : List Event :=
  [.client 0 (loginText "alice" "sesame"), .reply 0 (some (hashReply "sesame" "")) (-1)]

/-- The loop goes on with the closed descriptor. -/
theorem closed_descriptor_kept :
    ¬ ∀ (env : Env) (fd : Int) (es : List Event), 0 ≤ fd →
      (Run.exec (step env) (start fd) es).running = true →
        LiveConnection env (Run.exec (step env) (start fd) es) := by
  intro h
  have hlive := h loginEnv 5 unreachableLogin (by decide) (by decide)
  exact hlive.isOpen (by decide)

end FinalServer
