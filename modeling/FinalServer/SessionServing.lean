/-
How long a session serves its client.

`Served` is a session together with the data server at the other end of its
connections: a child process takes one query from a connection, answers it
and closes the connection. The client may send a request whenever it likes.
`serving_iff` says of a client that waits for each reply which runs leave the
session fit for another request after every reply: those in which every
reply is the logic server's own.
-/
import FinalServer.Initialised
import FinalServer.Login

namespace FinalServer

/-- The data server's end of a connection. -/
inductive Peer
  /-- A child process waits for its query. -/
  | waiting
  /-- The child has closed the connection; what it answered, if it did, may be unread. -/
  | closed (unread : Option (Option Json))
  deriving DecidableEq

structure Served where
  session : Session
  peer : Int → Peer
  db : Db
  /-- The requests that have been forwarded and whose replies the client has not got, oldest first. -/
  pending : List (Int × CString)

inductive Served.Event
  /-- The client sends a request, and `handle_client` takes it. -/
  | request (now : Int) (raw : CString)
  /-- The child at the other end of a connection answers its query. -/
  | answer (fd : Int) (un : Uninit)
  /-- `handle_client` takes the answer; what `connect_to_db_balancers` returns if called. -/
  | reply (now connect : Int)
  /-- `recv` finds the data connection closed; `errno` may still say `EAGAIN`. -/
  | closed (timeout : Bool)
  /-- `recv` finds the client gone. -/
  | gone
  /-- Another client's request changes the database. -/
  | other (c : Call)

/-- One of the items of a request. -/
def Freed.isItem : Freed → Bool
  | .item (some _) => true
  | _ => false

/-- A child process with what it has read of its query: what it sends, if
anything, and the database. What `EXIT_CHAT` frees is freed again with the
request, and that comes before the reply is sent. The language leaves open
what comes of a second `free`: the process goes on, or is aborted. -/
def child (m : Mysql) (survivesFree : Bool) (un : Uninit) (d : Db) : Option Json → Option Json × Db
  | none => (none, d)
  | some query =>
    let r := d.run m (handleActionFrees ⟨un, ("", "")⟩ query)
    (if survivesFree = false ∧ r.1.2.any Freed.isItem = true then none else r.1.1, r.2)

/-- With what it frees or without, `handle_action` is the same. -/
theorem run_handleActionFrees {m : Mysql} {un : Uninit} {d : Db} {query : Json} :
    d.run m (handleAction un query) = ((d.run m (handleActionFrees ⟨un, ("", "")⟩ query)).1.1,
      (d.run m (handleActionFrees ⟨un, ("", "")⟩ query)).2) := by
  have hfst : handleAction un query = (do let r ← handleActionFrees ⟨un, ("", "")⟩ query; return r.1) :=
    (@handleActionFrees_fst ⟨un, ("", "")⟩ query).symm
  rw [hfst, Db.run_bind, Db.run_pure]

section Child

variable {m : Mysql} {survivesFree : Bool} {un : Uninit} {d : Db} {query reply : Json} {received : Option Json}

theorem child_snd : (child m survivesFree un d (some query)).2 = (d.run m (handleAction un query)).2 :=
  (congrArg Prod.snd run_handleActionFrees).symm

/-- What a child sends is what `handle_action` replies. -/
theorem child_fst (h : (child m survivesFree un d received).1 = some reply) :
    ∃ query, received = some query ∧ (d.run m (handleAction un query)).1 = some reply := by
  cases received with
  | none => cases h
  | some query =>
    refine ⟨query, rfl, ?_⟩
    rw [run_handleActionFrees]
    simp only [child] at h
    split at h
    · cases h
    · exact h

end Child

namespace Served

/-- A new session, its connection taken by a child of the data server. -/
def start (fd : Int) (d : Db) : Served :=
  { session := .start fd, peer := fun _ => .waiting, db := d, pending := [] }

/-- The process is gone. What it has written to its connections can still be read from them. -/
def exit (s : Session) : Session := { s with running := false }

/-- A reply has made the session open a new data connection. -/
def Reconnects (s s' : Session) : Prop := s.cur.authState = .initial ∧ s'.cur.authState = .validated

instance (s s' : Session) : Decidable (Reconnects s s') := inferInstanceAs (Decidable (_ ∧ _))

/-- `handle_client` takes a client's text. A local answer is freed twice, in
the branch and after it. -/
def request (env : Env) (survivesFree : Bool) (s : Served) (now : Int) (raw : CString) : Served :=
  if s.session.running then
    let session := s.session.step env (.client now raw)
    if (processClientRequest env now s.session.cur raw).handledLocally then
      { s with session := if survivesFree then session else exit session }
    else { s with session, pending := s.pending ++ [(now, raw)] }
  else s

/-- The child of `main` (`data_server.c`): one `read`, one answer, `close`. Of
several queries it reads the first. -/
def answer (m : Mysql) (survivesFree : Bool) (s : Served) (fd : Int) (un : Uninit) : Served :=
  match s.peer fd, s.session.conns fd with
  | .waiting, some (query :: _) =>
    let r := child m survivesFree un s.db query.overWire
    { s with peer := Function.update s.peer fd (.closed (r.1.map Json.overWire)), db := r.2 }
  | _, _ => s

/-- The session has taken something from its data connection; what it sends
the client then is the reply to the oldest request. -/
def took (s : Served) (session : Session) (peer : Int → Peer) : Served :=
  { s with session, peer, pending := if session.sent = s.session.sent then s.pending else s.pending.tail }

def reply (env : Env) (s : Served) (now connect : Int) : Served :=
  match s.peer s.session.dbFd with
  | .closed (some r) =>
    let session := s.session.step env (.reply now r connect)
    let peer := Function.update s.peer s.session.dbFd (.closed none)
    s.took session (if Reconnects s.session session then Function.update peer connect .waiting else peer)
  | _ => s

def closed (env : Env) (s : Served) (timeout : Bool) : Served :=
  match s.peer s.session.dbFd with
  | .closed none => s.took (s.session.step env (.dbGone timeout)) s.peer
  | _ => s

def step (env : Env) (m : Mysql) (survivesFree : Bool) (s : Served) : Event → Served
  | .request now raw => s.request env survivesFree now raw
  | .answer fd un => s.answer m survivesFree fd un
  | .reply now connect => s.reply env now connect
  | .closed timeout => s.closed env timeout
  | .gone => { s with session := exit s.session }
  | .other c => { s with db := s.db.serve m c }

/-! ## Serving -/

/-- The loop has not been left, and the connection that the next request would
be forwarded on is open, with a child of the data server to take it. -/
structure Serving (s : Served) : Prop where
  running : s.session.running = true
  isOpen : s.session.conns s.session.cur.currentDbSock ≠ none
  waiting : s.peer s.session.cur.currentDbSock = .waiting

/-- The step sends the client something. -/
def Replies (env : Env) (m : Mysql) (survivesFree : Bool) (s : Served) (e : Event) : Prop :=
  (s.step env m survivesFree e).session.sent ≠ s.session.sent

/-- The request that a reply of this step answers. -/
def asked (s : Served) : Event → Option (Int × CString)
  | .request now raw => some (now, raw)
  | _ => s.pending.head?

/-- The client sends a request only when it waits for no reply. -/
def Waits (s : Served) : Event → Prop
  | .request _ _ => s.pending = []
  | _ => True

/-- The request goes to the data server. -/
def Forwarded (env : Env) (r : Int × CString) : Prop := ∃ a stored query, Forwards env r.1 r.2 a stored query

/-- The request answered is one the logic server answers itself, and the process
survives the second `free` of that answer. -/
def OwnReply (env : Env) (survivesFree : Bool) (s : Served) (e : Event) : Prop :=
  survivesFree = true ∧ ∀ r, s.asked e = some r → ¬ Forwarded env r

/-- Between requests the session waits for nothing, and its connection is
taken; a request whose reply is out has been forwarded. -/
structure Sound (env : Env) (s : Served) : Prop where
  polled : s.session.dbFd = s.session.cur.currentDbSock
  idle : s.pending = [] → s.session.conns s.session.dbFd = some [] ∧ s.peer s.session.dbFd = .waiting
  forwarded : ∀ r ∈ s.pending, Forwarded env r

variable {env : Env} {m : Mysql} {survivesFree : Bool} {s : Served}

theorem sound_start (env : Env) (fd : Int) (d : Db) : Sound env (start fd d) :=
  ⟨rfl, fun _ => ⟨if_pos rfl, rfl⟩, nofun⟩

/-! ## What one step does -/

section Reacts

open Session

variable {now connect : Int} {t t' : Session} {r : Option Json}

theorem passwordMatched_sent_eq_iff {req : Json} :
    (t.passwordMatched connect req).sent = t.sent ↔ ¬ connect < 0 := by
  simp only [passwordMatched]
  split <;> split <;> simp_all [sendClient, close, open_, Session.write]

/-- A reply that reaches the client leaves the session with the connection it came from. -/
theorem reacts_replied (h : Reacts env now t connect r t') (hne : t'.sent ≠ t.sent) :
    t'.dbFd = t.dbFd ∧ t'.cur.currentDbSock = t.cur.currentDbSock ∧ ¬ Reconnects t t' := by
  cases h with
  | error r e he => exact ⟨rfl, rfl, fun hr => by simpa [hr.1] using hr.2⟩
  | ignored r => exact absurd rfl hne
  | relayed r req hreq ha => exact ⟨rfl, rfl, fun hr => by simpa [hr.1] using hr.2⟩
  | matched r req p hl hst hs hp hh =>
    have hneg : connect < 0 := by
      by_contra hc
      exact hne (passwordMatched_sent_eq_iff.mpr hc)
    have hst' : (t.passwordMatched connect req).cur.authState = t.cur.authState := by
      simp only [passwordMatched, hneg, if_true]
      split <;> rfl
    refine ⟨?_, ?_, fun hr => ?_⟩
    · simp only [passwordMatched, hneg, if_true]
      split <;> rfl
    · simp only [passwordMatched, hneg, if_true]
      split <;> rfl
    · rw [Reconnects, hst', hst] at hr
      exact absurd hr.2 (by decide)
  | token r req d hl hst => exact ⟨rfl, rfl, fun hr => absurd (hst.symm.trans hr.1) (by decide)⟩

/-- One that does not leaves it polling the connection it writes to. -/
theorem reacts_silent (h : Reacts env now t connect r t') (heq : t'.sent = t.sent)
    (hp : t.dbFd = t.cur.currentDbSock) : t'.dbFd = t'.cur.currentDbSock := by
  cases h with
  | error r e he => exact hp
  | ignored r => exact hp
  | relayed r req hreq ha => exact hp
  | matched r req p hl hst hs _ hh =>
    have hneg : ¬ connect < 0 := passwordMatched_sent_eq_iff.mp heq
    simp only [passwordMatched, hneg, if_false]
    rfl
  | token r req d hl hst => exact hp

end Reacts

theorem dbGone_running (env : Env) (t : Session) (timeout : Bool) : (t.step env (.dbGone timeout)).running = false := by
  rw [Session.step]
  split
  · rfl
  next hleft => simpa using hleft

/-- Without the loop nothing happens to the session. -/
theorem step_left (env : Env) (m : Mysql) (survivesFree : Bool) (hrun : s.session.running = false) (e : Event) :
    (s.step env m survivesFree e).session = s.session := by
  cases e with
  | request now raw => simp [step, request, hrun]
  | answer fd un =>
    simp only [step, answer]
    split <;> rfl
  | reply now connect =>
    simp only [step, reply]
    split
    · simp [took, Session.step, hrun]
    · rfl
  | closed timeout =>
    simp only [step, closed]
    split
    · simp [took, Session.step, hrun]
    · rfl
  | gone => simp [step, exit, ← hrun]
  | other c => rfl

/-- What a step of a running session does for the one that follows. -/
structure StepOk (env : Env) (survivesFree : Bool) (s : Served) (e : Event) (s' : Served) : Prop where
  /-- A reply leaves the session serving exactly if it is the server's own. -/
  replied : s'.session.sent ≠ s.session.sent → (Serving s' ↔ OwnReply env survivesFree s e)
  /-- Unless one has left it not serving, the session stays sound. -/
  sound : (s'.session.sent ≠ s.session.sent → Serving s') → s'.session.running = true → Sound env s'

theorem StepOk.of_silent {e : Event} {s' : Served} (hsent : s'.session.sent = s.session.sent)
    (h : s'.session.running = true → Sound env s') : StepOk env survivesFree s e s' :=
  ⟨fun hne => absurd hsent hne, fun _ => h⟩

/-- A reply that leaves the session not serving, to a request that was forwarded. -/
theorem StepOk.of_lost {e : Event} {s' : Served} {q : Int × CString} (hno : ¬ Serving s')
    (hsent : s'.session.sent ≠ s.session.sent) (hq : s.asked e = some q) (hf : Forwarded env q) :
    StepOk env survivesFree s e s' :=
  ⟨fun _ => iff_of_false hno fun ho => ho.2 q hq hf, fun h => absurd (h hsent) hno⟩

theorem request_ok (hs : Sound env s) (now : Int) (raw : CString) (hpend : s.pending = []) :
    StepOk env survivesFree s (.request now raw) (s.request env survivesFree now raw) := by
  rw [request]
  split
  next hrun =>
    obtain ⟨hconns, hpeer⟩ := hs.idle hpend
    simp only [Session.step, hrun, if_true, Session.handleClient]
    rcases processClientRequest_cases env now s.session.cur raw with ⟨a, stored, query, hf, he⟩ | hr
    · -- The request goes to the data server, and the client waits.
      simp only [he, Bool.false_eq_true, if_false]
      refine .of_silent rfl fun _ => ⟨hs.polled, by simp, ?_⟩
      intro r hr
      rw [hpend, List.nil_append, List.mem_singleton] at hr
      exact hr ▸ ⟨a, stored, query, hf⟩
    · simp only [hr.handledLocally, if_true, hr.current]
      have hown : OwnReply env survivesFree s (.request now raw) ↔ survivesFree = true :=
        ⟨fun h => h.1, fun h => ⟨h, fun r hq => by
          cases hq
          rintro ⟨a, stored, query, hf⟩
          exact hr.not_forwards a stored query hf⟩⟩
      cases survivesFree with
      | true =>
        -- The session is as before, one answer and one request further on.
        refine ⟨fun _ => iff_of_true ⟨rfl, ?_, ?_⟩ (hown.mpr rfl), fun _ _ => ⟨hs.polled, fun _ => ?_, hs.forwarded⟩⟩
        · show s.session.conns s.session.cur.currentDbSock ≠ none
          rw [← hs.polled, hconns]
          simp
        · show s.peer s.session.cur.currentDbSock = .waiting
          rw [← hs.polled, hpeer]
        · exact ⟨hconns, hpeer⟩
      | false =>
        refine ⟨fun _ => iff_of_false (fun h => by simpa [exit] using h.running) (by simp [hown]), fun _ h => ?_⟩
        simp [exit] at h
  next => exact .of_silent rfl fun _ => hs

theorem reply_ok (hs : Sound env s) (hrun : s.session.running = true) (now connect : Int) :
    StepOk env survivesFree s (.reply now connect) (s.reply env now connect) := by
  rw [reply]
  split
  next r hpeer =>
    -- An answer has come, so the client waits for one.
    cases hpend : s.pending with
    | nil => simp [(hs.idle hpend).2] at hpeer
    | cons q qs =>
    have hf := hs.forwarded q (hpend ▸ List.mem_cons_self)
    have hasked : s.asked (.reply now connect) = some q := congrArg List.head? hpend
    have hne : s.pending ≠ [] := by rw [hpend]; exact List.cons_ne_nil q qs
    simp only [Session.step, hrun, if_true]
    split
    next query haw =>
      have hreacts := Session.handleDbResponse_reacts env now s.session.answered r connect
      generalize Session.handleDbResponse env now s.session.answered r connect = t at hreacts
      by_cases hsent : t.sent = s.session.sent
      · refine .of_silent hsent fun _ => ⟨reacts_silent hreacts hsent hs.polled, fun h => ?_, ?_⟩
        · exact absurd ((if_pos hsent).symm.trans h) hne
        · rw [took, if_pos hsent]
          exact hs.forwarded
      · obtain ⟨-, hfd, hre⟩ := reacts_replied hreacts hsent
        refine .of_lost (fun hserv => ?_) hsent hasked hf
        have hwait := hserv.waiting
        rw [took, if_neg (show ¬ Reconnects s.session t from hre)] at hwait
        simp only [hfd, Session.answered_cur, ← hs.polled, Function.update_self] at hwait
        cases hwait
    next =>
      refine .of_silent rfl fun _ => ⟨hs.polled, fun h => ?_, ?_⟩
      · exact absurd ((if_pos rfl).symm.trans h) hne
      · rw [took, if_pos rfl]
        exact hs.forwarded
  next => exact .of_silent rfl fun _ => hs

theorem closed_ok (hs : Sound env s) (timeout : Bool) :
    StepOk env survivesFree s (.closed timeout) (s.closed env timeout) := by
  rw [closed]
  split
  next hpeer =>
    cases hpend : s.pending with
    | nil => simp [(hs.idle hpend).2] at hpeer
    | cons q qs =>
    have hasked : s.asked (.closed timeout) = some q := congrArg List.head? hpend
    have hleft : (s.session.step env (.dbGone timeout)).running = false := dbGone_running env s.session timeout
    by_cases hsent : (s.session.step env (.dbGone timeout)).sent = s.session.sent
    · refine .of_silent hsent fun h => ?_
      simp [took, hleft] at h
    · refine .of_lost (fun hserv => ?_) hsent hasked (hs.forwarded q (hpend ▸ List.mem_cons_self))
      have hrunning := hserv.running
      simp [took, hleft] at hrunning
  next => exact .of_silent rfl fun _ => hs

theorem answer_ok (hs : Sound env s) (fd : Int) (un : Uninit) :
    StepOk env survivesFree s (.answer fd un) (s.answer m survivesFree fd un) := by
  rw [answer]
  split
  next query _ hpeer hconns =>
    refine .of_silent rfl fun _ => ⟨hs.polled, fun hpend => ?_, hs.forwarded⟩
    obtain ⟨hidle, hwait⟩ := hs.idle hpend
    have hne : fd ≠ s.session.dbFd := by
      rintro rfl
      simp [hidle] at hconns
    exact ⟨hidle, (Function.update_of_ne hne.symm _ _).trans hwait⟩
  next => exact .of_silent rfl fun _ => hs

theorem step_ok (hs : s.session.running = true → Sound env s) {e : Event} (hwaits : s.Waits e) :
    StepOk env survivesFree s e (s.step env m survivesFree e) := by
  cases hrun : s.session.running with
  | false =>
    have hleft := step_left env m survivesFree hrun e
    refine .of_silent (congrArg _ hleft) fun h => ?_
    simp [hleft, hrun] at h
  | true =>
    have hs := hs hrun
    cases e with
    | request now raw => exact request_ok hs now raw hwaits
    | answer fd un => exact answer_ok hs fd un
    | reply now connect => exact reply_ok hs hrun now connect
    | closed timeout => exact closed_ok hs timeout
    | gone => exact .of_silent rfl fun h => by cases h
    | other c => exact .of_silent rfl fun _ => ⟨hs.polled, hs.idle, hs.forwarded⟩

/-- A connection found closed ends the session. -/
theorem closed_running (hpeer : s.peer s.session.dbFd = .closed none) (timeout : Bool) :
    (s.closed env timeout).session.running = false := by
  simp only [closed, hpeer]
  exact dbGone_running env s.session timeout

/-- When an answer has been passed on, the session ends as soon as it looks at
the connection again. -/
theorem reply_then_closed (hrun : s.session.running = true) {now connect : Int}
    (hne : (s.reply env now connect).session.sent ≠ s.session.sent) (timeout : Bool) :
    ((s.reply env now connect).closed env timeout).session.running = false := by
  rw [reply] at hne ⊢
  split at hne
  next r hpeer =>
    simp only [Session.step, hrun, if_true] at hne ⊢
    split at hne
    next query haw =>
      have hreacts := Session.handleDbResponse_reacts env now s.session.answered r connect
      generalize Session.handleDbResponse env now s.session.answered r connect = t at hreacts hne ⊢
      obtain ⟨hfd, -, hre⟩ := reacts_replied hreacts hne
      refine closed_running ?_ timeout
      rw [if_neg (show ¬ Reconnects s.session t from hre)]
      show Function.update s.peer s.session.dbFd _ t.dbFd = _
      rw [show t.dbFd = s.session.dbFd from hfd, Function.update_self]
    next => exact absurd rfl hne
  next => exact absurd rfl hne

end Served

open Served

/-- **How long a session serves.** In every run in which the client waits for
each reply the session can take another request after every reply exactly if
every reply is to a request the logic server answers itself, and its second
`free` of that answer does no harm. -/
theorem serving_iff (env : Env) (m : Mysql) (survivesFree : Bool) (fd : Int) (d : Db) {es : List Served.Event}
    (hwaits : Run.Along (step env m survivesFree) Waits (start fd d) es) :
    Run.Along (step env m survivesFree)
        (fun s e => Replies env m survivesFree s e → Serving (s.step env m survivesFree e)) (start fd d) es ↔
      Run.Along (step env m survivesFree)
        (fun s e => Replies env m survivesFree s e → OwnReply env survivesFree s e) (start fd d) es := by
  have hiff : Run.Along (step env m survivesFree)
        (fun s e => s.Waits e ∧ (Replies env m survivesFree s e → Serving (s.step env m survivesFree e)))
        (start fd d) es ↔
      Run.Along (step env m survivesFree)
        (fun s e => s.Waits e ∧ (Replies env m survivesFree s e → OwnReply env survivesFree s e)) (start fd d) es := by
    refine Run.along_iff_along (J := fun s => s.session.running = true → Sound env s)
      (fun _ => sound_start env fd d) (fun s e hs hok => (step_ok hs hok.1).sound hok.2) fun s e hs => ?_
    exact and_congr_right fun hw => forall_congr' fun hr => (step_ok hs hw).replied hr
  exact ⟨fun h => (hiff.mp (hwaits.and h)).mono fun _ _ h => h.2,
    fun h => (hiff.mpr (hwaits.and h)).mono fun _ _ h => h.2⟩

/-- Alice mistypes her password. -/
def mistyped : List Served.Event := [.request 0 (loginText "alice" "pw"), .answer 5 .zero, .reply 0 6]

def mistypedEnv : Env := .ofTables [(loginText "alice" "pw", loginJson "alice" "pw")] []

theorem mistyped_waits (survivesFree : Bool) :
    Run.Along (step mistypedEnv .tableOrder survivesFree) Waits (start 5 .threeUsers) mistyped :=
  ⟨rfl, trivial, trivial, trivial⟩

theorem serving_iff_mistyped :
    Run.Along (step mistypedEnv .tableOrder true)
        (fun s e => Replies mistypedEnv .tableOrder true s e → Serving (s.step mistypedEnv .tableOrder true e))
        (start 5 .threeUsers) mistyped ↔
      Run.Along (step mistypedEnv .tableOrder true)
        (fun s e => Replies mistypedEnv .tableOrder true s e → OwnReply mistypedEnv true s e)
        (start 5 .threeUsers) mistyped :=
  serving_iff mistypedEnv .tableOrder true 5 .threeUsers (mistyped_waits true)

/-- She is told so, and no other request of hers would be taken. -/
theorem mistyped_not_serving :
    ¬ ∀ (env : Env) (m : Mysql) (survivesFree : Bool) (fd : Int) (d : Db) (es : List Served.Event),
      Run.Along (step env m survivesFree) Waits (start fd d) es → Run.Along (step env m survivesFree)
        (fun s e => Replies env m survivesFree s e → Serving (s.step env m survivesFree e)) (start fd d) es := by
  intro h
  obtain ⟨-, -, hlast, -⟩ := h mistypedEnv .tableOrder true 5 .threeUsers mistyped (mistyped_waits true)
  have hserving := hlast (by unfold Replies; decide +kernel)
  exact absurd hserving.waiting (by decide +kernel)

end FinalServer
