/-
Any number of clients, each with a session of its own, and one database.

The logic server forks a process for each client, and the data server one
for each connection; what the sessions share is the database. To each of
them a step of another one is a call from outside (`view_step`).
`token_earned` says of runs in which each session forwards one request at a
time that every token answers a login of its own client, with the password
of its user, and that no other token does.
-/
import FinalServer.Simulation
import FinalServer.TokenIssue

namespace FinalServer

structure Sessions (ι : Type*) where
  session : ι → Session
  peer : ι → Int → Peer
  pending : ι → List (Int × CString)
  db : Db

namespace Sessions

/-- A step of one of the sessions. -/
abbrev Event (ι : Type*) := ι × Served.Event

variable {ι : Type*} [DecidableEq ι] (env : Env) (m : Mysql) (survivesFree : Bool)

/-- A session with its end of the data server. -/
def view (S : Sessions ι) (i : ι) : Served := ⟨S.session i, S.peer i, S.db, S.pending i⟩

/-- One session takes a step. -/
def step (S : Sessions ι) (e : Event ι) : Sessions ι :=
  let s := (S.view e.1).step env m survivesFree e.2
  { session := Function.update S.session e.1 s.session
    peer := Function.update S.peer e.1 s.peer
    pending := Function.update S.pending e.1 s.pending
    db := s.db }

/-- New sessions, each with its data connection. -/
def start (fds : ι → Int) (d : Db) : Sessions ι where
  session i := .start (fds i)
  peer _ _ := .waiting
  pending _ := []
  db := d

/-- The request by which a session's step changes the database. -/
def call (S : Sessions ι) : Event ι → Option Call
  | (i, .answer fd un) =>
    match S.peer i fd, S.session i |>.conns fd with
    | .waiting, some (query :: _) => query.overWire.map fun query => ⟨un, 0, query⟩
    | _, _ => none
  | (_, .other c) => some c
  | _ => none

/-- What a session sees of a step: its own, or what another's does to the database. -/
def seen (i : ι) (S : Sessions ι) (e : Event ι) : List Served.Event :=
  if e.1 = i then [e.2] else (S.call e).toList.map .other

variable {env m survivesFree} {S : Sessions ι} {i : ι}

theorem view_step_own (e : Served.Event) :
    (S.step env m survivesFree (i, e)).view i = (S.view i).step env m survivesFree e := by
  simp [step, view]

/-- What a step does to the database, it does by its call. -/
theorem step_db (e : Event ι) :
    (S.step env m survivesFree e).db = ((S.call e).map (S.db.serve m)).getD S.db := by
  obtain ⟨j, e⟩ := e
  cases e with
  | request now raw =>
    simp only [step, Served.step, Served.request]
    split
    · split <;> rfl
    · rfl
  | answer fd un =>
    simp only [step, Served.step, Served.answer, call, view]
    cases S.peer j fd with
    | closed r => rfl
    | waiting =>
      rcases (S.session j).conns fd with _ | _ | ⟨query, rest⟩
      · rfl
      · rfl
      · dsimp only
        cases query.overWire with
        | none => rfl
        | some query => exact child_snd
  | reply now connect =>
    simp only [step, Served.step, Served.reply]
    split <;> rfl
  | closed timeout =>
    simp only [step, Served.step, Served.closed]
    split <;> rfl
  | gone | other => rfl

theorem view_step (S : Sessions ι) (e : Event ι) : (S.step env m survivesFree e).view i =
    Run.exec (Served.step env m survivesFree) (S.view i) (seen i S e) := by
  obtain ⟨j, e⟩ := e
  by_cases hj : j = i
  · subst hj
    rw [view_step_own, seen, if_pos rfl]
    rfl
  · have hview : (S.step env m survivesFree (j, e)).view i =
        { S.view i with db := (S.step env m survivesFree (j, e)).db } := by
      simp [step, view, Function.update_of_ne (Ne.symm hj)]
    rw [hview, step_db, seen, if_neg hj]
    cases S.call (j, e) <;> rfl

theorem step_session_other {e : Event ι} (hne : i ≠ e.1) : (S.step env m survivesFree e).session i = S.session i :=
  Function.update_of_ne hne _ _

theorem step_session_own {e : Served.Event} :
    (S.step env m survivesFree (i, e)).session i = ((S.view i).step env m survivesFree e).session := by
  simp [step]

/-! ## Runs with one request at a time -/

/-- The session forwards a request only when its client waits for none. -/
def OneAtATime (env : Env) (S : Sessions ι) (e : Event ι) : Prop := (S.view e.1).OneAtATime env e.2

/-- What follows a request in a run: no other request of the session is
forwarded, and it is sent no token. -/
structure Outstanding (env : Env) (m : Mysql) (survivesFree : Bool) (S₀ : Sessions ι) (i : ι) (before : List (Event ι))
    (now : Int) (raw : CString) (after : List (Event ι)) : Prop where
  last : ∀ now' raw', (i, .request now' raw') ∈ after → ¬ Served.Forwarded env (now', raw')
  noToken : ∃ sent,
    ((Run.exec (step env m survivesFree) S₀ (before ++ (i, .request now raw) :: after)).session i).sent =
        ((Run.exec (step env m survivesFree) S₀ before).session i).sent ++ sent ∧
      ∀ msg ∈ sent, msg.getObjectItem "token" = none

/-- Some session has given a token of the user in this run, to a client that had earned it. -/
def Given (env : Env) (m : Mysql) (survivesFree : Bool) (S₀ : Sessions ι) (es : List (Event ι)) (now u : Int) : Prop :=
  ∃ before k connect after, es = before ++ (k, .reply now connect) :: after ∧
    ((Run.exec (step env m survivesFree) S₀ before).view k).Earns env m u

/-- What a run has left: every session is at a stage of its request, which is
outstanding, and its tokens have been given. -/
structure Traced (env : Env) (m : Mysql) (survivesFree : Bool) (S₀ : Sessions ι) (es : List (Event ι))
    (S : Sessions ι) : Prop where
  views : ∀ i, (S.view i).Traced env m
  asked : ∀ i, ∀ r ∈ S.pending i, ∃ before after, es = before ++ (i, .request r.1 r.2) :: after ∧
    Outstanding env m survivesFree S₀ i before r.1 r.2 after
  tokens : ∀ i, ∀ msg ∈ (S.session i).sent, msg.getObjectItem "token" ≠ none →
    ∃ now u, msg = Session.loginAnswer env now u ∧ Given env m survivesFree S₀ es now u

section Step

variable {S₀ : Sessions ι} {es : List (Event ι)} {e : Event ι}

theorem Given.append {now u : Int} (h : Given env m survivesFree S₀ es now u) (e : Event ι) :
    Given env m survivesFree S₀ (es ++ [e]) now u := by
  obtain ⟨before, k, connect, after, rfl, hearns⟩ := h
  exact ⟨before, k, connect, after ++ [e], by simp, hearns⟩

/-- A request stays outstanding while its session forwards nothing and sends no token. -/
theorem Outstanding.append {before after : List (Event ι)} {now : Int} {raw : CString}
    (h : Outstanding env m survivesFree S₀ i before now raw after)
    (hlast : ∀ now' raw', e = (i, .request now' raw') → ¬ Served.Forwarded env (now', raw'))
    (hsent : ∃ sent,
      ((Run.exec (step env m survivesFree) S₀ (before ++ (i, .request now raw) :: after ++ [e])).session i).sent =
          ((Run.exec (step env m survivesFree) S₀ (before ++ (i, .request now raw) :: after)).session i).sent ++ sent ∧
        ∀ msg ∈ sent, msg.getObjectItem "token" = none) :
    Outstanding env m survivesFree S₀ i before now raw (after ++ [e]) where
  last now' raw' hmem := by
    rcases List.mem_append.mp hmem with hmem | hmem
    · exact h.last now' raw' hmem
    · exact hlast now' raw' (List.mem_singleton.mp hmem).symm
  noToken := by
    obtain ⟨sent, hold, hnone⟩ := h.noToken
    obtain ⟨new, hnew, hnone'⟩ := hsent
    refine ⟨sent ++ new, ?_, List.forall_mem_append.mpr ⟨hnone, hnone'⟩⟩
    rw [← List.append_assoc, ← hold, ← hnew, List.append_assoc, List.cons_append]

variable (h : Traced env m survivesFree S₀ es (Run.exec (step env m survivesFree) S₀ es))
  (hone : OneAtATime env (Run.exec (step env m survivesFree) S₀ es) e)

include h hone

theorem Traced.step_views (i : ι) :
    (((Run.exec (step env m survivesFree) S₀ es).step env m survivesFree e).view i).Traced env m := by
  have hseen : Run.Along (Served.step env m survivesFree) (Served.OneAtATime env)
      ((Run.exec (step env m survivesFree) S₀ es).view i) (seen i (Run.exec (step env m survivesFree) S₀ es) e) := by
    unfold seen
    split
    next hi => exact ⟨hi ▸ hone, trivial⟩
    next =>
      cases Sessions.call (Run.exec (step env m survivesFree) S₀ es) e with
      | none => trivial
      | some c => exact ⟨trivial, trivial⟩
  rw [view_step]
  exact hseen.invariant (fun s e hs he => (Served.step_traced hs he).2) (h.views i)

theorem Traced.step_asked {r : Int × CString}
    (hr : r ∈ ((Run.exec (step env m survivesFree) S₀ es).step env m survivesFree e).pending i) :
    ∃ before after, es ++ [e] = before ++ (i, .request r.1 r.2) :: after ∧
      Outstanding env m survivesFree S₀ i before r.1 r.2 after := by
  obtain ⟨j, e⟩ := e
  have hexec : Run.exec (step env m survivesFree) S₀ (es ++ [(j, e)]) =
      (Run.exec (step env m survivesFree) S₀ es).step env m survivesFree (j, e) := by
    rw [Run.exec_append]
    rfl
  by_cases hi : i = j
  · subst hi
    have hpending : ((Run.exec (step env m survivesFree) S₀ es).step env m survivesFree (i, e)).pending i =
        (((Run.exec (step env m survivesFree) S₀ es).view i).step env m survivesFree e).pending := by
      simp [step]
    rw [hpending] at hr
    rcases Served.step_pending (h.views i) hone hr with ⟨rfl, hsent⟩ | hwaits
    · refine ⟨es, [], rfl, fun _ _ hmem => (List.not_mem_nil hmem).elim, [], ?_, List.forall_mem_nil _⟩
      rw [hexec, step_session_own, List.append_nil]
      exact hsent
    · obtain ⟨before, after, hes, hout⟩ := h.asked i r hwaits.waited
      obtain ⟨sent, hsent, hnone⟩ := hwaits.noToken
      refine ⟨before, after ++ [(i, e)], by rw [hes]; simp, hout.append (fun now' raw' he => ?_) ⟨sent, ?_, hnone⟩⟩
      · exact hwaits.notForwarded now' raw' (Prod.mk.inj he).2
      · rw [← hes, hexec, step_session_own]
        exact hsent
  · obtain ⟨before, after, hes, hout⟩ := h.asked i r (by simpa [step, Function.update_of_ne hi] using hr)
    refine ⟨before, after ++ [(j, e)], by rw [hes]; simp, hout.append (fun now' raw' he => ?_)
      ⟨[], ?_, List.forall_mem_nil _⟩⟩
    · exact absurd (Prod.mk.inj he).1.symm hi
    · rw [← hes, hexec, step_session_other hi, List.append_nil]

theorem Traced.step_tokens {msg : Json}
    (hmsg : msg ∈ (((Run.exec (step env m survivesFree) S₀ es).step env m survivesFree e).session i).sent)
    (htoken : msg.getObjectItem "token" ≠ none) :
    ∃ now u, msg = Session.loginAnswer env now u ∧ Given env m survivesFree S₀ (es ++ [e]) now u := by
  have hold : msg ∈ ((Run.exec (step env m survivesFree) S₀ es).session i).sent →
      ∃ now u, msg = Session.loginAnswer env now u ∧ Given env m survivesFree S₀ (es ++ [e]) now u := by
    intro hmsg
    obtain ⟨now, u, hu, hgiven⟩ := h.tokens i msg hmsg htoken
    exact ⟨now, u, hu, hgiven.append e⟩
  obtain ⟨j, e⟩ := e
  by_cases hi : i = j
  · subst hi
    rw [step_session_own] at hmsg
    rcases Served.step_sent env m survivesFree ((Run.exec (step env m survivesFree) S₀ es).view i) e with
      hsame | ⟨new, hsent, -⟩
    · exact hold (hsame ▸ hmsg)
    rw [hsent] at hmsg
    rcases List.mem_append.mp hmsg with hmsg | hmsg
    · exact hold hmsg
    · obtain rfl := List.mem_singleton.mp hmsg
      obtain ⟨now, connect, u, rfl, hu, hearns⟩ := (Served.step_traced (h.views i) hone).1 msg hsent htoken
      exact ⟨now, u, hu, es, i, connect, [], rfl, hearns⟩
  · rw [step_session_other hi] at hmsg
    exact hold hmsg

end Step

theorem run_traced (fds : ι → Int) (d : Db) {es : List (Event ι)}
    (hone : Run.Along (step env m survivesFree) (OneAtATime env) (start fds d) es) :
    Traced env m survivesFree (start fds d) es (Run.exec (step env m survivesFree) (start fds d) es) := by
  refine hone.history (fun pre e hpre he =>
    ⟨hpre.step_views he, fun i r hr => hpre.step_asked he hr, fun i msg hmsg => hpre.step_tokens he hmsg⟩) ?_
  exact ⟨fun i => Served.start_traced env m (fds i) d, fun i r hr => (by cases hr),
    fun i msg hmsg => (by cases hmsg)⟩

/-- Alice logs in. -/
def aliceAsks : List (Event Unit) :=
  [((), .request 0 (loginText "alice" "sesame")), ((), .answer 5 .zero), ((), .reply 0 6), ((), .answer 6 .zero)]

def aliceAsksEnv : Env := .ofTables [(loginText "alice" "sesame", loginJson "alice" "sesame")] []

end Sessions

end FinalServer
