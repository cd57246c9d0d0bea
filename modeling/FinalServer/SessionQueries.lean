/-
What the queries of a session have in common.

A property of the queries that clients' texts are forwarded as, and of the
session's own `GET_USER_INFO` query, is a property of every query that waits
on a connection, in every run.
-/
import FinalServer.SessionServing

namespace FinalServer

namespace Session

/-- The unanswered queries of the session have the property. -/
def Queries (P : Json → Prop) (s : Session) : Prop := ∀ fd queries, s.conns fd = some queries → ∀ q ∈ queries, P q

variable {P : Json → Prop} {env : Env} {s : Session}

theorem Queries.mono {P' : Json → Prop} (h : s.Queries P) (hP : ∀ q, P q → P' q) : s.Queries P' :=
  fun fd queries hqueries q hq => hP q (h fd queries hqueries q hq)

theorem Queries.update (h : s.Queries P) {fd : Int} {queries : Option (List Json)}
    (hqueries : ∀ qs, queries = some qs → ∀ q ∈ qs, P q) :
    Queries P { s with conns := Function.update s.conns fd queries } := by
  intro fd' qs hqs
  by_cases hfd : fd' = fd
  · subst hfd
    exact hqueries qs (by simpa using hqs)
  · exact h fd' qs (by simpa [hfd] using hqs)

theorem Queries.write (h : s.Queries P) (fd : Int) {q : Json} (hq : P q) : (s.write fd q).Queries P := by
  refine h.update fun qs hqs => ?_
  obtain ⟨qs', hold, rfl⟩ := Option.map_eq_some_iff.mp hqs
  intro q' hq'
  rcases List.mem_append.mp hq' with hq' | hq'
  · exact h fd qs' hold q' hq'
  · exact List.mem_singleton.mp hq' ▸ hq

theorem Queries.close (h : s.Queries P) (fd : Int) : (s.close fd).Queries P := h.update nofun

theorem Queries.open_ (h : s.Queries P) (fd : Int) : (s.open_ fd).Queries P :=
  h.update fun qs hqs => by
    cases hqs
    exact List.forall_mem_nil _

theorem Queries.answered (h : s.Queries P) : s.answered.Queries P := by
  refine h.update fun qs hqs => ?_
  obtain ⟨qs', hold, rfl⟩ := Option.map_eq_some_iff.mp hqs
  exact fun q hq => h s.dbFd qs' hold q (List.mem_of_mem_tail hq)

theorem Queries.leave (h : s.Queries P) : s.leave.Queries P := by
  simp only [Session.leave]
  split
  · exact h.close _
  · exact h

theorem Queries.passwordMatched (h : s.Queries P) (hinfo : ∀ key, P (userInfoQuery key)) (connect : Int) (req : Json) :
    (s.passwordMatched connect req).Queries P := by
  simp only [Session.passwordMatched]
  split
  · split
    · exact h.close _
    · exact h
  · split
    · exact Queries.write ((h.close _).open_ connect) connect (hinfo _)
    · exact Queries.write (h.open_ connect) connect (hinfo _)

/-- What becomes of the queries when a client's text is forwarded as one of them. -/
theorem Queries.step (h : s.Queries P) (hinfo : ∀ key, P (userInfoQuery key)) {e : Event}
    (hclient : ∀ now raw, e = .client now raw → ∀ a stored query, Forwards env now raw a stored query → P query) :
    (s.step env e).Queries P := by
  unfold Session.step
  split
  next =>
    cases e with
    | client now raw =>
      simp only [handleClient]
      rcases processClientRequest_cases env now s.cur raw with ⟨a, stored, query, hf, hp⟩ | hr
      · rw [hp]
        exact Queries.write h _ (hclient now raw rfl a stored query hf)
      · rw [if_pos hr.handledLocally]
        exact h
    | reply now r connect =>
      simp only
      split
      next =>
        have hreacts := handleDbResponse_reacts env now s.answered r connect
        generalize handleDbResponse env now s.answered r connect = t at hreacts
        cases hreacts with
        | matched r req => exact h.answered.passwordMatched hinfo connect req
        | error | ignored | relayed | token => exact h.answered
      next => exact h
    | clientGone => exact h.leave
    | dbGone timeout =>
      simp only
      split
      · exact Queries.leave h
      · exact h.leave
  next => exact h

theorem start_queries (fd : Int) : (start fd).Queries P := by
  intro fd' qs hqs
  simp only [start] at hqs
  split at hqs
  · cases hqs
    exact List.forall_mem_nil _
  · cases hqs

end Session

/-- The same of a session and its data server. -/
theorem Served.step_queries {P : Json → Prop} {env : Env} {m : Mysql} {survivesFree : Bool} {s : Served}
    (h : s.session.Queries P) (hinfo : ∀ key, P (Session.userInfoQuery key)) {e : Served.Event}
    (hrequest : ∀ now raw, e = .request now raw → ∀ a stored query, Forwards env now raw a stored query → P query) :
    (s.step env m survivesFree e).session.Queries P := by
  cases e with
  | request now raw =>
    have hstep : (s.session.step env (.client now raw)).Queries P := by
      refine h.step hinfo fun now' raw' he => ?_
      cases he
      exact hrequest now raw rfl
    simp only [step, request]
    split
    · split
      · cases survivesFree <;> exact hstep
      · exact hstep
    · exact h
  | answer fd un =>
    simp only [step, answer]
    split <;> exact h
  | reply now connect =>
    simp only [step, reply]
    split
    · exact h.step hinfo fun _ _ he => by cases he
    · exact h
  | closed timeout =>
    simp only [step, closed]
    split
    · exact h.step hinfo fun _ _ he => by cases he
    · exact h
  | gone => exact h
  | other c => exact h

end FinalServer
