/-
The gate in front of the data connection.
-/
import FinalServer.LogicGate
import FinalServer.Session

namespace FinalServer

/-- The text parses, its action is one of the table with its required fields
there, and it is a login, a registration, or carries a token of a positive
user. -/
def Admitted (env : Env) (now : Int) (raw : CString) : Prop :=
  ∃ json a, IsRequest env raw json a ∧
    (a = .validateUser ∨ a = .createUser ∨ ∃ u, 0 < u ∧ Authorised env now json u)

theorem Forwards.admitted {env : Env} {now : Int} {raw : CString} {a : Action} {stored query : Json}
    (h : Forwards env now raw a stored query) : Admitted env now raw := by
  cases h with
  | validateUser _ h => exact ⟨_, _, h, .inl rfl⟩
  | createUser _ h => exact ⟨_, _, h, .inr (.inl rfl)⟩
  | token _ _ u h _ hu =>
    obtain ⟨t, ht, hv⟩ := hu
    exact ⟨_, _, h, .inr (.inr ⟨u, validateToken_pos hv, t, ht, hv⟩)⟩

/-- **The gate.** A client text is handed over for forwarding only if it is
admitted. One that is not, and any other the server answers itself, is
answered locally, writes nothing to a data connection and leaves the whole of
`current_request` as it was. -/
theorem handleClient_gate (env : Env) (now : Int) (s : Session) (raw : CString) :
    ((processClientRequest env now s.cur raw).handledLocally = false → Admitted env now raw) ∧
    (¬ Admitted env now raw → (processClientRequest env now s.cur raw).handledLocally = true) ∧
    ((processClientRequest env now s.cur raw).handledLocally = true →
      (processClientRequest env now s.cur raw).current = s.cur ∧
      (s.handleClient env now raw).cur = s.cur ∧
      (s.handleClient env now raw).conns = s.conns ∧
      (s.handleClient env now raw).sent =
        s.sent ++ [(processClientRequest env now s.cur raw).message]) := by
  rcases processClientRequest_cases env now s.cur raw with ⟨a, stored, query, hf, he⟩ | hr
  · refine ⟨fun _ => hf.admitted, fun hn => absurd hf.admitted hn, fun hl => ?_⟩
    simp [he] at hl
  · refine ⟨fun hl => ?_, fun _ => hr.handledLocally, fun _ => ⟨hr.current, ?_, ?_, ?_⟩⟩
    · simp [hr.handledLocally] at hl
    · simp [Session.handleClient, hr.handledLocally, hr.current]
    · simp [Session.handleClient, hr.handledLocally]
    · simp [Session.handleClient, hr.handledLocally]

end FinalServer
