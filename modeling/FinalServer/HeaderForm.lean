/-
A client's text in its two forms: encrypted, and encrypted with the header
`CESAR:` before it is encrypted once more.

`handle_client` undoes the outer encryption in its buffer and the header form
in a copy (`decrypted_message`), but it hands the buffer on. So a text in the
header form is never handed on decrypted, and nothing is acted on
(`headerForm_refused`).
-/
import FinalServer.Segmentation

namespace FinalServer

/-- What the first `recv` gives of a text that the client sends encrypted. -/
def firstChunk (now : Int) (text : CString) : Int × List UInt8 :=
  (now, (cesarEncrypt CESAR_SHIFT text).bytes.take (BUFFER_SIZE - 1))

/-- `decrypted_message`, of the chunk in the buffer. -/
def decryptedMessage (c : Int × List UInt8) : CString := decryptCesarMessage CESAR_SHIFT (receivedText c)

/-- The turn of the loop that receives the chunk; its text is handed on as
`process_client_request` gets it. -/
def Session.receive (env : Env) (s : Session) (c : Int × List UInt8) : Session :=
  s.step env (.client c.1 (receivedText c))

/-- The session acts on one request, in whichever form the text is sent, and
hands the decrypted text on. -/
structure ActsAlike (env : Env) (s : Session) (now : Int) (m : CString) : Prop where
  sameRequest : (s.receive env (firstChunk now (encryptCesarResponse CESAR_SHIFT m))).requests env =
    (s.receive env (firstChunk now m)).requests env
  decrypted : ∀ text ∈ [m, encryptCesarResponse CESAR_SHIFT m],
    (s.receive env (firstChunk now text)).received = s.received ++ [decryptedMessage (firstChunk now text)]

variable {env : Env} {s : Session}

/-- Of a text that is too long for the buffer its beginning is received. -/
theorem receivedText_firstChunk (now : Int) (t : CString) :
    receivedText (firstChunk now t) = t.take (BUFFER_SIZE - 1) := by
  have hcut : firstChunk now t = (now, (cesarEncrypt CESAR_SHIFT (t.take (BUFFER_SIZE - 1))).bytes) := by
    rw [firstChunk, cesarEncrypt_bytes (by decide), cesarEncrypt_bytes (by decide), CString.take_bytes, List.map_take]
  rw [hcut, receivedText_encrypted]

theorem receive_received (hrun : s.running = true) (now : Int) (t : CString) :
    (s.receive env (firstChunk now t)).received = s.received ++ [t.take (BUFFER_SIZE - 1)] := by
  rw [Session.receive, (step_client_received env hrun _ _).2, receivedText_firstChunk]

theorem receive_requests (hrun : s.running = true) (now : Int) (t : CString) :
    (s.receive env (firstChunk now t)).requests env =
      s.requests env ++ (env.parse (t.take (BUFFER_SIZE - 1))).toList := by
  rw [Session.requests, receive_received hrun, List.filterMap_append, Session.requests]
  cases hparse : env.parse (t.take (BUFFER_SIZE - 1)) <;> simp [hparse]

/-- Cut or not, a text with the header has it. -/
theorem headerForm_take (m : CString) :
    (encryptCesarResponse CESAR_SHIFT m).take (BUFFER_SIZE - 1) =
      CESAR_MAGIC_HEADER ++ (cesarEncrypt CESAR_SHIFT m).take (BUFFER_SIZE - 7) := by
  refine CString.ext ?_
  have hlen : CESAR_MAGIC_HEADER.bytes.length = 6 := by decide
  rw [encryptCesarResponse, CString.take_bytes, CString.append_bytes, CString.append_bytes, CString.take_bytes,
    List.take_append, List.take_of_length_le (by rw [hlen]; decide), hlen]
  rfl

/-- What is handed on of the header form is not what `decrypt_cesar_message` makes of it. -/
theorem headerForm_not_decrypted (now : Int) (m : CString) :
    decryptedMessage (firstChunk now (encryptCesarResponse CESAR_SHIFT m)) ≠
      (encryptCesarResponse CESAR_SHIFT m).take (BUFFER_SIZE - 1) := by
  rw [decryptedMessage, receivedText_firstChunk, headerForm_take, decryptCesarMessage,
    if_pos (isCesarEncrypted_header _), CString.drop_length_append]
  intro he
  have hshort := length_cesarDecrypt_le CESAR_SHIFT ((cesarEncrypt CESAR_SHIFT m).take (BUFFER_SIZE - 7))
  have hlen : CESAR_MAGIC_HEADER.length = 6 := by decide
  rw [he, CString.length_append] at hshort
  omega

/-- Nothing is acted on in the header form. -/
theorem headerForm_sameRequest_iff (hheader : ∀ t, isCesarEncrypted t = true → env.parse t = none)
    (hrun : s.running = true) (now : Int) (m : CString) :
    (s.receive env (firstChunk now (encryptCesarResponse CESAR_SHIFT m))).requests env =
        (s.receive env (firstChunk now m)).requests env ↔
      env.parse (m.take (BUFFER_SIZE - 1)) = none := by
  have hnone : env.parse ((encryptCesarResponse CESAR_SHIFT m).take (BUFFER_SIZE - 1)) = none := by
    rw [headerForm_take]
    exact hheader _ (isCesarEncrypted_header _)
  rw [receive_requests hrun, receive_requests hrun, hnone]
  cases env.parse (m.take (BUFFER_SIZE - 1)) <;> simp

/-- **The header form.** It is handed on undecrypted, whatever the text. The
request acted on is the same only where the text is none. -/
theorem headerForm_refused (env : Env) (hheader : ∀ t, isCesarEncrypted t = true → env.parse t = none)
    (s : Session) (hrun : s.running = true) (now : Int) (m : CString) :
    ¬ ActsAlike env s now m ∧
      ((s.receive env (firstChunk now (encryptCesarResponse CESAR_SHIFT m))).requests env =
          (s.receive env (firstChunk now m)).requests env ↔
        env.parse (m.take (BUFFER_SIZE - 1)) = none) := by
  constructor
  · intro h
    have hhanded := h.decrypted (encryptCesarResponse CESAR_SHIFT m) (by simp)
    rw [receive_received hrun] at hhanded
    have hsame := List.append_cancel_left hhanded
    exact headerForm_not_decrypted now m (List.singleton_inj.mp hsame).symm
  · exact headerForm_sameRequest_iff hheader hrun now m

/-- The parser of the `PING` refuses the header. -/
theorem pingEnv_header (t : CString) (ht : isCesarEncrypted t = true) : pingEnv.parse t = none := by
  refine if_neg fun hping => ?_
  have hprefix : CESAR_MAGIC_HEADER.bytes <+: t.bytes := by
    rw [← beq_iff_eq.mp ht]
    exact List.take_prefix _ _
  exact absurd (List.prefix_of_prefix_length_le hprefix hping (by decide)) (by decide)

theorem headerForm_refused_ping :
    ¬ ActsAlike pingEnv (.start 5) 0 pingText ∧
      (((Session.start 5).receive pingEnv (firstChunk 0 (encryptCesarResponse CESAR_SHIFT pingText))).requests pingEnv =
          ((Session.start 5).receive pingEnv (firstChunk 0 pingText)).requests pingEnv ↔
        pingEnv.parse (pingText.take (BUFFER_SIZE - 1)) = none) :=
  headerForm_refused pingEnv pingEnv_header (.start 5) rfl 0 pingText

/-- A `PING` in the header form is not acted on; sent without the header it is. -/
theorem header_ping_not_acted_on :
    ¬ ∀ (env : Env), (∀ t, isCesarEncrypted t = true → env.parse t = none) → ∀ (s : Session), s.running = true →
      ∀ (now : Int) (m : CString), isCesarEncrypted m = false → ActsAlike env s now m := by
  intro h
  have halike := (h pingEnv pingEnv_header (.start 5) rfl 0 pingText (by decide)).sameRequest
  have hplain : pingEnv.parse (pingText.take (BUFFER_SIZE - 1)) = none :=
    (headerForm_sameRequest_iff pingEnv_header rfl 0 pingText).mp halike
  revert hplain
  decide

end FinalServer
