/-
A client's texts as the stream that TCP makes of them.

`handle_client` takes whatever one `recv` gives for one text: it decrypts and
parses each chunk for itself and keeps nothing of it for the next. So what it
acts on depends on how the stream is cut; `segmentation_iff` says that every
cut gives the requests of the texts only if there are none.
-/
import FinalServer.Cesar
import FinalServer.JsonPrint
import FinalServer.Run
import FinalServer.Session

namespace FinalServer

/-- What is relied on of `cJSON_Parse`: what follows a complete object is
ignored, an object that is cut off does not parse, and an object has its two braces. -/
structure ParsesObjects (parse : CString → Option Json) : Prop where
  ignoresRest : ∀ s t fs, parse s = some (.object fs) → parse (s ++ t) = some (.object fs)
  failsCut : ∀ s fs, parse s = some (.object fs) →
    ∃ v rest, s = v ++ rest ∧ parse v = some (.object fs) ∧
      ∀ p : CString, p.bytes <+: v.bytes → p ≠ v → parse p = none
  braces : ∀ s fs, parse s = some (.object fs) → 2 ≤ s.length

/-- The bytes of the encrypted texts, one after another. -/
def stream (texts : List CString) : List UInt8 := texts.flatMap fun t => (cesarEncrypt CESAR_SHIFT t).bytes

/-- What one `recv` after another gives, each at a time: the stream, in
chunks that fit the buffer. -/
structure IsCut (chunks : List (Int × List UInt8)) (bytes : List UInt8) : Prop where
  joined : chunks.flatMap (·.2) = bytes
  sizes : ∀ c ∈ chunks, c.2 ≠ [] ∧ c.2.length ≤ BUFFER_SIZE - 1

/-- A chunk is terminated and decrypted where it is, and taken for a text. -/
def receivedText (c : Int × List UInt8) : CString := cesarDecrypt CESAR_SHIFT (.ofBytes c.2)

/-- The requests a session has acted on: what parses of what it has received. -/
def Session.requests (env : Env) (s : Session) : List Json := s.received.filterMap env.parse

/-- The session after the chunks. -/
def Session.afterChunks (env : Env) (fd : Int) (chunks : List (Int × List UInt8)) : Session :=
  Run.exec (Session.step env) (.start fd) (chunks.map fun c => .client c.1 (receivedText c))

variable {env : Env}

/-- A client's text leaves the session in its loop, one text further on. -/
theorem step_client_received (env : Env) {s : Session} (hrun : s.running = true) (now : Int) (raw : CString) :
    (s.step env (.client now raw)).running = true ∧
      (s.step env (.client now raw)).received = s.received ++ [raw] := by
  simp only [Session.step, hrun, if_true, Session.handleClient]
  split <;> exact ⟨rfl, rfl⟩

theorem afterChunks_received (env : Env) (fd : Int) (chunks : List (Int × List UInt8)) :
    (Session.afterChunks env fd chunks).received = chunks.map receivedText := by
  have hrun : ∀ (s : Session), s.running = true →
      (Run.exec (Session.step env) s (chunks.map fun c => .client c.1 (receivedText c))).received =
        s.received ++ chunks.map receivedText := by
    induction chunks with
    | nil => exact fun s _ => (List.append_nil _).symm
    | cons c chunks ih =>
      intro s hs
      obtain ⟨hgoes, hrec⟩ := step_client_received env hs c.1 (receivedText c)
      rw [List.map_cons, Run.exec_cons, ih _ hgoes, hrec, List.append_assoc]
      rfl
  exact hrun _ rfl

/-- What the session acts on, chunk by chunk. -/
theorem afterChunks_requests (env : Env) (fd : Int) (chunks : List (Int × List UInt8)) :
    (Session.afterChunks env fd chunks).requests env = chunks.filterMap fun c => env.parse (receivedText c) := by
  rw [Session.requests, afterChunks_received, List.filterMap_map]
  rfl

/-- A text that is a chunk of its own is received as it was written. -/
theorem receivedText_encrypted (now : Int) (t : CString) :
    receivedText (now, (cesarEncrypt CESAR_SHIFT t).bytes) = t := by
  rw [receivedText, CString.ofBytes_bytes]
  exact cesarDecrypt_cesarEncrypt (by decide) t

/-- Where every text is a chunk of its own, its request is acted on. -/
theorem wholeTexts_requests (fd : Int) (texts : List (Int × CString)) :
    (Session.afterChunks env fd (texts.map fun t => (t.1, (cesarEncrypt CESAR_SHIFT t.2).bytes))).requests env =
      texts.filterMap fun t => env.parse t.2 := by
  rw [afterChunks_requests, List.filterMap_map]
  congr 1
  funext t
  exact congrArg env.parse (receivedText_encrypted t.1 t.2)

/-- Of texts in one chunk the first alone is acted on. -/
theorem joinedTexts_requests (hparse : ParsesObjects env.parse) (fd now : Int) {t : CString}
    {fs : List (CString × Json)} (ht : env.parse t = some (.object fs)) (more : CString) :
    (Session.afterChunks env fd [(now, (cesarEncrypt CESAR_SHIFT (t ++ more)).bytes)]).requests env = [.object fs] := by
  rw [afterChunks_requests]
  simp only [List.filterMap_cons, receivedText_encrypted, hparse.ignoresRest t more fs ht, List.filterMap_nil]

/-! ## Every byte a chunk -/

def bytewise (bytes : List UInt8) : List (Int × List UInt8) := bytes.map fun b => (0, [b])

theorem bytewise_isCut (bytes : List UInt8) : IsCut (bytewise bytes) bytes where
  joined := by
    rw [bytewise, List.flatMap_map]
    exact List.flatMap_singleton' bytes
  sizes c hc := by
    obtain ⟨b, -, rfl⟩ := List.mem_map.mp hc
    exact ⟨by simp, by simp [BUFFER_SIZE]⟩

/-- No byte alone is an object. -/
theorem bytewise_noObject (hparse : ParsesObjects env.parse) (fd : Int) (bytes : List UInt8)
    (fs : List (CString × Json)) : .object fs ∉ (Session.afterChunks env fd (bytewise bytes)).requests env := by
  rw [afterChunks_requests]
  intro hin
  obtain ⟨c, hc, hp⟩ := List.mem_filterMap.mp hin
  obtain ⟨b, -, rfl⟩ := List.mem_map.mp hc
  have htwo := hparse.braces _ _ hp
  have hone : (receivedText (0, [b])).length ≤ 1 :=
    (length_cesarDecrypt_le _ _).trans (List.takeWhile_prefix (p := (· != 0)) (l := [b])).length_le
  omega

/-- **Segmentation.** Whatever a client has written, the requests acted on are
those of its texts for every cut of the stream only if it has written nothing. -/
theorem segmentation_iff (env : Env) (hparse : ParsesObjects env.parse) (fd : Int) (texts : List CString)
    (htexts : ∀ t ∈ texts, ∃ fs, env.parse t = some (.object fs)) :
    (∀ chunks, IsCut chunks (stream texts) →
      (Session.afterChunks env fd chunks).requests env = texts.filterMap env.parse) ↔ texts = [] := by
  constructor
  · intro hall
    by_contra hne
    obtain ⟨t, rest, rfl⟩ := List.exists_cons_of_ne_nil hne
    obtain ⟨fs, ht⟩ := htexts t List.mem_cons_self
    have hsame := hall (bytewise (stream (t :: rest))) (bytewise_isCut _)
    refine bytewise_noObject hparse fd (stream (t :: rest)) fs ?_
    rw [hsame]
    exact List.mem_filterMap.mpr ⟨t, List.mem_cons_self, ht⟩
  · rintro rfl chunks hcut
    have hnil : chunks = [] := by
      refine List.eq_nil_iff_forall_not_mem.mpr fun c hc => ?_
      have hempty : c.2 = [] := List.flatMap_eq_nil_iff.mp hcut.joined c hc
      exact (hcut.sizes c hc).1 hempty
    subst hnil
    rfl

/-! ## A `PING` in two pieces -/

def pingText : CString := "\x7b\"action\":100\x7d"

def pingRequest : Json := .object [("action", .createNumber 100)]

/-- A parser that knows one object. -/
def pingEnv : Env where
  parse s := if pingText.bytes <+: s.bytes then some pingRequest else none
  jwtDecode _ := none
  jwtEncode _ := ""

theorem pingEnv_parse {s : CString} (hin : pingText.bytes <+: s.bytes) : pingEnv.parse s = some pingRequest :=
  if_pos hin

theorem pingEnv_parses : ParsesObjects pingEnv.parse where
  ignoresRest s t fs h := by
    simp only [pingEnv] at h
    split at h
    next hin => exact (pingEnv_parse (hin.trans (List.prefix_append s.bytes t.bytes))).trans h
    next => cases h
  failsCut s fs h := by
    simp only [pingEnv] at h
    split at h
    next hin =>
      obtain ⟨rest, hrest⟩ := hin
      have hnul : 0 ∉ rest := fun h0 => s.noNul (hrest ▸ List.mem_append_right _ h0)
      refine ⟨pingText, ⟨rest, hnul⟩, CString.ext hrest.symm, ?_, fun p hp hne => ?_⟩
      · exact (pingEnv_parse (List.prefix_refl pingText.bytes)).trans h
      · refine if_neg fun hin' => hne (CString.ext ?_)
        exact hp.eq_of_length_le hin'.length_le
    next => cases h
  braces s fs h := by
    simp only [pingEnv] at h
    split at h
    next hin => exact le_trans (by decide) hin.length_le
    next => cases h

theorem pingEnv_text : ∀ t ∈ [pingText], ∃ fs, pingEnv.parse t = some (.object fs) := by
  intro t ht
  obtain rfl := List.mem_singleton.mp ht
  exact ⟨_, rfl⟩

theorem segmentation_iff_ping :
    (∀ chunks, IsCut chunks (stream [pingText]) →
      (Session.afterChunks pingEnv 5 chunks).requests pingEnv = [pingText].filterMap pingEnv.parse) ↔
        [pingText] = [] :=
  segmentation_iff pingEnv pingEnv_parses 5 [pingText] pingEnv_text

/-- The ciphertext of the `PING`, cut in the middle. -/
def halves : List (Int × List UInt8) :=
  [(0, (cesarEncrypt CESAR_SHIFT pingText).bytes.take 6), (0, (cesarEncrypt CESAR_SHIFT pingText).bytes.drop 6)]

/-- Cut in the middle, the `PING` is not acted on. -/
theorem halves_not_acted_on :
    ¬ ∀ (env : Env), ParsesObjects env.parse → ∀ (fd : Int) (texts : List CString),
      (∀ t ∈ texts, ∃ fs, env.parse t = some (.object fs)) → ∀ chunks, IsCut chunks (stream texts) →
        (Session.afterChunks env fd chunks).requests env = texts.filterMap env.parse := by
  intro h
  have hcut : IsCut halves (stream [pingText]) := by
    constructor
    · simp only [halves, stream, List.flatMap_cons, List.flatMap_nil, List.append_nil, List.take_append_drop]
    · decide
  have hacted := h pingEnv pingEnv_parses 5 [pingText] pingEnv_text halves hcut
  rw [afterChunks_requests] at hacted
  revert hacted
  decide

end FinalServer
