/-
The Caesar cipher of the logic server's messages (`logic_server.c`), and the
form with the header `CESAR:`.

Printable bytes are shifted within their range, all others stay; a `char` is
signed, so the bytes from 128 on are none of the printable ones. For every
shift from 0 to 94 the two loops are inverse and work in place (`CesarInverse`).
-/
import FinalServer.CString

namespace FinalServer

/-- `CESAR_SHIFT`, as `logic_server.c` defines it. -/
def CESAR_SHIFT : Nat := 1

/-- The turn of `cesar_decrypt`'s loop for one byte. -/
def decryptByte (shift : Nat) (c : UInt8) : UInt8 :=
  if 32 ≤ c ∧ c ≤ 126 then
    let shifted : Int := c.toNat - shift
    UInt8.ofInt (if shifted < 32 then shifted + 95 else shifted)
  else c

/-- The turn of `cesar_encrypt`'s loop for one byte. -/
def encryptByte (shift : Nat) (c : UInt8) : UInt8 :=
  if 32 ≤ c ∧ c ≤ 126 then
    let shifted : Int := c.toNat + shift
    UInt8.ofInt (if shifted > 126 then shifted - 95 else shifted)
  else c

/-- `cesar_decrypt`; a byte that became 0 would end the text. -/
def cesarDecrypt (shift : Nat) (text : CString) : CString := .ofBytes (text.bytes.map (decryptByte shift))

/-- `cesar_encrypt`. -/
def cesarEncrypt (shift : Nat) (text : CString) : CString := .ofBytes (text.bytes.map (encryptByte shift))

/-- The loop of both over a buffer: it ends at the NUL and leaves what is behind. -/
def cesarLoop (turn : UInt8 → UInt8) : List UInt8 → List UInt8
  | [] => []
  | c :: buffer => if c = 0 then c :: buffer else turn c :: cesarLoop turn buffer

def CESAR_MAGIC_HEADER : CString := "CESAR:"

/-- `strncmp` of the header's length finds the header. -/
def isCesarEncrypted (message : CString) : Bool :=
  message.take CESAR_MAGIC_HEADER.length == CESAR_MAGIC_HEADER

def decryptCesarMessage (shift : Nat) (encryptedMessage : CString) : CString :=
  if isCesarEncrypted encryptedMessage then
    cesarDecrypt shift (encryptedMessage.drop CESAR_MAGIC_HEADER.length)
  else encryptedMessage

def encryptCesarResponse (shift : Nat) (response : CString) : CString :=
  CESAR_MAGIC_HEADER ++ cesarEncrypt shift response

/-! ## There and back -/

variable {shift : Nat}

/-- A printable byte and its number. -/
theorem printable_iff (c : UInt8) : (32 ≤ c ∧ c ≤ 126) ↔ 32 ≤ c.toNat ∧ c.toNat ≤ 126 := by
  rw [UInt8.le_iff_toNat_le, UInt8.le_iff_toNat_le]
  rfl

theorem toNat_ofInt {n : Int} (h₀ : 0 ≤ n) (h : n < 256) : ((UInt8.ofInt n).toNat : Int) = n := by
  rw [UInt8.ofInt, UInt8.toNat_ofNat']
  omega

/-- A printable byte stays one. -/
theorem encryptByte_printable (hs : shift ≤ 94) {c : UInt8} (hlo : 32 ≤ c.toNat) (hhi : c.toNat ≤ 126) :
    ((encryptByte shift c).toNat : Int) =
      if (c.toNat : Int) + shift > 126 then (c.toNat : Int) + shift - 95 else c.toNat + shift := by
  rw [encryptByte, if_pos ((printable_iff c).mpr ⟨hlo, hhi⟩), toNat_ofInt] <;> split <;> omega

theorem decryptByte_printable (hs : shift ≤ 94) {c : UInt8} (hlo : 32 ≤ c.toNat) (hhi : c.toNat ≤ 126) :
    ((decryptByte shift c).toNat : Int) =
      if (c.toNat : Int) - shift < 32 then (c.toNat : Int) - shift + 95 else c.toNat - shift := by
  rw [decryptByte, if_pos ((printable_iff c).mpr ⟨hlo, hhi⟩), toNat_ofInt] <;> split <;> omega

theorem decryptByte_encryptByte (hs : shift ≤ 94) (c : UInt8) : decryptByte shift (encryptByte shift c) = c := by
  by_cases hc : 32 ≤ c.toNat ∧ c.toNat ≤ 126
  · have he := encryptByte_printable hs hc.1 hc.2
    have hin : 32 ≤ (encryptByte shift c).toNat ∧ (encryptByte shift c).toNat ≤ 126 := by
      split at he <;> omega
    have hd := decryptByte_printable hs hin.1 hin.2
    refine UInt8.toNat_inj.mp ?_
    split at he <;> split at hd <;> omega
  · have hno : ¬ (32 ≤ c ∧ c ≤ 126) := fun h => hc ((printable_iff c).mp h)
    rw [encryptByte, if_neg hno, decryptByte, if_neg hno]

theorem encryptByte_decryptByte (hs : shift ≤ 94) (c : UInt8) : encryptByte shift (decryptByte shift c) = c := by
  by_cases hc : 32 ≤ c.toNat ∧ c.toNat ≤ 126
  · have hd := decryptByte_printable hs hc.1 hc.2
    have hin : 32 ≤ (decryptByte shift c).toNat ∧ (decryptByte shift c).toNat ≤ 126 := by
      split at hd <;> omega
    have he := encryptByte_printable hs hin.1 hin.2
    refine UInt8.toNat_inj.mp ?_
    split at hd <;> split at he <;> omega
  · have hno : ¬ (32 ≤ c ∧ c ≤ 126) := fun h => hc ((printable_iff c).mp h)
    rw [decryptByte, if_neg hno, encryptByte, if_neg hno]

theorem encryptByte_ne_zero (hs : shift ≤ 94) {c : UInt8} (hc : c ≠ 0) : encryptByte shift c ≠ 0 := by
  by_cases hin : 32 ≤ c.toNat ∧ c.toNat ≤ 126
  · have he := encryptByte_printable hs hin.1 hin.2
    intro h0
    rw [h0, UInt8.toNat_zero] at he
    split at he <;> omega
  · rw [encryptByte, if_neg fun h => hin ((printable_iff c).mp h)]
    exact hc

theorem decryptByte_ne_zero (hs : shift ≤ 94) {c : UInt8} (hc : c ≠ 0) : decryptByte shift c ≠ 0 := by
  intro h0
  have hback := encryptByte_decryptByte hs c
  rw [h0] at hback
  exact hc hback.symm

/-- Where no byte becomes 0, no byte is lost. -/
theorem ofBytes_map_bytes {turn : UInt8 → UInt8} (hturn : ∀ c, c ≠ 0 → turn c ≠ 0) (t : CString) :
    (CString.ofBytes (t.bytes.map turn)).bytes = t.bytes.map turn := by
  have hnul : 0 ∉ t.bytes.map turn := by
    intro h0
    obtain ⟨c, hc, he⟩ := List.mem_map.mp h0
    exact hturn c (fun h => t.noNul (h ▸ hc)) he
  exact congrArg CString.bytes (CString.ofBytes_bytes ⟨_, hnul⟩)

theorem cesarEncrypt_bytes (hs : shift ≤ 94) (t : CString) :
    (cesarEncrypt shift t).bytes = t.bytes.map (encryptByte shift) :=
  ofBytes_map_bytes (fun _ => encryptByte_ne_zero hs) t

theorem cesarDecrypt_bytes (hs : shift ≤ 94) (t : CString) :
    (cesarDecrypt shift t).bytes = t.bytes.map (decryptByte shift) :=
  ofBytes_map_bytes (fun _ => decryptByte_ne_zero hs) t

/-- A text comes back from the cipher. -/
theorem cesarDecrypt_cesarEncrypt (hs : shift ≤ 94) (t : CString) : cesarDecrypt shift (cesarEncrypt shift t) = t := by
  rw [cesarDecrypt, cesarEncrypt_bytes hs, List.map_map]
  have hid : decryptByte shift ∘ encryptByte shift = id := funext (decryptByte_encryptByte hs)
  rw [hid, List.map_id]
  exact CString.ofBytes_bytes t

theorem cesarEncrypt_cesarDecrypt (hs : shift ≤ 94) (t : CString) :
    cesarEncrypt shift (cesarDecrypt shift t) = t := by
  rw [cesarEncrypt, cesarDecrypt_bytes hs, List.map_map]
  have hid : encryptByte shift ∘ decryptByte shift = id := funext (encryptByte_decryptByte hs)
  rw [hid, List.map_id]
  exact CString.ofBytes_bytes t

/-- The loop turns the text in its buffer, up to the NUL. -/
theorem cesarLoop_text (turn : UInt8 → UInt8) (t : CString) (rest : List UInt8) :
    cesarLoop turn (t.bytes ++ 0 :: rest) = t.bytes.map turn ++ 0 :: rest := by
  obtain ⟨bytes, hnul⟩ := t
  show cesarLoop turn (bytes ++ 0 :: rest) = bytes.map turn ++ 0 :: rest
  induction bytes with
  | nil => rfl
  | cons c bytes ih =>
    rw [List.mem_cons, not_or] at hnul
    rw [List.cons_append, cesarLoop, if_neg (Ne.symm hnul.1), ih hnul.2]
    rfl

/-- A text is no longer decrypted than encrypted. -/
theorem length_cesarDecrypt_le (shift : Nat) (t : CString) : (cesarDecrypt shift t).length ≤ t.length := by
  have h := (List.takeWhile_prefix (p := (· != 0)) (l := t.bytes.map (decryptByte shift))).length_le
  rwa [List.length_map] at h

/-! ## The form with the header -/

theorem isCesarEncrypted_header (t : CString) : isCesarEncrypted (CESAR_MAGIC_HEADER ++ t) = true :=
  beq_iff_eq.mpr (CString.take_length_append _ _)

theorem decryptCesarMessage_encryptCesarResponse (hs : shift ≤ 94) (t : CString) :
    decryptCesarMessage shift (encryptCesarResponse shift t) = t := by
  rw [decryptCesarMessage, encryptCesarResponse, if_pos (isCesarEncrypted_header _), CString.drop_length_append]
  exact cesarDecrypt_cesarEncrypt hs t

/-- The cipher of a shift, on one text: the two functions are inverse, keep the
length and work in their buffer; no byte becomes 0. The form with the header is
undone, and a text without the header is left as it is. -/
structure CesarInverse (shift : Nat) (s : CString) : Prop where
  decrypt_encrypt : cesarDecrypt shift (cesarEncrypt shift s) = s
  encrypt_decrypt : cesarEncrypt shift (cesarDecrypt shift s) = s
  length_encrypt : (cesarEncrypt shift s).length = s.length
  length_decrypt : (cesarDecrypt shift s).length = s.length
  encrypt_ne_zero : ∀ c ∈ s.bytes, encryptByte shift c ≠ 0
  decrypt_ne_zero : ∀ c ∈ s.bytes, decryptByte shift c ≠ 0
  encrypt_inPlace : ∀ rest, cesarLoop (encryptByte shift) (s.bytes ++ 0 :: rest) =
    (cesarEncrypt shift s).bytes ++ 0 :: rest
  decrypt_inPlace : ∀ rest, cesarLoop (decryptByte shift) (s.bytes ++ 0 :: rest) =
    (cesarDecrypt shift s).bytes ++ 0 :: rest
  header : decryptCesarMessage shift (encryptCesarResponse shift s) = s
  noHeader : isCesarEncrypted s = false → decryptCesarMessage shift s = s

/-- **The cipher is undone**, for every shift within the printable range and every text. -/
theorem cesar_inverse (shift : Nat) (hs : shift ≤ 94) (s : CString) : CesarInverse shift s where
  decrypt_encrypt := cesarDecrypt_cesarEncrypt hs s
  encrypt_decrypt := cesarEncrypt_cesarDecrypt hs s
  length_encrypt := by rw [CString.length, cesarEncrypt_bytes hs, List.length_map, CString.length]
  length_decrypt := by rw [CString.length, cesarDecrypt_bytes hs, List.length_map, CString.length]
  encrypt_ne_zero _ hc := encryptByte_ne_zero hs fun h0 => s.noNul (h0 ▸ hc)
  decrypt_ne_zero _ hc := decryptByte_ne_zero hs fun h0 => s.noNul (h0 ▸ hc)
  encrypt_inPlace rest := by rw [cesarLoop_text, cesarEncrypt_bytes hs]
  decrypt_inPlace rest := by rw [cesarLoop_text, cesarDecrypt_bytes hs]
  header := decryptCesarMessage_encryptCesarResponse hs s
  noHeader hno := by rw [decryptCesarMessage, hno]; rfl

/-- The shift of `logic_server.h`, on a text that begins with the header and wraps at both ends. -/
theorem cesar_inverse_header : CesarInverse 3 "CESAR: ~" := cesar_inverse 3 (by decide) "CESAR: ~"

example : cesarEncrypt 3 "CESAR: ~" = "FHVDU=#\"" := by decide

end FinalServer
