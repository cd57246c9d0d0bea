/-
Socket addresses as texts, as the load balancer reads them.

What `trim` and `split_whitespace` make of a text, and what an address is
parsed from. The results about the proxies hold for every type of addresses
and every parser that refuses blanks (`AddrParser`); the IPv4 addresses of
`std::net` are one.
-/
import Mathlib.Data.List.Basic
import Mathlib.Data.List.DropRight

namespace FinalServer

/-- Unicode's `White_Space`, as `char::is_whitespace` has it. -/
def isWhitespace (c : Char) : Bool :=
  let n := c.toNat
  (9 ≤ n ∧ n ≤ 13) || n == 32 || n == 0x85 || n == 0xA0 || n == 0x1680 || (0x2000 ≤ n ∧ n ≤ 0x200A) ||
    n == 0x2028 || n == 0x2029 || n == 0x202F || n == 0x205F || n == 0x3000

/-- `str::trim`. -/
def trim (s : List Char) : List Char := (s.dropWhile isWhitespace).rdropWhile isWhitespace

/-- `str::split_whitespace`. -/
def splitWhitespace (s : List Char) : List (List Char) := (s.splitOnP isWhitespace).filter (· ≠ [])

/-- There is no blank in the text, and it is not empty. -/
def Word (s : List Char) : Prop := s ≠ [] ∧ ∀ c ∈ s, isWhitespace c = false

/-- `parse::<SocketAddr>`: what it accepts is a word. -/
structure AddrParser (Addr : Type*) where
  parse : List Char → Option Addr
  word : ∀ {s a}, parse s = some a → Word s

/-- A text that neither starts nor ends with a blank is not trimmed. -/
theorem trim_eq_self {s : List Char} (hhead : ∀ c ∈ s.head?, isWhitespace c = false)
    (hlast : ∀ c ∈ s.getLast?, isWhitespace c = false) : trim s = s := by
  have hdrop : s.dropWhile isWhitespace = s := by
    cases s with
    | nil => rfl
    | cons c cs => exact List.dropWhile_cons_of_neg (by simp [hhead c rfl])
  rw [trim, hdrop, List.rdropWhile_eq_self_iff]
  intro hne
  simp [hlast _ (List.getLast?_eq_some_getLast hne)]

/-- Two words with a blank between them. -/
theorem splitWhitespace_pair {s t : List Char} (hs : Word s) (ht : Word t) :
    splitWhitespace (s ++ ' ' :: t) = [s, t] := by
  rw [splitWhitespace, List.splitOnP_append_cons_of_forall_mem hs.2 ' ' (by decide), List.splitOnP_eq_singleton ht.2]
  simp [hs.1, ht.1]

theorem trim_pair {s t : List Char} (hs : Word s) (ht : Word t) : trim (s ++ ' ' :: t) = s ++ ' ' :: t := by
  refine trim_eq_self ?_ ?_
  · intro c hc
    rw [List.head?_append_of_ne_nil _ hs.1] at hc
    exact hs.2 c (List.mem_of_mem_head? hc)
  · intro c hc
    rw [List.getLast?_append_of_ne_nil _ (by simp), List.getLast?_cons_of_ne_nil ht.1] at hc
    exact ht.2 c (List.mem_of_mem_getLast? hc)

/-- What is no separator is in a part. -/
theorem mem_splitOnP {p : Char → Bool} {s : List Char} {c : Char} (hc : c ∈ s) (hp : p c = false) :
    ∃ part ∈ s.splitOnP p, c ∈ part := by
  induction s with
  | nil => cases hc
  | cons d s ih =>
    rw [List.splitOnP_cons_eq_if_modifyHead]
    rcases List.mem_cons.mp hc with rfl | hc
    · rw [hp]
      obtain ⟨part, parts, hparts⟩ := List.exists_cons_of_ne_nil (List.splitOnP_ne_nil p s)
      simp [hparts]
    · obtain ⟨part, hpart, hmem⟩ := ih hc
      split
      · exact ⟨part, List.mem_cons_of_mem _ hpart, hmem⟩
      · obtain ⟨part', parts, hparts⟩ := List.exists_cons_of_ne_nil (List.splitOnP_ne_nil p s)
        rw [hparts] at hpart ⊢
        rcases List.mem_cons.mp hpart with rfl | hpart
        · exact ⟨d :: part, List.mem_cons_self, List.mem_cons_of_mem _ hmem⟩
        · exact ⟨part, List.mem_cons_of_mem _ hpart, hmem⟩

/-! ## IPv4 -/

/-- `SocketAddr::V4`. -/
structure SocketAddr where
  ip : Fin 256 × Fin 256 × Fin 256 × Fin 256
  port : Fin 65536
  deriving DecidableEq

namespace SocketAddr

/-- A decimal number. -/
def readNumber (s : List Char) : Option Nat :=
  if s ≠ [] ∧ s.all Char.isDigit = true then some (s.foldl (fun n c => 10 * n + (c.toNat - 48)) 0) else none

/-- Up to three digits, without a leading zero. -/
def readOctet (s : List Char) : Option (Fin 256) := do
  let n ← readNumber s
  guard (s.length ≤ 3 ∧ (s.head? = some '0' → s.length = 1))
  if h : n < 256 then some ⟨n, h⟩ else none

def readPort (s : List Char) : Option (Fin 65536) := do
  let n ← readNumber s
  if h : n < 65536 then some ⟨n, h⟩ else none

def parse (s : List Char) : Option SocketAddr :=
  match s.splitOn ':' with
  | [ip, port] =>
    match ip.splitOn '.' with
    | [a, b, c, d] => do
      return ⟨(← readOctet a, ← readOctet b, ← readOctet c, ← readOctet d), ← readPort port⟩
    | _ => none
  | _ => none

/-- What has been read as a number has digits only. -/
theorem isDigit_of_readNumber {s : List Char} {n : Nat} (h : readNumber s = some n) : ∀ c ∈ s, c.isDigit = true := by
  unfold readNumber at h
  split at h
  next hs => exact List.all_eq_true.mp hs.2
  next => cases h

theorem not_isWhitespace_of_isDigit {c : Char} (h : c.isDigit = true) : isWhitespace c = false := by
  simp only [Char.isDigit, Bool.and_eq_true, decide_eq_true_eq] at h
  have h48 : 48 ≤ c.toNat := h.1
  have h57 : c.toNat ≤ 57 := h.2
  simp only [isWhitespace, Bool.or_eq_false_iff, decide_eq_false_iff_not, beq_eq_false_iff_ne]
  omega

theorem isDigit_of_readOctet {s : List Char} {n : Fin 256} (h : readOctet s = some n) :
    ∀ c ∈ s, c.isDigit = true := by
  obtain ⟨k, hk, -⟩ := Option.bind_eq_some_iff.mp h
  exact isDigit_of_readNumber hk

theorem isDigit_of_readPort {s : List Char} {n : Fin 65536} (h : readPort s = some n) :
    ∀ c ∈ s, c.isDigit = true := by
  obtain ⟨k, hk, -⟩ := Option.bind_eq_some_iff.mp h
  exact isDigit_of_readNumber hk

/-- The parts of a text that is an address. -/
theorem parse_parts {s : List Char} {a : SocketAddr} (h : parse s = some a) :
    ∃ ip port, s.splitOn ':' = [ip, port] ∧ (∀ part ∈ ip.splitOn '.', ∀ c ∈ part, c.isDigit = true) ∧
      ∀ c ∈ port, c.isDigit = true := by
  unfold parse at h
  split at h
  next ip port hs =>
    refine ⟨ip, port, hs, ?_⟩
    split at h
    next w x y z hip =>
      simp only [bind, Option.bind_eq_some_iff] at h
      obtain ⟨_, hw, _, hx, _, hy, _, hz, _, hp, -⟩ := h
      rw [hip]
      simp only [List.forall_mem_cons, List.not_mem_nil, false_implies, implies_true, and_true]
      exact ⟨⟨isDigit_of_readOctet hw, isDigit_of_readOctet hx, isDigit_of_readOctet hy,
        isDigit_of_readOctet hz⟩, isDigit_of_readPort hp⟩
    next => cases h
  next => cases h

theorem word_of_parse {s : List Char} {a : SocketAddr} (h : parse s = some a) : Word s := by
  obtain ⟨ip, port, hs, hip, hport⟩ := parse_parts h
  refine ⟨fun hnil => by simp [hnil] at hs, fun c hc => ?_⟩
  by_cases hcolon : c = ':'
  · rw [hcolon]
    decide
  obtain ⟨part, hpart, hmem⟩ := mem_splitOnP (p := (· == ':')) hc (by simpa using hcolon)
  rw [← List.splitOn_eq_splitOnP, hs, List.mem_cons, List.mem_singleton] at hpart
  rcases hpart with rfl | rfl
  · by_cases hdot : c = '.'
    · rw [hdot]
      decide
    · obtain ⟨octet, hoctet, hmem⟩ := mem_splitOnP (p := (· == '.')) hmem (by simpa using hdot)
      exact not_isWhitespace_of_isDigit (hip octet hoctet c hmem)
  · exact not_isWhitespace_of_isDigit (hport c hmem)

def parser : AddrParser SocketAddr := ⟨parse, word_of_parse⟩

/-- A port of this machine. -/
def loopback (port : Nat) : SocketAddr := ⟨(127, 0, 0, 1), Fin.ofNat 65536 port⟩

example : parse "127.0.0.1:7000".toList = some (loopback 7000) := by decide

end SocketAddr

end FinalServer
