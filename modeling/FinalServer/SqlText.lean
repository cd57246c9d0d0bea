/-
Single-quoted literals in SQL text.

A statement is fixed words with literals between them. `readQuoted` reads a
literal as MySQL does: a doubled quote and a backslash escape stand for a
byte of the value, and the first other quote ends it. Two rules cover what
`printf` does to a statement: a value without quotes and backslashes is read
back, and a statement that was cut anywhere is not read at all.
-/
import Mathlib.Data.List.Basic

namespace SqlText

def quote : UInt8 := 39

def backslash : UInt8 := 92

/-- The bytes an escape `\c` stands for. -/
def unescape (c : UInt8) : List UInt8 :=
  if c = 48 then [0]                          -- `\0`
  else if c = 98 then [8]                     -- `\b`
  else if c = 110 then [10]                   -- `\n`
  else if c = 114 then [13]                   -- `\r`
  else if c = 116 then [9]                    -- `\t`
  else if c = 90 then [26]                    -- `\Z`
  else if c = 37 ∨ c = 95 then [backslash, c] -- `\%` and `\_` keep the backslash
  else [c]

/-- Reads a literal whose opening quote has been read: its value, and what
follows the closing quote. -/
def readQuoted : List UInt8 → Option (List UInt8 × List UInt8)
  | [] => none
  | b :: bs =>
    if b = quote then
      match bs with
      | c :: cs => if c = quote then (readQuoted cs).map fun r => (quote :: r.1, r.2) else some ([], c :: cs)
      | [] => some ([], [])
    else if b = backslash then
      match bs with
      | c :: cs => (readQuoted cs).map fun r => (unescape c ++ r.1, r.2)
      | [] => none
    else (readQuoted bs).map fun r => (b :: r.1, r.2)

/-- The literals of a statement, each closed and followed by its word. -/
def body : List (List UInt8) → List (List UInt8) → List UInt8
  | w :: ws, v :: vs => v ++ quote :: (w ++ body ws vs)
  | _, _ => []

/-- The statement: the text up to the first literal's opening quote, then the rest. -/
def render (first : List UInt8) (words values : List (List UInt8)) : List UInt8 := first ++ body words values

def readBody : List (List UInt8) → List UInt8 → Option (List (List UInt8))
  | [], [] => some []
  | [], _ :: _ => none
  | w :: ws, bs => do
    let (v, rest) ← readQuoted bs
    let vs ← readBody ws (← rest.dropPrefix? w)
    return v :: vs

/-- The values of a statement of these words. -/
def read (first : List UInt8) (words : List (List UInt8)) (text : List UInt8) :
    Option (List (List UInt8)) :=
  (text.dropPrefix? first).bind (readBody words)

/-- A value that needs no escape. -/
def Plain (v : List UInt8) : Prop := ∀ b ∈ v, b ≠ quote ∧ b ≠ backslash

instance (v : List UInt8) : Decidable (Plain v) := List.decidableBAll (fun b => b ≠ quote ∧ b ≠ backslash) v

/-- A value that is read as it stands: it has no quote, and behind every
backslash a `%` or a `_`, before which the backslash is kept. -/
def Verbatim : List UInt8 → Prop
  | [] => True
  | b :: bs => b ≠ quote ∧ (b = backslash → bs.head? = some 37 ∨ bs.head? = some 95) ∧ Verbatim bs

instance decidableVerbatim : (v : List UInt8) → Decidable (Verbatim v)
  | [] => .isTrue trivial
  | b :: bs => @instDecidableAnd (b ≠ quote) _ inferInstance
      (@instDecidableAnd (b = backslash → bs.head? = some 37 ∨ bs.head? = some 95) _ inferInstance
        (decidableVerbatim bs))

/-- No word starts with a quote, and only the last may be empty. -/
def Separated : List (List UInt8) → Prop
  | [] => True
  | [w] => w.head? ≠ some quote
  | w :: ws => w ≠ [] ∧ w.head? ≠ some quote ∧ Separated ws

instance decidableSeparated : (ws : List (List UInt8)) → Decidable (Separated ws)
  | [] => .isTrue trivial
  | [w] => inferInstanceAs (Decidable (w.head? ≠ some quote))
  | w :: w' :: ws => @instDecidableAnd (w ≠ []) _ inferInstance
      (@instDecidableAnd (w.head? ≠ some quote) _ inferInstance (decidableSeparated (w' :: ws)))

variable {v w rest first : List UInt8} {ws vs : List (List UInt8)}

theorem Plain.take (h : Plain v) (n : Nat) : Plain (v.take n) := fun b hb => h b (List.mem_of_mem_take hb)

theorem Plain.verbatim (h : Plain v) : Verbatim v := by
  induction v with
  | nil => trivial
  | cons b v ih =>
    obtain ⟨hq, hb⟩ := h b (by simp)
    exact ⟨hq, fun he => absurd he hb, ih fun b hb => h b (by simp [hb])⟩

theorem Separated.tail (h : Separated (w :: ws)) : Separated ws := by
  cases ws with
  | nil => trivial
  | cons w' ws => exact h.2.2

/-- What follows a literal does not start with a quote. -/
theorem Separated.head (h : Separated (w :: ws)) (hlen : ws.length = vs.length) :
    (w ++ body ws vs).head? ≠ some quote := by
  cases ws with
  | nil =>
    rw [body, List.append_nil]
    · exact h
    · simp
  | cons w' ws =>
    obtain ⟨hne, hq, -⟩ := h
    rwa [List.head?_append_of_ne_nil _ hne]

/-! ## Reading what was written -/

/-- A byte that is neither quote nor backslash stands for itself. -/
theorem readQuoted_byte {b : UInt8} {bs : List UInt8} (hq : b ≠ quote) (hb : b ≠ backslash) :
    readQuoted (b :: bs) = (readQuoted bs).map fun r => (b :: r.1, r.2) := by
  cases bs <;> simp [readQuoted, hq, hb]

theorem readQuoted_escape (c : UInt8) (cs : List UInt8) :
    readQuoted (backslash :: c :: cs) = (readQuoted cs).map fun r => (unescape c ++ r.1, r.2) := by
  have hb : backslash ≠ quote := by decide
  rw [readQuoted, if_neg hb, if_pos rfl]

theorem unescape_length (c : UInt8) : (unescape c).length ≤ 2 ∧
    ((unescape c).length = 2 → (c = 37 ∨ c = 95) ∧ unescape c = [backslash, c]) := by
  simp only [unescape]
  split_ifs <;> simp_all

theorem readQuoted_verbatim {v : List UInt8} (h : Verbatim v) (hr : rest.head? ≠ some quote) :
    readQuoted (v ++ quote :: rest) = some (v, rest) :=
  match v, h with
  | [], _ => by
    cases rest with
    | nil => simp [readQuoted]
    | cons c cs =>
      have hc : c ≠ quote := by simpa using hr
      simp [readQuoted, hc]
  | b :: bs, h => by
    by_cases hb : b = backslash
    · obtain ⟨-, hesc, hbs⟩ := h
      cases bs with
      | nil => simpa using hesc hb
      | cons c cs =>
        have hc : c = 37 ∨ c = 95 := by simpa using hesc hb
        have hun : unescape c = [backslash, c] := by rcases hc with rfl | rfl <;> rfl
        rw [hb, List.cons_append, List.cons_append, readQuoted_escape, readQuoted_verbatim hbs.2.2 hr, hun]
        rfl
    · rw [List.cons_append, readQuoted_byte h.1 hb, readQuoted_verbatim h.2.2 hr]
      rfl

theorem readQuoted_plain (h : Plain v) (hr : rest.head? ≠ some quote) :
    readQuoted (v ++ quote :: rest) = some (v, rest) := readQuoted_verbatim h.verbatim hr

/-- A literal without its closing quote is not read. -/
theorem readQuoted_open (h : Plain v) : readQuoted v = none := by
  induction v with
  | nil => rfl
  | cons b v ih =>
    obtain ⟨hq, hb⟩ := h b (by simp)
    rw [readQuoted_byte hq hb, ih fun b hb => h b (by simp [hb])]
    rfl

theorem dropPrefix?_append (w rest : List UInt8) : (w ++ rest).dropPrefix? w = some rest :=
  List.dropPrefix?_append_of_beq rest (by simp)

theorem readBody_body (hlen : ws.length = vs.length) (hs : Separated ws) (hp : ∀ v ∈ vs, Verbatim v) :
    readBody ws (body ws vs) = some vs := by
  induction ws generalizing vs with
  | nil =>
    obtain rfl : vs = [] := by simpa using hlen.symm
    rfl
  | cons w ws ih =>
    cases vs with
    | nil => simp at hlen
    | cons v vs =>
      have hlen' : ws.length = vs.length := by simpa using hlen
      simp only [body, readBody, readQuoted_verbatim (hp v (by simp)) (hs.head hlen'),
        Option.bind_eq_bind, Option.bind_some, dropPrefix?_append,
        ih hlen' hs.tail fun v hv => hp v (by simp [hv]), Option.pure_def]

/-- **A statement is read as written**, with values that are read as they stand. -/
theorem read_render (hlen : ws.length = vs.length) (hs : Separated ws) (hp : ∀ v ∈ vs, Verbatim v) :
    read first ws (render first ws vs) = some vs := by
  rw [read, render, dropPrefix?_append, Option.bind_some, readBody_body hlen hs hp]

/-! ## Cut statements -/

theorem dropPrefix?_take {n : Nat} :
    ((w ++ rest).take n).dropPrefix? w = if w.length ≤ n then some (rest.take (n - w.length)) else none := by
  split
  next h => rw [List.take_append, List.take_of_length_le h, dropPrefix?_append]
  next h =>
    rw [Option.eq_none_iff_forall_ne_some]
    rintro r hr
    obtain ⟨p, hp, hpw⟩ := List.dropPrefix?_eq_some_iff.mp hr
    obtain rfl := beq_iff_eq.mp hpw
    have := congrArg List.length hp
    simp only [List.length_take, List.length_append] at this
    omega

theorem readBody_take {n : Nat} (hlen : ws.length = vs.length) (hs : Separated ws) (hp : ∀ v ∈ vs, Plain v)
    (hn : n < (body ws vs).length) : readBody ws ((body ws vs).take n) = none := by
  induction ws generalizing vs n with
  | nil => simp [body] at hn
  | cons w ws ih =>
    cases vs with
    | nil => simp at hlen
    | cons v vs =>
      have hlen' : ws.length = vs.length := by simpa using hlen
      simp only [body, List.length_append, List.length_cons] at hn
      by_cases hv : n ≤ v.length
      · -- The cut is inside the literal.
        have hcut : (body (w :: ws) (v :: vs)).take n = v.take n := by
          simp [body, List.take_append, Nat.sub_eq_zero_of_le hv]
        simp [hcut, readBody, readQuoted_open ((hp v (by simp)).take n)]
      · obtain ⟨m, rfl⟩ : ∃ m, n = v.length + 1 + m := ⟨n - v.length - 1, by omega⟩
        have hcut : (body (w :: ws) (v :: vs)).take (v.length + 1 + m) =
            v ++ quote :: (w ++ body ws vs).take m := by
          rw [body, List.take_append, List.take_of_length_le (by omega),
            show v.length + 1 + m - v.length = m + 1 by omega, List.take_succ_cons]
        have hhead : ((w ++ body ws vs).take m).head? ≠ some quote := by
          rw [List.head?_take]
          split
          · simp
          · exact hs.head hlen'
        rw [hcut, readBody, readQuoted_plain (hp v (by simp)) hhead]
        simp only [Option.bind_eq_bind, Option.bind_some, dropPrefix?_take]
        split
        · rw [Option.bind_some, ih hlen' hs.tail (fun v hv => hp v (by simp [hv])) (by omega)]
          rfl
        · rfl

/-- **A statement that was cut is not read.** -/
theorem read_take {n : Nat} (hlen : ws.length = vs.length) (hs : Separated ws) (hp : ∀ v ∈ vs, Plain v)
    (hn : n < (render first ws vs).length) : read first ws ((render first ws vs).take n) = none := by
  rw [read, render, dropPrefix?_take]
  split
  next h =>
    rw [render, List.length_append] at hn
    exact readBody_take hlen hs hp (by omega)
  next => rfl

/-- A cut statement is one of a single literal if it was cut right behind its word. -/
theorem length_of_read_take {n : Nat} (hp : Plain v) (hq : rest.head? ≠ some quote)
    (hn : n < (first ++ (v ++ quote :: rest)).length)
    (h : read first [w] ((first ++ (v ++ quote :: rest)).take n) = some vs) :
    n = first.length + v.length + 1 + w.length := by
  simp only [List.length_append, List.length_cons] at hn
  rw [read, dropPrefix?_take] at h
  split at h
  next hfirst =>
    rw [Option.bind_some] at h
    by_cases hv : n - first.length ≤ v.length
    · -- The cut is inside the literal.
      rw [List.take_append_of_le_length hv, readBody, readQuoted_open (hp.take _)] at h
      cases h
    · obtain ⟨k, hk⟩ : ∃ k, n - first.length = v.length + 1 + k := ⟨n - first.length - v.length - 1, by omega⟩
      have hcut : (v ++ quote :: rest).take (v.length + 1 + k) = v ++ quote :: rest.take k := by
        rw [List.take_append, List.take_of_length_le (by omega),
          show v.length + 1 + k - v.length = k + 1 by omega, List.take_succ_cons]
      have hhead : (rest.take k).head? ≠ some quote := by
        rw [List.head?_take]
        split
        · simp
        · exact hq
      rw [hk, hcut, readBody, readQuoted_plain hp hhead] at h
      simp only [Option.bind_eq_bind, Option.bind_some, Option.bind_eq_some_iff] at h
      obtain ⟨end_, hend, _, hbody, -⟩ := h
      obtain ⟨w', hw', hww⟩ := List.dropPrefix?_eq_some_iff.mp hend
      obtain rfl := beq_iff_eq.mp hww
      have hnil : end_ = [] := by
        cases end_ with
        | nil => rfl
        | cons b bs => cases hbody
      have hlen := congrArg List.length hw'
      rw [hnil, List.append_nil, List.length_take] at hlen
      omega
  next => cases h

/-! ## When a statement is read as it was meant -/

/-- Reading a literal takes at least its value and a quote, and no more only
if the value stands there as it is. -/
theorem readQuoted_length {bs u : List UInt8} (h : readQuoted bs = some (u, rest)) :
    u.length + 1 + rest.length ≤ bs.length ∧
      (u.length + 1 + rest.length = bs.length → bs = u ++ quote :: rest ∧ Verbatim u) := by
  induction hn : bs.length using Nat.strongRecOn generalizing bs u with
  | ind n ih =>
  subst hn
  cases bs with
  | nil => cases h
  | cons b bs =>
  by_cases hq : b = quote
  · subst hq
    cases bs with
    | nil =>
      simp only [readQuoted, if_true, Option.some.injEq, Prod.mk.injEq] at h
      obtain ⟨rfl, rfl⟩ := h
      exact ⟨by simp, fun _ => ⟨rfl, trivial⟩⟩
    | cons c cs =>
      simp only [readQuoted, if_true] at h
      split at h
      · -- A doubled quote is shorter in the value.
        obtain ⟨r, hr, he⟩ := Option.map_eq_some_iff.mp h
        simp only [Prod.mk.injEq] at he
        obtain ⟨rfl, rfl⟩ := he
        have hlen := (ih cs.length (by simp only [List.length_cons]; omega) hr rfl).1
        simp only [List.length_cons] at hlen ⊢
        omega
      · simp only [Option.some.injEq, Prod.mk.injEq] at h
        obtain ⟨rfl, rfl⟩ := h
        exact ⟨by simp; omega, fun _ => ⟨rfl, trivial⟩⟩
  · by_cases hb : b = backslash
    · subst hb
      cases bs with
      | nil => simp [readQuoted, hq] at h
      | cons c cs =>
        rw [readQuoted_escape] at h
        obtain ⟨r, hr, he⟩ := Option.map_eq_some_iff.mp h
        simp only [Prod.mk.injEq] at he
        obtain ⟨rfl, rfl⟩ := he
        obtain ⟨hlen, hsame⟩ := ih cs.length (by simp only [List.length_cons]; omega) hr rfl
        obtain ⟨htwo, hkept⟩ := unescape_length c
        simp only [List.length_append, List.length_cons]
        refine ⟨by omega, fun heq => ?_⟩
        -- Only an escape that is kept is as long as its bytes.
        obtain ⟨hc, hun⟩ := hkept (by omega)
        obtain ⟨hcs, hv⟩ := hsame (by omega)
        rw [hun]
        refine ⟨by rw [hcs]; rfl, hq, fun _ => by simpa using hc, ?_⟩
        rcases hc with rfl | rfl
        all_goals exact ⟨by decide, fun he => absurd he (by decide), hv⟩
    · rw [readQuoted_byte hq hb] at h
      obtain ⟨r, hr, he⟩ := Option.map_eq_some_iff.mp h
      simp only [Prod.mk.injEq] at he
      obtain ⟨rfl, rfl⟩ := he
      obtain ⟨hlen, hsame⟩ := ih bs.length (by simp only [List.length_cons]; omega) hr rfl
      simp only [List.length_cons]
      refine ⟨by omega, fun heq => ?_⟩
      obtain ⟨hbs, hv⟩ := hsame (by omega)
      exact ⟨by rw [hbs]; rfl, hq, fun he => absurd he hb, hv⟩

theorem readBody_length {bs : List UInt8} (h : readBody ws bs = some vs) :
    (body ws vs).length ≤ bs.length ∧
      ((body ws vs).length = bs.length → bs = body ws vs ∧ ∀ v ∈ vs, Verbatim v) := by
  induction ws generalizing bs vs with
  | nil =>
    cases bs with
    | nil => cases h; exact ⟨Nat.le_refl _, fun _ => ⟨rfl, nofun⟩⟩
    | cons b bs => cases h
  | cons w ws ih =>
    simp only [readBody, Option.bind_eq_bind, Option.bind_eq_some_iff, Option.pure_def, Option.some.injEq] at h
    obtain ⟨⟨v, rest⟩, hv, rest', hrest, vs', hvs, rfl⟩ := h
    obtain ⟨w', rfl, hw⟩ := List.dropPrefix?_eq_some_iff.mp hrest
    obtain rfl := beq_iff_eq.mp hw
    obtain ⟨hlen, hsame⟩ := readQuoted_length hv
    obtain ⟨hlen', hsame'⟩ := ih hvs
    simp only [body, List.length_append, List.length_cons] at hlen hsame ⊢
    refine ⟨by omega, fun heq => ?_⟩
    obtain ⟨hbs, hverb⟩ := hsame (by omega)
    obtain ⟨hrest', hverbs⟩ := hsame' (by omega)
    rw [hbs, hrest']
    exact ⟨rfl, List.forall_mem_cons.mpr ⟨hverb, hverbs⟩⟩

/-- A statement is no shorter than what is read from it, and no longer only if
all its values stand there as they are. -/
theorem read_length {text : List UInt8} (h : read first ws text = some vs) :
    (render first ws vs).length ≤ text.length ∧
      ((render first ws vs).length = text.length → text = render first ws vs ∧ ∀ v ∈ vs, Verbatim v) := by
  obtain ⟨rest, hrest, hbody⟩ := Option.bind_eq_some_iff.mp h
  obtain ⟨w, rfl, hw⟩ := List.dropPrefix?_eq_some_iff.mp hrest
  obtain rfl := beq_iff_eq.mp hw
  obtain ⟨hlen, hsame⟩ := readBody_length hbody
  simp only [render, List.length_append]
  refine ⟨by omega, fun heq => ?_⟩
  obtain ⟨hrest', hverb⟩ := hsame (by omega)
  exact ⟨by rw [hrest'], hverb⟩

/-- **Which statements are read as they were meant.** A statement that may have
been cut is read with its values exactly if it was not cut and every value is
one that is read as it stands. -/
theorem read_take_iff {n : Nat} (hlen : ws.length = vs.length) (hs : Separated ws) :
    read first ws ((render first ws vs).take n) = some vs ↔
      (render first ws vs).length ≤ n ∧ ∀ v ∈ vs, Verbatim v := by
  constructor
  · intro h
    obtain ⟨hle, hsame⟩ := read_length h
    rw [List.length_take] at hle hsame
    have hfits : (render first ws vs).length ≤ n := by omega
    exact ⟨hfits, (hsame (by omega)).2⟩
  · rintro ⟨hfits, hv⟩
    rw [List.take_of_length_le hfits, read_render hlen hs hv]

end SqlText
