/-
Parsers of a list of tokens, and lists between brackets.

A parser reads a value off the front of the tokens and says what is left of
them. `Framed` says that it has looked at nothing beyond what it has read,
but for what `ok` lets follow; `Keeps` that what is left and what is read
have a property if the tokens had one. Both pass from the elements to a list
of them, and so does reading back what a printer has written.
-/
import Mathlib.Data.List.TakeWhile

universe u v

/-- Reads a value off the front of the tokens; the rest comes back with it. -/
abbrev TokenParser (τ : Type u) (α : Type v) := List τ → Option (α × List τ)

namespace TokenParser

variable {τ : Type u} {α : Type v}

/-- How a list is written: its brackets, its separator, and what may stand around them. -/
structure Brackets (τ : Type u) where
  blank : τ → Bool
  opening : τ
  comma : τ
  closing : τ
  comma_ne : comma ≠ closing
  comma_shows : blank comma = false
  closing_shows : blank closing = false

/-- What is left after leading blanks. -/
def skip (b : Brackets τ) (ts : List τ) : List τ := ts.dropWhile b.blank

section Defs

variable [DecidableEq τ]

/-- The elements after the opening bracket, at most `n`, up to the closing one. -/
def commaList (b : Brackets τ) (element : TokenParser τ α) : Nat → TokenParser τ (List α)
  | 0, _ => none
  | n + 1, ts =>
    match element (skip b ts) with
    | none => none
    | some (a, ts) =>
      match skip b ts with
      | [] => none
      | t :: ts =>
        if t = b.comma then (commaList b element n ts).map fun r => (a :: r.1, r.2)
        else if t = b.closing then some ([a], ts) else none

/-- A list in its brackets. Every element but the last is followed by a comma,
so there are no more of them than tokens. -/
def bracketed (b : Brackets τ) (element : TokenParser τ α) : TokenParser τ (List α)
  | [] => none
  | t :: ts =>
    if t = b.opening then
      match skip b ts with
      | [] => none
      | t' :: ts' => if t' = b.closing then some ([], ts') else commaList b element ts.length ts
    else none

end Defs

variable {b : Brackets τ} {element : TokenParser τ α}

/-! ## Blanks -/

theorem skip_suffix (b : Brackets τ) (ts : List τ) : ∃ w, ts = w ++ skip b ts ∧ ∀ t ∈ w, b.blank t = true :=
  ⟨ts.takeWhile b.blank, List.takeWhile_append_dropWhile.symm, fun _ ht => List.mem_takeWhile_imp ht⟩

theorem length_skip_le (b : Brackets τ) (ts : List τ) : (skip b ts).length ≤ ts.length :=
  (List.dropWhile_sublist _).length_le

theorem blank_of_skip {ts : List τ} {t : τ} {r : List τ} (h : skip b ts = t :: r) : b.blank t = false := by
  have hne : ts.dropWhile b.blank ≠ [] := by
    rw [← skip, h]
    exact List.cons_ne_nil _ _
  have hnot := List.head_dropWhile_not b.blank hne
  rw [skip] at h
  simpa only [h, List.head_cons] using hnot

theorem skip_cons {t : τ} {ts : List τ} (h : b.blank t = false) : skip b (t :: ts) = t :: ts := by
  simp [skip, h]

theorem skip_append {w : List τ} (hw : ∀ t ∈ w, b.blank t = true) (ts : List τ) : skip b (w ++ ts) = skip b ts :=
  List.dropWhile_append_of_pos hw

/-- What begins with a token that shows stands as it is, whatever follows. -/
theorem skip_shown {ts x y z : List τ} (h : skip b ts = x ++ y) (hx : x ≠ []) : skip b (x ++ z) = x ++ z := by
  obtain ⟨t, x', rfl⟩ := List.exists_cons_of_ne_nil hx
  exact skip_cons (blank_of_skip h)

/-- After tokens one of which shows, blanks end before the others. -/
theorem skip_append_shown {v : List τ} (hv : ∃ c ∈ v, b.blank c = false) (t : List τ) :
    skip b (v ++ t) = skip b v ++ t ∧ skip b v ≠ [] := by
  have hne : skip b v ≠ [] := by
    intro hnil
    obtain ⟨c, hc, hshows⟩ := hv
    rw [skip, List.dropWhile_eq_nil_iff] at hnil
    exact absurd (hnil c hc) (by simp [hshows])
  refine ⟨?_, hne⟩
  rw [skip, List.dropWhile_append, ← skip, if_neg (by simpa using hne)]

/-! ## What a parser looks at -/

/-- A value is read from tokens of its own, and read again wherever they stand,
if `ok` lets follow what comes after them. -/
def Framed (ok : α → List τ → Prop) (p : TokenParser τ α) : Prop :=
  ∀ ⦃ts a r⦄, p ts = some (a, r) → ∃ v, v ≠ [] ∧ ts = v ++ r ∧ ∀ t, ok a t → p (v ++ t) = some (a, t)

/-- A property of the tokens passes to what is left of them, and gives one of what is read. -/
def Keeps (I : List τ → Prop) (P : α → Prop) (p : TokenParser τ α) : Prop :=
  ∀ ⦃ts a r⦄, I ts → p ts = some (a, r) → I r ∧ P a

theorem Framed.length_le {ok : α → List τ → Prop} {p : TokenParser τ α} (hp : Framed ok p) {ts r : List τ} {a : α}
    (h : p ts = some (a, r)) : r.length ≤ ts.length := by
  obtain ⟨v, -, rfl, -⟩ := hp h
  simp

/-! ## The elements one by one -/

/-- The elements of a list after its opening bracket, with what stands between them. -/
inductive Reads (b : Brackets τ) (element : TokenParser τ α) : List τ → List α → List τ → Prop
  | last {ts ts₁ rest : List τ} {a : α} (ha : element (skip b ts) = some (a, ts₁))
      (hclose : skip b ts₁ = b.closing :: rest) : Reads b element ts [a] rest
  | more {ts ts₁ ts₂ rest : List τ} {a : α} {as : List α} (ha : element (skip b ts) = some (a, ts₁))
      (hcomma : skip b ts₁ = b.comma :: ts₂) (hrest : Reads b element ts₂ as rest) :
      Reads b element ts (a :: as) rest

/-- The elements are no more than the tokens they are read from. -/
theorem Reads.length_le {ok : α → List τ → Prop} (hf : Framed ok element) {ts rest : List τ} {as : List α}
    (h : Reads b element ts as rest) : as.length + rest.length ≤ ts.length := by
  induction h with
  | @last ts ts₁ rest a ha hclose =>
    have h₁ := (hf.length_le ha).trans (length_skip_le b ts)
    have h₂ := length_skip_le b ts₁
    rw [hclose] at h₂
    simp only [List.length_cons, List.length_nil] at h₂ ⊢
    omega
  | @more ts ts₁ ts₂ rest a as ha hcomma hrest ih =>
    have h₁ := (hf.length_le ha).trans (length_skip_le b ts)
    have h₂ := length_skip_le b ts₁
    rw [hcomma] at h₂
    simp only [List.length_cons] at h₂ ⊢
    omega

/-- A delimiter, blanks aside, may follow every element. -/
def Delimits (b : Brackets τ) (ok : α → List τ → Prop) : Prop :=
  ∀ a t c r, skip b t = c :: r → c = b.comma ∨ c = b.closing → ok a t

/-- Elements are read from their own tokens, and so is what holds them. -/
theorem Reads.framed {ok : α → List τ → Prop} (hf : Framed ok element) (hok : Delimits b ok) {ts rest : List τ}
    {as : List α} (h : Reads b element ts as rest) :
    ∃ v, (∃ c ∈ v, b.blank c = false) ∧ ts = v ++ rest ∧ ∀ t, Reads b element (v ++ t) as t := by
  induction h with
  | @last ts ts₁ rest a ha hclose =>
    obtain ⟨w, hts, hw⟩ := skip_suffix b ts
    obtain ⟨v, -, hv, hread⟩ := hf ha
    obtain ⟨w₁, hts₁, hw₁⟩ := skip_suffix b ts₁
    rw [hclose] at hts₁
    have hall : skip b ts = (v ++ w₁ ++ [b.closing]) ++ rest := by simp [hv, hts₁]
    have hne : v ++ w₁ ++ [b.closing] ≠ [] := by simp
    refine ⟨w ++ (v ++ w₁ ++ [b.closing]), ⟨b.closing, by simp, b.closing_shows⟩, ?_, fun t => ?_⟩
    · rw [List.append_assoc, ← hall]
      exact hts
    · have hnext : skip b (w₁ ++ b.closing :: t) = b.closing :: t := by
        rw [skip_append hw₁, skip_cons b.closing_shows]
      refine .last ?_ hnext
      rw [List.append_assoc, skip_append hw, skip_shown hall hne, List.append_assoc, List.append_assoc]
      exact hread _ (hok _ _ _ _ hnext (.inr rfl))
  | @more ts ts₁ ts₂ rest a as ha hcomma _ ih =>
    obtain ⟨w, hts, hw⟩ := skip_suffix b ts
    obtain ⟨v, -, hv, hread⟩ := hf ha
    obtain ⟨w₁, hts₁, hw₁⟩ := skip_suffix b ts₁
    rw [hcomma] at hts₁
    obtain ⟨v₂, -, hv₂, hrest⟩ := ih
    have hall : skip b ts = (v ++ w₁ ++ [b.comma]) ++ (v₂ ++ rest) := by simp [hv, hts₁, hv₂]
    have hne : v ++ w₁ ++ [b.comma] ≠ [] := by simp
    refine ⟨w ++ (v ++ w₁ ++ [b.comma] ++ v₂), ⟨b.comma, by simp, b.comma_shows⟩, ?_, fun t => ?_⟩
    · rw [List.append_assoc, List.append_assoc, ← hall]
      exact hts
    · have hnext : skip b (w₁ ++ b.comma :: (v₂ ++ t)) = b.comma :: (v₂ ++ t) := by
        rw [skip_append hw₁, skip_cons b.comma_shows]
      refine .more ?_ hnext (hrest t)
      have hassoc : w ++ (v ++ w₁ ++ [b.comma] ++ v₂) ++ t = w ++ ((v ++ w₁ ++ [b.comma]) ++ (v₂ ++ t)) := by simp
      rw [hassoc, skip_append hw, skip_shown hall hne, List.append_assoc, List.append_assoc]
      exact hread _ (hok _ _ _ _ hnext (.inl rfl))

/-- What passes from token to token through blanks and delimiters passes through a list. -/
structure Passes (b : Brackets τ) (I : List τ → Prop) : Prop where
  skip : ∀ {ts}, I ts → I (skip b ts)
  delimiter : ∀ {c ts}, c = b.opening ∨ c = b.comma ∨ c = b.closing → I (c :: ts) → I ts

theorem Reads.keeps {I : List τ → Prop} {P : α → Prop} (hI : Passes b I) (he : Keeps I P element) {ts rest : List τ}
    {as : List α} (h : Reads b element ts as rest) (hts : I ts) : I rest ∧ ∀ a ∈ as, P a := by
  induction h with
  | last ha hclose =>
    obtain ⟨hrest, hp⟩ := he (hI.skip hts) ha
    have hnext := hI.skip hrest
    rw [hclose] at hnext
    exact ⟨hI.delimiter (.inr (.inr rfl)) hnext, by simpa using hp⟩
  | more ha hcomma _ ih =>
    obtain ⟨hrest, hp⟩ := he (hI.skip hts) ha
    have hnext := hI.skip hrest
    rw [hcomma] at hnext
    obtain ⟨hend, hall⟩ := ih (hI.delimiter (.inr (.inl rfl)) hnext)
    exact ⟨hend, List.forall_mem_cons.mpr ⟨hp, hall⟩⟩

/-! ## Written lists -/

/-- The written elements with commas between them. -/
def separated (comma : τ) : List (List τ) → List τ
  | [] => []
  | [x] => x
  | x :: xs => x ++ comma :: separated comma xs

theorem length_separated (comma : τ) {xs : List (List τ)} (h : ∀ x ∈ xs, x ≠ []) :
    xs.length ≤ (separated comma xs).length := by
  induction xs with
  | nil => simp
  | cons x xs ih =>
    have hx := List.length_pos_iff.mpr (h x List.mem_cons_self)
    have hxs := ih fun y hy => h y (List.mem_cons_of_mem _ hy)
    cases xs with
    | nil =>
      simp only [separated, List.length_cons, List.length_nil]
      omega
    | cons y xs =>
      simp only [separated, List.length_append, List.length_cons] at hxs ⊢
      omega

/-! ## Bracketed lists -/

section Lists

variable [DecidableEq τ]

theorem Reads.of_commaList {n : Nat} {ts rest : List τ} {as : List α}
    (h : commaList b element n ts = some (as, rest)) : Reads b element ts as rest := by
  induction n generalizing ts as with
  | zero => cases h
  | succ n ih =>
    simp only [commaList] at h
    split at h
    · cases h
    next a ts₁ ha =>
    split at h
    · cases h
    next t ts₂ hskip =>
    split at h
    next ht =>
      obtain ⟨⟨as', rest'⟩, hr, he⟩ := Option.map_eq_some_iff.mp h
      cases he
      exact .more ha (ht ▸ hskip) (ih hr)
    next =>
      split at h
      next ht =>
        cases h
        exact .last ha (ht ▸ hskip)
      next => cases h

theorem Reads.commaList {n : Nat} {ts rest : List τ} {as : List α} (h : Reads b element ts as rest)
    (hn : as.length ≤ n) : commaList b element n ts = some (as, rest) := by
  induction h generalizing n with
  | last ha hclose =>
    cases n with
    | zero => cases hn
    | succ n => simp only [TokenParser.commaList, ha, hclose, b.comma_ne.symm, if_false, if_true]
  | more ha hcomma _ ih =>
    cases n with
    | zero => cases hn
    | succ n =>
      simp only [TokenParser.commaList, ha, hcomma, if_true]
      rw [ih (by simpa using hn)]
      rfl

/-- What a bracketed list is read from: an opening bracket, and either the
closing one or elements up to it. -/
theorem bracketed_eq_some_iff {ok : α → List τ → Prop} (hf : Framed ok element) {ts rest : List τ} {as : List α} :
    bracketed b element ts = some (as, rest) ↔ ∃ ts', ts = b.opening :: ts' ∧
      (as = [] ∧ skip b ts' = b.closing :: rest ∨
        (∀ r, skip b ts' ≠ b.closing :: r) ∧ skip b ts' ≠ [] ∧ Reads b element ts' as rest) := by
  cases ts with
  | nil => simp [bracketed]
  | cons t ts =>
    simp only [bracketed]
    by_cases ht : t = b.opening
    · subst ht
      simp only [if_true, List.cons.injEq, true_and, exists_eq_left']
      cases hskip : skip b ts with
      | nil => simp
      | cons t' ts' =>
        by_cases ht' : t' = b.closing
        · subst ht'
          simp only [if_true, Option.some.injEq, Prod.mk.injEq, List.cons.injEq, true_and]
          constructor
          · rintro ⟨rfl, rfl⟩
            exact .inl ⟨rfl, rfl⟩
          · intro h
            rcases h with ⟨rfl, rfl⟩ | ⟨h, -⟩
            · exact ⟨rfl, rfl⟩
            · exact absurd rfl (h ts')
        · simp only [ht', if_false, List.cons.injEq, false_and, and_false, false_or, not_false_eq_true,
            implies_true, ne_eq, reduceCtorEq, true_and]
          exact ⟨Reads.of_commaList, fun h => h.commaList (by have := h.length_le hf; omega)⟩
    · simp [ht]

/-- A bracketed list is read from its own tokens, whatever follows. -/
theorem bracketed_framed {ok : α → List τ → Prop} (hf : Framed ok element) (hok : Delimits b ok) :
    Framed (fun _ _ => True) (bracketed b element) := by
  intro ts as rest h
  rw [bracketed_eq_some_iff hf] at h
  obtain ⟨ts', rfl, h⟩ := h
  rcases h with ⟨rfl, hclose⟩ | ⟨hopen, -, hreads⟩
  · obtain ⟨w, hts', hw⟩ := skip_suffix b ts'
    rw [hclose] at hts'
    refine ⟨b.opening :: (w ++ [b.closing]), by simp, by simp [hts'], fun t _ => ?_⟩
    refine (bracketed_eq_some_iff hf).mpr ⟨w ++ [b.closing] ++ t, rfl, .inl ⟨rfl, ?_⟩⟩
    rw [List.append_assoc, skip_append hw]
    exact skip_cons b.closing_shows
  · obtain ⟨v, hshows, rfl, hread⟩ := hreads.framed hf hok
    refine ⟨b.opening :: v, by simp, rfl, fun t _ => (bracketed_eq_some_iff hf).mpr ⟨v ++ t, rfl, .inr ?_⟩⟩
    -- The first token that shows is one of the elements' own.
    obtain ⟨hrest, hne⟩ := skip_append_shown hshows rest
    obtain ⟨ht, -⟩ := skip_append_shown hshows t
    obtain ⟨c, v', hv'⟩ := List.exists_cons_of_ne_nil hne
    rw [hrest, hv'] at hopen
    rw [ht, hv']
    refine ⟨fun r hr => hopen (v' ++ rest) ?_, by simp, hread t⟩
    rw [List.cons_append, List.cons.injEq] at hr ⊢
    exact ⟨hr.1, rfl⟩

theorem bracketed_keeps {ok : α → List τ → Prop} {I : List τ → Prop} {P : α → Prop} (hf : Framed ok element)
    (hI : Passes b I) (he : Keeps I P element) : Keeps I (fun as => ∀ a ∈ as, P a) (bracketed b element) := by
  intro ts as rest hts h
  rw [bracketed_eq_some_iff hf] at h
  obtain ⟨ts', rfl, h⟩ := h
  have hts' := hI.delimiter (.inl rfl) hts
  rcases h with ⟨rfl, hclose⟩ | ⟨-, -, hreads⟩
  · have hnext := hI.skip hts'
    rw [hclose] at hnext
    exact ⟨hI.delimiter (.inr (.inr rfl)) hnext, by simp⟩
  · exact hreads.keeps hI he hts'

/-! ## Reading back what was written -/

/-- The written elements are read back, those that are `good`, and the others refused. -/
structure ReadsBack (b : Brackets τ) (element : TokenParser τ α) (write : α → List τ) (good : α → Bool) (as : List α) :
    Prop where
  reads : ∀ a ∈ as, ∀ t c r, t = c :: r → c = b.comma ∨ c = b.closing →
    element (write a ++ t) = if good a then some (a, t) else none
  shows : ∀ a ∈ as, ∃ c r, write a = c :: r ∧ b.blank c = false ∧ c ≠ b.closing

theorem commaList_separated {write : α → List τ} {good : α → Bool} {as : List α} (h : ReadsBack b element write good as)
    (hne : as ≠ []) {n : Nat} (hn : as.length ≤ n) (t : List τ) :
    commaList b element n (separated b.comma (as.map write) ++ b.closing :: t) =
      if as.all good then some (as, t) else none := by
  induction as generalizing n with
  | nil => exact absurd rfl hne
  | cons a as ih =>
    obtain ⟨n, rfl⟩ : ∃ k, n = k + 1 := ⟨n - 1, by simp at hn; omega⟩
    obtain ⟨c, r, hw, hc, -⟩ := h.shows a List.mem_cons_self
    have hskip : ∀ x, skip b (write a ++ x) = write a ++ x := fun x => by
      rw [hw]
      exact skip_cons hc
    cases as with
    | nil =>
      have hread := h.reads a List.mem_cons_self (b.closing :: t) _ _ rfl (.inr rfl)
      simp only [commaList, List.map_cons, List.map_nil, separated, hskip, hread, List.all_cons, List.all_nil,
        Bool.and_true]
      cases good a with
      | false => rfl
      | true => simp only [if_true, skip_cons b.closing_shows, b.comma_ne.symm, if_false]
    | cons a' as =>
      have hread := h.reads a List.mem_cons_self
        (b.comma :: (separated b.comma ((a' :: as).map write) ++ b.closing :: t)) _ _ rfl (.inl rfl)
      have hrest := ih ⟨fun x hx => h.reads x (List.mem_cons_of_mem _ hx),
        fun x hx => h.shows x (List.mem_cons_of_mem _ hx)⟩ (by simp) (n := n) (by simpa using hn)
      have hsep : separated b.comma ((a :: a' :: as).map write) ++ b.closing :: t =
          write a ++ b.comma :: (separated b.comma ((a' :: as).map write) ++ b.closing :: t) := by
        simp [separated]
      rw [hsep]
      simp only [commaList, hskip, hread]
      rw [List.all_cons]
      cases good a with
      | false => rfl
      | true =>
        simp only [if_true, skip_cons b.comma_shows, hrest, Bool.true_and]
        split <;> rfl

/-- A written list is read back if all its elements are good, and refused if not. -/
theorem bracketed_separated {write : α → List τ} {good : α → Bool} {as : List α} (h : ReadsBack b element write good as)
    (t : List τ) :
    bracketed b element (b.opening :: (separated b.comma (as.map write) ++ b.closing :: t)) =
      if as.all good then some (as, t) else none := by
  cases as with
  | nil => simp [bracketed, separated, skip_cons b.closing_shows]
  | cons a as =>
    obtain ⟨c, r, hw, hc, hclose⟩ := h.shows a List.mem_cons_self
    have hshape : ∃ r', separated b.comma ((a :: as).map write) ++ b.closing :: t = c :: r' := by
      cases as with
      | nil => exact ⟨_, by rw [List.map_cons, List.map_nil, separated, hw]; rfl⟩
      | cons a' as => exact ⟨_, by simp only [List.map_cons, separated, hw]; rfl⟩
    have hlen : (a :: as).length ≤ (separated b.comma ((a :: as).map write) ++ b.closing :: t).length := by
      have hwritten : ∀ x ∈ (a :: as).map write, x ≠ [] := by
        intro x hx
        obtain ⟨a', ha', rfl⟩ := List.mem_map.mp hx
        obtain ⟨c', r', hw', -⟩ := h.shows a' ha'
        rw [hw']
        exact List.cons_ne_nil _ _
      have hsep := length_separated b.comma hwritten
      rw [List.length_map] at hsep
      rw [List.length_append]
      omega
    have hlist := commaList_separated h (by simp) hlen t
    obtain ⟨r', hr'⟩ := hshape
    rw [hr'] at hlist ⊢
    simp only [bracketed, if_true, skip_cons hc, hclose, if_false]
    exact hlist

end Lists

end TokenParser
