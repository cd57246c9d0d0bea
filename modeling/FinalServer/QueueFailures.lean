/-
The linked queue when memory runs out (`lib/queue/queue.c`).

`enqueue` reports a failed allocation and leaves the queue alone. `reverse`
has taken elements out when it needs memory to put them back, and `copyQueue`
does not look at what its `enqueue`s return: both return a queue as if all had
gone well. `allOrNothing_iff` says for which calls of `malloc` that fail they
still do all of what they are for, or nothing.
-/
import FinalServer.Queue

namespace FinalServer

namespace Queue

open Heap (Mem Local Allocator)
open Heap.Mem

variable {α : Type}

/-- The queue at `q` has these elements. -/
def HasElements (h : Heap (Cell α)) (q allocSize : Nat) (xs : List α) : Prop :=
  ∃ ls, IsQueue h q allocSize ls ∧ elements ls = xs

/-- A call on the queue returns a pointer and has had its full effect, or
returns `NULL` and the queue has the elements it had. -/
def AllOrNothing (call : Mem (Cell α) (Option Nat)) (h : Heap (Cell α)) (q allocSize : Nat) (xs : List α)
    (full : Nat → Heap (Cell α) → Prop) : Prop :=
  ∃ p h', call h = some (p, h') ∧
    match p with
    | some p => full p h'
    | none => HasElements h' q allocSize xs

variable (A : Allocator (Cell α)) (h : Heap (Cell α)) (q allocSize : Nat) (xs : List α)

def EnqueueAllOrNothing (v : α) : Prop :=
  AllOrNothing (enqueue A (some q) v) h q allocSize xs fun p h' => p = q ∧ HasElements h' q allocSize (xs ++ [v])

def ReverseAllOrNothing : Prop :=
  AllOrNothing (reverse A (some q)) h q allocSize xs fun p h' => p = q ∧ HasElements h' q allocSize xs.reverse

/-- The full effect of `copyQueue`: an equal queue that shares no cell with the first. -/
def CopyAllOrNothing : Prop :=
  AllOrNothing (copyQueue A (some q)) h q allocSize xs fun p h' =>
    ∃ ls ls', IsQueue h' q allocSize ls ∧ elements ls = xs ∧ IsQueue h' p allocSize ls' ∧ elements ls' = xs ∧
      ∀ a ∈ footprint q ls, a ∉ footprint p ls'

/-! ## Which calls of `malloc` may fail -/

/-- After `m` calls of `malloc`, blocks can be had for the first `k` of `n`
elements, and for no more. -/
structure TakenOut (fails : Nat → Bool) (m n k : Nat) : Prop where
  le : k ≤ n
  fits : ∀ i < k, fails (m + i) = false
  stops : k < n → fails (m + k) = true

/-- The calls before the first element goes back: `k`, and the one that failed, if one did. -/
def afterTaking (m n k : Nat) : Nat := if k < n then m + k + 1 else m + k

/-- `reverse` finds memory for whatever it has taken out, and what it has not
taken out reads the same in both directions. -/
def ReverseFits (fails : Nat → Bool) (m : Nat) (xs : List α) : Prop :=
  ∃ k, TakenOut fails m xs.length k ∧ (∀ i < 2 * k, fails (afterTaking m xs.length k + i) = false) ∧
    (xs.drop k).reverse = xs.drop k

/-- `copyQueue` finds no memory for a record, or memory for all of the copy. -/
def CopyFits (fails : Nat → Bool) (m n : Nat) : Prop := fails m = true ∨ ∀ i < 2 * n, fails (m + 1 + i) = false

variable {A h q allocSize xs} {fails : Nat → Bool} {m n k : Nat}

/-! ## What the pointers of a queue determine -/

theorem Segment.unique {ls ls' : List (Link α)} (hs : Segment h none ls) (hs' : Segment h none ls')
    (hhead : ls.head?.map Link.node = ls'.head?.map Link.node) : ls = ls' := by
  induction ls generalizing ls' with
  | nil =>
    cases ls' with
    | nil => rfl
    | cons => cases hhead
  | cons l ls ih =>
    cases ls' with
    | nil => cases hhead
    | cons l' ls' =>
      have hnode : l.node = l'.node := Option.some.inj hhead
      obtain ⟨hn, hb, hrest⟩ := hs
      obtain ⟨hn', hb', hrest'⟩ := hs'
      rw [hnode, hn', Option.some.injEq, Cell.node.injEq, Node.mk.injEq, Option.or_none, Option.or_none] at hn
      rw [← hn.1, hb', Option.some.injEq, Cell.block.injEq] at hb
      rw [ih hrest hrest' hn.2.symm]
      obtain ⟨node, block, data⟩ := l
      obtain ⟨node', block', data'⟩ := l'
      simp only at hnode hn hb
      rw [hnode, hn.1, hb]

/-- A queue has one list of elements. -/
theorem HasElements.unique {ys : List α} (hx : HasElements h q allocSize xs) (hy : HasElements h q allocSize ys) :
    xs = ys := by
  obtain ⟨ls, hq, rfl⟩ := hx
  obtain ⟨ls', hq', rfl⟩ := hy
  obtain ⟨tail, hrec, -⟩ := hq.record
  obtain ⟨tail', hrec', -⟩ := hq'.record
  rw [hrec, Option.some.injEq, Cell.queue.injEq, Record.mk.injEq] at hrec'
  rw [hq.chain.unique hq'.chain hrec'.2.2.1]

/-! ## What is left of the elements -/

theorem copied_concat (ys done : List α) (x : α) (m : Nat) : copied fails (ys ++ [x]) done m =
    appended fails (copied fails ys done m).1 x (copied fails ys done m).2 := by
  induction ys generalizing done m with
  | nil => rfl
  | cons y ys ih => exact ih _ _

/-- `reverse` takes out what it can and appends it again, newest first. -/
theorem reversed_eq (hk : TakenOut fails m xs.length k) : reversed fails xs m =
    copied fails (xs.take k).reverse (xs.drop k) (afterTaking m xs.length k) := by
  induction xs generalizing m k with
  | nil =>
    obtain rfl : k = 0 := by simpa using hk.le
    rfl
  | cons x xs ih =>
    cases k with
    | zero =>
      have hf : fails m = true := hk.stops (by simp)
      simp [reversed, hf, copied, afterTaking]
    | succ k =>
      have hf : fails m = false := hk.fits 0 (by omega)
      have hk' : TakenOut fails (m + 1) xs.length k := by
        refine ⟨Nat.le_of_succ_le_succ hk.le, fun i hi => ?_, fun hlt => ?_⟩
        · rw [Nat.add_assoc, Nat.add_comm 1 i]
          exact hk.fits (i + 1) (by omega)
        · rw [Nat.add_assoc, Nat.add_comm 1 k]
          exact hk.stops (Nat.succ_lt_succ hlt)
      have hafter : afterTaking (m + 1) xs.length k = afterTaking m (x :: xs).length (k + 1) := by
        simp only [afterTaking, List.length_cons, Nat.add_lt_add_iff_right]
        split <;> omega
      simp only [reversed, hf, Bool.false_eq_true, if_false]
      rw [ih hk', hafter, List.take_succ_cons, List.reverse_cons, List.drop_succ_cons, copied_concat]

theorem exists_takenOut (fails : Nat → Bool) (m n : Nat) : ∃ k, TakenOut fails m n k := by
  induction n with
  | zero => exact ⟨0, Nat.le_refl _, by simp, by simp⟩
  | succ n ih =>
    obtain ⟨k, hle, hfits, hstops⟩ := ih
    rcases Nat.lt_or_eq_of_le hle with hlt | rfl
    · exact ⟨k, by omega, hfits, fun _ => hstops hlt⟩
    · cases hf : fails (m + k) with
      | true => exact ⟨k, by omega, hfits, fun _ => hf⟩
      | false =>
        refine ⟨k + 1, Nat.le_refl _, fun i hi => ?_, by simp⟩
        rcases Nat.lt_or_eq_of_le (Nat.le_of_lt_succ hi) with hlt | rfl
        · exact hfits i hlt
        · exact hf

theorem copied_length_le (fails : Nat → Bool) (ys done : List α) (m : Nat) :
    (copied fails ys done m).1.length ≤ done.length + ys.length := by
  induction ys generalizing done m with
  | nil => exact Nat.le_refl _
  | cons y ys ih =>
    refine Nat.le_trans (ih _ _) ?_
    simp only [appended]
    split
    · simp only [List.length_append, List.length_cons, List.length_nil]
      omega
    · exact Nat.add_le_add_left (Nat.le_succ _) _

/-- The first two calls, and the others. -/
theorem forall_lt_two_mul_succ : (∀ i < 2 * (n + 1), fails (m + i) = false) ↔
    nodeFits fails m = true ∧ ∀ i < 2 * n, fails (m + 2 + i) = false := by
  simp only [nodeFits, Bool.and_eq_true, Bool.not_eq_true']
  constructor
  · intro h
    refine ⟨⟨h 0 (by omega), h 1 (by omega)⟩, fun i hi => ?_⟩
    rw [Nat.add_assoc]
    exact h (2 + i) (by omega)
  · rintro ⟨⟨h₀, h₁⟩, h⟩ i hi
    rcases i with _ | _ | i
    · exact h₀
    · exact h₁
    · have := h i (by omega)
      rwa [Nat.add_assoc, Nat.add_comm 2 i] at this

theorem afterNode_of_fits (hnode : nodeFits fails m = true) : afterNode fails m = m + 2 := by
  simp only [nodeFits, Bool.and_eq_true, Bool.not_eq_true'] at hnode
  simp [afterNode, hnode.1]

/-- All are appended if all calls succeed. -/
theorem copied_of_fits {ys : List α} (done : List α) (hfits : ∀ i < 2 * ys.length, fails (m + i) = false) :
    (copied fails ys done m).1 = done ++ ys := by
  induction ys generalizing done m with
  | nil => simp [copied]
  | cons y ys ih =>
    obtain ⟨hnode, hrest⟩ := forall_lt_two_mul_succ.mp hfits
    simp only [copied, appended, hnode, afterNode_of_fits hnode, if_true]
    rw [ih _ hrest, List.append_assoc]
    rfl

/-- And otherwise the copy is too short. -/
theorem fits_of_copied_length {ys done : List α} (hlen : (copied fails ys done m).1.length = done.length + ys.length) :
    ∀ i < 2 * ys.length, fails (m + i) = false := by
  induction ys generalizing done m with
  | nil => simp
  | cons y ys ih =>
    rw [List.length_cons, forall_lt_two_mul_succ]
    cases hnode : nodeFits fails m with
    | true =>
      simp only [copied, appended, hnode, afterNode_of_fits hnode, if_true] at hlen
      exact ⟨rfl, ih (by rw [hlen]; simp; omega)⟩
    | false =>
      have hle := copied_length_le fails ys done (afterNode fails m)
      simp only [copied, appended, hnode, Bool.false_eq_true, if_false, List.length_cons] at hlen
      omega

theorem reversed_eq_iff : (reversed fails xs m).1 = xs.reverse ↔ ReverseFits fails m xs := by
  have key : ∀ k, TakenOut fails m xs.length k → ((reversed fails xs m).1 = xs.reverse ↔
      (∀ i < 2 * k, fails (afterTaking m xs.length k + i) = false) ∧ (xs.drop k).reverse = xs.drop k) := by
    intro k hk
    have hxs : xs.reverse = (xs.drop k).reverse ++ (xs.take k).reverse := by
      rw [← List.reverse_append, List.take_append_drop]
    have hlen : (xs.take k).reverse.length = k := by
      rw [List.length_reverse, List.length_take, Nat.min_eq_left hk.le]
    have hfits : (∀ i < 2 * k, fails (afterTaking m xs.length k + i) = false) →
        (copied fails (xs.take k).reverse (xs.drop k) (afterTaking m xs.length k)).1 =
          xs.drop k ++ (xs.take k).reverse :=
      fun h => copied_of_fits _ (hlen.symm ▸ h)
    rw [reversed_eq hk]
    constructor
    · intro heq
      have hcalls : ∀ i < 2 * k, fails (afterTaking m xs.length k + i) = false := by
        have hlength : (copied fails (xs.take k).reverse (xs.drop k) (afterTaking m xs.length k)).1.length =
            (xs.drop k).length + (xs.take k).reverse.length := by
          rw [heq, List.length_reverse, hlen, List.length_drop, Nat.sub_add_cancel hk.le]
        have hcalls := fits_of_copied_length hlength
        rwa [hlen] at hcalls
      rw [hfits hcalls, hxs] at heq
      exact ⟨hcalls, (List.append_cancel_right heq).symm⟩
    · rintro ⟨hcalls, hrest⟩
      rw [hfits hcalls, hxs, hrest]
  constructor
  · intro heq
    obtain ⟨k, hk⟩ := exists_takenOut fails m xs.length
    exact ⟨k, hk, (key k hk).mp heq⟩
  · rintro ⟨k, hk, hfits⟩
    exact (key k hk).mpr hfits

/-! ## What the calls do -/

theorem enqueue_allOrNothing (hA : A.Total) (fails : Nat → Bool) (hx : HasElements h q allocSize xs) (v : α) :
    EnqueueAllOrNothing (A.failing fails) h q allocSize xs v := by
  obtain ⟨ls, hq, rfl⟩ := hx
  obtain ⟨ls', h', hrun, hels, -, hq', -⟩ := enqueue_outcome hA fails v hq
  refine ⟨_, h', hrun, ?_⟩
  rw [appended] at hels
  cases hfits : nodeFits fails h.mallocs with
  | true =>
    rw [hfits] at hels
    exact ⟨rfl, ls', hq', hels⟩
  | false =>
    rw [hfits] at hels
    exact ⟨ls', hq', hels⟩

theorem reverse_allOrNothing_iff (hA : A.Total) (fails : Nat → Bool) (hx : HasElements h q allocSize xs) :
    ReverseAllOrNothing (A.failing fails) h q allocSize xs ↔ ReverseFits fails h.mallocs xs := by
  obtain ⟨ls, hq, rfl⟩ := hx
  obtain ⟨ls', h', hrun, hels, hq', -⟩ := reverse_outcome hA fails hq
  rw [← reversed_eq_iff, ← hels]
  constructor
  · rintro ⟨p, h'', hrun', hfull⟩
    rw [hrun] at hrun'
    cases hrun'
    exact HasElements.unique ⟨ls', hq', rfl⟩ hfull.2
  · intro hrev
    exact ⟨_, h', hrun, rfl, ls', hq', hrev⟩

theorem copy_allOrNothing_iff (hA : A.Total) (fails : Nat → Bool) (hx : HasElements h q allocSize xs) :
    CopyAllOrNothing (A.failing fails) h q allocSize xs ↔ CopyFits fails h.mallocs xs.length := by
  obtain ⟨ls, hq, rfl⟩ := hx
  rcases copyQueue_outcome hA fails hq with ⟨hf, h', hrun, hcells⟩ | ⟨hf, q', ls', h', hrun, hfresh, hels, hq', hl⟩
  · exact iff_of_true ⟨_, h', hrun, ls, hq.congr fun a _ => by rw [hcells], rfl⟩ (.inl hf)
  · -- The copy has the elements appended to it, which are all exactly if there was memory for all.
    have hcopied : elements ls' = elements ls ↔ CopyFits fails h.mallocs (elements ls).length := by
      rw [hels]
      constructor
      · intro heq
        exact .inr (fits_of_copied_length (by rw [heq, List.length_nil, Nat.zero_add]))
      · rintro (htrue | hfits)
        · rw [hf] at htrue
          cases htrue
        · exact copied_of_fits [] hfits
    rw [← hcopied]
    constructor
    · rintro ⟨p, h'', hrun', hfull⟩
      rw [hrun] at hrun'
      cases hrun'
      obtain ⟨-, ls₂, -, -, hq₂, hels₂, -⟩ := hfull
      exact HasElements.unique ⟨ls', hq', rfl⟩ ⟨ls₂, hq₂, hels₂⟩
    · intro heq
      have hdisj : ∀ a ∈ footprint q ls, a ∉ footprint q' ls' :=
        fun a ha => hl.notMem List.not_mem_nil (hq.live a ha)
      exact ⟨_, h', hrun, ls, ls', hq.frame hl fun _ _ => List.not_mem_nil, rfl, hq', heq, hdisj⟩

/-- **All or nothing.** Whatever calls of `malloc` fail, `enqueue` appends or
reports an error and leaves the queue as it was. `reverse` and `copyQueue` do so
exactly when there is memory for what they have begun. -/
theorem allOrNothing_iff (hA : A.Total) (fails : Nat → Bool) (hx : HasElements h q allocSize xs) :
    (∀ v, EnqueueAllOrNothing (A.failing fails) h q allocSize xs v) ∧
      (ReverseAllOrNothing (A.failing fails) h q allocSize xs ↔ ReverseFits fails h.mallocs xs) ∧
      (CopyAllOrNothing (A.failing fails) h q allocSize xs ↔ CopyFits fails h.mallocs xs.length) :=
  ⟨enqueue_allOrNothing hA fails hx, reverse_allOrNothing_iff hA fails hx, copy_allOrNothing_iff hA fails hx⟩

/-- A queue with one element. -/
def oneElement : Heap (Cell Nat) :=
  ((Heap.empty.set 0 (.queue ⟨1, 8, some 1, some 1⟩)).set 1 (.node ⟨2, none⟩)).set 2 (.block 5)

theorem oneElement_hasElements : HasElements oneElement 0 8 [5] :=
  ⟨[⟨1, 2, 5⟩], ⟨⟨some 1, rfl, fun _ => rfl⟩, ⟨rfl, rfl, trivial⟩, by decide⟩, rfl⟩

theorem allOrNothing_iff_oneElement :
    (∀ v, EnqueueAllOrNothing (Allocator.bump.failing (· == 1)) oneElement 0 8 [5] v) ∧
      (ReverseAllOrNothing (Allocator.bump.failing (· == 1)) oneElement 0 8 [5] ↔ ReverseFits (· == 1) 0 [5]) ∧
      (CopyAllOrNothing (Allocator.bump.failing (· == 1)) oneElement 0 8 [5] ↔ CopyFits (· == 1) 0 1) :=
  allOrNothing_iff Allocator.bump_total (· == 1) oneElement_hasElements

/-- When the second allocation fails, `reverse` loses the element and
`copyQueue` returns an empty copy. -/
theorem one_element_lost :
    (¬ ∀ (A : Allocator (Cell Nat)) (fails : Nat → Bool) (h : Heap (Cell Nat)) (q allocSize : Nat) (xs : List Nat),
      A.Total → HasElements h q allocSize xs → ReverseAllOrNothing (A.failing fails) h q allocSize xs) ∧
    ¬ ∀ (A : Allocator (Cell Nat)) (fails : Nat → Bool) (h : Heap (Cell Nat)) (q allocSize : Nat) (xs : List Nat),
      A.Total → HasElements h q allocSize xs → CopyAllOrNothing (A.failing fails) h q allocSize xs := by
  constructor
  · intro hall
    have h := hall _ (· == 1) _ 0 8 _ Allocator.bump_total oneElement_hasElements
    have hfits := (reverse_allOrNothing_iff Allocator.bump_total _ oneElement_hasElements).mp h
    exact absurd (reversed_eq_iff.mpr hfits) (by decide)
  · intro hall
    have h := hall _ (· == 1) _ 0 8 _ Allocator.bump_total oneElement_hasElements
    have hfits := (copy_allOrNothing_iff Allocator.bump_total _ oneElement_hasElements).mp h
    rcases hfits with htrue | hfits
    · exact absurd htrue (by decide)
    · exact absurd (hfits 0 (by decide)) (by decide)

end Queue

end FinalServer
