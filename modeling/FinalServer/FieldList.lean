/-
Ordered lists of named fields, read by first match.

Names may repeat, and a lookup, a removal and a replacement each act on the
first field whose name a test accepts. Two tests on names are all the
arguments use: when the test of an edit and the test of a later lookup
accept no common name the edit is invisible to the lookup, and when the
lookup's test is the finer one a replacement is what the lookup finds.
-/
import Mathlib.Data.List.Basic

namespace FieldList

variable {κ β : Type*}

/-- The value of the first field whose name passes `p`. -/
def get (p : κ → Bool) (fs : List (κ × β)) : Option β := (fs.find? fun f => p f.1).map (·.2)

/-- The fields without the first one whose name passes `p`. -/
def erase (p : κ → Bool) (fs : List (κ × β)) : List (κ × β) := fs.eraseP fun f => p f.1

/-- The fields with the first one whose name passes `p` replaced, name and value. -/
def replace (p : κ → Bool) (k : κ) (v : β) : List (κ × β) → List (κ × β)
  | [] => []
  | f :: fs => if p f.1 then (k, v) :: fs else f :: replace p k v fs

@[simp] theorem get_nil (p : κ → Bool) : get p ([] : List (κ × β)) = none := rfl

theorem get_cons (p : κ → Bool) (f : κ × β) (fs : List (κ × β)) :
    get p (f :: fs) = if p f.1 then some f.2 else get p fs := by
  simp only [get, List.find?_cons]
  split <;> simp_all

theorem get_cons_pos {p : κ → Bool} {f : κ × β} {fs : List (κ × β)} (h : p f.1 = true) :
    get p (f :: fs) = some f.2 := by simp [get_cons, h]

theorem get_cons_neg {p : κ → Bool} {f : κ × β} {fs : List (κ × β)} (h : p f.1 = false) :
    get p (f :: fs) = get p fs := by simp [get_cons, h]

theorem get_append (p : κ → Bool) (fs gs : List (κ × β)) :
    get p (fs ++ gs) = (get p fs).or (get p gs) := by
  simp only [get, List.find?_append]
  cases fs.find? fun f => p f.1 <;> rfl

theorem get_eq_none_iff {p : κ → Bool} {fs : List (κ × β)} :
    get p fs = none ↔ ∀ f ∈ fs, p f.1 = false := by
  simp [get]

theorem exists_mem_of_get {p : κ → Bool} {fs : List (κ × β)} {v : β} (h : get p fs = some v) :
    ∃ k, (k, v) ∈ fs ∧ p k = true := by
  simp only [get, Option.map_eq_some_iff] at h
  obtain ⟨⟨k, v'⟩, hf, rfl⟩ := h
  have hk := List.find?_some hf
  exact ⟨k, List.mem_of_find?_eq_some hf, hk⟩

/-- A finer test that finds something leaves a coarser one something to find. -/
theorem get_isSome_of_imp {p q : κ → Bool} {fs : List (κ × β)} (hpq : ∀ k, p k = true → q k = true)
    (h : (get p fs).isSome) : (get q fs).isSome := by
  obtain ⟨v, hv⟩ := Option.isSome_iff_exists.mp h
  obtain ⟨k, hm, hk⟩ := exists_mem_of_get hv
  rw [Option.isSome_iff_ne_none, Ne, get_eq_none_iff]
  intro hn
  simpa [hpq k hk] using hn _ hm

/-! ## Edits and later lookups -/

section Edits

variable {p q : κ → Bool} {fs : List (κ × β)}

/-- Removing a field is invisible to a lookup of other names. -/
theorem get_erase_other (h : ∀ k, q k = true → p k = false) : get p (erase q fs) = get p fs := by
  induction fs with
  | nil => rfl
  | cons f fs ih =>
    rw [erase, List.eraseP_cons]
    by_cases hq : q f.1 = true
    · simp only [hq, cond_true]
      rw [get_cons_neg (h _ hq)]
    · simp only [hq, cond_false]
      rw [erase] at ih
      rw [get_cons, get_cons, ih]

/-- Replacing a field is invisible to a lookup of other names. -/
theorem get_replace_other {k : κ} {v : β} (h : ∀ k, q k = true → p k = false) (hk : p k = false) :
    get p (replace q k v fs) = get p fs := by
  induction fs with
  | nil => rfl
  | cons f fs ih =>
    by_cases hq : q f.1 = true
    · simp only [replace, hq, if_true]
      rw [get_cons_neg (by exact hk), get_cons_neg (h _ hq)]
    · simp only [replace, hq]
      rw [get_cons]
      simp only [Bool.false_eq_true, if_false, get_cons, ih]

/-- A replacement is what a finer lookup finds, when there was something to
replace; otherwise neither the replacement nor the lookup does anything. -/
theorem get_replace_self {k : κ} {v : β} (hpq : ∀ k, p k = true → q k = true) (hk : p k = true) :
    get p (replace q k v fs) = (get q fs).map fun _ => v := by
  induction fs with
  | nil => rfl
  | cons f fs ih =>
    by_cases hq : q f.1 = true
    · simp only [replace, hq, if_true]
      rw [get_cons_pos (by exact hk), get_cons_pos hq]
      rfl
    · have hp : p f.1 = false := by
        by_contra hp
        exact hq (hpq _ (by simpa using hp))
      simp only [replace, hq]
      simp only [Bool.false_eq_true, if_false]
      rw [get_cons_neg hp, get_cons_neg (by simpa using hq), ih]

theorem get_add_other {k : κ} {v : β} (hk : p k = false) : get p (fs ++ [(k, v)]) = get p fs := by
  rw [get_append, get_cons_neg (by exact hk)]
  simp

/-- A field added at the end is found exactly when no earlier one was. -/
theorem get_add_self {k : κ} {v : β} (hk : p k = true) :
    get p (fs ++ [(k, v)]) = (get p fs).or (some v) := by
  rw [get_append, get_cons_pos (by exact hk)]

/-- Removing a field leaves the fields of other names, in their order. -/
theorem filter_erase_other (h : ∀ k, q k = true → p k = false) :
    (erase q fs).filter (p ·.1) = fs.filter (p ·.1) := by
  induction fs with
  | nil => rfl
  | cons f fs ih =>
    rw [erase, List.eraseP_cons]
    by_cases hq : q f.1 = true
    · simp only [hq, cond_true]
      rw [List.filter_cons_of_neg (by simp [h _ hq])]
    · simp only [hq, cond_false]
      rw [erase] at ih
      rw [List.filter_cons, List.filter_cons, ih]

/-- Of its own fields it takes the first. -/
theorem filter_erase_self : (erase q fs).filter (q ·.1) = (fs.filter (q ·.1)).tail := by
  induction fs with
  | nil => rfl
  | cons f fs ih =>
    rw [erase, List.eraseP_cons]
    by_cases hq : q f.1 = true
    · rw [List.filter_cons_of_pos (by exact hq)]
      simp only [hq, cond_true, List.tail_cons]
    · simp only [hq, cond_false]
      rw [List.filter_cons_of_neg (by simpa using hq), List.filter_cons_of_neg (by simpa using hq)]
      exact ih

/-- Replacing a field leaves the fields of other names, in their order. -/
theorem filter_replace_other {k : κ} {v : β} (h : ∀ k, q k = true → p k = false) (hk : p k = false) :
    (replace q k v fs).filter (p ·.1) = fs.filter (p ·.1) := by
  induction fs with
  | nil => rfl
  | cons f fs ih =>
    by_cases hq : q f.1 = true
    · simp only [replace, hq, if_true]
      rw [List.filter_cons_of_neg (by simp [hk]), List.filter_cons_of_neg (by simp [h _ hq])]
    · simp only [replace, hq]
      simp only [Bool.false_eq_true, if_false, List.filter_cons, ih]

theorem filter_add_other {k : κ} {v : β} (hk : p k = false) :
    (fs ++ [(k, v)]).filter (p ·.1) = fs.filter (p ·.1) := by
  rw [List.filter_append, List.filter_cons_of_neg (by simp [hk]), List.filter_nil, List.append_nil]

end Edits

end FieldList
