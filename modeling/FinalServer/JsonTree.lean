/-
The shape of a cJSON tree: induction over it, how deep it is nested, and the
numbers and texts in it.
-/
import FinalServer.Json

namespace FinalServer

namespace Json

mutual

/-- How deep arrays and objects are nested. -/
def depth : Json → Nat
  | .array js => depthItems js + 1
  | .object fs => depthFields fs + 1
  | _ => 0

def depthItems : List Json → Nat
  | [] => 0
  | j :: js => max j.depth (depthItems js)

def depthFields : List (CString × Json) → Nat
  | [] => 0
  | (_, j) :: fs => max j.depth (depthFields fs)

end

mutual

/-- The numbers of a tree, in the order of its text. -/
def numbers : Json → List ℚ
  | .number d => [d]
  | .array js => numbersOfItems js
  | .object fs => numbersOfFields fs
  | _ => []

def numbersOfItems : List Json → List ℚ
  | [] => []
  | j :: js => j.numbers ++ numbersOfItems js

def numbersOfFields : List (CString × Json) → List ℚ
  | [] => []
  | (_, j) :: fs => j.numbers ++ numbersOfFields fs

end

mutual

/-- The strings and names of a tree, in the order of its text. -/
def texts : Json → List CString
  | .string s => [s]
  | .array js => textsOfItems js
  | .object fs => textsOfFields fs
  | _ => []

def textsOfItems : List Json → List CString
  | [] => []
  | j :: js => j.texts ++ textsOfItems js

def textsOfFields : List (CString × Json) → List CString
  | [] => []
  | (name, j) :: fs => name :: (j.texts ++ textsOfFields fs)

end

/-- What holds of a tree if it holds of its parts holds of every tree. -/
@[elab_as_elim]
theorem treeInduction {P : Json → Prop} (null : P .null) (bool : ∀ b, P (.bool b)) (number : ∀ d, P (.number d))
    (string : ∀ s, P (.string s)) (array : ∀ js, (∀ j ∈ js, P j) → P (.array js))
    (object : ∀ fs, (∀ f ∈ fs, P f.2) → P (.object fs)) (j : Json) : P j :=
  @Json.rec P (fun js => ∀ j ∈ js, P j) (fun fs => ∀ f ∈ fs, P f.2) (fun f => P f.2) null bool number string array
    object (List.forall_mem_nil _) (fun _ _ hj hjs => List.forall_mem_cons.mpr ⟨hj, hjs⟩) (List.forall_mem_nil _)
    (fun _ _ hf hfs => List.forall_mem_cons.mpr ⟨hf, hfs⟩) (fun _ _ hj => hj) j

/-! ## Over the parts -/

theorem depthItems_le {js : List Json} {n : Nat} : depthItems js ≤ n ↔ ∀ j ∈ js, j.depth ≤ n := by
  induction js with
  | nil => simp [depthItems]
  | cons j js ih => simp [depthItems, ih]

theorem depthFields_le {fs : List (CString × Json)} {n : Nat} : depthFields fs ≤ n ↔ ∀ f ∈ fs, f.2.depth ≤ n := by
  induction fs with
  | nil => simp [depthFields]
  | cons f fs ih => simp [depthFields, ih]

theorem mem_numbersOfItems {js : List Json} {d : ℚ} : d ∈ numbersOfItems js ↔ ∃ j ∈ js, d ∈ j.numbers := by
  induction js with
  | nil => simp [numbersOfItems]
  | cons j js ih => simp [numbersOfItems, ih]

theorem mem_numbersOfFields {fs : List (CString × Json)} {d : ℚ} :
    d ∈ numbersOfFields fs ↔ ∃ f ∈ fs, d ∈ f.2.numbers := by
  induction fs with
  | nil => simp [numbersOfFields]
  | cons f fs ih => simp [numbersOfFields, ih]

theorem mem_textsOfItems {js : List Json} {s : CString} : s ∈ textsOfItems js ↔ ∃ j ∈ js, s ∈ j.texts := by
  induction js with
  | nil => simp [textsOfItems]
  | cons j js ih => simp [textsOfItems, ih]

theorem mem_textsOfFields {fs : List (CString × Json)} {s : CString} :
    s ∈ textsOfFields fs ↔ ∃ f ∈ fs, s = f.1 ∨ s ∈ f.2.texts := by
  induction fs with
  | nil => simp [textsOfFields]
  | cons f fs ih =>
    obtain ⟨name, j⟩ := f
    simp [textsOfFields, ih, or_assoc]

/-- Every number of the tree is an `int`. -/
def IntNumbers (j : Json) : Prop := ∀ d ∈ j.numbers, ∃ n : Int, d = n ∧ INT_MIN ≤ n ∧ n ≤ INT_MAX

end Json

end FinalServer
