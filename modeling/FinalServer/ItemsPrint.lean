/-
`cJSON_PrintUnformatted` on linked items.

The text of a tree on a heap is the text of its value, and nothing changes
(`run_printUnformatted`).
-/
import FinalServer.JsonObjects
import FinalServer.JsonPrint

namespace FinalServer

namespace Cjson

open Heap (Mem)
open Heap.Mem

/-- `print_string_ptr`; of a `NULL` it prints an empty string. -/
def printStringPtr : Option Nat → Mem Cell (List UInt8)
  | none => pure [34, 34]
  | some a => do
    let s ← loadText a
    pure (Json.printString s)

mutual

/-- `print_value`, with a bound on its turns and its depth together; `none` if it
fails. The numbers the servers print are `int`s. -/
def printValue : Nat → Nat → Mem Cell (Option (List UInt8))
  | 0, _ => stuck
  | turns + 1, item => do
    let i ← loadItem item
    match i.kind with
    | .invalid => pure none
    | .null => pure (some (CString.bytes "null"))
    | .bool true => pure (some (CString.bytes "true"))
    | .bool false => pure (some (CString.bytes "false"))
    | .number d => pure (some (CString.ofInt (Json.toInt d)).bytes)
    | .string => do
      let bytes ← printStringPtr i.valuestring
      pure (some bytes)
    | .array => do
      match ← printArray turns i.child with
      | some bytes => pure (some (91 :: (bytes ++ [93])))
      | none => pure none
    | .object => do
      match ← printObject turns i.child with
      | some bytes => pure (some (123 :: (bytes ++ [125])))
      | none => pure none

/-- The loop of `print_array`. -/
def printArray : Nat → Option Nat → Mem Cell (Option (List UInt8))
  | _, none => pure (some [])
  | 0, some _ => stuck
  | turns + 1, some current => do
    match ← printValue turns current with
    | none => pure none
    | some value => do
      match ← nextOf current with
      | none => pure (some value)
      | some next => do
        match ← printArray turns (some next) with
        | none => pure none
        | some rest => pure (some (value ++ 44 :: rest))

/-- The loop of `print_object`. -/
def printObject : Nat → Option Nat → Mem Cell (Option (List UInt8))
  | _, none => pure (some [])
  | 0, some _ => stuck
  | turns + 1, some current => do
    let i ← loadItem current
    let string ← printStringPtr i.string
    match ← printValue turns current with
    | none => pure none
    | some value => do
      match i.next with
      | none => pure (some (string ++ 58 :: value))
      | some next => do
        match ← printObject turns (some next) with
        | none => pure none
        | some rest => pure (some (string ++ 58 :: (value ++ 44 :: rest)))

end

/-- `cJSON_PrintUnformatted`. An item takes two turns, one of a loop and one of its own. -/
def printUnformatted : Option Nat → Mem Cell (Option (List UInt8))
  | none => pure none
  | some item => do
    let turns ← turnLimit
    printValue (2 * turns) item

variable {h : Heap Cell}

theorem run_printStringPtr {t : Option (Nat × CString)} (ht : TextAt h t) :
    printStringPtr (t.map (·.1)) h = some (Json.printString ((t.map (·.2)).getD ""), h) := by
  cases t with
  | none => rfl
  | some t =>
    have hload : loadText t.1 h = some (t.2, h) := loadText_of ht
    simp only [Option.map_some, printStringPtr, bind_of hload]
    rfl

/-- What the loops over the children of an item print is what they print of the values. -/
def Prints (h : Heap Cell) (turns : Nat) (f : Forest) : Prop :=
  printArray turns f.head h = some (some (Json.printItems (f.entries.map (·.2))), h) ∧
    printObject turns f.head h = some (some (Json.printFields f.fields), h)

theorem run_printValue {a : Nat} {k : Option (Nat × CString)} {d : Data} {cs : Forest} {next prev : Option Nat}
    (hitem : h.cells a = some (.item ⟨next, prev, cs.head, d.kind, d.text.map (·.1), k.map (·.1)⟩))
    (htext : TextAt h d.text) {turns : Nat} (hcs : Prints h turns cs) :
    printValue (turns + 1) a h = some (some (d.value cs.entries).print, h) := by
  obtain ⟨harray, hobject⟩ := hcs
  cases d with
  | null => simp only [printValue, bind_of (loadItem_of hitem), Data.kind]; rfl
  | bool b => cases b <;> simp only [printValue, bind_of (loadItem_of hitem), Data.kind] <;> rfl
  | number q => simp only [printValue, bind_of (loadItem_of hitem), Data.kind]; rfl
  | string block s =>
    have hstring := run_printStringPtr htext
    simp only [Data.text] at hstring
    simp only [printValue, bind_of (loadItem_of hitem), Data.kind, Data.text, bind_of hstring]
    rfl
  | array => simp only [printValue, bind_of (loadItem_of hitem), Data.kind, bind_of harray]; rfl
  | object => simp only [printValue, bind_of (loadItem_of hitem), Data.kind, bind_of hobject]; rfl

theorem run_print {f : Forest} {before : Option Nat} (hc : Chain h before none f) {turns : Nat}
    (hturns : 2 * f.size ≤ turns) : Prints h turns f := by
  induction f generalizing before turns with
  | nil => exact ⟨by cases turns <;> rfl, by cases turns <;> rfl⟩
  | cons a k d cs r ihc ihr =>
    obtain ⟨hitem, hkey, htext, hchild, hrest⟩ := hc
    simp only [Forest.size] at hturns
    obtain ⟨turns, rfl⟩ : ∃ m, turns = m + 2 := ⟨turns - 2, by omega⟩
    have hcs : Prints h turns cs := ihc hchild (by omega)
    have hvalue := run_printValue hitem htext hcs
    have hr : Prints h (turns + 1) r := ihr hrest (by omega)
    have hname := run_printStringPtr hkey
    cases r with
    | nil =>
      constructor
      · show printArray (turns + 2) (some a) h = _
        simp only [printArray, bind_of hvalue, bind_of (nextOf_of hitem)]
        rfl
      · show printObject (turns + 2) (some a) h = _
        simp only [printObject, bind_of (loadItem_of hitem), bind_of hname, bind_of hvalue]
        rfl
    | cons b kb db cb rb =>
      have harray : printArray (turns + 1) (some b) h = _ := hr.1
      have hobject : printObject (turns + 1) (some b) h = _ := hr.2
      constructor
      · show printArray (turns + 2) (some a) h = _
        rw [printArray, bind_of hvalue]
        show (nextOf a >>= _) h = _
        rw [bind_of (nextOf_of hitem)]
        exact (bind_of harray _).trans rfl
      · show printObject (turns + 2) (some a) h = _
        rw [printObject, bind_of (loadItem_of hitem), bind_of hname, bind_of hvalue]
        exact (bind_of hobject _).trans rfl

/-- The text of a tree is that of its value. -/
theorem run_printUnformatted {t : Tree} (ht : t.Is h) :
    printUnformatted (some t.addr) h = some (some t.value.2.print, h) := by
  have hsize := size_children ht
  obtain ⟨hitem, -, htext, hchild, -⟩ := ht.chain
  have hcs : Prints h (2 * h.bound + 1) t.children := run_print hchild (by omega)
  exact run_printValue hitem htext hcs

end Cjson

end FinalServer
