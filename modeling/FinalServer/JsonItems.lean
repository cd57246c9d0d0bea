/-
The linked items of `cJSON.c`, on a heap.

A tree is made of items. The children of an item are linked by `next`, and
backwards by `prev`; the `prev` of the first one is the last one, so that an
item can be appended without a walk. Names and strings are blocks of their
own. `Json` says what the functions here are to do with a tree, and
`items_refine` that they do it.

The two flags for what an item does not own, `cJSON_IsReference` and
`cJSON_StringIsConst`, are left out: nothing the servers call sets them.
-/
import FinalServer.HeapObjects
import FinalServer.CString
import Mathlib.Data.Rat.Defs

namespace FinalServer

namespace Cjson

open Heap (Mem Allocator)
open Heap.Mem

/-- `type`, with `valueint` or `valuedouble` where the type has one. -/
inductive Kind
  | invalid
  | null
  | bool (b : Bool)
  | number (valuedouble : ℚ)
  | string
  | array
  | object
  deriving DecidableEq

/-- `struct cJSON`. -/
structure Item where
  next : Option Nat
  prev : Option Nat
  child : Option Nat
  kind : Kind
  valuestring : Option Nat
  string : Option Nat
  deriving DecidableEq

/-- What an allocated address holds. -/
inductive Cell
  /-- As `malloc` gives it. -/
  | raw
  | text (s : CString)
  | item (i : Item)
  deriving DecidableEq

def loadText (a : Nat) : Mem Cell CString := do
  match ← load a with
  | .text s => pure s
  | _ => stuck

def loadItem (a : Nat) : Mem Cell Item := do
  match ← load a with
  | .item i => pure i
  | _ => stuck

/-! ### The fields of an item -/

def nextOf (a : Nat) : Mem Cell (Option Nat) := do
  let i ← loadItem a
  pure i.next

def prevOf (a : Nat) : Mem Cell (Option Nat) := do
  let i ← loadItem a
  pure i.prev

def childOf (a : Nat) : Mem Cell (Option Nat) := do
  let i ← loadItem a
  pure i.child

def setItem (a : Nat) (f : Item → Item) : Mem Cell Unit := do
  let i ← loadItem a
  store a (.item (f i))

def setNext (a : Nat) (p : Option Nat) : Mem Cell Unit := setItem a fun i => { i with next := p }

def setPrev (a : Nat) (p : Option Nat) : Mem Cell Unit := setItem a fun i => { i with prev := p }

def setChild (a : Nat) (p : Option Nat) : Mem Cell Unit := setItem a fun i => { i with child := p }

def setKind (a : Nat) (k : Kind) : Mem Cell Unit := setItem a fun i => { i with kind := k }

def setValuestring (a : Nat) (p : Option Nat) : Mem Cell Unit := setItem a fun i => { i with valuestring := p }

def setString (a : Nat) (p : Option Nat) : Mem Cell Unit := setItem a fun i => { i with string := p }

/-- More turns than there are items: no loop over items that ends takes as many. -/
def turnLimit : Mem Cell Nat := fun h => some (h.bound + 1, h)

/-! ## Making and deleting -/

def newItem (A : Allocator Cell) : Mem Cell (Option Nat) := do
  match ← malloc A .raw with
  | none => pure none
  | some node => do
    store node (.item ⟨none, none, none, .invalid, none, none⟩)
    pure (some node)

/-- `cJSON_strdup` of a string that is there. -/
def strdup (A : Allocator Cell) (s : CString) : Mem Cell (Option Nat) := do
  match ← malloc A .raw with
  | none => pure none
  | some copy => do
    store copy (.text s)
    pure (some copy)

def freeIfThere : Option Nat → Mem Cell Unit
  | none => pure ()
  | some a => free a

/-- The loop of `cJSON_Delete`, with a bound on its turns and its depth together. -/
def deleteLoop : Nat → Option Nat → Mem Cell Unit
  | _, none => pure ()
  | 0, some _ => stuck
  | turns + 1, some item => do
    let i ← loadItem item
    deleteLoop turns i.child
    freeIfThere i.valuestring
    freeIfThere i.string
    free item
    deleteLoop turns i.next

def delete (item : Option Nat) : Mem Cell Unit := do
  let turns ← turnLimit
  deleteLoop turns item

/-- `cJSON_CreateNull`, `cJSON_CreateNumber`, `cJSON_CreateArray` and `cJSON_CreateObject`. -/
def create (A : Allocator Cell) (k : Kind) : Mem Cell (Option Nat) := do
  match ← newItem A with
  | none => pure none
  | some item => do
    setKind item k
    pure (some item)

def createNull (A : Allocator Cell) : Mem Cell (Option Nat) := create A .null

def createNumber (A : Allocator Cell) (num : ℚ) : Mem Cell (Option Nat) := create A (.number num)

def createArray (A : Allocator Cell) : Mem Cell (Option Nat) := create A .array

def createObject (A : Allocator Cell) : Mem Cell (Option Nat) := create A .object

/-- `cJSON_CreateString`: of a `NULL` string there is no copy, and then no item. -/
def createString (A : Allocator Cell) (string : Option CString) : Mem Cell (Option Nat) := do
  match ← newItem A with
  | none => pure none
  | some item => do
    setKind item .string
    let copy ← match string with
      | none => pure none
      | some s => strdup A s
    setValuestring item copy
    match copy with
    | none => do
      delete (some item)
      pure none
    | some _ => pure (some item)

/-! ## Looking up -/

/-- The comparison of a name with an item's, `strcmp` or `case_insensitive_strcmp`. -/
def sameName (caseSensitive : Bool) (name : CString) : CString → Bool :=
  if caseSensitive then (name == ·) else name.eqNoCase

/-- The loops of `get_object_item`, with a bound on their turns. An item without a
name ends the one that minds case, and the other goes on. -/
def objectItemLoop (caseSensitive : Bool) (name : CString) : Nat → Option Nat → Mem Cell (Option Nat)
  | _, none => pure none
  | 0, some _ => stuck
  | turns + 1, some current => do
    let i ← loadItem current
    match i.string with
    | none => if caseSensitive then pure none else objectItemLoop caseSensitive name turns i.next
    | some string => do
      let s ← loadText string
      if sameName caseSensitive name s then pure (some current)
      else objectItemLoop caseSensitive name turns i.next

/-- `get_object_item`. -/
def objectItem (caseSensitive : Bool) (object : Option Nat) (name : CString) : Mem Cell (Option Nat) :=
  match object with
  | none => pure none
  | some object => do
    let child ← childOf object
    let turns ← turnLimit
    objectItemLoop caseSensitive name turns child

def getObjectItem : Option Nat → CString → Mem Cell (Option Nat) := objectItem false

/-! ## Adding -/

/-- `add_item_to_array`: after the last child, which is the `prev` of the first. -/
def addItemToArray : Option Nat → Option Nat → Mem Cell Bool
  | some array, some item =>
    if array = item then pure false
    else do
      match ← childOf array with
      | none => do
        setChild array (some item)
        setPrev item (some item)
        setNext item none
        pure true
      | some child => do
        match ← prevOf child with
        | none => pure true
        | some last => do
          -- `suffix_object`
          setNext last (some item)
          setPrev item (some last)
          let first ← deref (← childOf array)
          setPrev first (some item)
          pure true
  | _, _ => pure false

/-- `cJSON_AddItemToObject`: the item takes a copy of the name. -/
def addItemToObject (A : Allocator Cell) (object : Option Nat) (string : CString) (item : Option Nat) :
    Mem Cell Bool :=
  match object, item with
  | some object, some item =>
    if object = item then pure false
    else do
      match ← strdup A string with
      | none => pure false
      | some newKey => do
        let i ← loadItem item
        freeIfThere i.string
        setString item (some newKey)
        addItemToArray (some object) (some item)
  | _, _ => pure false

/-- The item just made goes into the object, or is deleted. -/
def addOrDelete (A : Allocator Cell) (object : Option Nat) (name : CString) (item : Option Nat) :
    Mem Cell (Option Nat) := do
  if ← addItemToObject A object name item then pure item
  else do
    delete item
    pure none

def addNumberToObject (A : Allocator Cell) (object : Option Nat) (name : CString) (number : ℚ) :
    Mem Cell (Option Nat) := do
  let numberItem ← createNumber A number
  addOrDelete A object name numberItem

def addStringToObject (A : Allocator Cell) (object : Option Nat) (name : CString) (string : Option CString) :
    Mem Cell (Option Nat) := do
  let stringItem ← createString A string
  addOrDelete A object name stringItem

/-! ## Removing and replacing -/

def detachItemViaPointer : Option Nat → Option Nat → Mem Cell (Option Nat)
  | some parent, some item => do
    if (← childOf parent) ≠ some item ∧ (← prevOf item) = none then pure none
    else do
      if (← childOf parent) ≠ some item then do
        -- not the first one
        let before ← deref (← prevOf item)
        setNext before (← nextOf item)
      match ← nextOf item with
      | some next => setPrev next (← prevOf item)
      | none => pure ()
      if (← childOf parent) = some item then setChild parent (← nextOf item)
      else if (← nextOf item) = none then do
        -- the last one
        let first ← deref (← childOf parent)
        setPrev first (← prevOf item)
      setPrev item none
      setNext item none
      pure (some item)
  | _, _ => pure none

def deleteItemFromObject (object : Option Nat) (string : CString) : Mem Cell Unit := do
  let toDetach ← getObjectItem object string
  let item ← detachItemViaPointer object toDetach
  delete item

/-- Of `cJSON_ReplaceItemViaPointer`: what is linked to the item is linked to its
replacement, which has the links of the item already. -/
def linkTo (parent item replacement : Nat) : Mem Cell Unit := do
  match ← nextOf replacement with
  | some next => setPrev next (some replacement)
  | none => pure ()
  if (← childOf parent) = some item then do
    let first ← deref (← childOf parent)
    if (← prevOf first) = some first then setPrev replacement (some replacement)
    setChild parent (some replacement)
  else do
    match ← prevOf replacement with
    | some before => setNext before (some replacement)
    | none => pure ()
    if (← nextOf replacement) = none then do
      -- the last one
      let first ← deref (← childOf parent)
      setPrev first (some replacement)

def replaceItemViaPointer : Option Nat → Option Nat → Option Nat → Mem Cell Bool
  | some parent, some item, some replacement => do
    if (← childOf parent) = none then pure false
    else if replacement = item then pure true
    else do
      setNext replacement (← nextOf item)
      setPrev replacement (← prevOf item)
      linkTo parent item replacement
      setNext item none
      setPrev item none
      delete (some item)
      pure true
  | _, _, _ => pure false

/-- `cJSON_ReplaceItemInObject`: the replacement has its new name even if there
is nothing to replace. -/
def replaceItemInObject (A : Allocator Cell) (object : Option Nat) (string : CString) (replacement : Option Nat) :
    Mem Cell Bool :=
  match replacement with
  | none => pure false
  | some replacement => do
    let i ← loadItem replacement
    freeIfThere i.string
    let copy ← strdup A string
    setString replacement copy
    match copy with
    | none => pure false
    | some _ => do
      let item ← getObjectItem object string
      replaceItemViaPointer object item (some replacement)

/-! ## Duplicating -/

def CJSON_CIRCULAR_LIMIT : Nat := 10000

/-- A copy of a string if there is one; `none` if there is no memory for it. -/
def copyText (A : Allocator Cell) : Option Nat → Mem Cell (Option (Option Nat))
  | none => pure (some none)
  | some a => do
    let s ← loadText a
    match ← strdup A s with
    | none => pure none
    | some copy => pure (some (some copy))

/-- `cJSON_Duplicate_rec` with its loop over the children: from the new item and
the first child it gives the last copy, or `none` if it failed. -/
def duplicateItem (A : Allocator Cell) (copyChildren : Nat → Option Nat → Mem Cell (Option (Option Nat)))
    (item : Nat) : Mem Cell (Option Nat) := do
  match ← newItem A with
  | none => pure none
  | some newitem => do
    let fail : Mem Cell (Option Nat) := do
      delete (some newitem)
      pure none
    let i ← loadItem item
    setKind newitem i.kind
    match ← copyText A i.valuestring with
    | none => fail
    | some valuestring => do
      setValuestring newitem valuestring
      match ← copyText A i.string with
      | none => fail
      | some string => do
        setString newitem string
        match ← copyChildren newitem i.child with
        | none => fail
        | some newchild => do
          match ← childOf newitem with
          | some first => setPrev first newchild
          | none => pure ()
          pure (some newitem)

/-- The loop over the children, with a bound on its turns and its depth
together; `next` is the latest copy. -/
def duplicateLoop (A : Allocator Cell) : Nat → Nat → Nat → Option Nat → Option Nat → Mem Cell (Option (Option Nat))
  | _, _, _, next, none => pure (some next)
  | 0, _, _, _, some _ => stuck
  | turns + 1, depth, newitem, next, some child => do
    if CJSON_CIRCULAR_LIMIT ≤ depth then pure none
    else do
      match ← duplicateItem A (fun copy first => duplicateLoop A turns (depth + 1) copy none first) child with
      | none => pure none
      | some newchild => do
        match next with
        | some next => do
          setNext next (some newchild)
          setPrev newchild (some next)
        | none => setChild newitem (some newchild)
        let child ← nextOf child
        duplicateLoop A turns depth newitem (some newchild) child

/-- `cJSON_Duplicate(item, 1)`. -/
def duplicate (A : Allocator Cell) : Option Nat → Mem Cell (Option Nat)
  | none => pure none
  | some item => do
    let turns ← turnLimit
    duplicateItem A (fun copy first => duplicateLoop A turns 0 copy none first) item

end Cjson

end FinalServer
