/-
The linked items of cJSON are trees of values.

A `Model` knows nothing of items: it maps the pointers of the trees there are
to names and values. `items_refine` says that in every sequence of calls on
trees there are, with allocations that succeed, every function does to the
heap what `Json` says it does to the values, answers what the model answers,
and leaves all other trees as they are. What is on the heap belongs to the
trees of the model: nothing is lost, and nothing is given back twice.
-/
import FinalServer.ItemsPrint
import FinalServer.JsonCopies
import FinalServer.Run

namespace FinalServer

namespace Cjson

open Heap (Mem Local Exchanges Allocator)
open Heap.Mem

/-- The trees there are, by their pointers: their names, if they have any, and their values. -/
abbrev Model := Nat → Option (Option CString × Json)

/-- A call, with the pointers and strings that are passed. -/
inductive Call
  | createNull
  | createNumber (num : ℚ)
  | createString (string : CString)
  | createArray
  | createObject
  | duplicate (item : Nat)
  | addItemToArray (array item : Nat)
  | addItemToObject (object : Nat) (string : CString) (item : Nat)
  | addNumberToObject (object : Nat) (name : CString) (number : ℚ)
  | addStringToObject (object : Nat) (name : CString) (string : Option CString)
  | deleteItemFromObject (object : Nat) (string : CString)
  | replaceItemInObject (object : Nat) (string : CString) (newitem : Nat)
  | printUnformatted (item : Nat)
  | delete (item : Nat)

/-- What a call returns. -/
inductive Reply
  | item (p : Option Nat)
  | bool (b : Bool)
  | text (t : Option (List UInt8))
  | void

def Call.exec (A : Allocator Cell) : Call → Mem Cell Reply
  | .createNull => do
    let item ← Cjson.createNull A
    pure (.item item)
  | .createNumber num => do
    let item ← Cjson.createNumber A num
    pure (.item item)
  | .createString string => do
    let item ← Cjson.createString A (some string)
    pure (.item item)
  | .createArray => do
    let item ← Cjson.createArray A
    pure (.item item)
  | .createObject => do
    let item ← Cjson.createObject A
    pure (.item item)
  | .duplicate item => do
    let copy ← Cjson.duplicate A (some item)
    pure (.item copy)
  | .addItemToArray array item => do
    let ok ← Cjson.addItemToArray (some array) (some item)
    pure (.bool ok)
  | .addItemToObject object string item => do
    let ok ← Cjson.addItemToObject A (some object) string (some item)
    pure (.bool ok)
  | .addNumberToObject object name number => do
    let item ← Cjson.addNumberToObject A (some object) name number
    pure (.item item)
  | .addStringToObject object name string => do
    let item ← Cjson.addStringToObject A (some object) name string
    pure (.item item)
  | .deleteItemFromObject object string => do
    Cjson.deleteItemFromObject (some object) string
    pure .void
  | .replaceItemInObject object string newitem => do
    let ok ← Cjson.replaceItemInObject A (some object) string (some newitem)
    pure (.bool ok)
  | .printUnformatted item => do
    let text ← Cjson.printUnformatted (some item)
    pure (.text text)
  | .delete item => do
    Cjson.delete (some item)
    pure .void

/-! ## The model -/

namespace Model

variable (M : Model)

/-- The value of a tree. -/
def json (p : Nat) : Json := ((M p).map (·.2)).getD .null

/-- A tree is there, and its value passes the test. -/
def Has (p : Nat) (test : Json → Bool) : Prop := (M p).any (fun t => test t.2) = true

instance (p : Nat) (test : Json → Bool) : Decidable (M.Has p test) := inferInstanceAs (Decidable (_ = true))

/-- The value of a tree changes. -/
def edit (p : Nat) (f : Json → Json) : Model := Function.update M p ((M p).map fun t => (t.1, f t.2))

/-- A tree is gone, or part of another. -/
def without (p : Nat) : Model := Function.update M p none

/-- The elements of an array with one more. -/
def push (item : Json) : Json → Json
  | .array js => .array (js ++ [item])
  | j => j

def isObject : Json → Bool
  | .object _ => true
  | _ => false

/-- Its numbers are `int`s, as all numbers that the servers print are. -/
def printable (j : Json) : Bool := j.numbers.all fun d => d == (Json.toInt d : ℚ)

/-- The calls on trees that are there, on arrays and objects where they must be;
copies of what is not nested too deep, and texts of what has no fractions. -/
def Legal : Call → Prop
  | .duplicate item => M.Has item fun j => j.depth ≤ CJSON_CIRCULAR_LIMIT
  | .addItemToArray array item => array ≠ item ∧ M.Has array Json.isArray ∧ M.Has item fun _ => true
  | .addItemToObject object _ item => object ≠ item ∧ M.Has object isObject ∧ M.Has item fun _ => true
  | .addNumberToObject object _ _ => M.Has object isObject
  | .addStringToObject object _ _ => M.Has object isObject
  | .deleteItemFromObject object _ => M.Has object isObject
  | .replaceItemInObject object _ newitem => object ≠ newitem ∧ M.Has object isObject ∧ M.Has newitem fun _ => true
  | .printUnformatted item => M.Has item printable
  | .delete item => M.Has item fun _ => true
  | _ => True

instance : ∀ c, Decidable (M.Legal c)
  | .duplicate item => inferInstanceAs (Decidable (M.Has item fun j => j.depth ≤ CJSON_CIRCULAR_LIMIT))
  | .addItemToArray .. => inferInstanceAs (Decidable (_ ∧ _ ∧ _))
  | .addItemToObject .. => inferInstanceAs (Decidable (_ ∧ _ ∧ _))
  | .replaceItemInObject .. => inferInstanceAs (Decidable (_ ∧ _ ∧ _))
  | .addNumberToObject object _ _ => inferInstanceAs (Decidable (M.Has object isObject))
  | .addStringToObject object _ _ => inferInstanceAs (Decidable (M.Has object isObject))
  | .deleteItemFromObject object _ => inferInstanceAs (Decidable (M.Has object isObject))
  | .printUnformatted item => inferInstanceAs (Decidable (M.Has item printable))
  | .delete item => inferInstanceAs (Decidable (M.Has item fun _ => true))
  | .createNull => .isTrue trivial
  | .createNumber _ => .isTrue trivial
  | .createString _ => .isTrue trivial
  | .createArray => .isTrue trivial
  | .createObject => .isTrue trivial

/-- What a call answers. -/
def Answers : Call → Reply → Prop
  | .addItemToArray .., r => r = .bool true
  | .addItemToObject .., r => r = .bool true
  | .addNumberToObject .., r => ∃ p, r = .item (some p)
  | .addStringToObject _ _ string, r => ∃ p : Option Nat, p.isSome = string.isSome ∧ r = .item p
  | .deleteItemFromObject .., r => r = .void
  | .replaceItemInObject object string _, r => r = .bool ((M.json object).hasObjectItem string)
  | .printUnformatted item, r => r = .text (some (M.json item).print)
  | .delete _, r => r = .void
  | _, r => ∃ p, M p = none ∧ r = .item (some p)

/-- A tree is made at the pointer answered. -/
def made (v : Option (Option CString × Json)) : Reply → Model
  | .item (some p) => Function.update M p v
  | _ => M

/-- What becomes of the trees. A replacement with nothing to replace stays a
tree of its own, with its new name. -/
def next (r : Reply) : Call → Model
  | .createNull => M.made (some (none, .null)) r
  | .createNumber num => M.made (some (none, .number num)) r
  | .createString string => M.made (some (none, .string string)) r
  | .createArray => M.made (some (none, .array [])) r
  | .createObject => M.made (some (none, .object [])) r
  | .duplicate item => M.made (M item) r
  | .addItemToArray array item => (M.without item).edit array (push (M.json item))
  | .addItemToObject object string item => (M.without item).edit object (·.addItemToObject string (M.json item))
  | .addNumberToObject object name number => M.edit object (·.addItemToObject name (.number number))
  | .addStringToObject object name string => M.edit object (·.addStringToObject name string)
  | .deleteItemFromObject object string => M.edit object (·.deleteItemFromObject string)
  | .replaceItemInObject object string newitem =>
    if (M.json object).hasObjectItem string then
      (M.without newitem).edit object (·.replaceItemInObject string (M.json newitem))
    else Function.update M newitem (some (some string, M.json newitem))
  | .printUnformatted _ => M
  | .delete item => M.without item

end Model

/-! ## The trees on the heap -/

/-- The heap holds the trees, which have the model's names and values, and nothing else. -/
structure Represents (h : Heap Cell) (M : Model) (T : Nat → Option Tree) : Prop where
  holds : Tree.view.Holds h T
  owned : Tree.view.Owned h T
  addr : ∀ p t, T p = some t → t.addr = p
  values : ∀ p, M p = (T p).map Tree.value

variable {h h' : Heap Cell} {M : Model} {T : Nat → Option Tree} {A : Allocator Cell}

namespace Represents

variable {p q : Nat} {o u : Option Tree}

theorem one (hR : Represents h M T) (he : Exchanges h h' (Tree.view.cells (T p)) (Tree.view.cells o))
    (ho : ∀ t, o = some t → t.Is h' ∧ t.addr = p) :
    Represents h' (Function.update M p (o.map Tree.value)) (Function.update T p o) := by
  have hturns : Tree.view.Turns h' T _ _ _ _ := Heap.View.turns_one (p := p) fun t ht => (ho t ht).1
  refine ⟨hR.holds.change he hturns, hR.owned.change he hturns, fun r t ht => ?_, fun r => ?_⟩
  · by_cases hr : r = p
    · subst hr
      exact (ho t (by simpa using ht)).2
    · exact hR.addr r t (by simpa [hr] using ht)
  · by_cases hr : r = p
    · subst hr
      simp
    · simp [hr, hR.values r]

theorem two (hR : Represents h M T) (hpq : p ≠ q)
    (he : Exchanges h h' (Tree.view.cells (T p) ++ Tree.view.cells (T q)) (Tree.view.cells o ++ Tree.view.cells u))
    (ho : ∀ t, o = some t → t.Is h' ∧ t.addr = p) (hu : ∀ t, u = some t → t.Is h' ∧ t.addr = q)
    (hapart : ∀ t x, o = some t → u = some x → ∀ a ∈ t.forest.addrs, a ∉ x.forest.addrs) :
    Represents h' (Function.update (Function.update M q (u.map Tree.value)) p (o.map Tree.value))
      (Function.update (Function.update T q u) p o) := by
  have hturns : Tree.view.Turns h' T _ _ _ _ :=
    Heap.View.turns_two hpq (fun t ht => (ho t ht).1) (fun t ht => (hu t ht).1) hapart
  refine ⟨hR.holds.change he hturns, hR.owned.change he hturns, fun r t ht => ?_, fun r => ?_⟩
  · by_cases hr : r = p
    · subst hr
      exact (ho t (by simpa using ht)).2
    · by_cases hr' : r = q
      · subst hr'
        exact (hu t (by simpa [hr] using ht)).2
      · exact hR.addr r t (by simpa [hr, hr'] using ht)
  · by_cases hr : r = p
    · subst hr
      simp
    · by_cases hr' : r = q
      · subst hr'
        simp [hr]
      · simp [hr, hr', hR.values r]

/-- A legal pointer leads to a tree. -/
theorem tree (hR : Represents h M T) {test : Json → Bool} (hp : M.Has p test) :
    ∃ t, T p = some t ∧ t.addr = p ∧ t.Is h ∧ M p = some t.value ∧ M.json p = t.value.2 ∧ test t.value.2 = true := by
  obtain ⟨v, hv, htest⟩ := (Option.any_eq_true ..).mp hp
  obtain ⟨t, ht, rfl⟩ := Option.map_eq_some_iff.mp ((hR.values p).symm.trans hv)
  exact ⟨t, ht, hR.addr p t ht, hR.holds.objects p t ht, hv, by rw [Model.json, hv]; rfl, htest⟩

/-- A tree is made where none was. -/
theorem made (hR : Represents h M T) {x : Tree} {v : Option CString × Json} (hx : x.Is h') (hvalue : x.value = v)
    (he : Exchanges h h' [] x.forest.addrs) :
    M x.addr = none ∧ Represents h' (M.made (some v) (.item (some x.addr))) (Function.update T x.addr (some x)) := by
  have hfresh := (he.grows x.addr x.addr_mem).resolve_left List.not_mem_nil
  have hnone : T x.addr = none := by
    by_contra hsome
    obtain ⟨t, ht⟩ := Option.ne_none_iff_exists'.mp hsome
    have hlive := (hR.holds.objects _ t ht).chain.live t.addr t.addr_mem
    rw [hR.addr _ t ht] at hlive
    exact hlive hfresh
  refine ⟨by rw [hR.values, hnone]; rfl, ?_⟩
  have hone : Represents h' _ _ := hR.one (o := some x) (p := x.addr) (by rw [hnone]; exact he)
    fun t ht => by cases ht; exact ⟨hx, rfl⟩
  rwa [Option.map_some, hvalue] at hone

/-- A tree is changed. -/
theorem edit (hR : Represents h M T) {t t' : Tree} {f : Json → Json} (ht : T p = some t) (hM : M p = some t.value)
    (ht' : t'.Is h') (haddr : t'.addr = p) (hvalue : t'.value = (t.value.1, f t.value.2))
    (he : Exchanges h h' t.forest.addrs t'.forest.addrs) :
    Represents h' (M.edit p f) (Function.update T p (some t')) := by
  have hone : Represents h' _ _ := hR.one (o := some t') (p := p) (by rw [ht]; exact he)
    fun t ht => by cases ht; exact ⟨ht', haddr⟩
  rwa [Option.map_some, hvalue, ← Option.map_some (f := fun v : Option CString × Json => (v.1, f v.2)), ← hM] at hone

/-- A tree is changed and takes another. -/
theorem move (hR : Represents h M T) {t t' x : Tree} {f : Json → Json} (hpq : p ≠ q) (ht : T p = some t)
    (hM : M p = some t.value) (hx : T q = some x) (ht' : t'.Is h') (haddr : t'.addr = p)
    (hvalue : t'.value = (t.value.1, f t.value.2))
    (he : Exchanges h h' (t.forest.addrs ++ x.forest.addrs) t'.forest.addrs) :
    Represents h' ((M.without q).edit p f) (Function.update (Function.update T q none) p (some t')) := by
  have htwo : Represents h' _ _ := hR.two (o := some t') (u := none) hpq
    (by rw [ht, hx]; exact he.listed (fun _ => Iff.rfl) fun b => by simp [Heap.View.cells, Tree.view])
    (fun t ht => by cases ht; exact ⟨ht', haddr⟩) (fun _ hno => by cases hno) fun _ _ _ hno => by cases hno
  have hsame : M.without q p = some t.value := (Function.update_of_ne hpq _ _).trans hM
  rwa [Option.map_some, hvalue, ← Option.map_some (f := fun v : Option CString × Json => (v.1, f v.2)), ← hsame,
    Option.map_none] at htwo

end Represents

/-! ## Values -/

theorem Tree.object_of_value {t : Tree} (h : Model.isObject t.value.2 = true) : t.data = .object := by
  obtain ⟨a, k, d, cs⟩ := t
  cases d with
  | object => rfl
  | _ => cases h

theorem Tree.array_of_value {t : Tree} (h : t.value.2.isArray = true) : t.data = .array := by
  obtain ⟨a, k, d, cs⟩ := t
  cases d with
  | array => rfl
  | _ => cases h

theorem Tree.value_object {t : Tree} (h : t.data = .object) :
    t.value = (t.key.map (·.2), .object t.children.fields) := by
  obtain ⟨a, k, d, cs⟩ := t
  obtain rfl : d = .object := h
  rfl

theorem Tree.value_add_object {t y : Tree} (h : t.data = .object) {name : CString} {j : Json}
    (hy : y.value = (some name, j)) : (t.add y).value = (t.value.1, t.value.2.addItemToObject name j) := by
  have hfields : y.forest.fields = [(name, j)] := by
    show [((y.value.1).getD "", y.value.2)] = _
    rw [hy]
    rfl
  rw [Tree.value_object (t := t.add y) h, Tree.value_object h]
  show (_, Json.object (t.children ++ y.forest).fields) = _
  rw [Forest.fields_append, hfields]
  rfl

theorem Tree.value_add_array {t x : Tree} (h : t.data = .array) :
    (t.add x).value = (t.value.1, Model.push x.value.2 t.value.2) := by
  obtain ⟨a, k, d, cs⟩ := t
  obtain rfl : d = .array := h
  show (_, Json.array ((cs ++ x.forest).entries.map (·.2))) = _
  rw [Forest.entries_append, List.map_append]
  rfl

/-! ## Calls -/

/-- The call returns what the model answers, and the heap holds what becomes of the trees. -/
def Call.Refines (A : Allocator Cell) (h : Heap Cell) (M : Model) (c : Call) : Prop :=
  ∃ r h' T, c.exec A h = some (r, h') ∧ M.Answers c r ∧ Represents h' (M.next r c) T

theorem call_refines (hA : A.Total) (hR : Represents h M T) {c : Call} (hc : M.Legal c) : c.Refines A h M := by
  cases c with
  | createNull =>
    obtain ⟨a, h', hrun, hx, he⟩ := run_create hA (d := .null) rfl rfl h
    obtain ⟨hnone, hR'⟩ := hR.made hx rfl he
    exact ⟨_, h', _, bind_of hrun _, ⟨a, hnone, rfl⟩, hR'⟩
  | createNumber num =>
    obtain ⟨a, h', hrun, hx, he⟩ := run_create hA (d := .number num) rfl rfl h
    obtain ⟨hnone, hR'⟩ := hR.made hx rfl he
    exact ⟨_, h', _, bind_of hrun _, ⟨a, hnone, rfl⟩, hR'⟩
  | createString string =>
    obtain ⟨a, b, h', hrun, hx, he⟩ := run_createString hA string h
    obtain ⟨hnone, hR'⟩ := hR.made hx rfl he
    exact ⟨_, h', _, bind_of hrun _, ⟨a, hnone, rfl⟩, hR'⟩
  | createArray =>
    obtain ⟨a, h', hrun, hx, he⟩ := run_create hA (d := .array) rfl trivial h
    obtain ⟨hnone, hR'⟩ := hR.made hx rfl he
    exact ⟨_, h', _, bind_of hrun _, ⟨a, hnone, rfl⟩, hR'⟩
  | createObject =>
    obtain ⟨a, h', hrun, hx, he⟩ := run_create hA (d := .object) rfl (List.forall_mem_nil _) h
    obtain ⟨hnone, hR'⟩ := hR.made hx rfl he
    exact ⟨_, h', _, bind_of hrun _, ⟨a, hnone, rfl⟩, hR'⟩
  | duplicate item =>
    have hitem : M.Has item fun j => j.depth ≤ CJSON_CIRCULAR_LIMIT := hc
    obtain ⟨t, -, rfl, ht, hM, -, hdepth⟩ := hR.tree hitem
    obtain ⟨x, h', hrun, hx, hvalue, he⟩ := run_duplicate hA ht (of_decide_eq_true hdepth)
    obtain ⟨hnone, hR'⟩ := hR.made hx hvalue he
    rw [← hM] at hR'
    exact ⟨_, h', _, bind_of hrun _, ⟨x.addr, hnone, rfl⟩, hR'⟩
  | addItemToArray array item =>
    obtain ⟨hne, harray, hitem⟩ := hc
    obtain ⟨t, hT, rfl, ht, hM, -, htest⟩ := hR.tree harray
    obtain ⟨x, hX, rfl, hx, -, hjson, -⟩ := hR.tree hitem
    have hdata := Tree.array_of_value htest
    obtain ⟨h', hrun, ht', he⟩ := run_addToArray ht hx (hR.holds.apart _ _ t x hT hX hne) hdata
    refine ⟨_, h', _, bind_of hrun _, rfl, hR.move (f := Model.push (M.json x.addr)) hne hT hM hX ht' rfl ?_ he⟩
    rw [hjson]
    exact Tree.value_add_array hdata
  | addItemToObject object string item =>
    obtain ⟨hne, hobject, hitem⟩ := hc
    obtain ⟨t, hT, rfl, ht, hM, -, htest⟩ := hR.tree hobject
    obtain ⟨x, hX, rfl, hx, -, hjson, -⟩ := hR.tree hitem
    have hdata := Tree.object_of_value htest
    obtain ⟨b, h', hrun, ht', he⟩ := run_addToObject hA ht hx (hR.holds.apart _ _ t x hT hX hne) hdata string
    refine ⟨_, h', _, bind_of hrun _, rfl,
      hR.move (f := (·.addItemToObject string (M.json x.addr))) hne hT hM hX ht' rfl ?_ he⟩
    rw [hjson]
    exact Tree.value_add_object hdata rfl
  | addNumberToObject object name number =>
    obtain ⟨t, hT, rfl, ht, hM, -, htest⟩ := hR.tree hc
    have hdata := Tree.object_of_value htest
    obtain ⟨y, r, h', hrun, hr, hy, ht', he⟩ := run_addNumberToObject hA ht hdata name number
    obtain ⟨p, rfl⟩ := Option.ne_none_iff_exists'.mp hr
    exact ⟨_, h', _, bind_of hrun _, ⟨p, rfl⟩, hR.edit (f := (·.addItemToObject name (.number number))) hT hM ht' rfl
      (Tree.value_add_object hdata hy) he⟩
  | addStringToObject object name string =>
    obtain ⟨t, hT, rfl, ht, hM, -, htest⟩ := hR.tree hc
    have hdata := Tree.object_of_value htest
    cases string with
    | none =>
      obtain ⟨h', hrun, he⟩ := run_addStringToObject_null hA t.addr name h
      exact ⟨_, h', _, bind_of hrun _, ⟨none, rfl, rfl⟩, hR.edit (f := (·.addStringToObject name none)) hT hM
        (Tree.view.frame ht he.toLocal fun _ _ => List.not_mem_nil) rfl rfl (he.beside t.forest.addrs |>.listed
          (fun _ => by simp) fun _ => by simp)⟩
    | some s =>
      obtain ⟨y, r, h', hrun, hr, hy, ht', he⟩ := run_addStringToObject hA ht hdata name s
      obtain ⟨p, rfl⟩ := Option.ne_none_iff_exists'.mp hr
      exact ⟨_, h', _, bind_of hrun _, ⟨some p, rfl, rfl⟩, hR.edit (f := (·.addStringToObject name (some s))) hT hM ht'
        rfl (Tree.value_add_object hdata hy) he⟩
  | deleteItemFromObject object string =>
    obtain ⟨t, hT, rfl, ht, hM, -, htest⟩ := hR.tree hc
    have hdata := Tree.object_of_value htest
    obtain ⟨cs, h', hrun, ht', hcs, he⟩ := run_deleteFromObject ht hdata string
    refine ⟨_, h', _, bind_of hrun _, rfl, hR.edit (f := (·.deleteItemFromObject string)) hT hM ht' rfl ?_ he⟩
    rw [Tree.value_object (t := { t with children := cs }) hdata, Tree.value_object hdata, hcs]
    rfl
  | replaceItemInObject object string newitem =>
    obtain ⟨hne, hobject, hitem⟩ := hc
    obtain ⟨t, hT, rfl, ht, hM, hjson, htest⟩ := hR.tree hobject
    obtain ⟨x, hX, rfl, hx, -, hjsonx, -⟩ := hR.tree hitem
    have hdata := Tree.object_of_value htest
    have hfinds : t.value.2.getObjectItem string = FieldList.get string.eqNoCase t.children.fields := by
      rw [Tree.value_object hdata]
      rfl
    obtain ⟨ok, h', hrun, hreplaces⟩ := run_replaceInObject hA ht hx (hR.holds.apart _ _ t x hT hX hne) hdata string
    cases hreplaces with
    | found cs hget ht' hcs he =>
      have hhas : (M.json t.addr).hasObjectItem string = true := by
        rw [hjson, Json.hasObjectItem, hfinds]
        exact Option.isSome_iff_ne_none.mpr hget
      refine ⟨_, h', Function.update (Function.update T x.addr none) t.addr (some { t with children := cs }),
        bind_of hrun _, congrArg Reply.bool hhas.symm, ?_⟩
      rw [Model.next, if_pos hhas]
      refine hR.move (f := (·.replaceItemInObject string (M.json x.addr))) hne hT hM hX ht' rfl ?_ he
      rw [Tree.value_object (t := { t with children := cs }) hdata, Tree.value_object hdata, hcs, hjsonx]
      rfl
    | missing b hget hx' he =>
      have hhas : (M.json t.addr).hasObjectItem string = false := by
        rw [hjson, Json.hasObjectItem, hfinds, hget]
        rfl
      refine ⟨_, h', Function.update T x.addr (some { x with key := some (b, string) }), bind_of hrun _,
        congrArg Reply.bool hhas.symm, ?_⟩
      rw [Model.next, if_neg (by simp [hhas]), hjsonx]
      exact hR.one (o := some { x with key := some (b, string) }) (by rw [hX]; exact he) fun y hy => by
        cases hy
        exact ⟨hx', rfl⟩
  | printUnformatted item =>
    have hitem : M.Has item Model.printable := hc
    obtain ⟨x, -, rfl, hx, -, hjson, -⟩ := hR.tree hitem
    have hrun := run_printUnformatted hx
    rw [← hjson] at hrun
    exact ⟨_, h, T, bind_of hrun _, rfl, hR⟩
  | delete item =>
    have hitem : M.Has item fun _ => true := hc
    obtain ⟨x, hX, rfl, hx, -⟩ := hR.tree hitem
    obtain ⟨h', hrun, he⟩ := run_delete hx.chain hx.nodup
    exact ⟨_, h', _, bind_of hrun _, rfl, hR.one (o := none) (by rw [hX]; exact he) fun _ hno => by cases hno⟩

/-! ## Runs -/

/-- The heap, unless a call got stuck, and the model beside it. -/
structure Sim where
  heap : Option (Heap Cell)
  model : Model

namespace Sim

/-- Nothing has been made. -/
def start : Sim := ⟨some .empty, fun _ => none⟩

def step (A : Allocator Cell) (s : Sim) (c : Call) : Sim :=
  match s.heap with
  | none => s
  | some h =>
    match c.exec A h with
    | some (r, h) => ⟨some h, s.model.next r c⟩
    | none => { s with heap := none }

/-- The call returns, with the model's answer. -/
def Answered (A : Allocator Cell) (s : Sim) (c : Call) : Prop :=
  ∃ h r h', s.heap = some h ∧ c.exec A h = some (r, h') ∧ s.model.Answers c r

/-- The heap holds the model's trees. -/
def Holds (s : Sim) : Prop := ∃ h T, s.heap = some h ∧ Represents h s.model T

theorem step_holds {A : Allocator Cell} (hA : A.Total) {s : Sim} (hs : s.Holds) {c : Call} (hc : s.model.Legal c) :
    s.Answered A c ∧ (s.step A c).Holds := by
  obtain ⟨h, T, hheap, hR⟩ := hs
  obtain ⟨r, h', T', hrun, hans, hR'⟩ := call_refines hA hR hc
  refine ⟨⟨h, r, h', hheap, hrun, hans⟩, h', T', ?_⟩
  simp only [step, hheap, hrun]
  exact ⟨trivial, hR'⟩

theorem start_holds : start.Holds :=
  ⟨.empty, fun _ => none, rfl, ⟨fun _ _ hno => (by cases hno), fun _ _ _ _ hno => (by cases hno)⟩,
    fun _ hno => absurd rfl hno, fun _ _ hno => (by cases hno), fun _ => rfl⟩

end Sim

/-- **Items refine values.** In every sequence of calls, each on trees there
are, every call returns what the model answers, and in the state it leaves the
heap holds the model's trees and nothing else; so with every tree deleted, no
memory is in use. -/
theorem items_refine (hA : A.Total) (calls : List Call)
    (hlegal : Run.Along (Sim.step A) (fun s c => s.model.Legal c) .start calls) :
    Run.Along (Sim.step A) (Sim.Answered A) .start calls ∧
      ∃ h T, (Run.exec (Sim.step A) .start calls).heap = some h ∧
        Represents h (Run.exec (Sim.step A) .start calls).model T ∧
        ((∀ p, (Run.exec (Sim.step A) .start calls).model p = none) → ∀ a, h.cells a = none) := by
  constructor
  · exact hlegal.of_invariant (fun s c hs hc => Sim.step_holds hA hs hc) Sim.start_holds
  · obtain ⟨h, T, hheap, hR⟩ :=
      hlegal.invariant (I := Sim.Holds) (fun s c hs hc => (Sim.step_holds hA hs hc).2) Sim.start_holds
    refine ⟨h, T, hheap, hR, fun hnone a => ?_⟩
    by_contra hlive
    obtain ⟨p, t, ht, -⟩ := hR.owned a hlive
    have hvalue := (hR.values p).symm.trans (hnone p)
    rw [ht] at hvalue
    cases hvalue

/-- An object takes a number and a list and is copied, has the number replaced by
a string under another spelling, loses the list, is printed, and is deleted with
its copy. -/
def editedObject : List Call :=
  [.createObject, .addNumberToObject 0 "size" 5, .createArray, .createString "one", .addItemToArray 3 4,
    .addItemToObject 0 "list" 3, .duplicate 0, .createString "two", .replaceItemInObject 0 "Size" 14,
    .deleteItemFromObject 0 "LIST", .printUnformatted 0, .delete 0, .delete 7]

theorem items_refine_editedObject :
    Run.Along (Sim.step .bump) (Sim.Answered .bump) .start editedObject ∧
      ∃ h T, (Run.exec (Sim.step .bump) .start editedObject).heap = some h ∧
        Represents h (Run.exec (Sim.step .bump) .start editedObject).model T ∧
        ((∀ p, (Run.exec (Sim.step .bump) .start editedObject).model p = none) → ∀ a, h.cells a = none) :=
  items_refine Allocator.bump_total editedObject (by decide +kernel)

end Cjson

end FinalServer
