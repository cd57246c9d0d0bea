/-
Trees of cJSON on a heap.

A `Forest` says where some items that are linked to each other lie, with
their children, and what is in them; `Chain` says that the heap is so. A
chain can be cut and joined anywhere (`chain_append`), and at its two ends
its links can be changed (`run_setPrev`, `run_setNext`): that is all that
appending, detaching and replacing do.
-/
import FinalServer.JsonItems
import FinalServer.Json

namespace FinalServer

namespace Cjson

open Heap (Mem Local Exchanges)
open Heap.Mem

/-- What an item holds, with the block of its string. -/
inductive Data
  | null
  | bool (b : Bool)
  | number (d : ℚ)
  | string (block : Nat) (s : CString)
  | array
  | object

namespace Data

def kind : Data → Kind
  | null => .null
  | bool b => .bool b
  | number d => .number d
  | string .. => .string
  | array => .array
  | object => .object

/-- The block of the string, and the string. -/
def text : Data → Option (Nat × CString)
  | string block s => some (block, s)
  | _ => none

/-- The value of an item whose children have these names and values. -/
def value : Data → List (Option CString × Json) → Json
  | null, _ => .null
  | bool b, _ => .bool b
  | number d, _ => .number d
  | string _ s, _ => .string s
  | array, es => .array (es.map (·.2))
  | object, es => .object (es.map fun e => (e.1.getD "", e.2))

/-- What children an item has: an object's have names, and nothing but an object and an array has any. -/
def Fits : Data → List (Option CString × Json) → Prop
  | array, _ => True
  | object, es => ∀ e ∈ es, e.1 ≠ none
  | _, es => es = []

end Data

/-- Linked items: each with its address, the block of its name and the name,
what it holds, and its children. -/
inductive Forest
  | nil
  | cons (addr : Nat) (key : Option (Nat × CString)) (data : Data) (children rest : Forest)

namespace Forest

def append : Forest → Forest → Forest
  | nil, g => g
  | cons a k d cs r, g => cons a k d cs (append r g)

instance : Append Forest := ⟨append⟩

@[simp] theorem nil_append (g : Forest) : nil ++ g = g := rfl

@[simp] theorem cons_append (a : Nat) (k : Option (Nat × CString)) (d : Data) (cs r g : Forest) :
    cons a k d cs r ++ g = cons a k d cs (r ++ g) := rfl

/-- One item. -/
abbrev single (a : Nat) (k : Option (Nat × CString)) (d : Data) (cs : Forest) : Forest := cons a k d cs nil

def head : Forest → Option Nat
  | nil => none
  | cons a .. => some a

def last : Forest → Option Nat
  | nil => none
  | cons a _ _ _ r => r.last.or (some a)

/-- How many items there are, children included. -/
def size : Forest → Nat
  | nil => 0
  | cons _ _ _ cs r => cs.size + r.size + 1

/-- The names and values of the items. -/
def entries : Forest → List (Option CString × Json)
  | nil => []
  | cons _ k d cs r => (k.map (·.2), d.value cs.entries) :: r.entries

/-- Every item has children as it should. -/
def Proper : Forest → Prop
  | nil => True
  | cons _ _ d cs r => d.Fits cs.entries ∧ cs.Proper ∧ r.Proper

/-- The block of a string, if there is one. -/
def textAddr (t : Option (Nat × CString)) : List Nat := (t.map (·.1)).toList

/-- The cells of the items, their blocks included. -/
def addrs : Forest → List Nat
  | nil => []
  | cons a k d cs r => a :: (textAddr k ++ textAddr d.text ++ cs.addrs ++ r.addrs)

variable (f g : Forest)

@[simp] theorem append_nil : f ++ nil = f := by
  induction f with
  | nil => rfl
  | cons a k d cs r _ ih => rw [cons_append, ih]

theorem append_assoc (e : Forest) : f ++ g ++ e = f ++ (g ++ e) := by
  induction f with
  | nil => rfl
  | cons a k d cs r _ ih => simp only [cons_append, ih]

@[simp] theorem head_append : (f ++ g).head = f.head.or g.head := by cases f <;> rfl

@[simp] theorem last_append : (f ++ g).last = g.last.or f.last := by
  induction f with
  | nil => simp [last]
  | cons a k d cs r _ ih => simp only [cons_append, last, ih, Option.or_assoc]

@[simp] theorem addrs_append : (f ++ g).addrs = f.addrs ++ g.addrs := by
  induction f with
  | nil => rfl
  | cons a k d cs r _ ih => simp [addrs, ih]

@[simp] theorem entries_append : (f ++ g).entries = f.entries ++ g.entries := by
  induction f with
  | nil => rfl
  | cons a k d cs r _ ih => simp [entries, ih]

@[simp] theorem proper_append : (f ++ g).Proper ↔ f.Proper ∧ g.Proper := by
  induction f with
  | nil => simp [Proper]
  | cons a k d cs r _ ih => simp [Proper, ih, and_assoc]

theorem last_isSome : f.last.isSome = f.head.isSome := by cases f <;> simp [last, head]

theorem eq_nil_of_head (h : f.head = none) : f = nil := by
  cases f with
  | nil => rfl
  | cons => cases h

theorem size_le_length : f.size ≤ f.addrs.length := by
  induction f with
  | nil => exact le_rfl
  | cons a k d cs r ihc ihr =>
    simp only [size, addrs, List.length_cons, List.length_append]
    omega

theorem head_mem {p : Nat} (h : f.head = some p) : p ∈ f.addrs := by
  cases f with
  | nil => cases h
  | cons a k d cs r =>
    obtain rfl := Option.some.inj h
    exact List.mem_cons_self

theorem last_mem {p : Nat} (h : f.last = some p) : p ∈ f.addrs := by
  induction f with
  | nil => cases h
  | cons a k d cs r _ ih =>
    rw [addrs, List.mem_cons]
    rcases Option.or_eq_some_iff.mp h with hr | ⟨-, ha⟩
    · exact .inr (List.mem_append_right _ (ih hr))
    · exact .inl (Option.some.inj ha).symm

end Forest

theorem mem_single {a : Nat} {k : Option (Nat × CString)} {d : Data} {cs : Forest} :
    a ∈ (Forest.single a k d cs).addrs := List.mem_cons_self

/-! ## On the heap -/

/-- The string is in its block. -/
def TextAt (h : Heap Cell) : Option (Nat × CString) → Prop
  | none => True
  | some (block, s) => h.cells block = some (.text s)

/-- The items are on the heap, each linked to the next, and the last to `stop`;
backwards the first is linked to `before`. The children of an item begin with
one that is linked back to the last. -/
def Chain (h : Heap Cell) : Option Nat → Option Nat → Forest → Prop
  | _, _, .nil => True
  | before, stop, .cons a k d cs r =>
    h.cells a = some (.item ⟨r.head.or stop, before, cs.head, d.kind, d.text.map (·.1), k.map (·.1)⟩) ∧
      TextAt h k ∧ TextAt h d.text ∧ Chain h cs.last none cs ∧ Chain h (some a) stop r

variable {h h' : Heap Cell} {before stop : Option Nat} {f g : Forest}

theorem TextAt.congr {t : Option (Nat × CString)} (ht : TextAt h t)
    (hcells : ∀ a ∈ Forest.textAddr t, h'.cells a = h.cells a) : TextAt h' t := by
  cases t with
  | none => trivial
  | some t => exact (hcells t.1 (List.mem_singleton_self _)).trans ht

theorem TextAt.live {t : Option (Nat × CString)} (ht : TextAt h t) : ∀ a ∈ Forest.textAddr t, h.cells a ≠ none := by
  cases t with
  | none => exact List.forall_mem_nil _
  | some t =>
    have hcell : h.cells t.1 = some (.text t.2) := ht
    exact fun a ha => by simp [List.mem_singleton.mp ha, hcell]

theorem TextAt.frame {t : Option (Nat × CString)} {F F' : List Nat} (ht : TextAt h t) (hl : Local h h' F F')
    (hdisj : ∀ a ∈ Forest.textAddr t, a ∉ F) : TextAt h' t :=
  ht.congr fun a ha => hl.frame a (hdisj a ha) (ht.live a ha)

/-- Only the cells of its items make a chain. -/
theorem Chain.congr (hc : Chain h before stop f) (hcells : ∀ a ∈ f.addrs, h'.cells a = h.cells a) :
    Chain h' before stop f := by
  induction f generalizing before stop with
  | nil => trivial
  | cons a k d cs r ihc ihr =>
    simp only [Forest.addrs, List.forall_mem_cons, List.forall_mem_append] at hcells
    obtain ⟨ha, ⟨⟨hk, hd⟩, hcs⟩, hr⟩ := hcells
    obtain ⟨hitem, hkey, htext, hchild, hrest⟩ := hc
    exact ⟨ha.trans hitem, hkey.congr hk, htext.congr hd, ihc hchild hcs, ihr hrest hr⟩

theorem Chain.live (hc : Chain h before stop f) : ∀ a ∈ f.addrs, h.cells a ≠ none := by
  induction f generalizing before stop with
  | nil => exact List.forall_mem_nil _
  | cons a k d cs r ihc ihr =>
    obtain ⟨hitem, hkey, htext, hchild, hrest⟩ := hc
    simp only [Forest.addrs, List.forall_mem_cons, List.forall_mem_append]
    exact ⟨by simp [hitem], ⟨⟨hkey.live, htext.live⟩, ihc hchild⟩, ihr hrest⟩

/-- A program on other cells leaves the chain alone. -/
theorem Chain.frame {F F' : List Nat} (hc : Chain h before stop f) (hl : Local h h' F F')
    (hdisj : ∀ a ∈ f.addrs, a ∉ F) : Chain h' before stop f :=
  hc.congr fun a ha => hl.frame a (hdisj a ha) (hc.live a ha)

/-- A chain in two parts, linked to each other. -/
theorem chain_append : Chain h before stop (f ++ g) ↔
    Chain h before (g.head.or stop) f ∧ Chain h (f.last.or before) stop g := by
  induction f generalizing before with
  | nil => simp [Chain, Forest.last]
  | cons a k d cs r _ ih =>
    have hnext : (r ++ g).head.or stop = r.head.or (g.head.or stop) := by
      rw [Forest.head_append, Option.or_assoc]
    have hlast : r.last.or (some a) = (Forest.cons a k d cs r).last.or before := by
      simp only [Forest.last]
      cases r.last <;> rfl
    simp only [Forest.cons_append, Chain, hnext, ih, hlast, and_assoc]

/-! ### Steps of a program -/

section Steps

variable {a : Nat} {i : Item}

theorem loadItem_of (hc : h.cells a = some (.item i)) : loadItem a h = some (i, h) := by
  rw [loadItem, bind_of (load_of hc)]
  rfl

theorem loadText_of {s : CString} (hc : h.cells a = some (.text s)) : loadText a h = some (s, h) := by
  rw [loadText, bind_of (load_of hc)]
  rfl

theorem nextOf_of (hc : h.cells a = some (.item i)) : nextOf a h = some (i.next, h) := by
  rw [nextOf, bind_of (loadItem_of hc)]
  rfl

theorem prevOf_of (hc : h.cells a = some (.item i)) : prevOf a h = some (i.prev, h) := by
  rw [prevOf, bind_of (loadItem_of hc)]
  rfl

theorem childOf_of (hc : h.cells a = some (.item i)) : childOf a h = some (i.child, h) := by
  rw [childOf, bind_of (loadItem_of hc)]
  rfl

theorem setItem_of (hc : h.cells a = some (.item i)) (f : Item → Item) :
    setItem a f h = some ((), h.set a (.item (f i))) := by
  rw [setItem, bind_of (loadItem_of hc)]
  exact store_of hc _

/-- Writing to an item exchanges its own cell. -/
theorem run_setItem (hc : h.cells a = some (.item i)) (f : Item → Item) :
    ∃ h', setItem a f h = some ((), h') ∧ h'.cells a = some (.item (f i)) ∧ Exchanges h h' [a] [a] :=
  ⟨_, setItem_of hc f, by simp, .set (List.mem_singleton_self a) _⟩

end Steps

/-- A cell that is not among others is none of them. -/
theorem notMem_singleton {a : Nat} {l : List Nat} (ha : a ∉ l) : ∀ b ∈ l, b ∉ [a] := fun _ hb hba =>
  ha (List.mem_singleton.mp hba ▸ hb)

/-- Of a chain, the first item is linked back to another. -/
theorem run_setPrev {a : Nat} {k : Option (Nat × CString)} {d : Data} {cs r : Forest}
    (hc : Chain h before stop (.cons a k d cs r)) (hnodup : (Forest.cons a k d cs r).addrs.Nodup) (p : Option Nat) :
    ∃ h', setPrev a p h = some ((), h') ∧ Chain h' p stop (.cons a k d cs r) ∧ Exchanges h h' [a] [a] := by
  obtain ⟨hitem, hkey, htext, hchild, hrest⟩ := hc
  obtain ⟨h', hrun, hcell, he⟩ := run_setItem hitem fun i => { i with prev := p }
  simp only [Forest.addrs, List.nodup_cons, List.mem_append, not_or] at hnodup
  obtain ⟨⟨⟨⟨hk, hd⟩, hcs⟩, hr⟩, -⟩ := hnodup
  exact ⟨h', hrun, ⟨hcell, hkey.frame he.toLocal (notMem_singleton hk), htext.frame he.toLocal (notMem_singleton hd),
    hchild.frame he.toLocal (notMem_singleton hcs), hrest.frame he.toLocal (notMem_singleton hr)⟩, he⟩

/-- Of a chain, the last item is linked to another. -/
theorem run_setNext {z : Nat} (hc : Chain h before stop f) (hnodup : f.addrs.Nodup) (hlast : f.last = some z)
    (p : Option Nat) :
    ∃ h', setNext z p h = some ((), h') ∧ Chain h' before p f ∧ Exchanges h h' [z] [z] := by
  induction f generalizing before with
  | nil => cases hlast
  | cons a k d cs r _ ih =>
    obtain ⟨hitem, hkey, htext, hchild, hrest⟩ := hc
    simp only [Forest.addrs, List.nodup_cons, List.nodup_append, List.mem_append, not_or] at hnodup
    obtain ⟨⟨⟨⟨hk, hd⟩, hcs⟩, hr⟩, -, hnodupr, hdisj⟩ := hnodup
    cases hr' : r.last with
    | none =>
      -- The first item is the last.
      obtain rfl : a = z := by simpa [Forest.last, hr'] using hlast
      obtain rfl : r = .nil := by
        cases r with
        | nil => rfl
        | cons => simp [Forest.last] at hr'
      obtain ⟨h', hrun, hcell, he⟩ := run_setItem hitem fun i => { i with next := p }
      exact ⟨h', hrun, ⟨hcell, hkey.frame he.toLocal (notMem_singleton hk),
        htext.frame he.toLocal (notMem_singleton hd), hchild.frame he.toLocal (notMem_singleton hcs), trivial⟩, he⟩
    | some z' =>
      obtain rfl : z' = z := by simpa [Forest.last, hr'] using hlast
      obtain ⟨h', hrun, hchain, he⟩ := ih hrest hnodupr hr'
      have hz := r.last_mem hr'
      have hne : a ∉ [z'] := fun hin => hr (List.mem_singleton.mp hin ▸ hz)
      have hout : ∀ b, (b ∈ Forest.textAddr k ∨ b ∈ Forest.textAddr d.text) ∨ b ∈ cs.addrs → b ∉ [z'] := by
        intro b hb hin
        exact hdisj b hb z' hz (List.mem_singleton.mp hin)
      have hhead : ∀ q, r.head.or q = r.head := by
        intro q
        cases r with
        | nil => cases hr'
        | cons => rfl
      refine ⟨h', hrun, ⟨?_, hkey.frame he.toLocal fun b hb => hout b (.inl (.inl hb)),
        htext.frame he.toLocal fun b hb => hout b (.inl (.inr hb)),
        hchild.frame he.toLocal fun b hb => hout b (.inr hb), hchain⟩, he⟩
      rw [hhead, ← hhead stop]
      exact he.kept hne hitem

end Cjson

end FinalServer
