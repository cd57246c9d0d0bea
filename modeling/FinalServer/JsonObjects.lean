/-
Trees on a heap, and what the functions of cJSON do to one.

A `Tree` is an item that is in no other, with all that belongs to it. Every
function is described by the trees it takes, the trees it leaves, and the
cells it exchanges, which are those of the trees.
-/
import FinalServer.JsonCuts

namespace FinalServer

namespace Cjson

open Heap (Mem Local Exchanges Allocator)
open Heap.Mem
open Forest (single textAddr)

/-- An item at an address, with its name if it has one, what it holds, and its children. -/
structure Tree where
  addr : Nat
  key : Option (Nat × CString)
  data : Data
  children : Forest

namespace Tree

def forest (t : Tree) : Forest := single t.addr t.key t.data t.children

/-- The name, and the value. -/
def value (t : Tree) : Option CString × Json := (t.key.map (·.2), t.data.value t.children.entries)

/-- The tree is on the heap, and no two of its parts are at one address. -/
structure Is (h : Heap Cell) (t : Tree) : Prop where
  chain : Chain h none none t.forest
  nodup : t.forest.addrs.Nodup
  proper : t.forest.Proper

/-- Trees are seen at their cells. -/
def view : Heap.View Cell Tree where
  Is := Is
  cellsOf t := t.forest.addrs
  live ht := ht.chain.live
  congr ht hcells := ⟨ht.chain.congr hcells, ht.nodup, ht.proper⟩

end Tree

variable {h h' : Heap Cell} {A : Allocator Cell}

/-! ## Making -/

section Make

variable (hA : A.Total)

include hA

theorem run_malloc (c : Cell) (h : Heap Cell) :
    ∃ a, h.cells a = none ∧ malloc A c h = some (some a, (h.set a c).called) := by
  rcases malloc_cases A c h with ⟨hnone, -⟩ | hsome
  · simpa [hnone] using hA h
  · exact hsome

theorem run_strdup (s : CString) (h : Heap Cell) :
    ∃ b h', strdup A s h = some (some b, h') ∧ h.cells b = none ∧ h'.cells b = some (.text s) ∧
      Exchanges h h' [] [b] := by
  obtain ⟨b, hb, hrun⟩ := run_malloc hA .raw h
  have hcell : (h.set b Cell.raw).called.cells b = some .raw := by simp
  refine ⟨b, _, ?_, hb, ?_, (Exchanges.alloc hb .raw).trans (.set (List.mem_singleton_self b) (.text s))⟩
  · simp only [strdup, bind_of hrun, bind_of (store_of hcell _)]
    rfl
  · simp

theorem run_newItem (h : Heap Cell) :
    ∃ a h', newItem A h = some (some a, h') ∧ h.cells a = none ∧
      h'.cells a = some (.item ⟨none, none, none, .invalid, none, none⟩) ∧ Exchanges h h' [] [a] := by
  obtain ⟨a, ha, hrun⟩ := run_malloc hA .raw h
  have hcell : (h.set a Cell.raw).called.cells a = some .raw := by simp
  refine ⟨a, (h.set a .raw).called.set a (.item ⟨none, none, none, .invalid, none, none⟩), ?_, ha, ?_,
    (Exchanges.alloc ha .raw).trans (.set (List.mem_singleton_self a) _)⟩
  · simp only [newItem, bind_of hrun, bind_of (store_of hcell _)]
    rfl
  · simp

/-- An item without a string is made. -/
theorem run_create {d : Data} (htext : d.text = none) (hfits : d.Fits []) (h : Heap Cell) :
    ∃ a h', create A d.kind h = some (some a, h') ∧ Tree.Is h' ⟨a, none, d, .nil⟩ ∧
      Exchanges h h' [] (Tree.forest ⟨a, none, d, .nil⟩).addrs := by
  obtain ⟨a, h₁, hrun₁, -, hcell₁, he₁⟩ := run_newItem hA h
  obtain ⟨h₂, hrun₂, hcell₂, he₂⟩ := run_setItem hcell₁ fun i => { i with kind := d.kind }
  have haddrs : (Tree.forest ⟨a, none, d, .nil⟩).addrs = [a] := by
    simp [Tree.forest, Forest.addrs, textAddr, htext]
  refine ⟨a, h₂, ?_, ⟨⟨?_, trivial, ?_, trivial, trivial⟩, ?_, hfits, trivial, trivial⟩, ?_⟩
  · simp only [create, bind_of hrun₁]
    rw [setKind, bind_of hrun₂]
    rfl
  · rw [htext]
    exact hcell₂
  · rw [htext]
    trivial
  · rw [haddrs]
    exact List.nodup_cons.mpr ⟨List.not_mem_nil, List.nodup_nil⟩
  · rw [haddrs]
    exact he₁.trans he₂

theorem run_createString (s : CString) (h : Heap Cell) :
    ∃ a b h', createString A (some s) h = some (some a, h') ∧ Tree.Is h' ⟨a, none, .string b s, .nil⟩ ∧
      Exchanges h h' [] (Tree.forest ⟨a, none, .string b s, .nil⟩).addrs := by
  obtain ⟨a, h₁, hrun₁, -, hcell₁, he₁⟩ := run_newItem hA h
  obtain ⟨h₂, hrun₂, hcell₂, he₂⟩ := run_setItem hcell₁ fun i => { i with kind := .string }
  obtain ⟨b, h₃, hrun₃, hb, hcellb, he₃⟩ := run_strdup hA s h₂
  have hab : a ≠ b := by
    rintro rfl
    simp [hcell₂] at hb
  have hcell₃ := he₃.kept List.not_mem_nil hcell₂
  obtain ⟨h₄, hrun₄, hcell₄, he₄⟩ := run_setItem hcell₃ fun i => { i with valuestring := some b }
  have hb₄ := he₄.kept (by simpa using hab.symm) hcellb
  refine ⟨a, b, h₄, ?_, ⟨⟨hcell₄, trivial, hb₄, trivial, trivial⟩, ?_, rfl, trivial, trivial⟩, ?_⟩
  · simp only [createString, bind_of hrun₁]
    rw [setKind, bind_of hrun₂, bind_of hrun₃, setValuestring, bind_of hrun₄]
    rfl
  · simpa [Tree.forest, Forest.addrs, textAddr, Data.text] using hab
  · have hmade : Exchanges h h₃ [] ([a] ++ [b]) := (he₁.trans he₂).trans (he₃.beside [a])
    exact hmade.trans (he₄.within (by simp))

end Make

/-! ## Naming -/

section Naming

variable {a b : Nat} {k : Option (Nat × CString)} {d : Data} {xs : Forest} {s : CString}

/-- An item whose old name has gone, and whose new one is there, takes it. -/
theorem run_named {h₁ : Heap Cell} (hx : Chain h none none (single a k d xs)) (hnodup : (single a k d xs).addrs.Nodup)
    (he : Exchanges h h₁ (textAddr k) [b]) (hname : h₁.cells b = some (.text s)) :
    ∃ h', setString a (some b) h₁ = some ((), h') ∧ Chain h' none none (single a (some (b, s)) d xs) ∧
      (single a (some (b, s)) d xs).addrs.Nodup ∧
      Exchanges h h' (single a k d xs).addrs (single a (some (b, s)) d xs).addrs := by
  have hlive := hx.live
  obtain ⟨hitem, -, htext, hchild, -⟩ := hx
  simp only [Forest.addrs, List.append_nil] at hnodup hlive ⊢
  obtain ⟨ha, hn⟩ := List.nodup_cons.mp hnodup
  obtain ⟨hn, hnxs, hapartxs⟩ := List.nodup_append.mp hn
  obtain ⟨-, hntext, haparttext⟩ := List.nodup_append.mp hn
  simp only [List.mem_append, not_or] at ha hapartxs
  obtain ⟨⟨hak, had⟩, haxs⟩ := ha
  -- The new name is at the place of the old one, or where nothing was.
  have hb : b ∈ textAddr k ∨ h.cells b = none := he.grows b (List.mem_singleton_self b)
  have hbelse : ∀ c, c ∉ textAddr k → h.cells c ≠ none → c ≠ b := by
    rintro c hc hlive rfl
    exact hb.elim hc hlive
  have hab : a ≠ b := hbelse a hak (hlive a List.mem_cons_self)
  have hbtext : ∀ c ∈ textAddr d.text, c ∉ textAddr k := fun c hc hin => haparttext c hin c hc rfl
  have hbxs : ∀ c ∈ xs.addrs, c ∉ textAddr k := fun c hc hin => hapartxs c (.inl hin) c hc rfl
  have htextb : b ∉ textAddr d.text := fun hin => hbelse b (hbtext b hin) (hlive b (by simp [hin])) rfl
  have hxsb : b ∉ xs.addrs := fun hin => hbelse b (hbxs b hin) (hlive b (by simp [hin])) rfl
  obtain ⟨h', hrun, hcell, he'⟩ := run_setItem (he.kept hak hitem) fun i => { i with string := some b }
  refine ⟨h', hrun, ⟨hcell, he'.kept (by simpa using hab.symm) hname, ?_, ?_, trivial⟩, ?_, ?_⟩
  · exact (htext.frame he.toLocal hbtext).frame he'.toLocal (notMem_singleton had)
  · exact (hchild.frame he.toLocal hbxs).frame he'.toLocal (notMem_singleton haxs)
  · have hbody : (textAddr d.text ++ xs.addrs).Nodup :=
      List.nodup_append.mpr ⟨hntext, hnxs, fun c hc => hapartxs c (.inr hc)⟩
    have hcons : (a :: b :: (textAddr d.text ++ xs.addrs)).Nodup := by
      refine List.nodup_cons.mpr ⟨?_, List.nodup_cons.mpr ⟨?_, hbody⟩⟩
      · simp [hab, had, haxs]
      · simp [htextb, hxsb]
    exact hcons
  · have hall := (he.beside (a :: (textAddr d.text ++ xs.addrs))).trans
      (he'.within (G := a :: (textAddr d.text ++ xs.addrs) ++ [b]) (by simp))
    refine hall.listed (fun c => ?_) fun c => ?_
    · simp only [List.mem_cons, List.mem_append]
      tauto
    · simp only [textAddr, Option.map_some, Option.toList_some, List.mem_cons, List.mem_append, List.not_mem_nil,
        or_false]
      tauto

end Naming

/-! ## Editing -/

section Edit

variable {p a : Nat} {k kx : Option (Nat × CString)} {d dx : Data} {cs cs' xs : Forest}

/-- Of a tree the children have been exchanged, with other cells. -/
theorem Parent.exchange {D E : List Nat} (hc : Chain h none none (single p k d cs))
    (hnodup : (single p k d cs).addrs.Nodup) (hD : ∀ b ∈ (single p k d cs).addrs, b ∉ D)
    (hp : Parent h' p ⟨none, none, none, d.kind, d.text.map (·.1), k.map (·.1)⟩ cs')
    (he : Exchanges h h' (p :: (cs.addrs ++ D)) (p :: (cs'.addrs ++ E))) :
    Chain h' none none (single p k d cs') ∧
      Exchanges h h' ((single p k d cs).addrs ++ D) ((single p k d cs').addrs ++ E) := by
  obtain ⟨-, hkey, htext, -, -⟩ := hc
  simp only [Forest.addrs, List.append_nil] at hnodup hD ⊢
  obtain ⟨ha, hn⟩ := List.nodup_cons.mp hnodup
  obtain ⟨-, -, hapart⟩ := List.nodup_append.mp hn
  have hout : ∀ b ∈ textAddr k ++ textAddr d.text, b ∉ p :: (cs.addrs ++ D) := by
    intro b hb hin
    rcases List.mem_cons.mp hin with rfl | hin
    · exact ha (List.mem_append_left _ hb)
    rcases List.mem_append.mp hin with hin | hin
    · exact hapart b hb b hin rfl
    · exact hD b (List.mem_cons_of_mem _ (List.mem_append_left _ hb)) hin
  refine ⟨⟨hp.cell, hkey.frame he.toLocal fun b hb => hout b (List.mem_append_left _ hb),
    htext.frame he.toLocal fun b hb => hout b (List.mem_append_right _ hb), hp.chain, trivial⟩, ?_⟩
  refine (he.beside (textAddr k ++ textAddr d.text)).listed (fun b => ?_) fun b => ?_ <;>
  · simp only [List.mem_cons, List.mem_append]
    tauto

theorem Parent.of_chain (hc : Chain h none none (single p k d cs)) :
    Parent h p ⟨none, none, none, d.kind, d.text.map (·.1), k.map (·.1)⟩ cs := ⟨hc.1, hc.2.2.2.1⟩

theorem addrs_single_append : (single p k d (cs ++ xs)).addrs = (single p k d cs).addrs ++ xs.addrs := by
  simp [Forest.addrs]

/-- The cell and the children, of the cells of a tree. -/
theorem children_sublist : (p :: cs.addrs).Sublist (single p k d cs).addrs := by
  simp [Forest.addrs]

theorem run_append (hc : Chain h none none (single p k d cs)) (hx : Chain h none none (single a kx dx xs))
    (hnodup : ((single p k d cs).addrs ++ (single a kx dx xs).addrs).Nodup) :
    ∃ h', addItemToArray (some p) (some a) h = some (true, h') ∧
      Chain h' none none (single p k d (cs ++ single a kx dx xs)) ∧
      Exchanges h h' ((single p k d cs).addrs ++ (single a kx dx xs).addrs)
        (single p k d (cs ++ single a kx dx xs)).addrs := by
  obtain ⟨hnp, -, hapart⟩ := List.nodup_append.mp hnodup
  obtain ⟨h', hrun, hp, he⟩ := run_addItemToArray (Parent.of_chain hc) hx
    (hnodup.sublist (children_sublist.append_right _))
  have hboth := Parent.exchange (D := (single a kx dx xs).addrs) (E := []) hc hnp
    (fun b hb hin => hapart b hb b hin rfl) hp (he.listed (fun _ => Iff.rfl) fun b => by simp)
  exact ⟨h', hrun, hboth.1, hboth.2.listed (fun _ => Iff.rfl) fun b => by simp⟩

end Edit

/-! ## Objects and arrays -/

namespace Tree

/-- The tree with another as its last child. -/
def add (t x : Tree) : Tree := { t with children := t.children ++ x.forest }

theorem addrs_add (t x : Tree) : (t.add x).forest.addrs = t.forest.addrs ++ x.forest.addrs := addrs_single_append

theorem addr_mem (t : Tree) : t.addr ∈ t.forest.addrs := List.mem_cons_self

/-- A tree may have a child that fits. -/
theorem Is.add {t x : Tree} (ht : t.Is h) (hproper : x.forest.Proper)
    (hfits : t.data.Fits (t.children ++ x.forest).entries) (hc : Chain h' none none (t.add x).forest)
    (hnodup : (t.forest.addrs ++ x.forest.addrs).Nodup) : (t.add x).Is h' where
  chain := hc
  nodup := by rw [addrs_add]; exact hnodup
  proper := ⟨hfits, (Forest.proper_append _ _).mpr ⟨ht.proper.2.1, hproper⟩, trivial⟩

end Tree

section Objects

variable {t x : Tree}

theorem run_addToArray (ht : t.Is h) (hx : x.Is h) (hapart : ∀ b ∈ t.forest.addrs, b ∉ x.forest.addrs)
    (harray : t.data = .array) :
    ∃ h', addItemToArray (some t.addr) (some x.addr) h = some (true, h') ∧ (t.add x).Is h' ∧
      Exchanges h h' (t.forest.addrs ++ x.forest.addrs) (t.add x).forest.addrs := by
  have hnodup : (t.forest.addrs ++ x.forest.addrs).Nodup :=
    List.nodup_append.mpr ⟨ht.nodup, hx.nodup, fun b hb c hc he => hapart b hb (he ▸ hc)⟩
  obtain ⟨h', hrun, hc, he⟩ := run_append ht.chain hx.chain hnodup
  exact ⟨h', hrun, ht.add hx.proper (by rw [harray]; trivial) hc hnodup, he⟩

theorem names_add {f : Forest} {b : Nat} {s : CString} (hf : ∀ e ∈ f.entries, e.1 ≠ none) :
    ∀ e ∈ (f ++ single x.addr (some (b, s)) x.data x.children).entries, e.1 ≠ none := by
  intro e he
  rw [Forest.entries_append] at he
  rcases List.mem_append.mp he with he | he
  · exact hf e he
  · rw [List.mem_singleton.mp he]
    exact Option.some_ne_none s

theorem run_addToObject (hA : A.Total) (ht : t.Is h) (hx : x.Is h)
    (hapart : ∀ b ∈ t.forest.addrs, b ∉ x.forest.addrs) (hobj : t.data = .object) (name : CString) :
    ∃ b h', addItemToObject A (some t.addr) name (some x.addr) h = some (true, h') ∧
      (t.add { x with key := some (b, name) }).Is h' ∧
      Exchanges h h' (t.forest.addrs ++ x.forest.addrs) (t.add { x with key := some (b, name) }).forest.addrs := by
  have hne : t.addr ≠ x.addr := fun he => hapart t.addr t.addr_mem (he ▸ x.addr_mem)
  obtain ⟨b, h₁, hrun₁, hb, hname₁, he₁⟩ := run_strdup hA name h
  have hx₁ := hx.chain.frame he₁.toLocal fun _ _ => List.not_mem_nil
  obtain ⟨h₂, hrun₂, he₂⟩ := run_freeIfThere hx₁.2.1
  have hbkey : b ∉ textAddr x.key := fun hin => hx.chain.live b (by simp [Tree.forest, Forest.addrs, hin]) hb
  have hrenamed : Exchanges h h₂ (textAddr x.key) [b] :=
    (((he₁.beside (textAddr x.key)).listed (E := [b] ++ textAddr x.key) (fun _ => by simp) fun _ => by
      simp [or_comm]).trans (he₂.beside [b])).listed (fun _ => Iff.rfl) fun _ => by simp
  obtain ⟨h₃, hrun₃, hx₃, hnx₃, he₃⟩ := run_named hx.chain hx.nodup hrenamed (he₂.kept hbkey hname₁)
  have ht₃ := ht.chain.frame he₃.toLocal hapart
  have hnodup : (t.forest.addrs ++ (single x.addr (some (b, name)) x.data x.children).addrs).Nodup :=
    List.nodup_append.mpr ⟨ht.nodup, hnx₃, fun c hc c' hc' he =>
      he₃.toLocal.notMem (hapart c hc) (ht.chain.live c hc) (he ▸ hc')⟩
  obtain ⟨h₄, hrun₄, ht₄, he₄⟩ := run_append ht₃ hx₃ hnodup
  have hnames : ∀ e ∈ t.children.entries, e.1 ≠ none := by
    have hfits := ht.proper.1
    rwa [hobj] at hfits
  refine ⟨b, h₄, ?_, ht.add hx.proper (by rw [hobj]; exact names_add hnames) ht₄ hnodup,
    (he₃.beside t.forest.addrs).trans he₄⟩
  simp only [addItemToObject, if_neg hne, bind_of hrun₁, bind_of (loadItem_of hx₁.1), bind_of hrun₂, bind_of hrun₃]
  exact hrun₄

/-- An item just made is added. -/
theorem run_addOrDelete (hA : A.Total) {h₁ : Heap Cell} (ht : t.Is h) (hx : x.Is h₁)
    (he : Exchanges h h₁ [] x.forest.addrs) (hobj : t.data = .object) (name : CString) :
    ∃ b h', addOrDelete A (some t.addr) name (some x.addr) h₁ = some (some x.addr, h') ∧
      (t.add { x with key := some (b, name) }).Is h' ∧
      Exchanges h h' t.forest.addrs (t.add { x with key := some (b, name) }).forest.addrs := by
  have ht₁ : t.Is h₁ := Tree.view.frame ht he.toLocal fun _ _ => List.not_mem_nil
  obtain ⟨b, h₂, hrun, ht₂, he₂⟩ := run_addToObject hA ht₁ hx
    (fun c hc => he.toLocal.notMem List.not_mem_nil (ht.chain.live c hc)) hobj name
  refine ⟨b, h₂, ?_, ht₂, ((he.beside t.forest.addrs).trans he₂).listed (fun _ => by simp) fun _ => Iff.rfl⟩
  simp only [addOrDelete, bind_of hrun, if_true]
  rfl

theorem run_addNumberToObject (hA : A.Total) (ht : t.Is h) (hobj : t.data = .object) (name : CString) (d : ℚ) :
    ∃ (y : Tree) (r : Option Nat) (h' : Heap Cell), addNumberToObject A (some t.addr) name d h = some (r, h') ∧
      r ≠ none ∧ y.value = (some name, .number d) ∧ (t.add y).Is h' ∧
      Exchanges h h' t.forest.addrs (t.add y).forest.addrs := by
  obtain ⟨a, h₁, hrun₁, hx, he⟩ := run_create hA (d := .number d) rfl rfl h
  obtain ⟨b, h₂, hrun₂, ht₂, he₂⟩ := run_addOrDelete hA ht hx he hobj name
  refine ⟨_, _, h₂, ?_, Option.some_ne_none a, rfl, ht₂, he₂⟩
  rw [addNumberToObject, createNumber]
  exact (bind_of hrun₁ _).trans hrun₂

theorem run_addStringToObject (hA : A.Total) (ht : t.Is h) (hobj : t.data = .object) (name s : CString) :
    ∃ (y : Tree) (r : Option Nat) (h' : Heap Cell), addStringToObject A (some t.addr) name (some s) h = some (r, h') ∧
      r ≠ none ∧ y.value = (some name, .string s) ∧ (t.add y).Is h' ∧
      Exchanges h h' t.forest.addrs (t.add y).forest.addrs := by
  obtain ⟨a, c, h₁, hrun₁, hx, he⟩ := run_createString hA s h
  obtain ⟨b, h₂, hrun₂, ht₂, he₂⟩ := run_addOrDelete hA ht hx he hobj name
  refine ⟨_, _, h₂, ?_, Option.some_ne_none a, rfl, ht₂, he₂⟩
  rw [addStringToObject]
  exact (bind_of hrun₁ _).trans hrun₂

/-- Of a `NULL` string no item is made, and nothing is left. -/
theorem run_addStringToObject_null (hA : A.Total) (object : Nat) (name : CString) (h : Heap Cell) :
    ∃ h', addStringToObject A (some object) name none h = some (none, h') ∧ Exchanges h h' [] [] := by
  obtain ⟨a, h₁, hrun₁, -, hcell₁, he₁⟩ := run_newItem hA h
  obtain ⟨h₂, hrun₂, hcell₂, he₂⟩ := run_setItem hcell₁ fun i => { i with kind := .string }
  obtain ⟨h₃, hrun₃, hcell₃, he₃⟩ := run_setItem hcell₂ fun i => { i with valuestring := none }
  have hdelete : delete (some a) h₃ = some ((), h₃.clear a) := by
    show deleteLoop (h₃.bound + 1) (some a) h₃ = _
    simp only [deleteLoop, bind_of (loadItem_of hcell₃)]
    exact bind_of (free_of hcell₃) _
  have hcreate : createString A none h = some (none, h₃.clear a) := by
    simp only [createString, bind_of hrun₁]
    rw [setKind, bind_of hrun₂]
    show (setValuestring a none >>= fun _ => delete (some a) >>= fun _ => pure none) h₂ = _
    rw [setValuestring, bind_of hrun₃, bind_of hdelete]
    rfl
  refine ⟨h₃.clear a, ?_, ((he₁.trans he₂).trans he₃).trans (.clear a)⟩
  rw [addStringToObject, bind_of hcreate]
  rfl

/-- The children are fewer than the turns there are. -/
theorem size_children (ht : t.Is h) : t.children.size < h.bound := by
  have hsub : (t.addr :: t.children.addrs).Sublist t.forest.addrs := children_sublist
  have hsize := t.children.size_le_length
  have hlen := hsub.length_le
  have hbound := Heap.length_le_bound ht.nodup ht.chain.live
  simp only [List.length_cons] at hlen
  omega

/-- The children are looked through up to the first of the name. -/
theorem run_getObjectItem (ht : t.Is h) (hobj : t.data = .object) (name : CString) :
    ∃ turns, Finds h name turns t.children ∧
      getObjectItem (some t.addr) name h = objectItemLoop false name turns t.children.head h := by
  have hnames : ∀ e ∈ t.children.entries, e.1 ≠ none := by
    have hfits := ht.proper.1
    rwa [hobj] at hfits
  have hchain : Chain h t.children.last none t.children := ht.chain.2.2.2.1
  have hle : t.children.size ≤ h.bound + 1 := (size_children ht).le.trans (Nat.le_succ _)
  refine ⟨h.bound + 1, run_objectItemLoop hchain hnames name hle, ?_⟩
  simp only [getObjectItem, objectItem, bind_of (childOf_of ht.chain.1)]
  rfl

/-- Of the cells of a tree, those of one of its children. -/
theorem addrs_split {p : Nat} {k : Option (Nat × CString)} {d : Data} (pre f post : Forest) :
    (single p k d (pre ++ (f ++ post))).addrs.Perm ((single p k d (pre ++ post)).addrs ++ f.addrs) := by
  simp only [Forest.addrs, Forest.addrs_append, List.append_nil, List.cons_append, List.append_assoc]
  exact (((List.perm_append_comm.append_left _).append_left _).append_left _).cons _

theorem erase_found {pre post : Forest} {a b : Nat} {s name : CString} {d : Data} {cs : Forest}
    (hs : name.eqNoCase s = true) (hpre : ∀ e ∈ pre.fields, name.eqNoCase e.1 = false) :
    FieldList.erase name.eqNoCase (pre ++ (single a (some (b, s)) d cs ++ post)).fields = (pre ++ post).fields := by
  rw [Forest.fields_append, Forest.fields_append, FieldList.erase,
    List.eraseP_append_right _ fun e he => by simp [hpre e he], Forest.fields_append]
  congr 1
  exact List.eraseP_cons_of_pos hs

theorem run_deleteFromObject (ht : t.Is h) (hobj : t.data = .object) (name : CString) :
    ∃ cs h', deleteItemFromObject (some t.addr) name h = some ((), h') ∧ Tree.Is h' { t with children := cs } ∧
      cs.fields = FieldList.erase name.eqNoCase t.children.fields ∧
      Exchanges h h' t.forest.addrs (Tree.forest { t with children := cs }).addrs := by
  obtain ⟨turns, hfinds, hget⟩ := run_getObjectItem ht hobj name
  obtain ⟨p, k, d, f⟩ := t
  cases hfinds with
  | missing hno hrun =>
    refine ⟨f, h, ?_, ht, ?_, .refl _ _⟩
    · simp only [deleteItemFromObject, bind_of (hget.trans hrun)]
      rfl
    · exact (List.eraseP_of_forall_not fun e he => by simp [hno e he]).symm
  | found pre a b s dx xs post hf hs hpre hrun =>
    obtain rfl : f = pre ++ (single a (some (b, s)) dx xs ++ post) := hf
    obtain ⟨hchain, hnodup, hfits, ⟨hproper, -⟩⟩ := ht
    have hnodup : (single p k d (pre ++ (single a (some (b, s)) dx xs ++ post))).addrs.Nodup := hnodup
    obtain ⟨h₁, hrun₁, hp₁, hx₁, he₁⟩ := ((Parent.of_chain hchain).cut (hnodup.sublist children_sublist)).detach
    obtain ⟨hn', hnx, hapart⟩ := List.nodup_append.mp ((addrs_split pre _ post).nodup_iff.mp hnodup)
    obtain ⟨hc₁, he₁⟩ := Parent.exchange (D := []) (E := (single a (some (b, s)) dx xs).addrs) hchain hnodup
      (fun _ _ => List.not_mem_nil) hp₁ (he₁.listed (fun c => by simp) fun c => by
        simp only [Forest.addrs_append, List.mem_cons, List.mem_append]
        tauto)
    obtain ⟨h₂, hrun₂, he₂⟩ := run_delete hx₁ hnx
    refine ⟨pre ++ post, h₂, ?_, ⟨?_, hn', ?_, ?_, trivial⟩, (erase_found hs hpre).symm, ?_⟩
    · simp only [deleteItemFromObject, bind_of (hget.trans hrun), bind_of hrun₁, hrun₂]
    · exact hc₁.frame he₂.toLocal fun c hc hin => hapart c hc c hin rfl
    · obtain rfl : d = .object := hobj
      intro e he
      refine hfits e ?_
      simp only [Forest.entries_append, List.mem_append] at he ⊢
      tauto
    · simp only [Forest.proper_append] at hproper ⊢
      exact ⟨hproper.1, hproper.2.2⟩
    · have hgone := he₁.trans (he₂.beside (single p k d (pre ++ post)).addrs)
      exact hgone.listed (fun c => by simp [Tree.forest]) fun c => by simp [Tree.forest]

theorem replace_found {pre post : Forest} {a b r c : Nat} {s name : CString} {d dx : Data} {cs xs : Forest}
    (hs : name.eqNoCase s = true) (hpre : ∀ e ∈ pre.fields, name.eqNoCase e.1 = false) :
    FieldList.replace name.eqNoCase name (dx.value xs.entries) (pre ++ (single a (some (b, s)) d cs ++ post)).fields =
      (pre ++ (single r (some (c, name)) dx xs ++ post)).fields := by
  simp only [Forest.fields_append]
  generalize pre.fields = fs at hpre
  induction fs with
  | nil =>
    show FieldList.replace _ _ _ ((s, d.value cs.entries) :: post.fields) = _
    rw [FieldList.replace, if_pos hs]
    rfl
  | cons f fs ih =>
    obtain ⟨hf, hfs⟩ := List.forall_mem_cons.mp hpre
    simp only [List.cons_append, FieldList.replace, hf, Bool.false_eq_true, if_false, ih hfs]

/-- What is left of the trees: one with a new child, or both, and one has a new name. -/
inductive Replaces (h h' : Heap Cell) (t x : Tree) (name : CString) : Bool → Prop
  | found (cs : Forest) (hget : FieldList.get name.eqNoCase t.children.fields ≠ none)
      (htree : Tree.Is h' { t with children := cs })
      (hfields : cs.fields = FieldList.replace name.eqNoCase name x.value.2 t.children.fields)
      (hexch : Exchanges h h' (t.forest.addrs ++ x.forest.addrs) (Tree.forest { t with children := cs }).addrs) :
      Replaces h h' t x name true
  | missing (b : Nat) (hget : FieldList.get name.eqNoCase t.children.fields = none)
      (hitem : Tree.Is h' { x with key := some (b, name) })
      (hexch : Exchanges h h' x.forest.addrs (Tree.forest { x with key := some (b, name) }).addrs) :
      Replaces h h' t x name false

theorem run_replaceInObject (hA : A.Total) (ht : t.Is h) (hx : x.Is h)
    (hapart : ∀ b ∈ t.forest.addrs, b ∉ x.forest.addrs) (hobj : t.data = .object) (name : CString) :
    ∃ ok h', replaceItemInObject A (some t.addr) name (some x.addr) h = some (ok, h') ∧
      Replaces h h' t x name ok := by
  obtain ⟨h₁, hrun₁, he₁⟩ := run_freeIfThere hx.chain.2.1
  obtain ⟨b, h₂, hrun₂, hb, hname₂, he₂⟩ := run_strdup hA name h₁
  obtain ⟨h₃, hrun₃, hx₃, hnx₃, he₃⟩ := run_named hx.chain hx.nodup (he₁.trans he₂) hname₂
  have ht₃ : t.Is h₃ := Tree.view.frame ht he₃.toLocal hapart
  have hapart₃ : ∀ c ∈ t.forest.addrs, c ∉ (single x.addr (some (b, name)) x.data x.children).addrs := fun c hc =>
    he₃.toLocal.notMem (hapart c hc) (ht.chain.live c hc)
  obtain ⟨turns, hfinds, hget⟩ := run_getObjectItem ht₃ hobj name
  have hstart : replaceItemInObject A (some t.addr) name (some x.addr) h =
      (getObjectItem (some t.addr) name >>= fun item =>
        replaceItemViaPointer (some t.addr) item (some x.addr)) h₃ := by
    simp only [replaceItemInObject, bind_of (loadItem_of hx.chain.1), bind_of hrun₁, bind_of hrun₂, bind_of hrun₃]
  rw [hstart]
  obtain ⟨p, k, d, f⟩ := t
  cases hfinds with
  | missing hno hrun =>
    refine ⟨false, h₃, ?_, .missing b (FieldList.get_eq_none_iff.mpr hno) ⟨hx₃, hnx₃, hx.proper⟩ he₃⟩
    rw [bind_of (hget.trans hrun)]
    rfl
  | found pre a b' s dx xs post hf hs hpre hrun =>
    obtain rfl : f = pre ++ (single a (some (b', s)) dx xs ++ post) := hf
    obtain ⟨hchain, hnodup, hfits, ⟨hproper, -⟩⟩ := ht₃
    have hnodup : (single p k d (pre ++ (single a (some (b', s)) dx xs ++ post))).addrs.Nodup := hnodup
    have hcut := (Parent.of_chain hchain).cut (hnodup.sublist children_sublist)
    obtain ⟨h₄, hrun₄, hp₄, he₄⟩ := hcut.replace hx₃ hnx₃ fun c hc => hapart₃ c (children_sublist.subset hc)
    obtain ⟨hc₄, he₄⟩ := Parent.exchange (D := (single x.addr (some (b, name)) x.data x.children).addrs) (E := [])
      hchain hnodup hapart₃ hp₄ (he₄.listed (fun _ => Iff.rfl) fun c => by simp)
    refine ⟨true, h₄, ?_, .found (pre ++ (single x.addr (some (b, name)) x.data x.children ++ post)) ?_
      ⟨hc₄, ?_, ?_, ?_, trivial⟩ (replace_found hs hpre).symm ?_⟩
    · rw [bind_of (hget.trans hrun)]
      exact hrun₄
    · rw [Ne, FieldList.get_eq_none_iff]
      intro hno
      have hself := hno (s, dx.value xs.entries) (by simp [Forest.fields, Forest.entries])
      exact absurd hs (by simp [hself])
    · have hold := (addrs_split pre (single a (some (b', s)) dx xs) post).nodup_iff.mp hnodup
      refine (addrs_split pre _ post).nodup_iff.mpr (List.nodup_append.mpr ⟨(List.nodup_append.mp hold).1, hnx₃, ?_⟩)
      intro c hc c' hc' he
      exact hapart₃ c ((addrs_split pre _ post).mem_iff.mpr (List.mem_append_left _ hc)) (he ▸ hc')
    · obtain rfl : d = .object := hobj
      have hkept : ∀ e, e ∈ pre.entries ∨ e ∈ post.entries → e.1 ≠ none := fun e he => hfits e (by
        simp only [Forest.entries_append, List.mem_append]
        tauto)
      intro e he
      simp only [Forest.entries_append, List.mem_append] at he
      rcases he with he | he | he
      · exact hkept e (.inl he)
      · rw [List.mem_singleton.mp he]
        exact Option.some_ne_none name
      · exact hkept e (.inr he)
    · simp only [Forest.proper_append] at hproper ⊢
      exact ⟨hproper.1, hx.proper, hproper.2.2⟩
    · exact (he₃.beside _).trans (he₄.listed (fun _ => Iff.rfl) fun c => by simp [Tree.forest])

end Objects

end Cjson

end FinalServer
