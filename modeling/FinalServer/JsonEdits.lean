/-
Appending, deleting and looking up, on chains of items.

A child is appended after the last one, which is found through the first; a
chain is deleted with all it has; and a name is looked for up to the first
child that has it.
-/
import FinalServer.JsonForest

namespace FinalServer

namespace Cjson

open Heap (Mem Local Exchanges)
open Heap.Mem
open Forest (single)

variable {h h' : Heap Cell}

/-- An item whose children are these. -/
structure Parent (h : Heap Cell) (p : Nat) (i : Item) (cs : Forest) : Prop where
  cell : h.cells p = some (.item { i with child := cs.head })
  chain : Chain h cs.last none cs

theorem exists_last {f : Forest} {b : Nat} (hb : f.head = some b) : ∃ z, f.last = some z :=
  Option.isSome_iff_exists.mp (by rw [Forest.last_isSome, hb]; rfl)

/-- The first item of a chain, whichever it is, is linked back to another. -/
theorem run_setPrev_head {before stop : Option Nat} {f : Forest} {b : Nat} (hc : Chain h before stop f)
    (hnodup : f.addrs.Nodup) (hb : f.head = some b) (q : Option Nat) :
    ∃ h', setPrev b q h = some ((), h') ∧ Chain h' q stop f ∧ Exchanges h h' [b] [b] := by
  cases f with
  | nil => cases hb
  | cons a k d cs r =>
    obtain rfl : a = b := Option.some.inj hb
    exact run_setPrev hc hnodup q

theorem prevOf_head {before stop : Option Nat} {f : Forest} {b : Nat} (hc : Chain h before stop f)
    (hb : f.head = some b) : prevOf b h = some (before, h) := by
  cases f with
  | nil => cases hb
  | cons a k d cs r =>
    obtain rfl : a = b := Option.some.inj hb
    exact prevOf_of hc.1

section Append

variable {p a : Nat} {i : Item} {cs xs : Forest} {k : Option (Nat × CString)} {d : Data}

theorem run_addItemToArray (hp : Parent h p i cs) (hx : Chain h none none (single a k d xs))
    (hnodup : (p :: (cs.addrs ++ (single a k d xs).addrs)).Nodup) :
    ∃ h', addItemToArray (some p) (some a) h = some (true, h') ∧ Parent h' p i (cs ++ single a k d xs) ∧
      Exchanges h h' (p :: (cs.addrs ++ (single a k d xs).addrs)) (p :: (cs.addrs ++ (single a k d xs).addrs)) := by
  obtain ⟨hcell, hchain⟩ := hp
  have hax : a ∈ (single a k d xs).addrs := List.mem_cons_self
  obtain ⟨hpn, hnodup⟩ := List.nodup_cons.mp hnodup
  obtain ⟨hncs, hnx, hdisj⟩ := List.nodup_append.mp hnodup
  have hpa : p ≠ a := by
    rintro rfl
    exact hpn (List.mem_append_right _ hax)
  have hpx : p ∉ (single a k d xs).addrs := fun hin => hpn (List.mem_append_right _ hin)
  have hacs : a ∉ cs.addrs := fun hin => hdisj a hin a hax rfl
  have hsub : ∀ b, b ∈ cs.addrs ∨ b ∈ (single a k d xs).addrs → [b] ⊆ p :: (cs.addrs ++ (single a k d xs).addrs) :=
    fun b hb => List.cons_subset.mpr ⟨List.mem_cons_of_mem _ (List.mem_append.mpr hb), List.nil_subset _⟩
  have hsubp : [p] ⊆ p :: (cs.addrs ++ (single a k d xs).addrs) :=
    List.cons_subset.mpr ⟨List.mem_cons_self, List.nil_subset _⟩
  cases hhead : cs.head with
  | none =>
    -- The first child is its own last one.
    obtain rfl := cs.eq_nil_of_head hhead
    obtain ⟨h₁, hrun₁, hcell₁, he₁⟩ := run_setItem hcell fun i => { i with child := some a }
    have hx₁ := hx.frame he₁.toLocal (notMem_singleton hpx)
    obtain ⟨h₂, hrun₂, hx₂, he₂⟩ := run_setPrev hx₁ hnx (some a)
    obtain ⟨h₃, hrun₃, hx₃, he₃⟩ := run_setNext hx₂ hnx rfl none
    refine ⟨h₃, ?_, ⟨?_, hx₃⟩, ?_⟩
    · simp only [addItemToArray, if_neg hpa, bind_of (childOf_of hcell), Forest.head]
      rw [setChild, bind_of hrun₁, bind_of hrun₂, bind_of hrun₃]
      rfl
    · exact he₃.kept (by simpa using hpa) (he₂.kept (by simpa using hpa) hcell₁)
    · exact ((he₁.within hsubp).trans (he₂.within (hsub a (.inr hax)))).trans (he₃.within (hsub a (.inr hax)))
  | some b =>
    obtain ⟨z, hz⟩ := exists_last hhead
    have hbcs := cs.head_mem hhead
    have hzcs := cs.last_mem hz
    have hpz : p ∉ [z] := fun hin => hpn (List.mem_append_left _ (List.mem_singleton.mp hin ▸ hzcs))
    have hpb : p ∉ [b] := fun hin => hpn (List.mem_append_left _ (List.mem_singleton.mp hin ▸ hbcs))
    have hzx : z ∉ (single a k d xs).addrs := fun hin => hdisj z hzcs z hin rfl
    have hbx : b ∉ (single a k d xs).addrs := fun hin => hdisj b hbcs b hin rfl
    obtain ⟨h₁, hrun₁, hcs₁, he₁⟩ := run_setNext hchain hncs hz (some a)
    obtain ⟨h₂, hrun₂, hx₂, he₂⟩ := run_setPrev (hx.frame he₁.toLocal (notMem_singleton hzx)) hnx (some z)
    have hcs₂ := hcs₁.frame he₂.toLocal (notMem_singleton hacs)
    obtain ⟨h₃, hrun₃, hcs₃, he₃⟩ := run_setPrev_head hcs₂ hncs hhead (some a)
    have hcell₂ := he₂.kept (by simpa using hpa) (he₁.kept hpz hcell)
    refine ⟨h₃, ?_, ⟨?_, ?_⟩, ?_⟩
    · have hprev := prevOf_head hchain hhead
      rw [hz] at hprev
      simp only [addItemToArray, if_neg hpa, bind_of (childOf_of hcell), hhead, bind_of hprev, bind_of hrun₁,
        bind_of hrun₂, bind_of (childOf_of hcell₂), bind_of (deref_of rfl), bind_of hrun₃]
      rfl
    · have hsame : (cs ++ single a k d xs).head = cs.head := by rw [Forest.head_append, hhead]; rfl
      rw [hsame]
      exact he₃.kept hpb hcell₂
    · have hlast : (cs ++ single a k d xs).last = some a := by rw [Forest.last_append]; rfl
      rw [hlast, chain_append, hz]
      exact ⟨hcs₃, hx₂.frame he₃.toLocal (notMem_singleton hbx)⟩
    · exact ((he₁.within (hsub z (.inl hzcs))).trans (he₂.within (hsub a (.inr hax)))).trans
        (he₃.within (hsub b (.inl hbcs)))

end Append

/-! ## Deleting -/

theorem run_freeIfThere {t : Option (Nat × CString)} (ht : TextAt h t) :
    ∃ h', freeIfThere (t.map (·.1)) h = some ((), h') ∧ Exchanges h h' (Forest.textAddr t) [] := by
  cases t with
  | none => exact ⟨h, rfl, .refl h []⟩
  | some t => exact ⟨_, free_of ht, .clear t.1⟩

theorem run_deleteLoop {before stop : Option Nat} {f : Forest} (hc : Chain h before stop f) (hstop : stop = none)
    (hnodup : f.addrs.Nodup) {turns : Nat} (hturns : f.size ≤ turns) :
    ∃ h', deleteLoop turns f.head h = some ((), h') ∧ Exchanges h h' f.addrs [] := by
  induction f generalizing h before stop turns with
  | nil =>
    refine ⟨h, ?_, .refl h []⟩
    cases turns <;> rfl
  | cons a k d cs r ihc ihr =>
    obtain ⟨hitem, hkey, htext, hchild, hrest⟩ := hc
    obtain ⟨turns, rfl⟩ : ∃ n, turns = n + 1 := ⟨turns - 1, by simp only [Forest.size] at hturns; omega⟩
    simp only [Forest.size] at hturns
    obtain ⟨ha, hn⟩ := List.nodup_cons.mp hnodup
    obtain ⟨hn, hnr, hapart⟩ := List.nodup_append.mp hn
    obtain ⟨hn, hncs, hapartcs⟩ := List.nodup_append.mp hn
    obtain ⟨-, -, haparttext⟩ := List.nodup_append.mp hn
    simp only [List.mem_append, not_or] at ha
    obtain ⟨⟨⟨hak, had⟩, hacs⟩, har⟩ := ha
    subst hstop
    -- The children go, then the strings and the item, and then what is linked to it.
    obtain ⟨h₁, hrun₁, he₁⟩ : ∃ h₁, deleteLoop turns cs.head h = some ((), h₁) ∧ Exchanges h h₁ cs.addrs [] :=
      ihc hchild rfl hncs (by omega)
    obtain ⟨h₂, hrun₂, he₂⟩ := run_freeIfThere
      (htext.frame he₁.toLocal fun b hb hin => hapartcs b (List.mem_append_right _ hb) b hin rfl)
    have he₂ := he₁.after he₂
    obtain ⟨h₃, hrun₃, he₃⟩ := run_freeIfThere (hkey.frame he₂.toLocal fun b hb hin =>
      (List.mem_append.mp hin).elim (fun hin => hapartcs b (List.mem_append_left _ hb) b hin rfl)
        fun hin => haparttext b hb b hin rfl)
    have he₃ := he₂.after he₃
    have hitem₃ := he₃.kept (by simp [hak, had, hacs]) hitem
    have he₄ := he₃.after (.clear a)
    have hrest₄ := hrest.frame he₄.toLocal fun b hb hin => by
      simp only [List.mem_append, List.mem_singleton] at hin
      rcases hin with ((hin | hin) | hin) | rfl
      · exact hapart b (by simp [hin]) b hb rfl
      · exact hapart b (by simp [hin]) b hb rfl
      · exact hapart b (by simp [hin]) b hb rfl
      · exact har hb
    obtain ⟨h₅, hrun₅, he₅⟩ : ∃ h₅, deleteLoop turns r.head (h₃.clear a) = some ((), h₅) ∧
        Exchanges (h₃.clear a) h₅ r.addrs [] := ihr hrest₄ rfl hnr (by omega)
    refine ⟨h₅, ?_, (he₄.after he₅).listed (fun b => ?_) fun b => Iff.rfl⟩
    · show deleteLoop (turns + 1) (some a) h = _
      simp only [deleteLoop, bind_of (loadItem_of hitem), bind_of hrun₁, bind_of hrun₂, bind_of hrun₃,
        bind_of (free_of hitem₃), Option.or_none, hrun₅]
    · simp only [Forest.addrs, List.mem_cons, List.mem_append, List.not_mem_nil, or_false]
      tauto

theorem run_delete {a : Nat} {k : Option (Nat × CString)} {d : Data} {cs : Forest}
    (hc : Chain h none none (single a k d cs)) (hnodup : (single a k d cs).addrs.Nodup) :
    ∃ h', delete (some a) h = some ((), h') ∧ Exchanges h h' (single a k d cs).addrs [] := by
  have hsize : (single a k d cs).size ≤ h.bound + 1 :=
    (((single a k d cs).size_le_length).trans (Heap.length_le_bound hnodup hc.live)).trans (Nat.le_succ _)
  exact run_deleteLoop hc rfl hnodup hsize

/-! ## Looking up -/

/-- The names and values, as an object has them. -/
def Forest.fields (f : Forest) : List (CString × Json) := f.entries.map fun e => (e.1.getD "", e.2)

@[simp] theorem Forest.fields_append (f g : Forest) : (f ++ g).fields = f.fields ++ g.fields := by simp [fields]

/-- The loop ends at the first child of that name, up to case. -/
inductive Finds (h : Heap Cell) (name : CString) (turns : Nat) (f : Forest) : Prop
  | found (pre : Forest) (a block : Nat) (s : CString) (d : Data) (cs post : Forest)
      (hf : f = pre ++ (single a (some (block, s)) d cs ++ post)) (hs : name.eqNoCase s = true)
      (hpre : ∀ e ∈ pre.fields, name.eqNoCase e.1 = false)
      (hrun : objectItemLoop false name turns f.head h = some (some a, h))
  | missing (hno : ∀ e ∈ f.fields, name.eqNoCase e.1 = false)
      (hrun : objectItemLoop false name turns f.head h = some (none, h))

theorem run_objectItemLoop {before : Option Nat} {f : Forest} (hc : Chain h before none f)
    (hnames : ∀ e ∈ f.entries, e.1 ≠ none) (name : CString) {turns : Nat} (hturns : f.size ≤ turns) :
    Finds h name turns f := by
  induction f generalizing before turns with
  | nil =>
    refine .missing (List.forall_mem_nil _) ?_
    cases turns <;> rfl
  | cons a k d cs r _ ih =>
    obtain ⟨hitem, hkey, htext, hchild, hrest⟩ := hc
    obtain ⟨turns, rfl⟩ : ∃ n, turns = n + 1 := ⟨turns - 1, by simp only [Forest.size] at hturns; omega⟩
    simp only [Forest.size] at hturns
    simp only [Forest.entries, List.forall_mem_cons] at hnames
    obtain ⟨hk, hnames⟩ := hnames
    obtain ⟨⟨block, s⟩, rfl⟩ : ∃ t, k = some t := Option.ne_none_iff_exists'.mp fun hno => hk (by rw [hno]; rfl)
    have hload := bind_of (loadText_of (s := s) hkey) (β := Option Nat)
    cases hs : name.eqNoCase s with
    | true =>
      refine .found .nil a block s d cs r rfl hs (List.forall_mem_nil _) ?_
      simp only [Forest.head, objectItemLoop, bind_of (loadItem_of hitem), Option.map_some, hload, sameName,
        Bool.false_eq_true, if_false, hs, if_true]
      rfl
    | false =>
      have hstep : objectItemLoop false name (turns + 1) (Forest.cons a (some (block, s)) d cs r).head h =
          objectItemLoop false name turns r.head h := by
        simp only [Forest.head, objectItemLoop, bind_of (loadItem_of hitem), Option.map_some, hload, sameName,
          Bool.false_eq_true, if_false, hs, Option.or_none]
      have hfirst : ∀ l : List (CString × Json), (∀ e ∈ l, name.eqNoCase e.1 = false) → ∀ j,
          ∀ e ∈ (s, j) :: l, name.eqNoCase e.1 = false := fun l hl j => List.forall_mem_cons.mpr ⟨hs, hl⟩
      have hfinds : Finds h name turns r := ih hrest hnames (by omega)
      cases hfinds with
      | found pre a' block' s' d' cs' post hf hs' hpre hrun =>
        exact .found (.cons a (some (block, s)) d cs pre) a' block' s' d' cs' post (by rw [hf]; rfl) hs'
          (hfirst _ hpre _) (hstep.trans hrun)
      | missing hno hrun => exact .missing (hfirst _ hno _) (hstep.trans hrun)

end Cjson

end FinalServer
