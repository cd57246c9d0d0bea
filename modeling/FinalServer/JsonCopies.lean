/-
Copies of trees on a heap.

`cJSON_Duplicate` copies an item, its strings and, one after the other, its
children, each with all it has. The copies of the children so far are a chain
from the first to the latest, of which the first is linked back to the last
only when all are there.
-/
import FinalServer.JsonObjects
import FinalServer.JsonTree

namespace FinalServer

namespace Cjson

open Heap (Mem Local Exchanges Allocator)
open Heap.Mem
open Forest (single textAddr)

variable {h h' : Heap Cell} {A : Allocator Cell}

/-- How many levels of items there are. -/
def Forest.levels : Forest → Nat
  | .nil => 0
  | .cons _ _ _ cs r => max (cs.levels + 1) r.levels

/-- The levels of the children are within the nesting of the value. -/
theorem levels_le {f : Forest} (hf : f.Proper) {n : Nat} (hn : ∀ e ∈ f.entries, e.2.depth ≤ n) : f.levels ≤ n + 1 := by
  induction f generalizing n with
  | nil => exact Nat.zero_le _
  | cons a k d cs r ihc ihr =>
    obtain ⟨hfits, hc, hr⟩ := hf
    obtain ⟨hd, hrest⟩ := List.forall_mem_cons.mp hn
    have hscalar : cs.entries = [] → cs.levels ≤ n := fun hnone => by
      cases cs with
      | nil => exact Nat.zero_le _
      | cons => cases hnone
    have hcs : cs.levels ≤ n := by
      cases d with
      | array =>
        simp only [Data.value, Json.depth] at hd
        obtain ⟨m, rfl⟩ : ∃ m, n = m + 1 := ⟨n - 1, by omega⟩
        have hall := Json.depthItems_le.mp (Nat.le_of_add_le_add_right hd)
        exact ihc hc fun e he => hall e.2 (List.mem_map_of_mem he)
      | object =>
        simp only [Data.value, Json.depth] at hd
        obtain ⟨m, rfl⟩ : ∃ m, n = m + 1 := ⟨n - 1, by omega⟩
        have hall := Json.depthFields_le.mp (Nat.le_of_add_le_add_right hd)
        exact ihc hc fun e he => hall (e.1.getD "", e.2) (List.mem_map.mpr ⟨e, he, rfl⟩)
      | null => exact hscalar hfits
      | bool => exact hscalar hfits
      | number => exact hscalar hfits
      | string => exact hscalar hfits
    have hlevels := ihr hr hrest
    simp only [Forest.levels]
    omega

theorem Tree.levels_le {t : Tree} (ht : t.Is h) : t.children.levels ≤ t.value.2.depth := by
  have hall := Cjson.levels_le (f := t.forest) ht.proper (n := t.value.2.depth) fun e he => by
    rw [List.mem_singleton.mp he]
    exact le_rfl
  have hforest : t.children.levels + 1 ≤ t.forest.levels := Nat.le_max_left _ _
  omega

theorem run_copyText (hA : A.Total) {t : Option (Nat × CString)} (ht : TextAt h t) :
    ∃ t' h', copyText A (t.map (·.1)) h = some (some (t'.map (·.1)), h') ∧ TextAt h' t' ∧
      t'.map (·.2) = t.map (·.2) ∧ Exchanges h h' [] (textAddr t') := by
  cases t with
  | none => exact ⟨none, h, rfl, trivial, rfl, .refl h []⟩
  | some t =>
    obtain ⟨b, h', hrun, -, hcell, he⟩ := run_strdup hA t.2 h
    refine ⟨some (b, t.2), h', ?_, hcell, rfl, he⟩
    have hload : loadText t.1 h = some (t.2, h) := loadText_of ht
    simp only [Option.map_some, copyText, bind_of hload, bind_of hrun]
    rfl

/-- The same, with the string in another block. -/
theorem exists_data (d : Data) {t : Option (Nat × CString)} (ht : t.map (·.2) = d.text.map (·.2)) :
    ∃ d' : Data, d'.kind = d.kind ∧ d'.text = t ∧ (∀ es, d'.value es = d.value es) ∧ ∀ es, d'.Fits es ↔ d.Fits es := by
  cases d with
  | string block s =>
    obtain ⟨⟨b, s'⟩, rfl, hs⟩ := Option.map_eq_some_iff.mp ht
    obtain rfl : s' = s := hs
    exact ⟨.string b s', rfl, rfl, fun _ => rfl, fun _ => Iff.rfl⟩
  | null =>
    obtain rfl := Option.map_eq_none_iff.mp ht
    exact ⟨.null, rfl, rfl, fun _ => rfl, fun _ => Iff.rfl⟩
  | bool b =>
    obtain rfl := Option.map_eq_none_iff.mp ht
    exact ⟨.bool b, rfl, rfl, fun _ => rfl, fun _ => Iff.rfl⟩
  | number q =>
    obtain rfl := Option.map_eq_none_iff.mp ht
    exact ⟨.number q, rfl, rfl, fun _ => rfl, fun _ => Iff.rfl⟩
  | array =>
    obtain rfl := Option.map_eq_none_iff.mp ht
    exact ⟨.array, rfl, rfl, fun _ => rfl, fun _ => Iff.rfl⟩
  | object =>
    obtain rfl := Option.map_eq_none_iff.mp ht
    exact ⟨.object, rfl, rfl, fun _ => rfl, fun _ => Iff.rfl⟩

/-- A new item with the copies of children so far. -/
structure Growing (h : Heap Cell) (n : Nat) (i : Item) (gs : Forest) : Prop where
  cell : h.cells n = some (.item { i with child := gs.head })
  chain : Chain h none none gs
  nodup : (n :: gs.addrs).Nodup
  proper : gs.Proper

theorem Growing.live {n : Nat} {i : Item} {gs : Forest} (hg : Growing h n i gs) :
    ∀ b ∈ n :: gs.addrs, h.cells b ≠ none :=
  List.forall_mem_cons.mpr ⟨by simp [hg.cell], hg.chain.live⟩

/-- With all copies there, the first is linked back to the last. -/
theorem Growing.close {n : Nat} {i : Item} {gs : Forest} (hg : Growing h n i gs) :
    ∃ h', (∀ {α : Type} (f : Unit → Mem Cell α), (childOf n >>= fun c => match c with
        | some first => setPrev first gs.last >>= f
        | none => pure () >>= f) h = f () h') ∧
      h'.cells n = some (.item { i with child := gs.head }) ∧ Chain h' gs.last none gs ∧
      Exchanges h h' (n :: gs.addrs) (n :: gs.addrs) := by
  have hchild : childOf n h = some (gs.head, h) := childOf_of hg.cell
  obtain ⟨hn, hnodup⟩ := List.nodup_cons.mp hg.nodup
  cases hb : gs.head with
  | none =>
    obtain rfl := gs.eq_nil_of_head hb
    exact ⟨h, fun f => by rw [bind_of hchild]; rfl, hg.cell, trivial, .refl _ _⟩
  | some b =>
    have hbgs := gs.head_mem hb
    have hnb : n ∉ [b] := fun hin => hn (List.mem_singleton.mp hin ▸ hbgs)
    obtain ⟨h', hrun, hchain, he⟩ := run_setPrev_head hg.chain hnodup hb gs.last
    refine ⟨h', fun f => ?_, hb ▸ he.kept hnb hg.cell, hchain, he.within ?_⟩
    · rw [bind_of hchild, hb]
      exact bind_of hrun f
    · exact List.cons_subset.mpr ⟨List.mem_cons_of_mem _ hbgs, List.nil_subset _⟩

theorem Growing.frame {n : Nat} {i : Item} {gs : Forest} {F E : List Nat} (hg : Growing h n i gs) (hl : Local h h' F E)
    (hout : ∀ b ∈ n :: gs.addrs, b ∉ F) : Growing h' n i gs where
  cell := (hl.frame n (hout n List.mem_cons_self) (by simp [hg.cell])).trans hg.cell
  chain := hg.chain.frame hl fun b hb => hout b (List.mem_cons_of_mem _ hb)
  nodup := hg.nodup
  proper := hg.proper

/-- What a function that copies the children does. -/
def Copies (copyChildren : Nat → Option Nat → Mem Cell (Option (Option Nat))) (cs : Forest) : Prop :=
  ∀ {h : Heap Cell} {n : Nat} {i : Item}, Chain h cs.last none cs → Growing h n i .nil → n ∉ cs.addrs →
    ∃ gs h', copyChildren n cs.head h = some (some gs.last, h') ∧ Growing h' n i gs ∧ gs.entries = cs.entries ∧
      Exchanges h h' [n] (n :: gs.addrs)

theorem run_duplicateItem (hA : A.Total) {copyChildren : Nat → Option Nat → Mem Cell (Option (Option Nat))} {a : Nat}
    {k : Option (Nat × CString)} {d : Data} {cs : Forest} {next prev : Option Nat}
    (hitem : h.cells a = some (.item ⟨next, prev, cs.head, d.kind, d.text.map (·.1), k.map (·.1)⟩))
    (hkey : TextAt h k) (htext : TextAt h d.text) (hchild : Chain h cs.last none cs) (hfits : d.Fits cs.entries)
    (hcopies : Copies copyChildren cs) :
    ∃ (t : Tree) (h' : Heap Cell), duplicateItem A copyChildren a h = some (some t.addr, h') ∧ t.Is h' ∧
      t.value = (k.map (·.2), d.value cs.entries) ∧ Exchanges h h' [] t.forest.addrs := by
  obtain ⟨n, h₁, hrun₁, hn, hcell₁, he₁⟩ := run_newItem hA h
  obtain ⟨h₂, hrun₂, hcell₂, he₂⟩ := run_setItem hcell₁ fun i => { i with kind := d.kind }
  have he₂ := he₁.trans he₂
  obtain ⟨t, h₃, hrun₃, ht₃, htexts, he₃⟩ := run_copyText hA (htext.frame he₂.toLocal fun _ _ => List.not_mem_nil)
  have hcell₃ := he₃.kept List.not_mem_nil hcell₂
  obtain ⟨h₄, hrun₄, hcell₄, he₄⟩ := run_setItem hcell₃ fun i => { i with valuestring := t.map (·.1) }
  have htn : ∀ b ∈ textAddr t, b ∉ [n] := fun b hb hin => by
    have hfresh := (he₃.grows b hb).resolve_left List.not_mem_nil
    simp [List.mem_singleton.mp hin, hcell₂] at hfresh
  have ht₄ := ht₃.frame he₄.toLocal htn
  have hkey₄ := (((hkey.frame he₂.toLocal fun _ _ => List.not_mem_nil).frame he₃.toLocal fun _ _ =>
    List.not_mem_nil).frame he₄.toLocal (notMem_singleton (fun hin => hkey.live n hin hn)))
  obtain ⟨t', h₅, hrun₅, ht₅, hkeys, he₅⟩ := run_copyText hA hkey₄
  have hcell₅ := he₅.kept List.not_mem_nil hcell₄
  obtain ⟨h₆, hrun₆, hcell₆, he₆⟩ := run_setItem hcell₅ fun i => { i with string := t'.map (·.1) }
  have htn' : ∀ b ∈ textAddr t', b ∉ [n] := fun b hb hin => by
    have hfresh := (he₅.grows b hb).resolve_left List.not_mem_nil
    simp [List.mem_singleton.mp hin, hcell₄] at hfresh
  have htt : ∀ b ∈ textAddr t', b ∉ textAddr t := fun b hb hin =>
    ht₄.live b hin ((he₅.grows b hb).resolve_left List.not_mem_nil)
  have ht₆ := (ht₄.frame he₅.toLocal fun _ _ => List.not_mem_nil).frame he₆.toLocal htn
  have ht₆' := ht₅.frame he₆.toLocal htn'
  have hchild₆ := (((hchild.frame he₂.toLocal fun _ _ => List.not_mem_nil).frame he₃.toLocal fun _ _ =>
    List.not_mem_nil).frame he₄.toLocal (notMem_singleton (fun hin => hchild.live n hin hn)))
  have hchild₆ := (hchild₆.frame he₅.toLocal fun _ _ => List.not_mem_nil).frame he₆.toLocal
    (notMem_singleton (fun hin => hchild.live n hin hn))
  -- The children are copied, and linked into a circle backwards.
  have hg₆ : Growing h₆ n ⟨none, none, none, d.kind, t.map (·.1), t'.map (·.1)⟩ .nil :=
    ⟨hcell₆, trivial, List.nodup_cons.mpr ⟨List.not_mem_nil, List.nodup_nil⟩, trivial⟩
  obtain ⟨gs, h₇, hrun₇, hg₇, hentries, he₇⟩ := hcopies hchild₆ hg₆ fun hin => hchild.live n hin hn
  obtain ⟨h₈, hrun₈, hcell₈, hchain₈, he₈⟩ := hg₇.close
  obtain ⟨d', hkind, htext', hvalue, hfits'⟩ := exists_data d htexts
  have he₈ := he₇.trans he₈
  have hout : ∀ b ∈ textAddr t' ++ textAddr t, b ∉ [n] := fun b hb =>
    (List.mem_append.mp hb).elim (htn' b) (htn b)
  have hgs : ∀ b ∈ textAddr t' ++ textAddr t, b ∉ n :: gs.addrs := fun b hb =>
    he₇.toLocal.notMem (hout b hb) ((List.mem_append.mp hb).elim (ht₆'.live b) (ht₆.live b))
  have haddrs : (Tree.forest ⟨n, t', d', gs⟩).addrs = n :: (textAddr t' ++ textAddr t ++ gs.addrs) := by
    simp [Tree.forest, Forest.addrs, htext']
  have hnodup : (n :: (textAddr t' ++ textAddr t ++ gs.addrs)).Nodup := by
    obtain ⟨hngs, hngs'⟩ := List.nodup_cons.mp hg₇.nodup
    have hone : ∀ o : Option (Nat × CString), (textAddr o).Nodup := fun o => by
      cases o <;> simp [textAddr]
    refine List.nodup_cons.mpr ⟨?_, List.nodup_append.mpr ⟨List.nodup_append.mpr ⟨hone t', hone t, ?_⟩, hngs', ?_⟩⟩
    · rw [List.mem_append, not_or]
      exact ⟨fun hin => hout n hin (List.mem_singleton_self n), hngs⟩
    · exact fun b hb c hc he => htt b hb (he ▸ hc)
    · exact fun b hb c hc he => hgs b hb (List.mem_cons_of_mem _ (he ▸ hc))
  refine ⟨⟨n, t', d', gs⟩, h₈, ?_, ⟨⟨?_, ?_, ?_, hchain₈, trivial⟩, ?_, ?_, hg₇.proper, trivial⟩, ?_, ?_⟩
  · simp only [duplicateItem, bind_of hrun₁, bind_of (loadItem_of (he₁.kept List.not_mem_nil hitem))]
    rw [setKind, bind_of hrun₂, bind_of hrun₃]
    change (setValuestring n (t.map (·.1)) >>= _) h₃ = _
    rw [setValuestring, bind_of hrun₄, bind_of hrun₅]
    change (setString n (t'.map (·.1)) >>= _) h₅ = _
    rw [setString, bind_of hrun₆, bind_of hrun₇]
    exact hrun₈ fun _ => pure (some n)
  · rw [hkind, htext']
    exact hcell₈
  · exact ht₆'.frame he₈.toLocal htn'
  · rw [htext']
    exact ht₆.frame he₈.toLocal htn
  · rw [haddrs]
    exact hnodup
  · rw [hfits', hentries]
    exact hfits
  · show (t'.map (·.2), d'.value gs.entries) = _
    rw [hkeys, hvalue, hentries]
  · rw [haddrs]
    have hmade := (he₂.trans (he₃.beside [n])).trans (he₄.within (G := [n] ++ textAddr t) (by simp))
    have hnamed := (hmade.trans ((he₅.beside ([n] ++ textAddr t)).listed (D := [n] ++ textAddr t)
      (fun b => by simp) fun _ => Iff.rfl)).trans (he₆.within (by simp))
    have hall := hnamed.trans ((he₈.beside (textAddr t ++ textAddr t')).listed
      (D := [n] ++ textAddr t ++ textAddr t') (fun b => by simp only [List.mem_append]; tauto) fun _ => Iff.rfl)
    refine hall.listed (fun _ => Iff.rfl) fun b => ?_
    simp only [List.mem_cons, List.mem_append]
    tauto

/-- One more copy: the latest is linked to it, or it is the first child. -/
theorem Growing.extend {n : Nat} {i : Item} {gs : Forest} {t : Tree} (hg : Growing h n i gs) (ht : t.Is h)
    (hapart : ∀ b ∈ n :: gs.addrs, b ∉ t.forest.addrs) :
    ∃ h', (∀ {α : Type} (f : Unit → Mem Cell α), (match gs.last with
        | some next => setNext next (some t.addr) >>= fun _ => setPrev t.addr (some next) >>= f
        | none => setChild n (some t.addr) >>= f) h = f () h') ∧
      Growing h' n i (gs ++ t.forest) ∧
      Exchanges h h' (n :: (gs ++ t.forest).addrs) (n :: (gs ++ t.forest).addrs) := by
  obtain ⟨hnt, hgst⟩ := List.forall_mem_cons.mp hapart
  obtain ⟨hngs, hnodup⟩ := List.nodup_cons.mp hg.nodup
  have hall : (n :: (gs ++ t.forest).addrs).Nodup := by
    rw [Forest.addrs_append]
    refine List.nodup_cons.mpr ⟨?_, List.nodup_append.mpr ⟨hnodup, ht.nodup, fun b hb c hc he => hgst b hb (he ▸ hc)⟩⟩
    rw [List.mem_append, not_or]
    exact ⟨hngs, hnt⟩
  have hproper : (gs ++ t.forest).Proper := (Forest.proper_append _ _).mpr ⟨hg.proper, ht.proper⟩
  have hsub : ∀ b, b = n ∨ b ∈ gs.addrs ∨ b ∈ t.forest.addrs → [b] ⊆ n :: (gs ++ t.forest).addrs := fun b hb =>
    List.cons_subset.mpr ⟨by simpa only [Forest.addrs_append, List.mem_cons, List.mem_append] using hb,
      List.nil_subset _⟩
  cases hz : gs.last with
  | none =>
    have hnone : gs.head = none := by
      rw [← Option.isNone_iff_eq_none, ← Option.not_isSome, ← gs.last_isSome, hz]
      rfl
    obtain rfl := gs.eq_nil_of_head hnone
    obtain ⟨h', hrun, hcell, he⟩ := run_setItem hg.cell fun i => { i with child := some t.addr }
    exact ⟨h', fun f => bind_of hrun f, ⟨hcell, ht.chain.frame he.toLocal (notMem_singleton hnt), hall, hproper⟩,
      he.within (hsub n (.inl rfl))⟩
  | some z =>
    have hzgs := gs.last_mem hz
    have hnz : n ∉ [z] := fun hin => hngs (List.mem_singleton.mp hin ▸ hzgs)
    have hnaddr : n ∉ [t.addr] := fun hin => hnt (List.mem_singleton.mp hin ▸ t.addr_mem)
    obtain ⟨h₁, hrun₁, hgs₁, he₁⟩ := run_setNext hg.chain hnodup hz (some t.addr)
    obtain ⟨h₂, hrun₂, ht₂, he₂⟩ := run_setPrev (ht.chain.frame he₁.toLocal (notMem_singleton (hgst z hzgs))) ht.nodup
      (some z)
    have hgs₂ := hgs₁.frame he₂.toLocal (notMem_singleton fun hin => hgst t.addr hin t.addr_mem)
    refine ⟨h₂, fun f => (bind_of hrun₁ _).trans (bind_of hrun₂ f), ⟨?_, ?_, hall, hproper⟩,
      (he₁.within (hsub z (.inr (.inl hzgs)))).trans (he₂.within (hsub t.addr (.inr (.inr t.addr_mem))))⟩
    · have hsome : ∃ b, gs.head = some b := Option.isSome_iff_exists.mp (by rw [← gs.last_isSome, hz]; rfl)
      obtain ⟨b, hb⟩ := hsome
      rw [head_before hb, ← hb]
      exact he₂.kept hnaddr (he₁.kept hnz hg.cell)
    · rw [chain_append, hz]
      exact ⟨hgs₂, ht₂⟩

/-- What the loop does with the items that are left: they are copied, and the copies follow those so far. -/
def Loops (A : Allocator Cell) (f : Forest) : Prop :=
  ∀ {h : Heap Cell} {before : Option Nat} {turns depth n : Nat} {i : Item} {gs : Forest},
    Chain h before none f → f.size ≤ turns → depth + f.levels ≤ CJSON_CIRCULAR_LIMIT → Growing h n i gs →
    (∀ b ∈ f.addrs, b ∉ n :: gs.addrs) →
    ∃ fs h', duplicateLoop A turns depth n gs.last f.head h = some (some (gs ++ fs).last, h') ∧
      Growing h' n i (gs ++ fs) ∧ fs.entries = f.entries ∧
      Exchanges h h' (n :: gs.addrs) (n :: (gs ++ fs).addrs)

theorem Loops.copies {f : Forest} (hf : Loops A f) {turns depth : Nat} (hturns : f.size ≤ turns)
    (hdepth : depth + f.levels ≤ CJSON_CIRCULAR_LIMIT) :
    Copies (fun copy first => duplicateLoop A turns depth copy none first) f := by
  intro h n i hc hg hn
  exact hf hc hturns hdepth hg fun b hb hin => by
    rcases List.mem_cons.mp hin with rfl | hnil
    · exact hn hb
    · exact absurd hnil List.not_mem_nil

theorem run_duplicateLoop (hA : A.Total) {f : Forest} (hproper : f.Proper) : Loops A f := by
  induction f with
  | nil =>
    intro h before turns depth n i gs _ _ _ hg _
    refine ⟨.nil, h, ?_, by rwa [Forest.append_nil], rfl, by rw [Forest.append_nil]; exact .refl _ _⟩
    rw [Forest.append_nil]
    cases turns <;> rfl
  | cons a k d cs r ihc ihr =>
    intro h before turns depth n i gs hc hturns hdepth hg hout
    obtain ⟨hfits, hproperc, hproperr⟩ := hproper
    obtain ⟨hitem, hkey, htext, hchild, hrest⟩ := hc
    obtain ⟨turns, rfl⟩ : ∃ m, turns = m + 1 := ⟨turns - 1, by simp only [Forest.size] at hturns; omega⟩
    simp only [Forest.size] at hturns
    simp only [Forest.levels] at hdepth
    -- The item is copied with its children, which are a level deeper.
    have hcopies : Copies (fun copy first => duplicateLoop A turns (depth + 1) copy none first) cs :=
      Loops.copies (ihc hproperc) (by omega) (by omega)
    obtain ⟨t, h₁, hrun₁, ht₁, hvalue, he₁⟩ := run_duplicateItem hA hitem hkey htext hchild hfits hcopies
    have hapart : ∀ b ∈ n :: gs.addrs, b ∉ t.forest.addrs := fun b hb =>
      he₁.toLocal.notMem List.not_mem_nil (hg.live b hb)
    obtain ⟨h₂, hrun₂, hg₂, he₂⟩ := (hg.frame he₁.toLocal fun _ _ => List.not_mem_nil).extend ht₁ hapart
    have hsource : ∀ b, b ∈ (Forest.cons a k d cs r).addrs → h.cells b ≠ none → b ∉ n :: (gs ++ t.forest).addrs := by
      intro b hb hlive
      have hold := hout b hb
      have hnew := he₁.toLocal.notMem (a := b) List.not_mem_nil hlive
      simp only [Forest.addrs_append, List.mem_cons, List.mem_append, not_or] at hold ⊢
      exact ⟨hold.1, hold.2, hnew⟩
    have hitem₂ := he₂.kept (hsource a List.mem_cons_self (by simp [hitem])) (he₁.kept List.not_mem_nil hitem)
    have hrout : ∀ b ∈ r.addrs, b ∉ n :: (gs ++ t.forest).addrs := fun b hb =>
      hsource b (List.mem_cons_of_mem _ (List.mem_append_right _ hb)) (hrest.live b hb)
    have hrest₂ := (hrest.frame he₁.toLocal fun _ _ => List.not_mem_nil).frame he₂.toLocal hrout
    have hdepthr : depth + r.levels ≤ CJSON_CIRCULAR_LIMIT := by omega
    have hturnsr : r.size ≤ turns := by omega
    obtain ⟨fs, h₃, hrun₃, hg₃, hentries, he₃⟩ := ihr hproperr hrest₂ hturnsr hdepthr hg₂ hrout
    have hlast : (gs ++ t.forest).last = some t.addr := by rw [Forest.last_append]; rfl
    rw [Forest.append_assoc] at hrun₃ hg₃ he₃
    rw [hlast] at hrun₃
    refine ⟨t.forest ++ fs, h₃, ?_, hg₃, ?_, ?_⟩
    · have hbelow : ¬ CJSON_CIRCULAR_LIMIT ≤ depth := by omega
      show duplicateLoop A (turns + 1) depth n gs.last (some a) h = _
      simp only [duplicateLoop, if_neg hbelow, bind_of hrun₁]
      refine (hrun₂ fun _ => nextOf a >>= fun child => duplicateLoop A turns depth n (some t.addr) child).trans ?_
      rw [bind_of (nextOf_of hitem₂), Option.or_none]
      exact hrun₃
    · rw [Forest.entries_append, hentries]
      show t.value :: _ = _
      rw [hvalue]
      rfl
    · refine ((he₁.beside (n :: gs.addrs)).listed (fun b => by simp) fun b => ?_).trans (he₂.trans he₃)
      simp only [Forest.addrs_append, List.mem_cons, List.mem_append, or_assoc]

/-- The copy of a tree that is not too deep. -/
theorem run_duplicate (hA : A.Total) {t : Tree} (ht : t.Is h) (hdepth : t.value.2.depth ≤ CJSON_CIRCULAR_LIMIT) :
    ∃ (x : Tree) (h' : Heap Cell), duplicate A (some t.addr) h = some (some x.addr, h') ∧ x.Is h' ∧
      x.value = t.value ∧ Exchanges h h' [] x.forest.addrs := by
  have hsize : t.children.size ≤ h.bound + 1 := (size_children ht).le.trans (Nat.le_succ _)
  have hlevels := Tree.levels_le ht
  obtain ⟨⟨hitem, hkey, htext, hchild, -⟩, hnodup, hfits, hproper, -⟩ := ht
  have hcopies : Copies (fun copy first => duplicateLoop A (h.bound + 1) 0 copy none first) t.children :=
    Loops.copies (run_duplicateLoop hA hproper) hsize (by omega)
  exact run_duplicateItem hA hitem hkey htext hchild hfits hcopies

end Cjson

end FinalServer
