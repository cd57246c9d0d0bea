/-
How many participants a chat may have.

Ten, and two where it is no group. The list of a new chat is checked against
this; a list that is added to a chat later is not. Everything else only
takes participants away. So a request keeps the limit exactly when, if it
adds, those who join fit (`AddFits`).
-/
import FinalServer.ChatAdmins
import Mathlib.Data.List.Dedup
import Mathlib.Data.List.Perm.Subperm

namespace FinalServer

/-- The most participants of a chat. -/
def participantLimit (isGroup : Int) : Nat := if isGroup = 0 then 2 else MAX_PARTICIPANTS

namespace Tables

/-- The users in a chat. -/
def memberIds (t : Tables) (c : Int) : List Int := (t.members c).map (·.userId)

/-- No chat has more participants than it may. -/
def WithinLimits (t : Tables) : Prop :=
  ∀ g ∈ t.groups, (t.memberIds g.1).length ≤ participantLimit g.2

variable {m : Mysql} {t t' : Tables} {c c' u v : Int}

theorem mem_memberIds : v ∈ t.memberIds c ↔ ∃ p ∈ t.participants, p.chatId = c ∧ p.userId = v := by
  simp [memberIds, members, and_assoc]

theorem Wf.memberIds_nodup (h : t.Wf) (c : Int) : (t.memberIds c).Nodup := by
  refine List.pairwise_map.mpr (List.Pairwise.imp_of_mem ?_ (h.participants_unique.filter _))
  intro p q hp hq hpq hu
  have hpc := of_decide_eq_true (List.mem_filter.mp hp).2
  have hqc := of_decide_eq_true (List.mem_filter.mp hq).2
  exact hpq ⟨hpc.trans hqc.symm, hu⟩

theorem SameMembers.memberIds (h : SameMembers t t') : t'.memberIds c = t.memberIds c := by
  rw [Tables.memberIds, h.members, Tables.memberIds]

theorem SameMembers.withinLimits (h : SameMembers t t') : t'.WithinLimits ↔ t.WithinLimits := by
  simp only [WithinLimits, h.groups, h.memberIds]

/-- The group flag of a chat is its own. -/
theorem Wf.groups_inj (h : t.Wf) {g g' : Int} (hg : (c, g) ∈ t.groups) (hg' : (c, g') ∈ t.groups) : g = g' := by
  simp only [groups, List.mem_map, Prod.mk.injEq] at hg hg'
  obtain ⟨r, hr, rfl, rfl⟩ := hg
  obtain ⟨s, hs, he, rfl⟩ := hg'
  rw [h.chats_inj hs hr he]

/-! ## One participant more -/

/-- A user that is added to a chat is in it afterwards; nothing else changes. -/
theorem mem_insertParticipant (a : Int) :
    v ∈ (t.insertParticipant c u a).2.memberIds c' ↔
      v ∈ t.memberIds c' ∨ (c' = c ∧ v = u ∧ c ∈ t.chatIds ∧ u ∈ t.userIds) := by
  simp only [insertParticipant, mem_memberIds]
  split
  next hok =>
    simp only [List.mem_append, List.mem_singleton, or_and_right, exists_or, exists_eq_left]
    constructor
    · rintro (h | ⟨rfl, rfl⟩)
      · exact .inl h
      · exact .inr ⟨rfl, rfl, hok.1, hok.2.1⟩
    · rintro (h | ⟨rfl, rfl, -⟩)
      · exact .inl h
      · exact .inr ⟨rfl, rfl⟩
  next hno =>
    refine ⟨.inl, ?_⟩
    rintro (h | ⟨rfl, rfl, hc, hu⟩)
    · exact h
    · -- The insert failed, so the user was in the chat.
      have hrow : t.memberRows c' v ≠ [] := fun hnil => hno ⟨hc, hu, hnil⟩
      obtain ⟨p, hp⟩ := List.exists_mem_of_ne_nil _ hrow
      simp only [memberRows, List.mem_filter, decide_eq_true_eq] at hp
      exact ⟨p, hp.1, hp.2⟩

end Tables

open Prog (Only)
open HandleAction (addEach removeEach copyIds length_copyIds)

variable {m : Mysql} {d : Db}

/-! ## A list of participants more -/

/-- **What adding a list does.** The users of the list are in the chat
afterwards, beside those that were; nothing else changes. -/
theorem addEach_members (c by_ : Int) (f : Int → Int) (us : List Int) :
    (d.run m (addEach c by_ f us)).2.groups = d.groups ∧
      ∀ c' v, v ∈ (d.run m (addEach c by_ f us)).2.memberIds c' ↔
        v ∈ d.memberIds c' ∨ (c' = c ∧ v ∈ us ∧ c ∈ d.chatIds ∧ v ∈ d.userIds) := by
  induction us generalizing d with
  | nil => exact ⟨rfl, fun c' v => ⟨.inl, fun h => h.resolve_right nofun⟩⟩
  | cons u us ih =>
    obtain ⟨d', hsame, husers, hrun⟩ := run_addEach_cons (m := m) (d := d) c by_ u f us
    rw [hrun]
    have hgroups : d'.groups = d.groups := by
      rw [hsame.groups, Db.exec_tables, Tables.exec, Tables.groups_insertParticipant]
    have hchats : d'.chatIds = d.chatIds := by
      rw [Tables.chatIds_eq_groups, hgroups, Tables.chatIds_eq_groups]
    have hids : d'.userIds = d.userIds := by rw [Tables.userIds, husers, Tables.userIds]
    obtain ⟨hg, hmem⟩ := ih (d := d')
    refine ⟨hg.trans hgroups, fun c' v => ?_⟩
    rw [hmem, hsame.memberIds, Db.exec_tables, Tables.exec, Tables.mem_insertParticipant, hchats, hids,
      List.mem_cons]
    constructor
    · rintro ((h | ⟨rfl, rfl, hc, hu⟩) | ⟨rfl, hv, hc, hu⟩)
      · exact .inl h
      · exact .inr ⟨rfl, .inl rfl, hc, hu⟩
      · exact .inr ⟨rfl, .inr hv, hc, hu⟩
    · rintro (h | ⟨rfl, rfl | hv, hc, hu⟩)
      · exact .inl (.inl h)
      · exact .inl (.inr ⟨rfl, rfl, hc, hu⟩)
      · exact .inr ⟨rfl, hv, hc, hu⟩

/-- The users in a chat once those of the list that exist have joined. -/
def joined (d : Db) (c : Int) (us : List Int) : List Int :=
  (d.memberIds c ++ us.filter (· ∈ d.userIds)).dedup

theorem addEach_length (c by_ : Int) (f : Int → Int) (us : List Int) (hc : c ∈ d.chatIds) :
    ((d.run m (addEach c by_ f us)).2.memberIds c).length = (joined d c us).length := by
  refine ((List.perm_ext_iff_of_nodup (Db.wf _ |>.memberIds_nodup c) (List.nodup_dedup _)).mpr
    fun v => ?_).length_eq
  rw [(addEach_members c by_ f us).2]
  simp [hc]

/-- A list added to a chat keeps the limits exactly when it fits that chat. -/
theorem addEach_withinLimits_iff (c by_ : Int) (f : Int → Int) (us : List Int) (h : d.WithinLimits) :
    (d.run m (addEach c by_ f us)).2.WithinLimits ↔
      ∀ g, (c, g) ∈ d.groups → (joined d c us).length ≤ participantLimit g := by
  obtain ⟨hgroups, hmem⟩ := addEach_members (m := m) (d := d) c by_ f us
  have hchat : ∀ g, (c, g) ∈ d.groups → c ∈ d.chatIds := fun g hg => by
    rw [Tables.chatIds_eq_groups]
    exact List.mem_map_of_mem hg
  constructor
  · intro hw g hg
    rw [← addEach_length (m := m) c by_ f us (hchat g hg)]
    exact hw (c, g) (hgroups ▸ hg)
  · rintro hfit ⟨c', g⟩ hg
    rw [hgroups] at hg
    by_cases hc : c' = c
    · subst hc
      rw [addEach_length _ _ _ _ (hchat g hg)]
      exact hfit g hg
    · refine le_trans (List.Nodup.subperm (Db.wf _ |>.memberIds_nodup c') fun v hv => ?_).length_le (h _ hg)
      exact ((hmem c' v).mp hv).resolve_right fun h => hc h.1

/-! ## The other actions -/

/-- The statement is quiet, or takes participants or chats away, or changes who is an admin. -/
def Query.shrinks : Query → Prop
  | .insertChat .. | .insertParticipant .. => False
  | _ => True

theorem Tables.Wf.withinLimits_of_subset {t t' : Tables} (hwf : t'.Wf) (hg : t'.groups ⊆ t.groups)
    (hm : ∀ c, t'.memberIds c ⊆ t.memberIds c) (h : t.WithinLimits) : t'.WithinLimits := fun g hg' =>
  ((hwf.memberIds_nodup g.1).subperm (hm g.1)).length_le.trans (h g (hg hg'))

theorem exec_shrinks {q : Query} {t : Tables} (hq : q.shrinks) (hwf : t.Wf) (h : t.WithinLimits) :
    (Tables.exec m q t).2.WithinLimits := by
  cases q with
  | insertChat | insertParticipant => cases hq
  | deleteParticipant c u =>
    refine (Tables.deleteParticipant_wf hwf).withinLimits_of_subset (t := t) (fun g hg => hg) (fun c' v hv => ?_) h
    obtain ⟨p, hp, hpv⟩ := Tables.mem_memberIds.mp hv
    exact Tables.mem_memberIds.mpr ⟨p, List.mem_of_mem_filter hp, hpv⟩
  | promote c u =>
    refine (Tables.promote_wf hwf).withinLimits_of_subset (t := t) (fun g hg => hg) (fun c' v hv => ?_) h
    obtain ⟨p', hp', hpv⟩ := Tables.mem_memberIds.mp hv
    obtain ⟨p, hp, rfl⟩ := List.mem_map.mp hp'
    refine Tables.mem_memberIds.mpr ⟨p, hp, ?_⟩
    revert hpv
    split <;> exact id
  | deleteChat c =>
    refine (Tables.deleteChat_wf hwf).withinLimits_of_subset (fun g hg => ?_) (fun c' v hv => ?_) h
    · obtain ⟨r, hr, rfl⟩ := List.mem_map.mp hg
      exact List.mem_map_of_mem (List.mem_of_mem_filter hr)
    · obtain ⟨p, hp, hpv⟩ := Tables.mem_memberIds.mp hv
      exact Tables.mem_memberIds.mpr ⟨p, List.mem_of_mem_filter hp, hpv⟩
  | _ => exact (Tables.exec_same rfl).withinLimits.mpr h

theorem shrinks_withinLimits {α : Type} {p : DbProg α} (hp : Only Query.shrinks p) (h : d.WithinLimits) :
    (d.run m p).2.WithinLimits :=
  Db.run_invariant hp (fun _ _ hq hwf h => exec_shrinks hq hwf h) h

theorem Query.shrinks_of_quiet {q : Query} (hq : q.quiet = true) : q.shrinks := by
  cases q <;> trivial

theorem sendMessage_shrinks (message : Message) : Only Query.shrinks (sendMessage message) :=
  (sendMessage_quiet message).mono fun _ hq => Query.shrinks_of_quiet hq

theorem isUserAdmin_shrinks (c u : Int) : Only Query.shrinks (isUserAdmin c u) :=
  (isUserAdmin_reads c u).mono fun _ hq => Query.shrinks_of_quiet hq.looksUp.1

theorem removeEach_shrinks (c r : Int) (ids : List Json) : Only Query.shrinks (removeEach c r ids) := by
  refine (removeEach_removesOthers c r ids).mono fun q hq => ?_
  rcases hq with hq | ⟨u, -, rfl⟩
  · exact Query.shrinks_of_quiet hq
  · trivial

theorem removeFromChat_shrinks (json : Json) : Only Query.shrinks (HandleAction.removeFromChat json) := by
  simp only [HandleAction.removeFromChat]
  split
  · refine .bind (isUserAdmin_shrinks _ _) fun isAdmin => ?_
    split
    · exact .ret _
    refine .bind ((isGroupChat_reads _).mono fun _ hq => Query.shrinks_of_quiet hq.looksUp.1) fun isGroup => ?_
    split
    · exact .ret _
    · exact .bind (removeEach_shrinks _ _ _) fun _ => .ret _
  · exact .ret _

theorem exitChat_shrinks (json : Json) : Only Query.shrinks (HandleAction.exitChat json) := by
  simp only [HandleAction.exitChat]
  split
  · refine .bind (isUserAdmin_shrinks _ _) fun isAdmin => ?_
    refine .bind (Db.only_query trivial) fun count => .bind (Db.only_query trivial) fun ok => ?_
    split
    · exact .ret _
    refine .bind (sendMessage_shrinks _) fun _ => ?_
    split
    · refine .bind (Db.only_query trivial) fun r => ?_
      split <;> exact .ret _
    split
    · refine .bind (Db.only_query trivial) fun n => ?_
      split
      · refine .bind (.bind (Db.only_query trivial) fun r => ?_) fun r => ?_
        · split
          · exact Db.only_query trivial
          · exact .ret _
        · split <;> exact .ret _
      · exact .ret _
    · exact .ret _
  · exact .ret _

/-- The number of a new chat's list leaves room for the creator. -/
theorem CreateChatParams.countValid_limit {p : CreateChatParams} (h : p.countValid = true) :
    p.participantIds.length + 1 ≤ participantLimit p.isGroup := by
  simp only [countValid, Bool.and_eq_true, decide_eq_true_eq, MAX_PARTICIPANTS] at h
  by_cases hg : p.isGroup = 0 <;> simp [participantLimit, MAX_PARTICIPANTS, hg] at h ⊢ <;> omega

/-- A new chat starts with its creator and those listed, whose number was checked. -/
theorem createChat_withinLimits (un : Uninit) (json : Json) (h : d.WithinLimits) :
    (d.run m (HandleAction.createChat un json)).2.WithinLimits := by
  rcases createChat_cases (m := m) (d := d) un json with
    ⟨hsame, -⟩ | ⟨p, c, r, more, d', hp, hvalid, -, hpart, -, hgroups, hfresh, hrun⟩
  · rwa [hsame]
  obtain ⟨hg, hmem⟩ := addEach_members (m := m) (d := d') c p.createdBy
    (fun id => if id = p.createdBy then 1 else 0) (p.createdBy :: copyIds un.participants 1 p.participantIds)
  rw [hrun]
  generalize (d'.run m (addEach c p.createdBy (fun id => if id = p.createdBy then 1 else 0)
    (p.createdBy :: copyIds un.participants 1 p.participantIds))).2 = e at hg hmem ⊢
  have hold : ∀ c' v, v ∈ d'.memberIds c' → v ∈ d.memberIds c' := by
    intro c' v hv
    rwa [Tables.mem_memberIds, hpart, ← Tables.mem_memberIds] at hv
  -- Nobody is in the new chats yet.
  have hempty : ∀ c' v, c ≤ c' → v ∉ d'.memberIds c' := by
    intro c' v hc' hv
    obtain ⟨q, hq, hqc, -⟩ := Tables.mem_memberIds.mp (hold c' v hv)
    exact absurd (hfresh q hq) (not_lt.mpr (hqc ▸ hc'))
  rintro ⟨c', g⟩ hcg
  rw [hg] at hcg
  by_cases hc : c' = c
  · subst hc
    -- Only the creator and the list can be in the first of them.
    have hsub : e.memberIds c' ⊆ p.createdBy :: copyIds un.participants 1 p.participantIds := by
      intro v hv
      rcases (hmem c' v).mp hv with hv | ⟨-, hv, -⟩
      · exact absurd hv (hempty c' v le_rfl)
      · exact hv
    obtain rfl : g = p.isGroup := d'.wf.groups_inj hcg (by simp [hgroups])
    refine ((e.wf.memberIds_nodup c').subperm hsub).length_le.trans ?_
    rw [List.length_cons, length_copyIds]
    exact CreateChatParams.countValid_limit hvalid
  · have hsame : ∀ v ∈ e.memberIds c', v ∈ d'.memberIds c' :=
      fun v hv => ((hmem c' v).mp hv).resolve_right fun h => hc h.1
    rw [hgroups, List.mem_append, List.mem_cons, Prod.mk.injEq] at hcg
    rcases hcg with hcg | hcg | hcg
    · exact ((e.wf.memberIds_nodup c').subperm fun v hv => hold c' v (hsame v hv)).length_le.trans (h (c', g) hcg)
    · exact absurd hcg.1 hc
    · have hle := Tables.le_of_mem_newGroups hcg
      have hnil : e.memberIds c' = [] := List.eq_nil_iff_forall_not_mem.mpr fun v hv =>
        hempty c' v (by omega) (hsame v hv)
      rw [hnil]
      exact Nat.zero_le _

/-! ## Runs -/

/-- If the request adds to a chat, those who join fit. -/
def AddFits (d : Db) (call : Call) : Prop :=
  queryAction call.request = some .addToGroupChat → ∀ p, addToGroupChatParams call.request = some p →
    ∀ g, (p.chatId, g) ∈ d.groups →
      (joined d p.chatId (copyIds call.un.participants 0 p.participantIds)).length ≤ participantLimit g

theorem addToGroupChat_withinLimits_iff (un : Uninit) (json : Json) (h : d.WithinLimits) :
    (d.run m (HandleAction.addToGroupChat un json)).2.WithinLimits ↔
      ∀ p, addToGroupChatParams json = some p → ∀ g, (p.chatId, g) ∈ d.groups →
        (joined d p.chatId (copyIds un.participants 0 p.participantIds)).length ≤ participantLimit g := by
  cases hp : addToGroupChatParams json with
  | some p =>
    rw [run_addToGroupChat un hp]
    simpa using addEach_withinLimits_iff _ _ _ _ h
  | none =>
    simp only [HandleAction.addToGroupChat, hp]
    simpa using h

/-- One request keeps the limits exactly when those it adds fit. -/
theorem serve_withinLimits_iff {call : Call} (h : d.WithinLimits) :
    (d.serve m call).WithinLimits ↔ AddFits d call := by
  have htick : (d.tick call.elapsed).WithinLimits := h
  simp only [Db.serve, handleAction, AddFits, queryAction]
  split
  next hnone => simp [hnone, htick]
  next item hitem =>
    simp only [Db.run_bind, Db.run_pure, hitem, Option.bind_some]
    cases Action.ofCode item.valueint with
    | none => exact iff_of_true htick (by simp)
    | some a =>
      cases a with
      | addToGroupChat =>
        refine (addToGroupChat_withinLimits_iff call.un call.request htick).trans ?_
        exact ⟨fun hfit _ => hfit, fun hfit => hfit rfl⟩
      | createChat => exact iff_of_true (createChat_withinLimits call.un call.request htick) (by simp)
      | removeFromChat => exact iff_of_true (shrinks_withinLimits (removeFromChat_shrinks _) htick) (by simp)
      | exitChat => exact iff_of_true (shrinks_withinLimits (exitChat_shrinks _) htick) (by simp)
      | _ => exact iff_of_true ((Db.run_same (answer_quiet rfl)).withinLimits.mpr htick) (by simp)

/-- **When the limits hold.** From empty chat tables, no chat ever has more
participants than it may exactly when every list added to a chat fits it. -/
theorem reachable_withinLimits_iff (m : Mysql) (d : Db) (hd : d.chats = []) (calls : List Call) :
    (∀ pre, pre <+: calls → (Run.exec (Db.serve m) d pre).WithinLimits) ↔
      Run.Along (Db.serve m) AddFits d calls := by
  have hstart : d.WithinLimits := by
    intro g hg
    simp [Tables.groups, hd] at hg
  exact Run.Along.forall_prefix_iff (I := fun d : Db => d.WithinLimits) (J := fun _ : Db => True)
    (Run.along_true calls) (fun _ _ _ _ => trivial) trivial (fun _ _ _ _ h => serve_withinLimits_iff h) hstart

theorem reachable_withinLimits_iff_founderLeaves :
    (∀ pre, pre <+: founderLeaves →
      (Run.exec (Db.serve .tableOrder) .threeUsers pre).WithinLimits) ↔
      Run.Along (Db.serve .tableOrder) AddFits .threeUsers founderLeaves :=
  reachable_withinLimits_iff .tableOrder .threeUsers rfl founderLeaves

/-- Alice writes to Bob directly and then adds Carol. -/
def thirdInDirectChat : List Call := [.createChat 2 false [3], .addToGroupChat 1 2 [4]]

/-- A direct chat with three participants. -/
theorem direct_chat_of_three :
    ¬ ∀ (m : Mysql) (d : Db), d.chats = [] → ∀ calls : List Call,
      (Run.exec (Db.serve m) d calls).WithinLimits := by
  intro h
  exact absurd (h .tableOrder .threeUsers rfl thirdInDirectChat (1, 0) (by decide +kernel)) (by decide +kernel)

end FinalServer
