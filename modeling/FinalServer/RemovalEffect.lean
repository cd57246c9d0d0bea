/-
What removing participants and leaving do to `chats` and `chat_participants`.

Removing does what it says for every list (`removeFromChat_effect`), and
leaving for every participant (`Leaves`). Somebody who is not in the chat is
told that he has left it too, and where one other is in it he takes the chat
with him: the count was read before a `DELETE` that deletes nothing.
-/
import FinalServer.ParticipantLimit

namespace FinalServer

/-- The row of a chat, but for the last message if it is chat `c`. -/
def ChatRow.forgetLast (c : Int) (r : ChatRow) : ChatRow :=
  if r.chatId = c then { r with lastMessageId := none } else r

@[simp] theorem ChatRow.chatId_forgetLast (c : Int) (r : ChatRow) : (r.forgetLast c).chatId = r.chatId := by
  unfold ChatRow.forgetLast
  split <;> rfl

namespace Tables

/-- The rows of `chats`, but for the last message of chat `c`. -/
def chatsBut (t : Tables) (c : Int) : List ChatRow := t.chats.map (ChatRow.forgetLast c)

/-- The user is the one admin of the chat. -/
def OnlyAdmin (t : Tables) (c u : Int) : Prop := t.IsAdmin c u ∧ ∀ v, t.IsAdmin c v → v = u

variable {m : Mysql} {t t' : Tables} {c u v : Int}

theorem chatsBut_updateLastMessage (i : Int) : (t.updateLastMessage i c).chatsBut c = t.chatsBut c := by
  simp only [chatsBut, updateLastMessage, List.map_map]
  refine List.map_congr_left fun r _ => ?_
  by_cases hr : r.chatId = c <;> simp [ChatRow.forgetLast, hr]

/-- The rows of the other chats are whole. -/
theorem filter_chatsBut : (t.chatsBut c).filter (·.chatId ≠ c) = t.chats.filter (·.chatId ≠ c) := by
  rw [chatsBut, List.filter_map]
  have hfilter : t.chats.filter ((fun r => decide (r.chatId ≠ c)) ∘ ChatRow.forgetLast c) =
      t.chats.filter (·.chatId ≠ c) :=
    List.filter_congr fun r _ => by simp
  rw [hfilter]
  refine (List.map_congr_left fun r hr => ?_).trans (List.map_id _)
  exact if_neg (by simpa using (List.mem_filter.mp hr).2)

end Tables

open Prog (Only)
open HandleAction (removeEach reply responseCode responseCode_reply)

variable {m : Mysql} {d : Db} {c u : Int}

/-! ## The rows of `chats` -/

/-- The statement changes `chats` at most in the last message of chat `c`. -/
def Query.keepsChats (c : Int) : Query → Prop
  | .insertChat .. | .deleteChat _ => False
  | .updateLastMessage _ c' => c' = c
  | _ => True

theorem exec_chatsBut {q : Query} {t : Tables} (hq : q.keepsChats c) :
    (Tables.exec m q t).2.chatsBut c = t.chatsBut c := by
  cases q with
  | insertChat | deleteChat => cases hq
  | updateLastMessage i c' =>
    obtain rfl : c' = c := hq
    exact Tables.chatsBut_updateLastMessage i
  | insertUser sql =>
    simp only [Tables.exec]
    split
    · simp only [Tables.insertUser]
      split <;> rfl
    · rfl
  | insertParticipant c' u a => simp only [Tables.exec, Tables.insertParticipant]; split <;> rfl
  | insertMessage sql =>
    refine Tables.insertRows_invariant (P := fun t' => t'.chatsBut c = t.chatsBut c) (fun hrow h => ?_) rfl
    obtain ⟨-, rfl⟩ := Tables.insertMessageRow_eq_some.mp hrow
    exact h
  | _ => rfl

theorem sendMessage_keepsChats (message : Message) :
    Only (Query.keepsChats message.chatId) (sendMessage message) := by
  refine .bind (Db.only_query trivial) fun r => ?_
  split
  · exact .ret _
  · exact Db.only_query rfl

/-- Removing a row and telling the chat changes `chats` at most in the chat's last message. -/
theorem Db.removed_chatsBut (c u : Int) (content : CString) :
    (d.removed m c u content).chatsBut c = d.chatsBut c :=
  Db.run_invariant (I := fun t => t.chatsBut c = d.chatsBut c)
    (sendMessage_keepsChats (HandleAction.systemMessage c content))
    (fun _ _ hq _ h => (exec_chatsBut hq).trans h) rfl

/-! ## Removing -/

/-- The users listed as numbers, but for the remover. -/
def removals (removedBy : Int) (participantIds : List Json) : List Int :=
  ((participantIds.filter (·.isNumber)).map (·.valueint)).filter (· ≠ removedBy)

theorem removals_cons {r : Int} {j : Json} {js : List Json} (hj : j.isNumber ∧ j.valueint ≠ r) :
    removals r (j :: js) = j.valueint :: removals r js := by
  simp [removals, hj.1, hj.2]

theorem removals_skip {r : Int} {j : Json} {js : List Json} (hj : ¬ (j.isNumber ∧ j.valueint ≠ r)) :
    removals r (j :: js) = removals r js := by
  by_cases hn : j.isNumber = true
  · have hr : j.valueint = r := by_contra fun h => hj ⟨hn, h⟩
    simp [removals, hn, hr]
  · simp [removals, hn]

/-- The loop takes the listed users out of the chat and leaves every other row. -/
theorem removeEach_effect (c r : Int) (ids : List Json) :
    (d.run m (removeEach c r ids)).2.participants =
        d.participants.filter (fun q => ¬ (q.chatId = c ∧ q.userId ∈ removals r ids)) ∧
      (d.run m (removeEach c r ids)).2.chatsBut c = d.chatsBut c := by
  induction ids generalizing d with
  | nil => exact ⟨by simp [removeEach, removals], rfl⟩
  | cons j js ih =>
    by_cases hj : j.isNumber ∧ j.valueint ≠ r
    · rw [run_removeEach_cons c js hj, removals_cons hj]
      set d' := d.removed m c j.valueint
        ("User " ++ CString.ofInt r ++ " has removed user " ++ CString.ofInt j.valueint) with hd'
      obtain ⟨hpart, hchats⟩ := ih (d := d')
      refine ⟨?_, hchats.trans (Db.removed_chatsBut ..)⟩
      have hd : d'.participants = (d.deleteParticipant c j.valueint).participants :=
        (Db.removed_same ..).participants
      rw [hpart, hd, Tables.deleteParticipant, List.filter_filter]
      refine List.filter_congr fun q _ => ?_
      by_cases hc : q.chatId = c <;> by_cases hq : q.userId = j.valueint <;> simp [hc, hq]
    · rw [removeEach_skip c js hj, removals_skip hj]
      exact ih

/-- What `REMOVE_FROM_CHAT` is to do. An admin of a group takes those he lists
out of it and stays an admin; otherwise nobody goes. Other chats keep their
participants, and every chat its row but for the last message of that group. -/
def RemoveEffect (t t' : Tables) : Option RemoveFromChatParams → Prop
  | some p =>
    (if t.IsAdmin p.chatId p.removedBy ∧ t.IsGroup p.chatId then
      t'.members p.chatId =
          (t.members p.chatId).filter (fun q => q.userId ∉ removals p.removedBy p.participantIds) ∧
        t'.IsAdmin p.chatId p.removedBy
    else t'.participants = t.participants) ∧
    (∀ c, c ≠ p.chatId → t'.members c = t.members c) ∧ t'.chatsBut p.chatId = t.chatsBut p.chatId
  | none => t' = t

/-- The rows a removal leaves, chat by chat. -/
theorem members_of_removed {t t' : Tables} {vs : List Int}
    (h : t'.participants = t.participants.filter fun q => ¬ (q.chatId = c ∧ q.userId ∈ vs)) (c' : Int) :
    t'.members c' = (t.members c').filter fun q => ¬ (c' = c ∧ q.userId ∈ vs) := by
  simp only [Tables.members, h, List.filter_filter]
  refine List.filter_congr fun q _ => ?_
  by_cases hc : q.chatId = c' <;> simp [hc]

theorem removeEach_removeEffect {p : RemoveFromChatParams} (hadmin : d.IsAdmin p.chatId p.removedBy)
    (hgroup : d.IsGroup p.chatId) :
    RemoveEffect d.toTables (d.run m (removeEach p.chatId p.removedBy p.participantIds)).2.toTables (some p) := by
  obtain ⟨hpart, hchats⟩ := removeEach_effect (m := m) (d := d) p.chatId p.removedBy p.participantIds
  have hmembers := members_of_removed hpart
  refine ⟨?_, fun c hc => ?_, hchats⟩
  · rw [if_pos ⟨hadmin, hgroup⟩]
    refine ⟨by rw [hmembers]; simp, ?_⟩
    -- The remover is not in his own list.
    obtain ⟨q, hq, hqc, hqu, ha⟩ := hadmin
    refine ⟨q, ?_, hqc, hqu, ha⟩
    rw [hpart, List.mem_filter]
    exact ⟨hq, by simp [hqu, removals]⟩
  · rw [hmembers]
    simp [hc]

theorem removeFromChat_removeEffect (json : Json) :
    RemoveEffect d.toTables (d.run m (HandleAction.removeFromChat json)).2.toTables
      (removeFromChatParams json) := by
  cases hp : removeFromChatParams json with
  | none =>
    simp only [HandleAction.removeFromChat, hp]
    rfl
  | some p =>
    rw [run_removeFromChat hp]
    by_cases hadmin : d.IsAdmin p.chatId p.removedBy
    · rw [if_neg (not_not.mpr hadmin)]
      by_cases hgroup : d.IsGroup p.chatId
      · rw [if_neg (not_not.mpr hgroup)]
        exact removeEach_removeEffect hadmin hgroup
      · rw [if_pos hgroup]
        exact ⟨by rw [if_neg fun h => hgroup h.2], fun _ _ => rfl, rfl⟩
    · rw [if_pos hadmin]
      exact ⟨by rw [if_neg fun h => hadmin h.1], fun _ _ => rfl, rfl⟩

/-- **What removing does**, for every list: repeated users, users that are not
in the chat, the remover himself and elements that are no numbers included. -/
theorem removeFromChat_effect (m : Mysql) (d : Db) (un : Uninit) (json : Json)
    (hq : queryAction json = some .removeFromChat) :
    RemoveEffect d.toTables (d.run m (handleAction un json)).2.toTables (removeFromChatParams json) := by
  rw [Db.run_handleAction hq]
  exact removeFromChat_removeEffect json

/-- Alice, an admin of the first chat, removes Bob twice, somebody unknown, herself and a text. -/
def Call.removeListed : Call :=
  .of .removeFromChat [("chat_id", .createNumber 1), ("removed_by", .createNumber 2),
    ("participant_ids", .array [.createNumber 3, .createNumber 3, .createNumber 9, .createNumber 2, .string "4"])]

/-- Alice's group with Bob and Carol. -/
def groupOfThree : Db := Run.exec (Db.serve .tableOrder) .threeUsers [.createChat 2 true [3, 4]]

theorem removeFromChat_effect_removeListed :
    RemoveEffect groupOfThree.toTables
      (groupOfThree.run .tableOrder (handleAction .zero Call.removeListed.request)).2.toTables
      (removeFromChatParams Call.removeListed.request) :=
  removeFromChat_effect .tableOrder groupOfThree .zero Call.removeListed.request (by decide +kernel)

example : (groupOfThree.run .tableOrder (handleAction .zero Call.removeListed.request)).2.memberIds 1 = [2, 4] := by
  decide +kernel

/-! ## Leaving -/

/-- What `EXIT_CHAT` is to do for a participant. His row goes; if he was the
one admin and others stay, one of them becomes an admin; no other row of
`chat_participants` changes. The chat goes with its last participant, and
no other row of `chats` changes; a chat that stays keeps its row, but for
the last message. -/
structure Leaves (t t' : Tables) (c u : Int) : Prop where
  participants : ∃ successor : Option Int,
    (successor.isSome ↔ t.OnlyAdmin c u ∧ t.memberIds c ≠ [u]) ∧
    (∀ v ∈ successor, v ∈ t.memberIds c ∧ v ≠ u) ∧
    t'.participants = (t.participants.filter fun p => ¬ (p.chatId = c ∧ p.userId = u)).map fun p =>
      if p.chatId = c ∧ some p.userId = successor then { p with isAdmin := 1 } else p
  deleted : t.memberIds c = [u] → t'.chats = t.chats.filter (·.chatId ≠ c)
  kept : t.memberIds c ≠ [u] → t'.chatsBut c = t.chatsBut c

/-- What `EXIT_CHAT` is to do for somebody who is not in the chat: nothing, and say so. -/
structure StaysOut (t t' : Tables) (c : Int) (answer : Option Json) : Prop where
  chats : t'.chats = t.chats
  participants : t'.participants = t.participants
  messages : t'.messagesOf c = t.messagesOf c
  refused : answer.bind responseCode ≠ some 200

namespace Tables

variable {t t' : Tables}

theorem memberIds_eq_singleton (hu : u ∈ t.memberIds c) :
    t.memberIds c = [u] ↔ (t.members c).length = 1 := by
  have hlen : (t.memberIds c).length = (t.members c).length := List.length_map _
  constructor
  · intro he
    rw [← hlen, he]
    rfl
  · intro hone
    obtain ⟨v, hv⟩ := List.length_eq_one_iff.mp (hlen.trans hone)
    rw [hv] at hu ⊢
    rw [List.mem_singleton.mp hu]

theorem isAdmin_deleteParticipant : (t.deleteParticipant c u).IsAdmin c v ↔ t.IsAdmin c v ∧ v ≠ u := by
  simp only [IsAdmin, deleteParticipant, List.mem_filter, decide_eq_true_eq]
  constructor
  · rintro ⟨p, ⟨hp, hne⟩, hc, rfl, ha⟩
    exact ⟨⟨p, hp, hc, rfl, ha⟩, fun he => hne ⟨hc, he⟩⟩
  · rintro ⟨⟨p, hp, hc, rfl, ha⟩, hne⟩
    exact ⟨p, ⟨hp, fun h => hne h.2⟩, hc, rfl, ha⟩

theorem mem_memberIds_deleteParticipant :
    v ∈ (t.deleteParticipant c u).memberIds c ↔ v ∈ t.memberIds c ∧ v ≠ u := by
  simp only [mem_memberIds, deleteParticipant, List.mem_filter, decide_eq_true_eq]
  constructor
  · rintro ⟨p, ⟨hp, hne⟩, hc, rfl⟩
    exact ⟨⟨p, hp, hc, rfl⟩, fun he => hne ⟨hc, he⟩⟩
  · rintro ⟨⟨p, hp, hc, rfl⟩, hne⟩
    exact ⟨p, ⟨hp, fun h => hne h.2⟩, hc, rfl⟩

theorem admins_eq_nil : t.admins c = [] ↔ ∀ v, ¬ t.IsAdmin c v := by
  rw [← not_iff_not, ← ne_eq, ← hasAdmin_iff_admins, not_forall_not]
  constructor
  · rintro ⟨p, hp, hc, ha⟩
    exact ⟨p.userId, p, hp, hc, rfl, ha⟩
  · rintro ⟨v, h⟩
    exact h.hasAdmin

/-- Without an admin among the others the leaver was the one admin. -/
theorem onlyAdmin_iff (h : t.IsAdmin c u) : t.OnlyAdmin c u ↔ (t.deleteParticipant c u).admins c = [] := by
  simp only [OnlyAdmin, h, true_and, admins_eq_nil, isAdmin_deleteParticipant, not_and_not_right]

end Tables

@[simp] theorem run_exitLast (c u : Int) :
    d.run m (HandleAction.exitLast c u) =
      (reply [] ("User " ++ CString.ofInt u ++ " left chat " ++ CString.ofInt c ++
        ". Chat deleted as last participant.") 200, (d.exec m (.deleteChat c)).2) := by
  simp only [HandleAction.exitLast, Db.run_bind, Db.run_deleteChat, if_true, Db.run_pure]

/-- An admin's leaving makes somebody an admin exactly when no other admin is left. -/
theorem run_exitAdmin (u : Int) (hne : d.members c ≠ []) :
    ∃ successor : Option Int, (successor.isSome ↔ d.admins c = []) ∧
      (∀ v ∈ successor, v ∈ d.memberIds c) ∧
      (d.run m (HandleAction.exitAdmin c u)).2.chats = d.chats ∧
      (d.run m (HandleAction.exitAdmin c u)).2.participants = d.participants.map fun p =>
        if p.chatId = c ∧ some p.userId = successor then { p with isAdmin := 1 } else p := by
  simp only [HandleAction.exitAdmin, Db.run_bind, Db.run_getAdminCount, Option.some.injEq,
    List.length_eq_zero_iff]
  by_cases hnil : d.admins c = []
  · rw [if_pos hnil]
    obtain ⟨p, hp⟩ := Option.isSome_iff_exists.mp (m.limitOne_isSome hne)
    simp only [Db.run_bind, Db.run_promote, hp, if_true, Db.run_pure]
    refine ⟨some p.userId, by simp [hnil], fun v hv => ?_, rfl, ?_⟩
    · obtain rfl := Option.some.inj hv
      exact List.mem_map_of_mem (m.limitOne_mem hp)
    · simp only [Option.some.injEq]
      rfl
  · rw [if_neg hnil]
    exact ⟨none, by simp [hnil], by simp, rfl, by simp⟩

/-- A participant leaves as is said. -/
theorem exitChat_leaves {json : Json} (hp : exitChatParams json = some (c, u)) (hu : u ∈ d.memberIds c) :
    Leaves d.toTables (d.run m (HandleAction.exitChat json)).2.toTables c u := by
  rw [run_exitChat hp]
  set d' := d.removed m c u ("User " ++ CString.ofInt u ++ " has exited the chat")
  have hsame : (d.deleteParticipant c u).SameMembers d'.toTables := Db.removed_same ..
  have hchats : d'.chatsBut c = d.chatsBut c := Db.removed_chatsBut ..
  have hpart : d'.participants = d.participants.filter fun p => ¬ (p.chatId = c ∧ p.userId = u) :=
    hsame.participants
  have hlast := Tables.memberIds_eq_singleton hu
  by_cases hcount : (d.members c).length = 1
  · have hone := hlast.mpr hcount
    rw [if_pos hcount, run_exitLast]
    refine ⟨⟨none, by simp [hone], by simp, ?_⟩, fun _ => ?_, fun h => absurd hone h⟩
    · -- Nobody but the user was in the chat.
      have hothers : ∀ p ∈ d'.participants, p.chatId ≠ c := by
        intro p hp hc
        rw [hpart, List.mem_filter] at hp
        have hmem : p.userId ∈ d.memberIds c := Tables.mem_memberIds.mpr ⟨p, hp.1, hc, rfl⟩
        rw [hone, List.mem_singleton] at hmem
        simp [hc, hmem] at hp
      have hgone : (d'.deleteChat c).participants = d'.participants :=
        List.filter_eq_self.mpr fun p hp => by simpa using hothers p hp
      rw [Db.exec_tables, Tables.exec, hgone, hpart]
      simp
    · show d'.chats.filter (·.chatId ≠ c) = _
      rw [← Tables.filter_chatsBut, hchats, Tables.filter_chatsBut]
  rw [if_neg hcount]
  have hmany : d.memberIds c ≠ [u] := fun h => hcount (hlast.mp h)
  split
  next hadmin =>
    have hstay : d'.members c ≠ [] := by
      rw [hsame.members]
      refine d.wf.members_deleteParticipant ?_
      have hpos : 0 < (d.memberIds c).length := List.length_pos_of_mem hu
      rw [Tables.memberIds, List.length_map] at hpos
      omega
    obtain ⟨successor, hsome, hmem, hc, hps⟩ := run_exitAdmin (m := m) u hstay
    refine ⟨⟨successor, ?_, fun v hv => ?_, by rw [hps, hpart]⟩, fun h => absurd h hmany, fun _ => ?_⟩
    · rw [hsome, hsame.admins, ← Tables.onlyAdmin_iff hadmin]
      simp [hmany]
    · have hv := hmem v hv
      rwa [hsame.memberIds, Tables.mem_memberIds_deleteParticipant] at hv
    · rw [← hchats, Tables.chatsBut, hc, Tables.chatsBut]
  next hadmin =>
    exact ⟨⟨none, by simp [Tables.OnlyAdmin, hadmin], by simp, by simp [hpart]⟩, fun h => absurd h hmany,
      fun _ => hchats⟩

/-- Somebody who is not in the chat is told that he has left it. -/
theorem exitChat_outsider {json : Json} (hp : exitChatParams json = some (c, u)) (hu : u ∉ d.memberIds c) :
    responseCode (d.run m (HandleAction.exitChat json)).1 = some 200 := by
  have hadmin : ¬ d.IsAdmin c u := by
    rintro ⟨p, hp, hc, hu', -⟩
    exact hu (Tables.mem_memberIds.mpr ⟨p, hp, hc, hu'⟩)
  rw [run_exitChat hp]
  simp only [hadmin, if_false]
  split
  · rw [run_exitLast]
    exact responseCode_reply _ (by decide) (by decide)
  · exact responseCode_reply _ (by decide) (by decide)

/-- What `EXIT_CHAT` is to do. -/
def ExitEffect (t t' : Tables) (c u : Int) (answer : Option Json) : Prop :=
  (u ∈ t.memberIds c → Leaves t t' c u) ∧ (u ∉ t.memberIds c → StaysOut t t' c answer)

/-- **When leaving does what it is to do.** Exactly when the user is in the chat. -/
theorem exitChat_effect_iff (m : Mysql) (d : Db) (un : Uninit) (json : Json) (c u : Int)
    (hq : queryAction json = some .exitChat) (hp : exitChatParams json = some (c, u)) :
    ExitEffect d.toTables (d.run m (handleAction un json)).2.toTables c u (d.run m (handleAction un json)).1 ↔
      u ∈ d.memberIds c := by
  rw [Db.run_handleAction hq]
  constructor
  · intro h
    by_contra hu
    exact (h.2 hu).refused (exitChat_outsider hp hu)
  · intro hu
    exact ⟨fun _ => exitChat_leaves hp hu, fun hno => absurd hu hno⟩

theorem exitChat_effect_iff_alice :
    ExitEffect groupOfThree.toTables
        (groupOfThree.run .tableOrder (handleAction .zero (Call.exitChat 1 2).request)).2.toTables 1 2
        (groupOfThree.run .tableOrder (handleAction .zero (Call.exitChat 1 2).request)).1 ↔
      2 ∈ groupOfThree.memberIds 1 :=
  exitChat_effect_iff .tableOrder groupOfThree .zero (Call.exitChat 1 2).request 1 2 (by decide) (by decide)

/-- Alice's group with Bob, which Bob has left. -/
def aliceAlone : Db := Run.exec (Db.serve .tableOrder) .threeUsers [.createChat 2 true [3], .exitChat 1 3]

/-- Carol, who is not in Alice's chat, leaves it: her leaving is announced and
confirmed, and Alice's chat is gone. -/
theorem outsider_deletes_chat :
    (aliceAlone.memberIds 1 = [2] ∧ 1 ∈ aliceAlone.chatIds) ∧
      (let r := aliceAlone.run .tableOrder (handleAction .zero (Call.exitChat 1 4).request)
       r.1.bind responseCode = some 200 ∧ r.2.nextMessageId = aliceAlone.nextMessageId + 1 ∧
         r.2.memberIds 1 = [] ∧ 1 ∉ r.2.chatIds ∧
         ¬ ExitEffect aliceAlone.toTables r.2.toTables 1 4 r.1) := by
  refine ⟨by decide +kernel, by decide +kernel, by decide +kernel, by decide +kernel, by decide +kernel, ?_⟩
  intro h
  have hout : 4 ∉ aliceAlone.memberIds 1 := by decide +kernel
  exact absurd (h.2 hout).refused (by decide +kernel)

end FinalServer
