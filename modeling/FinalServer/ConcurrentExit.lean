/-
Leaving and removing at the same time.

A child process reads whether a user is an admin and how many participants
there are in statements of their own, and acts on the answers later. What
it then still owes the chat is its `Duty`: to delete it, or to promote
somebody. Between statements a chat has an admin, or some process owes it
one of the two (`Cared`). That lasts as long as no `DELETE` of a participant
and no promotion relies on an answer that has gone stale (`Relies`).
-/
import FinalServer.ParticipantLimit
import FinalServer.Pool

namespace FinalServer

open Prog (Only)
open HandleAction (removeEach)

/-- A statement issued, with its answer. -/
abbrev Entry := Σ q : Query, q.Result

/-- The answer of `is_user_admin`. -/
def adminYes : Option (List Int) → Bool
  | some (isAdmin :: _) => isAdmin == 1
  | _ => false

/-- The users of a chat that were looked up as admins, with the answers. -/
def adminAnswers (c : Int) (past : List Entry) : List (Int × Bool) :=
  past.filterMap fun
    | ⟨.selectIsAdmin c' u, r⟩ => if c' = c then some (u, adminYes r) else none
    | _ => none

/-- The counts of participants read of a chat. -/
def countAnswers (c : Int) (past : List Entry) : List (Option Nat) :=
  past.filterMap fun
    | ⟨.countParticipants c', r⟩ => if c' = c then some r else none
    | _ => none

/-- What the next statement relies on still holds.

- A user leaves a chat that is not then deleted: he is not the only one in it
  now, and if he was no admin, he is none now.
- A user removes another: he is still an admin.
- Somebody is promoted: he is still in the chat, or nobody is. -/
def Relies (d : Db) (past : List Entry) : Query → Prop
  | .deleteParticipant c u =>
    (∀ n ∈ countAnswers c past, n ≠ some 1 →
      d.memberIds c ≠ [u] ∧ ∀ r ∈ adminAnswers c past, r = (u, false) → ¬ d.IsAdmin c u) ∧
    ∀ r ∈ adminAnswers c past, r.1 ≠ u → r.2 = true → d.IsAdmin c r.1
  | .promote c u => u ∈ d.memberIds c ∨ d.memberIds c = []
  | _ => True

instance (d : Db) (past : List Entry) (q : Query) : Decidable (Relies d past q) := by
  cases q <;> unfold Relies <;> infer_instance

/-! ## Duties -/

/-- What a process owes a chat: to delete it, or to promote a participant,
whom it may have picked. -/
inductive Duty
  | none
  | delete (chatId : Int)
  | promote (chatId : Int) (picked : Option Int)
  deriving DecidableEq

/-- How the statements of `EXIT_CHAT` and `REMOVE_FROM_CHAT` move the duty. -/
inductive ExitRule (past : List Entry) : Duty → (q : Query) → (q.Result → Duty) → Prop
  | quiet {x : Duty} {q : Query} (hq : q.quiet = true) : ExitRule past x q fun _ => x
  | remove {c r u : Int} (hr : (r, true) ∈ adminAnswers c past) (hne : u ≠ r) :
      ExitRule past .none (.deleteParticipant c u) fun _ => .none
  | leaveLast (c u : Int) : ExitRule past .none (.deleteParticipant c u) fun _ => .delete c
  | leaveAdmin {c u : Int} {n : Option Nat} (hn : n ∈ countAnswers c past) (hne : n ≠ some 1) :
      ExitRule past .none (.deleteParticipant c u) fun _ => .promote c none
  | leaveOther {c u : Int} {n : Option Nat} (hn : n ∈ countAnswers c past) (hne : n ≠ some 1)
      (hu : (u, false) ∈ adminAnswers c past) : ExitRule past .none (.deleteParticipant c u) fun _ => .none
  | deleteChat (c : Int) : ExitRule past (.delete c) (.deleteChat c) fun _ => .none
  | countAdmins (c : Int) :
      ExitRule past (.promote c none) (.countAdmins c) fun n => if n = some 0 then .promote c none else .none
  | pick (c : Int) : ExitRule past (.promote c none) (.selectFirstParticipant c) fun
      | some (u :: _) => .promote c (some u)
      | _ => .none
  | promote (c u : Int) : ExitRule past (.promote c (some u)) (.promote c u) fun _ => .none

/-- A process of the data server moves its duty by the rule from `x` on, and owes nothing in the end. -/
abbrev Obeys {α : Type} (m : Mysql) (past : List Entry) (x : Duty) (p : DbProg α) : Prop :=
  Pool.Follows (Db.exec m) ExitRule (· = .none) past x p

/-! ## The code moves the duty by the rule -/

theorem adminAnswers_append (c : Int) (past past' : List Entry) :
    adminAnswers c (past ++ past') = adminAnswers c past ++ adminAnswers c past' := List.filterMap_append

theorem countAnswers_append (c : Int) (past past' : List Entry) :
    countAnswers c (past ++ past') = countAnswers c past ++ countAnswers c past' := List.filterMap_append

theorem adminAnswers_mono {c : Int} {past past' : List Entry} {r : Int × Bool} (h : past <+: past')
    (hr : r ∈ adminAnswers c past) : r ∈ adminAnswers c past' := by
  obtain ⟨more, rfl⟩ := h
  rw [adminAnswers_append]
  exact List.mem_append_left _ hr

/-- `is_user_admin` is its statement, read by `adminYes`. -/
theorem isUserAdmin_bind {α : Type} (c u : Int) (f : Bool → DbProg α) :
    isUserAdmin c u >>= f = .call (.selectIsAdmin c u) fun r => f (adminYes r) := by
  rw [isUserAdmin, mysqlQuery, Prog.stmt, Prog.call_bind, Prog.call_bind]
  congr 1
  funext r
  cases r with
  | none => rfl
  | some rows => cases rows <;> rfl

variable {m : Mysql} {α : Type} {past : List Entry} {x : Duty}

theorem Obeys.quiet_bind {β : Type} {p : DbProg β} {f : β → DbProg α} (hp : Only (fun q => q.quiet = true) p)
    (hf : ∀ past' a, past <+: past' → Obeys m past' x (f a)) : Obeys m past x (p >>= f) :=
  .of_only hp (fun _ _ hq => .quiet hq) hf

/-- A statement, what the database answers to it, and what follows. -/
theorem Obeys.query_bind {q : Query} {f : q.Result → DbProg α} (answer : Db → q.Result) {next : q.Result → Duty}
    (hans : ∀ d : Db, (d.exec m q).1 = answer d) (hq : ExitRule past x q next)
    (hk : ∀ d, Obeys m (past ++ [⟨q, answer d⟩]) (next (answer d)) (f (answer d))) :
    Obeys m past x (mysqlQuery q >>= f) := by
  refine .call next hq fun d => ?_
  rw [hans]
  exact hk d

theorem exitLast_obeys (c u : Int) : Obeys m past (.delete c) (HandleAction.exitLast c u) :=
  .query_bind (fun _ => true) (fun _ => rfl) (.deleteChat c) fun _ => .ret _ rfl

theorem exitAdmin_obeys (c u : Int) : Obeys m past (.promote c none) (HandleAction.exitAdmin c u) := by
  refine .query_bind (fun d => some (d.admins c).length) (fun _ => rfl) (.countAdmins c) fun d => ?_
  split
  next hzero =>
    refine .bind (J := (· = .none)) ?_ fun past' y r _ hy => ?_
    · refine Obeys.query_bind (fun d => some ((m.limitOne (d.members c)).toList.map (·.userId))) (fun _ => rfl)
        (.pick c) fun d => ?_
      cases m.limitOne (d.members c) with
      | none => exact .ret _ rfl
      | some p => exact .call _ (.promote c p.userId) fun d => .ret _ rfl
    · split <;> exact .ret _ hy
  next hsome => exact .ret _ rfl

/-- The duty of a leaver follows from what he has read. -/
theorem exitChat_obeys (json : Json) : Obeys m past .none (HandleAction.exitChat json) := by
  simp only [HandleAction.exitChat]
  split
  next c u hp =>
    rw [isUserAdmin_bind]
    refine .call _ (.quiet rfl) fun d => ?_
    refine Obeys.query_bind (fun d => some (d.members c).length) (fun _ => rfl) (.quiet rfl) fun d' => ?_
    generalize hpast : past ++ _ ++ _ = read
    have hcount : some (d'.members c).length ∈ countAnswers c read := by
      rw [← hpast, countAnswers_append]
      exact List.mem_append_right _ (by simp [countAnswers])
    have hadmin : (u, adminYes (d.exec m (.selectIsAdmin c u)).1) ∈ adminAnswers c read := by
      rw [← hpast, adminAnswers_append, adminAnswers_append]
      exact List.mem_append_left _ (List.mem_append_right _ (by simp [adminAnswers]))
    generalize adminYes (d.exec m (.selectIsAdmin c u)).1 = isAdmin at hadmin ⊢
    by_cases hlast : some (d'.members c).length = some 1
    · refine .query_bind (fun _ => true) (fun _ => rfl) (.leaveLast c u) fun _ => ?_
      refine Obeys.quiet_bind (sendMessage_quiet _) fun past' _ hpre => ?_
      rw [if_pos hlast]
      exact exitLast_obeys c u
    cases isAdmin with
    | true =>
      refine .query_bind (fun _ => true) (fun _ => rfl) (.leaveAdmin hcount hlast) fun _ => ?_
      refine Obeys.quiet_bind (sendMessage_quiet _) fun past' _ hpre => ?_
      rw [if_neg hlast]
      exact exitAdmin_obeys c u
    | false =>
      refine .query_bind (fun _ => true) (fun _ => rfl) (.leaveOther hcount hlast hadmin) fun _ => ?_
      refine Obeys.quiet_bind (sendMessage_quiet _) fun past' _ hpre => ?_
      rw [if_neg hlast]
      exact .ret _ rfl
  next => exact .ret _ rfl

theorem removeEach_obeys {c r : Int} (hr : (r, true) ∈ adminAnswers c past) (ids : List Json) :
    Obeys m past .none (removeEach c r ids) := by
  induction ids generalizing past with
  | nil => exact .ret _ rfl
  | cons j js ih =>
    simp only [removeEach]
    split
    next hj =>
      refine .query_bind (fun _ => true) (fun _ => rfl) (.remove hr hj.2) fun d => ?_
      rw [if_pos rfl]
      refine Obeys.quiet_bind (sendMessage_quiet _) fun past' _ hpre => ?_
      have hr' := adminAnswers_mono ((List.prefix_append _ _).trans hpre) hr
      exact .bind (ih hr') fun _ _ _ _ hy => .ret _ hy
    next => exact ih hr

theorem removeFromChat_obeys (json : Json) : Obeys m past .none (HandleAction.removeFromChat json) := by
  simp only [HandleAction.removeFromChat]
  split
  next p hp =>
    rw [isUserAdmin_bind]
    refine .call _ (.quiet rfl) fun d => ?_
    split
    · exact .ret _ rfl
    next hadmin =>
    have hr : (p.removedBy, true) ∈ adminAnswers p.chatId
        (past ++ [⟨.selectIsAdmin p.chatId p.removedBy, (d.exec m (.selectIsAdmin p.chatId p.removedBy)).1⟩]) := by
      rw [adminAnswers_append]
      refine List.mem_append_right _ ?_
      simp only [Bool.not_eq_true', Bool.not_eq_false] at hadmin
      simp [adminAnswers, hadmin]
    have hquiet := (isGroupChat_reads p.chatId).mono fun _ hq => hq.looksUp.1
    refine Obeys.quiet_bind hquiet fun past' _ hpre => ?_
    split
    · exact .ret _ rfl
    · exact .bind (removeEach_obeys (adminAnswers_mono hpre hr) _) fun _ _ _ _ hy => .ret _ hy
  next => exact .ret _ rfl

/-! ## What the statements do to a chat -/

section Cared

variable {ι : Type*} [DecidableEq ι] {d d' : Db} {c c' u : Int} {g : ι → Duty} {i : ι}

/-- The chat has an admin, or a process has yet to delete it, or to promote one
of the participants it still has. -/
def Cared (d : Db) (g : ι → Duty) (c : Int) : Prop :=
  d.HasAdmin c ∨ (∃ i, g i = .delete c) ∨ (d.memberIds c ≠ [] ∧ ∃ i p, g i = .promote c p)

/-- Every chat there is. -/
def CaredAll (d : Db) (g : ι → Duty) : Prop := ∀ c ∈ d.chatIds, Cared d g c

/-- The chat a duty is about. -/
def Duty.chat : Duty → Option Int
  | .none => Option.none
  | .delete c | .promote c _ => some c

/-- A process whose duty is about another chat, if any, may change it. -/
theorem Cared.update (h : Cared d g c) (hi : ∀ c', (g i).chat = some c' → c' ≠ c) (x : Duty)
    (hadmin : d.HasAdmin c → d'.HasAdmin c) (hmem : d'.memberIds c = d.memberIds c) :
    Cared d' (Function.update g i x) c := by
  have hne : ∀ {j y}, g j = y → y.chat = some c → Function.update g i x j = y := by
    intro j y hj hy
    rw [Function.update_of_ne]
    · exact hj
    · rintro rfl
      exact hi c (hj ▸ hy) rfl
  rcases h with h | ⟨j, hj⟩ | ⟨hmem', j, p, hj⟩
  · exact .inl (hadmin h)
  · exact .inr (.inl ⟨j, hne hj rfl⟩)
  · exact .inr (.inr ⟨hmem ▸ hmem', j, p, hne hj rfl⟩)

theorem memberIds_ne_nil_of_hasAdmin (h : d.HasAdmin c) : d.memberIds c ≠ [] := by
  obtain ⟨p, hp, hc, -⟩ := h
  exact List.ne_nil_of_mem (Tables.mem_memberIds.mpr ⟨p, hp, hc, rfl⟩)

theorem memberIds_deleteParticipant_self :
    (d.deleteParticipant c u).memberIds c = (d.memberIds c).filter (· ≠ u) := by
  simp only [Tables.memberIds, Tables.members, Tables.deleteParticipant, List.filter_filter, List.filter_map]
  congr 1
  refine List.filter_congr fun p _ => ?_
  by_cases hp : p.chatId = c <;> simp [hp]

theorem memberIds_deleteParticipant_other (hne : c' ≠ c) :
    (d.deleteParticipant c u).memberIds c' = d.memberIds c' := by
  simp only [Tables.memberIds, Tables.members, Tables.deleteParticipant, List.filter_filter]
  congr 1
  refine List.filter_congr fun p _ => ?_
  by_cases hp : p.chatId = c' <;> simp [hp, hne]

theorem memberIds_promote (v : Int) : (d.promote c v).memberIds c' = d.memberIds c' := by
  simp only [Tables.memberIds, Tables.members, Tables.promote, List.filter_map, List.map_map]
  have hkey : ∀ p : ParticipantRow,
      (if p.chatId = c ∧ p.userId = v then { p with isAdmin := 1 } else p).chatId = p.chatId ∧
      (if p.chatId = c ∧ p.userId = v then { p with isAdmin := 1 } else p).userId = p.userId := by
    intro p
    split <;> exact ⟨rfl, rfl⟩
  simp only [Function.comp_def, hkey]

theorem memberIds_deleteChat (hne : c' ≠ c) : (d.deleteChat c).memberIds c' = d.memberIds c' := by
  simp only [Tables.memberIds, Tables.members, Tables.deleteChat, List.filter_filter]
  congr 1
  refine List.filter_congr fun p _ => ?_
  by_cases hp : p.chatId = c' <;> simp [hp, hne]

/-- Somebody stays if the leaver is not the only one. -/
theorem memberIds_deleteParticipant_ne_nil (h : d.memberIds c ≠ []) (hne : d.memberIds c ≠ [u]) :
    (d.deleteParticipant c u).memberIds c ≠ [] := by
  rw [memberIds_deleteParticipant_self, Ne, List.filter_eq_nil_iff]
  intro hall
  have hnodup := d.wf.memberIds_nodup c
  match hm : d.memberIds c, h with
  | [v], _ =>
    rw [hm] at hne hall
    exact hne (by simpa using hall)
  | v :: w :: rest, _ =>
    rw [hm] at hall hnodup
    have hv := hall v (by simp)
    have hw := hall w (by simp)
    simp_all

/-- A `DELETE` of a participant leaves the other chats cared for. -/
theorem CaredAll.deleteParticipant {m : Mysql} (h : CaredAll d g) (hi : g i = .none) (x : Duty)
    (hc : c ∈ d.chatIds → Cared d g c →
      Cared (d.exec m (.deleteParticipant c u)).2 (Function.update g i x) c) :
    CaredAll (d.exec m (.deleteParticipant c u)).2 (Function.update g i x) := by
  intro c' hc'
  by_cases hne : c' = c
  · subst hne
    exact hc hc' (h c' hc')
  · refine (h c' hc').update (by simp [hi, Duty.chat]) x (fun ha => ?_) (memberIds_deleteParticipant_other hne)
    exact ha.deleteParticipant (u := u) (.inl hne)

/-- What is owed by others stays owed. -/
theorem update_other {j : ι} {x y : Duty} (hi : g i = .none) (hj : g j = y) (hy : y ≠ .none) :
    Function.update g i x j = y := by
  rw [Function.update_of_ne]
  · exact hj
  · rintro rfl
    exact hy (hj.symm.trans hi)

/-- A leaver who is not the only one leaves the chat cared for, if its admin
stays or he is going to see to a new one. -/
theorem Cared.leave {x : Duty} (h : Cared d g c) (hi : g i = .none) (hne : d.memberIds c ≠ [u])
    (hx : x = .promote c none ∨ ¬ d.IsAdmin c u) {m : Mysql} :
    Cared (d.exec m (.deleteParticipant c u)).2 (Function.update g i x) c := by
  rcases h with h | ⟨j, hj⟩ | ⟨hmem, j, p, hj⟩
  · rcases hx with rfl | hu
    · refine .inr (.inr ⟨?_, i, none, Function.update_self ..⟩)
      exact memberIds_deleteParticipant_ne_nil (memberIds_ne_nil_of_hasAdmin h) hne
    · exact .inl (h.deleteParticipant (.inr hu))
  · exact .inr (.inl ⟨j, update_other hi hj nofun⟩)
  · exact .inr (.inr ⟨memberIds_deleteParticipant_ne_nil hmem hne, j, p, update_other hi hj nofun⟩)

/-- **One statement.** If it relies on nothing stale, every chat is cared for after it. -/
theorem CaredAll.statement {m : Mysql} {past : List Entry} {q : Query} {next : q.Result → Duty}
    (h : CaredAll d g) (hrule : ExitRule past (g i) q next) (hok : Relies d past q) :
    CaredAll (d.exec m q).2 (Function.update g i (next (d.exec m q).1)) := by
  generalize hi : g i = x at hrule
  cases hrule with
  | quiet hq =>
    have hsame := Tables.exec_same (m := m) (t := d.toTables) hq
    rw [← hi, Function.update_eq_self]
    intro c hc
    rw [Db.exec_tables, hsame.chatIds] at hc
    rcases h c hc with h | h | h
    · exact .inl (hsame.hasAdmin.mpr h)
    · exact .inr (.inl h)
    · exact .inr (.inr ⟨hsame.memberIds.symm ▸ h.1, h.2⟩)
  | remove hr hne =>
    refine h.deleteParticipant hi _ fun _ _ => .inl ?_
    exact ((hok.2 _ hr hne.symm rfl).deleteParticipant (.inr hne.symm)).hasAdmin
  | leaveLast c u => exact h.deleteParticipant hi _ fun _ _ => .inr (.inl ⟨i, Function.update_self ..⟩)
  | leaveAdmin hn hne => exact h.deleteParticipant hi _ fun _ h => h.leave hi (hok.1 _ hn hne).1 (.inl rfl)
  | leaveOther hn hne hu =>
    refine h.deleteParticipant hi _ fun _ h => h.leave hi (hok.1 _ hn hne).1 (.inr ?_)
    exact (hok.1 _ hn hne).2 _ hu rfl
  | deleteChat c =>
    intro c' hc'
    obtain ⟨hc', hne⟩ := Tables.chatIds_deleteChat.mp hc'
    refine (h c' hc').update (by simp [hi, Duty.chat, hne.symm]) _ (fun ha => ?_) (memberIds_deleteChat hne)
    exact ha.deleteChat hne
  | countAdmins c =>
    have hans : ((d.exec m (.countAdmins c)).1 : Option Nat) = some (d.admins c).length := rfl
    simp only [hans]
    split
    · rw [← hi, Function.update_eq_self]
      exact h
    next hsome =>
      intro c' hc'
      by_cases hne : c' = c
      · subst hne
        have hadmin : d.HasAdmin c' := Tables.hasAdmin_iff_admins.mpr fun hnil => hsome (by rw [hnil]; rfl)
        exact .inl hadmin
      · exact (h c' hc').update (by simp [hi, Duty.chat, Ne.symm hne]) _ id rfl
  | pick c =>
    have hans : (d.exec m (.selectFirstParticipant c)).1 =
      some ((m.limitOne (d.members c)).toList.map (·.userId)) := rfl
    simp only [hans]
    intro c' hc'
    by_cases hne : c' = c
    · subst hne
      rcases h c' hc' with h | ⟨j, hj⟩ | ⟨hmem, -⟩
      · exact .inl h
      · exact .inr (.inl ⟨j, by rwa [Function.update_of_ne (by rintro rfl; simp [hi] at hj)]⟩)
      · -- There is still somebody to pick.
        have hrows : d.members c' ≠ [] := fun hnil => hmem (by rw [Tables.memberIds, hnil]; rfl)
        obtain ⟨p, hp⟩ := Option.isSome_iff_exists.mp (m.limitOne_isSome hrows)
        rw [hp]
        exact .inr (.inr ⟨hmem, i, some p.userId, Function.update_self ..⟩)
    · exact (h c' hc').update (by simp [hi, Duty.chat, Ne.symm hne]) _ id rfl
  | promote c u =>
    intro c' hc'
    by_cases hne : c' = c
    · subst hne
      rcases hok with hu | hnil
      · obtain ⟨p, hp, hpc, rfl⟩ := Tables.mem_memberIds.mp hu
        exact .inl (Tables.hasAdmin_promote (by simp [Tables.members, hp, hpc]))
      rcases h c' hc' with h | ⟨j, hj⟩ | ⟨hmem, -⟩
      · exact .inl h.promote
      · exact .inr (.inl ⟨j, by rwa [Function.update_of_ne (by rintro rfl; simp [hi] at hj)]⟩)
      · exact absurd hnil hmem
    · exact (h c' hc').update (by simp [hi, Duty.chat, Ne.symm hne]) _ (fun ha => ha.promote)
        (memberIds_promote u)

end Cared

/-! ## All requests together -/

/-- The request leaves a chat or removes from one. -/
def LeavesOrRemoves (request : Json) : Prop :=
  queryAction request = some .exitChat ∨ queryAction request = some .removeFromChat

theorem handleAction_obeys {m : Mysql} {un : Uninit} {request : Json} (h : LeavesOrRemoves request) :
    Obeys m [] .none (handleAction un request) := by
  have hanswer : ∀ a, queryAction request = some a → a = .exitChat ∨ a = .removeFromChat →
      Obeys m [] .none (handleAction un request) := by
    intro a ha hor
    obtain ⟨item, hitem, hcode⟩ := Option.bind_eq_some_iff.mp ha
    simp only [handleAction, hitem, hcode]
    rcases hor with rfl | rfl
    · exact .bind (exitChat_obeys request) fun _ _ _ _ hy => .ret _ hy
    · exact .bind (removeFromChat_obeys request) fun _ _ _ _ hy => .ret _ hy
  rcases h with h | h
  · exact hanswer _ h (.inl rfl)
  · exact hanswer _ h (.inr rfl)

/-- The child processes of the requests, before their first statements. -/
def childProcesses {ι : Type*} (d : Db) (un : ι → Uninit) (requests : ι → Json) :
    Pool ι Db Query Query.Result (Option Json) :=
  .start d fun i => handleAction (un i) (requests i)

/-- **Concurrent leaving and removing.** Under every schedule whose statements
rely on nothing stale, every chat has an admin again once all requests are done. -/
theorem concurrent_adminOK {ι : Type*} [DecidableEq ι] (m : Mysql) (d : Db) (un : ι → Uninit)
    (requests : ι → Json) (hreq : ∀ i, LeavesOrRemoves (requests i)) (hd : d.AdminOK) (schedule : List ι)
    (hok : Run.Along (Pool.step (Db.exec m)) (Pool.Allows Relies) (childProcesses d un requests) schedule)
    (hdone : ∀ i, ((Run.exec (Pool.step (Db.exec m)) (childProcesses d un requests) schedule).process i).done) :
    (Run.exec (Pool.step (Db.exec m)) (childProcesses d un requests) schedule).store.AdminOK := by
  have hstart : CaredAll d fun _ : ι => Duty.none := fun c hc => .inl (hd c hc)
  have hobeys : ∀ i, Obeys m [] .none (handleAction (un i) (requests i)) := fun i => handleAction_obeys (hreq i)
  obtain ⟨g, hg, hcared⟩ := Pool.Along.follows (I := CaredAll) hok hobeys hstart
    fun d g i past q next h hrule hok => h.statement hrule hok
  intro c hc
  have hnone : ∀ i, g i = .none := fun i => (hg i).last_of_done (hdone i)
  rcases hcared c hc with h | ⟨i, hi⟩ | ⟨-, i, p, hi⟩
  · exact h
  · simp [hnone i] at hi
  · simp [hnone i] at hi

/-! ## Alice and Bob leave their chat -/

instance {t : Tables} {c : Int} : Decidable (t.HasAdmin c) := inferInstanceAs (Decidable (∃ p ∈ _, _))

instance {t : Tables} : Decidable t.AdminOK := inferInstanceAs (Decidable (∀ c ∈ _, _))

/-- The chat of Alice, its admin, and Bob. -/
def twoInChat : Db := Run.exec (Db.serve .tableOrder) .threeUsers [.createChat 2 false [3]]

/-- Alice's request and Bob's. -/
def bothExit (bob : Bool) : Json := (Call.exitChat 1 (if bob then 3 else 2)).request

/-- Alice first, then Bob. -/
def oneByOne : List Bool := List.replicate 8 false ++ List.replicate 6 true

theorem concurrent_adminOK_oneByOne :
    (Run.exec (Pool.step (Db.exec .tableOrder)) (childProcesses twoInChat (fun _ => .zero) bothExit)
      oneByOne).store.AdminOK :=
  concurrent_adminOK .tableOrder twoInChat (fun _ => .zero) bothExit (fun _ => .inl rfl) (by decide +kernel) oneByOne
    (by decide +kernel) (by decide +kernel)

/-- Both read that there are two in the chat before either leaves. -/
def bothCountTwo : List Bool :=
  [false, false, true, true, false, true, false, false, false, false, true, true]

/-- The chat stays behind with nobody in it. -/
theorem chat_left_empty :
    ¬ ∀ (ι : Type) (_ : DecidableEq ι) (m : Mysql) (d : Db) (un : ι → Uninit) (requests : ι → Json)
      (schedule : List ι), (∀ i, LeavesOrRemoves (requests i)) → d.AdminOK →
      (∀ i, ((Run.exec (Pool.step (Db.exec m)) (childProcesses d un requests) schedule).process i).done) →
      (Run.exec (Pool.step (Db.exec m)) (childProcesses d un requests) schedule).store.AdminOK := by
  intro h
  have hok := h Bool inferInstance .tableOrder twoInChat (fun _ => .zero) bothExit bothCountTwo (fun _ => .inl rfl)
    (by decide +kernel) (by decide +kernel)
  exact absurd hok (by decide +kernel)

end FinalServer
