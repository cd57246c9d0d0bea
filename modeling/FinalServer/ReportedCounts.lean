/-
The numbers that replies report.

`CREATE_CHAT` and `ADD_TO_GROUP_CHAT` count statements that insert a row or
fail; `REMOVE_FROM_CHAT` counts deletes, which succeed whether they find a row
or not. So the first two always report what they did (`Counted`), and the
third when each counted id is a participant's and counted once (`RemovesEach`).
-/
import FinalServer.RemovalEffect

namespace FinalServer

/-- How many elements of a list are in another: as many as the other has,
exactly when that one repeats nothing and all of it is in the list. -/
theorem length_filter_mem_iff {α : Type*} [DecidableEq α] {l l' : List α} (hl : l.Nodup) :
    (l.filter (· ∈ l')).length = l'.length ↔ l'.Nodup ∧ ∀ a ∈ l', a ∈ l := by
  have hn : (l.filter (· ∈ l')).Nodup := hl.filter _
  constructor
  · intro hlen
    have hsub : (l.filter (· ∈ l')).Subperm l' :=
      List.subperm_of_subset hn fun a ha => by simpa using (List.mem_filter.mp ha).2
    have hperm := hsub.perm_of_length_le hlen.ge
    exact ⟨hperm.nodup_iff.mp hn, fun a ha => (List.mem_filter.mp (hperm.mem_iff.mpr ha)).1⟩
  · rintro ⟨hn', hmem⟩
    refine ((List.perm_ext_iff_of_nodup hn hn').mpr fun a => ?_).length_eq
    simp only [List.mem_filter, decide_eq_true_eq, and_iff_right_iff_imp]
    exact hmem a

namespace Tables

variable {t t' : Tables}

/-- The rows of `chat_participants` that came in. -/
def rowsInserted (t t' : Tables) : List ParticipantRow := t'.participants.filter (· ∉ t.participants)

/-- The rows of `chat_participants` that went. -/
def rowsDeleted (t t' : Tables) : List ParticipantRow := t.participants.filter (· ∉ t'.participants)

theorem Wf.participants_nodup (h : t.Wf) : t.participants.Nodup :=
  h.participants_unique.imp fun hne he => hne ⟨congrArg _ he, congrArg _ he⟩

theorem rowsInserted_of_append {rows : List ParticipantRow} (h : t'.Wf)
    (hrows : t'.participants = t.participants ++ rows) : t.rowsInserted t' = rows := by
  have hn := h.participants_nodup
  rw [hrows] at hn
  have hnew : ∀ p ∈ rows, p ∉ t.participants := fun p hp hp' => (List.nodup_append.mp hn).2.2 p hp' p hp rfl
  have hold : t.participants.filter (· ∉ t.participants) = [] :=
    List.filter_eq_nil_iff.mpr fun p hp => by simp [hp]
  rw [rowsInserted, hrows, List.filter_append, hold, List.nil_append]
  exact List.filter_eq_self.mpr fun p hp => by simpa using hnew p hp

end Tables

open HandleAction (addEach removeEach copyIds reply responseCode responseText responseCode_reply responseText_reply)

variable {m : Mysql} {d : Db}

/-- The number a 200 reply of one of the three actions reports is the number
of rows it inserted, or deleted. -/
def Counted (t t' : Tables) (query replyJson : Json) : Prop :=
  responseCode replyJson = some 200 →
    match queryAction query with
    | some .createChat => ∀ p, createChatParams query = some p →
      responseText replyJson = some ("Chat " ++ p.chatName ++ " was succesfully created with " ++
        CString.ofInt (t.rowsInserted t').length ++ " users")
    | some .addToGroupChat => ∀ p, addToGroupChatParams query = some p →
      responseText replyJson = some ("Chat " ++ CString.ofInt p.chatId ++ " has succesfully added " ++
        CString.ofInt (t.rowsInserted t').length ++ " users")
    | some .removeFromChat => ∀ p, removeFromChatParams query = some p →
      responseText replyJson = some ("Removed " ++ CString.ofInt (t.rowsDeleted t').length ++ " out of " ++
        CString.ofInt p.participantIds.length ++ " participants from chat " ++ CString.ofInt p.chatId)
    | _ => True

/-- A removal that is allowed lists, as numbers other than the remover,
participants of the chat only and each once. -/
def RemovesEach (t : Tables) (query : Json) : Prop :=
  queryAction query = some .removeFromChat → ∀ p, removeFromChatParams query = some p →
    t.IsAdmin p.chatId p.removedBy → t.IsGroup p.chatId →
      (removals p.removedBy p.participantIds).Nodup ∧
        ∀ u ∈ removals p.removedBy p.participantIds, u ∈ t.memberIds p.chatId

/-! ## Adding -/

/-- Every success of the loop is a row more, at the end. -/
theorem addEach_rows (c by_ : Int) (f : Int → Int) (us : List Int) :
    ∃ rows, (d.run m (addEach c by_ f us)).2.participants = d.participants ++ rows ∧
      rows.length = (d.run m (addEach c by_ f us)).1 := by
  induction us generalizing d with
  | nil => exact ⟨[], by simp [addEach], rfl⟩
  | cons u us ih =>
    obtain ⟨d', hsame, -, hrun⟩ := run_addEach_cons (m := m) (d := d) c by_ u f us
    obtain ⟨rows, hrows, hlen⟩ := ih (d := d')
    rw [hrun]
    have hpart : d'.participants = (d.toTables.insertParticipant c u (f u)).2.participants := hsame.participants
    have hans : (d.exec m (.insertParticipant c u (f u))).1 = (d.toTables.insertParticipant c u (f u)).1 := rfl
    rw [hans]
    rw [hpart, Tables.insertParticipant] at hrows
    simp only [Tables.insertParticipant]
    split at hrows
    next hok =>
      rw [if_pos hok]
      exact ⟨⟨c, u, f u⟩ :: rows, by rw [hrows, List.append_assoc]; rfl, by rw [List.length_cons, hlen]; rfl⟩
    next hno =>
      rw [if_neg hno]
      exact ⟨rows, hrows, hlen⟩

/-- What the loop reports is what it inserted. -/
theorem addEach_counted {t : Tables} (c by_ : Int) (f : Int → Int) (us : List Int)
    (h : d.participants = t.participants) :
    (t.rowsInserted (d.run m (addEach c by_ f us)).2.toTables).length = (d.run m (addEach c by_ f us)).1 := by
  obtain ⟨rows, hrows, hlen⟩ := addEach_rows (m := m) (d := d) c by_ f us
  rw [Tables.rowsInserted_of_append (Db.wf _) (h ▸ hrows), hlen]

/-! ## Removing -/

/-- Every id that is not passed over counts. -/
theorem removeEach_count (c r : Int) (ids : List Json) :
    (d.run m (removeEach c r ids)).1 = (removals r ids).length := by
  induction ids generalizing d with
  | nil => rfl
  | cons j js ih =>
    by_cases hj : j.isNumber ∧ j.valueint ≠ r
    · rw [run_removeEach_cons c js hj, removals_cons hj, List.length_cons]
      exact congrArg (· + 1) ih
    · rw [removeEach_skip c js hj, removals_skip hj, ih]

/-- The rows that went are those of the listed users that were in the chat. -/
theorem removeEach_rowsDeleted (c r : Int) (ids : List Json) :
    (d.rowsDeleted (d.run m (removeEach c r ids)).2.toTables).length =
      ((d.memberIds c).filter (· ∈ removals r ids)).length := by
  have hrows : d.rowsDeleted (d.run m (removeEach c r ids)).2.toTables =
      (d.members c).filter fun p => p.userId ∈ removals r ids := by
    rw [Tables.rowsDeleted, (removeEach_effect c r ids).1, Tables.members, List.filter_filter]
    refine List.filter_congr fun p hp => ?_
    simp [List.mem_filter, hp, Bool.and_comm]
  rw [hrows, Tables.memberIds, List.filter_map, List.length_map]
  rfl

/-! ## The replies -/

variable {un : Uninit} {query : Json}

theorem createChat_counted (hq : queryAction query = some .createChat) :
    Counted d.toTables (d.run m (HandleAction.createChat un query)).2.toTables query
      (d.run m (HandleAction.createChat un query)).1 := by
  intro hok
  rw [hq]
  intro p hp
  rcases createChat_cases (m := m) (d := d) un query with
    ⟨-, hcode, -⟩ | ⟨p', c, r, more, d', hp', -, -, hpart, -, -, -, hrun⟩
  · rw [hcode (by simp [hp])] at hok
    cases hok
  · obtain rfl : p' = p := Option.some.inj (hp'.symm.trans hp)
    rw [hrun, responseText_reply, addEach_counted _ _ _ _ hpart]

theorem addToGroupChat_counted (hq : queryAction query = some .addToGroupChat) :
    Counted d.toTables (d.run m (HandleAction.addToGroupChat un query)).2.toTables query
      (d.run m (HandleAction.addToGroupChat un query)).1 := by
  intro hok
  rw [hq]
  intro p hp
  rw [run_addToGroupChat un hp] at hok ⊢
  simp only at hok ⊢
  split at hok
  next hpos => rw [if_pos hpos, responseText_reply, addEach_counted _ _ _ _ rfl]
  next hzero =>
    rw [responseCode_reply _ (by decide) (by decide)] at hok
    cases hok

/-- The text of a removal tells the number of deletes from no other. -/
theorem removedText_inj {k n total : Nat} {c : Int}
    (h : "Removed " ++ CString.ofInt k ++ " out of " ++ CString.ofInt total ++ " participants from chat " ++
        CString.ofInt c =
      "Removed " ++ CString.ofInt n ++ " out of " ++ CString.ofInt total ++ " participants from chat " ++
        CString.ofInt c) : k = n := by
  refine Int.ofNat_inj.mp (CString.ofInt_inj.mp ?_)
  simpa [CString.ext_iff] using h

theorem removeFromChat_counted_iff (hq : queryAction query = some .removeFromChat) :
    Counted d.toTables (d.run m (HandleAction.removeFromChat query)).2.toTables query
        (d.run m (HandleAction.removeFromChat query)).1 ↔ RemovesEach d.toTables query := by
  simp only [Counted, RemovesEach, hq, true_implies]
  cases hp : removeFromChatParams query with
  | none => simp
  | some p =>
    simp only [Option.some.injEq, forall_eq']
    rw [run_removeFromChat hp]
    by_cases hadmin : d.IsAdmin p.chatId p.removedBy
    swap
    · rw [if_pos hadmin, responseCode_reply _ (by decide) (by decide)]
      simp [hadmin]
    by_cases hgroup : d.IsGroup p.chatId
    swap
    · rw [if_neg (not_not.mpr hadmin), if_pos hgroup, responseCode_reply _ (by decide) (by decide)]
      simp [hgroup]
    rw [if_neg (not_not.mpr hadmin), if_neg (not_not.mpr hgroup)]
    simp only [hadmin, hgroup, true_implies]
    rw [responseCode_reply _ (by decide) (by decide), responseText_reply, removeEach_count, removeEach_rowsDeleted,
      ← length_filter_mem_iff (d.wf.memberIds_nodup p.chatId)]
    constructor
    · exact fun h => (removedText_inj (Option.some.inj (h rfl))).symm
    · intro h _
      rw [h]

/-- **When the reported numbers are right.** Whatever the lists and the
tables, exactly when an allowed removal lists participants only, each once. -/
theorem counted_iff (m : Mysql) (d : Db) (un : Uninit) (query : Json) :
    (∀ replyJson, (d.run m (handleAction un query)).1 = some replyJson →
      Counted d.toTables (d.run m (handleAction un query)).2.toTables query replyJson) ↔
      RemovesEach d.toTables query := by
  cases hq : queryAction query with
  | none => simp [Counted, RemovesEach, hq]
  | some a =>
    rw [Db.run_handleAction hq]
    simp only [Option.some.injEq, forall_eq']
    cases a with
    | createChat => exact iff_of_true (createChat_counted hq) (by simp [RemovesEach, hq])
    | addToGroupChat => exact iff_of_true (addToGroupChat_counted hq) (by simp [RemovesEach, hq])
    | removeFromChat => exact removeFromChat_counted_iff hq
    | _ => simp [Counted, RemovesEach, hq]

/-- Alice removes Bob, Bob again and somebody unknown, and is told that she removed three. -/
theorem removal_overcounted :
    (let r := groupOfThree.run .tableOrder (handleAction .zero Call.removeListed.request)
     r.1.bind responseText = some "Removed 3 out of 5 participants from chat 1" ∧
       groupOfThree.rowsDeleted r.2.toTables = [⟨1, 3, 0⟩]) ∧
      ¬ ∀ replyJson,
        (groupOfThree.run .tableOrder (handleAction .zero Call.removeListed.request)).1 = some replyJson →
          Counted groupOfThree.toTables
            (groupOfThree.run .tableOrder (handleAction .zero Call.removeListed.request)).2.toTables
            Call.removeListed.request replyJson := by
  refine ⟨⟨by decide +kernel, by decide +kernel⟩, fun h => ?_⟩
  set r := groupOfThree.run .tableOrder (handleAction .zero Call.removeListed.request) with hr
  obtain ⟨replyJson, hsome⟩ : ∃ replyJson, r.1 = some replyJson :=
    Option.isSome_iff_exists.mp (by rw [hr]; decide +kernel)
  have hcode : r.1.bind responseCode = some 200 := by rw [hr]; decide +kernel
  have htext : r.1.bind responseText = some "Removed 3 out of 5 participants from chat 1" := by
    rw [hr]; decide +kernel
  have hrows : (groupOfThree.rowsDeleted r.2.toTables).length = 1 := by rw [hr]; decide +kernel
  rw [hsome, Option.bind_some] at hcode htext
  have hq : queryAction Call.removeListed.request = some .removeFromChat := by decide
  have hcounted := h replyJson hsome hcode
  rw [hq] at hcounted
  have hone := hcounted ⟨1, 2, [.createNumber 3, .createNumber 3, .createNumber 9, .createNumber 2, .string "4"]⟩
    rfl
  rw [hrows, htext] at hone
  exact absurd hone (by decide)

end FinalServer
