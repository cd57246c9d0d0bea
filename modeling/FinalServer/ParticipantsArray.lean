/-
The local `participants` of `CREATE_CHAT` and `ADD_TO_GROUP_CHAT`
(`data_server.c`).

Both copy the list of the request into an array of `MAX_PARTICIPANTS` entries
and then add one entry after the other. Here every read and write is written
down; what comes out is `HandleAction`'s (`createChatArray_run`,
`addToGroupChatArray_run`). The length of a new chat's list is checked before,
and keeps the accesses in bounds; the length of a list that is added to a
chat is not.
-/
import FinalServer.JsonPrint
import FinalServer.LocalArray
import FinalServer.ParticipantLimit

namespace FinalServer

/-- A branch of the data server with its `participants`. -/
abbrev ParticipantsProg (α : Type) := ArrayProg Query Query.Result Int α

def readParticipant (i : Nat) : ParticipantsProg Int := Prog.stmt (ArrayOp.read i)

def writeParticipant (i : Nat) (userId : Int) : ParticipantsProg PUnit := Prog.stmt (ArrayOp.write i userId)

/-- The statements of a manager's function. -/
def manager {α : Type} (p : DbProg α) : ParticipantsProg α := p.lift

namespace HandleAction

/-- The loop that copies the list, from element `i` on for so many turns.
Element `i` goes to entry `i + offset`. `cJSON_GetArrayItem` gives `NULL` past
the end, which is no number. -/
def copyLoop (participantIds : List Json) (offset : Nat) : Nat → Nat → ParticipantsProg PUnit
  | 0, _ => return ⟨⟩
  | turns + 1, i => do
    match participantIds[i]? with
    | some id =>
      if id.isNumber then
        writeParticipant (i + offset) id.valueint
        copyLoop participantIds offset turns (i + 1)
      else copyLoop participantIds offset turns (i + 1)
    | none => copyLoop participantIds offset turns (i + 1)

/-- The loop of `add_to_chat` calls, from entry `i` on for so many turns. The
log prints the entry, added or not. -/
def addLoop (chatId : Int) (addedBy : ParticipantsProg Int) (isAdmin : Nat → ParticipantsProg Int) :
    Nat → Nat → ParticipantsProg Nat
  | 0, _ => return 0
  | turns + 1, i => do
    let userId ← readParticipant i
    let admin ← isAdmin i
    if ← manager (addToChat chatId userId admin) then
      let _ ← readParticipant i
      let adder ← addedBy
      let added ← readParticipant i
      let _ ← manager (FinalServer.sendMessage (systemMessage chatId
        ("User " ++ CString.ofInt adder ++ " has added user " ++ CString.ofInt added)))
      let successCount ← addLoop chatId addedBy isAdmin turns (i + 1)
      return successCount + 1
    else
      let _ ← readParticipant i
      addLoop chatId addedBy isAdmin turns (i + 1)

/-- `participants[i] == chat.created_by`. -/
def isCreator (createdBy : Int) (i : Nat) : ParticipantsProg Int := do
  let userId ← readParticipant i
  return if userId = createdBy then 1 else 0

/-- `CREATE_CHAT`: the creator is entry 0, and both loops go one further than the list. -/
def createChatArray (un : Uninit) (json : Json) : ParticipantsProg Json := do
  match createChatParams json with
  | some p =>
    if p.countValid then
      match ← manager (FinalServer.createChat p.isGroup p.chatName) with
      | some chatId =>
        writeParticipant 0 p.createdBy
        let creator ← readParticipant 0
        let _ ← manager (FinalServer.sendMessage (systemMessage chatId
          ("User " ++ CString.ofInt creator ++ " has created the chat " ++ p.chatName)))
        let turns := p.participantIds.length + 1
        copyLoop p.participantIds 1 turns 0
        let successCount ← addLoop chatId (readParticipant 0) (isCreator p.createdBy) turns 0
        return reply []
          ("Chat " ++ p.chatName ++ " was succesfully created with " ++ CString.ofInt successCount ++
            " users") 200
      | none => return reply [] "Chat couldn't be created unsuccesful" 400
    else
      return reply []
        ("Number of participants invalid for a chat of type " ++
          (if p.isGroup ≠ 0 then "group" else "direct message" : String)) 400
  | none => return Uninit.reply un

def addToGroupChatArray (un : Uninit) (json : Json) : ParticipantsProg Json := do
  match addToGroupChatParams json with
  | some p =>
    let turns := p.participantIds.length
    copyLoop p.participantIds 0 turns 0
    let successCount ← addLoop p.chatId (return p.addedBy) (fun _ => return 0) turns 0
    if 0 < successCount then
      return reply []
        ("Chat " ++ CString.ofInt p.chatId ++ " has succesfully added " ++ CString.ofInt successCount ++
          " users") 200
    else return reply [] ("Unable to add users to chat " ++ CString.ofInt p.chatId) 400
  | none => return Uninit.reply un

/-! ## What comes out is the same -/

section Run

variable {σ : Type*} {exec : (q : Query) → σ → q.Result × σ} {a : Nat → Int} {s : σ} {participantIds : List Json}

@[simp] theorem readParticipant_run (i : Nat) : (readParticipant i).onArray exec (a, s) = (a i, a, s) := rfl

@[simp] theorem writeParticipant_run (i : Nat) (u : Int) :
    (writeParticipant i u).onArray exec (a, s) = (⟨⟩, Function.update a i u, s) := rfl

@[simp] theorem manager_run {α : Type} (p : DbProg α) :
    (manager p).onArray exec (a, s) = ((p.run exec s).1, a, (p.run exec s).2) := Prog.onArray_lift p

/-- Entry `j` once the list is copied in from entry `offset` on. -/
def copiedEntry (participantIds : List Json) (offset : Nat) (participants : Nat → Int) (j : Nat) : Int :=
  match participantIds[j - offset]? with
  | some id => if id.isNumber then id.valueint else participants j
  | none => participants j

/-- A turn sets its entry, or leaves it as it was. -/
theorem copyLoop_turn (exec : (q : Query) → σ → q.Result × σ) (a : Nat → Int) (s : σ)
    (participantIds : List Json) (offset turns i : Nat) :
    ∃ a', (copyLoop participantIds offset (turns + 1) i).onArray exec (a, s) =
        (copyLoop participantIds offset turns (i + 1)).onArray exec (a', s) ∧
      ∀ j, a' j = if j = i + offset then copiedEntry participantIds offset a j else a j := by
  have hsame : ∀ found, participantIds[i]? = found → (∀ id, found = some id → id.isNumber = false) →
      ∀ j, a j = if j = i + offset then copiedEntry participantIds offset a j else a j := by
    intro found hid hno j
    split
    next hj =>
      subst hj
      rw [copiedEntry, Nat.add_sub_cancel, hid]
      cases found with
      | none => rfl
      | some id => simp [hno id rfl]
    next => rfl
  rw [copyLoop]
  cases hid : participantIds[i]? with
  | none => exact ⟨a, rfl, hsame _ hid nofun⟩
  | some id =>
    by_cases hn : id.isNumber = true
    · refine ⟨Function.update a (i + offset) id.valueint, ?_, fun j => ?_⟩
      · simp only [hn, if_true, Prog.onArray_bind, writeParticipant_run]
      · split
        next hj =>
          subst hj
          simp [copiedEntry, hid, hn]
        next hj => rw [Function.update_of_ne hj]
    · refine ⟨a, by simp only [hn, Bool.false_eq_true, if_false], hsame _ hid fun id' h => ?_⟩
      obtain rfl := Option.some.inj h
      simpa using hn

theorem copyLoop_run (exec : (q : Query) → σ → q.Result × σ) (a : Nat → Int) (s : σ)
    (participantIds : List Json) (offset turns i : Nat) :
    ∃ a', (copyLoop participantIds offset turns i).onArray exec (a, s) = (⟨⟩, a', s) ∧
      ∀ j, a' j =
        if i + offset ≤ j ∧ j < i + turns + offset then copiedEntry participantIds offset a j else a j := by
  induction turns generalizing a i with
  | zero => exact ⟨a, rfl, fun j => by rw [if_neg (by omega)]⟩
  | succ turns ih =>
    obtain ⟨a₁, hturn, ha₁⟩ := copyLoop_turn exec a s participantIds offset turns i
    obtain ⟨a', hrun, ha'⟩ := ih a₁ (i + 1)
    refine ⟨a', hturn.trans hrun, fun j => ?_⟩
    rw [ha' j]
    by_cases hj : j = i + offset
    · rw [if_neg (by omega), ha₁, if_pos hj, if_pos (by omega)]
    · have hsame : a₁ j = a j := by rw [ha₁, if_neg hj]
      have hentry : copiedEntry participantIds offset a₁ j = copiedEntry participantIds offset a j := by
        simp only [copiedEntry, hsame]
      rw [hsame, hentry]
      exact if_congr (by omega) rfl rfl

/-- The entries after the copy, as `copyIds` lists them. -/
theorem copyIds_eq_map (participants : Nat → Int) (offset : Nat) (ids : List Json) :
    copyIds participants offset ids =
      (List.range' offset ids.length).map (copiedEntry ids offset participants) := by
  induction ids generalizing offset with
  | nil => rfl
  | cons id ids ih =>
    rw [copyIds, ih, List.length_cons, List.range'_succ, List.map_cons]
    congr 1
    · simp [copiedEntry]
    · refine List.map_congr_left fun j hj => ?_
      obtain ⟨hlo, -⟩ := List.mem_range'_1.mp hj
      have hsub : j - offset = (j - (offset + 1)) + 1 := by omega
      rw [copiedEntry, copiedEntry, hsub, List.getElem?_cons_succ]

/-- The loop over the entries is the loop over their list. -/
theorem addLoop_run {c b : Int} {f : Int → Int} {addedBy : ParticipantsProg Int} {isAdmin : Nat → ParticipantsProg Int}
    (hby : ∀ s, addedBy.onArray exec (a, s) = (b, a, s))
    (hadmin : ∀ i s, (isAdmin i).onArray exec (a, s) = (f (a i), a, s)) (turns i : Nat) :
    (addLoop c addedBy isAdmin turns i).onArray exec (a, s) =
      let r := (addEach c b f ((List.range' i turns).map a)).run exec s
      (r.1, a, r.2) := by
  induction turns generalizing i s with
  | zero => rfl
  | succ turns ih =>
    rw [List.range'_succ, List.map_cons, addLoop, addEach]
    simp only [Prog.onArray_bind, Prog.run_bind, readParticipant_run, hadmin, manager_run]
    split
    · simp only [Prog.onArray_bind, Prog.run_bind, readParticipant_run, hby, manager_run, ih]
      rfl
    · simp only [Prog.onArray_bind, readParticipant_run, ih]

/-- `CREATE_CHAT` with its array is `CREATE_CHAT`, over every store. -/
theorem createChatArray_run (un : Uninit) (json : Json) :
    let r := (createChatArray un json).onArray exec (un.participants, s)
    (r.1, r.2.2) = (createChat un json).run exec s := by
  cases hp : createChatParams json with
  | none =>
    simp only [createChatArray, createChat, hp]
    rfl
  | some p =>
    simp only [createChatArray, createChat, hp]
    by_cases hvalid : p.countValid = true
    swap
    · simp only [hvalid]
      rfl
    simp only [hvalid, if_true, Prog.onArray_bind, manager_run, Prog.run_bind]
    generalize (FinalServer.createChat p.isGroup p.chatName).run exec s = made
    obtain ⟨answer, s₁⟩ := made
    cases answer with
    | none => rfl
    | some c =>
      simp only [Prog.onArray_bind, Prog.run_bind, writeParticipant_run, readParticipant_run, manager_run,
        Function.update_self]
      generalize ((FinalServer.sendMessage (systemMessage c ("User " ++ CString.ofInt p.createdBy ++
        " has created the chat " ++ p.chatName))).run exec s₁).2 = s₂
      obtain ⟨a', hcopy, ha'⟩ := copyLoop_run exec
        (Function.update un.participants 0 p.createdBy) s₂ p.participantIds 1 (p.participantIds.length + 1) 0
      have hcreator : a' 0 = p.createdBy := by rw [ha', if_neg (by omega), Function.update_self]
      have hentries : (List.range' 0 (p.participantIds.length + 1)).map a' =
          p.createdBy :: copyIds un.participants 1 p.participantIds := by
        rw [List.range'_succ, List.map_cons, hcreator, copyIds_eq_map]
        congr 1
        refine List.map_congr_left fun j hj => ?_
        obtain ⟨hlo, hlt⟩ := List.mem_range'_1.mp hj
        rw [ha', if_pos (by omega)]
        simp only [copiedEntry, Function.update_of_ne (show j ≠ 0 by omega)]
      rw [hcopy]
      dsimp only
      rw [addLoop_run (b := p.createdBy) (f := fun id => if id = p.createdBy then 1 else 0)
        (fun s => by rw [readParticipant_run, hcreator]) fun i s => rfl, hentries]
      rfl

theorem addToGroupChatArray_run (un : Uninit) (json : Json) :
    let r := (addToGroupChatArray un json).onArray exec (un.participants, s)
    (r.1, r.2.2) = (addToGroupChat un json).run exec s := by
  cases hp : addToGroupChatParams json with
  | none =>
    simp only [addToGroupChatArray, addToGroupChat, hp]
    rfl
  | some p =>
    obtain ⟨a', hcopy, ha'⟩ := copyLoop_run exec un.participants s p.participantIds 0
      p.participantIds.length 0
    have hentries : (List.range' 0 p.participantIds.length).map a' = copyIds un.participants 0 p.participantIds := by
      rw [copyIds_eq_map]
      refine List.map_congr_left fun j hj => ?_
      obtain ⟨-, hlt⟩ := List.mem_range'_1.mp hj
      rw [ha', if_pos (by omega)]
    simp only [addToGroupChatArray, addToGroupChat, hp, Prog.onArray_bind, Prog.run_bind, hcopy]
    rw [addLoop_run (b := p.addedBy) (f := fun _ => 0) (fun _ => rfl) fun _ _ => rfl, hentries]
    dsimp only
    split <;> rfl

end Run

/-! ## The indices -/

section Below

open Prog (Only)

variable {n : Nat}

theorem readParticipant_below {i : Nat} (h : i < n) : Only (ArrayOp.Below n) (readParticipant i) :=
  .call (fun j hj => by cases hj; exact h) .ret

theorem writeParticipant_below {i : Nat} (u : Int) (h : i < n) : Only (ArrayOp.Below n) (writeParticipant i u) :=
  .call (fun j hj => by cases hj; exact h) .ret

theorem manager_below {α : Type} (p : DbProg α) : Only (ArrayOp.Below n) (manager p) := Prog.only_lift p

/-- Past the end of the list nothing is written, so the list bounds the loop. -/
theorem copyLoop_below {participantIds : List Json} {offset : Nat} (h : participantIds.length + offset ≤ n)
    (turns i : Nat) : Only (ArrayOp.Below n) (copyLoop participantIds offset turns i) := by
  induction turns generalizing i with
  | zero => exact .ret _
  | succ turns ih =>
    rw [copyLoop]
    cases hid : participantIds[i]? with
    | none => exact ih (i + 1)
    | some id =>
      obtain ⟨hi, -⟩ := List.getElem?_eq_some_iff.mp hid
      dsimp only
      split
      · exact .bind (writeParticipant_below _ (by omega)) fun _ => ih (i + 1)
      · exact ih (i + 1)

/-- The number of turns bounds the loop. -/
theorem addLoop_below {c : Int} {addedBy : ParticipantsProg Int} {isAdmin : Nat → ParticipantsProg Int}
    (hby : Only (ArrayOp.Below n) addedBy) (hadmin : ∀ i, i < n → Only (ArrayOp.Below n) (isAdmin i))
    (turns i : Nat) (h : i + turns ≤ n) : Only (ArrayOp.Below n) (addLoop c addedBy isAdmin turns i) := by
  induction turns generalizing i with
  | zero => exact .ret _
  | succ turns ih =>
    have hread : Only (ArrayOp.Below n) (readParticipant i) := readParticipant_below (by omega)
    have hrest := ih (i + 1) (by omega)
    refine .bind hread fun userId => .bind (hadmin i (by omega)) fun admin => .bind (manager_below _) fun ok => ?_
    split
    · exact .bind hread fun _ => .bind hby fun _ => .bind hread fun _ => .bind (manager_below _) fun _ =>
        .bind hrest fun _ => .ret _
    · exact .bind hread fun _ => hrest

/-- The check of the list leaves room for the creator. -/
theorem createChatArray_below (un : Uninit) (json : Json) :
    Only (ArrayOp.Below MAX_PARTICIPANTS) (createChatArray un json) := by
  simp only [createChatArray]
  split
  next p hp =>
    split
    next hvalid =>
      have hlimit := CreateChatParams.countValid_limit hvalid
      have hroom : p.participantIds.length + 1 ≤ MAX_PARTICIPANTS := by
        refine hlimit.trans ?_
        unfold participantLimit
        split <;> decide
      have hzero : (0 : Nat) < MAX_PARTICIPANTS := by decide
      refine .bind (manager_below _) fun made => ?_
      split
      · refine .bind (writeParticipant_below _ hzero) fun _ => .bind (readParticipant_below hzero) fun _ =>
          .bind (manager_below _) fun _ => .bind (copyLoop_below hroom _ _) fun _ => .bind ?_ fun _ => .ret _
        refine addLoop_below (readParticipant_below hzero) (fun i hi => ?_) _ _ (by omega)
        exact .bind (readParticipant_below hi) fun _ => .ret _
      · exact .ret _
    · exact .ret _
  · exact .ret _

/-- The list bounds the accesses, and nothing bounds the list. -/
theorem addToGroupChatArray_below (un : Uninit) {json : Json}
    (h : ∀ p, addToGroupChatParams json = some p → p.participantIds.length ≤ n) :
    Only (ArrayOp.Below n) (addToGroupChatArray un json) := by
  simp only [addToGroupChatArray]
  split
  next p hp =>
    have hlen := h p hp
    have hadd : Only (ArrayOp.Below n)
        (addLoop p.chatId (return p.addedBy) (fun _ => return 0) p.participantIds.length 0) :=
      addLoop_below (.ret _) (fun _ _ => .ret _) _ _ (by omega)
    refine .bind (copyLoop_below hlen _ _) fun _ => .bind hadd fun _ => ?_
    split <;> exact .ret _
  next => exact .ret _

end Below

/-- The loop reads every entry of its turns, whoever is added. -/
theorem addLoop_reads {σ : Type*} {exec : (q : Query) → σ → q.Result × σ} {c : Int} {addedBy : ParticipantsProg Int}
    {isAdmin : Nat → ParticipantsProg Int} (turns i : Nat) (s : (Nat → Int) × σ) {j : Nat} (hlo : i ≤ j)
    (hhi : j < i + turns) : j ∈ (addLoop c addedBy isAdmin turns i).accesses exec s := by
  induction turns generalizing i s with
  | zero => omega
  | succ turns ih =>
    rw [addLoop]
    simp only [Prog.accesses_bind, List.mem_append]
    by_cases hj : j = i
    · exact .inl (List.mem_singleton.mpr hj)
    · -- The entry is one of the turns that follow, on either branch.
      have hrest : ∀ s, j ∈ (addLoop c addedBy isAdmin turns (i + 1)).accesses exec s :=
        fun s => ih (i + 1) s (by omega) (by omega)
      refine .inr (.inr (.inr ?_))
      split
      · simp only [Prog.accesses_bind, List.mem_append]
        exact .inr (.inr (.inr (.inr (.inl (hrest _)))))
      · simp only [Prog.accesses_bind, List.mem_append]
        exact .inr (hrest _)

end HandleAction

open HandleAction

/-- The indices at which the answer to a request reads and writes its `participants`. -/
def participantsAccesses (m : Mysql) (d : Db) (un : Uninit) (query : Json) : List Nat :=
  match queryAction query with
  | some .createChat => (createChatArray un query).accesses (Db.exec m) (un.participants, d)
  | some .addToGroupChat => (addToGroupChatArray un query).accesses (Db.exec m) (un.participants, d)
  | _ => []

/-- A list that is added to a chat is read whole. -/
theorem addToGroupChatArray_reads {m : Mysql} {d : Db} (un : Uninit) {json : Json} {p : AddToGroupChatParams}
    (hp : addToGroupChatParams json = some p) :
    ∀ k < p.participantIds.length,
      k ∈ (addToGroupChatArray un json).accesses (Db.exec m) (un.participants, d) := by
  intro k hk
  simp only [addToGroupChatArray, hp, Prog.accesses_bind, List.mem_append]
  exact .inr (.inl (addLoop_reads _ 0 _ (Nat.zero_le k) (by omega)))

/-- **When every access is in bounds.** Whatever the request, the database and
the elements of the list, exactly unless a list of more than `MAX_PARTICIPANTS`
is added to a chat. -/
theorem accesses_inBounds_iff (m : Mysql) (d : Db) (un : Uninit) (query : Json) :
    (∀ i ∈ participantsAccesses m d un query, i < MAX_PARTICIPANTS) ↔
      (queryAction query = some .addToGroupChat → ∀ p, addToGroupChatParams query = some p →
        p.participantIds.length ≤ MAX_PARTICIPANTS) := by
  simp only [participantsAccesses]
  split
  next hq => exact iff_of_true (createChatArray_below un query).accesses_lt fun h => by simp [hq] at h
  next hq =>
    constructor
    · intro h _ p hp
      by_contra hlong
      exact absurd (h MAX_PARTICIPANTS (addToGroupChatArray_reads un hp _ (by omega))) (lt_irrefl _)
    · exact fun h => (addToGroupChatArray_below un (h hq)).accesses_lt
  next hother => exact iff_of_true (by simp) fun hq => absurd hq hother

/-- Eleven ids. -/
def Call.addEleven : Call := .addToGroupChat 1 2 [3, 4, 5, 6, 7, 8, 9, 10, 11, 12, 13]

/-- A request for eleven users fits into the buffer, and makes the server read and write entry 10 of 0 to 9. -/
theorem eleventh_out_of_bounds :
    Call.addEleven.request.print.length < BUFFER_SIZE ∧
      ¬ ∀ i ∈ participantsAccesses .tableOrder .threeUsers .zero Call.addEleven.request, i < MAX_PARTICIPANTS := by
  decide +kernel

end FinalServer
