/-
Which texts of `handle_action` fit their buffers.

A text of constants and numbers has room for every number. Only a key, a
user's name and e-mail, and the name of a chat can be too long, and each is
met by one branch; `SEND_MESSAGE` copies its strings to their bounds first.
So the length of that string decides whether the texts of a request fit.
-/
import FinalServer.JsonPrint
import FinalServer.TextBuffers

namespace FinalServer

open HandleAction

namespace Piece

/-- The most a piece prints: a number has at most eleven bytes. -/
def room : Piece → Nat
  | .text s => s.length
  | .int _ => 11

theorem length_print_le (p : Piece) : p.print.length ≤ p.room := by
  cases p with
  | text s => exact Nat.le_refl _
  | int n =>
    have hlo : -2147483648 ≤ n.bmod 4294967296 := Int.le_bmod (by omega)
    have hhi : n.bmod 4294967296 < 2147483648 := Int.bmod_lt (by omega)
    refine length_ofInt_le hlo ?_
    simp only [Json.INT_MAX]
    omega

theorem length_printAll_le (pieces : List Piece) : (printAll pieces).length ≤ (pieces.map room).sum := by
  induction pieces with
  | nil => exact Nat.le_refl 0
  | cons p ps ih =>
    simp only [printAll, CString.length_append, List.map_cons, List.sum_cons]
    exact Nat.add_le_add p.length_print_le ih

end Piece

instance (c : FormatCall) : Decidable c.Fits := inferInstanceAs (Decidable (_ ≤ _))

theorem FormatCall.fits_iff {c : FormatCall} :
    c.Fits ↔ (c.pieces.map fun p => p.print.length).sum < c.buffer.size := by
  have hsum : ∀ pieces : List Piece, (Piece.printAll pieces).length = (pieces.map fun p => p.print.length).sum := by
    intro pieces
    induction pieces with
    | nil => rfl
    | cons p ps ih => simp only [Piece.printAll, CString.length_append, List.map_cons, List.sum_cons, ih]
  rw [← hsum]
  exact Nat.lt_iff_add_one_le.symm

theorem FormatCall.fits_of_room {c : FormatCall} (h : (c.pieces.map Piece.room).sum < c.buffer.size) : c.Fits :=
  Nat.lt_of_le_of_lt (Piece.length_printAll_le _) h

/-! ## What always fits -/

namespace HandleAction

/-- Whatever the database answers, the texts fit. -/
abbrev AlwaysFits {α : Type} (p : TextProg α) : Prop := Prog.Only (LogOp.Notes FormatCall.Fits) p

theorem alwaysFits_sprintf {buffer : TextBuffer} {pieces : List Piece}
    (h : (pieces.map Piece.room).sum < buffer.size) : AlwaysFits (sprintf buffer pieces) :=
  .bind (Prog.only_note (FormatCall.fits_of_room h)) fun _ => .ret _

/-- A reply whose text is formatted is the last step of a branch. -/
theorem alwaysFits_reply {α : Type} {buffer : TextBuffer} {pieces : List Piece} {f : CString → α}
    (h : (pieces.map Piece.room).sum < buffer.size) :
    AlwaysFits (sprintf buffer pieces >>= fun text => pure (f text)) :=
  .bind (alwaysFits_sprintf h) fun _ => .ret _

theorem addEachTexts_fits (c b : Int) (f : Int → Int) (userIds : List Int) :
    AlwaysFits (addEachTexts c b f userIds) := by
  induction userIds with
  | nil => exact .ret _
  | cons userId userIds ih =>
    refine .bind (Prog.only_unlogged _) fun added => ?_
    split
    · refine .bind (alwaysFits_sprintf (of_decide_eq_true rfl)) fun content => ?_
      exact .bind (Prog.only_unlogged _) fun _ => .bind ih fun _ => .ret _
    · exact ih

theorem addToGroupChatTexts_fits (un : Uninit) (json : Json) : AlwaysFits (addToGroupChatTexts un json) := by
  unfold addToGroupChatTexts
  split
  · refine .bind (addEachTexts_fits _ _ _ _) fun successCount => ?_
    split
    · exact alwaysFits_reply (of_decide_eq_true rfl)
    · exact alwaysFits_reply (of_decide_eq_true rfl)
  · exact .ret _

theorem sendMessageTexts_fits (json : Json) : AlwaysFits (sendMessageTexts json) := by
  unfold sendMessageTexts
  split
  · refine .bind (Prog.only_unlogged _) fun sent => ?_
    split
    · exact alwaysFits_reply (of_decide_eq_true rfl)
    · exact .ret _
  · exact .ret _

theorem getChatsTexts_fits (json : Json) : AlwaysFits (getChatsTexts json) := by
  unfold getChatsTexts
  split
  · refine .bind (Prog.only_unlogged _) fun chats => ?_
    split
    · exact alwaysFits_reply (of_decide_eq_true rfl)
    · exact .ret _
  · exact .ret _

theorem getChatMessagesTexts_fits (json : Json) : AlwaysFits (getChatMessagesTexts json) := by
  unfold getChatMessagesTexts
  split
  · refine .bind (Prog.only_unlogged _) fun messages => ?_
    split
    · exact alwaysFits_reply (of_decide_eq_true rfl)
    · exact .ret _
  · exact .ret _

theorem getChatInfoTexts_fits (json : Json) : AlwaysFits (getChatInfoTexts json) := by
  unfold getChatInfoTexts
  split
  · refine .bind (Prog.only_unlogged _) fun info => ?_
    split
    · exact alwaysFits_reply (of_decide_eq_true rfl)
    · exact alwaysFits_reply (of_decide_eq_true rfl)
  · exact .ret _

theorem removeEachTexts_fits (c b : Int) (idItems : List Json) : AlwaysFits (removeEachTexts c b idItems) := by
  induction idItems with
  | nil => exact .ret _
  | cons idItem idItems ih =>
    unfold removeEachTexts
    split
    · refine .bind (Prog.only_unlogged _) fun removed => ?_
      split
      · refine .bind (alwaysFits_sprintf (of_decide_eq_true rfl)) fun content => ?_
        exact .bind (Prog.only_unlogged _) fun _ => .bind ih fun _ => .ret _
      · exact ih
    · exact ih

theorem removeFromChatTexts_fits (json : Json) : AlwaysFits (removeFromChatTexts json) := by
  unfold removeFromChatTexts
  split
  · refine .bind (Prog.only_unlogged _) fun isAdmin => ?_
    split
    · exact .ret _
    · refine .bind (Prog.only_unlogged _) fun isGroup => ?_
      split
      · exact .ret _
      · exact .bind (removeEachTexts_fits _ _ _) fun _ => alwaysFits_reply (of_decide_eq_true rfl)
  · exact .ret _

theorem exitLastTexts_fits (c u : Int) : AlwaysFits (exitLastTexts c u) := by
  refine .bind (Prog.only_unlogged _) fun deleted => ?_
  split
  · exact alwaysFits_reply (of_decide_eq_true rfl)
  · exact .ret _

theorem exitedTexts_fits (c u : Int) : AlwaysFits (exitedTexts c u) := alwaysFits_reply (of_decide_eq_true rfl)

theorem exitAdminTexts_fits (c u : Int) : AlwaysFits (exitAdminTexts c u) := by
  refine .bind (Prog.only_unlogged _) fun adminCount => ?_
  split
  · refine .bind (Prog.only_unlogged _) fun promoted => ?_
    split
    · exact exitedTexts_fits c u
    · exact .ret _
  · exact exitedTexts_fits c u

theorem exitChatTexts_fits (json : Json) : AlwaysFits (exitChatTexts json) := by
  unfold exitChatTexts
  split
  · refine .bind (Prog.only_unlogged _) fun isAdmin => .bind (Prog.only_unlogged _) fun participantCount => ?_
    refine .bind (Prog.only_unlogged _) fun removed => ?_
    split
    · exact .ret _
    · refine .bind (alwaysFits_sprintf (of_decide_eq_true rfl)) fun content => ?_
      refine .bind (Prog.only_unlogged _) fun _ => ?_
      split
      · exact exitLastTexts_fits _ _
      · split
        · exact exitAdminTexts_fits _ _
        · exact exitedTexts_fits _ _
  · exact .ret _

end HandleAction

/-! ## What a string can make too long -/

section Strings

variable {σ : Type} (exec : (q : Query) → σ → q.Result × σ) (s : σ)

/-- `VALIDATE_USER` echoes the key. -/
def KeyShort (json : Json) : Prop :=
  ∀ key, queryKey json = some key →
    match ((FinalServer.validateUser key).run exec s).1 with
    | some _ => key.length ≤ 980
    | none => key.length ≤ 983

/-- `CREATE_USER` echoes the user it stored. -/
def NewUserShort (un : Uninit) (json : Json) : Prop :=
  let newUser := (createUserParams json).getD un.newUser
  ((FinalServer.createUser newUser).run exec s).1 = true → newUser.username.length + newUser.email.length ≤ 974

/-- `GET_USER_INFO` echoes the name and the id the database holds, or else the key. -/
def UserShort (json : Json) : Prop :=
  ∀ key, queryKey json = some key →
    match ((FinalServer.getUserInfo key).run exec s).1 with
    | some user => user.username.length + (Piece.int user.userId).print.length ≤ 994
    | none => key.length ≤ 987

/-- `CREATE_CHAT` puts the name of the chat it made, and who asked for it, into a message. -/
def ChatNameShort (json : Json) : Prop :=
  ∀ p, createChatParams json = some p → p.countValid = true →
    ((FinalServer.createChat p.isGroup p.chatName).run exec s).1.isSome = true →
      (Piece.int p.createdBy).print.length + p.chatName.length ≤ 228

/-- The strings of a request, and those the database holds for it, are short enough. -/
def StringsShort (un : Uninit) (json : Json) : Prop :=
  match queryAction json with
  | some .validateUser => KeyShort exec s json
  | some .createUser => NewUserShort exec s un json
  | some .getUserInfo => UserShort exec s json
  | some .createChat => ChatNameShort exec s json
  | _ => True

/-- Every text that a program formats is within its buffer. -/
def TextsFit {α : Type} (p : TextProg α) : Prop := ∀ c ∈ p.notes exec s, c.Fits

variable {exec s}

theorem HandleAction.AlwaysFits.textsFit {α : Type} {p : TextProg α} (hp : AlwaysFits p) : TextsFit exec s p :=
  hp.notes s

theorem textsFit_bind {α β : Type} {p : TextProg α} {f : α → TextProg β} : TextsFit exec s (p >>= f) ↔
    TextsFit exec s p ∧ TextsFit exec (p.forget.run exec s).2 (f (p.forget.run exec s).1) := by
  simp only [TextsFit, Prog.notes_bind, List.forall_mem_append]

theorem textsFit_unlogged_bind {α β : Type} {p : DbProg α} {f : α → TextProg β} :
    TextsFit exec s (p.unlogged >>= f) ↔ TextsFit exec (p.run exec s).2 (f (p.run exec s).1) := by
  have hp : AlwaysFits (p.unlogged : TextProg α) := Prog.only_unlogged p
  rw [textsFit_bind, Prog.forget_unlogged, and_iff_right hp.textsFit]

theorem textsFit_sprintf {buffer : TextBuffer} {pieces : List Piece} :
    TextsFit exec s (sprintf buffer pieces) ↔ FormatCall.Fits ⟨buffer, pieces⟩ := by
  show (∀ c ∈ [(⟨buffer, pieces⟩ : FormatCall)], c.Fits) ↔ _
  simp

theorem textsFit_reply {α : Type} {buffer : TextBuffer} {pieces : List Piece} {f : CString → α} :
    TextsFit exec s (sprintf buffer pieces >>= fun text => pure (f text)) ↔ FormatCall.Fits ⟨buffer, pieces⟩ := by
  have hend : ∀ text, AlwaysFits (pure (f text) : TextProg α) := fun _ => .ret _
  rw [textsFit_bind, textsFit_sprintf, and_iff_left (hend _).textsFit]

theorem validateUserTexts_fit_iff (json : Json) :
    TextsFit exec s (validateUserTexts json) ↔ KeyShort exec s json := by
  unfold validateUserTexts KeyShort
  cases queryKey json with
  | none => exact iff_of_true (AlwaysFits.textsFit (.ret _)) nofun
  | some key =>
    simp only [textsFit_unlogged_bind, Option.some.injEq, forall_eq']
    cases ((FinalServer.validateUser key).run exec s).1 with
    | none =>
      refine textsFit_reply.trans (FormatCall.fits_iff.trans ?_)
      show 40 + (key.length + 0) < 1024 ↔ key.length ≤ 983
      omega
    | some _ =>
      refine textsFit_reply.trans (FormatCall.fits_iff.trans ?_)
      show 43 + (key.length + 0) < 1024 ↔ key.length ≤ 980
      omega

theorem createUserTexts_fit_iff (un : Uninit) (json : Json) :
    TextsFit exec s (createUserTexts un json) ↔ NewUserShort exec s un json := by
  unfold createUserTexts NewUserShort
  simp only [textsFit_unlogged_bind]
  cases ((FinalServer.createUser ((createUserParams json).getD un.newUser)).run exec s).1 with
  | false => exact iff_of_true (AlwaysFits.textsFit (.ret _)) nofun
  | true =>
    generalize (createUserParams json).getD un.newUser = newUser
    rw [if_pos rfl, forall_prop_of_true rfl]
    refine textsFit_reply.trans (FormatCall.fits_iff.trans ?_)
    show 5 + (newUser.username.length + (12 + (newUser.email.length + (32 + 0)))) < 1024 ↔ _
    omega

theorem getUserInfoTexts_fit_iff (un : Uninit) (json : Json) :
    TextsFit exec s (getUserInfoTexts un json) ↔ UserShort exec s json := by
  unfold getUserInfoTexts UserShort
  cases queryKey json with
  | none => exact iff_of_true (AlwaysFits.textsFit (.ret _)) nofun
  | some key =>
    simp only [textsFit_unlogged_bind, Option.some.injEq, forall_eq']
    cases ((FinalServer.getUserInfo key).run exec s).1 with
    | none =>
      refine textsFit_reply.trans (FormatCall.fits_iff.trans ?_)
      show 36 + (key.length + 0) < 1024 ↔ key.length ≤ 987
      omega
    | some user =>
      refine textsFit_reply.trans (FormatCall.fits_iff.trans ?_)
      show 5 + (user.username.length + (24 + ((Piece.int user.userId).print.length + 0))) < 1024 ↔ _
      omega

/-- Where the message about the chat fits, so does the reply: its buffer is four times as long. -/
theorem createChatTexts_fit_iff (un : Uninit) (json : Json) :
    TextsFit exec s (createChatTexts un json) ↔ ChatNameShort exec s json := by
  unfold createChatTexts ChatNameShort
  cases createChatParams json with
  | none => exact iff_of_true (AlwaysFits.textsFit (.ret _)) nofun
  | some p =>
    simp only [Option.some.injEq, forall_eq']
    cases p.countValid with
    | false =>
      refine iff_of_true (AlwaysFits.textsFit (alwaysFits_reply ?_)) nofun
      split <;> exact of_decide_eq_true rfl
    | true =>
      simp only [if_true, textsFit_unlogged_bind, true_imp_iff]
      cases ((FinalServer.createChat p.isGroup p.chatName).run exec s).1 with
      | none => exact iff_of_true (AlwaysFits.textsFit (.ret _)) nofun
      | some chatId =>
        have hcontent : FormatCall.Fits ⟨.content,
            [.text "User ", .int p.createdBy, .text " has created the chat ", .text p.chatName]⟩ ↔
              (Piece.int p.createdBy).print.length + p.chatName.length ≤ 228 := by
          refine FormatCall.fits_iff.trans ?_
          show 5 + ((Piece.int p.createdBy).print.length + (22 + (p.chatName.length + 0))) < 256 ↔ _
          omega
        simp only [Option.isSome_some, true_imp_iff]
        rw [textsFit_bind, textsFit_sprintf, hcontent]
        refine and_iff_left_of_imp fun hshort => ?_
        rw [textsFit_unlogged_bind]
        refine AlwaysFits.textsFit (.bind (addEachTexts_fits _ _ _ _) fun successCount => alwaysFits_reply ?_)
        show 5 + (p.chatName.length + (30 + (11 + (6 + 0)))) < 1024
        omega

end Strings

/-- The texts of a request fit exactly if its strings are short. -/
theorem textsFit_iff {σ : Type} (exec : (q : Query) → σ → q.Result × σ) (s : σ) (un : Uninit) (json : Json) :
    TextsFit exec s (handleActionTexts un json) ↔ StringsShort exec s un json := by
  unfold handleActionTexts StringsShort queryAction
  cases json.getObjectItem "action" with
  | none => exact iff_of_true (AlwaysFits.textsFit (.ret _)) trivial
  | some item =>
    have hsome : ∀ p : TextProg Json, TextsFit exec s (p >>= fun r => pure (some r)) ↔ TextsFit exec s p := by
      intro p
      have hend : ∀ r, AlwaysFits (pure (some r) : TextProg (Option Json)) := fun _ => .ret _
      rw [textsFit_bind, and_iff_left (hend _).textsFit]
    rw [hsome, Option.bind_some]
    cases Action.ofCode item.valueint with
    | none => exact iff_of_true (AlwaysFits.textsFit (.ret _)) trivial
    | some action =>
      cases action with
      | validateUser => exact validateUserTexts_fit_iff json
      | createUser => exact createUserTexts_fit_iff un json
      | getUserInfo => exact getUserInfoTexts_fit_iff un json
      | createChat => exact createChatTexts_fit_iff un json
      | addToGroupChat => exact iff_of_true (addToGroupChatTexts_fits un json).textsFit trivial
      | sendMessage => exact iff_of_true (sendMessageTexts_fits json).textsFit trivial
      | getChats => exact iff_of_true (getChatsTexts_fits json).textsFit trivial
      | getChatMessages => exact iff_of_true (getChatMessagesTexts_fits json).textsFit trivial
      | getChatInfo => exact iff_of_true (getChatInfoTexts_fits json).textsFit trivial
      | removeFromChat => exact iff_of_true (removeFromChatTexts_fits json).textsFit trivial
      | exitChat => exact iff_of_true (exitChatTexts_fits json).textsFit trivial
      | ping => exact iff_of_true (AlwaysFits.textsFit (.ret _)) trivial

/-- A request of user 2 for a group with user 3 and this name. -/
def Call.createNamed (chatName : CString) : Call :=
  .of .createChat [("is_group", .bool true), ("chat_name", .string chatName),
    ("created_by", .createNumber 2), ("participant_ids", .array [.createNumber 3])]

/-- The name of a chat can be as long as the request: 300 bytes run over the message about the chat. -/
theorem longName_overflows : ¬ ∀ (m : Mysql) (d : Db) (un : Uninit) (json : Json), json.print.length < BUFFER_SIZE →
    TextsFit (Db.exec m) d (handleActionTexts un json) := by
  intro h
  have hfit := h .tableOrder .threeUsers .zero (Call.createNamed (CString.ofBytes (List.replicate 300 97))).request
    (by decide +kernel)
  revert hfit
  unfold TextsFit
  decide +kernel

end FinalServer
