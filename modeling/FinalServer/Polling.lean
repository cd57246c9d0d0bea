/-
A client that polls a chat.

The first `GET_CHAT_MESSAGES` asks for everything, and each later one for
what is later than the latest `created_at` received so far. The times are
whole seconds and the comparison is strict, so a message stored in the
second of one that was already received is never listed again. That, and a
reply longer than the buffer, is all that can go wrong: otherwise the polls
bring every message once.
-/
import FinalServer.MessageLog
import FinalServer.ReplySize
import FinalServer.SendReceive

namespace FinalServer

/-- MySQL's times, as long as they stay below a horizon: their texts are in the
order of the times, fit a `Message`, and are read as the times they were
made from. -/
structure Mysql.Timestamps (m : Mysql) (horizon : Nat) : Prop where
  later : ∀ n < horizon, ∀ k < horizon, m.later n (m.timestampText k) = decide (k < n)
  increasing : ∀ n < horizon, ∀ k < horizon, (m.timestampText k).bytes < (m.timestampText n).bytes ↔ k < n
  length_lt : ∀ n < horizon, (m.timestampText n).length < MAX_TIMESTAMP_LENGTH

/-- The last of some texts, in the order of their bytes. -/
def latest : List CString → Option CString
  | [] => none
  | text :: texts =>
    match latest texts with
    | none => some text
    | some last => if last.bytes < text.bytes then some text else some last

/-- The client, the database, and what the chat had at the last poll. -/
structure Polling where
  db : Db
  received : List Json
  polled : List MessageRow

/-- Somebody's request, or the client's poll. -/
inductive ChatEvent
  | call (call : Call)
  | poll (call : Call)

namespace Polling

variable (m : Mysql) (c : Int)

/-- The messages of a reply that arrived. -/
def messages (reply : Option Json) : List Json :=
  match reply.bind Json.overWire with
  | some r => ((r.getObjectItem "messages_array").getD .null).items
  | none => []

def step (s : Polling) : ChatEvent → Polling
  | .call k => { s with db := s.db.serve m k }
  | .poll k =>
    { db := s.db.serve m k
      received := s.received ++ messages ((s.db.tick k.elapsed).run m (handleAction k.un k.request)).1
      polled := s.db.messagesOf c }

/-- The `created_at` of the messages received. -/
def texts (s : Polling) : List CString :=
  s.received.filterMap fun item => (item.getObjectItem "created_at").bind Json.valuestring

/-- How often a message was received. -/
def deliveries (s : Polling) (messageId : Int) : Nat :=
  s.received.countP fun item => item.getObjectItem "message_id" = some (.createNumber messageId)

/-- What the client asks for next. -/
def since (s : Polling) : Option CString := latest s.texts

/-- Every message that was there at the last poll was received once. -/
def ExactlyOnce (s : Polling) : Prop := ∀ r ∈ s.polled, s.deliveries r.messageId = 1

/-- No message is deleted; a poll asks for the chat since the latest time
received and finds no more messages than the array holds; the times stay
below the horizon. -/
def Assumed (horizon : Nat) (s : Polling) : ChatEvent → Prop
  | .call k => ∀ r ∈ s.db.messagesOf c, r ∈ (s.db.serve m k).messagesOf c
  | .poll k =>
    queryAction k.request = some .getChatMessages ∧ getChatMessagesParams k.request = some (c, s.since) ∧
      (s.db.listMessages m c s.since).length ≤ MAX_MESSAGES ∧ s.db.clock < horizon

/-- At a poll, no message still to be received has the `created_at` of one
that was, and the new messages fit the buffer. -/
def NoTie (s : Polling) : ChatEvent → Prop
  | .call _ => True
  | .poll _ =>
    (∀ r ∈ s.db.messagesOf c, s.deliveries r.messageId = 0 → m.timestampText r.createdAt ∉ s.texts) ∧
      messagesSize (s.db.listMessages m c s.since) < BUFFER_SIZE

/-- The client has not polled yet. -/
def start (d : Db) : Polling := ⟨d, [], []⟩

end Polling

/-! ## The latest time -/

section Latest

variable {m : Mysql} {horizon : Nat}

/-- Of texts of times it finds the text of the largest. -/
theorem latest_timestamps (hm : m.Timestamps horizon) {ks : List Nat} (hks : ∀ k ∈ ks, k < horizon) :
    (ks = [] ∧ latest (ks.map m.timestampText) = none) ∨
      ∃ n ∈ ks, (∀ k ∈ ks, k ≤ n) ∧ latest (ks.map m.timestampText) = some (m.timestampText n) := by
  induction ks with
  | nil => exact .inl ⟨rfl, rfl⟩
  | cons k ks ih =>
    right
    rw [List.map_cons, latest]
    rcases ih fun j hj => hks j (List.mem_cons_of_mem _ hj) with ⟨rfl, hnone⟩ | ⟨n, hn, hmax, hsome⟩
    · rw [hnone]
      exact ⟨k, by simp, by simp, rfl⟩
    · have hk := hks k List.mem_cons_self
      have hn' := hks n (List.mem_cons_of_mem _ hn)
      simp only [hsome, hm.increasing k hk n hn', List.forall_mem_cons]
      split
      next hlt => exact ⟨k, by simp, ⟨le_rfl, fun j hj => (hmax j hj).trans hlt.le⟩, rfl⟩
      next hle => exact ⟨n, List.mem_cons_of_mem _ hn, ⟨not_lt.mp hle, hmax⟩, rfl⟩

/-- A time is later than the latest of some texts when it is later than all. -/
theorem messageSince_latest (hm : m.Timestamps horizon) {ks : List Nat} (hks : ∀ k ∈ ks, k < horizon) {n : Nat}
    (hn : n < horizon) :
    Tables.messageSince m n (latest (ks.map m.timestampText)) = true ↔ ∀ k ∈ ks, k < n := by
  rcases latest_timestamps hm hks with ⟨rfl, hnone⟩ | ⟨n', hn', hmax, hsome⟩
  · rw [hnone]
    simp [Tables.messageSince]
  · rw [hsome]
    simp only [Tables.messageSince, hm.later n hn n' (hks n' hn'), decide_eq_true_eq]
    exact ⟨fun h k hk => (hmax k hk).trans_lt h, fun h => h n' hn'⟩

/-- Different times have different texts. -/
theorem timestampText_inj (hm : m.Timestamps horizon) {n k : Nat} (hn : n < horizon) (hk : k < horizon)
    (h : m.timestampText n = m.timestampText k) : n = k := by
  have hirrefl : ¬ (m.timestampText n).bytes < (m.timestampText n).bytes := List.lt_irrefl _
  have hnk : ¬ k < n := by
    rw [← hm.increasing n hn k hk, ← h]
    exact hirrefl
  have hkn : ¬ n < k := by
    rw [← hm.increasing k hk n hn, ← h]
    exact hirrefl
  omega

end Latest

/-! ## Reading a log once -/

section Log

variable {α ι : Type*} [DecidableEq ι] {key : α → ι} {log got : List α} {p : α → Bool}

/-- A row of the log is among the rows of `p` once, or not at all. -/
theorem count_map_filter (hkeys : (log.map key).Nodup) {r : α} (hr : r ∈ log) :
    ((log.filter p).map key).count (key r) = if p r = true then 1 else 0 := by
  have hnodup : ((log.filter p).map key).Nodup := hkeys.sublist (List.filter_sublist.map key)
  split
  next hp => exact List.count_eq_one_of_mem hnodup (List.mem_map_of_mem (List.mem_filter.mpr ⟨hr, hp⟩))
  next hp =>
    rw [List.count_eq_zero]
    intro hmem
    obtain ⟨r', hr', hkey⟩ := List.mem_map.mp hmem
    obtain ⟨hr', hp'⟩ := List.mem_filter.mp hr'
    rw [List.inj_on_of_nodup_map hkeys hr' hr hkey] at hp'
    exact hp hp'

/-- Who has read a part of the log once, and now reads the rows of `p`, none of
which he had, has read the log once when those are all the others. -/
theorem count_append_filter (hkeys : (log.map key).Nodup) (hgot : ∀ r ∈ got, p r = false)
    (honce : ∀ r ∈ log, r ∈ got → (got.map key).count (key r) = 1) (hsub : got ⊆ log) :
    (∀ r ∈ log, (got.map key ++ (log.filter p).map key).count (key r) = 1) ↔
      ∀ r ∈ log, (got.map key).count (key r) = 0 → p r = true := by
  refine forall_congr' fun r => forall_congr' fun hr => ?_
  rw [List.count_append, count_map_filter hkeys hr]
  by_cases hmem : r ∈ got
  · simp [honce r hr hmem, hgot r hmem]
  · have hzero : (got.map key).count (key r) = 0 := by
      rw [List.count_eq_zero]
      intro hk
      obtain ⟨r', hr', hkey⟩ := List.mem_map.mp hk
      rw [List.inj_on_of_nodup_map hkeys (hsub hr') hr hkey] at hr'
      exact hmem hr'
    rw [hzero]
    split <;> simp_all

end Log

/-! ## What the client has read -/

/-- The id and the time of a message of a reply. -/
def stamp (item : Json) : Option Json × Option CString :=
  (item.getObjectItem "message_id", (item.getObjectItem "created_at").bind Json.valuestring)

/-- The id and the time of a stored message, as a reply gives them. -/
def MessageRow.stamp (m : Mysql) (r : MessageRow) : Option Json × Option CString :=
  (some (.createNumber r.messageId), some (m.timestampText r.createdAt))

section Reads

variable {m : Mysql} {d : Db} {c : Int} {since : Option CString} {horizon : Nat} {js : List Json}
  {rows : List MessageRow}

theorem countP_stamps (h : js.map stamp = rows.map (·.stamp m)) (i : Int) :
    (js.countP fun item => item.getObjectItem "message_id" = some (.createNumber i)) =
      (rows.map (·.messageId)).count i := by
  calc (js.countP fun item => item.getObjectItem "message_id" = some (.createNumber i))
      = (js.map stamp).countP fun x => x.1 = some (.createNumber i) := by rw [List.countP_map]; rfl
    _ = rows.countP fun r => r.messageId = i := by
        rw [h, List.countP_map]
        refine List.countP_congr fun r _ => ?_
        simp [MessageRow.stamp, Json.createNumber]
    _ = (rows.map (·.messageId)).count i := by
        rw [List.count, List.countP_map]
        refine List.countP_congr fun r _ => ?_
        simp

theorem filterMap_stamps (h : js.map stamp = rows.map (·.stamp m)) :
    (js.filterMap fun item => (item.getObjectItem "created_at").bind Json.valuestring) =
      (rows.map (·.createdAt)).map m.timestampText := by
  calc (js.filterMap fun item => (item.getObjectItem "created_at").bind Json.valuestring)
      = (js.map stamp).filterMap (·.2) := by rw [List.filterMap_map]; rfl
    _ = (rows.map (·.createdAt)).map m.timestampText := by
        rw [h, List.filterMap_map, List.map_map]
        show rows.filterMap (some ∘ fun r => m.timestampText r.createdAt) = _
        rw [List.filterMap_eq_map]
        rfl

theorem messages_messagesReply (listed : List MessageListing) :
    Polling.messages (some (messagesReply listed)) =
      if messagesSize listed < BUFFER_SIZE then listed.map fun row => HandleAction.messageJson row.copy else [] := by
  unfold Polling.messages
  rw [Option.bind_some, Json.overWire, length_print_messagesReply]
  by_cases hfits : messagesSize listed < BUFFER_SIZE
  · rw [if_pos hfits, if_pos hfits]
    rfl
  · rw [if_neg hfits, if_neg hfits]

/-- Every message has its sender, so none is missing in the list. -/
theorem map_stamp_listMessages (hm : m.Timestamps horizon) (htime : ∀ r ∈ d.messages, r.createdAt < horizon) :
    (d.listMessages m c since).map (fun row => stamp (HandleAction.messageJson row.copy)) =
      ((d.messagesOf c).filter fun r => Tables.messageSince m r.createdAt since).map (·.stamp m) := by
  rw [Tables.listMessages, List.map_filterMap, ← List.filterMap_eq_map]
  refine List.filterMap_congr fun r hr => ?_
  have hmem : r ∈ d.messages := List.mem_of_mem_filter (List.mem_of_mem_filter hr)
  obtain ⟨u, hu⟩ := Option.isSome_iff_exists.mp (Tables.findUser_isSome (d.wf.messages_sender r hmem))
  have htext : (m.timestampText r.createdAt).take (MAX_TIMESTAMP_LENGTH - 1) = m.timestampText r.createdAt :=
    CString.take_eq_self_iff.mpr (Nat.le_pred_of_lt (hm.length_lt _ (htime r hmem)))
  rw [Tables.listMessage, hu]
  show some (some (Json.createNumber r.messageId), some ((m.timestampText r.createdAt).take _)) = _
  rw [htext]
  rfl

end Reads

/-! ## One step -/

namespace Polling

variable {m : Mysql} {c : Int} {horizon : Nat} {s : Polling} {got : List MessageRow}

/-- The client has read these messages, which were there at the last poll. -/
structure Reads (m : Mysql) (s : Polling) (got : List MessageRow) : Prop where
  stamps : s.received.map stamp = got.map (·.stamp m)
  subset : got ⊆ s.polled

/-- What holds of every run, ties or not. -/
structure Sound (m : Mysql) (c : Int) (s : Polling) : Prop where
  times : s.db.TimesOrdered
  polled : s.polled <+: s.db.messagesOf c
  reads : ∃ got, Reads m s got

theorem start_sound {d : Db} (hd : d.TimesOrdered) : Sound m c (start d) :=
  ⟨hd, List.nil_prefix, [], rfl, List.Subset.refl _⟩

theorem Reads.deliveries_eq (h : Reads m s got) (i : Int) : s.deliveries i = (got.map (·.messageId)).count i :=
  countP_stamps h.stamps i

theorem Reads.texts_eq (h : Reads m s got) : s.texts = (got.map (·.createdAt)).map m.timestampText :=
  filterMap_stamps h.stamps

/-- As no message is deleted, the log of the chat only grows. -/
theorem messagesOf_grow {d : Db} {k : Call} (hkeep : ∀ r ∈ d.messagesOf c, r ∈ (d.serve m k).messagesOf c) :
    d.messagesOf c <+: (d.serve m k).messagesOf c := by
  cases hrows : d.messagesOf c with
  | nil => exact List.nil_prefix
  | cons r rows =>
    -- A chat with a message is there, before and after.
    have hr : r ∈ d.messagesOf c := hrows ▸ List.mem_cons_self
    obtain ⟨hmem, hc⟩ := Tables.mem_messagesOf.mp hr
    obtain ⟨hmem', -⟩ := Tables.mem_messagesOf.mp (hkeep r hr)
    obtain ⟨chat, hchat, hid⟩ := Tables.mem_chatIds.mp (d.wf.messages_chat r hmem)
    have hlt : c < d.nextChatId := hc ▸ hid ▸ d.wf.chats_lt chat hchat
    rw [← hrows]
    exact (Db.serve_grows k).messages hlt (hc ▸ (d.serve m k).wf.messages_chat r hmem')

theorem serve_poll {d : Db} {k : Call} {since : Option CString} (hq : queryAction k.request = some .getChatMessages)
    (hp : getChatMessagesParams k.request = some (c, since)) (hsince : ∀ time ∈ since, MessageSql.AsWritten c time) :
    d.serve m k = d.tick k.elapsed := by
  rw [Db.serve, run_handleAction_poll hq hp hsince]

/-- What the client asks for next is the text of a time it received, which needs no escape. -/
theorem since_asWritten (hm : m.Timestamps horizon) (h : Sound m c s) (hclock : s.db.clock < horizon) {k : Call}
    (hp : getChatMessagesParams k.request = some (c, s.since)) : ∀ time ∈ s.since, MessageSql.AsWritten c time := by
  obtain ⟨got, hgot⟩ := h.reads
  have hks : ∀ k ∈ got.map (·.createdAt), k < horizon := List.forall_mem_map.mpr fun g hg =>
    (h.times.past g (List.mem_of_mem_filter (h.polled.subset (hgot.subset hg)))).trans_lt hclock
  intro time htime
  rw [since, hgot.texts_eq] at htime
  rcases latest_timestamps hm hks with ⟨-, hnone⟩ | ⟨n, hn, -, hsome⟩
  · rw [hnone] at htime
    cases htime
  · rw [hsome] at htime
    cases htime
    exact asWritten_of_plain (getChatMessagesParams_range hp) (m.timestampText_plain n) (hm.length_lt n (hks n hn))

/-- A poll brings the rows it lists, if they fit the buffer. -/
theorem step_poll (hm : m.Timestamps horizon) (h : Sound m c s) (hclock : s.db.clock < horizon) {k : Call}
    (hq : queryAction k.request = some .getChatMessages)
    (hp : getChatMessagesParams k.request = some (c, s.since)) :
    step m c s (.poll k) =
      { db := s.db.tick k.elapsed
        received := s.received ++
          if messagesSize (s.db.listMessages m c s.since) < BUFFER_SIZE then
            (s.db.listMessages m c s.since).map fun row => HandleAction.messageJson row.copy
          else []
        polled := s.db.messagesOf c } := by
  have hlist : (s.db.tick k.elapsed).listMessages m c s.since = s.db.listMessages m c s.since := rfl
  have hsince := since_asWritten hm h hclock hp
  rw [step, serve_poll hq hp hsince, run_handleAction_poll hq hp hsince, messages_messagesReply, hlist]

theorem step_sound (hm : m.Timestamps horizon) (e : ChatEvent) (h : Sound m c s) (ha : Assumed m c horizon s e) :
    Sound m c (step m c s e) := by
  obtain ⟨got, hgot⟩ := h.reads
  cases e with
  | call k =>
    exact ⟨Db.serve_timesOrdered k h.times, h.polled.trans (messagesOf_grow ha), got, hgot.stamps, hgot.subset⟩
  | poll k =>
    obtain ⟨hq, hp, -, hclock⟩ := ha
    have htime : ∀ r ∈ s.db.messages, r.createdAt < horizon := fun r hr => (h.times.past r hr).trans_lt hclock
    rw [step_poll hm h hclock hq hp]
    refine ⟨h.times.of_eq (Nat.le_add_right _ _) rfl, List.prefix_rfl, ?_⟩
    have hsub : got ⊆ s.db.messagesOf c := List.Subset.trans hgot.subset h.polled.subset
    split
    · refine ⟨got ++ (s.db.messagesOf c).filter fun r => Tables.messageSince m r.createdAt s.since, ?_, ?_⟩
      · simp only [List.map_append, List.map_map, hgot.stamps]
        rw [← map_stamp_listMessages hm htime]
        rfl
      · exact List.append_subset.mpr ⟨hsub, List.filter_subset_self _⟩
    · refine ⟨got, ?_, hsub⟩
      rw [List.append_nil]
      exact hgot.stamps

section Once

variable (hm : m.Timestamps horizon) (hgot : Reads m s got) (h : Sound m c s) (hclock : s.db.clock < horizon)
include hm hgot h hclock

/-- What is listed next is later than everything received. -/
theorem messageSince_since {r : MessageRow} (hr : r ∈ s.db.messagesOf c) :
    Tables.messageSince m r.createdAt s.since = true ↔ ∀ g ∈ got, g.createdAt < r.createdAt := by
  have htime : ∀ r ∈ s.db.messagesOf c, r.createdAt < horizon :=
    fun r hr => (h.times.past r (List.mem_of_mem_filter hr)).trans_lt hclock
  have hks : ∀ k ∈ got.map (·.createdAt), k < horizon :=
    List.forall_mem_map.mpr fun g hg => htime g (h.polled.subset (hgot.subset hg))
  rw [since, hgot.texts_eq, messageSince_latest hm hks (htime r hr), List.forall_mem_map]

/-- What is still to be received is listed next unless its time was received already. -/
theorem messageSince_iff_notMem (honce : s.ExactlyOnce) {r : MessageRow} (hr : r ∈ s.db.messagesOf c)
    (hzero : s.deliveries r.messageId = 0) :
    Tables.messageSince m r.createdAt s.since = true ↔ m.timestampText r.createdAt ∉ s.texts := by
  have hnew : r ∉ s.polled := fun hold => by
    have := honce r hold
    omega
  have htime : ∀ r ∈ s.db.messagesOf c, r.createdAt < horizon :=
    fun r hr => (h.times.past r (List.mem_of_mem_filter hr)).trans_lt hclock
  -- It was stored after everything received.
  have hle : ∀ g ∈ got, g.createdAt ≤ r.createdAt := by
    obtain ⟨new, hlog⟩ := h.polled
    have hsorted : (s.db.messagesOf c).Pairwise (·.createdAt ≤ ·.createdAt) := h.times.sorted.filter _
    rw [← hlog] at hsorted hr
    exact fun g hg => (List.pairwise_append.mp hsorted).2.2 g (hgot.subset hg) r
      ((List.mem_append.mp hr).resolve_left hnew)
  rw [messageSince_since hm hgot h hclock hr, hgot.texts_eq]
  simp only [List.mem_map, exists_exists_and_eq_and, not_exists, not_and]
  refine forall_congr' fun g => forall_congr' fun hg => ⟨fun hlt heq => ?_, fun hne => ?_⟩
  · have hsame := timestampText_inj hm (htime g (h.polled.subset (hgot.subset hg))) (htime r hr) heq
    omega
  · have := hle g hg
    have : g.createdAt ≠ r.createdAt := fun heq => hne (congrArg m.timestampText heq)
    omega

/-- **One poll.** After it every message is received once exactly when there
was no tie. -/
theorem exactlyOnce_poll_iff (honce : s.ExactlyOnce) {k : Call}
    (hq : queryAction k.request = some .getChatMessages)
    (hp : getChatMessagesParams k.request = some (c, s.since)) :
    (step m c s (.poll k)).ExactlyOnce ↔ NoTie m c s (.poll k) := by
  have htime : ∀ r ∈ s.db.messages, r.createdAt < horizon := fun r hr => (h.times.past r hr).trans_lt hclock
  have hsub : got ⊆ s.db.messagesOf c := List.Subset.trans hgot.subset h.polled.subset
  have hold : ∀ r ∈ got, Tables.messageSince m r.createdAt s.since = false := by
    intro r hr
    rw [← Bool.not_eq_true, messageSince_since hm hgot h hclock (hsub hr)]
    exact fun hlt => lt_irrefl _ (hlt r hr)
  have honce' : ∀ r ∈ s.db.messagesOf c, r ∈ got → (got.map (·.messageId)).count r.messageId = 1 := by
    intro r _ hr
    rw [← hgot.deliveries_eq]
    exact honce r (hgot.subset hr)
  have hkeys := s.db.wf.messageIds_nodup c
  rw [step_poll hm h hclock hq hp]
  unfold ExactlyOnce NoTie deliveries
  split
  next hfits =>
    have hstamps : (s.received ++ (s.db.listMessages m c s.since).map fun row =>
        HandleAction.messageJson row.copy).map stamp =
          (got ++ (s.db.messagesOf c).filter fun r => Tables.messageSince m r.createdAt s.since).map
            (·.stamp m) := by
      simp only [List.map_append, List.map_map, hgot.stamps]
      rw [← map_stamp_listMessages hm htime]
      rfl
    simp only [countP_stamps hstamps, List.map_append]
    rw [count_append_filter hkeys hold honce' hsub, and_iff_left hfits]
    refine forall_congr' fun r => forall_congr' fun hr => ?_
    rw [countP_stamps hgot.stamps]
    refine forall_congr' fun hzero => ?_
    exact messageSince_iff_notMem hm hgot h hclock honce hr ((hgot.deliveries_eq _).trans hzero)
  next hlong =>
    refine iff_of_false (fun hall => hlong ?_) fun hno => hlong hno.2
    -- A message that was listed has not been received.
    have hnil : (s.db.messagesOf c).filter (fun r => Tables.messageSince m r.createdAt s.since) = [] := by
      rw [List.filter_eq_nil_iff]
      intro r hr
      have hone := hall r hr
      rw [List.append_nil, countP_stamps hgot.stamps] at hone
      obtain ⟨g, hg, hkey⟩ := List.mem_map.mp (List.count_pos_iff.mp (hone ▸ Nat.one_pos))
      rw [← List.inj_on_of_nodup_map hkeys (hsub hg) hr hkey, hold g hg]
      simp
    rw [Tables.listMessages, hnil]
    show messagesSize [] < BUFFER_SIZE
    decide

end Once

end Polling

/-- **Polling.** Whatever is sent and whenever the client polls, every message
that is there at a poll has been received exactly once after it, as long as
at every poll there is no tie, and only then. -/
theorem polls_exactlyOnce_iff (m : Mysql) (horizon : Nat) (hm : m.Timestamps horizon) (c : Int) (d : Db)
    (hd : d.TimesOrdered) (es : List ChatEvent)
    (hes : Run.Along (Polling.step m c) (Polling.Assumed m c horizon) (.start d) es) :
    (∀ pre, pre <+: es → (Run.exec (Polling.step m c) (.start d) pre).ExactlyOnce) ↔
      Run.Along (Polling.step m c) (Polling.NoTie m c) (.start d) es := by
  refine hes.forall_prefix_iff (J := Polling.Sound m c) (fun s e h ha => Polling.step_sound hm e h ha)
    (Polling.start_sound hd) (fun s e h ha honce => ?_) (fun r hr => absurd hr List.not_mem_nil)
  obtain ⟨got, hgot⟩ := h.reads
  cases e with
  | call k => exact iff_of_true honce trivial
  | poll k => exact Polling.exactlyOnce_poll_iff hm hgot h ha.2.2.2 honce ha.1 ha.2.1

/-! ## Two messages in one second -/

/-- The first ten seconds after noon. -/
def Mysql.noon : Mysql :=
  { Mysql.tableOrder with
    later := fun n s => s.bytes < CString.bytes ("2025-06-01 12:00:0" ++ CString.ofInt n)
    timestampText := fun n => "2025-06-01 12:00:0" ++ CString.ofInt n
    timestampText_plain := fun n b hb => by
      rw [CString.append_bytes, List.mem_append] at hb
      exact hb.elim ((by decide : UserSql.Plain "2025-06-01 12:00:0") b) (plain_ofInt n b) }

theorem noon_timestamps : Mysql.noon.Timestamps 10 where
  later := by decide
  increasing := by decide
  length_lt := by decide

/-- A poll of chat 1. -/
def pollSince (since : Option CString) : Call :=
  ⟨.zero, 0, .object [("action", .createNumber 8), ("chat_id", .createNumber 1),
    ("last_update_timestamp", (since.map Json.string).getD .null)]⟩

/-- Alice writes, the client polls, Alice writes again and the client polls again. -/
def twoPolls (between : Nat) : List ChatEvent :=
  [.call ⟨.zero, 0, writeJson "hello"⟩, .poll (pollSince none), .call ⟨.zero, between, writeJson "hello"⟩,
    .poll (pollSince (some "2025-06-01 12:00:00"))]

instance {m : Mysql} {c : Int} {horizon : Nat} (s : Polling) (e : ChatEvent) :
    Decidable (Polling.Assumed m c horizon s e) := by
  cases e <;> unfold Polling.Assumed <;> infer_instance

theorem polls_exactlyOnce_iff_twoPolls :
    (∀ pre, pre <+: twoPolls 1 →
      (Run.exec (Polling.step .noon 1) (.start .oneChat) pre).ExactlyOnce) ↔
      Run.Along (Polling.step .noon 1) (Polling.NoTie .noon 1) (.start .oneChat) (twoPolls 1) :=
  polls_exactlyOnce_iff .noon 10 noon_timestamps 1 .oneChat ⟨.nil, nofun⟩ (twoPolls 1) (by decide +kernel)

/-- The second message of the second is not received. -/
theorem tied_message_lost :
    ¬ ∀ (m : Mysql) (horizon : Nat) (c : Int) (d : Db) (es : List ChatEvent), m.Timestamps horizon →
      d.TimesOrdered → Run.Along (Polling.step m c) (Polling.Assumed m c horizon) (.start d) es →
      (Run.exec (Polling.step m c) (.start d) es).ExactlyOnce := by
  intro h
  have honce := h .noon 10 1 .oneChat (twoPolls 0) noon_timestamps ⟨.nil, fun _ hr => absurd hr List.not_mem_nil⟩
    (by decide +kernel)
  exact absurd (honce ⟨2, 1, 2, "hello", "text", 0⟩ (by decide +kernel)) (by decide +kernel)

end FinalServer
