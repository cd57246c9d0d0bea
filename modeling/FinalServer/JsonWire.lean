/-
The messages between the two servers, byte for byte.

The sessions and the data server take a message to arrive as it was if it
fits a buffer, and not to parse otherwise (`overWire`). `stepBytes` prints
the messages, cuts what is there to what one call reads and parses that with
`cJSON_Parse`; `bytes_run` says that the two run alike, from any database
whose columns are `int`s and for any client whose texts have no other
numbers, as `Json.print` is `print_number` for `int`s only.
-/
import FinalServer.IntColumns
import FinalServer.ReplySize
import FinalServer.Segmentation
import FinalServer.SessionQueries
import FinalServer.Simulation

namespace FinalServer

open Json (InRange)

/-! ## Requests -/

namespace Json

variable {j v : Json}

theorem plain_object {fs : List (CString × Json)} : (object fs).Plain ↔ ∀ f ∈ fs, Fits 999 f.2 :=
  ⟨fun h => fits_object.mp ⟨h.ints, h.depth⟩, Plain.of_object le_rfl⟩

theorem Plain.delete (h : j.Plain) (name : CString) : (j.deleteItemFromObject name).Plain := by
  cases j with
  | object fs => exact plain_object.mpr fun f hf => plain_object.mp h f (List.mem_of_mem_eraseP hf)
  | _ => exact h

theorem mem_replace {name : CString} {fs : List (CString × Json)} {f : CString × Json}
    (hf : f ∈ FieldList.replace name.eqNoCase name v fs) : f ∈ fs ∨ f = (name, v) := by
  induction fs with
  | nil => cases hf
  | cons g fs ih =>
    simp only [FieldList.replace] at hf
    split at hf
    · rcases List.mem_cons.mp hf with rfl | hf
      · exact .inr rfl
      · exact .inl (List.mem_cons_of_mem _ hf)
    · rcases List.mem_cons.mp hf with rfl | hf
      · exact .inl List.mem_cons_self
      · exact (ih hf).imp_left (List.mem_cons_of_mem _)

theorem Plain.replace (h : j.Plain) (name : CString) (hv : Fits 999 v) : (j.replaceItemInObject name v).Plain := by
  cases j with
  | object fs =>
    refine plain_object.mpr fun f hf => ?_
    rcases mem_replace hf with hf | rfl
    · exact plain_object.mp h f hf
    · exact hv
  | _ => exact h

theorem Plain.add (h : j.Plain) (name : CString) (hv : Fits 999 v) : (j.addItemToObject name v).Plain := by
  cases j with
  | object fs => exact plain_object.mpr (Tables.forall_mem_concat.mpr ⟨plain_object.mp h, hv⟩)
  | _ => exact h

theorem Plain.addString (h : j.Plain) (name : CString) (s : Option CString) : (j.addStringToObject name s).Plain := by
  cases s with
  | none => exact h
  | some s => exact h.add name (fits_string s)

end Json

theorem Json.Plain.nullTimestamp {j : Json} (h : j.Plain) : (FinalServer.nullTimestamp j).Plain := by
  unfold FinalServer.nullTimestamp
  split
  · split
    · exact h.replace _ Json.fits_null
    · exact h
  · exact h

theorem Json.Plain.injectIdentity {j : Json} (h : j.Plain) {u : Int} (hu : InRange u) (a : Action) :
    (FinalServer.injectIdentity a u j).Plain := by
  have hitem : ∀ n, Json.Fits n (.createNumber u) := fun _ => Json.fits_number hu
  cases a with
  | getUserInfo | getChatInfo => exact h
  | createChat | addToGroupChat | sendMessage => exact h.replace _ (hitem _)
  | getChats => exact (h.replace _ (hitem _)).nullTimestamp
  | getChatMessages => exact (h.add _ (hitem _)).nullTimestamp
  | removeFromChat | exitChat | validateUser | createUser | ping => exact h.add _ (hitem _)

/-- A query of the logic server's own: an action, and a string or none. -/
theorem plain_query (a : Action) : ((Json.object []).addNumberToObject "action" a.code).Plain :=
  Json.plain_object.mpr (List.forall_mem_singleton.mpr (Json.fits_number (by cases a <;> decide)))

theorem plain_userInfoQuery (key : Option CString) : (Session.userInfoQuery key).Plain :=
  (plain_query .getUserInfo).addString _ key

theorem plain_validateUserQuery (json : Json) : (validateUserQuery json).Plain := by
  unfold validateUserQuery
  split
  · exact (plain_query .validateUser).addString _ _
  · exact plain_query .validateUser

/-- The numbers of a client's text are `int`s. -/
def IntText (raw : CString) : Prop := ∀ j, Json.parse raw = some j → j.IntNumbers

section Requests

variable {env : Env}

theorem plain_parsed {raw : CString} (hraw : IntText raw) {j item : Json} {name : CString}
    (hj : Json.parse raw = some j) (hitem : j.getObjectItemCaseSensitive name = some item) : j.Plain where
  ints := hraw j hj
  depth := by
    obtain ⟨⟨j', r⟩, hread, he⟩ := Option.map_eq_some_iff.mp hj
    obtain rfl : j' = j := he
    exact (JsonParse.parseValue_depth _ trivial hread).2
  message := by
    obtain ⟨fs, rfl⟩ := Json.exists_object_of_get hitem
    rfl

/-- What a session writes to the data server for a client's text is plain. -/
theorem Forwards.plain (henv : env.parse = Json.parse) {now : Int} {raw : CString} {a : Action} {stored query : Json}
    (h : Forwards env now raw a stored query) (hraw : IntText raw) : query.Plain := by
  have hreq : ∀ {json a}, IsRequest env raw json a → json.Plain := fun h => by
    obtain ⟨d, hd, -⟩ := h.action
    exact plain_parsed hraw (henv ▸ h.parse) hd
  cases h with
  | validateUser _ h => exact plain_validateUserQuery _
  | createUser _ h => exact hreq h
  | token json _ u h _ hu =>
    obtain ⟨token, -, hu⟩ := hu
    exact ((hreq h).delete _).injectIdentity (validateToken_range hu) a

end Requests

/-! ## Both servers -/

/-- What one `read` of the child gets of the queries written to its connection. -/
def readBuffer (queries : List Json) : CString := .ofBytes ((queries.flatMap Json.print).take (BUFFER_SIZE - 1))

/-- Of plain queries the first is read, or does not parse. -/
theorem Json.Plain.readBuffer {query : Json} {rest : List Json} (h : query.Plain) :
    Json.parse (FinalServer.readBuffer (query :: rest)) = query.overWire := by
  have hzero : ∀ {bs : List UInt8}, bs <+: (query :: rest).flatMap Json.print → (CString.ofBytes bs).bytes = bs := by
    intro bs hbs
    rw [CString.ofBytes, List.takeWhile_eq_self_iff]
    intro b hb
    have hne : b ≠ 0 := by
      rintro rfl
      obtain ⟨j, -, hj⟩ := List.mem_flatMap.mp (hbs.subset hb)
      exact JsonParse.zero_notMem_print j hj
    simpa using hne
  have hbytes : (FinalServer.readBuffer (query :: rest)).bytes =
      ((query :: rest).flatMap Json.print).take (BUFFER_SIZE - 1) := hzero (List.take_prefix _ _)
  rw [Json.overWire]
  split
  next hfits =>
    -- The bytes of the query are all there, and what follows them is not looked at.
    obtain ⟨v, tail, hv, hframe⟩ := JsonParse.parse_split (s := .ofBytes query.print) (j := query) (by
      have hall := h.parse_take query.print.length
      rwa [List.take_length, if_pos le_rfl] at hall) h.message
    have hprint : query.print = v.bytes ++ tail.bytes := by
      have hown : (CString.ofBytes query.print).bytes = query.print := hzero (List.prefix_append _ _)
      rw [← hown, hv, CString.append_bytes]
    have hlen : query.print.length ≤ BUFFER_SIZE - 1 := Nat.le_pred_of_lt hfits
    rw [JsonParse.parse_eq_parseText, hbytes, List.flatMap_cons, List.take_append, List.take_of_length_le hlen, hprint,
      List.append_assoc, hframe]
    rfl
  next hlong =>
    -- The buffer is full of the query.
    have hcut : FinalServer.readBuffer (query :: rest) = .ofBytes (query.print.take (BUFFER_SIZE - 1)) := by
      rw [FinalServer.readBuffer, List.flatMap_cons, List.take_append_of_le_length (by omega)]
    rw [hcut, h.parse_take, if_neg (by rw [BUFFER_SIZE] at hlong ⊢; omega)]

namespace Served

/-- The child of `main` (`data_server.c`), with the bytes it reads and sends. -/
def answerBytes (m : Mysql) (survivesFree : Bool) (s : Served) (fd : Int) (un : Uninit) : Served :=
  match s.peer fd, s.session.conns fd with
  | .waiting, some (query :: rest) =>
    let r := child m survivesFree un s.db (Json.parse (readBuffer (query :: rest)))
    { s with
      peer := Function.update s.peer fd (.closed (r.1.map fun reply => Json.parse (receiveBuffer reply)))
      db := r.2 }
  | _, _ => s

def stepBytes (env : Env) (m : Mysql) (survivesFree : Bool) (s : Served) : Event → Served
  | .answer fd un => s.answerBytes m survivesFree fd un
  | e => s.step env m survivesFree e

/-- Client texts have no numbers but `int`s, and neither has what `response_code` holds unassigned. -/
def IntEvent : Event → Prop
  | .request _ raw => IntText raw
  | .answer _ un => InRange un.responseCode
  | .other c => InRange c.un.responseCode
  | _ => True

/-- The queries on their way are plain, and the columns of the database `int`s. -/
structure PlainMessages (s : Served) : Prop where
  queries : s.session.Queries Json.Plain
  columns : s.db.IntColumns

variable {env : Env} {m : Mysql} {survivesFree : Bool} {s : Served}

theorem step_plainMessages (henv : env.parse = Json.parse) (h : s.PlainMessages) {e : Event} (he : IntEvent e) :
    (s.step env m survivesFree e).PlainMessages where
  queries := by
    refine step_queries h.queries plain_userInfoQuery ?_
    rintro now raw rfl a stored query hf
    exact hf.plain henv he
  columns := by
    have hc := h.columns
    cases e with
    | request now raw =>
      simp only [step, request]
      split
      · split <;> exact hc
      · exact hc
    | answer fd un =>
      simp only [step, answer]
      split
      next query _ _ _ =>
        cases query.overWire with
        | none => exact hc
        | some q =>
          rw [child_snd]
          exact (handleAction_ints hc he q).2
      next => exact hc
    | reply now connect =>
      simp only [step, reply]
      split <;> exact hc
    | closed timeout =>
      simp only [step, closed]
      split <;> exact hc
    | gone => exact hc
    | other c => exact serve_intColumns hc he

/-- One step, in bytes and in messages. -/
theorem stepBytes_eq (h : s.PlainMessages) {e : Event} (he : IntEvent e) :
    s.stepBytes env m survivesFree e = s.step env m survivesFree e := by
  cases e with
  | answer fd un =>
    simp only [stepBytes, step, answerBytes, answer]
    rcases hconns : s.session.conns fd with _ | _ | ⟨query, rest⟩
    · cases s.peer fd <;> rfl
    · cases s.peer fd <;> rfl
    have hquery : Json.parse (readBuffer (query :: rest)) = query.overWire :=
      (h.queries fd _ hconns query List.mem_cons_self).readBuffer
    have hreply : ((child m survivesFree un s.db query.overWire).1.map fun reply => Json.parse (receiveBuffer reply)) =
        (child m survivesFree un s.db query.overWire).1.map Json.overWire := by
      refine Option.map_congr fun reply hr => ?_
      obtain ⟨q, -, hrun⟩ := child_fst hr
      exact ((handleAction_ints h.columns he q).1 reply hrun).received
    cases s.peer fd with
    | closed r => rfl
    | waiting =>
      dsimp only
      rw [hquery, hreply]
  | _ => rfl

/-- **The messages may be taken whole.** A session and the data server run on
the bytes of their messages as they run on the messages, each of which arrives
as it was or, too long for a buffer, does not parse. -/
theorem bytes_run (henv : env.parse = Json.parse) {d : Db} (hd : d.IntColumns) (fd : Int) {es : List Event}
    (hes : ∀ e ∈ es, IntEvent e) :
    Run.exec (stepBytes env m survivesFree) (start fd d) es = Run.exec (step env m survivesFree) (start fd d) es := by
  have halong : Run.Along (step env m survivesFree) (fun _ e => IntEvent e) (start fd d) es :=
    Run.along_of_forall hes
  exact halong.exec_congr (fun s e hs he => ⟨stepBytes_eq hs he, step_plainMessages henv hs he⟩)
    ⟨Session.start_queries fd, hd⟩

/-- An environment with cJSON itself. -/
def cjsonEnv : Env := { Env.ofTables [] [] with parse := Json.parse }

/-- Alice logs in, on connection 5 and then 6. -/
def aliceLogin : List Event :=
  [.request 0 "\x7b\"action\":0,\"key\":\"alice\",\"password\":\"sesame\"\x7d", .answer 5 .zero, .reply 0 6,
    .answer 6 .zero, .reply 0 7]

theorem bytes_run_aliceLogin :
    Run.exec (stepBytes cjsonEnv .tableOrder true) (start 5 .threeUsers) aliceLogin =
      Run.exec (step cjsonEnv .tableOrder true) (start 5 .threeUsers) aliceLogin := by
  have hcolumns : Db.threeUsers.IntColumns := ⟨nofun, nofun, nofun, by decide, by decide⟩
  refine bytes_run rfl hcolumns 5 ?_
  simp only [aliceLogin, List.forall_mem_cons, List.not_mem_nil, false_imp_iff, implies_true, and_true]
  refine ⟨fun j hj => ?_, (by decide : InRange 0), trivial, (by decide : InRange 0), trivial⟩
  have hread : Json.parse "\x7b\"action\":0,\"key\":\"alice\",\"password\":\"sesame\"\x7d" =
      some (.object [("action", .createNumber 0), ("key", .string "alice"), ("password", .string "sesame")]) := by
    decide +kernel
  cases hread.symm.trans hj
  intro d hd
  obtain rfl : d = (0 : Int) := by simpa [Json.createNumber, Json.numbers, Json.numbersOfFields] using hd
  exact ⟨0, rfl, by decide, by decide⟩

end Served

/-! ## What was relied on of cJSON -/

/-- A text of one byte is a number, if anything. -/
theorem parse_byte (b : UInt8) : (Json.parse (.ofBytes [b])).all Json.isNumber = true := by
  have hall : ∀ k : Fin 256, (Json.parse (.ofBytes [UInt8.ofNat k])).all Json.isNumber = true := by decide +kernel
  simpa using hall ⟨b.toNat, b.toNat_lt⟩

/-- What a session relies on of the parser to take a stream apart. -/
theorem parsesObjects_parse : ParsesObjects Json.parse where
  ignoresRest s t fs h := by
    obtain ⟨v, rest, rfl, hv⟩ := JsonParse.parse_split h rfl
    rw [JsonParse.parse_eq_parseText, CString.append_bytes, CString.append_bytes, List.append_assoc, hv]
    rfl
  failsCut s fs h := by
    obtain ⟨v, rest, rfl, hv⟩ := JsonParse.parse_split h rfl
    have hwhole := hv []
    rw [List.append_nil] at hwhole
    refine ⟨v, rest, rfl, ?_, fun p => JsonParse.parse_cut hwhole rfl⟩
    rw [JsonParse.parse_eq_parseText, hwhole]
    rfl
  braces s fs h := by
    rcases s with ⟨_ | ⟨b, _ | ⟨c, bs⟩⟩, hs⟩
    · cases h
    · have hone := parse_byte b
      have hs' : CString.ofBytes [b] = ⟨[b], hs⟩ := CString.ofBytes_bytes ⟨[b], hs⟩
      rw [hs', h] at hone
      cases hone
    · simp [CString.length]

/-- What the length of a reply is taken to decide: it parses whole, and cut short it does not. -/
theorem cjsonParses_plain {j : Json} (h : j.Plain) : CjsonParses (fun bs => Json.parse (.ofBytes bs)) j where
  whole := by
    have hall := h.parse_take j.print.length
    rwa [List.take_length, if_pos le_rfl] at hall
  cut n hn := (h.parse_take n).trans (if_neg (not_le.mpr hn))

end FinalServer
