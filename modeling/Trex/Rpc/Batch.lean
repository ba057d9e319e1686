/-
# JSON-RPC batches

The server parses a message into commands (trex_rpc_jsonrpc_v2_parser.cpp), executes them one after
the other and puts the responses into an array (`TrexRpcServerReqRes::handle_request`).  Only then
it looks whether there is one response, in which case it is sent without the array.

* The text of the message is parsed already; the commands are parameters, and may let an exception
  out, which no one catches: then there is no reply (`none`), and no server any more.
* `Answers` says what a batch is to be answered with.  That is what is sent, except for the batches
  of one request and of none, whose replies are no arrays (`conforms_iff`).
-/
import Trex.Rpc.Value

namespace Trex.Rpc

open List

/-! ## 1. The server -/

/-- How a command that returns can end: `trex_rpc_cmd_rc_e`. -/
inductive CmdRc
  | ok
  | parseErr
  | executeErr
  | internalErr
deriving DecidableEq, Repr

/-- `TrexRpcCommand::run`: the return code, the result and the state of the server behind it. -/
structure RpcCommand (σ : Type) where
  run : Json → σ → Option (CmdRc × Json × σ)

/-- The table of the commands, and how the library writes a real number. -/
structure RpcServer (σ : Type) where
  lookup : String → Option (RpcCommand σ)
  valueToString : Rat → String

/-- `TrexJsonRpcV2ParsedObject`: a `JsonRpcMethod` or a `JsonRpcError`. -/
inductive ParsedObject (σ : Type)
  | method (msgId : Json) (cmd : RpcCommand σ) (params : Json)
  | error (msgId : Json) (code : Int) (msg : String) (force : Bool)

/-- `JSONRPC_V2_ERR_PARSE` -/
def errParse : Int := -32700

/-- `JSONRPC_V2_ERR_INVALID_REQ` -/
def errInvalidReq : Int := -32600

/-- `JSONRPC_V2_ERR_METHOD_NOT_FOUND` -/
def errMethodNotFound : Int := -32601

/-- `JSONRPC_V2_ERR_INVALID_PARAMS` -/
def errInvalidParams : Int := -32602

/-- `JSONRPC_V2_ERR_INTERNAL_ERROR` -/
def errInternalError : Int := -32603

/-- `JSONRPC_V2_ERR_EXECUTE_ERROR` -/
def errExecuteError : Int := -32000

namespace Json

def isNull : Json → Bool
  | null => true
  | _ => false

/-- A value is a text. -/
def isText (v : Json) (text : String) : Bool :=
  match v with
  | string s => s == text
  | _ => false

end Json

namespace RpcServer

variable {σ : Type} (srv : RpcServer σ)

/-- `asString`, which throws for an array and an object. -/
def asString : Json → Option String
  | .null => some ""
  | .string s => some s
  | .boolean b => some (if b then "true" else "false")
  | .int v => some (toString v)
  | .uint v => some (toString v)
  | .real v => some (srv.valueToString v)
  | .array _ => none
  | .object _ => none

/-- `parse_single_request`; `operator[]` with a name throws for a value that is not an object. -/
def parseSingleRequest (request : Json) : Option (ParsedObject σ) :=
  if request.isObject = false ∧ request.isNull = false then none
  else
    let msgId := request.field "id"
    if (request.field "jsonrpc").isText "2.0" = false then
      some (.error msgId errInvalidReq "Invalid JSONRPC Version" false)
    else
      (srv.asString (request.field "method")).map fun methodName =>
        if methodName = "" then .error msgId errInvalidReq "Missing Method Name" false
        else
          match srv.lookup methodName with
          | none => .error msgId errMethodNotFound "Method not registered" false
          | some cmd => .method msgId cmd (request.field "params")

/-- `parse`; the message is `none` when it is no JSON text. -/
def parse : Option Json → Option (List (ParsedObject σ))
  | none => some [.error .null errParse "Bad JSON Format" true]
  | some (.array requests) => requests.mapM srv.parseSingleRequest
  | some request => (srv.parseSingleRequest request).map fun command => [command]

/-- The `error` member of a response. -/
def errorMember (code : Int) (msg : String) (specificErr : Option Json) : String × Json :=
  ("error", .object ([("code", .int code), ("message", .string msg)] ++
    (specificErr.map fun e => ("specific_err", e)).toList))

/-- The member that `JsonRpcMethod::_execute` adds. -/
def outcome (rc : CmdRc) (result : Json) : String × Json :=
  match rc with
  | .ok => ("result", result.field "result")
  | .parseErr => errorMember errInvalidParams "Bad paramters for method"
      (some (result.field "specific_err"))
  | .executeErr => errorMember errExecuteError "Failed To Execute Method"
      (some (result.field "specific_err"))
  | .internalErr => errorMember errInternalError "Internal Server Error"
      (some (result.field "specific_err"))

/-- What is sent of a command: nothing without an id, unless it is forced. -/
def singleResponse (msgId : Json) (force : Bool) (member : String × Json) : Json :=
  if msgId.isNull = false ∨
    force = true then .object [("jsonrpc", .string "2.0"), ("id", msgId), member]
  else .null

/-- `execute`, of a new response. -/
def execute (command : ParsedObject σ) (s : σ) : Option (Json × σ) :=
  match command with
  | .method msgId cmd params =>
    (cmd.run params s).map fun r => (singleResponse msgId false (outcome r.1 r.2.1), r.2.2)
  | .error msgId code msg force => some (singleResponse msgId force (errorMember code msg none), s)

/-- The loop of `handle_request` over the commands. -/
def executeAll : List (ParsedObject σ) → σ → Option (List Json × σ)
  | [], s => some ([], s)
  | command :: commands, s =>
    (execute command s).bind fun r => (executeAll commands r.2).map fun rest =>
      (r.1 :: rest.1, rest.2)

/-- `handle_request`: what is sent, and the state behind it.  The response is `null` until something
is put into it. -/
def handleRequest (request : Option Json) (s : σ) : Option (Json × σ) :=
  (srv.parse request).bind fun commands =>
    (executeAll commands s).map fun r =>
      let response := if r.1.isEmpty then .null else .array r.1
      (if response.size = 1 then response.at 0 else response, r.2)

/-! ## 2. What a message is to be answered with -/

/-- The method of a request, when it has the right version and a method that is registered. -/
def callOf (request : Json) : Option (RpcCommand σ) :=
  if (request.field "jsonrpc").isText "2.0" then
    (srv.asString (request.field "method")).bind fun methodName =>
      if methodName = "" then none else srv.lookup methodName
  else none

/-- An answer: the id of the request and one more member, or null when the request has no id. -/
def Entry (request : Json) (member : String × Json) (entry : Json) : Prop :=
  (∃ id, request.field "id" = id ∧ id.isNull = false ∧
    entry = .object [("jsonrpc", .string "2.0"), ("id", id), member]) ∨
  ((request.field "id").isNull = true ∧ entry = .null)

/-- **The answer to one request**: a valid one is executed, and answered with its result or error;
the others leave the state as it is, and are answered with an error. -/
inductive Answered : Json → σ → Json → σ → Prop
  | call {request entry result : Json} {s s' : σ} {cmd : RpcCommand σ} {rc : CmdRc}
      (hcall : srv.callOf request = some cmd) (hrun : cmd.run (request.field "params") s =
        some (rc, result, s'))
      (hentry : Entry request (outcome rc result) entry) : Answered request s entry s'
  | refused {request entry : Json} {s : σ} {code : Int} {msg : String} (hcall : srv.callOf request =
      none)
      (hentry : Entry request (errorMember code msg none) entry) : Answered request s entry s

/-- **The answers to a batch**, in the order of the requests. -/
inductive Answers : List Json → σ → List Json → σ → Prop
  | nil (s : σ) : Answers [] s [] s
  | cons {request entry : Json} {requests entries : List Json} {s s1 s' : σ}
      (hfirst : srv.Answered request s entry s1) (hrest : Answers requests s1 entries s') :
      Answers (request :: requests) s (entry :: entries) s'

/-- A message: an array of objects, or one object. -/
inductive Message
  | batch (requests : List Json)
  | single (request : Json)

namespace Message

def requests : Message → List Json
  | batch requests => requests
  | single request => [request]

end Message

/-- **How a message is to be answered**: a batch is answered by the array of the answers to its
requests, and a single request by its answer. -/
def Conforms (s : σ) : Message → Prop
  | .batch requests => ∃ entries s', srv.Answers requests s entries s' ∧
      srv.handleRequest (some (.array requests)) s = some (.array entries, s')
  | .single request => ∃ entry s', srv.Answered request s entry s' ∧
      srv.handleRequest (some request) s = some (entry, s')

/-- The name of the method can be read as a text, where it is read. -/
def NameReadable (request : Json) : Prop :=
  (request.field "jsonrpc").isText "2.0" = true → (srv.asString (request.field "method")).isSome

/-- No method of the requests lets an exception out, each in the state that those before it
leave. -/
def Returns : List Json → σ → Prop
  | [], _ => True
  | request :: requests, s =>
    match srv.callOf request with
    | none => Returns requests s
    | some cmd => ∃ rc result s', cmd.run (request.field "params") s = some (rc, result, s') ∧
        Returns requests s'

/-! ## 3. One request -/

variable {srv} {request entry : Json} {requests entries : List Json} {command : ParsedObject σ}
  {commands : List (ParsedObject σ)} {s s' : σ}

/-- What is sent of a command that is not forced is an answer. -/
theorem entry_singleResponse (request : Json) (member : String × Json) :
    Entry request member (singleResponse (request.field "id") false member) := by
  rw [singleResponse]
  cases hid : (request.field "id").isNull with
  | false =>
    rw [if_pos (.inl rfl)]
    exact .inl ⟨_, rfl, hid, rfl⟩
  | true =>
    rw [if_neg (by simp)]
    exact .inr ⟨hid, rfl⟩

/-- An answer is no array. -/
theorem Entry.ne_array {member : String × Json} (h : Entry request member entry) (vs : List Json) :
    entry ≠ .array vs := by
  rcases h with ⟨id, -, -, rfl⟩ | ⟨-, rfl⟩
  · exact fun h => by cases h
  · exact fun h => by cases h

theorem Answered.ne_array (h : srv.Answered request s entry s') (vs : List Json) :
    entry ≠ .array vs := by
  cases h with
  | call _ _ hentry => exact hentry.ne_array vs
  | refused _ hentry => exact hentry.ne_array vs

/-- **What a request is parsed to.** -/
theorem parseSingleRequest_eq (hobject : request.isObject = true)
    (hreadable : srv.NameReadable request) :
    ∃ command, srv.parseSingleRequest request = some command ∧
      (∀ cmd, srv.callOf request = some cmd →
        command = .method (request.field "id") cmd (request.field "params")) ∧
      (srv.callOf request = none →
          ∃ code msg, command = .error (request.field "id") code msg false) := by
  rw [parseSingleRequest, callOf, if_neg (by simp [hobject])]
  cases hversion : (request.field "jsonrpc").isText "2.0" with
  | false =>
    refine ⟨_, if_pos rfl, ?_, fun _ => ⟨_, _, rfl⟩⟩
    intro cmd hcmd
    cases hcmd
  | true =>
    obtain ⟨name, hname⟩ := Option.isSome_iff_exists.mp (hreadable hversion)
    simp only [Bool.true_eq_false, if_false, if_true, hname, Option.map_some, Option.bind_some]
    refine ⟨_, rfl, ?_, ?_⟩
    · intro cmd hcmd
      split at hcmd
      · cases hcmd
      · rename_i hne
        rw [if_neg hne, hcmd]
    · intro hnone
      split at hnone
      · rename_i hempty
        rw [if_pos hempty]
        exact ⟨_, _, rfl⟩
      · rename_i hne
        rw [if_neg hne, hnone]
        exact ⟨_, _, rfl⟩

/-- A name that cannot be read stops the server. -/
theorem parseSingleRequest_none (hreadable : ¬ srv.NameReadable request) :
    srv.parseSingleRequest request = none := by
  rw [NameReadable, Classical.not_imp] at hreadable
  obtain ⟨hversion, hname⟩ := hreadable
  rw [parseSingleRequest, hversion, Option.not_isSome_iff_eq_none.mp hname]
  simp

/-- **A command is executed**: its answer, as long as the method returns. -/
theorem execute_answered (hobject : request.isObject = true)
    (hparse : srv.parseSingleRequest request = some command) :
    (∀ entry s', execute command s = some (entry, s') → srv.Answered request s entry s') ∧
    (execute command s = none ↔ ∃ cmd, srv.callOf request = some cmd ∧
        cmd.run (request.field "params") s = none) := by
  have hreadable : srv.NameReadable request := by
    by_contra hnot
    rw [parseSingleRequest_none hnot] at hparse
    cases hparse
  obtain ⟨command', hparse', hmethod, herror⟩ := parseSingleRequest_eq hobject hreadable
  rw [hparse] at hparse'
  cases hparse'
  cases hcall : srv.callOf request with
  | none =>
    obtain ⟨code, msg, rfl⟩ := herror hcall
    refine ⟨fun entry s' hexec => ?_, iff_of_false (by simp [execute]) (by simp)⟩
    cases hexec
    exact .refused hcall (entry_singleResponse _ _)
  | some cmd =>
    rw [hmethod cmd hcall]
    refine ⟨fun entry s' hexec => ?_, ?_⟩
    · rw [execute] at hexec
      obtain ⟨r, hrun, hr⟩ := Option.map_eq_some_iff.mp hexec
      cases hr
      exact .call hcall hrun (entry_singleResponse _ _)
    · rw [execute, Option.map_eq_none_iff]
      simp

/-! ## 4. All requests -/

theorem parse_none (h : ∃ request ∈ requests, ¬ srv.NameReadable request) :
    requests.mapM srv.parseSingleRequest = none := by
  obtain ⟨request, hmem, hnot⟩ := h
  induction requests with
  | nil => cases hmem
  | cons first rest ih =>
    rw [mapM_cons]
    rcases mem_cons.mp hmem with rfl | hrest
    · rw [parseSingleRequest_none hnot]
      rfl
    · cases srv.parseSingleRequest first with
      | none => rfl
      | some command =>
        rw [ih hrest]
        rfl

/-- **The commands of a batch are executed**: the answers to its requests, as long as the methods
return. -/
theorem executeAll_answers (hobjects : ∀ request ∈ requests, request.isObject = true)
    (hparse : requests.mapM srv.parseSingleRequest = some commands) :
    (∀ entries s', executeAll commands s = some (entries, s') → srv.Answers requests s entries s') ∧
    ((executeAll commands s).isSome ↔ srv.Returns requests s) := by
  induction requests generalizing commands s with
  | nil =>
    cases hparse
    refine ⟨fun entries s' hexec => ?_, iff_of_true rfl trivial⟩
    cases hexec
    exact .nil s
  | cons request requests ih =>
    rw [mapM_cons] at hparse
    obtain ⟨command, hfirst, hparse⟩ := Option.bind_eq_some_iff.mp hparse
    obtain ⟨rest, hrest, hcommands⟩ := Option.bind_eq_some_iff.mp hparse
    cases hcommands
    obtain ⟨hobject, hobjects⟩ := forall_mem_cons.mp hobjects
    obtain ⟨hanswered, hnone⟩ := execute_answered (s := s) hobject hfirst
    rw [executeAll, Returns]
    cases hexec : execute command s with
    | none =>
      obtain ⟨cmd, hcall, hrun⟩ := hnone.mp hexec
      refine ⟨fun entries s' h => (by cases h), iff_of_false (by simp) ?_⟩
      rw [hcall]
      rintro ⟨rc, result, s', hrun', -⟩
      rw [hrun] at hrun'
      cases hrun'
    | some r =>
      obtain ⟨entry, s1⟩ := r
      obtain ⟨hanswers, hreturns⟩ := ih (s := s1) hobjects hrest
      rw [Option.bind_some]
      refine ⟨fun entries s' h => ?_, ?_⟩
      · obtain ⟨r', hr', hentries⟩ := Option.map_eq_some_iff.mp h
        cases hentries
        exact .cons (hanswered _ _ hexec) (hanswers _ _ hr')
      · rw [Option.isSome_map, hreturns]
        cases hcall : srv.callOf request with
        | none =>
          -- the state is the one before
          have hsame : s1 = s := by
            cases hanswered _ _ hexec with
            | call hcall' => rw [hcall] at hcall'; cases hcall'
            | refused => rfl
          rw [hsame]
        | some cmd =>
          dsimp only
          cases hanswered _ _ hexec with
          | refused hcall' => rw [hcall] at hcall'; cases hcall'
          | call hcall' hrun _ =>
            rw [hcall] at hcall'
            cases hcall'
            refine ⟨fun h => ⟨_, _, _, hrun, h⟩, ?_⟩
            rintro ⟨rc, result, s', hrun', h⟩
            rw [hrun] at hrun'
            cases hrun'
            exact h

theorem Answers.length_eq (h : srv.Answers requests s entries s') :
    entries.length = requests.length := by
  induction h with
  | nil => rfl
  | cons _ _ ih => rw [length_cons, length_cons, ih]

/-! ## 5. Messages -/

/-- What is sent of the answers of a batch. -/
def sentOf : List Json → Json
  | [] => .null
  | [entry] => entry
  | entries => .array entries

/-- **A batch is handled**: the commands it is parsed to, executed, and what is sent of their
answers. -/
theorem handleRequest_batch (hparse : requests.mapM srv.parseSingleRequest = some commands)
    (hexec : executeAll commands s = some (entries, s')) :
    srv.handleRequest (some (.array requests)) s = some (sentOf entries, s') := by
  rw [handleRequest, parse, hparse, Option.bind_some, hexec, Option.map_some]
  cases entries with
  | nil => rfl
  | cons entry rest =>
    cases rest with
    | nil => rfl
    | cons entry' rest => simp [Json.size, sentOf]

theorem handleRequest_single (hobject : request.isObject = true) (s : σ) :
    srv.handleRequest (some request) s =
      (srv.parseSingleRequest request).bind fun command => execute command s := by
  cases request with
  | object members =>
    have hone : srv.parse (some (.object members)) =
        (srv.parseSingleRequest (.object members)).map fun command => [command] := rfl
    rw [handleRequest, hone]
    cases srv.parseSingleRequest (.object members) with
    | none => rfl
    | some command =>
      simp only [Option.map_some, Option.bind_some, executeAll]
      cases execute command s with
      | none => rfl
      | some r => rfl
  | _ => cases hobject

/-- A batch is answered as the protocol says when it has two requests or more. -/
theorem conforms_batch (hobjects : ∀ request ∈ requests, request.isObject = true) :
    srv.Conforms s (.batch requests) ↔ 2 ≤ requests.length ∧
      (∀ request ∈ requests, srv.NameReadable request) ∧ srv.Returns requests s := by
  by_cases hreadable : ∀ request ∈ requests, srv.NameReadable request
  · obtain ⟨commands, hparse⟩ : ∃ commands, requests.mapM srv.parseSingleRequest =
        some commands := by
      induction requests with
      | nil => exact ⟨[], rfl⟩
      | cons request requests ih =>
        obtain ⟨hobject, hobjects⟩ := forall_mem_cons.mp hobjects
        obtain ⟨hname, hnames⟩ := forall_mem_cons.mp hreadable
        obtain ⟨command, hcommand, -⟩ := parseSingleRequest_eq hobject hname
        obtain ⟨commands, hcommands⟩ := ih hobjects hnames
        refine ⟨command :: commands, ?_⟩
        rw [mapM_cons, hcommand, hcommands]
        rfl
    obtain ⟨hanswers, hreturns⟩ := executeAll_answers (s := s) hobjects hparse
    cases hexec : executeAll commands s with
    | none =>
      rw [hexec] at hreturns
      refine iff_of_false ?_ fun h => by simpa using hreturns.mpr h.2.2
      rintro ⟨entries, s', -, hhandle⟩
      rw [handleRequest, parse, hparse, Option.bind_some, hexec] at hhandle
      cases hhandle
    | some r =>
      obtain ⟨entries, s'⟩ := r
      have hall := hanswers _ _ hexec
      have hlength := hall.length_eq
      have hhandle := handleRequest_batch hparse hexec
      rw [hexec] at hreturns
      refine ⟨?_, fun h => ⟨entries, s', hall, ?_⟩⟩
      · rintro ⟨entries', s'', hall', hhandle'⟩
        refine ⟨?_, hreadable, hreturns.mp rfl⟩
        rw [hhandle] at hhandle'
        cases entries with
        | nil => cases hhandle'
        | cons entry rest =>
          cases rest with
          | nil =>
            -- a batch of one: the entry itself is sent
            cases hall with
            | cons hfirst hrest =>
              have hsent : entry = .array entries' :=
                (Prod.ext_iff.mp (Option.some_inj.mp hhandle')).1
              exact absurd hsent (hfirst.ne_array entries')
          | cons entry' rest =>
            rw [← hlength, length_cons, length_cons]
            omega
      · rw [hhandle]
        cases entries with
        | nil =>
          rw [length_nil] at hlength
          omega
        | cons entry rest =>
          cases rest with
          | nil =>
            rw [length_singleton] at hlength
            omega
          | cons entry' rest => rfl
  · have hnone : requests.mapM srv.parseSingleRequest = none := by
      refine parse_none ?_
      by_contra hnot
      exact hreadable fun request hmem => by_contra fun hname => hnot ⟨request, hmem, hname⟩
    refine iff_of_false ?_ fun h => hreadable h.2.1
    rintro ⟨entries, s', -, hhandle⟩
    rw [handleRequest, parse, hnone] at hhandle
    cases hhandle

/-- A single request is answered as the protocol says, if its method can be read and returns. -/
theorem conforms_single (hobject : request.isObject = true) :
    srv.Conforms s (.single request) ↔ srv.NameReadable request ∧ srv.Returns [request] s := by
  rw [Conforms, handleRequest_single hobject]
  by_cases hname : srv.NameReadable request
  · obtain ⟨command, hparse, -⟩ := parseSingleRequest_eq hobject hname
    have hlist : [request].mapM srv.parseSingleRequest = some [command] := by
      rw [mapM_cons, hparse]
      rfl
    obtain ⟨-, hreturns⟩ := executeAll_answers (s := s)
      (forall_mem_singleton.mpr hobject) hlist
    obtain ⟨hanswered, -⟩ := execute_answered (s := s) hobject hparse
    rw [hparse, Option.bind_some, ← hreturns, executeAll]
    cases hexec : execute command s with
    | none => simp
    | some r =>
      refine iff_of_true ⟨r.1, r.2, hanswered _ _ hexec, rfl⟩ ⟨hname, rfl⟩
  · rw [parseSingleRequest_none hname]
    simp [hname]

/-- **A message is answered as the protocol says exactly when** it is no batch of one request or of
none, every method name can be read, and no method lets an exception out. -/
theorem conforms_iff (srv : RpcServer σ) (s : σ) (msg : Message)
    (hobjects : ∀ request ∈ msg.requests, request.isObject = true) :
    srv.Conforms s msg ↔ (∀ requests, msg = .batch requests → requests.length ≠ 0 ∧
      requests.length ≠ 1) ∧
      (∀ request ∈ msg.requests, srv.NameReadable request) ∧ srv.Returns msg.requests s := by
  cases msg with
  | batch requests =>
    have hlength : (∀ requests', Message.batch requests = .batch requests' →
        requests'.length ≠ 0 ∧ requests'.length ≠ 1) ↔ 2 ≤ requests.length := by
      refine ⟨fun h => ?_, ?_⟩
      · have hne := h requests rfl
        omega
      · rintro hle requests' heq
        cases heq
        omega
    rw [hlength]
    exact conforms_batch hobjects
  | single request =>
    have hone : ∀ requests, Message.single request = .batch requests → requests.length ≠ 0 ∧
        requests.length ≠ 1 :=
      fun requests h => by cases h
    rw [conforms_single (hobjects request mem_cons_self)]
    simp only [Message.requests, forall_mem_singleton]
    exact ⟨fun h => ⟨hone, h⟩, fun h => h.2⟩

end RpcServer

/-- A server that knows "ping" and counts how often it was called. -/
def pingServer : RpcServer Nat where
  lookup name := if name = "ping" then
    some ⟨fun _ calls => some (.ok, .object [("result", .string "ACK")], calls + 1)⟩ else none
  valueToString _ := ""

/-- A request, with an id or without one. -/
def ping (id : Json) :
    Json := .object [("jsonrpc", .string "2.0"), ("method", .string "ping"), ("id", id)]

/-- A request, one without an id, and one that has no version. -/
theorem RpcServer.conforms_iff_three :
    pingServer.Conforms 0 (.batch [ping (.int 1), ping .null, .object [("foo", .string "boo")]]) :=
  (conforms_iff pingServer 0 (.batch [ping (.int 1), ping .null, .object [("foo", .string "boo")]])
    (by decide)).mpr ⟨fun requests h => by cases h; decide,
      forall_mem_cons.mpr ⟨fun _ => rfl, forall_mem_cons.mpr ⟨fun _ => rfl,
        forall_mem_singleton.mpr fun _ => rfl⟩⟩,
      ⟨_, _, _, rfl, _, _, _, rfl, trivial⟩⟩

/-- **A batch of one request** is answered without an array. -/
theorem RpcServer.one_not_conforms : ¬ pingServer.Conforms 0 (.batch [ping (.int 1)]) := by
  rintro ⟨entries, s', -, hhandle⟩
  cases hhandle

end Trex.Rpc
