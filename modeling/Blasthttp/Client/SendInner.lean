/-
# Blasthttp.Client.SendInner -- the redirect loop and the requests of one client

`Walk` is what `send_inner` carries from hop to hop; `dispatch`, `follow` and
`response` are the pieces of its loop between the points where it waits.  `System` is
one `HyperClient` with the requests under way on it: any of them may take its next
piece, and any of them may have its pool open a connection or be answered over one
that is there, in any order.

Requests with a `resolve_ip` or a `request_target` take another path and never touch
the client, so none of them is in the system.
-/
import Blasthttp.Lib.Places
import Blasthttp.Lib.Runs
import Blasthttp.Client.Redirect
import Blasthttp.Client.Stream

namespace Blasthttp.Client

open Blasthttp.Rust Blasthttp.Http Blasthttp.Cookies Blasthttp.Lib.Places Blasthttp.Lib.Runs

set_option autoImplicit false

/-- What the program rests on. -/
structure Env where
  http : HttpCrate
  openssl : OpenSsl
  psl : Str → Option Str

/-! ## Responses -/

/-- What `parse_response` makes of an answer. -/
structure SingleResponse where
  status : UInt16
  headers : List Line
  bodyBytes : List UInt8
  location : Option Str
  decodeError : Option Str

/-- The peer's address stands for its text. -/
structure RedirectHop where
  url : Str
  status : UInt16
  peerIp : Option IpAddr

structure Response where
  url : Str
  status : UInt16
  headers : List Line
  bodyBytes : List UInt8
  redirectChain : List RedirectHop
  certInfo : Option CertInfo
  peerIp : Option IpAddr
  requestUrl : Str
  requestMethod : Str
  decodeError : Option Str

def isRedirect (status : UInt16) : Bool :=
  status = 301 || status = 302 || status = 303 || status = 307 || status = 308

/-! ## The pieces of the loop -/

structure Walk where
  uri : Uri
  redirectChain : List RedirectHop
  hops : UInt32
  chainCookies : Option ChainCookies
  hopCookies : Option Str

/-- The state in front of the loop. -/
def Walk.start (config : RequestConfig) (uri : Uri) : Walk where
  uri := uri
  redirectChain := []
  hops := 0
  chainCookies :=
    if config.shouldForwardRedirectCookies then
      some (ChainCookies.withCallerCookies (callerCookieNames config.headerList))
    else none
  hopCookies := none

/-- How a request leaves: over a socket to a forward proxy, or by a pooled client. -/
inductive Via where
  | forward (proxyUri : Uri)
  | pooled (cached : CachedClient)

/-- A request on its way. -/
structure Dispatch where
  uri : Uri
  via : Via
  request : Request

/-- `dispatch_forward_proxy` up to the request; `connected` is the connection to the
proxy with its HTTP/1.1 handshake. -/
def Walk.dispatchForwardProxy (http : HttpCrate) (config : RequestConfig) (walk : Walk)
    (proxyUrl : Str) (connected : Str → Nat → Except ClientError Unit) :
    Except ClientError Dispatch := do
  let proxyUri ← (http.parse proxyUrl).mapError invalidProxyUrl
  match proxyUri.host with
  | none => throw ⟨"proxy URL has no host".toList, .other⟩
  | some proxyHost =>
      connected proxyHost (proxyUri.portU16.getD 8080)
      let request ← buildRequest http walk.uri config false true walk.hopCookies
      pure { uri := walk.uri, via := .forward proxyUri, request := request }

/-- `dispatch_request` up to the request. -/
def Walk.dispatchRequest (http : HttpCrate) (config : RequestConfig) (walk : Walk)
    (cached : CachedClient) : Except ClientError Dispatch := do
  let request ← buildRequest http walk.uri config false false walk.hopCookies
  pure { uri := walk.uri, via := .pooled cached, request := request }

/-- The loop body up to the request.  The mode is the current target's. -/
def Walk.dispatch (env : Env) (config : RequestConfig) (client : HyperClient) (walk : Walk)
    (connected : Str → Nat → Except ClientError Unit) : HyperClient × Except Fault Dispatch :=
  match connMode env.http.parse config walk.uri with
  | .error e => (client, .error (.error e))
  | .ok (.forwardProxy proxyUrl) =>
      (client, (walk.dispatchForwardProxy env.http config proxyUrl connected).mapError Fault.error)
  | .ok mode =>
      match client.getOrBuild env.openssl env.http.parse config mode with
      | .error fault => (client, .error fault)
      | .ok (cached, client) =>
          (client, (walk.dispatchRequest env.http config cached).mapError Fault.error)

/-- The chain's cookies for the next hop, once this one's are stored. -/
def Walk.carryCookies (env : Env) (walk : Walk) (response : SingleResponse) (next : Uri)
    (clock : Nat → Int) : Except Fault (Option ChainCookies × Option Str) :=
  match walk.chainCookies with
  | none => .ok (none, walk.hopCookies)
  | some chain =>
      match chain.store env.psl response.headers walk.uri clock with
      | .error _ => .error .panicked
      | .ok (chain, _) => .ok (some chain, chain.headerFor next)

/-- The branch of a redirect that is followed. -/
def Walk.follow (env : Env) (config : RequestConfig) (walk : Walk) (response : SingleResponse)
    (peerIp : Option IpAddr) (clock : Nat → Int) : Except Fault Walk :=
  let hops := walk.hops + 1
  if config.redirectLimit < hops then
    .error (.error
      ⟨"too many redirects (limit: ".toList ++ decimalText config.redirectLimit.toNat ++
        ")".toList, .tooManyRedirects⟩)
  else
    match response.location with
    | none =>
        .error (.error
          ⟨"redirect ".toList ++ decimalText response.status.toNat ++
            " but no Location header".toList, .other⟩)
    | some location =>
        match resolveRedirect env.http.parse walk.uri location with
        | .error e => .error (.error e)
        | .ok next =>
            match walk.carryCookies env response next clock with
            | .error fault => .error fault
            | .ok (chainCookies, hopCookies) =>
                .ok
                  { uri := next
                    redirectChain :=
                      walk.redirectChain ++ [⟨walk.uri.toStr, response.status, peerIp⟩]
                    hops := hops
                    chainCookies := chainCookies
                    hopCookies := hopCookies }

/-- What is returned once the loop is left. -/
def Walk.response (config : RequestConfig) (walk : Walk) (response : SingleResponse)
    (certInfo : Option CertInfo) (peerIp : Option IpAddr) : Response where
  url := walk.uri.toStr
  status := response.status
  headers := response.headers
  bodyBytes := response.bodyBytes
  redirectChain := walk.redirectChain
  certInfo := certInfo
  peerIp := peerIp
  requestUrl := config.url
  requestMethod := config.methodOrGet
  decodeError := response.decodeError

/-- `is_redirect(resp.status) && config.should_follow_redirects()`. -/
def goesOn (config : RequestConfig) (response : SingleResponse) : Bool :=
  isRedirect response.status && config.shouldFollowRedirects

/-! ## Requests under way -/

/-- An answered request, and the pooled connection that carried it. -/
structure Exchange where
  dispatch : Dispatch
  connection : Option Nat
  response : SingleResponse

inductive Phase where
  /-- At the top of the loop. -/
  | ready
  | waiting (dispatch : Dispatch)
  | answered (exchange : Exchange)
  /-- Out of the loop, with the peer's address in hand. -/
  | closing (exchange : Exchange) (peerIp : Option IpAddr)
  | done (result : Except Fault Response)
  /-- Cancelled by the timeout around it. -/
  | dropped

/-- A call of `send_inner`, with all it sent and was answered. -/
structure Task where
  config : RequestConfig
  walk : Walk
  sent : List Dispatch
  answers : List Exchange
  phase : Phase

def Task.start (config : RequestConfig) (uri : Uri) : Task where
  config := config
  walk := Walk.start config uri
  sent := []
  answers := []
  phase := .ready

/-! ## The system -/

/-- A connection a client's pool opened for a request to `origin`; the client is named
by its slots. -/
structure Connection where
  slot : Nat
  origin : Uri
  attempt : Attempt

/-- hyper's pool hands a connection to requests with its scheme and authority. -/
def Connection.carries (connection : Connection) (cached : CachedClient) (uri : Uri) : Bool :=
  connection.slot = cached.certSlot && connection.attempt.stream.toBool &&
    connection.origin.poolKey = uri.poolKey

/-- One `HyperClient`: the cache, the slots of its clients and the connections opened,
oldest first, with the requests started on it. -/
structure System where
  client : HyperClient
  certs : Nat → Option CertInfo
  peers : Nat → Str → Option IpAddr
  connections : List Connection
  tasks : List Task

def System.init : System where
  client := HyperClient.new
  certs := fun _ => none
  peers := fun _ _ => none
  connections := []
  tasks := []

def System.setTask (sys : System) (i : Nat) (task : Task) : System :=
  { sys with tasks := sys.tasks.set i task }

/-- The slot writes of a connector call. -/
def System.record (sys : System) (slot : Nat) (origin : Uri) (attempt : Attempt) : System :=
  { sys with
    certs :=
      match attempt.cert with
      | some cert => Function.update sys.certs slot cert
      | none => sys.certs
    peers :=
      match attempt.peer with
      | some (key, ip) =>
          Function.update sys.peers slot (Function.update (sys.peers slot) key (some ip))
      | none => sys.peers
    connections := sys.connections ++ [⟨slot, origin, attempt⟩] }

/-- `hop_peer_ip`: only pooled clients have a peer slot. -/
def System.hopPeerIp (sys : System) (dispatch : Dispatch) : Option IpAddr :=
  match peerSlotKey dispatch.uri, dispatch.via with
  | some key, .pooled cached => sys.peers cached.peerSlot key
  | _, _ => none

/-- The final read of the certificate slot. -/
def System.certInfo (sys : System) (dispatch : Dispatch) : Option CertInfo :=
  match dispatch.via with
  | .pooled cached => sys.certs cached.certSlot
  | .forward _ => none

inductive Action where
  | start (config : RequestConfig)
  | dispatch (task : Nat) (connected : Str → Nat → Except ClientError Unit)
  /-- The pool opens a connection for a request a task sent, answered or not. -/
  | connect (task hop : Nat) (network : Network)
  | respond (task : Nat) (connection : Option Nat) (response : SingleResponse)
  | fail (task : Nat) (error : ClientError)
  | settle (task : Nat) (clock : Nat → Int)
  | finish (task : Nat)
  | drop (task : Nat)

/-- What a task makes of its dispatch. -/
def Task.dispatched (task : Task) : Except Fault Dispatch → Task
  | .ok dispatch =>
      { task with
        sent := task.sent ++ [dispatch]
        phase := .waiting dispatch }
  | .error fault => { task with phase := .done (.error fault) }

def Task.answer (task : Task) (exchange : Exchange) : Task :=
  { task with
    answers := task.answers ++ [exchange]
    phase := .answered exchange }

/-- Go on to the next hop, or leave the loop. -/
def Task.settle (env : Env) (task : Task) (exchange : Exchange) (peerIp : Option IpAddr)
    (clock : Nat → Int) : Task :=
  if goesOn task.config exchange.response then
    match task.walk.follow env task.config exchange.response peerIp clock with
    | .error fault => { task with phase := .done (.error fault) }
    | .ok walk =>
        { task with
          walk := walk
          phase := .ready }
  else { task with phase := .closing exchange peerIp }

/-- Whether an answer over this connection can reach the request. -/
def System.delivers (sys : System) (dispatch : Dispatch) (connection : Option Nat) : Bool :=
  match dispatch.via, connection with
  | .forward _, none => true
  | .pooled cached, some i =>
      match sys.connections[i]? with
      | some held => held.carries cached dispatch.uri
      | none => false
  | _, _ => false

/-- The next piece of a task, with the cache after it. -/
def System.moveTask (env : Env) (sys : System) (task : Task) : Action → Option (HyperClient × Task)
  | .dispatch _ connected =>
      match task.phase with
      | .ready =>
          let (client, result) := task.walk.dispatch env task.config sys.client connected
          some (client, task.dispatched result)
      | _ => none
  | .respond _ connection response =>
      match task.phase with
      | .waiting dispatch =>
          if sys.delivers dispatch connection then
            some (sys.client, task.answer ⟨dispatch, connection, response⟩)
          else none
      | _ => none
  | .fail _ error =>
      match task.phase with
      | .waiting _ => some (sys.client, { task with phase := .done (.error (.error error)) })
      | _ => none
  | .settle _ clock =>
      match task.phase with
      | .answered exchange =>
          some (sys.client,
            task.settle env exchange (sys.hopPeerIp exchange.dispatch) clock)
      | _ => none
  | .finish _ =>
      match task.phase with
      | .closing exchange peerIp =>
          let certInfo := sys.certInfo exchange.dispatch
          let response := task.walk.response task.config exchange.response certInfo peerIp
          some (sys.client, { task with phase := .done (.ok response) })
      | _ => none
  | .drop _ =>
      match task.phase with
      | .done _ => none
      | _ => some (sys.client, { task with phase := .dropped })
  | _ => none

/-- A request that never enters the loop leaves the client alone. -/
def System.startTask (env : Env) (sys : System) (config : RequestConfig) : System :=
  if config.resolveIp.isSome || config.requestTarget.isSome then sys
  else
    match env.http.parse (sanitizeUri config.url) with
    | .error _ => sys
    | .ok uri => { sys with tasks := sys.tasks ++ [Task.start config uri] }

/-- The request a connection is opened for. -/
def System.sentBy (sys : System) (i hop : Nat) : Option Dispatch :=
  match sys.tasks[i]? with
  | some task => task.sent[hop]?
  | none => none

def Action.task : Action → Nat
  | .start _ => 0
  | .dispatch task _ => task
  | .connect task _ _ => task
  | .respond task _ _ => task
  | .fail task _ => task
  | .settle task _ => task
  | .finish task => task
  | .drop task => task

def System.step (env : Env) (sys : System) : Action → Option System
  | .start config => some (sys.startTask env config)
  | .connect i hop network =>
      match sys.sentBy i hop with
      | some ⟨uri, .pooled cached, _⟩ =>
          some (sys.record cached.certSlot uri (cached.inner.connect network uri))
      | _ => none
  | action =>
      match sys.tasks[action.task]? with
      | none => none
      | some task =>
          match sys.moveTask env task action with
          | none => none
          | some (client, task') =>
              some ({ sys with client := client }.setTask action.task task')

/-! ## What a step can do -/

/-- What a task can do next, in a system. -/
inductive Move (env : Env) (sys : System) (task : Task) : Action → HyperClient → Task → Prop
  | dispatched {i : Nat} {connected : Str → Nat → Except ClientError Unit} {client : HyperClient}
      {result : Except Fault Dispatch} (phase : task.phase = .ready)
      (sent : task.walk.dispatch env task.config sys.client connected = (client, result)) :
      Move env sys task (.dispatch i connected) client (task.dispatched result)
  | answered {i : Nat} {connection : Option Nat} {response : SingleResponse} {dispatch : Dispatch}
      (phase : task.phase = .waiting dispatch)
      (delivers : sys.delivers dispatch connection = true) :
      Move env sys task (.respond i connection response) sys.client
        (task.answer ⟨dispatch, connection, response⟩)
  | failed {i : Nat} {error : ClientError} {dispatch : Dispatch}
      (phase : task.phase = .waiting dispatch) :
      Move env sys task (.fail i error) sys.client
        { task with phase := .done (.error (.error error)) }
  | settled {i : Nat} {clock : Nat → Int} {exchange : Exchange}
      (phase : task.phase = .answered exchange) :
      Move env sys task (.settle i clock) sys.client
        (task.settle env exchange (sys.hopPeerIp exchange.dispatch) clock)
  | finished {i : Nat} {exchange : Exchange} {peerIp : Option IpAddr}
      (phase : task.phase = .closing exchange peerIp) :
      Move env sys task (.finish i) sys.client
        { task with
          phase := .done (.ok (task.walk.response task.config exchange.response
            (sys.certInfo exchange.dispatch) peerIp)) }
  | dropped {i : Nat} (phase : ∀ result, task.phase ≠ .done result) :
      Move env sys task (.drop i) sys.client { task with phase := .dropped }

theorem moveTask_move {env : Env} {sys : System} {task task' : Task} {action : Action}
    {client : HyperClient} (moved : sys.moveTask env task action = some (client, task')) :
    Move env sys task action client task' := by
  cases action with
  | start config => cases moved
  | connect i hop network => cases moved
  | dispatch i connected =>
      simp only [System.moveTask] at moved
      split at moved
      · rename_i phase
        cases moved
        exact .dispatched phase rfl
      · cases moved
  | respond i connection response =>
      simp only [System.moveTask] at moved
      split at moved
      · rename_i dispatch phase
        split at moved
        · rename_i delivers
          cases moved
          exact .answered phase delivers
        · cases moved
      · cases moved
  | fail i error =>
      simp only [System.moveTask] at moved
      split at moved
      · rename_i dispatch phase
        cases moved
        exact .failed phase
      · cases moved
  | settle i clock =>
      simp only [System.moveTask] at moved
      split at moved
      · rename_i exchange phase
        cases moved
        exact .settled phase
      · cases moved
  | finish i =>
      simp only [System.moveTask] at moved
      split at moved
      · rename_i exchange peerIp phase
        cases moved
        exact .finished phase
      · cases moved
  | drop i =>
      simp only [System.moveTask] at moved
      split at moved
      · cases moved
      · rename_i under
        cases moved
        exact .dropped under

/-- Every step starts a task, records a connection, or moves one task. -/
theorem step_cases {env : Env} {sys sys' : System} {action : Action}
    (stepped : sys.step env action = some sys') :
    (∃ config, action = .start config ∧ sys' = sys.startTask env config) ∨
    (∃ i hop network dispatch cached, action = .connect i hop network ∧
      sys.sentBy i hop = some dispatch ∧ dispatch.via = .pooled cached ∧
      sys' = sys.record cached.certSlot dispatch.uri
        (cached.inner.connect network dispatch.uri)) ∨
    (∃ task client task', sys.tasks[action.task]? = some task ∧
      Move env sys task action client task' ∧
      sys' = { sys with client := client }.setTask action.task task') := by
  have moves : ∀ a, (match sys.tasks[a.task]? with
      | none => none
      | some task =>
          match sys.moveTask env task a with
          | none => none
          | some (client, task') =>
              some ({ sys with client := client }.setTask a.task task')) = some sys' →
      ∃ task client task', sys.tasks[a.task]? = some task ∧ Move env sys task a client task' ∧
        sys' = { sys with client := client }.setTask a.task task' := by
    intro a moved
    split at moved
    · cases moved
    · rename_i task there
      split at moved
      · cases moved
      · rename_i client task' next
        cases moved
        exact ⟨task, client, task', there, moveTask_move next, rfl⟩
  cases action with
  | start config =>
      cases stepped
      exact .inl ⟨config, rfl, rfl⟩
  | connect i hop network =>
      simp only [System.step] at stepped
      split at stepped
      · rename_i uri cached request sent
        cases stepped
        exact .inr (.inl ⟨i, hop, network, _, cached, rfl, sent, rfl, rfl⟩)
      · cases stepped
  | dispatch i connected => exact .inr (.inr (moves _ stepped))
  | respond i connection response => exact .inr (.inr (moves _ stepped))
  | fail i error => exact .inr (.inr (moves _ stepped))
  | settle i clock => exact .inr (.inr (moves _ stepped))
  | finish i => exact .inr (.inr (moves _ stepped))
  | drop i => exact .inr (.inr (moves _ stepped))

/-! ## Tasks over whole runs -/

/-- The pooled client of a dispatch was made for the mode of its target. -/
def Dispatch.Pooled (env : Env) (config : RequestConfig) (dispatch : Dispatch) : Prop :=
  ∀ cached, dispatch.via = .pooled cached → ∃ mode,
    connMode env.http.parse config dispatch.uri = .ok mode ∧
      Made env.openssl env.http.parse cached.certSlot mode cached

/-- A forward proxy is the one of a plain target's mode. -/
def Dispatch.Forwarded (env : Env) (config : RequestConfig) (dispatch : Dispatch) : Prop :=
  ∀ proxyUri, dispatch.via = .forward proxyUri → ∃ proxyUrl,
    connMode env.http.parse config dispatch.uri = .ok (.forwardProxy proxyUrl) ∧
      env.http.parse proxyUrl = .ok proxyUri

theorem Walk.dispatchForwardProxy_ok {http : HttpCrate} {config : RequestConfig} {walk : Walk}
    {proxyUrl : Str} {connected : Str → Nat → Except ClientError Unit} {dispatch : Dispatch}
    (sent : walk.dispatchForwardProxy http config proxyUrl connected = .ok dispatch) :
    ∃ proxyUri proxyHost request, http.parse proxyUrl = .ok proxyUri ∧
      proxyUri.host = some proxyHost ∧
      connected proxyHost (proxyUri.portU16.getD 8080) = .ok () ∧
      buildRequest http walk.uri config false true walk.hopCookies = .ok request ∧
      dispatch = { uri := walk.uri, via := .forward proxyUri, request := request } := by
  unfold Walk.dispatchForwardProxy at sent
  obtain ⟨proxyUri, parsed, sent⟩ := bind_ok.mp sent
  split at sent
  · cases sent
  · rename_i proxyHost named
    obtain ⟨_, reached, sent⟩ := bind_ok.mp sent
    obtain ⟨request, built, sent⟩ := bind_ok.mp sent
    cases sent
    exact ⟨proxyUri, proxyHost, request, mapError_ok.mp parsed, named, reached, built, rfl⟩

theorem Walk.dispatchRequest_ok {http : HttpCrate} {config : RequestConfig} {walk : Walk}
    {cached : CachedClient} {dispatch : Dispatch}
    (sent : walk.dispatchRequest http config cached = .ok dispatch) :
    ∃ request, buildRequest http walk.uri config false false walk.hopCookies = .ok request ∧
      dispatch = { uri := walk.uri, via := .pooled cached, request := request } := by
  obtain ⟨request, built, sent⟩ := bind_ok.mp sent
  cases sent
  exact ⟨request, built, rfl⟩

theorem Walk.dispatch_spec {env : Env} {config : RequestConfig} {client client' : HyperClient}
    (sound : client.Sound env.openssl env.http.parse) {walk : Walk}
    {connected : Str → Nat → Except ClientError Unit} {result : Except Fault Dispatch}
    (sent : walk.dispatch env config client connected = (client', result)) :
    client'.Sound env.openssl env.http.parse ∧
      ∀ dispatch, result = .ok dispatch → dispatch.uri = walk.uri ∧
        dispatch.Pooled env config ∧ dispatch.Forwarded env config := by
  unfold Walk.dispatch at sent
  split at sent
  · cases sent
    exact ⟨sound, fun _ there => by cases there⟩
  · rename_i proxyUrl chosen
    cases sent
    refine ⟨sound, ?_⟩
    intro dispatch there
    obtain ⟨proxyUri, -, -, parsed, -, -, -, rfl⟩ :=
      Walk.dispatchForwardProxy_ok (mapError_ok.mp there)
    refine ⟨rfl, (fun cached via => by cases via), ?_⟩
    intro proxyUri' via
    cases via
    exact ⟨proxyUrl, chosen, parsed⟩
  · rename_i mode _ chosen
    split at sent
    · cases sent
      exact ⟨sound, fun _ there => by cases there⟩
    · rename_i cached client'' got
      cases sent
      obtain ⟨sound', made, -, -⟩ := HyperClient.getOrBuild_spec sound chosen got
      refine ⟨sound', ?_⟩
      intro dispatch there
      obtain ⟨request, -, rfl⟩ := Walk.dispatchRequest_ok (mapError_ok.mp there)
      refine ⟨rfl, ?_, fun proxyUri via => by cases via⟩
      intro cached' via
      cases via
      exact ⟨mode, chosen, made⟩

theorem Move.sound {env : Env} {sys : System} {task task' : Task} {action : Action}
    {client : HyperClient} (sound : sys.client.Sound env.openssl env.http.parse)
    (moved : Move env sys task action client task') :
    client.Sound env.openssl env.http.parse := by
  cases moved with
  | dispatched phase sent => exact (Walk.dispatch_spec sound sent).1
  | _ => exact sound

theorem System.setTask_tasks {sys : System} {i : Nat} {task : Task} {j : Nat} {held : Task}
    (there : (sys.setTask i task).tasks[j]? = some held) :
    (j = i ∧ held = task) ∨ sys.tasks[j]? = some held := by
  change (sys.tasks.set i task)[j]? = some held at there
  rcases getElem?_set_cases there with here | ⟨-, other⟩
  · exact .inl here
  · exact .inr other

theorem startTask_tasks {env : Env} {sys : System} {config : RequestConfig} {i : Nat} {task : Task}
    (there : (sys.startTask env config).tasks[i]? = some task) :
    sys.tasks[i]? = some task ∨
      ∃ uri, env.http.parse (sanitizeUri config.url) = .ok uri ∧ task = Task.start config uri := by
  unfold System.startTask at there
  split at there
  · exact .inl there
  · split at there
    · exact .inl there
    · rename_i uri parsed
      rcases getElem?_concat_cases there with old | ⟨-, started⟩
      · exact .inl old
      · exact .inr ⟨uri, parsed, started⟩

theorem startTask_old {env : Env} {sys : System} {config : RequestConfig} {i : Nat} {task : Task}
    (there : sys.tasks[i]? = some task) : (sys.startTask env config).tasks[i]? = some task := by
  unfold System.startTask
  split
  · exact there
  · split
    · exact there
    · exact getElem?_concat_old there

theorem startTask_connections (env : Env) (sys : System) (config : RequestConfig) :
    (sys.startTask env config).connections = sys.connections := by
  unfold System.startTask
  split
  · rfl
  · split <;> rfl

theorem startTask_client (env : Env) (sys : System) (config : RequestConfig) :
    (sys.startTask env config).client = sys.client := by
  unfold System.startTask
  split
  · rfl
  · split <;> rfl

/-- What holds of a task when it starts, and stays when it moves on a sound cache,
holds of every task of every run. -/
theorem tasks_invariant {env : Env} {motive : Task → Prop}
    (start : ∀ config uri, env.http.parse (sanitizeUri config.url) = .ok uri →
      motive (Task.start config uri))
    (moves : ∀ {sys : System} {task task' : Task} {action : Action} {client : HyperClient},
      sys.client.Sound env.openssl env.http.parse → motive task →
        Move env sys task action client task' → motive task')
    {actions : List Action} {sys : System}
    (ran : run (System.step env) System.init actions = some sys) :
    sys.client.Sound env.openssl env.http.parse ∧
      ∀ (i : Nat) (task : Task), sys.tasks[i]? = some task → motive task := by
  refine run_invariant (motive := fun sys => sys.client.Sound env.openssl env.http.parse ∧
    ∀ (i : Nat) (task : Task), sys.tasks[i]? = some task → motive task) ?_ ?_ ran
  · exact ⟨HyperClient.new_sound _ _, fun i task there => by cases there⟩
  · rintro sys sys' action ⟨sound, all⟩ stepped
    rcases step_cases stepped with ⟨config, rfl, rfl⟩ |
      ⟨i, hop, network, dispatch, cached, rfl, -, -, rfl⟩ | ⟨task, client, task', there, moved, rfl⟩
    · refine ⟨by rw [startTask_client]; exact sound, ?_⟩
      intro i task there
      rcases startTask_tasks there with old | ⟨uri, parsed, rfl⟩
      · exact all i task old
      · exact start config uri parsed
    · exact ⟨sound, all⟩
    · refine ⟨moved.sound sound, ?_⟩
      intro j held here
      rcases System.setTask_tasks here with ⟨-, rfl⟩ | other
      · exact moves sound (all _ task there) moved
      · exact all j held other

end Blasthttp.Client
