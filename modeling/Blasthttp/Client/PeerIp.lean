/-
# Blasthttp.Client.PeerIp -- the peer a hop reports

`OpenSslConnector::call` writes the peer's address under the host and port it was asked
to dial, as they are spelled there, and `send_inner` looks it up under the host and port
of the hop.  A slot holds exactly what the connections of its client wrote
(`peersSound_run`), and those were opened by the very client (`opened_run`), so a hop
reports what it should exactly when its key is one that was written and not the
proxy's (`hopPeerIp_iff`).
-/
import Blasthttp.Client.CachePolicy
import Blasthttp.Client.CertSlot

namespace Blasthttp.Client

open Blasthttp.Rust Blasthttp.Http Blasthttp.Lib.Places Blasthttp.Lib.Runs

set_option autoImplicit false

/-! ## What a connector dials -/

/-- The URI the innermost connector is called with. -/
def AnyClient.dialed : AnyClient → Uri → Uri
  | .direct _, target => target
  | .tunnel proxyUri _, _ => proxyUri
  | .socks5 proxyUri _, _ => proxyUri

/-- The dial for a URI. -/
def Network.dialUri (network : Network) (uri : Uri) : Except NetFault (Option IpAddr) :=
  network.dial uri.hostOrEmpty (portOrDefault uri)

/-- The slot write of a call. -/
def Network.written (network : Network) (uri : Uri) : Option (Str × IpAddr) :=
  match network.dialUri uri with
  | .ok (some ip) => (peerSlotKey uri).map fun key => (key, ip)
  | _ => none

theorem written_eq_some {network : Network} {uri : Uri} {key : Str} {ip : IpAddr} :
    network.written uri = some (key, ip) ↔
      peerSlotKey uri = some key ∧ network.dialUri uri = .ok (some ip) := by
  unfold Network.written
  cases network.dialUri uri with
  | error fault => simp
  | ok addr =>
      cases addr with
      | none => simp
      | some ip' => simp

theorem call_peer (connector : OpenSslConnector) (network : Network) (uri : Uri) :
    (connector.call network uri).peer = network.written uri := by
  have dial : network.dial uri.hostOrEmpty (portOrDefault uri) = network.dialUri uri := rfl
  unfold OpenSslConnector.call Network.written
  simp only [dial]
  cases network.dialUri uri with
  | error fault => rfl
  | ok addr =>
      cases peerSlotKey uri <;> cases addr <;> simp only <;> split
      all_goals first | rfl | (split <;> rfl)

theorem call_dialed {connector : OpenSslConnector} {network : Network} {uri : Uri}
    (up : (connector.call network uri).stream.toBool = true) :
    ∃ addr, network.dialUri uri = .ok addr := by
  unfold OpenSslConnector.call at up
  unfold Network.dialUri
  cases dialed : network.dial uri.hostOrEmpty (portOrDefault uri) with
  | error fault =>
      simp only [dialed] at up
      cases up
  | ok addr => exact ⟨addr, rfl⟩

theorem throughProxy_peer (network : Network) (scheme : ProxyScheme) (connector : OpenSslConnector)
    (proxyUri target : Uri) :
    (throughProxy network scheme connector proxyUri target).peer =
      (connector.call network proxyUri).peer := by
  unfold throughProxy
  simp only
  split
  · rfl
  · split <;> rfl

theorem throughProxy_up {network : Network} {scheme : ProxyScheme} {connector : OpenSslConnector}
    {proxyUri target : Uri}
    (up : (throughProxy network scheme connector proxyUri target).stream.toBool = true) :
    (connector.call network proxyUri).stream.toBool = true := by
  unfold throughProxy at up
  cases called : (connector.call network proxyUri).stream with
  | error fault => simp only [called] at up; cases up
  | ok stream => rfl

/-- A connector writes the address it dialed, under the key of what it dialed. -/
theorem connect_peer {client : AnyClient} {network : Network} {target : Uri} {key : Str}
    {ip : IpAddr} :
    (client.connect network target).peer = some (key, ip) ↔
      peerSlotKey (client.dialed target) = some key ∧
        network.dialUri (client.dialed target) = .ok (some ip) := by
  have wrote : (client.connect network target).peer = network.written (client.dialed target) := by
    cases client with
    | direct connector => exact call_peer connector network target
    | tunnel proxyUri connector =>
        exact (throughProxy_peer ..).trans (call_peer connector network proxyUri)
    | socks5 proxyUri connector =>
        exact (throughProxy_peer ..).trans (call_peer connector network proxyUri)
  rw [wrote, written_eq_some]

theorem connect_dialed {client : AnyClient} {network : Network} {target : Uri}
    (up : (client.connect network target).stream.toBool = true) :
    ∃ addr, network.dialUri (client.dialed target) = .ok addr := by
  cases client with
  | direct connector => exact call_dialed up
  | tunnel proxyUri connector => exact call_dialed (throughProxy_up up)
  | socks5 proxyUri connector => exact call_dialed (throughProxy_up up)

/-- `host:port` names the host and the port. -/
theorem hostPort_inj {host host' : Str} {port port' : Nat}
    (same : hostPort host port = hostPort host' port') : host = host' ∧ port = port' := by
  have plain := not_mem_decimalText (c := ':') (by decide)
  have parts := rsplitOnce_append (plain port) host
  rw [show host ++ ':' :: decimalText port = hostPort host' port' from same, hostPort,
    rsplitOnce_append (plain port')] at parts
  rw [Option.some.injEq, Prod.mk.injEq] at parts
  exact ⟨parts.1.symm, (decimalText_inj parts.2).symm⟩

/-! ## The slots -/

/-- A slot holds what the connections of its client wrote, and nothing is lost. -/
structure System.PeersSound (sys : System) : Prop where
  written : ∀ {slot key ip}, sys.peers slot key = some ip →
    ∃ connection ∈ sys.connections, connection.slot = slot ∧
      connection.attempt.peer = some (key, ip)
  kept : ∀ {connection key ip}, connection ∈ sys.connections →
    connection.attempt.peer = some (key, ip) → (sys.peers connection.slot key).isSome = true

/-- A recorded attempt changes the entry it wrote and no other. -/
theorem record_peers (sys : System) (slot : Nat) (origin : Uri) (attempt : Attempt) (target : Nat)
    (key : Str) :
    (attempt.peer.map Prod.fst = some key ∧ target = slot ∧
      (sys.record slot origin attempt).peers target key = attempt.peer.map Prod.snd) ∨
    (¬ (attempt.peer.map Prod.fst = some key ∧ target = slot) ∧
      (sys.record slot origin attempt).peers target key = sys.peers target key) := by
  unfold System.record
  cases wrote : attempt.peer with
  | none => exact .inr ⟨by simp, rfl⟩
  | some entry =>
      obtain ⟨here, addr⟩ := entry
      simp only
      by_cases ours : target = slot
      · subst ours
        rw [Function.update_self]
        by_cases fresh : key = here
        · subst fresh
          exact .inl ⟨rfl, rfl, Function.update_self ..⟩
        · refine .inr ⟨?_, Function.update_of_ne fresh ..⟩
          rintro ⟨same, -⟩
          exact fresh (Option.some.inj same).symm
      · rw [Function.update_of_ne ours]
        exact .inr ⟨fun both => ours both.2, rfl⟩

theorem peersSound_record {sys : System} (sound : sys.PeersSound) (slot : Nat) (origin : Uri)
    (attempt : Attempt) : (sys.record slot origin attempt).PeersSound := by
  refine ⟨?_, ?_⟩
  · intro target key ip there
    rcases record_peers sys slot origin attempt target key with ⟨wrote, rfl, now⟩ | ⟨-, now⟩
    · have last : (⟨target, origin, attempt⟩ : Connection) ∈
          (sys.record target origin attempt).connections :=
        List.mem_append_right _ List.mem_cons_self
      refine ⟨_, last, rfl, ?_⟩
      rw [now] at there
      obtain ⟨entry, peer, rfl⟩ := Option.map_eq_some_iff.mp wrote
      rw [peer, Option.map_some, Option.some.injEq] at there
      rw [peer, ← there]
    · rw [now] at there
      obtain ⟨connection, held, facts⟩ := sound.written there
      exact ⟨connection, List.mem_append_left _ held, facts⟩
  · intro connection key ip there peer
    rcases record_peers sys slot origin attempt connection.slot key with ⟨wrote, -, now⟩ | ⟨other, now⟩
    · rw [now]
      obtain ⟨entry, written, -⟩ := Option.map_eq_some_iff.mp wrote
      rw [written]
      rfl
    · rw [now]
      rcases List.mem_append.mp there with held | last
      · exact sound.kept held peer
      · rw [List.mem_singleton.mp last] at other peer
        exact absurd ⟨by rw [peer]; rfl, rfl⟩ other

theorem peersSound_run {env : Env} {actions : List Action} {sys : System}
    (ran : run (System.step env) System.init actions = some sys) : sys.PeersSound := by
  refine run_invariant (motive := System.PeersSound) ?_ ?_ ran
  · exact ⟨fun there => (by cases there), fun there => (by cases there)⟩
  · intro sys sys' action sound stepped
    rcases step_slots stepped with ⟨-, peers, connections⟩ | ⟨slot, origin, attempt, rfl⟩
    · refine ⟨?_, ?_⟩
      · intro slot key ip there
        rw [peers] at there
        rw [connections]
        exact sound.written there
      · intro connection key ip there peer
        rw [connections] at there
        rw [peers]
        exact sound.kept there peer
    · exact peersSound_record sound slot origin attempt

/-! ## Whose connections they are -/

/-- Some task sent this. -/
def System.Sent (sys : System) (dispatch : Dispatch) : Prop :=
  ∃ (i : Nat) (task : Task), sys.tasks[i]? = some task ∧ dispatch ∈ task.sent

theorem settle_sent (env : Env) (task : Task) (x : Exchange) (peerIp : Option IpAddr)
    (clock : Nat → Int) : (task.settle env x peerIp clock).sent = task.sent := by
  unfold Task.settle
  split
  · split <;> rfl
  · rfl

theorem settle_answers (env : Env) (task : Task) (x : Exchange) (peerIp : Option IpAddr)
    (clock : Nat → Int) : (task.settle env x peerIp clock).answers = task.answers := by
  unfold Task.settle
  split
  · split <;> rfl
  · rfl

theorem move_sent {env : Env} {sys : System} {task task' : Task} {action : Action}
    {client : HyperClient} (moved : Move env sys task action client task') :
    task.sent <+: task'.sent := by
  cases moved with
  | @dispatched i connected _ result phase sent =>
      cases result with
      | error fault => exact List.prefix_refl _
      | ok dispatch => exact List.prefix_append _ _
  | settled phase => rw [settle_sent]
  | _ => exact List.prefix_refl _

theorem step_sent {env : Env} {sys sys' : System} {action : Action}
    (stepped : sys.step env action = some sys') {dispatch : Dispatch} (sent : sys.Sent dispatch) :
    sys'.Sent dispatch := by
  obtain ⟨i, task, there, inside⟩ := sent
  rcases step_cases stepped with ⟨config, rfl, rfl⟩ |
    ⟨j, hop, network, d, cached, rfl, -, -, rfl⟩ | ⟨moving, client, task', held, moved, rfl⟩
  · exact ⟨i, task, startTask_old there, inside⟩
  · exact ⟨i, task, there, inside⟩
  · by_cases same : action.task = i
    · subst same
      rw [held] at there
      cases there
      have within := (List.getElem?_eq_some_iff.mp held).1
      exact ⟨_, task', List.getElem?_set_self within, (move_sent moved).subset inside⟩
    · exact ⟨i, task, (List.getElem?_set_ne same).trans there, inside⟩

/-- The client a request left by is the one in the cache at its slot. -/
theorem sent_held {env : Env} {actions : List Action} {sys : System}
    (ran : run (System.step env) System.init actions = some sys) {dispatch : Dispatch}
    (sent : sys.Sent dispatch) {cached : CachedClient} (via : dispatch.via = .pooled cached) :
    (∃ mode, sys.client.cached[cached.certSlot]? = some (mode, cached)) ∧
      cached.peerSlot = cached.certSlot := by
  obtain ⟨i, task, there, inside⟩ := sent
  obtain ⟨client, all⟩ := run_asked ran
  obtain ⟨mode, -, got⟩ := served_get (all i task there dispatch inside cached via)
  rw [← client] at got
  have sound : sys.client.Sound env.openssl env.http.parse :=
    (tasks_invariant (motive := fun _ => True) (fun _ _ _ => trivial) (fun _ _ _ => trivial) ran).1
  obtain ⟨place, entry⟩ := List.getElem?_of_mem (HyperClient.get_mem got)
  have made := sound place mode cached entry
  exact ⟨⟨mode, by rw [made.certSlot]; exact entry⟩, by rw [made.peerSlot, made.certSlot]⟩

/-- A slot belongs to one client. -/
theorem sent_client {env : Env} {actions : List Action} {sys : System}
    (ran : run (System.step env) System.init actions = some sys) {d e : Dispatch}
    (sentD : sys.Sent d) (sentE : sys.Sent e) {a b : CachedClient} (viaD : d.via = .pooled a)
    (viaE : e.via = .pooled b) (slot : a.certSlot = b.certSlot) : a = b := by
  obtain ⟨⟨mode, heldA⟩, -⟩ := sent_held ran sentD viaD
  obtain ⟨⟨mode', heldB⟩, -⟩ := sent_held ran sentE viaE
  rw [slot, heldB] at heldA
  cases heldA
  rfl

/-- The connection was opened by this client, for a request that left by it, in a connect
of the run that saw this network. -/
def System.OpenedBy (sys : System) (actions : List Action) (connection : Connection)
    (cached : CachedClient) (network : Network) : Prop :=
  ∃ i hop dispatch, .connect i hop network ∈ actions ∧ sys.Sent dispatch ∧
    dispatch.via = .pooled cached ∧
    connection = ⟨cached.certSlot, dispatch.uri, cached.inner.connect network dispatch.uri⟩

theorem opened_run {env : Env} {actions : List Action} {sys : System}
    (ran : run (System.step env) System.init actions = some sys) :
    ∀ connection ∈ sys.connections, ∃ cached network, sys.OpenedBy actions connection cached network := by
  refine run_induction (motive := fun actions sys => ∀ connection ∈ sys.connections,
    ∃ cached network, sys.OpenedBy actions connection cached network) ?_ ?_ ran
  · intro connection there
    cases there
  · intro actions sys sys' action _ all stepped
    have old : ∀ connection ∈ sys.connections,
        ∃ cached network, sys'.OpenedBy (actions ++ [action]) connection cached network := by
      intro connection there
      obtain ⟨cached, network, i, hop, dispatch, connects, sent, via, made⟩ := all connection there
      exact ⟨cached, network, i, hop, dispatch, List.mem_append_left _ connects,
        step_sent stepped sent, via, made⟩
    rcases step_cases stepped with ⟨config, rfl, rfl⟩ |
      ⟨i, hop, network, dispatch, cached, rfl, sent, via, rfl⟩ | ⟨task, client, task', -, -, rfl⟩
    · intro connection there
      rw [startTask_connections] at there
      exact old connection there
    · intro connection there
      rcases List.mem_append.mp there with before | last
      · exact old connection before
      · refine ⟨cached, network, i, hop, dispatch, List.mem_append_right _ List.mem_cons_self, ?_,
          via, List.mem_singleton.mp last⟩
        unfold System.sentBy at sent
        split at sent
        · rename_i task held
          exact ⟨i, task, held, List.mem_of_getElem? sent⟩
        · cases sent
    · exact old

/-! ## The connection under an answer -/

/-- A task's answers are to what it sent, and what it waits for is sent. -/
def Logged (task : Task) : Prop :=
  (∀ x ∈ task.answers, x.dispatch ∈ task.sent) ∧
    ∀ dispatch, task.phase = .waiting dispatch → dispatch ∈ task.sent

theorem logged_move {env : Env} {sys : System} {task task' : Task} {action : Action}
    {client : HyperClient} (logged : Logged task)
    (moved : Move env sys task action client task') : Logged task' := by
  have answers : ∀ x ∈ task'.answers, x.dispatch ∈ task'.sent := by
    intro x there
    refine (move_sent moved).subset ?_
    rcases move_answers moved there with old | ⟨phase, -⟩
    · exact logged.1 x old
    · exact logged.2 _ phase
  refine ⟨answers, ?_⟩
  intro dispatch waits
  cases moved with
  | @dispatched i connected _ result phase sent =>
      cases result with
      | error fault => cases waits
      | ok d =>
          cases waits
          exact List.mem_append_right _ List.mem_cons_self
  | @settled i clock x phase =>
      unfold Task.settle at waits
      split at waits
      · split at waits
        · cases waits
        · cases waits
      · cases waits
  | _ => cases waits

/-- Every answer of a run is to something sent. -/
theorem answer_sent {env : Env} {actions : List Action} {sys : System}
    (ran : run (System.step env) System.init actions = some sys) {i : Nat} {task : Task}
    (there : sys.tasks[i]? = some task) {x : Exchange} (answer : x ∈ task.answers) :
    sys.Sent x.dispatch := by
  have logged := (tasks_invariant (motive := Logged)
    (fun _ _ _ => ⟨fun x nothing => (by cases nothing), fun d waits => (by cases waits)⟩)
    (fun _ logged moved => logged_move logged moved) ran).2 i task there
  exact ⟨i, task, there, logged.1 x answer⟩

/-! ## One hop -/

/-- Some connection the client opened to the host and port of `uri` was connected to
this address. -/
def System.ConnectedTo (sys : System) (actions : List Action) (uri : Uri) (ip : IpAddr) : Prop :=
  ∃ connection ∈ sys.connections, ∃ cached network,
    sys.OpenedBy actions connection cached network ∧
    eqIgnoreAsciiCase (cached.inner.dialed connection.origin).hostOrEmpty uri.hostOrEmpty = true ∧
    portOrDefault (cached.inner.dialed connection.origin) = portOrDefault uri ∧
    network.dialUri (cached.inner.dialed connection.origin) = .ok (some ip)

/-- Without a proxy a hop reports the address of such a connection, through one
nothing. -/
def System.HopRight (sys : System) (actions : List Action) (dispatch : Dispatch)
    (reported : Option IpAddr) : Prop :=
  match dispatch.via.proxy with
  | some _ => reported = none
  | none => ∃ ip, reported = some ip ∧ sys.ConnectedTo actions dispatch.uri ip

/-- Without a proxy: the client of the hop has connected for a request that spells host
and port as this one does.  Through a pooled proxy: the proxy's own key, if it has one,
is not the hop's. -/
def System.KeyFits (sys : System) (dispatch : Dispatch) : Prop :=
  match dispatch.via with
  | .forward _ => True
  | .pooled cached =>
      match dispatch.via.proxy with
      | some proxyUri => ∀ key, peerSlotKey proxyUri = some key → peerSlotKey dispatch.uri ≠ some key
      | none =>
          ∃ connection ∈ sys.connections, connection.slot = cached.peerSlot ∧
            connection.attempt.peer.isSome = true ∧
              peerSlotKey connection.origin = peerSlotKey dispatch.uri

/-- `peer_addr()` succeeds on every socket of the run. -/
def PeerAddrKnown (actions : List Action) : Prop :=
  ∀ i hop network, .connect i hop network ∈ actions → ∀ host port addr,
    network.dial host port = .ok addr → addr.isSome = true

/-- A pooled client dials its proxy, if it has one. -/
theorem dialed_eq (cached : CachedClient) (target : Uri) :
    cached.inner.dialed target = (Via.pooled cached).proxy.getD target := by
  obtain ⟨inner, certSlot, peerSlot⟩ := cached
  cases inner <;> rfl

/-- A connection under a client's slot was opened by that client. -/
theorem slot_opened {env : Env} {actions : List Action} {sys : System}
    (ran : run (System.step env) System.init actions = some sys) {dispatch : Dispatch}
    (sent : sys.Sent dispatch) {cached : CachedClient} (via : dispatch.via = .pooled cached)
    {connection : Connection} (there : connection ∈ sys.connections)
    (slot : connection.slot = cached.peerSlot) :
    ∃ network, sys.OpenedBy actions connection cached network ∧
      connection.attempt = cached.inner.connect network connection.origin := by
  obtain ⟨other, network, i, hop, d, connects, sentD, viaD, made⟩ := opened_run ran connection there
  have same : other = cached := by
    refine sent_client ran sentD sent viaD via ?_
    rw [← (sent_held ran sent via).2, ← slot, made]
  subst same
  exact ⟨network, ⟨i, hop, d, connects, sentD, viaD, made⟩, by rw [made]⟩

/-- The client of an answered pooled hop has the address of what it dialed for the
connection of the answer. -/
theorem answered_keyed {env : Env} {actions : List Action} {sys : System}
    (ran : run (System.step env) System.init actions = some sys) (known : PeerAddrKnown actions)
    {x : Exchange} (sent : sys.Sent x.dispatch)
    (delivers : sys.delivers x.dispatch x.connection = true) {cached : CachedClient}
    (via : x.dispatch.via = .pooled cached) :
    ∃ connection ∈ sys.connections, ∀ key,
      peerSlotKey (cached.inner.dialed connection.origin) = some key →
        (sys.peers cached.peerSlot key).isSome = true := by
  unfold System.delivers at delivers
  rw [via] at delivers
  split at delivers
  · rename_i clash _
    cases clash
  · rename_i c i same used
    cases same
    split at delivers
    · rename_i connection there
      have inside := List.mem_of_getElem? there
      simp only [Connection.carries, Bool.and_eq_true, decide_eq_true_eq] at delivers
      obtain ⟨⟨certSlot, up⟩, -⟩ := delivers
      have slot := certSlot.trans (sent_held ran sent via).2.symm
      obtain ⟨network, ⟨j, hop, d, connects, -⟩, made⟩ := slot_opened ran sent via inside slot
      refine ⟨connection, inside, ?_⟩
      intro key keyed
      rw [made] at up
      obtain ⟨addr, dialed⟩ := connect_dialed up
      obtain ⟨ip, rfl⟩ := Option.isSome_iff_exists.mp (known j hop network connects _ _ _ dialed)
      have wrote : connection.attempt.peer = some (key, ip) := by
        rw [made]
        exact connect_peer.mpr ⟨keyed, dialed⟩
      have kept := (peersSound_run ran).kept inside wrote
      rwa [slot] at kept
    · cases delivers
  · cases delivers

/-- The key under which a dial is recorded, spelled out. -/
theorem peerSlotKey_eq_some {uri : Uri} {key : Str} :
    peerSlotKey uri = some key ↔
      ∃ host, uri.host = some host ∧ key = hostPort host (portOrDefault uri) := by
  unfold peerSlotKey
  cases uri.host with
  | none => simp
  | some host => simp [eq_comm]

/-- One key stands for one host and port. -/
theorem peerSlotKey_same {u v : Uri} {key : Str} (keyU : peerSlotKey u = some key)
    (keyV : peerSlotKey v = some key) :
    u.hostOrEmpty = v.hostOrEmpty ∧ portOrDefault u = portOrDefault v := by
  obtain ⟨hostU, foundU, rfl⟩ := peerSlotKey_eq_some.mp keyU
  obtain ⟨hostV, foundV, same⟩ := peerSlotKey_eq_some.mp keyV
  obtain ⟨rfl, ports⟩ := hostPort_inj same
  refine ⟨?_, ports⟩
  unfold Uri.hostOrEmpty
  rw [foundU, foundV]

/-- A hop that reports an address reports one of a connection to its host and port. -/
theorem hopPeerIp_connected {env : Env} {actions : List Action} {sys : System}
    (ran : run (System.step env) System.init actions = some sys) {dispatch : Dispatch}
    (sent : sys.Sent dispatch) {ip : IpAddr} (reported : sys.hopPeerIp dispatch = some ip) :
    sys.ConnectedTo actions dispatch.uri ip := by
  unfold System.hopPeerIp at reported
  split at reported
  · rename_i key cached own via
    obtain ⟨connection, there, slot, peer⟩ := (peersSound_run ran).written reported
    obtain ⟨network, opened, made⟩ := slot_opened ran sent via there slot
    rw [made] at peer
    obtain ⟨keyed, dialed⟩ := connect_peer.mp peer
    obtain ⟨host, port⟩ := peerSlotKey_same keyed own
    refine ⟨connection, there, cached, network, opened, ?_, port, dialed⟩
    rw [host]
    exact decide_eq_true rfl
  · cases reported

/-- What a pooled client has under a key, by the connections it opened. -/
theorem peers_isSome {env : Env} {actions : List Action} {sys : System}
    (ran : run (System.step env) System.init actions = some sys) {dispatch : Dispatch}
    (sent : sys.Sent dispatch) {cached : CachedClient} (via : dispatch.via = .pooled cached)
    {key : Str} :
    (sys.peers cached.peerSlot key).isSome = true ↔
      ∃ connection ∈ sys.connections, connection.slot = cached.peerSlot ∧
        connection.attempt.peer.isSome = true ∧
          peerSlotKey (cached.inner.dialed connection.origin) = some key := by
  have keyed : ∀ connection ∈ sys.connections, connection.slot = cached.peerSlot →
      ∀ key' ip, connection.attempt.peer = some (key', ip) →
        peerSlotKey (cached.inner.dialed connection.origin) = some key' := by
    intro connection there slot key' ip peer
    obtain ⟨network, -, made⟩ := slot_opened ran sent via there slot
    rw [made] at peer
    exact (connect_peer.mp peer).1
  constructor
  · intro held
    obtain ⟨ip, held⟩ := Option.isSome_iff_exists.mp held
    obtain ⟨connection, there, slot, peer⟩ := (peersSound_run ran).written held
    exact ⟨connection, there, slot, by rw [peer]; rfl, keyed connection there slot key ip peer⟩
  · rintro ⟨connection, there, slot, peer, own⟩
    obtain ⟨⟨key', ip⟩, wrote⟩ := Option.isSome_iff_exists.mp peer
    have same := keyed connection there slot key' ip wrote
    rw [own] at same
    cases same
    have kept := (peersSound_run ran).kept there wrote
    rwa [slot] at kept

theorem hopPeerIp_pooled {sys : System} {dispatch : Dispatch} {cached : CachedClient}
    (via : dispatch.via = .pooled cached) :
    sys.hopPeerIp dispatch = (peerSlotKey dispatch.uri).bind (sys.peers cached.peerSlot) := by
  unfold System.hopPeerIp
  rw [via]
  cases peerSlotKey dispatch.uri <;> rfl

/-- Through a pooled proxy the slot has the proxy's key and no other. -/
theorem hopPeerIp_proxied {env : Env} {actions : List Action} {sys : System}
    (ran : run (System.step env) System.init actions = some sys) (known : PeerAddrKnown actions)
    {x : Exchange} (sent : sys.Sent x.dispatch)
    (delivers : sys.delivers x.dispatch x.connection = true) {cached : CachedClient}
    (via : x.dispatch.via = .pooled cached) {proxyUri : Uri}
    (proxied : (Via.pooled cached).proxy = some proxyUri) :
    sys.hopPeerIp x.dispatch = none ↔
      ∀ key, peerSlotKey proxyUri = some key → peerSlotKey x.dispatch.uri ≠ some key := by
  have dials : ∀ target, cached.inner.dialed target = proxyUri := by
    intro target
    rw [dialed_eq, proxied, Option.getD_some]
  obtain ⟨carrier, -, keyed⟩ := answered_keyed ran known sent delivers via
  rw [dials] at keyed
  rw [hopPeerIp_pooled via, Option.bind_eq_none_iff]
  constructor
  · intro nothing key proxyKey own
    have there := keyed key proxyKey
    rw [nothing key own] at there
    cases there
  · intro apart key own
    rw [← Option.not_isSome_iff_eq_none]
    intro there
    obtain ⟨connection, -, -, -, proxyKey⟩ := (peers_isSome ran sent via).mp there
    rw [dials] at proxyKey
    exact apart key proxyKey own

/-- Without a proxy the slot has the keys of the requests that opened connections. -/
theorem hopPeerIp_direct {env : Env} {actions : List Action} {sys : System}
    (ran : run (System.step env) System.init actions = some sys) {dispatch : Dispatch}
    (sent : sys.Sent dispatch) {cached : CachedClient} (via : dispatch.via = .pooled cached)
    (direct : (Via.pooled cached).proxy = none) :
    (∃ ip, sys.hopPeerIp dispatch = some ip ∧ sys.ConnectedTo actions dispatch.uri ip) ↔
      ∃ connection ∈ sys.connections, connection.slot = cached.peerSlot ∧
        connection.attempt.peer.isSome = true ∧
          peerSlotKey connection.origin = peerSlotKey dispatch.uri := by
  have dials : ∀ target, cached.inner.dialed target = target := by
    intro target
    rw [dialed_eq, direct, Option.getD_none]
  have held := @peers_isSome env actions sys ran dispatch sent cached via
  simp only [dials] at held
  constructor
  · rintro ⟨ip, reported, -⟩
    rw [hopPeerIp_pooled via] at reported
    obtain ⟨key, own, there⟩ := Option.bind_eq_some_iff.mp reported
    obtain ⟨connection, inside, slot, peer, keyed⟩ := held.mp (by rw [there]; rfl)
    exact ⟨connection, inside, slot, peer, keyed.trans own.symm⟩
  · rintro ⟨connection, inside, slot, peer, alike⟩
    obtain ⟨⟨key, _⟩, wrote⟩ := Option.isSome_iff_exists.mp peer
    obtain ⟨network, -, made⟩ := slot_opened ran sent via inside slot
    rw [made] at wrote
    have keyed := (connect_peer.mp wrote).1
    rw [dials] at keyed
    obtain ⟨ip, there⟩ :=
      Option.isSome_iff_exists.mp (held.mpr ⟨connection, inside, slot, peer, keyed⟩)
    have reported : sys.hopPeerIp dispatch = some ip := by
      rw [hopPeerIp_pooled via, ← alike, keyed]
      exact there
    exact ⟨ip, reported, hopPeerIp_connected ran sent reported⟩

/-- **What an answered hop reports is right exactly when its key fits.** -/
theorem hopPeerIp_iff {env : Env} {actions : List Action} {sys : System}
    (ran : run (System.step env) System.init actions = some sys) (known : PeerAddrKnown actions)
    {x : Exchange} (sent : sys.Sent x.dispatch)
    (delivers : sys.delivers x.dispatch x.connection = true) :
    sys.HopRight actions x.dispatch (sys.hopPeerIp x.dispatch) ↔ sys.KeyFits x.dispatch := by
  unfold System.HopRight System.KeyFits
  cases via : x.dispatch.via with
  | forward proxyUri =>
      refine iff_of_true ?_ trivial
      unfold System.hopPeerIp
      rw [via]
      cases peerSlotKey x.dispatch.uri <;> rfl
  | pooled cached =>
      cases proxied : (Via.pooled cached).proxy with
      | some proxyUri =>
          exact hopPeerIp_proxied ran known sent delivers via proxied
      | none =>
          exact hopPeerIp_direct ran sent via proxied

/-! ## What a task reports -/

/-- The addresses a task shows for its hops, in their order: in the redirect chain, and
for the hop that ended it. -/
def Task.reported (task : Task) : List (Option IpAddr) :=
  match task.phase with
  | .closing _ peerIp => task.walk.redirectChain.map RedirectHop.peerIp ++ [peerIp]
  | .done (.ok response) => response.redirectChain.map RedirectHop.peerIp ++ [response.peerIp]
  | _ => task.walk.redirectChain.map RedirectHop.peerIp

/-- Every address a task shows is right for its hop, and a task with a response shows one
for each of its hops. -/
structure System.ReportsRight (sys : System) (actions : List Action) (task : Task) : Prop where
  every : ∀ response, task.phase = .done (.ok response) →
    task.reported.length = task.answers.length
  right : ∀ report ∈ task.answers.zip task.reported, sys.HopRight actions report.1.dispatch report.2

/-- Each answer but the last has its address, and so has the last once the hop is
settled. -/
def Aligned (task : Task) : Prop :=
  match task.phase with
  | .answered x => ∃ past, task.answers = past ++ [x] ∧ task.reported.length = past.length
  | .done (.error _) => True
  | .dropped => True
  | _ => task.reported.length = task.answers.length

theorem Aligned.every {task : Task} (aligned : Aligned task) (response : Response)
    (finished : task.phase = .done (.ok response)) : task.reported.length = task.answers.length := by
  unfold Aligned at aligned
  rw [finished] at aligned
  exact aligned

/-- Before its last hop is settled a task shows what its redirect chain does. -/
theorem reported_underway {task : Task} (settled : ∀ x peerIp, task.phase ≠ .closing x peerIp)
    (finished : ∀ result, task.phase ≠ .done result) :
    task.reported = task.walk.redirectChain.map RedirectHop.peerIp := by
  unfold Task.reported
  cases phase : task.phase with
  | closing x peerIp => exact absurd phase (settled x peerIp)
  | done result => exact absurd phase (finished result)
  | _ => rfl

/-- A settled hop's address goes behind those of the answers before it, unless the
redirect fails. -/
theorem settle_reports {task : Task} (env : Env) {x : Exchange} {past : List Exchange}
    (peerIp : Option IpAddr) (clock : Nat → Int) (answers : task.answers = past ++ [x])
    (length : (task.walk.redirectChain.map RedirectHop.peerIp).length = past.length) :
    Aligned (task.settle env x peerIp clock) ∧
      ∀ report ∈ task.answers.zip (task.settle env x peerIp clock).reported,
        report ∈ task.answers.zip (task.walk.redirectChain.map RedirectHop.peerIp) ∨
          report = (x, peerIp) := by
  have grown : ∀ report ∈
      task.answers.zip (task.walk.redirectChain.map RedirectHop.peerIp ++ [peerIp]),
      report ∈ task.answers.zip (task.walk.redirectChain.map RedirectHop.peerIp) ∨
        report = (x, peerIp) := by
    intro report there
    rw [answers, zip_concat length, List.mem_append, List.mem_singleton] at there
    rw [answers]
    exact there
  unfold Task.settle
  split
  · cases followed : task.walk.follow env task.config x.response peerIp clock with
    | error fault => exact ⟨trivial, fun report there => .inl there⟩
    | ok walk' =>
        obtain ⟨_, -, -, chain, -, -⟩ := follow_spec followed
        have shown : walk'.redirectChain.map RedirectHop.peerIp =
            task.walk.redirectChain.map RedirectHop.peerIp ++ [peerIp] := by
          rw [chain, List.map_append]
          rfl
        refine ⟨?_, ?_⟩
        · show (walk'.redirectChain.map RedirectHop.peerIp).length = task.answers.length
          rw [shown, answers, List.length_append, List.length_append, length]
          rfl
        · show ∀ report ∈ task.answers.zip (walk'.redirectChain.map RedirectHop.peerIp), _
          rw [shown]
          exact grown
  · refine ⟨?_, grown⟩
    show (task.walk.redirectChain.map RedirectHop.peerIp ++ [peerIp]).length = task.answers.length
    rw [answers, List.length_append, List.length_append, length]
    rfl

/-- What a move adds to the reports: at a settled hop, what `hop_peer_ip` is there. -/
theorem move_reports {env : Env} {sys : System} {task task' : Task} {action : Action}
    {client : HyperClient} (aligned : Aligned task)
    (moved : Move env sys task action client task') :
    Aligned task' ∧ ∀ report ∈ task'.answers.zip task'.reported,
      report ∈ task.answers.zip task.reported ∨
        ∃ i clock, action = .settle i clock ∧ task.phase = .answered report.1 ∧
          report.2 = sys.hopPeerIp report.1.dispatch := by
  unfold Aligned at aligned
  cases moved with
  | @dispatched i connected _ result phase sent =>
      rw [phase] at aligned
      rw [@reported_underway task (by simp [phase]) (by simp [phase])] at aligned ⊢
      cases result with
      | error fault => exact ⟨trivial, fun report there => .inl there⟩
      | ok dispatch => exact ⟨aligned, fun report there => .inl there⟩
  | @answered i connection response dispatch phase delivers =>
      rw [phase] at aligned
      rw [@reported_underway task (by simp [phase]) (by simp [phase])] at aligned ⊢
      refine ⟨⟨task.answers, rfl, aligned⟩, fun report there => .inl ?_⟩
      rw [← zip_shorter aligned ⟨dispatch, connection, response⟩]
      exact there
  | failed phase =>
      refine ⟨trivial, fun report there => .inl ?_⟩
      rw [@reported_underway task (by simp [phase]) (by simp [phase])]
      exact there
  | @settled i clock x phase =>
      rw [phase] at aligned
      obtain ⟨past, answers, length⟩ := aligned
      rw [@reported_underway task (by simp [phase]) (by simp [phase])] at length ⊢
      obtain ⟨still, grown⟩ :=
        settle_reports env (sys.hopPeerIp x.dispatch) clock answers length
      refine ⟨still, fun report there => ?_⟩
      rw [settle_answers] at there
      rcases grown report there with old | rfl
      · exact .inl old
      · exact .inr ⟨i, clock, rfl, phase, rfl⟩
  | @finished i x peerIp phase =>
      rw [phase] at aligned
      have shown : task.reported = task.walk.redirectChain.map RedirectHop.peerIp ++ [peerIp] := by
        unfold Task.reported
        rw [phase]
      rw [shown] at aligned ⊢
      exact ⟨aligned, fun report there => .inl there⟩
  | dropped phase =>
      refine ⟨trivial, fun report there => .inl ?_⟩
      unfold Task.reported
      cases at_phase : task.phase with
      | done result => exact absurd at_phase (phase result)
      | closing x peerIp => exact mem_zip_concat there
      | _ => exact there

/-! ## Every run -/

/-- A settled hop has a key that fits. -/
def System.StepFits (sys : System) : Action → Prop
  | .settle i _ =>
      ∀ task x, sys.tasks[i]? = some task → task.phase = .answered x → sys.KeyFits x.dispatch
  | _ => True

theorem hopRight_step {env : Env} {actions : List Action} {sys sys' : System} {action : Action}
    (stepped : sys.step env action = some sys') {dispatch : Dispatch} {reported : Option IpAddr}
    (right : sys.HopRight actions dispatch reported) :
    sys'.HopRight (actions ++ [action]) dispatch reported := by
  unfold System.HopRight at right ⊢
  cases proxied : dispatch.via.proxy with
  | some proxyUri =>
      rw [proxied] at right
      exact right
  | none =>
      rw [proxied] at right
      obtain ⟨ip, shown, connection, there, cached, network, opened, facts⟩ := right
      obtain ⟨i, hop, d, connects, sent, via, made⟩ := opened
      exact ⟨ip, shown, connection, (step_connections stepped).subset there, cached, network,
        ⟨i, hop, d, List.mem_append_left _ connects, step_sent stepped sent, via, made⟩, facts⟩

theorem reportsRight_step {env : Env} {actions : List Action} {sys sys' : System} {action : Action}
    (ran : run (System.step env) System.init actions = some sys) (known : PeerAddrKnown actions)
    (stepped : sys.step env action = some sys') (fits : sys.StepFits action)
    (right : ∀ (i : Nat) (task : Task), sys.tasks[i]? = some task → sys.ReportsRight actions task) :
    ∀ (i : Nat) (task : Task), sys'.tasks[i]? = some task →
      sys'.ReportsRight (actions ++ [action]) task := by
  have kept : ∀ {i : Nat} {task : Task}, sys.tasks[i]? = some task →
      sys'.ReportsRight (actions ++ [action]) task :=
    fun there => ⟨(right _ _ there).every, fun report reports =>
      hopRight_step stepped ((right _ _ there).right report reports)⟩
  rcases step_cases stepped with ⟨config, rfl, rfl⟩ |
    ⟨i, hop, network, dispatch, cached, rfl, -, -, rfl⟩ | ⟨task, client, task', there, moved, rfl⟩
  · intro i task here
    rcases startTask_tasks here with old | ⟨uri, -, rfl⟩
    · exact kept old
    · exact ⟨fun _ finished => (by cases finished), fun _ nothing => (by cases nothing)⟩
  · intro i task here
    exact kept here
  · intro j held here
    rcases System.setTask_tasks here with ⟨-, rfl⟩ | other
    · have aligned := (tasks_invariant (motive := Aligned) (fun _ _ _ => rfl)
        (fun _ aligned moved => (move_reports aligned moved).1) ran).2 _ task there
      refine ⟨(move_reports aligned moved).1.every, fun report reports => ?_⟩
      rcases (move_reports aligned moved).2 report reports with old | ⟨i, clock, rfl, phase, shown⟩
      · exact (kept there).right report old
      · have holds := holdsLast_run ran there
        unfold HoldsLast at holds
        rw [phase] at holds
        have answer := List.mem_of_getLast? holds
        refine hopRight_step stepped ?_
        rw [shown]
        exact (hopPeerIp_iff ran known (answer_sent ran there answer)
          (delivered_run ran there answer)).mpr (fits task report.1 there phase)
    · exact kept other

/-! ## Past the pool -/

/-- The `peer_ip` that `connect_stream` returns. -/
def connectPeerIp (network : Network) (config : RequestConfig) (targetUri : Uri) : Option IpAddr :=
  match proxyConfigFor config targetUri.hostOrEmpty with
  | .ok none =>
      let addr := connectAddr config none targetUri.hostOrEmpty (portOrDefault targetUri)
      match network.dial addr.1 addr.2 with
      | .ok peerAddr => peerAddr
      | .error _ => none
  | _ => none

/-- A request with a stream of its own reports the address it dialed, or nothing through
a proxy. -/
theorem connectPeerIp_right {openssl : OpenSsl} {network : Network} {config : RequestConfig}
    {uri : Uri} {result : Stream × Option CertInfo}
    (known : ∀ host port addr, network.dial host port = .ok addr → addr.isSome = true)
    (connected : connectStream openssl network config uri = .ok result) :
    match config.effectiveProxy uri.hostOrEmpty with
    | some _ => connectPeerIp network config uri = none
    | none => ∃ ip, connectPeerIp network config uri = some ip ∧
        network.dial (config.resolveIp.getD uri.hostOrEmpty) (portOrDefault uri) = .ok (some ip) := by
  unfold connectStream at connected
  obtain ⟨-, -, connected⟩ := bind_ok.mp connected
  obtain ⟨proxy, chosen, connected⟩ := bind_ok.mp connected
  obtain ⟨peerAddr, dialed, -⟩ := bind_ok.mp connected
  have dialed := mapError_ok.mp dialed
  unfold connectPeerIp
  unfold proxyConfigFor at chosen ⊢
  cases applies : config.effectiveProxy uri.hostOrEmpty with
  | some proxyUrl =>
      simp only
      cases parseProxyUrl proxyUrl <;> rfl
  | none =>
      rw [applies] at chosen
      cases chosen
      obtain ⟨ip, rfl⟩ := Option.isSome_iff_exists.mp (known _ _ _ dialed)
      simp only [dialed]
      exact ⟨ip, rfl, dialed⟩

/-- **When `peer_ip` belongs to the hop.** In every run of requests on one client whose
sockets know their peer, every address a task shows, for a redirect or in its response,
is right for its hop, and a response shows one for every hop, provided each hop's key fits
when it is settled; and so is that of a request which goes past the pool, without more. -/
theorem peerIp_belongs {env : Env} {actions : List Action} {sys : System}
    (ran : run (System.step env) System.init actions = some sys) (known : PeerAddrKnown actions)
    (fits : Along (System.step env) System.StepFits System.init actions) :
    (∀ (i : Nat) (task : Task), sys.tasks[i]? = some task → sys.ReportsRight actions task) ∧
    ∀ openssl network config uri result,
      (∀ host port addr, network.dial host port = .ok addr → addr.isSome = true) →
      connectStream openssl network config uri = .ok result →
      match config.effectiveProxy uri.hostOrEmpty with
      | some _ => connectPeerIp network config uri = none
      | none => ∃ ip, connectPeerIp network config uri = some ip ∧
          network.dial (config.resolveIp.getD uri.hostOrEmpty) (portOrDefault uri) =
            .ok (some ip) := by
  refine ⟨?_, fun _ _ _ _ _ => connectPeerIp_right⟩
  refine run_induction (motive := fun actions sys => PeerAddrKnown actions →
    Along (System.step env) System.StepFits System.init actions →
      ∀ (i : Nat) (task : Task), sys.tasks[i]? = some task → sys.ReportsRight actions task)
    ?_ ?_ ran known fits
  · intro _ _ i task nothing
    cases nothing
  · intro actions sys sys' action ran ih stepped known along
    obtain ⟨earlier, here⟩ := (along_concat ran).mp along
    have knownBefore : PeerAddrKnown actions := fun i hop network connects =>
      known i hop network (List.mem_append_left _ connects)
    exact reportsRight_step ran knownBefore stepped here (ih knownBefore earlier)

/-! Two requests over one pooled connection, which spell the host in two ways. -/

/-- A network on which every host has one address. -/
def peerNetwork : Network := { openNetwork with dial := fun _ _ => .ok (some (.v4 0x5DB8D822)) }

def lowerConfig : RequestConfig := RequestConfig.new "http://example.com/".toList

def upperConfig : RequestConfig := RequestConfig.new "http://Example.com/".toList

def lowerActions : List Action :=
  [.start lowerConfig, .dispatch 0 fun _ _ => .ok (), .connect 0 0 peerNetwork,
    .respond 0 (some 0) okAnswer, .settle 0 fun _ => 0, .finish 0]

def spellingActions : List Action :=
  lowerActions ++
    [.start upperConfig, .dispatch 1 fun _ _ => .ok (), .respond 1 (some 0) okAnswer,
      .settle 1 fun _ => 0, .finish 1]

def lowerEnd : System :=
  (run (System.step exampleEnv) System.init lowerActions).getD System.init

def spellingEnd : System :=
  (run (System.step exampleEnv) System.init spellingActions).getD System.init

theorem spelling_known : PeerAddrKnown spellingActions := by
  intro i hop network there host port addr dialed
  simp only [spellingActions, lowerActions, List.cons_append, List.nil_append, List.mem_cons,
    List.not_mem_nil, reduceCtorEq, Action.connect.injEq, false_or, or_false] at there
  obtain ⟨-, -, rfl⟩ := there
  cases dialed
  rfl

/-- The second request, sent without a proxy and answered over the connection to its host,
shows no address. -/
theorem spelling_shows_nothing :
    PeerAddrKnown spellingActions ∧
    run (System.step exampleEnv) System.init spellingActions = some spellingEnd ∧
      ∃ task response x, spellingEnd.tasks[1]? = some task ∧
        task.phase = .done (.ok response) ∧ task.answers = [x] ∧ x.dispatch.via.proxy = none ∧
        x.connection = some 0 ∧ response.peerIp = none ∧
        ¬ spellingEnd.ReportsRight spellingActions task := by
  refine ⟨spelling_known, by rfl, _, _, _, rfl, rfl, rfl, rfl, rfl, rfl, ?_⟩
  intro right
  obtain ⟨ip, shown, -⟩ := right.right _ List.mem_cons_self
  cases shown

theorem peerIp_belongs_lower :
    (∀ (i : Nat) (task : Task), lowerEnd.tasks[i]? = some task →
      lowerEnd.ReportsRight lowerActions task) ∧
    ∀ openssl network config uri result,
      (∀ host port addr, network.dial host port = .ok addr → addr.isSome = true) →
      connectStream openssl network config uri = .ok result →
      match config.effectiveProxy uri.hostOrEmpty with
      | some _ => connectPeerIp network config uri = none
      | none => ∃ ip, connectPeerIp network config uri = some ip ∧
          network.dial (config.resolveIp.getD uri.hostOrEmpty) (portOrDefault uri) =
            .ok (some ip) := by
  have known : PeerAddrKnown lowerActions := fun i hop network connects =>
    spelling_known i hop network (List.mem_append_left _ connects)
  refine @peerIp_belongs exampleEnv lowerActions lowerEnd (by rfl) known ?_
  refine (along_cons rfl).mpr ⟨trivial, (along_cons rfl).mpr ⟨trivial, (along_cons rfl).mpr
    ⟨trivial, (along_cons rfl).mpr ⟨trivial, (along_cons rfl).mpr ⟨?_, (along_cons rfl).mpr
      ⟨trivial, along_nil⟩⟩⟩⟩⟩⟩
  intro task x there phase
  cases there
  cases phase
  exact ⟨_, List.mem_cons_self, rfl, rfl, rfl⟩

end Blasthttp.Client
