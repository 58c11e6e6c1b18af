/-
# Blasthttp.Client.CachePolicy -- what the key of the client cache covers

Of a config, `OpenSslConnector::new` reads the TLS fields and the timeout.  The TLS
fields are the key: `getOrBuild_policy` says that whatever ran before, the client that
serves a hop has the settings the hop's own config would be given.  The timeout is not
in the key: `ownTimeouts_iff` says that every connection is opened with the timeout of the
request it is for exactly when that is the timeout of the first hop of its mode.
-/
import Blasthttp.Client.RedirectWalk

namespace Blasthttp.Client

open Blasthttp.Rust Blasthttp.Http Blasthttp.Lib.Runs

set_option autoImplicit false

/-! ## The TLS fields -/

/-- Two configs ask for the same TLS. -/
structure SamePolicy (a b : RequestConfig) : Prop where
  verify : a.shouldVerifyCerts = b.shouldVerifyCerts
  ciphers : a.cipherString = b.cipherString
  minVersion : a.minTlsVersion = b.minTlsVersion
  maxVersion : a.maxTlsVersion = b.maxTlsVersion
  alpn : a.alpnProtocols = b.alpnProtocols

theorem samePolicy_of_key {a b : RequestConfig}
    (key : TlsKey.fromConfig a = TlsKey.fromConfig b) : SamePolicy a b where
  verify := congrArg TlsKey.verifyCerts key
  ciphers := congrArg TlsKey.cipherString key
  minVersion := congrArg TlsKey.minTlsVersion key
  maxVersion := congrArg TlsKey.maxTlsVersion key
  alpn := congrArg TlsKey.alpnProtocols key

/-- The settings are a function of the TLS fields. -/
theorem SamePolicy.sslSettings {a b : RequestConfig} (same : SamePolicy a b) (openssl : OpenSsl)
    (defaultAlpn : List UInt8) :
    sslSettings openssl a defaultAlpn = sslSettings openssl b defaultAlpn := by
  unfold Client.sslSettings
  rw [same.verify, same.ciphers, same.minVersion, same.maxVersion, same.alpn]

theorem new_spec {openssl : OpenSsl} {config : RequestConfig} {certSlot peerSlot : Nat}
    {connector : OpenSslConnector}
    (made : OpenSslConnector.new openssl config certSlot peerSlot = .ok connector) :
    sslSettings openssl config pooledAlpn = .ok connector.ssl ∧
      connector.connectTimeout = config.timeout := by
  unfold OpenSslConnector.new at made
  obtain ⟨ssl, settings, made⟩ := bind_ok.mp made
  cases made
  exact ⟨settings, rfl⟩

/-- The client was built, for this mode, from a config with the TLS fields of `config`,
and has the settings `config` itself would be given. -/
def BuiltFor (openssl : OpenSsl) (parse : Parser) (config : RequestConfig) (mode : ConnMode)
    (cached : CachedClient) : Prop :=
  ∃ source uri connector, connMode parse source uri = .ok mode ∧
    OpenSslConnector.new openssl source cached.certSlot cached.peerSlot = .ok connector ∧
    Serves parse connector mode cached.inner ∧ SamePolicy source config ∧
    sslSettings openssl config pooledAlpn = .ok connector.ssl ∧
    connector.ssl.verify = config.shouldVerifyCerts

theorem Made.builtFor {openssl : OpenSsl} {parse : Parser} {place : Nat} {mode : ConnMode}
    {cached : CachedClient} (made : Made openssl parse place mode cached) {config : RequestConfig}
    {uri : Uri} (chosen : connMode parse config uri = .ok mode) :
    BuiltFor openssl parse config mode cached := by
  obtain ⟨source, uri', connector, chosen', new, serves⟩ := made.made
  obtain ⟨tls, pooled⟩ := serves.pooled
  have same : SamePolicy source config :=
    samePolicy_of_key ((connMode_tls chosen' pooled).symm.trans (connMode_tls chosen pooled))
  have settings : sslSettings openssl config pooledAlpn = .ok connector.ssl :=
    (same.sslSettings openssl pooledAlpn).symm.trans (new_spec new).1
  refine ⟨source, uri', connector, chosen', ?_, serves, same, settings, (sslSettings_spec settings).1⟩
  rw [made.certSlot, made.peerSlot]
  exact new

/-- Every request of a run that left by a pooled client did so by one made for the mode of
its hop. -/
theorem sent_pooled {env : Env} {actions : List Action} {sys : System}
    (ran : run (System.step env) System.init actions = some sys) {i : Nat} {task : Task}
    (there : sys.tasks[i]? = some task) {dispatch : Dispatch} (sent : dispatch ∈ task.sent) :
    dispatch.Pooled env task.config := by
  refine (tasks_invariant
    (motive := fun task => ∀ dispatch ∈ task.sent, dispatch.Pooled env task.config)
    ?_ ?_ ran).2 i task there dispatch sent
  · intro config uri _ dispatch nothing
    cases nothing
  · intro sys task task' action client sound all moved
    cases moved with
    | @dispatched i connected _ result phase sent =>
        cases result with
        | error fault => exact all
        | ok dispatch =>
            obtain ⟨-, pooled, -⟩ := (Walk.dispatch_spec sound sent).2 dispatch rfl
            intro d there
            rcases List.mem_append.mp (there : d ∈ task.sent ++ [dispatch]) with old | new
            · exact all d old
            · rw [List.mem_singleton.mp new]
              exact pooled
    | @settled i clock x phase =>
        unfold Task.settle
        split
        · split
          · exact all
          · exact all
        · exact all
    | _ => exact all

/-- **TLS policy isolation.** In every run of requests on one client, what
`get_or_build` returns for a hop was built for the hop's mode with the TLS fields of the
hop's own config; so no request that asks for verification is sent without it. -/
theorem getOrBuild_policy {env : Env} {actions : List Action} {sys : System}
    (ran : run (System.step env) System.init actions = some sys) :
    (∀ config uri mode cached client', connMode env.http.parse config uri = .ok mode →
      sys.client.getOrBuild env.openssl env.http.parse config mode = .ok (cached, client') →
        BuiltFor env.openssl env.http.parse config mode cached) ∧
    ∀ (i : Nat) (task : Task), sys.tasks[i]? = some task →
      ∀ dispatch ∈ task.sent, ∀ cached, dispatch.via = .pooled cached →
        ∃ mode, connMode env.http.parse task.config dispatch.uri = .ok mode ∧
          BuiltFor env.openssl env.http.parse task.config mode cached := by
  have sound : sys.client.Sound env.openssl env.http.parse :=
    (tasks_invariant (motive := fun _ => True) (fun _ _ _ => trivial) (fun _ _ _ => trivial) ran).1
  refine ⟨?_, ?_⟩
  · intro config uri mode cached client' chosen got
    exact (HyperClient.getOrBuild_spec sound chosen got).2.1.builtFor chosen
  · intro i task there dispatch sent cached via
    obtain ⟨mode, chosen, made⟩ := sent_pooled ran there sent cached via
    exact ⟨mode, chosen, made.builtFor chosen⟩

/-! A request that asks for verification, behind one to the same host that does not. -/

def laxConfig : RequestConfig := RequestConfig.new "https://example.com".toList

def strictConfig : RequestConfig := { laxConfig with verifyCerts := some true }

def policyActions : List Action :=
  [.start laxConfig, .start strictConfig, .dispatch 0 fun _ _ => .ok (),
    .dispatch 1 fun _ _ => .ok ()]

def policyEnd : System := (run (System.step exampleEnv) System.init policyActions).getD System.init

theorem getOrBuild_policy_strict :
    ∃ (dispatch : Dispatch) (cached : CachedClient) (mode : ConnMode),
      dispatch.via = .pooled cached ∧
      connMode plainParse strictConfig dispatch.uri = .ok mode ∧
      BuiltFor lenientOpenSsl plainParse strictConfig mode cached := by
  have policy := @getOrBuild_policy exampleEnv policyActions policyEnd (by rfl)
  have sent := policy.2 1 _ (by rfl) _ (List.mem_singleton.mpr rfl) _ (by rfl)
  obtain ⟨mode, chosen, built⟩ := sent
  exact ⟨_, _, mode, rfl, chosen, built⟩

/-! ## Hops at the cache -/

/-- The connector inside a pooled client. -/
def AnyClient.connector : AnyClient → OpenSslConnector
  | .direct connector => connector
  | .tunnel _ connector => connector
  | .socks5 _ connector => connector

/-- A hop of a request, as it comes to the cache. -/
structure AskedHop where
  config : RequestConfig
  uri : Uri

/-- The mode of a hop, if it is one with a pooled client. -/
def AskedHop.mode (parse : Parser) (hop : AskedHop) : Option ConnMode :=
  match connMode parse hop.config hop.uri with
  | .error _ => none
  | .ok (.forwardProxy _) => none
  | .ok mode => some mode

/-- One hop at the cache. -/
def HyperClient.serve (openssl : OpenSsl) (parse : Parser) (client : HyperClient) (hop : AskedHop) :
    HyperClient × Option CachedClient :=
  match hop.mode parse with
  | none => (client, none)
  | some mode =>
      match client.getOrBuild openssl parse hop.config mode with
      | .error _ => (client, none)
      | .ok (cached, client) => (client, some cached)

/-- The hops that get a client, each with the one it gets. -/
def served (openssl : OpenSsl) (parse : Parser) :
    HyperClient → List AskedHop → List (AskedHop × CachedClient)
  | _, [] => []
  | client, hop :: rest =>
      let (client', cached) := client.serve openssl parse hop
      match cached with
      | none => served openssl parse client' rest
      | some cached => (hop, cached) :: served openssl parse client' rest

theorem AskedHop.mode_some {parse : Parser} {hop : AskedHop} {mode : ConnMode}
    (chosen : hop.mode parse = some mode) :
    connMode parse hop.config hop.uri = .ok mode ∧ ∃ tls, mode.tls = some tls := by
  unfold AskedHop.mode at chosen
  split at chosen
  · cases chosen
  · cases chosen
  · rename_i mode' pooled chosen'
    cases chosen
    refine ⟨chosen', ?_⟩
    cases mode with
    | forwardProxy proxyUrl => exact absurd rfl (pooled proxyUrl)
    | direct tls => exact ⟨tls, rfl⟩
    | tunnel proxyUrl tls => exact ⟨tls, rfl⟩
    | socks5 proxyUrl tls => exact ⟨tls, rfl⟩

theorem AskedHop.mode_of_pooled {parse : Parser} {hop : AskedHop} {mode : ConnMode}
    (chosen : connMode parse hop.config hop.uri = .ok mode)
    (pooled : ∀ proxyUrl, mode ≠ .forwardProxy proxyUrl) : hop.mode parse = some mode := by
  unfold AskedHop.mode
  rw [chosen]
  cases mode with
  | forwardProxy proxyUrl => exact absurd rfl (pooled proxyUrl)
  | _ => rfl

/-- Hops with one mode ask for the same TLS. -/
theorem AskedHop.mode_policy {parse : Parser} {a b : AskedHop} {mode : ConnMode}
    (first : a.mode parse = some mode) (second : b.mode parse = some mode) :
    SamePolicy a.config b.config := by
  obtain ⟨chosen, tls, pooled⟩ := AskedHop.mode_some first
  exact samePolicy_of_key
    ((connMode_tls chosen pooled).symm.trans (connMode_tls (AskedHop.mode_some second).1 pooled))

/-- The TLS fields of the hop make settings. -/
def AskedHop.Settles (openssl : OpenSsl) (hop : AskedHop) : Prop :=
  ∃ ssl, sslSettings openssl hop.config pooledAlpn = .ok ssl

/-! ### One hop -/

theorem get_append {client : HyperClient} {mode mode' : ConnMode} {cached : CachedClient} :
    (HyperClient.mk (client.cached ++ [(mode', cached)])).get mode =
      (client.get mode).or (if mode' = mode then some cached else none) := by
  unfold HyperClient.get
  rw [List.find?_append]
  cases client.cached.find? fun entry => entry.1 = mode with
  | some entry => rfl
  | none =>
      by_cases same : mode' = mode
      · simp [same]
      · simp [same]

theorem Serves.connector {parse : Parser} {connector : OpenSslConnector} {mode : ConnMode}
    {inner : AnyClient} (serves : Serves parse connector mode inner) :
    inner.connector = connector ∧ wrapConnector parse connector mode = .ok inner := by
  cases mode with
  | forwardProxy proxyUrl => exact serves.elim
  | direct tls =>
      rw [show inner = .direct connector from serves]
      exact ⟨rfl, rfl⟩
  | tunnel proxyUrl tls =>
      obtain ⟨proxyUri, parsed, rfl⟩ := serves
      refine ⟨rfl, ?_⟩
      simp only [wrapConnector, parsed]
      rfl
  | socks5 proxyUrl tls =>
      obtain ⟨proxyUri, parsed, rfl⟩ := serves
      refine ⟨rfl, ?_⟩
      simp only [wrapConnector, parsed]
      rfl

theorem exists_serves {parse : Parser} {config : RequestConfig} {uri : Uri} {mode : ConnMode}
    (chosen : connMode parse config uri = .ok mode) {tls : TlsKey} (pooled : mode.tls = some tls)
    (connector : OpenSslConnector) : ∃ inner, Serves parse connector mode inner := by
  rcases connMode_cases chosen with ⟨-, rfl⟩ |
    ⟨url, proxyUri, -, parsed, ⟨-, rfl⟩ | ⟨-, rfl⟩ | rfl⟩
  · exact ⟨_, rfl⟩
  · exact ⟨.tunnel proxyUri connector, proxyUri, parsed, rfl⟩
  · cases pooled
  · exact ⟨.socks5 proxyUri connector, proxyUri, parsed, rfl⟩

/-- A client is built only where the TLS fields make settings, with the hop's timeout. -/
theorem buildClient_timeout {openssl : OpenSsl} {parse : Parser} {hop : AskedHop} {mode : ConnMode}
    {slot : Nat} {cached : CachedClient}
    (built : buildClient openssl parse hop.config mode slot = .ok cached) :
    hop.Settles openssl ∧ cached.inner.connector.connectTimeout = hop.config.timeout := by
  obtain ⟨connector, new, serves, -⟩ := buildClient_spec built
  obtain ⟨settings, timeout⟩ := new_spec new
  exact ⟨⟨connector.ssl, settings⟩, by rw [serves.connector.1, timeout]⟩

theorem buildClient_settles {openssl : OpenSsl} {parse : Parser} {hop : AskedHop} {mode : ConnMode}
    (chosen : hop.mode parse = some mode) (settles : hop.Settles openssl) (slot : Nat) :
    ∃ cached, buildClient openssl parse hop.config mode slot = .ok cached := by
  obtain ⟨ssl, settings⟩ := settles
  have new : OpenSslConnector.new openssl hop.config slot slot =
      .ok ⟨ssl, slot, slot, hop.config.timeout⟩ := by
    unfold OpenSslConnector.new
    rw [settings]
    rfl
  obtain ⟨chosen, tls, pooled⟩ := AskedHop.mode_some chosen
  obtain ⟨inner, serves⟩ := exists_serves chosen pooled ⟨ssl, slot, slot, hop.config.timeout⟩
  refine ⟨⟨inner, slot, slot⟩, ?_⟩
  simp only [buildClient, new]
  show (wrapConnector parse _ mode).bind _ = _
  rw [serves.connector.2]
  rfl

/-- What the cache does for a hop with a mode: nothing if it has the client or cannot make
one, else one more entry. -/
theorem serve_cases (openssl : OpenSsl) {parse : Parser} {hop : AskedHop} {mode : ConnMode}
    (chosen : hop.mode parse = some mode) (client : HyperClient) :
    (∃ cached, client.get mode = some cached ∧
      client.serve openssl parse hop = (client, some cached)) ∨
    (client.get mode = none ∧ ∃ cached,
      buildClient openssl parse hop.config mode client.cached.length = .ok cached ∧
        client.serve openssl parse hop = (⟨client.cached ++ [(mode, cached)]⟩, some cached)) ∨
    (¬ hop.Settles openssl ∧ client.serve openssl parse hop = (client, none)) := by
  simp only [HyperClient.serve, chosen, HyperClient.getOrBuild]
  cases found : client.get mode with
  | some cached => exact .inl ⟨cached, rfl, by simp only⟩
  | none =>
      cases built : buildClient openssl parse hop.config mode client.cached.length with
      | ok cached => exact .inr (.inl ⟨rfl, cached, rfl, by rfl⟩)
      | error fault =>
          refine .inr (.inr ⟨?_, by rfl⟩)
          intro settles
          obtain ⟨cached, clash⟩ := buildClient_settles chosen settles client.cached.length
          rw [built] at clash
          cases clash

/-- A hop that is not served leaves the cache alone. -/
theorem serve_none {openssl : OpenSsl} {parse : Parser} {hop : AskedHop} (chosen : hop.mode parse = none)
    (client : HyperClient) : client.serve openssl parse hop = (client, none) := by
  unfold HyperClient.serve
  rw [chosen]

/-- An entry of the cache stays. -/
theorem serve_keeps {openssl : OpenSsl} {parse : Parser} {client : HyperClient} {mode : ConnMode}
    {cached : CachedClient} (held : client.get mode = some cached) (hop : AskedHop) :
    (client.serve openssl parse hop).1.get mode = some cached := by
  cases chosen : hop.mode parse with
  | none =>
      rw [serve_none chosen]
      exact held
  | some mode' =>
      rcases serve_cases openssl chosen client with
        ⟨_, -, same⟩ | ⟨-, _, -, same⟩ | ⟨-, same⟩
      · rw [same]
        exact held
      · rw [same, get_append, held]
        rfl
      · rw [same]
        exact held

/-- An entry is old, or the hop made it. -/
theorem serve_adds {openssl : OpenSsl} {parse : Parser} {client : HyperClient} {mode : ConnMode}
    {cached : CachedClient} {hop : AskedHop}
    (held : (client.serve openssl parse hop).1.get mode = some cached) :
    client.get mode = some cached ∨
      (hop.mode parse = some mode ∧ hop.Settles openssl ∧
        cached.inner.connector.connectTimeout = hop.config.timeout) := by
  cases chosen : hop.mode parse with
  | none =>
      rw [serve_none chosen] at held
      exact .inl held
  | some mode' =>
      rcases serve_cases openssl chosen client with
        ⟨_, -, same⟩ | ⟨-, new, built, same⟩ | ⟨-, same⟩
      · rw [same] at held
        exact .inl held
      · rw [same, get_append] at held
        rcases Option.or_eq_some_iff.mp held with old | ⟨-, here⟩
        · exact .inl old
        · split at here
          · rename_i same'
            cases here
            exact .inr ⟨congrArg some same', buildClient_timeout built⟩
          · cases here
      · rw [same] at held
        exact .inl held

theorem serve_some {openssl : OpenSsl} {parse : Parser} {client : HyperClient} {hop : AskedHop}
    {cached : CachedClient} (got : (client.serve openssl parse hop).2 = some cached) :
    ∃ mode, hop.mode parse = some mode ∧
      (client.serve openssl parse hop).1.get mode = some cached := by
  cases chosen : hop.mode parse with
  | none =>
      rw [serve_none chosen] at got
      cases got
  | some mode =>
      refine ⟨mode, rfl, ?_⟩
      rcases serve_cases openssl chosen client with
        ⟨_, held, same⟩ | ⟨missing, _, -, same⟩ | ⟨-, same⟩
      · rw [same] at got ⊢
        cases got
        exact held
      · rw [same] at got ⊢
        cases got
        rw [get_append, missing, if_pos rfl]
        rfl
      · rw [same] at got
        cases got

/-! ### Any number of hops -/

/-- The cache after the hops. -/
def HyperClient.after (openssl : OpenSsl) (parse : Parser) (client : HyperClient) (hops : List AskedHop) :
    HyperClient :=
  hops.foldl (fun client hop => (client.serve openssl parse hop).1) client

theorem mem_served_cons {openssl : OpenSsl} {parse : Parser} {client : HyperClient} {hop : AskedHop}
    {rest : List AskedHop} {entry : AskedHop × CachedClient} :
    entry ∈ served openssl parse client (hop :: rest) ↔
      (entry.1 = hop ∧ (client.serve openssl parse hop).2 = some entry.2) ∨
        entry ∈ served openssl parse (client.serve openssl parse hop).1 rest := by
  obtain ⟨asking, given⟩ := entry
  rw [served]
  cases got : (client.serve openssl parse hop).2 with
  | none => simp [got]
  | some cached => simp [got, eq_comm]

theorem after_keeps {openssl : OpenSsl} {parse : Parser} {client : HyperClient} {mode : ConnMode}
    {cached : CachedClient} (held : client.get mode = some cached) (hops : List AskedHop) :
    (client.after openssl parse hops).get mode = some cached := by
  induction hops generalizing client with
  | nil => exact held
  | cons hop rest ih => exact ih (serve_keeps held hop)

/-- A client that was handed out is still the one of its mode. -/
theorem served_get {openssl : OpenSsl} {parse : Parser} {client : HyperClient} {hops : List AskedHop}
    {hop : AskedHop} {cached : CachedClient} (got : (hop, cached) ∈ served openssl parse client hops) :
    ∃ mode, hop.mode parse = some mode ∧
      (client.after openssl parse hops).get mode = some cached := by
  induction hops generalizing client with
  | nil => cases got
  | cons next rest ih =>
      rcases mem_served_cons.mp got with ⟨same, got⟩ | later
      · cases same
        obtain ⟨mode, chosen, held⟩ := serve_some got
        exact ⟨mode, chosen, after_keeps held rest⟩
      · exact ih later

/-- Every client of the cache is an old one or was made by a hop of its mode. -/
theorem after_made {openssl : OpenSsl} {parse : Parser} {client : HyperClient} {hops : List AskedHop}
    {mode : ConnMode} {cached : CachedClient}
    (held : (client.after openssl parse hops).get mode = some cached) :
    client.get mode = some cached ∨
      ∃ hop ∈ hops, hop.mode parse = some mode ∧ hop.Settles openssl ∧
        cached.inner.connector.connectTimeout = hop.config.timeout := by
  induction hops generalizing client with
  | nil => exact .inl held
  | cons next rest ih =>
      rcases ih held with here | ⟨hop, there, made⟩
      · rcases serve_adds here with old | made
        · exact .inl old
        · exact .inr ⟨next, List.mem_cons_self, made⟩
      · exact .inr ⟨hop, List.mem_cons_of_mem _ there, made⟩

/-- A client that was not there before was made by the first hop of its mode: if that one
cannot make it, no other can. -/
theorem after_first {openssl : OpenSsl} {parse : Parser} {client : HyperClient}
    {hops : List AskedHop} {mode : ConnMode} {cached : CachedClient}
    (fresh : client.get mode = none)
    (held : (client.after openssl parse hops).get mode = some cached) :
    ∃ first, hops.find? (fun hop => hop.mode parse = some mode) = some first ∧
      cached.inner.connector.connectTimeout = first.config.timeout := by
  induction hops generalizing client with
  | nil =>
      rw [show client.after openssl parse [] = client from rfl, fresh] at held
      cases held
  | cons next rest ih =>
      have later : ((client.serve openssl parse next).1.after openssl parse rest).get mode =
        some cached := held
      by_cases chosen : next.mode parse = some mode
      · refine ⟨next, List.find?_cons_of_pos (by simpa using chosen), ?_⟩
        rcases serve_cases openssl chosen client with
          ⟨old, here, -⟩ | ⟨-, new, built, same⟩ | ⟨never, same⟩
        · rw [fresh] at here
          cases here
        · have made : (client.serve openssl parse next).1.get mode = some new := by
            rw [same, get_append, fresh, if_pos rfl]
            rfl
          cases (after_keeps made rest).symm.trans later
          exact (buildClient_timeout built).2
        · rw [same] at later
          rcases after_made later with old | ⟨maker, -, chosen', ⟨ssl, settings⟩, -⟩
          · rw [fresh] at old
            cases old
          · have policy := (AskedHop.mode_policy chosen' chosen).sslSettings openssl pooledAlpn
            exact absurd ⟨ssl, policy.symm.trans settings⟩ never
      · have still : (client.serve openssl parse next).1.get mode = none := by
          cases added : (client.serve openssl parse next).1.get mode with
          | none => rfl
          | some new =>
              rcases serve_adds added with old | ⟨clash, -⟩
              · rw [fresh] at old
                cases old
              · exact absurd clash chosen
        obtain ⟨first, found, timeout⟩ := ih still later
        exact ⟨first, by rw [List.find?_cons_of_neg (by simpa using chosen), found], timeout⟩

/-! ## The hops of a run -/

/-- The hop an action brings to the cache. -/
def System.asks (sys : System) : Action → Option AskedHop
  | .dispatch i _ =>
      match sys.tasks[i]? with
      | none => none
      | some task =>
          match task.phase with
          | .ready => some ⟨task.config, task.walk.uri⟩
          | _ => none
  | _ => none

/-- All hops of a run, in the order they come. -/
def asked (env : Env) (sys : System) (actions : List Action) : List AskedHop :=
  seen (System.step env) System.asks sys actions

theorem served_append (openssl : OpenSsl) (parse : Parser) (client : HyperClient)
    (front back : List AskedHop) :
    served openssl parse client (front ++ back) =
      served openssl parse client front ++
        served openssl parse (client.after openssl parse front) back := by
  induction front generalizing client with
  | nil => rfl
  | cons hop rest ih =>
      have later := ih (client.serve openssl parse hop).1
      rw [List.cons_append, served, served]
      cases got : (client.serve openssl parse hop).2 with
      | none =>
          simp only [got]
          exact later
      | some cached =>
          simp only [got]
          exact congrArg _ later

/-- The cache after a dispatch, and where its pooled client comes from. -/
theorem Walk.dispatch_serve {env : Env} {config : RequestConfig} {client client' : HyperClient}
    {walk : Walk} {connected : Str → Nat → Except ClientError Unit}
    {result : Except Fault Dispatch}
    (sent : walk.dispatch env config client connected = (client', result)) :
    client' = (client.serve env.openssl env.http.parse ⟨config, walk.uri⟩).1 ∧
      ∀ dispatch cached, result = .ok dispatch → dispatch.via = .pooled cached →
        dispatch.uri = walk.uri ∧
          (client.serve env.openssl env.http.parse ⟨config, walk.uri⟩).2 = some cached := by
  unfold Walk.dispatch at sent
  split at sent
  · rename_i e failed
    cases sent
    have unserved : AskedHop.mode env.http.parse ⟨config, walk.uri⟩ = none := by
      unfold AskedHop.mode
      rw [failed]
    rw [serve_none unserved]
    exact ⟨rfl, fun _ _ there => by cases there⟩
  · rename_i proxyUrl chosen
    cases sent
    have unserved : AskedHop.mode env.http.parse ⟨config, walk.uri⟩ = none := by
      unfold AskedHop.mode
      rw [chosen]
    rw [serve_none unserved]
    refine ⟨rfl, ?_⟩
    intro dispatch cached there via
    obtain ⟨proxyUri, _, request, -, -, -, -, same⟩ :=
      Walk.dispatchForwardProxy_ok (mapError_ok.mp there)
    rw [same] at via
    cases via
  · rename_i mode pooled chosen
    have mode_eq : AskedHop.mode env.http.parse ⟨config, walk.uri⟩ = some mode :=
      AskedHop.mode_of_pooled chosen fun proxyUrl same => pooled proxyUrl same
    split at sent
    · rename_i fault failed
      cases sent
      simp only [HyperClient.serve, mode_eq, failed]
      exact ⟨trivial, fun _ _ there => by cases there⟩
    · rename_i cached client'' got
      cases sent
      simp only [HyperClient.serve, mode_eq, got]
      refine ⟨trivial, ?_⟩
      intro dispatch cached' there via
      obtain ⟨request, -, same⟩ := Walk.dispatchRequest_ok (mapError_ok.mp there)
      rw [same] at via ⊢
      cases via
      exact ⟨rfl, rfl⟩

/-- A move changes the cache as its hop does, and sends only what that hop is served. -/
theorem move_asks {env : Env} {sys : System} {task task' : Task} {action : Action}
    {client' : HyperClient} (there : sys.tasks[action.task]? = some task)
    (moved : Move env sys task action client' task') :
    client' = sys.client.after env.openssl env.http.parse (sys.asks action).toList ∧
      ∀ dispatch ∈ task'.sent, dispatch ∈ task.sent ∨ ∀ cached, dispatch.via = .pooled cached →
        (AskedHop.mk task.config dispatch.uri, cached) ∈
          served env.openssl env.http.parse sys.client (sys.asks action).toList := by
  cases moved with
  | @dispatched i connected _ result phase sent =>
      obtain ⟨after, pooled⟩ := Walk.dispatch_serve sent
      have asks : sys.asks (.dispatch i connected) = some ⟨task.config, task.walk.uri⟩ := by
        unfold System.asks
        simp only
        rw [show sys.tasks[i]? = some task from there]
        simp only [phase]
      rw [asks]
      refine ⟨after, ?_⟩
      intro dispatch inside
      cases result with
      | error fault => exact .inl inside
      | ok fresh =>
          rcases List.mem_append.mp (inside : dispatch ∈ task.sent ++ [fresh]) with before | last
          · exact .inl before
          · cases List.mem_singleton.mp last
            refine .inr fun cached via => ?_
            obtain ⟨here, got⟩ := pooled _ cached rfl via
            rw [here]
            exact mem_served_cons.mpr (.inl ⟨rfl, got⟩)
  | @settled i clock x phase =>
      refine ⟨rfl, fun dispatch inside => .inl ?_⟩
      unfold Task.settle at inside
      split at inside
      · split at inside
        · exact inside
        · exact inside
      · exact inside
  | _ => exact ⟨rfl, fun dispatch inside => .inl inside⟩

/-- The cache of a run is what the hops make of an empty one, and what left by a pooled
client is one of the hops that were served. -/
theorem run_asked {env : Env} {actions : List Action} {sys : System}
    (ran : run (System.step env) System.init actions = some sys) :
    sys.client = HyperClient.new.after env.openssl env.http.parse (asked env System.init actions) ∧
      ∀ (i : Nat) (task : Task), sys.tasks[i]? = some task → ∀ dispatch ∈ task.sent, ∀ cached,
        dispatch.via = .pooled cached → (AskedHop.mk task.config dispatch.uri, cached) ∈
          served env.openssl env.http.parse HyperClient.new (asked env System.init actions) := by
  refine run_induction (motive := fun actions sys =>
    sys.client = HyperClient.new.after env.openssl env.http.parse (asked env System.init actions) ∧
      ∀ (i : Nat) (task : Task), sys.tasks[i]? = some task → ∀ dispatch ∈ task.sent, ∀ cached,
        dispatch.via = .pooled cached → (AskedHop.mk task.config dispatch.uri, cached) ∈
          served env.openssl env.http.parse HyperClient.new (asked env System.init actions))
    ?_ ?_ ran
  · exact ⟨rfl, fun i task nothing => by cases nothing⟩
  · rintro actions sys sys' action ran ⟨client, all⟩ stepped
    rw [asked, seen_concat ran, served_append, ← asked, ← client]
    unfold HyperClient.after
    rw [List.foldl_append]
    change sys'.client = HyperClient.after env.openssl env.http.parse
      (HyperClient.new.after env.openssl env.http.parse (asked env System.init actions)) _ ∧ _
    rw [← client]
    have old : ∀ {i : Nat} {task : Task}, sys.tasks[i]? = some task → ∀ dispatch ∈ task.sent,
        ∀ cached, dispatch.via = .pooled cached → (AskedHop.mk task.config dispatch.uri, cached) ∈
          served env.openssl env.http.parse HyperClient.new (asked env System.init actions) ++
            served env.openssl env.http.parse sys.client (sys.asks action).toList :=
      fun there dispatch sent cached via =>
        List.mem_append_left _ (all _ _ there dispatch sent cached via)
    rcases step_cases stepped with ⟨config, rfl, rfl⟩ |
      ⟨i, hop, network, dispatch, cached, rfl, -, -, rfl⟩ | ⟨task, client', task', there, moved, rfl⟩
    · refine ⟨startTask_client env sys config, ?_⟩
      intro i task here dispatch sent cached via
      rcases startTask_tasks here with before | ⟨uri, -, rfl⟩
      · exact old before dispatch sent cached via
      · cases sent
    · exact ⟨rfl, fun i task here => old here⟩
    · obtain ⟨after, fresh⟩ := move_asks there moved
      refine ⟨after, ?_⟩
      intro j held here dispatch inside cached via
      rcases System.setTask_tasks here with ⟨-, rfl⟩ | other
      · rw [move_config moved]
        rcases fresh dispatch inside with before | pooled
        · exact old there dispatch before cached via
        · exact List.mem_append_right _ (pooled cached via)
      · exact old other dispatch inside cached via

/-! ## The timeout -/

/-- A connection the pool opens: the hop it is for, and the connector that opens it. -/
structure Opening where
  hop : AskedHop
  connector : OpenSslConnector

def System.opens (sys : System) : Action → Option Opening
  | .connect i hop _ =>
      match sys.tasks[i]? with
      | none => none
      | some task =>
          match task.sent[hop]? with
          | some ⟨uri, .pooled cached, _⟩ =>
              some ⟨⟨task.config, uri⟩, cached.inner.connector⟩
          | _ => none
  | _ => none

/-- All connections that are opened in a run. -/
def opened (env : Env) (sys : System) (actions : List Action) : List Opening :=
  seen (System.step env) System.opens sys actions

/-- Every connection is opened with the timeout of the request it is for. -/
def OwnTimeouts (openings : List Opening) : Prop :=
  ∀ o ∈ openings, o.connector.connectTimeout = o.hop.config.timeout

/-- Every hop that gets a connection has the timeout of the first one of its mode. -/
def FirstTimeouts (parse : Parser) (hops connected : List AskedHop) : Prop :=
  ∀ hop ∈ connected, ∀ first,
    hops.find? (fun other => other.mode parse = hop.mode parse) = some first →
      first.config.timeout = hop.config.timeout

theorem opens_cases {sys : System} {action : Action} {o : Opening}
    (opens : sys.opens action = some o) :
    ∃ (i : Nat) (task : Task) (dispatch : Dispatch) (cached : CachedClient),
      sys.tasks[i]? = some task ∧ dispatch ∈ task.sent ∧ dispatch.via = .pooled cached ∧
        o = ⟨⟨task.config, dispatch.uri⟩, cached.inner.connector⟩ := by
  cases action with
  | connect i hop network =>
      simp only [System.opens] at opens
      split at opens
      · cases opens
      · rename_i task there
        split at opens
        · rename_i uri cached request sent
          cases opens
          exact ⟨i, task, _, cached, there, List.mem_of_getElem? sent, rfl, rfl⟩
        · cases opens
  | _ => cases opens

/-- A connection is opened by the connector its hop was served. -/
theorem opened_served {env : Env} {actions : List Action} {sys : System}
    (ran : run (System.step env) System.init actions = some sys) :
    ∀ o ∈ opened env System.init actions, ∃ cached, o.connector = cached.inner.connector ∧
      (o.hop, cached) ∈
        served env.openssl env.http.parse HyperClient.new (asked env System.init actions) := by
  refine run_induction (motive := fun actions _ =>
    ∀ o ∈ opened env System.init actions, ∃ cached, o.connector = cached.inner.connector ∧
      (o.hop, cached) ∈
        served env.openssl env.http.parse HyperClient.new (asked env System.init actions)) ?_ ?_ ran
  · intro o nothing
    cases nothing
  · intro actions sys sys' action ran all stepped o there
    rw [opened, seen_concat ran] at there
    rw [asked, seen_concat ran, served_append, ← asked]
    rcases List.mem_append.mp there with before | here
    · obtain ⟨cached, same, got⟩ := all o before
      exact ⟨cached, same, List.mem_append_left _ got⟩
    · obtain ⟨i, task, dispatch, cached, running, sent, via, rfl⟩ :=
        opens_cases (Option.mem_toList.mp here)
      exact ⟨cached, rfl,
        List.mem_append_left _ ((run_asked ran).2 i task running dispatch sent cached via)⟩

/-- The timeout a connection is opened with is that of the first hop of its mode. -/
theorem opened_first {env : Env} {actions : List Action} {sys : System}
    (ran : run (System.step env) System.init actions = some sys) {o : Opening}
    (there : o ∈ opened env System.init actions) :
    ∃ first, (asked env System.init actions).find?
        (fun other => other.mode env.http.parse = o.hop.mode env.http.parse) = some first ∧
      o.connector.connectTimeout = first.config.timeout := by
  obtain ⟨cached, same, got⟩ := opened_served ran o there
  obtain ⟨mode, chosen, held⟩ := served_get got
  obtain ⟨first, found, timeout⟩ := after_first rfl held
  rw [chosen, same]
  exact ⟨first, found, timeout⟩

/-- **Whose timeout a connection has.** In every run of requests on one client, every
connection is opened with the timeout of the request it is for if and only if that is the
timeout of the first hop of the run with the same mode. -/
theorem ownTimeouts_iff {env : Env} {actions : List Action} {sys : System}
    (ran : run (System.step env) System.init actions = some sys) :
    OwnTimeouts (opened env System.init actions) ↔
      FirstTimeouts env.http.parse (asked env System.init actions)
        ((opened env System.init actions).map Opening.hop) := by
  unfold OwnTimeouts FirstTimeouts
  rw [List.forall_mem_map]
  refine forall_congr' fun o => forall_congr' fun there => ?_
  obtain ⟨first, found, timeout⟩ := opened_first ran there
  rw [found, timeout]
  simp

/-! A request with a second to connect, behind one to the same host with the default. -/

def quickConfig : RequestConfig := { laxConfig with timeoutSeconds := some 1 }

def timeoutActions : List Action :=
  [.start laxConfig, .dispatch 0 fun _ _ => .ok (), .connect 0 0 openNetwork,
    .respond 0 (some 0) okAnswer, .settle 0 fun _ => 0, .finish 0, .start quickConfig,
    .dispatch 1 fun _ _ => .ok (), .connect 1 0 openNetwork]

def timeoutEnd : System :=
  (run (System.step exampleEnv) System.init timeoutActions).getD System.init

theorem ownTimeouts_iff_quick :
    OwnTimeouts (opened exampleEnv System.init timeoutActions) ↔
      FirstTimeouts plainParse (asked exampleEnv System.init timeoutActions)
        ((opened exampleEnv System.init timeoutActions).map Opening.hop) :=
  @ownTimeouts_iff exampleEnv timeoutActions timeoutEnd (by rfl)

/-- Its connection is opened by a connector that waits ten. -/
theorem quick_waits_ten :
    run (System.step exampleEnv) System.init timeoutActions = some timeoutEnd ∧
      (opened exampleEnv System.init timeoutActions).map
        (fun o => (o.hop.config.timeout, o.connector.connectTimeout)) = [(10, 10), (1, 10)] ∧
      ¬ OwnTimeouts (opened exampleEnv System.init timeoutActions) := by
  have timeouts : (opened exampleEnv System.init timeoutActions).map
      (fun o => (o.hop.config.timeout, o.connector.connectTimeout)) = [(10, 10), (1, 10)] := by rfl
  refine ⟨by rfl, timeouts, ?_⟩
  intro own
  have quick : ((1 : UInt64), (10 : UInt64)) ∈ (opened exampleEnv System.init timeoutActions).map
      (fun o => (o.hop.config.timeout, o.connector.connectTimeout)) := by
    rw [timeouts]
    decide
  obtain ⟨o, there, same⟩ := List.mem_map.mp quick
  injection same with asks waits
  have equal := own o there
  rw [asks, waits] at equal
  exact absurd equal (by decide)

end Blasthttp.Client
