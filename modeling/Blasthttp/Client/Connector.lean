/-
# Blasthttp.Client.Connector -- connection modes and the cached clients

`conn_mode` picks a mode for a request, and `get_or_build` keeps one pooled client per
mode.  `getOrBuild_spec` says what comes out of the cache whatever ran before: a client
made for this very mode, by a connector with the TLS settings of a request whose TLS
fields are those of the key.
-/
import Blasthttp.Rust.Result
import Blasthttp.Client.Request

namespace Blasthttp.Client

open Blasthttp.Rust Blasthttp.Http

set_option autoImplicit false

/-- How a call ends without a value. -/
inductive Fault where
  | error (e : ClientError)
  | panicked
  deriving DecidableEq

/-! ## TLS settings -/

inductive SslVersion where
  | tls1
  | tls1_1
  | tls1_2
  | tls1_3
  deriving DecidableEq

/-- What OpenSSL and the system say while settings are made, with their error texts. -/
structure OpenSsl where
  builder : Except Str Unit
  /-- `load_system_ca_certs`. -/
  systemCaCerts : Except ClientError Unit
  cipherList : Str → Except Str Unit
  minProtoVersion : SslVersion → Except Str Unit
  maxProtoVersion : SslVersion → Except Str Unit
  alpnProtos : List UInt8 → Except Str Unit

/-- An OpenSSL that takes every setting. -/
def lenientOpenSsl : OpenSsl where
  builder := .ok ()
  systemCaCerts := .ok ()
  cipherList := fun _ => .ok ()
  minProtoVersion := fun _ => .ok ()
  maxProtoVersion := fun _ => .ok ()
  alpnProtos := fun _ => .ok ()

/-- What an `SslConnector` was built with. -/
structure SslSettings where
  verify : Bool
  ciphers : Option Str
  minVersion : Option SslVersion
  maxVersion : Option SslVersion
  alpn : List UInt8
  deriving DecidableEq

def tlsError (context : Str) (e : Str) : ClientError := ⟨context ++ e, .tls⟩

/-- `encode_alpn_protocols`: each name behind its length. -/
def encodeAlpnProtocols : List Str → Except ClientError (List UInt8)
  | [] => .ok []
  | p :: rest =>
      let bytes := utf8Bytes p
      if bytes.isEmpty then .error ⟨"ALPN protocol name cannot be empty".toList, .tls⟩
      else if 255 < bytes.length then
        .error
          ⟨"ALPN protocol name too long (".toList ++ decimalText bytes.length ++
            "B > 255): ".toList ++ p, .tls⟩
      else
        match encodeAlpnProtocols rest with
        | .error e => .error e
        | .ok wire => .ok (UInt8.ofNat bytes.length :: bytes ++ wire)

/-- `parse_tls_version`. -/
def parseTlsVersion (s : Str) : Except ClientError SslVersion :=
  let lower := toAsciiLowercase s
  if lower = "1.0".toList ∨ lower = "tls1.0".toList ∨ lower = "tlsv1.0".toList then .ok .tls1
  else if lower = "1.1".toList ∨ lower = "tls1.1".toList ∨ lower = "tlsv1.1".toList then
    .ok .tls1_1
  else if lower = "1.2".toList ∨ lower = "tls1.2".toList ∨ lower = "tlsv1.2".toList then
    .ok .tls1_2
  else if lower = "1.3".toList ∨ lower = "tls1.3".toList ∨ lower = "tlsv1.3".toList then
    .ok .tls1_3
  else
    .error
      ⟨"unknown TLS version '".toList ++ s ++ "' (use 1.0, 1.1, 1.2, 1.3)".toList, .other⟩

/-- The system's certificates, loaded when they will be asked for. -/
def setVerify (openssl : OpenSsl) (verify : Bool) : Except ClientError Unit :=
  if verify then openssl.systemCaCerts else .ok ()

def setCiphers (openssl : OpenSsl) : Option Str → Except ClientError Unit
  | none => .ok ()
  | some ciphers =>
      (openssl.cipherList ciphers).mapError
        (tlsError ("invalid cipher string '".toList ++ ciphers ++ "': ".toList))

/-- One optional version: parsed, then handed to the builder. -/
def setVersion (accept : SslVersion → Except Str Unit) (context : Str) :
    Option Str → Except ClientError (Option SslVersion)
  | none => .ok none
  | some text => do
      let version ← parseTlsVersion text
      (accept version).mapError (tlsError context)
      pure (some version)

def alpnWire (protocols : Option (List Str)) (default : List UInt8) :
    Except ClientError (List UInt8) :=
  match protocols with
  | some protos => encodeAlpnProtocols protos
  | none => .ok default

/-- The settings `OpenSslConnector::new` and `connect_stream` make of a config; they
differ in what is offered by ALPN by default. -/
def sslSettings (openssl : OpenSsl) (config : RequestConfig) (defaultAlpn : List UInt8) :
    Except ClientError SslSettings := do
  openssl.builder.mapError (tlsError "SSL setup failed: ".toList)
  setVerify openssl config.shouldVerifyCerts
  setCiphers openssl config.cipherString
  let minVersion ← setVersion openssl.minProtoVersion
    "failed to set min TLS version: ".toList config.minTlsVersion
  let maxVersion ← setVersion openssl.maxProtoVersion
    "failed to set max TLS version: ".toList config.maxTlsVersion
  let alpn ← alpnWire config.alpnProtocols defaultAlpn
  (openssl.alpnProtos alpn).mapError (tlsError "failed to set ALPN: ".toList)
  pure
    { verify := config.shouldVerifyCerts
      ciphers := config.cipherString
      minVersion := minVersion
      maxVersion := maxVersion
      alpn := alpn }

theorem sslSettings_spec {openssl : OpenSsl} {config : RequestConfig} {defaultAlpn : List UInt8}
    {settings : SslSettings} (made : sslSettings openssl config defaultAlpn = .ok settings) :
    settings.verify = config.shouldVerifyCerts ∧ settings.ciphers = config.cipherString := by
  unfold sslSettings at made
  obtain ⟨-, -, made⟩ := bind_ok.mp made
  obtain ⟨-, -, made⟩ := bind_ok.mp made
  obtain ⟨-, -, made⟩ := bind_ok.mp made
  obtain ⟨_, -, made⟩ := bind_ok.mp made
  obtain ⟨_, -, made⟩ := bind_ok.mp made
  obtain ⟨_, -, made⟩ := bind_ok.mp made
  obtain ⟨-, -, made⟩ := bind_ok.mp made
  cases made
  exact ⟨rfl, rfl⟩

/-! ## Connectors -/

/-- `OpenSslConnector`.  A slot is named by its place among the slots of the client. -/
structure OpenSslConnector where
  ssl : SslSettings
  certSlot : Nat
  peerSlot : Nat
  /-- For the TCP connect, and again for the TLS handshake. -/
  connectTimeout : UInt64
  deriving DecidableEq

/-- `h2` and `http/1.1` as ALPN writes them. -/
def pooledAlpn : List UInt8 :=
  [2, 0x68, 0x32, 8, 0x68, 0x74, 0x74, 0x70, 0x2F, 0x31, 0x2E, 0x31]

def OpenSslConnector.new (openssl : OpenSsl) (config : RequestConfig) (certSlot peerSlot : Nat) :
    Except ClientError OpenSslConnector := do
  let ssl ← sslSettings openssl config pooledAlpn
  pure
    { ssl := ssl
      certSlot := certSlot
      peerSlot := peerSlot
      connectTimeout := config.timeout }

/-! ## Modes -/

/-- The TLS fields of the cache key. -/
structure TlsKey where
  verifyCerts : Bool
  cipherString : Option Str
  minTlsVersion : Option Str
  maxTlsVersion : Option Str
  alpnProtocols : Option (List Str)
  deriving DecidableEq

def TlsKey.fromConfig (config : RequestConfig) : TlsKey where
  verifyCerts := config.shouldVerifyCerts
  cipherString := config.cipherString
  minTlsVersion := config.minTlsVersion
  maxTlsVersion := config.maxTlsVersion
  alpnProtocols := config.alpnProtocols

inductive ConnMode where
  | direct (tls : TlsKey)
  /-- HTTP proxy and HTTP target. -/
  | forwardProxy (proxyUrl : Str)
  /-- HTTP proxy and HTTPS target. -/
  | tunnel (proxyUrl : Str) (tls : TlsKey)
  | socks5 (proxyUrl : Str) (tls : TlsKey)
  deriving DecidableEq

def invalidProxyUrl (e : Str) : ClientError := ⟨"invalid proxy URL: ".toList ++ e, .invalidUrl⟩

def connMode (parse : Parser) (config : RequestConfig) (targetUri : Uri) :
    Except ClientError ConnMode :=
  let tls := TlsKey.fromConfig config
  match config.effectiveProxy targetUri.hostOrEmpty with
  | none => .ok (.direct tls)
  | some proxyUrl => do
      let proxyUri ← (parse proxyUrl).mapError invalidProxyUrl
      let proxyScheme := proxyUri.scheme.getD []
      if proxyScheme = "http".toList ∨ proxyScheme = "https".toList then
        if targetUri.isHttps then pure (.tunnel proxyUrl tls) else pure (.forwardProxy proxyUrl)
      else if proxyScheme = "socks5".toList ∨ proxyScheme = "socks5h".toList then
        pure (.socks5 proxyUrl tls)
      else
        throw
          ⟨"unsupported proxy scheme '".toList ++ proxyScheme ++
            "' (use http, https, socks5)".toList, .other⟩

/-! ## Cached clients -/

/-- A pooled client: the connector, wrapped for the proxy it goes through. -/
inductive AnyClient where
  | direct (connector : OpenSslConnector)
  | tunnel (proxyUri : Uri) (connector : OpenSslConnector)
  | socks5 (proxyUri : Uri) (connector : OpenSslConnector)
  deriving DecidableEq

structure CachedClient where
  inner : AnyClient
  certSlot : Nat
  peerSlot : Nat
  deriving DecidableEq

/-- The cache, oldest entry first. -/
structure HyperClient where
  cached : List (ConnMode × CachedClient)

def HyperClient.new : HyperClient := ⟨[]⟩

def HyperClient.get (client : HyperClient) (mode : ConnMode) : Option CachedClient :=
  (client.cached.find? fun entry => entry.1 = mode).map Prod.snd

/-- The connector wrapped as the mode asks. -/
def wrapConnector (parse : Parser) (connector : OpenSslConnector) :
    ConnMode → Except Fault AnyClient
  | .direct _ => .ok (.direct connector)
  -- `unreachable!`: a forward proxy has no pooled client
  | .forwardProxy _ => .error .panicked
  | .tunnel proxyUrl _ => do
      let proxyUri ← (parse proxyUrl).mapError fun e => Fault.error (invalidProxyUrl e)
      pure (.tunnel proxyUri connector)
  | .socks5 proxyUrl _ => do
      let proxyUri ← (parse proxyUrl).mapError fun e => Fault.error (invalidProxyUrl e)
      pure (.socks5 proxyUri connector)

/-- The client `get_or_build` makes for a mode it has none for. -/
def buildClient (openssl : OpenSsl) (parse : Parser) (config : RequestConfig) (mode : ConnMode)
    (slot : Nat) : Except Fault CachedClient := do
  let connector ← (OpenSslConnector.new openssl config slot slot).mapError Fault.error
  let inner ← wrapConnector parse connector mode
  pure { inner := inner, certSlot := slot, peerSlot := slot }

/-- `get_or_build`: entries are never removed, so the number of them names fresh
slots. -/
def HyperClient.getOrBuild (client : HyperClient) (openssl : OpenSsl) (parse : Parser)
    (config : RequestConfig) (mode : ConnMode) : Except Fault (CachedClient × HyperClient) :=
  match client.get mode with
  | some cached => .ok (cached, client)
  | none => do
      let cached ← buildClient openssl parse config mode client.cached.length
      pure (cached, ⟨client.cached ++ [(mode, cached)]⟩)

/-! ## What comes out of the cache -/

/-- The kinds of mode: without a proxy, or through the parsed proxy of the config. -/
theorem connMode_cases {parse : Parser} {config : RequestConfig} {uri : Uri} {mode : ConnMode}
    (chosen : connMode parse config uri = .ok mode) :
    (config.effectiveProxy uri.hostOrEmpty = none ∧ mode = .direct (TlsKey.fromConfig config)) ∨
    ∃ proxyUrl proxyUri, config.effectiveProxy uri.hostOrEmpty = some proxyUrl ∧
      parse proxyUrl = .ok proxyUri ∧
      ((uri.isHttps = true ∧ mode = .tunnel proxyUrl (TlsKey.fromConfig config)) ∨
        (uri.isHttps = false ∧ mode = .forwardProxy proxyUrl) ∨
        mode = .socks5 proxyUrl (TlsKey.fromConfig config)) := by
  simp only [connMode] at chosen
  cases proxied : config.effectiveProxy uri.hostOrEmpty with
  | none =>
      rw [proxied] at chosen
      cases chosen
      exact .inl ⟨rfl, rfl⟩
  | some proxyUrl =>
      rw [proxied] at chosen
      obtain ⟨proxyUri, parsed, chosen⟩ := bind_ok.mp chosen
      refine .inr ⟨proxyUrl, proxyUri, rfl, mapError_ok.mp parsed, ?_⟩
      split at chosen
      · split at chosen
        · rename_i https
          cases chosen
          exact .inl ⟨https, rfl⟩
        · rename_i plain
          cases chosen
          exact .inr (.inl ⟨by simpa using plain, rfl⟩)
      · split at chosen
        · cases chosen
          exact .inr (.inr rfl)
        · cases chosen

/-- A pooled client goes where its mode says. -/
def Serves (parse : Parser) (connector : OpenSslConnector) : ConnMode → AnyClient → Prop
  | .direct _, inner => inner = .direct connector
  | .forwardProxy _, _ => False
  | .tunnel proxyUrl _, inner =>
      ∃ proxyUri, parse proxyUrl = .ok proxyUri ∧ inner = .tunnel proxyUri connector
  | .socks5 proxyUrl _, inner =>
      ∃ proxyUri, parse proxyUrl = .ok proxyUri ∧ inner = .socks5 proxyUri connector

theorem buildClient_spec {openssl : OpenSsl} {parse : Parser} {config : RequestConfig}
    {mode : ConnMode} {slot : Nat} {cached : CachedClient}
    (built : buildClient openssl parse config mode slot = .ok cached) :
    ∃ connector, OpenSslConnector.new openssl config slot slot = .ok connector ∧
      Serves parse connector mode cached.inner ∧ cached.certSlot = slot ∧
      cached.peerSlot = slot := by
  unfold buildClient at built
  obtain ⟨connector, made, built⟩ := bind_ok.mp built
  obtain ⟨inner, wrapped, built⟩ := bind_ok.mp built
  cases built
  refine ⟨connector, mapError_ok.mp made, ?_, rfl, rfl⟩
  cases mode with
  | direct tls =>
      cases wrapped
      exact rfl
  | forwardProxy proxyUrl => cases wrapped
  | tunnel proxyUrl tls =>
      obtain ⟨proxyUri, parsed, wrapped⟩ := bind_ok.mp wrapped
      cases wrapped
      exact ⟨proxyUri, mapError_ok.mp parsed, rfl⟩
  | socks5 proxyUrl tls =>
      obtain ⟨proxyUri, parsed, wrapped⟩ := bind_ok.mp wrapped
      cases wrapped
      exact ⟨proxyUri, mapError_ok.mp parsed, rfl⟩

/-- An entry of the cache was made for its mode, which some request asked for, and
its slots are those at its place. -/
structure Made (openssl : OpenSsl) (parse : Parser) (place : Nat) (mode : ConnMode)
    (cached : CachedClient) : Prop where
  made : ∃ config uri connector, connMode parse config uri = .ok mode ∧
    OpenSslConnector.new openssl config place place = .ok connector ∧
      Serves parse connector mode cached.inner
  certSlot : cached.certSlot = place
  peerSlot : cached.peerSlot = place

def HyperClient.Sound (openssl : OpenSsl) (parse : Parser) (client : HyperClient) : Prop :=
  ∀ place mode cached, client.cached[place]? = some (mode, cached) →
    Made openssl parse place mode cached

theorem HyperClient.new_sound (openssl : OpenSsl) (parse : Parser) :
    HyperClient.new.Sound openssl parse := by
  intro place mode cached there
  cases there

theorem HyperClient.get_mem {client : HyperClient} {mode : ConnMode} {cached : CachedClient}
    (found : client.get mode = some cached) : (mode, cached) ∈ client.cached := by
  unfold HyperClient.get at found
  obtain ⟨entry, hit, rfl⟩ := Option.map_eq_some_iff.mp found
  have same : entry.1 = mode := by simpa using List.find?_some hit
  rw [← same]
  exact List.mem_of_find?_eq_some hit

/-- What `get_or_build` returns was made for the mode asked for. -/
theorem HyperClient.getOrBuild_spec {openssl : OpenSsl} {parse : Parser} {client client' : HyperClient}
    (sound : client.Sound openssl parse) {config : RequestConfig} {uri : Uri} {mode : ConnMode}
    (chosen : connMode parse config uri = .ok mode) {cached : CachedClient}
    (got : client.getOrBuild openssl parse config mode = .ok (cached, client')) :
    client'.Sound openssl parse ∧ Made openssl parse cached.certSlot mode cached ∧
      client.cached <+: client'.cached ∧ client'.cached[cached.certSlot]? = some (mode, cached) := by
  unfold HyperClient.getOrBuild at got
  cases found : client.get mode with
  | some held =>
      rw [found] at got
      cases got
      obtain ⟨place, there⟩ := List.getElem?_of_mem (HyperClient.get_mem found)
      have made := sound place mode cached there
      refine ⟨sound, ?_, List.prefix_refl _, ?_⟩
      · rw [made.certSlot]
        exact made
      · rw [made.certSlot]
        exact there
  | none =>
      rw [found] at got
      obtain ⟨_, built, got⟩ := bind_ok.mp got
      cases got
      obtain ⟨connector, new, serves, certs, peers⟩ := buildClient_spec built
      have fresh : Made openssl parse client.cached.length mode cached :=
        ⟨⟨config, uri, connector, chosen, new, serves⟩, certs, peers⟩
      refine ⟨?_, by rw [certs]; exact fresh, List.prefix_append _ _, by rw [certs]; simp⟩
      intro place mode' cached' there
      rcases Nat.lt_trichotomy place client.cached.length with old | rfl | past
      · rw [List.getElem?_append_left old] at there
        exact sound place mode' cached' there
      · rw [List.getElem?_concat_length] at there
        cases there
        exact fresh
      · rw [List.getElem?_eq_none (by simp; omega)] at there
        cases there

/-- The mode of a pooled client fixes the TLS fields of the request. -/
def ConnMode.tls : ConnMode → Option TlsKey
  | .direct tls => some tls
  | .forwardProxy _ => none
  | .tunnel _ tls => some tls
  | .socks5 _ tls => some tls

theorem Serves.pooled {parse : Parser} {connector : OpenSslConnector} {mode : ConnMode}
    {inner : AnyClient} (serves : Serves parse connector mode inner) :
    ∃ tls, mode.tls = some tls := by
  cases mode with
  | forwardProxy proxyUrl => exact serves.elim
  | direct tls => exact ⟨tls, rfl⟩
  | tunnel proxyUrl tls => exact ⟨tls, rfl⟩
  | socks5 proxyUrl tls => exact ⟨tls, rfl⟩

theorem connMode_tls {parse : Parser} {config : RequestConfig} {uri : Uri} {mode : ConnMode}
    (chosen : connMode parse config uri = .ok mode) {tls : TlsKey} (pooled : mode.tls = some tls) :
    tls = TlsKey.fromConfig config := by
  rcases connMode_cases chosen with ⟨-, rfl⟩ | ⟨_, _, -, -, ⟨-, rfl⟩ | ⟨-, rfl⟩ | rfl⟩ <;>
    cases pooled <;> rfl

/-- The connector of a cached client verifies exactly when the request asks for it,
whichever request it was built for. -/
theorem Made.verify {openssl : OpenSsl} {parse : Parser} {place : Nat} {mode : ConnMode}
    {cached : CachedClient} (made : Made openssl parse place mode cached) {config : RequestConfig}
    {uri : Uri} (chosen : connMode parse config uri = .ok mode) :
    ∃ connector, Serves parse connector mode cached.inner ∧
      connector.ssl.verify = config.shouldVerifyCerts := by
  obtain ⟨config', uri', connector, chosen', new, serves⟩ := made.made
  refine ⟨connector, serves, ?_⟩
  unfold OpenSslConnector.new at new
  obtain ⟨ssl, settings, new⟩ := bind_ok.mp new
  cases new
  obtain ⟨tls, pooled⟩ := serves.pooled
  have same := (connMode_tls chosen' pooled).symm.trans (connMode_tls chosen pooled)
  rw [(sslSettings_spec settings).1]
  exact congrArg TlsKey.verifyCerts same

end Blasthttp.Client
