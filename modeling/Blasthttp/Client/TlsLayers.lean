/-
# Blasthttp.Client.TlsLayers -- TLS end to end, in every connection mode

`connect_stream` makes the proxy exchange first and the handshake with the target on
top of it (`connectStream_endToEnd`).  The pooled client layers the other way: the
connector it wraps sees the proxy's URI only, so nothing of TLS is made for the target
once there is a proxy.  `endToEnd_iff`: a pooled https request is TLS end to end
exactly when no proxy applies to its host.
-/
import Blasthttp.Client.Stream
import Blasthttp.Http.PlainParse

namespace Blasthttp.Client

open Blasthttp.Rust Blasthttp.Http

set_option autoImplicit false

/-! ## What is asked of a stream -/

/-- A session made for `host`, which is checked when the config asks for it. -/
structure ForTarget (config : RequestConfig) (host : Str) (session : TlsSession) : Prop where
  sni : session.sni = sniOf host
  verify : session.settings.verify = config.shouldVerifyCerts
  identity : config.shouldVerifyCerts = true → session.identity = some (identityOf host)

/-- The outermost layer is TLS for the target, made with the target itself: whatever
proxy there is was passed before. -/
def EndToEnd (config : RequestConfig) (target : Uri) (stream : Stream) : Prop :=
  ∃ session inner, stream = .tls session inner ∧ ForTarget config target.hostOrEmpty session ∧
    inner.farEnd = target.hostOrEmpty

theorem tlsSession_forTarget {config : RequestConfig} {settings : SslSettings}
    (verify : settings.verify = config.shouldVerifyCerts) (host : Str) :
    ForTarget config host (tlsSession settings host) where
  sni := rfl
  verify := verify
  identity := by
    intro asked
    unfold tlsSession
    simp only
    rw [if_pos (verify.trans asked)]

/-- A proxied stream is not TLS end to end: what runs through the tunnel is the request
itself. -/
theorem not_endToEnd_proxied (config : RequestConfig) (target : Uri) (scheme : ProxyScheme)
    (host : Str) (port : Option Nat) (inner : Stream) :
    ¬ EndToEnd config target (.proxied scheme host port inner) := by
  rintro ⟨session, below, clash, -⟩
  cases clash

/-! ## `connect_stream` -/

theorem enterProxy_farEnd {network : Network} {config : RequestConfig} {host : Str} {port : Nat}
    {proxy : Option ProxyConfig} {stream : Stream}
    (entered : enterProxy network config host port
      (.tcp (connectAddr config proxy host port).1 (connectAddr config proxy host port).2) proxy =
        .ok stream)
    (asNamed : proxy = none → config.resolveIp = none) : stream.farEnd = host := by
  cases proxy with
  | none =>
      cases entered
      unfold connectAddr
      rw [asNamed rfl]
      rfl
  | some p =>
      obtain ⟨-, -, entered⟩ := bind_ok.mp entered
      cases entered
      rfl

/-- An https stream is a session for the target's host on what the proxy exchange left. -/
theorem connectStream_tls {openssl : OpenSsl} {network : Network} {config : RequestConfig}
    {target : Uri} (https : target.isHttps = true) {stream : Stream} {cert : Option CertInfo}
    (connected : connectStream openssl network config target = .ok (stream, cert)) :
    ∃ settings proxy below, sslSettings openssl config rawAlpn = .ok settings ∧
      enterProxy network config target.hostOrEmpty (portOrDefault target)
        (.tcp (connectAddr config proxy target.hostOrEmpty (portOrDefault target)).1
          (connectAddr config proxy target.hostOrEmpty (portOrDefault target)).2) proxy = .ok below ∧
      stream = .tls (tlsSession settings target.hostOrEmpty) below := by
  unfold connectStream at connected
  obtain ⟨-, -, connected⟩ := bind_ok.mp connected
  obtain ⟨proxy, -, connected⟩ := bind_ok.mp connected
  obtain ⟨-, -, connected⟩ := bind_ok.mp connected
  obtain ⟨below, entered, connected⟩ := bind_ok.mp connected
  rw [https] at connected
  obtain ⟨settings, made, connected⟩ := bind_ok.mp connected
  obtain ⟨shown, -, connected⟩ := bind_ok.mp connected
  cases connected
  exact ⟨settings, proxy, below, made, entered, rfl⟩

/-- `connect_stream` layers TLS for the target over the proxy exchange. -/
theorem connectStream_endToEnd {openssl : OpenSsl} {network : Network} {config : RequestConfig}
    {target : Uri} (https : target.isHttps = true) (asNamed : config.resolveIp = none)
    {stream : Stream} {cert : Option CertInfo}
    (connected : connectStream openssl network config target = .ok (stream, cert)) :
    EndToEnd config target stream := by
  obtain ⟨settings, proxy, below, made, entered, rfl⟩ := connectStream_tls https connected
  exact ⟨_, below, rfl, tlsSession_forTarget (sslSettings_spec made).1 _,
    enterProxy_farEnd entered fun _ => asNamed⟩

/-! ## The pooled clients -/

/-- The states of the cache: every hop may add the client of its mode. -/
inductive Built (openssl : OpenSsl) (parse : Parser) : HyperClient → Prop
  | new : Built openssl parse HyperClient.new
  | hop {client client' : HyperClient} {config : RequestConfig} {uri : Uri} {mode : ConnMode}
      {cached : CachedClient} (before : Built openssl parse client)
      (chosen : connMode parse config uri = .ok mode)
      (got : client.getOrBuild openssl parse config mode = .ok (cached, client')) :
      Built openssl parse client'

theorem Built.sound {openssl : OpenSsl} {parse : Parser} {client : HyperClient}
    (built : Built openssl parse client) : client.Sound openssl parse := by
  induction built with
  | new => exact HyperClient.new_sound openssl parse
  | hop _ chosen got sound => exact (HyperClient.getOrBuild_spec sound chosen got).1

theorem call_tls {network : Network} {connector : OpenSslConnector} {target : Uri}
    (https : target.isHttps = true) {stream : Stream}
    (connected : (connector.call network target).stream = .ok stream) :
    stream = .tls (tlsSession connector.ssl target.hostOrEmpty)
      (.tcp target.hostOrEmpty (portOrDefault target)) := by
  unfold OpenSslConnector.call at connected
  simp only [https, Bool.not_true, Bool.false_eq_true, if_false] at connected
  split at connected
  · cases connected
  · split at connected
    · cases connected
    · cases connected
      rfl

/-- A connector called for an https target lays TLS for it over a socket to it. -/
theorem call_endToEnd {network : Network} {connector : OpenSslConnector} {config : RequestConfig}
    (verify : connector.ssl.verify = config.shouldVerifyCerts) {target : Uri}
    (https : target.isHttps = true) {stream : Stream}
    (connected : (connector.call network target).stream = .ok stream) :
    EndToEnd config target stream :=
  ⟨_, _, call_tls https connected, tlsSession_forTarget verify _, rfl⟩

/-- Behind a proxy the exchange is the last thing on the stream. -/
theorem throughProxy_proxied {network : Network} {scheme : ProxyScheme}
    {connector : OpenSslConnector} {proxyUri target : Uri} {stream : Stream}
    (connected : (throughProxy network scheme connector proxyUri target).stream = .ok stream) :
    ∃ inner, (connector.call network proxyUri).stream = .ok inner ∧
      stream = .proxied scheme target.hostOrEmpty target.portU16 inner := by
  simp only [throughProxy] at connected
  split at connected
  · rename_i fault failed
    rw [failed] at connected
    cases connected
  · rename_i inner below
    split at connected
    · cases connected
    · cases connected
      exact ⟨inner, below, rfl⟩

theorem throughProxy_open (scheme : ProxyScheme) (connector : OpenSslConnector)
    (proxyUri target : Uri) :
    ∃ stream, (throughProxy openNetwork scheme connector proxyUri target).stream = .ok stream := by
  have below : ∃ inner, (connector.call openNetwork proxyUri).stream = .ok inner := by
    unfold OpenSslConnector.call openNetwork
    simp only
    cases proxyUri.isHttps
    · exact ⟨_, rfl⟩
    · exact ⟨_, rfl⟩
  obtain ⟨inner, below⟩ := below
  unfold throughProxy
  simp only [below]
  exact ⟨_, rfl⟩

theorem isHttps_of_poolKey {a b : Uri} (same : a.poolKey = b.poolKey) : a.isHttps = b.isHttps := by
  unfold Uri.isHttps
  rw [(Prod.mk.inj same).1]

/-- **When a pooled request is TLS end to end.** Whatever the client served before, every
stream its pool can write an https request on, opened for this request or for another
one with the same key, is TLS for the host it was opened for, as that request spells it,
if and only if no proxy applies to the target's host. -/
theorem endToEnd_iff {openssl : OpenSsl} {parse : Parser} {client client' : HyperClient}
    (built : Built openssl parse client) {config : RequestConfig} {target : Uri}
    (https : target.isHttps = true) {mode : ConnMode}
    (chosen : connMode parse config target = .ok mode) {cached : CachedClient}
    (got : client.getOrBuild openssl parse config mode = .ok (cached, client')) :
    (∀ (network : Network) (opened : Uri) (stream : Stream), opened.poolKey = target.poolKey →
      (cached.inner.connect network opened).stream = .ok stream →
        EndToEnd config opened stream) ↔
      config.effectiveProxy target.hostOrEmpty = none := by
  obtain ⟨-, made, -, -⟩ := HyperClient.getOrBuild_spec built.sound chosen got
  obtain ⟨connector, serves, verify⟩ := made.verify chosen
  rcases connMode_cases chosen with ⟨unproxied, rfl⟩ | ⟨proxyUrl, proxyUri, proxied, -, kind⟩
  · refine iff_of_true ?_ unproxied
    intro network opened stream same connected
    have direct : cached.inner = .direct connector := serves
    rw [direct] at connected
    exact call_endToEnd verify ((isHttps_of_poolKey same).trans https) connected
  · -- the stream the pool opens on an open network ends in the exchange
    refine iff_of_false ?_ (by rw [proxied]; simp)
    intro every
    have wrapped : ∃ scheme uri, ∀ network,
        cached.inner.connect network target = throughProxy network scheme connector uri target := by
      rcases kind with ⟨-, rfl⟩ | ⟨plain, -⟩ | rfl
      · obtain ⟨uri, -, inner⟩ := serves
        exact ⟨.http, uri, fun network => by rw [inner]; rfl⟩
      · rw [https] at plain
        cases plain
      · obtain ⟨uri, -, inner⟩ := serves
        exact ⟨.socks5, uri, fun network => by rw [inner]; rfl⟩
    obtain ⟨scheme, uri, connects⟩ := wrapped
    obtain ⟨stream, connected⟩ := throughProxy_open scheme connector uri target
    have bad := every openNetwork target stream rfl (by rw [connects]; exact connected)
    obtain ⟨inner, -, rfl⟩ := throughProxy_proxied connected
    exact not_endToEnd_proxied _ _ _ _ _ _ bad

/-! A verifying request to `https://example.com/`, and the same through `http://proxy`. -/

def verifyingConfig : RequestConfig :=
  { RequestConfig.new "https://example.com/".toList with verifyCerts := some true }

def proxiedConfig : RequestConfig := { verifyingConfig with proxy := some "http://proxy".toList }

/-- The connector both configs get. -/
def verifyingConnector : OpenSslConnector where
  ssl :=
    { verify := true
      ciphers := none
      minVersion := none
      maxVersion := none
      alpn := pooledAlpn }
  certSlot := 0
  peerSlot := 0
  connectTimeout := 10

def proxyRoot : Uri where
  scheme := some "http".toList
  authority := some (plainAuthority "proxy".toList)
  path := "/".toList
  query := none

theorem endToEnd_iff_direct :
    (∀ (network : Network) (opened : Uri) (stream : Stream),
      opened.poolKey = exampleRoot.poolKey →
        ((AnyClient.direct verifyingConnector).connect network opened).stream = .ok stream →
          EndToEnd verifyingConfig opened stream) ↔
      verifyingConfig.effectiveProxy exampleRoot.hostOrEmpty = none :=
  @endToEnd_iff lenientOpenSsl plainParse HyperClient.new
    ⟨[(.direct (TlsKey.fromConfig verifyingConfig), ⟨.direct verifyingConnector, 0, 0⟩)]⟩ .new
    verifyingConfig exampleRoot (by decide) (.direct (TlsKey.fromConfig verifyingConfig)) (by rfl)
    ⟨.direct verifyingConnector, 0, 0⟩ (by rfl)

/-- Through the proxy the verifying https request goes out without TLS. -/
theorem proxied_request_unencrypted :
    exampleRoot.isHttps = true ∧
      connMode plainParse proxiedConfig exampleRoot =
        .ok (.tunnel "http://proxy".toList (TlsKey.fromConfig proxiedConfig)) ∧
      (∃ client', HyperClient.new.getOrBuild lenientOpenSsl plainParse proxiedConfig
        (.tunnel "http://proxy".toList (TlsKey.fromConfig proxiedConfig)) =
          .ok (⟨.tunnel proxyRoot verifyingConnector, 0, 0⟩, client')) ∧
      ((AnyClient.tunnel proxyRoot verifyingConnector).connect openNetwork exampleRoot).stream =
        .ok (.proxied .http "example.com".toList none (.tcp "proxy".toList 80)) ∧
      ¬ EndToEnd proxiedConfig exampleRoot
        (.proxied .http "example.com".toList none (.tcp "proxy".toList 80)) :=
  ⟨by decide, by rfl, ⟨_, by rfl⟩, by rfl, not_endToEnd_proxied _ _ _ _ _ _⟩

end Blasthttp.Client
