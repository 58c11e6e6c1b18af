/-
# Blasthttp.Client.Stream -- what a request is written on

A stream is the history of its connection: a TCP socket, and on it the proxy
exchanges and TLS handshakes in the order they were made.  `AnyClient.connect` is the
pooled way to one (`OpenSslConnector::call`, on its own or inside hyper-util's
`Tunnel` and `SocksV5`, which call it with the proxy's URI) and `connectStream` is the
other.
-/
import Blasthttp.Client.Connector
import Blasthttp.Client.Proxy

namespace Blasthttp.Client

open Blasthttp.Rust Blasthttp.Http

set_option autoImplicit false

/-! ## Streams -/

structure CertInfo where
  commonName : Option Str
  sans : List Str
  emails : List Str
  issuer : Option Str
  notBefore : Option Str
  notAfter : Option Str
  fingerprintSha256 : Option Str
  deriving DecidableEq

/-- What the certificate is checked against. -/
inductive Identity where
  | ip (addr : IpAddr)
  | host (name : Str)
  deriving DecidableEq

/-- A TLS client session as it is set up before the handshake. -/
structure TlsSession where
  sni : Option Str
  identity : Option Identity
  settings : SslSettings
  deriving DecidableEq

/-- SNI only for names. -/
def sniOf (host : Str) : Option Str := if (IpAddr.parse host).isSome then none else some host

def identityOf (host : Str) : Identity :=
  match IpAddr.parse host with
  | some ip => .ip ip
  | none => .host host

/-- The setup both connectors share: an identity is pinned when there is verification. -/
def tlsSession (settings : SslSettings) (host : Str) : TlsSession where
  sni := sniOf host
  identity := if settings.verify then some (identityOf host) else none
  settings := settings

inductive Stream where
  | tcp (host : Str) (port : Nat)
  /-- A CONNECT or SOCKS5 exchange on `inner` that asked for a target. -/
  | proxied (scheme : ProxyScheme) (host : Str) (port : Option Nat) (inner : Stream)
  | tls (session : TlsSession) (inner : Stream)
  deriving DecidableEq

/-- The host at the far end. -/
def Stream.farEnd : Stream → Str
  | .tcp host _ => host
  | .proxied _ host _ _ => host
  | .tls _ inner => inner.farEnd

/-! ## The network -/

inductive NetFault where
  | timedOut
  | failed (text : Str)
  deriving DecidableEq

structure Network where
  /-- TCP to a host and port; `peer_addr()` of the socket. -/
  dial : Str → Nat → Except NetFault (Option IpAddr)
  /-- A TLS handshake and `extract_cert_info` after it. -/
  handshake : TlsSession → Stream → Except NetFault (Option CertInfo)
  /-- The exchange of hyper-util's `Tunnel` or `SocksV5`. -/
  tunnel : ProxyScheme → Str → Option Nat → Stream → Except NetFault Unit
  /-- `perform_http_connect` or `perform_socks5`; `none` when it times out. -/
  perform : ProxyConfig → Str → Nat → Stream → Except (Option ClientError) Unit

/-- A network on which everything succeeds. -/
def openNetwork : Network where
  dial := fun _ _ => .ok none
  handshake := fun _ _ => .ok none
  tunnel := fun _ _ _ _ => .ok ()
  perform := fun _ _ _ _ => .ok ()

/-! ## The pooled connectors -/

/-- The port a URI names or its scheme implies. -/
def portOrDefault (uri : Uri) : Nat := uri.portU16.getD (if uri.isHttps then 443 else 80)

/-- `host:port`. -/
def hostPort (host : Str) (port : Nat) : Str := host ++ ':' :: decimalText port

/-- `peer_slot_key`. -/
def peerSlotKey (uri : Uri) : Option Str := uri.host.map fun host => hostPort host (portOrDefault uri)

/-- What a call of a connector leaves: its writes to the peer and the certificate
slot, and the stream. -/
structure Attempt where
  peer : Option (Str × IpAddr)
  cert : Option (Option CertInfo)
  stream : Except NetFault Stream

/-- `OpenSslConnector::call`. -/
def OpenSslConnector.call (connector : OpenSslConnector) (network : Network) (uri : Uri) : Attempt :=
  let host := uri.hostOrEmpty
  let port := portOrDefault uri
  match network.dial host port with
  | .error fault => ⟨none, none, .error fault⟩
  | .ok peerAddr =>
      let tcp := Stream.tcp host port
      let peer :=
        match peerSlotKey uri, peerAddr with
        | some key, some ip => some (key, ip)
        | _, _ => none
      if !uri.isHttps then ⟨peer, none, .ok tcp⟩
      else
        let session := tlsSession connector.ssl host
        match network.handshake session tcp with
        | .error fault => ⟨peer, none, .error fault⟩
        | .ok cert => ⟨peer, some cert, .ok (.tls session tcp)⟩

/-- hyper-util's `Tunnel` and `SocksV5`: the connector is called with the proxy's URI
and the exchange for the target runs on what it returns. -/
def throughProxy (network : Network) (scheme : ProxyScheme) (connector : OpenSslConnector)
    (proxyUri target : Uri) : Attempt :=
  let attempt := connector.call network proxyUri
  match attempt.stream with
  | .error _ => attempt
  | .ok stream =>
      match network.tunnel scheme target.hostOrEmpty target.portU16 stream with
      | .error fault => { attempt with stream := .error fault }
      | .ok () =>
          { attempt with
            stream := .ok (.proxied scheme target.hostOrEmpty target.portU16 stream) }

/-- The connection the pool of a client opens for a request to `target`. -/
def AnyClient.connect (client : AnyClient) (network : Network) (target : Uri) : Attempt :=
  match client with
  | .direct connector => connector.call network target
  | .tunnel proxyUri connector => throughProxy network .http connector proxyUri target
  | .socks5 proxyUri connector => throughProxy network .socks5 connector proxyUri target

/-! ## `connect_stream` -/

def connectTimeout (config : RequestConfig) : Str := decimalText config.timeout.toNat

def dialError (config : RequestConfig) (addr : Str) : NetFault → ClientError
  | .timedOut =>
      ⟨"TCP connect to ".toList ++ addr ++ " timed out after ".toList ++ connectTimeout config ++
        ['s'], .timeout⟩
  | .failed e => ⟨"failed to connect to ".toList ++ addr ++ ": ".toList ++ e, .connection⟩

/-- The error of a proxy exchange that did not come back in time. -/
def performError (config : RequestConfig) (scheme : ProxyScheme) (host : Str) (port : Nat) :
    Option ClientError → ClientError
  | some e => e
  | none =>
      match scheme with
      | .http =>
          ⟨"proxy CONNECT to ".toList ++ hostPort host port ++ " timed out after ".toList ++
            connectTimeout config ++ ['s'], .timeout⟩
      | .socks5 =>
          ⟨"SOCKS5 handshake timed out after ".toList ++ connectTimeout config ++ ['s'], .timeout⟩

def handshakeError (config : RequestConfig) (host : Str) : NetFault → ClientError
  | .timedOut =>
      ⟨"TLS handshake with ".toList ++ host ++ " timed out after ".toList ++
        connectTimeout config ++ ['s'], .timeout⟩
  | .failed e => ⟨"TLS handshake failed: ".toList ++ e, .tls⟩

/-- The proxy that applies, parsed. -/
def proxyConfigFor (config : RequestConfig) (host : Str) : Except ClientError (Option ProxyConfig) :=
  match config.effectiveProxy host with
  | none => .ok none
  | some proxyUrl => (parseProxyUrl proxyUrl).map some

/-- Where the socket goes first. -/
def connectAddr (config : RequestConfig) (proxy : Option ProxyConfig) (host : Str) (port : Nat) :
    Str × Nat :=
  match proxy with
  | some p => (p.host, p.port)
  | none => (config.resolveIp.getD host, port)

/-- The stream behind the proxy exchange, if there is a proxy. -/
def enterProxy (network : Network) (config : RequestConfig) (host : Str) (port : Nat)
    (tcp : Stream) : Option ProxyConfig → Except ClientError Stream
  | none => .ok tcp
  | some p => do
      (network.perform p host port tcp).mapError (performError config p.scheme host port)
      pure (.proxied p.scheme host (some port) tcp)

/-- `http/1.1` as ALPN writes it. -/
def rawAlpn : List UInt8 := [8, 0x68, 0x74, 0x74, 0x70, 0x2F, 0x31, 0x2E, 0x31]

/-- `connect_stream`: the stream and the certificate its handshake showed. -/
def connectStream (openssl : OpenSsl) (network : Network) (config : RequestConfig)
    (targetUri : Uri) : Except ClientError (Stream × Option CertInfo) := do
  config.validateProxy.mapError fun e => (⟨e, .other⟩ : ClientError)
  let host := targetUri.hostOrEmpty
  let port := portOrDefault targetUri
  let proxy ← proxyConfigFor config host
  let addr := connectAddr config proxy host port
  let _ ← (network.dial addr.1 addr.2).mapError (dialError config (hostPort addr.1 addr.2))
  let stream ← enterProxy network config host port (.tcp addr.1 addr.2) proxy
  if !targetUri.isHttps then pure (stream, none)
  else
    let settings ← sslSettings openssl config rawAlpn
    let session := tlsSession settings host
    let cert ← (network.handshake session stream).mapError (handshakeError config host)
    pure (.tls session stream, cert)

end Blasthttp.Client
