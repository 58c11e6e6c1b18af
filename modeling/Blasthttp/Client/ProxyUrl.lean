/-
# Blasthttp.Client.ProxyUrl -- one proxy URL, two readers

A pooled request reads its proxy URL with `http::Uri`: `conn_mode` for the scheme,
`dispatch_forward_proxy` or the connector for the host and port.  `connect_stream`
reads it with `parse_proxy_url`.  `oneProxy_iff` says for which texts the two come to
one proxy: those in which both find the same explicit port, and those both reject.
-/
import Blasthttp.Client.PeerIp
import Blasthttp.Client.TlsLayers

namespace Blasthttp.Client

open Blasthttp.Rust Blasthttp.Http Blasthttp.Lib.Rfc3986

set_option autoImplicit false

/-! ## What a reader makes of a proxy -/

/-- Where a request goes for its proxy, and what it offers there. -/
structure ProxyUse where
  host : Str
  port : Nat
  credentials : Option (Str × Str)
  deriving DecidableEq

/-- What `perform_socks5` offers: username and password, or nothing.  CONNECT carries
neither. -/
def ProxyConfig.credentials (p : ProxyConfig) : Option (Str × Str) :=
  match p.scheme, p.username, p.password with
  | .socks5, some username, some password => some (username, password)
  | _, _, _ => none

def ProxyConfig.use (p : ProxyConfig) : ProxyUse := ⟨p.host, p.port, p.credentials⟩

/-- The proxy as `connect_stream` uses it. -/
def streamUse (config : RequestConfig) (target : Uri) : Except ClientError (Option ProxyUse) := do
  let proxy ← proxyConfigFor config target.hostOrEmpty
  let addr := connectAddr config proxy target.hostOrEmpty (portOrDefault target)
  pure (proxy.map fun p => ⟨addr.1, addr.2, p.credentials⟩)

/-- The address `dispatch_forward_proxy` connects to. -/
def forwardAddr (parse : Parser) (proxyUrl : Str) : Except ClientError (Str × Nat) := do
  let proxyUri ← (parse proxyUrl).mapError invalidProxyUrl
  match proxyUri.host with
  | none => throw ⟨"proxy URL has no host".toList, .other⟩
  | some proxyHost => pure (proxyHost, proxyUri.portU16.getD 8080)

/-- A client without a proxy, or what its innermost connector is called with. -/
def AnyClient.proxyUse (inner : AnyClient) (target : Uri) : Option ProxyUse :=
  match inner with
  | .direct _ => none
  | _ =>
      let proxyUri := inner.dialed target
      some ⟨proxyUri.hostOrEmpty, portOrDefault proxyUri, none⟩

/-- The proxy as a pooled request uses it, by the mode of the request and the client made
for that mode. -/
def pooledUse (parse : Parser) (connector : OpenSslConnector) (config : RequestConfig)
    (target : Uri) : Except Fault (Option ProxyUse) :=
  match connMode parse config target with
  | .error e => .error (.error e)
  | .ok (.forwardProxy proxyUrl) =>
      match forwardAddr parse proxyUrl with
      | .error e => .error (.error e)
      | .ok addr => .ok (some ⟨addr.1, addr.2, none⟩)
  | .ok mode =>
      match wrapConnector parse connector mode with
      | .error fault => .error fault
      | .ok inner => .ok (inner.proxyUse target)

/-- A forwarded request goes out only behind a connection to that address. -/
theorem dispatchForwardProxy_addr {http : HttpCrate} {config : RequestConfig} {walk : Walk}
    {proxyUrl : Str} {connected : Str → Nat → Except ClientError Unit} {dispatch : Dispatch}
    (sent : walk.dispatchForwardProxy http config proxyUrl connected = .ok dispatch) :
    ∃ addr, forwardAddr http.parse proxyUrl = .ok addr ∧ connected addr.1 addr.2 = .ok () := by
  obtain ⟨proxyUri, proxyHost, -, parsed, named, reached, -, -⟩ :=
    Walk.dispatchForwardProxy_ok sent
  refine ⟨(proxyHost, proxyUri.portU16.getD 8080), ?_, reached⟩
  unfold forwardAddr
  rw [parsed]
  show (match proxyUri.host with | none => _ | some proxyHost => _) = _
  rw [named]
  rfl

/-- A pooled connection is opened to that address. -/
theorem proxyUse_dialed {inner : AnyClient} {network : Network} {target : Uri} {proxy : ProxyUse}
    (through : inner.proxyUse target = some proxy)
    (up : (inner.connect network target).stream.toBool = true) :
    ∃ addr, network.dial proxy.host proxy.port = .ok addr := by
  have dialed := connect_dialed up
  cases inner with
  | direct connector => cases through
  | tunnel proxyUri connector =>
      cases through
      exact dialed
  | socks5 proxyUri connector =>
      cases through
      exact dialed

/-- So is the socket of `connect_stream`. -/
theorem connectStream_dialed {openssl : OpenSsl} {network : Network} {config : RequestConfig}
    {target : Uri} {result : Stream × Option CertInfo}
    (connected : connectStream openssl network config target = .ok result) :
    ∃ use, streamUse config target = .ok use ∧
      ∀ proxy, use = some proxy → ∃ addr, network.dial proxy.host proxy.port = .ok addr := by
  unfold connectStream at connected
  obtain ⟨-, -, connected⟩ := bind_ok.mp connected
  obtain ⟨proxy, chosen, connected⟩ := bind_ok.mp connected
  obtain ⟨addr, dialed, -⟩ := bind_ok.mp connected
  have dialed := mapError_ok.mp dialed
  refine ⟨_, bind_ok.mpr ⟨proxy, chosen, rfl⟩, ?_⟩
  intro used through
  cases proxy with
  | none => cases through
  | some p =>
      cases through
      exact ⟨addr, dialed⟩

/-- What the readers make of a proxy is where the request goes on each path. -/
structure UsesDialed (parse : Parser) : Prop where
  forwarded : ∀ (http : HttpCrate) (config : RequestConfig) (walk : Walk) (proxyUrl : Str)
    (connected : Str → Nat → Except ClientError Unit) (dispatch : Dispatch), http.parse = parse →
      walk.dispatchForwardProxy http config proxyUrl connected = .ok dispatch →
        ∃ addr, forwardAddr parse proxyUrl = .ok addr ∧ connected addr.1 addr.2 = .ok ()
  pooled : ∀ (inner : AnyClient) (network : Network) (target : Uri) (proxy : ProxyUse),
    inner.proxyUse target = some proxy → (inner.connect network target).stream.toBool = true →
      ∃ addr, network.dial proxy.host proxy.port = .ok addr
  stream : ∀ (openssl : OpenSsl) (network : Network) (config : RequestConfig) (target : Uri)
    (result : Stream × Option CertInfo), connectStream openssl network config target = .ok result →
      ∃ use, streamUse config target = .ok use ∧
        ∀ proxy, use = some proxy → ∃ addr, network.dial proxy.host proxy.port = .ok addr

theorem usesDialed (parse : Parser) : UsesDialed parse where
  forwarded := by
    rintro http config walk proxyUrl connected dispatch rfl sent
    exact dispatchForwardProxy_addr sent
  pooled := fun _ _ _ _ through up => proxyUse_dialed through up
  stream := fun _ _ _ _ _ connected => connectStream_dialed connected

/-- A SOCKS5 greeting offers the password method exactly for credentials. -/
theorem credentials_isSome {p : ProxyConfig} (socks : p.scheme = .socks5) :
    p.credentials.isSome = (p.username.isSome && p.password.isSome) := by
  unfold ProxyConfig.credentials
  rw [socks]
  cases p.username <;> cases p.password <;> rfl

/-! ## `parse_proxy_url` -/

/-- What stands between the first `@` behind `://`, or that itself, and the next `/`. -/
def hostportText (rest : Str) : Str :=
  (match splitOnce '@' rest with
    | some (_, behind) => behind
    | none => rest).takeWhile (· ≠ '/')

/-- What stands in front of the first `@`. -/
def userinfoText (rest : Str) : Option Str := (splitOnce '@' rest).map Prod.fst

theorem parseProxyScheme_ok {text : Str} {scheme : ProxyScheme} :
    parseProxyScheme text = .ok scheme ↔
      (toAsciiLowercase text = "http".toList ∧ scheme = .http) ∨
      ((toAsciiLowercase text = "socks5".toList ∨ toAsciiLowercase text = "socks5h".toList) ∧
        scheme = .socks5) := by
  unfold parseProxyScheme
  simp only
  split
  · rename_i http
    rw [http]
    constructor
    · intro same
      cases same
      exact .inl ⟨rfl, rfl⟩
    · rintro (⟨-, rfl⟩ | ⟨other | other, -⟩)
      · rfl
      · exact absurd other (by decide)
      · exact absurd other (by decide)
  · rename_i http
    split
    · rename_i socks
      constructor
      · intro same
        cases same
        exact .inr ⟨socks, rfl⟩
      · rintro (⟨other, -⟩ | ⟨-, rfl⟩)
        · exact absurd other http
        · rfl
    · rename_i socks
      constructor
      · intro same
        cases same
      · rintro (⟨other, -⟩ | ⟨other, -⟩)
        · exact absurd other http
        · exact absurd other socks

/-- An explicit port behind the last colon, or none and the scheme's. -/
theorem parseHostport_ok {proxyUrl hostport host : Str} {scheme : ProxyScheme} {port : Nat} :
    parseHostport proxyUrl hostport scheme = .ok (host, port) ↔
      (∃ text, hostport = host ++ ':' :: text ∧ ':' ∉ text ∧ parseUnsigned 16 text = some port) ∨
      (':' ∉ hostport ∧ host = hostport ∧ port = scheme.defaultPort) := by
  unfold parseHostport
  cases cut : rsplitOnce ':' hostport with
  | none =>
      have colonless : ':' ∉ hostport := by
        intro there
        obtain ⟨front, text, rfl, last⟩ := exists_last there
        rw [rsplitOnce_append last] at cut
        cases cut
      constructor
      · intro same
        cases same
        exact .inr ⟨colonless, rfl, rfl⟩
      · rintro (⟨text, rfl, -⟩ | ⟨-, rfl, rfl⟩)
        · exact absurd (List.mem_append_right _ List.mem_cons_self) colonless
        · rfl
  | some parts =>
      obtain ⟨front, text⟩ := parts
      obtain ⟨rfl, last⟩ := rsplitOnce_spec cut
      constructor
      · intro same
        simp only at same
        split at same
        · rename_i port' numeric
          cases same
          exact .inl ⟨text, rfl, last, numeric⟩
        · cases same
      · rintro (⟨text', whole, last', numeric⟩ | ⟨colonless, -⟩)
        · have parts := rsplitOnce_append last' host
          rw [← whole, cut] at parts
          cases parts
          simp only [numeric]
        · exact absurd (List.mem_append_right _ List.mem_cons_self) colonless

/-- Behind the scheme: host and port, a host that is not empty, and the user's part. -/
theorem parseProxyUrl_split {proxyUrl written rest : Str}
    (split : splitOnceStr "://".toList proxyUrl = some (written, rest)) :
    parseProxyUrl proxyUrl =
      (parseProxyScheme written >>= fun scheme =>
        parseHostport proxyUrl (hostportText rest) scheme >>= fun addr =>
          if addr.1.isEmpty then
            .error ⟨"invalid proxy URL (empty host): ".toList ++ proxyUrl, .other⟩
          else
            .ok
              { scheme := scheme
                host := addr.1
                port := addr.2
                username := (parseUserinfo (userinfoText rest)).1
                password := (parseUserinfo (userinfoText rest)).2 }) := by
  unfold parseProxyUrl hostportText userinfoText
  rw [split]
  simp only
  cases splitOnce '@' rest <;> rfl

theorem parseProxyUrl_ok {proxyUrl : Str} {p : ProxyConfig} :
    parseProxyUrl proxyUrl = .ok p ↔
      ∃ written rest, splitOnceStr "://".toList proxyUrl = some (written, rest) ∧
        parseProxyScheme written = .ok p.scheme ∧
        parseHostport proxyUrl (hostportText rest) p.scheme = .ok (p.host, p.port) ∧
        p.host ≠ [] ∧ (p.username, p.password) = parseUserinfo (userinfoText rest) := by
  constructor
  · intro read
    cases split : splitOnceStr "://".toList proxyUrl with
    | none =>
        unfold parseProxyUrl at read
        rw [split] at read
        cases read
    | some parts =>
        obtain ⟨written, rest⟩ := parts
        rw [parseProxyUrl_split split] at read
        obtain ⟨scheme, known, read⟩ := bind_ok.mp read
        obtain ⟨addr, placed, read⟩ := bind_ok.mp read
        split at read
        · cases read
        · rename_i named
          cases read
          exact ⟨written, rest, rfl, known, placed, by simpa using named, rfl⟩
  · rintro ⟨written, rest, split, known, placed, named, user⟩
    rw [parseProxyUrl_split split, ← user]
    refine bind_ok.mpr ⟨_, known, bind_ok.mpr ⟨_, placed, ?_⟩⟩
    rw [if_neg (by simpa using named)]

/-- `parse_proxy_url` fails without `://`, for another scheme, for an empty host, and for a
port that is none. -/
def StreamRejects (proxyUrl : Str) : Prop :=
  ∀ written rest, splitOnceStr "://".toList proxyUrl = some (written, rest) →
    toAsciiLowercase written ∉ ["http".toList, "socks5".toList, "socks5h".toList] ∨
    hostportText rest = [] ∨
    ∃ host text, hostportText rest = host ++ ':' :: text ∧ ':' ∉ text ∧
      (host = [] ∨ parseUnsigned 16 text = none)

theorem parseProxyUrl_rejects {proxyUrl : Str} :
    (∀ p, parseProxyUrl proxyUrl ≠ .ok p) ↔ StreamRejects proxyUrl := by
  constructor
  · intro never written rest split
    by_contra accepts
    push Not at accepts
    obtain ⟨known, nonempty, explicit⟩ := accepts
    obtain ⟨scheme, named⟩ : ∃ scheme, parseProxyScheme written = .ok scheme := by
      simp only [List.mem_cons, List.not_mem_nil, or_false] at known
      rcases known with http | socks
      · exact ⟨_, parseProxyScheme_ok.mpr (.inl ⟨http, rfl⟩)⟩
      · exact ⟨_, parseProxyScheme_ok.mpr (.inr ⟨socks, rfl⟩)⟩
    obtain ⟨addr, placed, host⟩ :
        ∃ addr, parseHostport proxyUrl (hostportText rest) scheme = .ok addr ∧ addr.1 ≠ [] := by
      by_cases colon : ':' ∈ hostportText rest
      · obtain ⟨front, text, whole, absent⟩ := exists_last colon
        obtain ⟨host, numeric⟩ := explicit _ _ whole absent
        obtain ⟨port, numeric⟩ := Option.ne_none_iff_exists'.mp numeric
        exact ⟨_, parseHostport_ok.mpr (.inl ⟨_, whole, absent, numeric⟩), host⟩
      · exact ⟨_, parseHostport_ok.mpr (.inr ⟨colon, rfl, rfl⟩), nonempty⟩
    exact never ⟨scheme, addr.1, addr.2, _, _⟩
      (parseProxyUrl_ok.mpr ⟨written, rest, split, named, placed, host, rfl⟩)
  · intro rejects p accepted
    obtain ⟨written, rest, split, named, placed, host, -⟩ := parseProxyUrl_ok.mp accepted
    rcases rejects written rest split with unknown | empty | ⟨front, text, whole, absent, bad⟩
    · refine unknown ?_
      simp only [List.mem_cons, List.not_mem_nil, or_false]
      rcases parseProxyScheme_ok.mp named with ⟨http, -⟩ | ⟨socks, -⟩
      · exact .inl http
      · exact .inr socks
    · rw [empty] at placed
      rcases parseHostport_ok.mp placed with ⟨_, clash, -⟩ | ⟨-, same, -⟩
      · simp at clash
      · exact host same
    · rw [whole] at placed
      rcases parseHostport_ok.mp placed with ⟨text', same, absent', numeric⟩ | ⟨colonless, -⟩
      · have parts := rsplitOnce_append absent front
        rw [same, rsplitOnce_append absent'] at parts
        cases parts
        rcases bad with empty | bad
        · exact host empty
        · rw [bad] at numeric
          cases numeric
      · exact colonless (List.mem_append_right _ List.mem_cons_self)

/-! ## The pooled side -/

/-- The use a connector makes of a proxy's URI. -/
def connectorUse (proxyUri : Uri) : ProxyUse :=
  ⟨proxyUri.hostOrEmpty, portOrDefault proxyUri, none⟩

def HttpProxy (proxyUri : Uri) : Prop :=
  proxyUri.scheme = some "http".toList ∨ proxyUri.scheme = some "https".toList

def SocksProxy (proxyUri : Uri) : Prop :=
  proxyUri.scheme = some "socks5".toList ∨ proxyUri.scheme = some "socks5h".toList

theorem scheme_getD {uri : Uri} {scheme : Str} (named : scheme ≠ []) :
    uri.scheme.getD [] = scheme ↔ uri.scheme = some scheme := by
  cases uri.scheme with
  | none => exact iff_of_false (Ne.symm named) (by simp)
  | some own => simp

section

variable {parse : Parser} {connector : OpenSslConnector} {config : RequestConfig} {target : Uri}
  {proxyUrl : Str} (proxied : config.effectiveProxy target.hostOrEmpty = some proxyUrl)

include proxied

theorem pooledUse_unparsed {e : Str} (parsed : parse proxyUrl = .error e) :
    pooledUse parse connector config target = .error (.error (invalidProxyUrl e)) := by
  unfold pooledUse connMode
  rw [proxied]
  simp only [parsed]
  rfl

theorem streamUse_proxied :
    streamUse config target =
      (parseProxyUrl proxyUrl).map fun p => some p.use := by
  unfold streamUse proxyConfigFor
  rw [proxied]
  simp only
  cases parseProxyUrl proxyUrl <;> rfl

variable {proxyUri : Uri} (parsed : parse proxyUrl = .ok proxyUri)

include parsed

theorem connMode_proxied :
    (HttpProxy proxyUri → connMode parse config target =
      .ok (if target.isHttps then .tunnel proxyUrl (TlsKey.fromConfig config)
        else .forwardProxy proxyUrl)) ∧
    (SocksProxy proxyUri → connMode parse config target =
      .ok (.socks5 proxyUrl (TlsKey.fromConfig config))) ∧
    (¬ HttpProxy proxyUri → ¬ SocksProxy proxyUri → ∃ e, connMode parse config target = .error e) := by
  have http : (proxyUri.scheme.getD [] = "http".toList ∨ proxyUri.scheme.getD [] = "https".toList) ↔
      HttpProxy proxyUri := or_congr (scheme_getD (by decide)) (scheme_getD (by decide))
  have socks : (proxyUri.scheme.getD [] = "socks5".toList ∨
      proxyUri.scheme.getD [] = "socks5h".toList) ↔ SocksProxy proxyUri :=
    or_congr (scheme_getD (by decide)) (scheme_getD (by decide))
  have apart : SocksProxy proxyUri → ¬ HttpProxy proxyUri := by
    rintro (one | one) (other | other) <;> rw [one] at other <;> exact absurd other (by decide)
  unfold connMode
  rw [proxied]
  simp only [parsed]
  refine ⟨?_, ?_, ?_⟩
  · intro isHttp
    show (if _ then _ else _) = _
    rw [if_pos (http.mpr isHttp)]
    split <;> rfl
  · intro isSocks
    show (if _ then _ else _) = _
    rw [if_neg fun given => apart isSocks (http.mp given), if_pos (socks.mpr isSocks)]
    rfl
  · intro notHttp notSocks
    refine ⟨⟨"unsupported proxy scheme '".toList ++ proxyUri.scheme.getD [] ++
      "' (use http, https, socks5)".toList, .other⟩, ?_⟩
    show (if _ then _ else _) = _
    rw [if_neg fun given => notHttp (http.mp given), if_neg fun given => notSocks (socks.mp given)]
    rfl

theorem pooledUse_forward (http : HttpProxy proxyUri) (plain : target.isHttps = false) {host : Str}
    (named : proxyUri.host = some host) :
    pooledUse parse connector config target =
      .ok (some ⟨host, proxyUri.portU16.getD 8080, none⟩) := by
  have addr : forwardAddr parse proxyUrl = .ok (host, proxyUri.portU16.getD 8080) := by
    unfold forwardAddr
    refine bind_ok.mpr ⟨proxyUri, by rw [parsed]; rfl, ?_⟩
    simp only [named]
    rfl
  unfold pooledUse
  rw [(connMode_proxied proxied parsed).1 http, plain]
  simp only [Bool.false_eq_true, if_false, addr]

theorem pooledUse_tunnel (http : HttpProxy proxyUri) (https : target.isHttps = true) :
    pooledUse parse connector config target = .ok (some (connectorUse proxyUri)) := by
  unfold pooledUse
  rw [(connMode_proxied proxied parsed).1 http, https]
  simp only [if_true, wrapConnector, parsed]
  rfl

theorem pooledUse_socks (socks : SocksProxy proxyUri) :
    pooledUse parse connector config target = .ok (some (connectorUse proxyUri)) := by
  unfold pooledUse
  rw [(connMode_proxied proxied parsed).2.1 socks]
  simp only [wrapConnector, parsed]
  rfl

theorem pooledUse_unknown (notHttp : ¬ HttpProxy proxyUri) (notSocks : ¬ SocksProxy proxyUri) :
    ∃ fault, pooledUse parse connector config target = .error fault := by
  obtain ⟨e, failed⟩ := (connMode_proxied proxied parsed).2.2 notHttp notSocks
  unfold pooledUse
  rw [failed]
  exact ⟨_, rfl⟩

end

/-! ## One proxy -/

/-- How `http::Uri` shows a scheme: `http` and `https` in lower case, others as written. -/
def shownScheme (written : Str) : Str :=
  if toAsciiLowercase written = "http".toList ∨ toAsciiLowercase written = "https".toList then
    toAsciiLowercase written
  else written

/-- What is used of the crate's parser: a scheme is what stands in front of `://`. -/
structure SchemeContract (parse : Parser) : Prop where
  shows : ∀ {s : Str} {uri : Uri} {scheme : Str}, parse s = .ok uri → uri.scheme = some scheme →
    ∃ written rest, s = written ++ "://".toList ++ rest ∧ (∀ c ∈ written, inScheme c = true) ∧
      scheme = shownScheme written

theorem SchemeContract.split {parse : Parser} (contract : SchemeContract parse) {s scheme : Str}
    {uri : Uri} (parsed : parse s = .ok uri) (absolute : uri.scheme = some scheme) :
    ∃ written rest, splitOnceStr "://".toList s = some (written, rest) ∧
      scheme = shownScheme written := by
  obtain ⟨written, rest, rfl, chars, shown⟩ := contract.shows parsed absolute
  have absent : ':' ∉ written := by
    intro there
    exact absurd (chars _ there) (by decide)
  exact ⟨written, rest, splitOnceStr_append absent rest, shown⟩

theorem parseProxyScheme_shown (written : Str) :
    parseProxyScheme (shownScheme written) = parseProxyScheme written := by
  have lower : toAsciiLowercase (shownScheme written) = toAsciiLowercase written := by
    unfold shownScheme
    split
    · rename_i known
      rcases known with http | https
      · rw [http]
        decide
      · rw [https]
        decide
    · rfl
  unfold parseProxyScheme
  simp only [lower]

/-- Neither reader comes to a proxy, for any target. -/
def BothReject (parse : Parser) (proxyUrl : Str) : Prop :=
  ∀ (connector : OpenSslConnector) (config : RequestConfig) (target : Uri),
    config.effectiveProxy target.hostOrEmpty = some proxyUrl →
      (∃ fault, pooledUse parse connector config target = .error fault) ∧
      ∃ e, streamUse config target = .error e

/-- For every target the two readers go to the same host and port and offer the same
credentials. -/
def BothAccept (parse : Parser) (proxyUrl : Str) : Prop :=
  ∀ (connector : OpenSslConnector) (config : RequestConfig) (target : Uri),
    config.effectiveProxy target.hostOrEmpty = some proxyUrl →
      ∃ proxy, pooledUse parse connector config target = .ok (some proxy) ∧
        streamUse config target = .ok (some proxy)

/-- A URL is one proxy: both readers reject it, or both make the same of it. -/
def OneProxy (parse : Parser) (proxyUrl : Str) : Prop :=
  BothReject parse proxyUrl ∨ BothAccept parse proxyUrl

/-- `host:port`, or `host` alone. -/
def Names (hostport host : Str) (port : Option Nat) : Prop :=
  (∃ text, hostport = host ++ ':' :: text ∧ ':' ∉ text ∧ port.isSome = true ∧
    parseUnsigned 16 text = port) ∨
  (':' ∉ hostport ∧ hostport = host ∧ port = none)

/-- The port is spelled out: `http::Uri` finds the one that stands in the part
`parse_proxy_url` cuts out, or 8080 where none stands there.  A SOCKS proxy may leave it
out only for its two defaults to meet, and carries no password. -/
def ProxySpelledOut (parse : Parser) (proxyUrl : Str) : Prop :=
  ∃ uri written rest host port,
    parse proxyUrl = .ok uri ∧ splitOnceStr "://".toList proxyUrl = some (written, rest) ∧
    Names (hostportText rest) host port ∧ host ≠ [] ∧ uri.host = some host ∧
    ((uri.scheme = some "http".toList ∧ uri.portU16 = some (port.getD 8080)) ∨
      (SocksProxy uri ∧ uri.portU16.getD 80 = port.getD 1080 ∧
        ∀ user, userinfoText rest = some user → ':' ∉ user))

/-- Neither reader knows what to do with the URL. -/
def ProxyRejected (parse : Parser) (proxyUrl : Str) : Prop :=
  (∀ uri, parse proxyUrl = .ok uri → ¬ HttpProxy uri ∧ ¬ SocksProxy uri) ∧ StreamRejects proxyUrl

theorem parseHostport_names {proxyUrl hostport host : Str} {scheme : ProxyScheme} {port : Nat} :
    parseHostport proxyUrl hostport scheme = .ok (host, port) ↔
      ∃ written, Names hostport host written ∧ port = written.getD scheme.defaultPort := by
  rw [parseHostport_ok]
  constructor
  · rintro (⟨text, whole, absent, numeric⟩ | ⟨absent, rfl, rfl⟩)
    · exact ⟨some port, .inl ⟨text, whole, absent, rfl, numeric⟩, rfl⟩
    · exact ⟨none, .inr ⟨absent, rfl, rfl⟩, rfl⟩
  · rintro ⟨written, ⟨text, whole, absent, given, numeric⟩ | ⟨absent, rfl, rfl⟩, rfl⟩
    · obtain ⟨number, rfl⟩ := Option.isSome_iff_exists.mp given
      exact .inl ⟨text, whole, absent, numeric⟩
    · exact .inr ⟨absent, rfl, rfl⟩

/-- Username and password are both there exactly behind a colon. -/
theorem parseUserinfo_both (userinfo : Option Str) :
    ((parseUserinfo userinfo).1.isSome && (parseUserinfo userinfo).2.isSome) = true ↔
      ∃ text, userinfo = some text ∧ ':' ∈ text := by
  unfold parseUserinfo
  cases userinfo with
  | none => simp
  | some text =>
      by_cases colon : ':' ∈ text
      · obtain ⟨user, pass, whole, absent⟩ := List.eq_append_cons_of_mem colon
        simp only [whole, splitOnce_append absent]
        simp
      · simp only [splitOnce_none colon]
        simp [colon]

theorem credentials_none {p : ProxyConfig} {rest : Str} (socks : p.scheme = .socks5)
    (user : (p.username, p.password) = parseUserinfo (userinfoText rest)) :
    p.credentials = none ↔ ∀ text, userinfoText rest = some text → ':' ∉ text := by
  have both := parseUserinfo_both (userinfoText rest)
  rw [← user, ← credentials_isSome socks] at both
  rw [← Option.not_isSome_iff_eq_none, both]
  push Not
  exact Iff.rfl

theorem credentials_http {p : ProxyConfig} (http : p.scheme = .http) : p.credentials = none := by
  unfold ProxyConfig.credentials
  rw [http]

/-! ## Two targets -/

/-- A request through the proxy, whatever its target. -/
def throughConfig (proxyUrl : Str) : RequestConfig :=
  { RequestConfig.new [] with proxy := some proxyUrl }

theorem throughConfig_applies (proxyUrl host : Str) :
    (throughConfig proxyUrl).effectiveProxy host = some proxyUrl := by
  have listed : hostBypassesProxy host (throughConfig proxyUrl).noProxy = false := by
    unfold hostBypassesProxy
    split
    · rfl
    · rfl
  show (if hostBypassesProxy host (throughConfig proxyUrl).noProxy then none else some proxyUrl) = _
  rw [listed]
  rfl

/-- `http://example.com/`. -/
def plainRoot : Uri := { exampleRoot with scheme := some "http".toList }

/-- Both accept a SOCKS proxy alike only without a password, at a port both find. -/
theorem socks_agree {uri : Uri} {rest : Str} {p : ProxyConfig} {port : Option Nat}
    (socks : p.scheme = .socks5) (scheme : SocksProxy uri) (named : p.host ≠ [])
    (user : (p.username, p.password) = parseUserinfo (userinfoText rest))
    (portEq : p.port = port.getD 1080) :
    connectorUse uri = p.use ↔
      uri.host = some p.host ∧ uri.portU16.getD 80 = port.getD 1080 ∧
        ∀ text, userinfoText rest = some text → ':' ∉ text := by
  have notHttps : uri.isHttps = false := by
    unfold Uri.isHttps
    rcases scheme with given | given <;> rw [given] <;> rfl
  have host : uri.hostOrEmpty = p.host ↔ uri.host = some p.host := by
    unfold Uri.hostOrEmpty
    cases uri.host with
    | none => exact iff_of_false (Ne.symm named) (by simp)
    | some own => simp
  rw [← credentials_none socks user, ← portEq, ← host]
  unfold connectorUse ProxyConfig.use portOrDefault
  rw [notHttps]
  simp [eq_comm]

/-- Both accept an HTTP proxy alike, for http and for https targets, only at a port that
both find: their defaults are 8080 and 80. -/
theorem http_agree {uri : Uri} {p : ProxyConfig} {port : Option Nat}
    (http : p.scheme = .http) (scheme : uri.scheme = some "http".toList)
    (portEq : p.port = port.getD 8080) :
    (connectorUse uri = p.use ∧
      ∃ host, uri.host = some host ∧ ⟨host, uri.portU16.getD 8080, none⟩ = p.use) ↔
      uri.host = some p.host ∧ uri.portU16 = some (port.getD 8080) := by
  have notHttps : uri.isHttps = false := by
    unfold Uri.isHttps
    rw [scheme]
    rfl
  unfold connectorUse ProxyConfig.use portOrDefault
  rw [credentials_http http, ← portEq, notHttps]
  constructor
  · rintro ⟨tunnel, host, found, forward⟩
    rw [ProxyUse.mk.injEq] at tunnel forward
    refine ⟨by rw [found, forward.1], ?_⟩
    cases explicit : uri.portU16 with
    | none =>
        rw [explicit] at tunnel forward
        have clash : (8080 : Nat) = 80 := forward.2.1.trans tunnel.2.1.symm
        cases clash
    | some own =>
        rw [explicit] at forward
        exact congrArg some forward.2.1
  · rintro ⟨found, explicit⟩
    refine ⟨?_, p.host, found, ?_⟩
    · simp [Uri.hostOrEmpty, found, explicit]
    · simp [explicit]

/-- What both readers find of a URL they both accept. -/
structure BothRead (parse : Parser) (proxyUrl : Str) (uri : Uri) (p : ProxyConfig) (rest : Str)
    (port : Option Nat) : Prop where
  parsed : parse proxyUrl = .ok uri
  read : parseProxyUrl proxyUrl = .ok p
  behind : ∃ written, splitOnceStr "://".toList proxyUrl = some (written, rest)
  names : Names (hostportText rest) p.host port
  named : p.host ≠ []
  portEq : p.port = port.getD p.scheme.defaultPort
  user : (p.username, p.password) = parseUserinfo (userinfoText rest)
  sameScheme : ∀ scheme, uri.scheme = some scheme → parseProxyScheme scheme = .ok p.scheme

theorem bothRead {parse : Parser} (contract : SchemeContract parse) {proxyUrl : Str} {uri : Uri}
    {p : ProxyConfig} (parsed : parse proxyUrl = .ok uri)
    (read : parseProxyUrl proxyUrl = .ok p) : ∃ rest port, BothRead parse proxyUrl uri p rest port := by
  obtain ⟨written, rest, split, known, placed, named, user⟩ := parseProxyUrl_ok.mp read
  obtain ⟨port, names, portEq⟩ := parseHostport_names.mp placed
  refine ⟨rest, port, parsed, read, ⟨written, split⟩, names, named, portEq, user, ?_⟩
  intro scheme absolute
  obtain ⟨written', rest', split', rfl⟩ := contract.split parsed absolute
  rw [split] at split'
  cases split'
  rw [parseProxyScheme_shown]
  exact known

theorem BothRead.http {parse : Parser} {proxyUrl rest : Str} {uri : Uri} {p : ProxyConfig}
    {port : Option Nat} (both : BothRead parse proxyUrl uri p rest port) (http : HttpProxy uri) :
    uri.scheme = some "http".toList ∧ p.scheme = .http ∧ p.port = port.getD 8080 := by
  rcases http with given | given
  · have same : (.ok .http : Except ClientError ProxyScheme) = .ok p.scheme :=
      both.sameScheme _ given
    have scheme : p.scheme = .http := (Except.ok.inj same).symm
    refine ⟨given, scheme, ?_⟩
    rw [both.portEq, scheme]
    rfl
  · cases both.sameScheme _ given

theorem BothRead.socks {parse : Parser} {proxyUrl rest : Str} {uri : Uri} {p : ProxyConfig}
    {port : Option Nat} (both : BothRead parse proxyUrl uri p rest port)
    (socks : SocksProxy uri) : p.scheme = .socks5 ∧ p.port = port.getD 1080 := by
  have same : (.ok .socks5 : Except ClientError ProxyScheme) = .ok p.scheme := by
    rcases socks with given | given
    · exact both.sameScheme _ given
    · exact both.sameScheme _ given
  have scheme : p.scheme = .socks5 := (Except.ok.inj same).symm
  refine ⟨scheme, ?_⟩
  rw [both.portEq, scheme]
  rfl

theorem BothRead.spelled_socks {parse : Parser} {proxyUrl rest : Str} {uri : Uri}
    {p : ProxyConfig} {port : Option Nat} (both : BothRead parse proxyUrl uri p rest port)
    (socks : SocksProxy uri) (same : connectorUse uri = p.use) : ProxySpelledOut parse proxyUrl := by
  obtain ⟨scheme, portEq⟩ := both.socks socks
  obtain ⟨written, split⟩ := both.behind
  obtain ⟨host, agreed, user⟩ := (socks_agree scheme socks both.named both.user portEq).mp same
  exact ⟨uri, written, rest, p.host, port, both.parsed, split, both.names, both.named, host,
    .inr ⟨socks, agreed, user⟩⟩

theorem BothRead.spelled_http {parse : Parser} {proxyUrl rest : Str} {uri : Uri}
    {p : ProxyConfig} {port : Option Nat} (both : BothRead parse proxyUrl uri p rest port)
    (http : HttpProxy uri) (tunnel : connectorUse uri = p.use) {host : Str}
    (found : uri.host = some host) (forward : ⟨host, uri.portU16.getD 8080, none⟩ = p.use) :
    ProxySpelledOut parse proxyUrl := by
  obtain ⟨named, scheme, portEq⟩ := both.http http
  obtain ⟨written, split⟩ := both.behind
  obtain ⟨host', explicit⟩ := (http_agree scheme named portEq).mp ⟨tunnel, host, found, forward⟩
  exact ⟨uri, written, rest, p.host, port, both.parsed, split, both.names, both.named, host',
    .inl ⟨named, explicit⟩⟩

/-- An https target and an http target show the port: one goes through the connector, the
other is forwarded. -/
theorem BothAccept.spelledOut {parse : Parser} (contract : SchemeContract parse) {proxyUrl : Str}
    (accept : BothAccept parse proxyUrl) : ProxySpelledOut parse proxyUrl := by
  have applies := throughConfig_applies proxyUrl
  obtain ⟨proxy, pooled, stream⟩ := accept verifyingConnector _ exampleRoot (applies _)
  obtain ⟨proxy', pooled', stream'⟩ := accept verifyingConnector _ plainRoot (applies _)
  rw [streamUse_proxied (applies _)] at stream stream'
  cases read : parseProxyUrl proxyUrl with
  | error e =>
      rw [read] at stream
      cases stream
  | ok p =>
      rw [read] at stream stream'
      cases stream
      cases stream'
      cases parsed : parse proxyUrl with
      | error e =>
          rw [pooledUse_unparsed (applies _) parsed] at pooled
          cases pooled
      | ok uri =>
          obtain ⟨rest, port, both⟩ := bothRead contract parsed read
          by_cases socks : SocksProxy uri
          · rw [pooledUse_socks (applies _) parsed socks] at pooled
            exact both.spelled_socks socks (Option.some.inj (Except.ok.inj pooled))
          · by_cases http : HttpProxy uri
            · rw [pooledUse_tunnel (applies _) parsed http rfl] at pooled
              have tunnel : connectorUse uri = p.use := Option.some.inj (Except.ok.inj pooled)
              cases found : uri.host with
              | none =>
                  -- the tunnel is called with an empty host
                  have empty : uri.hostOrEmpty = p.host := congrArg ProxyUse.host tunnel
                  rw [Uri.hostOrEmpty, found] at empty
                  exact absurd empty.symm both.named
              | some host =>
                  rw [pooledUse_forward (applies _) parsed http (by decide) found] at pooled'
                  exact both.spelled_http http tunnel found
                    (Option.some.inj (Except.ok.inj pooled'))
            · have unknown : ∃ fault, pooledUse parse verifyingConnector (throughConfig proxyUrl)
                  exampleRoot = .error fault := pooledUse_unknown (applies _) parsed http socks
              obtain ⟨fault, failed⟩ := unknown
              rw [failed] at pooled
              cases pooled

/-- Of a URL whose port is spelled out both readers find the same. -/
theorem ProxySpelledOut.bothRead {parse : Parser} (contract : SchemeContract parse)
    {proxyUrl : Str} (spelled : ProxySpelledOut parse proxyUrl) :
    ∃ uri p rest port, BothRead parse proxyUrl uri p rest port ∧ uri.host = some p.host ∧
      ((uri.scheme = some "http".toList ∧ uri.portU16 = some (port.getD 8080)) ∨
        (SocksProxy uri ∧ uri.portU16.getD 80 = port.getD 1080 ∧
          ∀ user, userinfoText rest = some user → ':' ∉ user)) := by
  obtain ⟨uri, written, rest, host, port, parsed, split, names, named, found, kind⟩ := spelled
  have reads : ∀ text, uri.scheme = some text →
      parseProxyScheme text = parseProxyScheme written := by
    intro text absolute
    obtain ⟨written', rest', split', rfl⟩ := contract.split parsed absolute
    rw [split] at split'
    cases split'
    exact parseProxyScheme_shown written
  obtain ⟨scheme, known⟩ : ∃ scheme, parseProxyScheme written = .ok scheme := by
    rcases kind with ⟨http, -⟩ | ⟨socks | socks, -⟩
    · exact ⟨.http, (reads _ http).symm⟩
    · exact ⟨.socks5, (reads _ socks).symm⟩
    · exact ⟨.socks5, (reads _ socks).symm⟩
  let p : ProxyConfig :=
    { scheme := scheme
      host := host
      port := port.getD scheme.defaultPort
      username := (parseUserinfo (userinfoText rest)).1
      password := (parseUserinfo (userinfoText rest)).2 }
  have read : parseProxyUrl proxyUrl = .ok p :=
    parseProxyUrl_ok.mpr ⟨written, rest, split, known, parseHostport_names.mpr ⟨port, names, rfl⟩,
      named, rfl⟩
  refine ⟨uri, p, rest, port, ⟨parsed, read, ⟨written, split⟩, names, named, rfl, rfl, ?_⟩,
    found, kind⟩
  intro text absolute
  exact (reads text absolute).trans known

theorem ProxySpelledOut.bothAccept {parse : Parser} (contract : SchemeContract parse)
    {proxyUrl : Str} (spelled : ProxySpelledOut parse proxyUrl) : BothAccept parse proxyUrl := by
  obtain ⟨uri, p, rest, port, both, found, kind⟩ := spelled.bothRead contract
  intro connector config target applies
  refine ⟨p.use, ?_, ?_⟩
  · rcases kind with ⟨http, explicit⟩ | ⟨socks, agreed, user⟩
    · obtain ⟨-, scheme, portEq⟩ := both.http (.inl http)
      obtain ⟨tunnel, host, found', forward⟩ := (http_agree scheme http portEq).mpr ⟨found, explicit⟩
      cases https : target.isHttps with
      | true => rw [pooledUse_tunnel applies both.parsed (.inl http) https, tunnel]
      | false => rw [pooledUse_forward applies both.parsed (.inl http) https found', forward]
    · obtain ⟨scheme, portEq⟩ := both.socks socks
      rw [pooledUse_socks applies both.parsed socks,
        (socks_agree scheme socks both.named both.user portEq).mpr ⟨found, agreed, user⟩]
  · rw [streamUse_proxied applies, both.read]
    rfl

theorem bothReject_iff {parse : Parser} {proxyUrl : Str} :
    BothReject parse proxyUrl ↔ ProxyRejected parse proxyUrl := by
  constructor
  · intro reject
    have applies := throughConfig_applies proxyUrl
    obtain ⟨⟨fault, pooled⟩, e, stream⟩ := reject verifyingConnector _ exampleRoot (applies _)
    refine ⟨fun uri parsed => ⟨fun http => ?_, fun socks => ?_⟩, ?_⟩
    · rw [pooledUse_tunnel (applies _) parsed http rfl] at pooled
      cases pooled
    · rw [pooledUse_socks (applies _) parsed socks] at pooled
      cases pooled
    · rw [← parseProxyUrl_rejects]
      intro p accepted
      rw [streamUse_proxied (applies _), accepted] at stream
      cases stream
  · rintro ⟨unknown, rejects⟩ connector config target applies
    constructor
    · cases parsed : parse proxyUrl with
      | error e => exact ⟨_, pooledUse_unparsed applies parsed⟩
      | ok uri =>
          obtain ⟨notHttp, notSocks⟩ := unknown uri parsed
          exact pooledUse_unknown applies parsed notHttp notSocks
    · rw [streamUse_proxied applies]
      cases read : parseProxyUrl proxyUrl with
      | error e => exact ⟨e, rfl⟩
      | ok p => exact absurd read (parseProxyUrl_rejects.mpr rejects p)

/-- **When a proxy URL means one proxy on every path.** For every text: exactly if its
port is spelled out as both readers see it, or both reject it.  What a reader makes of it
is where its path connects. -/
theorem oneProxy_iff {parse : Parser} (contract : SchemeContract parse) (proxyUrl : Str) :
    (OneProxy parse proxyUrl ↔ ProxySpelledOut parse proxyUrl ∨ ProxyRejected parse proxyUrl) ∧
      UsesDialed parse := by
  refine ⟨?_, usesDialed parse⟩
  constructor
  · rintro (reject | accept)
    · exact .inr (bothReject_iff.mp reject)
    · exact .inl (BothAccept.spelledOut contract accept)
  · rintro (spelled | rejected)
    · exact .inr (spelled.bothAccept contract)
    · exact .inl (bothReject_iff.mpr rejected)

/-! A proxy with its port, and one without. -/

/-- The plain parser, with the schemes as the crate shows them. -/
def shownParse : Parser := fun s =>
  (plainParse s).map fun uri => { uri with scheme := uri.scheme.map shownScheme }

theorem shownParse_contract : SchemeContract shownParse where
  shows := by
    intro s uri scheme parsed absolute
    unfold shownParse at parsed
    cases plain : plainParse s with
    | error e =>
        rw [plain] at parsed
        cases parsed
    | ok own =>
        rw [plain] at parsed
        cases parsed
        obtain ⟨written, named, rfl⟩ := Option.map_eq_some_iff.mp absolute
        obtain ⟨rest, text, chars, -⟩ := plainParse_written plain named
        exact ⟨written, rest, text, chars, rfl⟩

theorem oneProxy_with_port : OneProxy shownParse "http://proxy:8080".toList := by
  refine (oneProxy_iff shownParse_contract _).1.mpr (.inl ?_)
  refine ⟨{ proxyRoot with authority := some (plainAuthority "proxy:8080".toList) },
    "http".toList, "proxy:8080".toList, "proxy".toList, some 8080, by decide, by decide, .inl ?_,
    by decide, by decide, .inl ⟨rfl, by decide⟩⟩
  exact ⟨"8080".toList, by decide, by decide, rfl, by decide⟩

/-- `http://proxy` has a host, and is port 80 to the tunnel and port 8080 to the rest. -/
theorem proxy_without_port :
    SchemeContract shownParse ∧
      (∃ uri, shownParse "http://proxy".toList = .ok uri ∧ uri.host = some "proxy".toList) ∧
      ¬ OneProxy shownParse "http://proxy".toList := by
  have parsed : shownParse "http://proxy".toList = .ok proxyRoot := by decide
  have applies := throughConfig_applies "http://proxy".toList
  have http : HttpProxy proxyRoot := .inl rfl
  refine ⟨shownParse_contract, ⟨proxyRoot, parsed, by decide⟩, ?_⟩
  rintro (reject | accept)
  · obtain ⟨⟨fault, failed⟩, -⟩ := reject verifyingConnector _ exampleRoot (applies _)
    rw [pooledUse_tunnel (applies _) parsed http rfl] at failed
    cases failed
  · obtain ⟨proxy, pooled, stream⟩ := accept verifyingConnector _ exampleRoot (applies _)
    rw [pooledUse_tunnel (applies _) parsed http rfl] at pooled
    have eighty : proxy.port = 80 := by
      have same := Option.some.inj (Except.ok.inj pooled)
      rw [← same]
      decide
    have other : streamUse (throughConfig "http://proxy".toList) exampleRoot =
        .ok (some ⟨"proxy".toList, 8080, none⟩) := by
      rw [streamUse_proxied (applies _)]
      decide
    rw [other] at stream
    cases stream
    cases eighty

end Blasthttp.Client
