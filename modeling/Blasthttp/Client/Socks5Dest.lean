/-
# Blasthttp.Client.Socks5Dest -- the destination a SOCKS5 request asks for

The CONNECT request read back the way RFC 1928 has a proxy read it (`readConnect`).
`connect_stream` hands `perform_socks5` the host as `Uri::host` gives it, brackets
included, and these keep an IPv6 literal from ever being sent as the address it is
(`socks5_destination`).
-/
import Blasthttp.Client.Socks5
import Blasthttp.Http.HostLiteral

namespace Blasthttp.Client

open Blasthttp.Rust Blasthttp.Http Blasthttp.Lib.BigEndian

set_option autoImplicit false

/-! ## RFC 1928 -/

inductive SocksDest where
  | address (ip : IpAddr)
  | name (bytes : List UInt8)
  deriving DecidableEq

/-- `size` bytes of DST.ADDR, then DST.PORT and nothing behind it. -/
def readTail (size : Nat) (dest : List UInt8 → SocksDest) (rest : List UInt8) :
    Option (SocksDest × Nat) :=
  if rest.length = size + 2 then some (dest (rest.take size), ofBytes (rest.drop size)) else none

def readDest (atyp : UInt8) (rest : List UInt8) : Option (SocksDest × Nat) :=
  if atyp = 0x01 then readTail 4 (fun bytes => .address (.v4 (ofBytes bytes))) rest
  else if atyp = 0x04 then readTail 16 (fun bytes => .address (.v6 (ofBytes bytes))) rest
  else if atyp = 0x03 then
    match rest with
    | [] => none
    | len :: rest => readTail len.toNat .name rest
  else none

/-- A CONNECT request: VER CMD RSV ATYP DST.ADDR DST.PORT. -/
def readConnect : List UInt8 → Option (SocksDest × Nat)
  | ver :: cmd :: rsv :: atyp :: rest =>
      if ver = 0x05 ∧ cmd = 0x01 ∧ rsv = 0x00 then readDest atyp rest else none
  | _ => none

/-- What a URI with this host asks for. -/
def destOf (host : Str) : SocksDest :=
  match hostLiteral host with
  | some ip => .address ip
  | none => .name (utf8Bytes host)

variable {host : Str} {port : Nat}

theorem readTail_append {size : Nat} {dest : List UInt8 → SocksDest} {addr : List UInt8}
    (length : addr.length = size) (fits : port < 2 ^ 16) :
    readTail size dest (addr ++ toBytes 2 port) = some (dest addr, port) := by
  have whole : (addr ++ toBytes 2 port).length = size + 2 := by simp [length]
  rw [readTail, if_pos whole, List.take_left' length, List.drop_left' length,
    ofBytes_toBytes_of_lt (by simpa using fits)]

theorem readConnect_v4 {bits : Nat} (small : bits < 2 ^ 32) (fits : port < 2 ^ 16) :
    readConnect ([0x05, 0x01, 0x00] ++ (0x01 :: toBytes 4 bits) ++ toBytes 2 port) =
      some (.address (.v4 bits), port) := by
  show readTail 4 (fun bytes => .address (.v4 (ofBytes bytes))) (toBytes 4 bits ++ toBytes 2 port) = _
  rw [readTail_append (length_toBytes 4 bits) fits, ofBytes_toBytes_of_lt (by simpa using small)]

theorem readConnect_name {bytes : List UInt8} (short : bytes.length ≤ 255) (fits : port < 2 ^ 16) :
    readConnect ([0x05, 0x01, 0x00] ++ (0x03 :: UInt8.ofNat bytes.length :: bytes) ++
      toBytes 2 port) = some (.name bytes, port) := by
  show readTail (UInt8.ofNat bytes.length).toNat .name (bytes ++ toBytes 2 port) = _
  apply readTail_append _ fits
  rw [UInt8.toNat_ofNat', Nat.mod_eq_of_lt (by omega)]

/-! ## The request of `connect_stream` -/

/-- The request that `perform_socks5` makes of the host and port it is handed. -/
def connectRequest (target : Uri) : Except ClientError (List UInt8) :=
  socks5Request target.hostOrEmpty (portOrDefault target)

/-- An absolute URI as `http::Uri` shows it. -/
structure AbsoluteTarget (target : Uri) (host : Str) : Prop where
  scheme : target.scheme.isSome = true
  named : target.host = some host
  keeps : KeepsBrackets host
  port : ∀ port, target.portU16 = some port → port < 2 ^ 16

theorem portOrDefault_lt {target : Uri} (absolute : AbsoluteTarget target host) :
    portOrDefault target < 2 ^ 16 := by
  unfold portOrDefault
  cases named : target.portU16 with
  | some port => exact absolute.port port named
  | none =>
      show (if target.isHttps = true then 443 else 80) < 2 ^ 16
      split
      · decide
      · decide

/-- The request asks for the IPv4 literal that the host is, or for its text. -/
theorem socks5Request_v4 {bits : Nat} (address : IpAddr.parseV4 host = some bits)
    (fits : port < 2 ^ 16) :
    ∃ request, socks5Request host port = .ok request ∧
      readConnect request = some (.address (.v4 bits), port) := by
  have small : bits < 2 ^ 32 := IpAddr.parse_lt (IpAddr.parse_eq_v4.mpr address)
  refine ⟨[0x05, 0x01, 0x00] ++ (0x01 :: toBytes 4 bits) ++ toBytes 2 port, ?_,
    readConnect_v4 small fits⟩
  simp only [socks5Request, socks5Address, address]
  rfl

theorem socks5Request_name (notV4 : IpAddr.parseV4 host = none) (keeps : KeepsBrackets host)
    (short : byteLen host ≤ 255) (fits : port < 2 ^ 16) :
    ∃ request, socks5Request host port = .ok request ∧
      readConnect request = some (.name (utf8Bytes host), port) := by
  have length := length_utf8Bytes host
  refine ⟨[0x05, 0x01, 0x00] ++ (0x03 :: UInt8.ofNat (utf8Bytes host).length :: utf8Bytes host) ++
    toBytes 2 port, ?_, readConnect_name (by omega) fits⟩
  have notV6 : IpAddr.parseV6 host = none := keeps
  simp only [socks5Request, socks5Address, notV4, notV6]
  rw [if_neg (by omega), length]
  rfl

/-- `perform_socks5` reads the text of an IPv6 literal as a name. -/
theorem socks5Request_reads (keeps : KeepsBrackets host) (short : byteLen host ≤ 255)
    (fits : port < 2 ^ 16) :
    (∃ request, socks5Request host port = .ok request ∧
        readConnect request = some (destOf host, port)) ↔
      ∀ bits, hostLiteral host ≠ some (.v6 bits) := by
  cases address : IpAddr.parseV4 host with
  | some bits =>
      have literal := hostLiteral_v4.mpr address
      have dest : destOf host = .address (.v4 bits) := by simp only [destOf, literal]
      rw [dest]
      refine iff_of_true (socks5Request_v4 address fits) ?_
      rw [literal]
      simp
  | none =>
      obtain ⟨request, made, read⟩ := socks5Request_name address keeps short fits
      constructor
      · rintro ⟨request', made', read'⟩ bits literal
        have dest : destOf host = .address (.v6 bits) := by simp only [destOf, literal]
        rw [made] at made'
        cases made'
        rw [read, dest] at read'
        cases read'
      · intro notV6
        have literal : hostLiteral host = none := by
          cases found : hostLiteral host with
          | none => rfl
          | some ip =>
              cases ip with
              | v4 bits =>
                  rw [hostLiteral_v4.mp found] at address
                  cases address
              | v6 bits => exact absurd found (notV6 bits)
        have dest : destOf host = .name (utf8Bytes host) := by simp only [destOf, literal]
        rw [dest]
        exact ⟨request, made, read⟩

/-! ## Its exchange -/

/-- `connect_stream` gets as far as a SOCKS5 proxy, on a socket that nothing came from. -/
structure ReachesSocks5 (network : Network) (socketOf : Stream → Socket) (config : RequestConfig)
    (target : Uri) (proxy : ProxyConfig) : Prop where
  valid : config.validateProxy = .ok ()
  chosen : proxyConfigFor config target.hostOrEmpty = .ok (some proxy)
  scheme : proxy.scheme = .socks5
  dialed : ∃ addr, network.dial proxy.host proxy.port = .ok addr
  fresh : (socketOf (.tcp proxy.host proxy.port)).received = []

/-- The exchange for a target with such a proxy. -/
def socks5Exchange (socketOf : Stream → Socket) (target : Uri) (proxy : ProxyConfig) :
    Except (Option ClientError) Unit × Socket :=
  Socket.run (performSocks5 target.hostOrEmpty (portOrDefault target) proxy.username proxy.password)
    (socketOf (.tcp proxy.host proxy.port))

/-- `connect_stream` stands on that exchange: it fails the way the exchange does, and does
not come back with a stream before the request is written whole. -/
structure StandsOnExchange (openssl : OpenSsl) (network : Network) (socketOf : Stream → Socket)
    (config : RequestConfig) (target : Uri) (proxy : ProxyConfig) : Prop where
  fails : ∀ fault, (socks5Exchange socketOf target proxy).1 = .error fault →
    connectStream openssl network config target =
      .error (performError config proxy.scheme target.hostOrEmpty (portOrDefault target) fault)
  asks : ∀ result, connectStream openssl network config target = .ok result →
    ∃ replies request, MethodReply proxy.username proxy.password replies ∧
      connectRequest target = .ok request ∧
      (replies, request) ∈ (socks5Exchange socketOf target proxy).2.writes

variable {network : Network} {plain : Char → Bool} {socketOf : Stream → Socket}
  {config : RequestConfig} {target : Uri} {proxy : ProxyConfig}

theorem enterProxy_fails (socks : proxy.scheme = .socks5) {fault : Option ClientError}
    (failed : (socks5Exchange socketOf target proxy).1 = .error fault) :
    enterProxy (network.withSockets plain socketOf) config target.hostOrEmpty (portOrDefault target)
        (.tcp proxy.host proxy.port) (some proxy) =
      .error (performError config proxy.scheme target.hostOrEmpty (portOrDefault target) fault) := by
  have performed : (network.withSockets plain socketOf).perform proxy target.hostOrEmpty
      (portOrDefault target) (.tcp proxy.host proxy.port) = .error fault := by
    simp only [Network.withSockets, performProxy, socks]
    exact failed
  simp only [enterProxy, performed]
  rfl

/-- The request is written whole when the exchange comes out. -/
theorem exchange_requested (socks : proxy.scheme = .socks5)
    (fresh : (socketOf (.tcp proxy.host proxy.port)).received = [])
    (opens : Opens (performProxy plain proxy target.hostOrEmpty (portOrDefault target))
      (socketOf (.tcp proxy.host proxy.port))) :
    ∃ replies request, MethodReply proxy.username proxy.password replies ∧
      connectRequest target = .ok request ∧
      (replies, request) ∈ (socks5Exchange socketOf target proxy).2.writes := by
  simp only [performProxy, socks] at opens
  have came := (Socket.run_of_triple
    (@performSocks5_spec target.hostOrEmpty (portOrDefault target) proxy.username proxy.password
      _ fresh) rfl).1
  obtain ⟨replies, reply, valid, answers, ⟨request, made, there⟩, went⟩ := came () opens
  exact ⟨replies, request, valid, made, there⟩

theorem connectStream_exchange (openssl : OpenSsl)
    (reaches : ReachesSocks5 network socketOf config target proxy) :
    StandsOnExchange openssl (network.withSockets plain socketOf) socketOf config target proxy := by
  refine ⟨?_, ?_⟩
  · intro fault failed
    obtain ⟨addr, dialed⟩ := reaches.dialed
    have entered : enterProxy (network.withSockets plain socketOf) config target.hostOrEmpty
        (portOrDefault target) (.tcp proxy.host proxy.port) (some proxy) = _ :=
      enterProxy_fails reaches.scheme failed
    unfold connectStream
    simp only [reaches.valid, reaches.chosen]
    show ((network.dial proxy.host proxy.port).mapError _ >>= fun _ => enterProxy
      (network.withSockets plain socketOf) config target.hostOrEmpty (portOrDefault target)
      (.tcp proxy.host proxy.port) (some proxy) >>= _) = _
    rw [dialed, entered]
    rfl
  · intro result connected
    unfold connectStream at connected
    obtain ⟨-, -, connected⟩ := bind_ok.mp connected
    obtain ⟨chosen, asChosen, connected⟩ := bind_ok.mp connected
    obtain ⟨-, -, connected⟩ := bind_ok.mp connected
    obtain ⟨stream, entered, -⟩ := bind_ok.mp connected
    rw [reaches.chosen, Except.ok.injEq] at asChosen
    subst asChosen
    obtain ⟨-, opens⟩ := (enterProxy_ok_iff ..).mp entered
    exact exchange_requested reaches.scheme reaches.fresh opens

/-- **The destination asked for.** Behind the proxy's method reply `connect_stream` writes
the request for the target and nothing else, however the exchange goes, and that reads as
the host and port of the URI exactly if the host is no IPv6 literal. -/
theorem socks5_destination {target : Uri} {host : Str} (absolute : AbsoluteTarget target host)
    (short : byteLen host ≤ 255) :
    (∀ (openssl : OpenSsl) (network : Network) (plain : Char → Bool) (socketOf : Stream → Socket)
      (config : RequestConfig) (proxy : ProxyConfig),
      ReachesSocks5 network socketOf config target proxy →
        StandsOnExchange openssl (network.withSockets plain socketOf) socketOf config target proxy) ∧
    (∀ (username password : Option Str) (incoming : List Segment) (ending : Option SocketFault)
      (room : Option Nat) (refusal : SocketFault),
      ∀ write ∈ (Socket.run
          (performSocks5 target.hostOrEmpty (portOrDefault target) username password)
          (Socket.opened incoming ending room refusal)).2.writes,
        MethodReply username password write.1 →
          ∃ request, connectRequest target = .ok request ∧ write.2 <+: request) ∧
    ((∃ request, connectRequest target = .ok request ∧
        readConnect request = some (destOf host, portOrDefault target)) ↔
      ∀ bits, hostLiteral host ≠ some (.v6 bits)) := by
  refine ⟨fun openssl _ _ _ _ _ reaches => connectStream_exchange openssl reaches, ?_, ?_⟩
  · intro username password incoming ending room refusal write there agreed
    exact MayWrite.behind_reply agreed
      (performSocks5_orderly _ _ username password incoming ending room refusal write there)
  · have same : target.hostOrEmpty = host := by rw [Uri.hostOrEmpty, absolute.named]; rfl
    rw [connectRequest, same]
    exact socks5Request_reads absolute.keeps short (portOrDefault_lt absolute)

/-! `https://example.com/` and `https://[::1]/` through a proxy that grants everything. -/

def socksConfig : RequestConfig :=
  { RequestConfig.new "https://example.com/".toList with proxy := some "socks5://proxy".toList }

def socksProxy : ProxyConfig := ⟨.socks5, "proxy".toList, 1080, none, none⟩

def grantingSocket : Socket :=
  .opened (putBack [0x05, 0x00, 0x05, 0x00, 0x00, 0x01, 0, 0, 0, 0, 0, 0] []) none none .stalled

theorem exampleRoot_reaches :
    ReachesSocks5 openNetwork (fun _ => grantingSocket) socksConfig exampleRoot socksProxy where
  valid := by rfl
  chosen := by decide +kernel
  scheme := rfl
  dialed := ⟨_, rfl⟩
  fresh := rfl

theorem exampleRoot_absolute : AbsoluteTarget exampleRoot "example.com".toList where
  scheme := rfl
  named := by decide
  keeps := by decide +kernel
  port := by decide

/-- The name goes out as it is. -/
theorem socks5_destination_example :
    StandsOnExchange lenientOpenSsl (openNetwork.withSockets (fun _ => true) fun _ => grantingSocket)
        (fun _ => grantingSocket) socksConfig exampleRoot socksProxy ∧
      (connectStream lenientOpenSsl
        (openNetwork.withSockets (fun _ => true) fun _ => grantingSocket) socksConfig
          exampleRoot).toBool = true ∧
      ∃ request, connectRequest exampleRoot = .ok request ∧
        readConnect request = some (.name (utf8Bytes "example.com".toList), 443) := by
  obtain ⟨stands, -, reads⟩ := socks5_destination exampleRoot_absolute (by decide)
  have literal : hostLiteral "example.com".toList = none := by decide +kernel
  have named : destOf "example.com".toList = .name (utf8Bytes "example.com".toList) := by
    decide +kernel
  refine ⟨stands _ _ _ _ _ _ exampleRoot_reaches, by decide +kernel, ?_⟩
  rw [← named]
  refine reads.mpr fun bits isV6 => ?_
  rw [literal] at isV6
  cases isV6

theorem v6Root_absolute : AbsoluteTarget v6Root "[::1]".toList where
  scheme := rfl
  named := by decide
  keeps := by decide +kernel
  port := by decide

/-- `connect_stream` comes back with a stream for which it asked by the name `[::1]`. -/
theorem socks5_v6_by_name :
    connectRequest v6Root =
        .ok [0x05, 0x01, 0x00, 0x03, 5, 0x5B, 0x3A, 0x3A, 0x31, 0x5D, 0x01, 0xBB] ∧
      (connectStream lenientOpenSsl
        (openNetwork.withSockets (fun _ => true) fun _ => grantingSocket) socksConfig
          v6Root).toBool = true ∧
      (socks5Exchange (fun _ => grantingSocket) v6Root socksProxy).2.writes =
        [([], [0x05, 0x01, 0x00]),
          ([0x05, 0x00],
            [0x05, 0x01, 0x00, 0x03, 5, 0x5B, 0x3A, 0x3A, 0x31, 0x5D, 0x01, 0xBB])] ∧
      destOf "[::1]".toList = .address (.v6 1) ∧
      ¬ ∀ (target : Uri) (host : Str), AbsoluteTarget target host → byteLen host ≤ 255 →
        ∃ request, connectRequest target = .ok request ∧
          readConnect request = some (destOf host, portOrDefault target) := by
  have sent : connectRequest v6Root =
      .ok [0x05, 0x01, 0x00, 0x03, 5, 0x5B, 0x3A, 0x3A, 0x31, 0x5D, 0x01, 0xBB] := by
    decide +kernel
  have dest : destOf "[::1]".toList = .address (.v6 1) := by decide +kernel
  refine ⟨sent, by decide +kernel, by decide +kernel, dest, fun right => ?_⟩
  obtain ⟨request, made, read⟩ := right v6Root _ v6Root_absolute (by decide)
  rw [sent] at made
  cases made
  rw [dest] at read
  exact absurd read (by decide)

end Blasthttp.Client
