/-
# Blasthttp.Client.Socks5 -- `perform_socks5`

The handshake as the state machine it is: greeting and method reply, authentication,
request, connect reply.  `socks5_safe` says what the proxy must have sent for it to
come out, that nothing behind those replies is gone then, and that in any run, broken
off or not, each message was written at its own place, the credentials behind the
choice of their method.
-/
import Blasthttp.Client.HttpConnect
import Blasthttp.Lib.BigEndian

namespace Blasthttp.Client

open Blasthttp.Rust Blasthttp.Lib.BigEndian Std.Do

set_option autoImplicit false
set_option mvcgen.warning false

/-! ## Messages -/

def socks5Greeting (hasCreds : Bool) : List UInt8 :=
  let offered : List UInt8 := if hasCreds then [0x00, 0x02] else [0x00]
  [0x05, UInt8.ofNat offered.length] ++ offered

/-- Username and password, each behind its length. -/
def socks5Auth (u p : Str) : List UInt8 :=
  [0x01, UInt8.ofNat (byteLen u)] ++ utf8Bytes u ++ [UInt8.ofNat (byteLen p)] ++ utf8Bytes p

/-- ATYP and DST.ADDR. -/
def socks5Address (host : Str) : Except ClientError (List UInt8) :=
  match IpAddr.parseV4 host with
  | some ipv4 => .ok (0x01 :: toBytes 4 ipv4)
  | none =>
      match IpAddr.parseV6 host with
      | some ipv6 => .ok (0x04 :: toBytes 16 ipv6)
      | none =>
          if 255 < byteLen host then
            .error ⟨"SOCKS5 target hostname must be <=255 bytes".toList, .connection⟩
          else .ok (0x03 :: UInt8.ofNat (byteLen host) :: utf8Bytes host)

/-- VER CMD RSV ATYP DST.ADDR DST.PORT. -/
def socks5Request (host : Str) (port : Nat) : Except ClientError (List UInt8) :=
  (socks5Address host).map fun address => [0x05, 0x01, 0x00] ++ address ++ toBytes 2 port

def socks5ErrorText (code : UInt8) : Str :=
  if code = 0x01 then "general SOCKS server failure".toList
  else if code = 0x02 then "connection not allowed by ruleset".toList
  else if code = 0x03 then "network unreachable".toList
  else if code = 0x04 then "host unreachable".toList
  else if code = 0x05 then "connection refused".toList
  else if code = 0x06 then "TTL expired".toList
  else if code = 0x07 then "command not supported".toList
  else if code = 0x08 then "address type not supported".toList
  else "unknown SOCKS5 error".toList

/-! ## The handshake -/

def writeOr (what : String) (bytes : List UInt8) : Socket.On (Option ClientError) Unit :=
  ExceptT.adapt (socketError what) (Socket.writeAll bytes)

def readOr (what : String) (size : Nat) : Socket.On (Option ClientError) (List UInt8) :=
  ExceptT.adapt (socketError what) (Socket.readExact size)

/-- A byte of a buffer that has been filled. -/
def byteAt (buf : List UInt8) (i : Nat) : UInt8 := buf.getD i 0

/-- The exchange of method 0x02. -/
def socks5Authenticate (username password : Option Str) : Socket.On (Option ClientError) Unit :=
  match username, password with
  | some u, some p => do
      if 255 < byteLen u ∨ 255 < byteLen p then
        throw (proxyError "SOCKS5 username/password must be <=255 bytes each".toList)
      else
        writeOr "SOCKS5 auth write failed" (socks5Auth u p)
        let reply ← readOr "SOCKS5 auth read failed" 2
        if byteAt reply 1 ≠ 0x00 then
          throw (proxyError ("SOCKS5 username/password auth rejected (status ".toList ++
            hexByte (byteAt reply 1) ++ [')']))
        else pure ()
  | _, _ =>
      throw (proxyError "SOCKS5 proxy required username/password but none provided".toList)

/-- Greeting, and the method the proxy selects. -/
def socks5Negotiate (username password : Option Str) : Socket.On (Option ClientError) Unit := do
  writeOr "SOCKS5 greeting write failed" (socks5Greeting (username.isSome && password.isSome))
  let chosen ← readOr "SOCKS5 greeting read failed" 2
  if byteAt chosen 0 ≠ 0x05 then
    throw (proxyError ("SOCKS5 invalid version in greeting reply: ".toList ++
      hexByte (byteAt chosen 0)))
  else if byteAt chosen 1 = 0x00 then pure ()
  else if byteAt chosen 1 = 0x02 then socks5Authenticate username password
  else if byteAt chosen 1 = 0xFF then
    throw (proxyError "SOCKS5 proxy rejected all offered authentication methods".toList)
  else
    throw (proxyError ("SOCKS5 proxy selected unexpected auth method: ".toList ++
      hexByte (byteAt chosen 1)))

def socks5SendRequest (host : Str) (port : Nat) : Socket.On (Option ClientError) Unit :=
  match socks5Request host port with
  | .error e => throw (some e)
  | .ok request => writeOr "SOCKS5 connect write failed" request

/-- The length of BND.ADDR, which a name has in front of it. -/
def socks5AddrLen (atyp : UInt8) : Socket.On (Option ClientError) Nat :=
  if atyp = 0x01 then pure 4
  else if atyp = 0x04 then pure 16
  else if atyp = 0x03 then do
    let lenByte ← readOr "SOCKS5 reply read failed" 1
    pure (byteAt lenByte 0).toNat
  else throw (proxyError ("SOCKS5 reply had unexpected ATYP: ".toList ++ hexByte atyp))

/-- VER REP RSV ATYP BND.ADDR BND.PORT. -/
def socks5ReadReply (host : Str) (port : Nat) : Socket.On (Option ClientError) Unit := do
  let hdr ← readOr "SOCKS5 connect read failed" 4
  if byteAt hdr 0 ≠ 0x05 then
    throw (proxyError ("SOCKS5 invalid version in connect reply: ".toList ++
      hexByte (byteAt hdr 0)))
  else if byteAt hdr 1 ≠ 0x00 then
    throw (proxyError ("SOCKS5 CONNECT to ".toList ++ hostPort host port ++ " failed: ".toList ++
      socks5ErrorText (byteAt hdr 1)))
  else do
    let addrLen ← socks5AddrLen (byteAt hdr 3)
    let _ ← readOr "SOCKS5 reply drain failed" (addrLen + 2)
    pure ()

def performSocks5 (host : Str) (port : Nat) (username password : Option Str) :
    Socket.On (Option ClientError) Unit := do
  socks5Negotiate username password
  socks5SendRequest host port
  socks5ReadReply host port

/-! ## What the handshake may be -/

/-- The proxy's side up to the choice of a method and its sub-negotiation. -/
inductive MethodReply (username password : Option Str) : List UInt8 → Prop
  | noAuth : MethodReply username password [0x05, 0x00]
  | userPass {u p : Str} (version : UInt8) : username = some u → password = some p →
      MethodReply username password [0x05, 0x02, version, 0x00]

/-- The reply to the request, with an address as long as its type has it. -/
inductive ConnectReply : List UInt8 → Prop
  | v4 (rsv : UInt8) (addr port : List UInt8) : addr.length = 4 → port.length = 2 →
      ConnectReply ([0x05, 0x00, rsv, 0x01] ++ (addr ++ port))
  | v6 (rsv : UInt8) (addr port : List UInt8) : addr.length = 16 → port.length = 2 →
      ConnectReply ([0x05, 0x00, rsv, 0x04] ++ (addr ++ port))
  | name (rsv len : UInt8) (addr port : List UInt8) : addr.length = len.toNat → port.length = 2 →
      ConnectReply ([0x05, 0x00, rsv, 0x03] ++ ([len] ++ (addr ++ port)))

/-- What may be written behind which replies, all of a message or the start of it. -/
inductive MayWrite (host : Str) (port : Nat) (username password : Option Str) :
    List UInt8 → List UInt8 → Prop
  | greeting {bytes : List UInt8} : bytes <+: [0x05, 0x01, 0x00] →
      MayWrite host port username password [] bytes
  | greetingWithCreds {u p : Str} {bytes : List UInt8} : username = some u → password = some p →
      bytes <+: [0x05, 0x02, 0x00, 0x02] → MayWrite host port username password [] bytes
  | credentials {u p : Str} {bytes : List UInt8} : username = some u → password = some p →
      bytes <+: socks5Auth u p → MayWrite host port username password [0x05, 0x02] bytes
  | request {replies request bytes : List UInt8} : MethodReply username password replies →
      socks5Request host port = .ok request → bytes <+: request →
      MayWrite host port username password replies bytes

variable {host : Str} {port : Nat} {username password : Option Str} {s₀ : Socket}

theorem mayWrite_greeting {bytes : List UInt8}
    (start : bytes <+: socks5Greeting (username.isSome && password.isSome)) :
    MayWrite host port username password [] bytes := by
  cases username with
  | none => exact .greeting start
  | some u =>
      cases password with
      | none => exact .greeting start
      | some p => exact .greetingWithCreds rfl rfl start

/-! ## Runs of the parts -/

@[spec]
theorem writeOr_spec (what : String) (bytes : List UInt8) :
    ⦃fun s => ⌜s = s₀⌝⦄ writeOr what bytes
    ⦃post⟨fun _ s => ⌜s₀.Wrote bytes s⌝, fun _ s => ⌜∃ n, s₀.Wrote (bytes.take n) s⌝⟩⦄ := by
  mvcgen [writeOr]
  case vc1 =>
    rename_i start same _ after
    subst same
    intro _ wrote
    exact wrote
  case vc2 =>
    rename_i start same fault after
    subst same
    rintro _ ⟨n, wrote⟩
    exact ⟨n, wrote⟩

@[spec]
theorem readOr_spec (what : String) (size : Nat) :
    ⦃fun s => ⌜s = s₀⌝⦄ readOr what size
    ⦃post⟨fun bytes s => ⌜bytes.length = size ∧ s₀.Gave bytes s⌝,
      fun _ s => ⌜∃ bytes, s₀.Gave bytes s⌝⟩⦄ := by
  mvcgen [readOr]

theorem eq_pair {bytes : List UInt8} (length : bytes.length = 2) :
    bytes = [byteAt bytes 0, byteAt bytes 1] := by
  obtain ⟨a, b, rfl⟩ := List.length_eq_two.mp length
  rfl

theorem socks5Authenticate_spec (chosen : s₀.received = [0x05, 0x02]) :
    ⦃fun s => ⌜s = s₀⌝⦄ socks5Authenticate username password
    ⦃post⟨fun _ s => ⌜∃ reply, MethodReply username password ([0x05, 0x02] ++ reply) ∧
        s₀.Went (MayWrite host port username password) reply s⌝,
      fun _ s => ⌜s₀.Within (MayWrite host port username password) s⌝⟩⦄ := by
  unfold socks5Authenticate
  split
  · rename_i u p
    have allowed : ∀ start, start <+: socks5Auth u p →
        MayWrite host port (some u) (some p) s₀.received start := by
      intro start front
      rw [chosen]
      exact .credentials rfl rfl front
    have whole := allowed _ List.prefix_rfl
    mvcgen
    case vc1 =>
      rename_i long start same
      subst same
      exact (Socket.Went.refl start).within
    case vc2 =>
      rename_i fits start same _ written wrote reply refused after gave
      subst same
      exact ((wrote.went whole).trans gave.2.went).within
    case vc3 =>
      rename_i fits start same _ written wrote reply accepted after gave
      subst same
      have status : byteAt reply 1 = 0x00 := not_not.mp accepted
      refine ⟨reply, ?_, (wrote.went whole).trans gave.2.went⟩
      rw [eq_pair gave.1, status]
      exact .userPass _ rfl rfl
    case vc4 =>
      rename_i fits start same _ written wrote fault after
      subst same
      intro broken
      exact (wrote.went whole).then_within (Socket.within_of_gave broken)
    case vc5 =>
      rename_i fits start same fault after
      subst same
      exact Socket.within_of_wrote allowed
  · mvcgen
    rename_i start same
    subst same
    exact (Socket.Went.refl start).within

theorem went_of_greeting {s₁ s₂ : Socket} {chosen : List UInt8} (fresh : s₀.received = [])
    (wrote : s₀.Wrote (socks5Greeting (username.isSome && password.isSome)) s₁)
    (gave : s₁.Gave chosen s₂) : s₀.Went (MayWrite host port username password) chosen s₂ := by
  apply (wrote.went _).trans gave.went
  rw [fresh]
  exact mayWrite_greeting List.prefix_rfl

theorem socks5Negotiate_spec (fresh : s₀.received = []) :
    ⦃fun s => ⌜s = s₀⌝⦄ socks5Negotiate username password
    ⦃post⟨fun _ s => ⌜∃ replies, MethodReply username password replies ∧
        s₀.Went (MayWrite host port username password) replies s⌝,
      fun _ s => ⌜s₀.Within (MayWrite host port username password) s⌝⟩⦄ := by
  have authenticate := fun s₀ chosen =>
    @socks5Authenticate_spec host port username password s₀ chosen
  unfold socks5Negotiate
  mvcgen [authenticate]
  case vc1 =>
    rename_i start same _ greeted wrote chosen bad after gave
    subst same
    exact (went_of_greeting fresh wrote gave.2).within
  case vc2 =>
    rename_i start same _ greeted wrote chosen version method after gave
    subst same
    refine ⟨chosen, ?_, went_of_greeting fresh wrote gave.2⟩
    rw [eq_pair gave.1, not_not.mp version, method]
    exact .noAuth
  case vc3 =>
    rename_i start same _ greeted wrote chosen version notNone method middle gave _ after
    subst same
    rintro ⟨reply, valid, went⟩
    have pair := eq_pair gave.1
    rw [not_not.mp version, method] at pair
    exact ⟨chosen ++ reply, pair ▸ valid, (went_of_greeting fresh wrote gave.2).trans went⟩
  case vc4 =>
    rename_i start same _ greeted wrote chosen version notNone method middle gave fault after
    subst same
    exact (went_of_greeting fresh wrote gave.2).then_within
  case vc5 =>
    rename_i start same _ greeted wrote chosen version notNone method
    subst same
    intro after length gave
    rw [gave.received, wrote.received, fresh, eq_pair length, not_not.mp version, method]
    rfl
  case vc6 =>
    rename_i start same _ greeted wrote chosen version notNone notCreds method after gave
    subst same
    exact (went_of_greeting fresh wrote gave.2).within
  case vc7 =>
    rename_i start same _ greeted wrote chosen version notNone notCreds notRefused after gave
    subst same
    exact (went_of_greeting fresh wrote gave.2).within
  case vc8 =>
    rename_i start same _ greeted wrote fault after
    subst same
    intro broken
    exact (went_of_greeting fresh wrote (Socket.Gave.refl greeted)).then_within
      (Socket.within_of_gave broken)
  case vc9 =>
    rename_i start same fault after
    subst same
    apply Socket.within_of_wrote
    intro front begins
    rw [fresh]
    exact mayWrite_greeting begins

/-- The request is among the writes, whole and behind these replies. -/
def Requested (host : Str) (port : Nat) (replies : List UInt8) (socket : Socket) : Prop :=
  ∃ request, socks5Request host port = .ok request ∧ (replies, request) ∈ socket.writes

theorem socks5SendRequest_spec (agreed : MethodReply username password s₀.received) :
    ⦃fun s => ⌜s = s₀⌝⦄ socks5SendRequest host port
    ⦃post⟨fun _ s => ⌜s₀.Went (MayWrite host port username password) [] s ∧
        Requested host port s₀.received s⌝,
      fun _ s => ⌜s₀.Within (MayWrite host port username password) s⌝⟩⦄ := by
  unfold socks5SendRequest
  split
  · mvcgen
    rename_i start same
    subst same
    exact (Socket.Went.refl start).within
  · rename_i request made
    have allowed : ∀ front, front <+: request →
        MayWrite host port username password s₀.received front :=
      fun front begins => .request agreed made begins
    mvcgen
    case vc1 =>
      rename_i start same _ after
      subst same
      intro wrote
      refine ⟨wrote.went (allowed _ List.prefix_rfl), request, made, ?_⟩
      rw [wrote.writes]
      exact List.mem_append_right _ List.mem_cons_self
    case vc2 =>
      rename_i start same fault after
      subst same
      exact Socket.within_of_wrote allowed

/-! ## The connect reply -/

/-- The part of BND.ADDR in front of the address itself. -/
inductive AddrLen (atyp : UInt8) : List UInt8 → Nat → Prop
  | v4 : atyp = 0x01 → AddrLen atyp [] 4
  | v6 : atyp = 0x04 → AddrLen atyp [] 16
  | name (len : UInt8) : atyp = 0x03 → AddrLen atyp [len] len.toNat

theorem socks5AddrLen_spec (atyp : UInt8) :
    ⦃fun s => ⌜s = s₀⌝⦄ socks5AddrLen atyp
    ⦃post⟨fun n s => ⌜∃ read, AddrLen atyp read n ∧ s₀.Gave read s⌝,
      fun _ s => ⌜∃ read, s₀.Gave read s⌝⟩⦄ := by
  unfold socks5AddrLen
  mvcgen
  case vc1 =>
    rename_i v4 start same
    subst same
    exact ⟨[], .v4 v4, .refl start⟩
  case vc2 =>
    rename_i _ v6 start same
    subst same
    exact ⟨[], .v6 v6, .refl start⟩
  case vc3 =>
    rename_i _ _ name start same lenByte after gave
    subst same
    obtain ⟨len, rfl⟩ := List.length_eq_one_iff.mp gave.1
    exact ⟨[len], .name len name, gave.2⟩
  case vc4 =>
    rename_i _ _ name start same fault after
    subst same
    exact id
  case vc5 =>
    rename_i _ _ _ start same
    subst same
    exact ⟨[], .refl start⟩

theorem connectReply_of_parts {hdr read tail : List UInt8} {n : Nat} (length : hdr.length = 4)
    (version : byteAt hdr 0 = 0x05) (rep : byteAt hdr 1 = 0x00)
    (addrLen : AddrLen (byteAt hdr 3) read n) (drained : tail.length = n + 2) :
    ConnectReply (hdr ++ (read ++ tail)) := by
  obtain ⟨ver, rest, rfl⟩ := List.exists_cons_of_length_eq_add_one length
  obtain ⟨code, rsv, atyp, rfl⟩ := List.length_eq_three.mp (Nat.succ.inj length)
  cases version
  cases rep
  -- BND.ADDR and BND.PORT
  have addr : (tail.take n).length = n := by rw [List.length_take]; omega
  have port : (tail.drop n).length = 2 := by rw [List.length_drop]; omega
  rw [← List.take_append_drop n tail]
  cases addrLen with
  | v4 is =>
      cases is
      exact .v4 rsv (tail.take 4) (tail.drop 4) addr port
  | v6 is =>
      cases is
      exact .v6 rsv (tail.take 16) (tail.drop 16) addr port
  | name len is =>
      cases is
      exact .name rsv len _ _ addr port

theorem socks5ReadReply_spec :
    ⦃fun s => ⌜s = s₀⌝⦄ socks5ReadReply host port
    ⦃post⟨fun _ s => ⌜∃ reply, ConnectReply reply ∧ s₀.Gave reply s⌝,
      fun _ s => ⌜∃ read, s₀.Gave read s⌝⟩⦄ := by
  unfold socks5ReadReply
  mvcgen [socks5AddrLen_spec]
  case vc1 =>
    rename_i start same hdr bad after gave
    subst same
    exact ⟨hdr, gave.2⟩
  case vc2 =>
    rename_i start same hdr version bad after gave
    subst same
    exact ⟨hdr, gave.2⟩
  case vc3 =>
    rename_i start same hdr version rep first gave n second measured tail after drained
    subst same
    obtain ⟨read, addrLen, gaveRead⟩ := measured
    exact ⟨hdr ++ (read ++ tail),
      connectReply_of_parts gave.1 (not_not.mp version) (not_not.mp rep) addrLen drained.1,
      gave.2.trans (gaveRead.trans drained.2)⟩
  case vc4 =>
    rename_i start same hdr version rep first gave n second measured fault after
    subst same
    obtain ⟨read, _, gaveRead⟩ := measured
    exact (gave.2.trans gaveRead).then_some
  case vc5 =>
    rename_i start same hdr version rep first gave fault after
    subst same
    exact gave.2.then_some
  case vc6 =>
    rename_i start same fault after
    subst same
    exact id

/-! ## The whole handshake -/

theorem performSocks5_spec (fresh : s₀.received = []) :
    ⦃fun s => ⌜s = s₀⌝⦄ performSocks5 host port username password
    ⦃post⟨fun _ s => ⌜∃ replies reply, MethodReply username password replies ∧
        ConnectReply reply ∧ Requested host port replies s ∧
        s₀.Went (MayWrite host port username password) (replies ++ reply) s⌝,
      fun _ s => ⌜s₀.Within (MayWrite host port username password) s⌝⟩⦄ := by
  have negotiate := @socks5Negotiate_spec host port username password s₀ fresh
  have sendRequest := fun s₀ agreed => @socks5SendRequest_spec host port username password s₀ agreed
  unfold performSocks5
  mvcgen [negotiate, sendRequest, socks5ReadReply_spec]
  case vc2 =>
    rename_i start same _ agreed negotiated
    obtain ⟨replies, valid, went⟩ := negotiated
    rw [went.received, fresh]
    exact valid
  case vc3 =>
    rename_i start same _ agreed negotiated _ requested sent _ after
    obtain ⟨replies, valid, went⟩ := negotiated
    obtain ⟨wrote, request, made, there⟩ := sent
    rintro ⟨reply, answers, gave⟩
    refine ⟨replies, reply, valid, answers, ⟨request, made, ?_⟩, went.trans (wrote.trans gave.went)⟩
    rw [went.received, fresh] at there
    rw [gave.writes]
    exact there
  case vc4 =>
    rename_i start same _ agreed negotiated _ requested sent fault after
    obtain ⟨replies, valid, went⟩ := negotiated
    intro broken
    exact (went.trans sent.1).then_within (Socket.within_of_gave broken)
  case vc5 =>
    rename_i start same _ agreed negotiated fault after
    obtain ⟨replies, valid, went⟩ := negotiated
    exact went.then_within

/-- In any run, broken off or not, each message is written at its own place. -/
theorem performSocks5_orderly (host : Str) (port : Nat) (username password : Option Str)
    (incoming : List Segment) (ending : Option SocketFault) (room : Option Nat)
    (refusal : SocketFault) :
    (Socket.run (performSocks5 host port username password)
        (Socket.opened incoming ending room refusal)).2.Orderly
      (MayWrite host port username password) := by
  obtain ⟨came, broke⟩ := Socket.run_of_triple
    (@performSocks5_spec host port username password
      (Socket.opened incoming ending room refusal) rfl) rfl
  have nothing : (Socket.opened incoming ending room refusal).Orderly
      (MayWrite host port username password) := by
    intro write there
    cases there
  cases result : (Socket.run (performSocks5 host port username password)
      (Socket.opened incoming ending room refusal)).1 with
  | ok value =>
      obtain ⟨replies, reply, _, _, _, went⟩ := came value result
      exact went.orderly nothing
  | error e =>
      obtain ⟨bytes, went⟩ := broke e result
      exact went.orderly nothing

/-- What is written behind a method reply is the request, or its start. -/
theorem MayWrite.behind_reply {replies bytes : List UInt8}
    (agreed : MethodReply username password replies)
    (allowed : MayWrite host port username password replies bytes) :
    ∃ request, socks5Request host port = .ok request ∧ bytes <+: request := by
  cases allowed with
  | greeting begins => cases agreed
  | greetingWithCreds user pass begins => cases agreed
  | credentials user pass begins => cases agreed
  | request _ made begins => exact ⟨_, made, begins⟩

/-- Whatever the proxy sends, however it is cut and wherever the connection breaks off:
the handshake comes out only behind a valid method reply and connect reply, which are
then all that was read, and every write was a message at its place. -/
theorem socks5_safe (host : Str) (port : Nat) (username password : Option Str)
    (incoming : List Segment) (ending : Option SocketFault) (room : Option Nat)
    (refusal : SocketFault) :
    (Opens (performSocks5 host port username password)
        (Socket.opened incoming ending room refusal) →
      ∃ replies reply, MethodReply username password replies ∧ ConnectReply reply ∧
        streamOf incoming = replies ++ reply ++
          (Socket.run (performSocks5 host port username password)
            (Socket.opened incoming ending room refusal)).2.unread) ∧
      (Socket.run (performSocks5 host port username password)
        (Socket.opened incoming ending room refusal)).2.Orderly
        (MayWrite host port username password) := by
  refine ⟨?_, performSocks5_orderly host port username password incoming ending room refusal⟩
  intro opens
  have came := (Socket.run_of_triple
    (@performSocks5_spec host port username password
      (Socket.opened incoming ending room refusal) rfl) rfl).1
  obtain ⟨replies, reply, valid, answers, _, went⟩ := came () opens
  exact ⟨replies, reply, valid, answers, went.unread⟩

example :
    (Socket.run (performSocks5 "target.example".toList 443 (some "alice".toList)
      (some "s3cret".toList)) (.opened (putBack
        [0x05, 0x02, 0x01, 0x00, 0x05, 0x00, 0x00, 0x01, 0, 0, 0, 0, 0, 0, 0x16] []) none none
        .stalled)).2.unread = [0x16] := by
  decide +kernel

/-! ## In `connect_stream` -/

/-- The exchange for a proxy. -/
def performProxy (plain : Char → Bool) (proxy : ProxyConfig) (host : Str) (port : Nat) :
    Socket.On (Option ClientError) Unit :=
  match proxy.scheme with
  | .http => performHttpConnect plain host port
  | .socks5 => performSocks5 host port proxy.username proxy.password

/-- A network whose proxy exchanges run on sockets. -/
def Network.withSockets (network : Network) (plain : Char → Bool) (socketOf : Stream → Socket) :
    Network :=
  { network with
    perform := fun proxy host port stream =>
      (Socket.run (performProxy plain proxy host port) (socketOf stream)).1 }

theorem enterProxy_ok_iff (network : Network) (plain : Char → Bool) (socketOf : Stream → Socket)
    (config : RequestConfig) (host : Str) (port : Nat) (tcp stream : Stream) (proxy : ProxyConfig) :
    enterProxy (network.withSockets plain socketOf) config host port tcp (some proxy) = .ok stream ↔
      stream = .proxied proxy.scheme host (some port) tcp ∧
        Opens (performProxy plain proxy host port) (socketOf tcp) := by
  unfold enterProxy
  rw [bind_ok]
  constructor
  · rintro ⟨_, performed, came⟩
    cases came
    exact ⟨rfl, mapError_ok.mp performed⟩
  · rintro ⟨rfl, opens⟩
    exact ⟨(), mapError_ok.mpr opens, rfl⟩

end Blasthttp.Client
