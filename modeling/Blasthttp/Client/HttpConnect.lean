/-
# Blasthttp.Client.HttpConnect -- `perform_http_connect`

The CONNECT exchange looks for the end of the proxy's head in whatever the reads bring
and forgets what they brought behind it.  Whether it comes out is a matter of the
stream alone; what the caller reads next is not: `httpConnect_clean_iff` says that the
tunnel begins where the head ends exactly when a read ends there too.
-/
import Blasthttp.Client.Stream
import Blasthttp.Lib.Search
import Blasthttp.Rust.Bytes
import Blasthttp.Rust.Socket

namespace Blasthttp.Client

open Blasthttp.Rust Blasthttp.Lib.Search Std.Do

set_option autoImplicit false
set_option mvcgen.warning false

/-! ## The exchange -/

/-- The error of a socket operation; `none` when it never returns. -/
def socketError (what : String) : SocketFault → Option ClientError
  | .failed e => some ⟨what.toList ++ ": ".toList ++ e, .connection⟩
  | .stalled => none

def proxyError (text : Str) : Option ClientError := some ⟨text, .connection⟩

def httpConnectRequest (host : Str) (port : Nat) : Str :=
  "CONNECT ".toList ++ hostPort host port ++ " HTTP/1.1\r\nHost: ".toList ++ hostPort host port ++
    "\r\n\r\n".toList

def crlfCrlf : List UInt8 := [0x0D, 0x0A, 0x0D, 0x0A]

def findCrlfCrlf (buf : List UInt8) : Option Nat := (windows 4 buf).findIdx? (· == crlfCrlf)

/-- The size of the buffer. -/
def connectLimit : Nat := 8192

/-- The reads, with what is in the buffer.  Each brings a byte at least, so that the
buffer is full before the fuel is gone. -/
def responseLoop : Nat → List UInt8 → Socket.On (Option ClientError) (List UInt8)
  | 0, _ => throw (proxyError "proxy CONNECT response exceeded 8KB".toList)
  | fuel + 1, buf => do
      if connectLimit ≤ buf.length then
        throw (proxyError "proxy CONNECT response exceeded 8KB".toList)
      else
        let bytes ← ExceptT.adapt (socketError "proxy CONNECT read failed")
          (Socket.read (connectLimit - buf.length))
        if bytes.isEmpty then
          throw (proxyError "proxy closed connection during CONNECT".toList)
        else if (findCrlfCrlf (buf ++ bytes)).isSome then
          pure (buf ++ bytes)
        else
          responseLoop fuel (buf ++ bytes)

def statusLine (response : List UInt8) : List UInt8 :=
  response.takeWhile fun b => b ≠ 0x0D && b ≠ 0x0A

/-- What the first line has to say. -/
def checkStatus (plain : Char → Bool) (host : Str) (port : Nat) (response : List UInt8) :
    Except ClientError Unit :=
  match splitN 0x20 3 (statusLine response) with
  | _ :: code :: _ =>
      match (fromUtf8 code).bind (parseUnsigned 16) with
      | none =>
          .error
            ⟨"proxy returned unparseable status code: ".toList ++
              debugText plain (fromUtf8Lossy code), .connection⟩
      | some status =>
          if status ≠ 200 then
            .error
              ⟨"proxy rejected CONNECT to ".toList ++ hostPort host port ++ " with status: ".toList ++
                fromUtf8Lossy (statusLine response), .connection⟩
          else .ok ()
  | _ =>
      .error
        ⟨"proxy returned malformed CONNECT response: ".toList ++
          debugText plain (fromUtf8Lossy (statusLine response)), .connection⟩

def performHttpConnect (plain : Char → Bool) (host : Str) (port : Nat) :
    Socket.On (Option ClientError) Unit := do
  ExceptT.adapt (socketError "proxy CONNECT write failed")
    (Socket.writeAll (utf8Bytes (httpConnectRequest host port)))
  let response ← responseLoop (connectLimit + 1) []
  match checkStatus plain host port response with
  | .ok () => pure ()
  | .error e => throw (some e)

/-! ## Heads -/

/-- `p` is the position behind the first empty line. -/
def HeadEnds (stream : List UInt8) (p : Nat) : Prop :=
  ∃ i, FirstAt crlfCrlf stream i ∧ p = i + 4

theorem headEnds_of_find {buf : List UInt8} {i : Nat} (found : findCrlfCrlf buf = some i) :
    HeadEnds buf (i + 4) :=
  ⟨i, (position_windows_iff (by decide)).mp found, rfl⟩

theorem HeadEnds.unique {stream : List UInt8} {p q : Nat} (first : HeadEnds stream p)
    (other : HeadEnds stream q) : p = q := by
  obtain ⟨i, here, rfl⟩ := first
  obtain ⟨j, there, rfl⟩ := other
  rw [here.unique there]

theorem HeadEnds.le_length {stream : List UInt8} {p : Nat} (ends : HeadEnds stream p) :
    p ≤ stream.length := by
  obtain ⟨i, here, rfl⟩ := ends
  exact here.here.inside (by decide)

/-- Reading less than the stream. -/
theorem headEnds_append_iff {buf : List UInt8} {p : Nat} (rest : List UInt8) :
    HeadEnds buf p ↔ HeadEnds (buf ++ rest) p ∧ p ≤ buf.length := by
  have cut : (buf ++ rest).take buf.length = buf := List.take_left
  have less : ∀ i, FirstAt crlfCrlf ((buf ++ rest).take buf.length) i ↔
      FirstAt crlfCrlf (buf ++ rest) i ∧ i + 4 ≤ buf.length :=
    fun i => firstAt_take_iff (by decide) buf.length
  rw [cut] at less
  constructor
  · rintro ⟨i, here, rfl⟩
    exact ⟨⟨i, ((less i).mp here).1, rfl⟩, ((less i).mp here).2⟩
  · rintro ⟨⟨i, here, rfl⟩, inside⟩
    exact ⟨i, (less i).mpr ⟨here, inside⟩, rfl⟩

/-- A head that has not been found yet ends later. -/
theorem HeadEnds.later {buf rest : List UInt8} {p : Nat} (ends : HeadEnds (buf ++ rest) p)
    (unfound : findCrlfCrlf buf = none) : buf.length < p := by
  by_contra early
  obtain ⟨i, here, same⟩ := (headEnds_append_iff rest).mpr ⟨ends, Nat.le_of_not_lt early⟩
  have found : findCrlfCrlf buf = some i := (position_windows_iff (by decide)).mpr here
  rw [unfound] at found
  cases found

/-- Nothing behind the first line counts. -/
theorem checkStatus_append {buf : List UInt8} {p : Nat} (ends : HeadEnds buf p)
    (plain : Char → Bool) (host : Str) (port : Nat) (rest : List UInt8) :
    checkStatus plain host port (buf ++ rest) = checkStatus plain host port buf := by
  obtain ⟨i, here, rfl⟩ := ends
  have stands : (buf.drop i).take 4 = crlfCrlf := here.here
  have there : (0x0D : UInt8) ∈ buf := by
    apply List.mem_of_mem_drop
    apply List.mem_of_mem_take (i := 4)
    rw [stands]
    decide
  have line : statusLine (buf ++ rest) = statusLine buf := by
    unfold statusLine
    rw [List.takeWhile_append, if_neg]
    intro whole
    have itself : buf.takeWhile (fun b => b ≠ 0x0D && b ≠ 0x0A) = buf :=
      (List.takeWhile_prefix _).eq_of_length whole
    exact absurd (List.takeWhile_eq_self_iff.mp itself _ there) (by decide)
  unfold checkStatus
  rw [line]

/-! ## Segments -/

/-- A segment of the stream ends at `p`: what a read returns there ends there. -/
def EndsSegment (incoming : List Segment) (p : Nat) : Prop :=
  ∃ before after, incoming = before ++ after ∧ (streamOf before).length = p

theorem endsSegment_cons {segment : Segment} {rest : List Segment} {p : Nat} (behind : 0 < p) :
    EndsSegment (segment :: rest) p ↔
      segment.bytes.length ≤ p ∧ EndsSegment rest (p - segment.bytes.length) := by
  constructor
  · rintro ⟨before, after, cut, rfl⟩
    cases before with
    | nil => exact absurd behind (Nat.lt_irrefl 0)
    | cons first more =>
        cases cut
        rw [streamOf_cons, List.length_append]
        exact ⟨Nat.le_add_right _ _, more, after, rfl, (Nat.add_sub_cancel_left _ _).symm⟩
  · rintro ⟨inside, before, after, rfl, count⟩
    refine ⟨segment :: before, after, rfl, ?_⟩
    rw [streamOf_cons, List.length_append, count]
    omega

/-! ## One run -/

/-- What the loop leaves when it comes out: a head is in the buffer, and where it ends
the buffer ends if a segment does, or if that is all the buffer holds. -/
structure HeadRead (start : Socket) (buf response : List UInt8) (after : Socket) (p : Nat) :
    Prop where
  ends : HeadEnds (buf ++ start.unread) p
  inside : p ≤ response.length
  fits : response.length ≤ connectLimit
  kept : buf ++ start.unread = response ++ after.unread
  exactly : response.length = p ↔
    p = connectLimit ∨ EndsSegment start.incoming (p - buf.length)

variable {s₀ : Socket} {buf : List UInt8} {segment : Segment} {rest : List Segment}

/-- The read that brings the end of the head. -/
theorem headRead_of_found {i : Nat} (there : s₀.incoming = segment :: rest)
    (unfound : findCrlfCrlf buf = none) (short : buf.length < connectLimit)
    (found : findCrlfCrlf (buf ++ segment.bytes.take (connectLimit - buf.length)) = some i) :
    HeadRead s₀ buf (buf ++ segment.bytes.take (connectLimit - buf.length))
      (s₀.advance (connectLimit - buf.length) segment rest) (i + 4) := by
  have inBuffer := headEnds_of_find found
  have inside := inBuffer.le_length
  have gave := Socket.advance_gave there (connectLimit - buf.length)
  have kept : buf ++ s₀.unread = buf ++ segment.bytes.take (connectLimit - buf.length) ++
      (s₀.advance (connectLimit - buf.length) segment rest).unread := by
    rw [gave.unread, List.append_assoc]
  have ends : HeadEnds (buf ++ s₀.unread) (i + 4) := by
    rw [kept]
    exact ((headEnds_append_iff _).mp inBuffer).1
  have later := ends.later unfound
  have count : (segment.bytes.take (connectLimit - buf.length)).length =
      min (connectLimit - buf.length) segment.bytes.length := List.length_take
  rw [List.length_append, count] at inside
  refine ⟨ends, ?_, ?_, kept, ?_⟩
  · rw [List.length_append, count]
    exact inside
  · rw [List.length_append, count]
    omega
  · rw [List.length_append, count, there, endsSegment_cons (by omega)]
    constructor
    · intro same
      by_cases whole : segment.bytes.length ≤ connectLimit - buf.length
      · right
        have nothing : i + 4 - buf.length - segment.bytes.length = 0 := by omega
        rw [nothing]
        exact ⟨by omega, [], rest, rfl, rfl⟩
      · left
        omega
    · rintro (full | ⟨covered, _⟩)
      · omega
      · omega

/-- A read that does not bring it, in front of the rest of the run. -/
theorem HeadRead.behind {response : List UInt8} {after : Socket} {p : Nat}
    (there : s₀.incoming = segment :: rest)
    (unfound : findCrlfCrlf (buf ++ segment.bytes.take (connectLimit - buf.length)) = none)
    (read : HeadRead (s₀.advance (connectLimit - buf.length) segment rest)
      (buf ++ segment.bytes.take (connectLimit - buf.length)) response after p) :
    HeadRead s₀ buf response after p := by
  have gave := Socket.advance_gave there (connectLimit - buf.length)
  have kept : buf ++ segment.bytes.take (connectLimit - buf.length) ++
      (s₀.advance (connectLimit - buf.length) segment rest).unread = buf ++ s₀.unread := by
    rw [gave.unread, List.append_assoc]
  have later := read.ends.later unfound
  have inside := read.inside
  have fits := read.fits
  have exactly := read.exactly
  have count : (segment.bytes.take (connectLimit - buf.length)).length =
      min (connectLimit - buf.length) segment.bytes.length := List.length_take
  rw [List.length_append, count] at later exactly
  -- the buffer is not full, so the segment is used up
  have whole : segment.bytes.length ≤ connectLimit - buf.length := by omega
  have incoming : (s₀.advance (connectLimit - buf.length) segment rest).incoming = rest := by
    show putBack (segment.bytes.drop (connectLimit - buf.length)) rest = rest
    rw [List.drop_eq_nil_of_le whole]
    rfl
  have distance : p - (buf.length + min (connectLimit - buf.length) segment.bytes.length) =
      p - buf.length - segment.bytes.length := by omega
  rw [incoming, distance] at exactly
  refine ⟨kept ▸ read.ends, inside, fits, kept ▸ read.kept, exactly.trans ?_⟩
  rw [there, endsSegment_cons (by omega)]
  have covered : segment.bytes.length ≤ p - buf.length := by omega
  simp only [covered, true_and]

theorem not_headEnds_of_empty (nothing : s₀.incoming = []) (unfound : findCrlfCrlf buf = none)
    (p : Nat) : ¬ HeadEnds (buf ++ s₀.unread) p := by
  intro ends
  have later := ends.later unfound
  have inside := ends.le_length
  rw [Socket.unread, nothing, streamOf_nil, List.append_nil] at inside
  omega

theorem responseLoop_spec (fuel : Nat) (buf : List UInt8) (unfound : findCrlfCrlf buf = none)
    (short : buf.length ≤ connectLimit) (enough : connectLimit < buf.length + fuel) :
    ⦃fun s => ⌜s = s₀⌝⦄ responseLoop fuel buf
    ⦃post⟨fun response s => ⌜∃ p, HeadRead s₀ buf response s p⌝,
      fun _ _ => ⌜∀ p, HeadEnds (buf ++ s₀.unread) p → connectLimit < p⌝⟩⦄ := by
  induction fuel generalizing buf s₀ with
  | zero => omega
  | succ fuel ih =>
      unfold responseLoop
      mvcgen [ih]
      case vc1 =>
        -- the buffer is full
        rename_i full start same
        intro p ends
        exact Nat.lt_of_le_of_lt full (ends.later unfound)
      case vc2 =>
        rename_i room start same bytes empty after step
        subst same
        intro p ends
        cases step with
        | ended nothing => exact absurd ends (not_headEnds_of_empty nothing unfound p)
        | arrived segment rest there =>
            exact absurd (List.isEmpty_iff.mp empty) (Segment.take_ne_nil segment (by omega))
      case vc3 =>
        rename_i room start same bytes some_ found after step
        subst same
        obtain ⟨i, here⟩ := Option.isSome_iff_exists.mp found
        cases step with
        | ended nothing => exact absurd rfl some_
        | arrived segment rest there =>
            exact ⟨i + 4, headRead_of_found there unfound (by omega) here⟩
      case vc4 =>
        rename_i room start same bytes some_ found middle step response after
        subst same
        rintro ⟨p, read⟩
        cases step with
        | ended nothing => exact absurd rfl some_
        | arrived segment rest there =>
            exact ⟨p, read.behind there (Option.not_isSome_iff_eq_none.mp found)⟩
      case vc5 =>
        rename_i room start same bytes some_ found middle step fault after
        subst same
        intro late p ends
        apply late
        rw [List.append_assoc, ← step.gave.2.unread]
        exact ends
      case vc6 =>
        rename_i room start same bytes some_ found
        intro after step
        exact Option.not_isSome_iff_eq_none.mp found
      case vc7 =>
        rename_i room start same bytes some_ found
        intro after step
        have length := step.gave.1
        rw [List.length_append]
        omega
      case vc8 =>
        rename_i room start same bytes some_ found
        intro after step
        have positive := List.length_pos_iff.mpr (mt List.isEmpty_iff.mpr some_)
        rw [List.length_append]
        omega
      case vc9 =>
        rename_i room start same fault after
        subst same
        intro nothing _ p ends
        exact absurd ends (not_headEnds_of_empty nothing unfound p)

/-! ## The whole exchange -/

/-- The proxy opened the tunnel, with a head that ends at `p`. -/
structure AcceptedAt (plain : Char → Bool) (host : Str) (port : Nat) (stream : List UInt8)
    (p : Nat) : Prop where
  ends : HeadEnds stream p
  fits : p ≤ connectLimit
  status : checkStatus plain host port (stream.take p) = .ok ()

theorem HeadRead.checkStatus_eq {response : List UInt8} {after : Socket} {p : Nat}
    (read : HeadRead s₀ [] response after p) (plain : Char → Bool) (host : Str) (port : Nat) :
    checkStatus plain host port response = checkStatus plain host port (s₀.unread.take p) := by
  have kept : s₀.unread = response ++ after.unread := read.kept
  have front : s₀.unread.take p = response.take p := by
    rw [kept, List.take_append_of_le_length read.inside]
  have ends : HeadEnds (response.take p) p := by
    rw [headEnds_append_iff (response.drop p ++ after.unread), ← List.append_assoc,
      List.take_append_drop, List.length_take]
    exact ⟨read.kept ▸ read.ends, by have := read.inside; omega⟩
  have cut := checkStatus_append ends plain host port (response.drop p)
  rw [List.take_append_drop] at cut
  rw [front, cut]

/-- Where a run that came out leaves the stream. -/
structure Tunneled (plain : Char → Bool) (host : Str) (port : Nat) (start after : Socket)
    (p consumed : Nat) : Prop where
  accepted : AcceptedAt plain host port start.unread p
  covers : p ≤ consumed
  inside : consumed ≤ start.unread.length
  next : after.unread = start.unread.drop consumed
  exactly : consumed = p ↔ p = connectLimit ∨ EndsSegment start.incoming p

theorem HeadRead.tunneled {s₁ after : Socket} {response : List UInt8} {p : Nat}
    (read : HeadRead s₁ [] response after p) (same : s₁.incoming = s₀.incoming)
    {plain : Char → Bool} {host : Str} {port : Nat}
    (status : checkStatus plain host port response = .ok ()) :
    Tunneled plain host port s₀ after p response.length := by
  have unread : s₁.unread = s₀.unread := congrArg streamOf same
  have kept : s₁.unread = response ++ after.unread := read.kept
  refine ⟨⟨unread ▸ read.ends, read.inside.trans read.fits, ?_⟩, read.inside, ?_, ?_, ?_⟩
  · rw [← unread, ← read.checkStatus_eq]
    exact status
  · rw [← unread, kept, List.length_append]
    exact Nat.le_add_right _ _
  · rw [← unread, kept, List.drop_left]
  · rw [← same]
    exact read.exactly

theorem HeadRead.accepted_status {s₁ after : Socket} {response : List UInt8} {p q : Nat}
    (read : HeadRead s₁ [] response after p) (same : s₁.incoming = s₀.incoming)
    {plain : Char → Bool} {host : Str} {port : Nat}
    (accepted : AcceptedAt plain host port s₀.unread q) :
    checkStatus plain host port response = .ok () := by
  have unread : s₁.unread = s₀.unread := congrArg streamOf same
  have ends : HeadEnds s₀.unread p := unread ▸ read.ends
  rw [read.checkStatus_eq, unread, ends.unique accepted.ends]
  exact accepted.status

theorem performHttpConnect_spec (plain : Char → Bool) (host : Str) (port : Nat) :
    ⦃fun s => ⌜s = s₀⌝⦄ performHttpConnect plain host port
    ⦃post⟨fun _ s => ⌜s₀.Takes (utf8Bytes (httpConnectRequest host port)) ∧
        ∃ p consumed, Tunneled plain host port s₀ s p consumed⌝,
      fun _ _ => ⌜¬ (s₀.Takes (utf8Bytes (httpConnectRequest host port)) ∧
        ∃ p, AcceptedAt plain host port s₀.unread p)⌝⟩⦄ := by
  mvcgen [performHttpConnect, responseLoop_spec]
  case vc4 =>
    rename_i start same _ written wrote response status after came
    subst same
    obtain ⟨p, read⟩ := came
    exact ⟨wrote.1, p, response.length, read.tunneled wrote.2.incoming status⟩
  case vc5 =>
    rename_i start same _ written wrote response e status after came
    subst same
    obtain ⟨p, read⟩ := came
    rintro ⟨takes, q, accepted⟩
    rw [read.accepted_status wrote.2.incoming accepted] at status
    cases status
  case vc6 =>
    rename_i start same _ written wrote fault after
    subst same
    rintro late ⟨takes, p, accepted⟩
    have unread : written.unread = start.unread := congrArg streamOf wrote.2.incoming
    exact absurd accepted.fits (Nat.not_le_of_lt (late p (unread ▸ accepted.ends)))
  case vc7 =>
    rename_i start same fault after
    subst same
    rintro refused _ ⟨takes, _⟩
    exact refused takes

/-! ## The tunnel -/

/-- The exchange comes out. -/
def Opens (perform : Socket.On (Option ClientError) Unit) (socket : Socket) : Prop :=
  (Socket.run perform socket).1 = .ok ()

theorem opens_iff (plain : Char → Bool) (host : Str) (port : Nat) (socket : Socket) :
    Opens (performHttpConnect plain host port) socket ↔
      socket.Takes (utf8Bytes (httpConnectRequest host port)) ∧
        ∃ p, AcceptedAt plain host port socket.unread p := by
  obtain ⟨came, broke⟩ := Socket.run_of_triple
    (@performHttpConnect_spec socket plain host port) rfl
  constructor
  · intro opens
    obtain ⟨takes, p, _, tunneled⟩ := came () opens
    exact ⟨takes, p, tunneled.accepted⟩
  · intro accepted
    cases result : (Socket.run (performHttpConnect plain host port) socket).1 with
    | ok value => exact result
    | error e => exact absurd accepted (broke e result)

/-- The tunnel is byte-transparent: how the stream is cut does not change whether it
opens, and what is read next is what stands behind the head. -/
structure CleanTunnel (perform : Socket.On (Option ClientError) Unit) (socket : Socket) : Prop where
  streamOnly : ∀ other : Socket, other.unread = socket.unread → other.room = socket.room →
    (Opens perform socket ↔ Opens perform other)
  nextByte : Opens perform socket → ∃ p, HeadEnds socket.unread p ∧
    (Socket.run perform socket).2.unread = socket.unread.drop p

/-- The tunnel is clean exactly when the head of an accepted stream ends a segment, or
fills the buffer. -/
theorem httpConnect_clean_iff (plain : Char → Bool) (host : Str) (port : Nat) (socket : Socket) :
    CleanTunnel (performHttpConnect plain host port) socket ↔
      (socket.Takes (utf8Bytes (httpConnectRequest host port)) →
        ∀ p, AcceptedAt plain host port socket.unread p →
          p = connectLimit ∨ EndsSegment socket.incoming p) := by
  obtain ⟨came, _⟩ := Socket.run_of_triple
    (@performHttpConnect_spec socket plain host port) rfl
  constructor
  · intro clean takes p accepted
    have opens := (opens_iff plain host port socket).mpr ⟨takes, p, accepted⟩
    obtain ⟨q, ends, next⟩ := clean.nextByte opens
    obtain ⟨_, r, consumed, tunneled⟩ := came () opens
    obtain rfl := ends.unique accepted.ends
    obtain rfl := tunneled.accepted.ends.unique ends
    apply tunneled.exactly.mp
    have lengths := congrArg List.length (tunneled.next.symm.trans next)
    rw [List.length_drop, List.length_drop] at lengths
    have covers := tunneled.covers
    have inside := tunneled.inside
    omega
  · intro fits
    refine ⟨?_, ?_⟩
    · intro other same room
      rw [opens_iff, opens_iff, same, Socket.Takes, Socket.Takes, room]
    · intro opens
      obtain ⟨takes, p, consumed, tunneled⟩ := came () opens
      refine ⟨p, tunneled.accepted.ends, ?_⟩
      rw [tunneled.next, tunneled.exactly.mpr (fits takes p tunneled.accepted)]

/-- A proxy whose answer and the first bytes of the tunnel arrive together. -/
def eagerProxy : Socket :=
  .opened (putBack (utf8Bytes "HTTP/1.1 200 OK\r\n\r\nSSH-2.0".toList) []) none none .stalled

theorem eager_tunnel_not_clean :
    ¬ CleanTunnel (performHttpConnect (fun _ => true) "host".toList 22) eagerProxy := by
  intro clean
  obtain ⟨p, ends, next⟩ := clean.nextByte (by rfl)
  obtain rfl := ends.unique (headEnds_of_find (i := 15) (by decide))
  exact absurd next (by decide)

end Blasthttp.Client
