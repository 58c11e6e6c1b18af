/-
# Blasthttp.Client.Raw -- `RawConnection`, shared by any number of calls

The handle keeps its stream behind an async mutex, so that calls made at the same time
take turns at it; a turn is the whole of a call's work, from the check that the stream is
still there to the last byte.  Writes and reads go piece by piece, and fail or are given
up in the middle.  `sendBytes_serial` says what the peer gets of it all, `readRaw_serial`
what the callers get, `close_final` what is left once the stream is gone, and
`raw_stuck_iff` when nobody can go on without the peer.
-/
import Blasthttp.Client.Request
import Blasthttp.Lib.Guarded

namespace Blasthttp.Client

open Blasthttp.Rust Blasthttp.Lib.Runs Blasthttp.Lib.Guarded

set_option autoImplicit false

/-! ## The stream and the calls -/

/-- The stream of a connection, and the peer at its other end. -/
structure RawStream where
  /-- The connection still has it. -/
  isOpen : Bool
  /-- What has been written to it. -/
  written : List UInt8
  /-- How many bytes more it takes for now. -/
  room : Nat
  /-- What the peer has sent and nobody has read. -/
  incoming : List UInt8
  /-- What has been read from it. -/
  received : List UInt8
  /-- The peer sends nothing more. -/
  ended : Bool
  /-- A read into no room at all returns at once, as over TLS, and not with the next bytes. -/
  eager : Bool
  /-- How many bytes a shutdown writes before it ends: an alert over TLS, none over TCP. -/
  farewell : Nat
  deriving DecidableEq

def RawStream.connected (room : Nat) (eager : Bool) (farewell : Nat) : RawStream :=
  ⟨true, [], room, [], [], false, eager, farewell⟩

inductive RawCall where
  | sendBytes (data : List UInt8)
  | readRaw (maxBytes : Nat) (timeoutMs : Option Nat)
  | close
  deriving DecidableEq

/-- What the calls return when they do not fail. -/
inductive RawReturn where
  | sent
  | bytes (bytes : List UInt8)
  | closed
  deriving DecidableEq

abbrev RawOut := Except ClientError RawReturn

/-- Where the call that has the stream is. -/
inductive RawHeld where
  /-- In `write_all`, or in `flush` when all of `data` is out. -/
  | writing (data : List UInt8) (count : Nat)
  | reading (maxBytes : Nat) (timeoutMs : Option Nat)
  | shutting
  deriving DecidableEq

inductive RawMove where
  | wrote (n : Nat)
  | writeFailed (text : Str)
  | flushed
  | flushFailed (text : Str)
  | got (n : Nat)
  | readFailed (text : Str)
  | timedOut
  | shutDown
  | shutFailed

/-- What the peer and the network do. -/
inductive RawEvent where
  | sends (bytes : List UInt8)
  | ends
  | takes (n : Nat)

/-- `ClientError::connection`. -/
def connectionFailed (what text : Str) : ClientError := ⟨what ++ ": ".toList ++ text, .connection⟩

def closedError : ClientError := ⟨"connection is closed".toList, .connection⟩

/-- What a call does first with the lock: it looks whether there is a stream. -/
def rawEnter (stream : RawStream) : RawCall → RawStream × (RawHeld ⊕ RawOut)
  | .sendBytes data =>
      if stream.isOpen then (stream, .inl (.writing data 0)) else (stream, .inr (.error closedError))
  | .readRaw maxBytes timeoutMs =>
      if stream.isOpen then (stream, .inl (.reading maxBytes timeoutMs))
      else (stream, .inr (.error closedError))
  | .close =>
      if stream.isOpen then ({ stream with isOpen := false }, .inl .shutting)
      else (stream, .inr (.ok .closed))

/-- A read of `n` bytes is possible: some that are there, none at the end, none into no room. -/
def Readable (stream : RawStream) (maxBytes n : Nat) : Prop :=
  (0 < n ∧ n ≤ maxBytes ∧ n ≤ stream.incoming.length) ∨
    (n = 0 ∧ stream.incoming = [] ∧ stream.ended = true) ∨
      (n = 0 ∧ maxBytes = 0 ∧ (stream.eager = true ∨ stream.incoming ≠ []))

instance (stream : RawStream) (maxBytes n : Nat) : Decidable (Readable stream maxBytes n) :=
  inferInstanceAs (Decidable (_ ∨ _))

def rawMove (stream : RawStream) : RawHeld → RawMove → Option (RawStream × (RawHeld ⊕ RawOut))
  | .writing data count, .wrote n =>
      if data.length ≤ count then none
      else if n = 0 then
        some (stream, .inr (.error (connectionFailed "write failed".toList "write zero".toList)))
      else if n ≤ stream.room ∧ count + n ≤ data.length then
        some ({ stream with
          written := stream.written ++ (data.drop count).take n
          room := stream.room - n }, .inl (.writing data (count + n)))
      else none
  | .writing data count, .writeFailed text =>
      if data.length ≤ count then none
      else some (stream, .inr (.error (connectionFailed "write failed".toList text)))
  | .writing data count, .flushed =>
      if data.length ≤ count then some (stream, .inr (.ok .sent)) else none
  | .writing data count, .flushFailed text =>
      if data.length ≤ count then
        some (stream, .inr (.error (connectionFailed "flush failed".toList text)))
      else none
  | .reading maxBytes _, .got n =>
      if Readable stream maxBytes n then
        some ({ stream with
          incoming := stream.incoming.drop n
          received := stream.received ++ stream.incoming.take n },
          .inr (.ok (.bytes (stream.incoming.take n))))
      else none
  | .reading _ _, .readFailed text =>
      some (stream, .inr (.error (connectionFailed "read failed".toList text)))
  | .reading _ (some _), .timedOut => some (stream, .inr (.ok (.bytes [])))
  | .shutting, .shutDown =>
      if stream.farewell ≤ stream.room then
        some ({ stream with room := stream.room - stream.farewell }, .inr (.ok .closed))
      else none
  -- `let _ =`: nobody hears of it
  | .shutting, .shutFailed => some (stream, .inr (.ok .closed))
  | _, _ => none

def rawHappen (stream : RawStream) : RawEvent → Option RawStream
  | .sends bytes =>
      if stream.ended then none else some { stream with incoming := stream.incoming ++ bytes }
  | .ends => some { stream with ended := true }
  | .takes n => some { stream with room := stream.room + n }

def rawConnection : Object RawStream RawCall RawHeld RawOut RawMove RawEvent where
  enter := rawEnter
  move := rawMove
  happen := rawHappen

abbrev RawMonitor := Monitor RawStream RawCall RawHeld RawOut

abbrev RawAction := Lib.Guarded.Action RawCall RawMove RawEvent

/-! ## What a call does -/

/-- The ways a call with the lock goes on. -/
inductive RawMoved (stream : RawStream) :
    RawHeld → RawMove → RawStream → RawHeld ⊕ RawOut → Prop where
  | wrote {data : List UInt8} {count n : Nat} (some_ : 0 < n) (room : n ≤ stream.room)
      (inside : count + n ≤ data.length) :
      RawMoved stream (.writing data count) (.wrote n)
        { stream with
          written := stream.written ++ (data.drop count).take n
          room := stream.room - n }
        (.inl (.writing data (count + n)))
  | unsent {data : List UInt8} {count : Nat} (m : RawMove) (error : ClientError) :
      RawMoved stream (.writing data count) m stream (.inr (.error error))
  | flushed {data : List UInt8} {count : Nat} (all : data.length ≤ count) :
      RawMoved stream (.writing data count) .flushed stream (.inr (.ok .sent))
  | got {maxBytes n : Nat} {timeoutMs : Option Nat} (readable : Readable stream maxBytes n) :
      RawMoved stream (.reading maxBytes timeoutMs) (.got n)
        { stream with
          incoming := stream.incoming.drop n
          received := stream.received ++ stream.incoming.take n }
        (.inr (.ok (.bytes (stream.incoming.take n))))
  | unread {maxBytes : Nat} {timeoutMs : Option Nat} (m : RawMove) (error : ClientError) :
      RawMoved stream (.reading maxBytes timeoutMs) m stream (.inr (.error error))
  | timedOut {maxBytes : Nat} (ms : Nat) :
      RawMoved stream (.reading maxBytes (some ms)) .timedOut stream (.inr (.ok (.bytes [])))
  | shutDown (room : stream.farewell ≤ stream.room) :
      RawMoved stream .shutting .shutDown { stream with room := stream.room - stream.farewell }
        (.inr (.ok .closed))
  | shutFailed : RawMoved stream .shutting .shutFailed stream (.inr (.ok .closed))

theorem rawMove_cases {stream after : RawStream} {held : RawHeld} {m : RawMove}
    {stage : RawHeld ⊕ RawOut} (moved : rawMove stream held m = some (after, stage)) :
    RawMoved stream held m after stage := by
  unfold rawMove at moved
  split at moved
  · rename_i data count n
    split at moved
    · cases moved
    split at moved
    · cases moved
      exact .unsent _ _
    split at moved
    · rename_i some_ fits
      cases moved
      exact .wrote (Nat.pos_of_ne_zero some_) fits.1 fits.2
    · cases moved
  · split at moved
    · cases moved
    · cases moved
      exact .unsent _ _
  · split at moved
    · rename_i all
      cases moved
      exact .flushed all
    · cases moved
  · split at moved
    · cases moved
      exact .unsent _ _
    · cases moved
  · split at moved
    · rename_i readable
      cases moved
      exact .got readable
    · cases moved
  · cases moved
    exact .unread _ _
  · cases moved
    exact .timedOut _
  · split at moved
    · rename_i room
      cases moved
      exact .shutDown room
    · cases moved
  · cases moved
    exact .shutFailed
  · cases moved

/-- The ways a call begins. -/
inductive RawEntered (stream : RawStream) :
    RawCall → RawStream → RawHeld ⊕ RawOut → Prop where
  | sendBytes (data : List UInt8) (opened : stream.isOpen = true) :
      RawEntered stream (.sendBytes data) stream (.inl (.writing data 0))
  | readRaw (maxBytes : Nat) (timeoutMs : Option Nat) (opened : stream.isOpen = true) :
      RawEntered stream (.readRaw maxBytes timeoutMs) stream (.inl (.reading maxBytes timeoutMs))
  | close (opened : stream.isOpen = true) :
      RawEntered stream .close { stream with isOpen := false } (.inl .shutting)
  | refused {c : RawCall} (closed : stream.isOpen = false) (other : c ≠ .close) :
      RawEntered stream c stream (.inr (.error closedError))
  | closed (closed : stream.isOpen = false) : RawEntered stream .close stream (.inr (.ok .closed))

theorem rawEnter_cases {stream after : RawStream} {c : RawCall} {stage : RawHeld ⊕ RawOut}
    (entered : rawEnter stream c = (after, stage)) : RawEntered stream c after stage := by
  cases open_ : stream.isOpen with
  | true =>
      cases c with
      | sendBytes data =>
          simp only [rawEnter, open_, if_true] at entered
          cases entered
          exact .sendBytes data open_
      | readRaw maxBytes timeoutMs =>
          simp only [rawEnter, open_, if_true] at entered
          cases entered
          exact .readRaw maxBytes timeoutMs open_
      | close =>
          simp only [rawEnter, open_, if_true] at entered
          cases entered
          exact .close open_
  | false =>
      cases c with
      | sendBytes data =>
          simp only [rawEnter, open_, Bool.false_eq_true, if_false] at entered
          cases entered
          exact .refused open_ nofun
      | readRaw maxBytes timeoutMs =>
          simp only [rawEnter, open_, Bool.false_eq_true, if_false] at entered
          cases entered
          exact .refused open_ nofun
      | close =>
          simp only [rawEnter, open_, Bool.false_eq_true, if_false] at entered
          cases entered
          exact .closed open_

/-! ## What is sent and what is read -/

def RawHeld.fits : RawCall → RawHeld → Prop
  | .sendBytes data, .writing data' count => data' = data ∧ count ≤ data.length
  | .readRaw maxBytes timeoutMs, .reading maxBytes' timeoutMs' =>
      maxBytes' = maxBytes ∧ timeoutMs' = timeoutMs
  | .close, .shutting => True
  | _, _ => False

def RawHeld.sent : RawHeld → List UInt8
  | .writing data count => data.take count
  | _ => []

/-- What a call has sent when it is over: all it had, or the first part of it. -/
def SentAtEnd : RawCall → RawOut → List UInt8 → Prop
  | .sendBytes data, .ok result, part => result = .sent ∧ part = data
  | .sendBytes data, .error _, part => part <+: data
  | _, _, part => part = []

/-- What a call has read when it is over: what it returns. -/
def ReadAtEnd : RawCall → RawOut → List UInt8 → Prop
  | .readRaw maxBytes _, .ok result, part => result = .bytes part ∧ part.length ≤ maxBytes
  | _, _, part => part = []

theorem rawHappen_cases {stream after : RawStream} {e : RawEvent}
    (happened : rawHappen stream e = some after) :
    after.isOpen = stream.isOpen ∧ after.written = stream.written ∧
      after.received = stream.received := by
  cases e with
  | sends bytes =>
      simp only [rawHappen] at happened
      split at happened
      · cases happened
      · cases happened
        exact ⟨rfl, rfl, rfl⟩
  | ends =>
      cases happened
      exact ⟨rfl, rfl, rfl⟩
  | takes n =>
      cases happened
      exact ⟨rfl, rfl, rfl⟩

theorem fits_writing {c : RawCall} {data : List UInt8} {count : Nat}
    (fits : (RawHeld.writing data count).fits c) : c = .sendBytes data ∧ count ≤ data.length := by
  cases c with
  | sendBytes data' =>
      obtain ⟨rfl, inside⟩ := fits
      exact ⟨rfl, inside⟩
  | readRaw maxBytes timeoutMs => exact fits.elim
  | close => exact fits.elim

theorem fits_reading {c : RawCall} {maxBytes : Nat} {timeoutMs : Option Nat}
    (fits : (RawHeld.reading maxBytes timeoutMs).fits c) : c = .readRaw maxBytes timeoutMs := by
  cases c with
  | sendBytes data => exact fits.elim
  | readRaw maxBytes' timeoutMs' =>
      obtain ⟨rfl, rfl⟩ := fits
      rfl
  | close => exact fits.elim

theorem fits_shutting {c : RawCall} (fits : RawHeld.shutting.fits c) : c = .close := by
  cases c with
  | sendBytes data => exact fits.elim
  | readRaw maxBytes timeoutMs => exact fits.elim
  | close => rfl

theorem held_sent {c : RawCall} {held : RawHeld} {part : List UInt8} (fits : held.fits c)
    (sent : part = held.sent) : part = [] ∨ ∃ data, c = .sendBytes data ∧ part <+: data := by
  cases held with
  | writing data count =>
      obtain ⟨rfl, -⟩ := fits_writing fits
      exact .inr ⟨data, rfl, sent ▸ List.take_prefix _ _⟩
  | reading maxBytes timeoutMs => exact .inl sent
  | shutting => exact .inl sent

theorem fits_entered {stream after : RawStream} {c : RawCall} {held : RawHeld}
    (entered : rawEnter stream c = (after, .inl held)) : held.fits c ∧ held.sent = [] := by
  cases rawEnter_cases entered with
  | sendBytes data opened => exact ⟨⟨rfl, Nat.zero_le _⟩, rfl⟩
  | readRaw maxBytes timeoutMs opened => exact ⟨⟨rfl, rfl⟩, rfl⟩
  | close opened => exact ⟨trivial, rfl⟩

/-- Nothing is written or read by a call that only finds out whether there is a stream. -/
theorem entered_same {stream after : RawStream} {c : RawCall} {stage : RawHeld ⊕ RawOut}
    (entered : rawEnter stream c = (after, stage)) :
    after.written = stream.written ∧ after.received = stream.received := by
  cases rawEnter_cases entered with
  | _ => exact ⟨rfl, rfl⟩

theorem readable_few {stream : RawStream} {maxBytes n : Nat} (readable : Readable stream maxBytes n) :
    (stream.incoming.take n).length ≤ maxBytes := by
  refine (List.length_take_le _ _).trans ?_
  rcases readable with ⟨-, few, -⟩ | ⟨rfl, -, -⟩ | ⟨rfl, -, -⟩
  · exact few
  · exact Nat.zero_le _
  · exact Nat.zero_le _

theorem logs_written : Logs rawConnection RawStream.written
    (fun c held part => held.fits c ∧ part = held.sent) SentAtEnd where
  enter := by
    intro stream c after held entered
    obtain ⟨fits, nothing⟩ := fits_entered entered
    exact ⟨[], (entered_same entered).1.trans (List.append_nil _).symm, fits, nothing.symm⟩
  refused := by
    intro stream c after out entered
    refine ⟨[], (entered_same entered).1.trans (List.append_nil _).symm, ?_⟩
    cases rawEnter_cases entered with
    | refused closed other =>
        cases c with
        | sendBytes data => exact List.nil_prefix
        | readRaw maxBytes timeoutMs => rfl
        | close => rfl
    | closed closed => rfl
  move := by
    rintro stream c held m after held' part moved ⟨fits, rfl⟩
    cases rawMove_cases moved with
    | @wrote data count n some_ room inside =>
        obtain ⟨rfl, -⟩ := fits_writing fits
        exact ⟨(data.drop count).take n, rfl, ⟨rfl, inside⟩, List.take_add.symm⟩
  finished := by
    rintro stream c held m after out part moved ⟨fits, rfl⟩
    refine ⟨[], ?_, ?_⟩
    · cases rawMove_cases moved with
      | _ => exact (List.append_nil _).symm
    · rw [List.append_nil]
      cases rawMove_cases moved with
      | unsent m error =>
          obtain ⟨rfl, -⟩ := fits_writing fits
          exact List.take_prefix _ _
      | flushed all =>
          obtain ⟨rfl, -⟩ := fits_writing fits
          exact ⟨rfl, List.take_of_length_le all⟩
      | got readable =>
          obtain rfl := fits_reading fits
          rfl
      | unread m error =>
          obtain rfl := fits_reading fits
          rfl
      | timedOut ms =>
          obtain rfl := fits_reading fits
          rfl
      | shutDown room =>
          obtain rfl := fits_shutting fits
          rfl
      | shutFailed =>
          obtain rfl := fits_shutting fits
          rfl
  happen := by
    intro stream e after happened
    exact (rawHappen_cases happened).2.1

theorem logs_received : Logs rawConnection RawStream.received
    (fun c held part => held.fits c ∧ part = []) ReadAtEnd where
  enter := by
    intro stream c after held entered
    exact ⟨[], (entered_same entered).2.trans (List.append_nil _).symm, (fits_entered entered).1, rfl⟩
  refused := by
    intro stream c after out entered
    refine ⟨[], (entered_same entered).2.trans (List.append_nil _).symm, ?_⟩
    cases rawEnter_cases entered with
    | refused closed other => cases c <;> rfl
    | closed closed => rfl
  move := by
    rintro stream c held m after held' part moved ⟨fits, rfl⟩
    cases rawMove_cases moved with
    | wrote some_ room inside =>
        obtain ⟨rfl, -⟩ := fits_writing fits
        exact ⟨[], (List.append_nil _).symm, ⟨rfl, inside⟩, rfl⟩
  finished := by
    rintro stream c held m after out part moved ⟨fits, rfl⟩
    cases rawMove_cases moved with
    | unsent m error =>
        obtain ⟨rfl, -⟩ := fits_writing fits
        exact ⟨[], (List.append_nil _).symm, rfl⟩
    | flushed all =>
        obtain ⟨rfl, -⟩ := fits_writing fits
        exact ⟨[], (List.append_nil _).symm, rfl⟩
    | @got maxBytes n timeoutMs readable =>
        obtain rfl := fits_reading fits
        exact ⟨stream.incoming.take n, rfl, rfl, readable_few readable⟩
    | unread m error =>
        obtain rfl := fits_reading fits
        exact ⟨[], (List.append_nil _).symm, rfl⟩
    | timedOut ms =>
        obtain rfl := fits_reading fits
        exact ⟨[], (List.append_nil _).symm, rfl, Nat.zero_le _⟩
    | shutDown room =>
        obtain rfl := fits_shutting fits
        exact ⟨[], (List.append_nil _).symm, rfl⟩
    | shutFailed =>
        obtain rfl := fits_shutting fits
        exact ⟨[], (List.append_nil _).symm, rfl⟩
  happen := by
    intro stream e after happened
    exact (rawHappen_cases happened).2.2

/-- Two sends and a read at the same time, the first send in two pieces, then a `close`. -/
def echoActions : List RawAction :=
  [.call (.sendBytes [1, 2, 3]), .call (.readRaw 8 none), .call (.sendBytes [4]), .enter 0,
    .move 0 (.wrote 2), .happen (.sends [9, 9]), .move 0 (.wrote 1), .move 0 .flushed, .enter 2,
    .move 2 (.wrote 1), .move 2 .flushed, .enter 1, .move 1 (.got 2), .call .close, .enter 3]

def echoEnd : RawMonitor where
  object := ⟨false, [1, 2, 3, 4], 0, [], [9, 9], false, false, 0⟩
  calls := [(.sendBytes [1, 2, 3], .done (.ok .sent)), (.readRaw 8 none, .done (.ok (.bytes [9, 9]))),
    (.sendBytes [4], .done (.ok .sent)), (.close, .holding .shutting)]
  turns := [0, 2, 1, 3]

theorem echo_run :
    run rawConnection.step (.opened (.connected 4 false 0)) echoActions = some echoEnd := by
  decide

section Runs

variable {room farewell : Nat} {eager : Bool} {actions : List RawAction} {s : RawMonitor}

/-- The order of the turns is one that the calls themselves can have seen: it only grows. -/
theorem raw_turns_grow {front back : List RawAction} {m : RawMonitor}
    (ran : run rawConnection.step (.opened (.connected room eager farewell)) (front ++ back) = some s)
    (reached : run rawConnection.step (.opened (.connected room eager farewell)) front = some m) :
    m.turns <+: s.turns := by
  obtain ⟨m', reached', rest⟩ := run_append.mp ran
  rw [reached] at reached'
  cases reached'
  exact turns_of_run rest

/-- **Sends are never torn.**  In the order in which the calls took the lock, the peer gets all
of every send that returned, and a first part of any other. -/
theorem sendBytes_serial
    (ran : run rawConnection.step (.opened (.connected room eager farewell)) actions = some s) :
    ∃ part : Nat → List UInt8, s.turns.Nodup ∧ s.object.written = s.turns.flatMap part ∧
      (∀ i c stage, s.calls[i]? = some (c, stage) → i ∈ s.turns →
        part i = [] ∨ ∃ data, c = .sendBytes data ∧ part i <+: data) ∧
      (∀ i data result, s.calls[i]? = some (.sendBytes data, .done (.ok result)) →
        i ∈ s.turns ∧ part i = data) ∧
      ∀ front back m, actions = front ++ back →
        run rawConnection.step (.opened (.connected room eager farewell)) front = some m →
          m.turns <+: s.turns := by
  obtain ⟨part, ledger⟩ := ledger_of_run logs_written ran
  refine ⟨part, ledger.nodup, ledger.log_eq, ?_, ?_, ?_⟩
  · intro i c stage here turn
    have entry := ledger.entries here
    cases stage with
    | waiting => exact absurd turn entry
    | holding held =>
        obtain ⟨-, fits, sent⟩ := entry
        exact held_sent fits sent
    | done out =>
        obtain ⟨-, ended⟩ := entry
        cases c with
        | sendBytes data =>
            refine .inr ⟨data, rfl, ?_⟩
            cases out with
            | error error => exact ended
            | ok result => exact ended.2 ▸ List.prefix_refl _
        | readRaw maxBytes timeoutMs => exact .inl ended
        | close => exact .inl ended
    | dropped =>
        obtain ⟨held, fits, sent⟩ := entry turn
        exact held_sent fits sent
  · intro i data result here
    obtain ⟨turn, -, whole⟩ := ledger.entries here
    exact ⟨turn, whole⟩
  · rintro front back m rfl reached
    exact raw_turns_grow ran reached

theorem sendBytes_serial_echo :
    ∃ part : Nat → List UInt8, echoEnd.turns.Nodup ∧
      echoEnd.object.written = echoEnd.turns.flatMap part ∧
      (∀ i c stage, echoEnd.calls[i]? = some (c, stage) → i ∈ echoEnd.turns →
        part i = [] ∨ ∃ data, c = .sendBytes data ∧ part i <+: data) ∧
      (∀ i data result, echoEnd.calls[i]? = some (.sendBytes data, .done (.ok result)) →
        i ∈ echoEnd.turns ∧ part i = data) ∧
      ∀ front back m, echoActions = front ++ back →
        run rawConnection.step (.opened (.connected 4 false 0)) front = some m →
          m.turns <+: echoEnd.turns :=
  sendBytes_serial echo_run

/-! ## Nothing the peer sends is lost -/

def peerBytes : RawAction → List UInt8
  | .happen (.sends bytes) => bytes
  | _ => []

/-- All that the peer sends in a run. -/
def peerSent (actions : List RawAction) : List UInt8 := actions.flatMap peerBytes

theorem kept_step {a : RawAction} {s t : RawMonitor} (stepped : rawConnection.step s a = some t) :
    t.object.received ++ t.object.incoming =
      s.object.received ++ s.object.incoming ++ peerBytes a := by
  cases step_cases stepped with
  | call c => exact (List.append_nil _).symm
  | enter here free entered =>
      cases rawEnter_cases entered with
      | _ => exact (List.append_nil _).symm
  | move here moved =>
      cases rawMove_cases moved with
      | got readable =>
          show _ ++ _ ++ _ = _
          rw [List.append_assoc, List.take_append_drop]
          exact (List.append_nil _).symm
      | _ => exact (List.append_nil _).symm
  | drop here under => exact (List.append_nil _).symm
  | @happen e after happened =>
      cases e with
      | sends bytes =>
          simp only [rawConnection, rawHappen] at happened
          split at happened
          · cases happened
          · cases happened
            exact (List.append_assoc _ _ _).symm
      | ends =>
          cases happened
          exact (List.append_nil _).symm
      | takes n =>
          cases happened
          exact (List.append_nil _).symm

theorem kept_run (ran : run rawConnection.step (.opened (.connected room eager farewell)) actions = some s) :
    s.object.received ++ s.object.incoming = peerSent actions := by
  refine run_induction (motive := fun actions s =>
    s.object.received ++ s.object.incoming = peerSent actions) rfl ?_ ran
  intro actions t u a _ kept stepped
  rw [kept_step stepped, kept]
  simp [peerSent]

/-- Nothing is left to read, and nothing more will be. -/
def RawStream.AtEnd (stream : RawStream) : Prop := stream.ended = true ∧ stream.incoming = []

theorem atEnd_step {a : RawAction} {s t : RawMonitor} (atEnd : s.object.AtEnd)
    (stepped : rawConnection.step s a = some t) : t.object.AtEnd := by
  obtain ⟨ended, nothing⟩ := atEnd
  cases step_cases stepped with
  | call c => exact ⟨ended, nothing⟩
  | enter here free entered =>
      cases rawEnter_cases entered with
      | _ => exact ⟨ended, nothing⟩
  | move here moved =>
      cases rawMove_cases moved with
      | got readable =>
          refine ⟨ended, ?_⟩
          show List.drop _ _ = []
          rw [nothing, List.drop_nil]
      | _ => exact ⟨ended, nothing⟩
  | drop here under => exact ⟨ended, nothing⟩
  | @happen e after happened =>
      cases e with
      | sends bytes =>
          simp only [rawConnection, rawHappen, ended, if_true] at happened
          cases happened
      | ends =>
          cases happened
          exact ⟨rfl, nothing⟩
      | takes n =>
          cases happened
          exact ⟨ended, nothing⟩

/-- A call with the lock is at work on what it was called for. -/
theorem raw_fits (ran : run rawConnection.step (.opened (.connected room eager farewell)) actions = some s)
    {i : Nat} {c : RawCall} {held : RawHeld} (here : s.calls[i]? = some (c, .holding held)) :
    held.fits c := by
  obtain ⟨part, ledger⟩ := ledger_of_run logs_written ran
  exact (ledger.entries here).2.1

/-- A read that waits as long as it takes returns nothing only at the end. -/
def EmptyMeansEnd (s : RawMonitor) : Prop :=
  ∀ (i maxBytes : Nat), 0 < maxBytes →
    s.calls[i]? = some (.readRaw maxBytes none, .done (.ok (.bytes []))) → s.object.AtEnd

theorem empty_read_atEnd
    (ran : run rawConnection.step (.opened (.connected room eager farewell)) actions = some s) :
    EmptyMeansEnd s := by
  refine run_induction (motive := fun _ s => EmptyMeansEnd s) ?_ ?_ ran
  · intro i maxBytes _ there
    cases there
  · intro actions t u a reached before stepped i maxBytes some_ there
    rcases done_step stepped there with old | ⟨after, entered, same⟩ |
      ⟨held, m, after, here, moved, same⟩
    · exact atEnd_step (before i maxBytes some_ old) stepped
    · have entered : rawEnter t.object (.readRaw maxBytes none) =
          (after, .inr (.ok (.bytes []))) := entered
      cases rawEnter_cases entered
    · have fits := raw_fits reached here
      generalize result : (Sum.inr (Except.ok (RawReturn.bytes [])) : RawHeld ⊕ RawOut) = stage
        at moved
      cases rawMove_cases moved with
      | @got maxBytes' n timeoutMs readable =>
          cases fits_reading fits
          rw [same]
          rcases readable with ⟨more, -, inside⟩ | ⟨rfl, nothing, ended⟩ | ⟨-, rfl, -⟩
          · have none_ : t.object.incoming.take n = [] := by
              injection result with result
              injection result with result
              injection result with result
              exact result.symm
            rw [List.take_eq_nil_iff] at none_
            rcases none_ with rfl | nothing
            · exact absurd more (Nat.lt_irrefl 0)
            · rw [nothing] at inside
              exact absurd inside (Nat.not_le_of_lt more)
          · exact ⟨ended, nothing⟩
          · exact absurd some_ (Nat.lt_irrefl 0)
      | timedOut ms => cases fits_reading fits
      | _ => cases result

/-- **Reads share out the stream.**  In the order in which the calls took the lock, what the
reads returned is what was read, each at most what it asked for; with what nobody has read
it is all that the peer has sent.  A read without a timeout that returns nothing has met
the end: then the reads together have returned all that the peer ever sent. -/
theorem readRaw_serial
    (ran : run rawConnection.step (.opened (.connected room eager farewell)) actions = some s) :
    ∃ part : Nat → List UInt8, s.turns.Nodup ∧
      s.turns.flatMap part ++ s.object.incoming = peerSent actions ∧
      (∀ (i maxBytes : Nat) timeoutMs result,
        s.calls[i]? = some (.readRaw maxBytes timeoutMs, .done (.ok result)) →
          i ∈ s.turns ∧ result = .bytes (part i) ∧ (part i).length ≤ maxBytes) ∧
      (∀ (i : Nat) c stage, s.calls[i]? = some (c, stage) → i ∈ s.turns → part i ≠ [] →
        ∃ maxBytes timeoutMs result,
          c = .readRaw maxBytes timeoutMs ∧ stage = .done (.ok result)) ∧
      ((∃ (i maxBytes : Nat), 0 < maxBytes ∧
          s.calls[i]? = some (.readRaw maxBytes none, .done (.ok (.bytes [])))) →
        s.object.ended = true ∧ s.turns.flatMap part = peerSent actions) := by
  obtain ⟨part, ledger⟩ := ledger_of_run logs_received ran
  have all := kept_run ran
  rw [ledger.log_eq] at all
  refine ⟨part, ledger.nodup, all, ?_, ?_, ?_⟩
  · intro i maxBytes timeoutMs result here
    obtain ⟨turn, returned, few⟩ := ledger.entries here
    exact ⟨turn, returned, few⟩
  · intro i c stage here turn some_
    have entry := ledger.entries here
    cases stage with
    | waiting => exact absurd turn entry
    | holding held => exact absurd entry.2.2 some_
    | dropped =>
        obtain ⟨held, -, nothing⟩ := entry turn
        exact absurd nothing some_
    | done out =>
        cases c with
        | readRaw maxBytes timeoutMs =>
            cases out with
            | ok result => exact ⟨maxBytes, timeoutMs, result, rfl, rfl⟩
            | error error => exact absurd entry.2 some_
        | sendBytes data => exact absurd entry.2 some_
        | close => exact absurd entry.2 some_
  · rintro ⟨i, maxBytes, some_, here⟩
    obtain ⟨ended, nothing⟩ := empty_read_atEnd ran i maxBytes some_ here
    refine ⟨ended, ?_⟩
    rw [nothing, List.append_nil] at all
    exact all

theorem readRaw_serial_echo :
    ∃ part : Nat → List UInt8, echoEnd.turns.Nodup ∧
      echoEnd.turns.flatMap part ++ echoEnd.object.incoming = peerSent echoActions ∧
      (∀ (i maxBytes : Nat) timeoutMs result,
        echoEnd.calls[i]? = some (.readRaw maxBytes timeoutMs, .done (.ok result)) →
          i ∈ echoEnd.turns ∧ result = .bytes (part i) ∧ (part i).length ≤ maxBytes) ∧
      (∀ (i : Nat) c stage, echoEnd.calls[i]? = some (c, stage) → i ∈ echoEnd.turns → part i ≠ [] →
        ∃ maxBytes timeoutMs result,
          c = .readRaw maxBytes timeoutMs ∧ stage = .done (.ok result)) ∧
      ((∃ (i maxBytes : Nat), 0 < maxBytes ∧
          echoEnd.calls[i]? = some (.readRaw maxBytes none, .done (.ok (.bytes [])))) →
        echoEnd.object.ended = true ∧ echoEnd.turns.flatMap part = peerSent echoActions) :=
  readRaw_serial echo_run

/-! ## Closing -/

/-- What a call returns when the stream is gone. -/
def RawCall.refusal : RawCall → RawOut
  | .close => .ok .closed
  | _ => .error closedError

theorem refusal_entered {stream after : RawStream} {c : RawCall} {stage : RawHeld ⊕ RawOut}
    (closed : stream.isOpen = false) (entered : rawEnter stream c = (after, stage)) :
    after = stream ∧ stage = .inr c.refusal := by
  cases rawEnter_cases entered with
  | sendBytes data opened => exact absurd (closed.symm.trans opened) Bool.false_ne_true
  | readRaw maxBytes timeoutMs opened => exact absurd (closed.symm.trans opened) Bool.false_ne_true
  | close opened => exact absurd (closed.symm.trans opened) Bool.false_ne_true
  | refused closed other =>
      cases c with
      | sendBytes data => exact ⟨rfl, rfl⟩
      | readRaw maxBytes timeoutMs => exact ⟨rfl, rfl⟩
      | close => exact absurd rfl other
  | closed closed => exact ⟨rfl, rfl⟩

/-- Where the stream is gone, nobody but a `close` has the lock, and a `close` that has had it
has taken the stream. -/
structure ClosedByClose (s : RawMonitor) : Prop where
  holder : ∀ {i : Nat} {c held}, s.calls[i]? = some (c, .holding held) →
    s.object.isOpen = false → held = .shutting
  closes : ∀ {i : Nat} {stage}, s.calls[i]? = some (.close, stage) → i ∈ s.turns →
    s.object.isOpen = false

theorem ClosedByClose.call {t : RawMonitor} (kept : ClosedByClose t)
    (known : ∀ i ∈ t.turns, i < t.calls.length) (c : RawCall) :
    ClosedByClose { t with calls := t.calls ++ [(c, .waiting)] } := by
  constructor
  · intro i c held there closed
    rcases Lib.Places.getElem?_concat_cases there with old | ⟨-, fresh⟩
    · exact kept.holder old closed
    · cases fresh
  · intro i stage there turn
    rcases Lib.Places.getElem?_concat_cases there with old | ⟨rfl, -⟩
    · exact kept.closes old turn
    · exact absurd (known _ turn) (Nat.lt_irrefl _)

/-- A call takes the lock: where the stream is there, only a `close` takes it away. -/
theorem ClosedByClose.enter {t : RawMonitor} (kept : ClosedByClose t) {j : Nat} {d : RawCall}
    {after : RawStream} {stage : RawHeld ⊕ RawOut} (free : t.locked = false)
    (entered : rawEnter t.object d = (after, stage)) :
    ClosedByClose ⟨after, t.calls.set j (d, .after stage), t.turns ++ [j]⟩ := by
  constructor
  · intro i c held there closed
    rcases Lib.Places.getElem?_set_cases there with ⟨rfl, same⟩ | ⟨-, old⟩
    · cases rawEnter_cases entered with
      | sendBytes data opened => exact absurd (closed.symm.trans opened) Bool.false_ne_true
      | readRaw maxBytes timeoutMs opened =>
          exact absurd (closed.symm.trans opened) Bool.false_ne_true
      | close opened =>
          cases same
          rfl
      | _ => cases same
    · exact absurd old (not_locked free)
  · intro i stage' there turn
    rcases Lib.Places.getElem?_set_cases there with ⟨rfl, same⟩ | ⟨apart, old⟩
    · cases same
      cases rawEnter_cases entered with
      | close opened => rfl
      | refused closed other => exact closed
      | closed closed => exact closed
    · rcases List.mem_append.mp turn with before | same
      · have closed := kept.closes old before
        obtain ⟨rfl, -⟩ := refusal_entered closed entered
        exact closed
      · exact absurd (List.mem_singleton.mp same) apart

/-- A call goes on, or is over, and the stream is there as before. -/
theorem ClosedByClose.goOn {t : RawMonitor} (kept : ClosedByClose t) {j : Nat} {d : RawCall}
    {was now : Stage RawHeld RawOut} {after : RawStream} (here : t.calls[j]? = some (d, was))
    (same : after.isOpen = t.object.isOpen)
    (holder : ∀ {held}, now = .holding held → t.object.isOpen = false → held = .shutting) :
    ClosedByClose ⟨after, t.calls.set j (d, now), t.turns⟩ := by
  constructor
  · intro i c held there closed
    rcases Lib.Places.getElem?_set_cases there with ⟨rfl, fresh⟩ | ⟨-, old⟩
    · cases fresh
      exact holder rfl (same.symm.trans closed)
    · exact kept.holder old (same.symm.trans closed)
  · intro i stage there turn
    refine same.trans ?_
    rcases Lib.Places.getElem?_set_cases there with ⟨rfl, fresh⟩ | ⟨-, old⟩
    · cases fresh
      exact kept.closes here turn
    · exact kept.closes old turn

theorem ClosedByClose.step {t u : RawMonitor} {a : RawAction} (kept : ClosedByClose t)
    (known : ∀ i ∈ t.turns, i < t.calls.length)
    (stepped : rawConnection.step t a = some u) : ClosedByClose u := by
  cases step_cases stepped with
  | call c => exact kept.call known c
  | enter here free entered => exact kept.enter free entered
  | @move j m d held after stage here moved =>
      refine kept.goOn here ?_ ?_
      · cases rawMove_cases moved with
        | _ => rfl
      · intro held' goes closed
        -- the one that has the lock is a `close`, which is over once it moves
        have was := kept.holder here closed
        subst was
        cases rawMove_cases moved with
        | _ => cases goes
  | drop here under => exact kept.goOn here rfl nofun
  | happen happened =>
      have same := (rawHappen_cases happened).1
      exact ⟨fun there closed => kept.holder there (same.symm.trans closed),
        fun there turn => same.trans (kept.closes there turn)⟩

theorem closedByClose_run
    (ran : run rawConnection.step (.opened (.connected room eager farewell)) actions = some s) :
    ClosedByClose s := by
  refine run_induction (motive := fun _ s => ClosedByClose s) ⟨?_, ?_⟩ ?_ ran
  · intro i c held there
    cases there
  · intro i stage there
    cases there
  intro actions t u a reached kept stepped
  obtain ⟨part, ledger⟩ := ledger_of_run logs_written reached
  exact kept.step ledger.known stepped

/-- What has become of the connection since `m`, when its stream was gone already. -/
structure AfterClose (m s : RawMonitor) : Prop where
  closed : s.object.isOpen = false
  written : s.object.written = m.object.written
  received : s.object.received = m.object.received
  refused : ∀ {i : Nat} {c result}, s.calls[i]? = some (c, .done result) →
    m.calls[i]? ≠ some (c, .done result) → result = c.refusal

theorem AfterClose.step {m t u : RawMonitor} {a : RawAction} (kept : AfterClose m t)
    (closing : ClosedByClose t)
    (fits : ∀ {i : Nat} {c held}, t.calls[i]? = some (c, .holding held) → held.fits c)
    (stepped : rawConnection.step t a = some u) : AfterClose m u := by
  have refused : ∀ {i : Nat} {c result}, u.calls[i]? = some (c, .done result) →
      m.calls[i]? ≠ some (c, .done result) → result = c.refusal := by
    intro i c result there fresh
    rcases done_step stepped there with old | ⟨after, entered, -⟩ |
      ⟨held, move, after, here, moved, -⟩
    · exact kept.refused old fresh
    · obtain ⟨-, same⟩ := refusal_entered kept.closed entered
      cases same
      rfl
    · have was := closing.holder here kept.closed
      subst was
      cases fits_shutting (fits here)
      cases rawMove_cases moved with
      | _ => rfl
  cases step_cases stepped with
  | call c => exact ⟨kept.closed, kept.written, kept.received, refused⟩
  | enter here free entered =>
      obtain ⟨rfl, -⟩ := refusal_entered kept.closed entered
      exact ⟨kept.closed, kept.written, kept.received, refused⟩
  | move here moved =>
      have was := closing.holder here kept.closed
      subst was
      cases rawMove_cases moved with
      | _ => exact ⟨kept.closed, kept.written, kept.received, refused⟩
  | drop here under => exact ⟨kept.closed, kept.written, kept.received, refused⟩
  | happen happened =>
      obtain ⟨open_, written, received⟩ := rawHappen_cases happened
      exact ⟨open_.trans kept.closed, written.trans kept.written, received.trans kept.received,
        refused⟩

/-- **Closing is final.**  From the moment a `close` has had the lock, nothing more is written or
read, whatever calls wait or are made later; a send or read among them that is over has
failed because the connection is closed, and a `close` has not failed. -/
theorem close_final {back : List RawAction} {m : RawMonitor} {i : Nat}
    {stage : Stage RawHeld RawOut}
    (ran : run rawConnection.step (.opened (.connected room eager farewell)) actions = some m)
    (close : m.calls[i]? = some (.close, stage)) (took : i ∈ m.turns)
    (on : run rawConnection.step m back = some s) :
    s.object.written = m.object.written ∧ s.object.received = m.object.received ∧
      (∀ (j : Nat) c result, s.calls[j]? = some (c, .done result) →
        m.calls[j]? ≠ some (c, .done result) → result = c.refusal) := by
  have start : AfterClose m m :=
    ⟨(closedByClose_run ran).closes close took, rfl, rfl, fun there fresh => absurd there fresh⟩
  have kept : AfterClose m s := by
    refine run_induction (motive := fun _ s => AfterClose m s) start ?_ on
    intro actions' t u a reached kept stepped
    have whole := run_append.mpr ⟨m, ran, reached⟩
    exact kept.step (closedByClose_run whole) (raw_fits whole) stepped
  exact ⟨kept.written, kept.received, fun j c result => kept.refused⟩

/-- Behind the `close` another send fails, and the shutdown ends. -/
def lateActions : List RawAction := [.call (.sendBytes [5]), .move 3 .shutDown, .enter 4]

def lateEnd : RawMonitor where
  object := echoEnd.object
  calls := echoEnd.calls.take 3 ++
    [(.close, .done (.ok .closed)), (.sendBytes [5], .done (.error closedError))]
  turns := [0, 2, 1, 3, 4]

theorem close_final_late :
    lateEnd.object.written = echoEnd.object.written ∧
      lateEnd.object.received = echoEnd.object.received ∧
        ∀ (j : Nat) c result, lateEnd.calls[j]? = some (c, .done result) →
          echoEnd.calls[j]? ≠ some (c, .done result) → result = c.refusal :=
  @close_final 4 0 false echoActions lateEnd lateActions echoEnd 3 (.holding .shutting) echo_run rfl
    (by decide) (by decide)

/-! ## Who can go on -/

/-- Not a failure of the network. -/
def RawMove.isProgress : RawMove → Bool
  | .wrote n => 0 < n
  | .writeFailed _ => false
  | .flushed => true
  | .flushFailed _ => false
  | .got _ => true
  | .readFailed _ => false
  | .timedOut => true
  | .shutDown => true
  | .shutFailed => false

/-- No call can take the lock and none can go on with it. -/
def RawStuck (s : RawMonitor) : Prop :=
  (∀ i, rawConnection.step s (.enter i) = none) ∧
    ∀ i m, m.isProgress = true → rawConnection.step s (.move i m) = none

/-- The call waits for the peer: to take what is left to write, or to send something; a
shutdown too, while the peer does not take what it says last. -/
def RawHeld.Blocked (stream : RawStream) : RawHeld → Prop
  | .writing data count => count < data.length ∧ stream.room = 0
  | .reading maxBytes timeoutMs =>
      timeoutMs = none ∧ stream.incoming = [] ∧ stream.ended = false ∧
        ¬(maxBytes = 0 ∧ stream.eager = true)
  | .shutting => stream.room < stream.farewell

section Blocked

variable {stream : RawStream}

theorem writing_blocked_iff {data : List UInt8} {count : Nat} :
    (RawHeld.writing data count).Blocked stream ↔
      ∀ m, m.isProgress = true → rawMove stream (.writing data count) m = none := by
  constructor
  · rintro ⟨inside, full⟩ m progress
    cases m with
    | wrote n =>
        have some_ : 0 < n := by simpa [RawMove.isProgress] using progress
        rw [rawMove, if_neg (Nat.not_le_of_lt inside), if_neg (by omega), if_neg (by omega)]
    | flushed => rw [rawMove, if_neg (Nat.not_le_of_lt inside)]
    | writeFailed text => cases progress
    | flushFailed text => cases progress
    | _ => rfl
  · intro nowhere
    have flushed := nowhere .flushed rfl
    have wrote := nowhere (.wrote 1) rfl
    have inside : count < data.length := by
      by_contra all
      rw [rawMove, if_pos (Nat.le_of_not_lt all)] at flushed
      cases flushed
    refine ⟨inside, ?_⟩
    by_contra some_
    rw [rawMove, if_neg (Nat.not_le_of_lt inside), if_neg Nat.one_ne_zero,
      if_pos ⟨Nat.pos_of_ne_zero some_, inside⟩] at wrote
    cases wrote

/-- Nothing can be read. -/
theorem not_readable_iff {maxBytes : Nat} :
    (∀ n, ¬ Readable stream maxBytes n) ↔
      stream.incoming = [] ∧ stream.ended = false ∧ ¬(maxBytes = 0 ∧ stream.eager = true) := by
  constructor
  · intro unreadable
    have nothing : stream.incoming = [] := by
      by_contra some_
      rcases Nat.eq_zero_or_pos maxBytes with none_ | wide
      · exact unreadable 0 (.inr (.inr ⟨rfl, none_, .inr some_⟩))
      · exact unreadable 1 (.inl ⟨Nat.one_pos, wide, List.length_pos_of_ne_nil some_⟩)
    refine ⟨nothing, ?_, ?_⟩
    · cases ended : stream.ended with
      | false => rfl
      | true => exact absurd (.inr (.inl ⟨rfl, nothing, ended⟩)) (unreadable 0)
    · rintro ⟨none_, eager⟩
      exact unreadable 0 (.inr (.inr ⟨rfl, none_, .inl eager⟩))
  · rintro ⟨nothing, going, wide⟩ n (⟨more, -, inside⟩ | ⟨-, -, ended⟩ | ⟨-, none_, eager | some_⟩)
    · rw [nothing] at inside
      exact absurd inside (Nat.not_le_of_lt more)
    · exact absurd (going.symm.trans ended) Bool.false_ne_true
    · exact wide ⟨none_, eager⟩
    · exact some_ nothing

theorem reading_blocked_iff {maxBytes : Nat} {timeoutMs : Option Nat} :
    (RawHeld.reading maxBytes timeoutMs).Blocked stream ↔
      ∀ m, m.isProgress = true → rawMove stream (.reading maxBytes timeoutMs) m = none := by
  constructor
  · rintro ⟨rfl, unreadable⟩ m progress
    cases m with
    | got n => rw [rawMove, if_neg (not_readable_iff.mpr unreadable n)]
    | readFailed text => cases progress
    | _ => rfl
  · intro nowhere
    refine ⟨?_, not_readable_iff.mp fun n readable => ?_⟩
    · cases timeoutMs with
      | none => rfl
      | some ms => cases nowhere .timedOut rfl
    · have got := nowhere (.got n) rfl
      rw [rawMove, if_pos readable] at got
      cases got

theorem shutting_blocked_iff :
    RawHeld.shutting.Blocked stream ↔
      ∀ m, m.isProgress = true → rawMove stream .shutting m = none := by
  constructor
  · intro full m progress
    cases m with
    | shutDown => rw [rawMove, if_neg (Nat.not_le_of_lt full)]
    | shutFailed => cases progress
    | _ => rfl
  · intro nowhere
    have shutDown := nowhere .shutDown rfl
    by_contra room
    rw [rawMove, if_pos (Nat.le_of_not_lt room)] at shutDown
    cases shutDown

theorem blocked_iff (held : RawHeld) :
    held.Blocked stream ↔ ∀ m, m.isProgress = true → rawMove stream held m = none := by
  cases held with
  | writing data count => exact writing_blocked_iff
  | reading maxBytes timeoutMs => exact reading_blocked_iff
  | shutting => exact shutting_blocked_iff

end Blocked

/-- **Stuck on the peer.**  The calls on a connection can go on, unless they are all over or the
one that has the lock waits for the peer: it is a read without a timeout with nothing to
read, a send the peer does not take, or a `close` whose last bytes it does not take.  Every
other call, another `close` too, then waits. -/
theorem raw_stuck_iff
    (ran : run rawConnection.step (.opened (.connected room eager farewell)) actions = some s) :
    RawStuck s ↔
      (∀ (i : Nat) c stage, s.calls[i]? = some (c, stage) →
        (∃ out, stage = .done out) ∨ stage = .dropped) ∨
        ∃ (i : Nat) (c : RawCall) (held : RawHeld),
          s.calls[i]? = some (c, .holding held) ∧ held.Blocked s.object := by
  obtain ⟨part, ledger⟩ := ledger_of_run logs_written ran
  constructor
  · rintro ⟨shut, idle⟩
    by_cases taken : s.locked = true
    · obtain ⟨i, c, held, here⟩ := locked_iff.mp taken
      refine .inr ⟨i, c, held, here, (blocked_iff held).mpr fun m progress => ?_⟩
      exact move_none_iff.mp (fun j => idle j m progress) i c held here
    · have settled := (enter_none_iff.mp shut).resolve_left taken
      refine .inl fun i c stage here => ?_
      cases stage with
      | done out => exact .inl ⟨out, rfl⟩
      | dropped => exact .inr rfl
      | holding held => exact absurd (locked_iff.mpr ⟨i, c, held, here⟩) taken
      | waiting => exact absurd here (settled i c)
  · rintro (settled | ⟨i, c, held, here, blocked⟩)
    · constructor
      · refine enter_none_iff.mpr (.inr fun j d there => ?_)
        rcases settled j d .waiting there with ⟨out, wrong⟩ | wrong <;> cases wrong
      · refine fun j m progress => move_none_iff.mpr (fun k d other there => ?_) j
        rcases settled k d _ there with ⟨out, wrong⟩ | wrong <;> cases wrong
    · constructor
      · exact enter_none_iff.mpr (.inl (locked_iff.mpr ⟨i, c, held, here⟩))
      · refine fun j m progress => move_none_iff.mpr (fun k d other there => ?_) j
        cases ledger.holder_unique here there
        rw [here] at there
        cases there
        exact (blocked_iff held).mp blocked m progress

/-- A read that waits for an answer to what a send behind it would have asked. -/
def waitingEnd : RawMonitor where
  object := .connected 4 false 0
  calls := [(.readRaw 8 none, .holding (.reading 8 none)), (.sendBytes [1], .waiting)]
  turns := [0]

theorem raw_stuck_iff_waiting :
    RawStuck waitingEnd ↔
      (∀ (i : Nat) c stage, waitingEnd.calls[i]? = some (c, stage) →
        (∃ out, stage = .done out) ∨ stage = .dropped) ∨
        ∃ (i : Nat) (c : RawCall) (held : RawHeld),
          waitingEnd.calls[i]? = some (c, .holding held) ∧ held.Blocked waitingEnd.object :=
  @raw_stuck_iff 4 0 false [.call (.readRaw 8 none), .call (.sendBytes [1]), .enter 0] waitingEnd
    (by decide)

end Runs

end Blasthttp.Client
