/-
# Blasthttp.Rust.Socket -- a TCP stream between a program and a peer

What the peer sends comes in segments, and a read takes from one segment only: the cut
of a stream into segments is the choice of what each read returns.  The socket keeps
the history of its use, so that a program can be held to what it wrote before what it
had read.  `read_exact` is where segments stop to matter (`readExact_spec`).
-/
import Blasthttp.Rust.Str

namespace Blasthttp.Rust

open Std.Do

set_option autoImplicit false
set_option mvcgen.warning false

/-! ## Streams -/

/-- Bytes that arrive together; there is at least one. -/
structure Segment where
  first : UInt8
  more : List UInt8
  deriving DecidableEq

def Segment.bytes (segment : Segment) : List UInt8 := segment.first :: segment.more

theorem Segment.take_ne_nil (segment : Segment) {size : Nat} (some_ : 0 < size) :
    segment.bytes.take size ≠ [] := by
  cases size with
  | zero => exact absurd some_ (Nat.lt_irrefl 0)
  | succ size => exact List.cons_ne_nil _ _

/-- What is left of a segment, in front of those behind it. -/
def putBack : List UInt8 → List Segment → List Segment
  | [], rest => rest
  | first :: more, rest => ⟨first, more⟩ :: rest

def streamOf (incoming : List Segment) : List UInt8 := incoming.flatMap Segment.bytes

@[simp] theorem streamOf_nil : streamOf [] = [] := rfl

@[simp] theorem streamOf_cons (segment : Segment) (rest : List Segment) :
    streamOf (segment :: rest) = segment.bytes ++ streamOf rest := by
  simp [streamOf]

@[simp] theorem streamOf_putBack (bytes : List UInt8) (rest : List Segment) :
    streamOf (putBack bytes rest) = bytes ++ streamOf rest := by
  cases bytes with
  | nil => rfl
  | cons first more => exact streamOf_cons ⟨first, more⟩ rest

/-- What an operation meets that does not come through. -/
inductive SocketFault where
  | failed (text : Str)
  /-- It never returns. -/
  | stalled
  deriving DecidableEq

structure Socket where
  /-- What the peer sends that has not been read. -/
  incoming : List Segment
  /-- What a read meets behind it; `none` is the end of the stream. -/
  ending : Option SocketFault
  /-- How many bytes the peer still takes, if there is a limit. -/
  room : Option Nat
  /-- What a write past them meets. -/
  refusal : SocketFault
  /-- What has been read. -/
  received : List UInt8
  /-- What has been written, with what had been read before. -/
  writes : List (List UInt8 × List UInt8)
  deriving DecidableEq

namespace Socket

/-- What the caller reads next. -/
def unread (socket : Socket) : List UInt8 := streamOf socket.incoming

/-- A socket before its first use. -/
def opened (incoming : List Segment) (ending : Option SocketFault) (room : Option Nat)
    (refusal : SocketFault) : Socket :=
  ⟨incoming, ending, room, refusal, [], []⟩

/-! ## Operations -/

/-- Programs on a socket. -/
abbrev On (ε : Type) : Type → Type := ExceptT ε (StateM Socket)

/-- A run: its result, and the socket behind it. -/
def run {ε α : Type} (program : On ε α) (socket : Socket) : Except ε α × Socket :=
  StateT.run (ExceptT.run program) socket

/-- `AsyncReadExt::read` into a buffer of `size` bytes; empty at the end of the stream. -/
def read (size : Nat) : On SocketFault (List UInt8) := do
  let socket ← get
  match socket.incoming with
  | [] =>
      match socket.ending with
      | none => pure []
      | some fault => throw fault
  | segment :: rest =>
      let bytes := segment.bytes.take size
      set { socket with
        incoming := putBack (segment.bytes.drop size) rest
        received := socket.received ++ bytes }
      pure bytes

/-- Reads until `left` bytes are there.  Each brings one at least, so that the fuel of
`readExact` is enough. -/
def readLoop : Nat → Nat → On SocketFault (List UInt8)
  | _, 0 => pure []
  | 0, _ + 1 => throw .stalled
  | fuel + 1, left + 1 => do
      let bytes ← read (left + 1)
      if bytes.isEmpty then
        throw (.failed "early eof".toList)
      else
        let rest ← readLoop fuel (left + 1 - bytes.length)
        pure (bytes ++ rest)

/-- `AsyncReadExt::read_exact` into a buffer of `size` bytes. -/
def readExact (size : Nat) : On SocketFault (List UInt8) := readLoop size size

/-- `AsyncWriteExt::write_all`: a write that fails may have got a part out. -/
def writeAll (bytes : List UInt8) : On SocketFault Unit := do
  let socket ← get
  match socket.room with
  | none => set { socket with writes := socket.writes ++ [(socket.received, bytes)] }
  | some room =>
      if bytes.length ≤ room then
        set { socket with
          room := some (room - bytes.length)
          writes := socket.writes ++ [(socket.received, bytes)] }
      else do
        set { socket with
          room := some 0
          writes := socket.writes ++ [(socket.received, bytes.take room)] }
        throw socket.refusal

/-- A triple about a program, read at one run of it. -/
theorem run_of_triple {ε α : Type} {program : On ε α} {before : Socket → Prop}
    {after : α → Socket → Prop} {broken : ε → Socket → Prop}
    (triple : ⦃fun s => ⌜before s⌝⦄ program ⦃post⟨fun a s => ⌜after a s⌝, fun e s => ⌜broken e s⌝⟩⦄)
    {socket : Socket} (here : before socket) :
    (∀ a, (run program socket).1 = .ok a → after a (run program socket).2) ∧
      ∀ e, (run program socket).1 = .error e → broken e (run program socket).2 := by
  have holds := triple socket here
  simp only [WP.wp, PredTrans.apply_pushExcept, PredTrans.apply_pushArg,
    PredTrans.apply_Pure_pure] at holds
  have ran : (StateT.run (ExceptT.run program) socket).run = run program socket := rfl
  rw [ran] at holds
  constructor
  · intro a came
    rw [came] at holds
    exact holds
  · intro e broke
    rw [broke] at holds
    exact holds

/-! ## Reading -/

/-- From one point to a later one `bytes` were read, and nothing else happened. -/
structure Gave (before : Socket) (bytes : List UInt8) (after : Socket) : Prop where
  received : after.received = before.received ++ bytes
  unread : before.unread = bytes ++ after.unread
  writes : after.writes = before.writes

variable {s₀ s₁ s₂ : Socket} {first second : List UInt8}

theorem Gave.refl (socket : Socket) : socket.Gave [] socket where
  received := (List.append_nil _).symm
  unread := rfl
  writes := rfl

theorem Gave.trans (gave : s₀.Gave first s₁) (next : s₁.Gave second s₂) :
    s₀.Gave (first ++ second) s₂ where
  received := by rw [next.received, gave.received, List.append_assoc]
  unread := by rw [gave.unread, next.unread, List.append_assoc]
  writes := by rw [next.writes, gave.writes]

theorem Gave.then_some (gave : s₀.Gave first s₁) (next : ∃ second, s₁.Gave second s₂) :
    ∃ bytes, s₀.Gave bytes s₂ := by
  obtain ⟨second, next⟩ := next
  exact ⟨first ++ second, gave.trans next⟩

/-- What one read of a segment leaves. -/
def advance (socket : Socket) (size : Nat) (segment : Segment) (rest : List Segment) : Socket :=
  { socket with
    incoming := putBack (segment.bytes.drop size) rest
    received := socket.received ++ segment.bytes.take size }

theorem advance_gave {segment : Segment} {rest : List Segment}
    (arrived : s₀.incoming = segment :: rest) (size : Nat) :
    s₀.Gave (segment.bytes.take size) (s₀.advance size segment rest) where
  received := rfl
  unread := by
    show streamOf s₀.incoming = _ ++ streamOf (putBack (segment.bytes.drop size) rest)
    rw [arrived, streamOf_cons, streamOf_putBack, ← List.append_assoc, List.take_append_drop]
  writes := rfl

/-- One read takes from one segment, or finds the end of the stream. -/
inductive ReadStep (before : Socket) (size : Nat) : List UInt8 → Socket → Prop
  | ended : before.incoming = [] → ReadStep before size [] before
  | arrived (segment : Segment) (rest : List Segment) : before.incoming = segment :: rest →
      ReadStep before size (segment.bytes.take size) (before.advance size segment rest)

theorem ReadStep.gave {size : Nat} {bytes : List UInt8} (step : ReadStep s₀ size bytes s₁) :
    bytes.length ≤ size ∧ s₀.Gave bytes s₁ := by
  cases step with
  | ended empty => exact ⟨Nat.zero_le _, Gave.refl s₀⟩
  | arrived segment rest there => exact ⟨List.length_take_le _ _, advance_gave there size⟩

@[spec]
theorem read_spec (size : Nat) :
    ⦃fun s => ⌜s = s₀⌝⦄ read size
    ⦃post⟨fun bytes s => ⌜ReadStep s₀ size bytes s⌝, fun _ s => ⌜s₀.incoming = [] ∧ s = s₀⌝⟩⦄ := by
  mvcgen [read]
  case vc1 =>
    rename_i socket same empty ending
    subst same
    exact .ended empty
  case vc2 =>
    rename_i socket same empty fault ending
    subst same
    exact ⟨empty, rfl⟩
  case vc3 =>
    rename_i socket same segment rest there bytes
    subst same
    exact .arrived segment rest there

theorem readLoop_spec (fuel left : Nat) (enough : left ≤ fuel) :
    ⦃fun s => ⌜s = s₀⌝⦄ readLoop fuel left
    ⦃post⟨fun bytes s => ⌜bytes.length = left ∧ s₀.Gave bytes s⌝,
      fun _ s => ⌜∃ bytes, s₀.Gave bytes s⌝⟩⦄ := by
  induction fuel generalizing left s₀ with
  | zero =>
      obtain rfl := Nat.le_zero.mp enough
      mvcgen [readLoop]
      rename_i socket same
      subst same
      exact ⟨rfl, Gave.refl socket⟩
  | succ fuel ih =>
      cases left with
      | zero =>
          mvcgen [readLoop]
          rename_i socket same
          subst same
          exact ⟨rfl, Gave.refl socket⟩
      | succ left =>
          unfold readLoop
          mvcgen [ih]
          case vc1 =>
            rename_i start same bytes empty socket step
            subst same
            exact ⟨bytes, step.gave.2⟩
          case vc2 =>
            rename_i start same bytes some_ socket step
            have positive := List.length_pos_iff.mpr (mt List.isEmpty_iff.mpr some_)
            omega
          case vc3 =>
            rename_i start same bytes some_ middle step rest socket gave
            subst same
            have short := step.gave.1
            refine ⟨?_, step.gave.2.trans gave.2⟩
            rw [List.length_append, gave.1]
            omega
          case vc4 =>
            rename_i start same bytes some_ middle step fault socket
            subst same
            exact step.gave.2.then_some
          case vc5 =>
            rename_i start same fault socket
            subst same
            rintro empty rfl
            exact ⟨[], Gave.refl _⟩

/-- However the stream is cut, `read_exact` takes its next bytes, or breaks off. -/
@[spec]
theorem readExact_spec (size : Nat) :
    ⦃fun s => ⌜s = s₀⌝⦄ readExact size
    ⦃post⟨fun bytes s => ⌜bytes.length = size ∧ s₀.Gave bytes s⌝,
      fun _ s => ⌜∃ bytes, s₀.Gave bytes s⌝⟩⦄ :=
  readLoop_spec size size (Nat.le_refl size)

/-! ## Writing -/

/-- The peer takes these bytes. -/
def Takes (socket : Socket) (bytes : List UInt8) : Prop :=
  ∀ room, socket.room = some room → bytes.length ≤ room

/-- From one point to a later one `bytes` were written, and nothing else happened. -/
structure Wrote (before : Socket) (bytes : List UInt8) (after : Socket) : Prop where
  received : after.received = before.received
  incoming : after.incoming = before.incoming
  writes : after.writes = before.writes ++ [(before.received, bytes)]

@[spec]
theorem writeAll_spec (bytes : List UInt8) :
    ⦃fun s => ⌜s = s₀⌝⦄ writeAll bytes
    ⦃post⟨fun _ s => ⌜s₀.Takes bytes ∧ s₀.Wrote bytes s⌝,
      fun _ s => ⌜¬ s₀.Takes bytes ∧ ∃ n, s₀.Wrote (bytes.take n) s⌝⟩⦄ := by
  mvcgen [writeAll]
  case vc1 =>
    rename_i socket same unbounded
    subst same
    refine ⟨?_, rfl, rfl, rfl⟩
    intro room bounded
    rw [unbounded] at bounded
    cases bounded
  case vc2 =>
    rename_i socket same room bounded fits
    subst same
    refine ⟨?_, rfl, rfl, rfl⟩
    intro room' bounded'
    rw [bounded] at bounded'
    cases bounded'
    exact fits
  case vc3 =>
    rename_i socket same room bounded overflows
    subst same
    exact ⟨fun takes => overflows (takes room bounded), room, rfl, rfl, rfl⟩

/-! ## Discipline -/

/-- Every write was allowed behind what had been received before it. -/
def Orderly (mayWrite : List UInt8 → List UInt8 → Prop) (socket : Socket) : Prop :=
  ∀ write ∈ socket.writes, mayWrite write.1 write.2

/-- From one point to a later one `bytes` were read, and all writes were allowed. -/
structure Went (mayWrite : List UInt8 → List UInt8 → Prop) (before : Socket) (bytes : List UInt8)
    (after : Socket) : Prop where
  received : after.received = before.received ++ bytes
  unread : before.unread = bytes ++ after.unread
  writes : before.writes <+: after.writes
  orderly : before.Orderly mayWrite → after.Orderly mayWrite

variable {mayWrite : List UInt8 → List UInt8 → Prop}

theorem Gave.went (gave : s₀.Gave first s₁) : Went mayWrite s₀ first s₁ where
  received := gave.received
  unread := gave.unread
  writes := by rw [gave.writes]
  orderly := by
    intro orderly write there
    rw [gave.writes] at there
    exact orderly write there

theorem Wrote.went (wrote : s₀.Wrote first s₁) (allowed : mayWrite s₀.received first) :
    Went mayWrite s₀ [] s₁ where
  received := by rw [wrote.received, List.append_nil]
  unread := congrArg streamOf wrote.incoming.symm
  writes := by
    rw [wrote.writes]
    exact List.prefix_append ..
  orderly := by
    intro orderly write there
    rw [wrote.writes, List.mem_append, List.mem_singleton] at there
    rcases there with old | rfl
    · exact orderly write old
    · exact allowed

theorem Went.refl (socket : Socket) : Went mayWrite socket [] socket := (Gave.refl socket).went

theorem Went.trans (went : Went mayWrite s₀ first s₁) (next : Went mayWrite s₁ second s₂) :
    Went mayWrite s₀ (first ++ second) s₂ where
  received := by rw [next.received, went.received, List.append_assoc]
  unread := by rw [went.unread, next.unread, List.append_assoc]
  writes := went.writes.trans next.writes
  orderly := fun orderly => next.orderly (went.orderly orderly)

/-- A stretch that may have broken off anywhere. -/
def Within (mayWrite : List UInt8 → List UInt8 → Prop) (before after : Socket) : Prop :=
  ∃ bytes, Went mayWrite before bytes after

theorem Went.within (went : Went mayWrite s₀ first s₁) : Within mayWrite s₀ s₁ := ⟨first, went⟩

theorem within_of_gave (gave : ∃ bytes, s₀.Gave bytes s₁) : Within mayWrite s₀ s₁ := by
  obtain ⟨bytes, gave⟩ := gave
  exact gave.went.within

theorem within_of_wrote {message : List UInt8}
    (allowed : ∀ start, start <+: message → mayWrite s₀.received start)
    (wrote : ∃ n, s₀.Wrote (message.take n) s₁) : Within mayWrite s₀ s₁ := by
  obtain ⟨n, wrote⟩ := wrote
  exact (wrote.went (allowed _ (List.take_prefix n message))).within

theorem Went.then_within (went : Went mayWrite s₀ first s₁) (next : Within mayWrite s₁ s₂) :
    Within mayWrite s₀ s₂ := by
  obtain ⟨second, next⟩ := next
  exact ⟨first ++ second, went.trans next⟩

end Socket

end Blasthttp.Rust
