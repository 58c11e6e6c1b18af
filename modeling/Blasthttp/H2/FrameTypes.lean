/-
# Blasthttp.H2.FrameTypes -- every builder of `h2/frame.rs`, and frames read by their type

A frame's type says how its payload reads (RFC 9113 §6).  Whatever builders are called, in
whatever order, the bytes one behind the other are frames that read as what was asked for
(`builds_parse`), but for the reserved bits, which the builders clear.  A raw frame is what
its caller makes it: it may have a type with no builder, or no payload of its type.
-/
import Blasthttp.H2.Frame

namespace Blasthttp.H2

open Blasthttp.Lib.BigEndian Blasthttp.Lib.Items

set_option autoImplicit false

/-! ## The other builders -/

def framePriority : UInt8 := 0x02
def frameRstStream : UInt8 := 0x03
def framePing : UInt8 := 0x06
def frameGoaway : UInt8 := 0x07
def frameWindowUpdate : UInt8 := 0x08

def buildWindowUpdateFrame (increment streamId : UInt32) : Option (List UInt8) :=
  buildRawFrame frameWindowUpdate 0 streamId (toBytes 4 increment.toNat)

def buildPingFrame (data : Vector UInt8 8) (ack : Bool) : Option (List UInt8) :=
  let flags := if ack then flagAck else 0
  buildRawFrame framePing flags 0 data.toList

def buildRstStreamFrame (streamId errorCode : UInt32) : Option (List UInt8) :=
  buildRawFrame frameRstStream 0 streamId (toBytes 4 errorCode.toNat)

def buildGoawayFrame (lastStreamId errorCode : UInt32) (debugData : List UInt8) :
    Option (List UInt8) :=
  buildRawFrame frameGoaway 0 0
    (toBytes 4 (lastStreamId &&& 0x7FFFFFFF).toNat ++ toBytes 4 errorCode.toNat ++ debugData)

def buildPriorityFrame (streamId depStream : UInt32) (weight : UInt8) (exclusive : Bool) :
    Option (List UInt8) :=
  buildRawFrame framePriority 0 streamId (priorityBytes (depStream, weight, exclusive))

/-! ## A call of a builder -/

inductive Build where
  | raw (frameType flags : UInt8) (streamId : UInt32) (payload : List UInt8)
  | settings (settings : List (UInt16 × UInt32)) (ack : Bool)
  | headers (opts : HeadersFrameOpts)
  | continuation (headerBlock : List UInt8) (streamId : UInt32) (endHeaders : Bool)
  | data (data : List UInt8) (streamId : UInt32) (endStream : Bool) (padding : UInt8)
  | windowUpdate (increment streamId : UInt32)
  | ping (data : Vector UInt8 8) (ack : Bool)
  | rstStream (streamId errorCode : UInt32)
  | goaway (lastStreamId errorCode : UInt32) (debugData : List UInt8)
  | priority (streamId depStream : UInt32) (weight : UInt8) (exclusive : Bool)

namespace Build

def bytes : Build → Option (List UInt8)
  | .raw frameType flags streamId payload => buildRawFrame frameType flags streamId payload
  | .settings pairs ack => buildSettingsFrame pairs ack
  | .headers opts => buildHeadersFrame opts
  | .continuation headerBlock streamId endHeaders =>
      buildContinuationFrame headerBlock streamId endHeaders
  | .data content streamId endStream padding => buildDataFrame content streamId endStream padding
  | .windowUpdate increment streamId => buildWindowUpdateFrame increment streamId
  | .ping content ack => buildPingFrame content ack
  | .rstStream streamId errorCode => buildRstStreamFrame streamId errorCode
  | .goaway lastStreamId errorCode debugData => buildGoawayFrame lastStreamId errorCode debugData
  | .priority streamId depStream weight exclusive =>
      buildPriorityFrame streamId depStream weight exclusive

/-- What the frame of a call is made of. -/
def frameType : Build → UInt8
  | .raw frameType _ _ _ => frameType
  | .settings _ _ => frameSettings
  | .headers _ => frameHeaders
  | .continuation _ _ _ => frameContinuation
  | .data _ _ _ _ => frameData
  | .windowUpdate _ _ => frameWindowUpdate
  | .ping _ _ => framePing
  | .rstStream _ _ => frameRstStream
  | .goaway _ _ _ => frameGoaway
  | .priority _ _ _ _ => framePriority

def flags : Build → UInt8
  | .raw _ flags _ _ => flags
  | .settings _ ack => if ack then flagAck else 0
  | .headers opts => opts.flags
  | .continuation _ _ endHeaders => if endHeaders then flagEndHeaders else 0
  | .data _ _ endStream padding => dataFlags endStream padding
  | .ping _ ack => if ack then flagAck else 0
  | _ => 0

def streamId : Build → UInt32
  | .raw _ _ streamId _ => streamId
  | .headers opts => opts.streamId
  | .continuation _ streamId _ => streamId
  | .data _ streamId _ _ => streamId
  | .windowUpdate _ streamId => streamId
  | .rstStream streamId _ => streamId
  | .priority streamId _ _ _ => streamId
  | _ => 0

def payload : Build → List UInt8
  | .raw _ _ _ payload => payload
  | .settings pairs _ => pairs.flatMap settingBytes
  | .headers opts => padded opts.padding opts.content
  | .continuation headerBlock _ _ => headerBlock
  | .data content _ _ padding => padded padding content
  | .windowUpdate increment _ => toBytes 4 increment.toNat
  | .ping content _ => content.toList
  | .rstStream _ errorCode => toBytes 4 errorCode.toNat
  | .goaway lastStreamId errorCode debugData =>
      toBytes 4 (lastStreamId &&& 0x7FFFFFFF).toNat ++ toBytes 4 errorCode.toNat ++ debugData
  | .priority _ depStream weight exclusive => priorityBytes (depStream, weight, exclusive)

theorem bytes_eq (build : Build) :
    build.bytes = buildRawFrame build.frameType build.flags build.streamId build.payload := by
  cases build <;> rfl

def frame (build : Build) (fits : build.payload.length < 2 ^ 24) : Frame :=
  ⟨build.frameType, build.flags, build.streamId &&& 0x7FFFFFFF, build.payload, fits⟩

theorem bytes_of_fits (build : Build) (fits : build.payload.length < 2 ^ 24) :
    build.bytes = some (build.frame fits).bytes :=
  (bytes_eq build).trans (buildRawFrame_eq build.frameType build.flags build.streamId fits)

/-- The assertion of `build_raw_frame` is the only way a builder does not return. -/
theorem bytes_eq_none {build : Build} (long : 2 ^ 24 ≤ build.payload.length) :
    build.bytes = none := by
  have beyond : ¬ build.payload.length < 1 <<< 24 := Nat.not_lt_of_le long
  rw [bytes_eq, buildRawFrame]
  simp only
  rw [if_neg beyond]

/-- What is left of a call on the wire: the reserved bits are cleared. -/
def wire : Build → Build
  | .raw frameType flags streamId payload =>
      .raw frameType flags (streamId &&& 0x7FFFFFFF) payload
  | .headers opts =>
      .headers { opts with
        streamId := opts.streamId &&& 0x7FFFFFFF
        priority := opts.priority.map wirePriority }
  | .continuation headerBlock streamId endHeaders =>
      .continuation headerBlock (streamId &&& 0x7FFFFFFF) endHeaders
  | .data content streamId endStream padding =>
      .data content (streamId &&& 0x7FFFFFFF) endStream padding
  | .windowUpdate increment streamId => .windowUpdate increment (streamId &&& 0x7FFFFFFF)
  | .rstStream streamId errorCode => .rstStream (streamId &&& 0x7FFFFFFF) errorCode
  | .goaway lastStreamId errorCode debugData =>
      .goaway (lastStreamId &&& 0x7FFFFFFF) errorCode debugData
  | .priority streamId depStream weight exclusive =>
      .priority (streamId &&& 0x7FFFFFFF) (depStream &&& 0x7FFFFFFF) weight exclusive
  | build => build

end Build

/-! ## Frames read by their type -/

/-- A number of 32 bits off the front. -/
def readWord (content : List UInt8) : Option (UInt32 × List UInt8) :=
  if 4 ≤ content.length then
    some (UInt32.ofNat (ofBytes (content.take 4)), content.drop 4)
  else none

theorem readWord_append (word : UInt32) (rest : List UInt8) :
    readWord (toBytes 4 word.toNat ++ rest) = some (word, rest) := by
  have length : (toBytes 4 word.toNat).length = 4 := length_toBytes ..
  have back : ofBytes (toBytes 4 word.toNat) = word.toNat := ofBytes_toBytes_of_lt word.toNat_lt
  rw [readWord, if_pos (by rw [List.length_append, length]; omega), List.take_left' length,
    List.drop_left' length, back, UInt32.ofNat_toNat]

/-- The pad length of a frame, 0 where it has none. -/
def Frame.padding (frame : Frame) : UInt8 :=
  if frame.has flagPadded then frame.payload.headD 0 else 0

section Payloads

variable (frame : Frame)

def Frame.readDataFrame : Option Build := do
  let content ← frame.unpadded
  some (.data content frame.streamId (frame.has flagEndStream) frame.padding)

def Frame.readHeadersFrame : Option Build := do
  let (priority, headerBlock) ← frame.readHeaders
  some (.headers
    { headerBlock := headerBlock
      streamId := frame.streamId
      endStream := frame.has flagEndStream
      endHeaders := frame.has flagEndHeaders
      padding := frame.padding
      priority := priority })

def Frame.readPriorityFrame : Option Build := do
  let (word, rest) ← readWord frame.payload
  match rest with
  | [weight] =>
      some (.priority frame.streamId (UInt32.ofNat (word.toNat % 2 ^ 31)) weight
        (decide (2 ^ 31 ≤ word.toNat)))
  | _ => none

def Frame.readRstStreamFrame : Option Build := do
  let (errorCode, rest) ← readWord frame.payload
  if rest = [] then some (.rstStream frame.streamId errorCode) else none

def Frame.readSettingsFrame : Option Build := do
  let pairs ← readAll readSetting frame.payload
  some (.settings pairs (frame.has flagAck))

def Frame.readPingFrame : Option Build :=
  if eight : frame.payload.length = 8 then
    some (.ping ⟨frame.payload.toArray, eight⟩ (frame.has flagAck))
  else none

def Frame.readGoawayFrame : Option Build := do
  let (lastStreamId, rest) ← readWord frame.payload
  let (errorCode, debugData) ← readWord rest
  some (.goaway lastStreamId errorCode debugData)

def Frame.readWindowUpdateFrame : Option Build := do
  let (increment, rest) ← readWord frame.payload
  if rest = [] then some (.windowUpdate increment frame.streamId) else none

def Frame.readContinuationFrame : Option Build :=
  some (.continuation frame.payload frame.streamId (frame.has flagEndHeaders))

/-- A frame as the call of a builder that it could come from. -/
def Frame.read : Option Build :=
  match frame.frameType.toNat with
  | 0x00 => frame.readDataFrame
  | 0x01 => frame.readHeadersFrame
  | 0x02 => frame.readPriorityFrame
  | 0x03 => frame.readRstStreamFrame
  | 0x04 => frame.readSettingsFrame
  | 0x06 => frame.readPingFrame
  | 0x07 => frame.readGoawayFrame
  | 0x08 => frame.readWindowUpdateFrame
  | 0x09 => frame.readContinuationFrame
  | _ => none

end Payloads

def Frame.readRawFrame (frame : Frame) : Build :=
  .raw frame.frameType frame.flags frame.streamId frame.payload

/-- The frame is what is left of the call: a raw one part by part, another by its type. -/
def Build.ReadFrom (build : Build) (frame : Frame) : Prop :=
  match build with
  | .raw _ _ _ _ => frame.readRawFrame = build.wire
  | _ => frame.read = some build.wire

theorem padding_eq {frame : Frame} {pad : UInt8} {content : List UInt8}
    (payload : frame.payload = padded pad content)
    (flag : frame.has flagPadded = decide (0 < pad)) : frame.padding = pad := by
  unfold Frame.padding
  rw [flag, payload]
  by_cases some_ : 0 < pad
  · rw [if_pos (decide_eq_true some_), padded_of_pos some_]
    rfl
  · obtain rfl := UInt8.le_antisymm (UInt8.not_lt.mp some_) UInt8.zero_le
    rfl

theorem readPriority_bytes (depStream : UInt32) (weight : UInt8) (exclusive : Bool) :
    ∃ word, readWord (priorityBytes (depStream, weight, exclusive)) = some (word, [weight]) ∧
      UInt32.ofNat (word.toNat % 2 ^ 31) = depStream &&& 0x7FFFFFFF ∧
        decide (2 ^ 31 ≤ word.toNat) = exclusive := by
  obtain ⟨word, made⟩ : ∃ word : UInt32, word = if exclusive then
    (depStream &&& 0x7FFFFFFF) ||| 0x80000000 else depStream &&& 0x7FFFFFFF := ⟨_, rfl⟩
  obtain ⟨low, high⟩ := depWord_split depStream exclusive made
  refine ⟨word, ?_, ?_, ?_⟩
  · have bytes : priorityBytes (depStream, weight, exclusive) =
        toBytes 4 word.toNat ++ [weight] := by
      rw [made]
      rfl
    rw [bytes]
    exact readWord_append word [weight]
  · rw [low, UInt32.ofNat_toNat]
  · rw [Bool.eq_iff_iff, decide_eq_true_iff]
    exact high

theorem readWord_toBytes (word : UInt32) : readWord (toBytes 4 word.toNat) = some (word, []) := by
  have read := readWord_append word []
  rw [List.append_nil] at read
  exact read

/-- A flag that is the only one. -/
theorem has_only {frame : Frame} {flag : UInt8} {b : Bool} (some_ : flag ≠ 0)
    (flags : frame.flags = if b then flag else 0) : frame.has flag = b := by
  unfold Frame.has
  rw [flags]
  cases b with
  | true =>
      rw [if_pos rfl, UInt8.and_self]
      exact decide_eq_true rfl
  | false =>
      rw [if_neg Bool.false_ne_true, UInt8.zero_and]
      exact decide_eq_false some_.symm

/-- The frame of a call reads as the call, up to the reserved bits. -/
theorem Build.frame_read (build : Build) (fits : build.payload.length < 2 ^ 24) :
    build.ReadFrom (build.frame fits) := by
  cases build with
  | raw frameType flags streamId payload => exact rfl
  | data content streamId endStream padding =>
      obtain ⟨ends, isPadded⟩ := dataFrame_has content streamId endStream padding fits
      have content_ := dataFrame_unpadded content streamId endStream padding fits
      have pad : (dataFrame content streamId endStream padding fits).padding = padding :=
        padding_eq rfl isPadded
      show (dataFrame content streamId endStream padding fits).readDataFrame = _
      rw [Frame.readDataFrame, content_, pad, ends]
      rfl
  | headers opts =>
      obtain ⟨ends, endsHeaders, isPadded, -⟩ := opts.frame_has fits
      have fields := opts.frame_readHeaders fits
      have pad : (opts.frame fits).padding = opts.padding := padding_eq rfl isPadded
      show (opts.frame fits).readHeadersFrame = _
      rw [Frame.readHeadersFrame, fields, pad, ends, endsHeaders]
      rfl
  | priority streamId depStream weight exclusive =>
      obtain ⟨word, read, low, bit⟩ := readPriority_bytes depStream weight exclusive
      show (readWord (priorityBytes (depStream, weight, exclusive)) >>= fun x => _) = _
      rw [read]
      show some (Build.priority _ (UInt32.ofNat (word.toNat % 2 ^ 31)) weight
        (decide (2 ^ 31 ≤ word.toNat))) = _
      rw [low, bit]
      rfl
  | rstStream streamId errorCode =>
      show (readWord (toBytes 4 errorCode.toNat) >>= fun x => _) = _
      rw [readWord_toBytes]
      rfl
  | settings pairs ack =>
      have flag : (Build.frame (.settings pairs ack) fits).has flagAck = ack :=
        has_only (by decide) rfl
      show (Build.frame (.settings pairs ack) fits).readSettingsFrame = _
      rw [Frame.readSettingsFrame, flag]
      show (readAll readSetting (pairs.flatMap settingBytes) >>= fun x => _) = _
      rw [readAll_flatMap readSetting_inverts]
      rfl
  | ping content ack =>
      have flag : (Build.frame (.ping content ack) fits).has flagAck = ack :=
        has_only (by decide) rfl
      have eight : (Build.frame (.ping content ack) fits).payload.length = 8 :=
        Vector.length_toList
      show (Build.frame (.ping content ack) fits).readPingFrame = _
      rw [Frame.readPingFrame, dif_pos eight, flag]
      rfl
  | goaway lastStreamId errorCode debugData =>
      show (readWord (toBytes 4 (lastStreamId &&& 0x7FFFFFFF).toNat ++ toBytes 4 errorCode.toNat ++
        debugData) >>= fun x => _) = _
      rw [List.append_assoc, readWord_append]
      show (readWord (toBytes 4 errorCode.toNat ++ debugData) >>= fun x => _) = _
      rw [readWord_append]
      rfl
  | windowUpdate increment streamId =>
      show (readWord (toBytes 4 increment.toNat) >>= fun x => _) = _
      rw [readWord_toBytes]
      rfl
  | continuation headerBlock streamId endHeaders =>
      have flag : (Build.frame (.continuation headerBlock streamId endHeaders) fits).has
          flagEndHeaders = endHeaders := has_only (by decide) rfl
      show (Build.frame (.continuation headerBlock streamId endHeaders) fits).readContinuationFrame =
        _
      rw [Frame.readContinuationFrame, flag]
      rfl

/-! ## Any sequence of calls -/

theorem builds_bytes (builds : List Build) (fit : ∀ build ∈ builds, build.payload.length < 2 ^ 24) :
    ∃ (wire : List (List UInt8)) (frames : List Frame), builds.mapM Build.bytes = some wire ∧
      wire.flatten = frames.flatMap Frame.bytes ∧ List.Forall₂ Build.ReadFrom builds frames := by
  induction builds with
  | nil => exact ⟨[], [], rfl, rfl, .nil⟩
  | cons build builds ih =>
      obtain ⟨wire, frames, written, whole, read⟩ :=
        ih fun other there => fit other (List.mem_cons_of_mem _ there)
      have fits := fit build List.mem_cons_self
      refine ⟨(build.frame fits).bytes :: wire, build.frame fits :: frames, ?_, ?_,
        .cons (build.frame_read fits) read⟩
      · rw [List.mapM_cons, build.bytes_of_fits fits, written]
        rfl
      · rw [List.flatten_cons, List.flatMap_cons, whole]

/-- **Frames of any kind, in any order.**  A sequence of builder calls fails exactly when some
payload does not fit in a frame's 24-bit length; otherwise its bytes, one behind the other,
are frames and nothing else, and these read one by one as the calls, with every reserved
bit clear: each by its type, and a raw one as its type, flags, stream and payload. -/
theorem builds_parse (builds : List Build) :
    (∃ build ∈ builds, 2 ^ 24 ≤ build.payload.length) ∧ builds.mapM Build.bytes = none ∨
      (∀ build ∈ builds, build.payload.length < 2 ^ 24) ∧
        ∃ wire frames, builds.mapM Build.bytes = some wire ∧
          readAll readFrame wire.flatten = some frames ∧
            List.Forall₂ Build.ReadFrom builds frames := by
  by_cases fit : ∀ build ∈ builds, build.payload.length < 2 ^ 24
  · obtain ⟨wire, frames, written, whole, read⟩ := builds_bytes builds fit
    refine .inr ⟨fit, wire, frames, written, ?_, read⟩
    rw [whole]
    exact readAll_flatMap readFrame_inverts frames
  · push Not at fit
    obtain ⟨build, there, long⟩ := fit
    refine .inl ⟨⟨build, there, long⟩, ?_⟩
    obtain ⟨front, back, rfl⟩ := List.append_of_mem there
    rw [List.mapM_append, List.mapM_cons, Build.bytes_eq_none long]
    cases front.mapM Build.bytes <;> rfl

end Blasthttp.H2
