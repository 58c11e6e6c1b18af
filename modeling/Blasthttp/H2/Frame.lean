/-
# Blasthttp.H2.Frame -- frames and the builders of `h2/frame.rs`

A frame is a length, a type, flags, a stream word and as many bytes as the length says
(RFC 9113 §4.1).  `readFrame` takes one off a stream of bytes, and the other readers
take the payloads apart as the flags say; `buildRawFrame_eq` is where a builder's bytes
become a frame.
-/
import Blasthttp.H2.HpackEncode
import Blasthttp.Lib.BigEndian
import Blasthttp.Lib.Items

namespace Blasthttp.H2

open Blasthttp.Lib.BigEndian Blasthttp.Lib.Items

set_option autoImplicit false

/-! ## Frames -/

@[ext]
structure Frame where
  frameType : UInt8
  flags : UInt8
  /-- The stream identifier with the reserved bit in front. -/
  streamId : UInt32
  payload : List UInt8
  fits : payload.length < 2 ^ 24
  deriving DecidableEq

def frameData : UInt8 := 0x00
def frameHeaders : UInt8 := 0x01
def frameSettings : UInt8 := 0x04
def frameContinuation : UInt8 := 0x09

def flagEndStream : UInt8 := 0x01
def flagAck : UInt8 := 0x01
def flagEndHeaders : UInt8 := 0x04
def flagPadded : UInt8 := 0x08
def flagPriority : UInt8 := 0x20

namespace Frame

def bytes (frame : Frame) : List UInt8 :=
  toBytes 3 frame.payload.length ++ ([frame.frameType, frame.flags] ++
    (toBytes 4 frame.streamId.toNat ++ frame.payload))

def has (frame : Frame) (flag : UInt8) : Bool := frame.flags &&& flag = flag

end Frame

/-! ## Readers -/

theorem ofBytes_take_lt (input : List UInt8) : ofBytes (input.take 3) < 2 ^ 24 :=
  Nat.lt_of_lt_of_le (ofBytes_lt _)
    (Nat.pow_le_pow_right (by decide) (List.length_take_le 3 input))

def readFrame : Reader UInt8 Frame := fun input =>
  let length := ofBytes (input.take 3)
  match input.drop 3 with
  | frameType :: flags :: rest =>
      if 4 + length ≤ rest.length then
        some
          (⟨frameType, flags, UInt32.ofNat (ofBytes (rest.take 4)), (rest.drop 4).take length,
            Nat.lt_of_le_of_lt (List.length_take_le _ _) (ofBytes_take_lt input)⟩,
            rest.drop (4 + length))
      else none
  | _ => none

theorem readFrame_inverts : Inverts readFrame Frame.bytes where
  some_ := by
    intro frame
    exact List.cons_ne_nil _ _
  back := by
    intro frame rest
    have length : ofBytes (toBytes 3 frame.payload.length) = frame.payload.length :=
      ofBytes_toBytes_of_lt frame.fits
    have word : ofBytes (toBytes 4 frame.streamId.toNat) = frame.streamId.toNat :=
      ofBytes_toBytes_of_lt frame.streamId.toNat_lt
    -- the header is made of single bytes, so that taking it off is computation
    show (if 4 + ofBytes (toBytes 3 frame.payload.length) ≤
          (toBytes 4 frame.streamId.toNat ++ (frame.payload ++ rest)).length then
        some ((⟨frame.frameType, frame.flags,
          UInt32.ofNat (ofBytes (toBytes 4 frame.streamId.toNat)),
          (frame.payload ++ rest).take (ofBytes (toBytes 3 frame.payload.length)), _⟩ : Frame),
          (toBytes 4 frame.streamId.toNat ++ (frame.payload ++ rest)).drop
            (4 + ofBytes (toBytes 3 frame.payload.length)))
      else none) = some (frame, rest)
    rw [if_pos]
    · congr 2
      · apply Frame.ext
        · rfl
        · rfl
        · show UInt32.ofNat (ofBytes (toBytes 4 frame.streamId.toNat)) = frame.streamId
          rw [word]
          exact UInt32.ofNat_toNat
        · show (frame.payload ++ rest).take (ofBytes (toBytes 3 frame.payload.length)) = frame.payload
          rw [length]
          exact List.take_left
      · rw [length, ← List.append_assoc, List.drop_left' (by
          rw [List.length_append, length_toBytes])]
    · rw [length, List.length_append, List.length_append, length_toBytes]
      omega

/-! ## Builders -/

/-- `build_raw_frame`; `none` is the panic of its assertion. -/
def buildRawFrame (frameType flags : UInt8) (streamId : UInt32) (payload : List UInt8) :
    Option (List UInt8) :=
  let len := payload.length
  if len < 1 <<< 24 then
    let sid := streamId &&& 0x7FFFFFFF
    some
      ([UInt8.ofNat ((len >>> 16) &&& 0xFF), UInt8.ofNat ((len >>> 8) &&& 0xFF),
        UInt8.ofNat (len &&& 0xFF), frameType, flags, ((sid >>> 24) &&& 0xFF).toUInt8,
        ((sid >>> 16) &&& 0xFF).toUInt8, ((sid >>> 8) &&& 0xFF).toUInt8,
        (sid &&& 0xFF).toUInt8] ++ payload)
  else none

theorem lengthByte (n k : Nat) : UInt8.ofNat ((n >>> k) &&& 0xFF) = UInt8.ofNat (n / 2 ^ k) := by
  apply UInt8.toNat_inj.mp
  have low : (n >>> k) &&& 0xFF = n / 2 ^ k % 256 := by
    rw [Nat.shiftRight_eq_div_pow]
    exact Nat.and_two_pow_sub_one_eq_mod _ 8
  rw [low]
  show n / 2 ^ k % 256 % 256 = n / 2 ^ k % 256
  exact Nat.mod_mod _ _

theorem streamByte (sid k : UInt32) (small : k.toNat < 32) :
    ((sid >>> k) &&& 0xFF).toUInt8 = UInt8.ofNat (sid.toNat / 2 ^ k.toNat) := by
  rw [← lengthByte]
  apply UInt8.toNat_inj.mp
  rw [UInt32.toNat_toUInt8, UInt32.toNat_and, UInt32.toNat_shiftRight, Nat.mod_eq_of_lt small]
  rfl

theorem lengthBytes (n : Nat) :
    [UInt8.ofNat ((n >>> 16) &&& 0xFF), UInt8.ofNat ((n >>> 8) &&& 0xFF),
      UInt8.ofNat (n &&& 0xFF)] = toBytes 3 n := by
  have low : UInt8.ofNat (n &&& 0xFF) = UInt8.ofNat (n / 2 ^ 0) := lengthByte n 0
  rw [lengthByte, lengthByte, low]
  rfl

theorem streamBytes (sid : UInt32) :
    [((sid >>> 24) &&& 0xFF).toUInt8, ((sid >>> 16) &&& 0xFF).toUInt8,
      ((sid >>> 8) &&& 0xFF).toUInt8, (sid &&& 0xFF).toUInt8] = toBytes 4 sid.toNat := by
  have low : (sid &&& 0xFF).toUInt8 = UInt8.ofNat (sid.toNat / 2 ^ (0 : UInt32).toNat) := by
    rw [← streamByte sid 0 (by decide), UInt32.shiftRight_zero]
  rw [streamByte sid 24 (by decide), streamByte sid 16 (by decide), streamByte sid 8 (by decide),
    low]
  rfl

/-- Within the bound a builder's bytes are a frame. -/
theorem buildRawFrame_eq (frameType flags : UInt8) (streamId : UInt32) {payload : List UInt8}
    (fits : payload.length < 2 ^ 24) :
    buildRawFrame frameType flags streamId payload =
      some (Frame.bytes ⟨frameType, flags, streamId &&& 0x7FFFFFFF, payload, fits⟩) := by
  have below : payload.length < 1 <<< 24 := fits
  unfold buildRawFrame Frame.bytes
  simp only
  rw [if_pos below, ← lengthBytes, ← streamBytes]
  rfl

/-! ## SETTINGS -/

def settingBytes (setting : UInt16 × UInt32) : List UInt8 :=
  [(setting.1 >>> 8).toUInt8, setting.1.toUInt8] ++ toBytes 4 setting.2.toNat

def buildSettingsFrame (settings : List (UInt16 × UInt32)) (ack : Bool) : Option (List UInt8) :=
  let flags := if ack then flagAck else 0
  buildRawFrame frameSettings flags 0 (settings.flatMap settingBytes)

/-- One pair of a SETTINGS payload (RFC 9113 §6.5.1). -/
def readSetting : Reader UInt8 (UInt16 × UInt32) := fun input =>
  if 6 ≤ input.length then
    some
      ((UInt16.ofNat (ofBytes (input.take 2)), UInt32.ofNat (ofBytes ((input.drop 2).take 4))),
        input.drop 6)
  else none

theorem idBytes (id : UInt16) : [(id >>> 8).toUInt8, id.toUInt8] = toBytes 2 id.toNat := by
  have high : (id >>> 8).toUInt8 = UInt8.ofNat (id.toNat / 256 ^ 1) := by
    apply UInt8.toNat_inj.mp
    rw [UInt16.toNat_toUInt8, UInt16.toNat_shiftRight, Nat.shiftRight_eq_div_pow]
    rfl
  have low : id.toUInt8 = UInt8.ofNat (id.toNat / 256 ^ 0) := by
    rw [Nat.pow_zero, Nat.div_one]
    rfl
  rw [high, low]
  rfl

theorem readSetting_inverts : Inverts readSetting settingBytes where
  some_ := by
    intro setting
    exact List.cons_ne_nil _ _
  back := by
    rintro ⟨id, val⟩ rest
    have idBack : ofBytes (toBytes 2 id.toNat) = id.toNat := ofBytes_toBytes_of_lt id.toNat_lt
    have valBack : ofBytes (toBytes 4 val.toNat) = val.toNat := ofBytes_toBytes_of_lt val.toNat_lt
    unfold settingBytes
    rw [idBytes]
    show some ((UInt16.ofNat (ofBytes (toBytes 2 id.toNat)),
      UInt32.ofNat (ofBytes (toBytes 4 val.toNat))), rest) = some ((id, val), rest)
    rw [idBack, valBack, UInt16.ofNat_toNat, UInt32.ofNat_toNat]

theorem length_settings (settings : List (UInt16 × UInt32)) :
    (settings.flatMap settingBytes).length = 6 * settings.length := by
  induction settings with
  | nil => rfl
  | cons setting settings ih =>
      have six : (settingBytes setting).length = 6 := rfl
      rw [List.flatMap_cons, List.length_append, six, ih, List.length_cons]
      omega

/-! ## Padding -/

/-- The content of a payload without its padding, as the flag says. -/
def Frame.unpadded (frame : Frame) : Option (List UInt8) :=
  if frame.has flagPadded then
    match frame.payload with
    | [] => none
    | pad :: rest =>
        if pad.toNat ≤ rest.length then some (rest.take (rest.length - pad.toNat)) else none
  else some frame.payload

/-- What the builders put around a content. -/
def padded (padding : UInt8) (content : List UInt8) : List UInt8 :=
  (if 0 < padding then [padding] else []) ++ content ++ List.replicate padding.toNat 0

theorem padded_of_pos {padding : UInt8} (some_ : 0 < padding) (content : List UInt8) :
    padded padding content = padding :: (content ++ List.replicate padding.toNat 0) := by
  unfold padded
  rw [if_pos some_]
  rfl

theorem padded_zero (content : List UInt8) : padded 0 content = content := by
  unfold padded
  rw [if_neg (by decide)]
  exact List.append_nil _

theorem length_padded (padding : UInt8) (content : List UInt8) :
    (padded padding content).length =
      (if 0 < padding then 1 + padding.toNat else 0) + content.length := by
  by_cases some_ : 0 < padding
  · rw [padded_of_pos some_, if_pos some_, List.length_cons, List.length_append,
      List.length_replicate]
    omega
  · obtain rfl := UInt8.le_antisymm (UInt8.not_lt.mp some_) UInt8.zero_le
    rw [padded_zero, if_neg some_, Nat.zero_add]

theorem unpadded_padded {frame : Frame} {padding : UInt8} {content : List UInt8}
    (payload : frame.payload = padded padding content)
    (flag : frame.has flagPadded = decide (0 < padding)) : frame.unpadded = some content := by
  unfold Frame.unpadded
  rw [flag, payload]
  by_cases some_ : 0 < padding
  · rw [padded_of_pos some_, if_pos (decide_eq_true some_)]
    have count : (content ++ List.replicate padding.toNat 0).length =
        content.length + padding.toNat := by
      rw [List.length_append, List.length_replicate]
    simp only [count, Nat.le_add_left, if_true, Nat.add_sub_cancel, List.take_left]
  · obtain rfl := UInt8.le_antisymm (UInt8.not_lt.mp some_) UInt8.zero_le
    rw [padded_zero]
    rfl

/-! ## HEADERS, CONTINUATION and DATA -/

structure HeadersFrameOpts where
  headerBlock : List UInt8
  streamId : UInt32
  endStream : Bool
  endHeaders : Bool
  padding : UInt8
  priority : Option (UInt32 × UInt8 × Bool)

def priorityBytes : UInt32 × UInt8 × Bool → List UInt8
  | (dep, weight, exclusive) =>
      let depWord := dep &&& 0x7FFFFFFF
      let depWord := if exclusive then depWord ||| 0x80000000 else depWord
      toBytes 4 depWord.toNat ++ [weight]

/-- The payload with its PRIORITY fields, before the padding. -/
def HeadersFrameOpts.content (opts : HeadersFrameOpts) : List UInt8 :=
  (match opts.priority with
    | some priority => priorityBytes priority
    | none => []) ++ opts.headerBlock

def HeadersFrameOpts.flags (opts : HeadersFrameOpts) : UInt8 :=
  let flags : UInt8 := 0
  let flags := if opts.endStream then flags ||| flagEndStream else flags
  let flags := if opts.endHeaders then flags ||| flagEndHeaders else flags
  let flags := if 0 < opts.padding then flags ||| flagPadded else flags
  if opts.priority.isSome then flags ||| flagPriority else flags

def buildHeadersFrame (opts : HeadersFrameOpts) : Option (List UInt8) :=
  buildRawFrame frameHeaders opts.flags opts.streamId (padded opts.padding opts.content)

def buildContinuationFrame (headerBlock : List UInt8) (streamId : UInt32) (endHeaders : Bool) :
    Option (List UInt8) :=
  let flags := if endHeaders then flagEndHeaders else 0
  buildRawFrame frameContinuation flags streamId headerBlock

def dataFlags (endStream : Bool) (padding : UInt8) : UInt8 :=
  let flags : UInt8 := 0
  let flags := if endStream then flags ||| flagEndStream else flags
  if 0 < padding then flags ||| flagPadded else flags

def buildDataFrame (data : List UInt8) (streamId : UInt32) (endStream : Bool) (padding : UInt8) :
    Option (List UInt8) :=
  buildRawFrame frameData (dataFlags endStream padding) streamId (padded padding data)

/-- The PRIORITY fields of a HEADERS frame and its fragment, as the flags say (RFC 9113
§6.2): exclusive bit, stream dependency, weight. -/
def Frame.readHeaders (frame : Frame) : Option (Option (UInt32 × UInt8 × Bool) × List UInt8) := do
  let content ← frame.unpadded
  if frame.has flagPriority then
    match content.drop 4 with
    | [] => none
    | weight :: fragment =>
        let word := ofBytes (content.take 4)
        some (some (UInt32.ofNat (word % 2 ^ 31), weight, decide (2 ^ 31 ≤ word)), fragment)
  else some (none, content)

/-- What of a priority is on the wire. -/
def wirePriority : UInt32 × UInt8 × Bool → UInt32 × UInt8 × Bool
  | (dep, weight, exclusive) => (dep &&& 0x7FFFFFFF, weight, exclusive)

theorem depWord_split (dep : UInt32) (exclusive : Bool) {word : UInt32}
    (made : word = if exclusive then (dep &&& 0x7FFFFFFF) ||| 0x80000000 else dep &&& 0x7FFFFFFF) :
    word.toNat % 2 ^ 31 = (dep &&& 0x7FFFFFFF).toNat ∧ (2 ^ 31 ≤ word.toNat ↔ exclusive = true) := by
  have low : (dep &&& 0x7FFFFFFF).toNat < 2 ^ 31 := by
    rw [UInt32.toNat_and]
    exact Nat.lt_of_le_of_lt Nat.and_le_right (by decide)
  cases exclusive with
  | false =>
      rw [if_neg Bool.false_ne_true] at made
      rw [made]
      exact ⟨Nat.mod_eq_of_lt low, by simp only [Bool.false_eq_true, iff_false]; omega⟩
  | true =>
      have sum : word.toNat = (dep &&& 0x7FFFFFFF).toNat + 2 ^ 31 := by
        rw [made, if_pos rfl, UInt32.toNat_or]
        exact Nat.or_two_pow_eq_add_of_lt low
      rw [sum]
      exact ⟨by omega, by simp only [iff_true]; omega⟩

/-- The frame `buildHeadersFrame` makes. -/
def HeadersFrameOpts.frame (opts : HeadersFrameOpts)
    (fits : (padded opts.padding opts.content).length < 2 ^ 24) : Frame :=
  ⟨frameHeaders, opts.flags, opts.streamId &&& 0x7FFFFFFF, padded opts.padding opts.content, fits⟩

/-- The frame `buildDataFrame` makes. -/
def dataFrame (data : List UInt8) (streamId : UInt32) (endStream : Bool) (padding : UInt8)
    (fits : (padded padding data).length < 2 ^ 24) : Frame :=
  ⟨frameData, dataFlags endStream padding, streamId &&& 0x7FFFFFFF, padded padding data, fits⟩

theorem HeadersFrameOpts.length_content (opts : HeadersFrameOpts) :
    opts.content.length = (if opts.priority.isSome then 5 else 0) + opts.headerBlock.length := by
  unfold HeadersFrameOpts.content
  cases opts.priority with
  | none => exact (Nat.zero_add _).symm
  | some priority => exact List.length_append

section Headers

variable (opts : HeadersFrameOpts) (fits : (padded opts.padding opts.content).length < 2 ^ 24)

theorem buildHeadersFrame_eq : buildHeadersFrame opts = some (opts.frame fits).bytes :=
  buildRawFrame_eq frameHeaders opts.flags opts.streamId fits

/-- The flags say what the frame has. -/
theorem HeadersFrameOpts.frame_has :
    (opts.frame fits).has flagEndStream = opts.endStream ∧
      (opts.frame fits).has flagEndHeaders = opts.endHeaders ∧
        (opts.frame fits).has flagPadded = decide (0 < opts.padding) ∧
          (opts.frame fits).has flagPriority = opts.priority.isSome := by
  unfold Frame.has HeadersFrameOpts.frame HeadersFrameOpts.flags
  generalize opts.endStream = endStream
  generalize opts.endHeaders = endHeaders
  generalize opts.priority.isSome = prioritized
  by_cases some_ : 0 < opts.padding
  · simp only [some_, if_true, decide_true]
    revert endStream endHeaders prioritized
    decide
  · simp only [some_, if_false, decide_false]
    revert endStream endHeaders prioritized
    decide

theorem HeadersFrameOpts.frame_readHeaders :
    (opts.frame fits).readHeaders = some (opts.priority.map wirePriority, opts.headerBlock) := by
  obtain ⟨_, _, isPadded, prioritized⟩ := opts.frame_has fits
  unfold Frame.readHeaders
  rw [unpadded_padded rfl isPadded]
  show (if (opts.frame fits).has flagPriority then _ else _) = _
  rw [prioritized]
  unfold HeadersFrameOpts.content
  cases opts.priority with
  | none => rfl
  | some priority =>
      obtain ⟨dep, weight, exclusive⟩ := priority
      obtain ⟨word, made⟩ : ∃ word : UInt32, word = if exclusive then
        (dep &&& 0x7FFFFFFF) ||| 0x80000000 else dep &&& 0x7FFFFFFF := ⟨_, rfl⟩
      obtain ⟨low, high⟩ := depWord_split dep exclusive made
      have back : ofBytes (toBytes 4 word.toNat) = word.toNat := ofBytes_toBytes_of_lt word.toNat_lt
      have bytes : priorityBytes (dep, weight, exclusive) = toBytes 4 word.toNat ++ [weight] := by
        rw [made]
        rfl
      have bit : decide (2 ^ 31 ≤ word.toNat) = exclusive := by
        rw [Bool.eq_iff_iff, decide_eq_true_iff]
        exact high
      simp only [bytes]
      show some (some (UInt32.ofNat (ofBytes (toBytes 4 word.toNat) % 2 ^ 31), weight,
        decide (2 ^ 31 ≤ ofBytes (toBytes 4 word.toNat))), opts.headerBlock) = _
      rw [back, low, UInt32.ofNat_toNat, bit]
      rfl

end Headers

section Data

variable (data : List UInt8) (streamId : UInt32) (endStream : Bool) (padding : UInt8)
  (fits : (padded padding data).length < 2 ^ 24)

theorem buildDataFrame_eq : buildDataFrame data streamId endStream padding =
    some (dataFrame data streamId endStream padding fits).bytes :=
  buildRawFrame_eq frameData (dataFlags endStream padding) streamId fits

theorem dataFrame_has :
    (dataFrame data streamId endStream padding fits).has flagEndStream = endStream ∧
      (dataFrame data streamId endStream padding fits).has flagPadded = decide (0 < padding) := by
  unfold Frame.has dataFrame dataFlags
  by_cases some_ : 0 < padding
  · simp only [some_, if_true, decide_true]
    cases endStream <;> decide
  · simp only [some_, if_false, decide_false]
    cases endStream <;> decide

theorem dataFrame_unpadded :
    (dataFrame data streamId endStream padding fits).unpadded = some data :=
  unpadded_padded rfl (dataFrame_has data streamId endStream padding fits).2

end Data

end Blasthttp.H2
