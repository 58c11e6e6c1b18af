/-
# Blasthttp.H2.Probe -- `build_probe`

A whole request as bytes: preface, SETTINGS, HEADERS with a CONTINUATION where it is
split, DATA, and what the caller puts in between.  `buildProbe_parses` reads it back:
behind the preface there is nothing but frames, and they say what the options said.
-/
import Blasthttp.H2.Frame

namespace Blasthttp.H2

open Blasthttp.Lib.Items Blasthttp.H2.Hpack

set_option autoImplicit false

/-! ## `build_probe` -/

def preface : List UInt8 := ascii "PRI * HTTP/2.0\r\n\r\nSM\r\n\r\n"

structure ProbeOpts where
  sendPreface : Bool
  prefaceOverride : Option (List UInt8)
  settings : Option (List (UInt16 × UInt32))
  streamId : UInt32
  body : Option (List UInt8)
  splitHeadersAfter : Option Nat
  padHeaders : UInt8
  padData : UInt8
  priority : Option (UInt32 × UInt8 × Bool)
  forceNoEndStreamOnHeaders : Bool
  extraFramesBeforeHeaders : List UInt8
  extraFramesAfter : List UInt8

/-- `ProbeOpts::default`. -/
def ProbeOpts.default : ProbeOpts where
  sendPreface := true
  prefaceOverride := none
  settings := some []
  streamId := 1
  body := none
  splitHeadersAfter := none
  padHeaders := 0
  padData := 0
  priority := none
  forceNoEndStreamOnHeaders := false
  extraFramesBeforeHeaders := []
  extraFramesAfter := []

def probePreface (opts : ProbeOpts) : List UInt8 :=
  if opts.sendPreface then
    match opts.prefaceOverride with
    | some p => p
    | none => preface
  else []

def probeSettings (opts : ProbeOpts) : Option (List UInt8) :=
  match opts.settings with
  | some settings => buildSettingsFrame settings false
  | none => some []

def endStreamOnHeaders (opts : ProbeOpts) : Bool :=
  if opts.forceNoEndStreamOnHeaders then false else !opts.body.isSome

/-- The HEADERS frame with this much of the block. -/
def headersOpts (opts : ProbeOpts) (headerBlock : List UInt8) (endHeaders : Bool) :
    HeadersFrameOpts where
  headerBlock := headerBlock
  streamId := opts.streamId
  endStream := endStreamOnHeaders opts
  endHeaders := endHeaders
  padding := opts.padHeaders
  priority := opts.priority

def probeHeaders (opts : ProbeOpts) (headerBlock : List UInt8) : Option (List UInt8) :=
  match opts.splitHeadersAfter with
  | some splitAfter => do
      let split := min splitAfter headerBlock.length
      let first := headerBlock.take split
      let rest := headerBlock.drop split
      let moreComing := !rest.isEmpty
      let headers ← buildHeadersFrame (headersOpts opts first (!moreComing))
      if moreComing then
        let continuation ← buildContinuationFrame rest opts.streamId true
        pure (headers ++ continuation)
      else pure headers
  | none => buildHeadersFrame (headersOpts opts headerBlock true)

def probeData (opts : ProbeOpts) : Option (List UInt8) :=
  match opts.body with
  | some body => buildDataFrame body opts.streamId true opts.padData
  | none => some []

/-- The frames behind the header block; `none` when a payload is too long for one. -/
def assembleProbe (opts : ProbeOpts) (headerBlock : List UInt8) : Option (List UInt8) := do
  let settings ← probeSettings opts
  let headers ← probeHeaders opts headerBlock
  let data ← probeData opts
  pure (probePreface opts ++ settings ++ opts.extraFramesBeforeHeaders ++ headers ++ data ++
    opts.extraFramesAfter)

/-- `build_probe`; the inner `none` is a panic. -/
def buildProbe (headers : List Header) (opts : ProbeOpts) :
    Except EncodeError (Option (List UInt8)) :=
  (encodeHeaders headers).map (assembleProbe opts)

/-! ## What is read back -/

/-- All payloads are below the length a frame can have. -/
structure PayloadsFit (opts : ProbeOpts) (headerBlock : List UInt8) : Prop where
  settings : ∀ settings, opts.settings = some settings → 6 * settings.length < 2 ^ 24
  headers : (if 0 < opts.padHeaders then 1 + opts.padHeaders.toNat else 0) +
    (if opts.priority.isSome then 5 else 0) +
    (headerBlock.take (opts.splitHeadersAfter.getD headerBlock.length)).length < 2 ^ 24
  continuation : (headerBlock.drop (opts.splitHeadersAfter.getD headerBlock.length)).length < 2 ^ 24
  data : ∀ body, opts.body = some body →
    (if 0 < opts.padData then 1 + opts.padData.toNat else 0) + body.length < 2 ^ 24

/-- The SETTINGS frame, if there is one, has the settings. -/
def SettingsFrames (opts : ProbeOpts) (frames : List Frame) : Prop :=
  match opts.settings with
  | none => frames = []
  | some settings => ∃ frame, frames = [frame] ∧ frame.frameType = frameSettings ∧
      readAll readSetting frame.payload = some settings

/-- HEADERS and CONTINUATION carry the block, the priority and the flags. -/
structure HeaderFrames (opts : ProbeOpts) (headerBlock : List UInt8) (headers : Frame)
    (continuations : List Frame) : Prop where
  headersType : headers.frameType = frameHeaders
  continuationType : ∀ frame ∈ continuations, frame.frameType = frameContinuation
  atMostOne : continuations.length ≤ 1
  fragments : ∃ fragment, headers.readHeaders = some (opts.priority.map wirePriority, fragment) ∧
    fragment ++ continuations.flatMap Frame.payload = headerBlock
  endHeaders : ∃ initial last, headers :: continuations = initial ++ [last] ∧
    last.has flagEndHeaders = true ∧ ∀ frame ∈ initial, frame.has flagEndHeaders = false
  endStream : headers.has flagEndStream = (opts.body.isNone && !opts.forceNoEndStreamOnHeaders)
  stream : ∀ frame ∈ headers :: continuations, frame.streamId = opts.streamId &&& 0x7FFFFFFF

/-- The DATA frame, if there is a body, has the body and ends the stream. -/
def DataFrames (opts : ProbeOpts) (frames : List Frame) : Prop :=
  match opts.body with
  | none => frames = []
  | some body => ∃ frame, frames = [frame] ∧ frame.frameType = frameData ∧
      frame.unpadded = some body ∧ frame.has flagEndStream = true ∧
      frame.streamId = opts.streamId &&& 0x7FFFFFFF

/-! ## The parts -/

variable {opts : ProbeOpts} {headerBlock : List UInt8}

theorem probeSettings_frames
    (fits : ∀ settings, opts.settings = some settings → 6 * settings.length < 2 ^ 24) :
    ∃ frames, probeSettings opts = some (frames.flatMap Frame.bytes) ∧
      SettingsFrames opts frames := by
  unfold probeSettings SettingsFrames
  cases chosen : opts.settings with
  | none => exact ⟨[], rfl, rfl⟩
  | some settings =>
      have length : (settings.flatMap settingBytes).length < 2 ^ 24 := by
        rw [length_settings]
        exact fits settings chosen
      refine ⟨[⟨frameSettings, 0, 0 &&& 0x7FFFFFFF, settings.flatMap settingBytes, length⟩], ?_,
        _, rfl, rfl, readAll_flatMap readSetting_inverts settings⟩
      rw [List.flatMap_singleton]
      exact buildRawFrame_eq frameSettings 0 0 length

theorem probeData_frames
    (fits : ∀ body, opts.body = some body →
      (if 0 < opts.padData then 1 + opts.padData.toNat else 0) + body.length < 2 ^ 24) :
    ∃ frames, probeData opts = some (frames.flatMap Frame.bytes) ∧ DataFrames opts frames := by
  unfold probeData DataFrames
  cases chosen : opts.body with
  | none => exact ⟨[], rfl, rfl⟩
  | some body =>
      have length : (padded opts.padData body).length < 2 ^ 24 := by
        rw [length_padded]
        exact fits body chosen
      refine ⟨[dataFrame body opts.streamId true opts.padData length], ?_, _, rfl, rfl,
        dataFrame_unpadded .., (dataFrame_has ..).1, rfl⟩
      rw [List.flatMap_singleton]
      exact buildDataFrame_eq body opts.streamId true opts.padData length

theorem endStreamOnHeaders_eq (opts : ProbeOpts) :
    endStreamOnHeaders opts = (opts.body.isNone && !opts.forceNoEndStreamOnHeaders) := by
  unfold endStreamOnHeaders
  cases opts.forceNoEndStreamOnHeaders <;> cases opts.body <;> rfl

theorem headersOpts_fit (endHeaders : Bool) {part : List UInt8}
    (fits : (if 0 < opts.padHeaders then 1 + opts.padHeaders.toNat else 0) +
      (if opts.priority.isSome then 5 else 0) + part.length < 2 ^ 24) :
    (padded (headersOpts opts part endHeaders).padding
      (headersOpts opts part endHeaders).content).length < 2 ^ 24 := by
  rw [length_padded, HeadersFrameOpts.length_content, ← Nat.add_assoc]
  exact fits

/-- All of the block in the HEADERS frame. -/
theorem headerFrames_whole
    (fits : (padded (headersOpts opts headerBlock true).padding
      (headersOpts opts headerBlock true).content).length < 2 ^ 24) :
    HeaderFrames opts headerBlock ((headersOpts opts headerBlock true).frame fits) [] := by
  obtain ⟨endStream, endHeaders, _, _⟩ := (headersOpts opts headerBlock true).frame_has fits
  refine ⟨rfl, ?_, Nat.zero_le _, ⟨_, HeadersFrameOpts.frame_readHeaders .., List.append_nil _⟩, ?_,
    ?_, ?_⟩
  · intro frame there
    cases there
  · refine ⟨[], _, rfl, endHeaders, ?_⟩
    intro frame there
    cases there
  · rw [endStream, ← endStreamOnHeaders_eq]
    rfl
  · intro frame there
    cases List.mem_singleton.mp there
    rfl

/-- The frame `buildContinuationFrame` makes for the rest of a block. -/
def lastContinuation (rest : List UInt8) (streamId : UInt32) (fits : rest.length < 2 ^ 24) : Frame :=
  ⟨frameContinuation, flagEndHeaders, streamId &&& 0x7FFFFFFF, rest, fits⟩

/-- The block in two frames. -/
theorem headerFrames_split {first rest : List UInt8} (cut : first ++ rest = headerBlock)
    (fits : (padded (headersOpts opts first false).padding
      (headersOpts opts first false).content).length < 2 ^ 24) (restFits : rest.length < 2 ^ 24) :
    HeaderFrames opts headerBlock ((headersOpts opts first false).frame fits)
      [lastContinuation rest opts.streamId restFits] := by
  obtain ⟨endStream, endHeaders, _, _⟩ := (headersOpts opts first false).frame_has fits
  refine ⟨rfl, ?_, Nat.le_refl _, ⟨_, HeadersFrameOpts.frame_readHeaders .., ?_⟩, ?_, ?_, ?_⟩
  · intro frame there
    cases List.mem_singleton.mp there
    rfl
  · rw [List.flatMap_singleton]
    exact cut
  · have last : (lastContinuation rest opts.streamId restFits).has flagEndHeaders = true := by
      show decide (flagEndHeaders &&& flagEndHeaders = flagEndHeaders) = true
      decide
    refine ⟨[_], _, rfl, last, ?_⟩
    intro frame there
    cases List.mem_singleton.mp there
    exact endHeaders
  · rw [endStream, ← endStreamOnHeaders_eq]
    rfl
  · intro frame there
    rcases List.mem_pair.mp there with rfl | rfl
    · rfl
    · rfl

theorem probeHeaders_frames (fits : PayloadsFit opts headerBlock) :
    ∃ headers continuations,
      probeHeaders opts headerBlock =
          some ((headers :: continuations).flatMap Frame.bytes) ∧
        HeaderFrames opts headerBlock headers continuations := by
  have headersFit := fits.headers
  have restFits := fits.continuation
  unfold probeHeaders
  cases chosen : opts.splitHeadersAfter with
  | none =>
      rw [chosen, Option.getD_none, List.take_length] at headersFit
      have whole := headersOpts_fit true headersFit
      refine ⟨_, [], ?_, headerFrames_whole whole⟩
      rw [List.flatMap_singleton]
      exact buildHeadersFrame_eq _ whole
  | some splitAfter =>
      rw [chosen, Option.getD_some] at headersFit restFits
      rw [List.take_eq_take_min] at headersFit
      have cut := List.take_append_drop (min splitAfter headerBlock.length) headerBlock
      simp only
      cases rest : headerBlock.drop (min splitAfter headerBlock.length) with
      | nil =>
          rw [rest, List.append_nil] at cut
          rw [cut] at headersFit ⊢
          have whole := headersOpts_fit true headersFit
          refine ⟨_, [], ?_, headerFrames_whole whole⟩
          rw [List.flatMap_singleton]
          show (buildHeadersFrame (headersOpts opts headerBlock true) >>= fun headers => _) = _
          rw [buildHeadersFrame_eq _ whole]
          rfl
      | cons b more =>
          rw [rest] at cut
          have part := headersOpts_fit false headersFit
          have short : (b :: more).length < 2 ^ 24 := by
            rw [← rest, List.length_drop]
            rw [List.length_drop] at restFits
            omega
          refine ⟨_, [_], ?_, headerFrames_split cut part short⟩
          show (buildHeadersFrame (headersOpts opts _ false) >>= fun headers => _) = _
          rw [buildHeadersFrame_eq _ part]
          have continuation : buildContinuationFrame (b :: more) opts.streamId true =
              some (lastContinuation (b :: more) opts.streamId short).bytes :=
            buildRawFrame_eq frameContinuation flagEndHeaders opts.streamId short
          show (buildContinuationFrame (b :: more) opts.streamId true >>= fun continuation => _) = _
          rw [continuation]
          simp

/-! ## The whole probe -/

theorem assembleProbe_eq {settings before headers data after : List Frame}
    (settingsBytes : probeSettings opts = some (settings.flatMap Frame.bytes))
    (headersBytes : probeHeaders opts headerBlock = some (headers.flatMap Frame.bytes))
    (dataBytes : probeData opts = some (data.flatMap Frame.bytes))
    (extraBefore : opts.extraFramesBeforeHeaders = before.flatMap Frame.bytes)
    (extraAfter : opts.extraFramesAfter = after.flatMap Frame.bytes) :
    assembleProbe opts headerBlock = some (probePreface opts ++
      (settings ++ before ++ headers ++ data ++ after).flatMap Frame.bytes) := by
  unfold assembleProbe
  rw [settingsBytes, headersBytes, dataBytes, extraBefore, extraAfter]
  show some _ = _
  simp only [List.flatMap_append, List.append_assoc]

/-- Behind its preface a probe is frames, and nothing else: the SETTINGS, the HEADERS
with their CONTINUATION and the DATA that the options ask for, with the caller's own
frames between them. -/
theorem buildProbe_parses {headers : List Header} {opts : ProbeOpts} {headerBlock : List UInt8}
    {before after : List Frame} (encoded : encodeHeaders headers = .ok headerBlock)
    (fits : PayloadsFit opts headerBlock)
    (extraBefore : opts.extraFramesBeforeHeaders = before.flatMap Frame.bytes)
    (extraAfter : opts.extraFramesAfter = after.flatMap Frame.bytes) :
    ∃ wire settings headersFrame continuations data,
      buildProbe headers opts = .ok (some (probePreface opts ++ wire)) ∧
        readAll readFrame wire =
          some (settings ++ before ++ headersFrame :: continuations ++ data ++ after) ∧
        SettingsFrames opts settings ∧ HeaderFrames opts headerBlock headersFrame continuations ∧
          DataFrames opts data := by
  obtain ⟨settings, settingsBytes, settingsRead⟩ := probeSettings_frames fits.settings
  obtain ⟨headersFrame, continuations, headersBytes, headersRead⟩ := probeHeaders_frames fits
  obtain ⟨data, dataBytes, dataRead⟩ := probeData_frames fits.data
  refine ⟨(settings ++ before ++ headersFrame :: continuations ++ data ++ after).flatMap Frame.bytes,
    settings, headersFrame, continuations, data, ?_, readAll_flatMap readFrame_inverts _,
    settingsRead, headersRead, dataRead⟩
  unfold buildProbe
  rw [encoded]
  exact congrArg Except.ok
    (assembleProbe_eq settingsBytes headersBytes dataBytes extraBefore extraAfter)

def pingFrame : Frame := ⟨0x06, 0, 0, List.replicate 8 0, by decide⟩

/-- Everything at once: a split block, padding, a priority, a body and another frame. -/
def busyOpts : ProbeOpts :=
  { ProbeOpts.default with
    settings := some [(4, 65535)]
    streamId := 0x80000003
    body := some [0x68, 0x69]
    splitHeadersAfter := some 2
    padHeaders := 3
    padData := 1
    priority := some (5, 16, true)
    extraFramesBeforeHeaders := pingFrame.bytes }

theorem buildProbe_parses_busy :
    ∃ wire settings headersFrame continuations data,
      buildProbe [Header.new (ascii ":method") (ascii "GET")] busyOpts =
          .ok (some (probePreface busyOpts ++ wire)) ∧
        readAll readFrame wire =
          some (settings ++ [pingFrame] ++ headersFrame :: continuations ++ data ++ []) ∧
        SettingsFrames busyOpts settings ∧
          HeaderFrames busyOpts [64, 133, 185, 73, 83, 57, 228, 3, 71, 69, 84] headersFrame
            continuations ∧
          DataFrames busyOpts data := by
  apply buildProbe_parses (by decide +kernel)
  · refine ⟨?_, by decide, by decide, ?_⟩
    · rintro _ ⟨⟩
      decide
    · rintro _ ⟨⟩
      decide
  · exact (List.flatMap_singleton ..).symm
  · rfl

end Blasthttp.H2
