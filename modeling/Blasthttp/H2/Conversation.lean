/-
# Blasthttp.H2.Conversation -- what a peer makes of one probe after the other

A peer takes the frames of a connection in order, puts header blocks together from HEADERS
and CONTINUATION (RFC 9113 §6.10), and decodes each with the one HPACK decoder of the
connection.  `probes_received` follows any number of probes down to the header lists and
bodies they were built from; `frames_serial` lets concurrent calls send them.
-/
import Blasthttp.Client.Raw
import Blasthttp.H2.HpackRoundTrip
import Blasthttp.H2.Probe

namespace Blasthttp.H2

open Blasthttp.Lib.Items Blasthttp.H2.Hpack

set_option autoImplicit false

/-! ## The peer -/

/-- A header block that is not complete. -/
structure HeaderBlock where
  streamId : UInt32
  fragment : List UInt8
  endStream : Bool

structure Receiver where
  decoder : Decoder
  block : Option HeaderBlock

inductive Received where
  | headers (streamId : UInt32) (fields : List DecodedHeader) (endStream : Bool)
  | data (streamId : UInt32) (content : List UInt8) (endStream : Bool)
  | other (frame : Frame)

/-- A message, and not what the connection itself is about. -/
def Received.isMessage : Received → Bool
  | .other _ => false
  | _ => true

namespace Receiver

/-- A complete header block; `none` is a compression error. -/
def finish (r : Receiver) (block : HeaderBlock) : Option (Receiver × List Received) :=
  match r.decoder.decodeHeaders block.fragment with
  | (decoder, .ok fields) =>
      some (⟨decoder, none⟩, [.headers block.streamId fields block.endStream])
  | (_, .error _) => none

def extend (r : Receiver) (block : HeaderBlock) (last : Bool) : Option (Receiver × List Received) :=
  if last then r.finish block else some ({ r with block := some block }, [])

/-- One frame; `none` is a connection error. -/
def receive (r : Receiver) (frame : Frame) : Option (Receiver × List Received) :=
  match r.block with
  | some block =>
      if frame.frameType = frameContinuation ∧ frame.streamId = block.streamId then
        r.extend { block with fragment := block.fragment ++ frame.payload }
          (frame.has flagEndHeaders)
      else none
  | none =>
      if frame.frameType = frameHeaders then
        match frame.readHeaders with
        | some (_, fragment) =>
            r.extend ⟨frame.streamId, fragment, frame.has flagEndStream⟩ (frame.has flagEndHeaders)
        | none => none
      else if frame.frameType = frameContinuation then none
      else if frame.frameType = frameData then
        match frame.unpadded with
        | some content => some (r, [.data frame.streamId content (frame.has flagEndStream)])
        | none => none
      else some (r, [.other frame])

def receiveAll (r : Receiver) : List Frame → Option (Receiver × List Received)
  | [] => some (r, [])
  | frame :: frames =>
      match r.receive frame with
      | none => none
      | some (r, events) =>
          match receiveAll r frames with
          | none => none
          | some (r, more) => some (r, events ++ more)

theorem receiveAll_append {r r' r'' : Receiver} {front back : List Frame}
    {events more : List Received} (first : r.receiveAll front = some (r', events))
    (second : r'.receiveAll back = some (r'', more)) :
    r.receiveAll (front ++ back) = some (r'', events ++ more) := by
  induction front generalizing r events with
  | nil =>
      cases first
      exact second
  | cons frame front ih =>
      rw [receiveAll] at first
      rw [List.cons_append, receiveAll]
      cases here : r.receive frame with
      | none =>
          rw [here] at first
          cases first
      | some step =>
          obtain ⟨next, now⟩ := step
          rw [here] at first
          simp only at first ⊢
          cases later : next.receiveAll front with
          | none =>
              rw [later] at first
              cases first
          | some rest =>
              obtain ⟨last, then_⟩ := rest
              rw [later] at first
              cases first
              rw [ih later]
              simp

theorem receiveAll_singleton {r r' : Receiver} {frame : Frame} {events : List Received}
    (received : r.receive frame = some (r', events)) :
    r.receiveAll [frame] = some (r', events) := by
  rw [receiveAll, received]
  simp [receiveAll]

end Receiver

/-- Frames a peer only notes between two messages. -/
def Frame.Quiet (frame : Frame) : Prop :=
  frame.frameType ≠ frameHeaders ∧ frame.frameType ≠ frameContinuation ∧
    frame.frameType ≠ frameData

theorem receiveAll_quiet (decoder : Decoder) {frames : List Frame}
    (quiet : ∀ frame ∈ frames, frame.Quiet) :
    (⟨decoder, none⟩ : Receiver).receiveAll frames =
      some (⟨decoder, none⟩, frames.map Received.other) := by
  induction frames with
  | nil => rfl
  | cons frame frames ih =>
      obtain ⟨notHeaders, notContinuation, notData⟩ := quiet frame List.mem_cons_self
      have here : (⟨decoder, none⟩ : Receiver).receive frame =
          some (⟨decoder, none⟩, [.other frame]) := by
        rw [Receiver.receive, if_neg notHeaders, if_neg notContinuation, if_neg notData]
      rw [Receiver.receiveAll, here]
      simp only
      rw [ih fun other there => quiet other (List.mem_cons_of_mem _ there)]
      rfl

theorem filter_other (frames : List Frame) :
    (frames.map Received.other).filter Received.isMessage = [] := by
  induction frames with
  | nil => rfl
  | cons frame frames ih => exact ih

/-! ## One probe -/

variable {opts : ProbeOpts} {headerBlock : List UInt8}

/-- The header block arrives whole, in one frame or in two. -/
theorem receiveAll_headerFrames (decoder : Decoder) {headersFrame : Frame}
    {continuations : List Frame} {fields : List DecodedHeader}
    (frames : HeaderFrames opts headerBlock headersFrame continuations)
    (decoded : (decoder.decodeHeaders headerBlock).2 = .ok fields) :
    ∃ decoder', (⟨decoder, none⟩ : Receiver).receiveAll (headersFrame :: continuations) =
      some (⟨decoder', none⟩, [.headers (opts.streamId &&& 0x7FFFFFFF) fields
        (opts.body.isNone && !opts.forceNoEndStreamOnHeaders)]) := by
  obtain ⟨fragment, read, whole⟩ := frames.fragments
  obtain ⟨initial, last, split, ends, going⟩ := frames.endHeaders
  have stream := frames.stream headersFrame List.mem_cons_self
  have finished : ∀ block : HeaderBlock, block.fragment = headerBlock →
      (⟨decoder, none⟩ : Receiver).finish block =
        some (⟨(decoder.decodeHeaders headerBlock).1, none⟩,
          [.headers block.streamId fields block.endStream]) := by
    rintro ⟨streamId, fragment, endStream⟩ rfl
    cases result : decoder.decodeHeaders fragment with
    | mk after out =>
        rw [result] at decoded
        cases decoded
        simp only [Receiver.finish, result]
  refine ⟨(decoder.decodeHeaders headerBlock).1, ?_⟩
  rw [← stream, ← frames.endStream]
  cases continuations with
  | nil =>
      have only : initial = [] ∧ last = headersFrame := by
        cases initial with
        | nil => exact ⟨rfl, (List.singleton_inj.mp split).symm⟩
        | cons x xs => simp at split
      obtain ⟨-, rfl⟩ := only
      apply Receiver.receiveAll_singleton
      rw [List.flatMap_nil, List.append_nil] at whole
      simp only [Receiver.receive, frames.headersType, if_true, read, ends, Receiver.extend]
      exact finished _ whole
  | cons continuation rest =>
      have none_ : rest = [] := by
        have few := frames.atMostOne
        rw [List.length_cons] at few
        exact List.eq_nil_of_length_eq_zero (by omega)
      subst none_
      have both : initial = [headersFrame] ∧ last = continuation := by
        have cut : [headersFrame] ++ [continuation] = initial ++ [last] := split
        obtain ⟨front, back⟩ := List.append_inj' cut rfl
        exact ⟨front.symm, (List.singleton_inj.mp back).symm⟩
      obtain ⟨rfl, rfl⟩ := both
      have open_ := going headersFrame (List.mem_singleton.mpr rfl)
      have second := frames.stream last (List.mem_cons_of_mem _ (List.mem_singleton.mpr rfl))
      have type := frames.continuationType last (List.mem_singleton.mpr rfl)
      rw [List.flatMap_singleton] at whole
      have first : (⟨decoder, none⟩ : Receiver).receive headersFrame =
          some (⟨decoder, some ⟨headersFrame.streamId, fragment, headersFrame.has flagEndStream⟩⟩,
            []) := by
        simp only [Receiver.receive, frames.headersType, if_true, read, open_, Receiver.extend]
        rfl
      rw [Receiver.receiveAll, first]
      simp only
      have next : (⟨decoder, some ⟨headersFrame.streamId, fragment,
          headersFrame.has flagEndStream⟩⟩ : Receiver).receive last =
          some (⟨(decoder.decodeHeaders headerBlock).1, none⟩,
            [.headers headersFrame.streamId fields (headersFrame.has flagEndStream)]) := by
        have same : last.streamId = headersFrame.streamId := second.trans stream.symm
        simp only [Receiver.receive, type, same, and_self, if_true, ends, Receiver.extend]
        exact finished _ whole
      rw [Receiver.receiveAll_singleton next]
      rfl

/-- A call of `build_probe` that goes through: the headers are accepted and no padding changes
their lengths, every payload fits in a frame, and what the caller puts in between are
frames that carry no message. -/
structure Probe where
  headers : List Header
  opts : ProbeOpts
  headerBlock : List UInt8
  before : List Frame
  after : List Frame
  encoded : encodeHeaders headers = .ok headerBlock
  harmless : ∀ h ∈ headers, h.Harmless
  short : ∀ h ∈ headers, h.Short
  fits : PayloadsFit opts headerBlock
  extraBefore : opts.extraFramesBeforeHeaders = before.flatMap Frame.bytes
  extraAfter : opts.extraFramesAfter = after.flatMap Frame.bytes
  quietBefore : ∀ frame ∈ before, frame.Quiet
  quietAfter : ∀ frame ∈ after, frame.Quiet

/-- The request a probe stands for. -/
def Probe.messages (probe : Probe) : List Received :=
  .headers (probe.opts.streamId &&& 0x7FFFFFFF) (probe.headers.map decodedPair)
      (probe.opts.body.isNone && !probe.opts.forceNoEndStreamOnHeaders) ::
    match probe.opts.body with
    | none => []
    | some body => [.data (probe.opts.streamId &&& 0x7FFFFFFF) body true]

theorem quiet_settings {opts : ProbeOpts} {frames : List Frame} (settings : SettingsFrames opts frames) :
    ∀ frame ∈ frames, frame.Quiet := by
  unfold SettingsFrames at settings
  cases chosen : opts.settings with
  | none =>
      rw [chosen] at settings
      cases settings
      intro frame there
      cases there
  | some pairs =>
      rw [chosen] at settings
      obtain ⟨frame, rfl, type, -⟩ := settings
      intro other there
      cases List.mem_singleton.mp there
      unfold Frame.Quiet
      rw [type]
      decide

theorem receiveAll_dataFrames (decoder : Decoder) {opts : ProbeOpts} {frames : List Frame}
    (data : DataFrames opts frames) :
    (⟨decoder, none⟩ : Receiver).receiveAll frames =
      some (⟨decoder, none⟩,
        match opts.body with
        | none => []
        | some body => [.data (opts.streamId &&& 0x7FFFFFFF) body true]) := by
  unfold DataFrames at data
  cases chosen : opts.body with
  | none =>
      rw [chosen] at data
      cases data
      rfl
  | some body =>
      rw [chosen] at data
      obtain ⟨frame, rfl, type, content, ends, stream⟩ := data
      apply Receiver.receiveAll_singleton
      have notHeaders : frame.frameType ≠ frameHeaders := by
        rw [type]
        decide
      have notContinuation : frame.frameType ≠ frameContinuation := by
        rw [type]
        decide
      rw [Receiver.receive, if_neg notHeaders, if_neg notContinuation, if_pos type, content, ends,
        stream]

/-- One probe, met between two messages, in any state of the decoder. -/
theorem Probe.received (probe : Probe) (decoder : Decoder) :
    ∃ (frames : List Frame) (decoder' : Decoder) (events : List Received),
      buildProbe probe.headers probe.opts =
          .ok (some (probePreface probe.opts ++ frames.flatMap Frame.bytes)) ∧
        (⟨decoder, none⟩ : Receiver).receiveAll frames = some (⟨decoder', none⟩, events) ∧
          events.filter Received.isMessage = probe.messages := by
  obtain ⟨settings, settingsBytes, settingsRead⟩ := probeSettings_frames probe.fits.settings
  obtain ⟨headersFrame, continuations, headersBytes, headersRead⟩ :=
    probeHeaders_frames probe.fits
  obtain ⟨data, dataBytes, dataRead⟩ := probeData_frames probe.fits.data
  obtain ⟨decoder', blockRead⟩ := receiveAll_headerFrames decoder headersRead
    (decodeHeaders_harmless probe.encoded probe.harmless probe.short decoder)
  have settingsSeen := receiveAll_quiet decoder (quiet_settings settingsRead)
  have beforeSeen := receiveAll_quiet decoder probe.quietBefore
  have dataSeen := receiveAll_dataFrames decoder' dataRead
  have afterSeen := receiveAll_quiet decoder' probe.quietAfter
  have seen := Receiver.receiveAll_append (Receiver.receiveAll_append (Receiver.receiveAll_append
    (Receiver.receiveAll_append settingsSeen beforeSeen) blockRead) dataSeen) afterSeen
  refine ⟨_, decoder', _, ?_, seen, ?_⟩
  · unfold buildProbe
    rw [probe.encoded]
    exact congrArg Except.ok (assembleProbe_eq settingsBytes headersBytes dataBytes
      probe.extraBefore probe.extraAfter)
  · rw [List.filter_append, List.filter_append, List.filter_append, List.filter_append,
      filter_other, filter_other, filter_other, List.nil_append, List.nil_append, List.append_nil]
    unfold Probe.messages
    cases probe.opts.body <;> rfl

/-! ## Any number of probes -/

theorem probes_received_bare (probes : List Probe)
    (bare : ∀ probe ∈ probes, probe.opts.sendPreface = false) (decoder : Decoder) :
    ∃ (outs : List (List UInt8)) (frames : List Frame) (decoder' : Decoder)
      (events : List Received),
      List.Forall₂ (fun probe out => buildProbe probe.headers probe.opts = .ok (some out)) probes
          outs ∧
        outs.flatten = frames.flatMap Frame.bytes ∧
          (⟨decoder, none⟩ : Receiver).receiveAll frames = some (⟨decoder', none⟩, events) ∧
            events.filter Received.isMessage = probes.flatMap Probe.messages := by
  induction probes generalizing decoder with
  | nil => exact ⟨[], [], decoder, [], .nil, rfl, rfl, rfl⟩
  | cons probe probes ih =>
      obtain ⟨frames, decoder', events, built, seen, messages⟩ := probe.received decoder
      obtain ⟨outs, later, decoder'', more, others, whole, laterSeen, laterMessages⟩ :=
        ih (fun other there => bare other (List.mem_cons_of_mem _ there)) decoder'
      have nothing : probePreface probe.opts = [] := by
        rw [probePreface, bare probe List.mem_cons_self]
        rfl
      refine ⟨_, frames ++ later, decoder'', events ++ more, .cons built others, ?_,
        Receiver.receiveAll_append seen laterSeen, ?_⟩
      · rw [List.flatten_cons, whole, nothing, List.nil_append, List.flatMap_append]
      · rw [List.filter_append, messages, laterMessages, List.flatMap_cons]

/-- **A connection of probes.**  Probes sent one after the other, the first with whatever preface
and the others without, are frames behind that preface; a peer that starts with any
decoder state gets out of them, in order, the header list and the body of every probe, as
the decoder goes on from each block to the next. -/
theorem probes_received (first : Probe) (rest : List Probe)
    (bare : ∀ probe ∈ rest, probe.opts.sendPreface = false) (decoder : Decoder) :
    ∃ (outs : List (List UInt8)) (wire : List UInt8) (frames : List Frame) (decoder' : Decoder)
      (events : List Received),
      List.Forall₂ (fun probe out => buildProbe probe.headers probe.opts = .ok (some out))
          (first :: rest) outs ∧
        outs.flatten = probePreface first.opts ++ wire ∧ readAll readFrame wire = some frames ∧
          (⟨decoder, none⟩ : Receiver).receiveAll frames = some (⟨decoder', none⟩, events) ∧
            events.filter Received.isMessage = (first :: rest).flatMap Probe.messages := by
  obtain ⟨frames, decoder', events, built, seen, messages⟩ := first.received decoder
  obtain ⟨outs, later, decoder'', more, others, whole, laterSeen, laterMessages⟩ :=
    probes_received_bare rest bare decoder'
  refine ⟨_, (frames ++ later).flatMap Frame.bytes, frames ++ later, decoder'', events ++ more,
    .cons built others, ?_, readAll_flatMap readFrame_inverts _,
    Receiver.receiveAll_append seen laterSeen, ?_⟩
  · rw [List.flatten_cons, whole, List.flatMap_append, List.append_assoc]
  · rw [List.filter_append, messages, laterMessages, List.flatMap_cons]

def getProbe : Probe where
  headers := [Header.new (ascii ":method") (ascii "GET")]
  opts := { ProbeOpts.default with extraFramesBeforeHeaders := pingFrame.bytes }
  headerBlock := [64, 133, 185, 73, 83, 57, 228, 3, 71, 69, 84]
  before := [pingFrame]
  after := []
  encoded := by decide +kernel
  harmless := by
    intro h there
    cases List.mem_singleton.mp there
    exact Header.harmless_of_plain ⟨rfl, rfl⟩
  short := by
    intro h there
    cases List.mem_singleton.mp there
    unfold Header.Short
    decide +kernel
  fits := by
    refine ⟨?_, by decide, by decide, ?_⟩
    · rintro _ ⟨⟩
      decide
    · rintro _ ⟨⟩
  extraBefore := (List.flatMap_singleton ..).symm
  extraAfter := rfl
  quietBefore := by
    intro frame there
    cases List.mem_singleton.mp there
    unfold Frame.Quiet
    decide
  quietAfter := by
    intro frame there
    cases there

def bareProbe : Probe :=
  { getProbe with
    opts := { getProbe.opts with
      sendPreface := false
      streamId := 3 }
    fits := ⟨getProbe.fits.settings, getProbe.fits.headers, getProbe.fits.continuation,
      getProbe.fits.data⟩ }

theorem probes_received_two :
    ∃ (outs : List (List UInt8)) (wire : List UInt8) (frames : List Frame) (decoder' : Decoder)
      (events : List Received),
      List.Forall₂ (fun probe out => buildProbe probe.headers probe.opts = .ok (some out))
          [getProbe, bareProbe] outs ∧
        outs.flatten = probePreface getProbe.opts ++ wire ∧ readAll readFrame wire = some frames ∧
          (⟨Decoder.withMaxTableSize 4096, none⟩ : Receiver).receiveAll frames =
              some (⟨decoder', none⟩, events) ∧
            events.filter Received.isMessage = [getProbe, bareProbe].flatMap Probe.messages :=
  probes_received getProbe [bareProbe]
    (by
      intro probe there
      cases List.mem_singleton.mp there
      rfl)
    (Decoder.withMaxTableSize 4096)

/-! ## Frames from many calls -/

section Calls

open Blasthttp.Lib.Runs Blasthttp.Lib.Guarded Blasthttp.Client

variable {room farewell : Nat} {eager : Bool} {actions : List RawAction} {s : RawMonitor}

/-- Every call that has had the lock has sent its frames, or is no send. -/
def SendsFrames (s : RawMonitor) (framesOf : Nat → List Frame) : Prop :=
  ∀ (i : Nat) (c : RawCall) (stage : Stage RawHeld RawOut),
    s.calls[i]? = some (c, stage) → i ∈ s.turns →
      (∃ result, c = .sendBytes ((framesOf i).flatMap Frame.bytes) ∧ stage = .done (.ok result)) ∨
        (∀ data, c ≠ .sendBytes data) ∧ framesOf i = []

/-- **Concurrent senders tear no frame.**  As long as no send has failed, been given up or is
still under way, the peer reads frames, those of each call together, in the order in which
the calls took the lock. -/
theorem frames_serial {framesOf : Nat → List Frame}
    (ran : run rawConnection.step (.opened (.connected room eager farewell)) actions = some s)
    (sends : SendsFrames s framesOf) :
    readAll readFrame s.object.written = some (s.turns.flatMap framesOf) := by
  obtain ⟨part, ledger⟩ := ledger_of_run logs_written ran
  have parts : ∀ i ∈ s.turns, part i = (framesOf i).flatMap Frame.bytes := by
    intro i turn
    obtain ⟨⟨c, stage⟩, here⟩ : ∃ call, s.calls[i]? = some call :=
      ⟨_, List.getElem?_eq_getElem (ledger.known i turn)⟩
    have entry := ledger.entries here
    rcases sends i c stage here turn with ⟨result, rfl, rfl⟩ | ⟨other, none_⟩
    · exact entry.2.2
    · rw [none_]
      cases stage with
      | waiting => exact absurd turn entry
      | holding held =>
          obtain ⟨-, fits, sent⟩ := entry
          rcases held_sent fits sent with nothing | ⟨data, same, -⟩
          · exact nothing
          · exact absurd same (other data)
      | done out =>
          cases c with
          | sendBytes data => exact absurd rfl (other data)
          | readRaw maxBytes timeoutMs => exact entry.2
          | close => exact entry.2
      | dropped =>
          obtain ⟨held, fits, sent⟩ := entry turn
          rcases held_sent fits sent with nothing | ⟨data, same, -⟩
          · exact nothing
          · exact absurd same (other data)
  have whole : s.object.written = (s.turns.flatMap framesOf).flatMap Frame.bytes := by
    rw [ledger.log_eq, List.flatMap_assoc, List.flatMap_def, List.flatMap_def]
    exact congrArg List.flatten (List.map_congr_left parts)
  rw [whole]
  exact readAll_flatMap readFrame_inverts _

/-- Two sends of a frame each, the second in two pieces, and a read before them. -/
def twoFrames : List RawAction :=
  [.call (.sendBytes pingFrame.bytes), .call (.sendBytes pingFrame.bytes),
    .call (.readRaw 1 (some 5)), .enter 2, .move 2 .timedOut, .enter 1, .move 1 (.wrote 9),
    .move 1 (.wrote 8), .move 1 .flushed, .enter 0, .move 0 (.wrote 17), .move 0 .flushed]

def twoFramesEnd : RawMonitor where
  object := ⟨true, pingFrame.bytes ++ pingFrame.bytes, 6, [], [], false, true, 0⟩
  calls := [(.sendBytes pingFrame.bytes, .done (.ok .sent)),
    (.sendBytes pingFrame.bytes, .done (.ok .sent)),
    (.readRaw 1 (some 5), .done (.ok (.bytes [])))]
  turns := [2, 1, 0]

theorem frames_serial_two :
    readAll readFrame twoFramesEnd.object.written =
      some (twoFramesEnd.turns.flatMap fun i => if i < 2 then [pingFrame] else []) :=
  @frames_serial 40 0 true twoFrames twoFramesEnd (fun i => if i < 2 then [pingFrame] else [])
    (by decide)
    (by
      intro i c stage here _
      match i, here with
      | 0, here =>
          cases here
          exact .inl ⟨.sent, by simp, rfl⟩
      | 1, here =>
          cases here
          exact .inl ⟨.sent, by simp, rfl⟩
      | 2, here =>
          cases here
          exact .inr ⟨nofun, rfl⟩)

end Calls

end Blasthttp.H2
