/-
# Blasthttp.Client.Body -- the bytes of a response body

`read_body` takes frames until the body ends or the cap is reached, and `decompress`
undoes the codings of the `Content-Encoding` list from the last one inwards.  Neither
ever holds more than `max_body` bytes: every frame leaves the bytes in hand within it
(`step_held`), every decoder runs behind `take` (`decodeOne_length`), and all that
`decompress` returns is the data it got or a layer (`decompress_body`).
-/
import Blasthttp.Client.SendInner
import Blasthttp.Rust.Read

namespace Blasthttp.Client

open Blasthttp.Rust Blasthttp.Http Blasthttp.Lib.Runs

set_option autoImplicit false

/-! ## Reading -/

/-- A frame of a body: data, or trailers. -/
inductive BodyFrame where
  | data (chunk : List UInt8)
  | trailers

/-- Where `read_body` stands: in its loop, or returned. -/
inductive ReadBody where
  | reading (out : List UInt8)
  | done (result : Except ClientError (List UInt8 × Bool))

/-- The loop body, for what `body.frame().await` yields. -/
def ReadBody.step (maxSize : Nat) :
    ReadBody → Option (Except Str BodyFrame) → Option ReadBody
  | .done _, _ => none
  | .reading out, none => some (.done (.ok (out, false)))
  | .reading _, some (.error e) =>
      some (.done (.error ⟨"failed to read body: ".toList ++ e, .connection⟩))
  | .reading out, some (.ok .trailers) => some (.reading out)
  | .reading out, some (.ok (.data chunk)) =>
      if chunk.isEmpty then some (.reading out)
      else
        let room := maxSize - out.length
        if room < chunk.length then some (.done (.ok (out ++ chunk.take room, true)))
        else some (.reading (out ++ chunk))

/-! ## Decoders -/

/-- A decoder of another crate, made over the bytes to decode. -/
structure Decoder where
  State : Type
  new : List UInt8 → State
  reader : Reader State

/-- The decoders, and how `read_to_end` grows its buffer. -/
structure Decoders where
  gzip : Decoder
  zlib : Decoder
  deflate : Decoder
  brotli : Decoder
  grow : List UInt8 → Nat

inductive Codec where
  | gzip
  | deflate
  | brotli
  | identity
  deriving DecidableEq, Repr

def Codec.fromToken (token : Str) : Option Codec :=
  if token = "gzip".toList ∨ token = "x-gzip".toList then some .gzip
  else if token = "deflate".toList then some .deflate
  else if token = "br".toList then some .brotli
  else if token = "identity".toList then some .identity
  else none

def Codec.name : Codec → Str
  | .gzip => "gzip".toList
  | .deflate => "deflate".toList
  | .brotli => "brotli".toList
  | .identity => "identity".toList

/-- What one decoding attempt produced: the whole stream, a part of it and why it broke
off, or nothing. -/
inductive Inflated where
  | whole (out : List UInt8)
  | part (out : List UInt8) (why : Str)
  | failed (reason : Str)

/-- Hitting `maxSize` is a clean end. -/
def Decoder.readBounded (decoder : Decoder) (grow : List UInt8 → Nat) (data : List UInt8)
    (maxSize : Nat) (codec : Codec) : Inflated :=
  match decoder.reader.takeToEnd grow maxSize (decoder.new data) [] with
  | (buf, none) => .whole buf
  | (buf, some e) =>
      if buf.isEmpty then .failed (codec.name ++ " decompression failed: ".toList ++ e)
      else .part buf (codec.name ++ " stream did not decode cleanly: ".toList ++ e)

/-- Compression method 8, and a big-endian pair that is a multiple of 31. -/
def hasZlibHeader : List UInt8 → Bool
  | cmf :: flg :: _ => cmf &&& 0x0f = 8 && (256 * cmf.toNat + flg.toNat) % 31 = 0
  | _ => false

/-- The flavor the header points at first, then the other. -/
def decodeDeflate (decoders : Decoders) (data : List UInt8) (maxSize : Nat) : Inflated :=
  let attempt := fun zlib : Bool =>
    (if zlib then decoders.zlib else decoders.deflate).readBounded decoders.grow data maxSize
      .deflate
  let zlibFirst := hasZlibHeader data
  match attempt zlibFirst with
  | .failed expected =>
      match attempt (!zlibFirst) with
      | .failed _ => .failed expected
      | fallback => fallback
  | settled => settled

def decodeOne (decoders : Decoders) (codec : Codec) (data : List UInt8) (maxSize : Nat) :
    Inflated :=
  match codec with
  | .gzip => decoders.gzip.readBounded decoders.grow data maxSize codec
  | .deflate => decodeDeflate decoders data maxSize
  | .brotli => decoders.brotli.readBounded decoders.grow data maxSize codec
  | .identity => .whole data

/-! ## The list of codings -/

structure Decoded where
  body : List UInt8
  decodeError : Option Str

def Decoded.content (body : List UInt8) : Decoded := ⟨body, none⟩

def Decoded.raw (data : List UInt8) (reason : Str) : Decoded := ⟨data, some reason⟩

/-- `Decoded::partial`. -/
def Decoded.cut (body : List UInt8) (reason : Str) : Decoded := ⟨body, some reason⟩

/-- The codings to undo, in the order they were applied, or the first token that names
none.  Empty tokens and `identity` are passed by. -/
def readCodecs : List Str → Except Str (List Codec)
  | [] => .ok []
  | token :: rest =>
      if (trim token).isEmpty then readCodecs rest
      else
        match Codec.fromToken (trim token) with
        | some .identity => readCodecs rest
        | some codec => (readCodecs rest).map (codec :: ·)
        | none => .error (trim token)

/-- The loop over the inner layers. -/
def peel (decoders : Decoders) (maxSize declared : Nat) :
    Nat → Option Str → List Codec → List UInt8 → Decoded
  | _, none, [], out => .content out
  | _, some reason, [], out => .cut out reason
  | peeled, incomplete, codec :: remaining, out =>
      match decodeOne decoders codec out maxSize with
      | .whole next => peel decoders maxSize declared (peeled + 1) incomplete remaining next
      | .part next why =>
          peel decoders maxSize declared (peeled + 1) (some (incomplete.getD why)) remaining next
      | .failed reason =>
          .cut out (decimalText peeled ++ " of ".toList ++ decimalText declared ++
            " content-encoding layers came off: ".toList ++ reason)

def decompress (decoders : Decoders) (encoding : Str) (data : List UInt8) (maxSize : Nat) :
    Decoded :=
  if data.isEmpty then .content []
  else
    match readCodecs (encoding.splitOn ',') with
    | .error token =>
        .raw data ("unsupported content-encoding '".toList ++ token ++ "'".toList)
    | .ok codecs =>
        match codecs.reverse with
        | [] => .content data
        | outermost :: remaining =>
            match decodeOne decoders outermost data maxSize with
            | .whole out => peel decoders maxSize codecs.length 1 none remaining out
            | .part out why => peel decoders maxSize codecs.length 1 (some why) remaining out
            | .failed reason => .raw data reason

/-! ## The response -/

/-- A response before its body; a header value that is not text is `none`. -/
structure ResponseHead where
  status : UInt16
  headers : List (Str × Option Str)

/-- The `content-encoding` lines as one list.  Header texts are ASCII. -/
def ResponseHead.contentEncoding (head : ResponseHead) : Str :=
  toAsciiLowercase ([','].intercalate
    ((head.headers.filter fun line => line.1 = "content-encoding".toList).map fun line =>
      line.2.getD "<unreadable>".toList))

def ResponseHead.location (head : ResponseHead) : Option Str :=
  (head.headers.find? fun line => line.1 = "location".toList).bind Prod.snd

/-- `body_bytes` and `decode_error`. -/
def ResponseHead.decode (decoders : Decoders) (maxBody : Nat) (head : ResponseHead)
    (rawBytes : List UInt8) (cutByCap : Bool) : List UInt8 × Option Str :=
  if head.contentEncoding.isEmpty then (rawBytes, none)
  else
    let decoded := decompress decoders head.contentEncoding rawBytes maxBody
    match decoded.decodeError with
    | none => (decoded.body, none)
    | some reason =>
        (decoded.body,
          some (if cutByCap then reason ++ " (body hit the max_body cap mid-stream)".toList
            else reason))

/-- `parse_response`, with what `read_body` returned. -/
def parseResponse (decoders : Decoders) (config : RequestConfig) (head : ResponseHead)
    (read : Except ClientError (List UInt8 × Bool)) : Except ClientError SingleResponse := do
  let (rawBytes, cutByCap) ← read
  let (bodyBytes, decodeError) := head.decode decoders config.maxBody rawBytes cutByCap
  pure
    { status := head.status
      headers := head.headers.map fun line => (line.1, line.2.getD "<binary>".toList)
      bodyBytes := bodyBytes
      location := head.location
      decodeError := decodeError }

/-! ## The cap on the wire -/

/-- The bytes in hand. -/
def ReadBody.held : ReadBody → List UInt8
  | .reading out => out
  | .done (.ok (out, _)) => out
  | .done (.error _) => []

theorem step_held {maxSize : Nat} {s t : ReadBody} {frame : Option (Except Str BodyFrame)}
    (held : s.held.length ≤ maxSize) (stepped : s.step maxSize frame = some t) :
    t.held.length ≤ maxSize := by
  cases s with
  | done result => cases stepped
  | reading out =>
      have room : out.length ≤ maxSize := held
      match frame, stepped with
      | none, stepped => cases stepped; exact room
      | some (.error e), stepped => cases stepped; exact Nat.zero_le _
      | some (.ok .trailers), stepped => cases stepped; exact room
      | some (.ok (.data chunk)), stepped =>
          simp only [ReadBody.step] at stepped
          split at stepped
          · cases stepped
            exact room
          · split at stepped
            · cases stepped
              show (out ++ chunk.take (maxSize - out.length)).length ≤ maxSize
              rw [List.length_append, List.length_take]
              omega
            · cases stepped
              show (out ++ chunk).length ≤ maxSize
              rw [List.length_append]
              omega

/-- At no point does the loop hold more than the cap. -/
theorem readBody_held {maxSize : Nat} {frames : List (Option (Except Str BodyFrame))}
    {s : ReadBody} (ran : run (ReadBody.step maxSize) (.reading []) frames = some s) :
    s.held.length ≤ maxSize :=
  run_invariant (motive := fun s => s.held.length ≤ maxSize) (Nat.zero_le _) step_held ran

/-! ## The cap on each layer -/

/-- What an attempt produced. -/
def Inflated.output? : Inflated → Option (List UInt8)
  | .whole out => some out
  | .part out _ => some out
  | .failed _ => none

theorem readBounded_length {decoder : Decoder} {grow : List UInt8 → Nat} {data out : List UInt8}
    {maxSize : Nat} {codec : Codec}
    (produced : (decoder.readBounded grow data maxSize codec).output? = some out) :
    out.length ≤ maxSize := by
  have bound := takeToEnd_length decoder.reader grow maxSize (decoder.new data) []
  rw [List.length_nil, Nat.zero_add] at bound
  unfold Decoder.readBounded at produced
  split at produced
  · rename_i buf clean
    cases produced
    rwa [clean] at bound
  · rename_i buf e broken
    split at produced
    · cases produced
    · cases produced
      rwa [broken] at bound

theorem decodeDeflate_length {decoders : Decoders} {data out : List UInt8} {maxSize : Nat}
    (produced : (decodeDeflate decoders data maxSize).output? = some out) :
    out.length ≤ maxSize := by
  simp only [decodeDeflate] at produced
  split at produced
  · split at produced
    · cases produced
    · exact readBounded_length produced
  · exact readBounded_length produced

/-- Every coding but `identity` is undone within the cap. -/
theorem decodeOne_length {decoders : Decoders} {codec : Codec} {data out : List UInt8}
    {maxSize : Nat} (coded : codec ≠ .identity)
    (produced : (decodeOne decoders codec data maxSize).output? = some out) :
    out.length ≤ maxSize := by
  cases codec with
  | gzip => exact readBounded_length produced
  | deflate => exact decodeDeflate_length produced
  | brotli => exact readBounded_length produced
  | identity => exact absurd rfl coded

/-- The layers that come off one after the other. -/
def layers (decoders : Decoders) (maxSize : Nat) : List Codec → List UInt8 → List (List UInt8)
  | [], _ => []
  | codec :: remaining, data =>
      match (decodeOne decoders codec data maxSize).output? with
      | none => []
      | some out => out :: layers decoders maxSize remaining out

theorem layers_length {decoders : Decoders} {maxSize : Nat} :
    ∀ {codecs : List Codec} {data : List UInt8}, .identity ∉ codecs →
      ∀ layer ∈ layers decoders maxSize codecs data, layer.length ≤ maxSize
  | [], _, _, _, there => by cases there
  | codec :: remaining, data, coded, layer, there => by
      obtain ⟨first, rest⟩ := List.ne_and_not_mem_of_not_mem_cons coded
      rw [layers] at there
      split at there
      · cases there
      · rename_i out produced
        rcases List.mem_cons.mp there with rfl | deeper
        · exact decodeOne_length first.symm produced
        · exact layers_length rest layer deeper

/-! ## What is returned -/

theorem readCodecs_coded {tokens : List Str} {codecs : List Codec}
    (read : readCodecs tokens = .ok codecs) : .identity ∉ codecs := by
  induction tokens generalizing codecs with
  | nil =>
      cases read
      exact List.not_mem_nil
  | cons token rest ih =>
      unfold readCodecs at read
      split at read
      · exact ih read
      · split at read
        · exact ih read
        · rename_i codec other _
          cases later : readCodecs rest with
          | error e => rw [later] at read; cases read
          | ok inner =>
              rw [later] at read
              cases read
              exact List.not_mem_cons_of_ne_of_not_mem (Ne.symm other) (ih later)
        · cases read

/-- The loop returns the bytes it started from or the last layer that came off. -/
theorem peel_body {decoders : Decoders} {maxSize declared : Nat} :
    ∀ (remaining : List Codec) (peeled : Nat) (incomplete : Option Str) (out : List UInt8),
      (peel decoders maxSize declared peeled incomplete remaining out).body ∈
        out :: layers decoders maxSize remaining out
  | [], _, none, _ => List.mem_cons_self
  | [], _, some _, _ => List.mem_cons_self
  | codec :: remaining, peeled, incomplete, out => by
      rw [peel, layers]
      cases decodeOne decoders codec out maxSize with
      | whole next =>
          exact List.mem_cons_of_mem _ (peel_body remaining (peeled + 1) incomplete next)
      | part next why =>
          exact List.mem_cons_of_mem _
            (peel_body remaining (peeled + 1) (some (incomplete.getD why)) next)
      | failed reason => exact List.mem_cons_self

/-- The layers that `decompress` produces. -/
def decompressLayers (decoders : Decoders) (encoding : Str) (data : List UInt8) (maxSize : Nat) :
    List (List UInt8) :=
  if data.isEmpty then []
  else
    match readCodecs (encoding.splitOn ',') with
    | .error _ => []
    | .ok codecs => layers decoders maxSize codecs.reverse data

theorem decompressLayers_length {decoders : Decoders} {encoding : Str} {data : List UInt8}
    {maxSize : Nat} :
    ∀ layer ∈ decompressLayers decoders encoding data maxSize, layer.length ≤ maxSize := by
  intro layer there
  unfold decompressLayers at there
  split at there
  · cases there
  · split at there
    · cases there
    · rename_i codecs read
      have coded : .identity ∉ codecs.reverse := by
        rw [List.mem_reverse]
        exact readCodecs_coded read
      exact layers_length coded layer there

/-- Whatever the outcome, the body is the data or a layer. -/
theorem decompress_body (decoders : Decoders) (encoding : Str) (data : List UInt8)
    (maxSize : Nat) :
    (decompress decoders encoding data maxSize).body ∈
      data :: decompressLayers decoders encoding data maxSize := by
  unfold decompress decompressLayers
  split
  · rename_i empty
    rw [List.isEmpty_iff.mp empty]
    exact List.mem_cons_self
  · split
    · exact List.mem_cons_self
    · rename_i codecs _
      split
      · exact List.mem_cons_self
      · rename_i outermost remaining order
        rw [order, layers]
        cases decodeOne decoders outermost data maxSize with
        | whole out => exact List.mem_cons_of_mem _ (peel_body remaining 1 none out)
        | part out why => exact List.mem_cons_of_mem _ (peel_body remaining 1 (some why) out)
        | failed reason => exact List.mem_cons_self

theorem decompress_length {decoders : Decoders} {encoding : Str} {data : List UInt8}
    {maxSize : Nat} (small : data.length ≤ maxSize) :
    (decompress decoders encoding data maxSize).body.length ≤ maxSize := by
  rcases List.mem_cons.mp (decompress_body decoders encoding data maxSize) with same | layer
  · rw [same]
    exact small
  · exact decompressLayers_length _ layer

theorem decode_length {decoders : Decoders} {maxBody : Nat} {head : ResponseHead}
    {rawBytes : List UInt8} {cutByCap : Bool} (small : rawBytes.length ≤ maxBody) :
    (head.decode decoders maxBody rawBytes cutByCap).1.length ≤ maxBody := by
  unfold ResponseHead.decode
  split
  · exact small
  · simp only
    split
    · exact decompress_length small
    · exact decompress_length small

/-- A response has a body only where one was read. -/
theorem parseResponse_body {decoders : Decoders} {config : RequestConfig} {head : ResponseHead}
    {read : Except ClientError (List UInt8 × Bool)} {single : SingleResponse}
    (parsed : parseResponse decoders config head read = .ok single) :
    ∃ raw cut, read = .ok (raw, cut) ∧
      single.bodyBytes = (head.decode decoders config.maxBody raw cut).1 := by
  obtain ⟨⟨raw, cut⟩, rfl, made⟩ := bind_ok.mp parsed
  cases made
  exact ⟨raw, cut, rfl, rfl⟩

/-- **The cap holds throughout.** After any frames of any body `read_body` holds no more
than `max_body` bytes, no layer `decompress` produces is longer, for any data and any
list of codings, and neither is the body of the response. -/
theorem body_capped {decoders : Decoders} {config : RequestConfig}
    {frames : List (Option (Except Str BodyFrame))} {s : ReadBody}
    (ran : run (ReadBody.step config.maxBody) (.reading []) frames = some s) :
    s.held.length ≤ config.maxBody ∧
    (∀ encoding data, ∀ layer ∈ decompressLayers decoders encoding data config.maxBody,
      layer.length ≤ config.maxBody) ∧
    (∀ read head single, s = .done read → parseResponse decoders config head read = .ok single →
      single.bodyBytes.length ≤ config.maxBody) := by
  have held := readBody_held ran
  refine ⟨held, fun encoding data => decompressLayers_length, ?_⟩
  rintro read head single rfl parsed
  obtain ⟨raw, cut, rfl, body⟩ := parseResponse_body parsed
  rw [body]
  exact decode_length held

/-! A body of six bytes in two frames, and a cap of four. -/

/-- A decoder that none of the bytes below can satisfy. -/
def corruptDecoder : Decoder where
  State := Unit
  new := fun _ => ()
  reader := { read := fun s _ => (.error "corrupt stream".toList, s), fits := by rintro _ _ _ ⟨⟩ }

def corruptDecoders : Decoders :=
  ⟨corruptDecoder, corruptDecoder, corruptDecoder, corruptDecoder, fun _ => 31⟩

def cappedConfig : RequestConfig := { RequestConfig.new [] with maxBodySize := some 4 }

theorem body_capped_cut :
    (ReadBody.done (.ok ([1, 2, 3, 4], true))).held.length ≤ cappedConfig.maxBody ∧
    (∀ encoding data,
      ∀ layer ∈ decompressLayers corruptDecoders encoding data cappedConfig.maxBody,
        layer.length ≤ cappedConfig.maxBody) ∧
    (∀ read head single, ReadBody.done (.ok ([1, 2, 3, 4], true)) = .done read →
      parseResponse corruptDecoders cappedConfig head read = .ok single →
        single.bodyBytes.length ≤ cappedConfig.maxBody) :=
  @body_capped corruptDecoders cappedConfig
    [some (.ok (.data [1, 2, 3])), some (.ok (.data [4, 5, 6]))]
    (.done (.ok ([1, 2, 3, 4], true))) rfl

end Blasthttp.Client
