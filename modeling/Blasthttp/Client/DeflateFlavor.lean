/-
# Blasthttp.Client.DeflateFlavor -- the two shapes of a deflate body

`decode_deflate` asks the decoder the first two bytes point at, and the other one only if
nothing came out.  Every zlib stream carries the header, so those come back whole; a raw
stream that has it too comes back whole only if the zlib decoder has nothing to say about
it (`decodeDeflate_iff`).
-/
import Blasthttp.Client.Body
import Blasthttp.Lib.Deflate

namespace Blasthttp.Client

open Blasthttp.Rust Blasthttp.Lib.Deflate

set_option autoImplicit false

/-! ## The decoders -/

/-- A decoder of a format hands over what the bytes decompress to.  It takes their end for
the end of the stream, and reports bytes that break the format. -/
structure Decoder.Reads (decoder : Decoder) (format : List UInt8 → Reading) : Prop where
  ended : ∀ {data out rest}, format data = .ended out rest →
    decoder.reader.Delivers (decoder.new data) out
  short : ∀ {data out}, format data = .short out → decoder.reader.Delivers (decoder.new data) out
  broken : ∀ {data out}, format data = .broken out → decoder.reader.Rejects (decoder.new data) out

section Attempt

variable {decoder : Decoder} {data out : List UInt8} (grow : List UInt8 → Nat) (maxSize : Nat)
  (codec : Codec)

theorem readBounded_delivers (delivers : decoder.reader.Delivers (decoder.new data) out) :
    decoder.readBounded grow data maxSize codec = .whole (out.take maxSize) := by
  simp only [Decoder.readBounded, takeToEnd_of_delivers delivers]

/-- Of bytes that break the format, the limit can be reached, or the error comes first,
behind nothing or behind something. -/
theorem readBounded_rejects (rejects : decoder.reader.Rejects (decoder.new data) out) :
    (∃ bytes t, decoder.reader.HandedIn (takeRoom grow maxSize) (decoder.new data) bytes t ∧
      bytes.length = maxSize ∧ decoder.readBounded grow data maxSize codec = .whole bytes) ∨
    ∃ bytes, decoder.reader.FailsBehind (takeRoom grow maxSize) (decoder.new data) bytes ∧
      ((bytes = [] ∧ ∃ reason, decoder.readBounded grow data maxSize codec = .failed reason) ∨
        (bytes ≠ [] ∧ ∃ why, decoder.readBounded grow data maxSize codec = .part bytes why)) := by
  have filled := (takeToEnd_of_rejects rejects grow maxSize).2
  obtain ⟨⟨t, handed⟩, fails⟩ :=
    @handedIn_takeToEnd _ decoder.reader (decoder.new data) grow maxSize [] _ .start maxSize rfl
  simp only [Decoder.readBounded]
  cases read : decoder.reader.takeToEnd grow maxSize (decoder.new data) [] with
  | mk buf err =>
      rw [read] at filled handed fails
      cases err with
      | none => exact .inl ⟨buf, t, handed, filled rfl, rfl⟩
      | some e =>
          refine .inr ⟨buf, fails e rfl, ?_⟩
          cases buf with
          | nil => exact .inl ⟨rfl, _, rfl⟩
          | cons byte bytes => exact .inr ⟨by simp, _, rfl⟩

end Attempt

/-! ## The header -/

theorem header_of_zlib {data out rest : List UInt8} (ends : zlib data = .ended out rest) :
    hasZlibHeader data = true := by
  match data, ends with
  | cmf :: flg :: _, ends =>
      rw [zlib] at ends
      split at ends
      · rename_i header
        simpa [hasZlibHeader] using And.intro header.1 header.2.2.1
      · cases ends

section Flavor

variable {decoders : Decoders} {data : List UInt8} {maxSize : Nat}

/-- The decoder that is asked first. -/
abbrev expected (decoders : Decoders) (data : List UInt8) : Decoder :=
  if hasZlibHeader data then decoders.zlib else decoders.deflate

theorem decodeDeflate_whole {out : List UInt8}
    (attempt : (expected decoders data).readBounded decoders.grow data maxSize .deflate =
      .whole out) : decodeDeflate decoders data maxSize = .whole out := by
  simp only [decodeDeflate, attempt]

/-- What the first decoder delivers settles it. -/
theorem decodeDeflate_delivers {flavor : Decoder} {out : List UInt8}
    (first : expected decoders data = flavor)
    (delivers : flavor.reader.Delivers (flavor.new data) out) :
    decodeDeflate decoders data maxSize = .whole (out.take maxSize) := by
  apply decodeDeflate_whole
  rw [first]
  exact readBounded_delivers _ _ _ delivers

theorem decodeDeflate_part {out : List UInt8} {why : Str}
    (attempt : (expected decoders data).readBounded decoders.grow data maxSize .deflate =
      .part out why) : decodeDeflate decoders data maxSize = .part out why := by
  simp only [decodeDeflate, attempt]

theorem decodeDeflate_other {out : List UInt8} {reason : Str} (header : hasZlibHeader data = true)
    (attempt : decoders.zlib.readBounded decoders.grow data maxSize .deflate = .failed reason)
    (other : decoders.deflate.readBounded decoders.grow data maxSize .deflate = .whole out) :
    decodeDeflate decoders data maxSize = .whole out := by
  simp [decodeDeflate, header, attempt, other]

end Flavor

/-! ## The content -/

/-- Both flavors come back as what they are a stream of. -/
def RightContent (decoders : Decoders) (data : List UInt8) (maxSize : Nat) : Prop :=
  (∀ content, zlib data = .ended content [] → content.length ≤ maxSize →
    decodeDeflate decoders data maxSize = .whole content) ∧
  (∀ content, inflate data = .ended content [] → (∀ other, zlib data ≠ .ended other []) →
    content.length ≤ maxSize → decodeDeflate decoders data maxSize = .whole content)

/-- The zlib decoder hands over nothing before its error; or, if it gets as far as the limit
without one, the content. -/
structure QuietError (decoders : Decoders) (data : List UInt8) (maxSize : Nat)
    (content : List UInt8) : Prop where
  nothing : ∀ bytes, decoders.zlib.reader.FailsBehind (takeRoom decoders.grow maxSize)
    (decoders.zlib.new data) bytes → bytes = []
  chance : ∀ bytes t, decoders.zlib.reader.HandedIn (takeRoom decoders.grow maxSize)
    (decoders.zlib.new data) bytes t → bytes.length = maxSize → bytes = content

/-- What the zlib decoder makes of a raw stream does no harm: where the bytes break its
format it has handed over nothing, or else it gives the content by chance. -/
def Harmless (decoders : Decoders) (data : List UInt8) (maxSize : Nat) (content : List UInt8) :
    Prop :=
  match zlib data with
  | .ended out _ => out.take maxSize = content
  | .short out => out.take maxSize = content
  | .broken _ => QuietError decoders data maxSize content

/-- A raw stream that starts like a zlib stream is not misread as one. -/
def NotMisled (decoders : Decoders) (data : List UInt8) (maxSize : Nat) : Prop :=
  ∀ content, inflate data = .ended content [] → content.length ≤ maxSize →
    hasZlibHeader data = true → (∀ other, zlib data ≠ .ended other []) →
    Harmless decoders data maxSize content

section Content

variable {decoders : Decoders} {data : List UInt8} {maxSize : Nat}

theorem decodeDeflate_zlib (zlibReads : decoders.zlib.Reads zlib) {content : List UInt8}
    (complete : zlib data = .ended content []) (small : content.length ≤ maxSize) :
    decodeDeflate decoders data maxSize = .whole content := by
  rw [decodeDeflate_delivers (if_pos (header_of_zlib complete)) (zlibReads.ended complete),
    List.take_of_length_le small]

theorem decodeDeflate_raw (rawReads : decoders.deflate.Reads inflate) {content : List UInt8}
    (complete : inflate data = .ended content []) (small : content.length ≤ maxSize)
    (bare : ¬ hasZlibHeader data = true) :
    decodeDeflate decoders data maxSize = .whole content := by
  rw [decodeDeflate_delivers (if_neg bare) (rawReads.ended complete),
    List.take_of_length_le small]

/-- What zlib reads as a stream that only ends early is taken for the content. -/
theorem decodeDeflate_short (zlibReads : decoders.zlib.Reads zlib) {out : List UInt8}
    (header : hasZlibHeader data = true) (cut : zlib data = .short out) :
    decodeDeflate decoders data maxSize = .whole (out.take maxSize) :=
  decodeDeflate_delivers (if_pos header) (zlibReads.short cut)

/-- A raw stream that breaks the zlib format falls back if nothing was handed over. -/
theorem decodeDeflate_broken (zlibReads : decoders.zlib.Reads zlib)
    (rawReads : decoders.deflate.Reads inflate) {content out : List UInt8}
    (complete : inflate data = .ended content []) (small : content.length ≤ maxSize)
    (header : hasZlibHeader data = true) (broken : zlib data = .broken out) :
    decodeDeflate decoders data maxSize = .whole content ↔
      QuietError decoders data maxSize content := by
  have first : expected decoders data = decoders.zlib := if_pos header
  rcases readBounded_rejects decoders.grow maxSize .deflate (zlibReads.broken broken) with
    ⟨bytes, t, handed, full, settled⟩ | ⟨bytes, fails, ⟨rfl, reason, failed⟩ | ⟨something, why, cut⟩⟩
  · rw [decodeDeflate_whole (by rw [first]; exact settled)]
    have read := takeToEnd_filled handed full
    constructor
    · rintro ⟨rfl⟩
      refine ⟨fun other fails => ?_, fun other t' handed' full' => ?_⟩
      · obtain ⟨e, failed⟩ := takeToEnd_failsBehind fails
        rw [read] at failed
        cases failed
      · rw [takeToEnd_filled handed' full'] at read
        cases read
        rfl
    · intro quiet
      rw [quiet.chance bytes t handed full]
  · have other := readBounded_delivers decoders.grow maxSize .deflate (rawReads.ended complete)
    rw [List.take_of_length_le small] at other
    rw [decodeDeflate_other header failed other]
    obtain ⟨e, read⟩ := takeToEnd_failsBehind fails
    refine iff_of_true rfl ⟨fun bytes fails' => ?_, fun bytes t handed full => ?_⟩
    · obtain ⟨e', read'⟩ := takeToEnd_failsBehind fails'
      rw [read] at read'
      cases read'
      rfl
    · rw [takeToEnd_filled handed full] at read
      cases read
  · rw [decodeDeflate_part (by rw [first]; exact cut)]
    constructor
    · intro whole
      cases whole
    · intro quiet
      exact absurd (quiet.nothing bytes fails) something

theorem decodeDeflate_misleading (zlibReads : decoders.zlib.Reads zlib)
    (rawReads : decoders.deflate.Reads inflate) {content : List UInt8}
    (complete : inflate data = .ended content []) (small : content.length ≤ maxSize)
    (header : hasZlibHeader data = true) :
    decodeDeflate decoders data maxSize = .whole content ↔
      Harmless decoders data maxSize content := by
  cases read : zlib data with
  | ended out rest =>
      rw [decodeDeflate_delivers (if_pos header) (zlibReads.ended read)]
      simp only [Harmless, read, Inflated.whole.injEq]
  | short out =>
      rw [decodeDeflate_short zlibReads header read]
      simp only [Harmless, read, Inflated.whole.injEq]
  | broken out =>
      simp only [Harmless, read]
      exact decodeDeflate_broken zlibReads rawReads complete small header read

end Content

/-- Only one shape of raw stream looks like a zlib stream: one that starts with a stored
block, not the final one, whose length goes on where the zlib data would start. -/
theorem misleading_stored {data content rest : List UInt8} (header : hasZlibHeader data = true)
    (ends : inflate data = .ended content rest) :
    ∃ cmf len hi nlen nhi tail, data = cmf :: len :: hi :: nlen :: nhi :: tail ∧
      len.toNat + nlen.toNat = 255 ∧ hi.toNat + nhi.toNat = 255 := by
  match data, header, ends with
  | cmf :: flg :: behind, header, ends =>
      have method : cmf &&& 0x0f = 8 ∧ (256 * cmf.toNat + flg.toNat) % 31 = 0 := by
        simpa [hasZlibHeader] using header
      have nibble : cmf.toNat % 16 = 8 := by
        have low := congrArg UInt8.toNat method.1
        rw [UInt8.toNat_and] at low
        exact (Nat.and_two_pow_sub_one_eq_mod cmf.toNat 4).symm.trans low
      obtain ⟨len, hi, nlen, nhi, tail, same, sums⟩ := inflate_stored (by omega) ends
      exact ⟨cmf, len, hi, nlen, nhi, tail, by rw [same], sums⟩

theorem notMisled_of_broken {decoders : Decoders} (zlibReads : decoders.zlib.Reads zlib)
    {data : List UInt8} (broken : zlib data = .broken []) (maxSize : Nat) :
    NotMisled decoders data maxSize := by
  intro content _ small _ _
  have nothing := (takeToEnd_of_rejects (zlibReads.broken broken) decoders.grow maxSize).1
  rw [List.prefix_nil] at nothing
  simp only [Harmless, broken]
  refine ⟨fun bytes fails => ?_, fun bytes t handed full => ?_⟩
  · obtain ⟨e, read⟩ := takeToEnd_failsBehind fails
    rw [read] at nothing
    exact nothing
  · -- a limit of zero
    rw [takeToEnd_filled handed full] at nothing
    subst nothing
    rw [← full, List.length_nil, Nat.le_zero] at small
    exact (List.eq_nil_of_length_eq_zero small).symm

/-- **A raw stream comes back wrong if zlib has something to say about it.**  Where the
decoders do what they are for, every complete stream of either flavor decodes to its
content, unless it is a raw one that carries a zlib header and from which the zlib decoder
hands over bytes, or ends without any, that are not the content. -/
theorem decodeDeflate_iff (decoders : Decoders) (zlibReads : decoders.zlib.Reads zlib)
    (rawReads : decoders.deflate.Reads inflate) (data : List UInt8) (maxSize : Nat) :
    RightContent decoders data maxSize ↔ NotMisled decoders data maxSize := by
  constructor
  · intro right content complete small header bare
    exact (decodeDeflate_misleading zlibReads rawReads complete small header).mp
      (right.2 content complete bare small)
  · intro sound
    refine ⟨fun content complete small => decodeDeflate_zlib zlibReads complete small,
      fun content complete bare small => ?_⟩
    by_cases header : hasZlibHeader data = true
    · exact (decodeDeflate_misleading zlibReads rawReads complete small header).mpr
        (sound content complete small header bare)
    · exact decodeDeflate_raw rawReads complete small header

/-! Decoders that hand over all of a reading, and two raw streams with a zlib header. -/

/-- What is left to hand over, and the error behind it. -/
def readingDecoder (format : List UInt8 → Reading) : Decoder where
  State := List UInt8 × Option Str
  new := fun data =>
    match format data with
    | .ended out _ => (out, none)
    | .short out => (out, none)
    | .broken out => (out, some "corrupt deflate stream".toList)
  reader :=
    { read := fun s room =>
        match s with
        | ([], some e) => (.error e, s)
        | (out, e) => (.ok (out.take room), (out.drop room, e))
      fits := by
        rintro ⟨out, e⟩ room bytes read
        match out, e, read with
        | [], none, read =>
            cases read
            simp
        | byte :: out, e, read =>
            cases read
            exact List.length_take_le _ _ }

theorem readingDecoder_handed {format : List UInt8 → Reading} {out bytes : List UInt8}
    {e : Option Str} {t : List UInt8 × Option Str}
    (handed : (readingDecoder format).reader.Handed (out, e) bytes t) :
    out = bytes ++ t.1 ∧ t.2 = e := by
  induction handed with
  | start => exact ⟨rfl, rfl⟩
  | @more bytes piece t u room handed some_room nonempty read ih =>
      obtain ⟨left, err⟩ := t
      obtain ⟨rfl, rfl⟩ := ih
      match left, err, read with
      | [], none, read =>
          cases read
          exact ⟨by simp, rfl⟩
      | byte :: left, err, read =>
          cases read
          exact ⟨by simp, rfl⟩

theorem readingDecoder_delivers (format : List UInt8 → Reading) (out : List UInt8) :
    (readingDecoder format).reader.Delivers (out, none) out := by
  intro bytes t handed
  obtain ⟨left, err⟩ := t
  obtain ⟨rfl, rfl⟩ := readingDecoder_handed handed
  refine ⟨List.prefix_append _ _, fun room some_room => ?_⟩
  match left with
  | [] => exact ⟨_, _, rfl, fun _ => by simp⟩
  | byte :: left =>
      refine ⟨_, _, rfl, fun nothing => ?_⟩
      rcases List.take_eq_nil_iff.mp nothing with zero | empty
      · omega
      · cases empty

theorem readingDecoder_rejects (format : List UInt8 → Reading) (out : List UInt8) (e : Str) :
    (readingDecoder format).reader.Rejects (out, some e) out := by
  intro bytes t handed
  obtain ⟨left, err⟩ := t
  obtain ⟨rfl, rfl⟩ := readingDecoder_handed handed
  refine ⟨List.prefix_append _ _, fun room u some_room read => ?_⟩
  match left, read with
  | byte :: left, read =>
      have nothing : (byte :: left).take room = [] := by
        injection read with piece
        injection piece
      rcases List.take_eq_nil_iff.mp nothing with zero | empty
      · omega
      · cases empty

theorem readingDecoder_reads (format : List UInt8 → Reading) :
    (readingDecoder format).Reads format where
  ended := by
    intro data out rest ends
    simpa [readingDecoder, ends] using readingDecoder_delivers format out
  short := by
    intro data out ends
    simpa [readingDecoder, ends] using readingDecoder_delivers format out
  broken := by
    intro data out ends
    simpa [readingDecoder, ends] using
      readingDecoder_rejects format out "corrupt deflate stream".toList

def readingDecoders : Decoders :=
  ⟨corruptDecoder, readingDecoder zlib, readingDecoder inflate, corruptDecoder, fun _ => 31⟩

/-- A stored block of 29 bytes and an empty final one. -/
def storedStream (payload : List UInt8) : List UInt8 :=
  [0x08, 0x1d, 0x00, 0xe2, 0xff] ++ payload ++ [0x01, 0x00, 0x00, 0xff, 0xff]

theorem decodeDeflate_iff_falls_back :
    RightContent readingDecoders
      (storedStream (utf8Bytes "twenty-nine bytes of content!".toList)) 64 :=
  (decodeDeflate_iff readingDecoders (readingDecoder_reads zlib) (readingDecoder_reads inflate)
    (storedStream (utf8Bytes "twenty-nine bytes of content!".toList)) 64).mpr
    (notMisled_of_broken (readingDecoder_reads zlib) (by decide +kernel) 64)

/-- With the length in front of it the payload reads as a long zlib block, cut short. -/
def misleadingPayload : List UInt8 :=
  [0x1d, 0x00] ++ utf8Bytes "twenty-seven bytes of text.".toList

/-- What zlib has of it: all but the two bytes, and the final block. -/
def misreadPayload : List UInt8 :=
  utf8Bytes "twenty-seven bytes of text.".toList ++ [0x01, 0x00, 0x00, 0xff, 0xff]

theorem misleading_short : zlib (storedStream misleadingPayload) = .short misreadPayload := by
  decide +kernel

theorem decodeDeflate_misled :
    ¬ ∀ (decoders : Decoders) (data : List UInt8) (maxSize : Nat),
      decoders.zlib.Reads zlib → decoders.deflate.Reads inflate →
        RightContent decoders data maxSize := by
  intro right
  have complete : inflate (storedStream misleadingPayload) = .ended misleadingPayload [] := by
    decide +kernel
  have bare : ∀ other, zlib (storedStream misleadingPayload) ≠ .ended other [] := by
    intro other ends
    rw [misleading_short] at ends
    cases ends
  have small : misleadingPayload.length ≤ 64 := by decide +kernel
  have whole := (right readingDecoders (storedStream misleadingPayload) 64
    (readingDecoder_reads zlib) (readingDecoder_reads inflate)).2
    misleadingPayload complete bare small
  have misread := @decodeDeflate_short readingDecoders (storedStream misleadingPayload) 64
    (readingDecoder_reads zlib) misreadPayload (by decide +kernel) misleading_short
  have same := Inflated.whole.inj (misread.symm.trans whole)
  have different : misreadPayload.take 64 ≠ misleadingPayload := by decide +kernel
  exact different same

end Blasthttp.Client
