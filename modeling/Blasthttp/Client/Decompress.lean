/-
# Blasthttp.Client.Decompress -- the stack of codings and what is said about it

`decompress` with its decoders left open (`decompressWith`): each takes a layer off whole,
in part, or not at all.  `decompress_truthful` says which layers are tried, what comes
back, and that a body passes for content exactly if every layer came off whole.
-/
import Blasthttp.Client.Body
import Blasthttp.Lib.Layers

namespace Blasthttp.Client

open Blasthttp.Rust Blasthttp.Lib.Layers

set_option autoImplicit false

/-! ## Open decoders -/

section Open

variable (decode : Codec → List UInt8 → Inflated)

/-- `peel` with any decoders. -/
def peelWith (declared : Nat) : Nat → Option Str → List Codec → List UInt8 → Decoded
  | _, none, [], out => .content out
  | _, some reason, [], out => .cut out reason
  | peeled, incomplete, codec :: remaining, out =>
      match decode codec out with
      | .whole next => peelWith declared (peeled + 1) incomplete remaining next
      | .part next why => peelWith declared (peeled + 1) (some (incomplete.getD why)) remaining next
      | .failed reason =>
          .cut out (decimalText peeled ++ " of ".toList ++ decimalText declared ++
            " content-encoding layers came off: ".toList ++ reason)

/-- `decompress` with any decoders. -/
def decompressWith (encoding : Str) (data : List UInt8) : Decoded :=
  if data.isEmpty then .content []
  else
    match readCodecs (encoding.splitOn ',') with
    | .error token =>
        .raw data ("unsupported content-encoding '".toList ++ token ++ "'".toList)
    | .ok codecs =>
        match codecs.reverse with
        | [] => .content data
        | outermost :: remaining =>
            match decode outermost data with
            | .whole out => peelWith decode codecs.length 1 none remaining out
            | .part out why => peelWith decode codecs.length 1 (some why) remaining out
            | .failed reason => .raw data reason

end Open

theorem peel_eq (decoders : Decoders) (maxSize declared : Nat) :
    ∀ (codecs : List Codec) (peeled : Nat) (incomplete : Option Str) (out : List UInt8),
      peel decoders maxSize declared peeled incomplete codecs out =
        peelWith (fun codec bytes => decodeOne decoders codec bytes maxSize) declared peeled
          incomplete codecs out
  | [], _, none, _ => rfl
  | [], _, some _, _ => rfl
  | codec :: codecs, peeled, incomplete, out => by
      rw [peel, peelWith]
      cases decodeOne decoders codec out maxSize with
      | whole next => exact peel_eq decoders maxSize declared codecs _ _ next
      | part next why => exact peel_eq decoders maxSize declared codecs _ _ next
      | failed reason => rfl

/-- The code's decoders are one choice. -/
theorem decompress_eq (decoders : Decoders) (encoding : Str) (data : List UInt8) (maxSize : Nat) :
    decompress decoders encoding data maxSize =
      decompressWith (fun codec bytes => decodeOne decoders codec bytes maxSize) encoding data := by
  rw [decompress, decompressWith]
  cases data.isEmpty with
  | true => rfl
  | false =>
      cases readCodecs (encoding.splitOn ',') with
      | error token => rfl
      | ok codecs =>
          simp only [Bool.false_eq_true, if_false]
          cases codecs.reverse with
          | nil => rfl
          | cons outermost remaining =>
              cases first : decodeOne decoders outermost data maxSize with
              | whole out => simp only [first, peel_eq]
              | part out why => simp only [first, peel_eq]
              | failed reason => simp only [first]

/-! ## The list -/

def tokensOf (encoding : Str) : List Str := (encoding.splitOn ',').map trim

/-- Every token that is not empty names a coding. -/
def Known (encoding : Str) : Prop :=
  ∀ token ∈ tokensOf encoding, token ≠ [] → (Codec.fromToken token).isSome

/-- The coding a token stands for, if there is something to undo. -/
def codingOf (token : Str) : Option Codec :=
  match Codec.fromToken token with
  | some .identity => none
  | named => named

/-- The codings in the order they were applied. -/
def codingsOf (encoding : Str) : List Codec := (tokensOf encoding).filterMap codingOf

theorem readCodecs_cases (parts : List Str) :
    (readCodecs parts = .ok ((parts.map trim).filterMap codingOf) ∧
      ∀ token ∈ parts.map trim, token ≠ [] → (Codec.fromToken token).isSome) ∨
    ∃ token, readCodecs parts = .error token ∧ token ∈ parts.map trim ∧ token ≠ [] ∧
      Codec.fromToken token = none := by
  induction parts with
  | nil => exact .inl ⟨rfl, by simp⟩
  | cons part rest ih =>
      rw [readCodecs]
      by_cases empty : trim part = []
      · -- an empty token is passed by
        have nothing : codingOf [] = none := by decide
        rcases ih with ⟨read, known⟩ | ⟨token, read, there, other⟩
        · exact .inl ⟨by simpa [empty, nothing] using read, by simpa [empty] using known⟩
        · exact .inr ⟨token, by simpa [empty] using read, List.mem_cons_of_mem _ there, other⟩
      · have notEmpty : (trim part).isEmpty = false := by simpa using empty
        rw [notEmpty]
        simp only [Bool.false_eq_true, if_false]
        cases named : Codec.fromToken (trim part) with
        | none => exact .inr ⟨trim part, rfl, by simp, empty, named⟩
        | some codec =>
            have here : trim part ≠ [] → (Codec.fromToken (trim part)).isSome := fun _ => by
              rw [named]
              rfl
            rcases ih with ⟨read, known⟩ | ⟨token, read, there, other⟩
            · refine .inl ⟨?_, by simpa [named] using known⟩
              cases codec with
              | identity => simpa [codingOf, named] using read
              | gzip => simp [codingOf, named, read, Except.map]
              | deflate => simp [codingOf, named, read, Except.map]
              | brotli => simp [codingOf, named, read, Except.map]
            · refine .inr ⟨token, ?_, by simp [there], other⟩
              cases codec with
              | identity => exact read
              | gzip => simp [read, Except.map]
              | deflate => simp [read, Except.map]
              | brotli => simp [read, Except.map]

theorem readCodecs_known {encoding : Str} (known : Known encoding) :
    readCodecs (encoding.splitOn ',') = .ok (codingsOf encoding) := by
  rcases readCodecs_cases (encoding.splitOn ',')
    with ⟨read, -⟩ | ⟨token, -, there, nonempty, other⟩
  · exact read
  · have named := known token there nonempty
    rw [other] at named
    cases named

theorem readCodecs_unknown {encoding : Str} (unknown : ¬ Known encoding) :
    ∃ token, readCodecs (encoding.splitOn ',') = .error token := by
  rcases readCodecs_cases (encoding.splitOn ',') with ⟨-, known⟩ | ⟨token, read, -⟩
  · exact absurd known unknown
  · exact ⟨token, read⟩

theorem codingsOf_coded (encoding : Str) : .identity ∉ codingsOf encoding := by
  intro there
  obtain ⟨token, -, named⟩ := List.mem_filterMap.mp there
  unfold codingOf at named
  split at named
  · cases named
  · rename_i other
    exact other named

/-! ## The layers -/

/-- The output of a layer that came off whole. -/
def Inflated.whole? : Inflated → Option (List UInt8)
  | .whole out => some out
  | _ => none

variable {decode : Codec → List UInt8 → Inflated}

/-- A layer taken off, whole or in part. -/
abbrev off (decode : Codec → List UInt8 → Inflated) (codec : Codec) (data : List UInt8) :
    Option (List UInt8) := (decode codec data).output?

abbrev offWhole (decode : Codec → List UInt8 → Inflated) (codec : Codec) (data : List UInt8) :
    Option (List UInt8) := (decode codec data).whole?

section Layer

variable {codec : Codec} {data out : List UInt8} {why : Str} {rest : List Codec}

theorem off_whole (first : decode codec data = .whole out) : off decode codec data = some out := by
  rw [off, first]
  rfl

theorem off_part (first : decode codec data = .part out why) :
    off decode codec data = some out := by
  rw [off, first]
  rfl

theorem off_failed (first : decode codec data = .failed why) : off decode codec data = none := by
  rw [off, first]
  rfl

theorem unwrapAll_whole (first : decode codec data = .whole out) :
    unwrapAll (offWhole decode) (codec :: rest) data = unwrapAll (offWhole decode) rest out := by
  rw [unwrapAll, offWhole, first]
  rfl

theorem unwrapAll_part (first : decode codec data = .part out why) :
    unwrapAll (offWhole decode) (codec :: rest) data = none := by
  rw [unwrapAll, offWhole, first]
  rfl

theorem unwrapAll_failed (first : decode codec data = .failed why) :
    unwrapAll (offWhole decode) (codec :: rest) data = none := by
  rw [unwrapAll, offWhole, first]
  rfl

end Layer

theorem peelWith_body {declared : Nat} :
    ∀ (codecs : List Codec) (peeled : Nat) (incomplete : Option Str) (out : List UInt8),
      (peelWith decode declared peeled incomplete codecs out).body = unwrap (off decode) codecs out
  | [], _, none, _ => rfl
  | [], _, some _, _ => rfl
  | codec :: codecs, peeled, incomplete, out => by
      rw [peelWith]
      cases first : decode codec out with
      | whole next =>
          rw [unwrap_of_some (off_whole first)]
          exact peelWith_body codecs _ _ next
      | part next why =>
          rw [unwrap_of_some (off_part first)]
          exact peelWith_body codecs _ _ next
      | failed reason =>
          rw [unwrap_of_none (off_failed first)]
          rfl

/-- The first complaint stays, and a layer that stays on is one. -/
theorem peelWith_error {declared : Nat} :
    ∀ (codecs : List Codec) (peeled : Nat) (incomplete : Option Str) (out : List UInt8),
      (peelWith decode declared peeled incomplete codecs out).decodeError = none ↔
        incomplete = none ∧ (unwrapAll (offWhole decode) codecs out).isSome
  | [], _, none, _ => by simp [peelWith, Decoded.content, unwrapAll]
  | [], _, some _, _ => by simp [peelWith, Decoded.cut]
  | codec :: codecs, peeled, incomplete, out => by
      rw [peelWith]
      cases first : decode codec out with
      | whole next =>
          rw [unwrapAll_whole first]
          exact peelWith_error codecs _ incomplete next
      | part next why =>
          rw [unwrapAll_part first]
          have deeper := @peelWith_error declared codecs (peeled + 1)
            (some (incomplete.getD why)) next
          simpa using deeper
      | failed reason =>
          rw [unwrapAll_failed first]
          simp [Decoded.cut]

/-- Nothing behind the first layer that stays on is looked at. -/
theorem peelWith_congr {other : Codec → List UInt8 → Inflated} {declared : Nat} :
    ∀ (codecs : List Codec) (peeled : Nat) (incomplete : Option Str) (out : List UInt8),
      (∀ codec data, Tried (off decode) codecs out codec data →
        other codec data = decode codec data) →
        peelWith other declared peeled incomplete codecs out =
          peelWith decode declared peeled incomplete codecs out
  | [], _, none, _, _ => rfl
  | [], _, some _, _, _ => rfl
  | codec :: codecs, peeled, incomplete, out, agree => by
      rw [peelWith, peelWith, agree codec out .here]
      cases first : decode codec out with
      | whole next =>
          exact peelWith_congr codecs _ _ next fun c d tried =>
            agree c d (.deeper (off_whole first) tried)
      | part next why =>
          exact peelWith_congr codecs _ _ next fun c d tried =>
            agree c d (.deeper (off_part first) tried)
      | failed reason => rfl

/-! ## What is returned -/

section Returned

variable {encoding : Str} {data : List UInt8}

theorem decompressWith_empty : decompressWith decode encoding [] = .content [] := rfl

theorem decompressWith_unknown (some_data : data ≠ []) (unknown : ¬ Known encoding) :
    ∃ reason, decompressWith decode encoding data = .raw data reason := by
  obtain ⟨token, read⟩ := readCodecs_unknown unknown
  have there : data.isEmpty = false := by simpa using some_data
  simp only [decompressWith, there, read, Bool.false_eq_true, if_false]
  exact ⟨_, rfl⟩

/-- The fold with a known list: the outermost layer, then the others. -/
theorem decompressWith_known (some_data : data ≠ []) (known : Known encoding) :
    decompressWith decode encoding data =
      match (codingsOf encoding).reverse with
      | [] => .content data
      | outermost :: remaining =>
          match decode outermost data with
          | .whole out => peelWith decode (codingsOf encoding).length 1 none remaining out
          | .part out why => peelWith decode (codingsOf encoding).length 1 (some why) remaining out
          | .failed reason => .raw data reason := by
  have there : data.isEmpty = false := by simpa using some_data
  simp only [decompressWith, there, readCodecs_known known, Bool.false_eq_true, if_false]

/-- The outermost layer is treated as the others are, but for the text when it stays on. -/
theorem decompressWith_peel (some_data : data ≠ []) (known : Known encoding) :
    (decompressWith decode encoding data).body =
        (peelWith decode (codingsOf encoding).length 0 none
          (codingsOf encoding).reverse data).body ∧
      ((decompressWith decode encoding data).decodeError = none ↔
        (peelWith decode (codingsOf encoding).length 0 none
          (codingsOf encoding).reverse data).decodeError = none) := by
  rw [decompressWith_known some_data known]
  cases (codingsOf encoding).reverse with
  | nil => exact ⟨rfl, Iff.rfl⟩
  | cons outermost remaining =>
      cases first : decode outermost data with
      | whole out => simp [peelWith, first]
      | part out why => simp [peelWith, first]
      | failed reason => simp [peelWith, first, Decoded.raw, Decoded.cut]

theorem decompressWith_body (some_data : data ≠ []) (known : Known encoding) :
    (decompressWith decode encoding data).body =
      unwrap (off decode) (codingsOf encoding).reverse data := by
  rw [(decompressWith_peel some_data known).1, peelWith_body]

theorem decompressWith_error (some_data : data ≠ []) (known : Known encoding) :
    (decompressWith decode encoding data).decodeError = none ↔
      (unwrapAll (offWhole decode) (codingsOf encoding).reverse data).isSome := by
  rw [(decompressWith_peel some_data known).2, peelWith_error]
  simp

/-- Bytes whose list of codings cannot be read come back as they came. -/
theorem decompressWith_unknown_body (unknown : ¬ Known encoding) :
    (decompressWith decode encoding data).body = data := by
  by_cases empty : data = []
  · rw [empty]
    rfl
  · obtain ⟨reason, raw⟩ := @decompressWith_unknown decode encoding data empty unknown
    rw [raw]
    rfl

/-- So do bytes whose outermost layer stays on. -/
theorem decompressWith_stays_body {outermost : Codec} {reason : Str}
    (last : (codingsOf encoding).getLast? = some outermost)
    (stays : decode outermost data = .failed reason) :
    (decompressWith decode encoding data).body = data := by
  by_cases empty : data = []
  · rw [empty]
    rfl
  by_cases known : Known encoding
  · obtain ⟨inner, order⟩ := List.getLast?_eq_some_iff.mp last
    rw [decompressWith_body empty known, order, List.reverse_append, List.reverse_singleton,
      List.singleton_append, unwrap_of_none (off_failed stays)]
  · exact decompressWith_unknown_body known

theorem decompressWith_unflagged_iff :
    (decompressWith decode encoding data).decodeError = none ↔
      data = [] ∨ (Known encoding ∧
        (unwrapAll (offWhole decode) (codingsOf encoding).reverse data).isSome) := by
  by_cases empty : data = []
  · simp [empty, decompressWith_empty, Decoded.content]
  by_cases known : Known encoding
  · simpa [empty, known] using decompressWith_error empty known
  · obtain ⟨reason, raw⟩ := @decompressWith_unknown decode encoding data empty known
    simp [empty, known, raw, Decoded.raw]

theorem decompressWith_congr {other : Codec → List UInt8 → Inflated}
    (agree : ∀ codec layer, Tried (off decode) (codingsOf encoding).reverse data codec layer →
      other codec layer = decode codec layer) :
    decompressWith other encoding data = decompressWith decode encoding data := by
  by_cases empty : data = []
  · rw [empty]
    rfl
  by_cases known : Known encoding
  · rw [decompressWith_known empty known, decompressWith_known empty known]
    cases order : (codingsOf encoding).reverse with
    | nil => rfl
    | cons outermost remaining =>
        rw [order] at agree
        simp only [agree outermost data .here]
        cases first : decode outermost data with
        | whole out =>
            exact peelWith_congr remaining _ _ out fun c d tried =>
              agree c d (.deeper (off_whole first) tried)
        | part out why =>
            exact peelWith_congr remaining _ _ out fun c d tried =>
              agree c d (.deeper (off_part first) tried)
        | failed reason => rfl
  · obtain ⟨token, read⟩ := readCodecs_unknown known
    simp only [decompressWith, read]

end Returned

theorem unwrap_of_unwrapAll {codecs : List Codec} {data out : List UInt8}
    (all : unwrapAll (offWhole decode) codecs data = some out) :
    unwrap (off decode) codecs data = out := by
  induction codecs generalizing data with
  | nil =>
      cases all
      rfl
  | cons codec codecs ih =>
      cases first : decode codec data with
      | whole next =>
          rw [unwrapAll_whole first] at all
          rw [unwrap_of_some (off_whole first)]
          exact ih all
      | part next why =>
          rw [unwrapAll_part first] at all
          cases all
      | failed reason =>
          rw [unwrapAll_failed first] at all
          cases all

/-- What the encoders put around a body in the order of the list comes off again. -/
theorem decompressWith_roundTrip {encode : Codec → List UInt8 → List UInt8} {maxSize : Nat}
    {encoding : Str} {body : List UInt8}
    (inverse : ∀ codec, codec ≠ .identity → ∀ data, data.length ≤ maxSize →
      decode codec (encode codec data) = .whole data)
    (nonempty : ∀ codec, codec ≠ .identity → ∀ data, encode codec data ≠ [])
    (known : Known encoding)
    (fit : AllFit encode (fun data => data.length ≤ maxSize) (codingsOf encoding) body) :
    decompressWith decode encoding (wrapAll encode (codingsOf encoding) body) = .content body := by
  have coded : ∀ codec ∈ codingsOf encoding, codec ≠ .identity := by
    rintro codec there rfl
    exact codingsOf_coded encoding there
  have peeled : unwrapAll (offWhole decode) (codingsOf encoding).reverse
      (wrapAll encode (codingsOf encoding) body) = some body := by
    refine unwrapAll_wrap (fun codec there data small => ?_) fit
    rw [offWhole, inverse codec (coded codec there) data small]
    rfl
  by_cases empty : wrapAll encode (codingsOf encoding) body = []
  · -- only with nothing to undo can the wire be empty
    have bare : codingsOf encoding = [] := by
      by_contra some_layer
      exact wrapAll_of_ne_nil (P := (· ≠ [])) some_layer
        (fun codec there data => nonempty codec (coded codec there) data) body empty
    rw [bare] at empty ⊢
    have nothing : body = [] := empty
    rw [nothing]
    rfl
  · have clean := (@decompressWith_error decode _ _ empty known).mpr (by rw [peeled]; rfl)
    have bytes := @decompressWith_body decode _ _ empty known
    rw [unwrap_of_unwrapAll peeled] at bytes
    calc decompressWith decode encoding (wrapAll encode (codingsOf encoding) body)
        = ⟨(decompressWith decode encoding (wrapAll encode (codingsOf encoding) body)).body,
            (decompressWith decode encoding
              (wrapAll encode (codingsOf encoding) body)).decodeError⟩ := rfl
      _ = .content body := by rw [bytes, clean]; rfl

/-- **The stack comes off as far as it is said to.**  With any decoders, a body goes
unflagged exactly if it is empty, or every token is known and every layer came off whole,
last to first.  An unknown token or an outermost layer that stays on returns the input;
otherwise the last layer to come off is returned, and only the layers in front of the
first failed one and that one are looked at.  Whatever was encoded in the order of the
list comes back, and the code's own decoders are one choice. -/
theorem decompress_truthful (decode : Codec → List UInt8 → Inflated) (encoding : Str)
    (data : List UInt8) :
    ((decompressWith decode encoding data).decodeError = none ↔
      data = [] ∨ (Known encoding ∧
        (unwrapAll (offWhole decode) (codingsOf encoding).reverse data).isSome)) ∧
    (¬ Known encoding → (decompressWith decode encoding data).body = data) ∧
    (∀ outermost reason, (codingsOf encoding).getLast? = some outermost →
      decode outermost data = .failed reason →
        (decompressWith decode encoding data).body = data) ∧
    (data ≠ [] → Known encoding → (decompressWith decode encoding data).body =
      unwrap (off decode) (codingsOf encoding).reverse data) ∧
    (∀ other : Codec → List UInt8 → Inflated,
      (∀ codec layer, Tried (off decode) (codingsOf encoding).reverse data codec layer →
        other codec layer = decode codec layer) →
      decompressWith other encoding data = decompressWith decode encoding data) ∧
    (∀ (encode : Codec → List UInt8 → List UInt8) (maxSize : Nat) (body : List UInt8),
      (∀ codec, codec ≠ .identity → ∀ layer, layer.length ≤ maxSize →
        decode codec (encode codec layer) = .whole layer) →
      (∀ codec, codec ≠ .identity → ∀ layer, encode codec layer ≠ []) →
      Known encoding →
      AllFit encode (fun layer => layer.length ≤ maxSize) (codingsOf encoding) body →
      decompressWith decode encoding (wrapAll encode (codingsOf encoding) body) =
        .content body) ∧
    (∀ decoders maxSize, decompress decoders encoding data maxSize =
      decompressWith (fun codec layer => decodeOne decoders codec layer maxSize) encoding
        data) := by
  refine ⟨decompressWith_unflagged_iff, decompressWith_unknown_body, ?_, decompressWith_body,
    ?_, ?_, ?_⟩
  · intro outermost reason last stays
    exact decompressWith_stays_body last stays
  · intro other agree
    exact decompressWith_congr agree
  · intro encode maxSize body inverse nonempty known fit
    exact decompressWith_roundTrip inverse nonempty known fit
  · intro decoders maxSize
    exact decompress_eq decoders encoding data maxSize

end Blasthttp.Client
