/-
# Blasthttp.Client.ReadBody -- `read_body` and how a body is cut into frames

A body is a finite or endless sequence of frames, some of them empty, some trailers, and
what it says is the concatenation of its data frames (`content`).  While `read_body` reads
it holds exactly the data of the frames it has pulled, and these fit the cap
(`after_reading`); what it returns is therefore read off the content alone.
-/
import Blasthttp.Client.Body
import Blasthttp.Lib.Concat

namespace Blasthttp.Client

open Blasthttp.Rust Blasthttp.Lib.Runs Blasthttp.Lib.Concat

set_option autoImplicit false

/-- The frames of a body, for as long as there are any. -/
abbrev Frames := Stream'.Seq (Except Str BodyFrame)

def BodyFrame.bytes : BodyFrame → List UInt8
  | .data chunk => chunk
  | .trailers => []

/-- The data of the `i`-th frame. -/
def dataAt (body : Frames) (i : Nat) : List UInt8 :=
  match body.get? i with
  | some (.ok frame) => frame.bytes
  | _ => []

/-- The data frames as one sequence of bytes. -/
noncomputable def content (body : Frames) : Stream'.Seq UInt8 := concat (dataAt body)

/-- Where the loop stands once it has polled the body `n` times. -/
def readBodyAfter (maxSize : Nat) (body : Frames) (n : Nat) : Option ReadBody :=
  run (ReadBody.step maxSize) (.reading []) ((List.range n).map body.get?)

/-- No frame fails before the cap is overrun. -/
def FailsLate (maxSize : Nat) (body : Frames) : Prop :=
  ∀ i e, body.get? i = some (.error e) → maxSize < (before (dataAt body) i).length

variable {maxSize : Nat} {body : Frames}

/-! ## One poll -/

theorem dataAt_ok {i : Nat} {frame : BodyFrame} (there : body.get? i = some (.ok frame)) :
    dataAt body i = frame.bytes := by
  simp only [dataAt, there]

theorem dataAt_ended {i : Nat} (ended : body.get? i = none) : dataAt body i = [] := by
  simp only [dataAt, ended]

/-- Empty frames and trailers are frames that always fit. -/
theorem step_frame (held : List UInt8) (frame : BodyFrame) :
    (ReadBody.reading held).step maxSize (some (.ok frame)) =
      if maxSize - held.length < frame.bytes.length then
        some (.done (.ok (held ++ frame.bytes.take (maxSize - held.length), true)))
      else some (.reading (held ++ frame.bytes)) := by
  cases frame with
  | trailers => simp [ReadBody.step, BodyFrame.bytes]
  | data chunk =>
      cases chunk with
      | nil => simp [ReadBody.step, BodyFrame.bytes]
      | cons byte rest => simp [ReadBody.step, BodyFrame.bytes]

theorem step_reading {s : ReadBody} {polled : Option (Except Str BodyFrame)} {out : List UInt8} :
    s.step maxSize polled = some (.reading out) ↔
      ∃ held frame, s = .reading held ∧ polled = some (.ok frame) ∧
        frame.bytes.length ≤ maxSize - held.length ∧ held ++ frame.bytes = out := by
  match s, polled with
  | .done _, _ => simp [ReadBody.step]
  | .reading held, none => simp [ReadBody.step]
  | .reading held, some (.error e) => simp [ReadBody.step]
  | .reading held, some (.ok frame) =>
      rw [step_frame]
      split
      · simp
        omega
      · simp
        omega

/-- A return with `Ok`: the body ended, or a frame overran the cap. -/
theorem step_ok {s : ReadBody} {polled : Option (Except Str BodyFrame)} {out : List UInt8}
    {cut : Bool} :
    s.step maxSize polled = some (.done (.ok (out, cut))) ↔
      ∃ held, s = .reading held ∧
        ((polled = none ∧ held = out ∧ cut = false) ∨
          ∃ frame, polled = some (.ok frame) ∧ maxSize - held.length < frame.bytes.length ∧
            held ++ frame.bytes.take (maxSize - held.length) = out ∧ cut = true) := by
  match s, polled with
  | .done _, _ => simp [ReadBody.step]
  | .reading held, none => simp [ReadBody.step]
  | .reading held, some (.error e) => simp [ReadBody.step]
  | .reading held, some (.ok frame) =>
      rw [step_frame]
      split
      · rename_i overrun
        simp [overrun]
      · rename_i fits
        simp [fits]

/-! ## The loop -/

theorem after_succ {n : Nat} {s : ReadBody} :
    readBodyAfter maxSize body (n + 1) = some s ↔
      ∃ t, readBodyAfter maxSize body n = some t ∧ t.step maxSize (body.get? n) = some s := by
  rw [readBodyAfter, List.range_succ, List.map_append, List.map_singleton]
  exact run_concat

/-- **The loop invariant.** The loop is still running after `n` polls exactly when all of
them yielded frames whose data fit the cap, and it holds these data. -/
theorem after_reading {n : Nat} {out : List UInt8} :
    readBodyAfter maxSize body n = some (.reading out) ↔
      (∀ i < n, ∃ frame, body.get? i = some (.ok frame)) ∧
        before (dataAt body) n = out ∧ out.length ≤ maxSize := by
  induction n generalizing out with
  | zero =>
      constructor
      · intro started
        cases started
        exact ⟨fun i early => absurd early (Nat.not_lt_zero i), rfl, Nat.zero_le _⟩
      · rintro ⟨-, rfl, -⟩
        rfl
  | succ n ih =>
      rw [after_succ, before_succ]
      constructor
      · rintro ⟨t, earlier, stepped⟩
        obtain ⟨held, frame, rfl, polled, fits, rfl⟩ := step_reading.mp stepped
        obtain ⟨frames, rfl, room⟩ := ih.mp earlier
        refine ⟨fun i early => ?_, by rw [dataAt_ok polled], ?_⟩
        · rcases Nat.lt_succ_iff_lt_or_eq.mp early with before | rfl
          · exact frames i before
          · exact ⟨frame, polled⟩
        · rw [List.length_append]
          omega
      · rintro ⟨frames, rfl, room⟩
        obtain ⟨frame, polled⟩ := frames n (Nat.lt_succ_self n)
        rw [dataAt_ok polled, List.length_append] at room
        refine ⟨_, ih.mpr ⟨fun i early => frames i (Nat.lt_succ_of_lt early), rfl, by omega⟩, ?_⟩
        exact step_reading.mpr ⟨_, frame, rfl, polled, by omega, by rw [dataAt_ok polled]⟩

/-- The loop returns in a poll made while it runs. -/
theorem after_done {n : Nat} {result : Except ClientError (List UInt8 × Bool)}
    (returned : readBodyAfter maxSize body n = some (.done result)) :
    ∃ k held, n = k + 1 ∧ readBodyAfter maxSize body k = some (.reading held) ∧
      (ReadBody.reading held).step maxSize (body.get? k) = some (.done result) := by
  cases n with
  | zero => cases returned
  | succ k =>
      obtain ⟨t, earlier, stepped⟩ := after_succ.mp returned
      cases t with
      | reading held => exact ⟨k, held, rfl, earlier, stepped⟩
      | done first => cases stepped

/-- What is polled at all is polled while the data fit the cap. -/
theorem after_fits {n : Nat} {s : ReadBody} (there : readBodyAfter maxSize body (n + 1) = some s) :
    (before (dataAt body) n).length ≤ maxSize := by
  obtain ⟨t, earlier, stepped⟩ := after_succ.mp there
  cases t with
  | reading held =>
      obtain ⟨-, rfl, fits⟩ := after_reading.mp earlier
      exact fits
  | done first => cases stepped

/-- Nothing comes behind the end of a body. -/
theorem before_ended {n : Nat} (ended : body.get? n = none) (m : Nat) :
    (before (dataAt body) m).length ≤ (before (dataAt body) n).length := by
  induction m with
  | zero => exact Nat.zero_le _
  | succ m ih =>
      rcases Nat.lt_or_ge m n with early | late
      · exact (before_isPrefix (dataAt body) early).length_le
      · rw [before_succ, dataAt_ended (body.le_stable late ended), List.append_nil]
        exact ih

theorem after_ok {n : Nat} {out : List UInt8} {cut : Bool}
    (returned : readBodyAfter maxSize body n = some (.done (.ok (out, cut)))) :
    out = (content body).take maxSize ∧ cut = ((content body).get? maxSize).isSome := by
  obtain ⟨k, held, rfl, running, stepped⟩ := after_done returned
  obtain ⟨-, rfl, fits⟩ := after_reading.mp running
  obtain ⟨held, same, outcome⟩ := step_ok.mp stepped
  cases same
  rcases outcome with ⟨ended, rfl, rfl⟩ | ⟨frame, polled, overrun, rfl, rfl⟩
  · have last := before_ended ended
    have nothing : (content body).get? maxSize = none :=
      (get?_concat_eq_none _).mpr fun m => (last m).trans fits
    exact ⟨(take_concat_of_last _ last fits).symm, by rw [nothing]; rfl⟩
  · have more : maxSize < (before (dataAt body) (k + 1)).length := by
      rw [before_succ, dataAt_ok polled, List.length_append]
      omega
    refine ⟨?_, ((get?_concat_isSome _).mpr ⟨k + 1, more⟩).symm⟩
    rw [content, take_concat _ more.le, before_succ, dataAt_ok polled, List.take_append,
      List.take_of_length_le fits]

/-- A body that does not fail within the cap is answered with `Ok`. -/
theorem after_done_ok (late : FailsLate maxSize body) {n : Nat}
    {result : Except ClientError (List UInt8 × Bool)}
    (returned : readBodyAfter maxSize body n = some (.done result)) :
    result = .ok ((content body).take maxSize, ((content body).get? maxSize).isSome) := by
  cases result with
  | ok pair =>
      obtain ⟨taken, cut⟩ := after_ok returned
      rw [← taken, ← cut]
  | error e =>
      obtain ⟨k, held, rfl, running, stepped⟩ := after_done returned
      obtain ⟨-, rfl, fits⟩ := after_reading.mp running
      match polled : body.get? k, stepped with
      | some (.error text), _ =>
          have := late k text polled
          omega
      | none, stepped => cases stepped
      | some (.ok frame), stepped =>
          rw [step_frame] at stepped
          split at stepped
          · cases stepped
          · cases stepped

theorem after_running_or_done (maxSize : Nat) (body : Frames) (n : Nat) :
    (∃ out, readBodyAfter maxSize body n = some (.reading out)) ∨
      ∃ m result, readBodyAfter maxSize body m = some (.done result) := by
  induction n with
  | zero => exact .inl ⟨[], rfl⟩
  | succ n ih =>
      rcases ih with ⟨held, running⟩ | returned
      · match stepped : (ReadBody.reading held).step maxSize (body.get? n) with
        | some (.reading out) => exact .inl ⟨out, after_succ.mpr ⟨_, running, stepped⟩⟩
        | some (.done result) =>
            exact .inr ⟨n + 1, result, after_succ.mpr ⟨_, running, stepped⟩⟩
        | none =>
            match polled : body.get? n, stepped with
            | some (.ok frame), stepped =>
                rw [step_frame] at stepped
                split at stepped
                · cases stepped
                · cases stepped
      · exact .inr returned

/-- A body that never ends is only left once its data overrun the cap. -/
theorem after_returns (late : FailsLate maxSize body) :
    (∃ n result, readBodyAfter maxSize body n = some (.done result)) ↔
      body.Terminates ∨ ((content body).get? maxSize).isSome := by
  constructor
  · rintro ⟨n, result, returned⟩
    obtain ⟨k, held, rfl, running, stepped⟩ := after_done returned
    rw [after_done_ok late returned] at stepped
    obtain ⟨held, same, outcome⟩ := step_ok.mp stepped
    rcases outcome with ⟨ended, -, -⟩ | ⟨frame, polled, overrun, -, cut⟩
    · exact .inl ⟨k, ended⟩
    · exact .inr cut
  · rintro (⟨n, ended⟩ | more)
    · rcases after_running_or_done maxSize body (n + 1) with ⟨out, running⟩ | returned
      · obtain ⟨frame, polled⟩ := (after_reading.mp running).1 n (Nat.lt_succ_self n)
        rw [Stream'.Seq.TerminatedAt, polled] at ended
        cases ended
      · exact returned
    · obtain ⟨n, overrun⟩ := (get?_concat_isSome _).mp more
      rcases after_running_or_done maxSize body n with ⟨out, running⟩ | returned
      · obtain ⟨-, rfl, fits⟩ := after_reading.mp running
        omega
      · exact returned

/-- **Only the content counts.** Where `read_body` returns `Ok` it returns the first
`max_size` bytes of the content, and whether there are more; until then what it holds fits
`max_size`; it polls nothing behind the frame that overruns the cap.  On bodies that do
not fail within the cap it returns exactly if they end or overrun it, and what it returns
is the same for two that have the same content. -/
theorem readBody_unchunked (maxSize : Nat) (body : Frames) :
    (∀ n out cut, readBodyAfter maxSize body n = some (.done (.ok (out, cut))) →
      out = (content body).take maxSize ∧ cut = ((content body).get? maxSize).isSome) ∧
    (∀ n out, readBodyAfter maxSize body n = some (.reading out) → out.length ≤ maxSize) ∧
    (∀ i n s, maxSize < (before (dataAt body) (i + 1)).length →
      readBodyAfter maxSize body n = some s → n ≤ i + 1) ∧
    (FailsLate maxSize body →
      ((∃ n result, readBodyAfter maxSize body n = some (.done result)) ↔
        body.Terminates ∨ ((content body).get? maxSize).isSome)) ∧
    (∀ other, content other = content body → FailsLate maxSize body → FailsLate maxSize other →
      ∀ n result m answer, readBodyAfter maxSize body n = some (.done result) →
        readBodyAfter maxSize other m = some (.done answer) → answer = result) := by
  refine ⟨fun n out cut => after_ok, fun n out running => (after_reading.mp running).2.2, ?_,
    after_returns, ?_⟩
  · intro i n s overrun there
    by_contra beyond
    obtain ⟨k, rfl⟩ : ∃ k, n = k + 1 := ⟨n - 1, by omega⟩
    have fits := after_fits there
    have earlier := (before_isPrefix (dataAt body) (show i + 1 ≤ k by omega)).length_le
    omega
  · intro other same late late' n result m answer returned returned'
    rw [after_done_ok late returned, after_done_ok late' returned', same]

/-! Empty frames for ever say no more than a body without frames, and `read_body` stays
with them. -/

def endlessEmpty : Frames := ⟨fun _ => some (.ok (.data [])), fun absent => absent⟩

theorem content_endlessEmpty : content endlessEmpty = content .nil := by
  have same : dataAt endlessEmpty = dataAt .nil := rfl
  rw [content, content, same]

theorem readBody_endless :
    ¬ ∀ (maxSize : Nat) (body other : Frames), content other = content body →
      FailsLate maxSize body → FailsLate maxSize other →
        ∀ result, (∃ n, readBodyAfter maxSize body n = some (.done result)) →
          ∃ m, readBodyAfter maxSize other m = some (.done result) := by
  intro same
  have late : FailsLate 0 endlessEmpty := by rintro i e ⟨⟩
  have emptyLate : FailsLate 0 .nil := by rintro i e ⟨⟩
  obtain ⟨m, returned⟩ := same 0 .nil endlessEmpty content_endlessEmpty emptyLate late
    (.ok ([], false)) ⟨1, rfl⟩
  rcases (after_returns late).mp ⟨m, _, returned⟩ with ⟨n, ended⟩ | more
  · cases ended
  · rw [content_endlessEmpty] at more
    obtain ⟨n, overrun⟩ := (get?_concat_isSome _).mp more
    have nothing := @before_ended .nil 0 rfl n
    exact absurd (overrun.trans_le nothing) (Nat.lt_irrefl 0)

end Blasthttp.Client
