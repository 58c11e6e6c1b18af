/-
# Blasthttp.Lib.Layers -- layers around a value, taken off one by one

`strip i x` takes layer `i` off, or finds that it stays on.  `unwrap` goes on until one
stays on, `unwrapAll` insists on all of them, and both look at nothing behind the first one
that stays on (`Tried`).  What was wrapped in order comes out again when the layers are
taken off in the reverse order (`unwrapAll_wrap`).
-/
import Mathlib.Data.List.Basic
import Mathlib.Tactic.Common

namespace Blasthttp.Lib.Layers

set_option autoImplicit false

variable {ι α : Type} (strip : ι → α → Option α)

/-- The value under the layers that come off in front of the first that does not. -/
def unwrap : List ι → α → α
  | [], x => x
  | i :: rest, x =>
      match strip i x with
      | none => x
      | some y => unwrap rest y

/-- The value under all of the layers, if they all come off. -/
def unwrapAll : List ι → α → Option α
  | [], x => some x
  | i :: rest, x => (strip i x).bind (unwrapAll rest)

/-- Layer `j` is tried on `y`. -/
inductive Tried : List ι → α → ι → α → Prop
  | here {i : ι} {rest : List ι} {x : α} : Tried (i :: rest) x i x
  | deeper {i j : ι} {rest : List ι} {x y z : α} : strip i x = some y → Tried rest y j z →
      Tried (i :: rest) x j z

variable {strip}

theorem unwrap_of_some {i : ι} {rest : List ι} {x y : α} (off : strip i x = some y) :
    unwrap strip (i :: rest) x = unwrap strip rest y := by
  simp only [unwrap, off]

theorem unwrap_of_none {i : ι} {rest : List ι} {x : α} (on : strip i x = none) :
    unwrap strip (i :: rest) x = x := by
  simp only [unwrap, on]

theorem unwrapAll_append {front back : List ι} {x : α} :
    unwrapAll strip (front ++ back) x = (unwrapAll strip front x).bind (unwrapAll strip back) := by
  induction front generalizing x with
  | nil => rfl
  | cons i front ih =>
      rw [List.cons_append, unwrapAll, unwrapAll, Option.bind_assoc]
      exact congrArg _ (funext fun y => ih)

variable {wrap : ι → α → α} {Fits : α → Prop}

/-- The layers put around a value in order. -/
def wrapAll (wrap : ι → α → α) : List ι → α → α
  | [], x => x
  | i :: rest, x => wrapAll wrap rest (wrap i x)

/-- Every value that a layer is put around. -/
def AllFit (wrap : ι → α → α) (Fits : α → Prop) : List ι → α → Prop
  | [], _ => True
  | i :: rest, x => Fits x ∧ AllFit wrap Fits rest (wrap i x)

theorem unwrapAll_wrap {layers : List ι} {x : α}
    (inverse : ∀ i ∈ layers, ∀ y, Fits y → strip i (wrap i y) = some y)
    (fit : AllFit wrap Fits layers x) :
    unwrapAll strip layers.reverse (wrapAll wrap layers x) = some x := by
  induction layers generalizing x with
  | nil => rfl
  | cons i rest ih =>
      obtain ⟨here, inner⟩ := fit
      have below := ih (fun j there => inverse j (List.mem_cons_of_mem _ there)) inner
      rw [List.reverse_cons, unwrapAll_append, wrapAll, below, Option.bind_some, unwrapAll,
        inverse i List.mem_cons_self x here]
      rfl

/-- The outermost layer decides what a wrapped value looks like. -/
theorem wrapAll_of_ne_nil {P : α → Prop} {layers : List ι} (some_layer : layers ≠ [])
    (looks : ∀ i ∈ layers, ∀ y, P (wrap i y)) (x : α) : P (wrapAll wrap layers x) := by
  induction layers generalizing x with
  | nil => exact absurd rfl some_layer
  | cons i rest ih =>
      cases rest with
      | nil => exact looks i List.mem_cons_self x
      | cons j rest =>
          exact ih (by simp) (fun k there => looks k (List.mem_cons_of_mem _ there)) _

end Blasthttp.Lib.Layers
