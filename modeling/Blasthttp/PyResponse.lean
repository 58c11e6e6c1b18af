/-
# Blasthttp.PyResponse -- response objects in Python

A `Response` object hands out other objects, its headers and its request, which it makes
when first asked and keeps.  A getter looks at the cell, makes an object if that is empty, and
then stores it: two threads can both find the cell empty, and each goes away with the
object it has made.  `Objects` is everything that is alive, with the getters under way.

Editing a headers object touches no other object and nothing that is worked out from the
response (`shown_anew`, `headers_own`), and a getter that begins when another has come back
returns what is kept (`getters_agree`).
-/
import Blasthttp.Batch.Iterator
import Blasthttp.Headers
import Blasthttp.Lib.Places
import Blasthttp.Lib.Runs
import Blasthttp.Response

namespace Blasthttp

open Rust Client Lib.Places
open Lib.Runs (run_invariant run_induction run_append)

set_option autoImplicit false

/-! ## Objects -/

structure PyRequest where
  url : Str
  method : Str
  deriving DecidableEq

/-- The getters whose objects are kept. -/
inductive Getter where
  | headers
  | request
  deriving DecidableEq

inductive PyObject where
  | headers (h : PyHeaders)
  | request (r : PyRequest)

def PyObject.getter : PyObject → Getter
  | .headers _ => .headers
  | .request _ => .request

/-- A request has no setters. -/
def PyObject.edit (e : PyHeaders.Edit) : PyObject → PyObject
  | .headers h => .headers (h.edit e)
  | .request r => .request r

def PyObject.edits (o : PyObject) (list : List PyHeaders.Edit) : PyObject :=
  list.foldl (fun o e => o.edit e) o

/-- Kept objects are named by their place. -/
structure PyResponse where
  inner : CachedResponse
  headersCache : Option Nat
  requestCache : Option Nat

namespace PyResponse

def wrap (inner : CachedResponse) : PyResponse := ⟨inner, none, none⟩

def cell (r : PyResponse) : Getter → Option Nat
  | .headers => r.headersCache
  | .request => r.requestCache

/-- `OnceLock::set`, the error dropped. -/
def setCell (r : PyResponse) (getter : Getter) (object : Nat) : PyResponse :=
  match r.cell getter with
  | some _ => r
  | none =>
      match getter with
      | .headers => { r with headersCache := some object }
      | .request => { r with requestCache := some object }

end PyResponse

/-- What a getter makes. -/
def Client.Response.make (inner : Response) : Getter → PyObject
  | .headers => .headers (PyHeaders.fromList inner.headers)
  | .request => .request ⟨inner.requestUrl, inner.requestMethod⟩

inductive GetStage where
  | looking
  /-- The cell was empty, and there is an object to store. -/
  | made (object : Nat)
  | got (object : Nat)
  deriving DecidableEq

def GetStage.object? : GetStage → Option Nat
  | .looking => none
  | .made p => some p
  | .got p => some p

structure GetCall where
  response : Nat
  getter : Getter
  stage : GetStage
  deriving DecidableEq

structure Objects where
  responses : List PyResponse
  results : List (Batch.PyBatchResult CachedResponse)
  /-- Each with the response it was made for. -/
  objects : List (Nat × PyObject)
  calls : List GetCall
  /-- What accesses have shown. -/
  shown : List (Nat × Accessor × Shown)

def Objects.empty : Objects := ⟨[], [], [], [], []⟩

inductive ObjectAction where
  /-- A client or a mock returns a response, or the constructor makes one. -/
  | wrap (inner : Response)
  /-- A batch brings a result. -/
  | deliver (result : Batch.PyBatchResult Response)
  /-- `BatchResult(url, response, error)`. -/
  | pack (url : Str) (response : Option Nat) (error : Option Str)
  /-- `result.response`. -/
  | unpack (result : Nat)
  | access (response : Nat) (what : Accessor)
  | get (response : Nat) (getter : Getter)
  | look (call : Nat)
  | store (call : Nat)
  | edit (object : Nat) (e : PyHeaders.Edit)

/-- The edits an action makes of an object. -/
def ObjectAction.edits (p : Nat) : ObjectAction → List PyHeaders.Edit
  | .edit q e => if q = p then [e] else []
  | _ => []

def editsOf (p : Nat) (actions : List ObjectAction) : List PyHeaders.Edit :=
  actions.flatMap (ObjectAction.edits p)

namespace Objects

def addResponse (s : Objects) (r : PyResponse) : Objects := { s with responses := s.responses ++ [r] }

def addResult (s : Objects) (result : Batch.PyBatchResult CachedResponse) : Objects :=
  { s with results := s.results ++ [result] }

def putCall (s : Objects) (i : Nat) (call : GetCall) : Objects :=
  { s with calls := s.calls.set i call }

def putResponse (s : Objects) (i : Nat) (r : PyResponse) : Objects :=
  { s with responses := s.responses.set i r }

/-- `PyBatchResult::new` and the `response` getter clone the response. -/
def step (digests : Digests) (s : Objects) : ObjectAction → Option Objects
  | .wrap inner => some (s.addResponse (.wrap (.fresh inner)))
  | .deliver result => some (s.addResult ⟨result.url, result.response.map .fresh, result.error⟩)
  | .pack url none error => some (s.addResult ⟨url, none, error⟩)
  | .pack url (some i) error =>
      match s.responses[i]? with
      | some r => some (s.addResult ⟨url, some r.inner.clone, error⟩)
      | none => none
  | .unpack k =>
      match s.results[k]? with
      | some ⟨_, some inner, _⟩ => some (s.addResponse (.wrap inner.clone))
      | some ⟨_, none, _⟩ => some s
      | none => none
  | .access i what =>
      match s.responses[i]? with
      | some r =>
          let (shown, inner) := r.inner.access digests what
          some { s.putResponse i { r with inner := inner } with
            shown := s.shown ++ [(i, what, shown)] }
      | none => none
  | .get i getter =>
      match s.responses[i]? with
      | some _ => some { s with calls := s.calls ++ [⟨i, getter, .looking⟩] }
      | none => none
  | .look c =>
      match s.calls[c]? with
      | some ⟨i, getter, .looking⟩ =>
          match s.responses[i]? with
          | some r =>
              match r.cell getter with
              | some kept => some (s.putCall c ⟨i, getter, .got kept⟩)
              | none =>
                  some ({ s with objects := s.objects ++ [(i, r.inner.inner.make getter)] }.putCall c
                    ⟨i, getter, .made s.objects.length⟩)
          | none => none
      | _ => none
  | .store c =>
      match s.calls[c]? with
      | some ⟨i, getter, .made p⟩ =>
          match s.responses[i]? with
          | some r =>
              some ((s.putResponse i (r.setCell getter p)).putCall c ⟨i, getter, .got p⟩)
          | none => none
      | _ => none
  | .edit p e =>
      match s.objects[p]? with
      | some (i, .headers h) => some { s with objects := s.objects.set p (i, .headers (h.edit e)) }
      | _ => none

end Objects

/-! ## What a step does -/

/-- The ways a step goes. -/
inductive ObjectStep (digests : Digests) (s : Objects) : ObjectAction → Objects → Prop where
  /-- A response comes in, as received or as a clone. -/
  | response {a : ObjectAction} (inner : Response) (quiet : ∀ p, a.edits p = []) :
      ObjectStep digests s a (s.addResponse (.wrap (.fresh inner)))
  | result {a : ObjectAction} (result : Batch.PyBatchResult CachedResponse)
      (quiet : ∀ p, a.edits p = []) :
      ObjectStep digests s a (s.addResult result)
  | nothing {a : ObjectAction} (quiet : ∀ p, a.edits p = []) : ObjectStep digests s a s
  | access {i : Nat} {what : Accessor} {r : PyResponse} (here : s.responses[i]? = some r) :
      ObjectStep digests s (.access i what)
        { s.putResponse i { r with inner := (r.inner.access digests what).2 } with
          shown := s.shown ++ [(i, what, (r.inner.access digests what).1)] }
  | get {i : Nat} {getter : Getter} {r : PyResponse} (here : s.responses[i]? = some r) :
      ObjectStep digests s (.get i getter) { s with calls := s.calls ++ [⟨i, getter, .looking⟩] }
  | found {c i kept : Nat} {getter : Getter} {r : PyResponse}
      (call : s.calls[c]? = some ⟨i, getter, .looking⟩) (here : s.responses[i]? = some r)
      (filled : r.cell getter = some kept) :
      ObjectStep digests s (.look c) (s.putCall c ⟨i, getter, .got kept⟩)
  | made {c i : Nat} {getter : Getter} {r : PyResponse}
      (call : s.calls[c]? = some ⟨i, getter, .looking⟩) (here : s.responses[i]? = some r)
      (empty : r.cell getter = none) :
      ObjectStep digests s (.look c)
        ({ s with objects := s.objects ++ [(i, r.inner.inner.make getter)] }.putCall c
          ⟨i, getter, .made s.objects.length⟩)
  | store {c i p : Nat} {getter : Getter} {r : PyResponse}
      (call : s.calls[c]? = some ⟨i, getter, .made p⟩) (here : s.responses[i]? = some r) :
      ObjectStep digests s (.store c)
        ((s.putResponse i (r.setCell getter p)).putCall c ⟨i, getter, .got p⟩)
  | edit {p i : Nat} {e : PyHeaders.Edit} {o : PyObject} (here : s.objects[p]? = some (i, o)) :
      ObjectStep digests s (.edit p e) { s with objects := s.objects.set p (i, o.edit e) }

theorem object_step {digests : Digests} {s t : Objects} {a : ObjectAction}
    (stepped : s.step digests a = some t) : ObjectStep digests s a t := by
  cases a with
  | wrap inner =>
      cases stepped
      exact .response inner fun _ => rfl
  | deliver result =>
      cases stepped
      exact .result _ fun _ => rfl
  | pack url response error =>
      cases response with
      | none =>
          cases stepped
          exact .result _ fun _ => rfl
      | some i =>
          simp only [Objects.step] at stepped
          split at stepped
          · cases stepped
            exact .result _ fun _ => rfl
          · cases stepped
  | unpack k =>
      simp only [Objects.step] at stepped
      split at stepped
      · cases stepped
        exact .response _ fun _ => rfl
      · cases stepped
        exact .nothing fun _ => rfl
      · cases stepped
  | access i what =>
      simp only [Objects.step] at stepped
      split at stepped
      · rename_i here
        cases stepped
        exact .access here
      · cases stepped
  | get i getter =>
      simp only [Objects.step] at stepped
      split at stepped
      · rename_i here
        cases stepped
        exact .get here
      · cases stepped
  | look c =>
      simp only [Objects.step] at stepped
      split at stepped
      · rename_i call
        split at stepped
        · rename_i here
          split at stepped
          · rename_i filled
            cases stepped
            exact .found call here filled
          · rename_i empty
            cases stepped
            exact .made call here empty
        · cases stepped
      · cases stepped
  | store c =>
      simp only [Objects.step] at stepped
      split at stepped
      · rename_i call
        split at stepped
        · rename_i here
          cases stepped
          exact .store call here
        · cases stepped
      · cases stepped
  | edit p e =>
      simp only [Objects.step] at stepped
      split at stepped
      · rename_i here
        cases stepped
        exact .edit here
      · cases stepped

/-! ## What stays -/

theorem cell_setCell (r : PyResponse) (getter : Getter) (p : Nat) (other : Getter) :
    (r.setCell getter p).cell other =
      if r.cell getter = none ∧ other = getter then some p else r.cell other := by
  obtain ⟨inner, headers, request⟩ := r
  cases getter <;> cases other <;> cases headers <;> cases request <;> rfl

theorem setCell_inner (r : PyResponse) (getter : Getter) (p : Nat) :
    (r.setCell getter p).inner = r.inner := by
  obtain ⟨inner, headers, request⟩ := r
  cases getter <;> cases headers <;> cases request <;> rfl

/-- What was received stays as it was and what is kept stays kept. -/
structure PyResponse.Keeps (r r' : PyResponse) : Prop where
  inner : r'.inner.inner = r.inner.inner
  cell : ∀ {getter : Getter} {p : Nat}, r.cell getter = some p → r'.cell getter = some p

theorem PyResponse.Keeps.refl (r : PyResponse) : r.Keeps r := ⟨rfl, id⟩

theorem PyResponse.Keeps.trans {r r' r'' : PyResponse} (first : r.Keeps r') (then_ : r'.Keeps r'') :
    r.Keeps r'' :=
  ⟨then_.inner.trans first.inner, fun kept => then_.cell (first.cell kept)⟩

theorem keeps_setCell (r : PyResponse) (getter : Getter) (p : Nat) : r.Keeps (r.setCell getter p) where
  inner := by rw [setCell_inner]
  cell := by
    intro other q kept
    rw [cell_setCell]
    split
    · rename_i empty
      obtain ⟨nothing, rfl⟩ := empty
      rw [nothing] at kept
      cases kept
    · exact kept

/-- Every response of `s` is one of `t`, and is kept. -/
def Objects.Keep (s t : Objects) : Prop :=
  ∀ (i : Nat) (r : PyResponse), s.responses[i]? = some r →
    ∃ r', t.responses[i]? = some r' ∧ r.Keeps r'

section Steps

variable {digests : Digests} {s t m : Objects} {a : ObjectAction} {actions : List ObjectAction}

theorem keep_set {i : Nat} {r r' : PyResponse} (here : s.responses[i]? = some r)
    (keeps : r.Keeps r') (same : t.responses = s.responses.set i r') : s.Keep t := by
  intro j x there
  rw [same]
  by_cases at_ : j = i
  · subst at_
    rw [here] at there
    cases there
    exact ⟨r', getElem?_set_here here r', keeps⟩
  · exact ⟨x, by rw [List.getElem?_set_ne (Ne.symm at_)]; exact there, .refl x⟩

theorem keep_same (same : t.responses = s.responses) : s.Keep t := by
  intro i r there
  exact ⟨r, by rw [same]; exact there, .refl r⟩

theorem keep_step (access : ∀ {i : Nat} {r : PyResponse} {what : Accessor},
      s.responses[i]? = some r → (r.inner.access digests what).2.inner = r.inner.inner)
    (stepped : ObjectStep digests s a t) : s.Keep t := by
  cases stepped with
  | response inner quiet =>
      intro i r there
      exact ⟨r, getElem?_concat_old there, .refl r⟩
  | result result quiet => exact keep_same rfl
  | nothing quiet => exact keep_same rfl
  | access here =>
      refine keep_set here ?_ rfl
      exact ⟨access here, id⟩
  | get here => exact keep_same rfl
  | found call here filled => exact keep_same rfl
  | made call here empty => exact keep_same rfl
  | store call here => exact keep_set here (keeps_setCell _ _ _) rfl
  | edit here => exact keep_same rfl

/-- The cells of the responses are right, and what has been shown is. -/
structure Objects.Right (digests : Digests) (s : Objects) : Prop where
  sound : ∀ {i : Nat} {r : PyResponse}, s.responses[i]? = some r → r.inner.Sound digests
  shown : ∀ {i : Nat} {what : Accessor} {v : Shown}, (i, what, v) ∈ s.shown →
    ∃ r, s.responses[i]? = some r ∧ v = r.inner.inner.shown digests what

theorem right_empty : Objects.empty.Right digests where
  sound := by
    intro i r there
    cases there
  shown := by
    intro i what v there
    cases there

theorem Objects.Right.keep_step (right : s.Right digests) (stepped : ObjectStep digests s a t) :
    s.Keep t :=
  Blasthttp.keep_step (fun here => (access_sound (right.sound here) _).2.1) stepped

/-- What has been shown stays right when nothing is shown. -/
theorem Objects.Right.shown_kept (right : s.Right digests) (keep : s.Keep t) {i : Nat}
    {what : Accessor} {v : Shown} (there : (i, what, v) ∈ s.shown) :
    ∃ r, t.responses[i]? = some r ∧ v = r.inner.inner.shown digests what := by
  obtain ⟨r, here, rfl⟩ := right.shown there
  obtain ⟨r', later, keeps⟩ := keep _ _ here
  exact ⟨r', later, by rw [keeps.inner]⟩

theorem right_step (right : s.Right digests) (stepped : ObjectStep digests s a t) :
    t.Right digests := by
  have keep := right.keep_step stepped
  cases stepped with
  | response inner quiet =>
      refine ⟨?_, fun there => right.shown_kept keep there⟩
      intro i r there
      rcases getElem?_concat_cases there with old | ⟨-, rfl⟩
      · exact right.sound old
      · exact sound_fresh inner
  | result result quiet => exact ⟨right.sound, right.shown⟩
  | nothing quiet => exact right
  | @access i what r here =>
      have accessed := access_sound (right.sound here) what
      refine ⟨?_, ?_⟩
      · intro j x there
        rcases getElem?_set_cases there with ⟨-, rfl⟩ | ⟨-, old⟩
        · exact accessed.2.2
        · exact right.sound old
      · intro j other v there
        rcases List.mem_append.mp there with old | new
        · exact right.shown_kept keep old
        · cases List.mem_singleton.mp new
          obtain ⟨r', later, keeps⟩ := keep _ _ here
          exact ⟨r', later, by rw [accessed.1, keeps.inner]⟩
  | get here => exact ⟨right.sound, right.shown⟩
  | found call here filled => exact ⟨right.sound, right.shown⟩
  | made call here empty => exact ⟨right.sound, right.shown⟩
  | @store c i p getter r call here =>
      refine ⟨?_, fun there => right.shown_kept keep there⟩
      intro j x there
      rcases getElem?_set_cases there with ⟨-, rfl⟩ | ⟨-, old⟩
      · rw [setCell_inner]
        exact right.sound here
      · exact right.sound old
  | edit here => exact ⟨right.sound, right.shown⟩

theorem right_run (ran : Lib.Runs.run (Objects.step digests) .empty actions = some s) :
    s.Right digests :=
  run_invariant (motive := Objects.Right digests) right_empty
    (fun right stepped => right_step right (object_step stepped)) ran

theorem keep_run {back : List ObjectAction} (right : m.Right digests)
    (on : Lib.Runs.run (Objects.step digests) m back = some s) : m.Keep s := by
  have both : s.Right digests ∧ m.Keep s := by
    refine run_invariant (motive := fun s => s.Right digests ∧ m.Keep s)
      ⟨right, fun _ r there => ⟨r, there, .refl r⟩⟩ ?_ on
    rintro t u a ⟨right, keep⟩ stepped
    have stepped := object_step stepped
    refine ⟨right_step right stepped, ?_⟩
    intro i r there
    obtain ⟨r', here, keeps⟩ := keep i r there
    obtain ⟨r'', later, again⟩ := right.keep_step stepped i r' here
    exact ⟨r'', later, keeps.trans again⟩
  exact both.2

/-- **What a response shows never changes.**  Whatever else is done to whatever object, and in
whatever order, an access shows what would be worked out anew from the response as it
came in. -/
theorem shown_anew {front back : List ObjectAction}
    (ran : Lib.Runs.run (Objects.step digests) .empty front = some m)
    (on : Lib.Runs.run (Objects.step digests) m back = some s) {i : Nat} {r : PyResponse}
    (here : m.responses[i]? = some r) {what : Accessor} {v : Shown}
    (there : (i, what, v) ∈ s.shown) : v = r.inner.inner.shown digests what := by
  have right := right_run (run_append.mpr ⟨m, ran, on⟩)
  obtain ⟨r', later, rfl⟩ := right.shown there
  obtain ⟨r'', again, keeps⟩ := keep_run (right_run ran) on i r here
  rw [later] at again
  cases again
  rw [keeps.inner]

/-! A response with one header is read by two threads at once: both find the cell of the
headers empty.  The second stores its object first, and the edit is made of the other one. -/

def exampleDigests : Digests := ⟨fun _ => none, fun _ => none, fun _ => none⟩

def serverResponse : Response where
  url := "http://a.example/".toList
  status := 200
  headers := [("Server".toList, "a".toList)]
  bodyBytes := []
  redirectChain := []
  certInfo := none
  peerIp := none
  requestUrl := "http://a.example/".toList
  requestMethod := "GET".toList
  decodeError := none

def raceActions : List ObjectAction :=
  [.wrap serverResponse, .get 0 .headers, .get 0 .headers, .look 0, .look 1, .store 1, .store 0]

def lateActions : List ObjectAction :=
  [.edit 0 (.set "Server".toList "b".toList), .get 0 .headers, .look 2, .access 0 .rawHeaders]

def raced (actions : List ObjectAction) : Objects :=
  (Lib.Runs.run (Objects.step exampleDigests) .empty actions).getD .empty

theorem shown_anew_raced :
    (raced (raceActions ++ lateActions)).shown = [(0, .rawHeaders, .text "Server: a".toList)] ∧
      ∀ v : Shown, (0, Accessor.rawHeaders, v) ∈ (raced (raceActions ++ lateActions)).shown →
        v = .text "Server: a".toList := by
  refine ⟨rfl, fun v there => ?_⟩
  exact @shown_anew exampleDigests (raced (raceActions ++ lateActions)) (raced raceActions)
    raceActions lateActions rfl rfl 0 _ rfl .rawHeaders v there

/-! ## What objects hold -/

theorem editsOf_concat (p : Nat) (actions : List ObjectAction) (a : ObjectAction) :
    editsOf p (actions ++ [a]) = editsOf p actions ++ a.edits p := by
  simp [editsOf]

theorem getter_edit (o : PyObject) (e : PyHeaders.Edit) : (o.edit e).getter = o.getter := by
  cases o <;> rfl

theorem edits_concat (o : PyObject) (list : List PyHeaders.Edit) (e : PyHeaders.Edit) :
    o.edits (list ++ [e]) = (o.edits list).edit e := by
  simp [PyObject.edits]

theorem make_getter (inner : Response) (getter : Getter) : (inner.make getter).getter = getter := by
  cases getter <;> rfl

theorem edits_headers (h : PyHeaders) (list : List PyHeaders.Edit) :
    (PyObject.headers h).edits list = .headers (h.edits list) := by
  induction list using List.reverseRecOn with
  | nil => rfl
  | append_singleton list e ih =>
      rw [edits_concat, ih]
      simp [PyHeaders.edits, PyObject.edit]

/-- An object is what its response makes, edited as it was itself. -/
structure Objects.Contents (actions : List ObjectAction) (s : Objects) : Prop where
  made : ∀ {p i : Nat} {o : PyObject}, s.objects[p]? = some (i, o) →
    ∃ r, s.responses[i]? = some r ∧ o = (r.inner.inner.make o.getter).edits (editsOf p actions)
  fresh : ∀ {p : Nat}, s.objects.length ≤ p → editsOf p actions = []

theorem Objects.Contents.quiet (contents : s.Contents actions) (keep : s.Keep t)
    (same : t.objects = s.objects) (quiet : ∀ p, a.edits p = []) :
    t.Contents (actions ++ [a]) where
  made := by
    intro p i o there
    rw [same] at there
    obtain ⟨r, here, is⟩ := contents.made there
    obtain ⟨r', later, keeps⟩ := keep i r here
    refine ⟨r', later, ?_⟩
    rw [editsOf_concat, quiet, List.append_nil, keeps.inner]
    exact is
  fresh := by
    intro p above
    rw [same] at above
    rw [editsOf_concat, quiet, List.append_nil]
    exact contents.fresh above

theorem contents_step (contents : s.Contents actions) (keep : s.Keep t)
    (stepped : ObjectStep digests s a t) : t.Contents (actions ++ [a]) := by
  cases stepped with
  | response inner quiet => exact contents.quiet keep rfl quiet
  | result result quiet => exact contents.quiet keep rfl quiet
  | nothing quiet => exact contents.quiet keep rfl quiet
  | access here => exact contents.quiet keep rfl fun _ => rfl
  | get here => exact contents.quiet keep rfl fun _ => rfl
  | found call here filled => exact contents.quiet keep rfl fun _ => rfl
  | @made c i getter r call here empty =>
      have silent : ∀ p, editsOf p (actions ++ [.look c]) = editsOf p actions := by
        intro p
        rw [editsOf_concat]
        exact List.append_nil _
      refine ⟨?_, ?_⟩
      · intro p j o there
        rw [silent]
        rcases getElem?_concat_cases there with old | ⟨rfl, new⟩
        · obtain ⟨x, here, is⟩ := contents.made old
          exact ⟨x, here, is⟩
        · cases new
          refine ⟨r, here, ?_⟩
          rw [contents.fresh (Nat.le_refl _), make_getter]
          rfl
      · intro p above
        rw [silent]
        refine contents.fresh (Nat.le_trans ?_ above)
        simp [Objects.putCall]
  | store call here => exact contents.quiet keep rfl fun _ => rfl
  | @edit p i e o here =>
      refine ⟨?_, ?_⟩
      · intro q j x there
        rw [editsOf_concat]
        rcases getElem?_set_cases there with ⟨rfl, same⟩ | ⟨other, old⟩
        · cases same
          obtain ⟨r, response, is⟩ := contents.made here
          refine ⟨r, response, ?_⟩
          rw [ObjectAction.edits, if_pos rfl, edits_concat, getter_edit, ← is]
        · obtain ⟨r, response, is⟩ := contents.made old
          refine ⟨r, response, ?_⟩
          rw [ObjectAction.edits, if_neg (Ne.symm other), List.append_nil]
          exact is
      · intro q above
        have above : s.objects.length ≤ q := by simpa using above
        have other : p ≠ q := by
          rintro rfl
          have inside := (List.getElem?_eq_some_iff.mp here).1
          omega
        rw [editsOf_concat, ObjectAction.edits, if_neg other, List.append_nil]
        exact contents.fresh above

/-! ## Who has them -/

/-- The object was made for the response, by this getter. -/
def Objects.MadeFor (s : Objects) (i : Nat) (getter : Getter) (p : Nat) : Prop :=
  ∃ o, s.objects[p]? = some (i, o) ∧ o.getter = getter

/-- A getter has an object of its own response, what is kept was stored by a getter, and once
a getter has come back something is kept. -/
structure Objects.Handled (s : Objects) : Prop where
  handles : ∀ {c i p : Nat} {getter : Getter} {stage : GetStage},
    s.calls[c]? = some ⟨i, getter, stage⟩ → stage.object? = some p → s.MadeFor i getter p
  stored : ∀ {i p : Nat} {r : PyResponse} {getter : Getter}, s.responses[i]? = some r →
    r.cell getter = some p → ∃ c : Nat, s.calls[c]? = some ⟨i, getter, .got p⟩
  filled : ∀ {c i p : Nat} {getter : Getter}, s.calls[c]? = some ⟨i, getter, .got p⟩ →
    ∃ r kept, s.responses[i]? = some r ∧ r.cell getter = some kept

theorem handled_empty : Objects.empty.Handled where
  handles := by
    intro c i p getter stage there
    cases there
  stored := by
    intro i p r getter there
    cases there
  filled := by
    intro c i p getter there
    cases there

/-- Objects are made for ever. -/
theorem madeFor_step (stepped : ObjectStep digests s a t) {i p : Nat} {getter : Getter}
    (made : s.MadeFor i getter p) : t.MadeFor i getter p := by
  obtain ⟨o, there, is⟩ := made
  cases stepped with
  | made call here empty => exact ⟨o, getElem?_concat_old there, is⟩
  | @edit q j e x here =>
      by_cases at_ : p = q
      · subst at_
        rw [here] at there
        cases there
        exact ⟨_, getElem?_set_here here _, (getter_edit o e).trans is⟩
      · exact ⟨o, by rw [List.getElem?_set_ne (Ne.symm at_)]; exact there, is⟩
  | _ => exact ⟨o, there, is⟩

/-- Something kept is kept later. -/
theorem filled_kept (keep : s.Keep t) {i : Nat} {getter : Getter}
    (filled : ∃ r kept, s.responses[i]? = some r ∧ r.cell getter = some kept) :
    ∃ r kept, t.responses[i]? = some r ∧ r.cell getter = some kept := by
  obtain ⟨r, kept, here, is⟩ := filled
  obtain ⟨r', later, keeps⟩ := keep i r here
  exact ⟨r', kept, later, keeps.cell is⟩

/-- Cells that are filled are those of before. -/
def Objects.NoneFilled (s t : Objects) : Prop :=
  ∀ (i : Nat) (r : PyResponse) (getter : Getter) (p : Nat), t.responses[i]? = some r →
    r.cell getter = some p → ∃ r', s.responses[i]? = some r' ∧ r'.cell getter = some p

/-- A step that leaves the getters where they are, or begins one. -/
theorem Objects.Handled.quiet (handled : s.Handled) (keep : s.Keep t)
    (made : ∀ {i p : Nat} {getter : Getter}, s.MadeFor i getter p → t.MadeFor i getter p)
    (calls : t.calls = s.calls ∨ ∃ i getter, t.calls = s.calls ++ [⟨i, getter, .looking⟩])
    (cells : s.NoneFilled t) : t.Handled where
  handles := by
    intro c i p getter stage there object
    rcases calls with same | ⟨j, other, more⟩
    · rw [same] at there
      exact made (handled.handles there object)
    · rw [more] at there
      rcases getElem?_concat_cases there with old | ⟨-, new⟩
      · exact made (handled.handles old object)
      · cases new
        cases object
  stored := by
    intro i p r getter here is
    obtain ⟨r', before, filled⟩ := cells i r getter p here is
    obtain ⟨c, there⟩ := handled.stored before filled
    rcases calls with same | ⟨j, other, more⟩
    · exact ⟨c, by rw [same]; exact there⟩
    · exact ⟨c, by rw [more]; exact getElem?_concat_old there⟩
  filled := by
    intro c i p getter there
    rcases calls with same | ⟨j, other, more⟩
    · rw [same] at there
      exact filled_kept keep (handled.filled there)
    · rw [more] at there
      rcases getElem?_concat_cases there with old | ⟨-, new⟩
      · exact filled_kept keep (handled.filled old)
      · cases new

/-- A step of one getter. -/
theorem Objects.Handled.move (handled : s.Handled) (keep : s.Keep t)
    (made : ∀ {i p : Nat} {getter : Getter}, s.MadeFor i getter p → t.MadeFor i getter p)
    {c i : Nat} {getter : Getter} {stage stage' : GetStage}
    (there : s.calls[c]? = some ⟨i, getter, stage⟩)
    (calls : t.calls = s.calls.set c ⟨i, getter, stage'⟩)
    (busy : ∀ p, stage ≠ .got p)
    (handle : ∀ p, stage'.object? = some p → t.MadeFor i getter p)
    (back : ∀ p, stage' = .got p → ∃ r kept, t.responses[i]? = some r ∧ r.cell getter = some kept)
    (cells : ∀ (j : Nat) (r : PyResponse) (other : Getter) (p : Nat), t.responses[j]? = some r →
      r.cell other = some p → (∃ r', s.responses[j]? = some r' ∧ r'.cell other = some p) ∨
        j = i ∧ other = getter ∧ stage' = .got p) : t.Handled where
  handles := by
    intro d j p other at_ here object
    rw [calls] at here
    rcases getElem?_set_cases here with ⟨-, same⟩ | ⟨-, old⟩
    · cases same
      exact handle p object
    · exact made (handled.handles old object)
  stored := by
    intro j p r other here is
    rcases cells j r other p here is with ⟨r', before, filled⟩ | ⟨rfl, rfl, rfl⟩
    · obtain ⟨d, got⟩ := handled.stored before filled
      refine ⟨d, ?_⟩
      have apart : c ≠ d := by
        rintro rfl
        rw [there] at got
        cases got
        exact busy p rfl
      rw [calls, List.getElem?_set_ne apart]
      exact got
    · exact ⟨c, by rw [calls]; exact getElem?_set_here there _⟩
  filled := by
    intro d j p other here
    rw [calls] at here
    rcases getElem?_set_cases here with ⟨-, same⟩ | ⟨-, old⟩
    · cases same
      exact back p rfl
    · exact filled_kept keep (handled.filled old)

theorem handled_step (handled : s.Handled) (keep : s.Keep t) (stepped : ObjectStep digests s a t) :
    t.Handled := by
  have made : ∀ {i p : Nat} {getter : Getter}, s.MadeFor i getter p → t.MadeFor i getter p :=
    fun is => madeFor_step stepped is
  cases stepped with
  | response inner quiet =>
      refine handled.quiet keep made (.inl rfl) ?_
      intro i r getter p here filled
      rcases getElem?_concat_cases here with old | ⟨-, rfl⟩
      · exact ⟨r, old, filled⟩
      · cases getter <;> cases filled
  | result result quiet =>
      exact handled.quiet keep made (.inl rfl) fun i r getter p here filled => ⟨r, here, filled⟩
  | nothing quiet => exact handled
  | @access i what r here =>
      refine handled.quiet keep made (.inl rfl) ?_
      intro j x getter p there filled
      rcases getElem?_set_cases there with ⟨rfl, rfl⟩ | ⟨-, old⟩
      · exact ⟨r, here, filled⟩
      · exact ⟨x, old, filled⟩
  | get here =>
      exact handled.quiet keep made (.inr ⟨_, _, rfl⟩) fun i r getter p here filled =>
        ⟨r, here, filled⟩
  | @found c i kept getter r call here is =>
      refine handled.move keep made call rfl nofun ?_ ?_ fun j x other p there filled =>
        .inl ⟨x, there, filled⟩
      · rintro p ⟨⟩
        obtain ⟨d, got⟩ := handled.stored here is
        exact made (handled.handles got rfl)
      · exact fun p _ => ⟨r, kept, here, is⟩
  | @made c i getter r call here empty =>
      refine handled.move keep made call rfl nofun ?_ nofun fun j x other p there filled =>
        .inl ⟨x, there, filled⟩
      rintro p ⟨⟩
      exact ⟨_, List.getElem?_concat_length, make_getter _ _⟩
  | @store c i p getter r call here =>
      refine handled.move keep made call rfl nofun ?_ ?_ ?_
      · rintro q ⟨⟩
        exact made (handled.handles call rfl)
      · intro q _
        obtain ⟨x, later, keeps⟩ := keep i r here
        have is : x = r.setCell getter p :=
          Option.some.inj (later.symm.trans (getElem?_set_here here _))
        have cell := cell_setCell r getter p getter
        rw [← is] at cell
        cases empty : r.cell getter with
        | none =>
            rw [empty, if_pos ⟨rfl, rfl⟩] at cell
            exact ⟨x, p, later, cell⟩
        | some kept => exact ⟨x, kept, later, keeps.cell empty⟩
      · intro j x other q there filled
        rcases getElem?_set_cases there with ⟨rfl, rfl⟩ | ⟨-, old⟩
        · rw [cell_setCell] at filled
          split at filled
          · rename_i is
            cases filled
            exact .inr ⟨rfl, is.2, rfl⟩
          · exact .inl ⟨r, here, filled⟩
        · exact .inl ⟨x, old, filled⟩
  | edit here =>
      exact handled.quiet keep made (.inl rfl) fun i r getter p here filled => ⟨r, here, filled⟩

structure Objects.Kept (digests : Digests) (actions : List ObjectAction) (s : Objects) : Prop where
  right : s.Right digests
  contents : s.Contents actions
  handled : s.Handled

theorem kept_objects (ran : Lib.Runs.run (Objects.step digests) .empty actions = some s) :
    s.Kept digests actions := by
  refine run_induction (motive := fun actions s => Objects.Kept digests actions s)
    ⟨right_empty, ⟨nofun, fun _ => rfl⟩, handled_empty⟩ ?_ ran
  intro actions t u a _ kept stepped
  have stepped := object_step stepped
  have keep := kept.right.keep_step stepped
  exact ⟨right_step kept.right stepped, contents_step kept.contents keep stepped,
    handled_step kept.handled keep stepped⟩

/-- **Headers are a response's own.**  The headers a getter has come back with are those of its
response, with the edits made of this very object and no others; no getter of another
response has them. -/
theorem headers_own (ran : Lib.Runs.run (Objects.step digests) .empty actions = some s)
    {c i p : Nat} (got : s.calls[c]? = some ⟨i, .headers, .got p⟩) :
    ∃ r, s.responses[i]? = some r ∧
      s.objects[p]? = some (i, .headers
        ((PyHeaders.fromList r.inner.inner.headers).edits (editsOf p actions))) ∧
      ∀ (d j : Nat) (getter : Getter), s.calls[d]? = some ⟨j, getter, .got p⟩ →
        j = i ∧ getter = .headers := by
  have kept := kept_objects ran
  obtain ⟨o, there, is⟩ := kept.handled.handles got rfl
  obtain ⟨r, here, made⟩ := kept.contents.made there
  refine ⟨r, here, ?_, ?_⟩
  · rw [there, made, is, Response.make, edits_headers]
  · intro d j getter other
    obtain ⟨x, same, its⟩ := kept.handled.handles other rfl
    rw [there] at same
    cases same
    exact ⟨rfl, its.symm.trans is⟩

theorem headers_own_raced :
    ∃ r, (raced (raceActions ++ lateActions)).responses[0]? = some r ∧
      (raced (raceActions ++ lateActions)).objects[0]? = some (0, .headers
        ((PyHeaders.fromList r.inner.inner.headers).edits
          (editsOf 0 (raceActions ++ lateActions)))) ∧
      ∀ (d j : Nat) (getter : Getter),
        (raced (raceActions ++ lateActions)).calls[d]? = some ⟨j, getter, .got 0⟩ →
          j = 0 ∧ getter = .headers :=
  @headers_own exampleDigests (raced (raceActions ++ lateActions)) (raceActions ++ lateActions) rfl
    0 0 0 rfl

/-- What a getter that begins after `m` can come to. -/
def Objects.Settled (m s : Objects) (i : Nat) (getter : Getter) (kept : Nat) : Prop :=
  ∀ (d : Nat) (stage : GetStage), m.calls.length ≤ d → s.calls[d]? = some ⟨i, getter, stage⟩ →
    stage = .looking ∨ stage = .got kept

theorem settled_step {i kept : Nat} {getter : Getter} {r : PyResponse}
    (here : s.responses[i]? = some r) (filled : r.cell getter = some kept)
    (settled : m.Settled s i getter kept) (stepped : ObjectStep digests s a t) :
    m.Settled t i getter kept := by
  intro d stage late there
  cases stepped with
  | get _ =>
      rcases getElem?_concat_cases there with old | ⟨-, new⟩
      · exact settled d stage late old
      · cases new
        exact .inl rfl
  | found call response is =>
      rcases getElem?_set_cases there with ⟨-, same⟩ | ⟨-, old⟩
      · cases same
        rw [here] at response
        cases response
        rw [filled] at is
        cases is
        exact .inr rfl
      · exact settled d stage late old
  | made call response empty =>
      rcases getElem?_set_cases there with ⟨-, same⟩ | ⟨-, old⟩
      · cases same
        rw [here] at response
        cases response
        rw [filled] at empty
        cases empty
      · exact settled d stage late old
  | store call response =>
      rcases getElem?_set_cases there with ⟨rfl, same⟩ | ⟨-, old⟩
      · cases same
        rcases settled _ _ late call with looking | got
        · cases looking
        · cases got
      · exact settled d stage late old
  | _ => exact settled d stage late there

/-- **One object from then on.**  When a getter of a response has come back, one object is
kept that some getter came back with; every getter that begins later comes back with it.
The first one itself may have another, if another thread was at the same getter. -/
theorem getters_agree {front back : List ObjectAction}
    (ran : Lib.Runs.run (Objects.step digests) .empty front = some m)
    (on : Lib.Runs.run (Objects.step digests) m back = some s) {c i p : Nat} {getter : Getter}
    (got : m.calls[c]? = some ⟨i, getter, .got p⟩) :
    ∃ kept, (∃ e : Nat, m.calls[e]? = some ⟨i, getter, .got kept⟩) ∧
      ∀ d q : Nat, m.calls.length ≤ d → s.calls[d]? = some ⟨i, getter, .got q⟩ → q = kept := by
  have begun := kept_objects ran
  obtain ⟨r, kept, here, filled⟩ := begun.handled.filled got
  refine ⟨kept, begun.handled.stored here filled, ?_⟩
  have settled : s.Right digests ∧ m.Keep s ∧ m.Settled s i getter kept := by
    refine run_invariant
      (motive := fun s => s.Right digests ∧ m.Keep s ∧ m.Settled s i getter kept)
      ⟨begun.right, fun _ r there => ⟨r, there, .refl r⟩, ?_⟩ ?_ on
    · intro d stage late there
      have inside := (List.getElem?_eq_some_iff.mp there).1
      omega
    · rintro t u a ⟨right, keep, settled⟩ stepped
      have stepped := object_step stepped
      obtain ⟨r', now, keeps⟩ := keep i r here
      refine ⟨right_step right stepped, ?_, settled_step now (keeps.cell filled) settled stepped⟩
      intro j x there
      obtain ⟨x', after, first⟩ := keep j x there
      obtain ⟨x'', later, again⟩ := right.keep_step stepped j x' after
      exact ⟨x'', later, first.trans again⟩
  intro d q late there
  rcases settled.2.2 d _ late there with looking | same
  · cases looking
  · cases same
    rfl

/-- The getter that came back first with the lost object, and what the next one gets. -/
theorem getters_agree_raced :
    (raced raceActions).calls[0]? = some ⟨0, .headers, .got 0⟩ ∧
      ∃ kept, (∃ e : Nat, (raced raceActions).calls[e]? = some ⟨0, .headers, .got kept⟩) ∧
        ∀ d q : Nat, 2 ≤ d →
          (raced (raceActions ++ lateActions)).calls[d]? = some ⟨0, .headers, .got q⟩ → q = kept :=
  ⟨rfl, @getters_agree exampleDigests (raced (raceActions ++ lateActions)) (raced raceActions)
    raceActions lateActions rfl rfl 0 0 0 .headers rfl⟩

end Steps

end Blasthttp
