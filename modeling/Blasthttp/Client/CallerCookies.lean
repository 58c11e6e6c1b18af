/-
# Blasthttp.Client.CallerCookies -- the caller's cookies win

The names `caller_cookie_names` collects are those of the pairs the caller's headers
say (`mem_callerCookieNames`), and no cookie of a chain started with them is held under
one.  A task on a client carries such a chain: what it holds when a hop is sent is what
`store` makes of the answers so far (`Carried`).  So whatever the servers set along the
way, every request of a redirect walk says the caller's pairs as they are and under their
names nothing else (`sent_callerPairs`).
-/
import Blasthttp.Client.RedirectWalk
import Blasthttp.Cookies.Scope

namespace Blasthttp.Client

open Blasthttp.Rust Blasthttp.Http Blasthttp.Cookies Blasthttp.Lib.Runs

set_option autoImplicit false

variable {psl : Str → Option Str}

theorem mem_addCallerName {n : Str} {names : List Str} {part : Str} :
    n ∈ addCallerName names part ↔ n ∈ names ∨ ∃ v, readPair part = some (n, v) := by
  unfold addCallerName readPair
  cases once : splitOnce '=' part with
  | none => simp
  | some r =>
      obtain ⟨name, value⟩ := r
      simp only
      by_cases unnamed : (trim name).isEmpty = true
      · simp [unnamed]
      · by_cases known : trim name ∈ names
        · simp only [known, or_true, if_true, unnamed, Bool.false_eq_true, if_false,
            Option.some.injEq, Prod.mk.injEq]
          constructor
          · exact .inl
          · rintro (there | ⟨v, rfl, -⟩)
            · exact there
            · exact known
        · simp [known, unnamed, eq_comm]

theorem mem_foldl_addCallerName {n : Str} (parts : List Str) (names : List Str) :
    n ∈ parts.foldl addCallerName names ↔
      n ∈ names ∨ ∃ v, (n, v) ∈ parts.filterMap readPair := by
  induction parts generalizing names with
  | nil => simp
  | cons part parts ih =>
      rw [List.foldl_cons, ih, mem_addCallerName, or_assoc]
      refine or_congr_right ?_
      cases read : readPair part with
      | none => simp [read]
      | some pair =>
          rw [List.filterMap_cons, read]
          simp only [List.mem_cons, Option.some.injEq]
          constructor
          · rintro (⟨v, rfl⟩ | ⟨v, there⟩)
            · exact ⟨v, .inl rfl⟩
            · exact ⟨v, .inr there⟩
          · rintro ⟨v, rfl | there⟩
            · exact .inl ⟨v, rfl⟩
            · exact .inr ⟨v, there⟩

/-- The caller's names are the names of the caller's pairs. -/
theorem mem_callerCookieNames {n : Str} (headers : List Line) :
    n ∈ callerCookieNames headers ↔ ∃ v, (n, v) ∈ requestPairs headers := by
  have fold : ∀ (headers : List Line) (names : List Str),
      n ∈ headers.foldl addCallerNames names ↔
        n ∈ names ∨ ∃ v, (n, v) ∈ requestPairs headers := by
    intro headers
    induction headers with
    | nil => intro names; simp [requestPairs]
    | cons line headers ih =>
        intro names
        obtain ⟨name, value⟩ := line
        rw [List.foldl_cons, ih, addCallerNames]
        cases cookie : isCookieHeader name with
        | true =>
            rw [if_pos rfl, mem_foldl_addCallerName,
              requestPairs_cons_cookie cookie, or_assoc, ← exists_or]
            simp only [List.mem_append, cookiePairs]
        | false => rw [if_neg Bool.false_ne_true, requestPairs_cons_other cookie]
  rw [callerCookieNames, fold headers []]
  simp

/-- No pair a chain sends has a name of the caller's. -/
theorem headerFor_foreign {callerNames : List Str} {hops : List Hop} {chain : ChainCookies}
    (stored : (ChainCookies.withCallerCookies callerNames).storeAll psl hops = .ok chain)
    (uri : Uri) : ∀ pair ∈ (chain.headerFor uri).elim [] cookiePairs, pair.1 ∉ callerNames := by
  intro pair there
  cases sent : chain.headerFor uri with
  | none =>
      rw [sent] at there
      cases there
  | some text =>
      rw [sent] at there
      obtain ⟨host, -, pairs⟩ := cookiePairs_headerFor stored sent
      have listed : pair ∈ cookiePairs text := there
      rw [pairs] at listed
      obtain ⟨cookie, matched, rfl⟩ := List.mem_map.mp listed
      obtain ⟨event, latest⟩ := held_latest stored (mem_matched.mp matched).1
      exact latest.parsed.2.2.2

/-- A request says every caller pair unchanged and in order, and every further pair has a
name the caller did not set, if that is so of what is offered for it. -/
theorem buildRequest_callerPairs {http : HttpCrate} {config : RequestConfig} {uri : Uri}
    {originForm manualHostHeader : Bool} {extra : Option Str} {request : Request}
    (foreign : ∀ pair ∈ extra.elim [] cookiePairs, pair.1 ∉ callerCookieNames config.headerList)
    (built : buildRequest http uri config originForm manualHostHeader extra = .ok request) :
    (∃ front further back, requestPairs config.headerList = front ++ back ∧
      requestPairs request.headers = front ++ further ++ back ∧
      ∀ pair ∈ further, pair.1 ∉ callerCookieNames config.headerList) ∧
    (requestPairs request.headers).filter
      (fun pair => pair.1 ∈ callerCookieNames config.headerList) =
        requestPairs config.headerList := by
  have headers : request.headers = requestHeaders uri config manualHostHeader extra :=
    buildRequest_headers built
  obtain ⟨front, back, caller, pairs⟩ :=
    requestPairs_requestHeaders uri config manualHostHeader extra
  rw [headers, pairs]
  refine ⟨⟨front, _, back, caller, rfl, foreign⟩, ?_⟩
  have own : ∀ pair ∈ requestPairs config.headerList,
      pair.1 ∈ callerCookieNames config.headerList := by
    intro pair there
    exact (mem_callerCookieNames _).mpr ⟨pair.2, there⟩
  have others : (extra.elim [] cookiePairs).filter
      (fun pair => decide (pair.1 ∈ callerCookieNames config.headerList)) = [] := by
    rw [List.filter_eq_nil_iff]
    intro pair there
    simpa using foreign pair there
  rw [List.filter_append, List.filter_append, others, List.append_nil, ← List.filter_append,
    ← caller]
  exact List.filter_eq_self.mpr fun pair there => by simpa using own pair there

/-- A request that is offered nothing says the caller's pairs and no others. -/
theorem buildRequest_alone {http : HttpCrate} {config : RequestConfig} {uri : Uri}
    {originForm manualHostHeader : Bool} {request : Request}
    (built : buildRequest http uri config originForm manualHostHeader none = .ok request) :
    requestPairs request.headers = requestPairs config.headerList := by
  obtain ⟨front, back, caller, pairs⟩ := requestPairs_requestHeaders uri config manualHostHeader none
  rw [buildRequest_headers built, pairs, caller]
  exact congrArg (· ++ back) (List.append_nil front)

/-! ## The chain of a walk -/

theorem storeAll_concat (hop : Hop) :
    ∀ (hops : List Hop) (chain : ChainCookies),
      chain.storeAll psl (hops ++ [hop]) =
        match chain.storeAll psl hops with
        | .error panic => .error panic
        | .ok chain => (chain.store psl hop.headers hop.uri hop.clock).map Prod.fst
  | [], chain => by
      simp only [List.nil_append, ChainCookies.storeAll]
      cases chain.store psl hop.headers hop.uri hop.clock <;> rfl
  | first :: hops, chain => by
      rw [List.cons_append, ChainCookies.storeAll, ChainCookies.storeAll]
      cases chain.store psl first.headers first.uri first.clock with
      | error panic => rfl
      | ok r => exact storeAll_concat hop hops r.1

/-- The hops are the answers, with the times `store` was called at. -/
def Saw (hops : List Hop) (past : List Exchange) : Prop :=
  hops.map (fun hop => (hop.headers, hop.uri)) =
    past.map fun x => (x.response.headers, x.dispatch.uri)

/-- What a walk carries once the answers `past` are followed: nothing, if it carries no
cookies, else a chain that knows the caller's names and has stored them all. -/
def Chained (env : Env) (config : RequestConfig) (past : List Exchange)
    (cookies : Option ChainCookies) : Prop :=
  if config.shouldForwardRedirectCookies then
    ∃ hops chain, Saw hops past ∧ cookies = some chain ∧
      (ChainCookies.withCallerCookies (callerCookieNames config.headerList)).storeAll env.psl hops =
        .ok chain
  else cookies = none

/-- What the chain has for a request to `uri`. -/
def offered (cookies : Option ChainCookies) (uri : Uri) : Option Str :=
  cookies.bind fun chain => chain.headerFor uri

theorem offered_foreign {env : Env} {config : RequestConfig} {past : List Exchange}
    {cookies : Option ChainCookies} (chained : Chained env config past cookies) (uri : Uri) :
    ∀ pair ∈ (offered cookies uri).elim [] cookiePairs,
      pair.1 ∉ callerCookieNames config.headerList := by
  unfold Chained at chained
  split at chained
  · obtain ⟨hops, chain, -, rfl, stored⟩ := chained
    exact headerFor_foreign stored uri
  · rw [chained]
    exact fun pair there => absurd there List.not_mem_nil

/-- The walk stands behind the answers `past`. -/
structure Carries (env : Env) (config : RequestConfig) (walk : Walk) (past : List Exchange) :
    Prop where
  chained : Chained env config past walk.chainCookies
  hop : walk.hopCookies = offered walk.chainCookies walk.uri

theorem carries_start (env : Env) (config : RequestConfig) (uri : Uri) :
    Carries env config (Walk.start config uri) [] := by
  have empty : ∀ names : List Str, (ChainCookies.withCallerCookies names).headerFor uri = none := by
    intro names
    unfold ChainCookies.headerFor
    cases uri.host <;> rfl
  constructor
  · unfold Chained Walk.start
    split
    · exact ⟨[], _, rfl, rfl, rfl⟩
    · rfl
  · unfold offered Walk.start
    split
    · exact (empty _).symm
    · rfl

theorem follow_cookies {env : Env} {config : RequestConfig} {walk walk' : Walk}
    {response : SingleResponse} {peerIp : Option IpAddr} {clock : Nat → Int}
    (followed : walk.follow env config response peerIp clock = .ok walk') :
    walk.carryCookies env response walk'.uri clock = .ok (walk'.chainCookies, walk'.hopCookies) := by
  simp only [Walk.follow] at followed
  split at followed
  · cases followed
  · split at followed
    · cases followed
    · split at followed
      · cases followed
      · split at followed
        · cases followed
        · rename_i carried
          cases followed
          exact carried

/-- Following an answer stores it. -/
theorem Carries.follow {env : Env} {config : RequestConfig} {walk walk' : Walk}
    {past : List Exchange} (carries : Carries env config walk past) {x : Exchange}
    (here : x.dispatch.uri = walk.uri) {peerIp : Option IpAddr} {clock : Nat → Int}
    (followed : walk.follow env config x.response peerIp clock = .ok walk') :
    Carries env config walk' (past ++ [x]) := by
  have carried := follow_cookies followed
  have chained := carries.chained
  unfold Chained at chained
  unfold Walk.carryCookies at carried
  split at chained
  · rename_i forward
    obtain ⟨hops, chain, saw, held, stored⟩ := chained
    rw [held] at carried
    simp only at carried
    split at carried
    · cases carried
    · rename_i after rejected kept
      injection carried with carried
      injection carried with chain' hop'
      refine ⟨?_, by rw [← chain', ← hop']; rfl⟩
      unfold Chained
      rw [if_pos forward, ← chain']
      refine ⟨hops ++ [⟨x.response.headers, walk.uri, clock⟩], after, ?_, rfl, ?_⟩
      · unfold Saw at saw ⊢
        rw [List.map_append, List.map_append, saw, ← here]
        rfl
      · rw [storeAll_concat, stored]
        simp only [kept]
        rfl
  · rename_i forward
    rw [chained] at carried
    injection carried with carried
    injection carried with chain' hop'
    have nothing : walk.hopCookies = none := by
      rw [carries.hop, chained]
      rfl
    refine ⟨?_, by rw [← hop', ← chain', nothing]; rfl⟩
    unfold Chained
    rw [if_neg forward, ← chain']

/-! ## What a task has sent -/

/-- The request was built with what the chain had for its hop after the answers `past`. -/
def Dispatch.BuiltAfter (env : Env) (config : RequestConfig) (past : List Exchange)
    (dispatch : Dispatch) : Prop :=
  ∃ cookies manualHostHeader, Chained env config past cookies ∧
    buildRequest env.http dispatch.uri config false manualHostHeader
      (offered cookies dispatch.uri) = .ok dispatch.request

/-- Every dispatch was built after the answers to those before it. -/
def SentAfter (env : Env) (config : RequestConfig) (sent : List Dispatch)
    (answers : List Exchange) : Prop :=
  ∀ front dispatch back, sent = front ++ dispatch :: back →
    ∃ past later, answers = past ++ later ∧ past.map Exchange.dispatch = front ∧
      dispatch.BuiltAfter env config past

theorem SentAfter.answer {env : Env} {config : RequestConfig} {sent : List Dispatch}
    {answers : List Exchange} (after : SentAfter env config sent answers) (x : Exchange) :
    SentAfter env config sent (answers ++ [x]) := by
  intro front dispatch back split
  obtain ⟨past, later, rfl, before, built⟩ := after front dispatch back split
  exact ⟨past, later ++ [x], List.append_assoc _ _ _, before, built⟩

theorem SentAfter.dispatch {env : Env} {config : RequestConfig} {answers : List Exchange}
    (after : SentAfter env config (answers.map Exchange.dispatch) answers) {fresh : Dispatch}
    (built : fresh.BuiltAfter env config answers) :
    SentAfter env config (answers.map Exchange.dispatch ++ [fresh]) answers := by
  intro front dispatch back split
  rcases List.eq_nil_or_concat back with rfl | ⟨back, last, rfl⟩
  · obtain ⟨rfl, same⟩ := List.append_inj' split rfl
    cases same
    exact ⟨answers, [], (List.append_nil _).symm, rfl, built⟩
  · rw [List.concat_eq_append, ← List.cons_append, ← List.append_assoc] at split
    exact after front dispatch back (List.append_inj' split rfl).1

/-- The walk of a task, its answers and what it has sent fit together. -/
def Carried (env : Env) (task : Task) : Prop :=
  SentAfter env task.config task.sent task.answers ∧
    match task.phase with
    | .ready =>
        Carries env task.config task.walk task.answers ∧
          task.sent = task.answers.map Exchange.dispatch
    | .waiting dispatch =>
        Carries env task.config task.walk task.answers ∧
          task.sent = task.answers.map Exchange.dispatch ++ [dispatch] ∧
          dispatch.uri = task.walk.uri
    | .answered x =>
        ∃ past, task.answers = past ++ [x] ∧ Carries env task.config task.walk past ∧
          task.sent = task.answers.map Exchange.dispatch ∧ x.dispatch.uri = task.walk.uri
    | _ => True

theorem Walk.dispatch_built {env : Env} {config : RequestConfig} {client client' : HyperClient}
    {walk : Walk} {connected : Str → Nat → Except ClientError Unit} {dispatch : Dispatch}
    (sent : walk.dispatch env config client connected = (client', .ok dispatch)) :
    dispatch.uri = walk.uri ∧ ∃ manualHostHeader,
      buildRequest env.http walk.uri config false manualHostHeader walk.hopCookies =
        .ok dispatch.request := by
  unfold Walk.dispatch at sent
  split at sent
  · cases sent
  · injection sent with _ sent
    obtain ⟨_, _, request, -, -, -, built, rfl⟩ :=
      Walk.dispatchForwardProxy_ok (mapError_ok.mp sent)
    exact ⟨rfl, true, built⟩
  · split at sent
    · cases sent
    · injection sent with _ sent
      obtain ⟨request, built, rfl⟩ := Walk.dispatchRequest_ok (mapError_ok.mp sent)
      exact ⟨rfl, false, built⟩

theorem carried_move {env : Env} {sys : System} {task task' : Task} {action : Action}
    {client : HyperClient} (carried : Carried env task)
    (moved : Move env sys task action client task') : Carried env task' := by
  obtain ⟨after, now⟩ := carried
  cases moved with
  | @dispatched i connected _ result phase sent =>
      rw [phase] at now
      obtain ⟨carries, logged⟩ := now
      cases result with
      | error fault => exact ⟨after, trivial⟩
      | ok dispatch =>
          obtain ⟨here, manual, built⟩ := Walk.dispatch_built sent
          have fresh : dispatch.BuiltAfter env task.config task.answers := by
            refine ⟨task.walk.chainCookies, manual, carries.chained, ?_⟩
            rw [here, ← carries.hop]
            exact built
          rw [logged] at after
          refine ⟨?_, carries, ?_, here⟩
          · change SentAfter env task.config (task.sent ++ [dispatch]) task.answers
            rw [logged]
            exact after.dispatch fresh
          · change task.sent ++ [dispatch] = _
            rw [logged]
            rfl
  | @answered i connection response dispatch phase delivers =>
      rw [phase] at now
      obtain ⟨carries, logged, here⟩ := now
      refine ⟨after.answer _, task.answers, rfl, carries, ?_, here⟩
      change task.sent = (task.answers ++ [_]).map Exchange.dispatch
      rw [logged, List.map_append]
      rfl
  | failed phase => exact ⟨after, trivial⟩
  | @settled i clock x phase =>
      rw [phase] at now
      obtain ⟨past, answers, carries, logged, here⟩ := now
      unfold Task.settle
      split
      · cases followed : task.walk.follow env task.config x.response
            (sys.hopPeerIp x.dispatch) clock with
        | error fault => exact ⟨after, trivial⟩
        | ok walk' =>
            refine ⟨after, ?_, logged⟩
            change Carries env task.config walk' task.answers
            rw [answers]
            exact carries.follow here followed
      · exact ⟨after, trivial⟩
  | finished phase => exact ⟨after, trivial⟩
  | dropped phase => exact ⟨after, trivial⟩

/-- **The caller's cookies always win.** In every run of requests on one client, whatever
the servers answer and wherever they redirect to: each request that is sent was built with
what `store` has made of the answers before it, and it says every caller pair unchanged
and in order, and further pairs only under names the caller did not set.  A request that
goes past the loop (`dispatch_direct`) is offered nothing, and says just the caller's. -/
theorem sent_callerPairs {env : Env} {actions : List Action} {sys : System}
    (ran : run (System.step env) System.init actions = some sys) {i : Nat} {task : Task}
    (there : sys.tasks[i]? = some task) {front back : List Dispatch} {dispatch : Dispatch}
    (sent : task.sent = front ++ dispatch :: back) :
    (∃ past later, task.answers = past ++ later ∧ past.map Exchange.dispatch = front ∧
      dispatch.BuiltAfter env task.config past) ∧
    (∃ before further behind, requestPairs task.config.headerList = before ++ behind ∧
      requestPairs dispatch.request.headers = before ++ further ++ behind ∧
      ∀ pair ∈ further, pair.1 ∉ callerCookieNames task.config.headerList) ∧
    (requestPairs dispatch.request.headers).filter
      (fun pair => pair.1 ∈ callerCookieNames task.config.headerList) =
        requestPairs task.config.headerList ∧
    ∀ config uri originForm manualHostHeader request,
      buildRequest env.http uri config originForm manualHostHeader none = .ok request →
        requestPairs request.headers = requestPairs config.headerList := by
  have kept := tasks_invariant (motive := Carried env) ?_ ?_ ran
  · obtain ⟨past, later, answers, before, built⟩ := (kept.2 i task there).1 front dispatch back sent
    obtain ⟨cookies, manualHostHeader, chained, request⟩ := built
    obtain ⟨further, caller⟩ :=
      buildRequest_callerPairs (offered_foreign chained dispatch.uri) request
    exact ⟨⟨past, later, answers, before, cookies, manualHostHeader, chained, request⟩, further,
      caller, fun _ _ _ _ _ built => buildRequest_alone built⟩
  · intro config uri _
    refine ⟨?_, carries_start env config uri, rfl⟩
    intro front dispatch back nothing
    simp [Task.start] at nothing
  · intro sys task task' action client _ carried moved
    exact carried_move carried moved

/-! A first hop that resets the caller's `sid` and adds a cookie of its own, which the second
request says behind the caller's. -/

def callerConfig : RequestConfig :=
  { RequestConfig.new "https://example.com/".toList with
    headers := some [("Cookie".toList, "sid=mine; ".toList)]
    followRedirects := some true }

def resetEnv : Env := { exampleEnv with psl := exampleList }

def resetAnswer : SingleResponse :=
  { movedAnswer "/home" with
    headers := [("set-cookie".toList, "sid=theirs".toList), ("set-cookie".toList, "lb=7".toList)] }

def resetActions : List Action :=
  [.start callerConfig, .dispatch 0 fun _ _ => .ok (), .connect 0 0 openNetwork,
    .respond 0 (some 0) resetAnswer, .settle 0 fun _ => 0, .dispatch 0 fun _ _ => .ok ()]

def resetEnd : System := (run (System.step resetEnv) System.init resetActions).getD System.init

theorem resetActions_run :
    run (System.step resetEnv) System.init resetActions = some resetEnd := by
  rfl

theorem sent_callerPairs_reset :
    ∃ task front dispatch, resetEnd.tasks[0]? = some task ∧ task.sent = front ++ [dispatch] ∧
      (("Cookie".toList, "sid=mine; lb=7".toList) : Line) ∈ dispatch.request.headers ∧
      (∃ past later, task.answers = past ++ later ∧ past.map Exchange.dispatch = front ∧
        dispatch.BuiltAfter resetEnv task.config past) ∧
      (∃ before further behind, requestPairs task.config.headerList = before ++ behind ∧
        requestPairs dispatch.request.headers = before ++ further ++ behind ∧
        ∀ pair ∈ further, pair.1 ∉ callerCookieNames task.config.headerList) ∧
      (requestPairs dispatch.request.headers).filter
        (fun pair => pair.1 ∈ callerCookieNames task.config.headerList) =
          requestPairs task.config.headerList ∧
      ∀ config uri originForm manualHostHeader request,
        buildRequest resetEnv.http uri config originForm manualHostHeader none = .ok request →
          requestPairs request.headers = requestPairs config.headerList :=
  ⟨_, [_], _, rfl, rfl, by decide +kernel,
    @sent_callerPairs resetEnv resetActions resetEnd resetActions_run 0 _ rfl [_] [] _ rfl⟩

end Blasthttp.Client
