/-
# Blasthttp.Client.RedirectWalk -- the redirect walk is bounded and faithful

`walk_bounded`: in every run of requests on one client, whatever the servers answer,
a request dispatches at most `redirect_limit() + 1` times, every hop goes through the
proxy exactly when one applies to that hop's own host, and what `send_inner` returns
is the last answer with the hops that led to it.

The invariant (`OnTrack`) reads the walk off the answers: `Linked` ties every answer's
`Location` to the next URI, and the counter is the number of answers followed.
-/
import Blasthttp.Client.SendInner
import Blasthttp.Http.PlainParse

namespace Blasthttp.Client

open Blasthttp.Rust Blasthttp.Http Blasthttp.Lib.Runs

set_option autoImplicit false

/-! ## The proxy of a hop -/

/-- The proxy a request leaves through. -/
def Via.proxy : Via → Option Uri
  | .forward proxyUri => some proxyUri
  | .pooled cached =>
      match cached.inner with
      | .direct _ => none
      | .tunnel proxyUri _ => some proxyUri
      | .socks5 proxyUri _ => some proxyUri

/-- A proxy is used exactly when one is set and the hop's host is not excluded, and it
is the one configured. -/
def Dispatch.Routed (parse : Parser) (config : RequestConfig) (dispatch : Dispatch) : Prop :=
  (dispatch.via.proxy.isSome = true ↔
    config.proxy.isSome = true ∧
      hostBypassesProxy dispatch.uri.hostOrEmpty config.noProxy = false) ∧
  ∀ proxyUri, dispatch.via.proxy = some proxyUri →
    ∃ proxyUrl, config.proxy = some proxyUrl ∧ parse proxyUrl = .ok proxyUri

theorem routed_of_direct {parse : Parser} {config : RequestConfig} {dispatch : Dispatch}
    (unproxied : config.effectiveProxy dispatch.uri.hostOrEmpty = none)
    (direct : dispatch.via.proxy = none) : dispatch.Routed parse config := by
  unfold Dispatch.Routed
  rw [direct]
  refine ⟨?_, fun _ clash => by cases clash⟩
  refine iff_of_false (by simp) ?_
  rintro ⟨set, applies⟩
  obtain ⟨proxyUrl, set⟩ := Option.isSome_iff_exists.mp set
  have proxied := RequestConfig.effectiveProxy_eq_some.mpr ⟨set, applies⟩
  rw [unproxied] at proxied
  cases proxied

theorem routed_of_proxied {parse : Parser} {config : RequestConfig} {dispatch : Dispatch}
    {proxyUrl : Str} {proxyUri : Uri}
    (proxied : config.effectiveProxy dispatch.uri.hostOrEmpty = some proxyUrl)
    (parsed : parse proxyUrl = .ok proxyUri) (used : dispatch.via.proxy = some proxyUri) :
    dispatch.Routed parse config := by
  obtain ⟨set, applies⟩ := RequestConfig.effectiveProxy_eq_some.mp proxied
  unfold Dispatch.Routed
  rw [used]
  refine ⟨iff_of_true rfl ⟨by rw [set]; rfl, applies⟩, ?_⟩
  intro other same
  cases same
  exact ⟨proxyUrl, set, parsed⟩

theorem dispatch_routed {env : Env} {config : RequestConfig} {dispatch : Dispatch}
    (pooled : dispatch.Pooled env config) (forwarded : dispatch.Forwarded env config) :
    dispatch.Routed env.http.parse config := by
  cases via : dispatch.via with
  | forward proxyUri =>
      obtain ⟨proxyUrl, chosen, parsed⟩ := forwarded proxyUri via
      rcases connMode_cases chosen with ⟨-, clash⟩ | ⟨url, _, proxied, -, kind⟩
      · cases clash
      · rcases kind with ⟨-, clash⟩ | ⟨-, same⟩ | clash
        · cases clash
        · cases same
          exact routed_of_proxied proxied parsed (by rw [via]; rfl)
        · cases clash
  | pooled cached =>
      obtain ⟨mode, chosen, made⟩ := pooled cached via
      obtain ⟨connector, serves, -⟩ := made.verify chosen
      have goes : ∀ {inner : AnyClient}, cached.inner = inner →
          dispatch.via.proxy = (Via.pooled ⟨inner, cached.certSlot, cached.peerSlot⟩).proxy := by
        rintro _ rfl
        rw [via]
      rcases connMode_cases chosen with ⟨unproxied, rfl⟩ | ⟨url, _, proxied, -, kind⟩
      · exact routed_of_direct unproxied (goes serves)
      · rcases kind with ⟨-, rfl⟩ | ⟨-, rfl⟩ | rfl
        · obtain ⟨proxyUri, parsed, inner⟩ := serves
          exact routed_of_proxied proxied parsed (goes inner)
        · exact serves.elim
        · obtain ⟨proxyUri, parsed, inner⟩ := serves
          exact routed_of_proxied proxied parsed (goes inner)

/-! ## The walk behind a task -/

/-- Each answer was to the URI its predecessor pointed to, from `u` on, and the last one
points to `v`. -/
def Linked (parse : Parser) : Uri → List Exchange → Uri → Prop
  | u, [], v => u = v
  | u, x :: rest, v =>
      x.dispatch.uri = u ∧ ∃ location next, x.response.location = some location ∧
        resolveRedirect parse u location = .ok next ∧ Linked parse next rest v

theorem linked_concat {parse : Parser} {u v next : Uri} {past : List Exchange} {x : Exchange}
    {location : Str} (linked : Linked parse u past v) (here : x.dispatch.uri = v)
    (has : x.response.location = some location)
    (resolved : resolveRedirect parse v location = .ok next) :
    Linked parse u (past ++ [x]) next := by
  induction past generalizing u with
  | nil =>
      cases linked
      exact ⟨here, location, next, has, resolved, rfl⟩
  | cons y past ih =>
      obtain ⟨first, l, n, hasL, resolvedL, rest⟩ := linked
      exact ⟨first, l, n, hasL, resolvedL, ih rest⟩

def hopOf (x : Exchange) : Str × UInt16 := (x.dispatch.uri.toStr, x.response.status)

/-- The loop's state after the answers in `past` were followed. -/
structure Walked (parse : Parser) (config : RequestConfig) (walk : Walk) (u₀ : Uri)
    (past : List Exchange) : Prop where
  first : parse (sanitizeUri config.url) = .ok u₀
  linked : Linked parse u₀ past walk.uri
  hops : walk.hops.toNat = past.length
  within : past.length ≤ config.redirectLimit.toNat
  chain : walk.redirectChain.map (fun hop => (hop.url, hop.status)) = past.map hopOf

/-- What a returned response says about the answers. -/
def Returned (parse : Parser) (task : Task) (response : Response) : Prop :=
  ∃ u₀ past last, parse (sanitizeUri task.config.url) = .ok u₀ ∧ task.answers = past ++ [last] ∧
    task.sent = task.answers.map Exchange.dispatch ∧ Linked parse u₀ past last.dispatch.uri ∧
    response.redirectChain.map (fun hop => (hop.url, hop.status)) = past.map hopOf ∧
    response.url = last.dispatch.uri.toStr ∧ response.status = last.response.status ∧
    (task.config.shouldFollowRedirects = true → isRedirect response.status = false)

/-- A task that has been answered but has not gone on. -/
def Answered (parse : Parser) (task : Task) (x : Exchange) : Prop :=
  ∃ u₀ past, Walked parse task.config task.walk u₀ past ∧ task.answers = past ++ [x] ∧
    task.sent = task.answers.map Exchange.dispatch ∧ x.dispatch.uri = task.walk.uri

def OnTrack (parse : Parser) (task : Task) : Prop :=
  match task.phase with
  | .ready =>
      ∃ u₀, Walked parse task.config task.walk u₀ task.answers ∧
        task.sent = task.answers.map Exchange.dispatch
  | .waiting dispatch =>
      ∃ u₀, Walked parse task.config task.walk u₀ task.answers ∧
        task.sent = task.answers.map Exchange.dispatch ++ [dispatch] ∧
        dispatch.uri = task.walk.uri
  | .answered x => Answered parse task x
  | .closing x _ => Answered parse task x ∧ goesOn task.config x.response = false
  | .done (.ok response) => Returned parse task response
  | .done (.error _) => True
  | .dropped => True

theorem follow_spec {env : Env} {config : RequestConfig} {walk walk' : Walk}
    {response : SingleResponse} {peerIp : Option IpAddr} {clock : Nat → Int}
    (followed : walk.follow env config response peerIp clock = .ok walk') :
    ∃ location, response.location = some location ∧
      resolveRedirect env.http.parse walk.uri location = .ok walk'.uri ∧
      walk'.redirectChain = walk.redirectChain ++ [⟨walk.uri.toStr, response.status, peerIp⟩] ∧
      walk'.hops = walk.hops + 1 ∧ ¬ config.redirectLimit < walk.hops + 1 := by
  simp only [Walk.follow] at followed
  split at followed
  · cases followed
  · rename_i below
    split at followed
    · cases followed
    · rename_i location has
      split at followed
      · cases followed
      · rename_i next resolved
        split at followed
        · cases followed
        · cases followed
          exact ⟨location, has, resolved, rfl, rfl, below⟩

/-- The counter does not wrap below the largest limit. -/
theorem walked_follow {env : Env} {config : RequestConfig} {walk walk' : Walk} {u₀ : Uri}
    {past : List Exchange} (walked : Walked env.http.parse config walk u₀ past)
    (limit : config.redirectLimit.toNat < 2 ^ 32 - 1) {x : Exchange}
    (here : x.dispatch.uri = walk.uri) {peerIp : Option IpAddr} {clock : Nat → Int}
    (followed : walk.follow env config x.response peerIp clock = .ok walk') :
    Walked env.http.parse config walk' u₀ (past ++ [x]) := by
  obtain ⟨location, has, resolved, chain, hops, below⟩ := follow_spec followed
  have within := walked.within
  have next : walk'.hops.toNat = past.length + 1 := by
    have one : (1 : UInt32).toNat = 1 := rfl
    rw [hops, UInt32.toNat_add, walked.hops, one, Nat.mod_eq_of_lt (by omega)]
  refine ⟨walked.first, linked_concat walked.linked here has resolved, ?_, ?_, ?_⟩
  · rw [next, List.length_append, List.length_singleton]
  · rw [← hops, UInt32.lt_iff_toNat_lt, next] at below
    rw [List.length_append, List.length_singleton]
    omega
  · rw [chain, List.map_append, List.map_append, walked.chain]
    simp only [List.map_cons, List.map_nil, hopOf, here]

theorem walked_start {parse : Parser} {config : RequestConfig} {uri : Uri}
    (parsed : parse (sanitizeUri config.url) = .ok uri) :
    Walked parse config (Walk.start config uri) uri [] :=
  ⟨parsed, rfl, rfl, Nat.zero_le _, rfl⟩

/-! ## One move -/

/-- Moves keep the track; only the redirect that is followed needs the limit. -/
theorem onTrack_move {env : Env} {sys : System} {task task' : Task} {action : Action}
    {client : HyperClient} (sound : sys.client.Sound env.openssl env.http.parse)
    (limit : task.config.redirectLimit.toNat < 2 ^ 32 - 1) (track : OnTrack env.http.parse task)
    (moved : Move env sys task action client task') : OnTrack env.http.parse task' := by
  unfold OnTrack at track
  cases moved with
  | @dispatched i connected _ result phase sent =>
      rw [phase] at track
      obtain ⟨u₀, walked, logged⟩ := track
      cases result with
      | error fault => exact True.intro
      | ok dispatch =>
          obtain ⟨here, -, -⟩ := (Walk.dispatch_spec sound sent).2 dispatch rfl
          refine ⟨u₀, walked, ?_, here⟩
          change task.sent ++ [dispatch] = _
          rw [logged]
          rfl
  | @answered i connection response dispatch phase delivers =>
      rw [phase] at track
      obtain ⟨u₀, walked, logged, here⟩ := track
      refine ⟨u₀, task.answers, walked, rfl, ?_, here⟩
      change task.sent = (task.answers ++ [_]).map Exchange.dispatch
      rw [logged, List.map_append]
      rfl
  | failed phase => exact True.intro
  | @settled i clock x phase =>
      rw [phase] at track
      obtain ⟨u₀, past, walked, answers, logged, here⟩ := track
      unfold Task.settle
      cases redirected : goesOn task.config x.response with
      | false => exact ⟨⟨u₀, past, walked, answers, logged, here⟩, redirected⟩
      | true =>
          cases followed : task.walk.follow env task.config x.response
              (sys.hopPeerIp x.dispatch) clock with
          | error fault => exact True.intro
          | ok walk' =>
              refine ⟨u₀, ?_, logged⟩
              change Walked env.http.parse task.config walk' u₀ task.answers
              rw [answers]
              exact walked_follow walked limit here followed
  | @finished i x peerIp phase =>
      rw [phase] at track
      obtain ⟨⟨u₀, past, walked, answers, logged, here⟩, stays⟩ := track
      refine ⟨u₀, past, x, walked.first, answers, logged, ?_, walked.chain, ?_, rfl, ?_⟩
      · rw [here]
        exact walked.linked
      · rw [here]
        rfl
      · intro follows
        change task.config.shouldFollowRedirects = true at follows
        unfold goesOn at stays
        rw [follows, Bool.and_true] at stays
        exact stays
  | dropped phase => exact True.intro

/-! ## Every run -/

/-- What a task has sent, at any time. -/
def Bounded (parse : Parser) (task : Task) : Prop :=
  task.sent.length ≤ task.config.redirectLimit.toNat + 1 ∧
    ∀ dispatch ∈ task.sent, dispatch.Routed parse task.config

theorem bounded_move {env : Env} {sys : System} {task task' : Task} {action : Action}
    {client : HyperClient} (sound : sys.client.Sound env.openssl env.http.parse)
    (track : OnTrack env.http.parse task) (bounded : Bounded env.http.parse task)
    (moved : Move env sys task action client task') : Bounded env.http.parse task' := by
  cases moved with
  | @dispatched i connected _ result phase sent =>
      cases result with
      | error fault => exact bounded
      | ok dispatch =>
          unfold OnTrack at track
          rw [phase] at track
          obtain ⟨u₀, walked, logged⟩ := track
          obtain ⟨-, pooled, forwarded⟩ := (Walk.dispatch_spec sound sent).2 dispatch rfl
          have within := walked.within
          refine ⟨?_, ?_⟩
          · change (task.sent ++ [dispatch]).length ≤ _
            rw [logged, List.length_append, List.length_map, List.length_singleton]
            exact Nat.succ_le_succ within
          · intro d there
            rcases List.mem_append.mp (there : d ∈ task.sent ++ [dispatch]) with old | new
            · exact bounded.2 d old
            · rw [List.mem_singleton.mp new]
              exact dispatch_routed pooled forwarded
  | answered phase delivers => exact bounded
  | failed phase => exact bounded
  | @settled i clock x phase =>
      unfold Task.settle
      split
      · split
        · exact bounded
        · exact bounded
      · exact bounded
  | finished phase => exact bounded
  | dropped phase => exact bounded

theorem move_config {env : Env} {sys : System} {task task' : Task} {action : Action}
    {client : HyperClient} (moved : Move env sys task action client task') :
    task'.config = task.config := by
  cases moved with
  | @dispatched i connected _ result phase sent => cases result <;> rfl
  | @settled i clock x phase =>
      unfold Task.settle
      split
      · split <;> rfl
      · rfl
  | _ => rfl

/-- **The redirect walk.** In every run of requests on one client, with any answers and
in any order, a request with a limit below the largest sends at most one more than
that, routes every hop by its own host, and returns the last answer of the walk. -/
theorem walk_bounded {env : Env} {actions : List Action} {sys : System}
    (ran : run (System.step env) System.init actions = some sys) {i : Nat} {task : Task}
    (there : sys.tasks[i]? = some task)
    (limit : task.config.redirectLimit.toNat < 2 ^ 32 - 1) :
    task.sent.length ≤ task.config.redirectLimit.toNat + 1 ∧
    (∀ dispatch ∈ task.sent, dispatch.Routed env.http.parse task.config) ∧
    ∀ response, task.phase = .done (.ok response) → Returned env.http.parse task response := by
  have kept := tasks_invariant
    (motive := fun task => task.config.redirectLimit.toNat < 2 ^ 32 - 1 →
      OnTrack env.http.parse task ∧ Bounded env.http.parse task) ?_ ?_ ran
  · obtain ⟨track, sent, routed⟩ := kept.2 i task there limit
    refine ⟨sent, routed, ?_⟩
    intro response phase
    unfold OnTrack at track
    rw [phase] at track
    exact track
  · intro config uri parsed _
    exact ⟨⟨uri, walked_start parsed, rfl⟩, Nat.zero_le _, fun _ clash => by cases clash⟩
  · intro sys task task' action client sound before moved limit
    rw [move_config moved] at limit
    obtain ⟨track, bounded⟩ := before limit
    exact ⟨onTrack_move sound limit track moved, bounded_move sound track bounded moved⟩

/-! A request that is moved once and then answered. -/

def exampleEnv : Env where
  http := ⟨plainParse, fun _ _ => .ok ()⟩
  openssl := lenientOpenSsl
  psl := fun _ => none

def movedAnswer (location : String) : SingleResponse where
  status := 302
  headers := [("location".toList, location.toList)]
  bodyBytes := []
  location := some location.toList
  decodeError := none

def okAnswer : SingleResponse where
  status := 200
  headers := []
  bodyBytes := []
  location := none
  decodeError := none

def walkConfig : RequestConfig :=
  { RequestConfig.new "https://example.com/".toList with
    followRedirects := some true
    maxRedirects := some 1 }

def walkActions : List Action :=
  [.start walkConfig, .dispatch 0 fun _ _ => .ok (), .connect 0 0 openNetwork,
    .respond 0 (some 0) (movedAnswer "/next"), .settle 0 fun _ => 0,
    .dispatch 0 fun _ _ => .ok (), .respond 0 (some 0) okAnswer, .settle 0 fun _ => 0, .finish 0]

def walkEnd : System := (run (System.step exampleEnv) System.init walkActions).getD System.init

theorem walkActions_run : run (System.step exampleEnv) System.init walkActions = some walkEnd := by
  rfl

theorem walk_bounded_next :
    ∃ task response, walkEnd.tasks[0]? = some task ∧ task.phase = .done (.ok response) ∧
      task.sent.length ≤ task.config.redirectLimit.toNat + 1 ∧
      (∀ dispatch ∈ task.sent, dispatch.Routed plainParse task.config) ∧
        Returned plainParse task response := by
  refine ⟨_, _, rfl, rfl, ?_⟩
  have walked := walk_bounded (i := 0) walkActions_run rfl (by decide)
  exact ⟨walked.1, walked.2.1, walked.2.2 _ rfl⟩

end Blasthttp.Client
