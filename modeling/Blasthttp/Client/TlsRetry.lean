/-
# Blasthttp.Client.TlsRetry -- what becomes of a failed TLS handshake

`connect_stream` hands its error on as it is.  The error of a pooled connector comes back
through hyper-util, and `dispatch_request` looks for the words of TLS in its text, where
they never stand: the attempt counts as a failed connection and is made again
(`tlsFailure_iff`).
-/
import Blasthttp.Client.Send
import Blasthttp.Client.TlsLayers

namespace Blasthttp.Client

open Blasthttp.Rust Blasthttp.Http

set_option autoImplicit false

/-! ## Errors from hyper-util -/

/-- What `Client::request` fails with: the connector's error in its own, or another one. -/
inductive HyperError where
  | connect (fault : NetFault)
  | other (text : Str)

structure HyperUtil where
  display : HyperError → Str

/-- The connector's error is to be had from `source()` only. -/
def HyperUtil.HidesCause (hyper : HyperUtil) : Prop :=
  ∀ fault, hyper.display (.connect fault) = "client error (Connect)".toList

def contains (pattern s : Str) : Bool := (splitOnceStr pattern s).isSome

/-- The `map_err` of `dispatch_request`.  No letter outside ASCII is lowered to one of
these words'. -/
def requestError (display : Str) : ClientError :=
  let errStr := toAsciiLowercase display
  if contains "ssl".toList errStr || contains "tls".toList errStr ||
      contains "certificate".toList errStr then
    ⟨"request failed: ".toList ++ display, .tls⟩
  else ⟨"request failed: ".toList ++ display, .connection⟩

/-! ## Attempts that end in a handshake -/

/-- The network as it is, with a handshake that succeeds. -/
def Network.trusting (network : Network) : Network :=
  { network with handshake := fun _ _ => .ok none }

/-- `resolve_ip` or `request_target` is set: the request goes by `dispatch_direct`. -/
def bypassesPool (config : RequestConfig) : Bool :=
  config.resolveIp.isSome || config.requestTarget.isSome

/-- How an attempt can end, and the fault of the handshake with the target if that is why.
In a pooled attempt any hop can be the one, whatever was done on the client before. -/
inductive AttemptEnd (env : Env) (hyper : HyperUtil) (config : RequestConfig) :
    Outcome → Option NetFault → Prop
  | otherwise (outcome : Outcome) : AttemptEnd env hyper config outcome none
  | stream {target : Uri} {network : Network} {session : TlsSession} {below : Stream}
      {cert : Option CertInfo} {fault : NetFault} {e : ClientError}
      (direct : bypassesPool config = true)
      (parsed : env.http.parse (sanitizeUri config.url) = .ok target)
      (reached : connectStream env.openssl network.trusting config target =
        .ok (.tls session below, cert))
      (broke : network.handshake session below = .error fault)
      (ended : connectStream env.openssl network config target = .error e) :
      AttemptEnd env hyper config (.finished (.error e)) (some fault)
  | pooled {walk : Walk} {client client' : HyperClient}
      {connected : Str → Nat → Except ClientError Unit} {uri : Uri} {cached : CachedClient}
      {request : Request} {network : Network} {session : TlsSession} {below : Stream}
      {fault raised : NetFault}
      (indirect : bypassesPool config = false)
      (sent : walk.dispatch env config client connected =
        (client', .ok ⟨uri, .pooled cached, request⟩))
      (reached : (cached.inner.connect network.trusting uri).stream = .ok (.tls session below))
      (broke : network.handshake session below = .error fault)
      (ended : (cached.inner.connect network uri).stream = .error raised) :
      AttemptEnd env hyper config
        (.finished (.error (requestError (hyper.display (.connect raised))))) (some fault)

/-! ## The error of the attempt -/

@[simp] theorem trusting_dial (network : Network) : network.trusting.dial = network.dial := rfl

@[simp] theorem trusting_enterProxy (network : Network) (config : RequestConfig) (host : Str)
    (port : Nat) (tcp : Stream) (proxy : Option ProxyConfig) :
    enterProxy network.trusting config host port tcp proxy =
      enterProxy network config host port tcp proxy := rfl

/-- A proxy exchange lays no TLS. -/
theorem enterProxy_not_tls {network : Network} {config : RequestConfig} {host : Str} {port : Nat}
    {addr : Str × Nat} {proxy : Option ProxyConfig} {session : TlsSession} {below : Stream} :
    enterProxy network config host port (.tcp addr.1 addr.2) proxy ≠ .ok (.tls session below) := by
  intro entered
  cases proxy with
  | none => cases entered
  | some p =>
      obtain ⟨-, -, entered⟩ := bind_ok.mp entered
      cases entered

/-- Up to the handshake `connect_stream` does not depend on it. -/
theorem connectStream_handshake {openssl : OpenSsl} {network : Network} {config : RequestConfig}
    {target : Uri} {session : TlsSession} {below : Stream} {cert : Option CertInfo}
    (reached : connectStream openssl network.trusting config target =
      .ok (.tls session below, cert)) :
    connectStream openssl network config target =
      ((network.handshake session below).mapError
        (handshakeError config target.hostOrEmpty)).map (Stream.tls session below, ·) := by
  unfold connectStream at reached
  obtain ⟨_, valid, reached⟩ := bind_ok.mp reached
  obtain ⟨proxy, chosen, reached⟩ := bind_ok.mp reached
  obtain ⟨peer, dialed, reached⟩ := bind_ok.mp reached
  obtain ⟨inner, entered, reached⟩ := bind_ok.mp reached
  rw [trusting_dial] at dialed
  rw [trusting_enterProxy] at entered
  cases https : target.isHttps with
  | false =>
      rw [https] at reached
      cases reached
      exact absurd entered enterProxy_not_tls
  | true =>
      rw [https] at reached
      obtain ⟨settings, made, reached⟩ := bind_ok.mp reached
      obtain ⟨shown, -, reached⟩ := bind_ok.mp reached
      cases reached
      simp only [connectStream, valid, chosen, dialed, entered, https, made, bind, Except.bind]
      cases network.handshake (tlsSession settings target.hostOrEmpty) below with
      | error fault => rfl
      | ok shown => rfl

/-- None of the words is in it. -/
theorem requestError_hidden :
    (requestError "client error (Connect)".toList).kind = .connection := by decide +kernel

/-- The kind that a fault of the handshake gets. -/
def faultKind (config : RequestConfig) (fault : NetFault) : ErrorKind :=
  if bypassesPool config then
    if fault = .timedOut then .timeout else .tls
  else .connection

theorem AttemptEnd.kind {env : Env} {hyper : HyperUtil} (hides : hyper.HidesCause)
    {config : RequestConfig} {outcome : Outcome} {fault : NetFault}
    (ended : AttemptEnd env hyper config outcome (some fault)) :
    ∃ e, outcome = .finished (.error e) ∧ e.kind = faultKind config fault := by
  cases ended with
  | stream direct parsed reached broke ended =>
      refine ⟨_, rfl, ?_⟩
      rw [connectStream_handshake reached, broke] at ended
      cases ended
      rw [faultKind, if_pos direct]
      cases fault with
      | timedOut => rfl
      | failed reason => rfl
  | pooled indirect sent reached broke ended =>
      refine ⟨_, rfl, ?_⟩
      rw [hides, requestError_hidden, faultKind, indirect, if_neg Bool.false_ne_true]

/-! ## The attempts that are made -/

theorem mem_schedule {config : RequestConfig} {k : Nat} {n : UInt32}
    (made : .attempt n ∈ schedule config k) : n.toNat ≤ k := by
  rcases List.mem_cons.mp made with first | later
  · cases first
    exact Nat.zero_le k
  · obtain ⟨i, below, there⟩ := List.mem_flatMap.mp later
    have same : n = UInt32.ofNat (i + 1) := by simpa [retry] using there
    have bound : (UInt32.ofNat (i + 1)).toNat ≤ i + 1 := by
      rw [UInt32.toNat_ofNat']
      exact Nat.mod_le _ _
    have inside := List.mem_range.mp below
    rw [same]
    omega

/-- The attempts that are made are those up to the last one. -/
theorem send_made {config : RequestConfig} {outcomes : Nat → Outcome} {j : UInt32}
    (made : .attempt j ∈ (send config outcomes).1) :
    ∃ k, LastAttempt outcomes config.maxRetries.toNat k ∧ j.toNat ≤ k ∧
      (send config outcomes).1 = schedule config k := by
  cases valid : config.validateProxy with
  | error e =>
      simp only [send, valid] at made
      cases made
  | ok u =>
      obtain ⟨k, last, -, sent⟩ := send_attempts config outcomes valid
      rw [sent] at made ⊢
      exact ⟨k, last, mem_schedule made, rfl⟩

/-- **A failed handshake ends the request exactly off the pool.**  Whatever the retries
and however the attempts of a run end, one that ends in a failed handshake with the
target has an error of kind `Tls` and is the last if and only if the config has it go by
`connect_stream`, and the handshake did not time out. -/
theorem tlsFailure_iff (env : Env) (hyper : HyperUtil) (hides : hyper.HidesCause)
    (config : RequestConfig) (outcomes : Nat → Outcome) (faults : Nat → Option NetFault)
    (ran : ∀ i, AttemptEnd env hyper config (outcomes i) (faults i)) (j : UInt32)
    (made : .attempt j ∈ (send config outcomes).1) (fault : NetFault)
    (broke : faults j.toNat = some fault) :
    ((∃ e, outcomes j.toNat = .finished (.error e) ∧ e.kind = .tls) ∧
      ∀ n, .attempt n ∈ (send config outcomes).1 → n ≤ j) ↔
      bypassesPool config = true ∧ fault ≠ .timedOut := by
  have ended := ran j.toNat
  rw [broke] at ended
  obtain ⟨e, outcome, kind⟩ := ended.kind hides
  constructor
  · rintro ⟨⟨e', outcome', tls⟩, -⟩
    rw [outcome] at outcome'
    cases outcome'
    rw [tls, faultKind] at kind
    split at kind
    · rename_i direct
      split at kind
      · cases kind
      · rename_i answered
        exact ⟨direct, answered⟩
    · cases kind
  · rintro ⟨direct, answered⟩
    rw [faultKind, if_pos direct, if_neg answered] at kind
    refine ⟨⟨e, outcome, kind⟩, fun n made' => ?_⟩
    obtain ⟨k, last, upTo, sent⟩ := send_made made
    -- a failed handshake is not retried, so it is the last attempt
    have final : k = j.toNat := by
      rcases Nat.lt_or_eq_of_le upTo with earlier | same
      · have retried := last.retried j.toNat earlier
        rw [outcome] at retried
        rcases retried with connection | limited
        · rw [kind] at connection
          cases connection
        · rw [kind] at limited
          cases limited
      · exact same.symm
    rw [sent] at made'
    rw [UInt32.le_iff_toNat_le, ← final]
    exact mem_schedule made'

/-! A certificate that does not verify, off the pool and in it. -/

def untrustedFault : NetFault := .failed "certificate verify failed".toList

def untrustedNetwork : Network := { openNetwork with handshake := fun _ _ => .error untrustedFault }

def plainEnv : Env where
  http := { parse := plainParse, build := fun _ _ => .ok () }
  openssl := lenientOpenSsl
  psl := fun _ => none

/-- hyper-util as it is assumed to be. -/
def hidingHyper : HyperUtil where
  display
    | .connect _ => "client error (Connect)".toList
    | .other text => text

def resolvedConfig : RequestConfig := { verifyingConfig with resolveIp := some "10.0.0.1".toList }

def untrustedEnd (config : RequestConfig) : Outcome :=
  .finished (.error
    (if bypassesPool config then handshakeError config "example.com".toList untrustedFault
      else requestError "client error (Connect)".toList))

theorem resolved_untrusted :
    AttemptEnd plainEnv hidingHyper resolvedConfig (untrustedEnd resolvedConfig)
      (some untrustedFault) :=
  @AttemptEnd.stream plainEnv hidingHyper resolvedConfig exampleRoot untrustedNetwork _ _ _ _ _
    (by rfl) (by rfl) (by rfl) (by rfl) (by rfl)

theorem pooled_untrusted :
    AttemptEnd plainEnv hidingHyper verifyingConfig (untrustedEnd verifyingConfig)
      (some untrustedFault) :=
  @AttemptEnd.pooled plainEnv hidingHyper verifyingConfig
    (Walk.start verifyingConfig exampleRoot) HyperClient.new _ (fun _ _ => .ok ()) _ _ _
    untrustedNetwork _ _ _ _ (by rfl) (by rfl) (by rfl) (by rfl) (by rfl)

theorem tlsFailure_iff_resolved :
    ((∃ e, untrustedEnd resolvedConfig = .finished (.error e) ∧ e.kind = .tls) ∧
      ∀ n, .attempt n ∈ (send resolvedConfig fun _ => untrustedEnd resolvedConfig).1 → n ≤ 0) ↔
      bypassesPool resolvedConfig = true ∧ untrustedFault ≠ .timedOut :=
  tlsFailure_iff plainEnv hidingHyper (fun _ => rfl) resolvedConfig
    (fun _ => untrustedEnd resolvedConfig) (fun _ => some untrustedFault)
    (fun _ => resolved_untrusted) 0 (by decide +kernel) untrustedFault rfl

/-- Pooled, the same failure counts as a failed connection and is met twice. -/
theorem tlsFailure_retried :
    .attempt 1 ∈ (send verifyingConfig fun _ => untrustedEnd verifyingConfig).1 ∧
      ¬ ∀ (env : Env) (hyper : HyperUtil) (config : RequestConfig) (outcomes : Nat → Outcome)
        (faults : Nat → Option NetFault), hyper.HidesCause →
        (∀ i, AttemptEnd env hyper config (outcomes i) (faults i)) →
        ∀ (j : UInt32) (reason : Str), .attempt j ∈ (send config outcomes).1 →
          faults j.toNat = some (.failed reason) →
          (∃ e, outcomes j.toNat = .finished (.error e) ∧ e.kind = .tls) ∧
            ∀ n, .attempt n ∈ (send config outcomes).1 → n ≤ j := by
  have again : .attempt 1 ∈ (send verifyingConfig fun _ => untrustedEnd verifyingConfig).1 := by
    decide +kernel
  refine ⟨again, fun right => ?_⟩
  have last := (right plainEnv hidingHyper verifyingConfig
    (fun _ => untrustedEnd verifyingConfig) (fun _ => some untrustedFault) (fun _ => rfl)
    (fun _ => pooled_untrusted) 0 "certificate verify failed".toList (by decide +kernel) rfl).2
  exact absurd (last 1 again) (by decide)

end Blasthttp.Client
