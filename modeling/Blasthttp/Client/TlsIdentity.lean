/-
# Blasthttp.Client.TlsIdentity -- whom a TLS session is made with

Both connectors ask of the text of `Uri::host` whether it is an address, and both get
the same answer as a reader of the URI for every host but an IPv6 literal: that one is
sent as a server name, and the certificate is checked for that name
(`tlsIdentity_iff`).
-/
import Blasthttp.Client.TlsLayers
import Blasthttp.Http.HostLiteral

namespace Blasthttp.Client

open Blasthttp.Rust Blasthttp.Http

set_option autoImplicit false

/-- The identity that a URI with this host names. -/
def namedIdentity (host : Str) : Identity :=
  match hostLiteral host with
  | some ip => .ip ip
  | none => .host host

/-- A server name exactly for hosts that have one, and the check of the certificate
against the kind of host there is. -/
structure IdentifiesHost (host : Str) (session : TlsSession) : Prop where
  sni : session.sni = if (hostLiteral host).isSome then none else some host
  identity : session.settings.verify = true → session.identity = some (namedIdentity host)

/-- The outermost layer is TLS, made for the host. -/
def TlsFor (host : Str) (stream : Stream) : Prop :=
  ∃ session inner, stream = .tls session inner ∧ IdentifiesHost host session

/-- The block that both connectors have a copy of. -/
theorem tlsSession_identifies {host : Str} (keeps : KeepsBrackets host) (settings : SslSettings) :
    IdentifiesHost host (tlsSession settings host) ↔ ∀ bits, hostLiteral host ≠ some (.v6 bits) := by
  constructor
  · rintro ⟨sni, -⟩ bits literal
    have named : sniOf host = some host := by
      rw [sniOf, parse_of_v6 literal]
      rfl
    rw [literal] at sni
    have unnamed : sniOf host = none := sni
    rw [named] at unnamed
    cases unnamed
  · intro notV6
    have same := (parse_eq_hostLiteral keeps).mpr notV6
    refine ⟨?_, ?_⟩
    · show sniOf host = _
      rw [sniOf, same]
    · intro verify
      show (if settings.verify = true then some (identityOf host) else none) = _
      have verifies : settings.verify = true := verify
      rw [if_pos verifies]
      cases literal : hostLiteral host with
      | none => simp only [identityOf, namedIdentity, same, literal]
      | some ip => simp only [identityOf, namedIdentity, same, literal]

/-- **TLS follows the kind of host**, whatever the connector, its settings and the network,
exactly where the host is no IPv6 literal. -/
theorem tlsIdentity_iff {target : Uri} {host : Str} (https : target.isHttps = true)
    (named : target.host = some host) (keeps : KeepsBrackets host) :
    (∀ (connector : OpenSslConnector) (network : Network) (stream : Stream),
      (connector.call network target).stream = .ok stream →
        (TlsFor host stream ↔ ∀ bits, hostLiteral host ≠ some (.v6 bits))) ∧
    (∀ (openssl : OpenSsl) (network : Network) (config : RequestConfig) (stream : Stream)
      (cert : Option CertInfo), connectStream openssl network config target = .ok (stream, cert) →
        (TlsFor host stream ↔ ∀ bits, hostLiteral host ≠ some (.v6 bits))) := by
  have text : target.hostOrEmpty = host := by rw [Uri.hostOrEmpty, named]; rfl
  have decided : ∀ settings inner, TlsFor host (.tls (tlsSession settings host) inner) ↔
      ∀ bits, hostLiteral host ≠ some (.v6 bits) := by
    intro settings inner
    rw [← tlsSession_identifies keeps settings]
    constructor
    · rintro ⟨session, below, same, identifies⟩
      cases same
      exact identifies
    · intro identifies
      exact ⟨_, inner, rfl, identifies⟩
  refine ⟨?_, ?_⟩
  · intro connector network stream connected
    rw [call_tls https connected, text]
    exact decided _ _
  · intro openssl network config stream cert connected
    obtain ⟨settings, proxy, below, -, -, rfl⟩ := connectStream_tls https connected
    rw [text]
    exact decided _ _

theorem tlsIdentity_iff_example :
    (∀ (connector : OpenSslConnector) (network : Network) (stream : Stream),
      (connector.call network exampleRoot).stream = .ok stream →
        (TlsFor "example.com".toList stream ↔
          ∀ bits, hostLiteral "example.com".toList ≠ some (.v6 bits))) ∧
    (∀ (openssl : OpenSsl) (network : Network) (config : RequestConfig) (stream : Stream)
      (cert : Option CertInfo),
      connectStream openssl network config exampleRoot = .ok (stream, cert) →
        (TlsFor "example.com".toList stream ↔
          ∀ bits, hostLiteral "example.com".toList ≠ some (.v6 bits))) :=
  tlsIdentity_iff (by decide) (by decide) (by decide +kernel)

/-- `[::1]` goes out as a server name, and the certificate has to be for it. -/
theorem tls_v6_by_name :
    (verifyingConnector.call openNetwork v6Root).stream =
        .ok (.tls ⟨some "[::1]".toList, some (.host "[::1]".toList), verifyingConnector.ssl⟩
          (.tcp "[::1]".toList 443)) ∧
      (∃ settings, connectStream lenientOpenSsl openNetwork verifyingConfig v6Root =
        .ok (.tls ⟨some "[::1]".toList, some (.host "[::1]".toList), settings⟩
          (.tcp "[::1]".toList 443), none)) ∧
      ¬ ∀ (target : Uri) (host : Str), target.isHttps = true → target.host = some host →
        KeepsBrackets host → ∀ (connector : OpenSslConnector) (network : Network) (stream : Stream),
          (connector.call network target).stream = .ok stream → TlsFor host stream := by
  have literal : hostLiteral "[::1]".toList = some (.v6 1) := by decide +kernel
  have pooled : (verifyingConnector.call openNetwork v6Root).stream =
      .ok (.tls ⟨some "[::1]".toList, some (.host "[::1]".toList), verifyingConnector.ssl⟩
        (.tcp "[::1]".toList 443)) := by decide +kernel
  refine ⟨pooled, ⟨_, by rfl⟩, fun right => ?_⟩
  obtain ⟨session, inner, same, identifies⟩ :=
    right v6Root "[::1]".toList (by decide) (by decide) (by decide +kernel) _ _ _ pooled
  cases same
  have sni := identifies.sni
  rw [literal] at sni
  cases sni

end Blasthttp.Client
