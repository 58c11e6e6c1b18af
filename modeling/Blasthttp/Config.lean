/-
# Blasthttp.Config -- `RequestConfig` and the proxy exclusion of `config.rs`

The fields the modelled functions read, with the source's defaults, and
`host_bypasses_proxy`.  The comparisons of `host_matches_suffix` and `ip_in_cidr` are
on characters and numbers: where the bytes agree, so do those.
-/
import Blasthttp.Rust.Duration
import Blasthttp.Rust.IpAddr

namespace Blasthttp

open Blasthttp.Rust

set_option autoImplicit false

structure RequestConfig where
  url : Str
  method : Option Str
  headers : Option (List (Str × Str))
  body : Option (List UInt8)
  timeoutSeconds : Option UInt64
  maxBodySize : Option Nat
  followRedirects : Option Bool
  maxRedirects : Option UInt32
  redirectCookies : Option Bool
  verifyCerts : Option Bool
  proxy : Option Str
  noProxy : List Str
  cipherString : Option Str
  minTlsVersion : Option Str
  maxTlsVersion : Option Str
  retries : Option UInt32
  retryWaitMinMs : Option UInt64
  retryWaitMaxMs : Option UInt64
  requestTarget : Option Str
  resolveIp : Option Str
  alpnProtocols : Option (List Str)

/-- `RequestConfig::new`. -/
def RequestConfig.new (url : Str) : RequestConfig where
  url := url
  method := none
  headers := none
  body := none
  timeoutSeconds := none
  maxBodySize := none
  followRedirects := none
  maxRedirects := none
  redirectCookies := none
  verifyCerts := none
  proxy := none
  noProxy := []
  cipherString := none
  minTlsVersion := none
  maxTlsVersion := none
  retries := none
  retryWaitMinMs := none
  retryWaitMaxMs := none
  requestTarget := none
  resolveIp := none
  alpnProtocols := none

namespace RequestConfig

/-- `method()`; the name with the suffix is the method sent. -/
def methodOrGet (config : RequestConfig) : Str := config.method.getD "GET".toList

def timeout (config : RequestConfig) : UInt64 := config.timeoutSeconds.getD 10

def maxBody (config : RequestConfig) : Nat := config.maxBodySize.getD (10 * 1024 * 1024)

def shouldFollowRedirects (config : RequestConfig) : Bool := config.followRedirects.getD false

def redirectLimit (config : RequestConfig) : UInt32 := config.maxRedirects.getD 10

def shouldForwardRedirectCookies (config : RequestConfig) : Bool :=
  config.redirectCookies.getD true

def shouldVerifyCerts (config : RequestConfig) : Bool := config.verifyCerts.getD false

def maxRetries (config : RequestConfig) : UInt32 := config.retries.getD 1

def retryWaitMin (config : RequestConfig) : Duration :=
  .fromMillis (config.retryWaitMinMs.getD 1000)

def retryWaitMax (config : RequestConfig) : Duration :=
  .fromMillis (config.retryWaitMaxMs.getD 30000)

/-- `config.headers.as_deref().unwrap_or(&[])`. -/
def headerList (config : RequestConfig) : List (Str × Str) := config.headers.getD []

end RequestConfig

/-! ## `no_proxy` -/

/-- `host` is `suffix`, or ends in a dot and `suffix`, in any letter case. -/
def hostMatchesSuffix (host suffix : Str) : Bool :=
  if host.length = suffix.length then eqIgnoreAsciiCase host suffix
  else if suffix.length < host.length ∧ host[host.length - suffix.length - 1]? = some '.' then
    eqIgnoreAsciiCase (host.drop (host.length - suffix.length)) suffix
  else false

/-- `u32::MAX << (32 - prefix_len)` and its 128-bit sibling. -/
def cidrMask (width prefixLen : Nat) : Nat := ((2 ^ width - 1) <<< (width - prefixLen)) % 2 ^ width

def sameBlock (width ip net prefixLen : Nat) : Bool :=
  if width < prefixLen then false
  else if prefixLen = 0 then true
  else ip &&& cidrMask width prefixLen = net &&& cidrMask width prefixLen

def ipInCidr : IpAddr → IpAddr → Nat → Bool
  | .v4 ip, .v4 net, prefixLen => sameBlock 32 ip net prefixLen
  | .v6 ip, .v6 net, prefixLen => sameBlock 128 ip net prefixLen
  | _, _, _ => false

/-- Drop the brackets of an IPv6 literal. -/
def stripBrackets (host : Str) : Str :=
  match host with
  | '[' :: rest => if rest.getLast? = some ']' then rest.dropLast else host
  | _ => host

/-- One trimmed pattern against a host that may be an address. -/
def patternMatches (host : Str) (hostIp : Option IpAddr) (pattern : Str) : Bool :=
  if pattern.isEmpty then false
  else if pattern = ['*'] then true
  else
    match splitOnce '/' pattern with
    | some (net, prefixLen) =>
        match hostIp, IpAddr.parse (trim net), parseUnsigned 8 (trim prefixLen) with
        | some ip, some netIp, some len => ipInCidr ip netIp len
        | _, _, _ => false
    | none =>
        match IpAddr.parse pattern with
        | some patternIp => hostIp = some patternIp
        | none =>
            -- an address never matches a name
            if hostIp.isSome then false
            else
              let suffix :=
                ((pattern.dropWhile (· = '*')).dropWhile (· = '.')).rdropWhile (· = '.')
              !suffix.isEmpty && hostMatchesSuffix host suffix

def hostBypassesProxy (host : Str) (patterns : List Str) : Bool :=
  if host.isEmpty then false
  else
    let host := stripBrackets host
    let hostIp := IpAddr.parse host
    let host := host.rdropWhile (· = '.')
    patterns.any fun pattern => patternMatches host hostIp (trim pattern)

/-- The proxy for a request to `targetHost`, unless the host is excluded from it. -/
def RequestConfig.effectiveProxy (config : RequestConfig) (targetHost : Str) : Option Str :=
  match config.proxy with
  | none => none
  | some proxy => if hostBypassesProxy targetHost config.noProxy then none else some proxy

/-- `no_proxy` without a proxy is an error. -/
def RequestConfig.validateProxy (config : RequestConfig) : Except Str Unit :=
  let proxySet :=
    match config.proxy with
    | some proxy => !(trim proxy).isEmpty
    | none => false
  if !config.noProxy.isEmpty && !proxySet then
    .error ("no_proxy is set but no proxy is configured; no_proxy only has an effect " ++
      "when a proxy is also set").toList
  else .ok ()

/-- A proxy is used exactly when one is set and the host is not excluded. -/
theorem RequestConfig.effectiveProxy_eq_some {config : RequestConfig} {host proxy : Str} :
    config.effectiveProxy host = some proxy ↔
      config.proxy = some proxy ∧ hostBypassesProxy host config.noProxy = false := by
  unfold RequestConfig.effectiveProxy
  cases config.proxy with
  | none => simp
  | some p => cases hostBypassesProxy host config.noProxy <;> simp

end Blasthttp
