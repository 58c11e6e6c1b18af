/-
# Blasthttp.Client.ProxyText -- proxy URLs as they are written, and `parse_proxy_url`

`scheme://[user[:password]@]host[:port]path`, with the characters that separate its parts
kept out of the parts in front of them (`ProxyText`).  The parser gives the parts back
exactly where its search for the `@` ends in front of the path, which it cuts off only
afterwards (`parseProxyUrl_text`).
-/
import Blasthttp.Client.ProxyUrl

namespace Blasthttp.Client

open Blasthttp.Rust

set_option autoImplicit false

/-! ## The format -/

/-- `user[:password]`. -/
structure ProxyUser where
  user : Str
  password : Option Str
  user_plain : ':' ∉ user ∧ '@' ∉ user ∧ '/' ∉ user
  password_plain : ∀ text, password = some text → '@' ∉ text ∧ '/' ∉ text

structure ProxyText where
  written : Str
  scheme : ProxyScheme
  accepted : parseProxyScheme written = .ok scheme
  userinfo : Option ProxyUser
  host : Str
  named : host ≠ []
  host_plain : ':' ∉ host ∧ '@' ∉ host ∧ '/' ∉ host
  port : Option UInt16
  path : Str
  rooted : path = [] ∨ ∃ rest, path = '/' :: rest

def ProxyUser.text (u : ProxyUser) : Str :=
  match u.password with
  | none => u.user
  | some password => u.user ++ ':' :: password

def userText : Option ProxyUser → Str
  | none => []
  | some u => u.text ++ ['@']

def portText : Option UInt16 → Str
  | none => []
  | some port => ':' :: decimalText port.toNat

namespace ProxyText

variable (t : ProxyText)

/-- Behind `://`. -/
def rest : Str := userText t.userinfo ++ (t.host ++ portText t.port ++ t.path)

def text : Str := t.written ++ "://".toList ++ t.rest

/-- What the text is written for. -/
def meant : ProxyConfig where
  scheme := t.scheme
  host := t.host
  port := (t.port.map UInt16.toNat).getD t.scheme.defaultPort
  username := t.userinfo.map ProxyUser.user
  password := t.userinfo.bind ProxyUser.password

end ProxyText

/-! ## What the separators are kept out of -/

theorem not_mem_portText {c : Char} (other : c.isDigit = false) (colon : c ≠ ':')
    (port : Option UInt16) : c ∉ portText port := by
  cases port with
  | none => exact List.not_mem_nil
  | some port =>
      exact List.not_mem_cons_of_ne_of_not_mem colon (not_mem_decimalText other _)

theorem ProxyUser.at_not_mem (u : ProxyUser) : '@' ∉ u.text := by
  unfold ProxyUser.text
  split
  · exact u.user_plain.2.1
  · rename_i password given
    simp [u.user_plain.2.1, (u.password_plain password given).1]

theorem parseUserinfo_text (u : ProxyUser) :
    parseUserinfo (some u.text) = (some u.user, u.password) := by
  cases given : u.password with
  | none =>
      simp only [parseUserinfo, ProxyUser.text, given]
      rw [splitOnce_none u.user_plain.1]
  | some password =>
      simp only [parseUserinfo, ProxyUser.text, given]
      rw [splitOnce_append u.user_plain.1]

theorem accepted_colon {written : Str} {scheme : ProxyScheme}
    (accepted : parseProxyScheme written = .ok scheme) : ':' ∉ written := by
  intro there
  have lowered : ':' ∈ toAsciiLowercase written := List.mem_map_of_mem (f := Char.toLower) there
  rcases parseProxyScheme_ok.mp accepted with ⟨http, -⟩ | ⟨socks | socks, -⟩
  · rw [http] at lowered
    exact absurd lowered (by decide)
  · rw [socks] at lowered
    exact absurd lowered (by decide)
  · rw [socks] at lowered
    exact absurd lowered (by decide)

namespace ProxyText

variable (t : ProxyText)

theorem at_not_mem : '@' ∉ t.host ++ portText t.port := by
  rw [List.mem_append, not_or]
  exact ⟨t.host_plain.2.1, not_mem_portText (by decide) (by decide) _⟩

theorem slash_not_mem : '/' ∉ t.host ++ portText t.port := by
  rw [List.mem_append, not_or]
  exact ⟨t.host_plain.2.2, not_mem_portText (by decide) (by decide) _⟩

/-- The path is cut off at its first character. -/
theorem takeWhile_hostport :
    (t.host ++ portText t.port ++ t.path).takeWhile (· ≠ '/') = t.host ++ portText t.port := by
  have plain : ∀ c ∈ t.host ++ portText t.port, decide (c ≠ '/') = true := by
    intro c there
    exact decide_eq_true fun same => t.slash_not_mem (same ▸ there)
  rw [List.takeWhile_append_of_pos plain]
  rcases t.rooted with empty | ⟨rest, path⟩
  · rw [empty, List.takeWhile_nil, List.append_nil]
  · rw [path, List.takeWhile_cons_of_neg (by simp), List.append_nil]

theorem splitOnceStr_text : splitOnceStr "://".toList t.text = some (t.written, t.rest) :=
  splitOnceStr_append (accepted_colon t.accepted) t.rest

theorem parseHostport_text (proxyUrl : Str) :
    parseHostport proxyUrl (t.host ++ portText t.port) t.scheme =
      .ok (t.meant.host, t.meant.port) := by
  rw [parseHostport_ok]
  cases given : t.port with
  | none =>
      right
      simp [meant, portText, given, t.host_plain.1]
  | some port =>
      left
      refine ⟨decimalText port.toNat, rfl, not_mem_decimalText (by decide) _, ?_⟩
      rw [parseUnsigned_decimalText port.toNat_lt]
      simp [meant, given]

theorem splitOnce_rest {u : ProxyUser} (given : t.userinfo = some u) :
    splitOnce '@' t.rest = some (u.text, t.host ++ portText t.port ++ t.path) := by
  have shape : t.rest = u.text ++ '@' :: (t.host ++ portText t.port ++ t.path) := by
    simp [rest, userText, given]
  rw [shape, splitOnce_append u.at_not_mem]

theorem splitOnce_rest_none (given : t.userinfo = none) (plain : '@' ∉ t.path) :
    splitOnce '@' t.rest = none := by
  apply splitOnce_none
  have authority := t.at_not_mem
  simp [rest, userText, given] at authority ⊢
  exact ⟨authority.1, authority.2, plain⟩

theorem userinfoText_rest (ends : t.userinfo.isSome ∨ '@' ∉ t.path) :
    userinfoText t.rest = t.userinfo.map ProxyUser.text := by
  cases given : t.userinfo with
  | some u =>
      rw [userinfoText, t.splitOnce_rest given]
      rfl
  | none =>
      have plain : '@' ∉ t.path := by simpa [given] using ends
      rw [userinfoText, t.splitOnce_rest_none given plain]
      rfl

theorem hostportText_rest (ends : t.userinfo.isSome ∨ '@' ∉ t.path) :
    hostportText t.rest = t.host ++ portText t.port := by
  cases given : t.userinfo with
  | some u =>
      rw [hostportText, t.splitOnce_rest given]
      exact t.takeWhile_hostport
  | none =>
      have plain : '@' ∉ t.path := by simpa [given] using ends
      have shape : t.rest = t.host ++ portText t.port ++ t.path := by
        simp [rest, userText, given]
      rw [hostportText, t.splitOnce_rest_none given plain, shape]
      exact t.takeWhile_hostport

theorem parseUserinfo_meant :
    (t.meant.username, t.meant.password) =
      parseUserinfo (t.userinfo.map ProxyUser.text) := by
  cases given : t.userinfo with
  | none => simp [meant, given, parseUserinfo]
  | some u =>
      rw [Option.map_some, parseUserinfo_text]
      simp [meant, given]

/-- Without a user the first `@` of the path ends one. -/
theorem userinfoText_path (given : t.userinfo = none) (there : '@' ∈ t.path) :
    (userinfoText t.rest).isSome := by
  obtain ⟨front, back, split, first⟩ := List.eq_append_cons_of_mem there
  have shape : t.rest = (t.host ++ portText t.port ++ front) ++ '@' :: back := by
    simp [rest, userText, given, split]
  have absent : '@' ∉ t.host ++ portText t.port ++ front := by
    rw [List.mem_append, not_or]
    exact ⟨t.at_not_mem, first⟩
  rw [userinfoText, shape, splitOnce_append absent]
  rfl

end ProxyText

theorem parseUserinfo_isSome (userinfo : Option Str) :
    (parseUserinfo userinfo).1.isSome = userinfo.isSome := by
  cases userinfo with
  | none => rfl
  | some text =>
      simp only [parseUserinfo]
      cases splitOnce ':' text <;> rfl

/-- **The parser inverts the format** as long as no `@` of the path comes first. -/
theorem parseProxyUrl_text (t : ProxyText) :
    parseProxyUrl t.text = .ok t.meant ↔ t.userinfo.isSome ∨ '@' ∉ t.path := by
  constructor
  · intro read
    obtain ⟨written, rest, split, -, -, -, user⟩ := parseProxyUrl_ok.mp read
    rw [t.splitOnceStr_text] at split
    cases split
    by_contra other
    rw [not_or, not_not] at other
    obtain ⟨without, there⟩ := other
    have given : t.userinfo = none := by simpa using without
    have named := congrArg (fun pair => pair.1.isSome) user
    simp only [parseUserinfo_isSome, t.userinfoText_path given there] at named
    simp [ProxyText.meant, given] at named
  · intro ends
    refine parseProxyUrl_ok.mpr ⟨t.written, t.rest, t.splitOnceStr_text, t.accepted, ?_, t.named, ?_⟩
    · rw [t.hostportText_rest ends]
      exact t.parseHostport_text _
    · rw [t.userinfoText_rest ends]
      exact t.parseUserinfo_meant

/-! A path with an `@`. -/

def atPath : ProxyText where
  written := "http".toList
  scheme := .http
  accepted := by decide
  userinfo := none
  host := "proxy".toList
  named := by decide
  host_plain := by decide
  port := some 8080
  path := "/a@other:1".toList
  rooted := .inr ⟨_, rfl⟩

theorem parseProxyUrl_at_path :
    atPath.text = "http://proxy:8080/a@other:1".toList ∧
      atPath.meant = ⟨.http, "proxy".toList, 8080, none, none⟩ ∧
      parseProxyUrl atPath.text =
        .ok ⟨.http, "other".toList, 1, some "proxy".toList, some "8080/a".toList⟩ ∧
      ¬ ∀ t : ProxyText, parseProxyUrl t.text = .ok t.meant := by
  have read : parseProxyUrl atPath.text =
      .ok ⟨.http, "other".toList, 1, some "proxy".toList, some "8080/a".toList⟩ := by decide
  refine ⟨by decide, by decide, read, fun inverts => ?_⟩
  have same := inverts atPath
  rw [read] at same
  exact absurd same (by decide)

end Blasthttp.Client
