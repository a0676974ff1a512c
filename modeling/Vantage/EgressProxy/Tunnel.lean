import Vantage.EgressProxy.Scope

/-!
# CONNECT tunnels

A tunnel is decided once, on the root path and without a method; what runs
through it afterwards is not seen. This file says which rule lists make that
one decision good for every later request.
-/

namespace Vantage.EgressProxy

open Text

variable {re : Scope.RegexEngine (List UInt8)} {rules : List ScopeRule} {authorized : Bool}

/-- The target of a CONNECT request. -/
structure Authority where
  host : HostText
  port : Option (List Char)
  host_ok : host.Valid
  port_ok : ∀ digits ∈ port, ∀ c ∈ digits, isAsciiDigit c = true

/-- A path that a request can carry: one whose escapes decode. -/
structure RequestPath where
  text : String
  bytes : List UInt8
  path_start : text = "" ∨ text.toList.head? = some '/'
  path_ok : ∀ c ∈ text.toList, c ≠ '?' ∧ c ≠ '#' ∧ Url.isUnsafe c = false
  decodes : decodedPath text = some bytes

def rootPath : RequestPath := ⟨"/", Utf8.encode ['/'], by decide, by decide, by decide⟩

/-- `"https://" + host + path`. -/
def Authority.url (a : Authority) (path : RequestPath) : WebUrl where
  scheme := "https"
  host := a.host
  port := a.port
  path := path.text
  scheme_ok := by decide
  host_ok := a.host_ok
  port_ok := a.port_ok
  path_start := path.path_start
  path_ok := path.path_ok

inductive ConnectResult where
  | outOfScope (reason : String)
  | dialFailed
  | hijackUnsupported
  | hijackFailed
  | established
deriving DecidableEq, Repr

/-- The two last arguments are what the network and the server library answer. -/
def handleConnect (re : Scope.RegexEngine (List UInt8)) (scope : ScopeEngine) (a : Authority)
    (dialed : Bool) (hijacked : Option Bool) : ConnectResult :=
  let d := scope.check re (a.url rootPath) ""
  if !d.allowed then .outOfScope ("out of scope: " ++ d.reason)
  else if !dialed then .dialFailed
  else
    match hijacked with
    | none => .hijackUnsupported
    | some false => .hijackFailed
    | some true => .established

/-- Every request that an established tunnel can carry is in scope. -/
def TunnelSafe (re : Scope.RegexEngine (List UInt8)) (rules : List ScopeRule) (authorized : Bool)
    (a : Authority) : Prop :=
  ∀ dialed hijacked,
    handleConnect re (newScopeEngine rules authorized) a dialed hijacked = .established →
      ∀ (path : RequestPath) (method : String), method ≠ "" →
        (newScopeEngine rules authorized).allows re (a.url path) method = true

/-! ## Later requests -/

/-- The origin of the tunnel with another path and method. -/
def request (v : ParsedUrl) (path : RequestPath) (method : String) : ParsedUrl :=
  { v with path := orRoot path.bytes, method := upper method }

theorem parseUrl_request (a : Authority) (path : RequestPath) (method : String) :
    parseUrl (a.url path) method =
      (parseUrl (a.url rootPath) "").map (request · path method) := by
  have hroot : decodedPath (a.url rootPath).path = some rootPath.bytes := rootPath.decodes
  have hpath : decodedPath (a.url path).path = some path.bytes := path.decodes
  have hport : urlPort (lower (a.url path).scheme) (a.url path) =
      urlPort (lower (a.url rootPath).scheme) (a.url rootPath) := rfl
  unfold parseUrl
  simp only [hroot, hpath, hport, Option.bind_eq_bind, Option.bind_some]
  cases urlPort (lower (a.url rootPath).scheme) (a.url rootPath) with
  | none => rfl
  | some port =>
      simp only [Option.bind_some]
      split_ifs <;> rfl

/-- Some request method passes the method list of the rule. -/
def SomeMethod (r : ScopeRule) : Prop :=
  ∀ ms ∈ r.methods, ∃ m ∈ ms, m ≠ "" ∧ upper m = m

theorem exists_methodMatches {r : ScopeRule} (h : SomeMethod r) :
    ∃ method, method ≠ "" ∧ methodMatches r.methods (upper method) = true := by
  unfold methodMatches
  cases hms : r.methods with
  | none => exact ⟨"GET", by decide, rfl⟩
  | some ms =>
      obtain ⟨m, hm, hne, hupper⟩ := h ms (by simp [hms])
      exact ⟨m, hne, by simp [hupper, hm]⟩

theorem upper_ne_empty {method : String} (h : method ≠ "") : upper method ≠ "" := by
  intro hupper
  apply h
  rw [← String.toList_inj] at hupper ⊢
  simpa using hupper

theorem methodMatches_eq_false {r : ScopeRule} (h : ¬ SomeMethod r) {method : String}
    (hne : method ≠ "") : methodMatches r.methods (upper method) = false := by
  unfold methodMatches
  cases hms : r.methods with
  | none => exact (h fun ms hmem ↦ by simp [hms] at hmem).elim
  | some ms =>
      have hupper := upper_ne_empty hne
      have hnotMem : upper method ∉ ms := by
        intro hmem
        apply h
        intro ms' hms'
        obtain rfl : ms = ms' := by simpa [hms] using hms'
        exact ⟨upper method, hmem, hupper, upper_upper method⟩
      simp [hupper, hnotMem]

/-- A method that no rule lists. -/
theorem exists_unlisted_method (rules : List ScopeRule) :
    ∃ method, method ≠ "" ∧ ∀ r ∈ rules, methodMatches r.methods (upper method) = true →
      r.methods = none := by
  obtain ⟨bound, hbound⟩ : ∃ bound, ∀ r ∈ rules, ∀ ms ∈ r.methods, ∀ m ∈ ms, m.length ≤ bound := by
    induction rules with
    | nil => exact ⟨0, by simp⟩
    | cons r rules ih =>
        obtain ⟨bound, hbound⟩ := ih
        refine ⟨bound + ((r.methods.getD []).map String.length).sum, ?_⟩
        intro r' hr' ms hms m hm
        rcases List.mem_cons.mp hr' with rfl | hr'
        · have hle := List.le_sum_of_mem (List.mem_map_of_mem (f := String.length) hm)
          obtain ⟨rfl⟩ : (r'.methods.getD []) = ms := by
            simp [Option.mem_def.mp hms]
          omega
        · have hle := hbound r' hr' ms hms m hm
          omega
  refine ⟨String.ofList (List.replicate (bound + 1) 'A'), ?_, ?_⟩
  · intro hempty
    have hlen := congrArg String.length hempty
    simp at hlen
  · intro r hr hmatch
    cases hms : r.methods with
    | none => rfl
    | some ms =>
        have hupper : upper (String.ofList (List.replicate (bound + 1) 'A')) =
            String.ofList (List.replicate (bound + 1) 'A') := by
          apply String.toList_injective
          simp
        rw [hupper, hms] at hmatch
        simp only [methodMatches, Bool.or_eq_true, beq_iff_eq, List.contains_iff_mem] at hmatch
        rcases hmatch with hempty | hmem
        · have hlen := congrArg String.length hempty
          simp at hlen
        · have hle := hbound r hr ms (by simp [hms]) _ hmem
          simp at hle

/-! ## When the one decision is good for all -/

/-- The exclude rules of the origin match no path, and every path is matched by
another rule of the origin that has no method list. -/
structure CoversOrigin (re : Scope.RegexEngine (List UInt8)) (rules : List ScopeRule)
    (v : ParsedUrl) : Prop where
  no_exclude : ∀ r ∈ rules, isExclude r = true → originMatches r v = true → SomeMethod r →
    ∀ path : RequestPath, pathMatches re r (orRoot path.bytes) = false
  includes : ∀ path : RequestPath, ∃ r ∈ rules, isExclude r = false ∧ originMatches r v = true ∧
    r.methods = none ∧ pathMatches re r (orRoot path.bytes) = true

theorem CoversOrigin.rulesCover {v : ParsedUrl} (h : CoversOrigin re rules v) (path : RequestPath)
    {method : String} (hne : method ≠ "") : RulesCover re rules (request v path method) := by
  refine ⟨fun r hr hkind ↦ ?_, ?_⟩
  · change (originMatches r v && pathMatches re r (orRoot path.bytes) &&
      methodMatches r.methods (upper method)) = false
    cases horigin : originMatches r v with
    | false => rfl
    | true =>
        by_cases hmethod : SomeMethod r
        · rw [h.no_exclude r hr hkind horigin hmethod path]
          rfl
        · rw [methodMatches_eq_false hmethod hne, Bool.and_false]
  · obtain ⟨r, hr, hkind, horigin, hmethods, hpath⟩ := h.includes path
    refine ⟨r, hr, hkind, ?_⟩
    change (originMatches r v && pathMatches re r (orRoot path.bytes) &&
      methodMatches r.methods (upper method)) = true
    simp [horigin, hpath, hmethods, methodMatches]

theorem coversOrigin_of_rulesCover {v : ParsedUrl}
    (h : ∀ (path : RequestPath) (method : String), method ≠ "" →
      RulesCover re rules (request v path method)) : CoversOrigin re rules v := by
  constructor
  · intro r hr hkind horigin hmethod path
    obtain ⟨method, hne, hmatch⟩ := exists_methodMatches hmethod
    have hfalse := (h path method hne).1 r hr hkind
    change (originMatches r v && pathMatches re r (orRoot path.bytes) &&
      methodMatches r.methods (upper method)) = false at hfalse
    simpa [horigin, hmatch] using hfalse
  · intro path
    obtain ⟨method, hne, hnone⟩ := exists_unlisted_method rules
    obtain ⟨r, hr, hkind, hmatch⟩ := (h path method hne).2
    change (originMatches r v && pathMatches re r (orRoot path.bytes) &&
      methodMatches r.methods (upper method)) = true at hmatch
    simp only [Bool.and_eq_true] at hmatch
    exact ⟨r, hr, hkind, hmatch.1.1, hnone r hr hmatch.2, hmatch.1.2⟩

theorem handleConnect_eq_established (re : Scope.RegexEngine (List UInt8)) (scope : ScopeEngine)
    (a : Authority) :
    (∃ dialed hijacked, handleConnect re scope a dialed hijacked = .established) ↔
      scope.allows re (a.url rootPath) "" = true := by
  unfold handleConnect ScopeEngine.allows
  constructor
  · rintro ⟨dialed, hijacked, h⟩
    by_contra hdenied
    rw [Bool.not_eq_true] at hdenied
    simp only [hdenied, Bool.not_false, if_true] at h
    exact ConnectResult.noConfusion h
  · intro hallowed
    exact ⟨true, some true, by simp [hallowed]⟩

def appInclude : ScopeRule where
  kind := "include"
  host := "app.example"
  schemes := []
  ports := none
  pathPrefix := "/"
  pathRegex := none
  methods := none

def adminExclude : ScopeRule := { appInclude with kind := "exclude", pathPrefix := "/admin" }

theorem appHost_valid : (HostText.name "app.example".toList).Valid := by decide

def appAuthority : Authority where
  host := .name "app.example".toList
  port := some "443".toList
  host_ok := appHost_valid
  port_ok := by decide

def adminPath : RequestPath :=
  ⟨"/admin", Utf8.encode "/admin".toList, by decide, by decide, by decide⟩

end Vantage.EgressProxy
