import Mathlib.Data.List.ReduceOption
import Vantage.Adapters.Native.Reach
import Vantage.App.Images

/-!
# What native engines contact

The HTTP client of an engine checks each URL. The TLS analyzer opens its own
connections and checks nothing.
-/

namespace Vantage

open Adapters Adapters.Native Engines Scope

/-- The event is a contact with an endpoint that the rules of the request
cover; of a handshake only the host and the port are known. -/
def Permitted (re : RegexEngine String) (request : EngineRunRequest) : Event → Prop
  | .request method url _ =>
      ∃ scope, scopeOf request = .ok scope ∧ scope.Allows re url (some method)
  | .handshake host port _ =>
      ∃ scope, scopeOf request = .ok scope ∧ ∃ url ∈ request.seedUrls,
        Tls.targetOf url = .ok (some (host, port)) ∧ scope.Allows re url none
  | .process _ _ => False
  | .clock _ => True
  | .newId _ => True

/-- Whatever the network answers, a native engine contacts endpoints in scope. -/
def ContactsInScope (re : RegexEngine String) (request : EngineRunRequest) : Prop :=
  ∀ w : World, w.regex = re → ∀ a ∈ nativeAdapters, ∀ h : History, ∃ new,
    ((a.toEngineAdapter w).lifecycle request h).2 = new ++ h ∧ ∀ e ∈ new, Permitted re request e

/-- When the rules are valid and the seeds can be split, each host and port of
a TLS seed is also that of a seed in scope. -/
def TlsSeedsInScope (re : RegexEngine String) (request : EngineRunRequest) : Prop :=
  ∀ scope, scopeOf request = .ok scope → (∀ url ∈ request.seedUrls, ∃ t, Tls.targetOf url = .ok t) →
    ∀ url ∈ request.seedUrls, ∀ t, Tls.targetOf url = .ok (some t) →
      ∃ url' ∈ request.seedUrls, Tls.targetOf url' = .ok (some t) ∧ scope.Allows re url' none

variable {re : RegexEngine String} {request : EngineRunRequest} {w : World}
  {targets : List (String × ℤ)}

theorem mem_targetsOf (h : Tls.targetsOf request.seedUrls = .ok targets) (t : String × ℤ) :
    t ∈ targets ↔ ∃ url ∈ request.seedUrls, Tls.targetOf url = .ok (some t) := by
  obtain ⟨found, hfound, h⟩ := ExceptList.exists_of_bind_ok h
  obtain rfl := Except.ok.inj h
  rw [List.mem_insertionSort, List.mem_dedup, List.reduceOption_mem_iff]
  exact ExceptList.mem_of_mapM_eq_ok hfound

theorem split_of_targetsOf (h : Tls.targetsOf request.seedUrls = .ok targets) :
    ∀ url ∈ request.seedUrls, ∃ t, Tls.targetOf url = .ok t := by
  obtain ⟨found, hfound, -⟩ := ExceptList.exists_of_bind_ok h
  intro url hurl
  cases htarget : Tls.targetOf url with
  | ok t => exact ⟨t, rfl⟩
  | error e =>
      obtain ⟨e', he'⟩ := ExceptList.exists_mapM_eq_error hurl htarget
      rw [he'] at hfound
      exact absurd hfound (by simp)

theorem exists_targetsOf (h : ∀ url ∈ request.seedUrls, ∃ t, Tls.targetOf url = .ok t) :
    ∃ targets, Tls.targetsOf request.seedUrls = .ok targets := by
  obtain ⟨found, hfound, -⟩ := ExceptList.exists_mapM_eq_ok h
  unfold Tls.targetsOf
  rw [hfound]
  exact ⟨_, rfl⟩

/-! ## Engines behind the client -/

theorem quiet_permitted : World.Quiet (Permitted re request) :=
  ⟨fun _ ↦ True.intro, fun _ ↦ True.intro⟩

theorem permits_client {c : ScopedHttpClient} (hc : defaultClientFactory request = .ok c) :
    Permits w c (Permitted w.regex request) where
  toQuiet := quiet_permitted
  request method url outcome hallows := by
    obtain ⟨scope, hscope, hc⟩ := ExceptList.exists_of_bind_ok hc
    obtain rfl := Except.ok.inj hc
    exact ⟨scope, hscope, hallows⟩

theorem yields_all {c : ScopedHttpClient} {C : Event → Prop} :
    Crawler.Yields w c C fun _ ↦ True := ⟨by simp, by simp⟩

/-- What an engine appends to the history is permitted. -/
theorem logs_permitted (htls : TlsSeedsInScope w.regex request) {a : NativeAdapter}
    (ha : a ∈ nativeAdapters) :
    Effect.Logs (Permitted w.regex request) (fun _ ↦ True)
      ((a.toEngineAdapter w).lifecycle request) (AllReport fun _ ↦ True) := by
  apply Native.logs_lifecycle
  intro c hc
  have hpermits := permits_client (w := w) hc
  simp only [nativeAdapters, List.mem_cons, List.not_mem_nil, or_false] at ha
  rcases ha with rfl | rfl | rfl | rfl | rfl
  · exact logs_headers hpermits (by simp)
  · exact logs_fingerprint hpermits (by simp)
  · refine Tls.logs_analyze quiet_permitted (fun targets htargets t ht info ↦ ?_) (by simp)
    obtain ⟨scope, hscope, -⟩ := ExceptList.exists_of_bind_ok hc
    obtain ⟨url, hurl, htarget⟩ := (mem_targetsOf htargets t).mp ht
    exact ⟨scope, hscope, htls scope hscope (split_of_targetsOf htargets) url hurl t htarget⟩
  · exact Crawler.logs_analyze hpermits yields_all (by simp)
  · exact Effect.Logs.pure (by simp [AllReport])

/-! ## Handshakes -/

/-- No connection is answered, and patterns are compiled as given. -/
def refusing (re : RegexEngine String) : World := { refusingWorld with regex := re }

/-- When no connection is answered, all targets are tried. -/
theorem exists_handshakes (re : RegexEngine String) (request : EngineRunRequest)
    (targets : List (String × ℤ)) (h : History) :
    ∃ new, Effect.collect (Tls.analyzeTarget (refusing re) request) targets h =
        (.ok [], new ++ h) ∧ ∀ t ∈ targets, ∃ info, .handshake t.1 t.2 info ∈ new := by
  induction targets generalizing h with
  | nil => exact ⟨[], rfl, by simp⟩
  | cons t targets ih =>
      have hfirst : Tls.analyzeTarget (refusing re) request t h =
          (.ok [], .handshake t.1 t.2 ((refusing re).inspect h t.1 t.2) :: h) := rfl
      obtain ⟨new, hrest, hall⟩ := ih (.handshake t.1 t.2 ((refusing re).inspect h t.1 t.2) :: h)
      refine ⟨new ++ [.handshake t.1 t.2 ((refusing re).inspect h t.1 t.2)], ?_, ?_⟩
      · rw [Effect.collect_cons_of_ok hfirst hrest, List.append_assoc]
        rfl
      · refine List.forall_mem_cons.mpr ⟨⟨_, List.mem_append_right _ List.mem_cons_self⟩, ?_⟩
        intro t' ht'
        obtain ⟨info, hinfo⟩ := hall t' ht'
        exact ⟨info, List.mem_append_left _ hinfo⟩

theorem tls_lifecycle (re : RegexEngine String) {scope : ScopeEngine} (hscope : scopeOf request = .ok scope)
    (htargets : Tls.targetsOf request.seedUrls = .ok targets) :
    ∃ new, ((Tls.adapter.toEngineAdapter (refusing re)).lifecycle request []).2 = new ∧
      ∀ t ∈ targets, ∃ info, .handshake t.1 t.2 info ∈ new := by
  obtain ⟨new, hrun, hall⟩ := exists_handshakes re request targets []
  rw [List.append_nil] at hrun
  have hclient : defaultClientFactory request = .ok { scope := scope } := by
    unfold defaultClientFactory
    rw [hscope]
    rfl
  have hprepare : (Tls.adapter.toEngineAdapter (refusing re)).prepareTarget request [] =
      (.ok (request, { scope := scope }), []) :=
    (Effect.bind_of_ok (Effect.ofExcept_of_ok hclient _) _).trans rfl
  have hexecute : (Tls.adapter.toEngineAdapter (refusing re)).executeScan
      (request, { scope := scope }) [] = (.ok [], new) :=
    (Effect.bind_of_ok (Effect.ofExcept_of_ok htargets _) _).trans hrun
  have hlifecycle : (Tls.adapter.toEngineAdapter (refusing re)).lifecycle request [] =
      (.ok [], new) := by
    refine (Effect.bind_of_ok hprepare _).trans ?_
    exact (Effect.bind_of_ok hexecute _).trans rfl
  exact ⟨new, congrArg Prod.snd hlifecycle, hall⟩

/-! ## The law -/

theorem tlsSeedsInScope_of_contacts (h : ContactsInScope re request) :
    TlsSeedsInScope re request := by
  intro scope hscope hsplit url hurl t htarget
  obtain ⟨targets, htargets⟩ := exists_targetsOf hsplit
  have ht : t ∈ targets := (mem_targetsOf htargets t).mpr ⟨url, hurl, htarget⟩
  obtain ⟨new, hrun, hall⟩ := tls_lifecycle re hscope htargets
  obtain ⟨new', hrun', hpermitted⟩ := h (refusing re) rfl Tls.adapter (by simp [nativeAdapters]) []
  rw [List.append_nil, hrun] at hrun'
  obtain ⟨info, hinfo⟩ := hall t ht
  rw [hrun'] at hinfo
  obtain ⟨scope', hscope', url', hurl', htarget', hallows⟩ := hpermitted _ hinfo
  obtain rfl : scope = scope' := Except.ok.inj (hscope.symm.trans hscope')
  exact ⟨url', hurl', htarget', hallows⟩

/-- Native engines contact only endpoints in scope exactly when the TLS seeds
are those of seeds in scope. -/
theorem contactsInScope_iff (re : RegexEngine String) (request : EngineRunRequest) :
    ContactsInScope re request ↔ TlsSeedsInScope re request := by
  constructor
  · exact tlsSeedsInScope_of_contacts
  · rintro htls w rfl a ha h
    obtain ⟨new, hrun, hpermitted, -⟩ := logs_permitted htls ha h
    exact ⟨new, hrun, hpermitted⟩

/-! ## A seed that the rules do not cover -/

theorem twoSeeds_ne : ["https://app.example/", "https://internal.example/"] ≠ [] :=
  List.cons_ne_nil _ _

/-- The request for a target of two hosts with custom rules for one of them. -/
def twoSeedsRequest : EngineRunRequest :=
  { demoRequest with
    seedUrls := ["https://app.example/", "https://internal.example/"]
    scopeRules := [demoHost.dump]
    seedUrls_ne := twoSeeds_ne }

theorem scopeOf_twoSeedsRequest : ∃ scope, scopeOf twoSeedsRequest = .ok scope ∧
    ¬ scope.Allows (fun _ ↦ none) "https://internal.example/" none := by
  refine ⟨.fromRules [demoHost] true, rfl, ?_⟩
  decide +kernel

theorem not_contactsInScope_twoSeedsRequest :
    ¬ ContactsInScope (fun _ ↦ none) twoSeedsRequest := by
  intro h
  obtain ⟨scope, hscope, hdenied⟩ := scopeOf_twoSeedsRequest
  have happ : Tls.targetOf "https://app.example/" = .ok (some ("app.example", 443)) := by
    decide +kernel
  have hinternal : Tls.targetOf "https://internal.example/" =
      .ok (some ("internal.example", 443)) := by
    decide +kernel
  have hsplit : ∀ url ∈ twoSeedsRequest.seedUrls, ∃ t, Tls.targetOf url = .ok t :=
    List.forall_mem_cons.mpr ⟨⟨_, happ⟩, List.forall_mem_singleton.mpr ⟨_, hinternal⟩⟩
  obtain ⟨url, hurl, htarget, hallows⟩ := tlsSeedsInScope_of_contacts h scope hscope hsplit
    "https://internal.example/" (List.mem_cons_of_mem _ List.mem_cons_self) _ hinternal
  rcases List.mem_cons.mp hurl with rfl | hurl
  · rw [happ] at htarget
    exact absurd htarget (by decide)
  · rw [List.mem_singleton.mp hurl] at hallows
    exact hdenied hallows

end Vantage
