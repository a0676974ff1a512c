import Vantage.Adapters.External.Burp
import Vantage.App.Images
import Vantage.Scan.ValidationStage

/-!
# Where the verdict CONFIRMED comes from

No shipped adapter emits a confirmed observation, so that only validation can
confirm a finding.
-/

namespace Vantage

open Adapters Adapters.Native Adapters.Oss Adapters.External Engines Findings Scan

/-! ## Container engines -/

/-- No report on a record claims to be confirmed. -/
def NeverConfirmed (x : Except PyError (List Report)) : Prop :=
  ∀ reports, x = .ok reports → ∀ r ∈ reports, r.confidence ≠ .confirmed

theorem NeverConfirmed.ok {reports : List Report} (h : ∀ r ∈ reports, r.confidence ≠ .confirmed) :
    NeverConfirmed (.ok reports) := by
  rintro reports' ⟨⟩
  exact h

theorem NeverConfirmed.bind {α : Type} {x : Except PyError α}
    {f : α → Except PyError (List Report)} (h : ∀ a, NeverConfirmed (f a)) :
    NeverConfirmed (x >>= f) := by
  intro reports hreports
  obtain ⟨a, -, hrest⟩ := ExceptList.exists_of_bind_ok hreports
  exact h a reports hrest

theorem NeverConfirmed.ite {p : Prop} [Decidable p] {x y : Except PyError (List Report)}
    (hx : NeverConfirmed x) (hy : NeverConfirmed y) : NeverConfirmed (if p then x else y) := by
  split_ifs
  · exact hx
  · exact hy

theorem NeverConfirmed.nil : NeverConfirmed (.ok []) := NeverConfirmed.ok (by simp)

theorem tentative_ne_confirmed : Confidence.tentative ≠ .confirmed := by decide

theorem neverConfirmed_nuclei (rec : Record) : NeverConfirmed (Nuclei.reportOf rec) := by
  refine NeverConfirmed.bind fun cwes ↦ NeverConfirmed.bind fun location ↦ NeverConfirmed.ok ?_
  exact List.forall_mem_singleton.mpr tentative_ne_confirmed

/-- A value that is looked up is one of the values of the map, or the default. -/
theorem lookup_ne_confirmed {map : List (String × Confidence)}
    (h : ∀ entry ∈ map, entry.2 ≠ .confirmed) (key : String) :
    (map.lookup key).getD .tentative ≠ .confirmed := by
  cases hlookup : map.lookup key with
  | none => decide
  | some c =>
      obtain ⟨l₁, l₂, rfl, -⟩ := List.lookup_eq_some_iff.mp hlookup
      exact h (key, c) (by simp)

theorem confMap_ne : ∀ entry ∈ Zap.confMap, entry.2 ≠ .confirmed := by decide

theorem neverConfirmed_zap (alert : Record) : NeverConfirmed (Zap.reportOf alert) := by
  refine NeverConfirmed.bind fun cwes ↦ NeverConfirmed.bind fun first ↦ ?_
  refine NeverConfirmed.bind fun location ↦ NeverConfirmed.bind fun count ↦ NeverConfirmed.ok ?_
  intro r hr
  rw [List.mem_singleton.mp hr]
  exact lookup_ne_confirmed confMap_ne _

theorem neverConfirmed_resource (engine : ContainerEngine) (noHost lengthKey : String)
    (rec : Record) : NeverConfirmed (resourceReport engine noHost lengthKey rec) := by
  refine NeverConfirmed.bind fun status ↦ NeverConfirmed.ite NeverConfirmed.nil ?_
  refine NeverConfirmed.bind fun location ↦ NeverConfirmed.ok ?_
  exact List.forall_mem_singleton.mpr tentative_ne_confirmed

theorem neverConfirmed_katana (entry : String × String) :
    NeverConfirmed (Katana.reportOf entry) := by
  refine NeverConfirmed.bind fun location ↦ NeverConfirmed.ite NeverConfirmed.nil ?_
  exact NeverConfirmed.ok (List.forall_mem_singleton.mpr tentative_ne_confirmed)

theorem neverConfirmed_httpx (rec : Record) : NeverConfirmed (Httpx.reportOf rec) := by
  refine NeverConfirmed.ite NeverConfirmed.nil ?_
  refine NeverConfirmed.bind fun location ↦ NeverConfirmed.ok fun r hr ↦ ?_
  obtain ⟨tech, -, rfl⟩ := List.mem_map.mp hr
  exact tentative_ne_confirmed

theorem neverConfirmed_subfinder (rec : Record) : NeverConfirmed (Subfinder.reportOf rec) := by
  refine NeverConfirmed.ok fun r hr ↦ ?_
  rw [List.mem_singleton.mp (List.mem_ite_nil_left.mp hr).2]
  exact tentative_ne_confirmed

theorem neverConfirmed_dnsx (rec : Record) : NeverConfirmed (Dnsx.reportOf rec) := by
  refine NeverConfirmed.ok fun r hr ↦ ?_
  rw [List.mem_singleton.mp (List.mem_ite_nil_left.mp hr).2]
  exact tentative_ne_confirmed

theorem neverConfirmed_tlsx (rec : Record) : NeverConfirmed (Tlsx.reportOf rec) := by
  refine NeverConfirmed.bind fun port ↦ NeverConfirmed.ok fun r hr ↦ ?_
  rcases List.mem_append.mp hr with hr | hr
  · rcases List.mem_append.mp hr with hr | hr
    · rw [List.mem_singleton.mp (List.mem_ite_nil_right.mp hr).2]
      exact tentative_ne_confirmed
    · rw [List.mem_singleton.mp (List.mem_ite_nil_right.mp hr).2]
      exact tentative_ne_confirmed
  · rw [List.mem_singleton.mp (List.mem_ite_nil_right.mp hr).2]
    exact tentative_ne_confirmed

theorem neverConfirmed_gitleaks (host : String) (rec : Record) :
    NeverConfirmed (Gitleaks.reportOf host rec) :=
  NeverConfirmed.ok (List.forall_mem_singleton.mpr tentative_ne_confirmed)

variable {w : World} {version : String} {request : EngineRunRequest}

theorem returns_normalizeRecords {ρ : Type} {e : EngineId}
    {reportsOf : ρ → Except PyError (List Report)} (h : ∀ record, NeverConfirmed (reportsOf record))
    (records : List ρ) :
    Effect.Returns (normalizeRecords w e version request reportsOf records) fun obs ↦
      ∀ o ∈ obs, o.confidence ≠ .confirmed :=
  normalizeRecords_confidence (Q := (· ≠ .confirmed)) fun record _ ↦ h record

/-- The observations of a container engine, whatever its records are. -/
theorem returns_container {a : ContainerAdapter} (ha : a ∈ ossAdapters) (records : List Record) :
    Effect.Returns (a.normalize w version request records) fun obs ↦
      ∀ o ∈ obs, o.confidence ≠ .confirmed := by
  simp only [ossAdapters, List.mem_cons, List.not_mem_nil, or_false] at ha
  rcases ha with rfl | rfl | rfl | rfl | rfl | rfl | rfl | rfl | rfl | rfl
  · exact returns_normalizeRecords neverConfirmed_nuclei records
  · exact returns_normalizeRecords (neverConfirmed_resource _ _ _) records
  · exact returns_normalizeRecords neverConfirmed_katana _
  · exact returns_normalizeRecords neverConfirmed_httpx records
  · exact returns_normalizeRecords (neverConfirmed_resource _ _ _) records
  · exact returns_normalizeRecords neverConfirmed_zap records
  · refine Effect.Returns.bind (Effect.Returns.trivial _) fun host _ ↦ ?_
    exact returns_normalizeRecords (neverConfirmed_gitleaks host) records
  · exact returns_normalizeRecords neverConfirmed_subfinder records
  · exact returns_normalizeRecords neverConfirmed_dnsx records
  · exact returns_normalizeRecords neverConfirmed_tlsx records

/-! ## The external service -/

theorem confidenceMap_ne : ∀ entry ∈ BurpAdapter.confidenceMap, entry.2 ≠ .confirmed := by decide

theorem neverConfirmed_burp (issue : Json) : NeverConfirmed (BurpAdapter.reportOf issue) := by
  cases issue with
  | obj issue =>
      refine NeverConfirmed.bind fun cwes ↦ NeverConfirmed.bind fun name ↦ ?_
      refine NeverConfirmed.bind fun location ↦ NeverConfirmed.ok fun r hr ↦ ?_
      rw [List.mem_singleton.mp hr]
      exact lookup_ne_confirmed confidenceMap_ne _
  | _ => exact fun reports h ↦ absurd h (by simp [BurpAdapter.reportOf])

theorem returns_burp (b : BurpAdapter) (records : List Json) :
    Effect.Returns (b.normalize w request records) fun obs ↦
      ∀ o ∈ obs, o.confidence ≠ .confirmed :=
  returns_normalizeRecords neverConfirmed_burp records

/-! ## Native engines -/

theorem returns_headers (client : ScopedHttpClient) (url : String) :
    Effect.Returns (Headers.analyzeSeed w request client url) fun obs ↦
      ∀ o ∈ obs, o.confidence = .tentative := by
  refine Effect.Returns.bind (Effect.Returns.trivial _) fun res _ ↦ ?_
  split_ifs
  · exact Effect.Returns.pure (by simp)
  · exact Effect.Returns.bind (Effect.Returns.trivial _) fun loc _ ↦ newObservations_confidence

theorem returns_fingerprint (client : ScopedHttpClient) (url : String) :
    Effect.Returns (Fingerprint.analyzeSeed w request client url) fun obs ↦
      ∀ o ∈ obs, o.confidence = .tentative := by
  refine Effect.Returns.bind (Effect.Returns.trivial _) fun res _ ↦ ?_
  split_ifs
  · exact Effect.Returns.pure (by simp)
  · exact Effect.Returns.bind (Effect.Returns.trivial _) fun loc _ ↦ newObservations_confidence

theorem returns_evaluate (info : TlsInfo) :
    Effect.Returns (Tls.evaluate w request info) fun obs ↦ ∀ o ∈ obs, o.confidence = .tentative := by
  unfold Tls.evaluate
  split_ifs
  · exact Effect.Returns.pure (by simp)
  · refine Effect.Returns.bind newObservations_confidence fun protocol hprotocol ↦ ?_
    have hrest : ∀ expiry : List Observation, (∀ o ∈ expiry, o.confidence = .tentative) →
        Effect.Returns (do
          let selfSigned ← newObservations w Tls.engine request (Tls.selfSignedFindings info)
          pure (protocol ++ expiry ++ selfSigned) : Action (List Observation)) fun obs ↦
            ∀ o ∈ obs, o.confidence = .tentative := by
      intro expiry hexpiry
      refine Effect.Returns.bind newObservations_confidence fun selfSigned hselfSigned ↦ ?_
      refine Effect.Returns.pure fun o ho ↦ ?_
      rcases List.mem_append.mp ho with ho | ho
      · exact (List.mem_append.mp ho).elim (hprotocol o) (hexpiry o)
      · exact hselfSigned o ho
    cases info.notAfter with
    | none => exact hrest [] (by simp)
    | some notAfter =>
        refine Effect.Returns.bind (Effect.Returns.trivial _) fun now _ ↦ ?_
        exact Effect.Returns.bind newObservations_confidence hrest

theorem returns_reportEndpoint (entry : String × String) :
    Effect.Returns (Crawler.reportEndpoint w request entry) fun obs ↦
      ∀ o ∈ obs, o.confidence = .tentative := by
  refine Effect.Returns.bind (Effect.Returns.trivial _) fun loc _ ↦ ?_
  split_ifs
  · exact Effect.Returns.pure (by simp)
  · exact newObservations_confidence

/-- What the analysis of a native engine finds. -/
theorem returns_native {a : NativeAdapter} (ha : a ∈ nativeAdapters) (client : ScopedHttpClient) :
    Effect.Returns (a.analyze w request client) fun obs ↦
      ∀ o ∈ obs, o.confidence = .tentative := by
  simp only [nativeAdapters, List.mem_cons, List.not_mem_nil, or_false] at ha
  rcases ha with rfl | rfl | rfl | rfl | rfl
  · exact Effect.Returns.collect fun url _ ↦ returns_headers client url
  · exact Effect.Returns.collect fun url _ ↦ returns_fingerprint client url
  · refine Effect.Returns.bind (Effect.Returns.trivial _) fun targets _ ↦ ?_
    refine Effect.Returns.collect fun target _ ↦ ?_
    exact Effect.Returns.bind (Effect.Returns.trivial _) fun info _ ↦ returns_evaluate info
  · refine Effect.Returns.bind (Effect.Returns.trivial _) fun maxPages _ ↦ ?_
    refine Effect.Returns.bind (Effect.Returns.trivial _) fun maxDepth _ ↦ ?_
    refine Effect.Returns.bind (Effect.Returns.trivial _) fun found _ ↦ ?_
    exact Effect.Returns.collect fun entry _ ↦ returns_reportEndpoint entry
  · exact Effect.Returns.pure (by simp)

/-! ## What is emitted -/

/-- The adapter normalizes the records to a list with this observation. -/
def Normalizes (x : EngineAdapter History) (raw : x.Raw) (o : Observation) : Prop :=
  ∃ request h obs h', x.normalizeResults raw request h = (.ok obs, h') ∧ o ∈ obs

/-- The records are those that are collected from a run of the adapter. -/
def Collects (x : EngineAdapter History) (raw : x.Raw) : Prop :=
  ∃ prepared outcome h₁ h₁' h₂ h₂', x.executeScan prepared h₁ = (.ok outcome, h₁') ∧
    x.collectResults outcome h₂ = (.ok raw, h₂')

/-- What the shipped adapters emit: for any records, except that the records of
a native engine are dumps of what its own analysis has found. -/
inductive Emitted : Observation → Prop
  | container {a : ContainerAdapter} (ha : a ∈ ossAdapters) {w : World} {runner : SandboxRunner}
      {version : String} {raw : RawResults} {o : Observation}
      (ho : Normalizes (a.toEngineAdapter w runner version) raw o) : Emitted o
  | external {b : BurpAdapter} {w : World} {raw : List Json} {o : Observation}
      (ho : Normalizes (b.toEngineAdapter w) raw o) : Emitted o
  | native {a : NativeAdapter} (ha : a ∈ nativeAdapters) {w : World} {raw : List Observation}
      {o : Observation} (hraw : Collects (a.toEngineAdapter w) raw)
      (ho : Normalizes (a.toEngineAdapter w) raw o) : Emitted o

theorem Emitted.not_confirmed {o : Observation} (h : Emitted o) : o.confidence ≠ .confirmed := by
  cases h with
  | container ha ho =>
      obtain ⟨request, log, obs, log', hrun, ho⟩ := ho
      exact returns_container ha _ log obs log' hrun o ho
  | external ho =>
      obtain ⟨request, log, obs, log', hrun, ho⟩ := ho
      exact returns_burp _ _ log obs log' hrun o ho
  | @native a ha w raw _ hraw ho =>
      obtain ⟨request, log, obs, log', hrun, ho⟩ := ho
      obtain ⟨prepared, outcome, h₁, h₁', h₂, h₂', hexecute, hcollect⟩ := hraw
      have hfound := returns_native ha prepared.2 h₁ outcome h₁' hexecute
      obtain rfl : outcome = raw := Except.ok.inj (congrArg Prod.fst hcollect)
      have hobs : outcome.map Observation.revalidate = obs :=
        Except.ok.inj (congrArg Prod.fst hrun)
      rw [← hobs] at ho
      obtain ⟨o', ho', rfl⟩ := List.mem_map.mp ho
      rw [Observation.revalidate_eq, hfound o' ho']
      decide

/-! ## Confirmation -/

variable {σ : Type} {sha256 : List UInt8 → String} {e : CorrelationEngine} {newId : ℕ → String}

/-- Nothing that the adapters emit is confirmed, and after validation a finding
is confirmed exactly when the configuration strategy confirmed one of its
observations. -/
theorem confirmed_only_by_validation {observations : List Observation}
    (h : ∀ o ∈ observations, Emitted o) (clock : σ → Time × σ) (prober : Prober σ) (s : σ) :
    (∀ o ∈ observations, o.confidence ≠ .confirmed) ∧
      ∃ turns s', Turns ({} : ValidationEngine σ) (Effect.total clock) prober s turns s' ∧
        turns.map Turn.before = observations ∧
        validateAll {} (Effect.total clock) prober observations s =
          (.ok (turns.map Turn.after), s') ∧
        ∀ f ∈ e.correlate sha256 newId (turns.map Turn.after),
          (f.confidence = .confirmed ↔
            ∃ t ∈ turns, observationKey sha256 t.after = f.fingerprint ∧ t.Reverified prober) := by
  have hraw : ∀ o ∈ observations, o.confidence ≠ .confirmed := fun o ho ↦ (h o ho).not_confirmed
  obtain ⟨turns, s', hturns, hbefore, hrun⟩ :=
    exists_turns ({} : ValidationEngine σ) (Effect.total clock) prober observations s
  refine ⟨hraw, turns, s', hturns, hbefore, hrun, ?_⟩
  refine confirmed_iff_reverified (fun t ht ↦ hraw t.before ?_) hturns
  rw [← hbefore]
  exact List.mem_map_of_mem ht

/-! ## A subdomain that is found, and a record that is no dump -/

def demoSubdomains : RawResults where
  engineId := "subfinder"
  engineVersion := "2"
  format := "jsonl"
  records := [[("host", .str "a.example")]]

theorem subfinder_mem : Subfinder.adapter ∈ ossAdapters := by simp [ossAdapters]

theorem exists_emitted : ∃ o, Emitted o ∧ o.title = "Subdomain discovered: a.example" := by
  obtain ⟨o, ho, htitle⟩ : ∃ o, Normalizes (Subfinder.adapter.toEngineAdapter refusingWorld
      (demoDocker.runner refusingWorld) "2") demoSubdomains o ∧
        o.title = "Subdomain discovered: a.example" :=
    ⟨_, ⟨demoRequest, [], _, _, rfl, List.mem_singleton_self _⟩, rfl⟩
  exact ⟨o, .container subfinder_mem ho, htitle⟩

theorem confirmed_only_by_validation_subdomain :
    ∃ o, o.title = "Subdomain discovered: a.example" ∧ (∀ o' ∈ [o], o'.confidence ≠ .confirmed) ∧
      ∃ turns s', Turns ({} : ValidationEngine Unit) (Effect.total fun s ↦ (0, s)) raisingProber ()
          turns s' ∧
        turns.map Turn.before = [o] ∧
        validateAll {} (Effect.total fun s ↦ (0, s)) raisingProber [o] () =
          (.ok (turns.map Turn.after), s') ∧
        ∀ f ∈ demoEngine.correlate demoSha256 (fun _ ↦ "f") (turns.map Turn.after),
          (f.confidence = .confirmed ↔ ∃ t ∈ turns,
            observationKey demoSha256 t.after = f.fingerprint ∧ t.Reverified raisingProber) := by
  obtain ⟨o, ho, htitle⟩ := exists_emitted
  refine ⟨o, htitle, ?_⟩
  exact confirmed_only_by_validation (List.forall_mem_singleton.mpr ho) (fun s ↦ (0, s))
    raisingProber ()

/-- A native engine takes over the confidence of a record that is given to it. -/
theorem native_takes_confirmed :
    ¬ ∀ a ∈ nativeAdapters, ∀ (raw : List Observation) (o : Observation),
      Normalizes (a.toEngineAdapter refusingWorld) raw o → o.confidence ≠ .confirmed := by
  intro hall
  refine hall Headers.adapter List.mem_cons_self [demoReport "a" "xss" .confirmed]
    (demoReport "a" "xss" .confirmed) ?_ rfl
  refine ⟨demoRequest, [], [(demoReport "a" "xss" .confirmed).revalidate], [], rfl, ?_⟩
  rw [Observation.revalidate_eq]
  exact List.mem_singleton_self _

end Vantage
