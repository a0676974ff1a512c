import Vantage.Engines.Registry

/-!
# The license gate over every history of the registry

The problems found at registration stay on the list until somebody approves
the engine, and an approval is itself put on that list. So what is exposed had
no problem from the start.
-/

namespace Vantage.Engines

open Text Governance

variable {σ : Type} {policy : LicensePolicy} {manifests : List EngineManifest} {lock : EngineLock}
  {m : EngineManifest} {r : Registration} {reg reg' : EngineRegistry σ} {id : String}

/-- Engines that third-party licensing does not apply to. -/
def Exempt (m : EngineManifest) : Prop := m.integration = .native ∨ m.integration = .externalService

def ArmsLength (policy : LicensePolicy) (m : EngineManifest) : Prop :=
  m.integration.value ∈ policy.armsLengthIntegrationTypes

/-- The conditions on an exposed engine, given whether it has been approved. -/
structure Cleared (policy : LicensePolicy) (lock : EngineLock) (approved : Prop)
    (m : EngineManifest) : Prop where
  pinned : ∃ entry, lock.get? m.id = some entry ∧ (entry.license = "" ∨ entry.license = m.license)
  image : containerized m.integration = true → present m.image = true
  license : ∃ d, policy.classify m.license = .ok d ∧
    (d.licenseClass = .green ∨
      (d.licenseClass = .yellow ∨ d.licenseClass = .red ∧ ArmsLength policy m) ∧ approved)

theorem Cleared.mono {approved approved' : Prop} (h : Cleared policy lock approved m)
    (himp : approved → approved') : Cleared policy lock approved' m where
  pinned := h.pinned
  image := h.image
  license := by
    obtain ⟨d, hd, hclass⟩ := h.license
    exact ⟨d, hd, hclass.imp_right fun hreview ↦ ⟨hreview.1, himp hreview.2⟩⟩

/-! ## Registration -/

theorem id_metadataOf {version : String} {c : LicenseClass} {approval : ApprovalStatus}
    {image : Option String} {md : EngineMetadata}
    (h : metadataOf m version c approval image = .ok md) : md.id = m.id :=
  EngineMetadata.id_modelValidate h

theorem green_of_reviewOf {c : LicenseClass} (h : (reviewOf policy m c).1 = []) : c = .green := by
  cases c with
  | green => rfl
  | yellow => simp [reviewOf] at h
  | unknown => simp [reviewOf] at h
  | red =>
      unfold reviewOf at h
      split_ifs at h

theorem license_of_mismatchProblems {entry : EngineLockEntry}
    (h : mismatchProblems m entry = []) : entry.license = "" ∨ entry.license = m.license := by
  unfold mismatchProblems at h
  by_contra hne
  rw [not_or] at hne
  rw [if_pos hne] at h
  exact List.cons_ne_nil _ _ h

theorem present_of_imageProblems {entry : EngineLockEntry} (h : imageProblems m entry = [])
    (hcontainer : containerized m.integration = true) : present m.image = true := by
  unfold imageProblems at h
  rw [if_pos hcontainer] at h
  by_contra himage
  rw [Bool.not_eq_true] at himage
  simp [himage] at h

theorem registerThirdParty_spec (h : registerThirdParty policy m lock = .ok r) :
    r.metadata.id = m.id ∧ (r.problems = [] → Cleared policy lock False m) := by
  unfold registerThirdParty at h
  cases hdecision : policy.classify m.license with
  | error e => simp [hdecision, bind, Except.bind] at h
  | ok d =>
      simp only [hdecision, bind, Except.bind] at h
      split at h
      · exact absurd h (by simp)
      · rename_i md hmd
        obtain rfl := Except.ok.inj h
        refine ⟨id_metadataOf hmd, fun hproblems ↦ ?_⟩
        simp only [List.append_eq_nil_iff] at hproblems
        obtain ⟨⟨⟨hpin, hreview⟩, hmismatch⟩, himage⟩ := hproblems
        cases hentry : lock.get? m.id with
        | none =>
            rw [hentry] at hpin
            exact absurd hpin (by simp [pinProblems])
        | some entry =>
            rw [hentry, Option.getD_some] at hmismatch
            exact
              { pinned := ⟨entry, hentry, license_of_mismatchProblems hmismatch⟩
                image := present_of_imageProblems himage
                license := ⟨d, hdecision, Or.inl (green_of_reviewOf hreview)⟩ }

theorem registerNative_id (h : registerNative m lock = .ok r) : r.metadata.id = m.id := by
  unfold registerNative at h
  simp only [bind, Except.bind] at h
  split at h
  · exact absurd h (by simp)
  · rename_i md hmd
    obtain rfl := Except.ok.inj h
    exact id_metadataOf hmd

theorem registerExternal_id (h : registerExternal policy m lock = .ok r) :
    r.metadata.id = m.id := by
  unfold registerExternal at h
  simp only [bind, Except.bind] at h
  split at h
  · exact absurd h (by simp)
  · split at h
    · exact absurd h (by simp)
    · rename_i md hmd
      obtain rfl := Except.ok.inj h
      exact id_metadataOf hmd

theorem registration_spec (h : registration policy m lock = .ok r) :
    r.metadata.id = m.id ∧ (r.problems = [] → Exempt m ∨ Cleared policy lock False m) := by
  unfold registration at h
  split at h
  · rename_i hnative
    exact ⟨registerNative_id h, fun _ ↦ Or.inl (Or.inl hnative)⟩
  · rename_i hexternal
    exact ⟨registerExternal_id h, fun _ ↦ Or.inl (Or.inr hexternal)⟩
  · obtain ⟨hid, hcleared⟩ := registerThirdParty_spec h
    exact ⟨hid, fun hproblems ↦ Or.inr (hcleared hproblems)⟩

/-! ## The invariant -/

/-- The manifest that counts for an identifier is the last one. -/
def manifestOf (manifests : List EngineManifest) (id : String) : Option EngineManifest :=
  manifests.reverse.find? (·.id = id)

theorem manifestOf_append (seen : List EngineManifest) (m : EngineManifest) (id : String) :
    manifestOf (seen ++ [m]) id = if m.id = id then some m else manifestOf seen id := by
  unfold manifestOf
  rw [List.reverse_append, List.reverse_singleton, List.singleton_append, List.find?_cons]
  by_cases h : m.id = id <;> simp [h]

/-- An entry without problems belongs to an engine that needs no review. -/
def Gated (policy : LicensePolicy) (manifests : List EngineManifest) (lock : EngineLock)
    (reg : EngineRegistry σ) : Prop :=
  reg.policy = policy ∧ ∀ id e, reg.get id = some e →
    e.metadata.id = id ∧ ∃ m, manifestOf manifests id = some m ∧
      (e.problems = [] → Exempt m ∨ Cleared policy lock False m)

theorem gated_registerManifest {seen : List EngineManifest} (hgated : Gated policy seen lock reg)
    (h : reg.registerManifest m lock = .ok reg') : Gated policy (seen ++ [m]) lock reg' := by
  obtain ⟨hpolicy, hentries⟩ := hgated
  unfold EngineRegistry.registerManifest at h
  cases hreg : registration reg.policy m lock with
  | error e => simp [hreg] at h
  | ok r =>
      rw [hreg] at h
      obtain rfl := Except.ok.inj h
      rw [hpolicy] at hreg
      obtain ⟨hid, hcleared⟩ := registration_spec hreg
      refine ⟨hpolicy, fun id e he ↦ ?_⟩
      rw [manifestOf_append]
      by_cases hsame : m.id = id
      · subst hsame
        rw [EngineRegistry.get, Dict.get?_set_self] at he
        obtain rfl := Option.some.inj he
        exact ⟨hid, m, if_pos rfl, hcleared⟩
      · rw [EngineRegistry.get, Dict.get?_set_of_ne _ (Ne.symm hsame)] at he
        rw [if_neg hsame]
        exact hentries id e he

theorem gated_foldlM {seen rest : List EngineManifest} (hgated : Gated policy seen lock reg)
    (h : rest.foldlM (fun reg m ↦ reg.registerManifest m lock) reg = .ok reg') :
    Gated policy (seen ++ rest) lock reg' := by
  induction rest generalizing seen reg with
  | nil =>
      obtain rfl := Except.ok.inj h
      rwa [List.append_nil]
  | cons m rest ih =>
      rw [List.foldlM_cons] at h
      cases hstep : reg.registerManifest m lock with
      | error e => simp [hstep, bind, Except.bind] at h
      | ok reg₁ =>
          rw [hstep] at h
          have hrest := ih (gated_registerManifest hgated hstep) h
          rwa [List.append_assoc, List.singleton_append] at hrest

theorem gated_load (h : EngineRegistry.load σ policy manifests lock = .ok reg) :
    Gated policy manifests lock reg := by
  have hempty : Gated policy [] lock (⟨policy, .empty⟩ : EngineRegistry σ) :=
    ⟨rfl, fun id e he ↦ absurd he (by simp [EngineRegistry.get])⟩
  exact gated_foldlM hempty h

/-! ## Calls after loading -/

/-- An entry changes, keeps its identifier and gains no freedom from problems. -/
theorem gated_update {f : RegisteredEngine σ → RegisteredEngine σ}
    (hgated : Gated policy manifests lock reg) (h : reg.update id f = .ok reg')
    (hid : ∀ e, (f e).metadata.id = e.metadata.id)
    (hproblems : ∀ e, (f e).problems = [] → e.problems = []) :
    Gated policy manifests lock reg' := by
  obtain ⟨hpolicy, hentries⟩ := hgated
  unfold EngineRegistry.update at h
  split at h
  · exact absurd h (by simp)
  · rename_i e he
    obtain rfl := Except.ok.inj h
    refine ⟨hpolicy, fun id' e' he' ↦ ?_⟩
    by_cases hsame : id' = id
    · subst hsame
      rw [EngineRegistry.get, Dict.get?_set_self] at he'
      obtain rfl := Option.some.inj he'
      obtain ⟨hname, m, hm, hcleared⟩ := hentries id' e he
      exact ⟨(hid e).trans hname, m, hm, fun hnil ↦ hcleared (hproblems e hnil)⟩
    · rw [EngineRegistry.get, Dict.get?_set_of_ne _ hsame] at he'
      exact hentries id' e' he'

theorem gated_apply {op : Operation σ} (hgated : Gated policy manifests lock reg)
    (h : op.apply reg = .ok reg') : Gated policy manifests lock reg' := by
  cases op with
  | bindAdapter engineId adapter => exact gated_update hgated h (fun _ ↦ rfl) fun _ hnil ↦ hnil
  | enable engineId enabled => exact gated_update hgated h (fun _ ↦ rfl) fun _ hnil ↦ hnil
  | approve engineId reference =>
      refine gated_update hgated h (fun _ ↦ rfl) fun e hnil ↦ ?_
      exact absurd hnil (by simp)

theorem gated_run (ops : List (Operation σ)) (hgated : Gated policy manifests lock reg) :
    Gated policy manifests lock (reg.run ops) := by
  induction ops generalizing reg with
  | nil => exact hgated
  | cons op ops ih =>
      apply ih
      unfold Operation.perform
      split
      · exact hgated
      · rename_i reg' h
        exact gated_apply hgated h

/-! ## What is exposed -/

/-- An engine that the planner is shown, or that an adapter is handed out for. -/
def EngineRegistry.Exposed (reg : EngineRegistry σ) (id : String) : Prop :=
  (∃ md ∈ reg.enabledEngines, md.id = id) ∨
    (∃ capability, ∃ md ∈ reg.enginesFor capability, md.id = id) ∨
      (reg.adapterFor id).isSome = true

theorem usable_of_mem_visible {e : RegisteredEngine σ} (h : e ∈ reg.visible) :
    (∃ id, reg.get id = some e) ∧ e.usable = true := by
  obtain ⟨hvalue, husable⟩ := List.mem_filter.mp h
  exact ⟨(Dict.mem_values_iff _).mp hvalue, (Bool.and_eq_true_iff.mp husable).1⟩

theorem mem_visible_of_enginesFor {capability : Capability} {md : EngineMetadata}
    (h : md ∈ reg.enginesFor capability) : ∃ e ∈ reg.visible, e.metadata = md := by
  obtain ⟨e, he, rfl⟩ := List.mem_map.mp h
  exact ⟨e, (List.mem_filter.mp ((List.mem_insertionSort _).mp he)).1, rfl⟩

theorem exists_usable_of_exposed (hgated : Gated policy manifests lock reg)
    (h : reg.Exposed id) : ∃ e, reg.get id = some e ∧ e.usable = true := by
  have hvisible : ∀ e ∈ reg.visible, e.metadata.id = id → ∃ e, reg.get id = some e ∧
      e.usable = true := by
    intro e he hid
    obtain ⟨⟨id', hget⟩, husable⟩ := usable_of_mem_visible he
    rw [(hgated.2 id' e hget).1] at hid
    subst hid
    exact ⟨e, hget, husable⟩
  rcases h with ⟨md, hmd, hid⟩ | ⟨capability, md, hmd, hid⟩ | hadapter
  · obtain ⟨e, he, rfl⟩ := List.mem_map.mp hmd
    exact hvisible e he hid
  · obtain ⟨e, he, rfl⟩ := mem_visible_of_enginesFor hmd
    exact hvisible e he hid
  · unfold EngineRegistry.adapterFor at hadapter
    split at hadapter
    · simp at hadapter
    · rename_i e he
      split_ifs at hadapter with husable
      · exact ⟨e, he, husable⟩
      · simp at hadapter

theorem problems_of_usable {e : RegisteredEngine σ} (h : e.usable = true) : e.problems = [] := by
  unfold RegisteredEngine.usable at h
  simp only [Bool.and_eq_true, List.isEmpty_iff] at h
  exact h.1.1

/-- The calls approve an engine. -/
def ApprovedIn (ops : List (Operation σ)) (id : String) : Prop :=
  ∃ reference, Operation.approve id reference ∈ ops

/-- An exposed engine of a third party is cleared; a license that the policy
does not know, or a RED one without arms-length integration, keeps it out. -/
theorem exposed_cleared (hload : EngineRegistry.load σ policy manifests lock = .ok reg)
    (ops : List (Operation σ)) (hexposed : (reg.run ops).Exposed id) :
    ∃ m, manifestOf manifests id = some m ∧
      (Exempt m ∨ Cleared policy lock (ApprovedIn ops id) m ∧
        ∀ d, policy.classify m.license = .ok d →
          d.licenseClass ≠ .unknown ∧ (d.licenseClass = .red → ArmsLength policy m)) := by
  have hgated := gated_run ops (gated_load hload)
  obtain ⟨e, hget, husable⟩ := exists_usable_of_exposed hgated hexposed
  obtain ⟨-, m, hm, hcleared⟩ := hgated.2 id e hget
  refine ⟨m, hm, (hcleared (problems_of_usable husable)).imp_right fun h ↦ ?_⟩
  refine ⟨h.mono False.elim, fun d hd ↦ ?_⟩
  obtain ⟨d', hd', hclass⟩ := h.license
  obtain rfl : d' = d := Except.ok.inj (hd'.symm.trans hd)
  have hgreen : d'.licenseClass = .green := hclass.resolve_right (·.2)
  simp [hgreen]

/-! ## Two shipped manifests -/

/-- Some of the table of the shipped policy. -/
def demoPolicy : LicensePolicy where
  classToSpdx := [(.green, ["MIT", "Apache-2.0"]), (.red, ["LicenseRef-PortSwigger-Commercial"])]
  unknownAction := "block"
  armsLengthIntegrationTypes := ["container_cli", "container_api"]

def nucleiManifest : EngineManifest where
  id := "nuclei"
  name := "Nuclei"
  vendor := "ProjectDiscovery"
  homepage := "https://github.com/projectdiscovery/nuclei"
  license := "MIT"
  integration := .containerCli
  capabilities := [.auditTemplates, .fingerprintTech]
  image := some ("ghcr.io/projectdiscovery/nuclei:v3.4.10@sha256:" ++
    "0000000000000000000000000000000000000000000000000000000000000000")
  capabilities_ne := List.cons_ne_nil _ _

def nucleiEntry : EngineLockEntry where
  version := "v3.4.10"
  imageDigest := some ("sha256:" ++
    "0000000000000000000000000000000000000000000000000000000000000000")
  license := "MIT"

/-- Its license is RED; the customer hosts it. -/
def burpManifest : EngineManifest where
  id := "burp"
  name := "Burp Suite (external)"
  vendor := "PortSwigger"
  homepage := "https://portswigger.net/burp"
  license := "LicenseRef-PortSwigger-Commercial"
  integration := .externalService
  capabilities := [.auditActive, .auditPassive, .crawlHttp]
  enabled := false
  capabilities_ne := List.cons_ne_nil _ _

def idleAdapter : EngineAdapter Unit where
  metadata := Effect.raise .keyError
  Prepared := Unit
  Outcome := Unit
  Raw := Unit
  healthCheck := pure .unavailable
  prepareTarget _ := pure ()
  executeScan _ := pure ()
  collectResults _ := pure ()
  normalizeResults _ _ := pure []
  cleanup _ := pure ()

def demoManifests : List EngineManifest := [burpManifest, nucleiManifest]

def demoLock : EngineLock := Dict.empty.set "nuclei" nucleiEntry

def demoOperations : List (Operation Unit) :=
  [.bindAdapter "burp" idleAdapter, .enable "burp" true, .bindAdapter "nuclei" idleAdapter]

theorem adapters_demo : (EngineRegistry.load Unit demoPolicy demoManifests demoLock).map (fun reg ↦
    (((reg.run demoOperations).adapterFor "burp").isSome,
      ((reg.run demoOperations).adapterFor "nuclei").isSome)) = .ok (true, true) := by
  decide +kernel

theorem exists_load_demo : ∃ reg, EngineRegistry.load Unit demoPolicy demoManifests demoLock =
    .ok reg ∧ (reg.run demoOperations).Exposed "burp" ∧ (reg.run demoOperations).Exposed "nuclei" := by
  have hadapters := adapters_demo
  cases hload : EngineRegistry.load Unit demoPolicy demoManifests demoLock with
  | error e => simp [hload, Except.map] at hadapters
  | ok reg =>
      rw [hload] at hadapters
      have hboth := Prod.mk.inj (Except.ok.inj hadapters)
      exact ⟨reg, rfl, Or.inr (Or.inr hboth.1), Or.inr (Or.inr hboth.2)⟩

/-- What the gate lets through of the two manifests. -/
theorem exposed_cleared_nuclei : ∃ m, manifestOf demoManifests "nuclei" = some m ∧
    (Exempt m ∨ Cleared demoPolicy demoLock (ApprovedIn demoOperations "nuclei") m ∧
      ∀ d, demoPolicy.classify m.license = .ok d →
        d.licenseClass ≠ .unknown ∧ (d.licenseClass = .red → ArmsLength demoPolicy m)) := by
  obtain ⟨reg, hload, -, hnuclei⟩ := exists_load_demo
  exact exposed_cleared hload demoOperations hnuclei

theorem classify_burp : demoPolicy.classify burpManifest.license =
    .ok ⟨burpManifest.license, .red, "block", "policy table"⟩ := by
  decide

/-- The external service is exposed although its license is RED and its
integration not at arms length. -/
theorem exposed_red_burp :
    ¬ ∀ manifests lock reg (ops : List (Operation Unit)) id,
      EngineRegistry.load Unit demoPolicy manifests lock = .ok reg → (reg.run ops).Exposed id →
        ∃ m, manifestOf manifests id = some m ∧
          (Exempt m ∨ Cleared demoPolicy lock (ApprovedIn ops id) m) ∧
            ∀ d, demoPolicy.classify m.license = .ok d →
              d.licenseClass ≠ .unknown ∧ (d.licenseClass = .red → ArmsLength demoPolicy m) := by
  intro hall
  obtain ⟨reg, hload, hburp, -⟩ := exists_load_demo
  obtain ⟨m, hm, -, hclass⟩ := hall _ _ reg _ _ hload hburp
  obtain rfl : burpManifest = m := Option.some.inj hm
  have harms : burpManifest.integration.value ∈ demoPolicy.armsLengthIntegrationTypes :=
    (hclass _ classify_burp).2 rfl
  exact absurd harms (by decide)

end Vantage.Engines
