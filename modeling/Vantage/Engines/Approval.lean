import Vantage.Engines.LicenseGate

/-!
# Approving an engine

An approval takes the entries about the missing review off the list of problems
and puts the reference of the review on it. An engine with anything on that
list is not usable.
-/

namespace Vantage.Engines

open Text Governance

variable {σ : Type} {reg reg' reg₀ : EngineRegistry σ} {id : String} {e : RegisteredEngine σ}
  {manifest : EngineManifest} {lock : EngineLock} {policy : LicensePolicy}

/-! ## The law -/

def EngineRegistry.Usable (reg : EngineRegistry σ) (id : String) : Prop :=
  ∃ e, reg.get id = some e ∧ e.usable = true

def EngineRegistry.Lists (reg : EngineRegistry σ) (id : String) (capability : Capability) : Prop :=
  ∃ md ∈ reg.enginesFor capability, md.id = id

/-- A license that a review can clear: YELLOW, or RED at arms length. -/
def AwaitsReview (policy : LicensePolicy) (manifest : EngineManifest) (c : LicenseClass) : Prop :=
  c = .yellow ∨ c = .red ∧ ArmsLength policy manifest

/-- The missing review is all that is on record. -/
def OnlyReviewMissing (policy : LicensePolicy) (e : RegisteredEngine σ) : Prop :=
  AwaitsReview policy e.manifest e.metadata.licenseClass ∧
    e.problems = (reviewOf policy e.manifest e.metadata.licenseClass).1

/-- Something else is on record. -/
def OtherwiseBlocked (policy : LicensePolicy) (e : RegisteredEngine σ) : Prop :=
  ∃ p ∈ e.problems, AwaitsReview policy e.manifest e.metadata.licenseClass →
    p ∉ (reviewOf policy e.manifest e.metadata.licenseClass).1

/-- An approval and the enabling, in either order. -/
def Approves (id reference : String) (ops : List (Operation σ)) : Prop :=
  ops.Perm [.approve id reference, .enable id true]

/-- An approved engine becomes usable, and is listed for its capabilities when it
has an adapter; an engine with another problem does not. -/
structure ApprovalLaw (reg : EngineRegistry σ) (e : RegisteredEngine σ) (reference : String) :
    Prop where
  usable : OnlyReviewMissing reg.policy e → ∀ ops, Approves e.manifest.id reference ops →
    (reg.run ops).Usable e.manifest.id
  listed : OnlyReviewMissing reg.policy e → ∀ ops, Approves e.manifest.id reference ops →
    ∀ x, ∀ capability ∈ e.manifest.capabilities,
      (reg.run (ops ++ [.bindAdapter e.manifest.id x])).Lists e.manifest.id capability
  blocked : OtherwiseBlocked reg.policy e → ∀ ops, Approves e.manifest.id reference ops →
    ¬ (reg.run ops).Usable e.manifest.id

/-! ## What an approval leaves on record -/

theorem get_update {f : RegisteredEngine σ → RegisteredEngine σ} (h : reg.update id f = .ok reg')
    (id' : String) : reg'.get id' = if id' = id then (reg.get id).map f else reg.get id' := by
  unfold EngineRegistry.update at h
  split at h
  · exact absurd h (by simp)
  · rename_i e he
    obtain rfl := Except.ok.inj h
    split_ifs with hsame
    · subst hsame
      rw [EngineRegistry.get, EngineRegistry.get, he, Dict.get?_set_self, Option.map_some]
    · rw [EngineRegistry.get, Dict.get?_set_of_ne _ hsame, EngineRegistry.get]

/-- Something is on the list of problems of the engine. -/
def Blocked (reg : EngineRegistry σ) (id : String) : Prop :=
  ∀ e, reg.get id = some e → e.problems ≠ []

theorem Blocked.not_usable (h : Blocked reg id) : ¬ reg.Usable id := by
  rintro ⟨e, hget, husable⟩
  exact h e hget (problems_of_usable husable)

theorem blocked_update {id' : String} {f : RegisteredEngine σ → RegisteredEngine σ}
    (hblocked : Blocked reg id) (h : reg.update id' f = .ok reg')
    (hproblems : ∀ e, e.problems ≠ [] → (f e).problems ≠ []) : Blocked reg' id := by
  intro e he
  rw [get_update h] at he
  split_ifs at he with hsame
  · subst hsame
    obtain ⟨e', he', rfl⟩ := Option.map_eq_some_iff.mp he
    exact hproblems e' (hblocked e' he')
  · exact hblocked e he

theorem blocked_perform (op : Operation σ) (hblocked : Blocked reg id) :
    Blocked (op.perform reg) id := by
  unfold Operation.perform
  split
  · exact hblocked
  · rename_i reg' h
    cases op with
    | bindAdapter engineId adapter => exact blocked_update hblocked h fun _ hne ↦ hne
    | enable engineId enabled => exact blocked_update hblocked h fun _ hne ↦ hne
    | approve engineId reference => exact blocked_update hblocked h fun _ _ ↦ by simp

/-- The reference itself is a problem. -/
theorem blocked_approve (reg : EngineRegistry σ) (id reference : String) :
    Blocked ((Operation.approve id reference).perform reg) id := by
  intro e he
  unfold Operation.perform at he
  split at he
  · rename_i err h
    simp only [Operation.apply, EngineRegistry.approve, EngineRegistry.update] at h
    rw [EngineRegistry.get] at he
    simp [he] at h
  · rename_i reg' h
    rw [get_update h, if_pos rfl] at he
    obtain ⟨e', -, rfl⟩ := Option.map_eq_some_iff.mp he
    simp

theorem blocked_run (ops : List (Operation σ)) (hblocked : Blocked reg id) :
    Blocked (reg.run ops) id := by
  induction ops generalizing reg with
  | nil => exact hblocked
  | cons op ops ih => exact ih (blocked_perform op hblocked)

/-- Whatever is called before and afterwards, an approved engine stays blocked. -/
theorem blocked_of_approved {ops : List (Operation σ)} (h : ApprovedIn ops id) :
    Blocked (reg.run ops) id := by
  obtain ⟨reference, hmem⟩ := h
  induction ops generalizing reg with
  | nil => exact absurd hmem List.not_mem_nil
  | cons op ops ih =>
      rcases List.mem_cons.mp hmem with rfl | hmem
      · exact blocked_run ops (blocked_approve reg id reference)
      · exact ih hmem

theorem Approves.approvedIn {reference : String} {ops : List (Operation σ)}
    (h : Approves id reference ops) : ApprovedIn ops id :=
  ⟨reference, h.mem_iff.mpr List.mem_cons_self⟩

theorem approvalLaw_iff_not_missing (reg : EngineRegistry σ) (e : RegisteredEngine σ)
    (reference : String) : ApprovalLaw reg e reference ↔ ¬ OnlyReviewMissing reg.policy e := by
  have hnot : ∀ ops, Approves e.manifest.id reference ops → ¬ (reg.run ops).Usable e.manifest.id :=
    fun ops hops ↦ (blocked_of_approved hops.approvedIn).not_usable
  constructor
  · intro hlaw hmissing
    exact hnot _ (List.Perm.refl _) (hlaw.usable hmissing _ (List.Perm.refl _))
  · intro hmissing
    exact ⟨fun h ↦ absurd h hmissing, fun h ↦ absurd h hmissing, fun _ ↦ hnot⟩

/-! ## What registration leaves on record -/

/-- An engine of a third party with a license that a review can clear. -/
def Reviewable (policy : LicensePolicy) (manifest : EngineManifest) : Prop :=
  ¬ Exempt manifest ∧ ∃ d, policy.classify manifest.license = .ok d ∧
    AwaitsReview policy manifest d.licenseClass

/-- The problems with the lock file and with the image. -/
def otherProblems (manifest : EngineManifest) (lock : EngineLock) : List String :=
  let entry := (lock.get? manifest.id).getD { version := "UNPINNED", license := manifest.license }
  pinProblems (lock.get? manifest.id) ++ mismatchProblems manifest entry ++
    imageProblems manifest entry

theorem review_ne_nil {c : LicenseClass} (h : AwaitsReview policy manifest c) :
    (reviewOf policy manifest c).1 ≠ [] := by
  rcases h with rfl | ⟨rfl, -⟩
  · exact List.cons_ne_nil _ _
  · unfold reviewOf
    split_ifs <;> exact List.cons_ne_nil _ _

theorem licenseClass_registerNative {r : Registration} (h : registerNative manifest lock = .ok r) :
    r.metadata.licenseClass = .green := by
  unfold registerNative at h
  simp only [bind, Except.bind] at h
  split at h
  · exact absurd h (by simp)
  · rename_i md hmd
    obtain rfl := Except.ok.inj h
    exact EngineMetadata.licenseClass_modelValidate hmd

theorem problems_registerExternal {r : Registration}
    (h : registerExternal policy manifest lock = .ok r) : r.problems = [] := by
  unfold registerExternal at h
  simp only [bind, Except.bind] at h
  split at h
  · exact absurd h (by simp)
  · split at h
    · exact absurd h (by simp)
    · obtain rfl := Except.ok.inj h
      rfl

theorem registerThirdParty_ok {r : Registration}
    (h : registerThirdParty policy manifest lock = .ok r) :
    (∃ d, policy.classify manifest.license = .ok d ∧ d.licenseClass = r.metadata.licenseClass) ∧
      (r.problems = (reviewOf policy manifest r.metadata.licenseClass).1 ↔
        otherProblems manifest lock = []) := by
  unfold registerThirdParty at h
  cases hdecision : policy.classify manifest.license with
  | error e => simp [hdecision, bind, Except.bind] at h
  | ok d =>
      simp only [hdecision, bind, Except.bind] at h
      split at h
      · exact absurd h (by simp)
      · rename_i md hmd
        obtain rfl := Except.ok.inj h
        have hclass : md.licenseClass = d.licenseClass := EngineMetadata.licenseClass_modelValidate hmd
        refine ⟨⟨d, rfl, hclass.symm⟩, ?_⟩
        rw [otherProblems, hclass]
        constructor
        · intro hproblems
          have hlength := congrArg List.length hproblems
          rw [← List.length_eq_zero_iff]
          simp only [List.length_append] at hlength ⊢
          omega
        · intro hnil
          simp only [List.append_eq_nil_iff] at hnil
          obtain ⟨⟨hpin, hmismatch⟩, himage⟩ := hnil
          rw [hpin, hmismatch, himage, List.nil_append, List.append_nil, List.append_nil]

/-- Only the review is missing exactly for the engines that it can clear and that
are pinned with the license and the image that they declare. -/
theorem onlyReviewMissing_iff (hregister : reg₀.registerManifest manifest lock = .ok reg)
    (hget : reg.get manifest.id = some e) : OnlyReviewMissing reg.policy e ↔
      Reviewable reg₀.policy manifest ∧ otherProblems manifest lock = [] := by
  unfold EngineRegistry.registerManifest at hregister
  cases hregistration : registration reg₀.policy manifest lock with
  | error err => simp [hregistration] at hregister
  | ok r =>
      rw [hregistration] at hregister
      obtain rfl := Except.ok.inj hregister
      rw [EngineRegistry.get, Dict.get?_set_self] at hget
      obtain rfl := Option.some.inj hget
      simp only [OnlyReviewMissing]
      unfold registration at hregistration
      split at hregistration
      · rename_i hnative
        have hgreen := licenseClass_registerNative hregistration
        refine iff_of_false (fun h ↦ ?_) fun h ↦ h.1.1 (Or.inl hnative)
        rcases h.1 with hyellow | ⟨hred, -⟩
        · rw [hgreen] at hyellow
          exact LicenseClass.noConfusion hyellow
        · rw [hgreen] at hred
          exact LicenseClass.noConfusion hred
      · rename_i hexternal
        refine iff_of_false (fun h ↦ ?_) fun h ↦ h.1.1 (Or.inr hexternal)
        exact review_ne_nil h.1 (h.2.symm.trans (problems_registerExternal hregistration))
      · rename_i hnative hexternal
        obtain ⟨⟨d, hd, hclass⟩, hproblems⟩ := registerThirdParty_ok hregistration
        rw [hproblems, ← hclass]
        refine and_congr_left' ⟨fun h ↦ ⟨not_or.mpr ⟨hnative, hexternal⟩, d, hd, h⟩, ?_⟩
        rintro ⟨-, d', hd', h⟩
        obtain rfl : d = d' := Except.ok.inj (hd.symm.trans hd')
        exact h

/-- Approval works for no engine that it is meant for: the law holds of a
manifest only when something besides the review is missing. -/
theorem approvalLaw_iff (hregister : reg₀.registerManifest manifest lock = .ok reg)
    (hget : reg.get manifest.id = some e) (reference : String) :
    ApprovalLaw reg e reference ↔
      ¬ (Reviewable reg₀.policy manifest ∧ otherProblems manifest lock = []) := by
  rw [approvalLaw_iff_not_missing, onlyReviewMissing_iff hregister hget]

/-! ## A shipped manifest -/

def reviewPolicy : LicensePolicy :=
  { demoPolicy with classToSpdx := (.yellow, ["LGPL-2.1-or-later"]) :: demoPolicy.classToSpdx }

def semgrepImage : String :=
  "sha256:d4d70e72310a016cd32f3f66a7b09895c94662e3e226934fd5c07dbfe45e74a3"

def semgrepManifest : EngineManifest where
  id := "semgrep"
  name := "Semgrep CE"
  vendor := "Semgrep"
  homepage := "https://github.com/semgrep/semgrep"
  license := "LGPL-2.1-or-later"
  integration := .containerCli
  capabilities := [.discoveryJs]
  image := some ("docker.io/semgrep/semgrep:1.178.0@" ++ semgrepImage)
  enabled := false
  capabilities_ne := List.cons_ne_nil _ _

def semgrepLock : EngineLock := Dict.empty.set "semgrep"
  { version := "1.178.0", imageDigest := some semgrepImage, license := "LGPL-2.1-or-later" }

theorem exists_semgrep : ∃ reg e, (⟨reviewPolicy, .empty⟩ : EngineRegistry Unit).registerManifest
    semgrepManifest semgrepLock = .ok reg ∧ reg.get semgrepManifest.id = some e := by
  have hregistered : ((⟨reviewPolicy, .empty⟩ : EngineRegistry Unit).registerManifest
      semgrepManifest semgrepLock).map (fun reg ↦ (reg.get semgrepManifest.id).isSome) =
        .ok true := by
    decide +kernel
  cases hregister : (⟨reviewPolicy, .empty⟩ : EngineRegistry Unit).registerManifest
      semgrepManifest semgrepLock with
  | error err => simp [hregister, Except.map] at hregistered
  | ok reg =>
      rw [hregister] at hregistered
      obtain ⟨e, he⟩ := Option.isSome_iff_exists.mp (Except.ok.inj hregistered)
      exact ⟨reg, e, rfl, he⟩

theorem approvalLaw_iff_semgrep : ∃ reg e,
    (⟨reviewPolicy, .empty⟩ : EngineRegistry Unit).registerManifest semgrepManifest semgrepLock =
        .ok reg ∧ reg.get semgrepManifest.id = some e ∧
      (ApprovalLaw reg e "LEGAL-1" ↔ ¬ (Reviewable reviewPolicy semgrepManifest ∧
        otherProblems semgrepManifest semgrepLock = [])) := by
  obtain ⟨reg, e, hregister, hget⟩ := exists_semgrep
  exact ⟨reg, e, hregister, hget, approvalLaw_iff hregister hget "LEGAL-1"⟩

/-- The review of its license is recorded, and the engine stays unusable. -/
theorem not_approvalLaw_semgrep : ∃ reg e,
    (⟨reviewPolicy, .empty⟩ : EngineRegistry Unit).registerManifest semgrepManifest semgrepLock =
        .ok reg ∧ reg.get semgrepManifest.id = some e ∧ OnlyReviewMissing reg.policy e ∧
      ¬ ApprovalLaw reg e "LEGAL-1" := by
  obtain ⟨reg, e, hregister, hget⟩ := exists_semgrep
  have hclass : reviewPolicy.classify semgrepManifest.license =
      .ok ⟨semgrepManifest.license, .yellow, "review", "policy table"⟩ := by decide +kernel
  have hreviewable : Reviewable reviewPolicy semgrepManifest :=
    ⟨by simp [Exempt, semgrepManifest], _, hclass, Or.inl rfl⟩
  have hother : otherProblems semgrepManifest semgrepLock = [] := by decide +kernel
  have hmissing := (onlyReviewMissing_iff hregister hget).mpr ⟨hreviewable, hother⟩
  exact ⟨reg, e, hregister, hget, hmissing,
    fun hlaw ↦ (approvalLaw_iff_not_missing reg e "LEGAL-1").mp hlaw hmissing⟩

end Vantage.Engines
