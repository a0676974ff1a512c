import Vantage.Governance.Policy

/-!
# The license gate on the inventory

Every component of the inventory is held against the license policy. A
component is found wanting by violations; those that are errors block the
release.
-/

namespace Vantage

def ApprovalStatus.value : ApprovalStatus → String
  | .approved => "approved"
  | .pendingReview => "pending_review"
  | .rejected => "rejected"

namespace Governance

inductive IntegrationType where
  | libraryStatic
  | libraryDynamic
  | containerCli
  | containerApi
  | content
  | buildOnly
deriving DecidableEq, Repr

def IntegrationType.value : IntegrationType → String
  | .libraryStatic => "library_static"
  | .libraryDynamic => "library_dynamic"
  | .containerCli => "container_cli"
  | .containerApi => "container_api"
  | .content => "content"
  | .buildOnly => "build_only"

/-- The fields of a component that the gate reads. -/
structure Component where
  name : String
  version : String
  license : String
  integrationType : IntegrationType
  approvalStatus : ApprovalStatus := .pendingReview
  approvalReference : String := ""
deriving DecidableEq, Repr

inductive ViolationSeverity where
  | error
  | warning
deriving DecidableEq, Repr

structure Violation where
  component : String
  version : String
  severity : ViolationSeverity
  code : String
  message : String
deriving DecidableEq, Repr

structure CheckReport where
  violations : List Violation := []
  checked : ℕ := 0
deriving DecidableEq, Repr

namespace CheckReport

variable (report : CheckReport)

def errors : List Violation := report.violations.filter (·.severity = .error)

def warnings : List Violation := report.violations.filter (·.severity = .warning)

def ok : Bool := report.errors.isEmpty

end CheckReport

/-- The round of the loop for a component whose license is classified. -/
def violationsOf (armsLength : List String) (comp : Component) (decision : PolicyDecision) :
    List Violation :=
  let violation := fun severity code message ↦
    (⟨comp.name, comp.version, severity, code, message⟩ : Violation)
  let isArmsLength := armsLength.contains comp.integrationType.value
  match decision.licenseClass with
  | .unknown =>
      [violation .error "license.unknown"
        ("License '" ++ comp.license ++ "' is not classified by policy (" ++ decision.reason ++
          "); add it to the policy table and record a review.")]
  | .red =>
      if isArmsLength ∧ comp.approvalStatus = .approved then
        violation .warning "license.red.arms_length_approved"
            ("RED license '" ++ comp.license ++ "' shipped as isolated " ++
              comp.integrationType.value ++ " under recorded approval " ++
              (if comp.approvalReference = "" then "(missing ref)" else comp.approvalReference) ++
              ".") ::
          if comp.approvalReference = "" then
            [violation .error "license.approval.no_reference"
              "Approved component is missing approval_reference."]
          else []
      else
        [violation .error "license.red.blocked"
          ("RED license '" ++ comp.license ++ "' cannot ship as " ++ comp.integrationType.value ++
            " (approval=" ++ comp.approvalStatus.value ++ "). Isolate as an unmodified container " ++
            "engine and record legal approval, or replace the component.")]
  | .yellow =>
      if comp.approvalStatus ≠ .approved then
        [violation .error "license.yellow.needs_review"
          ("YELLOW license '" ++ comp.license ++ "' requires recorded approval before " ++
            "distribution (current: " ++ comp.approvalStatus.value ++ ").")]
      else []
  | .green =>
      if comp.approvalStatus = .rejected then
        [violation .error "component.rejected"
          "Component is marked rejected but still present in the inventory."]
      else []

def checkComponent (policy : LicensePolicy) (report : CheckReport) (comp : Component) :
    Except PyError CheckReport := do
  let decision ← policy.classify comp.license
  let violations := violationsOf policy.armsLengthIntegrationTypes comp decision
  .ok { report with violations := report.violations ++ violations }

def checkInventory (components : List Component) (policy : LicensePolicy) :
    Except PyError CheckReport :=
  components.foldlM (checkComponent policy) { checked := components.length }

/-! ## What the gate is for -/

variable {policy : LicensePolicy} {comp : Component} {components : List Component}

/-- A component that may ship, by its class. -/
def MayShip (policy : LicensePolicy) (comp : Component) : LicenseClass → Prop
  | .green => comp.approvalStatus ≠ .rejected
  | .yellow => comp.approvalStatus = .approved ∧ comp.approvalReference ≠ ""
  | .red => comp.integrationType.value ∈ policy.armsLengthIntegrationTypes ∧
      comp.approvalStatus = .approved ∧ comp.approvalReference ≠ ""
  | .unknown => False

def Compliant (policy : LicensePolicy) (comp : Component) : Prop :=
  ∃ decision, policy.classify comp.license = .ok decision ∧
    MayShip policy comp decision.licenseClass

/-- A YELLOW component whose approval is recorded without a reference. -/
def Unreferenced (policy : LicensePolicy) (comp : Component) : Prop :=
  ∃ decision, policy.classify comp.license = .ok decision ∧ decision.licenseClass = .yellow ∧
    comp.approvalStatus = .approved ∧ comp.approvalReference = ""

/-- The gate passes the inventory when all of it is compliant, and looks at
each component on its own. -/
structure GatesExactly (policy : LicensePolicy) (components : List Component) : Prop where
  ok_iff : (∃ report, checkInventory components policy = .ok report ∧ report.ok = true) ↔
    ∀ comp ∈ components, Compliant policy comp
  append : ∀ more, (checkInventory (components ++ more) policy).map CheckReport.violations =
    (checkInventory components policy).bind fun report ↦
      (checkInventory more policy).map fun report' ↦ report.violations ++ report'.violations

/-! ## One component -/

/-- The gate blocks all but the compliant and the unreferenced. -/
theorem violationsOf_no_error_iff {decision : PolicyDecision} :
    (∀ v ∈ violationsOf policy.armsLengthIntegrationTypes comp decision, v.severity ≠ .error) ↔
      MayShip policy comp decision.licenseClass ∨ decision.licenseClass = .yellow ∧
        comp.approvalStatus = .approved ∧ comp.approvalReference = "" := by
  unfold violationsOf MayShip
  dsimp only
  cases decision.licenseClass with
  | unknown => simp
  | green => by_cases h : comp.approvalStatus = .rejected <;> simp [h]
  | yellow =>
      by_cases h : comp.approvalStatus = .approved
      · by_cases href : comp.approvalReference = "" <;> simp [h, href]
      · simp [h]
  | red =>
      by_cases h : comp.integrationType.value ∈ policy.armsLengthIntegrationTypes ∧
          comp.approvalStatus = .approved
      · by_cases href : comp.approvalReference = "" <;> simp [h, href]
      · have hship : ¬ (comp.integrationType.value ∈ policy.armsLengthIntegrationTypes ∧
            comp.approvalStatus = .approved ∧ comp.approvalReference ≠ "") :=
          fun hall ↦ h ⟨hall.1, hall.2.1⟩
        simp [h, hship]

/-! ## The loop -/

def componentViolations (policy : LicensePolicy) (comp : Component) :
    Except PyError (List Violation) :=
  (policy.classify comp.license).map (violationsOf policy.armsLengthIntegrationTypes comp)

/-- The violations of a run are those of its components, in a row. -/
theorem foldlM_checkComponent (components : List Component) (report : CheckReport) :
    components.foldlM (checkComponent policy) report =
      (components.mapM (componentViolations policy)).map fun found ↦
        { report with violations := report.violations ++ found.flatten } := by
  induction components generalizing report with
  | nil => simp [pure, Except.pure, Except.map]
  | cons comp components ih =>
      rw [List.foldlM_cons, List.mapM_cons, checkComponent, componentViolations]
      cases policy.classify comp.license with
      | error e => rfl
      | ok decision =>
          have hround := ih { report with
            violations := report.violations ++
              violationsOf policy.armsLengthIntegrationTypes comp decision }
          cases hfound : components.mapM (componentViolations policy) with
          | error e =>
              rw [hfound] at hround
              exact hround
          | ok found =>
              rw [hfound] at hround
              refine hround.trans ?_
              simp [Except.map, bind, Except.bind, pure, Except.pure]

theorem checkInventory_eq (components : List Component) : checkInventory components policy =
    (components.mapM (componentViolations policy)).map fun found ↦
      ⟨found.flatten, components.length⟩ := by
  rw [checkInventory, foldlM_checkComponent]
  simp

theorem ok_iff_no_error {report : CheckReport} :
    report.ok = true ↔ ∀ v ∈ report.violations, v.severity ≠ .error := by
  simp [CheckReport.ok, CheckReport.errors, List.filter_eq_nil_iff]

theorem checkInventory_append (components more : List Component) :
    (checkInventory (components ++ more) policy).map CheckReport.violations =
      (checkInventory components policy).bind fun report ↦
        (checkInventory more policy).map fun report' ↦ report.violations ++ report'.violations := by
  simp only [checkInventory_eq, List.mapM_append]
  cases components.mapM (componentViolations policy) with
  | error e => rfl
  | ok found =>
      cases more.mapM (componentViolations policy) with
      | error e => rfl
      | ok found' => simp [Except.map, bind, Except.bind, pure, Except.pure]

/-- The gate passes what is compliant or unreferenced throughout. -/
theorem passes_iff : (∃ report, checkInventory components policy = .ok report ∧ report.ok = true) ↔
    ∀ comp ∈ components, Compliant policy comp ∨ Unreferenced policy comp := by
  have hcomp : ∀ comp, (∃ vs, componentViolations policy comp = .ok vs ∧
      ∀ v ∈ vs, v.severity ≠ .error) ↔ Compliant policy comp ∨ Unreferenced policy comp := by
    intro comp
    unfold componentViolations Compliant Unreferenced
    cases policy.classify comp.license with
    | error e => simp [Except.map]
    | ok decision =>
        simp only [Except.map, Except.ok.injEq, exists_eq_left']
        exact violationsOf_no_error_iff
  simp only [← hcomp, checkInventory_eq]
  constructor
  · rintro ⟨report, hreport, hok⟩ comp hmem
    obtain ⟨found, hfound, rfl⟩ : ∃ found, components.mapM (componentViolations policy) =
        .ok found ∧ (⟨found.flatten, components.length⟩ : CheckReport) = report := by
      cases hfound : components.mapM (componentViolations policy) with
      | error e => simp [hfound, Except.map] at hreport
      | ok found => exact ⟨found, rfl, by simpa [hfound, Except.map] using hreport⟩
    obtain ⟨vs, hvs, hcheck⟩ :=
      ExceptList.exists_of_forall₂ (ExceptList.forall₂_of_mapM_eq_ok hfound) hmem
    exact ⟨vs, hcheck, fun v hv ↦ ok_iff_no_error.mp hok v (List.mem_flatten.mpr ⟨vs, hvs, hv⟩)⟩
  · intro hall
    obtain ⟨found, hfound⟩ := ExceptList.exists_mapM_iff.mpr fun comp hmem ↦
      (hall comp hmem).imp fun vs hvs ↦ hvs.1
    refine ⟨⟨found.flatten, components.length⟩, by rw [hfound]; rfl, ok_iff_no_error.mpr ?_⟩
    intro v hv
    obtain ⟨vs, hvs, hmem⟩ := List.mem_flatten.mp hv
    obtain ⟨comp, hcompMem, hcheck⟩ := (ExceptList.mem_of_mapM_eq_ok hfound).mp hvs
    obtain ⟨vs', hvs', hclean⟩ := hall comp hcompMem
    obtain rfl := Except.ok.inj (hcheck.symm.trans hvs')
    exact hclean v hmem

theorem not_compliant_of_unreferenced (h : Unreferenced policy comp) : ¬ Compliant policy comp := by
  obtain ⟨decision, hclassify, hyellow, -, href⟩ := h
  rintro ⟨decision', hclassify', hship⟩
  obtain rfl := Except.ok.inj (hclassify.symm.trans hclassify')
  rw [hyellow] at hship
  exact hship.2 href

/-- The gate is exact unless an unreferenced component is the only kind of fault. -/
theorem gatesExactly_iff : GatesExactly policy components ↔
    ((∃ comp ∈ components, Unreferenced policy comp) →
      ∃ comp ∈ components, ¬ Compliant policy comp ∧ ¬ Unreferenced policy comp) := by
  constructor
  · rintro hexact ⟨comp, hmem, hun⟩
    by_contra hnone
    have hpass : ∀ comp ∈ components, Compliant policy comp ∨ Unreferenced policy comp := by
      intro c hc
      by_contra hfault
      exact hnone ⟨c, hc, not_or.mp hfault⟩
    exact not_compliant_of_unreferenced hun (hexact.ok_iff.mp (passes_iff.mpr hpass) comp hmem)
  · intro hfault
    refine ⟨?_, checkInventory_append components⟩
    rw [passes_iff]
    refine ⟨fun hpass comp hmem ↦ ?_, fun hall comp hmem ↦ Or.inl (hall comp hmem)⟩
    refine (hpass comp hmem).resolve_right fun hun ↦ ?_
    obtain ⟨c, hc, hnot, hnotUn⟩ := hfault ⟨comp, hmem, hun⟩
    exact (hpass c hc).elim hnot hnotUn

/-! ## An approval without a reference -/

def weakLibrary : Component where
  name := "weaklib"
  version := "1.0"
  license := "MPL-2.0"
  integrationType := .libraryStatic
  approvalStatus := .approved

def mozillaPolicy : LicensePolicy where
  classToSpdx := [(.green, ["MIT"]), (.yellow, ["MPL-2.0"]), (.red, ["GPL-3.0-only"])]
  unknownAction := "block"
  armsLengthIntegrationTypes := ["container_cli", "container_api"]

theorem not_gatesExactly_weakLibrary : ¬ GatesExactly mozillaPolicy [weakLibrary] := by
  intro hexact
  have hclassify : mozillaPolicy.classify weakLibrary.license =
      .ok ⟨"MPL-2.0", .yellow, "review", "policy table"⟩ := by decide +kernel
  have hpass : ∃ report, checkInventory [weakLibrary] mozillaPolicy = .ok report ∧
      report.ok = true := ⟨⟨[], 1⟩, by decide +kernel, rfl⟩
  obtain ⟨decision, hdecision, hship⟩ := hexact.ok_iff.mp hpass weakLibrary List.mem_cons_self
  obtain rfl := Except.ok.inj (hclassify.symm.trans hdecision)
  exact hship.2 rfl

end Governance

end Vantage
