import Vantage.Adapters.External.Burp
import Vantage.Adapters.Oss.Discovery
import Vantage.Adapters.Oss.Nuclei
import Vantage.Adapters.Oss.Recon
import Vantage.Adapters.Oss.Zap

/-!
# One bad record

Normalization goes through the records in one loop without a guard, so a single
record that cannot be read loses the output of the whole run. What has to be
readable in a record is different for every tool.
-/

namespace Vantage.Adapters.Oss

open Text Engines

/-! ## Records beside other records -/

section Isolated

variable {ρ τ : Type} {w : World} {e : EngineId} {version : String} {request : EngineRunRequest}
  {reportsOf : τ → Except PyError (List Report)} {r₁ r₂ : List ρ}

/-- Normalization returns, and what it makes of the first list does not depend
on records that come before or after it. -/
structure Isolated (normalize : List ρ → Action (List Observation)) (r₁ r₂ : List ρ) : Prop where
  returns : ∀ records ∈ [r₁, r₂, r₁ ++ r₂, r₂ ++ r₁], ∀ h, ∃ obs h',
    normalize records h = (.ok obs, h')
  kept : ∀ records ∈ [r₁ ++ r₂, r₂ ++ r₁], ∀ h obs h' s obs' s',
    normalize r₁ h = (.ok obs, h') → normalize records s = (.ok obs', s') →
      ∀ o ∈ obs, ∃ o' ∈ obs', SameContent o o'

theorem isolated_iff {select : List ρ → List τ} :
    Isolated (fun records ↦ normalizeRecords w e version request reportsOf (select records)) r₁ r₂ ↔
      (∀ records ∈ [r₁, r₂, r₁ ++ r₂, r₂ ++ r₁], ∀ x ∈ select records,
        AllAccepted (reportsOf x)) ∧
      ∀ records ∈ [r₁ ++ r₂, r₂ ++ r₁], ∀ r, Reported reportsOf (select r₁) r →
        Reported reportsOf (select records) r := by
  constructor
  · rintro ⟨hreturns, hkept⟩
    refine ⟨fun records hmem ↦ (returnsIff_normalizeRecords []).mp (hreturns records hmem []), ?_⟩
    intro records hmem r hr
    obtain ⟨obs, h', hrun⟩ := hreturns r₁ List.mem_cons_self []
    obtain ⟨obs', s', hrun'⟩ := hreturns records (by simp_all) []
    obtain ⟨o, ho, hro⟩ := (returns_normalizeRecords [] obs h' hrun).2 r hr
    obtain ⟨o', ho', hsame⟩ := hkept records hmem [] obs h' [] obs' s' hrun hrun' o ho
    obtain ⟨r', hr', hro'⟩ := (returns_normalizeRecords [] obs' s' hrun').1 o' ho'
    rwa [hro.eq_of_sameContent hro' hsame]
  · rintro ⟨hread, hreported⟩
    refine ⟨fun records hmem h ↦ (returnsIff_normalizeRecords h).mpr (hread records hmem), ?_⟩
    intro records hmem h obs h' s obs' s' hrun hrun' o ho
    obtain ⟨r, hr, hro⟩ := (returns_normalizeRecords h obs h' hrun).1 o ho
    obtain ⟨o', ho', hro'⟩ :=
      (returns_normalizeRecords s obs' s' hrun').2 r (hreported records hmem r hr)
    exact ⟨o', ho', hro.sameContent hro'⟩

/-- A loop that looks at each record by itself has no other way to lose records. -/
theorem isolated_map_iff {f : ρ → τ} :
    Isolated (fun records ↦ normalizeRecords w e version request reportsOf (records.map f)) r₁ r₂ ↔
      ∀ rec ∈ r₁ ++ r₂, AllAccepted (reportsOf (f rec)) := by
  rw [isolated_iff]
  constructor
  · rintro ⟨hread, -⟩ rec hrec
    exact hread (r₁ ++ r₂) (by simp) _ (List.mem_map_of_mem hrec)
  · intro hread
    constructor
    · intro records hmem x hx
      obtain ⟨rec, hrec, rfl⟩ := List.mem_map.mp hx
      have hsubset : rec ∈ r₁ ++ r₂ := by
        simp only [List.mem_cons, List.not_mem_nil, or_false] at hmem
        rcases hmem with rfl | rfl | rfl | rfl
        · exact List.mem_append_left _ hrec
        · exact List.mem_append_right _ hrec
        · exact hrec
        · exact List.mem_append.mpr (List.mem_append.mp hrec).symm
      exact hread rec hsubset
    · rintro records hmem r ⟨x, hx, hr⟩
      obtain ⟨rec, hrec, rfl⟩ := List.mem_map.mp hx
      have hsubset : rec ∈ records := by
        simp only [List.mem_cons, List.not_mem_nil, or_false] at hmem
        rcases hmem with rfl | rfl
        · exact List.mem_append_left _ hrec
        · exact List.mem_append_right _ hrec
      exact ⟨f rec, List.mem_map_of_mem hsubset, hr⟩

end Isolated

/-! ## Values that can be read -/

/-- `urlsplit` accepts the text and its port is a number in range. -/
def UrlReadable (url : String) : Prop := ∃ parts, Url.urlsplit url = some parts ∧ parts.port ≠ none

/-- A text of digits that `int` converts. -/
def DigitsReadable (s : String) : Prop := isDigitText s.toList = true → parseInt s ≠ none

/-- A summary that the evidence takes. -/
def Fits (summary : String) : Prop := summary.length ≤ maxSummary

section Values

variable {noHost method url s : String} {parameter : Option String}

theorem exists_locationOf_iff :
    (∃ loc, locationOf noHost method parameter url = .ok loc) ↔ UrlReadable url := by
  unfold locationOf UrlReadable
  cases Url.urlsplit url with
  | none => simp
  | some parts => cases hport : parts.port <;> simp [hport]

theorem exists_intOfDigits_iff : (∃ n, intOfDigits s = .ok n) ↔ DigitsReadable s := by
  unfold intOfDigits DigitsReadable
  split_ifs with hdigits
  · cases parseInt s <;> simp [hdigits]
  · simp [hdigits]

variable {α : Type} {x : Except PyError α} {f : α → Except PyError (List Report)}
  {reports : List Report}

theorem allAccepted_bind_iff : AllAccepted (x >>= f) ↔ ∃ a, x = .ok a ∧ AllAccepted (f a) := by
  unfold AllAccepted
  simp only [ExceptList.bind_eq_ok_iff]
  constructor
  · rintro ⟨reports, ⟨a, ha, hreports⟩, hall⟩
    exact ⟨a, ha, reports, hreports, hall⟩
  · rintro ⟨a, ha, reports, hreports, hall⟩
    exact ⟨reports, ⟨a, ha, hreports⟩, hall⟩

theorem allAccepted_pure_iff : AllAccepted (pure reports) ↔ ∀ r ∈ reports, r.Accepted :=
  ⟨by rintro ⟨_, ⟨⟩, hall⟩; exact hall, fun hall ↦ ⟨reports, rfl, hall⟩⟩

end Values

/-! ## ffuf, feroxbuster and httpx -/

/-- The status is a number; the rest is read only when the status is of interest. -/
def ResourceReadable (rec : Record) : Prop :=
  let url := (Json.getD rec "url" (.str "")).pyStr
  ∃ status, pyInt ((Json.getD rec "status" (.num 0)).orElse (.num 0)) = .ok status ∧
    (url ≠ "" → status ∈ interesting → UrlReadable url ∧ Fits (toString status ++ " " ++ url))

theorem resourceReport_readable {engine : ContainerEngine} {noHost lengthKey : String}
    {rec : Record} :
    AllAccepted (resourceReport engine noHost lengthKey rec) ↔ ResourceReadable rec := by
  unfold resourceReport ResourceReadable
  dsimp only
  simp only [allAccepted_bind_iff]
  refine exists_congr fun status ↦ and_congr_right fun _ ↦ ?_
  by_cases hskip : (Json.getD rec "url" (.str "")).pyStr = "" ∨ status ∉ interesting
  · rw [if_pos hskip, allAccepted_pure_iff]
    refine iff_of_true (by simp) fun hurl hstatus ↦ ?_
    exact absurd hskip (not_or.mpr ⟨hurl, not_not.mpr hstatus⟩)
  · obtain ⟨hurl, hstatus⟩ := not_or.mp hskip
    simp only [if_neg hskip, allAccepted_bind_iff, allAccepted_pure_iff, List.forall_mem_singleton,
      Report.Accepted, engine.id_ok, true_and]
    simp [hurl, not_not.mp hstatus, Fits, exists_locationOf_iff]

namespace Httpx

/-- Records without a URL are skipped. -/
def Readable (rec : Record) : Prop :=
  let url := ((Json.get rec "url").orElse ((Json.get rec "input").orElse (.str ""))).pyStr
  url ≠ "" → UrlReadable url ∧ ∀ tech ∈ techsOf rec, Fits (tech ++ " at " ++ url)

theorem reportOf_readable {rec : Record} : AllAccepted (reportOf rec) ↔ Readable rec := by
  unfold reportOf Readable
  dsimp only
  split_ifs with hurl
  · rw [allAccepted_pure_iff]
    exact iff_of_true (by simp) fun hne ↦ absurd hurl hne
  · simp only [allAccepted_bind_iff, allAccepted_pure_iff, List.forall_mem_map, Report.Accepted,
      techReport, engine, id_ok, true_and]
    simp [hurl, Fits, exists_locationOf_iff]

end Httpx

/-! ## tlsx -/

namespace Tlsx

def Readable (rec : Record) : Prop :=
  ∃ port, pyInt ((Json.getD rec "port" (.num 443)).orElse (.num 443)) = .ok port

theorem tlsReport_accepted {rec : Record} {location : Location} {id title description : String}
    {severity : Severity} (h : title.length ≤ maxSummary) :
    (tlsReport rec location id title severity description).Accepted := ⟨id_ok, h⟩

/-- The titles of the reports are short. -/
theorem reportOf_readable {rec : Record} : AllAccepted (reportOf rec) ↔ Readable rec := by
  have hexpired : "TLS certificate expired".length ≤ maxSummary := by decide +kernel
  have hsigned : "Self-signed TLS certificate".length ≤ maxSummary := by decide +kernel
  have hweak : ∀ version ∈ weakVersions,
      ("Obsolete TLS protocol: " ++ version).length ≤ maxSummary := by decide +kernel
  unfold reportOf Readable
  dsimp only
  simp only [allAccepted_bind_iff, allAccepted_pure_iff]
  refine exists_congr fun port ↦ and_iff_left ?_
  intro r hr
  rw [List.mem_append, List.mem_append, List.mem_ite_nil_right, List.mem_ite_nil_right,
    List.mem_ite_nil_right, List.mem_singleton, List.mem_singleton, List.mem_singleton] at hr
  rcases hr with (⟨-, rfl⟩ | ⟨-, rfl⟩) | ⟨hversion, rfl⟩
  · exact tlsReport_accepted hexpired
  · exact tlsReport_accepted hsigned
  · exact tlsReport_accepted (hweak _ hversion)

end Tlsx

/-! ## Nuclei -/

namespace Nuclei

/-- The items in which an identifier is looked for. -/
def cweItems : Json → List Json
  | .obj classification =>
      match (Json.get classification "cwe-id").orElse (Json.get classification "cwe") with
      | .arr items => items
      | item => [item]
  | _ => []

def CwesReadable (items : List Json) : Prop :=
  ∀ item ∈ items, item ≠ .null → DigitsReadable (dropCwe (lower item.pyStr))

def Readable (rec : Record) : Prop :=
  let info := (Json.get rec "info").membersOf
  let templateId := ((Json.get rec "template-id").orElse
    ((Json.get rec "templateID").orElse (.str "unknown"))).pyStr
  let matched := ((Json.get rec "matched-at").orElse
    ((Json.get rec "host").orElse (.str ""))).pyStr
  CwesReadable (cweItems (Json.getD info "classification" (.obj []))) ∧
    UrlReadable (withScheme matched) ∧
    Fits ("nuclei template " ++ templateId ++ " matched at " ++ matched)

theorem cwesOfItems_null (items : List Json) : cwesOfItems (.null :: items) = cwesOfItems items :=
  rfl

theorem cwesOfItems_cons {item : Json} (h : item ≠ .null) (items : List Json) :
    cwesOfItems (item :: items) = (do
      let n ← intOfDigits (dropCwe (lower item.pyStr))
      let rest ← cwesOfItems items
      pure (n.toList ++ rest)) := by
  cases item with
  | null => exact absurd rfl h
  | _ => rfl

theorem exists_cwesOfItems_iff {items : List Json} :
    (∃ cwes, cwesOfItems items = .ok cwes) ↔ CwesReadable items := by
  unfold CwesReadable
  induction items with
  | nil => exact iff_of_true ⟨[], rfl⟩ (by simp)
  | cons item items ih =>
      rw [List.forall_mem_cons, ← ih]
      by_cases hnull : item = .null
      · subst hnull
        rw [cwesOfItems_null]
        exact ⟨fun h ↦ ⟨fun hne ↦ absurd rfl hne, h⟩, And.right⟩
      · simp only [cwesOfItems_cons hnull, ExceptList.bind_eq_ok_iff, ← exists_intOfDigits_iff]
        constructor
        · rintro ⟨cwes, n, hn, rest, hrest, -⟩
          exact ⟨fun _ ↦ ⟨n, hn⟩, rest, hrest⟩
        · rintro ⟨hitem, rest, hrest⟩
          obtain ⟨n, hn⟩ := hitem hnull
          exact ⟨_, n, hn, rest, hrest, rfl⟩

theorem exists_extractCwes_iff {value : Json} :
    (∃ cwes, extractCwes value = .ok cwes) ↔ CwesReadable (cweItems value) := by
  rw [← exists_cwesOfItems_iff]
  have heq : extractCwes value = cwesOfItems (cweItems value) := by
    unfold extractCwes cweItems
    cases value with
    | obj members =>
        dsimp only
        cases (Json.get members "cwe-id").orElse (Json.get members "cwe") <;> rfl
    | _ => rfl
  rw [heq]

theorem reportOf_readable {rec : Record} : AllAccepted (reportOf rec) ↔ Readable rec := by
  unfold reportOf Readable
  dsimp only
  rw [← exists_extractCwes_iff, allAccepted_bind_iff, ← exists_and_right]
  refine exists_congr fun cwes ↦ and_congr_right fun _ ↦ ?_
  rw [← exists_locationOf_iff, allAccepted_bind_iff, ← exists_and_right]
  refine exists_congr fun location ↦ and_congr_right fun _ ↦ ?_
  rw [allAccepted_pure_iff, List.forall_mem_singleton]
  exact and_iff_right id_ok

end Nuclei

/-! ## ZAP -/

namespace Zap

/-- Alerts have a list of instances; a text has characters, and an object no first element. -/
def InstancesReadable : Json → Prop
  | .arr _ => True
  | .str _ => True
  | .obj members => members = []
  | _ => False

/-- The first instance when it is an object. -/
def headInstance : Json → Record
  | .arr (.obj first :: _) => first
  | _ => []

def nameOf (alert : Record) : String :=
  ((Json.get alert "name").orElse ((Json.get alert "alert").orElse (.str "ZAP alert"))).pyStr

def severityOf (alert : Record) : Severity :=
  (riskMap.lookup
    (lower (Json.getD alert "riskcode" (Json.getD alert "risk" (.str "0"))).pyStr)).getD .info

def confidenceOf (alert : Record) : Confidence :=
  (confMap.lookup (Json.getD alert "confidence" (.str "1")).pyStr).getD .tentative

def Readable (alert : Record) : Prop :=
  let instances := Json.getD alert "instances" (.arr [])
  let url := ((Json.get (headInstance instances) "uri").orElse
    ((Json.get alert "_host").orElse (.str ""))).pyStr
  DigitsReadable (Json.get alert "cweid").pyStr ∧ InstancesReadable instances ∧
    UrlReadable (withScheme url) ∧
    Fits ("ZAP alert '" ++ nameOf alert ++ "' (" ++ (severityOf alert).value ++ "/" ++
      (confidenceOf alert).value ++ ")")

theorem exists_cweOf_iff {alert : Record} :
    (∃ cwes, cweOf alert = .ok cwes) ↔ DigitsReadable (Json.get alert "cweid").pyStr := by
  rw [← exists_intOfDigits_iff]
  unfold cweOf
  cases intOfDigits (Json.get alert "cweid").pyStr with
  | error e => simp [bind, Except.bind]
  | ok n => cases n <;> simp [bind, Except.bind, pure, Except.pure]

/-- What is read of the instances, when they are read at all. -/
theorem instancesReadable_iff {instances : Json} :
    InstancesReadable instances ↔
      (∃ first, firstInstance instances = .ok first) ∧ ∃ count, lenOf instances = .ok count := by
  unfold InstancesReadable firstInstance lenOf
  cases instances with
  | null => simp
  | bool b => simp
  | num n => simp
  | real x => simp
  | str s => cases htruthy : (Json.str s).truthy <;> simp
  | arr items =>
      rcases items with _ | ⟨item, items⟩
      · simp [Json.truthy]
      · cases item <;> simp [Json.truthy]
  | obj members => cases members <;> simp [Json.truthy]

theorem firstInstance_eq {instances : Json} {first : Record}
    (h : firstInstance instances = .ok first) : first = headInstance instances := by
  unfold firstInstance at h
  split_ifs at h with htruthy
  · obtain rfl := Except.ok.inj h
    rcases instances with _ | _ | _ | _ | _ | items | _
    · rfl
    · rfl
    · rfl
    · rfl
    · rfl
    · cases items with
      | nil => rfl
      | cons item items => simp [Json.truthy] at htruthy
    · rfl
  · rcases instances with _ | _ | _ | _ | _ | items | _
    · simp at h
    · simp at h
    · simp at h
    · simp at h
    · exact (Except.ok.inj h).symm
    · rcases items with _ | ⟨item, items⟩
      · exact (Except.ok.inj h).symm
      · cases item <;> exact (Except.ok.inj h).symm
    · simp at h

theorem reportOf_readable {alert : Record} : AllAccepted (reportOf alert) ↔ Readable alert := by
  unfold reportOf Readable
  dsimp only
  constructor
  · intro h
    obtain ⟨cwes, hcwes, h⟩ := allAccepted_bind_iff.mp h
    obtain ⟨first, hfirst, h⟩ := allAccepted_bind_iff.mp h
    obtain ⟨location, hlocation, h⟩ := allAccepted_bind_iff.mp h
    obtain ⟨count, hcount, h⟩ := allAccepted_bind_iff.mp h
    obtain rfl := firstInstance_eq hfirst
    rw [allAccepted_pure_iff, List.forall_mem_singleton] at h
    exact ⟨exists_cweOf_iff.mp ⟨cwes, hcwes⟩,
      instancesReadable_iff.mpr ⟨⟨_, hfirst⟩, count, hcount⟩,
      exists_locationOf_iff.mp ⟨location, hlocation⟩, h.2⟩
  · rintro ⟨hcwes, hinstances, hurl, hfits⟩
    obtain ⟨cwes, hcwes⟩ := exists_cweOf_iff.mpr hcwes
    obtain ⟨⟨first, hfirst⟩, count, hcount⟩ := instancesReadable_iff.mp hinstances
    obtain rfl := firstInstance_eq hfirst
    obtain ⟨location, hlocation⟩ := exists_locationOf_iff.mpr hurl
    refine allAccepted_bind_iff.mpr ⟨cwes, hcwes, allAccepted_bind_iff.mpr ⟨_, hfirst, ?_⟩⟩
    refine allAccepted_bind_iff.mpr ⟨location, hlocation, ?_⟩
    refine allAccepted_bind_iff.mpr ⟨count, hcount, ?_⟩
    rw [allAccepted_pure_iff, List.forall_mem_singleton]
    exact ⟨id_ok, hfits⟩

end Zap

/-! ## Katana -/

namespace Katana

/-- The first record of an endpoint; later ones are dropped. -/
def firstEntry (records : List Record) (endpoint : String) : Option (String × String) :=
  (records.map endpointOf).find? (·.1 = endpoint)

/-- The URL names a host that remains when its final dots are dropped. -/
def HasHost (url : String) : Prop :=
  ∀ parts, Url.urlsplit url = some parts → locationHost (lower (orElse parts.hostname "")) ≠ ""

def EntryReadable (entry : String × String) : Prop :=
  UrlReadable entry.1 ∧ (HasHost entry.1 → Fits ("crawled " ++ entry.2 ++ " " ++ entry.1))

/-- The first records of the endpoints are readable, and an endpoint of both
lists that has a host is reached by one method. -/
def Readable (r₁ r₂ : List Record) : Prop :=
  (∀ endpoint ≠ "", ∀ records ∈ [r₁, r₂], ∀ entry ∈ firstEntry records endpoint,
    EntryReadable entry) ∧
  ∀ endpoint ≠ "", HasHost endpoint → ∀ entry₁ ∈ firstEntry r₁ endpoint,
    ∀ entry₂ ∈ firstEntry r₂ endpoint, entry₁ = entry₂

variable {records r₁ r₂ : List Record} {entry entry' : String × String} {seen : List String}

theorem mem_unseen_iff : entry ∈ unseen seen records ↔
    entry.1 ≠ "" ∧ entry.1 ∉ seen ∧ firstEntry records entry.1 = some entry := by
  induction records generalizing seen with
  | nil => simp [unseen, firstEntry]
  | cons rec records ih =>
      have hfirst : firstEntry (rec :: records) entry.1 =
          if (endpointOf rec).1 = entry.1 then some (endpointOf rec)
          else firstEntry records entry.1 := by
        simp only [firstEntry, List.map_cons, List.find?_cons]
        by_cases heq : (endpointOf rec).1 = entry.1 <;> simp [heq]
      unfold unseen
      dsimp only
      rw [hfirst]
      by_cases hskip : (endpointOf rec).1 = "" ∨ (endpointOf rec).1 ∈ seen
      · rw [if_pos hskip, ih]
        refine and_congr_right fun hne ↦ and_congr_right fun hseen ↦ ?_
        have hother : (endpointOf rec).1 ≠ entry.1 := by
          rintro heq
          rw [heq] at hskip
          exact hskip.elim hne hseen
        rw [if_neg hother]
      · obtain ⟨hne, hseen⟩ := not_or.mp hskip
        rw [if_neg hskip, List.mem_cons, ih]
        by_cases heq : (endpointOf rec).1 = entry.1
        · rw [if_pos heq]
          simp only [heq, List.mem_cons_self, not_true_eq_false, false_and, and_false, or_false]
          rw [heq] at hne hseen
          simp only [ne_eq, hne, hseen, not_false_eq_true, true_and, Option.some.injEq]
          exact eq_comm
        · have hentry : entry ≠ endpointOf rec := fun h ↦ heq (congrArg Prod.fst h.symm)
          rw [if_neg heq]
          simp only [hentry, false_or, List.mem_cons, not_or, ne_eq]
          exact ⟨fun ⟨h, h', h''⟩ ↦ ⟨h, h'.2, h''⟩, fun ⟨h, h', h''⟩ ↦ ⟨h, ⟨Ne.symm heq, h'⟩, h''⟩⟩

theorem mem_unseen_nil_iff : entry ∈ unseen [] records ↔
    entry.1 ≠ "" ∧ firstEntry records entry.1 = some entry := by
  rw [mem_unseen_iff]
  simp

/-- An entry of the whole list is the first of its endpoint in one of the parts. -/
theorem firstEntry_append (endpoint : String) : firstEntry (r₁ ++ r₂) endpoint =
    (firstEntry r₁ endpoint).or (firstEntry r₂ endpoint) := by
  rw [firstEntry, List.map_append, List.find?_append]
  rfl

theorem endpoint_of_firstEntry {endpoint : String} (h : firstEntry records endpoint = some entry) :
    entry.1 = endpoint := by
  simpa using List.find?_some h

theorem hasHost_iff {method url : String} {location : Location}
    (h : locationOf "" method none url = .ok location) : HasHost url ↔ location.host ≠ "" := by
  unfold locationOf at h
  unfold HasHost
  cases hparts : Url.urlsplit url with
  | none => simp [hparts] at h
  | some parts =>
      cases hport : parts.port with
      | none => simp [hparts, hport] at h
      | some explicit =>
          simp only [hparts, hport, Except.ok.injEq] at h
          rw [← h]
          simp [Location.modelValidate]

theorem reportOf_readable : AllAccepted (reportOf entry) ↔ EntryReadable entry := by
  unfold reportOf EntryReadable
  rw [allAccepted_bind_iff]
  constructor
  · rintro ⟨location, hlocation, h⟩
    refine ⟨exists_locationOf_iff.mp ⟨location, hlocation⟩, fun hhost ↦ ?_⟩
    rw [if_neg ((hasHost_iff hlocation).mp hhost), allAccepted_pure_iff,
      List.forall_mem_singleton] at h
    exact h.2
  · rintro ⟨hurl, hfits⟩
    obtain ⟨location, hlocation⟩ := exists_locationOf_iff.mpr hurl
    refine ⟨location, hlocation, ?_⟩
    by_cases hhost : location.host = ""
    · rw [if_pos hhost, allAccepted_pure_iff]
      simp
    · rw [if_neg hhost, allAccepted_pure_iff, List.forall_mem_singleton]
      exact ⟨id_ok, hfits ((hasHost_iff hlocation).mpr hhost)⟩

/-- A report names the endpoint and the method that it was made from. -/
theorem reported_spec {reports : List Report} {r : Report} (h : reportOf entry = .ok reports)
    (hr : r ∈ reports) : HasHost entry.1 ∧
      r.evidence.data = [("url", .str entry.1), ("method", .str entry.2)] := by
  unfold reportOf at h
  obtain ⟨location, hlocation, h⟩ := ExceptList.bind_eq_ok_iff.mp h
  split_ifs at h with hhost
  · obtain rfl := Except.ok.inj h
    exact absurd hr List.not_mem_nil
  · obtain rfl := Except.ok.inj h
    obtain rfl := List.mem_singleton.mp hr
    exact ⟨(hasHost_iff hlocation).mpr hhost, rfl⟩

theorem exists_report (hread : EntryReadable entry) (hhost : HasHost entry.1) :
    ∃ reports r, reportOf entry = .ok reports ∧ r ∈ reports := by
  obtain ⟨reports, hreports, -⟩ := reportOf_readable.mpr hread
  cases reports with
  | cons r rest => exact ⟨_, r, hreports, List.mem_cons_self⟩
  | nil =>
      unfold reportOf at hreports
      obtain ⟨location, hlocation, h⟩ := ExceptList.bind_eq_ok_iff.mp hreports
      rw [if_neg ((hasHost_iff hlocation).mp hhost)] at h
      exact absurd (Except.ok.inj h) (List.cons_ne_nil _ _)

theorem entry_eq {reports reports' : List Report} {r : Report} (h : reportOf entry = .ok reports)
    (hr : r ∈ reports) (h' : reportOf entry' = .ok reports') (hr' : r ∈ reports') :
    entry = entry' := by
  have hdata := (reported_spec h hr).2.symm.trans (reported_spec h' hr').2
  simp only [List.cons.injEq, Prod.mk.injEq, Json.str.injEq, true_and, and_true] at hdata
  exact Prod.ext hdata.1 hdata.2

variable {w : World} {e : EngineId} {version : String} {request : EngineRunRequest}

theorem isolated_unseen_iff :
    Isolated (fun records ↦ normalizeRecords w e version request reportOf (unseen [] records)) r₁ r₂ ↔
      Readable r₁ r₂ := by
  rw [isolated_iff]
  constructor
  · rintro ⟨hread, hreported⟩
    have hentry : ∀ endpoint ≠ "", ∀ records ∈ [r₁, r₂], ∀ entry ∈ firstEntry records endpoint,
        EntryReadable entry := by
      intro endpoint hne records hmem entry hfirst
      obtain rfl := endpoint_of_firstEntry hfirst
      refine reportOf_readable.mp (hread records ?_ entry (mem_unseen_nil_iff.mpr ⟨hne, hfirst⟩))
      simp only [List.mem_cons, List.not_mem_nil, or_false] at hmem ⊢
      exact hmem.elim Or.inl fun h ↦ Or.inr (Or.inl h)
    refine ⟨hentry, ?_⟩
    intro endpoint hne hhost entry₁ hfirst₁ entry₂ hfirst₂
    obtain rfl := endpoint_of_firstEntry hfirst₁
    have hread₁ := hentry _ hne r₁ List.mem_cons_self entry₁ hfirst₁
    obtain ⟨reports, r, hreports, hr⟩ := exists_report hread₁ hhost
    obtain ⟨entry, hentry, reports', hreports', hr'⟩ := hreported (r₂ ++ r₁) (by simp) r
      ⟨entry₁, mem_unseen_nil_iff.mpr ⟨hne, hfirst₁⟩, reports, hreports, hr⟩
    obtain rfl := entry_eq hreports hr hreports' hr'
    have hfirst := (mem_unseen_nil_iff.mp hentry).2
    rw [firstEntry_append, Option.mem_def.mp hfirst₂] at hfirst
    exact (Option.some.inj hfirst).symm
  · rintro ⟨hread, hagree⟩
    constructor
    · intro records hmem entry hentry
      obtain ⟨hne, hfirst⟩ := mem_unseen_nil_iff.mp hentry
      have hpart : ∃ part ∈ [r₁, r₂], entry ∈ firstEntry part entry.1 := by
        simp only [List.mem_cons, List.not_mem_nil, or_false] at hmem
        rcases hmem with rfl | rfl | rfl | rfl
        · exact ⟨_, by simp, hfirst⟩
        · exact ⟨_, by simp, hfirst⟩
        · rw [firstEntry_append, Option.or_eq_some_iff] at hfirst
          rcases hfirst with hfirst | ⟨-, hfirst⟩
          · exact ⟨r₁, by simp, hfirst⟩
          · exact ⟨r₂, by simp, hfirst⟩
        · rw [firstEntry_append, Option.or_eq_some_iff] at hfirst
          rcases hfirst with hfirst | ⟨-, hfirst⟩
          · exact ⟨r₂, by simp, hfirst⟩
          · exact ⟨r₁, by simp, hfirst⟩
      obtain ⟨part, hmem, hfirst⟩ := hpart
      exact reportOf_readable.mpr (hread _ hne part hmem entry hfirst)
    · rintro records hmem r ⟨entry, hentry, reports, hreports, hr⟩
      obtain ⟨hne, hfirst⟩ := mem_unseen_nil_iff.mp hentry
      refine ⟨entry, mem_unseen_nil_iff.mpr ⟨hne, ?_⟩, reports, hreports, hr⟩
      simp only [List.mem_cons, List.not_mem_nil, or_false] at hmem
      rcases hmem with rfl | rfl
      · rw [firstEntry_append, hfirst]
        rfl
      · rw [firstEntry_append, hfirst]
        cases hfirst₂ : firstEntry r₂ entry.1 with
        | none => rfl
        | some entry₂ =>
            rw [hagree _ hne (reported_spec hreports hr).1 entry hfirst entry₂ hfirst₂]
            rfl

end Katana

end Vantage.Adapters.Oss

namespace Vantage.Adapters.External

open Text Engines Oss

/-! ## Burp -/

namespace BurpAdapter

def CwesReadable (issue : Record) : Prop :=
  ∀ o ∈ cwePattern.findAll ((Json.get issue "vulnerability_classifications").orElse
      ((Json.get issue "cwe").orElse (.str ""))).pyStr.toList,
    parseInt (String.ofList (o.group.getD [])) ≠ none

/-- An issue without a name has a type that is an object, if it has one. -/
def NameReadable (issue : Record) : Prop :=
  (Json.get issue "name").truthy = true ∨ (Json.getD issue "issue_type" (.obj [])).isObj = true

def displayName (issue : Record) : String :=
  ((Json.get issue "name").orElse
    ((Json.get (Json.getD issue "issue_type" (.obj [])).membersOf "name").orElse
      (.str "Burp issue"))).pyStr

def urlOf (issue : Record) : String :=
  let origin := (Json.getD issue "origin" (.str "")).pyStr
  let path := (Json.getD issue "path" (.str "/")).pyStr
  if origin = "" then path else origin ++ path

def severityOf (issue : Record) : Severity :=
  (severityMap.lookup (lower (Json.getD issue "severity" (.str "info")).pyStr)).getD .info

def Readable (issue : Record) : Prop :=
  CwesReadable issue ∧ NameReadable issue ∧ UrlReadable (withScheme (urlOf issue)) ∧
    Fits ("Burp reported '" ++ displayName issue ++ "' (" ++ (severityOf issue).value ++ "/" ++
      (confidenceOf issue).value ++ ")")

variable {issue : Record} {name : String}

theorem exists_extractCwes_iff : (∃ cwes, extractCwes issue = .ok cwes) ↔ CwesReadable issue := by
  unfold extractCwes CwesReadable
  dsimp only
  rw [ExceptList.exists_mapM_iff]
  refine forall₂_congr fun o _ ↦ ?_
  cases parseInt (String.ofList (o.group.getD [])) <;> simp

theorem nameOf_iff : nameOf issue = .ok name ↔ NameReadable issue ∧ name = displayName issue := by
  unfold nameOf NameReadable displayName
  by_cases htruthy : (Json.get issue "name").truthy = true
  · rw [if_pos htruthy, Json.orElse, if_pos htruthy, Except.ok.injEq]
    exact ⟨fun h ↦ ⟨Or.inl htruthy, h.symm⟩, fun h ↦ h.2.symm⟩
  · rw [if_neg htruthy, Json.orElse, if_neg htruthy]
    cases Json.getD issue "issue_type" (.obj []) with
    | obj type => exact ⟨fun h ↦ ⟨Or.inr rfl, (Except.ok.inj h).symm⟩, fun h ↦ congrArg _ h.2.symm⟩
    | _ => simp [htruthy, Json.isObj]

theorem reportOf_readable : AllAccepted (reportOf (.obj issue)) ↔ Readable issue := by
  unfold reportOf Readable
  dsimp only
  constructor
  · intro h
    obtain ⟨cwes, hcwes, h⟩ := allAccepted_bind_iff.mp h
    obtain ⟨name, hname, h⟩ := allAccepted_bind_iff.mp h
    obtain ⟨location, hlocation, h⟩ := allAccepted_bind_iff.mp h
    obtain ⟨hreadable, rfl⟩ := nameOf_iff.mp hname
    rw [allAccepted_pure_iff, List.forall_mem_singleton] at h
    exact ⟨exists_extractCwes_iff.mp ⟨cwes, hcwes⟩, hreadable,
      exists_locationOf_iff.mp ⟨location, hlocation⟩, h.2⟩
  · rintro ⟨hcwes, hname, hurl, hfits⟩
    obtain ⟨cwes, hcwes⟩ := exists_extractCwes_iff.mpr hcwes
    obtain ⟨location, hlocation⟩ := exists_locationOf_iff.mpr hurl
    refine allAccepted_bind_iff.mpr ⟨cwes, hcwes, ?_⟩
    refine allAccepted_bind_iff.mpr ⟨_, nameOf_iff.mpr ⟨hname, rfl⟩, ?_⟩
    refine allAccepted_bind_iff.mpr ⟨location, hlocation, ?_⟩
    rw [allAccepted_pure_iff, List.forall_mem_singleton]
    exact ⟨id_ok, hfits⟩

end BurpAdapter

end Vantage.Adapters.External

namespace Vantage.Adapters

open Engines Oss External

/-! ## All tools -/

/-- The third-party tools whose records are normalized. -/
inductive Tool where
  | nuclei
  | zap
  | burp (a : BurpAdapter)
  | ffuf
  | feroxbuster
  | katana
  | httpx
  | tlsx

namespace Tool

/-- `normalize_results` of the adapter; the adapter of Burp knows its version itself. -/
def normalize (w : World) (version : String) (request : EngineRunRequest) :
    Tool → List Record → Action (List Observation)
  | .nuclei => Nuclei.adapter.normalize w version request
  | .zap => Zap.adapter.normalize w version request
  | .burp a => fun records ↦ a.normalize w request (records.map .obj)
  | .ffuf => Ffuf.adapter.normalize w version request
  | .feroxbuster => Feroxbuster.adapter.normalize w version request
  | .katana => Katana.adapter.normalize w version request
  | .httpx => Httpx.adapter.normalize w version request
  | .tlsx => Tlsx.adapter.normalize w version request

/-- What has to be readable in two lists of records. -/
def Readable : Tool → List Record → List Record → Prop
  | .nuclei, r₁, r₂ => ∀ rec ∈ r₁ ++ r₂, Nuclei.Readable rec
  | .zap, r₁, r₂ => ∀ rec ∈ r₁ ++ r₂, Zap.Readable rec
  | .burp _, r₁, r₂ => ∀ rec ∈ r₁ ++ r₂, BurpAdapter.Readable rec
  | .ffuf, r₁, r₂ => ∀ rec ∈ r₁ ++ r₂, ResourceReadable rec
  | .feroxbuster, r₁, r₂ => ∀ rec ∈ r₁ ++ r₂, ResourceReadable rec
  | .katana, r₁, r₂ => Katana.Readable r₁ r₂
  | .httpx, r₁, r₂ => ∀ rec ∈ r₁ ++ r₂, Httpx.Readable rec
  | .tlsx, r₁, r₂ => ∀ rec ∈ r₁ ++ r₂, Tlsx.Readable rec

theorem isolated_of_id {w : World} {e : EngineId} {version : String} {request : EngineRunRequest}
    {reportOf : Record → Except PyError (List Report)} {Readable : Record → Prop}
    (h : ∀ rec, AllAccepted (reportOf rec) ↔ Readable rec) (r₁ r₂ : List Record) :
    Isolated (normalizeRecords w e version request reportOf) r₁ r₂ ↔
      ∀ rec ∈ r₁ ++ r₂, Readable rec := by
  have hid : (fun records : List Record ↦
      normalizeRecords w e version request reportOf (records.map id)) =
        normalizeRecords w e version request reportOf := by
    funext records
    rw [List.map_id]
  rw [← hid, isolated_map_iff]
  exact forall₂_congr fun rec _ ↦ h rec

end Tool

/-! ## A port out of range -/

theorem auditCapabilities_ne : [Capability.auditTemplates] ≠ [] := List.cons_ne_nil _ _

theorem auditSeeds_ne : ["https://app.example/"] ≠ [] := List.cons_ne_nil _ _

theorem auditRate_pos : (0 : ℚ) < 10 := by norm_num

theorem auditConcurrency_pos : 1 ≤ 4 := by decide

def auditRequest : EngineRunRequest where
  runId := "r"
  scanId := "s"
  tenantId := "t"
  engineId := "nuclei"
  capabilities := [.auditTemplates]
  seedUrls := ["https://app.example/"]
  scopeRules := []
  maxRequestsPerSecond := 10
  maxConcurrency := 4
  options := []
  proxyUrl := none
  engineId_ok := Nuclei.id_ok
  capabilities_ne := auditCapabilities_ne
  seedUrls_ne := auditSeeds_ne
  rate_pos := auditRate_pos
  concurrency_pos := auditConcurrency_pos

def goodRecord : Record := [("matched-at", .str "https://app.example/")]

def badRecord : Record := [("matched-at", .str "https://app.example:99999/")]

theorem not_urlReadable_badPort : ¬ UrlReadable "https://app.example:99999/" := by
  have hport : ((Url.urlsplit "https://app.example:99999/").all fun parts ↦ parts.port.isNone) =
      true := by decide +kernel
  rintro ⟨parts, hparts, hsome⟩
  rw [hparts, Option.all_some] at hport
  exact hsome (Option.isNone_iff_eq_none.mp hport)

end Vantage.Adapters
