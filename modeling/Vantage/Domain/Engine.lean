import Vantage.Domain.Finding
import Vantage.Domain.Target

/-!
# Engine metadata and the data exchanged with adapters
-/

namespace Vantage

/-- Engines are selected by capability, never by name. -/
inductive Capability where
  | crawlHttp
  | crawlBrowser
  | discoveryContent
  | discoveryJs
  | discoveryApiSpec
  | discoverySubdomain
  | reconHttp
  | fingerprintTech
  | analysisTls
  | analysisDns
  | analysisHeaders
  | analysisSecrets
  | auditPassive
  | auditActive
  | auditTemplates
  | auditApiRest
  | auditApiGraphql
  | auditApiSoap
  | auditWebsocket
  | auditAuthz
  | oobCallback
  | validation
deriving DecidableEq, Repr

def Capability.value : Capability → String
  | .crawlHttp => "crawl.http"
  | .crawlBrowser => "crawl.browser"
  | .discoveryContent => "discovery.content"
  | .discoveryJs => "discovery.js"
  | .discoveryApiSpec => "discovery.api_spec"
  | .discoverySubdomain => "discovery.subdomain"
  | .reconHttp => "recon.http"
  | .fingerprintTech => "fingerprint.tech"
  | .analysisTls => "analysis.tls"
  | .analysisDns => "analysis.dns"
  | .analysisHeaders => "analysis.headers"
  | .analysisSecrets => "analysis.secrets"
  | .auditPassive => "audit.passive"
  | .auditActive => "audit.active"
  | .auditTemplates => "audit.templates"
  | .auditApiRest => "audit.api.rest"
  | .auditApiGraphql => "audit.api.graphql"
  | .auditApiSoap => "audit.api.soap"
  | .auditWebsocket => "audit.websocket"
  | .auditAuthz => "audit.authz"
  | .oobCallback => "oob.callback"
  | .validation => "validation"

inductive IntegrationType where
  | native
  | library
  | containerCli
  | containerApi
  | externalService
deriving DecidableEq, Repr

def IntegrationType.value : IntegrationType → String
  | .native => "native"
  | .library => "library"
  | .containerCli => "container_cli"
  | .containerApi => "container_api"
  | .externalService => "external_service"

inductive NetworkMode where
  | none
  | scopedEgress
deriving DecidableEq, Repr

structure ResourceLimits where
  cpus : PyFloat := ⟨"1.0", true, some 1⟩
  memoryMb : ℕ := 1024
  pids : ℕ := 512
  timeoutSeconds : ℕ := 3600
  maxOutputBytes : ℕ := 256 * 1024 * 1024
  tmpfsMb : ℕ := 512

structure EngineMetadata where
  id : String
  name : String
  version : String
  vendor : String
  licenseSpdx : String
  licenseClass : LicenseClass
  approvalStatus : ApprovalStatus
  integration : IntegrationType
  capabilities : List Capability
  image : Option String
  homepage : Option String
  id_ok : isIdentifier id = true

/-- The fields of the metadata before validation. -/
structure RawEngineMetadata where
  id : String
  name : String
  version : String
  vendor : String
  licenseSpdx : String
  licenseClass : LicenseClass
  approvalStatus : ApprovalStatus
  integration : IntegrationType
  capabilities : List Capability
  image : Option String := none
  homepage : Option String := none

def EngineMetadata.modelValidate (raw : RawEngineMetadata) : Except PyError EngineMetadata :=
  if h : isIdentifier raw.id = true then
    .ok { id := raw.id
          name := raw.name
          version := raw.version
          vendor := raw.vendor
          licenseSpdx := raw.licenseSpdx
          licenseClass := raw.licenseClass
          approvalStatus := raw.approvalStatus
          integration := raw.integration
          capabilities := raw.capabilities
          image := raw.image
          homepage := raw.homepage
          id_ok := h }
  else .error .validationError

theorem EngineMetadata.licenseClass_modelValidate {raw : RawEngineMetadata} {md : EngineMetadata}
    (h : EngineMetadata.modelValidate raw = .ok md) : md.licenseClass = raw.licenseClass := by
  unfold EngineMetadata.modelValidate at h
  split_ifs at h
  obtain rfl := Except.ok.inj h
  rfl

theorem EngineMetadata.id_modelValidate {raw : RawEngineMetadata} {md : EngineMetadata}
    (h : EngineMetadata.modelValidate raw = .ok md) : md.id = raw.id := by
  unfold EngineMetadata.modelValidate at h
  split_ifs at h
  obtain rfl := Except.ok.inj h
  rfl

inductive HealthState where
  | healthy
  | degraded
  | unavailable
deriving DecidableEq, Repr

/-- Everything an adapter needs to run one engine. -/
structure EngineRunRequest where
  runId : String
  scanId : String
  tenantId : String
  engineId : String
  capabilities : List Capability
  seedUrls : List String
  scopeRules : List RawScopeRule
  maxRequestsPerSecond : ℚ
  maxConcurrency : ℕ
  options : List (String × Json)
  proxyUrl : Option String
  engineId_ok : isIdentifier engineId = true
  capabilities_ne : capabilities ≠ []
  seedUrls_ne : seedUrls ≠ []
  rate_pos : 0 < maxRequestsPerSecond
  concurrency_pos : 1 ≤ maxConcurrency

structure RawEngineRunRequest where
  scanId : String
  tenantId : String
  engineId : String
  capabilities : List Capability
  seedUrls : List String
  scopeRules : List RawScopeRule := []
  maxRequestsPerSecond : ℚ := 10
  maxConcurrency : ℕ := 4
  options : List (String × Json) := []
  proxyUrl : Option String := none

/-- `EngineRunRequest(...)`; the run id is drawn by the model. -/
def EngineRunRequest.modelValidate (runId : String) (raw : RawEngineRunRequest) :
    Except PyError EngineRunRequest :=
  if h : isIdentifier raw.engineId = true ∧ raw.capabilities ≠ [] ∧ raw.seedUrls ≠ [] ∧
      0 < raw.maxRequestsPerSecond ∧ 1 ≤ raw.maxConcurrency then
    .ok { runId := runId
          scanId := raw.scanId
          tenantId := raw.tenantId
          engineId := raw.engineId
          capabilities := raw.capabilities
          seedUrls := raw.seedUrls
          scopeRules := raw.scopeRules
          maxRequestsPerSecond := raw.maxRequestsPerSecond
          maxConcurrency := raw.maxConcurrency
          options := raw.options
          proxyUrl := raw.proxyUrl
          engineId_ok := h.1
          capabilities_ne := h.2.1
          seedUrls_ne := h.2.2.1
          rate_pos := h.2.2.2.1
          concurrency_pos := h.2.2.2.2 }
  else .error .validationError

end Vantage
