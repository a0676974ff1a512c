import Vantage.Adapters.Native.Crawler
import Vantage.Adapters.Native.Fingerprint
import Vantage.Adapters.Native.Tls
import Vantage.Adapters.Oss.Discovery
import Vantage.Adapters.Oss.Nuclei
import Vantage.Adapters.Oss.Recon
import Vantage.Adapters.Oss.Zap
import Vantage.Engines.Registry

/-!
# The composition root

The registry is loaded and adapters are bound to its engines.
-/

namespace Vantage

open Adapters Adapters.Native Adapters.Oss Engines Governance

def nativeAdapters : List NativeAdapter :=
  [Headers.adapter, Fingerprint.adapter, Tls.adapter, Crawler.adapter, Validator.adapter]

/-- `_oss_adapter_factories`; the keys are the identifiers of the engines. -/
def ossAdapters : List ContainerAdapter :=
  [Nuclei.adapter, Ffuf.adapter, Katana.adapter, Httpx.adapter, Feroxbuster.adapter, Zap.adapter,
   Gitleaks.adapter, Subfinder.adapter, Dnsx.adapter, Tlsx.adapter]

/-- `_ver`. -/
def versionOf (reg : EngineRegistry History) (engineId : String) : String :=
  match reg.get engineId with
  | none => "unknown"
  | some e => e.metadata.version

/-- An engine without a manifest is passed over. -/
def bindNative (w : World) (reg : EngineRegistry History) (a : NativeAdapter) :
    Except PyError (EngineRegistry History) :=
  if (reg.get a.engine.id).isSome then reg.bindAdapter a.engine.id (a.toEngineAdapter w)
  else .ok reg

/-- Whether the engine is bound; when tools are looked for on the host, only if it is there. -/
def bindsOss (reg : EngineRegistry History) (detected : Option (List String)) (engineId : String) :
    Bool :=
  (reg.get engineId).any RegisteredEngine.usable && detected.all (·.contains engineId)

def bindOss (w : World) (runner : SandboxRunner) (detected : Option (List String))
    (reg : EngineRegistry History) (a : ContainerAdapter) : Except PyError (EngineRegistry History) :=
  if bindsOss reg detected a.engine.id then
    reg.bindAdapter a.engine.id (a.toEngineAdapter w runner (versionOf reg a.engine.id))
  else .ok reg

/-- The choices that are made when the application is built. -/
structure BuildOptions where
  bindOss : Bool := true
  /-- Which tools are installed, when they are looked for. -/
  installed : Option (String → Bool) := none

def BuildOptions.detected (options : BuildOptions) : Option (List String) :=
  options.installed.map fun installed ↦
    (ossAdapters.map fun a ↦ a.engine.id).filter installed

/-- The registry that `VantageApp.build` hands to the orchestrator. -/
def VantageApp.build (w : World) (runner : SandboxRunner) (policy : LicensePolicy)
    (manifests : List EngineManifest) (lock : EngineLock) (options : BuildOptions) :
    Except PyError (EngineRegistry History) := do
  let reg ← EngineRegistry.load History policy manifests lock
  let reg ← nativeAdapters.foldlM (bindNative w) reg
  let reg ← (options.detected.getD []).foldlM (fun reg engineId ↦ reg.enable engineId true) reg
  if options.bindOss then ossAdapters.foldlM (Vantage.bindOss w runner options.detected) reg
  else pure reg

end Vantage
