import Vantage.App.Build
import Vantage.Engines.LicenseGate
import Vantage.Lib.ExceptList

/-!
# The images that container engines run

The registry checks and records the image of the manifest, and an adapter runs
the image that its class names, which has no digest.
-/

namespace Vantage

open Adapters Adapters.Native Adapters.Oss Engines Governance ExceptList

variable {w : World} {runner : SandboxRunner} {policy : LicensePolicy}
  {manifests : List EngineManifest} {lock : EngineLock} {options : BuildOptions}
  {reg reg' : EngineRegistry History}

/-! ## The adapters that are bound -/

/-- The adapters that the application has for an engine. -/
def Shipped (w : World) (runner : SandboxRunner) (id : String) (x : EngineAdapter History) : Prop :=
  (∃ a ∈ nativeAdapters, a.engine.id = id ∧ x = a.toEngineAdapter w) ∨
    ∃ a ∈ ossAdapters, a.engine.id = id ∧ ∃ version, x = a.toEngineAdapter w runner version

def BindsShipped (w : World) (runner : SandboxRunner) (reg : EngineRegistry History) : Prop :=
  ∀ id e x, reg.get id = some e → e.adapter = some x → Shipped w runner id x

theorem bindsShipped_update {id : String} {f : RegisteredEngine History → RegisteredEngine History}
    (hreg : BindsShipped w runner reg) (h : reg.update id f = .ok reg')
    (hf : ∀ e x, (f e).adapter = some x → e.adapter = some x ∨ Shipped w runner id x) :
    BindsShipped w runner reg' := by
  unfold EngineRegistry.update at h
  split at h
  · exact absurd h (by simp)
  · rename_i e he
    obtain rfl := Except.ok.inj h
    intro id' e' x he' hx
    by_cases hsame : id' = id
    · subst hsame
      rw [EngineRegistry.get, Dict.get?_set_self] at he'
      obtain rfl := Option.some.inj he'
      exact (hf e x hx).elim (hreg id' e x he) id
    · rw [EngineRegistry.get, Dict.get?_set_of_ne _ hsame] at he'
      exact hreg id' e' x he' hx

theorem bindsShipped_registerManifest {m : EngineManifest} (hreg : BindsShipped w runner reg)
    (h : reg.registerManifest m lock = .ok reg') : BindsShipped w runner reg' := by
  unfold EngineRegistry.registerManifest at h
  split at h
  · exact absurd h (by simp)
  · obtain rfl := Except.ok.inj h
    intro id e x he hx
    by_cases hsame : id = m.id
    · subst hsame
      rw [EngineRegistry.get, Dict.get?_set_self] at he
      obtain rfl := Option.some.inj he
      exact absurd hx (by simp)
    · rw [EngineRegistry.get, Dict.get?_set_of_ne _ hsame] at he
      exact hreg id e x he hx

theorem bindsShipped_bindNative {a : NativeAdapter} (ha : a ∈ nativeAdapters)
    (hreg : BindsShipped w runner reg) (h : bindNative w reg a = .ok reg') :
    BindsShipped w runner reg' := by
  unfold bindNative at h
  split_ifs at h
  · refine bindsShipped_update hreg h fun e x hx ↦ Or.inr (Or.inl ⟨a, ha, rfl, ?_⟩)
    exact (Option.some.inj hx).symm
  · obtain rfl := Except.ok.inj h
    exact hreg

theorem bindsShipped_bindOss {a : ContainerAdapter} (ha : a ∈ ossAdapters)
    {detected : Option (List String)} (hreg : BindsShipped w runner reg)
    (h : bindOss w runner detected reg a = .ok reg') : BindsShipped w runner reg' := by
  unfold bindOss at h
  split_ifs at h
  · refine bindsShipped_update hreg h fun e x hx ↦ Or.inr (Or.inr ⟨a, ha, rfl, ?_⟩)
    exact ⟨_, (Option.some.inj hx).symm⟩
  · obtain rfl := Except.ok.inj h
    exact hreg

theorem bindsShipped_enable {id : String} {enabled : Bool} (hreg : BindsShipped w runner reg)
    (h : reg.enable id enabled = .ok reg') : BindsShipped w runner reg' :=
  bindsShipped_update hreg h fun _ _ hx ↦ Or.inl hx

/-- The application binds no adapters but its own. -/
theorem bindsShipped_build (h : VantageApp.build w runner policy manifests lock options = .ok reg) :
    BindsShipped w runner reg := by
  obtain ⟨loaded, hload, h⟩ := exists_of_bind_ok h
  obtain ⟨native, hnative, h⟩ := exists_of_bind_ok h
  obtain ⟨enabled, henabled, h⟩ := exists_of_bind_ok h
  have hempty : BindsShipped w runner (⟨policy, .empty⟩ : EngineRegistry History) :=
    fun id e x he _ ↦ absurd he (by simp [EngineRegistry.get])
  have hloaded : BindsShipped w runner loaded :=
    foldlM_invariant (fun m _ reg reg' hreg ↦ bindsShipped_registerManifest hreg) hempty hload
  have hbound : BindsShipped w runner native :=
    foldlM_invariant (fun a ha reg reg' hreg ↦ bindsShipped_bindNative ha hreg) hloaded hnative
  have hvisible : BindsShipped w runner enabled :=
    foldlM_invariant (fun id _ reg reg' hreg ↦ bindsShipped_enable hreg) hbound henabled
  split_ifs at h
  · exact foldlM_invariant (fun a ha reg reg' hreg ↦ bindsShipped_bindOss ha hreg) hvisible h
  · obtain rfl := Except.ok.inj h
    exact hvisible

theorem shipped_of_adapterFor {id : String} {x : EngineAdapter History}
    (h : VantageApp.build w runner policy manifests lock options = .ok reg)
    (hx : reg.adapterFor id = some x) : Shipped w runner id x := by
  unfold EngineRegistry.adapterFor at hx
  split at hx
  · exact absurd hx (by simp)
  · rename_i e he
    split_ifs at hx
    exact bindsShipped_build h id e x he hx

/-! ## Images -/

variable {d : DockerSandboxRunner}

/-- No image of an adapter class contains the sign in front of a digest. -/
theorem no_digest_of_mem {a : ContainerAdapter} (ha : a ∈ ossAdapters) :
    '@' ∉ a.engine.image.toList := by
  have hall : ∀ a ∈ ossAdapters, '@' ∉ a.engine.image.toList := by decide
  exact hall a ha

theorem image_ne_option {a : ContainerAdapter} (ha : a ∈ ossAdapters) :
    a.engine.image ≠ "--env" := by
  have hall : ∀ a ∈ ossAdapters, a.engine.image ≠ "--env" := by decide
  exact hall a ha

theorem ids_disjoint {a : ContainerAdapter} (ha : a ∈ ossAdapters) {b : NativeAdapter}
    (hb : b ∈ nativeAdapters) : b.engine.id ≠ a.engine.id := by
  have hall : ∀ a ∈ ossAdapters, ∀ b ∈ nativeAdapters, b.engine.id ≠ a.engine.id := by decide
  exact hall a ha b hb

theorem eq_of_engine_id {a b : ContainerAdapter} (ha : a ∈ ossAdapters) (hb : b ∈ ossAdapters)
    (h : a.engine.id = b.engine.id) : a = b := by
  have hnodup : (ossAdapters.map fun a ↦ a.engine.id).Nodup := by decide
  exact List.inj_on_of_nodup_map hnodup ha hb h

/-- An image is pinned when it is the one of the registry and ends in the
digest that the lock file records. -/
def Pinned (reg : EngineRegistry History) (lock : EngineLock) (id image : String) : Prop :=
  ∃ e entry digest base, reg.get id = some e ∧ e.metadata.image = some image ∧
    lock.get? id = some entry ∧ entry.imageDigest = some digest ∧ image = base ++ "@" ++ digest

theorem not_pinned_of_mem {a : ContainerAdapter} (ha : a ∈ ossAdapters) (id : String) :
    ¬ Pinned reg lock id a.engine.image := by
  rintro ⟨e, entry, digest, base, -, -, -, -, himage⟩
  apply no_digest_of_mem ha
  rw [himage]
  simp

/-- Every container command is one for the given image. -/
def RunsImage (d : DockerSandboxRunner) (image : String) (ev : Event) : Prop :=
  ∀ argv outcome, ev = .process argv outcome →
    ∃ spec, argv = d.buildArgv spec ∧ spec.image = image ∧ spec.env = []

theorem quiet_runsImage (image : String) : World.Quiet (RunsImage d image) where
  clock now := by rintro argv outcome ⟨⟩
  newId id := by rintro argv outcome ⟨⟩

theorem logs_normalize {P C : Event → Prop} (hquiet : World.Quiet P) {a : ContainerAdapter}
    (ha : a ∈ ossAdapters) {version : String} {request : EngineRunRequest}
    {records : List Record} :
    Effect.Logs P C (a.normalize w version request records) fun _ ↦ True := by
  simp only [ossAdapters, List.mem_cons, List.not_mem_nil, or_false] at ha
  rcases ha with rfl | rfl | rfl | rfl | rfl | rfl | rfl | rfl | rfl | rfl
  case inr.inr.inr.inr.inr.inr.inl =>
    refine Effect.Logs.bind (Effect.Logs.ofExcept (Q := fun _ ↦ True) (by simp)) fun host ↦ ?_
    exact (logs_normalizeRecords hquiet).mono (by simp)
  all_goals exact logs_normalizeRecords hquiet

theorem logs_dockerRun {C : Event → Prop} {spec : ContainerSpec} (henv : spec.env = []) :
    Effect.Logs (RunsImage d spec.image) C (d.run w spec) fun _ ↦ True := by
  have hprocess : Effect.Logs (RunsImage d spec.image) C
      (w.runProcess (d.buildArgv spec) (some spec.limits.timeoutSeconds)) fun _ ↦ True := by
    intro h
    refine ⟨[.process (d.buildArgv spec) _], rfl, ?_, by simp⟩
    rintro ev hev argv outcome rfl
    rw [List.mem_singleton, Event.process.injEq] at hev
    exact ⟨spec, hev.1, rfl, henv⟩
  refine Effect.Logs.bind hprocess fun outcome ↦ ?_
  cases outcome with
  | exited code stdout stderr => exact Effect.Logs.pure (by simp)
  | timedOut stdout stderr => exact Effect.Logs.pure (by simp)
  | failure message => exact Effect.Logs.silent (fun _ ↦ rfl) (by simp)

/-- A run of a container engine issues commands for the image of the class only. -/
theorem logs_lifecycle {C : Event → Prop} {a : ContainerAdapter} (ha : a ∈ ossAdapters)
    (version : String) (request : EngineRunRequest) :
    Effect.Logs (RunsImage d a.engine.image) C
      ((a.toEngineAdapter w (d.runner w) version).lifecycle request) fun _ ↦ True := by
  have hprepare : ∀ spec, a.prepareTarget request = .ok spec →
      spec.image = a.engine.image ∧ spec.env = [] := by
    intro spec h
    obtain ⟨args, -, hspec⟩ := exists_of_bind_ok h
    rw [← Except.ok.inj hspec]
    exact ⟨rfl, rfl⟩
  refine Effect.Logs.bind_of_returns (Effect.Logs.ofExcept (by simp))
    (Effect.Returns.ofExcept hprepare) fun spec hspec ↦ ?_
  refine Effect.Logs.bind (Q := fun _ ↦ True) ?_ fun outcome ↦ ?_
  · rw [← hspec.1]
    exact Effect.Logs.bind (logs_dockerRun hspec.2) fun result ↦ Effect.Logs.pure (by simp)
  refine Effect.Logs.bind (Effect.Logs.ofExcept (Q := fun _ ↦ True) (by simp)) fun raw ↦ ?_
  refine Effect.Logs.bind (logs_normalize (quiet_runsImage _) ha) fun observations ↦ ?_
  exact Effect.Logs.bind (Effect.Logs.pure (Q := fun _ ↦ True) (by simp)) fun _ ↦
    Effect.Logs.pure (by simp)

/-- Every container command of every bound engine is for an image that is not pinned. -/
theorem image_not_pinned {a : ContainerAdapter} {x : EngineAdapter History}
    (hbuild : VantageApp.build w (d.runner w) policy manifests lock options = .ok reg)
    (ha : a ∈ ossAdapters) (hx : reg.adapterFor a.engine.id = some x)
    (request : EngineRunRequest) (h : History) :
    ∃ new, (x.lifecycle request h).2 = new ++ h ∧ ∀ argv outcome, .process argv outcome ∈ new →
      (∃ image, d.ImageArgument argv image) ∧
        ∀ image, d.ImageArgument argv image → ¬ Pinned reg lock a.engine.id image := by
  rcases shipped_of_adapterFor hbuild hx with ⟨b, hb, hid, -⟩ | ⟨b, hb, hid, version, rfl⟩
  · exact absurd hid (ids_disjoint ha hb)
  · obtain rfl := eq_of_engine_id hb ha hid
    obtain ⟨new, hlog, hnew, -⟩ := logs_lifecycle (C := fun _ ↦ True) hb version request h
    refine ⟨new, hlog, fun argv outcome hev ↦ ?_⟩
    obtain ⟨spec, rfl, himage, henv⟩ := hnew _ hev argv outcome rfl
    refine ⟨⟨spec.image, spec, rfl, rfl⟩, fun image hargument ↦ ?_⟩
    have hne : spec.image ≠ "--env" := by
      rw [himage]
      exact image_ne_option hb
    rw [d.imageArgument_buildArgv henv hne hargument, himage]
    exact not_pinned_of_mem hb _

/-! ## Nuclei as it is shipped -/

def demoRequest : EngineRunRequest where
  runId := "r"
  scanId := "s"
  tenantId := "t"
  engineId := "nuclei"
  capabilities := [.auditTemplates]
  seedUrls := ["https://app.example/"]
  scopeRules := []
  maxRequestsPerSecond := 10
  maxConcurrency := 4
  options := []
  proxyUrl := none
  engineId_ok := Nuclei.id_ok
  capabilities_ne := List.cons_ne_nil _ _
  seedUrls_ne := List.cons_ne_nil _ _
  rate_pos := by norm_num
  concurrency_pos := by norm_num

def demoDocker : DockerSandboxRunner := {}

theorem binds_nuclei : (VantageApp.build refusingWorld (demoDocker.runner refusingWorld) demoPolicy
    [nucleiManifest] demoLock {}).map (fun reg ↦ (reg.adapterFor "nuclei").isSome) = .ok true := by
  decide +kernel

theorem exists_nuclei : ∃ reg x, VantageApp.build refusingWorld (demoDocker.runner refusingWorld)
    demoPolicy [nucleiManifest] demoLock {} = .ok reg ∧
      reg.adapterFor Nuclei.adapter.engine.id = some x := by
  have hbinds := binds_nuclei
  cases hbuild : VantageApp.build refusingWorld (demoDocker.runner refusingWorld) demoPolicy
      [nucleiManifest] demoLock {} with
  | error e => simp [hbuild, Except.map] at hbinds
  | ok reg =>
      rw [hbuild] at hbinds
      obtain ⟨x, hx⟩ := Option.isSome_iff_exists.mp (Except.ok.inj hbinds)
      exact ⟨reg, x, rfl, hx⟩

theorem nuclei_mem : Nuclei.adapter ∈ ossAdapters := List.mem_cons_self

theorem image_not_pinned_nuclei : ∃ (reg : EngineRegistry History) (x : EngineAdapter History)
    (new : History), reg.adapterFor "nuclei" = some x ∧
      (x.lifecycle demoRequest []).2 = new ++ [] ∧ ∀ argv outcome, .process argv outcome ∈ new →
        (∃ image, demoDocker.ImageArgument argv image) ∧
          ∀ image, demoDocker.ImageArgument argv image → ¬ Pinned reg demoLock "nuclei" image := by
  obtain ⟨reg, x, hbuild, hx⟩ := exists_nuclei
  obtain ⟨new, hrun⟩ := image_not_pinned hbuild nuclei_mem hx demoRequest []
  exact ⟨reg, x, new, hx, hrun⟩

/-- The one command of the run, on a host where it cannot be started. -/
theorem lifecycle_nuclei (version : String) : ∃ spec, spec.image = Nuclei.engine.image ∧
    ((Nuclei.adapter.toEngineAdapter refusingWorld (demoDocker.runner refusingWorld)
      version).lifecycle demoRequest []).2 =
        [.process (demoDocker.buildArgv spec) (.failure "No such file or directory")] :=
  ⟨_, rfl, rfl⟩

theorem not_forall_pinned_nuclei :
    ¬ ∀ reg x, VantageApp.build refusingWorld (demoDocker.runner refusingWorld) demoPolicy
        [nucleiManifest] demoLock {} = .ok reg → reg.adapterFor "nuclei" = some x →
      ∀ argv outcome, .process argv outcome ∈ (x.lifecycle demoRequest []).2 →
        ∀ image, demoDocker.ImageArgument argv image → Pinned reg demoLock "nuclei" image := by
  intro hall
  obtain ⟨reg, x, hbuild, hx⟩ := exists_nuclei
  rcases shipped_of_adapterFor hbuild hx with ⟨b, hb, hid, -⟩ | ⟨b, hb, hid, version, rfl⟩
  · exact ids_disjoint nuclei_mem hb hid
  · obtain rfl := eq_of_engine_id hb nuclei_mem hid
    obtain ⟨spec, himage, hrun⟩ := lifecycle_nuclei version
    refine not_pinned_of_mem nuclei_mem "nuclei" (himage ▸ hall reg _ hbuild hx
      (demoDocker.buildArgv spec) (.failure "No such file or directory") ?_ spec.image
        ⟨spec, rfl, rfl⟩)
    rw [hrun]
    exact List.mem_singleton_self _

end Vantage
