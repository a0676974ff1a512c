import Vantage.Scan.ConfirmedOnly

/-!
# Where findings come from

The host of a finding is that of an observation that an engine reported in the
run. Neither validation nor correlation nor the assessment moves it.
-/

namespace Vantage.Scan

open Scope Engines Findings Persistence Ai

variable {σ : Type} {o : Orchestrator σ} {scan scan' : Scan} {target : Target}
  {p p' : Platform σ} {report : ScanReport} {findings : List UnifiedFinding}
  {observations observations' : List Observation} {runs : List TaskRun}

theorem location_of_validationStage {w w' : σ}
    (h : o.validationStage target observations w = (.ok observations', w')) :
    ∀ obs' ∈ observations', ∃ obs ∈ observations, obs'.location = obs.location := by
  unfold Orchestrator.validationStage at h
  cases hfactory : o.proberFactory with
  | none =>
      simp only [hfactory] at h
      obtain ⟨rfl, -⟩ := Effect.eq_of_pure h
      exact fun obs hobs ↦ ⟨obs, hobs, rfl⟩
  | some factory =>
      simp only [hfactory] at h
      split_ifs at h
      · obtain ⟨prober, w₁, -, h⟩ := Effect.exists_of_bind_ok h
        obtain ⟨revised, w₂, hrun, hrevised⟩ :=
          validateAll_spec o.validation (Effect.total o.env.clock) prober observations w₁
        obtain ⟨rfl, -⟩ := Effect.ok_unique hrun h
        intro obs' hobs'
        obtain ⟨obs, hobs, hsame⟩ := ExceptList.exists_of_forall₂ hrevised.flip hobs'
        exact ⟨obs, hobs, hsame.location⟩
      · obtain ⟨rfl, -⟩ := Effect.eq_of_pure h
        exact fun obs hobs ↦ ⟨obs, hobs, rfl⟩

theorem host_of_correlationStage
    (h : o.correlationStage scan target observations p = (.ok (scan', findings), p')) :
    ∀ f ∈ findings, ∃ obs ∈ observations, f.host = obs.location.host := by
  obtain ⟨validated, p₁, hvalidation, h⟩ := Effect.exists_of_bind_ok h
  obtain ⟨correlated, p₂, hcorrelate, h⟩ := Effect.exists_of_bind_ok h
  obtain ⟨merged, p₃, hmerge, h⟩ := Effect.exists_of_bind_ok h
  obtain ⟨scan₁, p₄, -, h⟩ := Effect.exists_of_bind_ok h
  obtain ⟨scan₂, p₅, -, h⟩ := Effect.exists_of_bind_ok h
  obtain ⟨hpair, -⟩ := Effect.eq_of_pure h
  obtain ⟨-, rfl⟩ := Prod.mk.inj hpair
  have hmerged : merged.map UnifiedFinding.host = correlated.map UnifiedFinding.host :=
    map_mergeHistory (fun _ _ _ ↦ rfl) hmerge
  obtain ⟨newId, w, -, hcorrelate⟩ := Effect.exists_of_bind_ok (exists_of_outside hcorrelate).1
  obtain ⟨rfl, -⟩ := Effect.eq_of_pure hcorrelate
  rw [List.forall_mem_map]
  intro f hf
  obtain ⟨g, hg, hhost⟩ := List.mem_map.mp (hmerged ▸ List.mem_map_of_mem hf)
  obtain ⟨group, hgroup, id, rfl⟩ := exists_group hg
  have hprimary := ((Grouping.partitions_groupBy _ validated).mem_iff hgroup).mp primaryOf_mem
  obtain ⟨obs, hobs, hlocation⟩ :=
    location_of_validationStage (exists_of_outside hvalidation).1 _ hprimary.1
  exact ⟨obs, hobs, hhost.symm.trans (congrArg Location.host hlocation)⟩

/-- Every finding in the report of a run names the host of an observation that was reported
in the run. -/
theorem host_of_run (hrun : o.run scan target p = (.ok report, p'))
    (hruns : Executes o scan target p runs) :
    ∀ f ∈ report.findings, ∃ r ∈ runs, ∃ obs ∈ r.outcome.observations,
      f.host = obs.location.host := by
  rw [run_eq] at hrun
  cases hruns with
  | refused hauthorized =>
      rw [hauthorized, if_neg Bool.false_ne_true] at hrun
      obtain ⟨scan₁, p₁, -, h⟩ := Effect.exists_of_bind_ok hrun
      obtain ⟨scan₂, p₂, -, h⟩ := Effect.exists_of_bind_ok h
      obtain ⟨scan₃, p₃, -, h⟩ := Effect.exists_of_bind_ok h
      obtain ⟨rfl, -⟩ := Effect.eq_of_pure h
      exact fun f hf ↦ absurd hf List.not_mem_nil
  | conducted hauthorized hplan hloops =>
      rw [hauthorized, if_pos rfl] at hrun
      obtain ⟨⟨scan₁, scope, plan⟩, p₁, hplan', h⟩ := Effect.exists_of_bind_ok hrun
      obtain ⟨⟨⟩, rfl⟩ := Effect.ok_unique hplan hplan'
      obtain ⟨⟨scan₂, progress⟩, p₂, hengine, h⟩ := Effect.exists_of_bind_ok h
      obtain ⟨⟨scan₃, findings⟩, p₃, hcorrelation, h⟩ := Effect.exists_of_bind_ok h
      obtain ⟨⟨scan₄, findings', ai⟩, p₄, hreport, h⟩ := Effect.exists_of_bind_ok h
      obtain ⟨rfl, -⟩ := Effect.eq_of_pure h
      obtain ⟨gathered, p₅, hloop, hengine⟩ := Effect.exists_of_bind_ok hengine
      obtain ⟨-, p₆, -, hengine⟩ := Effect.exists_of_bind_ok hengine
      obtain ⟨scan₅, p₇, -, hengine⟩ := Effect.exists_of_bind_ok hengine
      obtain ⟨hpair, -⟩ := Effect.eq_of_pure hengine
      obtain ⟨-, rfl⟩ := Prod.mk.inj hpair
      obtain ⟨rfl, -⟩ := Effect.ok_unique (foldl_of_loops hloops) (exists_of_outside hloop).1
      intro f hf
      obtain ⟨obs, hobs, hhost⟩ :=
        host_of_correlationStage hcorrelation f ((reportStage_ok hreport).2.mem_iff.mp hf)
      obtain ⟨r, hr, hobs⟩ :=
        ((hloops.mem_observations obs).mp hobs).resolve_left List.not_mem_nil
      exact ⟨r, hr, obs, hobs, hhost⟩

end Vantage.Scan
