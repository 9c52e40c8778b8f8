import Mathlib.Data.List.Permutation
import RenderStudioKit.Model.Syncthing

/-!
# Updates of the Syncthing configuration

A put replaces what was put since the configuration was fetched, and nothing keeps two calls apart.
The configuration is always that of some of the calls, one after another.
-/

namespace RenderStudioKit.Proofs

open ReadModifyWrite

/-- In every interleaving the configuration is that of the calls it builds on, one after another in
the order of their puts, the last one included. If no put falls between the requests of another call
these are all calls. -/
theorem config_serial_lineage (config : SyncthingConfig) (calls : List SyncthingCall)
    (schedule : List Nat) :
    let start := SyncthingManager.start config calls
    let s := Runs.final SyncthingManager.answer start schedule
    let kept := lineage SyncthingCall.modify config calls schedule
    let puts := writes SyncthingCall.modify start schedule
    s.store = config.afterCalls kept ∧ kept.Sublist puts ∧ kept.getLast? = puts.getLast? ∧
      (Finished s → Runs.AllSteps SyncthingManager.answer Alone start schedule →
        ∃ order : List SyncthingCall, order.Perm calls ∧ s.store = config.afterCalls order) := by
  intro start s kept puts
  obtain ⟨hsublist, hlast⟩ := lineage_writes SyncthingCall.modify config calls schedule
  refine ⟨?_, hsublist, hlast, ?_⟩
  · exact store_eq_serial_lineage SyncthingCall.modify config calls schedule
  · intro hfinished halone
    exact exists_serial_order halone hfinished

section

/-- One shared folder and one device. -/
def sampleConfig : SyncthingConfig where
  folders := [{ id := "main", paused := false, devices := [{ deviceID := "A" }] }]
  devices := [{ deviceID := "A" }]

def sampleCalls : List SyncthingCall := [.pause, .appendDevice { deviceID := "B" }]

theorem config_serial_one_by_one :
    ∃ order : List SyncthingCall, order.Perm sampleCalls ∧
      (Runs.final SyncthingManager.answer (SyncthingManager.start sampleConfig sampleCalls)
        [0, 0, 1, 1]).store = sampleConfig.afterCalls order :=
  (config_serial_lineage sampleConfig sampleCalls [0, 0, 1, 1]).2.2.2 (by decide) (by decide)

/-- A device is appended while the folder is paused: the pause is lost. -/
theorem config_update_lost : ¬ ∀ (config : SyncthingConfig) (calls : List SyncthingCall)
    (schedule : List Nat),
      let s := Runs.final SyncthingManager.answer (SyncthingManager.start config calls) schedule
      Finished s →
        ∃ order : List SyncthingCall, order.Perm calls ∧ s.store = config.afterCalls order := by
  intro hclaim
  obtain ⟨order, hperm, hstore⟩ := hclaim sampleConfig sampleCalls [0, 1, 0, 1] (by decide)
  have hserial : ∀ order ∈ sampleCalls.permutations',
      (Runs.final SyncthingManager.answer (SyncthingManager.start sampleConfig sampleCalls)
        [0, 1, 0, 1]).store ≠ sampleConfig.afterCalls order := by decide
  exact hserial order (List.mem_permutations'.2 hperm) hstore

end

end RenderStudioKit.Proofs
