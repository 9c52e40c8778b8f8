import RenderStudioKit.Model.SyncthingStart

/-!
# Restarts of Syncthing

Every start adds the entry of the server to the devices of the folder and its address to those of
the device once more, whether or not they are there.
-/

namespace RenderStudioKit.Proofs
open SyncthingStart

section

variable {settings : Settings} {remote : Remote} {folder : Folder} {device : Device}

lemma isRemoteFolder_updateFolder (folder : Folder) :
    isRemoteFolder remote (updateFolder settings remote folder) = true := by
  simp [isRemoteFolder, updateFolder]

lemma isRemoteDevice_updateDevice (device : Device) :
    isRemoteDevice remote (updateDevice settings remote device) = true := by
  simp [isRemoteDevice, updateDevice]

lemma devices_iterate_updateFolder (folder : Folder) (n : ℕ) :
    ((updateFolder settings remote)^[n] folder).devices =
      folder.devices ++ List.replicate n (folderEntry remote) := by
  induction n with
  | zero => rw [Function.iterate_zero_apply, List.replicate_zero, List.append_nil]
  | succ n ih =>
    rw [Function.iterate_succ_apply', updateFolder, ih, List.append_assoc, List.replicate_succ']

lemma addresses_iterate_updateDevice (device : Device) (n : ℕ) :
    ((updateDevice settings remote)^[n] device).addresses =
      device.addresses ++ List.replicate n (address settings) := by
  induction n with
  | zero => rw [Function.iterate_zero_apply, List.replicate_zero, List.append_nil]
  | succ n ih =>
    rw [Function.iterate_succ_apply', updateDevice, ih, List.append_assoc, List.replicate_succ']

lemma iterate_setup (config : Config) (n : ℕ) :
    (setup settings remote folder device)^[n] config =
      { config with
        folders := (upsert (isRemoteFolder remote) (updateFolder settings remote)
          (updateFolder settings remote folder))^[n] config.folders
        devices := (upsert (isRemoteDevice remote) (updateDevice settings remote)
          (updateDevice settings remote device))^[n] config.devices } := by
  induction n generalizing config with
  | zero => rfl
  | succ n ih =>
    rw [Function.iterate_succ_apply, ih]
    rfl

/-- The folder of the server after starts, `folder` being the default one. -/
def sharedFolder (remote : Remote) (folder : Folder) (config : Config) : Folder :=
  (config.folders.find? (isRemoteFolder remote)).getD folder

/-- The device of the server after starts, `device` being the default one. -/
def remoteDevice (remote : Remote) (device : Device) (config : Config) : Device :=
  (config.devices.find? (isRemoteDevice remote)).getD device

lemma sharedFolder_iterate (config : Config) (n : ℕ) :
    sharedFolder remote folder ((setup settings remote folder device)^[n] config) =
      (updateFolder settings remote)^[n] (sharedFolder remote folder config) := by
  rw [iterate_setup]
  exact find?_upsert_iterate isRemoteFolder_updateFolder folder config.folders n

lemma remoteDevice_iterate (config : Config) (n : ℕ) :
    remoteDevice remote device ((setup settings remote folder device)^[n] config) =
      (updateDevice settings remote)^[n] (remoteDevice remote device config) := by
  rw [iterate_setup]
  exact find?_upsert_iterate isRemoteDevice_updateDevice device config.devices n

lemma iterate_setup_injective (config : Config) :
    Function.Injective fun n => (setup settings remote folder device)^[n] config := by
  intro m n h
  have hdevices := congrArg (fun config => (sharedFolder remote folder config).devices.length) h
  simp only [sharedFolder_iterate, devices_iterate_updateFolder, List.length_append,
    List.length_replicate] at hdevices
  omega

end

/-- A second start changes every configuration: each of `n` starts leaves one entry of the server
in the folder and one of its address in the device, after those of the initial configuration or of
the defaults. -/
theorem setup_twice (settings : Settings) (remote : Remote) (folder : Folder) (device : Device)
    (config : Config) :
    let f := setup settings remote folder device
    f (f config) ≠ f config ∧
      ∀ n, (sharedFolder remote folder (f^[n] config)).devices =
          (sharedFolder remote folder config).devices ++
            List.replicate n (folderEntry remote) ∧
        (remoteDevice remote device (f^[n] config)).addresses =
          (remoteDevice remote device config).addresses ++
            List.replicate n (address settings) := by
  intro f
  refine ⟨fun h => ?_, fun n => ⟨?_, ?_⟩⟩
  · have hsame : f^[2] config = f^[1] config := h
    exact absurd (iterate_setup_injective config hsame) (by decide)
  · rw [sharedFolder_iterate, devices_iterate_updateFolder]
  · rw [remoteDevice_iterate, addresses_iterate_updateDevice]

/-- A server that a first start adds to an empty configuration is there twice after a second. -/
theorem second_start_doubles :
    let settings : Settings := ⟨"http://studio", "/workspace"⟩
    let remote : Remote := ⟨"main-rs-workspace", "AMD RenderStudio Workspace", "SERVER", "Server"⟩
    let f := setup settings remote ⟨"", "", "", [], 10, []⟩ ⟨"", "", [], []⟩
    let once := f { folders := [], devices := [] }
    f once ≠ once ∧
      once.folders.map (·.devices.map (·.deviceID)) = [["SERVER"]] ∧
      (f once).folders.map (·.devices.map (·.deviceID)) = [["SERVER", "SERVER"]] := by
  intro settings remote f once
  have hfirst : once.folders.map (·.devices.map (·.deviceID)) = [["SERVER"]] := by decide
  have hsecond : (f once).folders.map (·.devices.map (·.deviceID)) = [["SERVER", "SERVER"]] := by
    decide
  refine ⟨fun h => ?_, hfirst, hsecond⟩
  rw [h, hfirst] at hsecond
  exact absurd hsecond (by decide)

end RenderStudioKit.Proofs
