import RenderStudioKit.Lib.ReadModifyWrite

/-!
# The configuration of Syncthing

The calls of `SyncthingManager` that change the configuration. Each one fetches the whole
configuration, changes its copy and puts the copy back; the two requests are its await points.
-/

namespace RenderStudioKit

/-- An entry of a device list; `members` are its other members. -/
structure SyncthingDevice where
  deviceID : String
  members : List (String × String) := []
deriving DecidableEq

structure SyncthingFolder where
  id : String
  paused : Bool
  devices : List SyncthingDevice
  members : List (String × String) := []
deriving DecidableEq

structure SyncthingConfig where
  folders : List SyncthingFolder
  devices : List SyncthingDevice
  members : List (String × String) := []
deriving DecidableEq

inductive SyncthingCall where
  | pause
  | resume
  | appendDevice (device : SyncthingDevice)
  | appendFolder (folderID deviceID : String)
  | removeDevice (deviceID : String)
deriving DecidableEq

namespace SyncthingConfig

/-- `config['folders'][0]['paused'] = paused`; there is no first folder if the list is empty. -/
def setPaused (config : SyncthingConfig) (paused : Bool) : Option SyncthingConfig :=
  match config.folders with
  | [] => none
  | folder :: folders => some { config with folders := { folder with paused := paused } :: folders }

def appendDevice (config : SyncthingConfig) (device : SyncthingDevice) : SyncthingConfig :=
  { config with devices := config.devices ++ [device] }

/-- The first folder with the ID gets the device. -/
def appendFolder (config : SyncthingConfig) (folderID deviceID : String) :
    Option SyncthingConfig :=
  match config.folders.findIdx? (·.id = folderID) with
  | none => none
  | some i =>
    some { config with
      folders := config.folders.modify i fun folder =>
        { folder with devices := folder.devices ++ [{ deviceID := deviceID }] } }

/-- `next` and `remove`: the first entry with the ID, if there is one. -/
def withoutDevice (devices : List SyncthingDevice) (deviceID : String) : List SyncthingDevice :=
  devices.eraseP (·.deviceID = deviceID)

def removeDevice (config : SyncthingConfig) (deviceID : String) : Option SyncthingConfig :=
  match config.folders with
  | [] => none
  | folder :: folders =>
    some { config with
      devices := withoutDevice config.devices deviceID
      folders := { folder with devices := withoutDevice folder.devices deviceID } :: folders }

end SyncthingConfig

namespace SyncthingCall

/-- The configuration that a call puts back, none if it logs an error instead. -/
def modify (call : SyncthingCall) (config : SyncthingConfig) : Option SyncthingConfig :=
  match call with
  | .pause => config.setPaused true
  | .resume => config.setPaused false
  | .appendDevice device => some (config.appendDevice device)
  | .appendFolder folderID deviceID => config.appendFolder folderID deviceID
  | .removeDevice deviceID => config.removeDevice deviceID

end SyncthingCall

/-- The configuration Syncthing has and the calls that run. -/
abbrev SyncthingManager := ReadModifyWrite.System SyncthingConfig SyncthingCall

namespace SyncthingManager

/-- The calls are created and none has fetched the configuration. -/
def start (config : SyncthingConfig) (calls : List SyncthingCall) : SyncthingManager :=
  ReadModifyWrite.init config calls

/-- Syncthing answers the next request of the call at a position. -/
def answer (s : SyncthingManager) (call : Nat) : SyncthingManager :=
  ReadModifyWrite.step SyncthingCall.modify s call

end SyncthingManager

/-- The configuration after the calls have run one after another. -/
def SyncthingConfig.afterCalls (config : SyncthingConfig) (calls : List SyncthingCall) :
    SyncthingConfig :=
  ReadModifyWrite.serial SyncthingCall.modify config calls

end RenderStudioKit
