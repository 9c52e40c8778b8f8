import RenderStudioKit.Lib.Upsert

/-!
# The start of Syncthing

The configuration update of `SyncthingManager.start`: the shared folder and the device of the
server are created or updated. The defaults are the answers of Syncthing to the requests for them.
-/

namespace RenderStudioKit.SyncthingStart

/-- An entry of the devices of a folder; `members` are its members besides those named. -/
structure FolderDevice where
  deviceID : String
  introducedBy : String
  encryptionPassword : String
  members : List (String × String) := []
deriving DecidableEq

structure Folder where
  id : String
  label : String
  path : String
  devices : List FolderDevice
  fsWatcherDelayS : Int
  members : List (String × String) := []
deriving DecidableEq

structure Device where
  deviceID : String
  name : String
  addresses : List String
  members : List (String × String) := []
deriving DecidableEq

structure Config where
  folders : List Folder
  devices : List Device
  members : List (String × String) := []
deriving DecidableEq

structure Settings where
  remoteUrl : String
  workspaceDir : String
deriving DecidableEq

/-- The workspace information: of the server, or made up from the local device on the server. -/
structure Remote where
  folderId : String
  folderName : String
  deviceId : String
  deviceName : String
deriving DecidableEq

/-- The entry of the server in the devices of the folder. -/
def folderEntry (remote : Remote) : FolderDevice :=
  { deviceID := remote.deviceId, introducedBy := "", encryptionPassword := "" }

def address (settings : Settings) : String :=
  (settings.remoteUrl.replace "http:/" "tcp:/").replace "https:/" "tcp:/" ++ ":22000"

/-- The same assignments are made to the existing folder and to the default one. -/
def updateFolder (settings : Settings) (remote : Remote) (folder : Folder) : Folder :=
  { folder with
    id := remote.folderId
    label := remote.folderName
    path := settings.workspaceDir
    devices := folder.devices ++ [folderEntry remote]
    fsWatcherDelayS := 1 }

/-- The same assignments are made to the existing device and to the default one. -/
def updateDevice (settings : Settings) (remote : Remote) (device : Device) : Device :=
  { device with
    deviceID := remote.deviceId
    name := remote.deviceName
    addresses := device.addresses ++ [address settings] }

def isRemoteFolder (remote : Remote) (folder : Folder) : Bool :=
  folder.id = remote.folderId

def isRemoteDevice (remote : Remote) (device : Device) : Bool :=
  device.deviceID = remote.deviceId

def setupFolder (settings : Settings) (remote : Remote) (default : Folder) (config : Config) :
    Config :=
  { config with
    folders := upsert (isRemoteFolder remote) (updateFolder settings remote)
      (updateFolder settings remote default) config.folders }

def setupDevice (settings : Settings) (remote : Remote) (default : Device) (config : Config) :
    Config :=
  { config with
    devices := upsert (isRemoteDevice remote) (updateDevice settings remote)
      (updateDevice settings remote default) config.devices }

/-- What a start makes of the folders and devices of a configuration. -/
def setup (settings : Settings) (remote : Remote) (folder : Folder) (device : Device)
    (config : Config) : Config :=
  setupDevice settings remote device (setupFolder settings remote folder config)

end RenderStudioKit.SyncthingStart
