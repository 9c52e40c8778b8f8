import Mathlib.Logic.Function.Basic
import RenderStudioKit.Model.WorkspacePath

/-!
# The cache of remote assets

How materials and lights are opened: each has a directory in the cache, and if the directory is
missing it is created and filled from the network. A directory is named by what its asset is and by
its name, which is one file name.
-/

namespace RenderStudioKit

/-- What is asked for in the requests whose responses are kept. -/
inductive AssetPart where
  | archive
  | lightFile
  | lightTexture
deriving DecidableEq

/-- The contents of a file; `error` is the text `[Error]` that stands for a failed request. -/
inductive FileBody where
  | received (part : AssetPart) (text : String)
  | error
  | damaged
deriving DecidableEq

/-- A file and its path in the directory of the asset. -/
structure CachedFile where
  path : String
  body : FileBody
deriving DecidableEq

/-- The files of an asset, in the order of the iteration over its directory. -/
abbrev AssetDirectory := List CachedFile

/-- The directories there are. -/
structure AssetCache where
  materials : String → Option AssetDirectory
  storage : String → Option AssetDirectory

/-- A file that `zip_extract` leaves; its text is missing if it is damaged. -/
structure ExtractedFile where
  path : String
  text : Option String
deriving DecidableEq

structure MaterialItem where
  fileUrl : String
  sizeMb : ℚ
deriving DecidableEq

structure LightItem where
  id : String
  file : String
  texture : Option String
deriving DecidableEq

inductive AssetFault where
  | runtimeError (what : String)
  | filesystemError
  | jsonError
  /-- The smallest element of an empty list is read. -/
  | undefinedBehavior
deriving DecidableEq

/-- What network, libraries and disk do during an attempt. -/
structure Environment where
  /-- The text that answers a request, if the request succeeds. -/
  response : String → Option String
  parseMaterials : String → Option (List MaterialItem)
  parseLight : String → Option LightItem
  /-- The files that are extracted from an archive, by the entries of its top directory. -/
  extract : String → List (List ExtractedFile)
  createsDirectories : Bool
  /-- Whether the response to a request can be moved to its location. -/
  stores : String → Bool
  /-- The number of the first entry that cannot be moved, if there is one. -/
  blocked : Option ℕ
  /-- Whether a downloaded file can be moved to a name in the directory of the asset. -/
  renames : String → Bool

namespace CachedFile

def hasExtension (file : CachedFile) (text : String) : Bool :=
  PosixPath.extension file.path.toList = text.toList

end CachedFile

namespace AssetDirectory

/-- The path of the first file with an extension. -/
def findRoot (files : AssetDirectory) (extension : String) : Option String :=
  (files.find? (·.hasExtension extension)).map (·.path)

/-- `std::filesystem::rename` into the directory, which replaces a file. -/
def put (files : AssetDirectory) (file : CachedFile) : AssetDirectory :=
  files.filter (·.path ≠ file.path) ++ [file]

end AssetDirectory

namespace RestClient

def get (env : Environment) (request : String) : String :=
  (env.response request).getD "[Error]"

/-- The file that is at the location afterwards, if it could be moved there. -/
def download (env : Environment) (part : AssetPart) (request : String) : Option FileBody :=
  if env.stores request then
    match env.response request with
    | some text => some (.received part text)
    | none => some .error
  else none

end RestClient

namespace ExtractedFile

def cached (file : ExtractedFile) : CachedFile :=
  match file.text with
  | some text => ⟨file.path, .received .archive text⟩
  | none => ⟨file.path, .damaged⟩

end ExtractedFile

namespace MaterialLibraryAPI

def materialUrl (materialId : String) : String :=
  "https://api.matlib.gpuopen.com/api/packages/?material=" ++ materialId

def getMaterialPackage (env : Environment) (materialId : String) : Option (List MaterialItem) :=
  env.parseMaterials (RestClient.get env (materialUrl materialId))

/-- `std::min_element` -/
def minElement : List MaterialItem → Option MaterialItem
  | [] => none
  | first :: items =>
    some (items.foldl (fun least item => if item.sizeMb < least.sizeMb then item else least) first)

def getMtlxRoot (files : AssetDirectory) : Except AssetFault String :=
  match files.findRoot ".mtlx" with
  | some path => .ok path
  | none => .error (.runtimeError "Can't find MaterialX file after download")

/-- The entries of the extracted archive; nothing is extracted from an archive that was not stored
or that is the text of an error, which is only logged. -/
def extracted (env : Environment) : Option FileBody → List (List ExtractedFile)
  | some (.received _ text) => env.extract text
  | _ => []

/-- The directory of the material afterwards and the path of the root file. -/
def download (env : Environment) (material : MaterialItem) (directory : Option AssetDirectory) :
    Option AssetDirectory × Except AssetFault String :=
  match directory with
  | some files => (some files, getMtlxRoot files)
  | none =>
    if env.createsDirectories then
      let entries := extracted env (RestClient.download env .archive material.fileUrl)
      let moved := entries.take (env.blocked.getD entries.length)
      let files := moved.flatten.map ExtractedFile.cached
      if moved.length < entries.length then (some files, .error .filesystemError)
      else (some files, getMtlxRoot files)
    else (none, .error .filesystemError)

end MaterialLibraryAPI

namespace LocalStorageAPI

def lightUrl (storageUrl lightId : String) : String := storageUrl ++ "/api/lights/" ++ lightId

def getLightPackage (env : Environment) (lightId storageUrl : String) : Option LightItem :=
  env.parseLight (RestClient.get env (lightUrl storageUrl lightId))

def fileUrl (storageUrl : String) (package : LightItem) : String :=
  storageUrl ++ "/api/lights/" ++ package.id ++ "/file"

def textureUrl (storageUrl : String) (package : LightItem) : String :=
  storageUrl ++ "/api/lights/" ++ package.id ++ "/texture"

def getUsdRoot (files : AssetDirectory) : Except AssetFault String :=
  match files.findRoot ".usda" with
  | some path => .ok path
  | none => .error (.runtimeError "Can't find USDA file after download")

/-- A response that is downloaded and moved into the directory; none if a move throws. -/
def fetch (env : Environment) (part : AssetPart) (request name : String) (files : AssetDirectory) :
    Option AssetDirectory :=
  match RestClient.download env part request with
  | some body => if env.renames name then some (files.put ⟨name, body⟩) else none
  | none => none

/-- The directory of the light afterwards and the path of the root file. -/
def download (env : Environment) (package : LightItem) (directory : Option AssetDirectory)
    (storageUrl : String) : Option AssetDirectory × Except AssetFault String :=
  if storageUrl = "" then (directory, .error (.runtimeError "Storage URL was empty"))
  else
    match directory with
    | some files => (some files, getUsdRoot files)
    | none =>
      if env.createsDirectories then
        match fetch env .lightFile (fileUrl storageUrl package) package.file [] with
        | none => (some [], .error .filesystemError)
        | some files =>
          match package.texture with
          | none => (some files, getUsdRoot files)
          | some texture =>
            match fetch env .lightTexture (textureUrl storageUrl package) texture files with
            | none => (some files, .error .filesystemError)
            | some files' => (some files', getUsdRoot files')
      else (none, .error .filesystemError)

end LocalStorageAPI

namespace AssetCache

/-- `GpuOpenAsset::Open`: the cache afterwards and the path of the file that is opened. The
constructor logs an exception and leaves the file unset. -/
def openMaterial (cache : AssetCache) (env : Environment) (uuid : String) :
    AssetCache × Except AssetFault String :=
  match MaterialLibraryAPI.getMaterialPackage env uuid with
  | none => (cache, .error .jsonError)
  | some results =>
    match MaterialLibraryAPI.minElement results with
    | none => (cache, .error .undefinedBehavior)
    | some material =>
      let (directory, result) := MaterialLibraryAPI.download env material (cache.materials uuid)
      ({ cache with materials := Function.update cache.materials uuid directory }, result)

/-- `LocalStorageAsset::Open` -/
def openLight (cache : AssetCache) (env : Environment) (storageUrl name location : String) :
    AssetCache × Except AssetFault String :=
  match cache.storage name with
  | some files =>
    match files.findRoot ".usda" with
    | some path => (cache, .ok path)
    | none => (cache, .error (.runtimeError ("Storage was corrupted, can't find " ++ location)))
  | none =>
    match LocalStorageAPI.getLightPackage env name storageUrl with
    | none => (cache, .error .jsonError)
    | some package =>
      let (directory, result) := LocalStorageAPI.download env package none storageUrl
      ({ cache with storage := Function.update cache.storage name directory }, result)

end AssetCache

/-- An attempt to open a remote asset. -/
inductive AssetAttempt where
  | material (uuid : String) (env : Environment)
  | light (storageUrl name location : String) (env : Environment)

/-- The cache afterwards and the path of the file that is opened. -/
def AssetCache.attempt (cache : AssetCache) : AssetAttempt → AssetCache × Except AssetFault String
  | .material uuid env => cache.openMaterial env uuid
  | .light storageUrl name location env => cache.openLight env storageUrl name location

end RenderStudioKit
