import RenderStudioKit.Lib.PosixPath
import RenderStudioKit.Model.Url

/-!
# Workspace paths

The conversions of the resolver between local paths and its own ones, and where it finds the asset
of a path. A `std::filesystem::path` is the list of its characters.
-/

namespace RenderStudioKit
open PosixPath

/-- `GetRootPath()` and `GetAssetsCachePath()` -/
structure RenderStudioResolver where
  rootPath : List Char
  assetsCachePath : List Char
deriving DecidableEq

/-- What `_OpenAsset` opens. -/
inductive OpenedAsset where
  | file (path : List Char)
  | gpuOpen (uuid : String) (location : List Char)
  | localStorage (name : String) (location : List Char)
deriving DecidableEq

/-- `std::string::rfind` at the position 0. -/
def startsWith (path search : String) : Bool := search.toList.isPrefixOf path.toList

/-- `find` and `replace` of what it finds; `replace` throws if nothing is found. -/
def replaceFirst (search replacement : List Char) : List Char → Option (List Char)
  | [] => if search = [] then some replacement else none
  | c :: text =>
    if search.isPrefixOf (c :: text) then some (replacement ++ (c :: text).drop search.length)
    else (replaceFirst search replacement text).map (c :: ·)

/-- `std::replace` of the separators of Windows. -/
def forwardSlash (c : Char) : Char := if c = '\\' then '/' else c

namespace RenderStudioResolver

variable (resolver : RenderStudioResolver)

def isRenderStudioPath (path : String) : Bool :=
  startsWith path "studio:/" || startsWith path "gpuopen:/" || startsWith path "storage:/"

def isUnresolvable (path : String) : Bool :=
  if "://".toList <:+: path.toList then false
  else
    let relative := lexicallyRelative path.toList resolver.rootPath
    relative ≠ [] ∧ (iteration relative).head? ≠ some dotdot

def unresolve (path : String) : String :=
  "studio://" ++ .ofList ((lexicallyRelative path.toList resolver.rootPath).map forwardSlash)

/-- A path that ends behind the scheme makes `at` throw. -/
def resolveImpl (path : String) : Option (List Char) :=
  match path.toList.drop "studio:/".length with
  | [] => none
  | c :: copy => some (append resolver.rootPath (if c = '/' then copy else c :: copy))

/-- The place in the cache of a file of an asset, whose name are the tokens behind the scheme. -/
def resolveCached (folder path : String) : List Char :=
  let tokens := names path.toList
  if tokens.length > 2 then
    tokens.tail.foldl append (append resolver.assetsCachePath folder.toList)
  else path.toList

/-- `_Resolve`; none if the path of a file that is no layer has no scheme to replace. -/
def resolve (path : String) : Option (List Char) :=
  if startsWith path "gpuopen:/" then some (resolver.resolveCached "Materials" path)
  else if startsWith path "storage:/" then some (resolver.resolveCached "Storage" path)
  else if ".usd".toList <:+: extension path.toList then some path.toList
  else replaceFirst "studio:".toList resolver.rootPath path.toList

/-- `_OpenAsset` -/
def openAsset (uriParse : String → Option UriUri) (resolvedPath : List Char) :
    Except Fault OpenedAsset :=
  let path : String := .ofList resolvedPath
  if startsWith path "studio:/" then
    .ok (.file (append resolver.rootPath (resolvedPath.drop "studio:/".length)))
  else if startsWith path "gpuopen:/" then do
    let url ← Url.parse uriParse path
    let uuid := url.mPath.toList.filter (· ≠ '/')
    .ok (.gpuOpen (.ofList uuid)
      (append (append resolver.assetsCachePath "Materials".toList) uuid))
  else if startsWith path "storage:/" then
    let name := resolvedPath.drop "storage:/".length
    .ok (.localStorage (.ofList name)
      (append (append resolver.assetsCachePath "Storage".toList) name))
  else .ok (.file resolvedPath)

end RenderStudioResolver

/-- The functions of USD on the texts of paths. No law is assumed here; results that need one state
it. -/
structure TfPaths where
  isRelativePath : List Char → Bool
  normPath : List Char → List Char
  stringCatPaths : List Char → List Char → List Char
  stringGetBeforeSuffix : List Char → Char → List Char

namespace RenderStudioResolver

variable (tf : TfPaths) (uriParse : String → Option UriUri)

/-- `_AnchorRelativePathForStudioProtocol`; the anchor has at most one of the three schemes. -/
def anchorRelativePathForStudioProtocol (anchorPath path : String) : Except Fault (List Char) :=
  if !isRenderStudioPath anchorPath &&
      (tf.isRelativePath anchorPath.toList || !tf.isRelativePath path.toList) then
    .ok path.toList
  else do
    let forwardPath := anchorPath.toList.map forwardSlash
    let anchoredPath ←
      if startsWith anchorPath "studio:/" then
        .ok (tf.stringCatPaths (tf.stringGetBeforeSuffix forwardPath '/') path.toList)
      else if startsWith anchorPath "gpuopen:/" then do
        let url ← Url.parse uriParse anchorPath
        let uuid := url.mPath.toList.filter (· ≠ '/')
        .ok (tf.stringCatPaths (url.mProtocol.toList ++ ":/".toList ++ uuid) path.toList)
      else if startsWith anchorPath "storage:/" then
        .ok (tf.stringCatPaths forwardPath path.toList)
      else .ok []
    .ok (tf.normPath anchoredPath)

/-- `_CreateIdentifier`; an anchor that is not given is empty. -/
def createIdentifier (assetPath : String) (anchorAssetPath : List Char) : Except Fault String :=
  if assetPath = "" then .ok assetPath
  else if anchorAssetPath = [] then .ok (.ofList (tf.normPath assetPath.toList))
  else if isRenderStudioPath assetPath then .ok (.ofList (tf.normPath assetPath.toList))
  else do
    let anchoredAssetPath ←
      anchorRelativePathForStudioProtocol tf uriParse (.ofList anchorAssetPath) assetPath
    .ok (.ofList (tf.normPath anchoredAssetPath))

end RenderStudioResolver

end RenderStudioKit
