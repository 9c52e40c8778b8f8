import Mathlib.Data.List.Infix
import RenderStudioKit.Model.Json
import RenderStudioKit.Model.WebsocketClient

/-!
# Addressing a session

The URL that `StartLiveMode` builds, its parts as `Url::Parse` takes them, and the names that the
server reads from the target of a request. The URI library is the parameter `uriParse`.
-/

namespace RenderStudioKit

structure LiveSessionInfo where
  liveUrl : String
  channelId : String
  userId : String

/-- What `uriParseSingleUriA` returns on success; a text range that is not set is empty. -/
structure UriUri where
  scheme : String
  hostText : String
  portText : String
  pathHead : List String
  query : String

def nul : Char := Char.ofNat 0

/-- What a C function reads behind `c_str()`: the text up to its first NUL. -/
def cString (text : String) : String := .ofList (text.toList.takeWhile (· ≠ nul))

/-- `boost::replace_all` of a search text with at least one character; `skip` counts the
characters of the last match that are still to be passed over. -/
def replaceAllFrom (search replacement : List Char) : Nat → List Char → List Char
  | _, [] => []
  | skip + 1, _ :: text => replaceAllFrom search replacement skip text
  | 0, c :: text =>
    if search.isPrefixOf (c :: text) then
      replacement ++ replaceAllFrom search replacement (search.length - 1) text
    else
      c :: replaceAllFrom search replacement 0 text

def replaceAll (text search replacement : String) : String :=
  .ofList (replaceAllFrom search.toList replacement.toList 0 text.toList)

/-- `std::getline`, which fails when there is nothing left to read. -/
def getline (delim : Char) : List Char → Option (List Char × List Char)
  | [] => none
  | text => some (text.takeWhile (· ≠ delim), (text.dropWhile (· ≠ delim)).tail)

/-- An address with the parts that only `Url` itself uses. -/
structure ParsedUrl extends Url where
  mProtocol : String
  mPath : String
  mQuery : String → Option String

namespace Url

def decode (url : String) : String := replaceAll url "%20" " "

/-- The loop over the query; each round reads at least one character. -/
def parseQuery (mQuery : String → Option String) : Nat → List Char → String → Option String
  | 0, _ => mQuery
  | fuel + 1, ss =>
    match getline '=' ss with
    | none => mQuery
    | some (key, ss) =>
      match getline '&' ss with
      | none => mQuery
      | some (value, ss) =>
        parseQuery (Function.update mQuery (.ofList key) (some (decode (.ofList value)))) fuel ss

/-- The port of the URL, or the one of its protocol. -/
def portFor (portText mProtocol : String) : Except Fault String :=
  if portText ≠ "" then .ok portText
  else if mProtocol = "https" ∨ mProtocol = "wss" ∨ mProtocol = "gpuopen" then .ok "443"
  else if mProtocol = "http" ∨ mProtocol = "ws" then .ok "80"
  else .error (.runtimeError ("Unsupported protocol: " ++ mProtocol))

def parse (uriParse : String → Option UriUri) (request : String) : Except Fault ParsedUrl :=
  match uriParse (cString request) with
  | none => .error (.runtimeError ("Can't parse URL: " ++ request))
  | some uri => do
    let mPath := uri.pathHead.foldl (fun path text => path ++ ("/" ++ text)) ""
    let mPort ← portFor uri.portText uri.scheme
    .ok {
      mHost := uri.hostText
      mPort := mPort
      mTarget := if uri.query = "" then mPath else mPath ++ ("?" ++ uri.query)
      mSsl := mPort = "443"
      mProtocol := uri.scheme
      mPath := mPath
      mQuery := parseQuery (fun _ => none) uri.query.length uri.query.toList }

end Url

/-- A live URL with this host gets the port of the live server in place of the route to it. -/
def replaceRoute (host liveUrl : String) : String :=
  if host.toList <:+: liveUrl.toList then replaceAll liveUrl "/workspace/live" ":52702"
  else liveUrl

/-- The live URL that `StartLiveMode` uses. -/
def replaceLocalhost (liveUrl : String) : String :=
  replaceRoute "127.0.0.1" (replaceRoute "localhost" liveUrl)

/-- The URL that `StartLiveMode` connects to. -/
def startLiveModeUrl (info : LiveSessionInfo) : String :=
  replaceLocalhost info.liveUrl ++ "/" ++ info.channelId ++ "/?user=" ++ info.userId

/-- One round of the loop of `ExtractChannelAndUserNames`. -/
def readUser (userName keyValue : List Char) : List Char :=
  if '=' ∈ keyValue ∧ keyValue.takeWhile (· ≠ '=') = "user".toList then
    (keyValue.dropWhile (· ≠ '=')).tail
  else
    userName

def extractChannelAndUserNames (target : String) : String × String :=
  let channelName := target.toList.takeWhile (· ≠ '?')
  let query := (target.toList.dropWhile (· ≠ '?')).tail
  (.ofList (channelName.filter (· ≠ '/')), .ofList ((query.splitOn '&').foldl readUser []))

end RenderStudioKit
