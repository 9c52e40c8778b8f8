import RenderStudioKit.Lib.Runs
import RenderStudioKit.Model.AssetCache

/-!
# What the cache holds

An attempt changes at most the directory of its asset, and only if it is missing. Whatever goes
wrong once the directory is there stays in it, and later attempts take it for the asset.
-/

namespace RenderStudioKit.Proofs
open MaterialLibraryAPI LocalStorageAPI

section

variable {cache : AssetCache} {env : Environment}

/-- The file that a request leaves whose response is stored. -/
def answered (env : Environment) (part : AssetPart) (request : String) : FileBody :=
  match env.response request with
  | some text => .received part text
  | none => .error

end

end RenderStudioKit.Proofs
