import GestaltModel.Primitives.Failure
import GestaltModel.Primitives.Path

namespace AppRegistry

-- `unicode.IsControl`
def isControl (c : Char) : Bool :=
  c.toNat < 0x20 || (0x7f ≤ c.toNat && c.toNat < 0xa0)

-- The check of a segment in `JoinRegistryObjectPath`, with the segment that is joined.
def registryPathSegment (segment : String) : Except Failure String :=
  let segment := Text.trimSpace segment
  if segment = "" then
    .error ⟨"path segment is required", none⟩
  else if segment = "." ∨ segment = ".." then
    .error ⟨"invalid path segment " ++ Text.quote segment, none⟩
  else if '/' ∈ segment.toList ∨ '\\' ∈ segment.toList then
    .error ⟨"path segment " ++ Text.quote segment ++ " must not contain path separators", none⟩
  else if segment.toList.any isControl then
    .error ⟨"path segment " ++ Text.quote segment ++ " contains control characters", none⟩
  else
    .ok segment

def trimPathPrefix (pathPrefix : String) : String :=
  Text.trim '/' (Text.trimSpace pathPrefix)

def cleanPathPrefix (pathPrefix : String) : String :=
  Path.clean (trimPathPrefix pathPrefix)

def joinRegistryObjectPath (pathPrefix : String) (segments : List String) :
    Except Failure String :=
  let cleanPrefix := cleanPathPrefix pathPrefix
  let pathPrefix := trimPathPrefix pathPrefix
  if pathPrefix = "" then
    .error ⟨"path prefix is required", none⟩
  else if cleanPrefix = "." ∨ "../".toList <+: cleanPrefix.toList then
    .error ⟨"invalid path prefix " ++ Text.quote pathPrefix, none⟩
  else do
    let parts ← segments.mapM registryPathSegment
    let joined := Path.join (cleanPrefix :: parts)
    if joined ≠ cleanPrefix ∧ ¬(cleanPrefix ++ "/").toList <+: joined.toList then
      .error ⟨"joined path " ++ Text.quote joined ++ " escapes prefix " ++ Text.quote cleanPrefix,
        none⟩
    else
      .ok joined

end AppRegistry
