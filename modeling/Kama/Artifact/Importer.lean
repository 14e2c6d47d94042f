import Kama.Artifact.ImporterSpec
import Kama.Artifact.Hub

/-!
# Preparing an import

What `executeHub` and `executeCopy` of `importer.go` do with the files of an import before any of
them is transferred: `preflightAll` asks the Hub for each, `prepareAll` opens each on the volume,
and both add up the bytes that are still missing. `preflightHub` and `preflightCopy` are these loops
with the check of the space behind them.
-/

namespace Kama.Artifact

open Bytes FileTree Program Json OnDisk
open Storage (filePath sourceBase)

namespace Import

/-! ## Hub mode -/

section Hub

variable (client : HubClient) (hub : HubSpec)

/-- The preflight of every file, with the bytes that are still to be fetched. -/
def preflightAll (commit : Bytes) (staging : Path) :
    List RemoteFile → UInt64 → ImportProg (List (RemoteFile × Int64) × UInt64)
  | [], required => pure ([], required)
  | file :: files, required => do
    let (remote, size) ← preflight client hub.repository commit file (filePath staging file.path)
    let remaining := size - remote.resumeBytes
    if remaining < 0 ∨ ~~~0 - required < remaining.toUInt64 then
      throw (unavailable "preflight Hub import" "selected file sizes overflow")
    else do
      let (remotes, required) ← preflightAll commit staging files (required + remaining.toUInt64)
      pure ((remote, size) :: remotes, required)

/-- `executeHub` from the staging directory to the first download. -/
def preflightHub (commit : Bytes) (staging : Path) (files : List RemoteFile) :
    ImportProg (List (RemoteFile × Int64)) := do
  let (remotes, required) ← preflightAll client hub commit staging files 0
  on .cache (requirePublicationSpace required files.length)
  pure remotes

end Hub

/-! ## Copy mode -/

def isStandardShard (entrypoint : Bytes) : Bool :=
  (Gguf.shardParts (Gguf.baseName entrypoint)).isSome

def expandStandardShards (entrypoint : Bytes) (selected : List Bytes) :
    Except Err (List Bytes) := do
  (validateRelativePath entrypoint).mapError (.failure .unsafePath "validate shard entrypoint")
  Gguf.validateShardEntrypoint entrypoint
  let selected := requested entrypoint selected
  match Gguf.shardParts (Gguf.baseName entrypoint) with
  | none => normalizeSelectedFiles entrypoint selected
  | some (stem, _, digits) =>
    let count := ofDigits digits
    if count < 1 ∨ maxSelectedFiles < count then
      throw (.failure .missingShard "expand GGUF shards"
        (.text "declared shard count %d is outside 1..%d"
          [natDigits count, natDigits maxSelectedFiles]))
    normalizeSelectedFiles entrypoint
      (selected ++ (Gguf.expectedShards entrypoint stem count).map Prod.fst)

/-- `_ = plan.close()` for every plan. -/
def closePlans : List CopyPlan → ImportProg Unit
  | [] => pure ()
  | plan :: plans => do
    let _ ← attempt (closePlan plan)
    closePlans plans

/-- The error of preparing a file; a missing shard has a reason of its own. -/
def prepareError (entrypoint name : Bytes) (err : Err) : Err :=
  if isStandardShard entrypoint ∧ err.isNotExist then
    .failure .missingShard "open PVC shard" (.text "required shard %q is absent" [name])
  else err

/-- The plan of every file, with the bytes that are still to be copied. -/
def prepareAll (fuel : Nat) (entrypoint rootPath : Bytes) (staging : Path) :
    List Bytes → List CopyPlan → UInt64 → ImportProg (List CopyPlan × UInt64)
  | [], plans, required => pure (plans, required)
  | name :: names, plans, required => do
    match ← attempt (prepareRegularCopy fuel (filePath (sourceBase rootPath) name)
        (filePath staging name)) with
    | .error err => do
      closePlans plans
      throw (prepareError entrypoint name err)
    | .ok plan =>
      let additional := (plan.sourceSize - plan.resumeBytes).toUInt64
      if ~~~0 - required < additional then do
        closePlans (plans ++ [plan])
        throw (invalidSpec "preflight PVC copy" "selected file sizes overflow")
      else
        prepareAll fuel entrypoint rootPath staging names (plans ++ [plan]) (required + additional)

/-- `executeCopy` from the staging directory to the first copy. -/
def preflightCopy (fuel : Nat) (entrypoint rootPath : Bytes) (staging : Path)
    (names : List Bytes) : ImportProg (List CopyPlan) := do
  let (plans, required) ← prepareAll fuel entrypoint rootPath staging names [] 0
  onError (closePlans plans) (on .cache (requirePublicationSpace required names.length))
  pure plans

end Import

end Kama.Artifact
