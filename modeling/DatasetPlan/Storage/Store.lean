import DatasetPlan.Pipeline.Format
import DatasetPlan.PlanError
import DatasetPlan.Storage.Disk

/-! Pipelines on a disk, each in a file of its own. `save` writes a file beside the target and then
renames it, so that the target is replaced only as a whole. -/

namespace DatasetPlan.Store

def draftPath (path : String) : String :=
  path ++ ".tmp"

/-- An action on a disk that stands for the plan error that comes of its failure. -/
def accessing [Monad m] (path : String) (action : m (Except FileError β)) :
    ExceptT PlanError m β :=
  ExceptT.mk do return (← action).mapError fun e => .inaccessible path e.message

def read (path text : String) : Except PlanError Pipeline :=
  (Pipeline.parse (.ofPath path) text).mapError fun reason =>
    .unreadable ("invalid pipeline " ++ path ++ ": " ++ reason)

def load [Monad m] (disk : Disk m) (path : String) : ExceptT PlanError m (Option Pipeline) := do
  if ← disk.isPresent path then
    let text ← accessing path (disk.readText path)
    some <$> (read path text : Except PlanError Pipeline)
  else pure none

def directory? (path : String) : Option String :=
  (PathName.parent? path).filter (!·.isEmpty)

def save [Monad m] (disk : Disk m) (path : String) (p : Pipeline) : ExceptT PlanError m Unit := do
  if let some directory := directory? path then
    accessing directory (disk.createDirectories directory)
  let draft := draftPath path
  accessing draft (disk.write draft (Pipeline.render (.ofPath path) p))
  accessing path (disk.rename draft path)

end DatasetPlan.Store
