/-
The files that a command reads.

They are known from the command line, but for the containers that a
manifest lists, which are known when it has been read.
-/
import GameArchive.Command.Run

namespace GameArchive.Command

open Package (Manifest)

/-- The files that the command line names. -/
def Request.named : Request → List PathName
  | .manifest path => [path]
  | .list r => [r.container]
  | .extract r => r.inputs
  | .convert r => [r.input]
  | .completions _ => []

/-- The containers that a manifest in these files lists. -/
def listedIn (files : FileSystem) (path : PathName) : List PathName :=
  match Manifest.read files path with
  | .ok m => m.containers.map fun name => (folderOf path).join (PathName.ofText name)
  | .error _ => []

/-- The files that are read on account of those that the command line
names. -/
def Request.listed (r : Request) (files : FileSystem) : List PathName :=
  match r with
  | .extract e => if e.isManifest then e.inputs.flatMap (listedIn files) else []
  | _ => []

/-- The nodes that are not the same in another file system, in the order in
which they were made. -/
def changes (before after : FileSystem) : List (Location × Node) :=
  after.nodes.filter fun (location, node) => before.node? location != some node

end GameArchive.Command
