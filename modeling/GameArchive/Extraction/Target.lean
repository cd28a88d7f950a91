/-
Where an entry is written below the output folder.

The path of an entry is taken apart at slashes of either kind. Components
that stay where they are go, and a path that goes up is refused wherever it
would lead, so that what remains are names below the output folder.
-/
import GameArchive.Package.Error

namespace GameArchive.Extraction

/-- Whether a character divides the components of an entry's path. -/
def isDivider (c : Char) : Bool := c == '/' || c == '\\'

/-- The components of an entry's path. -/
def components (path : String) : List String :=
  (Text.parts isDivider path.toList).map String.ofList

/-- The names that lead from the output folder to the file of an entry. -/
def target (path : String) : Except Package.Error Location :=
  if (components path).contains ".." then .error (.escapingPath path)
  else .ok ((components path).filter fun name => !PathName.isIdle name)

end GameArchive.Extraction
