import Waymark.Disk.Path
import Waymark.Glob.Reader
import Waymark.Project.Config

/-!
# Changes that matter

A change of a file matters when the file is source code and no glob of the project leaves it out.

* `Config.ignoreGlobs?`: the globs of a project, if all of them can be read;
* `isRelevant`: a change at a path matters.
-/

namespace Waymark.Project

open Waymark.Disk (Path Name)

/-- The globs of the paths whose changes do not matter. -/
def Config.ignoreGlobs? (c : Config) : Option (List Glob) := c.ignore.mapM Glob.read

/-- A change at a path matters. -/
def isRelevant (ignored : List Glob) (path : Path) : Bool :=
  path.extension? = some (Name.ofString "rs") && !ignored.any fun g => g.accepts path.bytes

end Waymark.Project
