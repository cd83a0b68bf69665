import RouteWatch.Config.Settings
import RouteWatch.Files.Path

/-!
# Route files

A file takes part in a review when its path begins with the root of the configuration, ends
with the suffix of source files, and leads through a folder for routes and through none of the
excluded folders.
-/

namespace RouteWatch

/-- The folders that a path leads through. -/
def Path.folders (p : Path) : List String := p.parts.dropLast

/-- The file at a path takes part in a review. -/
def isRouteFile (c : Config) (path : String) : Bool :=
  let folders := (Path.ofText path).folders
  c.rootPath.toList.isPrefixOf path.toList && c.fileSuffix.toList.isSuffixOf path.toList &&
    folders.contains c.routesMarker && !c.excludedSegments.any folders.contains

end RouteWatch
