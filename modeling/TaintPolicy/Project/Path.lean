/-!
# Paths

Paths are texts whose parts stand between slashes. A path that starts with a slash is absolute and
stays what it is when it is joined to another.
-/

namespace TaintPolicy.Path

def isAbsolute (path : String) : Bool := path.toList.head? = some '/'

/-- The path as seen from a base. -/
def join (base path : String) : String :=
  if isAbsolute path then path
  else if base.isEmpty || base.toList.getLast? = some '/' then base ++ path
  else base ++ "/" ++ path

end TaintPolicy.Path
