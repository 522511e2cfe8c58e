/-!
# The version of the registry
-/

namespace AlertRegistry

/-- The version of the registry. -/
def version : String := "0.1.0"

end AlertRegistry
