/-! # Version -/
namespace Sproto

/-- The version of this library. -/
def version : String := "0.3.0"

end Sproto
