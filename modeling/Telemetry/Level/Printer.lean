import Telemetry.Level
import Telemetry.Yaml.Value

/-!
# Levels as documents

A level is written as its name.
-/

namespace Telemetry.Level

def toYaml (level : Level) : String := (Yaml.Value.text level.name).render

end Telemetry.Level
