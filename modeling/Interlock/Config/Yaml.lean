import Interlock.Config.File
import Interlock.Yaml.Library
/-!
# Configuration files in YAML

The files that users write are YAML. `Config.ofYaml` reads one and `Config.toYaml` writes one.
-/

namespace Interlock.Config

/-- Reads a configuration file and checks its settings. -/
def ofYaml (text : String) : Except ConfigFileFault Config := load Yaml.library text

/-- The file that says a configuration relative to a preset. -/
def toYaml (c : Config) (p : Preset) : String := Yaml.writeRecord (c.file p).fields

end Interlock.Config
