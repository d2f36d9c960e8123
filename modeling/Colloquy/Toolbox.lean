import Colloquy.Toolbox.Calculator
import Colloquy.Toolbox.Weather

/-!
# The toolbox

The native functions that come with the library.
-/

namespace Colloquy.Toolbox

/-- The functions of the toolbox. -/
def functions : NativeTable :=
  .ofList [calculator, weather]

/-- The registry that serves nothing but the toolbox. -/
def registry : Registry :=
  .ofList [functions.backend]

end Colloquy.Toolbox
