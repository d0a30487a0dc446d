import RefCheck.Data.Reader
import RefCheck.Data.Utf8
import RefCheck.Model.OfValue
import RefCheck.Text.Line

/-!
# Model files

A model file is JSON in UTF-8, with an object at the top. Line endings are made one before the text is
read, so the positions in a message do not depend on them.
-/

namespace RefCheck.Model

open RefCheck.Log

/-- The fault of a file that cannot be read. -/
def unreadableAt (path reason : String) : Fault := .problem (.modelUnreadable (.str path) (.str reason))

/-- The fault of a file at a path that is no JSON. Beyond the limits of the reader it may well be JSON, so
that is a fault of its own. -/
def faultOfJson (path : String) (f : Json.Fault) : Fault :=
  match f.flaw with
  | .longNumber => .unreadable .longNumber
  | .tooDeep => .unreadable .tooDeep
  | _ => unreadableAt path f.message

/-- The value in the bytes of the file at a path. -/
def fileValue (path : String) (bytes : List UInt8) : Except Fault Value :=
  match Utf8.decode bytes with
  | .error f => .error (unreadableAt path f.message)
  | .ok text =>
    match Json.decode (Text.unifyBreaks text) with
    | .error f => .error (faultOfJson path f)
    | .ok v =>
      if v.isObject then .ok v
      else .error (unreadableAt path "top-level value must be an object")

/-- The model in a file; no bytes mean that there is no file. -/
def ofFile (path : String) (bytes : Option (List UInt8)) : Logged Model :=
  match bytes with
  | none => ⟨[], .error (.problem (.modelNotFound (.str path)))⟩
  | some bytes =>
    match fileValue path bytes with
    | .error f => ⟨[], .error f⟩
    | .ok v =>
      (ofValue v).finish fun m =>
        .debug "project_loaded" [("path", .str path), ("modules", .nat m.roots.length)]

end RefCheck.Model
