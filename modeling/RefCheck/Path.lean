import RefCheck.Fault.Basic
import RefCheck.Text.Split

/-!
# Paths

A path is a root and names below it. Several slashes in a row count as one, and so do names that are a
single point; two points stay as they are. At the start of a path, exactly two slashes are a root of
their own.

The first name of a relative path may stand for a home directory: a tilde alone for that of whoever runs
the program, a tilde and a name for that of the account of this name.
-/

namespace RefCheck

/-- Where a path starts. -/
inductive PathRoot where
  /-- At the directory of whoever reads the path. -/
  | relative
  /-- At the root. -/
  | single
  /-- At the root that two slashes stand for. -/
  | double
  deriving DecidableEq, Repr, Inhabited

/-- The text of a root. -/
def PathRoot.text : PathRoot → String
  | relative => ""
  | single => "/"
  | double => "//"

/-- A path in its shortest form. -/
structure Path where
  /-- Where it starts. -/
  root : PathRoot
  /-- The names from there. -/
  names : List String
  deriving DecidableEq, Repr, Inhabited

/-- The home directories that are known. -/
structure Homes where
  /-- That of whoever runs the program. -/
  own : String
  /-- Those of accounts, by name. -/
  named : List (String × String)
  deriving Repr, Inhabited

namespace Path

/-- The root that a text starts with. -/
def rootOf : List Char → PathRoot
  | '/' :: '/' :: '/' :: _ => .single
  | '/' :: '/' :: _ => .double
  | '/' :: _ => .single
  | _ => .relative

/-- The names in a text. -/
def namesOf (cs : List Char) : List String :=
  ((Text.segments '/' cs).filter (· != ['.'])).map String.ofList

/-- The path that a text writes down. -/
def ofString (s : String) : Path := ⟨rootOf s.toList, namesOf s.toList⟩

/-- The text of a path; the directory itself is a point. -/
def text (p : Path) : String :=
  if p.root = .relative && p.names.isEmpty then "." else p.root.text ++ "/".intercalate p.names

/-- The path does not depend on a directory. -/
def isAbsolute (p : Path) : Bool := p.root != .relative

/-- A path read from another one. -/
def join (p q : Path) : Path := if q.isAbsolute then q else ⟨p.root, p.names ++ q.names⟩

/-- The directory that holds what the path leads to. -/
def parent (p : Path) : Path := ⟨p.root, p.names.dropLast⟩

/-! ## Home directories -/

/-- The home directory that a name with a tilde stands for. -/
def homeOf (homes : Homes) (account : String) : Except Fault String :=
  if account = "" then .ok homes.own
  else if account.toList.contains '\x00' then .error (.disk .holdsNull)
  else
    match homes.named.lookup account with
    | some home => .ok home
    | none => .error .unknownAccount

/-- A text without the slashes at its end. -/
def dropTrailingSlashes (s : String) : String :=
  String.ofList (s.toList.reverse.dropWhile (· == '/')).reverse

/-- The path with a home directory in place of its first name, if that has a tilde. -/
def expandHome (homes : Homes) (p : Path) : Except Fault Path :=
  match p.root, p.names with
  | .relative, first :: rest =>
    match first.toList with
    | '~' :: account => do
      let home := dropTrailingSlashes (← homeOf homes (String.ofList account))
      if home.toList.head? = some '~' then .error .unknownAccount
      else
        let base := ofString (if home = "" then "/" else home)
        return ⟨base.root, base.names ++ rest⟩
    | _ => .ok p
  | _, _ => .ok p

@[simp] theorem isAbsolute_join (p q : Path) :
    (p.join q).isAbsolute = (p.isAbsolute || q.isAbsolute) := by
  unfold join
  split <;> simp_all [isAbsolute]

end Path

end RefCheck
