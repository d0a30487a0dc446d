import RefCheck.Fault.Basic
import RefCheck.Yaml.Data

/-!
# Laying data over data

Settings from several sources are laid one over another. Where both have a mapping under a key, the two
are laid over each other in turn; everywhere else the upper one counts, and a key that it lacks keeps its
value. A mapping that stands inside itself is laid over others once, and counts as a whole where it stands
inside itself.

A name in the upper data stands for upper data only. `fill` puts that in its place while the data around it is
taken apart, so that nothing of the lower data is ever taken for it.
-/

namespace RefCheck.Yaml.Data

mutual

/-- Data laid over other data, inside data whose names `fill` puts in their place. -/
def overlayBy (fill : Data → Data) (base : Data) : Data → Data
  | map entries =>
    match base.opened with
    | map own => map (overlayEntriesBy fill own entries)
    | _ => fill (map entries)
  | known name (map entries) =>
    match base.opened with
    | map own =>
      map (overlayEntriesBy (fun d => fill (withName name (known name (map entries)) d)) own entries)
    | _ => fill (known name (map entries))
  | d => fill d

/-- Entries laid over other entries, inside such data. -/
def overlayEntriesBy (fill : Data → Data) (base : List (Scalar × Data)) :
    List (Scalar × Data) → List (Scalar × Data)
  | [] => base
  | (k, v) :: rest =>
    let value :=
      match lookup k base with
      | some own => overlayBy fill own v
      | none => fill v
    overlayEntriesBy fill (put k value base) rest

end

/-- Data laid over other data. -/
def overlay (base upper : Data) : Data := overlayBy id base upper

/-- Entries laid over other entries. -/
def overlayEntries (base upper : List (Scalar × Data)) : List (Scalar × Data) :=
  overlayEntriesBy id base upper

/-- Data laid over other data where both should be mappings. A list can take the place of the lower one as
long as nothing is laid over it. -/
def layOver (base upper : Data) : Except Fault Data :=
  match base, upper with
  | map own, map entries => .ok (map (overlayEntries own entries))
  | list items, map [] => .ok (list items)
  | list _, map _ => .error (.misshapen .noNamedEntries)
  | _, _ => .error (.misshapen .noFields)

end RefCheck.Yaml.Data
