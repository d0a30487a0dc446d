import RefCheck.Fault.Basic

/-!
# Reading values of unknown shape

A reader of a model file takes some shapes for granted. These functions ask a value for a field, its
items or an entry, and say which fault a value of another shape gives.

An array has its items, an object its keys, and a text its characters.
-/

namespace RefCheck.Value

/-- The field of an object, or `default` where it has none. -/
def field (v : Value) (key : String) (default : Value) : Except Fault Value :=
  match v with
  | obj fields => .ok ((fields.lookup key).getD default)
  | _ => .error (.misshapen .noFields)

/-- The items to go through. -/
def items : Value → Except Fault (List Value)
  | arr items => .ok items
  | obj fields => .ok (fields.map fun f => .str f.1)
  | str s => .ok (s.toList.map fun c => .str (String.singleton c))
  | _ => .error (.misshapen .noItems)

/-- `inner` stands somewhere in the text. -/
def occursIn (inner : List Char) : List Char → Bool
  | [] => inner.isEmpty
  | c :: cs => inner.isPrefixOf (c :: cs) || occursIn inner cs

/-- Whether an object has a key, an array holds a text, or a text holds another one. -/
def holds (key : String) : Value → Except Fault Bool
  | obj fields => .ok (fields.lookup key).isSome
  | arr items => .ok (items.any (isText key))
  | str s => .ok (occursIn key.toList s.toList)
  | _ => .error (.misshapen .notSearchable)

/-- The entry of an object that must be there. -/
def entry (key : String) : Value → Except Fault Value
  | obj fields =>
    match fields.lookup key with
    | some v => .ok v
    | none => .error (.misshapen (.missingEntry key))
  | _ => .error (.misshapen .noNamedEntries)

/-- No item is deeper than the value that it is an item of. -/
theorem depth_le_of_mem_items {v w : Value} {ws : List Value} (h : v.items = .ok ws)
    (hw : w ∈ ws) : w.depth ≤ v.depth := by
  cases v with
  | arr xs =>
    simp only [items, Except.ok.injEq] at h
    subst h
    have := depth_le_itemsDepth hw
    simp only [depth]
    omega
  | obj fields =>
    simp only [items, Except.ok.injEq] at h
    subst h
    obtain ⟨f, _, rfl⟩ := List.mem_map.1 hw
    simp [depth]
  | str s =>
    simp only [items, Except.ok.injEq] at h
    subst h
    obtain ⟨c, _, rfl⟩ := List.mem_map.1 hw
    simp [depth]
  | _ => simp [items] at h

end RefCheck.Value
