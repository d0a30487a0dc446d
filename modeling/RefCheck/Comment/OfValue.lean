import RefCheck.Comment.Layout
import RefCheck.Data.Access
import RefCheck.Data.Display

/-!
# Comments of a model file

A model file holds a comment either as the text that was written, or already in parts: an object with a
summary and block tags. A part that does not say its kind, or says an unknown one, is plain text.
-/

namespace RefCheck

/-- The part that a value stands for. -/
def Part.ofValue (v : Value) : Except Fault Part := do
  let kind ← v.field "kind" (.str "text")
  let text ← v.field "text" (.str "")
  let tag ← v.field "tag" .null
  return ⟨.ofValue kind, text.display, tag⟩

/-- The parts that the items of a value stand for. -/
def Part.listOfValue (v : Value) : Except Fault (List Part) := do
  (← v.items).mapM Part.ofValue

/-- The block tag that a value stands for. -/
def BlockTag.ofValue (v : Value) : Except Fault BlockTag := do
  let tag ← v.entry "tag"
  let content ← Part.listOfValue (← v.field "content" (.arr []))
  return ⟨tag, content⟩

/-- The comment that a value stands for: none for no value, and a text is parsed. -/
def Comment.ofValue : Value → Except Fault (Option Comment)
  | .null => .ok none
  | .str s => .ok (some (Comment.parse s))
  | v => do
    let summary ← Part.listOfValue (← v.field "summary" (.arr []))
    let blockTags ← (← (← v.field "blockTags" (.arr [])).items).mapM BlockTag.ofValue
    return some ⟨summary, blockTags⟩

end RefCheck
