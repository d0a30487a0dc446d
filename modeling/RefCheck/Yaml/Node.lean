import RefCheck.Yaml.Lexer
import RefCheck.Yaml.Tag

/-!
# The structure of settings files

Tokens make up nodes: scalars, lists and mappings. In the block style entries stand one below another, in
the flow style between brackets, with commas. An entry without a value has an empty plain scalar, which
means no value. A list below a key may stand in the column of the key. Before a node may stand a name for it
and a tag; a node with either of them may be left empty.

A file holds one document or none. Before it is read, its directives are taken in: they say what the handles
of tags stand for. A name may be given once, and only to a node before those that are meant by it.
-/

namespace RefCheck.Yaml

/-- A node of a settings file. -/
inductive Node where
  /-- The node of this name once more. -/
  | sameAs (name : String)
  /-- A scalar. -/
  | scalar (anchor : Option String) (tag : Tag) (text : List Char)
  /-- A list. -/
  | list (anchor : Option String) (tag : Tag) (items : List Node)
  /-- A mapping. -/
  | map (anchor : Option String) (tag : Tag) (entries : List (Node × Node))
  deriving Inhabited, Repr

/-- What stands before a node. -/
structure Properties where
  /-- Its name. -/
  anchor : Option String
  /-- The name of its tag. -/
  tag : Option String
  deriving DecidableEq, Inhabited, Repr

namespace Properties

/-- Nothing stands before a node. -/
def none : Properties := ⟨Option.none, Option.none⟩

/-- What stands before a node at the start of tokens, in either order, and what follows. -/
def take : List Token → Properties × List Token
  | .anchor a :: .tag t :: ts | .tag t :: .anchor a :: ts => (⟨some a, some t.rest⟩, ts)
  | .anchor a :: ts => (⟨some a, Option.none⟩, ts)
  | .tag t :: ts => (⟨Option.none, some t.rest⟩, ts)
  | ts => (none, ts)

/-- The tag that leaves to the node what it is. -/
def plainTag : String := "!"

/-- The tag of a list or mapping that is what it looks like. -/
def tagOr (p : Properties) (usual : Tag) : Tag :=
  match p.tag with
  | Option.none => usual
  | some name => if name = plainTag then usual else Tag.ofName name

/-- The scalar of a text. -/
def scalar (p : Properties) (isPlain : Bool) (text : List Char) : Node :=
  .scalar p.anchor (p.tagOr (if isPlain || p.tag == some plainTag then Tag.ofPlain text else .str)) text

/-- The list of some items. -/
def list (p : Properties) (items : List Node) : Node := .list p.anchor (p.tagOr .list) items

/-- The mapping of some entries. -/
def map (p : Properties) (entries : List (Node × Node)) : Node := .map p.anchor (p.tagOr .map) entries

end Properties

namespace Node

/-- The node that stands for what is not there. -/
def absent : Node := Properties.none.scalar true []

/-- A node, or nothing, starts with these tokens: nothing if one of `ends` comes first. -/
def isAbsent (ends : List Token) (ts : List Token) : Bool :=
  match ts with
  | [] => false
  | t :: _ => ends.contains t

/-- What is wrong with tokens that cannot go on here. -/
def mistakeAt : List Token → Mistake
  | .mistake m :: _ => m
  | _ => .malformed

/-- A node with nothing but properties; they have to be there. -/
def onlyProperties (p : Properties) (ts : List Token) : Except Mistake (Node × List Token) :=
  if p = Properties.none then .error (mistakeAt ts) else .ok (p.scalar true [], ts)

mutual

/-- Reads a node. `isBlock` allows the block style, and `isFlush` a list in the column of its key. Each
step of the readers takes a token or leads to one that does, so four steps per token suffice. -/
def read : Nat → (isBlock isFlush : Bool) → List Token → Except Mistake (Node × List Token)
  | 0, _, _, _ => .error .malformed
  | steps + 1, isBlock, isFlush, ts =>
    match ts with
    | .sameAs name :: rest => .ok (sameAs name, rest)
    | _ =>
      let (p, ts) := Properties.take ts
      match ts with
      | .plain text :: rest => .ok (p.scalar true text, rest)
      | .quoted text :: rest => .ok (p.scalar false text, rest)
      | .squareOpen :: rest => (readFlowList steps true rest).map fun r => (p.list r.1, r.2)
      | .curlyOpen :: rest => (readFlowMap steps true rest).map fun r => (p.map r.1, r.2)
      | .listStart :: rest =>
        if isBlock then (readBlockList steps rest).map fun r => (p.list r.1, r.2)
        else onlyProperties p ts
      | .mapStart :: rest =>
        if isBlock then (readBlockMap steps rest).map fun r => (p.map r.1, r.2)
        else onlyProperties p ts
      | .hyphen :: _ =>
        if isFlush then (readFlushList steps ts).map fun r => (p.list r.1, r.2)
        else onlyProperties p ts
      | _ => onlyProperties p ts

/-- Reads a node that may be absent. -/
def readOptional : Nat → (isBlock isFlush : Bool) → List Token → List Token →
    Except Mistake (Node × List Token)
  | 0, _, _, _, _ => .error .malformed
  | steps + 1, isBlock, isFlush, ends, ts =>
    if isAbsent ends ts then .ok (absent, ts) else read steps isBlock isFlush ts

/-- Reads the entries of a list in the block style, and its end. -/
def readBlockList : Nat → List Token → Except Mistake (List Node × List Token)
  | 0, _ => .error .malformed
  | steps + 1, ts =>
    match ts with
    | .hyphen :: rest => do
      let (item, rest) ← readOptional steps true false [.hyphen, .blockEnd] rest
      let (items, rest) ← readBlockList steps rest
      return (item :: items, rest)
    | .blockEnd :: rest => .ok ([], rest)
    | _ => .error (mistakeAt ts)

/-- Reads the entries of a list in the column of its key. -/
def readFlushList : Nat → List Token → Except Mistake (List Node × List Token)
  | 0, _ => .error .malformed
  | steps + 1, ts =>
    match ts with
    | .hyphen :: rest => do
      let (item, rest) ← readOptional steps true false [.hyphen, .key, .colon, .blockEnd] rest
      let (items, rest) ← readFlushList steps rest
      return (item :: items, rest)
    | _ => .ok ([], ts)

/-- Reads the entries of a mapping in the block style, and its end. -/
def readBlockMap : Nat → List Token → Except Mistake (List (Node × Node) × List Token)
  | 0, _ => .error .malformed
  | steps + 1, ts =>
    match ts with
    | .key :: rest => do
      let (k, rest) ← readOptional steps true true [.key, .colon, .blockEnd] rest
      let (v, rest) ← readBlockValue steps rest
      let (entries, rest) ← readBlockMap steps rest
      return ((k, v) :: entries, rest)
    | .blockEnd :: rest => .ok ([], rest)
    | _ => .error (mistakeAt ts)

/-- Reads the value of an entry in the block style. -/
def readBlockValue : Nat → List Token → Except Mistake (Node × List Token)
  | 0, _ => .error .malformed
  | steps + 1, ts =>
    match ts with
    | .colon :: rest => readOptional steps true true [.key, .colon, .blockEnd] rest
    | _ => .ok (absent, ts)

/-- Reads the entries of a list in the flow style, and its bracket. An entry with a key is a mapping with
that entry alone. -/
def readFlowList : Nat → (isFirst : Bool) → List Token → Except Mistake (List Node × List Token)
  | 0, _, _ => .error .malformed
  | steps + 1, isFirst, ts =>
    match ts, isFirst with
    | .squareClose :: rest, _ => .ok ([], rest)
    | .comma :: .squareClose :: rest, false => .ok ([], rest)
    | .comma :: rest, false => readFlowItem steps rest
    | ts, false => .error (mistakeAt ts)
    | ts, true => readFlowItem steps ts

/-- Reads an entry of a list in the flow style, and those after it. -/
def readFlowItem : Nat → List Token → Except Mistake (List Node × List Token)
  | 0, _ => .error .malformed
  | steps + 1, ts => do
    let (item, rest) ←
      match ts with
      | .key :: rest => do
        let (k, rest) ← readOptional steps false false [.colon, .comma, .squareClose] rest
        let (v, rest) ← readFlowValue steps .squareClose rest
        pure (Properties.none.map [(k, v)], rest)
      | _ => read steps false false ts
    let (items, rest) ← readFlowList steps false rest
    return (item :: items, rest)

/-- Reads the entries of a mapping in the flow style, and its bracket. -/
def readFlowMap : Nat → (isFirst : Bool) → List Token →
    Except Mistake (List (Node × Node) × List Token)
  | 0, _, _ => .error .malformed
  | steps + 1, isFirst, ts =>
    match ts, isFirst with
    | .curlyClose :: rest, _ => .ok ([], rest)
    | .comma :: .curlyClose :: rest, false => .ok ([], rest)
    | .comma :: rest, false => readFlowEntry steps rest
    | ts, false => .error (mistakeAt ts)
    | ts, true => readFlowEntry steps ts

/-- Reads an entry of a mapping in the flow style, and those after it. -/
def readFlowEntry : Nat → List Token → Except Mistake (List (Node × Node) × List Token)
  | 0, _ => .error .malformed
  | steps + 1, ts => do
    let (entry, rest) ←
      match ts with
      | .key :: rest => do
        let (k, rest) ← readOptional steps false false [.colon, .comma, .curlyClose] rest
        let (v, rest) ← readFlowValue steps .curlyClose rest
        pure ((k, v), rest)
      | _ => do
        let (k, rest) ← read steps false false ts
        pure ((k, absent), rest)
    let (entries, rest) ← readFlowMap steps false rest
    return (entry :: entries, rest)

/-- Reads the value of an entry in the flow style. -/
def readFlowValue : Nat → Token → List Token → Except Mistake (Node × List Token)
  | 0, _, _ => .error .malformed
  | steps + 1, close, ts =>
    match ts with
    | .colon :: rest => readOptional steps false false [.comma, close] rest
    | _ => .ok (absent, ts)

end

/-! ## Directives and names -/

/-- What handles stand for. -/
abbrev Handles := List (String × String)

/-- What handles stand for where nothing is said about them. -/
def usualHandles : Handles := [("!", "!"), ("!!", Tag.start)]

/-- Takes in directives: the version may be given once, and so may every handle. -/
def takeDirectives (hasVersion : Bool) (handles : Handles) :
    List Token → Except Mistake (Handles × List Token)
  | .directive (.version major) :: ts =>
    if hasVersion || major != 1 then .error .malformed else takeDirectives true handles ts
  | .directive (.handle name start) :: ts =>
    if (handles.lookup name).isSome then .error .malformed
    else takeDirectives hasVersion ((name, start) :: handles) ts
  | .directive .other :: ts => takeDirectives hasVersion handles ts
  | ts => .ok (handles, ts)

/-- How many lists and mappings may stand one inside the other. -/
def maxNesting : Nat := 490

/-- How many levels are left after a token, of those that are left before it. -/
def levelsAfter (t : Token) (levels : Nat) : Option Nat :=
  match t, levels with
  | .listStart, 0 | .mapStart, 0 | .squareOpen, 0 | .curlyOpen, 0 => none
  | .listStart, n + 1 | .mapStart, n + 1 | .squareOpen, n + 1 | .curlyOpen, n + 1 => some n
  | .blockEnd, n | .squareClose, n | .curlyClose, n => some (n + 1)
  | _, n => some n

/-- Tokens with the full names of tags, up to the first token that uses a handle or a name that there is
not, gives a name again, or nests too deeply. -/
def settle (handles : Handles) (names : List String) (levels : Nat) : List Token → List Token
  | [] => []
  | .tag ⟨some handle, rest⟩ :: ts =>
    match handles.lookup handle with
    | some start => .tag ⟨none, start ++ rest⟩ :: settle handles names levels ts
    | none => [.mistake .malformed]
  | .anchor name :: ts =>
    if names.contains name then [.mistake .malformed]
    else .anchor name :: settle handles (name :: names) levels ts
  | .sameAs name :: ts =>
    if names.contains name then .sameAs name :: settle handles names levels ts
    else [.mistake .malformed]
  | t :: ts =>
    match levelsAfter t levels with
    | some levels => t :: settle handles names levels ts
    | none => [.mistake (.unreadable .tooDeep)]

/-! ## Documents -/

/-- Passes over the marks that end a document. -/
def dropDocumentEnds (ts : List Token) : List Token := ts.dropWhile (· == .documentEnd)

/-- Reads the node of a document. After a mark at its start there need not be one. -/
def readDocument (isMarked : Bool) (handles : Handles) (ts : List Token) :
    Except Mistake (Node × List Token) :=
  match ts, isMarked with
  | [], true | .documentStart :: _, true | .documentEnd :: _, true | .directive _ :: _, true =>
    .ok (absent, ts)
  | _, _ => read (4 * ts.length + 4) true false (settle (handles ++ usualHandles) [] maxNesting ts)

/-- Reads the document at the start of tokens, with its directives. -/
def readFirst (ts : List Token) : Except Mistake (Node × List Token) :=
  match ts with
  | .directive _ :: _ | .documentStart :: _ => do
    match ← takeDirectives false [] ts with
    | (handles, .documentStart :: rest) => readDocument true handles rest
    | (_, rest) => .error (mistakeAt rest)
  | _ => readDocument false [] ts

/-- The node of the only document of a file; there may be none. -/
def document? (ts : List Token) : Except Mistake (Option Node) := do
  if ts.isEmpty then return none
  else
    let (node, rest) ← readFirst ts
    match dropDocumentEnds rest with
    | [] => return some node
    | rest => .error (mistakeAt rest)

end Node

end RefCheck.Yaml
