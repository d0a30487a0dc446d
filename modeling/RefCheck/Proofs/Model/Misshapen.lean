import RefCheck.Model.OfFile
import RefCheck.Proofs.Fault.Failing
import RefCheck.Proofs.Model.Readable

/-!
# Files that do not load

A file that is missing, that is no JSON or whose nodes lack what they must have is told as a problem of the
model. So is a node with a text that is no number where there has to be one. Everything else that a reader
takes for granted is taken for granted: that what is gone through are objects, that flags and comments are
objects, that a block tag has a name, and that a number is finite. Where one of these fails, loading stops at
a bare fault, which no caller is told to expect.

`Model.loading_cases` says that these are all the ways in which loading ends, and that a file gives a bare
fault only if one of its nodes is not *sound* in this sense (`IsSoundFile`). For a file on a disk two limits
of the reader of JSON are left besides. That each of the bare faults can happen is `Model.bare_faults`.
-/

namespace RefCheck

open RefCheck.Log

/-- The value is an infinite number. -/
def Value.isInfinite : Value → Bool
  | .float (.infinite _) => true
  | _ => false

namespace Node

/-- What is read of a node as a whole number is not infinite. -/
structure IsFinite (node : Value) : Prop where
  id : ∀ v ∈ node.get? "id", v.isInfinite = false
  kind : ∀ v ∈ node.get? "kind", v.isInfinite = false
  lines : ∀ s ∈ nodesAt "sources" node, ∀ v ∈ s.get? "line", v.isInfinite = false

instance (node : Value) : Decidable (IsFinite node) :=
  decidable_of_iff
    ((∀ v ∈ node.get? "id", v.isInfinite = false) ∧ (∀ v ∈ node.get? "kind", v.isInfinite = false) ∧
      ∀ s ∈ nodesAt "sources" node, ∀ v ∈ s.get? "line", v.isInfinite = false)
    ⟨fun ⟨h₁, h₂, h₃⟩ ↦ ⟨h₁, h₂, h₃⟩, fun ⟨h₁, h₂, h₃⟩ ↦ ⟨h₁, h₂, h₃⟩⟩

/-- Nothing in a node has another shape than its reader takes for granted. -/
structure IsSound (node : Value) : Prop where
  shaped : IsShaped node
  plain : IsPlain node
  finite : IsFinite node

end Node

/-- A file all of whose nodes are sound. -/
structure IsSoundFile (data : Value) : Prop where
  isObject : data.isObject = true
  children : Node.holdsObjects "children" data = true
  nodes : ∀ node ∈ fileNodes data, Node.IsSound node

/-- The fault is a problem of the model. -/
def Fault.IsOfModel (f : Fault) : Prop := f.family? = some .model

/-- The fault is a problem of the model, or comes from the shape of data. -/
def Fault.IsOfLoading (f : Fault) : Prop := f.IsOfModel ∨ f.IsMisshape

/-! ## What every reader may stop at -/

section

variable {v node : Value}

private theorem isOfLoading_misshapen (s : Misshape) : Fault.IsOfLoading (.misshapen s) := .inr ⟨s, rfl⟩

theorem Value.failsWith_field (key : String) (default : Value) :
    FailsWith Fault.IsOfLoading (v.field key default) := by
  cases v with
  | obj fields => exact failsWith_ok _
  | null | bool | int | float | str | arr => exact failsWith_error_iff.mpr (isOfLoading_misshapen _)

theorem Value.failsWith_items : FailsWith Fault.IsOfLoading v.items := by
  cases v with
  | arr | obj | str => exact failsWith_ok _
  | null | bool | int | float => exact failsWith_error_iff.mpr (isOfLoading_misshapen _)

theorem Value.failsWith_holds (key : String) : FailsWith Fault.IsOfLoading (v.holds key) := by
  cases v with
  | arr | obj | str => exact failsWith_ok _
  | null | bool | int | float => exact failsWith_error_iff.mpr (isOfLoading_misshapen _)

theorem Value.failsWith_entry (key : String) : FailsWith Fault.IsOfLoading (v.entry key) := by
  cases v with
  | obj fields =>
    rw [Value.entry]
    split
    · exact failsWith_ok _
    · exact failsWith_error_iff.mpr (isOfLoading_misshapen _)
  | null | bool | int | float | str | arr => exact failsWith_error_iff.mpr (isOfLoading_misshapen _)

theorem Value.failsWith_whole? : FailsWith Fault.IsOfLoading v.whole? := by
  cases v with
  | float x =>
    cases x with
    | infinite => exact failsWith_error_iff.mpr (isOfLoading_misshapen _)
    | nan | finite => exact failsWith_ok _
  | null | bool | int | str | arr | obj => exact failsWith_ok _

namespace Node

theorem failsWith_describe : FailsWith Fault.IsOfLoading (describe node) := by
  refine (Value.failsWith_holds _).bind fun hasName _ ↦ ?_
  cases hasName with
  | true => exact (Value.failsWith_entry _).bind fun _ _ ↦ failsWith_ok _
  | false =>
    refine (Value.failsWith_holds _).bind fun hasId _ ↦ ?_
    cases hasId with
    | true => exact (Value.failsWith_entry _).bind fun _ _ ↦ failsWith_ok _
    | false => exact failsWith_ok _

theorem failsWith_checkRequired (fields : List String) :
    FailsWith Fault.IsOfLoading (checkRequired node fields) := by
  induction fields with
  | nil => exact failsWith_ok ()
  | cons field fields ih =>
    refine (Value.failsWith_holds _).bind fun there _ ↦ ?_
    cases there with
    | true => exact ih
    | false => exact failsWith_describe.bind fun _ _ ↦ failsWith_error_iff.mpr (.inl rfl)

theorem failsWith_wholeField (field : String) :
    FailsWith Fault.IsOfLoading (wholeField field node v) := by
  refine Value.failsWith_whole?.bind fun n _ ↦ ?_
  cases n with
  | some n => exact failsWith_ok n
  | none => exact failsWith_describe.bind fun _ _ ↦ failsWith_error_iff.mpr (.inl rfl)

theorem failsWith_source : FailsWith Fault.IsOfLoading (source node v) := by
  refine (Value.failsWith_field _ _).bind fun _ _ ↦ (Value.failsWith_field _ _).bind fun _ _ ↦ ?_
  refine (failsWith_wholeField _).bind fun _ _ ↦ ?_
  exact (Value.failsWith_field _ _).bind fun _ _ ↦ failsWith_ok _

end Node

theorem Part.failsWith_listOfValue : FailsWith Fault.IsOfLoading (Part.listOfValue v) := by
  refine Value.failsWith_items.bind fun items _ ↦ .mapM fun item _ ↦ ?_
  refine (Value.failsWith_field _ _).bind fun _ _ ↦ (Value.failsWith_field _ _).bind fun _ _ ↦ ?_
  exact (Value.failsWith_field _ _).bind fun _ _ ↦ failsWith_ok _

theorem BlockTag.failsWith_ofValue : FailsWith Fault.IsOfLoading (BlockTag.ofValue v) := by
  refine (Value.failsWith_entry _).bind fun _ _ ↦ (Value.failsWith_field _ _).bind fun _ _ ↦ ?_
  exact Part.failsWith_listOfValue.bind fun _ _ ↦ failsWith_ok _

theorem Comment.failsWith_ofValue : FailsWith Fault.IsOfLoading (Comment.ofValue v) := by
  rw [Comment.ofValue.eq_def]
  split
  · exact failsWith_ok _
  · exact failsWith_ok _
  · refine (Value.failsWith_field _ _).bind fun _ _ ↦ Part.failsWith_listOfValue.bind fun _ _ ↦ ?_
    refine (Value.failsWith_field _ _).bind fun _ _ ↦ Value.failsWith_items.bind fun _ _ ↦ ?_
    exact (FailsWith.mapM fun _ _ ↦ BlockTag.failsWith_ofValue).bind fun _ _ ↦ failsWith_ok _

namespace Node

theorem failsWith_head : FailsWith Fault.IsOfLoading (head node) := by
  refine (failsWith_checkRequired _).bind fun _ _ ↦ (Value.failsWith_entry _).bind fun _ _ ↦ ?_
  refine (failsWith_wholeField _).bind fun _ _ ↦ (Value.failsWith_entry _).bind fun _ _ ↦ ?_
  refine (Value.failsWith_entry _).bind fun _ _ ↦ (failsWith_wholeField _).bind fun _ _ ↦ ?_
  refine (Value.failsWith_field _ _).bind fun _ _ ↦ Comment.failsWith_ofValue.bind fun _ _ ↦ ?_
  refine (Value.failsWith_field _ _).bind fun _ _ ↦ Value.failsWith_items.bind fun _ _ ↦ ?_
  refine (FailsWith.mapM fun _ _ ↦ failsWith_source).bind fun _ _ ↦ ?_
  refine (Value.failsWith_field _ _).bind fun _ _ ↦ ?_
  exact (Value.failsWith_field _ _).bind fun _ _ ↦ failsWith_ok _

theorem failsWith_fieldItems (field : String) (default : Value) :
    FailsWith Fault.IsOfLoading (fieldItems field default node) :=
  (Value.failsWith_field _ _).bind fun _ _ ↦ Value.failsWith_items

theorem failsWith_signatures : FailsWith Fault.IsOfLoading (signatures node) :=
  (failsWith_fieldItems _ _).bind fun _ _ ↦ failsWith_ok _

theorem failsWith_children : FailsWith Fault.IsOfLoading (children node) := by
  refine (Value.failsWith_field _ _).bind fun _ _ ↦ (failsWith_fieldItems _ _).bind fun _ _ ↦ ?_
  refine (failsWith_fieldItems _ _).bind fun _ _ ↦ ?_
  exact (failsWith_fieldItems _ _).bind fun _ _ ↦ failsWith_ok _

theorem failsWith_target? (numbering : Numbering) :
    FailsWith Fault.IsOfLoading (target? numbering v) := by
  rw [target?_eq]
  refine (Value.failsWith_field "target" .null).bind fun a _ ↦ ?_
  exact failsWith_ok _

theorem stopsWith_links (numbering : Numbering) :
    (links numbering node).StopsWith Fault.IsOfLoading := by
  refine .andThen (.forEach fun field _ ↦ ?_) ?_
  · refine .ofResult (failsWith_fieldItems _ _) fun types _ ↦ .forEach fun type _ ↦ ?_
    refine .ofResult ?_ fun _ _ ↦ .of_eq_none rfl
    refine (failsWith_target? numbering).bind fun found _ ↦ ?_
    cases found with
    | some h => exact failsWith_ok _
    | none => exact (Value.failsWith_field _ _).bind fun _ _ ↦ failsWith_ok _
  · rw [inheritedStep]
    split
    · split
      · exact .ofResult (failsWith_target? numbering) fun _ _ ↦ .of_eq_none rfl
      · exact .of_eq_none rfl
    · exact .of_eq_none rfl

end Node

theorem Outline.failsWith_ofValue : FailsWith Fault.IsOfLoading (ofValue node) := by
  -- on the depth of the node, for what it holds is less deep
  induction hdepth : node.depth using Nat.strongRecOn generalizing node with
  | ind depth ih =>
    rw [ofValue_eq]
    refine Node.failsWith_head.bind fun _ _ ↦ Node.failsWith_signatures.bind fun sigs hsigs ↦ ?_
    refine (FailsWith.mapM fun x hx ↦ ?_).bind fun _ _ ↦ ?_
    · exact ih x.depth (hdepth ▸ Node.depth_lt_of_mem_signatures hsigs hx) rfl
    refine Node.failsWith_children.bind fun kids hkids ↦ ?_
    refine (FailsWith.mapM fun x hx ↦ ?_).bind fun _ _ ↦ failsWith_ok _
    exact ih x.depth (hdepth ▸ Node.depth_lt_of_mem_children hkids hx) rfl

end

/-! ## What a sound node stops at -/

theorem Value.exists_whole?_iff {v : Value} : (∃ n, v.whole? = .ok n) ↔ v.isInfinite = false := by
  cases v with
  | float x =>
    cases x with
    | infinite => exact iff_of_false (fun ⟨n, h⟩ ↦ by cases h) fun h ↦ by cases h
    | nan | finite => exact iff_of_true ⟨_, rfl⟩ rfl
  | null | bool | int | str | arr | obj => exact iff_of_true ⟨_, rfl⟩ rfl

namespace Node

variable {node v : Value} (hobject : node.isObject = true)

include hobject

theorem exists_holds (key : String) : ∃ there, node.holds key = .ok there := by
  cases node with
  | obj fields => exact ⟨_, rfl⟩
  | null | bool | int | float | str | arr => cases hobject

theorem exists_entry {key : String} (h : node.holds key = .ok true) : ∃ v, node.entry key = .ok v := by
  cases node with
  | obj fields =>
    obtain ⟨v, hv⟩ := Option.isSome_iff_exists.mp (Except.ok.inj h)
    exact ⟨v, entry_eq_ok_iff.mpr hv⟩
  | null | bool | int | float | str | arr => cases hobject

/-- Every object can be named in a message. -/
theorem exists_describe : ∃ text, describe node = .ok text := by
  have hnamed : ∀ key, ∃ there, node.holds key = .ok there ∧
      (there = true → ∃ v, node.entry key = .ok v) := by
    intro key
    obtain ⟨there, hthere⟩ := exists_holds hobject key
    exact ⟨there, hthere, fun htrue ↦ exists_entry hobject (htrue ▸ hthere)⟩
  obtain ⟨hasName, hname, hentry⟩ := hnamed "name"
  obtain ⟨hasId, hid, hidEntry⟩ := hnamed "id"
  rw [describe, hname, hid]
  cases hasName with
  | true =>
    obtain ⟨v, hv⟩ := hentry rfl
    exact ⟨v.quoted, by rw [hv]; rfl⟩
  | false =>
    cases hasId with
    | true =>
      obtain ⟨v, hv⟩ := hidEntry rfl
      exact ⟨"#" ++ v.display, by rw [hv]; rfl⟩
    | false => exact ⟨"<anonymous>", rfl⟩

/-- What an object must have is there once that is checked. -/
theorem exists_entry_of_checkRequired {fields : List String} (h : checkRequired node fields = .ok ()) :
    ∀ key ∈ fields, ∃ v, node.entry key = .ok v := by
  induction fields with
  | nil => exact fun key hkey ↦ (List.not_mem_nil hkey).elim
  | cons field fields ih =>
    obtain ⟨there, hthere, hrest⟩ := Fault.bind_eq_ok_iff.mp h
    cases there with
    | true => exact List.forall_mem_cons.mpr ⟨exists_entry hobject hthere, ih hrest⟩
    | false =>
      obtain ⟨_, -, hthrow⟩ := Fault.bind_eq_ok_iff.mp hrest
      cases hthrow

/-- A field that an object lacks is a problem of the model. -/
theorem failsWith_checkRequired_of_isObject (fields : List String) :
    FailsWith Fault.IsOfModel (checkRequired node fields) := by
  induction fields with
  | nil => exact failsWith_ok ()
  | cons field fields ih =>
    refine (FailsWith.of_exists (exists_holds hobject field)).bind fun there _ ↦ ?_
    cases there with
    | true => exact ih
    | false =>
      refine (FailsWith.of_exists (exists_describe hobject)).bind fun _ _ ↦ ?_
      exact failsWith_error_iff.mpr rfl

/-- So is a value that stands for no whole number, if it is not infinite. -/
theorem failsWith_wholeField_of_isInfinite (field : String) (hv : v.isInfinite = false) :
    FailsWith Fault.IsOfModel (wholeField field node v) := by
  refine (FailsWith.of_exists (Value.exists_whole?_iff.mpr hv)).bind fun n _ ↦ ?_
  cases n with
  | some n => exact failsWith_ok n
  | none =>
    refine (FailsWith.of_exists (exists_describe hobject)).bind fun _ _ ↦ ?_
    exact failsWith_error_iff.mpr rfl

theorem failsWith_source_of_isInfinite (hv : v.isObject = true)
    (hline : ∀ line ∈ v.get? "line", line.isInfinite = false) :
    FailsWith Fault.IsOfModel (source node v) := by
  have hfinite : ((v.get? "line").getD (.int 0)).isInfinite = false := by
    cases hget : v.get? "line" with
    | none => rfl
    | some line => exact hline line hget
  rw [source, field_eq_ok hv, field_eq_ok hv, field_eq_ok hv]
  exact (failsWith_wholeField_of_isInfinite hobject "line" hfinite).bind fun _ _ ↦ failsWith_ok _

omit hobject

/-- The sources of a sound node stop at nothing but a line that is no number. -/
theorem failsWith_sources_of_isSound (h : IsSound node) :
    FailsWith Fault.IsOfModel ((nodesAt "sources" node).mapM (source node)) := by
  refine .mapM fun s hs ↦ ?_
  refine failsWith_source_of_isInfinite h.shaped.isObject ?_ (h.finite.lines s hs)
  exact isObject_of_mem_nodesAt (h.shaped.arrays "sources" (by decide)) s hs

/-- **A sound node stops at nothing but problems of the model.** -/
theorem failsWith_head_of_isSound (h : IsSound node) : FailsWith Fault.IsOfModel (head node) := by
  have hobject := h.shaped.isObject
  have hitems := items_getD_eq_ok (h.shaped.arrays "sources" (by decide))
  have hflags : ((node.get? "flags").getD (.obj [])).isObject = true := by
    cases hget : node.get? "flags" with
    | none => rfl
    | some v => exact h.plain.flags v hget
  refine (failsWith_checkRequired_of_isObject hobject _).bind fun _ hchecked ↦ ?_
  have hrequired := exists_entry_of_checkRequired hobject hchecked
  refine (FailsWith.of_exists (hrequired "id" (by decide))).bind fun id hid ↦ ?_
  have hidFinite := h.finite.id id (entry_eq_ok_iff.mp hid)
  refine (failsWith_wholeField_of_isInfinite hobject "id" hidFinite).bind fun _ _ ↦ ?_
  refine (FailsWith.of_exists (hrequired "name" (by decide))).bind fun _ _ ↦ ?_
  refine (FailsWith.of_exists (hrequired "kind" (by decide))).bind fun kind hkind ↦ ?_
  have hkindFinite := h.finite.kind kind (entry_eq_ok_iff.mp hkind)
  refine (failsWith_wholeField_of_isInfinite hobject "kind" hkindFinite).bind fun _ _ ↦ ?_
  rw [field_eq_ok hobject, field_eq_ok hobject, field_eq_ok hobject]
  refine FailsWith.bind (failsWith_ok _) fun _ hcomment ↦ ?_
  cases hcomment
  refine (FailsWith.of_exists (exists_comment h.shaped h.plain)).bind fun _ _ ↦ ?_
  refine FailsWith.bind (failsWith_ok _) fun _ hsources ↦ ?_
  cases hsources
  rw [hitems]
  refine FailsWith.bind (failsWith_ok _) fun _ hnodes ↦ ?_
  cases hnodes
  refine (failsWith_sources_of_isSound h).bind fun _ _ ↦ ?_
  refine FailsWith.bind (failsWith_ok _) fun _ hgiven ↦ ?_
  cases hgiven
  rw [field_eq_ok hflags]
  exact FailsWith.bind (failsWith_ok _) fun _ _ ↦ failsWith_ok _

end Node

/-- Nor does what is below a sound node, if all of it is sound. -/
theorem Outline.failsWith_ofValue_of_isSound {node : Value}
    (h : ∀ x ∈ Node.preorder node, Node.IsSound x) : FailsWith Fault.IsOfModel (ofValue node) := by
  induction hdepth : node.depth using Nat.strongRecOn generalizing node with
  | ind depth ih =>
    have hself := h node (Node.mem_preorder_self node)
    rw [ofValue_eq, Node.signatures_eq_ok hself.shaped, Node.children_eq_ok hself.shaped]
    refine (Node.failsWith_head_of_isSound hself).bind fun _ _ ↦ ?_
    refine FailsWith.bind (failsWith_ok _) fun _ hsigs ↦ ?_
    cases hsigs
    refine (FailsWith.mapM fun x hx ↦ ?_).bind fun _ _ ↦ FailsWith.bind (failsWith_ok _) fun _ hkids ↦ ?_
    · refine ih x.depth (hdepth ▸ Node.depth_lt_of_mem_signatureNodes hx) (fun y hy ↦ ?_) rfl
      exact h y (Node.preorder_subset (.inl hx) hy)
    cases hkids
    refine (FailsWith.mapM fun x hx ↦ ?_).bind fun _ _ ↦ failsWith_ok _
    refine ih x.depth (hdepth ▸ Node.depth_lt_of_mem_childNodes hx) (fun y hy ↦ ?_) rfl
    exact h y (Node.preorder_subset (.inr hx) hy)

/-! ## Files -/

namespace Model

variable {data : Value}

open Outline

theorem failsWith_topLevel : FailsWith Fault.IsOfLoading (topLevel data) := by
  refine (Value.failsWith_field _ _).bind fun _ _ ↦ Value.failsWith_items.bind fun _ _ ↦ ?_
  exact .mapM fun _ _ ↦ Outline.failsWith_ofValue

theorem failsWith_topLevel_of_isSoundFile (h : IsSoundFile data) :
    FailsWith Fault.IsOfModel (topLevel data) := by
  rw [topLevel, Node.field_eq_ok h.isObject]
  refine FailsWith.bind (failsWith_ok _) fun _ hchildren ↦ ?_
  cases hchildren
  rw [Node.items_getD_eq_ok h.children]
  refine FailsWith.bind (failsWith_ok _) fun _ hnodes ↦ ?_
  cases hnodes
  refine .mapM fun node hnode ↦ Outline.failsWith_ofValue_of_isSound fun x hx ↦ ?_
  exact h.nodes x (List.mem_flatMap.mpr ⟨node, hnode, hx⟩)

/-- What loading stops at is what its three parts stop at: the name of the project, the nodes, the links. -/
theorem failsWith_ofValue {P : Fault → Prop} (hname : FailsWith P (projectName data))
    (htop : FailsWith P (topLevel data))
    (hlinks : ∀ os, topLevel data = .ok os → ∀ n ∈ innerFirstAll os,
      (Node.links (numbering os) n.2).StopsWith P) : FailsWith P (ofValue data).result := by
  rw [ofValue, load]
  cases hn : projectName data with
  | error f => exact failsWith_error_iff.mpr (hname f hn)
  | ok name =>
    cases ht : topLevel data with
    | error f => exact failsWith_error_iff.mpr (htop f ht)
    | ok os =>
      have htold : ((empty "").withOutlines name os).1.StopsWith P :=
        .forEach fun n hn' ↦ hlinks os ht n hn'
      dsimp only
      split
      · next f hf => exact failsWith_error_iff.mpr (htold f hf)
      · exact failsWith_ok _

theorem isOfLoading_of_ofValue : FailsWith Fault.IsOfLoading (ofValue data).result := by
  refine failsWith_ofValue ?_ failsWith_topLevel fun _ _ _ _ ↦ Node.stopsWith_links _
  exact (Value.failsWith_field _ _).bind fun _ _ ↦ failsWith_ok _

/-- **Sound files fail with problems of the model only.** -/
theorem isOfModel_of_isSoundFile (h : IsSoundFile data) :
    FailsWith Fault.IsOfModel (ofValue data).result := by
  refine failsWith_ofValue ?_ (failsWith_topLevel_of_isSoundFile h) fun os htop n hn ↦ ?_
  · rw [projectName, Node.field_eq_ok h.isObject]
    exact FailsWith.bind (failsWith_ok _) fun _ _ ↦ failsWith_ok _
  · have hnode := snd_mem_of_mem_innerFirstAll os hn
    rw [map_snd_nodesAll os (topLevel_eq_ok htop)] at hnode
    have hsound := h.nodes n.2 hnode
    exact .of_eq_none (Node.fault_links_eq_none _ hsound.shaped hsound.plain)

/-! ### Files on a disk -/

/-- Bytes hold a text that is beyond a limit of the reader of JSON, and this is the fault for it. -/
def IsBeyondLimit (bytes : List UInt8) (f : Fault) : Prop :=
  ∃ text stop, Utf8.decode bytes = .ok text ∧ Json.decode (Text.unifyBreaks text) = .error stop ∧
    (stop.flaw = .longNumber ∧ f = .unreadable .longNumber ∨
      stop.flaw = .tooDeep ∧ f = .unreadable .tooDeep)

theorem failsWith_fileValue (path : String) (bytes : List UInt8) :
    FailsWith (fun f ↦ f.IsOfModel ∨ IsBeyondLimit bytes f) (fileValue path bytes) := by
  rw [fileValue]
  cases htext : Utf8.decode bytes with
  | error f => exact failsWith_error_iff.mpr (.inl rfl)
  | ok text =>
    dsimp only
    cases hvalue : Json.decode (Text.unifyBreaks text) with
    | error stop =>
      refine failsWith_error_iff.mpr ?_
      rw [faultOfJson]
      split
      · next hlong => exact .inr ⟨text, stop, htext, hvalue, .inl ⟨hlong, rfl⟩⟩
      · next hdeep => exact .inr ⟨text, stop, htext, hvalue, .inr ⟨hdeep, rfl⟩⟩
      · exact .inl rfl
    | ok v =>
      dsimp only
      split
      · exact failsWith_ok v
      · exact failsWith_error_iff.mpr (.inl rfl)

/-- A file is loaded as its value is. -/
theorem failsWith_ofFile {P : Fault → Prop} {path : String} {bytes : List UInt8}
    (hvalue : FailsWith P (fileValue path bytes))
    (hload : ∀ data, fileValue path bytes = .ok data → FailsWith P (ofValue data).result) :
    FailsWith P (ofFile path (some bytes)).result := by
  rw [ofFile]
  cases hdata : fileValue path bytes with
  | error f => exact failsWith_error_iff.mpr (hvalue f hdata)
  | ok data =>
    have hresult := hload data hdata
    dsimp only [Logged.finish]
    cases hr : (ofValue data).result with
    | error f => exact failsWith_error_iff.mpr (hresult f hr)
    | ok m => exact failsWith_ok m

/-- **All ways in which loading fails.** A value that does not become a model gives a problem of the model, or
a bare fault because not all of its nodes are sound. A file does the same by the value that it holds, unless
it is beyond a limit of the reader of JSON; a file that is missing is a problem of the model. -/
theorem loading_cases (data : Value) (path : String) (bytes : List UInt8) :
    FailsWith (fun f ↦ f.IsOfModel ∨ f.IsMisshape ∧ ¬IsSoundFile data) (ofValue data).result ∧
      FailsWith (fun f ↦ f.IsOfModel ∨ IsBeyondLimit bytes f ∨
        ∃ held, fileValue path bytes = .ok held ∧ f.IsMisshape ∧ ¬IsSoundFile held)
        (ofFile path (some bytes)).result ∧
      FailsWith Fault.IsOfModel (ofFile path none).result := by
  have hvalue : ∀ data, FailsWith (fun f ↦ f.IsOfModel ∨ f.IsMisshape ∧ ¬IsSoundFile data)
      (ofValue data).result := by
    intro data f hf
    by_cases hsound : IsSoundFile data
    · exact .inl (isOfModel_of_isSoundFile hsound f hf)
    · exact (isOfLoading_of_ofValue f hf).imp_right fun hshape ↦ ⟨hshape, hsound⟩
  refine ⟨hvalue data, failsWith_ofFile ?_ fun held hheld ↦ ?_, failsWith_error_iff.mpr rfl⟩
  · exact (failsWith_fileValue path bytes).mono fun f hf ↦ hf.imp_right .inl
  · exact (hvalue held).mono fun f hf ↦ hf.imp_right fun h ↦ .inr ⟨held, hheld, h⟩

/-- Files that give a bare fault, each with what is taken for granted in vain. The last but one is a text
where a node has to be: it holds the names of the fields that a node must have. -/
def bareFiles : List (Value × Misshape) :=
  [(.obj [("children", .arr [.obj [("id", .float (.infinite false)), ("name", .str "m"),
      ("kind", .int 2)]])], .infiniteNumber),
    (fileWith "comment" (.obj [("blockTags", .arr [.obj []])]), .missingEntry "tag"),
    (fileWith "extendedTypes" (.arr [.int 7]), .noFields),
    (fileWith "sources" (.int 7), .noItems),
    (.obj [("children", .arr [.str "id, name, kind"])], .noNamedEntries),
    (.obj [("children", .arr [.int 7])], .notSearchable)]

/-- What is taken for granted in vain. -/
def misshape? (r : Except Fault Model) : Option Misshape :=
  match r with
  | .error (.misshapen s) => some s
  | _ => none

theorem eq_misshapen_of_misshape? {r : Except Fault Model} {s : Misshape} (h : misshape? r = some s) :
    r = .error (.misshapen s) := by
  unfold misshape? at h
  split at h
  · cases h
    rfl
  · cases h

/-- **Bare faults.** None of these files loads, and none is told as a problem of the model. -/
theorem bare_faults : bareFiles.Forall fun file ↦
    (ofValue file.1).result = .error (.misshapen file.2) ∧
      ¬FailsWith Fault.IsOfModel (ofValue file.1).result := by
  have hrun : ∀ file ∈ bareFiles, misshape? (ofValue file.1).result = some file.2 := by
    decide +kernel
  refine List.forall_iff_forall_mem.mpr fun file hfile ↦ ?_
  have hresult := eq_misshapen_of_misshape? (hrun file hfile)
  refine ⟨hresult, fun hmodel ↦ ?_⟩
  cases hmodel _ hresult

end Model

end RefCheck
