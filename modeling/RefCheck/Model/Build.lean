import RefCheck.Model.Basic

/-!
# Building a model by hand

A model can be put together reflection by reflection. An owner that takes in a reflection becomes its
parent, also if another one owned it before; what stands at the top level has no parent.
-/

namespace RefCheck.Model

/-- Changes the reflection at a handle. -/
def modify (m : Model) (h : Handle) (f : Reflection → Reflection) : Model :=
  { m with reflections := m.reflections.modify h f }

/-- Adds a reflection; its handle is the size before. -/
def add (m : Model) (r : Reflection) : Model := { m with reflections := m.reflections.push r }

/-- Puts a reflection at the top level. -/
def addRoot (m : Model) (child : Handle) : Model :=
  let m := m.modify child fun r => { r with parent := none }
  { m with roots := m.roots ++ [child] }

/-- Makes a reflection the child of another. -/
def addChild (m : Model) (owner child : Handle) : Model :=
  (m.modify child fun r => { r with parent := some owner }).modify owner
    fun r => { r with children := r.children ++ [child] }

/-- Makes a reflection the signature of another. -/
def addSignature (m : Model) (owner child : Handle) : Model :=
  (m.modify child fun r => { r with parent := some owner }).modify owner
    fun r => { r with signatures := r.signatures ++ [child] }

/-- Lets a reflection extend another. -/
def addBase (m : Model) (h base : Handle) : Model :=
  m.modify h fun r => { r with bases := r.bases ++ [base] }

/-- Says which member a reflection repeats. -/
def setInherited (m : Model) (h : Handle) (member : Option Handle) : Model :=
  m.modify h fun r => { r with inheritedFrom := member }

/-- Gives a reflection a comment. -/
def setComment (m : Model) (h : Handle) (comment : Option Comment) : Model :=
  m.modify h fun r => { r with comment }

end RefCheck.Model
