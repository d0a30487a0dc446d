import RefCheck.Data.Value

/-!
# Kinds of declarations

A kind is a set of bits, one for each kind of declaration; a *mask* is a kind that has several of them,
and a declaration meets a mask if they share a bit. The numbers are those of the model files. Bits that
have no name are kept.
-/

namespace RefCheck

/-- A kind of declaration, or a mask of several. -/
structure Kind where
  /-- The bits. -/
  bits : Nat
  deriving DecidableEq, Repr, Inhabited

namespace Kind

/-- The project itself. -/
def project : Kind := ⟨0x1⟩
/-- A module. -/
def module : Kind := ⟨0x2⟩
/-- A namespace. -/
def namespaceKind : Kind := ⟨0x4⟩
/-- An enumeration. -/
def enumeration : Kind := ⟨0x8⟩
/-- A member of an enumeration. -/
def enumMember : Kind := ⟨0x10⟩
/-- A variable. -/
def variableKind : Kind := ⟨0x20⟩
/-- A function. -/
def function : Kind := ⟨0x40⟩
/-- A class. -/
def classKind : Kind := ⟨0x80⟩
/-- An interface. -/
def interface : Kind := ⟨0x100⟩
/-- A constructor. -/
def constructor : Kind := ⟨0x200⟩
/-- A property. -/
def property : Kind := ⟨0x400⟩
/-- A method. -/
def method : Kind := ⟨0x800⟩
/-- A signature of a call. -/
def callSignature : Kind := ⟨0x1000⟩
/-- A signature of an index. -/
def indexSignature : Kind := ⟨0x2000⟩
/-- A signature of a constructor. -/
def constructorSignature : Kind := ⟨0x4000⟩
/-- A parameter. -/
def parameter : Kind := ⟨0x8000⟩
/-- A type that is written out where it is used. -/
def typeLiteral : Kind := ⟨0x10000⟩
/-- A parameter that stands for a type. -/
def typeParameter : Kind := ⟨0x20000⟩
/-- An accessor. -/
def accessor : Kind := ⟨0x40000⟩
/-- A signature that reads an accessor. -/
def getSignature : Kind := ⟨0x80000⟩
/-- A signature that writes an accessor. -/
def setSignature : Kind := ⟨0x100000⟩
/-- A name for a type. -/
def typeAlias : Kind := ⟨0x400000⟩
/-- Another name of a declaration. -/
def reference : Kind := ⟨0x800000⟩
/-- An event of a class or interface. -/
def event : Kind := ⟨0x1000000⟩

/-- The mask of both. -/
def or (a b : Kind) : Kind := ⟨a.bits ||| b.bits⟩

/-- The mask of every kind. -/
def all : Kind := ⟨0x1FFFFFF⟩
/-- What has members: classes and interfaces. -/
def container : Kind := classKind.or interface
/-- What is a member, events apart. -/
def member : Kind := ((constructor.or property).or method).or accessor
/-- What is a signature that a reference can name. -/
def signature : Kind := ((callSignature.or constructorSignature).or getSignature).or setSignature

/-- Every kind and mask that has a name. -/
def named : List (String × Kind) :=
  [("PROJECT", project), ("MODULE", module), ("NAMESPACE", namespaceKind), ("ENUM", enumeration),
    ("ENUM_MEMBER", enumMember), ("VARIABLE", variableKind), ("FUNCTION", function),
    ("CLASS", classKind), ("INTERFACE", interface), ("CONSTRUCTOR", constructor),
    ("PROPERTY", property), ("METHOD", method), ("CALL_SIGNATURE", callSignature),
    ("INDEX_SIGNATURE", indexSignature), ("CONSTRUCTOR_SIGNATURE", constructorSignature),
    ("PARAMETER", parameter), ("TYPE_LITERAL", typeLiteral), ("TYPE_PARAMETER", typeParameter),
    ("ACCESSOR", accessor), ("GET_SIGNATURE", getSignature), ("SET_SIGNATURE", setSignature),
    ("TYPE_ALIAS", typeAlias), ("REFERENCE", reference), ("EVENT", event), ("ALL", all),
    ("CONTAINER", container), ("MEMBER", member), ("SIGNATURE", signature)]

/-- The kind and the mask share a bit. -/
def meets (k mask : Kind) : Bool := k.bits &&& mask.bits != 0

/-- The power of two above every named kind. -/
def bound : Int := 0x2000000

/-- The kind of this number. A negative number counts down from `bound`, or, if it is too far below zero
for that, from the next power of two above its size. -/
def ofInt (n : Int) : Kind :=
  if 0 ≤ n then ⟨n.toNat⟩
  else if -bound ≤ n then ⟨(bound + n).toNat⟩
  else ⟨(Nat.pow 2 (n.natAbs.log2 + 1) + n).toNat⟩

/-- The kind whose number a value is. A floating point number has to be that of a named kind. -/
def ofValue? : Value → Option Kind
  | .int n => some (ofInt n)
  | .bool b => some (ofInt (if b then 1 else 0))
  | .float x => x.whole?.bind fun n => (named.find? fun k => (k.2.bits : Int) == n).map Prod.snd
  | _ => none

end Kind

end RefCheck
