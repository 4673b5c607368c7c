/-!
Descriptors: the text that names a type or the type of a method. A type is a letter, a class
between `L` and `;`, or a bracket before the type of the elements; a method is its parameter
types in parentheses and then its result.
-/
namespace DexAtlas

inductive Primitive where
  | boolean
  | byte
  | char
  | short
  | int
  | long
  | float
  | double
  | void
  deriving DecidableEq, Repr

namespace Primitive

def letter : Primitive → Char
  | .boolean => 'Z'
  | .byte => 'B'
  | .char => 'C'
  | .short => 'S'
  | .int => 'I'
  | .long => 'J'
  | .float => 'F'
  | .double => 'D'
  | .void => 'V'

/-- The keyword of the type. -/
def java : Primitive → String
  | .boolean => "boolean"
  | .byte => "byte"
  | .char => "char"
  | .short => "short"
  | .int => "int"
  | .long => "long"
  | .float => "float"
  | .double => "double"
  | .void => "void"

def ofLetter? : Char → Option Primitive
  | 'Z' => some .boolean
  | 'B' => some .byte
  | 'C' => some .char
  | 'S' => some .short
  | 'I' => some .int
  | 'J' => some .long
  | 'F' => some .float
  | 'D' => some .double
  | 'V' => some .void
  | _ => none

end Primitive

/-- A class by its name with slashes, such as `java/lang/Object`. -/
structure ClassName where
  path : String
  deriving DecidableEq, Repr

namespace ClassName

/-- From the spelling with dots. -/
def ofJava (name : String) : ClassName :=
  ⟨String.ofList (name.toList.map fun c => if c = '.' then '/' else c)⟩

/-- The spelling with dots. -/
def java (name : ClassName) : String :=
  String.ofList (name.path.toList.map fun c => if c = '/' then '.' else c)

def descriptor (name : ClassName) : String :=
  "L" ++ name.path ++ ";"

end ClassName

/-- What a type descriptor denotes. -/
inductive JavaType where
  | primitive (p : Primitive)
  | object (name : ClassName)
  | array (element : JavaType)
  deriving DecidableEq, Repr

namespace JavaType

def descriptor : JavaType → String
  | .primitive p => String.ofList [p.letter]
  | .object name => name.descriptor
  | .array element => "[" ++ element.descriptor

def java : JavaType → String
  | .primitive p => p.java
  | .object name => name.java
  | .array element => element.java ++ "[]"

/-- The class at the bottom of a class or array type. -/
def elementClass? : JavaType → Option ClassName
  | .primitive _ => none
  | .object name => some name
  | .array element => element.elementClass?

/-- Characters that may stand in a class name. -/
def isNameChar (c : Char) : Bool :=
  c != ';' && c != '(' && c != ')'

/-- The type that the text begins with, and what follows it. -/
def parse? : List Char → Option (JavaType × List Char)
  | [] => none
  | c :: rest =>
    if c = '[' then
      match parse? rest with
      | some (element, rest) => some (.array element, rest)
      | none => none
    else if c = 'L' then
      let name := rest.takeWhile isNameChar
      match rest.dropWhile isNameChar with
      | ';' :: rest => if name = [] then none else some (.object ⟨String.ofList name⟩, rest)
      | _ => none
    else
      match Primitive.ofLetter? c with
      | some p => some (.primitive p, rest)
      | none => none

/-- A parsed type takes at least one character. -/
theorem length_of_parse? {text rest : List Char} {t : JavaType}
    (parsed : parse? text = some (t, rest)) : rest.length < text.length := by
  induction text generalizing t rest with
  | nil => simp [parse?] at parsed
  | cons c tail ih =>
    rw [parse?] at parsed
    split at parsed
    · split at parsed
      next element more inner =>
        simp only [Option.some.injEq, Prod.mk.injEq] at parsed
        have shorter := ih inner
        rw [List.length_cons, ← parsed.2]
        omega
      next => cases parsed
    · split at parsed
      · dsimp only at parsed
        split at parsed
        next more dropped =>
          split at parsed
          · cases parsed
          · simp only [Option.some.injEq, Prod.mk.injEq] at parsed
            have bound := (List.dropWhile_suffix isNameChar (l := tail)).length_le
            rw [dropped, List.length_cons, parsed.2] at bound
            rw [List.length_cons]
            omega
        next => cases parsed
      · split at parsed
        next p letter =>
          simp only [Option.some.injEq, Prod.mk.injEq] at parsed
          simp [parsed.2]
        next => cases parsed

/-- The type that a whole descriptor denotes. -/
def ofDescriptor? (text : String) : Option JavaType :=
  match parse? text.toList with
  | some (t, []) => some t
  | _ => none

end JavaType

/-- The class that a descriptor of the form `L…;` denotes. -/
def ClassName.ofDescriptor? (text : String) : Option ClassName :=
  match JavaType.ofDescriptor? text with
  | some (.object name) => some name
  | _ => none

/-- Parameter types and result of a method. -/
structure MethodType where
  parameters : List JavaType
  result : JavaType
  deriving DecidableEq, Repr

namespace MethodType

def descriptor (m : MethodType) : String :=
  "(" ++ String.join (m.parameters.map JavaType.descriptor) ++ ")" ++ m.result.descriptor

/-- The result, then the parameters in parentheses. -/
def java (m : MethodType) : String :=
  m.result.java ++ " (" ++ ", ".intercalate (m.parameters.map JavaType.java) ++ ")"

/-- Types up to a closing parenthesis, and what follows it. -/
def parseParameters? (text : List Char) : Option (List JavaType × List Char) :=
  if text.head? = some ')' then some ([], text.tail)
  else
    match parsed : JavaType.parse? text with
    | none => none
    | some (t, rest) =>
      have := JavaType.length_of_parse? parsed
      match parseParameters? rest with
      | some (ts, rest) => some (t :: ts, rest)
      | none => none
termination_by text.length

def ofDescriptor? (text : String) : Option MethodType :=
  match text.toList with
  | '(' :: rest =>
    match parseParameters? rest with
    | some (parameters, rest) =>
      match JavaType.parse? rest with
      | some (result, []) => some ⟨parameters, result⟩
      | _ => none
    | none => none
  | _ => none

end MethodType

namespace Descriptor

/-- The class behind a type descriptor: the type itself for `L…;`, the element class for an array
of classes, nothing for other types. -/
def elementClass? (descriptor : String) : Option String :=
  let element := descriptor.toList.dropWhile (· == '[')
  if 2 < element.length ∧ element.head? = some 'L' ∧ element.getLast? = some ';' then
    some (String.ofList element)
  else none

/-- A class name in descriptor form, given in that form or spelled with dots. -/
def canonicalClass (name : String) : String :=
  if name.toList.head? = some 'L' ∧ name.toList.getLast? = some ';' then name
  else (ClassName.ofJava name).descriptor

/-- The name of a method across images: class, name and prototype. -/
def methodName (owner name prototype : String) : String :=
  owner ++ "->" ++ name ++ prototype

/-- The name of a field across images: class, name and type. -/
def fieldName (owner name type : String) : String :=
  owner ++ "->" ++ name ++ ":" ++ type

end Descriptor

end DexAtlas
