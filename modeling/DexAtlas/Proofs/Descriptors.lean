import DexAtlas.Descriptor
import Mathlib.Data.List.TakeWhile

/-!
# The grammar of descriptors

A descriptor is accepted exactly if it is the spelling of a type, or of a method, whose class names
can stand between `L` and `;`. What a text begins with is settled by its first character, and a
class name ends at the first character that no name holds; so a text has at most one reading,
whatever follows it. The class behind a type can be found without reading it: what is left of the
text behind the brackets is its descriptor, or is the letter of a primitive type.
-/
namespace DexAtlas

/-! ### Well-formed types -/

/-- A name that can stand in a descriptor. -/
def ClassName.WellFormed (name : ClassName) : Prop :=
  name.path ≠ "" ∧ ∀ c ∈ name.path.toList, c ≠ ';' ∧ c ≠ '(' ∧ c ≠ ')'

instance (name : ClassName) : Decidable name.WellFormed :=
  inferInstanceAs (Decidable (_ ∧ _))

/-- Every class in the type has a name that can stand in a descriptor. -/
def JavaType.WellFormed : JavaType → Prop
  | .primitive _ => True
  | .object name => name.WellFormed
  | .array element => element.WellFormed

instance JavaType.decidableWellFormed : (t : JavaType) → Decidable t.WellFormed
  | .primitive _ => isTrue trivial
  | .object name => inferInstanceAs (Decidable name.WellFormed)
  | .array element => element.decidableWellFormed

def MethodType.WellFormed (m : MethodType) : Prop :=
  (∀ t ∈ m.parameters, t.WellFormed) ∧ m.result.WellFormed

instance (m : MethodType) : Decidable m.WellFormed :=
  inferInstanceAs (Decidable (_ ∧ _))

/-! ### Types -/

theorem Primitive.ofLetter?_letter (p : Primitive) : ofLetter? p.letter = some p := by
  cases p <;> rfl

theorem Primitive.letter_of_ofLetter? {c : Char} {p : Primitive} (found : ofLetter? c = some p) :
    c = p.letter := by
  unfold ofLetter? at found
  split at found <;> cases found <;> rfl

namespace JavaType

variable {text rest : List Char} {t : JavaType}

theorem isNameChar_iff {c : Char} : isNameChar c = true ↔ c ≠ ';' ∧ c ≠ '(' ∧ c ≠ ')' := by
  simp [isNameChar, and_assoc]

theorem toList_descriptor_primitive (p : Primitive) :
    (primitive p).descriptor.toList = [p.letter] := by
  simp [descriptor]

theorem toList_descriptor_object (name : ClassName) :
    (object name).descriptor.toList = 'L' :: (name.path.toList ++ [';']) := by
  simp [descriptor, ClassName.descriptor]

theorem toList_descriptor_array (element : JavaType) :
    (array element).descriptor.toList = '[' :: element.descriptor.toList := by
  simp [descriptor]

/-- What is read is the spelling of a well-formed type, and what is left is the rest. -/
theorem of_parse? (parsed : parse? text = some (t, rest)) :
    t.WellFormed ∧ text = t.descriptor.toList ++ rest := by
  -- one case for each way through the parser; those that give nothing are closed at once
  fun_induction parse? text generalizing t rest with
  | case1 => cases parsed
  | case2 tail element more inner ih =>
    cases parsed
    obtain ⟨formed, spelled⟩ := ih inner
    exact ⟨formed, by rw [toList_descriptor_array, List.cons_append, ← spelled]⟩
  | case3 => cases parsed
  | case4 => cases parsed
  | case5 tail name more closed nonempty =>
    cases parsed
    have letters : ∀ c ∈ name, c ≠ ';' ∧ c ≠ '(' ∧ c ≠ ')' := fun c member =>
      isNameChar_iff.mp (List.mem_takeWhile_imp member)
    refine ⟨⟨by simpa [← String.toList_inj] using nonempty, by simpa using letters⟩, ?_⟩
    -- the name and what the name stops at are the whole text
    rw [toList_descriptor_object, String.toList_ofList, List.cons_append, List.append_assoc,
      List.singleton_append, ← closed, List.takeWhile_append_dropWhile]
  | case6 => cases parsed
  | case7 c tail _ _ p letter =>
    cases parsed
    exact ⟨trivial, by
      rw [toList_descriptor_primitive, List.singleton_append, Primitive.letter_of_ofLetter? letter]⟩
  | case8 => cases parsed

/-- A well-formed type is read from its spelling, whatever follows. -/
theorem parse?_descriptor (formed : t.WellFormed) (rest : List Char) :
    parse? (t.descriptor.toList ++ rest) = some (t, rest) := by
  induction t with
  | primitive p =>
    -- no primitive type is spelled like the start of an array or of a class
    have other : p.letter ≠ '[' ∧ p.letter ≠ 'L' := by cases p <;> decide
    rw [toList_descriptor_primitive, List.singleton_append, parse?, if_neg other.1,
      if_neg other.2, Primitive.ofLetter?_letter]
  | object name =>
    obtain ⟨nonempty, letters⟩ := formed
    have allowed : ∀ c ∈ name.path.toList, isNameChar c = true := fun c member =>
      isNameChar_iff.mpr (letters c member)
    have taken : (name.path.toList ++ ';' :: rest).takeWhile isNameChar = name.path.toList := by
      rw [List.takeWhile_append_of_pos allowed, List.takeWhile_cons_of_neg (by decide),
        List.append_nil]
    have left : (name.path.toList ++ ';' :: rest).dropWhile isNameChar = ';' :: rest := by
      rw [List.dropWhile_append_of_pos allowed, List.dropWhile_cons_of_neg (by decide)]
    have named : name.path.toList ≠ [] := by simpa using nonempty
    rw [toList_descriptor_object, List.cons_append, List.append_assoc, List.singleton_append,
      parse?, if_neg (by decide), if_pos rfl]
    simp only [taken, left, if_neg named, String.ofList_toList]
  | array element ih =>
    rw [toList_descriptor_array, List.cons_append, parse?, if_pos rfl, ih formed]

/-- A text begins with a type just if it begins with the spelling of one. -/
theorem parse?_eq_some_iff :
    parse? text = some (t, rest) ↔ t.WellFormed ∧ text = t.descriptor.toList ++ rest := by
  constructor
  · exact of_parse?
  · rintro ⟨formed, rfl⟩
    exact parse?_descriptor formed rest

theorem ofDescriptor?_eq_some_iff {text : String} {t : JavaType} :
    ofDescriptor? text = some t ↔ t.WellFormed ∧ t.descriptor = text := by
  have whole : ofDescriptor? text = some t ↔ parse? text.toList = some (t, []) := by
    unfold ofDescriptor?
    split
    next other parsed => simp [parsed]
    next nothing => simpa using nothing t
  rw [whole, parse?_eq_some_iff, List.append_nil, String.toList_inj, eq_comm (a := text)]

/-- No type begins with a closing parenthesis, so a list of parameters ends at the first. -/
theorem head?_descriptor (t : JavaType) (rest : List Char) :
    (t.descriptor.toList ++ rest).head? ≠ some ')' := by
  cases t with
  | primitive p => cases p <;> simp [toList_descriptor_primitive, Primitive.letter]
  | object name => simp [toList_descriptor_object]
  | array element => simp [toList_descriptor_array]

end JavaType

/-! ### Methods -/

namespace MethodType

variable {text rest : List Char} {ts : List JavaType}

/-- The spelling of types one after another. -/
def spelled (ts : List JavaType) : List Char :=
  ts.flatMap fun t => t.descriptor.toList

theorem toList_descriptor (m : MethodType) :
    m.descriptor.toList = '(' :: (spelled m.parameters ++ ')' :: m.result.descriptor.toList) := by
  simp [descriptor, spelled, String.toList_join, List.flatMap_map]

theorem parseParameters?_spelled (formed : ∀ t ∈ ts, t.WellFormed) (rest : List Char) :
    parseParameters? (spelled ts ++ ')' :: rest) = some (ts, rest) := by
  induction ts with
  | nil => rw [parseParameters?]; rfl
  | cons t ts ih =>
    obtain ⟨first, others⟩ := List.forall_mem_cons.mp formed
    have parsed := JavaType.parse?_descriptor first (spelled ts ++ ')' :: rest)
    rw [spelled, List.flatMap_cons, List.append_assoc, ← spelled, parseParameters?,
      if_neg (t.head?_descriptor _)]
    -- the call carries a proof that it ends, so the answer is compared and not rewritten
    split
    next failed => cases failed.symm.trans parsed
    next other left same =>
      cases same.symm.trans parsed
      rw [ih others]

/-- Parameters are read up to a closing parenthesis, and are all well formed. -/
theorem parseParameters?_eq_some_iff :
    parseParameters? text = some (ts, rest) ↔
      (∀ t ∈ ts, t.WellFormed) ∧ text = spelled ts ++ ')' :: rest := by
  constructor
  · intro parsed
    -- along the calls: each takes one type off the text, the last one the parenthesis
    fun_induction parseParameters? text generalizing ts rest with
    | case1 text closes =>
      obtain ⟨tail, rfl⟩ := List.head?_eq_some_iff.mp closes
      cases parsed
      exact ⟨by simp, rfl⟩
    | case2 => cases parsed
    | case3 text _ t left one _ ts more _ ih =>
      cases parsed
      obtain ⟨formed, spelling⟩ := JavaType.of_parse? one
      obtain ⟨others, follows⟩ := ih ‹_›
      refine ⟨List.forall_mem_cons.mpr ⟨formed, others⟩, ?_⟩
      rw [spelling, follows, spelled, spelled, List.flatMap_cons, List.append_assoc]
    | case4 => cases parsed
  · rintro ⟨formed, rfl⟩
    exact parseParameters?_spelled formed rest

theorem ofDescriptor?_eq_some_iff {text : String} {m : MethodType} :
    ofDescriptor? text = some m ↔ m.WellFormed ∧ m.descriptor = text := by
  constructor
  · intro accepted
    unfold ofDescriptor? at accepted
    split at accepted
    next inner opened =>
      split at accepted
      next parameters more listed =>
        split at accepted
        next result ended =>
          cases accepted
          obtain ⟨formed, inside⟩ := parseParameters?_eq_some_iff.mp listed
          obtain ⟨resultFormed, last⟩ := JavaType.of_parse? ended
          refine ⟨⟨formed, resultFormed⟩, String.toList_inj.mp ?_⟩
          rw [toList_descriptor, opened, inside, last, List.append_nil]
        next => cases accepted
      next => cases accepted
    next => cases accepted
  · rintro ⟨⟨formed, resultFormed⟩, rfl⟩
    have ended := JavaType.parse?_descriptor resultFormed []
    rw [List.append_nil] at ended
    simp only [ofDescriptor?, toList_descriptor, parseParameters?_spelled formed, ended]

end MethodType

/-- Descriptors are read without ambiguity: a text is accepted as a type, or as the type of a
method, just if that type is well formed and the text is its spelling. -/
theorem Descriptor.accepted_iff_spelled :
    (∀ (text : String) (t : JavaType),
      JavaType.ofDescriptor? text = some t ↔ t.WellFormed ∧ t.descriptor = text) ∧
    ∀ (text : String) (m : MethodType),
      MethodType.ofDescriptor? text = some m ↔ m.WellFormed ∧ m.descriptor = text :=
  ⟨fun _ _ => JavaType.ofDescriptor?_eq_some_iff, fun _ _ => MethodType.ofDescriptor?_eq_some_iff⟩

/-! ### The class behind a type -/

namespace Descriptor

theorem elementClass?_array (element : JavaType) :
    elementClass? (JavaType.array element).descriptor = elementClass? element.descriptor := by
  rw [elementClass?, JavaType.toList_descriptor_array, List.dropWhile_cons_of_pos (by decide),
    ← elementClass?]

theorem elementClass?_object {name : ClassName} (nonempty : name.path ≠ "") :
    elementClass? (JavaType.object name).descriptor = some name.descriptor := by
  have named : 0 < name.path.toList.length := by
    rw [List.length_pos_iff]
    simpa using nonempty
  have kept : (JavaType.object name).descriptor.toList.dropWhile (· == '[') =
      'L' :: (name.path.toList ++ [';']) := by
    rw [JavaType.toList_descriptor_object, List.dropWhile_cons_of_neg (by decide)]
  have form : 2 < ('L' :: (name.path.toList ++ [';'])).length ∧
      ('L' :: (name.path.toList ++ [';'])).head? = some 'L' ∧
      ('L' :: (name.path.toList ++ [';'])).getLast? = some ';' := by
    refine ⟨?_, rfl, ?_⟩
    · rw [List.length_cons, List.length_append, List.length_singleton]
      omega
    · rw [← List.cons_append, List.getLast?_concat]
  simp only [elementClass?, kept, if_pos form]
  rw [← JavaType.toList_descriptor_object, String.ofList_toList, JavaType.descriptor]

theorem elementClass?_primitive (p : Primitive) :
    elementClass? (JavaType.primitive p).descriptor = none := by
  cases p <;> decide

/-- The class found in the spelling of a type is the class at the bottom of the type. -/
theorem elementClass?_descriptor {t : JavaType} (formed : t.WellFormed) :
    elementClass? t.descriptor = t.elementClass?.map ClassName.descriptor := by
  induction t with
  | primitive p => rw [elementClass?_primitive, JavaType.elementClass?, Option.map_none]
  | object name => rw [elementClass?_object formed.1, JavaType.elementClass?, Option.map_some]
  | array element ih => rw [elementClass?_array, ih formed, JavaType.elementClass?]

/-- No array is spelled like a class. -/
theorem descriptor_array_ne (element : JavaType) (name : ClassName) :
    (JavaType.array element).descriptor ≠ name.descriptor := by
  intro same
  have letters := congrArg String.toList same
  rw [JavaType.toList_descriptor_array, ← JavaType.descriptor, JavaType.toList_descriptor_object]
    at letters
  cases letters

/-- The text of a descriptor and the type that it denotes have the same class behind them, which is
the whole text just if the type is a class. -/
theorem elementClass_agrees {text : String} {t : JavaType}
    (accepted : JavaType.ofDescriptor? text = some t) :
    elementClass? text = t.elementClass?.map ClassName.descriptor ∧
      (elementClass? text = some text ↔ ∃ name, t = .object name) := by
  obtain ⟨formed, rfl⟩ := JavaType.ofDescriptor?_eq_some_iff.mp accepted
  refine ⟨elementClass?_descriptor formed, ?_⟩
  rw [elementClass?_descriptor formed, Option.map_eq_some_iff]
  constructor
  · rintro ⟨name, bottom, spelled⟩
    cases t with
    | primitive p => cases bottom
    | object name => exact ⟨name, rfl⟩
    | array element => exact absurd spelled.symm (descriptor_array_ne element name)
  · rintro ⟨name, rfl⟩
    exact ⟨name, rfl, rfl⟩

theorem elementClass_agrees_nested :
    JavaType.ofDescriptor? "[[La/[b;" = some (.array (.array (.object ⟨"a/[b"⟩))) ∧
      elementClass? "[[La/[b;" = some "La/[b;" ∧ elementClass? "[[La/[b;" ≠ some "[[La/[b;" := by
  have accepted : JavaType.ofDescriptor? "[[La/[b;" = some (.array (.array (.object ⟨"a/[b"⟩))) := by
    decide
  obtain ⟨bottom, whole⟩ := elementClass_agrees accepted
  refine ⟨accepted, bottom, fun same => ?_⟩
  obtain ⟨name, object⟩ := whole.mp same
  cases object

end Descriptor

end DexAtlas
