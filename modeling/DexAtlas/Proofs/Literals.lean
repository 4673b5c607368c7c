import DexAtlas.Proofs.MemberNames
import DexAtlas.Proofs.Sweep

/-!
# String literals in listings

A listing shows a literal character by character, each as a word of its own: the character itself or
an escape. Only an escape begins with a backslash, and how long it is follows from its second
character, so the words can be told apart and the literal can be read back. A quote inside it stands
behind a backslash that begins an escape, unlike the quote that ends it. A line that loads a literal
has its first blank behind the name and its first comma behind the register, and so shows both of
them and the literal without ambiguity.
-/
namespace DexAtlas

namespace Text.Escape

/-! ### Words -/

/-- Two digits are enough for a control character. -/
theorem toList_zeroPad_hex {n : Nat} (small : n < 0x100) :
    (zeroPad 4 (hex n)).toList = ['0', '0', (n / 16).digitChar, (n % 16).digitChar] := by
  have padded : (zeroPad 4 (hex n)).toList =
      List.replicate (4 - (Nat.toDigits 16 n).length) '0' ++ Nat.toDigits 16 n := by
    simp [zeroPad, hex]
  rw [padded]
  rcases Nat.lt_or_ge n 16 with single | double
  · rw [Nat.toDigits_of_lt_base single, Nat.div_eq_of_lt single, Nat.mod_eq_of_lt single]
    rfl
  · rw [Nat.toDigits_of_base_le (by decide) double, Nat.toDigits_of_lt_base (by omega)]
    rfl

theorem toNat_lt_of_isControl {c : Char} (control : isControl c = true) : c.toNat < 0x100 := by
  simp only [isControl, decide_eq_true_eq] at control
  omega

/-- What a character may be written as. -/
inductive Word : Char → List Char → Prop
  | backslash : Word '\\' ['\\', '\\']
  | quote : Word '"' ['\\', '"']
  | newline : Word '\n' ['\\', 'n']
  | carriageReturn : Word '\r' ['\\', 'r']
  | tab : Word '\t' ['\\', 't']
  | code {c : Char} (control : isControl c = true) :
    Word c ['\\', 'u', '0', '0', (c.toNat / 16).digitChar, (c.toNat % 16).digitChar]
  | self {c : Char} (plain : isControl c = false) (noEscape : c ≠ '\\') (noQuote : c ≠ '"') :
    Word c [c]

theorem word_encodeChar (c : Char) : Word c (encodeChar c) := by
  unfold encodeChar
  split
  next is => exact is ▸ .backslash
  split
  next is => exact is ▸ .quote
  split
  next is => exact is ▸ .newline
  split
  next is => exact is ▸ .carriageReturn
  split
  next is => exact is ▸ .tab
  split
  next control =>
    rw [toList_zeroPad_hex (toNat_lt_of_isControl control)]
    exact .code control
  next noEscape noQuote _ _ _ plain => exact .self (by simpa using plain) noEscape noQuote

variable {c : Char} {word rest : List Char}

theorem toList_encode (text : String) : (encode text).toList = text.toList.flatMap encodeChar := by
  rw [encode, String.toList_ofList]

/-! ### Characters that are shown -/

/-- Neither below U+0020 nor from U+007F to U+009F. -/
def Visible (c : Char) : Prop :=
  0x20 ≤ c.toNat ∧ ¬(0x7F ≤ c.toNat ∧ c.toNat ≤ 0x9F)

instance (c : Char) : Decidable (Visible c) :=
  inferInstanceAs (Decidable (_ ∧ _))

theorem visible_digitChar {d : Nat} (small : d < 16) : Visible d.digitChar := by
  decide +revert

theorem Word.visible (is : Word c word) : ∀ d ∈ word, Visible d := by
  cases is with
  | code control =>
    have small := toNat_lt_of_isControl control
    have high := visible_digitChar (d := c.toNat / 16) (by omega)
    have low := visible_digitChar (d := c.toNat % 16) (by omega)
    simp only [List.forall_mem_cons]
    exact ⟨by decide, by decide, by decide, by decide, high, low, by simp⟩
  | self plain =>
    have shown : Visible c := by
      simp only [isControl, decide_eq_false_iff_not] at plain
      unfold Visible
      omega
    simpa using shown
  | _ =>
    simp only [List.forall_mem_cons]
    exact ⟨by decide, by decide, by simp⟩

/-! ### Reading back -/

theorem digit?_digitChar {d : Nat} (small : d < 16) : digit? d.digitChar = some d := by
  decide +revert

/-- A word is read as its character, whatever follows it. -/
theorem Word.read_back (is : Word c word) (rest : List Char) :
    decode (word ++ rest) = (decode rest).map (c :: ·) := by
  cases is with
  | code control =>
    have small := toNat_lt_of_isControl control
    have zero : digit? '0' = some 0 := rfl
    have high := digit?_digitChar (d := c.toNat / 16) (by omega)
    have low := digit?_digitChar (d := c.toNat % 16) (by omega)
    have value : 0 * 0x1000 + 0 * 0x100 + c.toNat / 16 * 0x10 + c.toNat % 16 = c.toNat := by
      omega
    simp only [List.cons_append, List.nil_append, decode, zero, high, low, value, Char.ofNat_toNat]
  | self plain noEscape =>
    -- without a backslash none of the escapes can be meant
    simp [decode, noEscape]
  | _ => rfl

theorem decode_encode (text : String) : decode (encode text).toList = some text.toList := by
  rw [toList_encode]
  induction text.toList with
  | nil => rfl
  | cons c rest ih =>
    rw [List.flatMap_cons, (word_encodeChar c).read_back, ih, Option.map_some]

theorem encode_inj {text other : String} (same : encode text = encode other) : text = other := by
  have read := decode_encode text
  rw [same, decode_encode] at read
  exact String.toList_inj.mp (Option.some.inj read.symm)

/-- A text that looks like an escape is not written like what the escape stands for. -/
example : encode "\n" = "\\n" ∧ encode "\\n" = "\\\\n" := by decide

/-! ### Quotes -/

/-- Whether the character at a place begins an escape: it is a backslash, and no escape that begins
right before it takes it for its own second half. -/
def opens (text : List Char) : Nat → Bool
  | 0 => text[0]? == some '\\'
  | i + 1 => text[i + 1]? == some '\\' && !opens text i

/-- Each quote in the text is the second half of an escape, and no escape is left unfinished. -/
structure Sealed (text : List Char) : Prop where
  quotes : ∀ i, text[i]? = some '"' → ∃ j, i = j + 1 ∧ opens text j = true
  ended : ∀ i, i + 1 = text.length → opens text i = false

theorem opens_append_left {i : Nat} (inside : i < word.length) :
    opens (word ++ rest) i = opens word i := by
  induction i with
  | zero => rw [opens, opens, List.getElem?_append_left inside]
  | succ i ih => rw [opens, opens, List.getElem?_append_left inside, ih (by omega)]

/-- Behind a finished text the count begins anew. -/
theorem opens_append_right (ended : ∀ i, i + 1 = word.length → opens word i = false) (i : Nat) :
    opens (word ++ rest) (word.length + i) = opens rest i := by
  induction i with
  | zero =>
    cases size : word.length with
    | zero =>
      obtain rfl := List.length_eq_zero_iff.mp size
      rfl
    | succ last =>
      -- the character before is the last one of the finished text, which begins no escape
      have before : opens (word ++ rest) last = false := by
        rw [opens_append_left (by omega), ended last size.symm]
      rw [Nat.add_zero, opens, opens, before, ← size, List.getElem?_append_right (Nat.le_refl _),
        Nat.sub_self, Bool.not_false, Bool.and_true]
  | succ i ih =>
    rw [← Nat.add_assoc, opens, opens, ih, List.getElem?_append_right (by omega)]
    congr 3
    omega

theorem Sealed.append (front : Sealed word) (back : Sealed rest) : Sealed (word ++ rest) := by
  constructor
  · intro i quote
    -- a quote at the very start of the second text is ruled out by that text itself
    rcases Nat.lt_or_ge i word.length with inside | behind
    · rw [List.getElem?_append_left inside] at quote
      obtain ⟨j, rfl, begun⟩ := front.quotes i quote
      exact ⟨j, rfl, by rw [opens_append_left (by omega), begun]⟩
    · rw [List.getElem?_append_right behind] at quote
      obtain ⟨j, place, begun⟩ := back.quotes _ quote
      exact ⟨word.length + j, by omega, by rw [opens_append_right front.ended, begun]⟩
  · intro i last
    rw [List.length_append] at last
    rcases Nat.lt_or_ge i word.length with inside | behind
    · rw [opens_append_left inside]
      exact front.ended i (by omega)
    · obtain ⟨j, rfl⟩ := Nat.exists_eq_add_of_le behind
      rw [opens_append_right front.ended]
      exact back.ended j (by omega)

theorem sealed_of_noQuote (noQuote : '"' ∉ word) (ended : opens word (word.length - 1) = false) :
    Sealed word := by
  constructor
  · intro i quote
    exact absurd (List.mem_of_getElem? quote) noQuote
  · intro i last
    rw [← ended]
    congr 1
    omega

theorem opens_of_ne {text : List Char} {i : Nat} (other : text[i]? ≠ some '\\') :
    opens text i = false := by
  cases i <;> simp [opens, other]

theorem Word.sealed (is : Word c word) : Sealed word := by
  cases is with
  | quote =>
    constructor
    · intro i quote
      rcases i with _ | _ | i
      · cases quote
      · exact ⟨0, rfl, rfl⟩
      · cases quote
    · intro i last
      obtain rfl : i = 1 := by simpa using last
      rfl
  | code => exact sealed_of_noQuote (by simp) (opens_of_ne (by simp))
  | self plain noEscape noQuote =>
    refine sealed_of_noQuote ?_ (opens_of_ne ?_)
    · simpa using noQuote.symm
    · simpa using noEscape
  | _ => exact sealed_of_noQuote (by decide) rfl

theorem sealed_encode (text : String) : Sealed (encode text).toList := by
  rw [toList_encode]
  induction text.toList with
  | nil => exact ⟨by simp, by simp⟩
  | cons c rest ih =>
    rw [List.flatMap_cons]
    exact (word_encodeChar c).sealed.append ih

end Text.Escape

namespace Instruction

open Text.Escape (Visible encode opens)

/-! ### Instructions that load a literal -/

/-- The instruction puts a literal into a register. -/
structure LoadsString (insn : Instruction) (register : Nat) (literal : String) : Prop where
  mnemonic : insn.name = "const-string" ∨ insn.name = "const-string/jumbo"
  fixed : insn.payload = none
  operands : ∃ index, insn.operands = [.register register, .reference (.string index literal)]

variable {a b insn : Instruction} {r r' : Nat} {s s' : String}

theorem LoadsString.toList_text (loads : LoadsString insn r s) :
    insn.text.toList = insn.name.toList ++ ' ' :: ('v' :: Nat.toDigits 10 r ++
      ',' :: (' ' :: '"' :: ((encode s).toList ++ ['"']))) := by
  obtain ⟨-, fixed, index, operands⟩ := loads
  have register : (Operand.register r).text = "v" ++ r.repr := rfl
  have literal : (Operand.reference (.string index s)).text = "\"" ++ encode s ++ "\"" := rfl
  simp [text, fixed, operands, register, literal]

theorem LoadsString.no_blank (loads : LoadsString insn r s) : ' ' ∉ insn.name.toList := by
  rcases loads.mnemonic with name | name <;>
  · rw [name]
    decide

theorem comma_not_mem_register (r : Nat) : ',' ∉ 'v' :: Nat.toDigits 10 r := by
  intro comma
  rcases List.mem_cons.mp comma with letter | digit
  · cases letter
  · have isDigit := Nat.isDigit_of_mem_toDigits (by decide) (by decide) digit
    cases isDigit

/-- A line shows what is loaded and where to. -/
theorem LoadsString.text_eq_iff (first : LoadsString a r s) (second : LoadsString b r' s') :
    a.text = b.text ↔ a.name = b.name ∧ r = r' ∧ s = s' := by
  rw [← String.toList_inj, first.toList_text, second.toList_text]
  constructor
  · intro same
    -- the name ends at the first blank, and the register at the first comma
    obtain ⟨names, operands⟩ := append_cons_inj_first first.no_blank second.no_blank same
    obtain ⟨registers, literals⟩ :=
      append_cons_inj_first (comma_not_mem_register r) (comma_not_mem_register r') operands
    have numbers := congrArg (Nat.ofDigitChars 10 · 0) (List.cons.inj registers).2
    rw [Nat.ofDigitChars_ten_toDigits, Nat.ofDigitChars_ten_toDigits] at numbers
    have texts : (encode s).toList = (encode s').toList := by simpa using literals
    exact ⟨String.toList_inj.mp names, numbers,
      Text.Escape.encode_inj (String.toList_inj.mp texts)⟩
  · rintro ⟨name, rfl, rfl⟩
    rw [name]

/-! ### Decoded loads -/

/-- The rows that load a literal have one index, into the strings. -/
theorem string_rows : ∀ row ∈ InstructionSet.all,
    row.name = "const-string" ∨ row.name = "const-string/jumbo" →
      (row.format = .f21c ∨ row.format = .f31c) ∧ row.reference = some .string := by
  decide +kernel

theorem operandsOf_indexed {resolve : Resolver} {opcode : Opcode} {units : List UInt16}
    {operands : List Operand} (format : opcode.format = .f21c ∨ opcode.format = .f31c)
    (read : operandsOf resolve opcode units = .ok operands) :
    ∃ register index operand, operands = [.register register, operand] ∧
      resolveIndex resolve opcode.reference index = .ok operand := by
  obtain ⟨name, layout, reference, reference2, effects, spans⟩ := opcode
  -- the two formats differ in how many units the index takes
  rcases format with short | long
  · obtain rfl : layout = .f21c := short
    rcases units with _ | ⟨u, _ | ⟨v, rest⟩⟩
    case cons.cons =>
      obtain ⟨operand, resolved, built⟩ := except_bind_ok read
      cases built
      exact ⟨_, _, operand, rfl, resolved⟩
    all_goals cases read
  · obtain rfl : layout = .f31c := long
    rcases units with _ | ⟨u, _ | ⟨v, _ | ⟨w, rest⟩⟩⟩
    case cons.cons.cons =>
      obtain ⟨operand, resolved, built⟩ := except_bind_ok read
      cases built
      exact ⟨_, _, operand, rfl, resolved⟩
    all_goals cases read

theorem resolve_string {pools : Pools} {index : Nat} {operand : Operand}
    (resolved : resolveIndex pools.resolve (some .string) index = .ok operand) :
    ∃ literal, operand = .reference (.string index literal) := by
  obtain ⟨kind, reference, isString, answer, rfl⟩ := resolveIndex_ok resolved
  cases isString
  cases entry : pools.string? index with
  | none => simp [Pools.resolve, Pools.resolve.found, entry] at answer
  | some literal =>
    refine ⟨literal, ?_⟩
    simp only [Pools.resolve, Pools.resolve.found, entry, Except.ok.injEq] at answer
    rw [answer]

theorem decodeAt_loadsString {version pc width : Nat} {pools : Pools} {first : UInt16}
    {rest : List UInt16} (decoded : decodeAt version pools.resolve pc first rest = .ok (insn, width))
    (mnemonic : insn.name = "const-string" ∨ insn.name = "const-string/jumbo") :
    ∃ register literal, insn.LoadsString register literal := by
  obtain ⟨opcode, row, decoded⟩ := except_bind_ok decoded
  obtain ⟨⟨operands, payload, width⟩, body, built⟩ := except_bind_ok decoded
  cases built
  obtain ⟨format, kind⟩ := string_rows opcode (opcodeAt_mem row) mnemonic
  obtain ⟨width, fixed⟩ : ∃ width, opcode.format.width? = some width := by
    rcases format with short | long
    · exact ⟨2, by rw [short]; rfl⟩
    · exact ⟨3, by rw [long]; rfl⟩
  rw [bodyAt_fixed fixed] at body
  obtain ⟨-, -, body⟩ := except_bind_ok body
  split at body
  next read =>
    cases body
    obtain ⟨register, index, operand, rfl, resolved⟩ := operandsOf_indexed format read
    rw [kind] at resolved
    obtain ⟨literal, rfl⟩ := resolve_string resolved
    exact ⟨register, literal, mnemonic, rfl, index, rfl⟩
  next => cases body

/-- String literals are shown without ambiguity. What is written holds only visible characters, and
its quotes are the second halves of escapes; it can be read back, so no two texts are written alike.
Two lines that load a literal are equal just if the name, the register and the literal are, and
every decoded instruction of such a name loads a literal. -/
theorem literals_unambiguous :
    (∀ text, (∀ c ∈ (encode text).toList, Visible c) ∧
      (∀ i, (encode text).toList[i]? = some '"' →
        ∃ j, i = j + 1 ∧ opens (encode text).toList j = true) ∧
      Text.Escape.decode (encode text).toList = some text.toList) ∧
    (∀ text other, encode text = encode other → text = other) ∧
    (∀ a b r r' s s', LoadsString a r s → LoadsString b r' s' →
      (a.text = b.text ↔ a.name = b.name ∧ r = r' ∧ s = s')) ∧
    (∀ (version : Nat) (pools : Pools) (code : List UInt16) (insns : Array Instruction),
      decode version pools.resolve code = .ok insns →
      ∀ insn ∈ insns, insn.name = "const-string" ∨ insn.name = "const-string/jumbo" →
        ∃ register literal, insn.LoadsString register literal) := by
  refine ⟨fun text => ⟨?_, ?_, ?_⟩, ?_, ?_, ?_⟩
  · intro c member
    rw [Text.Escape.toList_encode, List.mem_flatMap] at member
    obtain ⟨d, -, within⟩ := member
    exact (Text.Escape.word_encodeChar d).visible c within
  · exact (Text.Escape.sealed_encode text).quotes
  · exact Text.Escape.decode_encode text
  · intro text other
    exact Text.Escape.encode_inj
  · intro a b r r' s s'
    exact LoadsString.text_eq_iff
  · intro version pools code insns decoded insn member
    exact (decode_ok decoded).1.each decodeAt_loadsString insn (Array.mem_toList_iff.mpr member)

end Instruction

end DexAtlas
