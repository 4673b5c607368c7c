import DexAtlas.Proofs.StringItems

/-!
# The two routes of reading text

A text is read strictly where that succeeds and leniently where it does not, so it matters whether
the two agree. Strict reading without four-byte forms accepts nothing but the spelling of its text
in the modified form, and this is read leniently as the same text with as many units. Lenient
reading has no four-byte forms, though, while plain UTF-8 has. So the routes agree on a text exactly
if no byte of it begins such a form, and a four-byte form is accepted only as long as everything
around it is plain.
-/
namespace DexAtlas.Text

/-! ### Units between others -/

namespace Utf16

theorem encodeChar_ofNat {n : Nat} (single : n < 0xD800 ∨ 0xE000 ≤ n) (small : n < 0x10000) :
    encodeChar (Char.ofNat n) = [UInt16.ofNat n] := by
  have valid : n.isValidChar := by
    rw [Nat.isValidChar]
    omega
  rw [encodeChar, toNat_ofNat valid, if_pos small]

theorem encodeChar_pair {high low : Nat} (first : 0xD800 ≤ high ∧ high < 0xDC00)
    (second : 0xDC00 ≤ low ∧ low < 0xE000) :
    encodeChar (pair (UInt16.ofNat high) (UInt16.ofNat low)) =
      [UInt16.ofNat high, UInt16.ofNat low] := by
  have valid : (0x10000 + (high - 0xD800) * 0x400 + (low - 0xDC00)).isValidChar := by
    rw [Nat.isValidChar]
    omega
  -- what is above the single units has the ten bits of each half side by side
  have upper : 0xD800 + (0x10000 + (high - 0xD800) * 0x400 + (low - 0xDC00) - 0x10000) / 0x400 =
      high := by
    omega
  have lower : 0xDC00 + (0x10000 + (high - 0xD800) * 0x400 + (low - 0xDC00) - 0x10000) % 0x400 =
      low := by
    omega
  rw [encodeChar, pair, toNat_unit (by omega), toNat_unit (by omega), toNat_ofNat valid,
    if_neg (by omega)]
  dsimp only
  rw [upper, lower]

/-- Units are shown side by side, as long as no pair arises where they meet. -/
theorem Shows.append {first second : List UInt16} {text others : List Char}
    (shown : Shows first text) (behind : Shows second others)
    (apart : ∀ next, second.head? = some next → isLow next = false) :
    Shows (first ++ second) (text ++ others) := by
  induction shown with
  | nil => exact behind
  | char plain _ ih => exact .char plain ih
  | pair high low _ ih => exact .pair high low ih
  | @loneHigh high rest text isHigh alone _ ih =>
    refine .loneHigh isHigh (fun next found => ?_) ih
    -- the unit behind a lone half is its own neighbour or the first one of the others
    cases rest with
    | nil => exact apart next found
    | cons unit rest => exact alone next found
  | loneLow low _ ih => exact .loneLow low ih

theorem head_encode {text : List Char} (nonempty : text ≠ []) (rest : List UInt16) :
    ∃ unit, (encode text ++ rest).head? = some unit ∧ isLow unit = false := by
  obtain ⟨c, text, rfl⟩ := List.exists_cons_of_ne_nil nonempty
  have valid : c.toNat < 0xD800 ∨ (0xDFFF < c.toNat ∧ c.toNat < 0x110000) := c.valid
  rw [encode_cons, List.append_assoc, encodeChar]
  split
  next small =>
    refine ⟨_, rfl, ?_⟩
    rw [← Bool.not_eq_true, isLow_iff, toNat_unit small]
    omega
  next large =>
    refine ⟨_, rfl, ?_⟩
    rw [← Bool.not_eq_true, isLow_iff, toNat_unit (by omega)]
    omega

/-- A text keeps its meaning between any units, since it neither begins with a low surrogate nor
ends in a high one. -/
theorem decode_between {text : List Char} (nonempty : text ≠ []) (before after : List UInt16) :
    decode (before ++ (encode text ++ after)) = decode before ++ (text ++ decode after) := by
  have inner := Shows.encode_append text (shows_decode after)
  refine (Shows.eq_decode ((shows_decode before).append inner fun next found => ?_)).symm
  obtain ⟨unit, first, other⟩ := head_encode nonempty after
  rw [first] at found
  rwa [← Option.some.inj found]

end Utf16

namespace Mutf8

/-! ### The spelling of a text -/

/-- A text in the modified form. -/
def spelling (text : List Char) : List UInt8 := encode (Utf16.encode text)

section Forms

variable {a b c d : UInt8} {n : Nat} {chunk : List UInt8}

theorem Spells.small (spells : Spells n chunk) : n < 0x10000 := by
  cases spells <;> omega

/-- A number is spelled in one way only. -/
theorem Spells.eq_encodeUnit (spells : Spells n chunk) : chunk = encodeUnit (UInt16.ofNat n) := by
  have same {byte : UInt8} {m : Nat} (value : byte.toNat = m) : byte = UInt8.ofNat m := by
    rw [← value, UInt8.ofNat_toNat]
  rw [encodeUnit, Utf16.toNat_unit spells.small]
  cases spells with
  | one positive small first => rw [if_pos ⟨by omega, small⟩, same first]
  | two large small first second =>
    rw [if_neg (by omega), if_pos small, same first, same second]
  | three large small first second third =>
    rw [if_neg (by omega), if_neg (by omega), same first, same second, same third]

theorem Spells.spelling_cons (spells : Spells n chunk) (single : n < 0xD800 ∨ 0xE000 ≤ n)
    (text : List Char) : spelling (Char.ofNat n :: text) = chunk ++ spelling text := by
  rw [spelling, Utf16.encode_cons, Utf16.encodeChar_ofNat single spells.small,
    List.singleton_append, encode_cons, ← spells.eq_encodeUnit, ← spelling]

theorem spelling_pair {high low : Nat} {first second : List UInt8} (spellsHigh : Spells high first)
    (spellsLow : Spells low second) (isHigh : 0xD800 ≤ high ∧ high < 0xDC00)
    (isLow : 0xDC00 ≤ low ∧ low < 0xE000) (text : List Char) :
    spelling (Utf16.pair (UInt16.ofNat high) (UInt16.ofNat low) :: text) =
      first ++ (second ++ spelling text) := by
  rw [spelling, Utf16.encode_cons, Utf16.encodeChar_pair isHigh isLow, List.cons_append,
    List.singleton_append, encode_cons, encode_cons, ← spellsHigh.eq_encodeUnit,
    ← spellsLow.eq_encodeUnit, ← spelling]

/-! ### Accepted forms -/

theorem spells_ascii (positive : 0 < a.toNat) (small : a.toNat < 0x80) : Spells a.toNat [a] :=
  .one positive small rfl

theorem spells_isPair (pair : isPair a b = true) :
    Spells (twoByte a b) [a, b] ∧ twoByte a b < 0xD800 := by
  rw [isPair_iff] at pair
  have value : twoByte a b = (a.toNat - 0xC0) * 0x40 + (b.toNat - 0x80) := by
    rw [twoByte]
    omega
  exact ⟨.two (by omega) (by omega) (by omega) (by omega), by omega⟩

/-- The value of three bytes, whichever form they are in. -/
theorem threeByte_value (lead : 0xE0 ≤ a.toNat ∧ a.toNat ≤ 0xEF)
    (middle : 0x80 ≤ b.toNat ∧ b.toNat ≤ 0xBF) (last : 0x80 ≤ c.toNat ∧ c.toNat ≤ 0xBF) :
    threeByte a b c =
      (a.toNat - 0xE0) * 0x1000 + (b.toNat - 0x80) * 0x40 + (c.toNat - 0x80) := by
  rw [threeByte]
  omega

theorem spells_threeByte (lead : 0xE0 ≤ a.toNat ∧ a.toNat ≤ 0xEF)
    (middle : 0x80 ≤ b.toNat ∧ b.toNat ≤ 0xBF) (last : 0x80 ≤ c.toNat ∧ c.toNat ≤ 0xBF)
    (shortest : a.toNat = 0xE0 → 0xA0 ≤ b.toNat) : Spells (threeByte a b c) [a, b, c] := by
  have value := threeByte_value lead middle last
  exact .three (by omega) (by omega) (by omega) (by omega) (by omega)

theorem spells_isTriple (triple : isTriple a b c = true) :
    Spells (threeByte a b c) [a, b, c] ∧
      (threeByte a b c < 0xD800 ∨ 0xE000 ≤ threeByte a b c) := by
  rw [isTriple_iff] at triple
  have value := @threeByte_value a b c (by omega) (by omega) (by omega)
  exact ⟨spells_threeByte (by omega) (by omega) (by omega) (by omega), by omega⟩

/-- The second byte of a surrogate tells which half of a pair it is. -/
theorem spells_surrogate {least most : Nat}
    (form : (within 0xED 0xED a && within least most b && isTail c) = true) (low : 0xA0 ≤ least)
    (high : most ≤ 0xBF) :
    Spells (threeByte a b c) [a, b, c] ∧ 0xD000 + (least - 0x80) * 0x40 ≤ threeByte a b c ∧
      threeByte a b c < 0xD000 + (most + 1 - 0x80) * 0x40 := by
  simp only [Bool.and_eq_true, within_iff, isTail_iff] at form
  have value := @threeByte_value a b c (by omega) (by omega) (by omega)
  exact ⟨spells_threeByte (by omega) (by omega) (by omega) (by omega), by omega, by omega⟩

theorem le_of_isQuad (quad : isQuad a b c d = true) : 0xF0 ≤ a.toNat := by
  simp only [isQuad, Bool.and_eq_true, Bool.or_eq_true, within_iff] at quad
  omega

end Forms

/-! ### What strict reading accepts -/

/-- No byte begins a four-byte form. -/
def NoQuads (bytes : List UInt8) : Prop := ∀ byte ∈ bytes, byte.toNat < 0xF0

instance (bytes : List UInt8) : Decidable (NoQuads bytes) :=
  inferInstanceAs (Decidable (∀ byte ∈ bytes, byte.toNat < 0xF0))

variable {bytes : List UInt8} {text : List Char}

/-- Plain text without zeros and four-byte forms is spelled alike in the modified form. -/
theorem eq_spelling_of_plain (read : plain bytes = some text)
    (bounds : ∀ byte ∈ bytes, byte ≠ 0 ∧ byte.toNat < 0xF0) : bytes = spelling text := by
  fun_induction plain bytes generalizing text with
  | case1 =>
    cases read
    rfl
  | case2 a rest ascii ih =>
    obtain ⟨others, inner, rfl⟩ := Option.map_eq_some_iff.mp read
    obtain ⟨⟨nonzero, -⟩, boundsRest⟩ := List.forall_mem_cons.mp bounds
    have positive : 0 < a.toNat :=
      Nat.pos_of_ne_zero fun zero => nonzero (UInt8.toNat_inj.mp zero)
    rw [(spells_ascii positive ascii).spelling_cons (by omega), ← ih inner boundsRest]
    rfl
  | case4 a _ b rest pair ih =>
    obtain ⟨others, inner, rfl⟩ := Option.map_eq_some_iff.mp read
    obtain ⟨spells, single⟩ := spells_isPair pair
    rw [spells.spelling_cons (.inl single),
      ← ih inner fun byte member => bounds byte (by simp [member])]
    rfl
  | case6 a _ b _ c rest triple ih =>
    obtain ⟨others, inner, rfl⟩ := Option.map_eq_some_iff.mp read
    obtain ⟨spells, single⟩ := spells_isTriple triple
    rw [spells.spelling_cons single, ← ih inner fun byte member => bounds byte (by simp [member])]
    rfl
  | case8 a _ b _ c _ d rest quad ih =>
    -- its first byte is out of bounds
    have low := (bounds a (by simp)).2
    have high := le_of_isQuad quad
    omega
  | case3 | case5 | case7 | case9 => cases read

/-- Text with its surrogates in pairs is read from its spelling only. -/
theorem eq_spelling_of_paired (read : paired bytes = some text) : bytes = spelling text := by
  fun_induction paired bytes generalizing text with
  | case1 =>
    cases read
    rfl
  | case2 a rest ascii ih =>
    obtain ⟨others, inner, rfl⟩ := Option.map_eq_some_iff.mp read
    rw [within_iff] at ascii
    rw [(spells_ascii (by omega) (by omega)).spelling_cons (by omega), ← ih inner]
    rfl
  | case4 a _ b rest zero ih =>
    obtain ⟨others, inner, rfl⟩ := Option.map_eq_some_iff.mp read
    simp only [Bool.and_eq_true, within_iff] at zero
    -- the one number that is spelled in more bytes than it needs
    have spells : Spells 0 [a, b] := .two (.inl rfl) (by omega) (by omega) (by omega)
    rw [spells.spelling_cons (by omega), ← ih inner]
    rfl
  | case5 a _ b rest _ pair ih =>
    obtain ⟨others, inner, rfl⟩ := Option.map_eq_some_iff.mp read
    obtain ⟨spells, single⟩ := spells_isPair pair
    rw [spells.spelling_cons (.inl single), ← ih inner]
    rfl
  | case7 a _ b _ _ c rest triple ih =>
    obtain ⟨others, inner, rfl⟩ := Option.map_eq_some_iff.mp read
    obtain ⟨spells, single⟩ := spells_isTriple triple
    rw [spells.spelling_cons single, ← ih inner]
    rfl
  | case8 a _ b _ _ c _ first d e f rest second =>
    rename_i ih
    obtain ⟨others, inner, rfl⟩ := Option.map_eq_some_iff.mp read
    obtain ⟨spellsHigh, isHigh⟩ := spells_surrogate first (by decide) (by decide)
    obtain ⟨spellsLow, isLow⟩ := spells_surrogate second (by decide) (by decide)
    rw [spelling_pair spellsHigh spellsLow isHigh isLow, ← ih inner]
    rfl
  | case3 | case6 | case9 | case10 | case11 => cases read

theorem eq_spelling_of_strict (read : strict bytes = some text)
    (nonzero : ∀ byte ∈ bytes, byte ≠ 0) (noQuads : NoQuads bytes) : bytes = spelling text := by
  rw [strict] at read
  cases plainly : plain bytes with
  | some found =>
    rw [plainly] at read
    cases read
    exact eq_spelling_of_plain plainly fun byte member => ⟨nonzero byte member, noQuads byte member⟩
  | none =>
    rw [plainly] at read
    exact eq_spelling_of_paired read

/-! ### What lenient reading accepts -/

theorem lenient_spelling (text : List Char) :
    lenient (spelling text) = some ⟨text, Utf16.length text⟩ := by
  rw [lenient, spelling, units_encode, Option.map_some, Utf16.decode_encode, Utf16.length_encode]

theorem bounds_of_units {list : List UInt16} (read : units bytes = some list) :
    ∀ byte ∈ bytes, 0 < byte.toNat ∧ byte.toNat < 0xF0 := by
  fun_induction units bytes generalizing list with
  | case1 => simp
  | case2 a rest ascii ih =>
    obtain ⟨others, inner, rfl⟩ := Option.map_eq_some_iff.mp read
    rw [within_iff] at ascii
    exact List.forall_mem_cons.mpr ⟨by omega, ih inner⟩
  | case4 a _ b rest form ih =>
    obtain ⟨others, inner, rfl⟩ := Option.map_eq_some_iff.mp read
    simp only [Bool.and_eq_true, within_iff, isTail_iff] at form
    exact List.forall_mem_cons.mpr ⟨by omega, List.forall_mem_cons.mpr ⟨by omega, ih inner⟩⟩
  | case6 a _ b _ c rest form ih =>
    obtain ⟨others, inner, rfl⟩ := Option.map_eq_some_iff.mp read
    simp only [Bool.and_eq_true, within_iff, isTail_iff] at form
    exact List.forall_mem_cons.mpr ⟨by omega, List.forall_mem_cons.mpr ⟨by omega,
      List.forall_mem_cons.mpr ⟨by omega, ih inner⟩⟩⟩
  | case3 | case5 | case7 => cases read

/-- Lenient reading refuses zeros and all bytes that begin a four-byte form. -/
theorem bytes_of_units {list : List UInt16} (read : units bytes = some list) :
    (∀ byte ∈ bytes, byte ≠ 0) ∧ NoQuads bytes := by
  have bounds := bounds_of_units read
  refine ⟨?_, fun byte member => (bounds byte member).2⟩
  rintro _ member rfl
  cases (bounds 0 member).1

theorem units_append {first : List UInt8} {list : List UInt16} (read : units first = some list)
    (rest : List UInt8) : units (first ++ rest) = (units rest).map (list ++ ·) := by
  fun_induction units first generalizing list with
  | case1 =>
    cases read
    simp
  | case2 a others ascii ih =>
    obtain ⟨inner, found, rfl⟩ := Option.map_eq_some_iff.mp read
    rw [List.cons_append, units.eq_def]
    dsimp only
    rw [if_pos ascii, ih found, Option.map_map]
    rfl
  | case4 a other b others form ih =>
    obtain ⟨inner, found, rfl⟩ := Option.map_eq_some_iff.mp read
    rw [List.cons_append, List.cons_append, units.eq_def]
    dsimp only
    rw [if_neg other, if_pos form, ih found, Option.map_map]
    rfl
  | case6 a other b shorter c others form ih =>
    obtain ⟨inner, found, rfl⟩ := Option.map_eq_some_iff.mp read
    rw [List.cons_append, List.cons_append, List.cons_append, units.eq_def]
    dsimp only
    rw [if_neg other, if_neg shorter, if_pos form, ih found, Option.map_map]
    rfl
  | case3 | case5 | case7 => cases read

theorem lenient_eq_some {decoded : Decoded} (read : lenient bytes = some decoded) :
    ∃ list, units bytes = some list ∧ decoded = ⟨Utf16.decode list, list.length⟩ := by
  obtain ⟨list, spelled, rfl⟩ := Option.map_eq_some_iff.mp read
  exact ⟨list, spelled, rfl⟩

theorem lenient_eq_none (quads : ¬ NoQuads bytes) : lenient bytes = none := by
  cases read : lenient bytes with
  | none => rfl
  | some decoded =>
    obtain ⟨list, spelled, -⟩ := lenient_eq_some read
    exact absurd (bytes_of_units spelled).2 quads

/-! ### The routes compared -/

theorem decode_of_strict (read : strict bytes = some text) :
    decode bytes = some ⟨text, Utf16.length text⟩ := by
  rw [decode, read]

/-- Without four-byte forms it makes no difference which route is taken. -/
theorem decode_eq_lenient (nonzero : ∀ byte ∈ bytes, byte ≠ 0) (noQuads : NoQuads bytes) :
    decode bytes = lenient bytes := by
  cases read : strict bytes with
  | none => rw [decode, read]
  | some text =>
    have spelled := eq_spelling_of_strict read nonzero noQuads
    rw [decode_of_strict read, spelled, lenient_spelling]

/-- A four-byte form is accepted in plain text only. -/
theorem decode_of_quads (quads : ¬ NoQuads bytes) :
    decode bytes = (plain bytes).map fun text => ⟨text, Utf16.length text⟩ := by
  have refused := lenient_eq_none quads
  cases plainly : plain bytes with
  | some text => exact decode_of_strict (by rw [strict, plainly]; rfl)
  | none =>
    cases inPairs : paired bytes with
    | none => rw [decode, strict, plainly, inPairs]; exact refused
    | some text =>
      -- what is read in pairs would have been read leniently as well
      rw [eq_spelling_of_paired inPairs, lenient_spelling] at refused
      cases refused

/-- Bytes that the strict route reads mean the same between any others. -/
theorem decode_between (read : strict bytes = some text) (nonempty : text ≠ [])
    (nonzero : ∀ byte ∈ bytes, byte ≠ 0) (noQuads : NoQuads bytes) {before after : List UInt8}
    {first last : Decoded} (readBefore : lenient before = some first)
    (readAfter : lenient after = some last) :
    decode (before ++ (bytes ++ after)) =
      some ⟨first.text ++ (text ++ last.text),
        first.units + (Utf16.length text + last.units)⟩ := by
  obtain ⟨unitsBefore, spelledBefore, rfl⟩ := lenient_eq_some readBefore
  obtain ⟨unitsAfter, spelledAfter, rfl⟩ := lenient_eq_some readAfter
  have spelled : units bytes = some (Utf16.encode text) := by
    rw [eq_spelling_of_strict read nonzero noQuads, spelling, units_encode]
  have whole : units (before ++ (bytes ++ after)) =
      some (unitsBefore ++ (Utf16.encode text ++ unitsAfter)) := by
    rw [units_append spelledBefore, units_append spelled, spelledAfter]
    rfl
  obtain ⟨allNonzero, allLow⟩ := bytes_of_units whole
  rw [decode_eq_lenient allNonzero allLow, lenient, whole, Option.map_some,
    Utf16.decode_between nonempty, List.length_append, List.length_append, Utf16.length_encode]

/-- The routes agree on bytes that the strict one accepts exactly if there is no four-byte form
among them. Then the bytes are also read as the same text between any others, whether these let the
strict route through or not. With a four-byte form the lenient route refuses, and the bytes are
accepted only where all bytes around them are plain as well. -/
theorem routes_agree_iff_noQuads (bytes : List UInt8) (nonzero : ∀ byte ∈ bytes, byte ≠ 0)
    (text : List Char) (read : strict bytes = some text) :
    (lenient bytes = some ⟨text, Utf16.length text⟩ ↔ NoQuads bytes) ∧
      (lenient bytes = none ↔ ¬ NoQuads bytes) ∧
      (NoQuads bytes → bytes ≠ [] → ∀ before after first last, lenient before = some first →
        lenient after = some last →
          decode (before ++ (bytes ++ after)) =
            some ⟨first.text ++ (text ++ last.text),
              first.units + (Utf16.length text + last.units)⟩) ∧
      (¬ NoQuads bytes → ∀ before after,
        decode (before ++ (bytes ++ after)) =
          (plain (before ++ (bytes ++ after))).map fun whole => ⟨whole, Utf16.length whole⟩) := by
  have agrees (noQuads : NoQuads bytes) : lenient bytes = some ⟨text, Utf16.length text⟩ := by
    rw [← decode_eq_lenient nonzero noQuads, decode_of_strict read]
  refine ⟨⟨fun accepted => ?_, agrees⟩, ⟨fun refused noQuads => ?_, lenient_eq_none⟩, ?_, ?_⟩
  · obtain ⟨list, spelled, -⟩ := lenient_eq_some accepted
    exact (bytes_of_units spelled).2
  · cases refused.symm.trans (agrees noQuads)
  · intro noQuads nonempty before after first last readBefore readAfter
    refine decode_between read ?_ nonzero noQuads readBefore readAfter
    -- only no bytes spell no text
    rintro rfl
    exact nonempty (eq_spelling_of_strict read nonzero noQuads)
  · intro quads before after
    refine decode_of_quads fun noQuads => quads fun byte member => noQuads byte ?_
    simp [member]

/-- A letter, a zero and a character beyond the single units, all in the modified form. -/
def strictSample : List UInt8 := [0x61, 0xC0, 0x80, 0xED, 0xA0, 0xBD, 0xED, 0xB8, 0x80]

/-- The halves of a pair on either side do not find each other. -/
theorem routes_agree_iff_noQuads_sample :
    (∀ byte ∈ strictSample, byte ≠ 0) ∧
      strict strictSample = some ['a', Char.ofNat 0, Char.ofNat 0x1F600] ∧
      lenient strictSample = some ⟨['a', Char.ofNat 0, Char.ofNat 0x1F600], 4⟩ ∧
      decode ([0xED, 0xA0, 0x80] ++ (strictSample ++ [0xED, 0xB0, 0x80])) =
        some ⟨[Utf16.replacement, 'a', Char.ofNat 0, Char.ofNat 0x1F600, Utf16.replacement], 6⟩ := by
  have nonzero : ∀ byte ∈ strictSample, byte ≠ 0 := by decide +kernel
  have read : strict strictSample = some ['a', Char.ofNat 0, Char.ofNat 0x1F600] := by
    decide +kernel
  have noQuads : NoQuads strictSample := by decide +kernel
  obtain ⟨agrees, -, between, -⟩ := routes_agree_iff_noQuads strictSample nonzero _ read
  exact ⟨nonzero, read, agrees.mpr noQuads, between noQuads (by decide) _ _
    ⟨[Utf16.replacement], 1⟩ ⟨[Utf16.replacement], 1⟩ (by decide +kernel) (by decide +kernel)⟩

/-- Four bytes of plain UTF-8 are one character, but not for the lenient route, and so not behind a
lone surrogate. -/
theorem lenient_refuses_quad :
    strict [0xF0, 0x9F, 0x98, 0x80] = some [Char.ofNat 0x1F600] ∧
      lenient [0xF0, 0x9F, 0x98, 0x80] = none ∧
      lenient [0xED, 0xA0, 0x80] = some ⟨[Utf16.replacement], 1⟩ ∧
      decode [0xED, 0xA0, 0x80, 0xF0, 0x9F, 0x98, 0x80] = none ∧
      Reader.text #[0x02, 0xF0, 0x9F, 0x98, 0x80, 0x00] ⟨0, #[]⟩ =
        .ok (String.ofList [Char.ofNat 0x1F600]) ⟨6, #[]⟩ ∧
      Reader.text #[0x03, 0xED, 0xA0, 0x80, 0xF0, 0x9F, 0x98, 0x80, 0x00] ⟨0, #[]⟩ =
        .error (.of (.illFormedText 0)) ⟨0, #[]⟩ := by
  exact ⟨by decide +kernel, by decide +kernel, by decide +kernel, by decide +kernel, rfl, rfl⟩

end Mutf8

end DexAtlas.Text
