import DexAtlas.Proofs.Chunks

/-!
# The modified form of UTF-8

Any units can be written in the modified form, and reading gives back the text that they show: pairs
of surrogates as one character, lone ones replaced. The lenient reading always finds the units
again. The strict one is tried first and may refuse; where it accepts, every unit is a character of
its own or stands in a pair, and so it finds the same text, with as many units. Of its two routes
plain UTF-8 refuses a zero and all surrogates, and the other one lone surrogates only.
-/
namespace DexAtlas.Text

/-! ### What units show -/

namespace Utf16

/-- Units and the text that they show: a high surrogate and a low one behind it are one character,
every other surrogate is replaced, and every other unit is a character. -/
inductive Shows : List UInt16 → List Char → Prop
  | nil : Shows [] []
  | char {unit : UInt16} {rest : List UInt16} {text : List Char}
      (plain : isHigh unit = false ∧ isLow unit = false) (others : Shows rest text) :
      Shows (unit :: rest) (Char.ofNat unit.toNat :: text)
  | pair {high low : UInt16} {rest : List UInt16} {text : List Char} (first : isHigh high = true)
      (second : isLow low = true) (others : Shows rest text) :
      Shows (high :: low :: rest) (Utf16.pair high low :: text)
  | loneHigh {high : UInt16} {rest : List UInt16} {text : List Char} (first : isHigh high = true)
      (alone : ∀ next, rest.head? = some next → isLow next = false) (others : Shows rest text) :
      Shows (high :: rest) (replacement :: text)
  -- a low one that comes to stand first was not taken by the unit before it
  | loneLow {low : UInt16} {rest : List UInt16} {text : List Char} (second : isLow low = true)
      (others : Shows rest text) : Shows (low :: rest) (replacement :: text)

theorem isHigh_iff {unit : UInt16} :
    isHigh unit = true ↔ 0xD800 ≤ unit.toNat ∧ unit.toNat < 0xDC00 := by
  rw [isHigh, decide_eq_true_eq]

theorem isLow_iff {unit : UInt16} :
    isLow unit = true ↔ 0xDC00 ≤ unit.toNat ∧ unit.toNat < 0xE000 := by
  rw [isLow, decide_eq_true_eq]

theorem plain_iff {unit : UInt16} : isHigh unit = false ∧ isLow unit = false ↔
    unit.toNat < 0xD800 ∨ 0xE000 ≤ unit.toNat := by
  rw [← Bool.not_eq_true, ← Bool.not_eq_true, isHigh_iff, isLow_iff]
  omega

theorem not_isHigh_of_isLow {unit : UInt16} (low : isLow unit = true) : isHigh unit = false := by
  rw [← Bool.not_eq_true, isHigh_iff]
  rw [isLow_iff] at low
  omega

/-- A unit that is not the first of a pair is shown by itself. -/
theorem Shows.single {unit : UInt16} {rest : List UInt16} {text : List Char}
    (alone : ∀ next, rest.head? = some next → (isHigh unit && isLow next) = false)
    (others : Shows rest text) : Shows (unit :: rest) (Utf16.single unit :: text) := by
  unfold Utf16.single
  by_cases high : isHigh unit = true
  · rw [if_pos (by simp [high])]
    exact .loneHigh high (fun next found => by simpa [high] using alone next found) others
  · by_cases low : isLow unit = true
    · rw [if_pos (by simp [low])]
      exact .loneLow low others
    · rw [if_neg (by simp [high, low])]
      exact .char ⟨by simpa using high, by simpa using low⟩ others

theorem shows_decode (units : List UInt16) : Shows units (decode units) := by
  fun_induction decode units with
  | case1 => exact .nil
  | case2 unit => exact .single (by simp) .nil
  | case3 unit next rest both ih =>
    obtain ⟨high, low⟩ := Bool.and_eq_true_iff.mp both
    exact .pair high low ih
  | case4 unit next rest apart ih => exact .single (by simpa using apart) ih

theorem decode_single {unit : UInt16} {rest : List UInt16}
    (alone : ∀ next, rest.head? = some next → (isHigh unit && isLow next) = false) :
    decode (unit :: rest) = single unit :: decode rest := by
  cases rest with
  | nil => rfl
  | cons next rest => rw [decode, if_neg (by simp [alone next rfl])]

/-- Units show one text only. -/
theorem Shows.eq_decode {units : List UInt16} {text : List Char} (shown : Shows units text) :
    text = decode units := by
  induction shown with
  | nil => rfl
  | char plain _ ih =>
    rw [decode_single (by simp [plain.1]), ← ih, Utf16.single, if_neg (by simp [plain])]
  | pair first second _ ih => rw [decode, if_pos (by simp [first, second]), ← ih]
  | loneHigh first alone _ ih =>
    rw [decode_single (fun next found => by simp [alone next found]), ← ih, Utf16.single,
      if_pos (by simp [first])]
  | loneLow second _ ih =>
    rw [decode_single (by simp [not_isHigh_of_isLow second]), ← ih, Utf16.single,
      if_pos (by simp [second])]

/-! #### Characters and units -/

theorem toNat_ofNat {n : Nat} (valid : n.isValidChar) : (Char.ofNat n).toNat = n := by
  rw [Char.ofNat, dif_pos valid]
  rfl

theorem toNat_unit {n : Nat} (small : n < 0x10000) : (UInt16.ofNat n).toNat = n :=
  UInt16.toNat_ofNat_of_lt' small

theorem width_char {unit : UInt16} (plain : isHigh unit = false ∧ isLow unit = false) :
    width (Char.ofNat unit.toNat) = 1 := by
  have bound := unit.toNat_lt
  rw [plain_iff] at plain
  have valid : unit.toNat.isValidChar := by
    rw [Nat.isValidChar]
    omega
  rw [width, toNat_ofNat valid, if_pos (by omega)]

theorem width_pair {high low : UInt16} (first : isHigh high = true) (second : isLow low = true) :
    width (pair high low) = 2 := by
  rw [isHigh_iff] at first
  rw [isLow_iff] at second
  -- ten bits of each half, counted from where the single units end
  have valid : (0x10000 + (high.toNat - 0xD800) * 0x400 + (low.toNat - 0xDC00)).isValidChar := by
    rw [Nat.isValidChar]
    omega
  rw [width, pair, toNat_ofNat valid, if_neg (by omega)]

theorem length_cons (c : Char) (text : List Char) : length (c :: text) = width c + length text :=
  rfl

theorem encode_cons (c : Char) (text : List Char) :
    encode (c :: text) = encodeChar c ++ encode text :=
  List.flatMap_cons

/-- The units of a text show that text, whatever comes behind them. -/
theorem Shows.encode_append {rest : List UInt16} {shown : List Char} (text : List Char)
    (others : Shows rest shown) : Shows (encode text ++ rest) (text ++ shown) := by
  induction text with
  | nil => exact others
  | cons c text ih =>
    -- no character has the number of a surrogate
    have valid : c.toNat < 0xD800 ∨ (0xDFFF < c.toNat ∧ c.toNat < 0x110000) := c.valid
    rw [encode_cons, List.append_assoc, List.cons_append, encodeChar]
    split
    next small =>
      have plain := (@plain_iff (UInt16.ofNat c.toNat)).mpr (by rw [toNat_unit small]; omega)
      have shown := Shows.char plain ih
      rwa [toNat_unit small, Char.ofNat_toNat] at shown
    next large =>
      have high : isHigh (UInt16.ofNat (0xD800 + (c.toNat - 0x10000) / 0x400)) = true := by
        rw [isHigh_iff, toNat_unit (by omega)]
        omega
      have low : isLow (UInt16.ofNat (0xDC00 + (c.toNat - 0x10000) % 0x400)) = true := by
        rw [isLow_iff, toNat_unit (by omega)]
        omega
      have shown := Shows.pair high low ih
      -- the halves put together are the number that was taken apart
      have value : 0x10000 + (0xD800 + (c.toNat - 0x10000) / 0x400 - 0xD800) * 0x400 +
          (0xDC00 + (c.toNat - 0x10000) % 0x400 - 0xDC00) = c.toNat := by
        omega
      rwa [Utf16.pair, toNat_unit (by omega), toNat_unit (by omega), value, Char.ofNat_toNat]
        at shown

theorem length_encode (text : List Char) : (encode text).length = length text := by
  induction text with
  | nil => rfl
  | cons c rest ih =>
    have one : (encodeChar c).length = width c := by
      unfold encodeChar width
      split <;> rfl
    rw [encode_cons, List.length_append, one, ih, length_cons]

theorem decode_encode (text : List Char) : decode (encode text) = text := by
  have shown := Shows.encode_append text .nil
  rw [List.append_nil, List.append_nil] at shown
  exact shown.eq_decode.symm

end Utf16

namespace Mutf8

/-! ### Classes of bytes as ranges of numbers -/

section Classes

variable {a b c d : UInt8}

theorem within_iff {low high : Nat} :
    within low high a = true ↔ low ≤ a.toNat ∧ a.toNat ≤ high := by
  rw [within, decide_eq_true_eq]

theorem isTail_iff : isTail a = true ↔ 0x80 ≤ a.toNat ∧ a.toNat ≤ 0xBF := within_iff

theorem isPair_iff : isPair a b = true ↔
    (0xC2 ≤ a.toNat ∧ a.toNat ≤ 0xDF) ∧ 0x80 ≤ b.toNat ∧ b.toNat ≤ 0xBF := by
  rw [isPair, Bool.and_eq_true, within_iff, isTail_iff]

theorem isTriple_iff : isTriple a b c = true ↔ (0x80 ≤ c.toNat ∧ c.toNat ≤ 0xBF) ∧
    (a.toNat = 0xE0 ∧ 0xA0 ≤ b.toNat ∧ b.toNat ≤ 0xBF ∨
      a.toNat = 0xED ∧ 0x80 ≤ b.toNat ∧ b.toNat ≤ 0x9F ∨
      (0xE1 ≤ a.toNat ∧ a.toNat ≤ 0xEF ∧ a.toNat ≠ 0xED) ∧ 0x80 ≤ b.toNat ∧ b.toNat ≤ 0xBF) := by
  simp only [isTriple, Bool.and_eq_true, Bool.or_eq_true, within_iff, isTail_iff]
  omega

theorem not_isQuad (low : a.toNat < 0xF0) : ¬ isQuad a b c d = true := by
  intro quad
  simp only [isQuad, Bool.and_eq_true, Bool.or_eq_true, within_iff] at quad
  omega

end Classes

/-! ### Units as bytes -/

/-- The bytes of a unit: itself, or its six lowest bits in the last byte, the next six before it,
and what is left in the first one with its mark. -/
inductive Spells (n : Nat) : List UInt8 → Prop
  | one {a : UInt8} (positive : 0 < n) (small : n < 0x80) (first : a.toNat = n) : Spells n [a]
  | two {a b : UInt8} (large : n = 0 ∨ 0x80 ≤ n) (small : n < 0x800)
      (first : a.toNat = 0xC0 + n / 0x40) (second : b.toNat = 0x80 + n % 0x40) : Spells n [a, b]
  | three {a b c : UInt8} (large : 0x800 ≤ n) (small : n < 0x10000)
      (first : a.toNat = 0xE0 + n / 0x1000) (second : b.toNat = 0x80 + n / 0x40 % 0x40)
      (third : c.toNat = 0x80 + n % 0x40) : Spells n [a, b, c]

theorem spells_encodeUnit (unit : UInt16) : Spells unit.toNat (encodeUnit unit) := by
  have bound := unit.toNat_lt
  unfold encodeUnit
  dsimp only
  split
  next ascii => exact .one (by omega) ascii.2 (Bytes.toNat_byte (by omega))
  next other =>
    split
    next small =>
      exact .two (by omega) small (Bytes.toNat_byte (by omega)) (Bytes.toNat_byte (by omega))
    next large =>
      exact .three (by omega) (by omega) (Bytes.toNat_byte (by omega)) (Bytes.toNat_byte (by omega))
        (Bytes.toNat_byte (by omega))

theorem Spells.ne_zero {n : Nat} {spelled : List UInt8} (spells : Spells n spelled) :
    ∀ byte ∈ spelled, byte ≠ 0 := by
  have nonzero {byte : UInt8} (positive : 0 < byte.toNat) : byte ≠ 0 := by
    rintro rfl
    cases positive
  cases spells with
  | one positive small first => simpa using nonzero (by omega)
  | two large small first second => simpa using ⟨nonzero (by omega), nonzero (by omega)⟩
  | three large small first second third =>
    simpa using ⟨nonzero (by omega), nonzero (by omega), nonzero (by omega)⟩

theorem Spells.length_pos {n : Nat} {spelled : List UInt8} (spells : Spells n spelled) :
    0 < spelled.length := by
  cases spells <;> simp

/-! ### Reading one character -/

section Reading

variable {n : Nat} {spelled rest : List UInt8}

theorem twoByte_eq {a b : UInt8} (small : n < 0x800) (first : a.toNat = 0xC0 + n / 0x40)
    (second : b.toNat = 0x80 + n % 0x40) : twoByte a b = n := by
  rw [twoByte, first, second]
  omega

theorem threeByte_eq {a b c : UInt8} (small : n < 0x10000) (first : a.toNat = 0xE0 + n / 0x1000)
    (second : b.toNat = 0x80 + n / 0x40 % 0x40) (third : c.toNat = 0x80 + n % 0x40) :
    threeByte a b c = n := by
  rw [threeByte, first, second, third]
  omega

/-- A unit that is not a surrogate is read as the character of that number. -/
theorem Spells.paired (spells : Spells n spelled) (single : n < 0xD800 ∨ 0xE000 ≤ n) :
    paired (spelled ++ rest) = (Mutf8.paired rest).map (Char.ofNat n :: ·) := by
  cases spells with
  | one positive small first =>
    rw [List.singleton_append, Mutf8.paired.eq_def]
    dsimp only
    rw [if_pos (within_iff.mpr (by omega)), first]
  | two large small first second =>
    rw [List.cons_append, List.singleton_append, Mutf8.paired.eq_def]
    dsimp only
    rw [if_neg (by rw [within_iff]; omega)]
    -- a zero is spelled in two bytes as well, which have a case of their own
    rcases large with rfl | large
    · rw [if_pos (by simp only [Bool.and_eq_true, within_iff]; omega)]
    · rw [if_neg (by simp only [Bool.and_eq_true, within_iff]; omega),
        if_pos (isPair_iff.mpr (by omega)), twoByte_eq small first second]
  | three large small first second third =>
    rw [List.cons_append, List.cons_append, List.singleton_append, Mutf8.paired.eq_def]
    dsimp only
    rw [if_neg (by rw [within_iff]; omega),
      if_neg (by simp only [Bool.and_eq_true, within_iff]; omega),
      if_neg (by rw [isPair_iff]; omega), if_pos (isTriple_iff.mpr (by omega)),
      threeByte_eq small first second third]

/-- A surrogate is large enough to need three bytes, the first of which is always the same. -/
theorem Spells.surrogate (spells : Spells n spelled) (high : 0xD800 ≤ n) (low : n < 0xE000) :
    ∃ a b c : UInt8, spelled = [a, b, c] ∧ a.toNat = 0xED ∧ b.toNat = 0x80 + n / 0x40 % 0x40 ∧
      (0x80 ≤ c.toNat ∧ c.toNat ≤ 0xBF) ∧ threeByte a b c = n := by
  cases spells with
  | one positive small => omega
  | two large small => omega
  | three large small first second third =>
    exact ⟨_, _, _, rfl, by omega, second, by omega, threeByte_eq small first second third⟩

/-- No other form begins with the bytes of a surrogate, so that only the last case is left. -/
theorem paired_surrogate {a b c : UInt8} (lead : a.toNat = 0xED) (second : 0xA0 ≤ b.toNat) :
    paired (a :: b :: c :: rest) =
      if within 0xED 0xED a && within 0xA0 0xAF b && isTail c then
        match rest with
        | d :: e :: f :: rest =>
          if within 0xED 0xED d && within 0xB0 0xBF e && isTail f then
            (paired rest).map (Utf16.pair (UInt16.ofNat (threeByte a b c))
              (UInt16.ofNat (threeByte d e f)) :: ·)
          else none
        | _ => none
      else none := by
  rw [paired.eq_def]
  refine (if_neg ?_).trans ((if_neg ?_).trans ((if_neg ?_).trans (if_neg ?_)))
  · rw [within_iff]
    omega
  · simp only [Bool.and_eq_true, within_iff]
    omega
  · rw [isPair_iff]
    omega
  · rw [isTriple_iff]
    omega

/-- Two surrogates that belong together are read as one character. -/
theorem paired_surrogates {high low : Nat} {first second : List UInt8}
    (spellsHigh : Spells high first) (spellsLow : Spells low second)
    (isHigh : 0xD800 ≤ high ∧ high < 0xDC00) (isLow : 0xDC00 ≤ low ∧ low < 0xE000) :
    paired (first ++ (second ++ rest)) = (paired rest).map
      (Char.ofNat (0x10000 + (high - 0xD800) * 0x400 + (low - 0xDC00)) :: ·) := by
  obtain ⟨a, b, c, rfl, lead, middle, last, value⟩ := spellsHigh.surrogate isHigh.1 (by omega)
  obtain ⟨d, e, f, rfl, lead', middle', last', value'⟩ := spellsLow.surrogate (by omega) isLow.2
  simp only [List.cons_append, List.nil_append]
  rw [paired_surrogate lead (by omega),
    if_pos (by simp only [Bool.and_eq_true, within_iff, isTail_iff]; omega)]
  dsimp only
  rw [if_pos (by simp only [Bool.and_eq_true, within_iff, isTail_iff]; omega), Utf16.pair, value,
    value', Utf16.toNat_unit (by omega), Utf16.toNat_unit (by omega)]

/-- A low surrogate is refused where a character has to begin. -/
theorem Spells.not_paired_low (spells : Spells n spelled) (isLow : 0xDC00 ≤ n ∧ n < 0xE000) :
    Mutf8.paired (spelled ++ rest) = none := by
  obtain ⟨a, b, c, rfl, lead, middle, last, -⟩ := spells.surrogate (by omega) isLow.2
  simp only [List.cons_append, List.nil_append]
  rw [paired_surrogate lead (by omega),
    if_neg (by simp only [Bool.and_eq_true, within_iff]; omega)]

/-- A high surrogate is refused unless the bytes of a low one come next. -/
theorem Spells.not_paired_high (spells : Spells n spelled) (isHigh : 0xD800 ≤ n ∧ n < 0xDC00)
    (alone : ∀ d e f more, rest = d :: e :: f :: more →
      ¬ (d.toNat = 0xED ∧ 0xB0 ≤ e.toNat ∧ e.toNat ≤ 0xBF)) :
    Mutf8.paired (spelled ++ rest) = none := by
  obtain ⟨a, b, c, rfl, lead, middle, last, -⟩ := spells.surrogate isHigh.1 (by omega)
  simp only [List.cons_append, List.nil_append]
  rw [paired_surrogate lead (by omega),
    if_pos (by simp only [Bool.and_eq_true, within_iff, isTail_iff]; omega)]
  split
  next d e f more =>
    have other := alone d e f more rfl
    exact if_neg (by simp only [Bool.and_eq_true, within_iff]; omega)
  next => rfl

/-- A unit that is neither zero nor a surrogate is spelled as in plain text. -/
theorem Spells.plain (spells : Spells n spelled) (positive : 0 < n)
    (single : n < 0xD800 ∨ 0xE000 ≤ n) :
    plain (spelled ++ rest) = (Mutf8.plain rest).map (Char.ofNat n :: ·) := by
  cases spells with
  | one positive small first =>
    rw [List.singleton_append, Mutf8.plain.eq_def]
    dsimp only
    rw [if_pos (by omega), first]
  | two large small first second =>
    rw [List.cons_append, List.singleton_append, Mutf8.plain.eq_def]
    dsimp only
    rw [if_neg (by omega), if_pos (isPair_iff.mpr (by omega)), twoByte_eq small first second]
  | three large small first second third =>
    rw [List.cons_append, List.cons_append, List.singleton_append, Mutf8.plain.eq_def]
    dsimp only
    rw [if_neg (by omega), if_neg (by rw [isPair_iff]; omega),
      if_pos (isTriple_iff.mpr (by omega)), threeByte_eq small first second third]

/-- No plain text begins with a zero or a surrogate in the modified form. -/
theorem Spells.not_plain (spells : Spells n spelled)
    (other : n = 0 ∨ (0xD800 ≤ n ∧ n < 0xE000)) : Mutf8.plain (spelled ++ rest) = none := by
  cases spells with
  | one positive small first => omega
  | two large small first second =>
    rw [List.cons_append, List.singleton_append, Mutf8.plain.eq_def]
    dsimp only
    rw [if_neg (by omega), if_neg (by rw [isPair_iff]; omega)]
    -- neither do two more bytes make it a character
    match rest with
    | [] => rfl
    | [third] => exact if_neg (by rw [isTriple_iff]; omega)
    | third :: fourth :: rest =>
      dsimp only
      rw [if_neg (by rw [isTriple_iff]; omega), if_neg (not_isQuad (by omega))]
  | three large small first second third =>
    rw [List.cons_append, List.cons_append, List.singleton_append, Mutf8.plain.eq_def]
    dsimp only
    rw [if_neg (by omega), if_neg (by rw [isPair_iff]; omega), if_neg (by rw [isTriple_iff]; omega)]
    cases rest with
    | nil => rfl
    | cons fourth rest => exact if_neg (not_isQuad (by omega))

/-- The unit is spelled by its own bytes, whatever it stands for. -/
theorem Spells.units (spells : Spells n spelled) :
    units (spelled ++ rest) = (Mutf8.units rest).map (UInt16.ofNat n :: ·) := by
  cases spells with
  | one positive small first =>
    rw [List.singleton_append, Mutf8.units.eq_def]
    dsimp only
    rw [if_pos (within_iff.mpr (by omega)), first]
  | two large small first second =>
    rw [List.cons_append, List.singleton_append, Mutf8.units.eq_def]
    dsimp only
    rw [if_neg (by rw [within_iff]; omega),
      if_pos (by simp only [Bool.and_eq_true, within_iff, isTail_iff]; omega),
      twoByte_eq small first second]
  | three large small first second third =>
    rw [List.cons_append, List.cons_append, List.singleton_append, Mutf8.units.eq_def]
    dsimp only
    rw [if_neg (by rw [within_iff]; omega),
      if_neg (by simp only [Bool.and_eq_true, within_iff]; omega),
      if_pos (by simp only [Bool.and_eq_true, within_iff, isTail_iff]; omega),
      threeByte_eq small first second third]

end Reading

/-! ### Reading units -/

theorem encode_cons (unit : UInt16) (rest : List UInt16) :
    encode (unit :: rest) = encodeUnit unit ++ encode rest :=
  List.flatMap_cons

theorem units_encode (list : List UInt16) : units (encode list) = some list := by
  induction list with
  | nil => rfl
  | cons unit rest ih =>
    rw [encode_cons, (spells_encodeUnit unit).units, ih, UInt16.ofNat_toNat]
    rfl

/-- If a reading accepts, it finds this text, and so many units in it. -/
def Finds (read : Option (List Char)) (text : List Char) (count : Nat) : Prop :=
  ∀ found, read = some found → found = text ∧ Utf16.length found = count

theorem Finds.refused {read : Option (List Char)} (none : read = none) (text : List Char)
    (count : Nat) : Finds read text count := by
  intro found accepted
  cases none.symm.trans accepted

theorem Finds.cons {read : Option (List Char)} {text : List Char} {count width : Nat} {c : Char}
    (finds : Finds read text count) (wide : Utf16.width c = width) :
    Finds (read.map (c :: ·)) (c :: text) (width + count) := by
  intro found accepted
  obtain ⟨rest, inner, rfl⟩ := Option.map_eq_some_iff.mp accepted
  obtain ⟨rfl, counted⟩ := finds rest inner
  exact ⟨rfl, by rw [Utf16.length_cons, wide, counted]⟩

section Texts

open Utf16 (Shows isHigh_iff isLow_iff plain_iff)

variable {list : List UInt16} {text : List Char}

/-- Plain reading accepts nothing but characters that are spelled alike in plain UTF-8. -/
theorem plain_encode (shown : Shows list text) : Finds (plain (encode list)) text list.length := by
  induction shown with
  | nil =>
    rintro _ ⟨⟩
    exact ⟨rfl, rfl⟩
  | @char unit rest text plain _ ih =>
    have spells := spells_encodeUnit unit
    rw [encode_cons]
    by_cases zero : unit.toNat = 0
    · exact .refused (spells.not_plain (.inl zero)) _ _
    · rw [spells.plain (by omega) (plain_iff.mp plain), List.length_cons, Nat.add_comm]
      exact ih.cons (Utf16.width_char plain)
  -- a surrogate is refused, whether its partner follows or not
  | pair first _ _ _ | loneHigh first _ _ _ =>
    rw [isHigh_iff] at first
    rw [encode_cons]
    exact .refused ((spells_encodeUnit _).not_plain (.inr (by omega))) _ _
  | loneLow second _ _ =>
    rw [isLow_iff] at second
    rw [encode_cons]
    exact .refused ((spells_encodeUnit _).not_plain (.inr (by omega))) _ _

/-- The bytes of a low surrogate begin no other unit. -/
theorem isLow_of_encode {d e f : UInt8} {more : List UInt8}
    (bytes : encode list = d :: e :: f :: more) (first : d.toNat = 0xED) (second : 0xB0 ≤ e.toNat) :
    ∃ next, list.head? = some next ∧ Utf16.isLow next = true := by
  cases list with
  | nil => cases bytes
  | cons next rest =>
    refine ⟨next, rfl, ?_⟩
    rw [encode_cons] at bytes
    rw [isLow_iff]
    have spells := spells_encodeUnit next
    generalize encodeUnit next = spelled at bytes spells
    -- only a unit in three bytes begins with this byte
    cases spells with
    | one positive small lead =>
      obtain ⟨rfl, -⟩ := List.cons.inj bytes
      omega
    | two large small lead tail =>
      obtain ⟨rfl, -⟩ := List.cons.inj bytes
      omega
    | three large small lead tail last =>
      obtain ⟨rfl, behind⟩ := List.cons.inj bytes
      obtain ⟨rfl, -⟩ := List.cons.inj behind
      omega

/-- The other strict route refuses lone surrogates only. -/
theorem paired_encode (shown : Shows list text) :
    Finds (paired (encode list)) text list.length := by
  induction shown with
  | nil =>
    rintro _ ⟨⟩
    exact ⟨rfl, rfl⟩
  | @char unit rest text plain _ ih =>
    rw [encode_cons, (spells_encodeUnit unit).paired (plain_iff.mp plain), List.length_cons,
      Nat.add_comm]
    exact ih.cons (Utf16.width_char plain)
  | @pair high low rest text first second _ ih =>
    rw [encode_cons, encode_cons, paired_surrogates (spells_encodeUnit high) (spells_encodeUnit low)
      (isHigh_iff.mp first) (isLow_iff.mp second), ← Utf16.pair, List.length_cons, List.length_cons,
      Nat.add_assoc, Nat.add_comm rest.length]
    exact ih.cons (Utf16.width_pair first second)
  | @loneHigh high rest text first alone _ _ =>
    rw [encode_cons]
    refine .refused ((spells_encodeUnit high).not_paired_high (isHigh_iff.mp first) ?_) _ _
    -- three bytes behind it that look like a low surrogate would be one
    rintro d e f more bytes ⟨lead, tail, -⟩
    obtain ⟨next, found, low⟩ := isLow_of_encode bytes lead tail
    cases (alone next found).symm.trans low
  | @loneLow low rest text second _ _ =>
    rw [encode_cons]
    exact .refused ((spells_encodeUnit low).not_paired_low (isLow_iff.mp second)) _ _

end Texts

/-- Whichever route reads them, units in the modified form are read as the text that they show. -/
theorem decode_encode (list : List UInt16) :
    decode (encode list) = some ⟨Utf16.decode list, list.length⟩ := by
  have shown := Utf16.shows_decode list
  rw [decode, strict]
  -- the three routes in the order in which they are tried; the last one never refuses
  cases plainly : plain (encode list) with
  | some text =>
    obtain ⟨rfl, counted⟩ := plain_encode shown text plainly
    simp [counted]
  | none =>
    cases inPairs : paired (encode list) with
    | some text =>
      obtain ⟨rfl, counted⟩ := paired_encode shown text inPairs
      simp [counted]
    | none => simp [lenient, units_encode]

theorem ne_zero_of_mem_encode {list : List UInt16} : ∀ byte ∈ encode list, byte ≠ 0 := by
  intro byte member
  obtain ⟨unit, -, spelled⟩ := List.mem_flatMap.mp member
  exact (spells_encodeUnit unit).ne_zero byte spelled

theorem length_le_encode (list : List UInt16) : list.length ≤ (encode list).length :=
  Bytes.length_le_flatMap fun unit _ => (spells_encodeUnit unit).length_pos

end Mutf8

end DexAtlas.Text
