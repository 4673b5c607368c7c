import DexAtlas.Archive.Images
import Mathlib.Algebra.GroupWithZero.Nat
import Mathlib.Data.List.Forall2
import Mathlib.Data.List.Nodup
import Mathlib.Data.List.Perm.Subperm
import Mathlib.Data.Nat.Find

/-!
# The images of an archive

The first image is `classes.dex`, the others are `classes2.dex` and so on, and the first name that is
missing ends them. A number may also be written with a plus sign, and this is the only other spelling
that takes a place: such an entry stands in for a missing image, and in place of one that is there if
it comes later in the directory. Apart from that the images are exactly those of the unbroken sequence
of names, as far as 32 bits can number them.
-/
namespace DexAtlas

namespace MultiDex

variable {α : Type}

/-! ### Numerals -/

theorem digitChar_of_isDigit {c : Char} (digit : c.isDigit = true) :
    (c.toNat - '0'.toNat).digitChar = c := by
  obtain ⟨least, most⟩ := Char.isDigit_iff_toNat.mp digit
  simp only [Char.reduceToNat] at least most
  apply Char.toNat_inj.mp
  rw [Nat.toNat_digitChar_of_lt_ten (by simp only [Char.reduceToNat]; omega)]
  simp only [Char.reduceToNat]
  omega

/-- Digits behind the numeral of a positive number make the numeral of the number they lead to. -/
theorem toDigits_append {digits : List Char} {value : Nat}
    (allDigits : ∀ c ∈ digits, c.isDigit = true) (positive : 0 < value) :
    Nat.toDigits 10 value ++ digits = Nat.toDigits 10 (Nat.ofDigitChars 10 digits value) := by
  induction digits generalizing value with
  | nil => simp
  | cons c rest ih =>
    have digit := allDigits c (by simp)
    have small : c.toNat - '0'.toNat < 10 := by
      have most := (Char.isDigit_iff_toNat.mp digit).2
      simp only [Char.reduceToNat] at most ⊢
      omega
    have one : Nat.toDigits 10 value ++ [c] =
        Nat.toDigits 10 (10 * value + (c.toNat - '0'.toNat)) := by
      rw [← Nat.toDigits_append_toDigits (by decide) positive small,
        Nat.toDigits_of_lt_base small, digitChar_of_isDigit digit]
    calc Nat.toDigits 10 value ++ c :: rest
        = Nat.toDigits 10 value ++ [c] ++ rest := by simp
      _ = Nat.toDigits 10 (10 * value + (c.toNat - '0'.toNat)) ++ rest := by rw [one]
      _ = _ := by
        rw [ih (fun other later => allDigits other (by simp [later])) (by omega),
          Nat.ofDigitChars_cons]

/-- A numeral without a leading zero is the numeral of its value. -/
theorem toDigits_ofDigitChars {c : Char} {rest : List Char}
    (allDigits : ∀ d ∈ c :: rest, d.isDigit = true) (leading : c ≠ '0') :
    Nat.toDigits 10 (Nat.ofDigitChars 10 (c :: rest) 0) = c :: rest := by
  have digit := allDigits c (by simp)
  have lead := digitChar_of_isDigit digit
  obtain ⟨least, most⟩ := Char.isDigit_iff_toNat.mp digit
  have positive : 0 < c.toNat - '0'.toNat := by
    by_contra zero
    rw [show c.toNat - '0'.toNat = 0 by omega] at lead
    exact leading lead.symm
  have small : c.toNat - '0'.toNat < 10 := by
    simp only [Char.reduceToNat] at most ⊢
    omega
  rw [Nat.ofDigitChars_cons, Nat.mul_zero, Nat.zero_add,
    ← toDigits_append (fun d later => allDigits d (by simp [later])) positive,
    Nat.toDigits_of_lt_base small, lead]
  rfl

theorem toDigits_leading {n : Nat} (positive : 0 < n) (rest : List Char) :
    Nat.toDigits 10 n ≠ '0' :: rest := by
  induction n using Nat.strongRecOn generalizing rest with
  | ind n ih =>
    rw [Nat.toDigits_eq_if (by decide)]
    split
    next small =>
      intro same
      have zero := (List.cons.inj same).1
      rw [Nat.digitChar_eq_zero] at zero
      omega
    next large =>
      intro same
      cases higher : Nat.toDigits 10 (n / 10) with
      | nil => exact Nat.toDigits_ne_nil higher
      | cons c more =>
        rw [higher, List.cons_append] at same
        obtain ⟨rfl, -⟩ := List.cons.inj same
        exact ih (n / 10) (by omega) (by omega) more higher

/-! ### Names and their places -/

/-- The name of the image at a place. -/
def imageName (position : Nat) : String :=
  if position = 1 then "classes.dex" else "classes" ++ toString position ++ ".dex"

/-- The name of a place whose number is written with a plus sign, and with zeros in front or not. -/
structure PlusNamed (position : Nat) (name : String) : Prop where
  numbered : 2 ≤ position
  fits : position < UInt32.size
  spelled : ∃ digits : List Char, digits ≠ [] ∧ (∀ c ∈ digits, c.isDigit = true) ∧
    Nat.ofDigitChars 10 digits 0 = position ∧
      name = "classes+" ++ String.ofList digits ++ ".dex"

/-- The names under which an entry takes a place. The number of a place has 32 bits. -/
def TakesPlace (position : Nat) (name : String) : Prop :=
  (1 ≤ position ∧ position < UInt32.size ∧ name = imageName position) ∨ PlusNamed position name

theorem between?_eq_some_iff {start stop text middle : List Char} :
    between? start stop text = some middle ↔ text = start ++ middle ++ stop := by
  unfold between?
  constructor
  · intro found
    split at found
    next starts =>
      obtain ⟨rest, rfl⟩ := List.isPrefixOf_iff_prefix.mp starts
      dsimp only at found
      rw [List.drop_left] at found
      split at found
      next stops =>
        obtain ⟨front, rfl⟩ := List.isSuffixOf_iff_suffix.mp stops
        rw [List.length_append, Nat.add_sub_cancel, List.take_left] at found
        obtain rfl := Option.some.inj found
        rw [List.append_assoc]
      next => cases found
    next => cases found
  · rintro rfl
    have stops : stop.isSuffixOf (middle ++ stop) = true := by simp
    simp [List.append_assoc, stops]

theorem number?_plus {digits : List Char} {n : Nat} :
    number? ('+' :: digits) = some n ↔ n < UInt32.size ∧ digits ≠ [] ∧
      (∀ c ∈ digits, c.isDigit = true) ∧ Nat.ofDigitChars 10 digits 0 = n := by
  unfold number?
  simp only [← Nat.ofDigitChars_eq_foldl]
  split
  next bad =>
    simp only [reduceCtorEq, false_iff]
    rintro ⟨-, some, allDigits, -⟩
    simp only [Bool.or_eq_true, List.isEmpty_iff, some, Bool.not_eq_true', false_or,
      List.all_eq_false] at bad
    obtain ⟨c, member, noDigit⟩ := bad
    exact noDigit (allDigits c member)
  next good =>
    simp only [Bool.or_eq_true, List.isEmpty_iff, Bool.not_eq_true', not_or, Bool.not_eq_false,
      List.all_eq_true] at good
    obtain ⟨some, allDigits⟩ := good
    split
    next fits =>
      simp only [Option.some.injEq]
      constructor
      · rintro rfl
        exact ⟨fits, some, allDigits, rfl⟩
      · rintro ⟨-, -, -, value⟩
        exact value
    next large =>
      simp only [reduceCtorEq, false_iff]
      rintro ⟨fits, -, -, rfl⟩
      exact large fits

/-- A sign makes no difference to digits. -/
theorem number?_unsigned {text : List Char} (unsigned : text.head? ≠ some '+') :
    number? text = number? ('+' :: text) := by
  unfold number?
  cases text with
  | nil => rfl
  | cons c rest =>
    have other : c ≠ '+' := by simpa using unsigned
    split
    next same => exact absurd (List.cons.inj same).1 other
    next => rfl

/-- The place of a name with something between its two ends that is no zero. -/
theorem position?_of_text {name : String} {text : List Char}
    (shape : name.toList = "classes".toList ++ text ++ ".dex".toList) (some : text ≠ [])
    (leading : text.head? ≠ Option.some '0') :
    position? name = (number? text).filter (2 ≤ ·) := by
  have found := between?_eq_some_iff.mpr shape
  cases text with
  | nil => exact absurd rfl some
  | cons c rest =>
    have other : c ≠ '0' := by simpa using leading
    unfold position?
    rw [found]
    split
    next none => cases none
    next none => cases none
    next zero => exact absurd (List.cons.inj (Option.some.inj zero)).1 other
    next same => rw [Option.some.inj same]

/-- The numeral in the name of an image, which the first one does not have. -/
def numeral (position : Nat) : List Char :=
  if position = 1 then [] else Nat.toDigits 10 position

theorem numeral_eq {n : Nat} (numbered : 2 ≤ n) : numeral n = Nat.toDigits 10 n :=
  if_neg (by omega)

theorem toList_imageName (n : Nat) :
    (imageName n).toList = "classes".toList ++ numeral n ++ ".dex".toList := by
  by_cases first : n = 1
  · subst first
    decide
  · rw [imageName, numeral, if_neg first, if_neg first]
    simp only [String.toList_append, Nat.toString_eq_repr, Nat.toList_repr]

theorem position?_imageName {n : Nat} (positive : 1 ≤ n) (fits : n < UInt32.size) :
    position? (imageName n) = some n := by
  by_cases first : n = 1
  · subst first
    decide +kernel
  · have numbered : 2 ≤ n := by omega
    have shape := toList_imageName n
    rw [numeral_eq numbered] at shape
    have leading : (Nat.toDigits 10 n).head? ≠ some '0' := by
      intro zero
      obtain ⟨rest, same⟩ := List.head?_eq_some_iff.mp zero
      exact toDigits_leading positive rest same
    have allDigits : ∀ c ∈ Nat.toDigits 10 n, c.isDigit = true := fun c member =>
      Nat.isDigit_of_mem_toDigits (by decide) (by decide) member
    have unsigned : (Nat.toDigits 10 n).head? ≠ some '+' := by
      intro plus
      have := allDigits '+' (List.mem_of_mem_head? plus)
      contradiction
    have value : number? (Nat.toDigits 10 n) = some n := by
      rw [number?_unsigned unsigned]
      exact number?_plus.mpr ⟨fits, Nat.toDigits_ne_nil, allDigits, Nat.ofDigitChars_ten_toDigits⟩
    rw [position?_of_text shape Nat.toDigits_ne_nil leading, value]
    simp [numbered]

theorem position?_plusNamed {n : Nat} {name : String} (plus : PlusNamed n name) :
    position? name = some n := by
  obtain ⟨numbered, fits, digits, some, allDigits, value, rfl⟩ := plus
  have shape : ("classes+" ++ String.ofList digits ++ ".dex").toList =
      "classes".toList ++ '+' :: digits ++ ".dex".toList := by
    simp
  rw [position?_of_text shape (by simp) (by simp), number?_plus.mpr ⟨fits, some, allDigits, value⟩]
  simp [numbered]

theorem position?_eq_some_iff {name : String} {n : Nat} :
    position? name = some n ↔ TakesPlace n name := by
  constructor
  · intro placed
    unfold position? at placed
    split at placed
    next => cases placed
    next found =>
      obtain rfl := Option.some.inj placed
      have shape := between?_eq_some_iff.mp found
      refine .inl ⟨Nat.le_refl _, by decide, ?_⟩
      rw [← String.toList_inj, shape]
      rfl
    next => cases placed
    next text notEmpty notZero found =>
      have shape := between?_eq_some_iff.mp found
      obtain ⟨number, numbered⟩ := Option.filter_eq_some_iff.mp placed
      have numbered : 2 ≤ n := of_decide_eq_true numbered
      by_cases plus : text.head? = some '+'
      · obtain ⟨digits, rfl⟩ := List.head?_eq_some_iff.mp plus
        obtain ⟨fits, some, allDigits, value⟩ := number?_plus.mp number
        refine .inr ⟨numbered, fits, digits, some, allDigits, value, ?_⟩
        rw [← String.toList_inj, shape]
        simp
      · rw [number?_unsigned plus] at number
        obtain ⟨fits, some, allDigits, value⟩ := number?_plus.mp number
        refine .inl ⟨by omega, fits, ?_⟩
        cases text with
        | nil => exact absurd rfl some
        | cons c rest =>
          have leading : c ≠ '0' := by
            rintro rfl
            exact notZero rest rfl
          have written := toDigits_ofDigitChars allDigits leading
          rw [value] at written
          rw [← String.toList_inj, shape, toList_imageName, numeral_eq numbered, written]
  · rintro (⟨positive, fits, rfl⟩ | plus)
    · exact position?_imageName positive fits
    · exact position?_plusNamed plus

theorem imageName_injective {m n : Nat} (same : imageName m = imageName n) : m = n := by
  have numerals : numeral m = numeral n := by
    have lists := congrArg String.toList same
    rw [toList_imageName, toList_imageName] at lists
    exact List.append_cancel_left (List.append_cancel_right lists)
  unfold numeral at numerals
  split at numerals <;> split at numerals
  next mFirst nFirst => rw [mFirst, nFirst]
  next => exact absurd numerals.symm Nat.toDigits_ne_nil
  next => exact absurd numerals Nat.toDigits_ne_nil
  next =>
    have numbers := congrArg (Nat.ofDigitChars 10 · 0) numerals
    rwa [Nat.ofDigitChars_ten_toDigits, Nat.ofDigitChars_ten_toDigits] at numbers

/-! ### The sequence of images -/

variable {entries : List (String × α)}

/-- The entry at a place is at that place, and none behind it is. -/
theorem atPosition?_some {n : Nat} {entry : String × α}
    (found : atPosition? entries n = some entry) :
    position? entry.1 = some n ∧ ∃ i, entries[i]? = some entry ∧
      ∀ (j : Nat) (other : String × α), i < j → entries[j]? = some other →
        position? other.1 ≠ some n := by
  obtain ⟨placed, after, before, split, none⟩ := List.find?_eq_some_iff_append.mp found
  have split : entries = before.reverse ++ entry :: after.reverse := by
    rw [← List.reverse_reverse entries, split]
    simp
  refine ⟨of_decide_eq_true placed, before.length, by simp [split], ?_⟩
  intro j other behind there same
  have member : other ∈ after := by
    rw [split, List.getElem?_append_right (by simp; omega), List.length_reverse,
      List.getElem?_cons, if_neg (by omega)] at there
    simpa using List.mem_of_getElem? there
  have := none other member
  simp [same] at this

theorem atPosition?_none {n : Nat} :
    atPosition? entries n = none ↔ ∀ entry ∈ entries, position? entry.1 ≠ some n := by
  simp [atPosition?]

theorem mem_of_atPosition? {n : Nat} {entry : String × α}
    (found : atPosition? entries n = some entry) : entry ∈ entries := by
  obtain ⟨-, i, there, -⟩ := atPosition?_some found
  exact List.mem_of_getElem? there

/-- The last entry in the directory that takes the place. -/
structure Chosen (entries : List (String × α)) (position : Nat) (entry : String × α) : Prop where
  takes : TakesPlace position entry.1
  last : ∃ i, entries[i]? = some entry ∧
    ∀ (j : Nat) (other : String × α), i < j → entries[j]? = some other →
      ¬TakesPlace position other.1

theorem chosen_iff {n : Nat} {entry : String × α} :
    Chosen entries n entry ↔ atPosition? entries n = some entry := by
  have placed {name : String} : TakesPlace n name ↔ position? name = some n :=
    position?_eq_some_iff.symm
  constructor
  · rintro ⟨takes, i, there, last⟩
    cases found : atPosition? entries n with
    | none =>
      exact absurd (placed.mp takes) (atPosition?_none.mp found entry (List.mem_of_getElem? there))
    | some other =>
      obtain ⟨itsPlace, j, here, noLater⟩ := atPosition?_some found
      -- of two entries for the place neither stands behind the other
      have notBefore : ¬i < j := fun before => last j other before here (placed.mpr itsPlace)
      have notBehind : ¬j < i := fun behind => noLater i entry behind there (placed.mp takes)
      obtain rfl : i = j := by omega
      rw [← there, here]
  · intro found
    obtain ⟨itsPlace, i, there, last⟩ := atPosition?_some found
    refine ⟨placed.mpr itsPlace, i, there, ?_⟩
    intro j other behind here takes
    exact last j other behind here (placed.mp takes)

theorem run_getElem? {left position k : Nat} (inside : k < (run entries left position).length) :
    (run entries left position)[k]? = atPosition? entries (position + k) := by
  induction left generalizing position k with
  | zero => simp [run] at inside
  | succ left ih =>
    cases found : atPosition? entries position with
    | none => simp [run, found] at inside
    | some entry =>
      simp only [run, found] at inside ⊢
      cases k with
      | zero => simp [found]
      | succ k =>
        rw [List.getElem?_cons_succ, ih (by simpa using inside), Nat.add_assoc, Nat.add_comm 1]

theorem run_gap {left position : Nat} (short : (run entries left position).length < left) :
    atPosition? entries (position + (run entries left position).length) = none := by
  induction left generalizing position with
  | zero => simp at short
  | succ left ih =>
    cases found : atPosition? entries position with
    | none => simp [run, found]
    | some entry =>
      simp only [run, found, List.length_cons] at short ⊢
      rw [← Nat.add_comm 1, ← Nat.add_assoc]
      exact ih (by omega)

/-- Of more values than a list has members one is missing. -/
theorem exists_first_missing {β : Type} [DecidableEq β] (value : Nat → β) (list : List β)
    (apart : ∀ i j, i ≤ list.length → j ≤ list.length → value i = value j → i = j) :
    ∃ count ≤ list.length, (∀ k < count, value k ∈ list) ∧ value count ∉ list := by
  have missing : ∃ count, count ≤ list.length ∧ value count ∉ list := by
    by_contra all
    simp only [not_exists, not_and, not_not] at all
    have distinct : ((List.range (list.length + 1)).map value).Nodup := by
      apply List.Nodup.map_on _ List.nodup_range
      intro i iInside j jInside same
      rw [List.mem_range] at iInside jInside
      exact apart i j (by omega) (by omega) same
    have within : (List.range (list.length + 1)).map value ⊆ list := by
      intro x listed
      obtain ⟨k, inside, rfl⟩ := List.mem_map.mp listed
      rw [List.mem_range] at inside
      exact all k (by omega)
    have few := (distinct.subperm within).length_le
    rw [List.length_map, List.length_range] at few
    omega
  obtain ⟨inside, absent⟩ := Nat.find_spec missing
  refine ⟨Nat.find missing, inside, ?_, absent⟩
  intro k before
  by_contra gone
  exact Nat.find_min missing before ⟨by omega, gone⟩

theorem length_run_le (left position : Nat) : (run entries left position).length ≤ left := by
  induction left generalizing position with
  | zero => simp [run]
  | succ left ih =>
    rw [run]
    split
    · simp
    · simp only [List.length_cons]
      have := ih (position + 1)
      omega

theorem sequence_getElem? {k : Nat} (inside : k < (sequence entries).length) :
    (sequence entries)[k]? = atPosition? entries (k + 1) := by
  rw [sequence, run_getElem? inside, Nat.add_comm]

/-- The images end where no entry has the next place. -/
theorem sequence_gap (entries : List (String × α)) :
    atPosition? entries ((sequence entries).length + 1) = none := by
  have most : (sequence entries).length ≤ entries.length := length_run_le _ _
  rcases Nat.lt_or_eq_of_le most with short | full
  · have gap := run_gap short
    rwa [Nat.add_comm] at gap
  · -- all places up to that of the last entry are taken, so no entry is left for another
    by_contra more
    let places := entries.map fun entry => position? entry.1
    obtain ⟨count, inside, -, absent⟩ := exists_first_missing (fun k => some (k + 1)) places
      (by intro i j _ _ same; simpa using same)
    rw [List.length_map] at inside
    obtain ⟨entry, found⟩ : ∃ entry, atPosition? entries (count + 1) = some entry := by
      rcases Nat.lt_or_eq_of_le inside with earlier | last
      · have there := sequence_getElem? (full ▸ earlier)
        rw [List.getElem?_eq_getElem (full ▸ earlier)] at there
        exact ⟨_, there.symm⟩
      · rw [last, ← full]
        exact Option.ne_none_iff_exists'.mp more
    apply absent
    rw [← (atPosition?_some found).1]
    exact List.mem_map_of_mem (mem_of_atPosition? found)

/-- Entries that are at their places, with a gap behind them, are the sequence of images. -/
theorem sequence_unique {list : List (String × α)}
    (places : ∀ k ≤ entries.length, k < list.length → atPosition? entries (k + 1) = list[k]?)
    (gap : list.length ≤ entries.length → atPosition? entries (list.length + 1) = none) :
    sequence entries = list := by
  have most : (sequence entries).length ≤ entries.length := length_run_le _ _
  have length : (sequence entries).length = list.length := by
    rcases Nat.lt_trichotomy (sequence entries).length list.length with fewer | same | more
    · have none := sequence_gap entries
      rw [places _ most fewer, List.getElem?_eq_none_iff] at none
      omega
    · exact same
    · have there := sequence_getElem? more
      rw [gap (by omega), List.getElem?_eq_none_iff] at there
      omega
  apply List.ext_getElem?
  intro k
  rcases Nat.lt_or_ge k (sequence entries).length with inside | outside
  · rw [sequence_getElem? inside, places k (by omega) (length ▸ inside)]
  · rw [List.getElem?_eq_none outside, List.getElem?_eq_none (length ▸ outside)]

/-- The entries are chosen place by place, and no entry takes the place behind the last. -/
structure InSequence (entries chosen : List (String × α)) : Prop where
  places : ∀ (k : Nat) (entry : String × α), chosen[k]? = some entry → Chosen entries (k + 1) entry
  gap : ∀ entry ∈ entries, ¬TakesPlace (chosen.length + 1) entry.1

theorem inSequence_iff {chosen : List (String × α)} :
    InSequence entries chosen ↔ sequence entries = chosen := by
  constructor
  · rintro ⟨places, gap⟩
    apply sequence_unique
    · intro k _ inside
      have there := List.getElem?_eq_getElem inside
      rw [there]
      exact chosen_iff.mp (places k _ there)
    · intro _
      rw [atPosition?_none]
      intro entry member placed
      exact gap entry member (position?_eq_some_iff.mp placed)
  · rintro rfl
    constructor
    · intro k entry there
      have inside := (List.getElem?_eq_some_iff.mp there).1
      rw [sequence_getElem? inside] at there
      exact chosen_iff.mpr there
    · intro entry member takes
      exact atPosition?_none.mp (sequence_gap entries) entry member
        (position?_eq_some_iff.mpr takes)

section Placeless

variable {before after : List (String × α)} {entry : String × α}

theorem atPosition?_without (placeless : ∀ n, ¬TakesPlace n entry.1) (n : Nat) :
    atPosition? (before ++ entry :: after) n = atPosition? (before ++ after) n := by
  have elsewhere : position? entry.1 ≠ some n := fun placed =>
    placeless n (position?_eq_some_iff.mp placed)
  simp [atPosition?, List.find?_append, elsewhere]

/-- An entry that takes no place could as well not be there. -/
theorem sequence_without (placeless : ∀ n, ¬TakesPlace n entry.1) :
    sequence (before ++ entry :: after) = sequence (before ++ after) := by
  apply sequence_unique
  · intro k _ inside
    rw [atPosition?_without placeless, sequence_getElem? inside]
  · intro _
    rw [atPosition?_without placeless, sequence_gap]

theorem afterGap?_without (placeless : ∀ n, ¬TakesPlace n entry.1) :
    afterGap? (before ++ entry :: after) = afterGap? (before ++ after) := by
  have nowhere : position? entry.1 = none := by
    cases placed : position? entry.1 with
    | none => rfl
    | some n => exact absurd (position?_eq_some_iff.mp placed) (placeless n)
  simp only [afterGap?, sequence_without placeless, atPosition?_without placeless,
    List.filterMap_append, List.filterMap_cons, nowhere]

end Placeless

/-! ### The sequence of names -/

/-- The images up to `count` are there under their names, and the next one is not. -/
structure Unbroken (entries : List (String × α)) (count : Nat) : Prop where
  present : ∀ n, 1 ≤ n → n ≤ count → imageName n ∈ entries.map Prod.fst
  missing : imageName (count + 1) ∉ entries.map Prod.fst

/-- An entry whose number has a plus sign takes the place of an image: it stands behind the image in
the directory, or goes on with the sequence where an image is missing. -/
def Displaced (entries : List (String × α)) (count : Nat) : Prop :=
  (∃ n ≤ count, ∃ (i j : Nat) (entry other : String × α), i < j ∧ entries[i]? = some entry ∧
    entry.1 = imageName n ∧ entries[j]? = some other ∧ PlusNamed n other.1) ∨
  ∃ other ∈ entries, PlusNamed (count + 1) other.1

theorem exists_unbroken (entries : List (String × α)) : ∃ count, Unbroken entries count := by
  obtain ⟨count, -, present, missing⟩ :=
    exists_first_missing (fun k => imageName (k + 1)) (entries.map Prod.fst)
      fun i j _ _ same => Nat.succ.inj (imageName_injective same)
  refine ⟨count, ?_, missing⟩
  intro n positive within
  have := present (n - 1) (by omega)
  rwa [Nat.sub_add_cancel positive] at this

theorem Unbroken.unique {m n : Nat} (first : Unbroken entries m) (second : Unbroken entries n) :
    m = n := by
  rcases Nat.lt_trichotomy m n with less | same | more
  · exact absurd (second.present (m + 1) (by omega) less) first.missing
  · exact same
  · exact absurd (first.present (n + 1) (by omega) more) second.missing

variable {count : Nat}

/-- An image that nothing displaces is the entry at its place. -/
theorem Unbroken.atPosition? (unbroken : Unbroken entries count)
    (undisturbed : ¬Displaced entries count) (small : count < UInt32.size) {n : Nat}
    (positive : 1 ≤ n) (within : n ≤ count) :
    ∃ content, MultiDex.atPosition? entries n = some (imageName n, content) := by
  obtain ⟨plain, member, named⟩ := List.mem_map.mp (unbroken.present n positive within)
  obtain ⟨i, there⟩ := List.mem_iff_getElem?.mp member
  have placed : position? plain.1 = some n := by
    rw [named, position?_imageName positive (by omega)]
  cases found : MultiDex.atPosition? entries n with
  | none => exact absurd placed (atPosition?_none.mp found plain member)
  | some entry =>
    obtain ⟨itsPlace, j, here, last⟩ := atPosition?_some found
    obtain ⟨-, -, same⟩ | plus := position?_eq_some_iff.mp itsPlace
    · exact ⟨entry.2, by rw [← same]⟩
    · -- the plain entry is not behind the one that was found, so it is displaced or the same
      have notBehind : ¬j < i := fun behind => last i plain behind there placed
      rcases Nat.lt_or_ge i j with before | equal
      · exact absurd (.inl ⟨n, within, i, j, plain, entry, before, there, named, here, plus⟩)
          undisturbed
      · obtain rfl : i = j := by omega
        rw [there] at here
        obtain rfl := Option.some.inj here
        exact ⟨plain.2, by rw [← named]⟩

theorem Unbroken.length_sequence (unbroken : Unbroken entries count)
    (undisturbed : ¬Displaced entries count) (small : count < UInt32.size) :
    (sequence entries).length = count := by
  rcases Nat.lt_trichotomy (sequence entries).length count with fewer | same | more
  · obtain ⟨content, found⟩ := unbroken.atPosition? undisturbed small
      (show 1 ≤ (sequence entries).length + 1 by omega) (by omega)
    rw [sequence_gap entries] at found
    cases found
  · exact same
  · -- an image beyond the sequence of names has a name with a plus sign
    have there := sequence_getElem? more
    rw [List.getElem?_eq_getElem more] at there
    have member := mem_of_atPosition? there.symm
    obtain ⟨-, -, named⟩ | plus := position?_eq_some_iff.mp (atPosition?_some there.symm).1
    · exact absurd (List.mem_map.mpr ⟨_, member, named⟩) unbroken.missing
    · exact absurd (.inr ⟨_, member, plus⟩) undisturbed

/-- No image has a number that 32 bits cannot hold. -/
theorem length_sequence_lt (entries : List (String × α)) :
    (sequence entries).length < UInt32.size := by
  cases length : (sequence entries).length with
  | zero => decide
  | succ last =>
    -- the place of the last image is a number that was read
    have inside : last < (sequence entries).length := by omega
    have there := sequence_getElem? inside
    rw [List.getElem?_eq_getElem inside] at there
    obtain ⟨-, fits, -⟩ | plus := position?_eq_some_iff.mp (atPosition?_some there.symm).1
    · exact fits
    · exact plus.fits

/-- The images have the names of the unbroken sequence just if 32 bits are enough to number them and
none of them is displaced. -/
theorem sequence_names_iff (distinct : (entries.map Prod.fst).Nodup)
    (unbroken : Unbroken entries count) :
    (sequence entries).map Prod.fst = (List.range count).map (fun k => imageName (k + 1)) ↔
      count < UInt32.size ∧ ¬Displaced entries count := by
  constructor
  · intro names
    have length : (sequence entries).length = count := by
      simpa using congrArg List.length names
    refine ⟨length ▸ length_sequence_lt entries, fun displaced => ?_⟩
    rcases displaced with ⟨n, within, i, j, plain, other, before, there, named, behind, plus⟩ |
      ⟨other, member, plus⟩
    · have numbered := plus.numbered
      have inside : n - 1 < (sequence entries).length := by omega
      -- the image at this place is the entry of that name, and there is only one
      have image : (sequence entries)[n - 1]?.map Prod.fst = some (imageName n) := by
        rw [← List.getElem?_map, names]
        simp [show n - 1 < count by omega, Nat.sub_add_cancel (show 1 ≤ n by omega)]
      rw [sequence_getElem? inside, Nat.sub_add_cancel (by omega)] at image
      obtain ⟨entry, found, sameName⟩ := Option.map_eq_some_iff.mp image
      obtain ⟨-, i', here, last⟩ := atPosition?_some found
      have same : i = i' := by
        have iInside := (List.getElem?_eq_some_iff.mp there).1
        apply (List.getElem?_inj (by simpa using iInside) distinct).mp
        rw [List.getElem?_map, List.getElem?_map, there, here, Option.map_some, Option.map_some,
          named, sameName]
      exact last j other (same ▸ before) behind (position?_plusNamed plus)
    · have gap := sequence_gap entries
      rw [length, atPosition?_none] at gap
      exact gap other member (position?_plusNamed plus)
  · rintro ⟨small, undisturbed⟩
    have length := unbroken.length_sequence undisturbed small
    apply List.ext_getElem?
    intro k
    rw [List.getElem?_map, List.getElem?_map]
    rcases Nat.lt_or_ge k count with inside | outside
    · obtain ⟨content, found⟩ :=
        unbroken.atPosition? undisturbed small (show 1 ≤ k + 1 by omega) (by omega)
      rw [sequence_getElem? (length ▸ inside), found]
      simp [inside]
    · rw [List.getElem?_eq_none (by omega), List.getElem?_eq_none (by simpa using outside),
        Option.map_none, Option.map_none]

/-- Without a plus sign in any name nothing is displaced. -/
theorem not_displaced (plain : ∀ entry ∈ entries, '+' ∉ entry.1.toList) :
    ¬Displaced entries count := by
  have noPlus {n : Nat} {entry : String × α} (member : entry ∈ entries) :
      ¬PlusNamed n entry.1 := by
    rintro ⟨-, -, digits, -, -, -, named⟩
    apply plain entry member
    simp [named]
  rintro (⟨n, -, i, j, entry, other, -, -, -, there, plus⟩ | ⟨other, member, plus⟩)
  · exact noPlus (List.mem_of_getElem? there) plus
  · exact noPlus member plus

end MultiDex

end DexAtlas
