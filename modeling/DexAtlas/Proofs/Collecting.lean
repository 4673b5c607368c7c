import DexAtlas.Reader

/-!
# Lists of items

A reader that follows another one starts where that one stopped. A list is read by repeating this,
and what a whole list does is said here once, in three forms: a list is read just if its items can be
read one behind the other (`collect_ok_iff`); what every item keeps is kept by the list
(`collect_invariant`); and a judgment about readers that goes through sequences goes through lists
(`collect_of_bind`).
-/
namespace DexAtlas.Reader

variable {α β : Type}

/-! ### Sequences -/

theorem bind_ok {reader : Reader α} {next : α → Reader β} {bytes : Bytes} {cursor after : Cursor}
    {b : β} (ran : (reader >>= next) bytes cursor = .ok b after) :
    ∃ a middle, reader bytes cursor = .ok a middle ∧ next a bytes middle = .ok b after := by
  change EStateM.bind (reader bytes) (fun a => next a bytes) cursor = _ at ran
  unfold EStateM.bind at ran
  split at ran
  next a middle first => exact ⟨a, middle, first, ran⟩
  next => cases ran

theorem bind_of_ok {reader : Reader α} {next : α → Reader β} {bytes : Bytes}
    {cursor middle : Cursor} {a : α} (ran : reader bytes cursor = .ok a middle) :
    (reader >>= next) bytes cursor = next a bytes middle := by
  change EStateM.bind (reader bytes) (fun a => next a bytes) cursor = _
  rw [EStateM.bind, ran]

/-! ### Lists -/

/-- The items are read one behind the other, the first of them as the one at `place`. -/
inductive Reads (item : Nat → Reader α) (bytes : Bytes) : Nat → Cursor → List α → Cursor → Prop
  | nil (place : Nat) (cursor : Cursor) : Reads item bytes place cursor [] cursor
  | cons {place : Nat} {cursor middle after : Cursor} {a : α} {rest : List α}
      (first : item place bytes cursor = .ok a middle)
      (others : Reads item bytes (place + 1) middle rest after) :
      Reads item bytes place cursor (a :: rest) after

section Collect

variable {item : Nat → Reader α} {bytes : Bytes}

private theorem collect_more_ok_iff {left : Nat} {done items : Array α} {cursor after : Cursor} :
    collect.more item left done bytes cursor = .ok items after ↔
      ∃ rest, rest.length = left ∧ items = done ++ rest.toArray ∧
        Reads item bytes done.size cursor rest after := by
  induction left generalizing done cursor with
  | zero =>
    constructor
    · rintro ⟨⟩
      exact ⟨[], rfl, by simp, .nil _ _⟩
    · rintro ⟨rest, none, rfl, run⟩
      obtain rfl := List.length_eq_zero_iff.mp none
      cases run
      rw [Array.append_empty]
      rfl
  | succ left ih =>
    constructor
    · intro ran
      obtain ⟨a, middle, first, ran⟩ := bind_ok ran
      obtain ⟨rest, counted, rfl, others⟩ := ih.mp ran
      rw [Array.size_push] at others
      exact ⟨a :: rest, by rw [List.length_cons, counted], by simp, .cons first others⟩
    · rintro ⟨rest, counted, rfl, run⟩
      cases run with
      | nil => cases counted
      | @cons _ _ _ _ a rest first others =>
        rw [collect.more, bind_of_ok first, ih]
        exact ⟨rest, Nat.succ.inj counted, by simp, by rwa [Array.size_push]⟩

/-- A list is read just if it has as many items as were asked for, and they can be read one behind
the other. -/
theorem collect_ok_iff {count : Nat} {items : Array α} {cursor after : Cursor} :
    collect count item bytes cursor = .ok items after ↔
      items.size = count ∧ Reads item bytes 0 cursor items.toList after := by
  rw [collect, collect_more_ok_iff]
  constructor
  · rintro ⟨rest, rfl, rfl, run⟩
    simpa using run
  · rintro ⟨rfl, run⟩
    exact ⟨items.toList, by simp, by simp, run⟩

theorem size_collect {count : Nat} {items : Array α} {cursor after : Cursor}
    (ran : collect count item bytes cursor = .ok items after) : items.size = count :=
  (collect_ok_iff.mp ran).1

theorem Reads.invariant {kept : Cursor → List α → Prop}
    (step : ∀ cursor done a after, item done.length bytes cursor = .ok a after →
      kept cursor done → kept after (done ++ [a]))
    {place : Nat} {cursor after : Cursor} {rest : List α}
    (run : Reads item bytes place cursor rest after) :
    ∀ done, done.length = place → kept cursor done → kept after (done ++ rest) := by
  induction run with
  | nil place cursor =>
    intro done _ before
    rwa [List.append_nil]
  | @cons place cursor middle after a rest first others ih =>
    rintro done rfl before
    have next := ih (done ++ [a]) (by simp) (step cursor done a middle first before)
    rwa [List.append_assoc, List.singleton_append] at next

/-- What holds before the first item and is kept by each of them holds behind the last. -/
theorem collect_invariant (kept : Cursor → List α → Prop)
    (step : ∀ cursor done a after, item done.length bytes cursor = .ok a after →
      kept cursor done → kept after (done ++ [a]))
    {count : Nat} {items : Array α} {cursor after : Cursor}
    (ran : collect count item bytes cursor = .ok items after) (start : kept cursor []) :
    kept after items.toList :=
  (collect_ok_iff.mp ran).2.invariant step [] rfl start

/-- A judgment holds of a list if it holds of a reader that only returns its items, and an item can
be put in front of every reader of which it holds. -/
theorem collect_of_bind (judged : Reader (Array α) → Prop) (ends : ∀ items, judged (pure items))
    (goes : ∀ place next, (∀ a, judged (next a)) → judged (item place >>= next)) (count : Nat) :
    judged (collect count item) := by
  have more : ∀ left done, judged (collect.more item left done) := by
    intro left
    induction left with
    | zero => exact ends
    | succ left ih => exact fun done => goes done.size _ fun a => ih (done.push a)
  exact more count #[]

end Collect

end DexAtlas.Reader
