import DexAtlas.Proofs.Registry
import Mathlib.Data.List.Induction

/-!
# Runs of a registry

Any names and records in any order, from an empty registry on. The names in the order of first sight
say all about the keys: a name has the key that counts the names before it. What one call does to
this order is settled first, then what a whole run does, by induction on its last call. That a record
leads to an entity takes more: its key must be one that the registry gave out before.
-/
namespace DexAtlas.Registry

variable {kind : EntityKind} {α : Type}

/-! ### Calls and answers -/

/-- A call that can change a registry. -/
inductive Call (kind : EntityKind) (α : Type) where
  | intern (name : String) (make : Key kind → α)
  | bind (record : Record) (key : Key kind)

def Call.name? : Call kind α → Option String
  | .intern name _ => some name
  | .bind .. => none

inductive Answer (kind : EntityKind) where
  | interned (key : Key kind) (created : Bool)
  | bound (outcome : Except Cause Unit)

/-- The key that came with a new entity. -/
def Answer.created? : Answer kind → Option (Key kind)
  | .interned key true => some key
  | _ => none

def perform (registry : Registry kind α) : Call kind α → Answer kind × Registry kind α
  | .intern name make =>
    let result := registry.intern name make
    (.interned result.1.1 result.1.2, result.2)
  | .bind record key =>
    let result := registry.bind record key
    (.bound result.1, result.2)

/-- The registry after calls, one after the other. -/
def performAll (registry : Registry kind α) (calls : List (Call kind α)) : Registry kind α :=
  calls.foldl (fun registry call => (registry.perform call).2) registry

/-- What each of the calls is answered. -/
def answers (registry : Registry kind α) : List (Call kind α) → List (Answer kind)
  | [] => []
  | call :: rest => (registry.perform call).1 :: (registry.perform call).2.answers rest

/-- An empty registry after calls. -/
def after (calls : List (Call kind α)) : Registry kind α := performAll {} calls

/-- What an empty registry answers to calls. -/
def answered (calls : List (Call kind α)) : List (Answer kind) :=
  answers ({} : Registry kind α) calls

variable {calls : List (Call kind α)}

@[simp] theorem after_nil : after ([] : List (Call kind α)) = {} := rfl

@[simp] theorem answered_nil : answered ([] : List (Call kind α)) = [] := rfl

@[simp] theorem after_snoc (calls : List (Call kind α)) (call : Call kind α) :
    after (calls ++ [call]) = ((after calls).perform call).2 := by
  simp [after, performAll]

theorem answers_snoc (registry : Registry kind α) (calls : List (Call kind α))
    (call : Call kind α) :
    registry.answers (calls ++ [call]) =
      registry.answers calls ++ [((registry.performAll calls).perform call).1] := by
  induction calls generalizing registry with
  | nil => rfl
  | cons first rest ih => simp [answers, performAll, ih]

@[simp] theorem answered_snoc (calls : List (Call kind α)) (call : Call kind α) :
    answered (calls ++ [call]) = answered calls ++ [((after calls).perform call).1] :=
  answers_snoc _ _ _

/-! ### Names in the order of first sight -/

/-- The names that occur in calls, each where it is seen first. -/
def sighted (calls : List (Call kind α)) : List String :=
  (calls.filterMap Call.name?).eraseDups

theorem sighted_intern (calls : List (Call kind α)) (name : String) (make : Key kind → α) :
    sighted (calls ++ [.intern name make]) =
      if name ∈ sighted calls then sighted calls else sighted calls ++ [name] := by
  simp only [sighted, List.filterMap_append, List.filterMap_cons, Call.name?, List.filterMap_nil,
    List.eraseDups_append, List.mem_eraseDups]
  generalize calls.filterMap Call.name? = names
  by_cases seen : name ∈ names <;> simp [List.removeAll, List.eraseDups_cons, seen]

@[simp] theorem sighted_bind (calls : List (Call kind α)) (record : Record) (key : Key kind) :
    sighted (calls ++ [.bind record key]) = sighted calls := by
  simp only [sighted, List.filterMap_append, List.filterMap_cons, Call.name?, List.filterMap_nil,
    List.append_nil]

/-- The registry has an entity for each name that was sighted, and the name's place is its key. -/
structure Tracks (names : List String) (registry : Registry kind α) : Prop where
  size : registry.arena.size = names.length
  names : ∀ {name : String} {key : Key kind}, registry.byName[name]? = some key ↔
    ∃ index, names[index]? = some name ∧ key = Key.ofIndex index

namespace Tracks

variable {names : List String} {registry : Registry kind α}

theorem mem_iff (tracks : Tracks names registry) {name : String} :
    name ∈ names ↔ ∃ key, registry.byName[name]? = some key := by
  rw [List.mem_iff_getElem?]
  constructor
  · rintro ⟨index, there⟩
    exact ⟨_, tracks.names.mpr ⟨index, there, rfl⟩⟩
  · rintro ⟨key, known⟩
    obtain ⟨index, there, -⟩ := tracks.names.mp known
    exact ⟨index, there⟩

theorem intern_known (tracks : Tracks names registry) {name : String} (make : Key kind → α)
    {index : Nat} (there : names[index]? = some name) :
    registry.intern name make = ((Key.ofIndex index, false), registry) := by
  have known := tracks.names.mpr ⟨index, there, rfl⟩
  simp [intern, known]

theorem intern_new (tracks : Tracks names registry) {name : String} (make : Key kind → α)
    (new : name ∉ names) :
    registry.intern name make = ((Key.ofIndex names.length, true), { registry with
      arena := registry.arena.push (make (Key.ofIndex names.length))
      byName := registry.byName.insert name (Key.ofIndex names.length) }) := by
  rcases registry.intern_cases name make with ⟨key, known, -⟩ | ⟨-, result⟩
  · exact absurd (tracks.mem_iff.mpr ⟨key, known⟩) new
  · rw [result, tracks.size]

/-- A new name is put behind the others. -/
theorem push (tracks : Tracks names registry) {name : String} (make : Key kind → α)
    (new : name ∉ names) : Tracks (names ++ [name]) (registry.intern name make).2 := by
  rw [tracks.intern_new make new]
  constructor
  · simp [tracks.size]
  · intro other key
    simp only [Std.HashMap.getElem?_insert, beq_iff_eq]
    by_cases same : name = other
    · subst same
      simp only [if_true, Option.some.injEq]
      constructor
      · rintro rfl
        exact ⟨names.length, by simp, rfl⟩
      · rintro ⟨index, there, rfl⟩
        -- the name is not among the older ones, so its place is the last
        rcases Nat.lt_or_ge index names.length with old | last
        · rw [List.getElem?_append_left old] at there
          exact absurd (List.mem_of_getElem? there) new
        · have inside := (List.getElem?_eq_some_iff.mp there).1
          rw [List.length_append, List.length_singleton] at inside
          congr 1
          omega
    · simp only [same, if_false, tracks.names]
      constructor
      · rintro ⟨index, there, rfl⟩
        have inside := (List.getElem?_eq_some_iff.mp there).1
        exact ⟨index, by rw [List.getElem?_append_left inside, there], rfl⟩
      · rintro ⟨index, there, rfl⟩
        rcases Nat.lt_or_ge index names.length with old | last
        · rw [List.getElem?_append_left old] at there
          exact ⟨index, there, rfl⟩
        · rw [List.getElem?_append_right last] at there
          have := List.mem_of_getElem? there
          simp [same, eq_comm] at this

theorem bind (tracks : Tracks names registry) (record : Record) (key : Key kind) :
    Tracks names (registry.bind record key).2 := by
  constructor
  · simpa using tracks.size
  · intro name key
    simpa using tracks.names

end Tracks

/-- After any calls the registry follows the names that they sighted. -/
theorem tracks_after (calls : List (Call kind α)) : Tracks (sighted calls) (after calls) := by
  induction calls using List.reverseRecOn with
  | nil => exact ⟨rfl, by simp [sighted]⟩
  | append_singleton calls call ih =>
    cases call with
    | intern name make =>
      rw [sighted_intern, after_snoc]
      split
      next seen =>
        obtain ⟨index, there⟩ := List.mem_iff_getElem?.mp seen
        simp only [perform, ih.intern_known make there]
        exact ih
      next new => exact ih.push make new
    | bind record key =>
      rw [sighted_bind, after_snoc]
      exact ih.bind record key

/-! ### Growth along a run -/

theorem extends_perform (registry : Registry kind α) (call : Call kind α) :
    Extends registry (registry.perform call).2 := by
  cases call with
  | intern name make => exact .intern registry name make
  | bind record key => exact .bind registry record key

theorem extends_after (before rest : List (Call kind α)) :
    Extends (after before) (after (before ++ rest)) := by
  induction rest using List.reverseRecOn with
  | nil => simpa using Extends.refl _
  | append_singleton rest call ih =>
    rw [← List.append_assoc, after_snoc]
    exact ih.trans (extends_perform _ call)

/-- No call touches an entity that is there. -/
theorem get?_perform {registry : Registry kind α} {key : Key kind} {entity : α}
    (present : registry.get? key = some entity) (call : Call kind α) :
    (registry.perform call).2.get? key = some entity := by
  cases call with
  | intern name make =>
    rcases registry.get?_intern name make key with same | ⟨absent, -⟩
    · exact same.trans present
    · rw [present] at absent
      cases absent
  | bind record other => simpa [perform, get?] using present

theorem get?_after {before : List (Call kind α)} {key : Key kind} {entity : α}
    (present : (after before).get? key = some entity) (rest : List (Call kind α)) :
    (after (before ++ rest)).get? key = some entity := by
  induction rest using List.reverseRecOn with
  | nil => simpa using present
  | append_singleton rest call ih =>
    rw [← List.append_assoc, after_snoc]
    exact get?_perform ih call

/-! ### Keys that were given out -/

theorem created_answered (calls : List (Call kind α)) :
    (answered calls).filterMap Answer.created? =
      (List.range (sighted calls).length).map Key.ofIndex := by
  induction calls using List.reverseRecOn with
  | nil => rfl
  | append_singleton calls call ih =>
    have tracks := tracks_after calls
    rw [answered_snoc, List.filterMap_append, ih]
    cases call with
    | intern name make =>
      rw [sighted_intern]
      split
      next seen =>
        obtain ⟨index, there⟩ := List.mem_iff_getElem?.mp seen
        simp [perform, tracks.intern_known make there, Answer.created?]
      next new => simp [perform, tracks.intern_new make new, Answer.created?, List.range_succ]
    | bind record key => simp [perform, Answer.created?]

/-- A key that was given out stands for an entity. -/
theorem contains_of_answered {key : Key kind} {created : Bool}
    (given : .interned key created ∈ answered calls) : (after calls).contains key = true := by
  induction calls using List.reverseRecOn with
  | nil => cases given
  | append_singleton calls call ih =>
    have grown := extends_perform (after calls) call
    rw [answered_snoc, List.mem_append, List.mem_singleton] at given
    rw [after_snoc]
    rcases given with earlier | last
    · exact grown.contains (ih earlier)
    · cases call with
      | bind => cases last
      | intern name make =>
        obtain ⟨rfl, rfl⟩ := Answer.interned.inj last
        have tracks := tracks_after (calls ++ [.intern name make])
        rw [after_snoc] at tracks
        obtain ⟨index, there, same⟩ := tracks.names.mp ((after calls).byName_intern name make)
        have inside := (List.getElem?_eq_some_iff.mp there).1
        rw [contains, decide_eq_true_eq, same, tracks.size]
        exact Nat.lt_of_le_of_lt (Key.index_ofIndex_le index) inside

/-- Every record is bound to a key that an earlier call returned. -/
def Grounded (calls : List (Call kind α)) : Prop :=
  ∀ before record key rest, calls = before ++ .bind record key :: rest →
    ∃ created, .interned key created ∈ answered before

theorem Grounded.left {before rest : List (Call kind α)} (grounded : Grounded (before ++ rest)) :
    Grounded before := by
  intro earlier record key later split
  exact grounded earlier record key (later ++ rest) (by simp [split])

theorem contains_of_bound (grounded : Grounded calls) {record : Record} {key : Key kind}
    (bound : (after calls).byRecord[record]? = some key) : (after calls).contains key = true := by
  induction calls using List.reverseRecOn with
  | nil => simp at bound
  | append_singleton calls call ih =>
    have grown := extends_perform (after calls) call
    rw [after_snoc] at bound ⊢
    cases call with
    | intern name make =>
      have older : (after calls).byRecord[record]? = some key := by simpa [perform] using bound
      exact grown.contains (ih grounded.left older)
    | bind other given =>
      rcases (after calls).bind_cases other given with ⟨-, result⟩ | ⟨-, result⟩ | ⟨_, -, -, result⟩
      · simp only [perform, result, Std.HashMap.getElem?_insert, beq_iff_eq] at bound
        split at bound
        next same =>
          obtain rfl := Option.some.inj bound
          obtain ⟨created, earlier⟩ := grounded calls other given [] rfl
          exact grown.contains (contains_of_answered earlier)
        next => exact grown.contains (ih grounded.left bound)
      · simp only [perform, result] at bound
        exact grown.contains (ih grounded.left bound)
      · simp only [perform, result] at bound
        exact grown.contains (ih grounded.left bound)

/-! ### Identity -/

theorem sighted_length_lt (fits : (after calls).size < 2 ^ 32) {before rest : List (Call kind α)}
    (split : calls = before ++ rest) : (sighted before).length < 2 ^ 32 := by
  have grown := (extends_after before rest).size
  rw [← split, (tracks_after before).size] at grown
  exact Nat.lt_of_le_of_lt grown fits

theorem index_of_sighted (small : (sighted calls).length < 2 ^ 32) {index : Nat} {name : String}
    (there : (sighted calls)[index]? = some name) : (Key.ofIndex index : Key kind).index = index := by
  have inside := (List.getElem?_eq_some_iff.mp there).1
  exact Key.index_ofIndex_of_lt (Nat.lt_trans inside small)

/-- What holds of the names, the records and the entities of a registry that was empty before the
calls. The calls are split where something is said of one of them. -/
structure KeepsIdentity (calls : List (Call kind α)) : Prop where
  /-- New entities get the keys zero, one, two and so on, one for each name. -/
  counted : ((answered calls).filterMap Answer.created?).map Key.index =
    List.range (sighted calls).length
  /-- A name has the key that counts the names sighted before it. -/
  named : ∀ name key, (after calls).lookup? (.name name) = some key ↔
    (sighted calls)[key.index]? = some name
  /-- A new name gets the next key, and the entity that the call made for it stays there. -/
  created : ∀ before name make rest, calls = before ++ .intern name make :: rest →
    name ∉ sighted before → ∃ key, key.index = (sighted before).length ∧
      ((after before).perform (.intern name make)).1 = .interned key true ∧
      (after calls).get? key = some (make key)
  /-- A name that was sighted gets its first key again, and nothing changes. -/
  known : ∀ before name make rest, calls = before ++ .intern name make :: rest →
    name ∈ sighted before → ∃ key, (sighted before)[key.index]? = some name ∧
      (after before).perform (.intern name make) = (.interned key false, after before)
  /-- A name or a record that leads to a key leads there for good. -/
  lasting : ∀ before rest address key, calls = before ++ rest →
    (after before).lookup? address = some key → (after calls).lookup? address = some key
  /-- Binding fails just for a record that leads to another key, and then nothing changes. -/
  refused : ∀ before record key rest, calls = before ++ .bind record key :: rest →
    ((∃ cause, ((after before).perform (.bind record key)).1 = .bound (.error cause)) ↔
      ∃ other, (after before).lookup? (.record record) = some other ∧ other ≠ key) ∧
    ∀ cause, ((after before).perform (.bind record key)).1 = .bound (.error cause) →
      ((after before).perform (.bind record key)).2 = after before
  /-- A record that was bound without complaint leads to its key. -/
  bound : ∀ before record key rest, calls = before ++ .bind record key :: rest →
    ((after before).perform (.bind record key)).1 = .bound (.ok ()) →
      (after calls).lookup? (.record record) = some key
  /-- Every name and every record that leads to a key leads to an entity. -/
  resolved : ∀ address key, (after calls).lookup? address = some key →
    ∃ entity, (after calls).resolve? address = some entity

theorem counted_after (fits : (after calls).size < 2 ^ 32) :
    ((answered calls).filterMap Answer.created?).map Key.index =
      List.range (sighted calls).length := by
  have small := sighted_length_lt fits (List.append_nil calls).symm
  rw [created_answered, List.map_map]
  conv => rhs; rw [← List.map_id (List.range _)]
  apply List.map_congr_left
  intro index listed
  exact Key.index_ofIndex_of_lt (Nat.lt_trans (List.mem_range.mp listed) small)

theorem named_after (fits : (after calls).size < 2 ^ 32) (name : String) (key : Key kind) :
    (after calls).lookup? (.name name) = some key ↔ (sighted calls)[key.index]? = some name := by
  have small := sighted_length_lt fits (List.append_nil calls).symm
  rw [lookup?, (tracks_after calls).names]
  constructor
  · rintro ⟨index, there, rfl⟩
    rw [index_of_sighted small there, there]
  · intro there
    exact ⟨key.index, there, (Key.ofIndex_index key).symm⟩

theorem created_after {before rest : List (Call kind α)} {name : String} {make : Key kind → α}
    (small : (sighted before).length < 2 ^ 32) (new : name ∉ sighted before) :
    ∃ key, key.index = (sighted before).length ∧
      ((after before).perform (.intern name make)).1 = .interned key true ∧
      (after (before ++ .intern name make :: rest)).get? key = some (make key) := by
  have tracks := tracks_after before
  have result := tracks.intern_new make new
  have place : (Key.ofIndex (sighted before).length : Key kind).index = (sighted before).length :=
    Key.index_ofIndex_of_lt small
  have made : (after (before ++ [.intern name make])).get? (Key.ofIndex (sighted before).length) =
      some (make (Key.ofIndex (sighted before).length)) := by
    rw [after_snoc, get?, place]
    simp only [perform, result, ← tracks.size, Array.getElem?_push_size]
  refine ⟨_, place, by simp only [perform, result], ?_⟩
  simpa using get?_after made rest

theorem known_after {before : List (Call kind α)} {name : String} (make : Key kind → α)
    (small : (sighted before).length < 2 ^ 32) (seen : name ∈ sighted before) :
    ∃ key, (sighted before)[key.index]? = some name ∧
      (after before).perform (.intern name make) = (.interned key false, after before) := by
  obtain ⟨index, there⟩ := List.mem_iff_getElem?.mp seen
  refine ⟨Key.ofIndex index, by rw [index_of_sighted small there, there], ?_⟩
  simp only [perform, (tracks_after before).intern_known make there]

theorem lasting_after {before : List (Call kind α)} {address : Address} {key : Key kind}
    (leads : (after before).lookup? address = some key) (rest : List (Call kind α)) :
    (after (before ++ rest)).lookup? address = some key := by
  cases address with
  | record record => exact (extends_after before rest).records leads
  | name name => exact (extends_after before rest).names leads

theorem resolve?_of_contains {registry : Registry kind α} {address : Address} {key : Key kind}
    (leads : registry.lookup? address = some key) (present : registry.contains key = true) :
    ∃ entity, registry.resolve? address = some entity := by
  obtain ⟨entity, there⟩ := (registry.contains_iff key).mp present
  exact ⟨entity, by simp [resolve?, leads, there]⟩

/-- Identity is kept by every run of calls on an empty registry, as long as it has fewer than
`2 ^ 32` entities and every record is bound to a key that was given out before. -/
theorem keepsIdentity_of_grounded (grounded : Grounded calls) (fits : (after calls).size < 2 ^ 32) :
    KeepsIdentity calls where
  counted := counted_after fits
  named := named_after fits
  created := by
    rintro before name make rest rfl new
    exact created_after (sighted_length_lt fits rfl) new
  known := by
    rintro before name make rest split seen
    exact known_after make (sighted_length_lt fits split) seen
  lasting := by
    rintro before rest address key rfl leads
    exact lasting_after leads rest
  refused := by
    intro before record key rest _
    simp only [perform, lookup?]
    rcases (after before).bind_cases record key with ⟨free, result⟩ | ⟨same, result⟩ |
      ⟨other, elsewhere, apart, result⟩
    · simp [result, free]
    · simp [result, same]
    · simp [result, elsewhere, apart]
  bound := by
    rintro before record key rest rfl accepted
    have leads : (after (before ++ [.bind record key])).lookup? (.record record) = some key := by
      rw [after_snoc]
      exact byRecord_bind (Answer.bound.inj accepted)
    simpa using lasting_after leads rest
  resolved := by
    intro address key leads
    apply resolve?_of_contains leads
    cases address with
    | record record => exact contains_of_bound grounded leads
    | name name =>
      have there := (named_after fits name key).mp leads
      have inside := (List.getElem?_eq_some_iff.mp there).1
      rw [contains, decide_eq_true_eq, (tracks_after calls).size]
      exact inside

/-- Every key up to the number of names was given out. -/
theorem answered_of_lt {key : Key kind} (counted : key.index < (sighted calls).length) :
    .interned key true ∈ answered calls := by
  have listed : key ∈ (answered calls).filterMap Answer.created? := by
    rw [created_answered]
    exact List.mem_map.mpr ⟨key.index, List.mem_range.mpr counted, Key.ofIndex_index key⟩
  obtain ⟨answer, member, made⟩ := List.mem_filterMap.mp listed
  unfold Answer.created? at made
  split at made
  next => exact Option.some.inj made ▸ member
  next => cases made

/-- Two names, one of them twice, and a record that is bound to the one and then to the other. -/
def runSample : List (Call .strings (String × Nat)) :=
  [.intern "a" fun key => ("first", key.index),
    .intern "b" fun key => ("second", key.index),
    .bind ⟨0, 7⟩ ⟨0⟩,
    .intern "a" fun key => ("third", key.index),
    .bind ⟨0, 7⟩ ⟨1⟩,
    .bind ⟨1, 7⟩ ⟨1⟩]

theorem runSample_grounded : Grounded runSample := by
  intro before record key rest split
  refine ⟨true, answered_of_lt ?_⟩
  -- the three calls that bind a record are the third, the fifth and the sixth
  rcases before with _ | ⟨a, _ | ⟨b, _ | ⟨c, _ | ⟨d, _ | ⟨e, _ | ⟨f, before⟩⟩⟩⟩⟩⟩ <;>
    simp only [runSample, List.nil_append, List.cons_append, List.cons.injEq, reduceCtorEq,
      false_and, and_false, Call.bind.injEq, List.nil_eq, List.append_eq_nil_iff] at split
  · obtain ⟨rfl, rfl, ⟨rfl, rfl⟩, -⟩ := split
    decide
  · obtain ⟨rfl, rfl, rfl, rfl, ⟨rfl, rfl⟩, -⟩ := split
    decide
  · obtain ⟨rfl, rfl, rfl, rfl, rfl, ⟨rfl, rfl⟩, -⟩ := split
    decide

theorem keepsIdentity_of_grounded_sample :
    Grounded runSample ∧ (after runSample).size < 2 ^ 32 ∧ KeepsIdentity runSample ∧
      sighted runSample = ["a", "b"] := by
  have names : sighted runSample = ["a", "b"] := by decide
  have fits : (after runSample).size < 2 ^ 32 := by
    rw [size, (tracks_after runSample).size, names]
    decide
  exact ⟨runSample_grounded, fits, keepsIdentity_of_grounded runSample_grounded fits, names⟩

end DexAtlas.Registry
