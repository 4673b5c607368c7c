import DexAtlas.Proofs.Building
import DexAtlas.Proofs.OwnMethods

/-!
# Passing over bad images

An input that does not load leaves no trace in the package but its failure. Every image is first
loaded under its position in the input. That number is stored and not looked at, so the images that
are left can be numbered again from zero, and then they are the ones that would have been loaded had
the bad inputs never been given. The graph is built after that and is therefore the same as well.
-/
namespace DexAtlas

/-- A load is never given up without being asked to. -/
theorem Image.load_running {name : String} {index : Nat} {bytes : Bytes} {e : Error}
    (failed : (load name index bytes false).outcome = .error e) : e.kind ≠ .cancelled := by
  cases refused_of_load failed with
  | unread _ kind => rcases kind with kind | kind <;> simp [kind]
  | undecoded _ _ _ _ kind => simp [kind]
  | hidden => simp [Error.of, Error.kind, Cause.kind]

namespace Package

/-! ### Inputs that load -/

/-- Whether an input loads. -/
def loads (input : String × Bytes) : Bool := (outcomeOf false (input, 0)).isOk

/-- The images of the inputs that load, none of them numbered yet. -/
def imagesOf (inputs : List (String × Bytes)) : List Image :=
  inputs.filterMap fun input => (outcomeOf false (input, 0)).toOption

theorem outcomeOf_index (input : String × Bytes) (position other : Nat) :
    outcomeOf false (input, other) =
      (outcomeOf false (input, position)).map fun image => { image with index := other } :=
  Image.load_index _ _ _ _ _

/-- An input fails at whatever position it stands, or at none. -/
theorem isSome_failureOf? (input : String × Bytes) (position : Nat) :
    (failureOf? false (input, position)).isSome = !loads input := by
  rw [failureOf?, outcomeOf_index input 0, loads]
  cases outcomeOf false (input, 0) <;> rfl

private theorem toOption_index (input : (String × Bytes) × Nat) :
    (outcomeOf false input).toOption.map (fun image => { image with index := 0 }) =
      (outcomeOf false (input.1, 0)).toOption := by
  rw [outcomeOf_index input.1 input.2 0]
  cases outcomeOf false input <;> rfl

/-- Whatever numbers the images were loaded under, they end up the same. -/
theorem renumber_loaded (inputs : List (String × Bytes)) :
    renumber (inputs.zipIdx.filterMap fun input => (outcomeOf false input).toOption).toArray =
      renumber (imagesOf inputs).toArray := by
  have unnumbered : (inputs.zipIdx.filterMap fun input => (outcomeOf false input).toOption).map
      (fun image => { image with index := 0 }) = imagesOf inputs := by
    rw [List.map_filterMap]
    simp only [toOption_index]
    have positions : (inputs.zipIdx.map Prod.fst).filterMap
        (fun input => (outcomeOf false (input, 0)).toOption) = imagesOf inputs := by
      rw [List.zipIdx_map_fst]
      rfl
    rwa [List.filterMap_map] at positions
  -- numbering again overwrites the zeros as it does the positions
  apply Array.ext_getElem?
  intro place
  rw [← unnumbered]
  simp [getElem?_renumber, Function.comp_def]

theorem loadAll_images_eq (inputs : List (String × Bytes)) :
    (loadAll false inputs).images = renumber (imagesOf inputs).toArray := by
  rw [loadAll_images, renumber_loaded]

theorem imagesOf_filter (inputs : List (String × Bytes)) :
    imagesOf (inputs.filter loads) = imagesOf inputs := by
  rw [imagesOf, List.filterMap_filter, imagesOf]
  congr
  funext input
  cases outcome : outcomeOf false (input, 0) with
  | ok image => simp [loads, outcome, Except.isOk, Except.toBool]
  | error e => simp [Except.toOption]

/-- The image at a place comes from the input at that place among those that load. -/
theorem getElem?_imagesOf (inputs : List (String × Bytes)) (place : Nat) :
    (imagesOf inputs)[place]? = ((inputs.filter loads)[place]?).bind fun input =>
      (outcomeOf false (input, 0)).toOption := by
  induction inputs generalizing place with
  | nil => rfl
  | cons input rest ih =>
    cases outcome : outcomeOf false (input, 0) with
    | error e =>
      have bad : loads input = false := by simp [loads, outcome, Except.isOk, Except.toBool]
      simpa [imagesOf, outcome, Except.toOption, bad] using ih place
    | ok image =>
      have good : loads input = true := by simp [loads, outcome, Except.isOk, Except.toBool]
      cases place with
      | zero => simp [imagesOf, outcome, Except.toOption, good]
      | succ place => simpa [imagesOf, outcome, Except.toOption, good] using ih place

/-! ### Opening -/

theorem loadAll_failures_filter (inputs : List (String × Bytes)) :
    (loadAll false (inputs.filter loads)).failures.toList = [] := by
  rw [loadAll_failures, List.filterMap_eq_nil_iff]
  intro input listed
  have good := (List.mem_filter.mp (List.fst_mem_of_mem_zipIdx listed)).2
  have settled := isSome_failureOf? input.1 input.2
  rw [good] at settled
  simpa using settled

theorem loadAll_running (inputs : List (String × Bytes)) {options : Options}
    (running : options.cancelled = false) :
    (loadAll false inputs).isCancelled options = false := by
  rw [Loaded.isCancelled, running, Bool.false_or, ← Array.any_toList, loadAll_failures,
    List.any_eq_false]
  intro failure listed
  obtain ⟨input, -, failed⟩ := List.mem_filterMap.mp listed
  unfold failureOf? at failed
  split at failed
  · cases failed
  next e outcome =>
    obtain rfl := Option.some.inj failed
    simpa using Image.load_running outcome

/-- What opening comes to while no one asks to stop. -/
theorem ofImages_running {inputs : List (String × Bytes)} {keepUses : Bool} {graph : Graph}
    (built : (Graph.build false keepUses (loadAll false inputs).images.toList).outcome = .ok graph)
    (skip : Bool) :
    (ofImages inputs { skipBadImages := skip, keepUses }).outcome =
      if skip = false ∧ (loadAll false inputs).failures.toList ≠ [] then
        .error (.images (loadAll false inputs).failures.toList)
      else .ok ⟨(loadAll false inputs).images, graph, (loadAll false inputs).failures.toList⟩ := by
  simp only [ofImages, loadAll_running, Bool.false_eq_true, if_false, built]
  cases skip with
  | true => simp
  | false => by_cases none : (loadAll false inputs).failures = #[] <;> simp [none]

/-- An image that is passed over might as well not have been given. The images and the graph are
those of the inputs that load, numbered by their places among them, and each of the others is
listed with its name, its position and its error. Where no failure may be passed over, the package
opens exactly if there is none, and is the same then. -/
theorem ofImages_skips (inputs : List (String × Bytes)) (keepUses : Bool) :
    ∃ package,
      (ofImages inputs { skipBadImages := true, keepUses }).outcome = .ok package ∧
      (∀ skip, (ofImages (inputs.filter loads) { skipBadImages := skip, keepUses }).outcome =
        .ok { package with failures := [] }) ∧
      (∀ (place : Nat) (image : Image), package.images[place]? = some image ↔
        ∃ name bytes, (inputs.filter loads)[place]? = some (name, bytes) ∧
          (Image.load name place bytes false).outcome = .ok image) ∧
      package.failures = inputs.zipIdx.filterMap (failureOf? false) ∧
      (∀ input position, (failureOf? false (input, position)).isSome = !loads input) ∧
      (ofImages inputs { skipBadImages := false, keepUses }).outcome =
        if package.failures = [] then .ok package else .error (.images package.failures) := by
  -- the graph depends on the images alone, so one graph serves for both inputs
  obtain ⟨graph, built, -⟩ := Graph.build_populated (loadAll_numbered false inputs) keepUses
  have sameImages : (loadAll false (inputs.filter loads)).images = (loadAll false inputs).images := by
    rw [loadAll_images_eq, imagesOf_filter, loadAll_images_eq]
  refine ⟨⟨(loadAll false inputs).images, graph, (loadAll false inputs).failures.toList⟩,
    ?_, ?_, ?_, loadAll_failures false inputs, isSome_failureOf?, ?_⟩
  · simp [ofImages_running built]
  · intro skip
    rw [ofImages_running (sameImages ▸ built), loadAll_failures_filter, sameImages]
    simp
  · intro place image
    rw [loadAll_images_eq, getElem?_renumber, List.getElem?_toArray, getElem?_imagesOf]
    constructor
    · intro found
      obtain ⟨old, there, rfl⟩ := Option.map_eq_some_iff.mp found
      obtain ⟨⟨name, bytes⟩, listed, loaded⟩ := Option.bind_eq_some_iff.mp there
      refine ⟨name, bytes, listed, ?_⟩
      rw [Image.load_index name 0, show (Image.load name 0 bytes false).outcome = .ok old from
        toOption_eq_some.mp loaded]
      rfl
    · rintro ⟨name, bytes, listed, loaded⟩
      have unnumbered := Image.load_index name place 0 bytes false
      obtain ⟨-, rfl, -⟩ := Image.load_ok loaded
      rw [loaded] at unnumbered
      rw [listed, Option.bind_some, show (outcomeOf false ((name, bytes), 0)) = _ from unnumbered]
      rfl
  · rw [ofImages_running built]
    simp only [true_and, ne_eq, ite_not]

/-- A bad input before a good one: the good one has number zero, the bad one keeps its position. -/
theorem ofImages_skips_sample :
    ∃ package e, (ofImages [("empty.dex", #[]), ("classes.dex", Sample.bytes)]
        { skipBadImages := true }).outcome = .ok package ∧
      package.images[0]? = some Sample.image ∧ package.failures = [⟨"empty.dex", 0, e⟩] := by
  obtain ⟨package, opened, -, images, failures, -⟩ :=
    ofImages_skips [("empty.dex", #[]), ("classes.dex", Sample.bytes)] true
  obtain ⟨e, bad⟩ : ∃ e, outcomeOf false (("empty.dex", #[]), 0) = .error e := ⟨_, rfl⟩
  have good (index : Nat) : ∃ image, outcomeOf false (("classes.dex", Sample.bytes), index) =
      .ok image := by
    rw [outcomeOf]
    exact ⟨_, Sample.loadedAs "classes.dex" index⟩
  obtain ⟨first, asFirst⟩ := good 0
  obtain ⟨second, asSecond⟩ := good 1
  refine ⟨package, e, opened, (images 0 Sample.image).mpr ?_, ?_⟩
  · have left : loads ("empty.dex", #[]) = false := by rw [loads, bad]; rfl
    have kept : loads ("classes.dex", Sample.bytes) = true := by rw [loads, asFirst]; rfl
    refine ⟨"classes.dex", Sample.bytes, ?_, Sample.loaded⟩
    rw [List.filter_cons_of_neg (ne_true_of_eq_false left), List.filter_cons_of_pos kept]
    rfl
  · have failed : failureOf? false (("empty.dex", #[]), 0) = some ⟨"empty.dex", 0, e⟩ := by
      rw [failureOf?, bad]
    have passed : failureOf? false (("classes.dex", Sample.bytes), 1) = none := by
      rw [failureOf?, asSecond]
    rw [failures, List.zipIdx_cons, List.zipIdx_singleton, List.filterMap_cons_some failed,
      List.filterMap_cons_none passed, List.filterMap_nil]

end Package

end DexAtlas
