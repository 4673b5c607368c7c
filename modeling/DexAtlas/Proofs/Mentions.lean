import DexAtlas.Proofs.Traffic

/-!
# Mentions

What the search of code adds to the traffic of a graph. Each reference that names an entity is noted
as one mention: at the method that makes it, at its target, and at the two classes if both are
known. The notes are separate steps of the builder, and the places where they are kept may coincide;
all of them together are `Traffic.add`. The main statement, `use_ok`, says what the use of any
reference does.
-/
namespace DexAtlas

/-- What is noted for one reference in code. -/
structure Mention where
  site : Site
  /-- The class of the method that holds the reference. -/
  source : Option ClassKey
  target : Target
  /-- The class that is used with the target, and how. -/
  used : Option (ClassKey × ClassUse)
  /-- Whether a field is written. -/
  write : Bool := false

namespace Traffic

/-- An edge is kept at both classes, where both are known. -/
def addEdge (traffic : Traffic) (source : Option ClassKey) (used : Option (ClassKey × ClassUse))
    (site : Site) : Traffic :=
  match source, used with
  | some a, some (b, use) => { traffic with
      outgoing := pushAt traffic.outgoing a ⟨b, use, site⟩
      incoming := pushAt traffic.incoming b ⟨a, use, site⟩ }
  | _, _ => traffic

@[simp] theorem addEdge_none (traffic : Traffic) (source : Option ClassKey) (site : Site) :
    traffic.addEdge source none site = traffic := by
  cases source <;> rfl

/-- The tables with an entry at the target of a mention. A class keeps none of its own. -/
def addSite (traffic : Traffic) (site : Site) (target : Target) (write : Bool) : Traffic :=
  match target with
  | .ofMethod key => { traffic with callers := pushAt traffic.callers key site }
  | .ofField key => { traffic with
      reads := if write then traffic.reads else pushAt traffic.reads key site
      writes := if write then pushAt traffic.writes key site else traffic.writes }
  | .ofString key => { traffic with loads := pushAt traffic.loads key site }
  | .ofClass _ => traffic

def addUse (traffic : Traffic) (site : Site) (target : Target) : Traffic :=
  { traffic with uses := pushAt traffic.uses site.method ⟨site.offset, target⟩ }

/-- The tables with a mention added at all its ends. -/
def add (traffic : Traffic) (mention : Mention) : Traffic :=
  ((traffic.addSite mention.site mention.target mention.write).addUse mention.site
    mention.target).addEdge mention.source mention.used mention.site

theorem uses_add (traffic : Traffic) (mention : Mention) :
    (traffic.add mention).uses =
      pushAt traffic.uses mention.site.method ⟨mention.site.offset, mention.target⟩ := by
  obtain ⟨site, source, target, used, write⟩ := mention
  cases source <;> cases used <;> cases target <;> rfl

end Traffic

/-- Whether an instruction writes the member that it uses. -/
def MemberKind.writes (insn : Instruction) : MemberKind → Bool
  | field => insn.writesField
  | method => false

namespace Builder

open DexAtlas.Graph (Grows Quiet)

/-! ### Notes at one end -/

theorem addUse_ok {site : Site} {target : Target} {state after : Build}
    (ran : addUse site target state = .ok () after) :
    Grows state.graph after.graph ∧
      after.graph.traffic = state.graph.traffic.addUse site target := by
  replace ran : update .methods _ _ _ state = _ := ran
  refine ⟨grows_update (by exact fun _ => ⟨rfl, rfl⟩) ran, ?_⟩
  obtain ⟨present, changed⟩ := update_ok ran
  rw [changed]
  exact Traffic.ext (Registry.view_push _ present fun _ => Array.toList_push)
    (Registry.view_modify _ _ _ _ _ fun _ => rfl) rfl rfl rfl rfl rfl

theorem updateString_ok {key : StringKey} {site : Site} {state after : Build}
    (ran : updateString key (fun s => { s with loads := s.loads.push site }) state =
      .ok () after) :
    Grows state.graph after.graph ∧
      after.graph.traffic = state.graph.traffic.addSite site (.ofString key) false := by
  refine ⟨grows_update (by exact fun _ => ⟨rfl, rfl⟩) ran, ?_⟩
  obtain ⟨present, changed⟩ := update_ok ran
  rw [changed]
  exact Traffic.ext rfl rfl rfl rfl (Registry.view_push _ present fun _ => Array.toList_push)
    rfl rfl

theorem method_addSite_ok {what : String} {key : MethodKey} {insn : Instruction} {site : Site}
    {state after : Build}
    (ran : update .methods what key (MemberKind.method.addSite insn site) state = .ok () after) :
    after.graph.traffic = state.graph.traffic.addSite site (.ofMethod key) false := by
  obtain ⟨present, changed⟩ := update_ok ran
  rw [changed]
  exact Traffic.ext (Registry.view_modify _ _ _ _ _ fun _ => rfl)
    (Registry.view_push _ present fun _ => Array.toList_push) rfl rfl rfl rfl rfl

/-- A field tells reads from writes. -/
theorem field_addSite_ok {what : String} {key : FieldKey} {insn : Instruction} {site : Site}
    {state after : Build}
    (ran : update .fields what key (MemberKind.field.addSite insn site) state = .ok () after) :
    after.graph.traffic = state.graph.traffic.addSite site (.ofField key) insn.writesField := by
  obtain ⟨present, changed⟩ := update_ok ran
  rw [changed]
  cases write : insn.writesField with
  | false =>
    refine Traffic.ext rfl rfl (Registry.view_push _ present fun f => ?_)
      (Registry.view_modify _ _ _ _ _ fun f => ?_) rfl rfl rfl
    · simp [MemberKind.addSite, write]
    · simp [MemberKind.addSite, write]
  | true =>
    refine Traffic.ext rfl rfl (Registry.view_modify _ _ _ _ _ fun f => ?_)
      (Registry.view_push _ present fun f => ?_) rfl rfl rfl
    · simp [MemberKind.addSite, write]
    · simp [MemberKind.addSite, write]

theorem addSite_ok {kind : MemberKind} {what : String} {key : Key kind.sort} {insn : Instruction}
    {site : Site} {state after : Build}
    (ran : update kind.sort what key (kind.addSite insn site) state = .ok () after) :
    Grows state.graph after.graph ∧
      after.graph.traffic =
        state.graph.traffic.addSite site (.ofKey kind.sort key) (kind.writes insn) := by
  have keeps := kind.keeps_addSite insn site
  refine ⟨grows_update (fun entity => ⟨keeps.owner entity, keeps.location entity⟩) ran, ?_⟩
  cases kind with
  | field => exact field_addSite_ok ran
  | method => exact method_addSite_ok ran

/-- An edge is kept at both its classes, which may be the same one. -/
theorem addEdge_some_ok {source target : ClassKey} {use : ClassUse} {site : Site}
    {state after : Build}
    (ran : addEdge (some source) (some target) use site state = .ok () after) :
    Grows state.graph after.graph ∧
      after.graph.traffic =
        state.graph.traffic.addEdge (some source) (some (target, use)) site := by
  obtain ⟨_, middle, first, second⟩ := bind_ok ran
  refine ⟨chained_grows.trans (grows_update (by exact fun _ => ⟨rfl, rfl⟩) first)
    (grows_update (by exact fun _ => ⟨rfl, rfl⟩) second), ?_⟩
  obtain ⟨present, changed⟩ := update_ok first
  obtain ⟨presentToo, changedToo⟩ := update_ok second
  have outgoing : middle.graph.traffic = { state.graph.traffic with
      outgoing := pushAt state.graph.traffic.outgoing source ⟨target, use, site⟩ } := by
    rw [changed]
    exact Traffic.ext rfl rfl rfl rfl rfl
      (Registry.view_push _ present fun _ => Array.toList_push)
      (Registry.view_modify _ _ _ _ _ fun _ => rfl)
  have incoming : after.graph.traffic = { middle.graph.traffic with
      incoming := pushAt middle.graph.traffic.incoming target ⟨source, use, site⟩ } := by
    rw [changedToo]
    exact Traffic.ext rfl rfl rfl rfl rfl (Registry.view_modify _ _ _ _ _ fun _ => rfl)
      (Registry.view_push _ presentToo fun _ => Array.toList_push)
  rw [incoming, outgoing]
  rfl

theorem addEdge_ok {source target : Option ClassKey} {use : ClassUse} {site : Site}
    {state after : Build} (ran : addEdge source target use site state = .ok () after) :
    Grows state.graph after.graph ∧
      after.graph.traffic = state.graph.traffic.addEdge source (target.map (·, use)) site := by
  cases source with
  | none =>
    obtain ⟨-, rfl⟩ := EStateM.Result.ok.inj ran
    exact ⟨chained_grows.refl _, rfl⟩
  | some source =>
    cases target with
    | none =>
      obtain ⟨-, rfl⟩ := EStateM.Result.ok.inj ran
      exact ⟨chained_grows.refl _, rfl⟩
    | some target => exact addEdge_some_ok ran

end Builder

/-! ### Mentions -/

/-- The sort and the name of what a reference leads to. A type leads to the class behind it, if
there is one. -/
def Reference.named? : Reference → Option (EntityKind × String)
  | .string _ value => some (.strings, value)
  | .type _ descriptor => (Descriptor.elementClass? descriptor).map (.classes, ·)
  | .field _ member => some (.fields, member.fieldName)
  | .method _ member => some (.methods, member.methodName)
  | .proto .. | .callSite _ | .methodHandle _ => none

/-- The class that is used with a reference, and how. -/
def Reference.used? (insn : Instruction) : Reference → Option (String × ClassUse)
  | .type _ descriptor =>
    match ClassUse.ofMnemonic? insn.name, Descriptor.elementClass? descriptor with
    | some use, some element => some (element, use)
    | _, _ => none
  | .field _ member => (Descriptor.ownClass? member.owner).map (·, .fieldAccess)
  | .method _ member => (Descriptor.ownClass? member.owner).map (·, .methodCall)
  | .string .. | .proto .. | .callSite _ | .methodHandle _ => none

/-- Whether a reference is to a field that is written. -/
def Reference.writes (insn : Instruction) : Reference → Bool
  | .field .. => insn.writesField
  | .string .. | .type .. | .method .. | .proto .. | .callSite _ | .methodHandle _ => false

/-- The entity of a name as the target of a use. -/
def Graph.target? (graph : Graph) (kind : EntityKind) (name : String) : Option Target :=
  ((graph.registry kind).lookup? (.name name)).map (Target.ofKey kind)

theorem Graph.Extends.target? {before after : Graph} (grown : before.Extends after)
    {kind : EntityKind} {name : String} {target : Target}
    (known : before.target? kind name = some target) : after.target? kind name = some target := by
  obtain ⟨key, found, rfl⟩ := Option.map_eq_some_iff.mp known
  exact Option.map_eq_some_iff.mpr ⟨key, (grown kind).names found, rfl⟩

/-- A class is used by its key as it is by its name. -/
def Graph.Uses (graph : Graph) : Option (String × ClassUse) → Option (ClassKey × ClassUse) → Prop :=
  Option.Rel fun named keyed =>
    graph.classes.byName[named.1]? = some keyed.1 ∧ named.2 = keyed.2

theorem Graph.Uses.of_extends {before after : Graph} (grown : before.Extends after)
    {named : Option (String × ClassUse)} {keyed : Option (ClassKey × ClassUse)}
    (uses : before.Uses named keyed) : after.Uses named keyed := by
  cases uses with
  | none => exact .none
  | some known => exact .some ⟨(grown .classes).names known.1, known.2⟩

/-- A class that a name leads to is used in the same way. -/
theorem Graph.Leads.uses {graph : Graph} {name : Option String} {key : Option ClassKey}
    (leads : graph.Leads name key) (use : ClassUse) :
    graph.Uses (name.map (·, use)) (key.map (·, use)) := by
  cases leads with
  | none => exact .none
  | some known => exact .some ⟨known, rfl⟩

/-- Whether a class is used through a type operand. -/
def ClassUse.ofType : ClassUse → Bool
  | .newInstance | .constClass | .typeCheck | .newArray => true
  | .methodCall | .fieldAccess => false

theorem ClassUse.ofType_ofMnemonic? {name : String} {use : ClassUse}
    (found : ofMnemonic? name = some use) : use.ofType = true := by
  unfold ofMnemonic? at found
  split at found <;> cases found <;> rfl

/-- A type operand uses the class itself, a member operand the class of the member, and a string
none. -/
def Mention.Consistent (mention : Mention) : Prop :=
  match mention.target with
  | .ofClass key => ∃ use, mention.used = some (key, use) ∧ use.ofType = true
  | .ofMethod _ | .ofField _ => ∀ b use, mention.used = some (b, use) → use.ofType = false
  | .ofString _ => mention.used = none

/-- Of the class uses of a mention, only that of a class in its own right is one of a type. -/
theorem Mention.Consistent.target_eq {mention : Mention} (consistent : mention.Consistent)
    {b : ClassKey} {use : ClassUse} (used : mention.used = some (b, use))
    (typed : use.ofType = true) : mention.target = .ofClass b := by
  obtain ⟨site, source, target, same, write⟩ := mention
  obtain rfl : same = some (b, use) := used
  cases target with
  | ofClass key =>
    obtain ⟨other, equal, -⟩ := consistent
    cases equal
    rfl
  | ofMethod | ofField =>
    rw [consistent b use rfl] at typed
    cases typed
  | ofString => cases consistent

/-! A member as an operand. -/

namespace MemberKind

def reference : MemberKind → Nat → Pools.Member → Reference
  | field => .field
  | method => .method

variable (kind : MemberKind) (index : Nat) (member : Pools.Member)

theorem named?_reference :
    (kind.reference index member).named? = some (kind.sort, kind.fullName member) := by
  cases kind <;> rfl

theorem used?_reference (insn : Instruction) :
    (kind.reference index member).used? insn =
      (Descriptor.ownClass? member.owner).map (·, kind.use) := by
  cases kind <;> rfl

theorem writes_reference (insn : Instruction) :
    kind.writes insn = (kind.reference index member).writes insn := by
  cases kind <;> rfl

/-- A member uses its class in one way only, and not as a type. -/
theorem consistent (site : Site) (source owner : Option ClassKey) (key : Key kind.sort)
    (write : Bool) :
    Mention.Consistent
      ⟨site, source, .ofKey kind.sort key, owner.map (·, kind.use), write⟩ := by
  have ofMember : ∀ b use, owner.map (·, kind.use) = some (b, use) → use.ofType = false := by
    intro b use used
    obtain ⟨_, -, same⟩ := Option.map_eq_some_iff.mp used
    rw [← (Prod.mk.inj same).2]
    cases kind <;> rfl
  cases kind <;> exact ofMember

end MemberKind

namespace Builder

open DexAtlas.Graph (Grows Quiet)

/-- What the use of one reference does to the graph. -/
inductive Uses (keepUses : Bool) (scene : Scene) (reference : Reference) (before after : Graph) :
    Prop
  /-- Nothing is noted: uses are not kept, or the reference names no entity, or it is a type
  operand of an unknown instruction. -/
  | skipped (quiet : Quiet before after)
      (reason : keepUses = true → reference.named? = none ∨
        (∃ index descriptor, reference = .type index descriptor) ∧
          ClassUse.ofMnemonic? scene.insn.name = none)
  /-- One mention of the entity is noted. -/
  | noted (kind : EntityKind) (name : String) (mention : Mention) (kept : keepUses = true)
      (named : reference.named? = some (kind, name))
      (located : mention.site = scene.site ∧ mention.source = scene.owner)
      (consistent : mention.Consistent)
      (target : after.target? kind name = some mention.target)
      (grows : Grows before after) (traffic : after.traffic = before.traffic.add mention)
      (used : after.Uses (reference.used? scene.insn) mention.used)
      (write : mention.write = reference.writes scene.insn)

variable {keepUses : Bool} {scene : Scene} {state after : Build}

/-- A name that was known before the notes is known after them. -/
theorem target?_of_known {kind : EntityKind} {name : String} {key : Key kind}
    {before after : Graph} (known : (before.registry kind).byName[name]? = some key)
    (grows : Grows before after) : after.target? kind name = some (.ofKey kind key) :=
  grows.larger.target? (Option.map_eq_some_iff.mpr ⟨key, known, rfl⟩)

theorem useString_ok {index : Nat} {value : String}
    (ran : useString keepUses scene index value state = .ok () after) :
    Uses keepUses scene (.string index value) state.graph after.graph := by
  obtain ⟨key, s₁, met, ran⟩ := bind_ok ran
  obtain ⟨quiet, known⟩ := meetString_ok met
  split at ran
  next kept =>
    obtain ⟨_, s₂, loaded, used⟩ := bind_ok ran
    obtain ⟨grows₁, loads⟩ := updateString_ok loaded
    obtain ⟨grows₂, uses⟩ := addUse_ok used
    have grows := chained_grows.trans grows₁ grows₂
    refine .noted .strings value ⟨scene.site, scene.owner, .ofString key, none, false⟩ kept rfl
      ⟨rfl, rfl⟩ rfl (target?_of_known known grows) (chained_grows.trans quiet.toGrows grows) ?_
      .none rfl
    rw [uses, loads, quiet.traffic, Traffic.add, Traffic.addEdge_none]
  next dropped =>
    obtain ⟨-, rfl⟩ := EStateM.Result.ok.inj ran
    exact .skipped quiet fun kept => absurd kept dropped

theorem useType_ok {index : Nat} {descriptor : String}
    (ran : useType keepUses scene index descriptor state = .ok () after) :
    Uses keepUses scene (.type index descriptor) state.graph after.graph := by
  unfold useType at ran
  cases known : ClassUse.ofMnemonic? scene.insn.name with
  | none =>
    rw [known] at ran
    obtain ⟨-, rfl⟩ := EStateM.Result.ok.inj ran
    exact .skipped (chained_quiet.refl _) fun _ => .inr ⟨⟨index, descriptor, rfl⟩, known⟩
  | some use =>
    cases behind : Descriptor.elementClass? descriptor with
    | none =>
      rw [known, behind] at ran
      obtain ⟨-, rfl⟩ := EStateM.Result.ok.inj ran
      exact .skipped (chained_quiet.refl _) fun _ => .inl (by rw [Reference.named?, behind]; rfl)
    | some element =>
      rw [known, behind] at ran
      have named : Reference.named? (.type index descriptor) = some (.classes, element) := by
        rw [Reference.named?, behind, Option.map_some]
      obtain ⟨key, s₁, met, ran⟩ := bind_ok ran
      obtain ⟨quiet, found⟩ := meetClass_ok met
      split at ran
      next kept =>
        obtain ⟨_, s₂, used, tied⟩ := bind_ok ran
        obtain ⟨grows₁, uses⟩ := addUse_ok used
        obtain ⟨grows₂, edges⟩ := addEdge_ok tied
        have grows := chained_grows.trans grows₁ grows₂
        refine .noted .classes element
          ⟨scene.site, scene.owner, .ofClass key, some (key, use), false⟩
          kept named ⟨rfl, rfl⟩ ⟨use, rfl, ClassUse.ofType_ofMnemonic? known⟩
          (target?_of_known found grows) (chained_grows.trans quiet.toGrows grows) ?_ ?_ rfl
        · rw [edges, uses, quiet.traffic]
          rfl
        · simp only [Reference.used?, known, behind]
          exact .some ⟨(grows.larger .classes).names found, rfl⟩
      next dropped =>
        obtain ⟨-, rfl⟩ := EStateM.Result.ok.inj ran
        exact .skipped quiet fun kept => absurd kept dropped

theorem useMember_ok {kind : MemberKind} {index : Nat} {member : Pools.Member}
    (ran : useMember kind keepUses scene index member state = .ok () after) :
    Uses keepUses scene (kind.reference index member) state.graph after.graph := by
  obtain ⟨⟨owner, key⟩, s₁, met, ran⟩ := bind_ok ran
  obtain ⟨quiet, known, leads⟩ := meetMember_ok met
  dsimp only at ran known leads
  split at ran
  next kept =>
    obtain ⟨_, s₂, noted, ran⟩ := bind_ok ran
    obtain ⟨_, s₃, used, tied⟩ := bind_ok ran
    obtain ⟨grows₁, sites⟩ := addSite_ok noted
    obtain ⟨grows₂, uses⟩ := addUse_ok used
    obtain ⟨grows₃, edges⟩ := addEdge_ok tied
    have grows := chained_grows.trans grows₁ (chained_grows.trans grows₂ grows₃)
    refine .noted kind.sort (kind.fullName member) ⟨scene.site, scene.owner, .ofKey kind.sort key,
      owner.map (·, kind.use), kind.writes scene.insn⟩ kept (kind.named?_reference index member)
      ⟨rfl, rfl⟩ (kind.consistent ..) (target?_of_known known grows)
      (chained_grows.trans quiet.toGrows grows) ?_ ?_ (kind.writes_reference ..)
    · rw [edges, uses, sites, quiet.traffic]
      rfl
    · rw [kind.used?_reference]
      exact (leads.uses kind.use).of_extends grows.larger
  next dropped =>
    obtain ⟨-, rfl⟩ := EStateM.Result.ok.inj ran
    exact .skipped quiet fun kept => absurd kept dropped

theorem use_ok {reference : Reference} (ran : use keepUses scene reference state = .ok () after) :
    Uses keepUses scene reference state.graph after.graph := by
  cases reference with
  | string => exact useString_ok ran
  | type => exact useType_ok ran
  | field => exact useMember_ok ran
  | method => exact useMember_ok ran
  | proto | callSite | methodHandle =>
    obtain ⟨-, rfl⟩ := EStateM.Result.ok.inj ran
    exact .skipped (chained_quiet.refl _) fun _ => .inl rfl

/-- What the search of one method amounts to. -/
inductive Scanned (keepUses : Bool) (image : Image) (method : EncodedMethod) (state after : Build) :
    Prop
  /-- The entry is not the declaration that counts, or has no body. -/
  | passed (unchanged : after = state)
      (reason : ∀ key caller body,
        state.graph.methods.lookup? (.record ⟨image.index, method.id⟩) = some key →
        state.graph.methods.get? key = some caller →
        caller.location = some ⟨image.index, method.id⟩ →
        image.body? method.id = some body → False)
  | searched (key : MethodKey) (caller : MethodEntity) (body : Array Instruction)
      (found : state.graph.methods.lookup? (.record ⟨image.index, method.id⟩) = some key)
      (present : state.graph.methods.get? key = some caller)
      (located : caller.location = some ⟨image.index, method.id⟩)
      (decoded : image.body? method.id = some body)
      (ran : searchBody keepUses image.index key caller.owner body state = .ok () after)

theorem scanMethod_ok {image : Image} {method : EncodedMethod}
    (ran : scanMethod keepUses image method state = .ok () after) :
    Scanned keepUses image method state after := by
  obtain ⟨graph, s, looked, ran⟩ := bind_ok ran
  obtain ⟨rfl, rfl⟩ := EStateM.Result.ok.inj looked
  cases found : state.graph.methods.lookup? (.record ⟨image.index, method.id⟩) with
  | none =>
    rw [found] at ran
    cases ran
  | some key =>
    cases present : state.graph.methods.get? key with
    | none =>
      simp only [found, present] at ran
      obtain ⟨-, rfl⟩ := EStateM.Result.ok.inj ran
      refine .passed rfl fun other caller _ same there _ _ => ?_
      obtain rfl := Option.some.inj (found.symm.trans same)
      cases present.symm.trans there
    | some caller =>
      simp only [found, present] at ran
      split at ran
      next elsewhere =>
        obtain ⟨-, rfl⟩ := EStateM.Result.ok.inj ran
        refine .passed rfl fun other entity _ same there located _ => ?_
        obtain rfl := Option.some.inj (found.symm.trans same)
        obtain rfl := Option.some.inj (present.symm.trans there)
        exact elsewhere located
      next counts =>
        cases decoded : image.body? method.id with
        | none =>
          rw [decoded] at ran
          obtain ⟨-, rfl⟩ := EStateM.Result.ok.inj ran
          exact .passed rfl fun _ _ _ _ _ _ there => by cases decoded.symm.trans there
        | some body =>
          rw [decoded] at ran
          exact .searched key caller body found present (Decidable.not_not.mp counts) decoded ran

end Builder

end DexAtlas
