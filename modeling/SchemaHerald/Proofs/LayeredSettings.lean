import SchemaHerald.Proofs.TableEntries
import SchemaHerald.Settings.Layer

/-!
# What each layer of settings decides

A *view* reads one setting out of settings, if they give it. The views here are layered: of two
layers, one over the other, a view shows what the upper one gives, and what the lower one gives
where the upper one is silent. `Layered.overlay` is this one step and `Layered.ofLayers` is what
follows for any number of layers, `Layered.sources` for the five layers that there are.

Limits are special: limits laid over settings without any start from the usual ones, so a layer that
only limits a batch would also bring the usual timeout. All views are therefore compared over a base
that has limits, as the defaults have and as every layer over them keeps.
-/
namespace SchemaHerald.Settings

/-! ## The settings one by one -/

/-- The version, unless it is empty. -/
def version? (s : Settings) : Option String := if s.version.isEmpty then none else some s.version

/-- The publisher's id. -/
def id? (s : Settings) : Option String := s.publisher.bind (·.id)

/-- The registry used when none is asked for. -/
def target? (s : Settings) : Option String := s.publisher.bind (·.defaultRegistry)

/-- The limit on publishes at once. -/
def maxConcurrency? (s : Settings) : Option Nat := s.publish.bind (·.maxConcurrency)

/-- The time that a batch may take. -/
def timeoutSecs? (s : Settings) : Option Nat := s.publish.bind (·.timeoutSecs)

/-- The options described under a name. -/
def described? (name : String) (s : Settings) : Option RegistryOptions := s.registries.get? name

/-! ## One layer over another -/

/-- A view for which the upper one of two layers counts, and the lower one where the upper one is
silent. -/
def Layered {α : Type} (view : Settings → Option α) : Prop :=
  ∀ base upper : Settings, base.publish.isSome →
    view (base.overlay upper) = (view upper).or (view base)

theorem layered_version : Layered version? := by
  intro base upper _
  by_cases hv : upper.version.isEmpty
  · simp [version?, overlay, hv]
  · simp [version?, overlay, hv]

/-- A part of the identity for which the upper one of two counts. -/
theorem layered_identity {α : Type} {part : Identity → Option α}
    (hpart : ∀ base upper : Identity, part (base.overlay upper) = (part upper).or (part base))
    (hnone : part {} = none) : Layered fun s => s.publisher.bind part := by
  intro base upper _
  rcases hu : upper.publisher with _ | identity
  · simp [overlay, hu]
  · rcases hb : base.publisher with _ | lower
    · simp [overlay, hu, hb, hpart, hnone]
    · simp [overlay, hu, hb, hpart]

theorem layered_id : Layered id? := layered_identity (fun _ _ => rfl) rfl

theorem layered_target : Layered target? := layered_identity (fun _ _ => rfl) rfl

/-- A limit for which the upper one of two counts. Here it matters that the base has limits. -/
theorem layered_limits {α : Type} {part : Limits → Option α}
    (hpart : ∀ base upper : Limits, part (base.overlay upper) = (part upper).or (part base)) :
    Layered fun s => s.publish.bind part := by
  intro base upper hbase
  obtain ⟨lower, hb⟩ := Option.isSome_iff_exists.1 hbase
  rcases hu : upper.publish with _ | limits
  · simp [overlay, hu, hb]
  · simp [overlay, hu, hb, hpart]

theorem layered_maxConcurrency : Layered maxConcurrency? := layered_limits fun _ _ => rfl

theorem layered_timeoutSecs : Layered timeoutSecs? := layered_limits fun _ _ => rfl

theorem layered_described (name : String) : Layered (described? name) := by
  intro base upper _
  exact Table.get?_overlay base.registries upper.registries name

/-- Settings with limits keep limits under every layer. -/
theorem isSome_publish_overlay {base : Settings} (h : base.publish.isSome) (upper : Settings) :
    (base.overlay upper).publish.isSome := by
  rcases hu : upper.publish with _ | limits <;> simp [overlay, hu, h]

/-! ## Any number of layers -/

namespace Layered

variable {α : Type} {view : Settings → Option α}

/-- **Layers over a base**: a view shows what the uppermost layer that is not silent gives. -/
theorem foldl (hv : Layered view) (layers : List Settings) {base : Settings}
    (hbase : base.publish.isSome) :
    view (layers.foldl overlay base) = (layers.reverse.findSome? view).or (view base) := by
  induction layers generalizing base with
  | nil => rfl
  | cons layer rest ih =>
    have hstep : view (base.overlay layer) = (view layer).or (view base) := hv base layer hbase
    rw [List.foldl_cons, ih (isSome_publish_overlay hbase layer), hstep]
    simp [List.findSome?_append, Option.or_assoc, List.findSome?_singleton]

/-- **The five layers**, the defaults being the lowest. -/
theorem ofLayers (hv : Layered view) (home project environment arguments : Option Settings) :
    view (ofLayers (Settings.default :: home.toList ++ project.toList ++ environment.toList ++
      arguments.toList)) =
      (arguments.bind view).or ((environment.bind view).or ((project.bind view).or
        ((home.bind view).or (view Settings.default)))) := by
  have hone : ∀ layer : Option Settings,
      layer.toList.reverse.findSome? view = layer.bind view := by
    rintro (_ | layer) <;> simp
  rw [Settings.ofLayers, hv.foldl _ (by rfl)]
  simp [List.findSome?_append, Option.or_assoc, hone]

end Layered

/-! ## The layers that are not files

The environment and the command line each make a layer of at most three parts, or none if they set
no part. Such a layer is silent about everything else but the version: it is made from the defaults
and keeps theirs.
-/

/-- The layer that sets the given parts, if there is one to set. -/
def ofParts? (id target : Option String) (limit : Option Nat) : Option Settings :=
  if id.isSome || target.isSome || limit.isSome then
    some { Settings.default with
      publisher := identity? id target, publish := limit.map fun max => { maxConcurrency := some max } }
  else none

/-- The limit that the environment gives. -/
def environmentLimit? (env : Table String String) : Option Nat :=
  (env.get? maxConcurrencyVariable).bind Text.count?

theorem ofEnvironment?_eq_ofParts? (env : Table String String) :
    ofEnvironment? env =
      ofParts? (env.get? idVariable) (env.get? registryVariable) (environmentLimit? env) := by
  unfold ofEnvironment? ofParts? environmentLimit?
  rcases env.get? idVariable with _ | id <;> rcases env.get? registryVariable with _ | target <;>
    rfl

theorem ofArguments?_eq_ofParts? (target : Option String) (limit : Option Nat) :
    ofArguments? target limit = ofParts? none target limit := by
  rcases target with _ | target <;> rcases limit with _ | limit <;> rfl

section Parts

variable (id target : Option String) (limit : Option Nat)

/-- **The version of such a layer** is the one of the defaults, whatever the layer sets. -/
theorem version_ofParts? : (ofParts? id target limit).bind version? =
    if id.isSome || target.isSome || limit.isSome then some "1.0" else none := by
  unfold ofParts?
  split <;> rfl

theorem id_ofParts? : (ofParts? id target limit).bind id? = id := by
  rcases id with _ | id <;> rcases target with _ | target <;> rcases limit with _ | limit <;> rfl

theorem target_ofParts? : (ofParts? id target limit).bind target? = target := by
  rcases id with _ | id <;> rcases target with _ | target <;> rcases limit with _ | limit <;> rfl

theorem maxConcurrency_ofParts? : (ofParts? id target limit).bind maxConcurrency? = limit := by
  rcases id with _ | id <;> rcases target with _ | target <;> rcases limit with _ | limit <;> rfl

theorem timeoutSecs_ofParts? : (ofParts? id target limit).bind timeoutSecs? = none := by
  rcases id with _ | id <;> rcases target with _ | target <;> rcases limit with _ | limit <;> rfl

theorem described_ofParts? (name : String) :
    (ofParts? id target limit).bind (described? name) = none := by
  unfold ofParts?
  split <;> rfl

end Parts
end SchemaHerald.Settings
