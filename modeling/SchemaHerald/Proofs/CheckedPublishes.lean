import SchemaHerald.Proofs.AnyAnswers
import SchemaHerald.Proofs.BackendChecks
import SchemaHerald.Proofs.PublishCourse

/-!
# Publishing with settings that pass the check

Two places look at the name of a registry: the check of the settings, which reports a registry that
is described under a blank name, and the beginning of a publish, which fails for one. So what the
settings describe can be published to in any state of the registrar, alone and in a batch, as far as
arguments go (`RegistryOptions.Publishable`).

The default registry need not be described. Its name is what the identity says, which the check does
not look at: if that is blank, the settings may pass the check, and no publish to the default
registry ever gets as far as the registry (`RegistryOptions.Unpublishable`).
-/
namespace SchemaHerald

/-- The failure of an argument that is not acceptable. -/
def Failure.IsInvalidArgument : Failure → Prop
  | .invalidArgument _ _ => True
  | _ => False

/-- **A request may end so**: it does in a run in which it is asked for in some state, whatever
happened before and happens afterwards. -/
def Request.MayEnd (request : Request) (out : Outcome) : Prop :=
  ∃ (id : String) (listening : Bool) (limit : Option Nat) (past future : List Move) (t : Nat),
    ((Publisher.fresh id listening limit).moves past).stage? t = some (.asked request) ∧
      ((Publisher.fresh id listening limit).moves (past ++ future)).outcome? t = some out

namespace RegistryOptions

/-- **Options can be published with**: the publish of a schema with a name never fails for its
arguments, alone or in a batch. -/
structure Publishable (o : RegistryOptions) : Prop where
  alone : ∀ d failure, d.name ≠ "" → (Request.publish o d).MayEnd (.failed failure) →
    ¬ failure.IsInvalidArgument
  batch : ∀ ds failure, (Request.publishAll o ds).MayEnd (.failed failure) →
    ¬ failure.IsInvalidArgument ∧
      ∀ part ∈ failure.parts, part.schema ≠ "" → ¬ part.failure.IsInvalidArgument

/-- **Options cannot be published with**: all publishes that end fail for the registry's name. -/
structure Unpublishable (o : RegistryOptions) : Prop where
  alone : ∀ d out, (Request.publish o d).MayEnd out →
    out = .failed (.invalidArgument "registry" "registry name must not be empty")
  batch : ∀ ds out, ds ≠ [] → (Request.publishAll o ds).MayEnd out →
    out = .failed (.invalidArgument "registry" "registry name must not be empty")

end RegistryOptions

/-! ## What a publish is refused for -/

namespace Registrar

variable {r : Registrar} {o : RegistryOptions} {d : Definition}

theorem refusal?_of_blank (h : Text.trim o.name = "") :
    r.refusal? o d = some (.invalidArgument "registry" "registry name must not be empty") := by
  rw [refusal?, if_pos h]

/-- With names, a publish is refused for the key or because the registrar is closed. -/
theorem refusal?_of_named (ho : Text.trim o.name ≠ "") (hd : d.name ≠ "") {failure : Failure}
    (h : r.refusal? o d = some failure) : ¬ failure.IsInvalidArgument := by
  rw [refusal?, if_neg ho, if_neg hd] at h
  split at h
  · rename_i failure' hr
    cases h
    rcases reserve_eq_error_iff.1 hr with ⟨-, rfl⟩ | ⟨-, -, rfl⟩ <;> exact id
  · cases h

end Registrar

namespace Publisher

variable {p : Publisher} {u c : Nat} {o : RegistryOptions} {d : Definition} {ds : List Definition}
  {ms : List Move} {out : Outcome} {failure : Failure}

/-- **A publish with names** does not fail for its arguments. -/
theorem Sound.publish_named (h : p.Sound) (hkin : p.Kin) (ha : p.Awaits u o d)
    (ho : Text.trim o.name ≠ "") (hd : d.name ≠ "")
    (hout : (p.moves ms).outcome? u = some (.failed failure)) : ¬ failure.IsInvalidArgument := by
  cases h.course hkin ha hout with
  | refused before after failure hms hbefore hrefusal =>
    exact Registrar.refusal?_of_named ho hd hrefusal
  | answered before mid after a k r handle d' out hms hbefore hrefusal hr hregistrar hjournal hmid
      hstage hafter hsettles =>
    cases hsettles
    exact id

/-- A publish to a registry without a name fails for it. -/
theorem Sound.publish_nameless (h : p.Sound) (hkin : p.Kin) (ha : p.Awaits u o d)
    (ho : Text.trim o.name = "") (hout : (p.moves ms).outcome? u = some out) :
    out = .failed (.invalidArgument "registry" "registry name must not be empty") := by
  have refused : ∀ r : Registrar,
      r.refusal? o d = some (.invalidArgument "registry" "registry name must not be empty") :=
    fun r => Registrar.refusal?_of_blank ho
  cases h.course hkin ha hout with
  | refused before after failure hms hbefore hrefusal =>
    rw [refused] at hrefusal
    cases hrefusal
    rfl
  | answered before mid after a k r handle d' out hms hbefore hrefusal =>
    rw [refused] at hrefusal
    cases hrefusal

/-! ## Batches -/

/-- **A batch for a registry with a name** does not fail for its arguments, nor does the part of a
schema with a name: it is the failure of its own publish, or that broke off. -/
theorem Sound.batch_named (h : p.Sound) (hkin : p.Kin) (hnum : p.Numbered)
    (hc : p.stage? c = some (.asked (.publishAll o ds))) (hne : ds ≠ [])
    (hname : Text.trim o.name ≠ "") (hout : (p.moves ms).outcome? c = some (.failed failure)) :
    ¬ failure.IsInvalidArgument ∧
      ∀ part ∈ failure.parts, part.schema ≠ "" → ¬ part.failure.IsInvalidArgument := by
  have ho : o.canonical? = .ok { o with name := Text.trim o.name } :=
    RegistryOptions.canonical?_eq_ok_iff.2 ⟨hname, rfl⟩
  obtain ⟨before, after, rfl, hready, hasked⟩ := h.first_turn hc fun hidle => by
    rw [outcome?_eq_some_iff, hidle] at hout
    cases hout
  have hbegun : ((p.moves before).run c).Sound := (h.moves before).move (.run c)
  have hkin' : ((p.moves before).run c).Kin := (hkin.moves h before).move (h.moves before) (.run c)
  have hnum' : ((p.moves before).run c).Numbered :=
    (hnum.moves h before).move (h.moves before) (.run c)
  rw [moves_append] at hout
  rcases (h.moves before).begun hready hasked hne ho with
    ⟨n, message, -, -, hbroken⟩ | ⟨hgathers, hmembers⟩
  · have hstays := hbegun.outcome?_moves after hbroken
    cases hstays.symm.trans hout
  · rw [outcome?_eq_some_iff] at hout
    cases hgathers.moves hbegun hkin' after with
    | underWay b hb => cases hb.symm.trans hout
    | hasEnded b hb hr hm hcomplete hkept =>
      have haccount := hkept.account (hnum'.moves hbegun after) hcomplete hr (Text.trim_trim _) hm
        fun i d hd => by
          obtain ⟨s, hs, hl⟩ := hbegun.goes_moves after _ _ (hmembers i d hd)
          exact ⟨s, hs, Stage.Publishes.leads (s := .asked (.publish _ d)) ⟨rfl, rfl⟩ hl⟩
      obtain ⟨es, -, hentry, -, hparts⟩ := haccount.entries
      obtain ⟨-, hall⟩ | ⟨-, hfailed⟩ := haccount.outcome
      · rw [hall] at hb
        cases hb.symm.trans hout
      · rw [hfailed] at hb
        cases hb.symm.trans hout
        refine ⟨id, fun part hpart hnamed => ?_⟩
        have hpart : part ∈ b.parts := hpart
        rw [hparts] at hpart
        obtain ⟨⟨i, e⟩, he, hright⟩ := List.mem_filterMap.1 hpart
        obtain ⟨d, hd, haccounts⟩ := hentry i e he
        cases haccounts with
        | committed => cases hright
        | failed failure ho =>
          cases hright
          exact hbegun.publish_named hkin' ⟨_, hmembers i d hd, rfl, rfl⟩
            (by rwa [Text.trim_trim]) hnamed ho
        | lost =>
          cases hright
          exact id

end Publisher

/-! ## Options that can be published with, and others -/

namespace RegistryOptions

open Publisher

variable {o : RegistryOptions}

/-- **Options with a name** can be published with. -/
theorem publishable_of_named (ho : Text.trim o.name ≠ "") : o.Publishable := by
  refine ⟨fun d failure hd hends => ?_, fun ds failure hends => ?_⟩
  · obtain ⟨id, listening, limit, past, future, t, hask, hout⟩ := hends
    have hsound := sound_fresh id listening limit
    rw [moves_append] at hout
    exact (hsound.moves past).publish_named ((kin_fresh id listening limit).moves hsound past)
      ⟨_, hask, rfl, rfl⟩ ho hd hout
  · obtain ⟨id, listening, limit, past, future, c, hask, hout⟩ := hends
    have hsound := sound_fresh id listening limit
    rw [moves_append] at hout
    by_cases hne : ds = []
    · -- there is nothing to publish
      rcases (hsound.moves past).begins hask hout with ⟨hne', -⟩ | hrefused
      · exact absurd hne hne'
      · cases hrefused with
        | nothing => exact ⟨not_false, fun part hpart => by cases hpart⟩
        | nameless hne' => exact absurd hne hne'
    · exact (hsound.moves past).batch_named ((kin_fresh id listening limit).moves hsound past)
        ((numbered_fresh id listening limit).moves hsound past) hask hne ho hout

/-- **Options with a name of nothing but blanks** cannot be published with. -/
theorem unpublishable_of_blank (ho : Text.trim o.name = "") : o.Unpublishable := by
  refine ⟨fun d out hends => ?_, fun ds out hne hends => ?_⟩
  · obtain ⟨id, listening, limit, past, future, t, hask, hout⟩ := hends
    have hsound := sound_fresh id listening limit
    rw [moves_append] at hout
    exact (hsound.moves past).publish_nameless ((kin_fresh id listening limit).moves hsound past)
      ⟨_, hask, rfl, rfl⟩ ho hout
  · obtain ⟨id, listening, limit, past, future, c, hask, hout⟩ := hends
    rw [moves_append] at hout
    rcases ((sound_fresh id listening limit).moves past).begins hask hout with
      ⟨-, hname, -⟩ | hrefused
    · exact absurd ho hname
    · cases hrefused with
      | nothing hnil => exact absurd hnil hne
      | nameless => rfl
      | tooMany hne' hname => exact absurd ho hname

end RegistryOptions

namespace Settings

variable {s : Settings} {n : String} {o : RegistryOptions}

/-- **What is described** in settings that pass the check has a name. -/
theorem named_of_described (hvalid : s.check.valid = true) (hn : s.registries.get? n = some o) :
    Text.trim n ≠ "" := by
  intro hblank
  have hproblem : (⟨"registries", "registry names must not be blank"⟩ : Problem) ∈
      registryErrors n o := by
    rw [registryErrors, Text.isBlankText, if_pos (String.isEmpty_iff.2 hblank)]
    exact List.mem_append_left _ List.mem_cons_self
  have hlisted : (⟨"registries", "registry names must not be blank"⟩ : Problem) ∈
      s.registriesErrors :=
    List.mem_mergeSort.2 (List.mem_flatMap.2 ⟨(n, o), (Table.mem_entries_iff _ _ _).2 hn, hproblem⟩)
  have hmem : (⟨"registries", "registry names must not be blank"⟩ : Problem) ∈ s.check.errors :=
    List.mem_append_left _ (List.mem_append_right _ hlisted)
  rw [errors_of_valid hvalid] at hmem
  cases hmem

/-- **Settings that pass the check** can be published with in every registry that they describe, and
in the default registry unless its name is blank, which the check lets pass: then every publish to
it that ends fails for the name. -/
theorem publishable_of_valid (hvalid : s.check.valid = true) :
    (∀ n o, s.registries.get? n = some o → (s.registryOptions n).Publishable) ∧
    (Text.trim s.defaultRegistry ≠ "" → (s.registryOptions s.defaultRegistry).Publishable) ∧
    (Text.trim s.defaultRegistry = "" → (s.registryOptions s.defaultRegistry).Unpublishable) := by
  refine ⟨fun n o hn => ?_, fun hname => ?_, fun hblank => ?_⟩
  · refine RegistryOptions.publishable_of_named ?_
    rw [name_registryOptions]
    exact named_of_described hvalid hn
  · refine RegistryOptions.publishable_of_named ?_
    rwa [name_registryOptions]
  · refine RegistryOptions.unpublishable_of_blank ?_
    rwa [name_registryOptions]

/-- Settings that describe one registry and use another one by default. -/
def withDefault (defaultRegistry : String) : Settings where
  version := "1.0"
  publisher := some { defaultRegistry := some defaultRegistry }
  registries := .ofList [("r", { backend := some { name := "local" } })]

/-- With a default registry that has a name, what fails there does not fail for its arguments, such
as the publish of a schema that is under way; with one that has none, everything does. -/
theorem publishable_withDefault :
    ((withDefault " d").registryOptions "r").Publishable ∧
    (∃ failure, (Request.publish ((withDefault " d").registryOptions " d")
        { schema := ⟨"s", ""⟩ }).MayEnd (.failed failure) ∧ ¬ failure.IsInvalidArgument) ∧
    ((withDefault "\t").registryOptions "\t").Unpublishable := by
  have hnamed : (withDefault " d").check.valid = true := by decide +kernel
  have hblank : (withDefault "\t").check.valid = true := by decide +kernel
  have hends : (Request.publish ((withDefault " d").registryOptions " d")
      { schema := ⟨"s", ""⟩ }).MayEnd (.failed (.duplicate "d" "s")) :=
    ⟨"id", true, none, [.ask (.publish { name := "d" } { schema := ⟨" s", ""⟩ }),
      .ask (.publish ((withDefault " d").registryOptions " d") { schema := ⟨"s", ""⟩ })],
      [.run 0, .run 1], 1, rfl, rfl⟩
  refine ⟨(publishable_of_valid hnamed).1 "r" _ rfl, ⟨_, hends, ?_⟩,
    (publishable_of_valid hblank).2.2 (by decide +kernel)⟩
  exact ((publishable_of_valid hnamed).2.1 (by decide +kernel)).alone _ _ (by decide +kernel) hends

/-- **Not all settings that pass the check** can be published with: a default registry of blanks is
let pass, and a schema with a name fails there for the registry's name, alone and in a batch. -/
theorem not_publishable_of_valid :
    ¬ (∀ s : Settings, s.check.valid = true →
        (s.registryOptions s.defaultRegistry).Publishable) ∧
    (withDefault " ").check.valid = true ∧
    (Request.publish ((withDefault " ").registryOptions (withDefault " ").defaultRegistry)
        { schema := ⟨"a", ""⟩ }).MayEnd
      (.failed (.invalidArgument "registry" "registry name must not be empty")) ∧
    (Request.publishAll ((withDefault " ").registryOptions (withDefault " ").defaultRegistry)
        [{ schema := ⟨"a", ""⟩ }]).MayEnd
      (.failed (.invalidArgument "registry" "registry name must not be empty")) := by
  have hvalid : (withDefault " ").check.valid = true := by decide +kernel
  have halone : (Request.publish ((withDefault " ").registryOptions
      (withDefault " ").defaultRegistry) { schema := ⟨"a", ""⟩ }).MayEnd
        (.failed (.invalidArgument "registry" "registry name must not be empty")) :=
    ⟨"id", true, none, [.ask (.publish { name := " " } { schema := ⟨"a", ""⟩ })], [.run 0], 0, rfl,
      rfl⟩
  refine ⟨fun h => ?_, hvalid, halone, ?_⟩
  · exact (h _ hvalid).alone _ _ (by decide +kernel) halone trivial
  · exact ⟨"id", true, none, [.ask (.publishAll { name := " " } [{ schema := ⟨"a", ""⟩ }])],
      [.run 0], 0, rfl, rfl⟩

end Settings
end SchemaHerald
