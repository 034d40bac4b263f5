import SchemaHerald.Proofs.TableEntries
import SchemaHerald.Settings.Form

/-!
# Written forms are normal forms

What settings, definitions and records of a registry are written as is read back as the same value,
and a value tree that can be read at all is put into a form by writing that no second reading and
writing changes (`NormalForm`). A part that is absent is left out when it is written and is absent
when it is missing, null or not; an empty table of registries is left out as well, and one that is
missing is empty.

`RoundTrips` is what a type needs for that and what one type hands on to the types that it is a
field of. Two things are asked beside the way back: what was read fits into the written form, and
null is not of the type, since an optional field that is null counts as absent. `required_written`,
`defaulted_written` and `optional_written` say that each kind of field keeps it.
-/
namespace SchemaHerald

variable {α : Type}

/-- **Writing and reading that fit together.** -/
structure RoundTrips (fits : α → Prop) (write : α → Value) (read : Value → Option α) : Prop where
  /-- What fits comes back as it was written. -/
  returns : ∀ a, fits a → read (write a) = some a
  /-- Whatever is read fits. -/
  fits_of_read : ∀ v a, read v = some a → fits a
  /-- Null is not of the type. -/
  null : read .null = none

/-- The value tree that is written for what is read from another one. -/
def rewrite (write : α → Value) (read : Value → Option α) (v : Value) : Option Value :=
  (read v).map write

/-- **The written form as a normal form** of the value trees that can be read. -/
structure NormalForm (fits : α → Prop) (write : α → Value) (read : Value → Option α) : Prop where
  /-- What fits comes back as it was written. -/
  returns : ∀ a, fits a → read (write a) = some a
  /-- What was read from any tree is read from its written form again. -/
  rereads : ∀ v a, read v = some a → read (write a) = some a
  /-- A tree that was rewritten is not changed by rewriting it. -/
  settles : ∀ v w, rewrite write read v = some w → rewrite write read w = some w

section
variable {fits : α → Prop} {write : α → Value} {read : Value → Option α}

theorem RoundTrips.normalForm (h : RoundTrips fits write read) : NormalForm fits write read where
  returns := h.returns
  rereads v a hread := h.returns a (h.fits_of_read v a hread)
  settles v w hw := by
    obtain ⟨a, hread, rfl⟩ := Option.map_eq_some_iff.1 hw
    rw [rewrite, h.returns a (h.fits_of_read v a hread)]
    rfl

/-! ## Fields of a record -/

namespace Fields

theorem lookup?_append (name : String) (xs ys : List (String × Value)) :
    lookup? name (xs ++ ys) = (lookup? name xs).or (lookup? name ys) := by
  induction xs with
  | nil => rfl
  | cons x xs ih =>
    by_cases h : name = x.1
    · simp [lookup?, h]
    · simp [lookup?, h, ih]

theorem lookup?_optionalField (name name' : String) (v : Option Value) :
    lookup? name (optionalField name' v) = if name = name' then v else none := by
  cases v <;> simp [optionalField, lookup?]

/-- A record is read by looking its fields up. -/
theorem bind_record {β : Type} (names : List String) (fields : List (String × Value))
    (f : Fields → Option β) :
    (do let given ← Fields.ofValue? names (.record fields); f given) =
      f ⟨fun name => lookup? name fields, false⟩ := rfl

variable {fields : Fields} {name : String}

theorem required_written (h : RoundTrips fits write read) {a : α} (ha : fits a)
    (hfield : fields.value? name = some (write a)) : fields.required name read = some a := by
  rw [required, hfield]
  exact h.returns a ha

/-- A defaulted part is read back if it was written, or left out because it is the default. -/
theorem defaulted_written (h : RoundTrips fits write read) {a default : α} (ha : fits a)
    (hfield : fields.value? name = some (write a) ∨ fields.value? name = none ∧ a = default) :
    fields.defaulted name read default = some a := by
  rcases hfield with hfield | ⟨hfield, rfl⟩
  · rw [defaulted, hfield]
    exact h.returns a ha
  · rw [defaulted, hfield]

/-- An optional part is read back, whether it was there or not: nothing is written as null. -/
theorem optional_written (h : RoundTrips fits write read) {o : Option α}
    (ho : ∀ a, o = some a → fits a) (hnamed : fields.positional = false)
    (hfield : fields.value? name = o.map write) : fields.optional name read = some o := by
  rw [optional, hfield, hnamed]
  cases o with
  | none => rfl
  | some a =>
    have hread := h.returns a (ho a rfl)
    rw [Option.map_some]
    split
    · contradiction
    · rename_i hnull
      rw [Option.some.inj hnull, h.null] at hread
      cases hread
    · rename_i v _ hv
      rw [← Option.some.inj hv, hread]
      rfl

/-- What an optional field holds was read from some value. -/
theorem fits_of_optional (h : RoundTrips fits write read) {o : Option α}
    (ho : fields.optional name read = some o) : ∀ a, o = some a → fits a := by
  rintro a rfl
  rw [optional] at ho
  split at ho
  · split at ho <;> simp at ho
  · simp at ho
  · obtain ⟨b, hread, hb⟩ := Option.map_eq_some_iff.1 ho
    cases hb
    exact h.fits_of_read _ _ hread

end Fields
end

/-! ## Texts, counts and tables -/

namespace Value

theorem text_returns (s : String) : (Value.text s).text? = some s := rfl

theorem roundTrips_text : RoundTrips (fun _ => True) Value.text Value.text? where
  returns _ _ := rfl
  fits_of_read _ _ _ := trivial
  null := rfl

theorem lt_of_count? {v : Value} {n : Nat} (h : v.count? = some n) : n < Text.countBound := by
  unfold count? at h
  split at h
  · split at h
    · rename_i hlt
      cases h
      exact hlt
    · cases h
  · cases h

theorem roundTrips_count : RoundTrips (· < Text.countBound) Value.ofNat Value.count? where
  returns _ hn := if_pos hn
  fits_of_read _ _ := lt_of_count?
  null := rfl

end Value

namespace Table

section
variable {κ : Type} [Ord κ]

/-- A key that is larger than all others comes last. -/
theorem insertEntry_of_gt {k : κ} {v : α} {es : List (κ × α)} (h : ∀ e ∈ es, compare k e.1 = .gt) :
    insertEntry k v es = es ++ [(k, v)] := by
  induction es with
  | nil => rfl
  | cons head rest ih =>
    rw [insertEntry, h head (List.mem_cons_self ..)]
    exact congrArg _ (ih fun e he => h e (List.mem_cons_of_mem _ he))

variable [Std.TransOrd κ]

/-- Entries in order that are put into a table of smaller keys come after its own. -/
theorem entries_foldl_insert {es : List (κ × α)} {t : Table κ α}
    (h : (t.entries ++ es).Pairwise fun a b => compare a.1 b.1 = .lt) :
    (es.foldl (fun t e => t.insert e.1 e.2) t).entries = t.entries ++ es := by
  induction es generalizing t with
  | nil => simp
  | cons head rest ih =>
    have hinsert : (t.insert head.1 head.2).entries = t.entries ++ [head] := by
      refine insertEntry_of_gt fun e he => ?_
      exact Std.OrientedCmp.gt_of_lt
        ((List.pairwise_append.1 h).2.2 e he head (List.mem_cons_self ..))
    rw [List.foldl_cons, ih, hinsert, List.append_assoc, List.singleton_append]
    rwa [hinsert, List.append_assoc, List.singleton_append]

/-- **A table is the table of its entries.** -/
theorem ofList_entries (t : Table κ α) : ofList t.entries = t :=
  eq_of_entries (entries_foldl_insert (t := empty) t.ordered)

end

theorem readEntries?_map {write : α → Value} {read : Value → Option α}
    (h : ∀ a, read (write a) = some a) (es : List (String × α)) :
    readEntries? read (es.map fun e => (e.1, write e.2)) = some es := by
  induction es with
  | nil => rfl
  | cons e es ih => simp [readEntries?, h, ih]

theorem roundTrips {write : α → Value} {read : Value → Option α}
    (h : ∀ a, read (write a) = some a) :
    RoundTrips (fun _ => True) (Table.toValue write) (Table.ofValue? read) where
  returns t _ := by simp [toValue, Table.ofValue?, readEntries?_map h, ofList_entries]
  fits_of_read _ _ _ := trivial
  null := rfl

end Table

theorem Metadata.roundTrips : RoundTrips (fun _ => True) Metadata.toValue Metadata.ofValue? :=
  Table.roundTrips (fun _ => rfl : ∀ v : Value, some (id v) = some v)

/-! ## Settings -/

theorem Backend.roundTrips : RoundTrips (fun _ => True) Backend.toValue Backend.ofValue? where
  returns b _ := by
    rw [Backend.ofValue?, Backend.toValue, Fields.bind_record]
    rw [Fields.required_written Value.roundTrips_text trivial (a := b.name),
      Fields.defaulted_written (Table.roundTrips Value.text_returns) trivial (a := b.options)]
    · rfl
    all_goals simp [Fields.lookup?]
  fits_of_read _ _ _ := trivial
  null := rfl

theorem RegistryOptions.roundTrips :
    RoundTrips (fun _ => True) RegistryOptions.toValue RegistryOptions.ofValue? where
  returns o _ := by
    rw [RegistryOptions.ofValue?, RegistryOptions.toValue, Fields.bind_record]
    rw [Fields.defaulted_written Value.roundTrips_text trivial (a := o.name),
      Fields.optional_written Value.roundTrips_text (fun _ _ => trivial) (o := o.announceAddress),
      Fields.optional_written Backend.roundTrips (fun _ _ => trivial) (o := o.backend)]
    · rfl
    all_goals simp [Fields.lookup?, Fields.lookup?_append, Fields.lookup?_optionalField]
  fits_of_read _ _ _ := trivial
  null := rfl

theorem Identity.roundTrips : RoundTrips (fun _ => True) Identity.toValue Identity.ofValue? where
  returns i _ := by
    rw [Identity.ofValue?, Identity.toValue, Fields.bind_record]
    rw [Fields.optional_written Value.roundTrips_text (fun _ _ => trivial) (o := i.id),
      Fields.optional_written Value.roundTrips_text (fun _ _ => trivial) (o := i.defaultRegistry)]
    · rfl
    all_goals simp [Fields.lookup?_append, Fields.lookup?_optionalField]
  fits_of_read _ _ _ := trivial
  null := rfl

/-- Limits that are counts. -/
structure Limits.Counted (l : Limits) : Prop where
  maxConcurrency : ∀ n, l.maxConcurrency = some n → n < Text.countBound
  timeoutSecs : ∀ n, l.timeoutSecs = some n → n < Text.countBound

theorem Limits.roundTrips : RoundTrips Limits.Counted Limits.toValue Limits.ofValue? where
  returns l hl := by
    rw [Limits.ofValue?, Limits.toValue, Fields.bind_record]
    rw [Fields.optional_written Value.roundTrips_count hl.maxConcurrency,
      Fields.optional_written Value.roundTrips_count hl.timeoutSecs]
    · rfl
    all_goals simp [Fields.lookup?_append, Fields.lookup?_optionalField]
  fits_of_read v l hl := by
    simp only [Limits.ofValue?, Option.bind_eq_bind, Option.bind_eq_some_iff, pure,
      Option.some.injEq] at hl
    obtain ⟨fields, -, most, hmost, secs, hsecs, rfl⟩ := hl
    exact ⟨Fields.fits_of_optional Value.roundTrips_count hmost,
      Fields.fits_of_optional Value.roundTrips_count hsecs⟩
  null := rfl

/-- Settings whose limits are counts. -/
def Settings.Counted (s : Settings) : Prop := ∀ l, s.publish = some l → l.Counted

/-- Registries are left out only where there are none. -/
theorem Settings.registriesField_cases (s : Settings) :
    s.registriesField = some (s.registries.toValue RegistryOptions.toValue) ∨
      s.registriesField = none ∧ s.registries = {} := by
  unfold registriesField
  split
  · rename_i hempty
    exact .inr ⟨rfl, Table.eq_of_entries (List.isEmpty_iff.1 hempty)⟩
  · exact .inl rfl

theorem Settings.roundTrips : RoundTrips Settings.Counted Settings.toValue Settings.ofValue? where
  returns s hs := by
    rw [Settings.ofValue?, Settings.toValue, Fields.bind_record]
    rw [Fields.required_written Value.roundTrips_text trivial (a := s.version),
      Fields.optional_written Identity.roundTrips (fun _ _ => trivial) (o := s.publisher),
      Fields.defaulted_written
        (Table.roundTrips fun o => RegistryOptions.roundTrips.returns o trivial) trivial
        (a := s.registries),
      Fields.optional_written Limits.roundTrips hs]
    · rfl
    all_goals simp [Fields.lookup?, Fields.lookup?_append, Fields.lookup?_optionalField]
    exact s.registriesField_cases
  fits_of_read v s hs := by
    simp only [Settings.ofValue?, Option.bind_eq_bind, Option.bind_eq_some_iff, pure,
      Option.some.injEq] at hs
    obtain ⟨fields, -, version, -, publisher, -, registries, -, publish, hpublish, rfl⟩ := hs
    exact Fields.fits_of_optional Limits.roundTrips hpublish
  null := rfl

/-! ## Schemas and records -/

theorem Schema.roundTrips : RoundTrips (fun _ => True) Schema.toValue Schema.ofValue? where
  returns s _ := by
    rw [Schema.ofValue?, Schema.toValue, Fields.bind_record]
    rw [Fields.required_written Value.roundTrips_text trivial (a := s.name),
      Fields.required_written Value.roundTrips_text trivial (a := s.document)]
    · rfl
    all_goals simp [Fields.lookup?]
  fits_of_read _ _ _ := trivial
  null := rfl

theorem Definition.roundTrips :
    RoundTrips (fun _ => True) Definition.toValue Definition.ofValue? where
  returns d _ := by
    rw [Definition.ofValue?, Definition.toValue, Fields.bind_record]
    rw [Fields.required_written Schema.roundTrips trivial (a := d.schema),
      Fields.required_written Metadata.roundTrips trivial (a := d.metadata)]
    · rfl
    all_goals simp [Fields.lookup?]
  fits_of_read _ _ _ := trivial
  null := rfl

theorem Record.roundTrips : RoundTrips (fun _ => True) Record.toValue Record.ofValue? where
  returns r _ := by
    rw [Record.ofValue?, Record.toValue, Fields.bind_record]
    rw [Fields.required_written Value.roundTrips_text trivial (a := r.registrationId),
      Fields.required_written Value.roundTrips_text trivial (a := r.name),
      Fields.optional_written Value.roundTrips_text (fun _ _ => trivial) (o := r.location),
      Fields.required_written Metadata.roundTrips trivial (a := r.metadata)]
    · rfl
    all_goals simp [Fields.lookup?, Fields.lookup?_append, Fields.lookup?_optionalField]
  fits_of_read _ _ _ := trivial
  null := rfl

/-! ## All of them -/

/-- **Written forms are normal forms.** Settings and all of their parts, definitions, schemas,
metadata of any values and records come back as they were written, and what was read from any value
tree has a written form from which the same is read and written again. Of settings and limits this
asks that the limits are counts, as those are that were read from a tree. -/
theorem written_forms_are_normal :
    NormalForm Settings.Counted Settings.toValue Settings.ofValue? ∧
    NormalForm (fun _ => True) Identity.toValue Identity.ofValue? ∧
    NormalForm (fun _ => True) RegistryOptions.toValue RegistryOptions.ofValue? ∧
    NormalForm (fun _ => True) Backend.toValue Backend.ofValue? ∧
    NormalForm Limits.Counted Limits.toValue Limits.ofValue? ∧
    NormalForm (fun _ => True) Definition.toValue Definition.ofValue? ∧
    NormalForm (fun _ => True) Schema.toValue Schema.ofValue? ∧
    NormalForm (fun _ => True) Metadata.toValue Metadata.ofValue? ∧
    NormalForm (fun _ => True) Record.toValue Record.ofValue? :=
  ⟨Settings.roundTrips.normalForm, Identity.roundTrips.normalForm,
    RegistryOptions.roundTrips.normalForm, Backend.roundTrips.normalForm,
    Limits.roundTrips.normalForm, Definition.roundTrips.normalForm, Schema.roundTrips.normalForm,
    Metadata.roundTrips.normalForm, Record.roundTrips.normalForm⟩

/-- Settings in which some parts are there and some are not. -/
def partlySet : Settings where
  version := "1.0"
  publisher := some { defaultRegistry := some "main" }
  registries := .ofList [("main", { name := "main", backend := some { name := "local" } }),
    ("spare", { announceAddress := some "spare:7000" })]
  publish := some { maxConcurrency := some 4 }

/-- A tree from which the same settings are read: one field is not known, some are null or missing,
and the limits are given by position. -/
def looselyWritten : Value := .record [
  ("comment", .text "not read"),
  ("publish", .list [.ofNat 4, .null]),
  ("registries", .record [
    ("spare", .record [("announceAddress", .text "spare:7000"), ("backend", .null)]),
    ("main", .record [("backend", .record [("name", .text "local")]), ("name", .text "main")])]),
  ("publisher", .record [("defaultRegistry", .text "main")]),
  ("version", .text "1.0")]

theorem partlySet_returns :
    partlySet.Counted ∧ Settings.ofValue? looselyWritten = some partlySet ∧
    Settings.ofValue? partlySet.toValue = some partlySet ∧
    rewrite Settings.toValue Settings.ofValue? partlySet.toValue = some partlySet.toValue := by
  have hread : Settings.ofValue? looselyWritten = some partlySet := by decide +kernel
  have hcounted : partlySet.Counted := by
    rintro l ⟨⟩
    exact ⟨by rintro n ⟨⟩; decide, by rintro n ⟨⟩⟩
  refine ⟨hcounted, hread, written_forms_are_normal.1.returns partlySet hcounted, ?_⟩
  exact written_forms_are_normal.1.settles looselyWritten _ (by rw [rewrite, hread]; rfl)

end SchemaHerald
