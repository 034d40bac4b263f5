import SchemaHerald.Proofs.AnyAnswers

/-!
# Publishing again what failed

A batch that fails in part says which schemas failed. Each of them has left its key free, and each of
the others has its registration (`Tracks.gains`, `Sound.free_of_idle`). So a second batch of exactly the
failed schemas comes to a registration for each of them at a registry that accepts, and the
registrations of the first one stay as they are (`retry_completes`).
-/
namespace SchemaHerald

/-- **A schema failed**, as the parts of a failure tell. -/
def Definition.failedIn (parts : List (Part Failure)) (d : Definition) : Bool :=
  (parts.map (·.schema)).contains d.name

/-- The key of a schema in a registry. -/
def Definition.keyIn (registry : String) (d : Definition) : Key :=
  Key.canonical registry d.schema.name

theorem Definition.failedIn_iff {parts : List (Part Failure)} {d : Definition} :
    d.failedIn parts = true ↔ ∃ part ∈ parts, part.schema = d.name := by
  rw [failedIn, List.contains_iff_mem, List.mem_map]

namespace Publisher

variable {p q : Publisher} {c first : Nat} {o : RegistryOptions} {ds : List Definition}
  {registry : String} {gs : List Registration} {parts : List (Part Failure)} {out : Outcome}

/-- **Nothing is in the way of a batch**: the registrar is open, nothing is reserved, and the schemas
have different names, none of which is blank or live in the registry. -/
structure Unpublished (p : Publisher) (o : RegistryOptions) (ds : List Definition) : Prop where
  isOpen : p.registrar.closed = false
  idle : p.registrar.inFlight = 0
  named : ∀ d ∈ ds, d.name ≠ ""
  different : (ds.map (·.name)).Nodup
  free : ∀ d ∈ ds, p.registrar.find? o.name d.schema.name = none

/-- **Each schema of a batch has been registered or has failed**, and not both. -/
theorem BatchAccount.registered_names (h : p.BatchAccount c first registry ds gs parts out)
    (hnames : (ds.map (·.name)).Nodup) :
    (gs.map (·.schema)).Perm ((ds.filter fun d => !d.failedIn parts).map (·.name)) := by
  have hboth := h.names.nodup_iff.2 hnames
  obtain ⟨hgs, -, hdisjoint⟩ := List.nodup_append.1 hboth
  refine (List.perm_ext_iff_of_nodup hgs (hnames.sublist (List.filter_sublist.map _))).2 fun name => ?_
  have hmem : name ∈ ds.map (·.name) ↔ name ∈ gs.map (·.schema) ∨ name ∈ parts.map (·.schema) := by
    rw [← h.names.mem_iff, List.mem_append]
  constructor
  · intro hname
    obtain ⟨d, hd, rfl⟩ := List.mem_map.1 (hmem.2 (.inl hname))
    refine List.mem_map.2 ⟨d, List.mem_filter.2 ⟨hd, ?_⟩, rfl⟩
    rw [Bool.not_eq_true', Bool.eq_false_iff]
    intro hfailed
    exact hdisjoint _ hname _ (List.contains_iff_mem.1 hfailed) rfl
  · intro hname
    obtain ⟨d, hd, rfl⟩ := List.mem_map.1 hname
    obtain ⟨hd, hnot⟩ := List.mem_filter.1 hd
    refine (hmem.1 (List.mem_map.2 ⟨d, hd, rfl⟩)).resolve_right fun hfailed => ?_
    rw [Bool.not_eq_true', Bool.eq_false_iff] at hnot
    exact hnot (List.contains_iff_mem.2 hfailed)

/-- **Publishing again exactly what failed completes a batch.** A publisher has done anything before, is
open now and has nothing in flight. A batch of schemas with different names, none of which is blank or
live, is published; its tasks have turns and answers in any order, and the answers may be any. If it
fails in part, the names that did not fail have become live, each with one registration, and no others
have. A second batch of exactly the schemas that failed, in any order, then succeeds at a registry that
accepts, with one registration for each of them: after it the registrar lists and finds what it did
before the first batch and one registration for each schema, those of the first batch as they were. -/
theorem retry_completes (id : String) (listening : Bool) (limit : Option Nat) (past : List Move)
    (p : Publisher) (hp : p = (fresh id listening limit).moves past) (o : RegistryOptions)
    (ds : List Definition) (hbatch : Unpublished p o ds) (first : List Move)
    (hfirst : ∀ m ∈ first, m.Within p.tasks.length (p.tasks.length + ds.length))
    (q : Publisher) (hq : q = (p.ask (.publishAll o ds)).moves first)
    (registry : String) (requested : Nat) (parts : List (Part Failure))
    (hout : q.outcome? p.tasks.length = some (.failed (.partialPublish registry requested parts))) :
    ∃ kept : List Registration,
      p.registrar.Gains q.registrar kept ∧
      (kept.map (·.key)).Perm ((ds.filter fun d => !d.failedIn parts).map (·.keyIn o.name)) ∧
      ∀ again : List Definition, again.Perm (ds.filter (·.failedIn parts)) →
        Succeeds q (.publishAll o again) again.length fun out r => ∃ gs : List Registration,
          out = .registeredAll gs ∧ (gs.map (·.key)).Perm (again.map (·.keyIn o.name)) ∧
          q.registrar.Gains r.registrar gs ∧ p.registrar.Gains r.registrar (kept ++ gs) ∧
          ((kept ++ gs).map (·.key)).Perm (ds.map (·.keyIn o.name)) ∧
          ∀ d ∈ ds, ∃ g ∈ kept ++ gs, r.registrar.find? o.name d.schema.name = some g := by
  subst hq
  have hregular : p.Regular := hp ▸ regular_moves id listening limit past
  obtain he | ⟨_, _, he⟩ | ⟨⟨hname, hlimit⟩, answers, kept, parts', hparts, hsome, htracks, haccount⟩ :=
    hregular.account_of_failed hbatch.isOpen hbatch.different hfirst hout
  · cases he
  · cases he
  cases hparts
  have hkept := haccount.registered_names hbatch.different
  have hgains := htracks.gains hbatch.different (Text.trim_trim o.name) haccount
  have hkeys := keys_perm haccount.registries.1 hkept
  refine ⟨kept, hgains, hkeys, fun again hagain => ?_⟩
  have hfailed : ∃ d ∈ ds, d.failedIn parts = true := by
    obtain ⟨part, hpart⟩ := List.exists_mem_of_ne_nil parts hsome
    have hmem : part.schema ∈ ds.map (·.name) := by
      rw [← haccount.names.mem_iff]
      exact List.mem_append_right _ (List.mem_map_of_mem hpart)
    obtain ⟨d, hd, hschema⟩ := List.mem_map.1 hmem
    exact ⟨d, hd, Definition.failedIn_iff.2 ⟨part, hpart, hschema.symm⟩⟩
  have hlimit' : ((p.ask (.publishAll o ds)).moves first).limit = p.limit := limit_moves _ first
  refine (Regular.succeeds_choice ((hregular.move (.ask _)).moves first) htracks.isOpen hname
    (fun n hn => hlimit n (hlimit' ▸ hn)) hbatch.different hfailed (fun d hd hagain' => ?_)
    hagain).mono ?_
  · -- the key of what failed is as it was, and it was free
    obtain ⟨i, hi⟩ := List.mem_iff_getElem?.1 hd
    obtain ⟨part, hpart, hschema⟩ := Definition.failedIn_iff.1 hagain'
    have haccounts := haccount.accounts_of_part hbatch.different hi hpart hschema
    have hslot := htracks.slot_of_failed hi haccounts
    rw [key_circumstances] at hslot
    exact ⟨hbatch.named d hd,
      hslot.trans (hregular.sound.free_of_idle hbatch.idle (hbatch.free d hd))⟩
  · rintro out r ⟨gs, rfl, hgs, hgains'⟩
    have hsplit : ((ds.filter fun d => !d.failedIn parts) ++ ds.filter (·.failedIn parts)).Perm ds :=
      List.perm_append_comm.trans (List.filter_append_perm _ ds)
    have hall : ((kept ++ gs).map (·.key)).Perm (ds.map (·.keyIn o.name)) := by
      rw [List.map_append]
      refine (hkeys.append (hgs.trans (hagain.map _))).trans ?_
      rw [← List.map_append]
      exact hsplit.map _
    refine ⟨gs, rfl, hgs, hgains', hgains.trans hgains', hall, fun d hd => ?_⟩
    obtain ⟨g, hg, hkey⟩ := List.mem_map.1 (hall.mem_iff.2 (List.mem_map_of_mem hd))
    exact ⟨g, hg, ((hgains.trans hgains').found _ _ g).2 (.inr ⟨hg, hkey⟩)⟩

/-- Three schemas, of which the registry refuses the second. -/
def secondRefused : List Definition :=
  [{ schema := ⟨"s", "1"⟩ }, { schema := ⟨" t ", "2"⟩ }, { schema := ⟨"u", "3"⟩ }]

/-- There is one permit, which goes from the first of them to the others. -/
def oneAfterTheOther : List Move :=
  [.run 0, .run 1, .run 2, .run 3, .answerPublish 1 (.record ⟨"1", "s", none, {}⟩), .run 2,
    .answerPublish 2 (.refused ⟨"unavailable", []⟩), .run 3,
    .answerPublish 3 (.record ⟨"3", "u", none, {}⟩), .run 0]

/-- What failed. -/
def unavailable : List (Part Failure) := [⟨"t", "r", .remote "r" "t" ⟨"unavailable", []⟩⟩]

theorem retry_completes_secondRefused :
    Unpublished (fresh "id" true (some 1)) { name := " r" } secondRefused ∧
      (∀ m ∈ oneAfterTheOther, m.Within 0 3) ∧
      (((fresh "id" true (some 1)).ask (.publishAll { name := " r" } secondRefused)).moves
        oneAfterTheOther).outcome? 0 = some (.failed (.partialPublish "r" 3 unavailable)) ∧
      (secondRefused.filter (·.failedIn unavailable)).map (·.name) = ["t"] ∧
      ∃ kept : List Registration,
        (fresh "id" true (some 1)).registrar.Gains (((fresh "id" true (some 1)).ask
          (.publishAll { name := " r" } secondRefused)).moves oneAfterTheOther).registrar kept ∧
        Succeeds (((fresh "id" true (some 1)).ask
            (.publishAll { name := " r" } secondRefused)).moves oneAfterTheOther)
          (.publishAll { name := " r" } (secondRefused.filter (·.failedIn unavailable)))
          (secondRefused.filter (·.failedIn unavailable)).length fun out r => ∃ gs,
            out = .registeredAll gs ∧
            (fresh "id" true (some 1)).registrar.Gains r.registrar (kept ++ gs) := by
  have hbatch : Unpublished (fresh "id" true (some 1)) { name := " r" } secondRefused :=
    ⟨rfl, rfl, by decide +kernel, by decide +kernel, fun _ _ => rfl⟩
  have hfirst : ∀ m ∈ oneAfterTheOther, m.Within 0 3 := by
    simp only [oneAfterTheOther, List.forall_mem_cons]
    refine ⟨.run 0 ?_ ?_, .run 1 ?_ ?_, .run 2 ?_ ?_, .run 3 ?_ ?_, .answer 1 _ ?_ ?_, .run 2 ?_ ?_,
      .answer 2 _ ?_ ?_, .run 3 ?_ ?_, .answer 3 _ ?_ ?_, .run 0 ?_ ?_,
      fun m hm => absurd hm List.not_mem_nil⟩
    all_goals decide
  have hout : (((fresh "id" true (some 1)).ask (.publishAll { name := " r" } secondRefused)).moves
      oneAfterTheOther).outcome? 0 = some (.failed (.partialPublish "r" 3 unavailable)) := by rfl
  obtain ⟨kept, hkept, -, hretry⟩ := retry_completes "id" true (some 1) [] _ rfl { name := " r" }
    secondRefused hbatch oneAfterTheOther hfirst _ rfl "r" 3 unavailable hout
  exact ⟨hbatch, hfirst, hout, by decide +kernel, kept, hkept, (hretry _ (.refl _)).mono
    fun _ _ ⟨gs, hgs, _, _, hgains, _⟩ => ⟨gs, hgs, hgains⟩⟩

end Publisher
end SchemaHerald
