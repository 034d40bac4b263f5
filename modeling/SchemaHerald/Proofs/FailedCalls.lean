import SchemaHerald.Proofs.ListenerEvents
import SchemaHerald.Proofs.PublishCourse

/-!
# What failed calls leave behind

A publish that is refused in its turn does nothing. One that gets as far as the registry takes its
key in its turn (`Registrar.TakesKey`) and, when the registry refuses or breaks off, gives it back
with the answer (`Registrar.GivesKeyBack`), whatever others did in the meantime; what stays is the
handle for its registry (`Registrar.abandon_handleFor_of_reserve`). `TakenBack` says so for a run.

That a publish has the registry called once or not at all is read off the journal
(`Publisher.publishCalls`): whoever waits to begin has not called (`PublishCalled`), and what others
do is no call of it.

An unpublish that fails changes nothing and is not heard of. `leavesNothing_moves` is the whole of
it.
-/
namespace SchemaHerald

/-- What a publish can be refused for before the registry is called. -/
def Failure.IsRefusal : Failure → Prop
  | .invalidArgument _ _ | .duplicate _ _ | .registrarClosed => True
  | _ => False

/-- The registry is called to publish for a task. -/
def Entry.isPublishOf (u : Nat) : Entry → Bool
  | .publishCall t _ _ => t == u
  | _ => false

/-- The stages of a task that may have had the registry called to publish. -/
def Stage.HasCalled : Stage → Prop
  | .publishing _ _ _ | .tryingPublish _ _ | .ended _ => True
  | _ => False

theorem Stage.HasCalled.next {s s' : Stage} (h : s.HasCalled) (hn : s.Next s') : s'.HasCalled := by
  cases hn <;> trivial

/-! ## The registrar of a publish -/

namespace Registrar

variable {r r₁ : Registrar} {k : Key} {o : RegistryOptions} {registry schema : String}

/-- **The key of a publish is taken**, and there is a handle for its registry. -/
structure TakesKey (r r' : Registrar) (k : Key) : Prop where
  isOpen : r.closed = false
  free : r.slots.get? k = none
  slots : ∀ k', r'.slots.get? k' = if k' = k then some .reserved else r.slots.get? k'
  registrations : r'.registrations = r.registrations
  handle : ∃ handle, r'.handles.get? k.registry = some handle
  kept : ∀ n handle, r.handles.get? n = some handle → r'.handles.get? n = some handle
  others : ∀ n, n ≠ k.registry → r'.handles.get? n = r.handles.get? n
  inFlight : r'.inFlight = r.inFlight + 1
  closed : r'.closed = r.closed
  shut : r'.shut = r.shut

/-- **The key of a publish is given back**, and the handle for its registry stays. -/
structure GivesKeyBack (r r' : Registrar) (k : Key) : Prop where
  reserved : r.slots.get? k = some .reserved
  slots : ∀ k', r'.slots.get? k' = if k' = k then none else r.slots.get? k'
  registrations : r'.registrations = r.registrations
  handle : ∃ handle, r'.handles.get? k.registry = some handle
  handles : r'.handles = r.handles
  inFlight : r'.inFlight + 1 = r.inFlight
  closed : r'.closed = r.closed
  shut : r'.shut = r.shut

theorem takesKey_of_reserve (hr : r.reserve registry schema = .ok (k, r₁))
    (ho : o.name = k.registry) : r.TakesKey (r₁.handleFor o).2 k := by
  obtain ⟨hopen, -, hfree, rfl⟩ := reserve_eq_ok_iff.1 hr
  refine ⟨hopen, hfree, fun k' => ?_,
    registrations_congr fun k' => live?_handleFor.trans (live?_reserve hr),
    ⟨_, get?_handleFor.trans (if_pos ho.symm)⟩,
    fun n handle hn => get?_handleFor_of_some hn, fun n hn => ?_, ?_, ?_, ?_⟩
  · rw [slots_handleFor, Table.get?_insert]
  · rw [get?_handleFor, if_neg (ho ▸ hn)]
  · rw [inFlight_handleFor]
  · rw [closed_handleFor]
  · rw [shut_handleFor]

theorem givesKeyBack_abandon (hreserved : r.slots.get? k = some .reserved)
    (hbusy : r.inFlight ≠ 0) {handle : Handle} (hh : r.handles.get? k.registry = some handle) :
    r.GivesKeyBack (r.abandon k) k where
  reserved := hreserved
  slots _ := get?_unreserve hreserved
  registrations := registrations_congr fun _ => live?_abandon
  handle := ⟨handle, hh⟩
  handles := rfl
  inFlight := Nat.succ_pred hbusy
  closed := rfl
  shut := rfl

theorem isRefusal_of_refusal? {d : Definition} {failure : Failure}
    (h : r.refusal? o d = some failure) : failure.IsRefusal := by
  unfold refusal? at h
  split at h
  · cases h
    trivial
  · split at h
    · cases h
      trivial
    · split at h
      · rename_i failure' hr
        cases h
        rcases reserve_eq_error_iff.1 hr with ⟨-, rfl⟩ | ⟨-, -, rfl⟩ <;> trivial
      · cases h

/-- **A key that is taken and given back** leaves a handle, and nothing else. -/
theorem abandon_handleFor_of_reserve (hr : r.reserve registry schema = .ok (k, r₁)) :
    (r₁.handleFor o).2.abandon k = (r.handleFor o).2 := by
  obtain ⟨-, -, hfree, rfl⟩ := reserve_eq_ok_iff.1 hr
  have hback : ∀ r' : Registrar, r'.slots = r.slots.insert k .reserved →
      r'.unreserve k = r.slots := by
    intro r' hslots
    have hk : r'.slots.get? k = some .reserved := by rw [hslots, Table.get?_insert_self]
    refine Table.eq_of_get? fun k' => ?_
    rw [get?_unreserve hk, hslots, Table.get?_insert]
    split
    · rename_i he
      rw [he, hfree]
    · rfl
  rw [abandon, hback _ (slots_handleFor o)]
  unfold handleFor newHandle
  dsimp only
  split <;> rfl

end Registrar

namespace Publisher

open Relation

variable {p q : Publisher} {t u : Nat} {s : Stage} {o : RegistryOptions} {d : Definition} {k : Key}
  {g : Registration} {m : Move} {ms : List Move} {out : Outcome}

/-! ## How often the registry was called -/

/-- **How often a task had the registry called** to publish. -/
def publishCalls (p : Publisher) (u : Nat) : Nat := p.journal.countP (Entry.isPublishOf u)

theorem publishCalls_congr (h : q.journal = p.journal) : q.publishCalls u = p.publishCalls u := by
  rw [publishCalls, h, publishCalls]

theorem publishCalls_cons {e : Entry} (h : q.journal = e :: p.journal) :
    q.publishCalls u = p.publishCalls u + if e.isPublishOf u then 1 else 0 := by
  rw [publishCalls, h, List.countP_cons, publishCalls]

theorem publishCalls_step (hs : Step t p q) (hne : t ≠ u) :
    q.publishCalls u = p.publishCalls u := by
  have hother : (t == u) = false := beq_false_of_ne hne
  rcases journal_step hs with he | ⟨h, d, he⟩ | ⟨g, he, -⟩ | ⟨d, g, rest, he, -⟩
  · exact publishCalls_congr he
  · rw [publishCalls_cons he, Entry.isPublishOf, hother]
    rfl
  all_goals
    rw [publishCalls_cons he]
    rfl

theorem publishCalls_reply (hs : Reply t p q) : q.publishCalls u = p.publishCalls u := by
  rcases journal_reply hs with he | ⟨g, he⟩ | ⟨g, he⟩
  · exact publishCalls_congr he
  all_goals
    rw [publishCalls_cons he]
    rfl

/-- **The moves of others** are no calls of a task. -/
theorem publishCalls_move (hm : m.task? ≠ some u) :
    (p.move m).publishCalls u = p.publishCalls u := by
  have steps : ∀ {t q}, t ≠ u → ReflTransGen (Step t) p q →
      q.publishCalls u = p.publishCalls u := by
    intro t q hne hs
    induction hs with
    | refl => rfl
    | tail _ hstep ih => exact (publishCalls_step hstep hne).trans ih
  have reply : ∀ {t q}, q = p ∨ Reply t p q → q.publishCalls u = p.publishCalls u := by
    rintro t q (rfl | hs)
    · rfl
    · exact publishCalls_reply hs
  cases m with
  | ask request => rfl
  | abandon t => exact steps (fun he => hm (congrArg some he)) (abandon_steps p t)
  | run t => exact steps (fun he => hm (congrArg some he)) (run_steps p t)
  | answerPublish t a => exact reply (answerPublish_reply p t a)
  | answerUnpublish t a => exact reply (answerUnpublish_reply p t a)
  | reserve | drop | register | unregister | newHandle | handleFor =>
    exact publishCalls_congr (journal_of_isDirect p rfl)

/-- A task that leaves everything alone calls nobody. -/
theorem LeavesAlone.publishCalls (h : LeavesAlone u p ms) :
    (p.moves ms).publishCalls u = p.publishCalls u := by
  induction ms generalizing p with
  | nil => rfl
  | cons m ms ih =>
    refine (ih h.2).trans ?_
    by_cases hm : m.task? = some u
    · exact publishCalls_congr (h.1 hm).journal
    · exact publishCalls_move hm

/-- **Whoever has had the registry called to publish** waits for the answer or has ended. -/
def PublishCalled (p : Publisher) : Prop :=
  ∀ u handle d, .publishCall u handle d ∈ p.journal → ∃ s, p.stage? u = some s ∧ s.HasCalled

theorem Advances.hasCalled (ha : Advances p q u) (hs : ∃ s, p.stage? u = some s ∧ s.HasCalled) :
    ∃ s, q.stage? u = some s ∧ s.HasCalled := by
  obtain ⟨s, hs, hcalled⟩ := hs
  obtain ⟨s', hs', rfl | hn⟩ := ha s hs
  · exact ⟨s', hs', hcalled⟩
  · exact ⟨s', hs', hcalled.next hn⟩

theorem PublishCalled.step (hcalled : p.PublishCalled) (h : p.Sound) (hs : Step t p q) :
    q.PublishCalled := by
  intro u handle d hu
  have hold : Entry.publishCall u handle d ∈ p.journal →
      ∃ s, q.stage? u = some s ∧ s.HasCalled := fun hmem =>
    (h.advances_step hs u).hasCalled (hcalled u handle d hmem)
  cases hs with
  | refuse | refuseBatch | closeAgain | release =>
    rw [journal_finish] at hu
    exact hold hu
  | reserve o o' d' k r ht =>
    rcases List.mem_cons.1 hu with he | hu
    · cases he
      exact ⟨_, stage?_setStage_self ht, trivial⟩
    · exact hold hu
  | tryPublish handle' d' ht =>
    rcases List.mem_cons.1 hu with he | hu
    · cases he
      exact ⟨_, stage?_setStage_self ht, trivial⟩
    · exact hold hu
  | unpublish | tryUnpublish | take =>
    rcases List.mem_cons.1 hu with he | hu
    · cases he
    · exact hold hu
  | _ => exact hold hu

theorem PublishCalled.reply (hcalled : p.PublishCalled) (h : p.Sound) (hs : Reply t p q) :
    q.PublishCalled := by
  intro u handle d hu
  refine (h.advances_reply hs u).hasCalled (hcalled u handle d ?_)
  rcases journal_reply hs with he | ⟨g, he⟩ | ⟨g, he⟩ <;> simpa [he] using hu

theorem publishCalled_fresh (id : String) (listening : Bool) (limit : Option Nat) :
    (fresh id listening limit).PublishCalled := fun _ _ _ hu => by cases hu

theorem PublishCalled.move (hcalled : p.PublishCalled) (h : p.Sound) (m : Move) :
    (p.move m).PublishCalled := by
  have hboth : (p.move m).Sound ∧ (p.move m).PublishCalled := by
    refine move_induction (P := fun q => q.Sound ∧ q.PublishCalled) m ?_ ?_ ?_ ?_ ⟨h, hcalled⟩
    · intro request _
      refine ⟨h.ask request, fun u handle d hu => ?_⟩
      obtain ⟨s, hs, hc⟩ := hcalled u handle d hu
      exact ⟨s, stage?_ask_of_some request hs, hc⟩
    · exact fun t q q' hs ⟨hq, hc⟩ => ⟨hq.step hs, hc.step hq hs⟩
    · exact fun t q hs => ⟨h.reply hs, hcalled.reply h hs⟩
    · refine fun hm => ⟨h.direct hm, fun u handle d hu => ?_⟩
      rw [journal_of_isDirect p hm] at hu
      rw [stage?_congr (tasks_of_isDirect p hm)]
      exact hcalled u handle d hu
  exact hboth.2

theorem PublishCalled.moves (hcalled : p.PublishCalled) (h : p.Sound) (ms : List Move) :
    (p.moves ms).PublishCalled := by
  induction ms generalizing p with
  | nil => exact hcalled
  | cons m ms ih => exact ih (hcalled.move h m) (h.move m)

/-- A publish that has not begun has not had the registry called. -/
theorem PublishCalled.publishCalls_eq_zero (hcalled : p.PublishCalled) (ha : p.Awaits u o d) :
    p.publishCalls u = 0 := by
  refine List.countP_eq_zero.2 fun e he hu => ?_
  cases e with
  | publishCall t handle d' =>
    obtain rfl : t = u := beq_iff_eq.1 hu
    obtain ⟨s, hs, hs'⟩ := hcalled t handle d' he
    obtain ⟨s₀, hs₀, hawaits⟩ := ha
    cases hs.symm.trans hs₀
    cases s with
    | publishing | tryingPublish | ended => exact hawaits
    | _ => exact hs'
  | _ => cases hu

/-! ## Publishes that fail -/

/-- **A publish took its key and gave it back**: it had the registry called in its turn, and was
answered by `a`. In all other moves of its own it left everything alone. -/
inductive TakenBack (p : Publisher) (u : Nat) (o : RegistryOptions) (d : Definition)
    (ms : List Move) (a : Answer) : Prop
  | intro (before mid after : List Move) (p₁ p₂ p₃ p₄ : Publisher) (handle : Handle)
      (d' : Definition) (hms : ms = before ++ .run u :: (mid ++ .answerPublish u a :: after))
      (hp₁ : p₁ = p.moves before) (hp₂ : p₂ = p₁.run u) (hp₃ : p₃ = p₂.moves mid)
      (hp₄ : p₄ = p₃.answerPublish u a)
      (hbefore : LeavesAlone u p before)
      (htakes : p₁.registrar.TakesKey p₂.registrar ⟨Text.trim o.name, d.name⟩)
      (hcall : p₂.journal = .publishCall u handle d' :: p₁.journal)
      (hname : d'.name = d.name)
      (hmid : LeavesAlone u p₂ mid)
      (hhandle : p₃.registrar.handles.get? (Text.trim o.name) = some handle)
      (hgives : p₃.registrar.GivesKeyBack p₄.registrar ⟨Text.trim o.name, d.name⟩)
      (hsilent : p₄.journal = p₃.journal)
      (hafter : LeavesAlone u p₄ after)
      (hback : p₃.registrar = p₂.registrar →
        p₄.registrar = (p₁.registrar.handleFor { o with name := Text.trim o.name }).2) :
      TakenBack p u o d ms a

/-- An answer that is no record gives the key back, and is not heard of. -/
theorem Sound.answer_lost (h : p.Sound) {handle : Handle} {a : Answer}
    (hs : p.stage? u = some (.publishing k handle d)) (ha : ∀ record, a ≠ .record record) :
    (p.answerPublish u a).registrar = p.registrar.abandon k ∧
      (p.answerPublish u a).journal = p.journal := by
  unfold answerPublish
  rw [hs]
  cases a with
  | record record => exact absurd rfl (ha record)
  | refused | broken =>
    exact ⟨(h.registrar_finish_publishing hs (by simp) _).trans (by simp), by simp⟩

/-- A publish that took its key and gave it back had the registry called once. -/
theorem TakenBack.publishCalls {a : Answer} (h : TakenBack p u o d ms a)
    (h0 : p.publishCalls u = 0) : (p.moves ms).publishCalls u = 1 := by
  obtain ⟨before, mid, after, p₁, p₂, p₃, p₄, handle, d', rfl, rfl, rfl, rfl, rfl, hbefore, -,
    hcall, -, hmid, -, -, hsilent, hafter, -⟩ := h
  have hmoves : p.moves (before ++ .run u :: (mid ++ .answerPublish u a :: after)) =
      ((((p.moves before).run u).moves mid).answerPublish u a).moves after := by
    rw [moves_append]
    exact moves_append ((p.moves before).run u) mid _
  rw [hmoves, hafter.publishCalls, publishCalls_congr hsilent, hmid.publishCalls,
    publishCalls_cons hcall, hbefore.publishCalls, h0, Entry.isPublishOf, beq_self_eq_true]
  rfl

/-- **How a publish ends**: it was refused and did nothing, or it was answered; if that was by no
record, it gave back what it took. -/
theorem Sound.publish_ends (h : p.Sound) (hkin : p.Kin) (ha : p.Awaits u o d)
    (hout : (p.moves ms).outcome? u = some out) :
    (∃ failure, out = .failed failure ∧ failure.IsRefusal ∧ LeavesAlone u p ms) ∨
      ∃ a, Settles ⟨Text.trim o.name, d.name⟩ a out ∧
        ((∀ record, a ≠ .record record) → TakenBack p u o d ms a) := by
  cases h.course hkin ha hout with
  | refused before after failure hms hbefore hrefusal hrun hafter =>
    refine .inl ⟨failure, rfl, Registrar.isRefusal_of_refusal? hrefusal, ?_⟩
    rw [hms]
    exact hbefore.append ⟨fun _ => hrun, hafter⟩
  | answered before mid after a k r handle d' out hms hbefore hrefusal hr hregistrar hcall hmid
      hstage hafter hsettles =>
    have hwaiting : (((p.moves before).run u).moves mid).Sound :=
      Sound.moves ((h.moves before).move (.run u)) mid
    obtain rfl : k = ⟨Text.trim o.name, d.name⟩ := by
      rw [(Registrar.reserve_eq_ok_iff.1 hr).2.1, Key.canonical, Text.trim_trim, d.trim_name]
    refine .inr ⟨a, hsettles, fun hlost => ?_⟩
    obtain ⟨hgiven, hsilent⟩ := hwaiting.answer_lost hstage hlost
    obtain ⟨-, hname, hhandle⟩ := hwaiting.fits u _ hstage
    refine .intro before mid after _ _ _ _ handle d' hms rfl rfl rfl rfl hbefore ?_ hcall hname hmid
      hhandle ?_ hsilent hafter fun hsame => ?_
    · rw [hregistrar]
      exact Registrar.takesKey_of_reserve hr rfl
    · rw [hgiven]
      exact Registrar.givesKeyBack_abandon (hwaiting.reserved hstage) (hwaiting.not_idle hstage)
        hhandle
    · rw [hgiven, hsame, hregistrar]
      exact Registrar.abandon_handleFor_of_reserve hr

/-- **What a publish that fails leaves behind**, from where it waits to begin: nothing if it was
refused, and otherwise the handle for its registry. -/
structure FailsCleanly (p : Publisher) (u : Nat) (o : RegistryOptions) (d : Definition)
    (ms : List Move) : Prop where
  refused : ∀ failure, failure.IsRefusal → (p.moves ms).outcome? u = some (.failed failure) →
    LeavesAlone u p ms ∧ (p.moves ms).publishCalls u = 0
  remote : ∀ registry schema cause,
    (p.moves ms).outcome? u = some (.failed (.remote registry schema cause)) →
    registry = Text.trim o.name ∧ schema = d.name ∧ TakenBack p u o d ms (.refused cause) ∧
      (p.moves ms).publishCalls u = 1
  broken : ∀ message, (p.moves ms).outcome? u = some (.broken message) →
    TakenBack p u o d ms (.broken message) ∧ (p.moves ms).publishCalls u = 1
  nothingElse : ∀ failure, (p.moves ms).outcome? u = some (.failed failure) →
    failure.IsRefusal ∨ ∃ registry schema cause, failure = .remote registry schema cause

theorem Sound.failsCleanly (h : p.Sound) (hkin : p.Kin) (hcalled : p.PublishCalled)
    (ha : p.Awaits u o d) (ms : List Move) : FailsCleanly p u o d ms := by
  have h0 := hcalled.publishCalls_eq_zero ha
  refine ⟨fun failure hrefusal hout => ?_, fun registry schema cause hout => ?_,
    fun message hout => ?_, fun failure hout => ?_⟩
  · rcases h.publish_ends hkin ha hout with ⟨failure', he, -, halone⟩ | ⟨a, hsettles, -⟩
    · exact ⟨halone, halone.publishCalls.trans h0⟩
    · cases hsettles
      exact hrefusal.elim
  · rcases h.publish_ends hkin ha hout with ⟨failure', he, hrefusal, -⟩ | ⟨a, hsettles, htaken⟩
    · cases he
      exact hrefusal.elim
    · cases hsettles
      have hback := htaken fun _ he => by cases he
      exact ⟨rfl, rfl, hback, hback.publishCalls h0⟩
  · rcases h.publish_ends hkin ha hout with ⟨failure', he, -⟩ | ⟨a, hsettles, htaken⟩
    · cases he
    · cases hsettles
      have hback := htaken fun _ he => by cases he
      exact ⟨hback, hback.publishCalls h0⟩
  · rcases h.publish_ends hkin ha hout with ⟨failure', he, hrefusal, -⟩ | ⟨a, hsettles, -⟩
    · cases he
      exact .inl hrefusal
    · cases hsettles
      exact .inr ⟨_, _, _, rfl⟩

/-! ## Unpublishes that fail -/

/-- A task stays a part of what it is a part of, or of nothing. -/
theorem Sound.parent?_move (h : p.Sound) (hs : p.stage? u = some s) (m : Move) :
    (p.move m).parent? u = p.parent? u := by
  have hall : (p.move m).Sound ∧ (∃ s, (p.move m).stage? u = some s) ∧
      (p.move m).parent? u = p.parent? u := by
    refine move_induction
      (P := fun q => q.Sound ∧ (∃ s, q.stage? u = some s) ∧ q.parent? u = p.parent? u) m
      ?_ ?_ ?_ ?_ ⟨h, ⟨s, hs⟩, rfl⟩
    · exact fun request _ => ⟨h.ask request, ⟨s, stage?_ask_of_some request hs⟩, parent?_ask ..⟩
    · intro t q q' hstep ⟨hq, ⟨s₁, hs₁⟩, hparent⟩
      obtain ⟨s₂, hs₂, -⟩ := hq.advances_step hstep u s₁ hs₁
      exact ⟨hq.step hstep, ⟨s₂, hs₂⟩,
        ((hq.grown_step hstep).parent?_of_lt (lt_length_of_stage? hs₁)).trans hparent⟩
    · intro t q hreply
      obtain ⟨s₁, hs₁, -⟩ := h.advances_reply hreply u s hs
      exact ⟨h.reply hreply, ⟨s₁, hs₁⟩, (h.sameShape_reply hreply).2 u⟩
    · intro hm
      have htasks := tasks_of_isDirect p hm
      exact ⟨h.direct hm, ⟨s, (stage?_congr htasks u).trans hs⟩, parent?_congr htasks u⟩
  exact hall.2.2

theorem Sound.parent?_moves (h : p.Sound) (hs : p.stage? u = some s) (ms : List Move) :
    (p.moves ms).parent? u = p.parent? u := by
  induction ms generalizing p s with
  | nil => rfl
  | cons m ms ih =>
    obtain ⟨s', hs', -⟩ := h.goes_moves [m] u s hs
    exact (ih (h.move m) hs').trans (h.parent?_move hs m)

/-- A task that was asked for something does nothing but in its turn. -/
theorem move_of_asked {request : Request} (hs : p.stage? u = some (.asked request))
    (hm : m.task? = some u) (hturn : ¬ (m = .run u ∧ u ∈ p.ready)) : p.move m = p := by
  cases m with
  | run t =>
    cases hm
    exact run_of_not_ready fun hready => hturn ⟨rfl, hready⟩
  | abandon t =>
    cases hm
    rw [Publisher.move, abandon, hs]
  | answerPublish t a =>
    cases hm
    exact (answerPublish_reply p u a).resolve_right fun hreply => hreply.isCalling hs
  | answerUnpublish t a =>
    cases hm
    exact (answerUnpublish_reply p u a).resolve_right fun hreply => hreply.isCalling hs
  | _ => cases hm

/-- **Until its first turn** a task that was asked for something leaves everything alone. -/
theorem Sound.first_turn_alone (h : p.Sound) {request : Request}
    (hs : p.stage? u = some (.asked request))
    (hbegun : (p.moves ms).stage? u ≠ some (.asked request)) :
    ∃ before after, ms = before ++ .run u :: after ∧ LeavesAlone u p before ∧
      u ∈ (p.moves before).ready ∧ (p.moves before).stage? u = some (.asked request) := by
  induction ms generalizing p with
  | nil => exact absurd hs hbegun
  | cons m ms ih =>
    by_cases hturn : m = .run u ∧ u ∈ p.ready
    · obtain ⟨rfl, hready⟩ := hturn
      exact ⟨[], ms, rfl, trivial, hready, hs⟩
    · have hstays := (h.stage?_move hs id id m).resolve_right hturn
      obtain ⟨before, after, rfl, halone, hrest⟩ := ih (h.move m) hstays hbegun
      refine ⟨m :: before, after, rfl, ⟨fun hm => ?_, halone⟩, hrest⟩
      rw [move_of_asked hs hm hturn]
      exact ⟨rfl, rfl⟩

/-- **A teardown is complete** by the end of a task that is a part of it, and the registrar is
released. -/
def CompletesTeardown (p q : Publisher) (u : Nat) : Prop :=
  ∃ c drain out, p.parent? u = some c ∧ p.stage? c = some (.draining drain) ∧
    q.stage? c = some (.ended out) ∧ q.registrar = p.registrar.release

/-- **An unpublish that fails** is not heard of, and the registrar is as before, unless a teardown
was waiting for nothing else. -/
theorem Sound.answer_failed (h : p.Sound) (hs : p.stage? u = some (.unpublishing g))
    (cause : Cause) :
    (p.answerUnpublish u (.error cause)).stage? u =
        some (.ended (.failed (.remote g.registry g.schema cause))) ∧
      (p.answerUnpublish u (.error cause)).journal = p.journal ∧
      ((p.answerUnpublish u (.error cause)).registrar = p.registrar ∨
        CompletesTeardown p (p.answerUnpublish u (.error cause)) u) := by
  have hfinish : p.answerUnpublish u (.error cause) =
      p.finish u (.failed (.remote g.registry g.schema cause)) := by
    simp only [answerUnpublish, hs]
  rw [hfinish]
  refine ⟨h.ended_finish rfl hs _, journal_finish .., ?_⟩
  rcases registrar_finish (h.parents.ne_self u) hs _ with hsame | ⟨c, drain, hc, hd, -, hr, hended⟩
  · exact .inl hsame
  · exact .inr ⟨c, drain, _, hc, hd, hended, hr⟩

/-- **A task that waits for the answer to an unpublish and has failed** was answered with an error,
and left everything alone before and afterwards. -/
theorem Sound.unpublishing_fails (h : p.Sound) (hs : p.stage? u = some (.unpublishing g))
    {failure : Failure} (hout : (p.moves ms).outcome? u = some (.failed failure)) :
    ∃ mid after cause, ms = mid ++ .answerUnpublish u (.error cause) :: after ∧
      failure = .remote g.registry g.schema cause ∧ LeavesAlone u p mid ∧
      (p.moves mid).stage? u = some (.unpublishing g) ∧
      LeavesAlone u ((p.moves mid).answerUnpublish u (.error cause)) after := by
  rcases h.still_moves hs trivial ms with ⟨-, hend⟩ | ⟨mid, m, after, rfl, hmid, hs', hm⟩
  · rw [outcome?_eq_some_iff] at hout
    cases hend.symm.trans hout
  · have hwaiting := h.moves mid
    cases m with
    | answerUnpublish t a =>
      obtain ⟨rfl, -⟩ := hm
      have hanswered : ((p.moves mid).answerUnpublish t a).Sound :=
        hwaiting.move (.answerUnpublish t a)
      rw [moves_append] at hout
      cases a with
      | ok _ =>
        have hdone : Took t (p.moves mid) ((p.moves mid).move (.answerUnpublish t (.ok ()))) g :=
          hwaiting.takes_iff.1 ⟨t, rfl, hs'⟩
        cases (hanswered.outcome?_moves after hdone.2).symm.trans hout
      | error cause =>
        have hended := (hwaiting.answer_failed hs' cause).1
        cases (hanswered.outcome?_moves after (outcome?_eq_some_iff.2 hended)).symm.trans hout
        exact ⟨mid, after, cause, rfl, rfl, hmid, hs', hanswered.ended_moves hended after⟩
    | answerPublish t a => rcases hm with ⟨-, ⟨_, _, _, he⟩ | ⟨_, _, he⟩⟩ <;> cases he
    | _ => exact hm.elim

/-- **An unpublish failed** with an error of the registry: it was a call in its turn, and in all
moves of its own, the answer included, the registrar stayed as it was. -/
inductive NotTakenBack (p : Publisher) (u : Nat) (g : Registration) (ms : List Move)
    (cause : Cause) : Prop
  | intro (before mid after : List Move) (p₁ p₂ p₃ p₄ : Publisher)
      (hms : ms = before ++ .run u :: (mid ++ .answerUnpublish u (.error cause) :: after))
      (hp₁ : p₁ = p.moves before) (hp₂ : p₂ = p₁.run u) (hp₃ : p₃ = p₂.moves mid)
      (hp₄ : p₄ = p₃.answerUnpublish u (.error cause))
      (hbefore : LeavesAlone u p before)
      (hturn : p₂.registrar = p₁.registrar)
      (hcall : p₂.journal = .unpublishCall u g :: p₁.journal)
      (hmid : LeavesAlone u p₂ mid) (hanswer : Untouched p₃ p₄) (hafter : LeavesAlone u p₄ after) :
      NotTakenBack p u g ms cause

/-- **The unpublish of a teardown failed** with an error of the registry: it left everything alone,
unless the teardown was waiting for nothing else. -/
inductive NotRemoved (p : Publisher) (u : Nat) (ms : List Move) (cause : Cause) : Prop
  | intro (mid after : List Move) (p₁ p₂ : Publisher)
      (hms : ms = mid ++ .answerUnpublish u (.error cause) :: after)
      (hp₁ : p₁ = p.moves mid) (hp₂ : p₂ = p₁.answerUnpublish u (.error cause))
      (hmid : LeavesAlone u p mid) (hsilent : p₂.journal = p₁.journal)
      (hanswer : p₂.registrar = p₁.registrar ∨ CompletesTeardown p₁ p₂ u)
      (hafter : LeavesAlone u p₂ after) : NotRemoved p u ms cause

/-- An unpublish that was asked for and has failed. -/
theorem Sound.unpublish_fails (h : p.Sound) (hkin : p.Kin)
    (hs : p.stage? u = some (.asked (.unpublish g))) {failure : Failure}
    (hout : (p.moves ms).outcome? u = some (.failed failure)) :
    ∃ cause, failure = .remote g.registry g.schema cause ∧ NotTakenBack p u g ms cause := by
  obtain ⟨before, after, rfl, hbefore, hready, hasked⟩ := h.first_turn_alone hs
    fun hidle => by
      rw [outcome?_eq_some_iff, hidle] at hout
      cases hout
  obtain ⟨parent, htask⟩ := stage?_eq_some_iff.1 hasked
  have hrun : (p.moves before).run u = Publisher.beginUnpublish
      { p.moves before with ready := (p.moves before).ready.erase u } u g := by
    simp only [run, List.contains_iff_mem.2 hready, ite_true, htask, begin]
  have hbegun : ((p.moves before).run u).Sound := (h.moves before).move (.run u)
  have hwaits : ((p.moves before).run u).stage? u = some (.unpublishing g) := by
    rw [hrun]
    exact stage?_setStage_self (p := { p.moves before with
      ready := (p.moves before).ready.erase u }) hasked
  rw [moves_append] at hout
  obtain ⟨mid, after, cause, rfl, rfl, hmid, hs', hafter⟩ := hbegun.unpublishing_fails hwaits hout
  obtain ⟨-, hsilent, hregistrar⟩ := (hbegun.moves mid).answer_failed hs' cause
  refine ⟨cause, rfl, .intro before mid after _ _ _ _ rfl rfl rfl rfl rfl hbefore ?_ ?_ hmid
    ⟨?_, hsilent⟩ hafter⟩
  · rw [hrun]
    rfl
  · rw [hrun]
    rfl
  · refine hregistrar.resolve_right ?_
    rintro ⟨c, -, -, hc, -⟩
    -- what a caller asks for is a part of nothing
    have hnone := (hkin.moves h before).orphan (h.moves before).parents hasked id (by simp)
      (by simp)
    have hparent := (hbegun.parent?_moves hwaits mid).trans
      ((h.moves before).parent?_move hasked (.run u))
    rw [hc, hnone] at hparent
    cases hparent

/-! ## Every run -/

/-- **Failed calls leave nothing behind.** Anything may have happened before and anything may happen
afterwards, in any order. A publish that was asked for, by a caller or for a batch, and is refused
does nothing and has nobody called; if the registry refuses it or breaks off, it was called once,
the failure carries its error and the names, and of what the publish did only the handle stays. An
unpublish that was asked for and fails leaves the registrar as it is, and nobody hears of it; so
does one of a teardown, which may be complete by it. -/
theorem leavesNothing_moves (id : String) (listening : Bool) (limit : Option Nat)
    (past future : List Move) (p : Publisher) (hp : p = (fresh id listening limit).moves past)
    (u : Nat) :
    (∀ o d, p.stage? u = some (.asked (.publish o d)) → FailsCleanly p u o d future) ∧
    (∀ g failure, p.stage? u = some (.asked (.unpublish g)) →
      (p.moves future).outcome? u = some (.failed failure) →
      ∃ cause, failure = .remote g.registry g.schema cause ∧ NotTakenBack p u g future cause) ∧
    (∀ g failure, p.stage? u = some (.unpublishing g) →
      (p.moves future).outcome? u = some (.failed failure) →
      ∃ cause, failure = .remote g.registry g.schema cause ∧ NotRemoved p u future cause) := by
  have hfresh := sound_fresh id listening limit
  have hsound : p.Sound := hp ▸ hfresh.moves past
  have hkin : p.Kin := hp ▸ (kin_fresh id listening limit).moves hfresh past
  have hcalled : p.PublishCalled := hp ▸ (publishCalled_fresh id listening limit).moves hfresh past
  refine ⟨fun o d hask => ?_, fun g failure hask hout => ?_, fun g failure hs hout => ?_⟩
  · exact hsound.failsCleanly hkin hcalled ⟨_, hask, rfl, rfl⟩ future
  · exact hsound.unpublish_fails hkin hask hout
  · obtain ⟨mid, after, cause, rfl, rfl, hmid, hs', hafter⟩ := hsound.unpublishing_fails hs hout
    obtain ⟨-, hsilent, hregistrar⟩ := (hsound.moves mid).answer_failed hs' cause
    exact ⟨cause, rfl, .intro mid after _ _ rfl rfl rfl hmid hsilent hregistrar hafter⟩

/-- Four publishes are asked for: two of one schema, one to a registry without a name, and one of
another schema. -/
def fourAsked : List Move :=
  [.ask (.publish { name := "r" } { schema := ⟨"s", "1"⟩ }),
    .ask (.publish { name := " r" } { schema := ⟨"s ", "2"⟩ }),
    .ask (.publish { name := " " } { schema := ⟨"s", "3"⟩ }),
    .ask (.publish { name := "r" } { schema := ⟨"t", "4"⟩ })]

/-- The first is refused by the registry and the last one breaks off. -/
def noneMade : List Move :=
  [.run 0, .run 1, .run 2, .run 3, .answerPublish 0 (.refused { text := "down" }),
    .answerPublish 3 (.broken "lost")]

/-- A schema is live and is to be taken back. -/
def liveRegistration : Registration where
  serial := 1
  schema := "s"
  publisher := "id"
  record := ⟨"1", "s", none, {}⟩
  handle := ⟨0, { name := "r" }⟩
  listened := true

/-- The schema is published. -/
def oneLive : List Move :=
  [.ask (.publish { name := "r" } { schema := ⟨"s", "1"⟩ }), .run 0,
    .answerPublish 0 (.record ⟨"1", "s", none, {}⟩)]

theorem leavesNothing_overlapping :
    (TakenBack ((fresh "id" true none).moves fourAsked) 0 { name := "r" } { schema := ⟨"s", "1"⟩ }
        noneMade (.refused { text := "down" }) ∧
      LeavesAlone 1 ((fresh "id" true none).moves fourAsked) noneMade ∧
      (((fresh "id" true none).moves fourAsked).moves noneMade).publishCalls 2 = 0 ∧
      (((fresh "id" true none).moves fourAsked).moves noneMade).publishCalls 3 = 1) ∧
    ((fresh "id" true none).moves oneLive).registrar.find? "r" "s" = some liveRegistration ∧
    NotTakenBack ((fresh "id" true none).moves (oneLive ++ [.ask (.unpublish liveRegistration)])) 1
      liveRegistration [.run 1, .answerUnpublish 1 (.error { text := "down" })]
      { text := "down" } := by
  have published := leavesNothing_moves "id" true none fourAsked noneMade _ rfl
  obtain ⟨-, -, hfirst, -⟩ := ((published 0).1 _ _ rfl).remote "r" "s" { text := "down" } rfl
  obtain ⟨hsecond, -⟩ := ((published 1).1 _ _ rfl).refused (.duplicate "r" "s") trivial rfl
  obtain ⟨-, hthird⟩ := ((published 2).1 _ _ rfl).refused
    (.invalidArgument "registry" "registry name must not be empty") trivial rfl
  obtain ⟨-, hlast⟩ := ((published 3).1 _ _ rfl).broken "lost" rfl
  obtain ⟨cause, he, hkept⟩ := (leavesNothing_moves "id" true none
    (oneLive ++ [.ask (.unpublish liveRegistration)])
    [.run 1, .answerUnpublish 1 (.error { text := "down" })] _ rfl 1).2.1 liveRegistration
    (.remote "r" "s" { text := "down" }) rfl rfl
  cases he
  exact ⟨⟨hfirst, hsecond, hthird, hlast⟩, rfl, hkept⟩

end Publisher
end SchemaHerald
