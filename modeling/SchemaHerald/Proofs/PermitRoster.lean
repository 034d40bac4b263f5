import Mathlib.Algebra.GroupWithZero.Nat
import Mathlib.Algebra.Order.BigOperators.Group.Finset
import Mathlib.Logic.Function.Basic
import SchemaHerald.Publisher.Move

/-!
# The members of a batch and their permits

What limits a batch is a small system of its own: members that are fresh, wait for a permit, were let
in, have the registry called or have ended; the queue of those who wait; the permits that are left; and
the turns of those who can go on. A `Roster` is a state of it, and `Roster.Step` lists what can
happen, without a word about schemas and registrars.

`Roster.Sound` is what holds at all times. Its balance is the limit: permits that are left and permits
that are held are as many as there were at the beginning. `Roster.Lined` is what holds in addition
when turns are taken first in, first out: who has begun, who was let in, who waits and who is fresh
are the members in their order.
-/
namespace SchemaHerald

/-- How far a member of a batch has come. -/
inductive Phase
  /-- It has not begun. -/
  | fresh
  /-- It waits for a permit. -/
  | waiting
  /-- It was given a permit and has not gone on yet. -/
  | letIn
  /-- The registry is publishing for it. -/
  | calling
  /-- It has ended. -/
  | ended
deriving DecidableEq

namespace Phase

/-- The permits that a member has. -/
def held : Phase → Nat
  | .letIn | .calling => 1
  | _ => 0

/-- How much is still to come for a member. -/
def toCome : Phase → Nat
  | .fresh => 3
  | .waiting | .letIn => 2
  | .calling => 1
  | .ended => 0

/-- Whether a member can go on in its turn. -/
def CanGoOn : Phase → Prop
  | .fresh | .letIn => True
  | _ => False

end Phase

/-- **The members of a batch and their permits.** -/
structure Roster where
  phase : Nat → Phase
  /-- Who waits for a permit, the first to ask standing first. -/
  queue : List Nat
  /-- The permits that are left, if there is a limit. -/
  permits : Option Nat
  /-- Who can go on, in the order of the turns. -/
  turns : List Nat
  /-- Who had the registry called, with what, the first one standing first. -/
  calls : List (Nat × Definition)

namespace Roster

variable {r r' : Roster} {t u : Nat} {ts : List Nat} {limit permits : Option Nat} {m : Move}
  {sign : Nat → Definition} {s : Phase} {begun letIn fresh : List Nat}

/-! ## What can happen -/

/-- A member has to wait for a permit. -/
def wait (r : Roster) (t : Nat) : Roster :=
  { r with
    phase := Function.update r.phase t .waiting
    queue := r.queue ++ [t]
    turns := r.turns.erase t }

/-- A member goes on with a permit, and so many are left. -/
def goOn (r : Roster) (t : Nat) (permits : Option Nat) : Roster :=
  { r with
    phase := Function.update r.phase t .calling
    permits
    turns := r.turns.erase t }

/-- A member ends: its permit goes to the first one that waits, or is left. -/
def leave (r : Roster) (t : Nat) : Roster :=
  match r.queue with
  | next :: queue =>
    { r with
      phase := Function.update (Function.update r.phase t .ended) next .letIn
      queue
      turns := r.turns ++ [next] }
  | [] => { r with
      phase := Function.update r.phase t .ended
      permits := r.permits.map (· + 1) }

@[simp] theorem phase_wait (r : Roster) (t : Nat) : (r.wait t).phase t = .waiting :=
  Function.update_self ..

@[simp] theorem phase_goOn (r : Roster) (t : Nat) (permits : Option Nat) :
    (r.goOn t permits).phase t = .calling :=
  Function.update_self ..

theorem leave_of_nil (hq : r.queue = []) (t : Nat) : r.leave t = { r with
    phase := Function.update r.phase t .ended
    permits := r.permits.map (· + 1) } := by
  unfold leave
  split
  · rename_i next queue hq'
    rw [hq] at hq'
    cases hq'
  · rfl

theorem leave_of_cons {next : Nat} {queue : List Nat} (hq : r.queue = next :: queue) (t : Nat) :
    r.leave t = { r with
      phase := Function.update (Function.update r.phase t .ended) next .letIn
      queue
      turns := r.turns ++ [next] } := by
  unfold leave
  split
  · rename_i next' queue' hq'
    rw [hq] at hq'
    cases hq'
    rfl
  · rename_i hq'
    rw [hq] at hq'
    cases hq'

/-- How a member had gone on does not matter when it ends. -/
theorem leave_goOn (r : Roster) (t : Nat) (permits : Option Nat) :
    (r.goOn t permits).leave t = { r with permits, turns := r.turns.erase t }.leave t := by
  unfold leave goOn
  dsimp only
  split <;> rw [Function.update_idem]

/-- Whoever ends waits for no answer any more. -/
theorem phase_leave (r : Roster) (t : Nat) : (r.leave t).phase t ≠ .calling := by
  unfold leave
  split
  · rename_i next queue hq
    by_cases hnt : t = next <;> simp [hnt]
  · simp

/-- **A member may go on**, and so many permits are left then. -/
inductive Admits (r : Roster) (t : Nat) : Option Nat → Prop
  /-- It has one already. -/
  | letIn (ht : r.phase t = .letIn) : Admits r t r.permits
  /-- There is no limit. -/
  | free (ht : r.phase t = .fresh) (hp : r.permits = none) : Admits r t none
  /-- It takes one. -/
  | taken (n : Nat) (ht : r.phase t = .fresh) (hp : r.permits = some (n + 1)) : Admits r t (some n)

/-- A move is the turn of a member or the answer to its call. -/
def Due (r : Roster) : Move → Prop
  | .run t => t ∈ r.turns
  | .answerPublish t _ => r.phase t = .calling
  | _ => False

/-- **What a move does to the members of a batch**, which publish what is signed so. -/
inductive Step (sign : Nat → Definition) (r : Roster) : Move → Roster → Prop
  /-- It does not concern them. -/
  | rest (m : Move) (hm : ¬ r.Due m) : Step sign r m r
  /-- A member has to wait. -/
  | wait (t : Nat) (ht : t ∈ r.turns) (hs : r.phase t = .fresh) (h0 : r.permits = some 0) :
    Step sign r (.run t) (r.wait t)
  /-- The registry is called for a member. -/
  | call (t : Nat) (permits : Option Nat) (ht : t ∈ r.turns) (ha : r.Admits t permits) :
    Step sign r (.run t) { r.goOn t permits with calls := r.calls ++ [(t, sign t)] }
  /-- A member is refused before the registry is called. -/
  | refuse (t : Nat) (permits : Option Nat) (ht : t ∈ r.turns) (ha : r.Admits t permits) :
    Step sign r (.run t) ((r.goOn t permits).leave t)
  /-- The call for a member is answered. -/
  | answer (t : Nat) (a : Answer) (ht : r.phase t = .calling) :
    Step sign r (.answerPublish t a) (r.leave t)

/-- Whatever is not due changes nothing. -/
theorem Step.eq_of_not_due (hs : r.Step sign m r') (hm : ¬ r.Due m) : r' = r := by
  cases hs with
  | rest => rfl
  | wait t ht | call t permits ht | refuse t permits ht | answer t a ht => exact absurd ht hm

/-! ## Sums over the members -/

/-- What the members have in all. -/
def total (r : Roster) (f : Phase → Nat) (ts : List Nat) : Nat :=
  (ts.map fun t => f (r.phase t)).sum

theorem total_update (f : Phase → Nat) (hnodup : ts.Nodup) (ht : t ∈ ts)
    (st : Nat → Phase) (s : Phase) :
    (ts.map fun u => f (Function.update st t s u)).sum + f (st t) =
      (ts.map fun u => f (st u)).sum + f s := by
  induction ts with
  | nil => cases ht
  | cons u ts ih =>
    obtain ⟨hnot, hnodup⟩ := List.nodup_cons.1 hnodup
    rw [List.map_cons, List.map_cons, List.sum_cons, List.sum_cons]
    by_cases hut : u = t
    · -- the others have the same
      subst hut
      have hsame : (ts.map fun v => f (Function.update st u s v)) = ts.map fun v => f (st v) :=
        List.map_congr_left fun v hv => by
          rw [Function.update_of_ne fun (he : v = u) => hnot (he ▸ hv)]
      rw [hsame, Function.update_self]
      omega
    · have htail := ih hnodup ((List.mem_cons.1 ht).resolve_left (Ne.symm hut))
      rw [Function.update_of_ne hut]
      omega

/-! ## What holds at all times -/

/-- **Everyone is where he belongs**, and every permit is counted. -/
structure Tallied (r : Roster) (ts : List Nat) (limit : Option Nat) : Prop where
  nodup : ts.Nodup
  others : ∀ t, t ∉ ts → r.phase t = .ended
  queue : ∀ t, t ∈ r.queue ↔ r.phase t = .waiting
  once : r.queue.Nodup
  /-- No permit is lost, and none is made. -/
  balance : r.permits.map (· + r.total Phase.held ts) = limit
  turns : ∀ t, t ∈ r.turns ↔ (r.phase t).CanGoOn
  distinct : r.turns.Nodup

/-- **What holds of a batch with the members `ts`** at all times. -/
structure Sound (r : Roster) (ts : List Nat) (limit : Option Nat) : Prop extends
    r.Tallied ts limit where
  /-- Nobody waits while permits are left. -/
  starved : r.queue ≠ [] → r.permits = some 0

theorem Tallied.mem (h : r.Tallied ts limit) (ht : r.phase t ≠ .ended) : t ∈ ts := by
  by_contra hnot
  exact ht (h.others t hnot)

/-- **One member moves on**, and takes as many permits as it has more than before. -/
theorem Tallied.moved (h : r.Tallied ts limit) (ht : t ∈ ts)
    (hr : r'.phase = Function.update r.phase t s)
    (hqueue : ∀ u, u ≠ t → (u ∈ r'.queue ↔ u ∈ r.queue)) (hwaits : t ∈ r'.queue ↔ s = .waiting)
    (honce : r'.queue.Nodup)
    (hpermits : r'.permits.map (· + s.held) = r.permits.map (· + (r.phase t).held))
    (hturns : ∀ u, u ≠ t → (u ∈ r'.turns ↔ u ∈ r.turns)) (hcan : t ∈ r'.turns ↔ s.CanGoOn)
    (hdistinct : r'.turns.Nodup) : r'.Tallied ts limit := by
  refine ⟨h.nodup, fun u hu => ?_, fun u => ?_, honce, ?_, fun u => ?_, hdistinct⟩
  · have hut : u ≠ t := fun he => hu (he ▸ ht)
    rw [hr, Function.update_of_ne hut]
    exact h.others u hu
  · by_cases hut : u = t
    · rw [hut, hwaits, hr, Function.update_self]
    · rw [hqueue u hut, h.queue, hr, Function.update_of_ne hut]
  · have hsum := total_update Phase.held h.nodup ht r.phase s
    rw [← h.balance]
    unfold total
    rw [hr]
    cases hp : r.permits with
    | none =>
      rw [hp, Option.map_none, Option.map_eq_none_iff] at hpermits
      rw [hpermits]
      rfl
    | some n =>
      rw [hp, Option.map_some, Option.map_eq_some_iff] at hpermits
      obtain ⟨n', hn', hheld⟩ := hpermits
      rw [hn', Option.map_some, Option.map_some]
      exact congrArg some (by omega)
  · by_cases hut : u = t
    · rw [hut, hcan, hr, Function.update_self]
    · rw [hturns u hut, h.turns, hr, Function.update_of_ne hut]

/-- Who can go on is fresh or was let in. -/
theorem Tallied.phase_of_turn (h : r.Tallied ts limit) (ht : t ∈ r.turns) :
    r.phase t = .fresh ∨ r.phase t = .letIn := by
  have hcan := (h.turns t).1 ht
  cases hs : r.phase t with
  | fresh => exact .inl rfl
  | letIn => exact .inr rfl
  | _ =>
    rw [hs] at hcan
    exact hcan.elim

theorem Sound.queue_of_permits (h : r.Sound ts limit) (hp : r.permits ≠ some 0) : r.queue = [] := by
  by_contra hq
  exact hp (h.starved hq)

theorem Admits.phase (ha : r.Admits t permits) :
    r.phase t = .fresh ∨ r.phase t = .letIn := by
  cases ha with
  | letIn hs => exact .inr hs
  | free hs _ => exact .inl hs
  | taken n hs _ => exact .inl hs

theorem Sound.wait (h : r.Sound ts limit) (hs : r.phase t = .fresh) (h0 : r.permits = some 0) :
    (r.wait t).Sound ts limit := by
  have hnot : t ∉ r.queue := fun hq => by simp [(h.queue t).1 hq] at hs
  refine ⟨h.moved (h.mem (by simp [hs])) rfl (fun u hut => ?_) ?_ ?_ ?_
    (fun u hut => List.mem_erase_of_ne hut) ?_ (h.distinct.erase t), fun _ => h0⟩
  · simp [Roster.wait, hut]
  · simp [Roster.wait]
  · refine List.nodup_append.2 ⟨h.once, by simp, fun u hu v hv he => hnot ?_⟩
    rwa [← List.mem_singleton.1 hv, ← he]
  · rw [hs]
    rfl
  · exact iff_of_false h.distinct.not_mem_erase id

theorem Sound.goOn (h : r.Sound ts limit) (ha : r.Admits t permits) :
    (r.goOn t permits).Sound ts limit := by
  have hs := ha.phase
  have hmem : t ∈ ts := h.mem (by rcases hs with hs | hs <;> simp [hs])
  have hnot : t ∉ r.queue := fun hq => by
    rcases hs with hs | hs <;> simp [(h.queue t).1 hq] at hs
  refine ⟨h.moved hmem rfl (fun _ _ => .rfl) (iff_of_false hnot (by simp)) h.once ?_
    (fun u hut => List.mem_erase_of_ne hut) (iff_of_false h.distinct.not_mem_erase id)
    (h.distinct.erase t), fun hq => ?_⟩
  · cases ha with
    | letIn ht =>
      rw [ht]
      rfl
    | free ht hp =>
      rw [hp]
      rfl
    | taken n ht hp =>
      rw [ht, hp]
      rfl
  · have h0 := h.starved hq
    cases ha with
    | letIn => exact h0
    | free _ hp | taken n _ hp =>
      rw [hp] at h0
      cases h0

theorem Sound.leave (h : r.Sound ts limit) (hs : r.phase t = .calling) :
    (r.leave t).Sound ts limit := by
  have hnot : t ∉ r.queue := fun hq => by simp [(h.queue t).1 hq] at hs
  have hno : t ∉ r.turns := fun hturn => by
    rcases h.phase_of_turn hturn with he | he <;> simp [hs] at he
  -- first its permit comes back
  have hback : Tallied { r with
      phase := Function.update r.phase t .ended
      permits := r.permits.map (· + 1) } ts limit := by
    refine h.moved (h.mem (by simp [hs])) rfl (fun _ _ => .rfl) (iff_of_false hnot (by simp)) h.once ?_
      (fun _ _ => .rfl) (iff_of_false hno id) h.distinct
    rw [hs, Option.map_map]
    rfl
  unfold Roster.leave
  split
  · rename_i next queue hq
    have hnext : r.phase next = .waiting := (h.queue next).1 (by simp [hq])
    have hne : next ≠ t := fun he => by simp [he, hs] at hnext
    have honce := h.once
    rw [hq] at honce
    obtain ⟨hlast, honce⟩ := List.nodup_cons.1 honce
    have hfresh : next ∉ r.turns := fun hturn => by
      rcases h.phase_of_turn hturn with he | he <;> simp [hnext] at he
    refine ⟨hback.moved (h.mem (t := next) (by simp [hnext])) rfl (fun u hun => ?_)
      (iff_of_false hlast (by simp)) honce ?_ (fun u hun => by simp [hun])
      (iff_of_true (by simp) trivial) ?_, fun _ => h.starved (by simp [hq])⟩
    · simp [hq, hun]
    · dsimp only
      rw [Function.update_of_ne hne, hnext, Option.map_map]
      rfl
    · refine List.nodup_append.2 ⟨h.distinct, by simp, fun u hu v hv he => hfresh ?_⟩
      rwa [← List.mem_singleton.1 hv, ← he]
  · rename_i hq
    exact ⟨hback, fun hsome => absurd hq hsome⟩

/-- **What holds of a batch** is kept by whatever happens. -/
theorem Sound.step (h : r.Sound ts limit) (hs : r.Step sign m r') : r'.Sound ts limit := by
  cases hs with
  | rest => exact h
  | wait t ht hfresh h0 => exact h.wait hfresh h0
  | call t permits ht ha =>
    have hon := h.goOn ha
    exact { hon with }
  | refuse t permits ht ha => exact (h.goOn ha).leave (phase_goOn ..)
  | answer t a ht => exact h.leave ht

/-- **A batch that has just begun**: everyone is fresh and has a turn. -/
def start (ts : List Nat) (permits : Option Nat) : Roster where
  phase t := if t ∈ ts then .fresh else .ended
  queue := []
  permits := permits
  turns := ts
  calls := []

theorem sound_start (hnodup : ts.Nodup) (permits : Option Nat) :
    (start ts permits).Sound ts permits := by
  have hphase : ∀ t, (start ts permits).phase t = if t ∈ ts then .fresh else .ended := fun _ => rfl
  refine ⟨⟨hnodup, fun t ht => if_neg ht, fun t => ?_, List.nodup_nil, ?_, fun t => ?_, hnodup⟩,
    fun hq => absurd rfl hq⟩
  · refine iff_of_false List.not_mem_nil ?_
    rw [hphase]
    split <;> simp
  · have hnone : (start ts permits).total Phase.held ts = 0 := by
      refine List.sum_eq_zero fun n hn => ?_
      obtain ⟨t, -, rfl⟩ := List.mem_map.1 hn
      rw [hphase]
      split <;> rfl
    rw [hnone]
    exact Option.map_id'
  · rw [hphase]
    split
    · rename_i ht
      exact iff_of_true ht trivial
    · rename_i ht
      exact iff_of_false ht id

/-- Whoever is fresh has been so. -/
theorem Step.fresh_of_fresh (hs : r.Step sign m r') (hu : r'.phase u = .fresh) :
    r.phase u = .fresh := by
  have updated : ∀ {st : Nat → Phase} {t s}, s ≠ .fresh → Function.update st t s u = .fresh →
      st u = .fresh := by
    intro st t s hne hu
    by_cases hut : u = t
    · rw [hut, Function.update_self] at hu
      exact absurd hu hne
    · rwa [Function.update_of_ne hut] at hu
  have left : ∀ {r : Roster} {t}, (r.leave t).phase u = .fresh → r.phase u = .fresh := by
    intro r t hu
    unfold leave at hu
    split at hu
    · exact updated (by simp) (updated (by simp) hu)
    · exact updated (by simp) hu
  cases hs with
  | rest => exact hu
  | wait => exact updated (by simp) hu
  | call => exact updated (by simp) hu
  | refuse => exact updated (by simp) (left hu)
  | answer => exact left hu

/-- Whoever has had a turn is not fresh any more. -/
theorem Step.not_fresh (hs : r.Step sign (.run t) r') (ht : t ∈ r.turns) : r'.phase t ≠ .fresh := by
  cases hs with
  | rest m hm => exact absurd ht hm
  | wait => simp
  | call => simp
  | refuse =>
    unfold leave
    split
    · rename_i next queue hq
      by_cases htn : t = next <;> simp [htn]
    · simp

/-- The members that have a permit, each once, are as many as the permits that are held. -/
theorem Sound.total_held (h : r.Sound ts limit) {us : List Nat} (hnodup : us.Nodup)
    (hus : ∀ u, u ∈ us ↔ (r.phase u).held = 1) : r.total Phase.held ts = us.length := by
  have hsub : us.toFinset ⊆ ts.toFinset := fun u hu => by
    rw [List.mem_toFinset] at hu ⊢
    refine h.mem fun hended => ?_
    have hheld := (hus u).1 hu
    rw [hended] at hheld
    cases hheld
  have hone : (us.map fun u => (r.phase u).held) = us.map fun _ => 1 :=
    List.map_congr_left fun u hu => (hus u).1 hu
  have hothers : ∀ u ∈ ts.toFinset, u ∉ us.toFinset → (r.phase u).held = 0 := by
    intro u _ hnot
    rw [List.mem_toFinset, hus] at hnot
    cases hu : r.phase u with
    | letIn | calling => exact absurd (by rw [hu]; rfl) hnot
    | _ => rfl
  calc r.total Phase.held ts = ∑ u ∈ ts.toFinset, (r.phase u).held :=
        (List.sum_toFinset _ h.nodup).symm
    _ = ∑ u ∈ us.toFinset, (r.phase u).held := (Finset.sum_subset hsub hothers).symm
    _ = us.length := by
        rw [List.sum_toFinset _ hnodup, hone]
        simp

/-- **Every permit is left or held by a member.** -/
theorem Sound.permits_add (h : r.Sound ts limit) {n : Nat} (hn : limit = some n) {us : List Nat}
    (hnodup : us.Nodup) (hus : ∀ u, u ∈ us ↔ (r.phase u).held = 1) :
    ∃ left, r.permits = some left ∧ left + us.length = n := by
  have hbalance := h.balance
  rw [hn, h.total_held hnodup hus] at hbalance
  exact Option.map_eq_some_iff.1 hbalance

/-! ## What is still to come -/

/-- How much is still to come for the members. -/
def toCome (r : Roster) (ts : List Nat) : Nat := r.total Phase.toCome ts

theorem toCome_start (ts : List Nat) (permits : Option Nat) :
    (start ts permits).toCome ts = 3 * ts.length := by
  have hall : (ts.map fun t => ((start ts permits).phase t).toCome) = ts.map fun _ => 3 :=
    List.map_congr_left fun t ht => congrArg Phase.toCome (if_pos ht)
  rw [toCome, total, hall, List.map_const', List.sum_replicate_nat, Nat.mul_comm]

theorem Sound.toCome_wait (h : r.Sound ts limit) (hs : r.phase t = .fresh) :
    (r.wait t).toCome ts < r.toCome ts := by
  have hsum := total_update Phase.toCome h.nodup (h.mem (t := t) (by simp [hs]))
    r.phase .waiting
  rw [hs] at hsum
  unfold toCome total Roster.wait
  simp only [Phase.toCome] at hsum ⊢
  omega

theorem Sound.toCome_goOn (h : r.Sound ts limit) (ha : r.Admits t permits) :
    (r.goOn t permits).toCome ts < r.toCome ts := by
  have hs := ha.phase
  have hmem : t ∈ ts := h.mem (by rcases hs with hs | hs <;> simp [hs])
  have hsum := total_update Phase.toCome h.nodup hmem r.phase .calling
  unfold toCome total Roster.goOn
  rcases hs with hs | hs <;> rw [hs] at hsum <;> simp only [Phase.toCome] at hsum ⊢ <;> omega

theorem Sound.toCome_leave (h : r.Sound ts limit) (hs : r.phase t = .calling) :
    (r.leave t).toCome ts < r.toCome ts := by
  have hsum := total_update Phase.toCome h.nodup (h.mem (t := t) (by simp [hs])) r.phase
    .ended
  rw [hs] at hsum
  unfold toCome total Roster.leave
  split
  · rename_i next queue hq
    have hnext : r.phase next = .waiting := (h.queue next).1 (by simp [hq])
    have hne : next ≠ t := fun he => by simp [he, hs] at hnext
    have hsum' := total_update Phase.toCome h.nodup (h.mem (t := next) (by simp [hnext]))
      (Function.update r.phase t .ended) .letIn
    rw [Function.update_of_ne hne, hnext] at hsum'
    simp only [Phase.toCome] at hsum hsum' ⊢
    omega
  · simp only [Phase.toCome] at hsum ⊢
    omega

/-- **Every turn of a member and every answer** leaves less to come. -/
theorem Sound.toCome_lt (h : r.Sound ts limit) (hs : r.Step sign m r') (hdue : r.Due m) :
    r'.toCome ts < r.toCome ts := by
  cases hs with
  | rest m hm => exact absurd hdue hm
  | wait t ht hfresh h0 => exact h.toCome_wait hfresh
  | call t permits ht ha => exact h.toCome_goOn ha
  | refuse t permits ht ha =>
    exact ((h.goOn ha).toCome_leave (phase_goOn ..)).trans (h.toCome_goOn ha)
  | answer t a ht => exact h.toCome_leave ht

/-- **As long as a member has not ended**, one has its turn or waits for an answer. -/
theorem Sound.exists_due (h : r.Sound ts limit) (hlimit : limit ≠ some 0)
    (hs : r.phase t ≠ .ended) : ∃ u, u ∈ r.turns ∨ r.phase u = .calling := by
  by_contra hidle
  push Not at hidle
  have hnone : ∀ u, (r.phase u).held = 0 := fun u => by
    obtain ⟨hturn, hcall⟩ := hidle u
    cases hu : r.phase u with
    | letIn => exact absurd ((h.turns u).2 (by rw [hu]; trivial)) hturn
    | calling => exact absurd hu hcall
    | _ => rfl
  have hwaits : r.phase t = .waiting := by
    obtain ⟨hturn, hcall⟩ := hidle t
    cases ht : r.phase t with
    | fresh | letIn => exact absurd ((h.turns t).2 (by rw [ht]; trivial)) hturn
    | waiting => rfl
    | calling => exact absurd ht hcall
    | ended => exact absurd ht hs
  -- nobody would wait unless the permits were held by others
  have h0 := h.starved (List.ne_nil_of_mem ((h.queue t).2 hwaits))
  have htotal : r.total Phase.held ts = 0 := by
    simp [total, hnone]
  have hbalance := h.balance
  rw [h0, htotal] at hbalance
  exact hlimit hbalance.symm

/-! ## First in, first out -/

/-- **The members in their order** are those who have begun, those who were let in, those who wait and
those who are fresh. Turns come in this order, and while someone is fresh nobody who was let in
still has to go on. -/
structure Lined (r : Roster) (ts : List Nat) (sign : Nat → Definition) (begun letIn fresh : List Nat) :
    Prop where
  members : ts = begun ++ letIn ++ r.queue ++ fresh
  turns : r.turns = letIn ++ fresh
  apart : letIn = [] ∨ fresh = []
  letIn : ∀ t ∈ letIn, r.phase t = .letIn
  fresh : ∀ t ∈ fresh, r.phase t = .fresh
  calls : r.calls.Sublist (begun.map fun t => (t, sign t))

/-- **The members have come in their order** so far. -/
def InOrder (r : Roster) (ts : List Nat) (sign : Nat → Definition) : Prop :=
  ∃ begun letIn fresh, r.Lined ts sign begun letIn fresh

/-- Nobody waits for a permit, or all have had a turn. -/
def Settled (r : Roster) : Prop := r.queue = [] ∨ ∀ t, r.phase t ≠ .fresh

/-- Who was let in comes first. -/
theorem Lined.head (h : r.Lined ts sign begun letIn fresh) (hsound : r.Sound ts limit)
    (ht : r.turns.head? = some t) :
    (∃ letIn', letIn = t :: letIn' ∧ fresh = [] ∧ r.turns.erase t = letIn' ∧ t ∉ letIn') ∨
      ∃ fresh', letIn = [] ∧ fresh = t :: fresh' ∧ r.turns.erase t = fresh' ∧ t ∉ fresh' := by
  have hdistinct := hsound.distinct
  rw [h.turns] at ht hdistinct ⊢
  rcases h.apart with rfl | rfl
  · rw [List.nil_append] at ht hdistinct ⊢
    obtain ⟨fresh', rfl⟩ := List.head?_eq_some_iff.1 ht
    exact .inr ⟨fresh', rfl, rfl, List.erase_cons_head .., (List.nodup_cons.1 hdistinct).1⟩
  · rw [List.append_nil] at ht hdistinct ⊢
    obtain ⟨letIn', rfl⟩ := List.head?_eq_some_iff.1 ht
    exact .inl ⟨letIn', rfl, rfl, List.erase_cons_head .., (List.nodup_cons.1 hdistinct).1⟩

theorem InOrder.wait (h : r.InOrder ts sign) (hsound : r.Sound ts limit)
    (ht : r.turns.head? = some t) (hs : r.phase t = .fresh) : (r.wait t).InOrder ts sign := by
  obtain ⟨begun, letIn, fresh, hlined⟩ := h
  rcases hlined.head hsound ht with ⟨letIn', rfl, -⟩ | ⟨fresh', rfl, rfl, herase, hnot⟩
  · have hletIn := hlined.letIn t List.mem_cons_self
    rw [hs] at hletIn
    cases hletIn
  · refine ⟨begun, [], fresh', ?_, herase, .inl rfl, by simp, fun u hu => ?_, hlined.calls⟩
    · rw [hlined.members]
      simp [Roster.wait]
    · have hut : u ≠ t := fun he => hnot (he ▸ hu)
      exact (Function.update_of_ne hut ..).trans (hlined.fresh u (List.mem_cons_of_mem _ hu))

/-- **Who goes on in his turn** is the next one in the order. -/
theorem InOrder.goOn (h : r.InOrder ts sign) (hsound : r.Sound ts limit)
    (ht : r.turns.head? = some t) (ha : r.Admits t permits) :
    ∃ begun letIn fresh, Lined (r.goOn t permits) ts sign (begun ++ [t]) letIn fresh ∧
      r.calls.Sublist (begun.map fun t => (t, sign t)) ∧ (r.queue = [] ∨ fresh = []) := by
  obtain ⟨begun, letIn, fresh, hlined⟩ := h
  have hcalls : r.calls.Sublist ((begun ++ [t]).map fun t => (t, sign t)) :=
    hlined.calls.trans ((List.sublist_append_left _ _).map _)
  rcases hlined.head hsound ht with
    ⟨letIn', rfl, rfl, herase, hnot⟩ | ⟨fresh', rfl, rfl, herase, hnot⟩
  · refine ⟨begun, letIn', [], ⟨?_, ?_, .inr rfl, fun u hu => ?_, by simp, hcalls⟩, hlined.calls,
      .inr rfl⟩
    · rw [hlined.members]
      simp [Roster.goOn]
    · rw [List.append_nil]
      exact herase
    · have hut : u ≠ t := fun he => hnot (he ▸ hu)
      exact (Function.update_of_ne hut ..).trans (hlined.letIn u (List.mem_cons_of_mem _ hu))
  · -- it had no permit yet, so that there was one, and nobody waited for it
    have hfresh := hlined.fresh t List.mem_cons_self
    have hpermits : r.permits ≠ some 0 := by
      cases ha with
      | letIn hs =>
        rw [hfresh] at hs
        cases hs
      | free _ hp => simp [hp]
      | taken n _ hp => simp [hp]
    have hq := hsound.queue_of_permits hpermits
    refine ⟨begun, [], fresh', ⟨?_, herase, .inl rfl, by simp, fun u hu => ?_, hcalls⟩,
      hlined.calls, .inl hq⟩
    · rw [hlined.members, hq]
      simp [Roster.goOn, hq]
    · have hut : u ≠ t := fun he => hnot (he ▸ hu)
      exact (Function.update_of_ne hut ..).trans (hlined.fresh u (List.mem_cons_of_mem _ hu))

theorem InOrder.leave (h : r.InOrder ts sign) (hs : r.phase t = .calling) (hsettled : r.Settled) :
    (r.leave t).InOrder ts sign := by
  obtain ⟨begun, letIn, fresh, hlined⟩ := h
  have hletIn : ∀ u ∈ letIn, u ≠ t := fun u hu he => by
    have hu' := hlined.letIn u hu
    rw [he, hs] at hu'
    cases hu'
  have hfresh : ∀ u ∈ fresh, u ≠ t := fun u hu he => by
    have hu' := hlined.fresh u hu
    rw [he, hs] at hu'
    cases hu'
  unfold Roster.leave
  split
  · rename_i next queue hq
    -- all have had a turn, so that the one that is let in comes next
    have hnone : fresh = [] := by
      rcases hsettled with hnil | hnone
      · rw [hq] at hnil
        cases hnil
      · exact List.eq_nil_iff_forall_not_mem.2 fun u hu => hnone u (hlined.fresh u hu)
    subst hnone
    refine ⟨begun, letIn ++ [next], [], ?_, ?_, .inr rfl, fun u hu => ?_, by simp, hlined.calls⟩
    · rw [hlined.members, hq]
      simp
    · simp [hlined.turns]
    · by_cases hun : u = next
      · subst hun
        exact Function.update_self ..
      · have hu' : u ∈ letIn := by simpa [hun] using hu
        exact (Function.update_of_ne hun ..).trans
          ((Function.update_of_ne (hletIn u hu') ..).trans (hlined.letIn u hu'))
  · refine ⟨begun, letIn, fresh, hlined.members, hlined.turns, hlined.apart, fun u hu => ?_,
      fun u hu => ?_, hlined.calls⟩
    · exact (Function.update_of_ne (hletIn u hu) ..).trans (hlined.letIn u hu)
    · exact (Function.update_of_ne (hfresh u hu) ..).trans (hlined.fresh u hu)

theorem inOrder_start (ts : List Nat) (permits : Option Nat) (sign : Nat → Definition) :
    (start ts permits).InOrder ts sign :=
  ⟨[], [], ts, rfl, rfl, .inl rfl, by simp, fun _ ht => if_pos ht, .slnil⟩

/-- Where nobody is lined up who is fresh, nobody is. -/
theorem Lined.not_fresh (h : r.Lined ts sign begun letIn []) (hsound : r.Sound ts limit) (u : Nat) :
    r.phase u ≠ .fresh := fun hu => by
  have hturn : u ∈ r.turns := (hsound.turns u).2 (by rw [hu]; trivial)
  rw [h.turns, List.append_nil] at hturn
  rw [h.letIn u hturn] at hu
  cases hu

/-- **Whoever goes on in his turn** leaves the batch settled. -/
theorem Lined.settled (h : r.Lined ts sign begun letIn fresh) (hsound : r.Sound ts limit)
    (hq : r.queue = [] ∨ fresh = []) : r.Settled := by
  rcases hq with hq | rfl
  · exact .inl hq
  · exact .inr (h.not_fresh hsound)

/-- **The order is kept** when turns are taken first in, first out, and answers come when the batch is
settled. -/
theorem InOrder.step (h : r.InOrder ts sign) (hsound : r.Sound ts limit) (hs : r.Step sign m r')
    (hturn : ∀ t ∈ r.turns, m = .run t → r.turns.head? = some t)
    (hanswer : ∀ t a, m = .answerPublish t a → r.phase t = .calling → r.Settled) :
    r'.InOrder ts sign := by
  cases hs with
  | rest => exact h
  | wait t ht hfresh h0 => exact h.wait hsound (hturn t ht rfl) hfresh
  | call t permits ht ha =>
    obtain ⟨begun, letIn, fresh, hlined, hcalls, -⟩ := h.goOn hsound (hturn t ht rfl) ha
    refine ⟨begun ++ [t], letIn, fresh, { hlined with calls := ?_ }⟩
    rw [List.map_append]
    exact hcalls.append (.refl _)
  | refuse t permits ht ha =>
    obtain ⟨begun, letIn, fresh, hlined, hcalls, hq⟩ := h.goOn hsound (hturn t ht rfl) ha
    have hon := hsound.goOn ha
    exact InOrder.leave ⟨_, _, _, hlined⟩ (phase_goOn ..) (hlined.settled hon hq)
  | answer t a ht => exact h.leave ht (hanswer t a rfl ht)

/-- **When a member has just had the registry called** the batch is settled. -/
theorem InOrder.settled (h : r.InOrder ts sign) (hsound : r.Sound ts limit)
    (hs : r.Step sign (.run t) r') (ht : r.turns.head? = some t)
    (hcalling : r'.phase t = .calling) : r'.Settled := by
  cases hs with
  | rest m hm => exact absurd (List.mem_of_mem_head? ht) hm
  | wait t ht' hfresh h0 =>
    rw [phase_wait] at hcalling
    cases hcalling
  | call t permits ht' ha =>
    obtain ⟨begun, letIn, fresh, hlined, -, hq⟩ := h.goOn hsound ht ha
    exact hlined.settled (hsound.goOn ha) hq
  | refuse t permits ht' ha => exact absurd hcalling (phase_leave _ t)

end Roster
end SchemaHerald
