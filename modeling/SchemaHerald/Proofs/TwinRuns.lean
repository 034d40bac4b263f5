import Mathlib.Data.List.Forall2
import SchemaHerald.Proofs.TrimmedRuns

/-!
# Runs that differ in blanks only

A `Responder` is a registry that answers by what it remembers, by the handle, and by the name, the
document and the metadata of a schema; the blanks around a name it does not see. Two runs are twins
when they take the same moves up to such blanks (`Move.Twin`). Twin runs with one responder get the
same answers and so go through publishers of one trimmed form (`Responder.trimmed_moves`):
`indistinct_moves` says that callers and listeners cannot tell them apart at any point.
-/
namespace SchemaHerald

/-- **A registry that does not see blanks.** It is shown what has happened before, trimmed; for a
publish whether the handle is shut, the handle, the schema's name without blanks, its document and its
metadata; for an unpublish the registration. -/
structure Responder where
  publish : List Move → Bool → Handle → String → String → Metadata → Answer
  unpublish : List Move → Registration → Except Cause Unit

/-- What the listener is told by an entry; of calls it is told nothing. -/
def Entry.news? : Entry → Option Entry
  | .published g => some (.published g)
  | .unpublished g => some (.unpublished g)
  | .publishCall .. | .unpublishCall .. => none

theorem Entry.news?_trimmed (e : Entry) : e.trimmed.news? = e.news? := by
  cases e <;> rfl

namespace Responder

variable (c : Responder) (past : List Move) (p : Publisher)

/-- The answer to the publish that a task waits for, if it waits for one. -/
def publish? (t : Nat) : Option Answer :=
  match p.stage? t with
  | some (.publishing _ handle d) | some (.tryingPublish handle d) =>
    some (c.publish past (p.registrar.isShut handle) handle d.name d.schema.document d.metadata)
  | _ => none

/-- The answer to the unpublish that a task waits for, if it waits for one. -/
def unpublish? (t : Nat) : Option (Except Cause Unit) :=
  match p.stage? t with
  | some (.unpublishing g) | some (.tryingUnpublish g) => some (c.unpublish past g)
  | _ => none

/-- A move that is an answer is the responder's, to a call that is waited for. -/
def Gives : Move → Prop
  | .answerPublish t answer => c.publish? past p t = some answer
  | .answerUnpublish t answer => c.unpublish? past p t = some answer
  | _ => True

/-- **All answers in a run** are the responder's. -/
def Serves (c : Responder) : List Move → Publisher → List Move → Prop
  | _, _, [] => True
  | past, p, m :: ms => c.Gives past p m ∧ c.Serves (past ++ [m.trimmed]) (p.move m) ms

theorem publish?_trimmed (t : Nat) : c.publish? past p.trimmed t = c.publish? past p t := by
  unfold publish?
  rw [Publisher.stage?_trimmed]
  rcases p.stage? t with _ | s
  · rfl
  · cases s with
    | publishing key handle d =>
      simp only [Option.map_some, Stage.trimmed, Definition.name_trimmed,
        Definition.document_trimmed, Definition.metadata_trimmed, Publisher.registrar_trimmed]
    | tryingPublish handle d =>
      simp only [Option.map_some, Stage.trimmed, Definition.name_trimmed,
        Definition.document_trimmed, Definition.metadata_trimmed, Publisher.registrar_trimmed]
    | _ => rfl

theorem unpublish?_trimmed (t : Nat) : c.unpublish? past p.trimmed t = c.unpublish? past p t := by
  unfold unpublish?
  rw [Publisher.stage?_trimmed]
  rcases p.stage? t with _ | s
  · rfl
  · cases s <;> rfl

variable {c past p} {ms : List Move}

theorem Serves.take (h : c.Serves past p ms) (n : Nat) : c.Serves past p (ms.take n) := by
  induction ms generalizing past p n with
  | nil => simpa using h
  | cons m ms ih =>
    cases n with
    | zero => trivial
    | succ n => exact ⟨h.1, ih h.2 n⟩

end Responder

/-- **Twin moves**: the same move up to blanks around the names that it brings. Of an answer it is
only said whose it is. -/
inductive Move.Twin : Move → Move → Prop
  | ask {request request' : Request} (h : request.trimmed = request'.trimmed) :
    Twin (.ask request) (.ask request')
  | reserve {registry registry' schema schema' : String}
    (hr : Text.trim registry = Text.trim registry') (hs : Text.trim schema = Text.trim schema') :
    Twin (.reserve registry schema) (.reserve registry' schema')
  | answerPublish (t : Nat) (answer answer' : Answer) :
    Twin (.answerPublish t answer) (.answerPublish t answer')
  | answerUnpublish (t : Nat) (answer answer' : Except Cause Unit) :
    Twin (.answerUnpublish t answer) (.answerUnpublish t answer')
  | same (m : Move) : Twin m m

namespace Responder

variable {c : Responder} {past : List Move} {p q : Publisher} {ms ms' : List Move} {m m' : Move}

/-- Twin moves are one move after trimming, once a responder has given the answers. -/
theorem trimmed_eq_of_twin (h : m.Twin m') (hpq : p.trimmed = q.trimmed) (hm : c.Gives past p m)
    (hm' : c.Gives past q m') : m.trimmed = m'.trimmed := by
  cases h with
  | ask h => exact congrArg Move.ask h
  | reserve hr hs => simp only [Move.trimmed, hr, hs]
  | answerPublish t answer answer' =>
    have heq : some answer = some answer' := calc
      some answer = c.publish? past p.trimmed t := by rw [publish?_trimmed]; exact hm.symm
      _ = some answer' := by rw [hpq, publish?_trimmed]; exact hm'
    cases heq
    rfl
  | answerUnpublish t answer answer' =>
    have heq : some answer = some answer' := calc
      some answer = c.unpublish? past p.trimmed t := by rw [unpublish?_trimmed]; exact hm.symm
      _ = some answer' := by rw [hpq, unpublish?_trimmed]; exact hm'
    cases heq
    rfl
  | same m => rfl

/-- **Twin runs with one responder** go through publishers of the same trimmed form. -/
theorem trimmed_moves (h : List.Forall₂ Move.Twin ms ms') (hpq : p.trimmed = q.trimmed)
    (hp : c.Serves past p ms) (hq : c.Serves past q ms') :
    (p.moves ms).trimmed = (q.moves ms').trimmed := by
  induction h generalizing past p q with
  | nil => exact hpq
  | @cons m m' ms ms' hm _ ih =>
    obtain ⟨hgives, hrest⟩ := hp
    obtain ⟨hgives', hrest'⟩ := hq
    have htwin := trimmed_eq_of_twin hm hpq hgives hgives'
    have hmove : (p.move m).trimmed = (q.move m').trimmed := by
      rw [Publisher.trimmed_move, Publisher.trimmed_move, hpq, htwin]
    -- both runs have the same past from here on, too
    rw [htwin] at hrest
    exact ih hmove hrest hrest'

end Responder

namespace Publisher

variable {p q : Publisher} {ms ms' : List Move}

/-- **What the listener was told**, the last event first. -/
def news (p : Publisher) : List Entry := p.journal.filterMap Entry.news?

theorem news_trimmed (p : Publisher) : p.trimmed.news = p.news := by
  simp only [news, trimmed, List.filterMap_map]
  exact List.filterMap_congr fun e _ => e.news?_trimmed

/-- **Publishers that look the same** from outside. The same tasks have ended and with the same
outcomes; the same registrations are live, through the same handles; whatever is looked up or reserved,
the answers are the same and the blanks around the names do not matter; the listener was told the same,
and the registry was called for the same schemas. -/
structure Indistinct (p q : Publisher) : Prop where
  outcome : ∀ t, p.outcome? t = q.outcome? t
  registrar : p.registrar = q.registrar
  find : ∀ {registry registry' schema schema' : String},
    Text.trim registry = Text.trim registry' → Text.trim schema = Text.trim schema' →
      p.registrar.find? registry schema = q.registrar.find? registry' schema'
  handle : ∀ {registry registry' : Option String},
    registry.map Text.trim = registry'.map Text.trim →
      p.registrar.handle? registry = q.registrar.handle? registry'
  reserve : ∀ {registry registry' schema schema' : String},
    Text.trim registry = Text.trim registry' → Text.trim schema = Text.trim schema' →
      p.registrar.reserve registry schema = q.registrar.reserve registry' schema'
  news : p.news = q.news
  calls : p.journal.map Entry.trimmed = q.journal.map Entry.trimmed

/-- Publishers of one trimmed form look the same. -/
theorem Indistinct.of_trimmed (h : p.trimmed = q.trimmed) : Indistinct p q := by
  have hregistrar : p.registrar = q.registrar := by
    rw [← p.registrar_trimmed, h, registrar_trimmed]
  refine ⟨fun t => ?_, hregistrar, fun hr hs => ?_, fun hr => ?_, fun hr hs => ?_, ?_, ?_⟩
  · rw [← outcome?_trimmed, h, outcome?_trimmed]
  · rw [Registrar.find?, Registrar.find?, Key.canonical, Key.canonical, hr, hs, hregistrar]
  · rw [Registrar.handle?, Registrar.handle?, hr, hregistrar]
  · rw [← Registrar.reserve_trim, hr, hs, Registrar.reserve_trim, hregistrar]
  · rw [← news_trimmed, h, news_trimmed]
  · exact congrArg Publisher.journal h

/-- **Blanks around names never matter**: two publishers that start alike and take the same moves, up
to blanks around the names that the moves bring, look the same after each of them, if one registry that
does not see the blanks serves both. -/
theorem indistinct_moves (c : Responder) (id : String) (listening : Bool) (limit : Option Nat)
    (hms : List.Forall₂ Move.Twin ms ms')
    (h : c.Serves [] (fresh id listening limit) ms)
    (h' : c.Serves [] (fresh id listening limit) ms') (n : Nat) :
    Indistinct ((fresh id listening limit).moves (ms.take n))
      ((fresh id listening limit).moves (ms'.take n)) := by
  have htake : List.Forall₂ Move.Twin (ms.take n) (ms'.take n) := List.forall₂_take n hms
  exact .of_trimmed (Responder.trimmed_moves htake rfl (h.take n) (h'.take n))

/-- A registry that notes every schema under the names of the registry and the schema. -/
def namingResponder : Responder where
  publish _ _ handle name _ _ := .record ⟨s!"{handle.name}/{name}", name, none, {}⟩
  unpublish _ _ := .ok ()

/-- A schema is published, and then again together with another one, which is refused for the first
and done for the second. -/
def namedPlainly : List Move :=
  [.ask (.publish { name := "r" } { schema := ⟨"s", "{}"⟩ }), .run 0,
    .answerPublish 0 (.record ⟨"r/s", "s", none, {}⟩),
    .ask (.publishAll { name := "r" } [{ schema := ⟨"s", "{}"⟩ }, { schema := ⟨"t", "{}"⟩ }]),
    .run 1, .run 2, .run 3, .answerPublish 3 (.record ⟨"r/t", "t", none, {}⟩), .run 1]

/-- The same with blanks around the names. -/
def namedWithBlanks : List Move :=
  [.ask (.publish { name := "r\t" } { schema := ⟨" s", "{}"⟩ }), .run 0,
    .answerPublish 0 (.record ⟨"r/s", "s", none, {}⟩),
    .ask (.publishAll { name := " r" } [{ schema := ⟨"s\n", "{}"⟩ }, { schema := ⟨" t ", "{}"⟩ }]),
    .run 1, .run 2, .run 3, .answerPublish 3 (.record ⟨"r/t", "t", none, {}⟩), .run 1]

theorem indistinct_namedWithBlanks :
    List.Forall₂ Move.Twin namedPlainly namedWithBlanks ∧
      namingResponder.Serves [] (fresh "id" true none) namedPlainly ∧
      namingResponder.Serves [] (fresh "id" true none) namedWithBlanks ∧
      Indistinct ((fresh "id" true none).moves (namedPlainly.take 9))
        ((fresh "id" true none).moves (namedWithBlanks.take 9)) ∧
      ((fresh "id" true none).moves namedWithBlanks).outcome? 1 =
        some (.failed (.partialPublish "r" 2 [⟨"s", "r", .duplicate "r" "s"⟩])) := by
  have htwin : List.Forall₂ Move.Twin namedPlainly namedWithBlanks :=
    .cons (.ask rfl) (.cons (.same _) (.cons (.same _) (.cons (.ask rfl) (.cons (.same _)
      (.cons (.same _) (.cons (.same _) (.cons (.same _) (.cons (.same _) .nil))))))))
  have hplain : namingResponder.Serves [] (fresh "id" true none) namedPlainly :=
    ⟨trivial, trivial, rfl, trivial, trivial, trivial, trivial, rfl, trivial, trivial⟩
  have hblanks : namingResponder.Serves [] (fresh "id" true none) namedWithBlanks :=
    ⟨trivial, trivial, rfl, trivial, trivial, trivial, trivial, rfl, trivial, trivial⟩
  exact ⟨htwin, hplain, hblanks,
    indistinct_moves namingResponder "id" true none htwin hplain hblanks 9, rfl⟩

end Publisher
end SchemaHerald
