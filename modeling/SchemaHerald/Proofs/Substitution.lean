import Mathlib.Data.List.Infix
import Mathlib.Data.List.TakeWhile
import SchemaHerald.Settings.Reference

/-!
# Expansion and substitution at once

`substituteAll` reads a text once from left to right and puts the value of each variable that has
one in place of the reference to it. What it has put in is not looked at again. `expand` takes the
references of the text as it is given, one after the other, and replaces each of them in the text as
it stands by then, so that it also replaces what earlier values brought with them or completed.

Each of its turns is one pass by itself (`expandOne_eq_substitute`). All of them together come to
one pass if no turn finds more than it should (`Undisturbed`): as many references to its variable as
the given text has, or none if the variable had its turn before. Texts and values without a stray
dollar sign are of this kind (`undisturbed_of_plain`).
-/
namespace SchemaHerald.Reference

/-- Whether this is a name of a variable. -/
def isName : List Char → Bool
  | [] => false
  | c :: rest => startsName c && rest.all continuesName

/-- One pass over a text, which puts a text in place of every reference; `skip` counts the
characters that still belong to the reference before. -/
def substituteFrom (put : List Char → List Char) : Nat → List Char → List Char
  | _, [] => []
  | skip + 1, _ :: rest => substituteFrom put skip rest
  | 0, c :: rest =>
    match atStart? (c :: rest) with
    | some name => put name ++ substituteFrom put (name.length + 2) rest
    | none => c :: substituteFrom put 0 rest

/-- A text with something put in place of every reference. -/
def substitute (put : List Char → List Char) (s : List Char) : List Char := substituteFrom put 0 s

/-- What stands for a reference: the value of its variable, or itself if there is none. -/
def valueOf (env : Table String String) (name : List Char) : List Char :=
  match env.get? (String.ofList name) with
  | some value => value.toList
  | none => text name

/-- **Substitution at once**: one pass, in which a reference that has a value makes room for it. -/
def substituteAll (env : Table String String) (s : String) : String :=
  String.ofList (substitute (valueOf env) s.toList)

/-- What stands for a reference while only some variables have had their turn. -/
def valueAmong (env : Table String String) (done : List (List Char)) (name : List Char) :
    List Char :=
  if name ∈ done then valueOf env name else text name

/-- **No turn finds more than it should.** When it is the turn of a reference whose variable has a
value, the text refers to the variable as often as the given text does, or no more if the variable
had its turn before. -/
def Undisturbed (env : Table String String) (s : List Char) : Prop :=
  ∀ i : Fin (names s).length, env.contains (String.ofList (names s)[i]) = true →
    (names (substitute (valueAmong env ((names s).take i)) s)).count (names s)[i] =
      if (names s)[i] ∈ (names s).take i then 0 else (names s).count (names s)[i]

instance (env : Table String String) (s : List Char) : Decidable (Undisturbed env s) :=
  inferInstanceAs (Decidable (∀ _ : Fin _, _ → _))

/-! ## References in a text -/

theorem continuesName_of_startsName {c : Char} (h : startsName c = true) :
    continuesName c = true := by
  rw [continuesName, h, Bool.true_or]

theorem ne_dollar_of_continuesName {c : Char} (h : continuesName c = true) : c ≠ '$' := by
  rintro rfl
  revert h
  decide

theorem isName_cons {c : Char} {rest : List Char} :
    isName (c :: rest) = true ↔ startsName c = true ∧ ∀ d ∈ rest, continuesName d = true := by
  simp [isName]

/-- No reference starts inside another one. -/
theorem ne_dollar_of_isName {name : List Char} (h : isName name = true) : '$' ∉ name := by
  cases name with
  | nil => simp
  | cons c rest =>
    obtain ⟨hc, hrest⟩ := isName_cons.1 h
    intro hmem
    rcases List.mem_cons.1 hmem with rfl | hmem
    · exact ne_dollar_of_continuesName (continuesName_of_startsName hc) rfl
    · exact ne_dollar_of_continuesName (hrest _ hmem) rfl

theorem atStart?_text {name : List Char} (h : isName name = true) (rest : List Char) :
    atStart? (text name ++ rest) = some name := by
  cases name with
  | nil => cases h
  | cons c cs =>
    obtain ⟨hc, hcs⟩ := isName_cons.1 h
    have htake : (cs ++ '}' :: rest).takeWhile continuesName = cs := by
      rw [List.takeWhile_append_of_pos hcs]
      simp [show continuesName '}' = false by decide]
    have hdrop : (cs ++ '}' :: rest).dropWhile continuesName = '}' :: rest := by
      rw [List.dropWhile_append_of_pos hcs]
      simp [show continuesName '}' = false by decide]
    simp [text, atStart?, hc, htake, hdrop]

/-- **What starts with a reference** is the text of the reference and something after it. -/
theorem atStart?_eq_some_iff {s name : List Char} :
    atStart? s = some name ↔ isName name = true ∧ ∃ rest, s = text name ++ rest := by
  constructor
  · intro h
    unfold atStart? at h
    split at h
    · rename_i c rest
      simp only [Option.ite_none_right_eq_some, Bool.and_eq_true, beq_iff_eq,
        Option.some.injEq] at h
      obtain ⟨⟨hc, hclose⟩, rfl⟩ := h
      obtain ⟨after, hafter⟩ := List.head?_eq_some_iff.1 hclose
      refine ⟨isName_cons.2 ⟨hc, fun d hd => List.mem_takeWhile_imp hd⟩, after, ?_⟩
      have hsplit := List.takeWhile_append_dropWhile (p := continuesName) (l := rest)
      rw [hafter] at hsplit
      simp [text, hsplit]
    · cases h
  · rintro ⟨hname, rest, rfl⟩
    exact atStart?_text hname rest

/-- Whether a text starts with one given reference. -/
theorem isPrefixOf_text_iff {name s : List Char} (h : isName name = true) :
    (text name).isPrefixOf s = true ↔ atStart? s = some name := by
  rw [atStart?_eq_some_iff, List.isPrefixOf_iff_prefix]
  constructor
  · rintro ⟨rest, rfl⟩
    exact ⟨h, rest, rfl⟩
  · rintro ⟨-, rest, rfl⟩
    exact ⟨rest, rfl⟩

theorem atStart?_of_ne_dollar {c : Char} (rest : List Char) (h : c ≠ '$') :
    atStart? (c :: rest) = none := by
  unfold atStart?
  split
  · rename_i hs
    cases hs
    exact absurd rfl h
  · rfl

/-- **Induction along a text**, from one character that starts no reference or one whole reference
to the next. -/
theorem reading_induction {P : List Char → Prop} (nil : P [])
    (char : ∀ c rest, atStart? (c :: rest) = none → P rest → P (c :: rest))
    (reference : ∀ name rest, isName name = true → P rest → P (text name ++ rest)) (s : List Char) :
    P s := by
  induction hlen : s.length using Nat.strongRecOn generalizing s with
  | ind n ih =>
    cases s with
    | nil => exact nil
    | cons c rest =>
      cases hstart : atStart? (c :: rest) with
      | none => exact char c rest hstart (ih rest.length (by simp [← hlen]) rest rfl)
      | some name =>
        obtain ⟨hname, after, hafter⟩ := atStart?_eq_some_iff.1 hstart
        have hshorter : after.length < n := by
          rw [← hlen, hafter]
          simp [text]
          omega
        exact hafter ▸ reference name after hname (ih after.length hshorter after rfl)

theorem names_cons {c : Char} {rest : List Char} (h : atStart? (c :: rest) = none) :
    names (c :: rest) = names rest := by
  rw [names, h]
  rfl

theorem names_append {xs : List Char} (rest : List Char) (h : '$' ∉ xs) :
    names (xs ++ rest) = names rest := by
  induction xs with
  | nil => rfl
  | cons x xs ih =>
    rw [List.mem_cons, not_or] at h
    obtain ⟨hx, hxs⟩ := h
    rw [List.cons_append, names_cons (atStart?_of_ne_dollar _ (Ne.symm hx)), ih hxs]

theorem names_text {name : List Char} (h : isName name = true) (rest : List Char) :
    names (text name ++ rest) = name :: names rest := by
  have hinside : '$' ∉ '{' :: name ++ ['}'] := by
    simp [ne_dollar_of_isName h]
  have hstart := atStart?_text h rest
  rw [text, List.cons_append, List.cons_append] at hstart ⊢
  rw [names, hstart]
  exact congrArg (name :: ·) (names_append rest hinside)

theorem names_suffix (xs rest : List Char) : names rest <:+ names (xs ++ rest) := by
  induction xs with
  | nil => exact List.suffix_rfl
  | cons x xs ih => exact ih.trans (List.suffix_append _ _)

theorem count_names_le (name xs rest : List Char) :
    (names rest).count name ≤ (names (xs ++ rest)).count name :=
  (names_suffix xs rest).sublist.count_le name

theorem isName_of_mem_names {s name : List Char} (h : name ∈ names s) : isName name = true := by
  induction s with
  | nil => cases h
  | cons c rest ih =>
    rcases List.mem_append.1 h with h | h
    · exact (atStart?_eq_some_iff.1 (Option.mem_toList.1 h)).1
    · exact ih h

/-! ## One pass -/

section
variable (put : List Char → List Char)

theorem substituteFrom_drop (skip : Nat) (s : List Char) :
    substituteFrom put skip s = substitute put (s.drop skip) := by
  induction skip generalizing s with
  | zero => rfl
  | succ skip ih =>
    cases s with
    | nil => rfl
    | cons c rest => exact ih rest

theorem substitute_cons {c : Char} {rest : List Char} (h : atStart? (c :: rest) = none) :
    substitute put (c :: rest) = c :: substitute put rest := by
  rw [substitute, substituteFrom, h]
  rfl

theorem substitute_text {name : List Char} (h : isName name = true) (rest : List Char) :
    substitute put (text name ++ rest) = put name ++ substitute put rest := by
  have hstart := atStart?_text h rest
  rw [text, List.cons_append, List.cons_append] at hstart ⊢
  rw [substitute, substituteFrom, hstart]
  simp [substituteFrom_drop]

end

/-- A pass depends on what it puts in for the references that there are, and on nothing else. -/
theorem substitute_congr {put put' : List Char → List Char} {s : List Char}
    (h : ∀ name ∈ names s, put name = put' name) : substitute put s = substitute put' s := by
  induction s using reading_induction with
  | nil => rfl
  | char c rest hstart ih =>
    rw [substitute_cons put hstart, substitute_cons put' hstart, ih]
    intro name hname
    exact h name (List.mem_append_right _ hname)
  | reference name rest hname ih =>
    rw [names_text hname] at h
    rw [substitute_text put hname, substitute_text put' hname, h name (List.mem_cons_self ..), ih]
    exact fun other hother => h other (List.mem_cons_of_mem _ hother)

/-- A pass that puts every reference back changes nothing. -/
theorem substitute_self (s : List Char) : substitute text s = s := by
  induction s using reading_induction with
  | nil => rfl
  | char c rest hstart ih => rw [substitute_cons text hstart, ih]
  | reference name rest hname ih => rw [substitute_text text hname, ih]

/-! ## One turn -/

section
variable {name : List Char} (value : List Char)

theorem replaceFrom_drop (pattern : List Char) (skip : Nat) (s : List Char) :
    replaceFrom pattern value skip s = replaceAll pattern value (s.drop skip) := by
  induction skip generalizing s with
  | zero => rfl
  | succ skip ih =>
    cases s with
    | nil => rfl
    | cons c rest => exact ih rest

theorem replaceAll_cons (h : isName name = true) {c : Char} {rest : List Char}
    (hstart : atStart? (c :: rest) ≠ some name) :
    replaceAll (text name) value (c :: rest) = c :: replaceAll (text name) value rest := by
  rw [replaceAll, replaceFrom, if_neg (hstart ∘ (isPrefixOf_text_iff h).1)]
  rfl

theorem replaceAll_pattern (c : Char) (cs rest : List Char) :
    replaceAll (c :: cs) value (c :: cs ++ rest) = value ++ replaceAll (c :: cs) value rest := by
  have hprefix : (c :: cs).isPrefixOf (c :: (cs ++ rest)) = true :=
    List.isPrefixOf_iff_prefix.2 (List.prefix_append (c :: cs) rest)
  rw [List.cons_append, replaceAll, replaceFrom, if_pos hprefix, replaceFrom_drop]
  simp

theorem replaceAll_text (name rest : List Char) :
    replaceAll (text name) value (text name ++ rest) =
      value ++ replaceAll (text name) value rest :=
  replaceAll_pattern value '$' ('{' :: name ++ ['}']) rest

/-- **What holds no further reference to the variable** is kept as it is. -/
theorem replaceAll_append (h : isName name = true) {xs rest : List Char}
    (hcount : (names (xs ++ rest)).count name = (names rest).count name) :
    replaceAll (text name) value (xs ++ rest) = xs ++ replaceAll (text name) value rest := by
  induction xs with
  | nil => rfl
  | cons x xs ih =>
    have hle := count_names_le name xs rest
    rw [List.cons_append, names, List.count_append] at hcount
    have hstart : atStart? (x :: (xs ++ rest)) ≠ some name := by
      intro hstart
      rw [hstart, Option.toList_some, List.count_singleton_self] at hcount
      omega
    rw [List.cons_append, replaceAll_cons value h hstart, ih (by omega), List.cons_append]

/-- A text that does not refer to a variable is not changed by its turn. -/
theorem replaceAll_of_not_mem (h : isName name = true) {s : List Char} (hs : name ∉ names s) :
    replaceAll (text name) value s = s := by
  have hcount : (names (s ++ [])).count name = (names []).count name := by
    rw [List.append_nil, List.count_eq_zero_of_not_mem hs]
    rfl
  simpa [replaceAll, replaceFrom] using replaceAll_append value h hcount

/-- **One turn is one pass** that replaces the references to one variable. -/
theorem replaceAll_eq_substitute (h : isName name = true) (s : List Char) :
    replaceAll (text name) value s =
      substitute (fun other => if other = name then value else text other) s := by
  induction s using reading_induction with
  | nil => rfl
  | char c rest hstart ih =>
    rw [substitute_cons _ hstart, replaceAll_cons value h (by simp [hstart]), ih]
  | reference other rest hother ih =>
    rw [substitute_text _ hother, ← ih]
    split
    · rename_i hsame
      rw [hsame, replaceAll_text]
    · rename_i hne
      refine replaceAll_append value h ?_
      rw [names_text hother, List.count_cons_of_ne hne]

end

/-! ## All turns -/

section
variable {put : List Char → List Char} {name : List Char}

/-- A reference that is left alone is there afterwards. -/
theorem count_names_substitute_le (h : isName name = true) (hput : put name = text name)
    (s : List Char) : (names s).count name ≤ (names (substitute put s)).count name := by
  induction s using reading_induction with
  | nil => exact Nat.le_refl _
  | char c rest hstart ih =>
    rw [substitute_cons put hstart, names_cons hstart]
    exact Nat.le_trans ih (count_names_le name [c] _)
  | reference other rest hother ih =>
    rw [substitute_text put hother, names_text hother]
    by_cases hsame : other = name
    · rw [hsame, hput, names_text h, List.count_cons_self, List.count_cons_self]
      exact Nat.succ_le_succ ih
    · rw [List.count_cons_of_ne hsame]
      exact Nat.le_trans ih (count_names_le name _ _)

/-- **A turn that finds the references of the given text and no others** adds its variable to the
ones that the pass replaces. -/
theorem replaceAll_substitute (h : isName name = true) (hput : put name = text name)
    (value : List Char) {s : List Char}
    (hcount : (names (substitute put s)).count name = (names s).count name) :
    replaceAll (text name) value (substitute put s) =
      substitute (fun other => if other = name then value else put other) s := by
  induction s using reading_induction with
  | nil => rfl
  | char c rest hstart ih =>
    have hle := count_names_substitute_le h hput rest
    have hmore := count_names_le name [c] (substitute put rest)
    rw [substitute_cons put hstart, names_cons hstart, ← List.singleton_append] at hcount
    rw [substitute_cons put hstart, substitute_cons _ hstart, ← ih (by omega)]
    exact replaceAll_append value h (Nat.le_antisymm (hcount.trans_le hle) hmore)
  | reference other rest hother ih =>
    have hle := count_names_substitute_le h hput rest
    rw [substitute_text put hother, names_text hother] at hcount
    rw [substitute_text put hother, substitute_text _ hother]
    split
    · rename_i hsame
      rw [hsame, hput, names_text h, List.count_cons_self, List.count_cons_self] at hcount
      rw [hsame, hput, replaceAll_text, ih (by omega)]
    · -- what was put in brought no reference with it and completed none
      rename_i hne
      have hmore := count_names_le name (put other) (substitute put rest)
      rw [List.count_cons_of_ne hne] at hcount
      rw [replaceAll_append value h (by omega), ih (by omega)]

end

variable {env : Table String String}

theorem valueAmong_concat (done : List (List Char)) (name other : List Char) :
    valueAmong env (done ++ [name]) other =
      if other = name then valueOf env name else valueAmong env done other := by
  by_cases h : other = name <;> simp [valueAmong, h]

theorem expandOne_eq_substitute {name : List Char} (h : isName name = true) (s : List Char) :
    expandOne env s name = substitute (valueAmong env [name]) s := by
  have hput : ∀ other, valueAmong env [name] other =
      if other = name then valueOf env name else text other := valueAmong_concat [] name
  unfold expandOne
  split
  · rename_i value hvalue
    rw [replaceAll_eq_substitute value.toList h]
    refine substitute_congr fun other _ => ?_
    rw [hput, valueOf, hvalue]
  · rename_i hnone
    refine (substitute_self s).symm.trans (substitute_congr fun other _ => ?_)
    rw [hput, valueOf, hnone]
    split
    · rename_i hsame
      rw [hsame]
    · rfl

/-- **A turn in an undisturbed text** adds its variable to the ones that the pass replaces. -/
theorem expandOne_substitute {name s : List Char} {done : List (List Char)} (h : isName name = true)
    (hcount : env.contains (String.ofList name) = true →
      (names (substitute (valueAmong env done) s)).count name =
        if name ∈ done then 0 else (names s).count name) :
    expandOne env (substitute (valueAmong env done) s) name =
      substitute (valueAmong env (done ++ [name])) s := by
  have hself : valueAmong env done name = valueOf env name →
      substitute (valueAmong env done) s = substitute (valueAmong env (done ++ [name])) s := by
    intro hsame
    refine substitute_congr fun other _ => ?_
    rw [valueAmong_concat]
    split
    · rename_i hother
      rw [hother, hsame]
    · rfl
  unfold expandOne
  split
  · rename_i value hvalue
    have hbound : env.contains (String.ofList name) = true := by
      rw [Table.contains, hvalue]
      rfl
    have hcount := hcount hbound
    by_cases hdone : name ∈ done
    · -- the second turn of a variable finds nothing
      rw [if_pos hdone] at hcount
      rw [replaceAll_of_not_mem _ h (List.count_eq_zero.1 hcount), hself (if_pos hdone)]
    · rw [if_neg hdone] at hcount
      rw [replaceAll_substitute h (if_neg hdone) _ hcount]
      refine substitute_congr fun other _ => ?_
      rw [valueAmong_concat, valueOf, hvalue]
  · rename_i hnone
    refine hself ?_
    simp [valueAmong, valueOf, hnone]

/-- The text after some of the turns. -/
theorem foldl_expandOne_take {s : List Char} (h : Undisturbed env s) (k : Nat) :
    ((names s).take k).foldl (expandOne env) s =
      substitute (valueAmong env ((names s).take k)) s := by
  induction k with
  | zero =>
    refine (substitute_self s).symm.trans (substitute_congr fun other _ => ?_)
    simp [valueAmong]
  | succ k ih =>
    by_cases hk : k < (names s).length
    · rw [List.take_succ_eq_append_getElem hk, List.foldl_append, ih]
      exact expandOne_substitute (isName_of_mem_names (List.getElem_mem hk)) (h ⟨k, hk⟩)
    · have hsame : (names s).take (k + 1) = (names s).take k := by
        rw [List.take_of_length_le (by omega), List.take_of_length_le (by omega)]
      rw [hsame, ih]

theorem foldl_expandOne {todo : List (List Char)} (h : ∀ name ∈ todo, isName name = true)
    (s : List Char) :
    todo.foldl (expandOne env) s =
      todo.foldl (fun t name => substitute (valueAmong env [name]) t) s := by
  induction todo generalizing s with
  | nil => rfl
  | cons name todo ih =>
    rw [List.foldl_cons, List.foldl_cons, expandOne_eq_substitute (h name (List.mem_cons_self ..)),
      ih fun other hother => h other (List.mem_cons_of_mem _ hother)]

theorem expand_of_undisturbed {s : String} (h : Undisturbed env s.toList) :
    expand env s = substituteAll env s := by
  have hall := foldl_expandOne_take h (names s.toList).length
  rw [List.take_length] at hall
  rw [expand, hall, substituteAll]
  exact congrArg _ (substitute_congr fun name hname => if_pos hname)

/-! ## Plain texts and values -/

/-- Every dollar sign of a text starts a reference. -/
def Plain (s : List Char) : Prop :=
  ∀ t ∈ s.tails, t.head? = some '$' → (atStart? t).isSome = true

instance (s : List Char) : Decidable (Plain s) :=
  inferInstanceAs (Decidable (∀ t ∈ s.tails, _ → _))

theorem Plain.append {xs rest : List Char} (h : Plain (xs ++ rest)) : Plain rest := by
  intro t ht
  have hsuffix := ((List.mem_tails _ _).1 ht).trans (List.suffix_append xs rest)
  exact h t ((List.mem_tails _ _).2 hsuffix)

/-- References that are put in place of others are those that were left alone. -/
theorem names_substitute {put : List Char → List Char} {s : List Char} (hs : Plain s)
    (hput : ∀ name ∈ names s, put name = text name ∨ '$' ∉ put name) :
    names (substitute put s) = (names s).filter fun name => put name = text name := by
  induction s using reading_induction with
  | nil => rfl
  | char c rest hstart ih =>
    have hc : c ≠ '$' := by
      rintro rfl
      have hsome := hs _ ((List.mem_tails _ _).2 List.suffix_rfl) rfl
      rw [hstart] at hsome
      cases hsome
    rw [names_cons hstart] at hput ⊢
    rw [substitute_cons put hstart, names_cons (atStart?_of_ne_dollar _ hc)]
    exact ih (show Plain ([c] ++ rest) from hs).append hput
  | reference name rest hname ih =>
    rw [names_text hname] at hput ⊢
    have ih := ih hs.append fun other hother => hput other (List.mem_cons_of_mem _ hother)
    rw [substitute_text put hname, List.filter_cons, ← ih]
    rcases hput name (List.mem_cons_self ..) with hsame | hplain
    · rw [if_pos (decide_eq_true hsame), hsame, names_text hname]
    · have hne : put name ≠ text name := by
        intro hsame
        rw [hsame] at hplain
        exact hplain (List.mem_cons_self ..)
      rw [if_neg (by simp [hne]), names_append _ hplain]

/-- **Plain values in a plain text** disturb no turn. -/
theorem undisturbed_of_plain {s : List Char} (hs : Plain s)
    (hvalues : ∀ name ∈ names s, ∀ value ∈ env.get? (String.ofList name), '$' ∉ value.toList) :
    Undisturbed env s := by
  intro i hbound
  have hmem : (names s)[i] ∈ names s := List.getElem_mem ..
  generalize (names s)[i] = name at hbound hmem ⊢
  generalize (names s).take i = done
  have hput : ∀ other ∈ names s,
      valueAmong env done other = text other ∨ '$' ∉ valueAmong env done other := by
    intro other hother
    unfold valueAmong valueOf
    split
    · split
      · rename_i value hvalue
        exact .inr (hvalues other hother value hvalue)
      · exact .inl rfl
    · exact .inl rfl
  obtain ⟨value, hvalue⟩ := Option.isSome_iff_exists.1 hbound
  rw [names_substitute hs hput]
  split
  · rename_i hdone
    -- its value has no dollar sign, so the reference is gone
    have hvalueOf : valueAmong env done name = value.toList := by
      simp [valueAmong, hdone, valueOf, hvalue]
    have hne : valueAmong env done name ≠ text name := by
      rw [hvalueOf]
      intro hsame
      refine hvalues name hmem value hvalue ?_
      rw [hsame]
      exact List.mem_cons_self ..
    refine List.count_eq_zero.2 fun hleft => ?_
    exact hne (of_decide_eq_true (List.mem_filter.1 hleft).2)
  · rename_i hdone
    exact List.count_filter (decide_eq_true (if_neg hdone))

/-- **Expansion**, in every text and every environment, is one pass after the other: one for each
reference of the text as it is given, in which all references to its variable in the text as it
stands by then make room for the value. It is substitution at once wherever no turn finds more
references to its variable than it should; so it is if every dollar sign of the text starts a
reference and no value has one. -/
theorem expand_passes (env : Table String String) (s : String) :
    expand env s = String.ofList
      ((names s.toList).foldl (fun t name => substitute (valueAmong env [name]) t) s.toList) ∧
    (Undisturbed env s.toList → expand env s = substituteAll env s) ∧
    (Plain s.toList →
      (∀ name ∈ names s.toList, ∀ value ∈ env.get? (String.ofList name), '$' ∉ value.toList) →
      expand env s = substituteAll env s) := by
  refine ⟨?_, expand_of_undisturbed, fun hs hvalues => ?_⟩
  · rw [expand, foldl_expandOne fun name hname => isName_of_mem_names hname]
  · exact expand_of_undisturbed (undisturbed_of_plain hs hvalues)

/-- A plain text with a plain value and with a variable that has none, and a text in which a value
brings a reference to a variable of no other reference. -/
theorem expand_passes_bearer :
    let env : Table String String := .ofList [("HOST", "${USER}"), ("REGISTRY_TOKEN", "secret123")]
    (Plain "Bearer ${REGISTRY_TOKEN} ${MISSING}".toList ∧
      expand env "Bearer ${REGISTRY_TOKEN} ${MISSING}" =
        substituteAll env "Bearer ${REGISTRY_TOKEN} ${MISSING}" ∧
      substituteAll env "Bearer ${REGISTRY_TOKEN} ${MISSING}" = "Bearer secret123 ${MISSING}") ∧
    Undisturbed env "$${HOST}:${HOST}".toList ∧
      expand env "$${HOST}:${HOST}" = substituteAll env "$${HOST}:${HOST}" ∧
      substituteAll env "$${HOST}:${HOST}" = "$${USER}:${USER}" := by
  intro env
  have hplain : Plain "Bearer ${REGISTRY_TOKEN} ${MISSING}".toList := by decide +kernel
  have hundisturbed : Undisturbed env "$${HOST}:${HOST}".toList := by decide +kernel
  exact ⟨⟨hplain, (expand_passes env _).2.2 hplain (by decide +kernel), by decide +kernel⟩,
    hundisturbed, (expand_passes env _).2.1 hundisturbed, by decide +kernel⟩

/-- **Expansion is not substitution at once**: a reference that a value brought with it is replaced
if the text itself refers to that variable further on, but not if it does so further in front. -/
theorem expand_bySequence :
    let env : Table String String := .ofList [("A", "${B}"), ("B", "x")]
    substituteAll env "${A}${B}" = "${B}x" ∧ expand env "${A}${B}" = "xx" ∧
    substituteAll env "${B}${A}" = "x${B}" ∧ expand env "${B}${A}" = "x${B}" := by
  decide +kernel

end SchemaHerald.Reference
