import Mathlib.Tactic.Lemma
import Payout.Settings.Variables

/-!
# Filling in the variables

A document has one reading as plain characters and references to variables (`Parted`), and the
document filled in is that reading with each reference replaced by its value. What is computed
instead replaces, one name after another, every copy of its reference in what the document has
become. The two agree where no copy of a reference can come about in any other way than by standing
in the document (`Clear`, `substitute_fills`). Where a value or a name holds a reference, or an
empty value closes the gap between a dollar and a brace, they need not (`not_filled_at_once`).
-/

namespace Payout

/-- The characters of a variable's value. -/
def Environment.text (env : Environment) (name : List Char) : List Char :=
  ((env.value? (String.ofList name)).getD "").toList

namespace Settings

/-- A part of a document. -/
inductive Piece where
  | plain (c : Char)
  | reference (name : List Char)
deriving DecidableEq

/-- What can stand between the braces of a reference. -/
structure IsName (name : List Char) : Prop where
  filled : name ≠ []
  closed : '}' ∉ name

/-- A document in parts, from the left. -/
inductive Parted : List Char → List Piece → Prop where
  | nil :
    Parted [] []
  | reference {name rest ps} :
    IsName name →
    Parted rest ps →
    Parted (reference name ++ rest) (.reference name :: ps)
  | plain {c rest ps} :
    (∀ name rest', IsName name → c :: rest ≠ Settings.reference name ++ rest') →
    Parted rest ps →
    Parted (c :: rest) (.plain c :: ps)

/-- The names that are referred to, in order. -/
def names (ps : List Piece) : List (List Char) :=
  ps.flatMap fun
    | .plain _ => []
    | .reference name => [name]

/-- A document without parts refers to nothing. -/
@[simp] lemma names_nil : names [] = [] := rfl

/-- A plain character refers to nothing. -/
@[simp] lemma names_plain {c : Char} {ps : List Piece} : names (.plain c :: ps) = names ps := rfl

/-- A reference adds its name to those that follow. -/
@[simp] lemma names_reference {name : List Char} {ps : List Piece} :
    names (.reference name :: ps) = name :: names ps := rfl

section Reading

variable {c : Char} {name rest : List Char} {ps : List Piece}

/-- A reference is a dollar and a brace, its name, and the closing brace. -/
lemma reference_append : reference name ++ rest = '$' :: '{' :: (name ++ '}' :: rest) := by
  simp [reference]

/-- A name is all that stands before the closing brace. -/
lemma takeWhile_name (isName : IsName name) : (name ++ '}' :: rest).takeWhile (· ≠ '}') = name := by
  have inside : ∀ d ∈ name, decide (d ≠ '}') = true :=
    fun d mem => decide_eq_true (ne_of_mem_of_not_mem mem isName.closed)
  rw [List.takeWhile_append_of_pos inside, List.takeWhile_cons_of_neg (by simp), List.append_nil]

/-- What is looked for at a character is a reference that begins there. -/
lemma isReference_iff :
    (c = '$' ∧ rest.head? = some '{' ∧ (rest.drop 1).takeWhile (· ≠ '}') ≠ [] ∧
      ((rest.drop 1).takeWhile (· ≠ '}')).length + 1 < rest.length) ↔
      ∃ name rest', IsName name ∧ c :: rest = reference name ++ rest' := by
  constructor
  case mp =>
    rintro ⟨rfl, brace, filled, short⟩
    obtain ⟨rest, rfl⟩ := List.head?_eq_some_iff.1 brace
    rw [List.drop_one, List.tail_cons] at filled short
    have parts : rest.takeWhile (· ≠ '}') ++ rest.dropWhile (· ≠ '}') = rest :=
      List.takeWhile_append_dropWhile
    have other : '}' ∉ rest.takeWhile (· ≠ '}') := fun mem => by
      simpa using List.all_eq_true.1 List.all_takeWhile _ mem
    have last := List.head?_dropWhile_not (· ≠ '}') rest
    cases tail : rest.dropWhile (· ≠ '}') with
    | nil =>
      rw [tail, List.append_nil] at parts
      rw [parts, List.length_cons] at short
      omega
    | cons d rest' =>
      rw [tail] at parts last
      obtain rfl : d = '}' := by simpa using last
      exact ⟨_, rest', ⟨filled, other⟩, by rw [reference_append, parts]⟩
  case mpr =>
    rintro ⟨name, rest', isName, same⟩
    rw [reference_append] at same
    obtain ⟨rfl, rfl⟩ := List.cons.inj same
    rw [List.drop_one, List.tail_cons, takeWhile_name isName]
    refine ⟨rfl, rfl, isName.filled, ?_⟩
    rw [List.length_cons, List.length_append, List.length_cons]
    omega

/-- The reader finds a reference at the front, and goes on after it. -/
lemma references_reference (isName : IsName name) :
    references (reference name ++ rest) = name :: references rest := by
  have found := isReference_iff.2 ⟨name, rest, isName, reference_append.symm⟩
  rw [reference_append, references, if_pos found, List.drop_one, List.tail_cons,
    takeWhile_name isName]
  simp

/-- The reader passes by a character that begins no reference. -/
lemma references_plain (none : ∀ name rest', IsName name → c :: rest ≠ reference name ++ rest') :
    references (c :: rest) = references rest := by
  rw [references, if_neg]
  intro found
  obtain ⟨name, rest', isName, same⟩ := isReference_iff.1 found
  exact none name rest' isName same

namespace Parted

variable {text : List Char}

/-- The names that the reader finds are those of the parts. -/
lemma references_eq (parted : Parted text ps) : references text = names ps := by
  induction parted with
  | nil => rw [references, names_nil]
  | reference isName _ ih => rw [references_reference isName, ih, names_reference]
  | plain none _ ih => rw [references_plain none, ih, names_plain]

/-- What is referred to can stand between the braces. -/
lemma isName_of_mem (parted : Parted text ps) (mem : name ∈ names ps) : IsName name := by
  induction parted with
  | nil => cases mem
  | reference isName _ ih =>
    obtain rfl | mem := List.mem_cons.1 mem
    · exact isName
    · exact ih mem
  | plain _ _ ih => exact ih mem

/-- A character that is no dollar is a part of its own. -/
lemma cons_of_ne (parted : Parted text ps) (other : c ≠ '$') :
    Parted (c :: text) (.plain c :: ps) := by
  refine .plain (fun name rest _ same => ?_) parted
  rw [reference_append] at same
  exact other (List.cons.inj same).1

/-- Every document has a reading in parts. -/
lemma exists_of_text (text : List Char) : ∃ ps, Parted text ps := by
  induction h : text.length using Nat.strongRecOn generalizing text with
  | ind n ih =>
    subst h
    cases text with
    | nil => exact ⟨[], .nil⟩
    | cons c rest =>
      by_cases begins : ∃ name rest', IsName name ∧ c :: rest = Settings.reference name ++ rest'
      case pos =>
        obtain ⟨name, rest', isName, same⟩ := begins
        have shorter : rest'.length < (c :: rest).length := by
          rw [same, reference_append]
          simp
          omega
        obtain ⟨ps, parted⟩ := ih rest'.length shorter rest' rfl
        rw [same]
        exact ⟨_, .reference isName parted⟩
      case neg =>
        obtain ⟨ps, parted⟩ := ih rest.length (Nat.lt_succ_self _) rest rfl
        exact ⟨_, .plain (fun name rest' isName same => begins ⟨name, rest', isName, same⟩) parted⟩

end Parted

/-- A reference at the front of a text ends where its name ends, and in no other place. -/
lemma eq_of_reference_append {name' rest' : List Char} (isName : IsName name)
    (isName' : IsName name')
    (same : reference name ++ rest = reference name' ++ rest') : name = name' ∧ rest = rest' := by
  rw [reference_append, reference_append] at same
  have texts : name ++ '}' :: rest = name' ++ '}' :: rest' := by simpa using same
  have first : (name ++ '}' :: rest).takeWhile (· ≠ '}') = name := takeWhile_name isName
  have names : name = name' := by
    rw [← first, texts, takeWhile_name isName']
  subst names
  exact ⟨rfl, by simpa using texts⟩

/-- A document has only one reading in parts. -/
lemma Parted.unique {text : List Char} {ps' : List Piece} (parted : Parted text ps)
    (parted' : Parted text ps') :
    ps' = ps := by
  induction parted generalizing ps' with
  | nil =>
    cases parted' with
    | nil => rfl
  | @reference name rest ps isName _ ih =>
    generalize whole : Settings.reference name ++ rest = text at parted'
    cases parted' with
    | nil =>
      rw [reference_append] at whole
      cases whole
    | reference isName' parted' =>
      obtain ⟨rfl, rfl⟩ := eq_of_reference_append isName isName' whole
      rw [ih parted']
    | plain none _ => exact absurd whole.symm (none _ _ isName)
  | @plain c rest ps none _ ih =>
    generalize whole : c :: rest = text at parted'
    cases parted' with
    | nil => cases whole
    | reference isName' => exact absurd whole (none _ _ isName')
    | plain _ parted' =>
      cases whole
      rw [ih parted']

end Reading

/-- In a text something begins that may be a copy of another, though it may go on where the text
ends. -/
def Begins (old text : List Char) : Prop := ∃ s, s ≠ [] ∧ s <:+ text ∧ (s <+: old ∨ old <+: s)

section Replacing

variable {c : Char} {old new text rest : List Char}

/-- What begins in a text begins in every longer one that ends in it. -/
lemma Begins.cons (begins : Begins old text) : Begins old (c :: text) := by
  obtain ⟨s, some, suffix, same⟩ := begins
  exact ⟨s, some, suffix.trans (List.suffix_cons c text), same⟩

/-- A copy that reaches from a text into what follows begins in the text. -/
lemma Begins.of_copy (copy : old <+: c :: text ++ rest) : Begins old (c :: text) :=
  ⟨c :: text, nofun, List.suffix_rfl, Or.symm <|
    List.prefix_or_prefix_of_prefix copy (List.prefix_append _ _)⟩

/-- Where the mark of a reference is missing none begins. -/
lemma not_begins_of_not_mem {name : List Char} (plain : '$' ∉ text) :
    ¬ Begins (reference name) text := by
  rintro ⟨s, some, suffix, same⟩
  obtain ⟨c, s, rfl⟩ := List.exists_cons_of_ne_nil some
  have mark : c = '$' := by
    obtain ⟨tail, whole⟩ | ⟨tail, whole⟩ := same
    · exact (List.cons.inj whole).1
    · exact (List.cons.inj whole).1.symm
  exact plain (suffix.subset (mark ▸ List.mem_cons_self))

/-- A character at which no copy stands is kept. -/
lemma replaceAll_cons (other : ¬ old <+: c :: rest) :
    replaceAll old new (c :: rest) = c :: replaceAll old new rest := by
  rw [replaceAll, if_neg fun copy => other (List.isPrefixOf_iff_prefix.1 copy)]

/-- A copy at the front is replaced, and the search goes on after it. -/
lemma replaceAll_append_self (some : old ≠ []) :
    replaceAll old new (old ++ rest) = new ++ replaceAll old new rest := by
  obtain ⟨c, old, rfl⟩ := List.exists_cons_of_ne_nil some
  have copy : c :: old <+: c :: (old ++ rest) := List.prefix_append (c :: old) rest
  rw [List.cons_append, replaceAll, if_pos (List.isPrefixOf_iff_prefix.2 copy), List.length_cons,
    Nat.add_sub_cancel, List.drop_left]

/-- A text in which no copy begins is kept. -/
lemma replaceAll_append (clear : ¬ Begins old text) :
    replaceAll old new (text ++ rest) = text ++ replaceAll old new rest := by
  induction text with
  | nil => rfl
  | cons c text ih =>
    have other : ¬ old <+: c :: (text ++ rest) := fun copy => clear (.of_copy copy)
    rw [List.cons_append, replaceAll_cons other, ih fun begins => clear begins.cons,
      List.cons_append]

end Replacing

section Filling

variable {env : Environment} {done : List (List Char)} {n : List Char} {text : List Char}
  {ps : List Piece}

/-- A part with the references replaced that are done. -/
def Piece.shown (env : Environment) (done : List (List Char)) : Piece → List Char
  | plain c => [c]
  | reference name => if name ∈ done then env.text name else Settings.reference name

/-- A reference that is done shows its value. -/
lemma Piece.shown_done (mem : n ∈ done) : shown env done (.reference n) = env.text n := if_pos mem

/-- A reference that is not done shows itself. -/
lemma Piece.shown_not_done (new : n ∉ done) :
    shown env done (.reference n) = Settings.reference n := if_neg new

/-- A part with its reference replaced. -/
def Piece.filled (env : Environment) : Piece → List Char
  | plain c => [c]
  | reference name => env.text name

/-- The document with every reference replaced by its value, all at once. -/
def filled (env : Environment) (ps : List Piece) : String :=
  String.ofList (ps.flatMap (Piece.filled env))

/-- When a name has its turn and some are done, a copy of its reference begins only where the
document has one. -/
structure Clear (env : Environment) (done : List (List Char)) (n : List Char)
    (ps : List Piece) : Prop where
  /-- None begins within a reference that is not done. -/
  references : ∀ m ∈ names ps, m ∉ done → ¬ Begins (reference n) (reference m).tail
  /-- None begins in a value. -/
  values : ∀ m ∈ names ps, m ∈ done → ¬ Begins (reference n) (env.text m)
  /-- None begins at a dollar of the document that came to stand before a value. -/
  seams : ∀ m ∈ done, [.plain '$', .reference m] <:+: ps →
    ¬ Begins (reference n) ('$' :: env.text m)

/-- What is clear of copies is so without its first part. -/
lemma Clear.tail {p : Piece} (clear : Clear env done n (p :: ps)) : Clear env done n ps where
  references m mem := clear.references m (by cases p <;> simp [mem])
  values m mem := clear.values m (by cases p <;> simp [mem])
  seams m mem seam := clear.seams m mem (seam.trans (List.suffix_cons p ps).isInfix)

/-- Nothing goes wrong without dollars in names and values, and without values that are empty or
begin with a brace. -/
lemma Clear.of_plain (plain : ∀ m ∈ names ps, '$' ∉ m) (values : ∀ m ∈ names ps, '$' ∉ env.text m)
    (firsts : ∀ m ∈ names ps, ∃ c rest, env.text m = c :: rest ∧ c ≠ '{') :
    Clear env done n ps where
  references m mem _ := not_begins_of_not_mem (by simpa [reference] using plain m mem)
  values m mem _ := not_begins_of_not_mem (values m mem)
  seams m _ seam := by
    have mem : m ∈ names ps :=
      List.mem_flatMap.2 ⟨.reference m, seam.subset (by simp), List.mem_singleton_self m⟩
    obtain ⟨c, rest, first, other⟩ := firsts m mem
    have value := values m mem
    rw [first] at value ⊢
    rintro ⟨s, some, suffix, same⟩
    obtain rfl | suffix := List.suffix_cons_iff.1 suffix
    · obtain same | same := same
      · exact other (List.cons_prefix_cons.1 (List.cons_prefix_cons.1 same).2).1
      · exact other (List.cons_prefix_cons.1 (List.cons_prefix_cons.1 same).2).1.symm
    · exact not_begins_of_not_mem value ⟨s, some, suffix, same⟩

/-- A text without a closing brace shows all its parts as they are, whatever is done. -/
lemma Parted.flatMap_eq (parted : Parted text ps) (other : '}' ∉ text) :
    ps.flatMap (Piece.shown env done) = text := by
  induction parted with
  | nil => rfl
  | reference =>
    rw [reference_append] at other
    simp at other
  | plain _ _ ih =>
    rw [List.flatMap_cons, ih fun mem => other (List.mem_cons_of_mem _ mem)]
    rfl

/-- A name with a value is replaced everywhere before the next name has its turn. -/
lemma replaceReferences_cons {ns : List (List Char)}
    (known : (env.value? (String.ofList n)).isSome) :
    replaceReferences env (n :: ns) text =
      replaceReferences env ns (replaceAll (reference n) (env.text n) text) := by
  obtain ⟨value, found⟩ := Option.isSome_iff_exists.1 known
  rw [replaceReferences, Environment.text, found, Option.getD_some]

namespace Parted

/-- After a dollar and a brace that begin no reference, what is shown does not begin with a name and
its closing brace. -/
lemma not_prefix_of_brace (parted : Parted text ps)
    (none : ∀ name rest, IsName name → '$' :: '{' :: text ≠ Settings.reference name ++ rest)
    (isName : IsName n) : ¬ n ++ ['}'] <+: ps.flatMap (Piece.shown env done) := by
  intro copy
  -- The dollar and the brace begin no reference for want of a closing brace, or for want of a name
  -- before it.
  by_cases closed : '}' ∈ text
  case neg =>
    rw [parted.flatMap_eq closed] at copy
    exact closed (copy.subset (by simp))
  case pos =>
    obtain ⟨name, rest, rfl, first⟩ := List.eq_append_cons_of_mem closed
    cases name with
    | cons d name => exact none (d :: name) rest ⟨nofun, first⟩ reference_append.symm
    | nil =>
      obtain ⟨d, n, rfl⟩ := List.exists_cons_of_ne_nil isName.filled
      generalize whole : [] ++ '}' :: rest = text at parted
      cases parted with
      | nil => cases whole
      | reference =>
        rw [reference_append] at whole
        cases whole
      | plain =>
        cases whole
        obtain ⟨tail, same⟩ := copy
        obtain ⟨rfl, -⟩ := List.cons.inj same
        exact isName.closed List.mem_cons_self

/-- At a plain character no copy of a reference comes to begin. -/
lemma not_prefix_of_plain {c : Char} (parted : Parted text ps)
    (none : ∀ name rest, IsName name → c :: text ≠ Settings.reference name ++ rest)
    (isName : IsName n) (clear : Clear env done n (.plain c :: ps)) :
    ¬ Settings.reference n <+: c :: ps.flatMap (Piece.shown env done) := by
  intro copy
  -- It begins at a dollar, and what comes next is to show a brace.
  obtain ⟨rfl, brace⟩ := List.cons_prefix_cons.1 copy
  cases parted with
  | nil => cases List.prefix_nil.1 brace
  | @reference m _ ps _ parted =>
    rw [List.flatMap_cons] at copy brace
    by_cases mem : m ∈ done
    case pos =>
      rw [Piece.shown_done mem] at copy
      exact clear.seams m mem ⟨[], ps, rfl⟩ (.of_copy copy)
    case neg =>
      rw [Piece.shown_not_done mem, reference_append] at brace
      cases (List.cons_prefix_cons.1 brace).1
  | @plain d _ ps _ parted =>
    obtain ⟨rfl, rest⟩ := List.cons_prefix_cons.1 brace
    exact parted.not_prefix_of_brace none isName rest

/-- Replacing one name fills in its references and nothing else. -/
lemma replaceAll_shown (parted : Parted text ps) (isName : IsName n) (clear : Clear env done n ps) :
    replaceAll (Settings.reference n) (env.text n) (ps.flatMap (Piece.shown env done)) =
      ps.flatMap (Piece.shown env (done ++ [n])) := by
  -- No copy reaches from one part into the next, so the parts are replaced one by one.
  induction parted with
  | nil => exact replaceAll.eq_1 ..
  | plain none parted ih =>
    rw [List.flatMap_cons, List.flatMap_cons, ← ih clear.tail]
    exact replaceAll_cons (not_prefix_of_plain parted none isName clear)
  | @reference m rest ps isName' parted ih =>
    rw [List.flatMap_cons, List.flatMap_cons, ← ih clear.tail]
    have mem : m ∈ names (.reference m :: ps) := List.mem_cons_self
    by_cases old : m ∈ done
    case pos =>
      rw [Piece.shown_done old, Piece.shown_done (List.mem_append_left _ old),
        replaceAll_append (clear.values m mem old)]
    case neg =>
      rw [Piece.shown_not_done old]
      by_cases same : m = n
      case pos =>
        subst same
        have begun : Settings.reference m ≠ [] := List.cons_ne_nil _ _
        rw [Piece.shown_done List.mem_concat_self, replaceAll_append_self begun]
      case neg =>
        have new : m ∉ done ++ [n] := by simp [old, same]
        have first : ¬ Settings.reference n <+:
            Settings.reference m ++ ps.flatMap (Piece.shown env done) := by
          rintro ⟨tail, whole⟩
          exact same (eq_of_reference_append isName isName' whole).1.symm
        have inner := clear.references m mem old
        rw [Piece.shown_not_done new]
        exact (replaceAll_cons first).trans (congrArg _ (replaceAll_append inner))

/-- Names that have their turn one after another are filled in, each with nothing else replaced. -/
lemma replaceReferences_shown {ns : List (List Char)} (parted : Parted text ps)
    (sub : ns ⊆ names ps) (known : ∀ m ∈ ns, (env.value? (String.ofList m)).isSome)
    (clear : ∀ before m after, ns = before ++ m :: after → Clear env (done ++ before) m ps) :
    replaceReferences env ns (ps.flatMap (Piece.shown env done)) =
      .ok (ps.flatMap (Piece.shown env (done ++ ns))) := by
  induction ns generalizing done with
  | nil => rw [replaceReferences, List.append_nil]
  | cons m ns ih =>
    obtain ⟨referred, sub⟩ := List.cons_subset.1 sub
    obtain ⟨here, known⟩ := List.forall_mem_cons.1 known
    have first := clear [] m ns rfl
    rw [List.append_nil] at first
    have filled := parted.replaceAll_shown (parted.isName_of_mem referred) first
    rw [replaceReferences_cons here, filled, ih sub known, List.append_assoc, List.singleton_append]
    rintro before m' after rfl
    rw [List.append_assoc, List.singleton_append]
    exact clear (m :: before) m' after rfl

/-- With nothing done the parts show the document. -/
lemma flatMap_shown_nil (parted : Parted text ps) : ps.flatMap (Piece.shown env []) = text := by
  induction parted with
  | nil => rfl
  | reference _ _ ih => rw [List.flatMap_cons, ih, Piece.shown_not_done List.not_mem_nil]
  | plain _ _ ih =>
    rw [List.flatMap_cons, ih]
    rfl

end Parted

/-- With every name done the parts show the document filled in. -/
lemma flatMap_shown_names :
    ps.flatMap (Piece.shown env (names ps)) = ps.flatMap (Piece.filled env) := by
  refine congrArg List.flatten (List.map_congr_left fun p mem => ?_)
  cases p with
  | plain => rfl
  | reference n => exact Piece.shown_done (List.mem_flatMap.2 ⟨_, mem, List.mem_singleton_self n⟩)

/-- The first name without a value is the one that is reported. -/
lemma replaceReferences_error {before after : List (List Char)}
    (known : ∀ m ∈ before, (env.value? (String.ofList m)).isSome)
    (missing : env.value? (String.ofList n) = none) :
    replaceReferences env (before ++ n :: after) text =
      .error (.variableNotFound (String.ofList n)) := by
  induction before generalizing text with
  | nil => rw [List.nil_append, replaceReferences, missing]
  | cons m before ih =>
    obtain ⟨here, known⟩ := List.forall_mem_cons.1 known
    rw [List.cons_append, replaceReferences_cons here, ih known]

/-- If every name has a value, replacing them comes to a text. -/
lemma exists_replaceReferences {ns : List (List Char)}
    (known : ∀ m ∈ ns, (env.value? (String.ofList m)).isSome) :
    ∃ out, replaceReferences env ns text = .ok out := by
  induction ns generalizing text with
  | nil => exact ⟨text, rfl⟩
  | cons m ns ih =>
    obtain ⟨here, known⟩ := List.forall_mem_cons.1 known
    rw [replaceReferences_cons here]
    exact ih known

end Filling

/-- **A document is filled in.** Every document has one reading. If a variable it refers to has no
value, the first of these is the error. Otherwise there is a result, and it is the document with
every reference replaced by its value at once if each name finds, when it has its turn, copies of
its reference only where the document has them. -/
theorem substitute_fills (env : Environment) (document : String) :
    ∃ ps, (∀ ps', Parted document.toList ps' ↔ ps' = ps) ∧
      (∀ before n after, names ps = before ++ n :: after →
        (∀ m ∈ before, (env.value? (String.ofList m)).isSome) →
          env.value? (String.ofList n) = none →
          substitute env document = .error (.variableNotFound (String.ofList n))) ∧
      ((∀ n ∈ names ps, (env.value? (String.ofList n)).isSome) →
        (∃ out, substitute env document = .ok out) ∧
          ((∀ before n after, names ps = before ++ n :: after → Clear env before n ps) →
            substitute env document = .ok (filled env ps))) := by
  obtain ⟨ps, parted⟩ := Parted.exists_of_text document.toList
  have found : substitute env document =
      (replaceReferences env (names ps) document.toList).map String.ofList := by
    rw [substitute, parted.references_eq]
  refine ⟨ps, fun ps' => ⟨parted.unique, fun same => same ▸ parted⟩, ?_,
    fun known => ⟨?_, fun clear => ?_⟩⟩
  · intro before n after split known missing
    rw [found, split, replaceReferences_error known missing]
    rfl
  · obtain ⟨out, replaced⟩ := exists_replaceReferences known
    rw [found, replaced]
    exact ⟨_, rfl⟩
  · have replaced : replaceReferences env (names ps) (ps.flatMap (Piece.shown env [])) = _ :=
      parted.replaceReferences_shown (List.Subset.refl _) known clear
    rw [parted.flatMap_shown_nil, List.nil_append, flatMap_shown_names] at replaced
    rw [found, replaced]
    rfl

/-- A document with a dollar before a reference. -/
def priced : List Piece := [.plain '$', .reference ['A'], .plain ' ', .reference ['B']]

/-- A document whose dollar stands before a reference is filled in at once. -/
theorem substitute_fills_priced :
    substitute ⟨[("A", "5"), ("B", "key")]⟩
      (String.ofList ('$' :: (reference ['A'] ++ ' ' :: reference ['B']))) = .ok "$5 key" := by
  have last : Parted (reference ['B']) [.reference ['B']] :=
    @Parted.reference ['B'] [] [] ⟨nofun, by decide⟩ .nil
  have parted : Parted ('$' :: (reference ['A'] ++ ' ' :: reference ['B'])) priced := by
    refine .plain ?_ (.reference ⟨nofun, by decide⟩ (last.cons_of_ne (by decide)))
    intro name rest _ same
    rw [reference_append] at same
    cases same
  have first :
      Environment.value? ⟨[("A", "5"), ("B", "key")]⟩ (String.ofList ['A']) = some "5" := by
    simp [Environment.value?]
  have second : Environment.value? ⟨[("A", "5"), ("B", "key")]⟩ (String.ofList ['B']) =
      some "key" := by
    simp [Environment.value?, List.lookup_cons]
  obtain ⟨ps, reading, -, results⟩ := substitute_fills ⟨[("A", "5"), ("B", "key")]⟩
    (String.ofList ('$' :: (reference ['A'] ++ ' ' :: reference ['B'])))
  rw [String.toList_ofList] at reading
  obtain rfl := (reading priced).1 parted
  obtain ⟨-, whole⟩ := results (by simp [priced, first, second])
  rw [whole fun _ _ _ _ => .of_plain (by decide) ?values ?firsts]
  case values => simp [priced, Environment.text, first, second]
  case firsts => simp [priced, Environment.text, first, second]
  simp [filled, priced, Piece.filled, Environment.text, first, second]

/-- A value that refers to another variable is filled in too. -/
theorem not_filled_at_once :
    ¬ ∀ (env : Environment) (document : String) (ps : List Piece), Parted document.toList ps →
      (∀ n ∈ names ps, (env.value? (String.ofList n)).isSome) →
        substitute env document = .ok (filled env ps) := by
  intro all
  have last : Parted (reference ['B']) [.reference ['B']] :=
    @Parted.reference ['B'] [] [] ⟨nofun, by decide⟩ .nil
  have parted : Parted (reference ['A'] ++ ' ' :: reference ['B'])
      [.reference ['A'], .plain ' ', .reference ['B']] :=
    .reference ⟨nofun, by decide⟩ (last.cons_of_ne (by decide))
  let env : Environment := ⟨[("A", String.ofList (reference ['B'])), ("B", "x")]⟩
  have first : env.value? (String.ofList ['A']) = some (String.ofList (reference ['B'])) := by
    simp [env, Environment.value?]
  have second : env.value? (String.ofList ['B']) = some "x" := by
    simp [env, Environment.value?, List.lookup_cons]
  have once := all env (String.ofList (reference ['A'] ++ ' ' :: reference ['B'])) _
    (by rw [String.toList_ofList]; exact parted) (by simp [first, second])
  have replaced :
      substitute env (String.ofList (reference ['A'] ++ ' ' :: reference ['B'])) = .ok "x x" := by
    rw [substitute, String.toList_ofList, parted.references_eq]
    simp [replaceReferences, first, second, replaceAll, reference, Except.map]
  have whole : filled env [.reference ['A'], .plain ' ', .reference ['B']] =
      String.ofList (reference ['B'] ++ " x".toList) := by
    simp [filled, Piece.filled, Environment.text, first, second]
  rw [replaced, whole] at once
  exact absurd (Except.ok.inj once) (by decide)

end Settings

end Payout
