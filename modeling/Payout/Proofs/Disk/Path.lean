import Mathlib.Tactic.Lemma
import Payout.Disk.Path

/-!
# Paths side by side

Replacing the extension of a path changes the last component and no other (`beside_withExtension`),
and the directory that a path lies in has all its components but the last (`parts_parent`), unless
the path can only be a directory.
-/

namespace Payout.Path

section Pieces

variable {before after name path : List Char}

/-- Every text has a piece, if only an empty one. -/
lemma pieces_ne_nil (path : List Char) : pieces path ≠ [] := by
  cases path with
  | nil => simp [pieces]
  | cons c path =>
    rw [pieces]
    split
    case isTrue => simp
    case isFalse => split <;> simp

/-- A slash ends one piece and starts the next. -/
lemma pieces_append (before after : List Char) :
    pieces (before ++ '/' :: after) = pieces before ++ pieces after := by
  induction before with
  | nil => rfl
  | cons c before ih =>
    rw [List.cons_append, pieces, pieces, ih]
    split
    case isTrue => rfl
    case isFalse =>
      obtain ⟨piece, more, cons⟩ := List.exists_cons_of_ne_nil (pieces_ne_nil before)
      rw [cons]
      rfl

/-- A text without a slash is a single piece. -/
lemma pieces_of_not_mem (h : '/' ∉ name) : pieces name = [name] := by
  induction name with
  | nil => rfl
  | cons c name ih =>
    have other : c ≠ '/' := by
      rintro rfl
      exact h List.mem_cons_self
    rw [pieces, if_neg other, ih fun slash => h (List.mem_cons_of_mem _ slash)]

/-- What a path is split into: its name has no slash, and what lies before that is nothing or ends
in one. -/
lemma exists_split (path : List Char) :
    ∃ before name, split path = (before, name) ∧ path = before ++ name ∧ '/' ∉ name ∧
      (before = [] ∨ ∃ directory, before = directory ++ ['/']) := by
  let name := (path.reverse.takeWhile (· ≠ '/')).reverse
  let before := (path.reverse.dropWhile (· ≠ '/')).reverse
  have whole : path = before ++ name := by
    rw [← List.reverse_append, List.takeWhile_append_dropWhile, List.reverse_reverse]
  have taken : path.take (path.length - name.length) = before := by
    have length : path.length - name.length = before.length := by
      rw [whole, List.length_append]
      omega
    rw [length, whole]
    exact List.take_left
  refine ⟨before, name, Prod.ext taken rfl, whole, ?_, ?_⟩
  · intro slash
    have kept := List.all_eq_true.1 List.all_takeWhile '/' (List.mem_reverse.1 slash)
    simp at kept
  · have first := List.head?_dropWhile_not (· ≠ '/') path.reverse
    cases rest : path.reverse.dropWhile (· ≠ '/') with
    | nil =>
      have none : before = [].reverse := congrArg List.reverse rest
      exact .inl none
    | cons c rest' =>
      rw [rest] at first
      have slash : c = '/' := by simpa using first
      have ends : before = (c :: rest').reverse := congrArg List.reverse rest
      rw [slash, List.reverse_cons] at ends
      exact .inr ⟨rest'.reverse, ends⟩

end Pieces

section Names

variable {path : String} {before name : List Char}

/-- A path that need not be a directory has nothing at its end that does not count. -/
lemma trimmed_of_not_directory (h : (parts path).directory = false) :
    trimmed path = path.toList := by
  have last : path.toList ≠ [] →
      (pieces path.toList).getLast? ∉ [some [], some ['.'], some ['.', '.']] := by
    simpa [parts] using h
  have shape : path.toList = path.toList.reverse.reverse := (List.reverse_reverse _).symm
  unfold trimmed
  rw [dropTrailing.eq_def]
  split
  case h_1 rest ends =>
    rw [shape, ends] at last
    simp [pieces_append, pieces] at last
  case h_2 rest ends =>
    rw [shape, ends] at last
    simp [pieces_append, pieces] at last
  case h_3 => exact shape.symm

/-- The path of a name after the same beginning. -/
lemma exists_parts (shape : before = [] ∨ ∃ directory, before = directory ++ ['/']) :
    ∃ absolute init, ∀ name, '/' ∉ name → name ≠ [] → name ≠ ['.'] →
      (parts (String.ofList (before ++ name))).absolute = absolute ∧
        (parts (String.ofList (before ++ name))).components = init ++ [String.ofList name] := by
  rcases shape with rfl | ⟨directory, rfl⟩
  · refine ⟨false, [], fun name noSlash notEmpty notDot => ⟨?_, ?_⟩⟩
    · obtain ⟨c, more, rfl⟩ := List.exists_cons_of_ne_nil notEmpty
      have other : c ≠ '/' := by
        rintro rfl
        exact noSlash List.mem_cons_self
      simp [parts, other]
    · simp [parts, pieces_of_not_mem noSlash, notEmpty, notDot]
  · refine ⟨(directory ++ ['/']).head? = some '/', ((pieces directory).filter
      fun c => c ≠ [] ∧ c ≠ ['.']).map String.ofList, fun name noSlash notEmpty notDot => ⟨?_, ?_⟩⟩
    · cases directory <;> simp [parts]
    · simp [parts, pieces_append, pieces_of_not_mem noSlash, notEmpty, notDot]

/-- The stem of a name has no characters but those of the name. -/
lemma stem_subset (name : List Char) : ∀ c ∈ stem name, c ∈ name := by
  intro c h
  unfold stem at h
  split at h
  case h_1 dot rest cut =>
    split at h
    case isTrue => exact h
    case isFalse =>
      have part : rest <:+ name.reverse :=
        ((List.suffix_cons _ _).trans (cut ▸ List.dropWhile_suffix _))
      exact List.mem_reverse.1 (part.subset (List.mem_reverse.1 h))
  case h_2 => exact h

/-- The stem of a name is not empty unless the name is. -/
lemma stem_ne_nil (notEmpty : name ≠ []) : stem name ≠ [] := by
  unfold stem
  split
  case h_1 dot rest cut =>
    split
    case isTrue => exact notEmpty
    case isFalse some => simpa using some
  case h_2 => exact notEmpty

/-- Two paths differ in their last component, and in no other. -/
def Beside (path path' : String) : Prop :=
  ∃ init name name', (parts path).components = init ++ [name] ∧
    (parts path').components = init ++ [name'] ∧ (parts path').absolute = (parts path).absolute ∧
    name ≠ name' ∧ name ≠ ".." ∧ name' ≠ ".."

/-- A path with another extension lies beside the path. -/
lemma beside_withExtension {extension : String} (noSlash : '/' ∉ extension.toList)
    (some : extension ≠ "") (file : (parts path).directory = false)
    (other : withExtension extension path ≠ path) : Beside path (withExtension extension path) := by
  obtain ⟨before, name, parted, whole, plain, shape⟩ := exists_split path.toList
  have named : fileName? path = Option.some name ∧ name ≠ [] ∧ name ≠ ['.'] ∧
      name ≠ ['.', '.'] := by
    unfold fileName?
    simp only [trimmed_of_not_directory file, parted]
    split
    case isTrue unnamed =>
      refine absurd ?_ other
      unfold withExtension fileName?
      simp only [trimmed_of_not_directory file, parted, if_pos unnamed]
    case isFalse proper =>
      simp only [not_or] at proper
      exact ⟨rfl, proper⟩
  obtain ⟨named, notEmpty, notDot, notDots⟩ := named
  let name' := stem name ++ '.' :: extension.toList
  have beside : withExtension extension path = String.ofList (before ++ name') := by
    unfold withExtension
    rw [named]
    simp only [trimmed_of_not_directory file, parted, name', List.append_assoc]
  -- With the extension the name is too long to be one of the two that are made of dots.
  have long : 2 < name'.length := by
    have stem := List.length_pos_iff.2 (stem_ne_nil notEmpty)
    have extended : 0 < extension.toList.length := by
      apply List.length_pos_iff.2
      simpa using some
    simp only [name', List.length_append, List.length_cons]
    omega
  have plain' : '/' ∉ name' := by
    intro slash
    rcases List.mem_append.1 slash with inStem | inExtension
    · exact plain (stem_subset name _ inStem)
    · rcases List.mem_cons.1 inExtension with dot | inExtension
      · cases dot
      · exact noSlash inExtension
  have written : path = String.ofList (before ++ name) := by
    rw [← whole, String.ofList_toList]
  obtain ⟨absolute, init, all⟩ := exists_parts shape
  have first := all name plain notEmpty notDot
  have second := all name' plain' (by rintro empty; simp [empty] at long)
    (by rintro empty; simp [empty] at long)
  refine ⟨init, String.ofList name, String.ofList name', ?_, ?_, ?_, ?_, ?_, ?_⟩
  · rw [written]
    exact first.2
  · rw [beside]
    exact second.2
  · rw [beside, written, first.1]
    exact second.1
  · intro same
    apply other
    rw [beside, ← String.ofList_injective same, ← written]
  · intro dots
    exact notDots (String.ofList_injective (dots.trans rfl))
  · intro dots
    have list : name' = ['.', '.'] := String.ofList_injective (dots.trans rfl)
    rw [list] at long
    exact absurd long (by decide)

end Names

section Parents

variable {path parent : String} {text before : List Char}

/-- The pieces of a text that count as components. -/
def counted (text : List Char) : List (List Char) :=
  (pieces text).filter fun c => c ≠ [] ∧ c ≠ ['.']

/-- What is dropped from the end of a path has no component. -/
lemma counted_dropTrailing : counted (dropTrailing text).reverse = counted text.reverse := by
  unfold counted
  induction text using dropTrailing.induct with
  | case1 rest none =>
    obtain rfl := List.isEmpty_iff.1 none
    rfl
  | case2 rest some ih =>
    rw [dropTrailing, if_neg some, ih, List.reverse_cons, pieces_append]
    simp [pieces]
  | case3 rest none =>
    obtain rfl := List.isEmpty_iff.1 none
    rfl
  | case4 rest some ih =>
    rw [dropTrailing, if_neg some, ih, List.reverse_cons, List.reverse_cons, List.append_assoc,
      List.singleton_append, pieces_append]
    simp [pieces]
  | case5 text slash dot =>
    rw [dropTrailing.eq_3 text slash dot]

/-- Dropping what trails leaves an end of the reversed text. -/
lemma dropTrailing_suffix : dropTrailing text <:+ text := by
  induction text using dropTrailing.induct with
  | case1 rest none =>
    obtain rfl := List.isEmpty_iff.1 none
    exact List.suffix_rfl
  | case2 rest some ih =>
    rw [dropTrailing, if_neg some]
    exact ih.trans (List.suffix_cons _ _)
  | case3 rest none =>
    obtain rfl := List.isEmpty_iff.1 none
    exact List.suffix_cons _ _
  | case4 rest some ih =>
    rw [dropTrailing, if_neg some]
    exact ih.trans ((List.suffix_cons _ _).trans (List.suffix_cons _ _))
  | case5 text slash dot =>
    simp only [dropTrailing.eq_3 text slash dot, List.suffix_rfl]

/-- The directory of a path, if it is not the one where relative paths start, has all components but
the last. -/
lemma parts_parent (file : (parts path).directory = false) (above : parent? path = some parent)
    (some : parent ≠ "") :
    parent.toList <+: path.toList ∧ (parts parent).absolute = (parts path).absolute ∧
      ∃ name, name ≠ ".." ∧ (parts path).components = (parts parent).components ++ [name] := by
  obtain ⟨before, name, parted, whole, plain, shape⟩ := exists_split path.toList
  have text : parent.toList = (dropTrailing before.reverse).reverse := by
    unfold parent? at above
    simp only [trimmed_of_not_directory file, parted] at above
    split at above
    case isTrue => cases above
    case isFalse =>
      cases above
      rw [String.toList_ofList]
  obtain rfl | ⟨directory, rfl⟩ := shape
  case inl => exact absurd (String.toList_eq_nil_iff.1 text) some
  case inr =>
    rw [List.append_assoc, List.singleton_append] at whole
    have start : parent.toList <+: path.toList := by
      have kept : (dropTrailing (directory ++ ['/']).reverse).reverse <+: _ :=
        List.reverse_prefix.2 dropTrailing_suffix
      rw [← text, List.reverse_reverse] at kept
      rw [whole, ← List.singleton_append, ← List.append_assoc]
      exact kept.trans (List.prefix_append _ _)
    -- Only slashes and single dots are dropped at the end, and neither counts as a part.
    have inner : counted parent.toList = counted directory := by
      rw [text, counted_dropTrailing, List.reverse_reverse, counted, pieces_append,
        List.filter_append]
      simp [counted, pieces]
    have pieces : pieces path.toList = pieces directory ++ [name] := by
      rw [whole, pieces_append, pieces_of_not_mem plain]
    have named : name ≠ [] ∧ name ≠ ['.'] ∧ name ≠ ['.', '.'] := by
      have filled : path.toList ≠ [] := by simp [whole]
      simpa [parts, pieces, filled] using file
    refine ⟨start, ?_, String.ofList name, ?_, ?_⟩
    · obtain ⟨rest, whole⟩ := start
      obtain ⟨c, text, filled⟩ :=
        List.exists_cons_of_ne_nil fun empty => some (String.toList_eq_nil_iff.1 empty)
      simp [parts, ← whole, filled]
    · exact fun dots => named.2.2 (String.ofList_injective (dots.trans rfl))
    · have last : counted path.toList = counted directory ++ [name] := by
        rw [counted, pieces, List.filter_append]
        simp [counted, named]
      have components : (parts path).components = (counted path.toList).map String.ofList := rfl
      rw [components, last, ← inner, List.map_append]
      rfl

end Parents

end Payout.Path
