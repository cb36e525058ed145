import Payout.Disk.Service
import Payout.Proofs.Disk.Path

/-!
# What steps on a disk leave as it is

A file is read as long as the directories on its way and its own entry are there. So making
directories hides no file (`grown_makeDirectories`, `read_mono`), writing a file changes nothing
beside it (`content?_write`), and a file that is renamed is read under its new name (`read_rename`).
-/

namespace Payout.Disk

section Entries

variable {d d' : Disk} {place other : List String} {e : DiskEntry}

/-- Leaving out one place changes no look-up of another. -/
lemma lookup_filter_of_ne {entries : List (List String × DiskEntry)} (differ : other ≠ place) :
    (entries.filter (·.1 ≠ place)).lookup other = entries.lookup other := by
  induction entries with
  | nil => rfl
  | cons entry entries ih =>
    obtain ⟨k, v⟩ := entry
    by_cases gone : k = place
    · have dropped : ((k, v) :: entries).filter (·.1 ≠ place) = entries.filter (·.1 ≠ place) := by
        simp [gone]
      have hidden : (other == k) = false := by simpa [gone] using differ
      rw [dropped, ih, List.lookup_cons, hidden]
    · have kept : ((k, v) :: entries).filter (·.1 ≠ place) =
          (k, v) :: entries.filter (·.1 ≠ place) := by
        simp [gone]
      rw [kept, List.lookup_cons, List.lookup_cons, ih]

/-- What was put at a place is found there. -/
lemma entry?_put_self (notRoot : place ≠ []) : entry? (d.put place e) place = some e := by
  unfold entry?
  rw [if_neg notRoot]
  exact List.lookup_cons_self

/-- What is put at one place changes no other. -/
lemma entry?_put_of_ne (differ : other ≠ place) :
    entry? (d.put place e) other = d.entry? other := by
  have hidden : (other == place) = false := by simpa using differ
  unfold entry? put
  rw [List.lookup_cons, hidden]
  simp only [lookup_filter_of_ne differ]

/-- What is removed from one place leaves the others. -/
lemma entry?_remove_of_ne (differ : other ≠ place) :
    entry? (d.remove place) other = d.entry? other := by
  unfold entry? remove
  rw [lookup_filter_of_ne differ]

/-- A place that holds no directory is not the root. -/
lemma ne_nil_of_not_directory (h : d.entry? place ≠ some .directory) : place ≠ [] := by
  rintro rfl
  exact h rfl

end Entries

/-- Directories were made, and nothing else was done. -/
def Grown (d d' : Disk) : Prop :=
  ∀ place, d'.entry? place = d.entry? place ∨ d.entry? place = none ∧
    d'.entry? place = some .directory

namespace Grown

variable {d d' d'' : Disk} {place : List String} {e : DiskEntry}

/-- A disk that is left alone has grown by nothing. -/
lemma refl : Grown d d := fun _ => .inl rfl

/-- What was there is still there. -/
lemma entry (grown : Grown d d') (there : d.entry? place = some e) : d'.entry? place = some e := by
  obtain same | ⟨absent, -⟩ := grown place
  · rw [same, there]
  · rw [absent] at there
    cases there

/-- A file was there before. -/
lemma file {content : Bytes} (grown : Grown d d') (there : d'.entry? place = some (.file content)) :
    d.entry? place = some (.file content) := by
  obtain same | ⟨-, made⟩ := grown place
  · rw [← same, there]
  · rw [made] at there
    cases there

/-- Growing can be done in turns. -/
lemma trans (first : Grown d d') (second : Grown d' d'') : Grown d d'' := by
  intro place
  obtain same | ⟨absent, made⟩ := first place
  · rw [← same]
    exact second place
  · exact .inr ⟨absent, second.entry made⟩

end Grown

section Walks

variable {d d' : Disk} {place target : List String} {c : String}

/-- Where a component leads from a place. -/
def descend (place : List String) (c : String) : List String :=
  if c = ".." then place.dropLast else place ++ [c]

/-- Any component but the one that goes up leads down. -/
lemma descend_of_ne (down : c ≠ "..") : descend place c = place ++ [c] := if_neg down

/-- A way down takes one component at a time, and goes on from directories only. -/
lemma walk_cons {rest} : d.walk place (c :: rest) = .ok target ↔
    c.utf8ByteSize ≤ 255 ∧ (rest ≠ [] → d.entry? (descend place c) = some .directory) ∧
      d.walk (descend place c) rest = .ok target := by
  have into : (if c = ".." then place.dropLast else place ++ [c]) = descend place c := rfl
  rw [walk]
  simp only [into]
  split
  case isTrue long => exact ⟨nofun, fun h => absurd long (Nat.not_lt.2 h.1)⟩
  case isFalse short =>
    have short : c.utf8ByteSize ≤ 255 := Nat.le_of_not_lt short
    split
    case isTrue last =>
      cases List.isEmpty_iff.1 last
      exact ⟨fun h => ⟨short, absurd rfl, h⟩, fun h => h.2.2⟩
    case isFalse more =>
      have more : rest ≠ [] := fun last => more (List.isEmpty_iff.2 last)
      split
      case h_1 there => exact ⟨nofun, fun h => nomatch there.symm.trans (h.2.1 more)⟩
      case h_2 there => exact ⟨nofun, fun h => nomatch there.symm.trans (h.2.1 more)⟩
      case h_3 there => exact ⟨fun h => ⟨short, fun _ => there, h⟩, fun h => h.2.2⟩

/-- A way down stays where every directory does. -/
lemma walk_mono
    (dirs : ∀ place, d.entry? place = some .directory → d'.entry? place = some .directory)
    {components} (h : d.walk place components = .ok target) :
    d'.walk place components = .ok target := by
  induction components generalizing place with
  | nil => exact h
  | cons c rest ih =>
    obtain ⟨short, directory, way⟩ := walk_cons.1 h
    exact walk_cons.2 ⟨short, fun more => dirs _ (directory more), ih way⟩

/-- A walk of one component down ends in the entry of its name. -/
lemma walk_last (down : c ≠ "..") (h : d.walk place [c] = .ok target) : target = place ++ [c] := by
  obtain ⟨-, -, way⟩ := walk_cons.1 h
  cases way
  exact descend_of_ne down

/-- Two ways that part at their last component end side by side. -/
lemma walk_beside {init c' target'} (down : c ≠ "..") (down' : c' ≠ "..")
    (h : d.walk place (init ++ [c]) = .ok target) (h' : d.walk place (init ++ [c']) = .ok target') :
    ∃ directory, target = directory ++ [c] ∧ target' = directory ++ [c'] := by
  induction init generalizing place with
  | nil => exact ⟨place, walk_last down h, walk_last down' h'⟩
  | cons b init ih =>
    obtain ⟨-, -, way⟩ := walk_cons.1 h
    obtain ⟨-, -, way'⟩ := walk_cons.1 h'
    exact ih way way'

end Walks

section Paths

variable {d d' : Disk} {path : String} {place : List String}

/-- A path is located where the walk over its components ends, if it can be a path at all. -/
lemma locate_eq_ok :
    d.locate path = .ok place ↔ ¬ path.isEmpty = true ∧ '\x00' ∉ path.toList ∧
      d.walk (if (Path.parts path).absolute then [] else home) (Path.parts path).components =
        .ok place := by
  unfold locate
  split
  case isTrue empty => simp [empty]
  case isFalse some =>
    split
    case isTrue invalid => simp [invalid]
    case isFalse valid => simp [some, valid]

/-- A path that was located is located at the same place while all directories stay. -/
lemma locate_mono
    (dirs : ∀ place, d.entry? place = some .directory → d'.entry? place = some .directory)
    (h : d.locate path = .ok place) : d'.locate path = .ok place := by
  obtain ⟨some, valid, way⟩ := locate_eq_ok.1 h
  exact locate_eq_ok.2 ⟨some, valid, walk_mono dirs way⟩

/-- What a path leads to; a file only if the path may be one. -/
lemma find_eq_ok {e : Option DiskEntry} :
    d.find path = .ok (place, e) ↔ d.locate path = .ok place ∧ d.entry? place = e ∧
      ∀ content, e = some (.file content) → (Path.parts path).directory = false := by
  unfold find
  cases located : d.locate path with
  | error reason =>
    constructor
    · intro h
      cases h
    · rintro ⟨h, -⟩
      cases h
  | ok p =>
    simp only [bind, Except.bind]
    split
    case h_1 content found =>
      split
      case isTrue flag =>
        constructor
        · intro h
          cases h
        · rintro ⟨⟨⟩, rfl, all⟩
          rw [all content found] at flag
          cases flag
      case isFalse flag =>
        have flag : (Path.parts path).directory = false := by simpa using flag
        constructor
        · rintro ⟨⟩
          exact ⟨rfl, found, fun _ _ => flag⟩
        · rintro ⟨⟨⟩, rfl, -⟩
          rw [found]
          rfl
    case h_2 other =>
      constructor
      · rintro ⟨⟩
        exact ⟨rfl, rfl, fun content file => absurd file (other content)⟩
      · rintro ⟨⟨⟩, rfl, -⟩
        rfl

/-- A file is read where its path leads to it. -/
lemma read_eq_ok {content : Bytes} :
    d.read path = .ok content ↔ ∃ place, d.locate path = .ok place ∧
      d.entry? place = some (.file content) ∧ (Path.parts path).directory = false := by
  unfold read
  constructor
  · intro h
    cases found : d.find path with
    | error reason =>
      rw [found] at h
      cases h
    | ok result =>
      obtain ⟨place, e⟩ := result
      obtain ⟨located, entry, plain⟩ := find_eq_ok.1 found
      rw [found] at h
      rcases e with _ | c | _ <;> cases h
      exact ⟨place, located, entry, plain _ rfl⟩
  · rintro ⟨place, located, entry, plain⟩
    rw [find_eq_ok.2 ⟨located, entry, fun _ _ => plain⟩]
    rfl

end Paths

section Steps

variable {d d' : Disk} {path : String} {content written : Bytes}

/-- What can be read at a path. -/
def content? (d : Disk) (path : String) : Option Bytes := (d.read path).toOption

/-- The content of a path is what reading it gives. -/
lemma content?_eq_some : d.content? path = some content ↔ d.read path = .ok content := by
  unfold content?
  cases d.read path <;> simp [Except.toOption]

/-- Where reading gives the same, the content is the same. -/
lemma content?_congr (same : ∀ content, d'.read path = .ok content ↔ d.read path = .ok content) :
    d'.content? path = d.content? path :=
  Option.ext fun content => content?_eq_some.trans ((same content).trans content?_eq_some.symm)

/-- A file stays readable where all entries stay. -/
lemma read_mono (entries : ∀ place e, d.entry? place = some e → d'.entry? place = some e)
    (h : d.read path = .ok content) : d'.read path = .ok content := by
  obtain ⟨place, located, entry, plain⟩ := read_eq_ok.1 h
  exact read_eq_ok.2
    ⟨place, locate_mono (fun _ => entries _ _) located, entries _ _ entry, plain⟩

/-- Making one directory only makes the disk grow. -/
lemma grown_makeDirectory (h : d.makeDirectory path = .ok d') : Grown d d' := by
  unfold makeDirectory at h
  cases found : d.find path with
  | error reason =>
    rw [found] at h
    cases h
  | ok result =>
    obtain ⟨place, old⟩ := result
    rw [found] at h
    rcases old with _ | old
    · obtain ⟨-, absent, -⟩ := find_eq_ok.1 found
      cases h
      have free : d.entry? place ≠ some .directory := by simp [absent]
      intro other
      by_cases same : other = place
      case pos =>
        subst same
        exact .inr ⟨absent, entry?_put_self (ne_nil_of_not_directory free)⟩
      case neg => exact .inl (entry?_put_of_ne same)
    · cases h

/-- Making sure of a directory only makes the disk grow. -/
lemma grown_ensureDirectory : Grown d (d.ensureDirectory path).2 := by
  unfold ensureDirectory
  split
  case h_1 d' made => exact grown_makeDirectory made
  case h_2 => exact .refl

/-- Making directories makes directories, even when it fails halfway. -/
lemma grown_makeDirectories {fuel} : Grown d (makeDirectories fuel d path).2 := by
  induction fuel generalizing d path with
  | zero => exact .refl
  | succ fuel ih =>
    unfold makeDirectories
    split
    case isTrue => exact .refl
    case isFalse =>
      have first : Grown d (d.ensureDirectory path).2 := grown_ensureDirectory
      split
      case h_1 d' ensured =>
        rw [ensured] at first
        split
        case h_1 => exact first
        case h_2 parent _ =>
          have above : Grown d' (makeDirectories fuel d' parent).2 := ih
          split
          case h_1 made =>
            rw [made] at above
            exact (first.trans above).trans grown_ensureDirectory
          case h_2 made =>
            rw [made] at above
            exact first.trans above
      case h_2 => exact first

/-- A write puts a file where its path leads to none or to a file. -/
lemma write_eq_ok (h : d.write path content = .ok d') :
    ∃ place, d.locate path = .ok place ∧ d.entry? place ≠ some .directory ∧
      (Path.parts path).directory = false ∧ d' = d.put place (.file content) := by
  unfold write at h
  cases found : d.find path with
  | error reason =>
    rw [found] at h
    cases h
  | ok result =>
    obtain ⟨place, e⟩ := result
    obtain ⟨located, entry, plain⟩ := find_eq_ok.1 found
    rw [found] at h
    rcases e with _ | c | _
    · cases flag : (Path.parts path).directory with
      | true =>
        simp only [bind, Except.bind, flag] at h
        cases h
      | false =>
        simp only [bind, Except.bind, flag] at h
        cases h
        exact ⟨place, located, by simp [entry], rfl, rfl⟩
    · cases h
      exact ⟨place, located, by simp [entry], plain _ rfl, rfl⟩
    · cases h

/-- A file that can be read can be written. -/
lemma exists_write (read : d.read path = .ok content) : ∃ d', d.write path written = .ok d' := by
  obtain ⟨place, located, entry, plain⟩ := read_eq_ok.1 read
  have found : d.find path = .ok (place, some (.file content)) :=
    find_eq_ok.2 ⟨located, entry, fun _ _ => plain⟩
  unfold write
  rw [found]
  exact ⟨_, rfl⟩

/-- A rename takes a file from its place to another, if the target may be one. -/
lemma rename_eq_ok {source target : String} (h : d.rename source target = .ok d') :
    ∃ origin place content, d.locate source = .ok origin ∧
      d.entry? origin = some (.file content) ∧ d.locate target = .ok place ∧
      d.entry? place ≠ some .directory ∧ (Path.parts target).directory = false ∧
      d' = if place = origin then d else (d.remove origin).put place (.file content) := by
  unfold rename at h
  cases found : d.find source with
  | error reason =>
    rw [found] at h
    cases h
  | ok result =>
    obtain ⟨origin, e⟩ := result
    obtain ⟨located, entry, -⟩ := find_eq_ok.1 found
    rw [found] at h
    rcases e with _ | content | _
    · cases h
    · cases aimed : d.find target with
      | error reason =>
        simp only [bind, Except.bind, aimed] at h
        cases h
      | ok result =>
        obtain ⟨place, old⟩ := result
        obtain ⟨located', there, -⟩ := find_eq_ok.1 aimed
        refine ⟨origin, place, content, located, entry, located', ?_⟩
        rw [there]
        simp only [bind, Except.bind, aimed] at h
        -- A path that names a directory takes no file.
        cases flag : (Path.parts target).directory with
        | true =>
          rw [flag] at h
          rcases old with _ | c | _ <;> cases h
        | false =>
          rw [flag] at h
          split
          case isTrue same =>
            rcases old with _ | c | _
            · simp only [if_pos same] at h
              cases h
              exact ⟨nofun, rfl, rfl⟩
            · simp only [if_pos same] at h
              cases h
              exact ⟨nofun, rfl, rfl⟩
            · cases h
          case isFalse differ =>
            rcases old with _ | c | _
            · simp only [if_neg differ] at h
              cases h
              exact ⟨nofun, rfl, rfl⟩
            · simp only [if_neg differ] at h
              cases h
              exact ⟨nofun, rfl, rfl⟩
            · cases h
    · cases h

end Steps

section Beside

variable {d d' : Disk} {path beside : String} {content written : Bytes}

/-- Paths that lie beside each other are located at different places. -/
lemma locate_beside {place place'} (h : Path.Beside path beside)
    (located : d.locate path = .ok place)
    (located' : d.locate beside = .ok place') : place ≠ place' := by
  obtain ⟨init, name, name', components, components', absolute, differ, up, up'⟩ := h
  obtain ⟨-, -, way⟩ := locate_eq_ok.1 located
  obtain ⟨-, -, way'⟩ := locate_eq_ok.1 located'
  rw [components] at way
  rw [components', absolute] at way'
  obtain ⟨directory, rfl, rfl⟩ := walk_beside up up' way way'
  intro same
  exact differ (List.cons.inj (List.append_cancel_left same)).1

/-- A file that is put where no directory is leaves the directories. -/
lemma directory_put {place} (free : d.entry? place ≠ some .directory) :
    ∀ p, d.entry? p = some .directory →
      entry? (d.put place (.file written)) p = some .directory := by
  intro p directory
  have other : p ≠ place := by
    rintro rfl
    exact free directory
  rw [entry?_put_of_ne other, directory]

/-- A file that was written is read. -/
lemma read_write_self (wrote : d.write path written = .ok d') : d'.read path = .ok written := by
  obtain ⟨place, located, free, plain, rfl⟩ := write_eq_ok wrote
  exact read_eq_ok.2 ⟨place, locate_mono (directory_put free) located,
    entry?_put_self (ne_nil_of_not_directory free), plain⟩

/-- The directories are those from before. -/
lemma directory_of_put {place p}
    (directory : entry? (d.put place (.file written)) p = some .directory) :
    d.entry? p = some .directory := by
  by_cases same : p = place
  case neg => rwa [entry?_put_of_ne same] at directory
  case pos =>
    subst same
    by_cases root : p = []
    case pos => rw [root]; rfl
    case neg =>
      rw [entry?_put_self root] at directory
      cases directory

/-- A file written beside a path changes nothing that is read there. -/
lemma content?_write (h : Path.Beside path beside) (wrote : d.write beside written = .ok d') :
    d'.content? path = d.content? path := by
  obtain ⟨place', located', free, -, rfl⟩ := write_eq_ok wrote
  refine content?_congr fun content => ⟨fun read => ?_, fun read => ?_⟩
  · obtain ⟨place, located, entry, plain⟩ := read_eq_ok.1 read
    have located := locate_mono (fun _ => directory_of_put) located
    rw [entry?_put_of_ne (locate_beside h located located')] at entry
    exact read_eq_ok.2 ⟨place, located, entry, plain⟩
  · obtain ⟨place, located, entry, plain⟩ := read_eq_ok.1 read
    refine read_eq_ok.2 ⟨place, locate_mono (directory_put free) located, ?_, plain⟩
    rw [entry?_put_of_ne (locate_beside h located located'), entry]

/-- A file that is renamed is read under its new name. -/
lemma read_rename {source target : String} (read : d.read source = .ok written)
    (renamed : d.rename source target = .ok d') : d'.read target = .ok written := by
  obtain ⟨origin, located, entry, -⟩ := read_eq_ok.1 read
  obtain ⟨origin', place, moved, located', entry', aimed, free, plain, rfl⟩ := rename_eq_ok renamed
  cases located.symm.trans located'
  cases entry.symm.trans entry'
  split
  case isTrue same =>
    rw [same] at aimed
    exact read_eq_ok.2 ⟨origin, aimed, entry, plain⟩
  case isFalse differ =>
    have dirs : ∀ p, d.entry? p = some .directory →
        entry? ((d.remove origin).put place (.file written)) p = some .directory := by
      intro p directory
      have other : p ≠ place := by
        rintro rfl
        exact free directory
      have other' : p ≠ origin := by
        rintro rfl
        rw [entry] at directory
        cases directory
      rw [entry?_put_of_ne other, entry?_remove_of_ne other', directory]
    exact read_eq_ok.2 ⟨place, locate_mono dirs aimed,
      entry?_put_self (ne_nil_of_not_directory free), plain⟩

end Beside

end Payout.Disk
