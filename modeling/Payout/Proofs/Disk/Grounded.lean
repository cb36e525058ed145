import Payout.Proofs.Disk.Tree

/-!
# Disks on which everything lies in a directory

On such a disk a file without a way to it has none for want of a name, so making directories does
not make anything readable (`content?_grown`). A path that goes up again is another matter: once a
directory is made that it goes through, it may lead to a file that was there all along. And where a
file lies there is its directory, with nothing to be made (`makeDirectories_parent`).
-/

namespace Payout.Disk

/-- Everything on a disk lies in a directory. -/
def Grounded (d : Disk) : Prop :=
  ∀ place name e, d.entry? (place ++ [name]) = some e → d.entry? place = some .directory

/-- The path goes down only, or it leads somewhere already. -/
def Led (path : String) (d : Disk) : Prop :=
  ".." ∈ (Path.parts path).components → ∃ place, d.locate path = .ok place

section Grounded

variable {d d' : Disk} {place target : List String} {components : List String}
  {path : String} {e : DiskEntry}

/-- A disk is grounded if every entry that it holds lies in a directory. -/
lemma grounded_of_entries (all : ∀ x ∈ d.entries, d.entry? x.1.dropLast = some .directory) :
    d.Grounded := by
  intro place name e there
  have listed : d.entries.lookup (place ++ [name]) = some e := by simpa [ entry?] using there
  obtain ⟨before, after, split, -⟩ := List.lookup_eq_some_iff.1 listed
  have above := all (place ++ [name], e) (by simp [split])
  rwa [List.dropLast_concat] at above

/-- Everything above a place is a directory. -/
lemma Grounded.above (grounded : d.Grounded) {below : List String} (under : below ≠ [])
    (there : d.entry? (place ++ below) = some e) : d.entry? place = some .directory := by
  induction below generalizing place with
  | nil => exact absurd rfl under
  | cons name below ih =>
    cases below with
    | nil => exact grounded place name e there
    | cons =>
      rw [List.append_cons] at there
      exact grounded place name .directory (ih nofun there)

/-- A way down that never goes up leads to where its components say. -/
lemma walk_down (down : ".." ∉ components) (way : d.walk place components = .ok target) :
    target = place ++ components := by
  induction components generalizing place with
  | nil =>
    cases way
    exact (List.append_nil _).symm
  | cons c rest ih =>
    obtain ⟨-, -, way⟩ := walk_cons.1 way
    have into : descend place c = place ++ [c] := descend_of_ne (List.ne_of_not_mem_cons down).symm
    rw [ih (List.not_mem_of_not_mem_cons down) way, into, List.append_assoc, List.singleton_append]

/-- A way down to what is there needs no directory that is not there. -/
lemma Grounded.walk (grounded : d.Grounded) (down : ".." ∉ components)
    (there : d.entry? target = some e)
    (way : d'.walk place components = .ok target) : d.walk place components = .ok target := by
  induction components generalizing place with
  | nil => exact way
  | cons c rest ih =>
    obtain ⟨short, -, way⟩ := walk_cons.1 way
    have down := List.not_mem_of_not_mem_cons down
    refine walk_cons.2 ⟨short, fun more => ?_, ih down way⟩
    rw [walk_down down way] at there
    exact grounded.above more there

/-- Making directories makes nothing readable at a path that is led, nor does it hide anything
there. -/
lemma content?_grown (grounded : d.Grounded) (led : d.Led path) (grown : Grown d d') :
    d'.content? path = d.content? path := by
  refine content?_congr fun content => ⟨fun read => ?_, read_mono fun _ _ => grown.entry⟩
  obtain ⟨place, located, entry, plain⟩ := read_eq_ok.1 read
  have there := grown.file entry
  refine read_eq_ok.2 ⟨place, ?_, there, plain⟩
  -- The file was there; a way down to it was there too, but a way that goes up again may be new.
  by_cases up : ".." ∈ (Path.parts path).components
  case pos =>
    obtain ⟨place', before⟩ := led up
    cases (locate_mono (fun _ => grown.entry) before).symm.trans located
    exact before
  case neg =>
    obtain ⟨some, valid, way⟩ := locate_eq_ok.1 located
    exact locate_eq_ok.2 ⟨some, valid, grounded.walk up there way⟩

/-- The way to what is there goes through its directory. -/
lemma Grounded.walk_init (grounded : d.Grounded) {name : String} (down : name ≠ "..")
    (there : d.entry? target = some e) (way : d.walk place (components ++ [name]) = .ok target) :
    ∃ above, d.walk place components = .ok above ∧ d.entry? above = some .directory := by
  induction components generalizing place with
  | nil =>
    rw [walk_last down way] at there
    exact ⟨place, rfl, grounded place name e there⟩
  | cons c rest ih =>
    obtain ⟨short, directory, way⟩ := walk_cons.1 way
    obtain ⟨above, init, found⟩ := ih way
    exact ⟨above, walk_cons.2 ⟨short, fun _ => directory (by simp), init⟩, found⟩

/-- Where a file lies there is its directory. -/
lemma makeDirectories_parent (grounded : d.Grounded) {content parent fuel}
    (read : d.read path = .ok content) (above : Path.parent? path = some parent) :
    makeDirectories (fuel + 1) d parent = (.ok (), d) := by
  unfold makeDirectories
  by_cases bare : parent.isEmpty
  case pos => rw [if_pos bare]
  case neg =>
    -- The file is there, so the directory that it lies in is there as well.
    obtain ⟨place, located, entry, file⟩ := read_eq_ok.1 read
    have named : parent ≠ "" := fun none => bare (String.isEmpty_iff.2 none)
    obtain ⟨start, absolute, name, other, components⟩ := Path.parts_parent file above named
    obtain ⟨-, valid, way⟩ := locate_eq_ok.1 located
    rw [components, ← absolute] at way
    obtain ⟨directory, down, there⟩ := grounded.walk_init other entry way
    have located : d.locate parent = .ok directory :=
      locate_eq_ok.2 ⟨bare, fun nul => valid (start.subset nul), down⟩
    have found : d.find parent = .ok (directory, some .directory) := by
      refine find_eq_ok.2 ⟨located, there, ?_⟩
      rintro content ⟨⟩
    have ensured : d.ensureDirectory parent = (.ok (), d) := by
      have exists' : d.makeDirectory parent = .error .exists := by
        rw [makeDirectory, found]
        rfl
      have there : d.isDirectory parent = true := by rw [isDirectory, found]
      rw [ensureDirectory, exists']
      simp only [there, if_true]
    rw [if_neg bare, ensured]

end Grounded

end Payout.Disk
