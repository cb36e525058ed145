import Payout.Proofs.Json.Numerals
import Payout.Proofs.Json.Quoting

/-!
# Reading what was written

An indented document is read back (`ofText?_prettyText`), if its numbers are whole numbers of 64
bits and all of its parts can be used. The proof follows the writer: every value is read up to what
follows it, given fuel for each of its characters.
-/

namespace Payout.Json

/-- Values whose written form says all about them. -/
inductive Plain : Json → Prop where
  | null :
    Plain .null
  | bool {b} :
    Plain (.bool b)
  | integer {n} :
    Fits n →
    Plain (.integer n)
  | string {s} :
    Plain (.string s)
  | array {items} :
    (∀ v ∈ items, Plain v) →
    Plain (.array items)
  | object {members} :
    (∀ m ∈ members, Plain m.2) →
    Plain (.object members)

section Blanks

variable {c : Char} {text rest : List Char}

/-- A line break and its indentation are skipped. -/
lemma skipBlanks_newLine (level : Nat) (text : List Char) :
    skipBlanks (newLine level ++ text) = skipBlanks text := by
  have spaces (n : Nat) : skipBlanks (List.replicate n ' ' ++ text) = skipBlanks text := by
    induction n with
    | zero => rfl
    | succ n ih =>
      rw [List.replicate_succ, List.cons_append, skipBlanks, if_pos (.inl rfl)]
      exact ih
  rw [newLine, List.cons_append, skipBlanks, if_pos (.inr (.inl rfl))]
  exact spaces _

/-- A text that starts with no blank. -/
def Starts (text : List Char) : Prop :=
  ∃ c more, text = c :: more ∧ ¬ (c = ' ' ∨ c = '\n' ∨ c = '\t' ∨ c = '\r') ∧ c ≠ ']' ∧ c ≠ '}'

/-- A text that starts with no blank has none to skip. -/
lemma Starts.skipBlanks (h : Starts text) : skipBlanks text = text := by
  obtain ⟨c, more, rfl, notBlank, _⟩ := h
  rw [Json.skipBlanks, if_neg notBlank]

/-- What follows a text does not change how it starts. -/
lemma Starts.append (h : Starts text) : Starts (text ++ rest) := by
  obtain ⟨c, more, rfl, shape⟩ := h
  exact ⟨c, more ++ rest, rfl, shape⟩

/-- A whole number starts with a sign or a digit. -/
lemma head_integerText (n : Int) :
    ∃ c more, integerText n = c :: more ∧ (c = '-' ∨ c.isDigit = true) := by
  unfold integerText
  split
  case isTrue => exact ⟨'-', _, rfl, .inl rfl⟩
  case isFalse =>
    obtain ⟨c, cs, digits⟩ :=
      List.exists_cons_of_ne_nil (Nat.toDigits_ne_nil (n := n.natAbs) (b := 10))
    exact ⟨c, cs, digits, .inr (Text.isDigit_of_mem (n := n.natAbs) (by simp [digits]))⟩

/-- A whole number starts with no blank and no bracket. -/
lemma starts_integerText (n : Int) : Starts (integerText n) := by
  obtain ⟨c, more, text, sign⟩ := head_integerText n
  refine ⟨c, more, text, ?_, ?_, ?_⟩
  · rintro (rfl | rfl | rfl | rfl) <;> rcases sign with sign | sign <;> cases sign
  · rintro rfl
    rcases sign with sign | sign <;> cases sign
  · rintro rfl
    rcases sign with sign | sign <;> cases sign

/-- A written value starts with no blank and no closing bracket. -/
lemma starts_pretty {v : Json} (h : Plain v) (level : Nat) : Starts (pretty level v) := by
  cases h with
  | null => exact ⟨'n', _, rfl, by decide, by decide, by decide⟩
  | @bool b => cases b <;> exact ⟨_, _, rfl, by decide, by decide, by decide⟩
  | integer => exact starts_integerText _
  | string => exact ⟨'"', _, rfl, by decide, by decide, by decide⟩
  | @array items => cases items <;> exact ⟨'[', _, rfl, by decide, by decide, by decide⟩
  | @object members => cases members <;> exact ⟨'{', _, rfl, by decide, by decide, by decide⟩

end Blanks

section Reading

variable {fuel level : Nat} {text text' rest : List Char}

/-- Readers do not see the blanks before a value. -/
lemma readValue_congr (h : skipBlanks text = skipBlanks text') :
    readValue fuel text = readValue fuel text' := by
  cases fuel with
  | zero => rfl
  | succ fuel => rw [readValue, readValue, h]

/-- Items are read the same behind any blanks. -/
lemma readItems_congr (h : skipBlanks text = skipBlanks text') :
    readItems fuel text = readItems fuel text' := by
  cases fuel with
  | zero => rfl
  | succ fuel => rw [readItems, readItems, readValue_congr h]

/-- Members are read the same behind any blanks. -/
lemma readMembers_congr (h : skipBlanks text = skipBlanks text') :
    readMembers fuel text = readMembers fuel text' := by
  cases fuel with
  | zero => rfl
  | succ fuel => rw [readMembers, readMembers, h]

/-- No number goes on into a new line. -/
lemma delimited_newLine : Delimited (newLine level ++ rest) := by
  intro c more h
  cases h
  exact .inr (.inl rfl)

/-- No number goes on into a comma, a line break or a closing bracket. -/
lemma delimited_cons {c : Char} (h : c = ',' ∨ c = '\n' ∨ c = ']' ∨ c = '}') :
    Delimited (c :: rest) := by
  rintro _ _ ⟨⟩
  exact h

/-- A whole number is read back up to what follows it. -/
lemma readValue_integer {n : Int} (fits : Fits n) (stop : Delimited rest) :
    readValue (fuel + 1) (integerText n ++ rest) = some (.integer n, rest) := by
  rw [readValue, (starts_integerText n).append.skipBlanks]
  have number := readNumber_integerText fits stop
  obtain ⟨c, more, text, sign⟩ := head_integerText n
  rw [text, List.cons_append] at number ⊢
  split
  case h_1 h | h_2 h | h_3 h | h_4 h | h_5 h | h_6 h =>
    obtain ⟨rfl, _⟩ := List.cons.inj h
    rcases sign with sign | sign <;> cases sign
  case h_7 => exact number

/-- A quoted text is read back up to what follows it. -/
lemma readValue_string (s : String) :
    readValue (fuel + 1) (quote s ++ rest) = some (.string s, rest) := by
  have text : quote s ++ rest = '"' :: (s.toList.flatMap escape ++ '"' :: rest) := by simp [quote]
  have first : skipBlanks (quote s ++ rest) = quote s ++ rest := by rw [text]; rfl
  rw [readValue, first, text]
  simp [readText_quote]

/-- Items are read back up to their closing bracket, if each of them is. -/
lemma readItems_prettyItems {items : List Json} {closing : Nat} (notEmpty : items ≠ [])
    (each : ∀ v ∈ items, ∀ level fuel rest, (pretty level v).length ≤ fuel → Delimited rest →
      readValue fuel (pretty level v ++ rest) = some (v, rest))
    (enough : (prettyItems level items).length + 1 ≤ fuel) :
    readItems fuel (prettyItems level items ++ newLine closing ++ ']' :: rest) =
      some (items, rest) := by
  induction items generalizing fuel with
  | nil => exact absurd rfl notEmpty
  | cons v items ih =>
    obtain ⟨fuel, rfl⟩ : ∃ n, fuel = n + 1 := ⟨fuel - 1, by omega⟩
    -- The last item ends with its line, and any other with a comma.
    cases items with
    | nil =>
      have read := each v List.mem_cons_self level fuel (newLine closing ++ ']' :: rest)
        (by simpa [prettyItems] using enough) delimited_newLine
      rw [readItems, prettyItems, List.append_assoc, read]
      have last : skipBlanks (newLine closing ++ ']' :: rest) = ']' :: rest := by
        rw [skipBlanks_newLine]
        rfl
      simp [last]
    | cons w items =>
      have shape : prettyItems level (v :: w :: items) =
          pretty level v ++ ',' :: newLine level ++ prettyItems level (w :: items) := rfl
      rw [shape] at enough
      simp only [List.length_append, List.length_cons] at enough
      have further :
          readItems fuel (prettyItems level (w :: items) ++ newLine closing ++ ']' :: rest) =
          some (w :: items, rest) :=
        ih (by simp) (fun v h => each v (List.mem_cons_of_mem _ h)) (by omega)
      rw [← readItems_congr (skipBlanks_newLine level _)] at further
      have read := each v List.mem_cons_self level fuel
        (',' :: (newLine level ++
          (prettyItems level (w :: items) ++ newLine closing ++ ']' :: rest)))
        (by omega) (delimited_cons (.inl rfl))
      have text : prettyItems level (v :: w :: items) ++ newLine closing ++ ']' :: rest =
          pretty level v ++ ',' :: (newLine level ++
            (prettyItems level (w :: items) ++ newLine closing ++ ']' :: rest)) := by
        simp [shape]
      rw [readItems, text, read]
      have comma : ∀ more, skipBlanks (',' :: more) = ',' :: more := fun _ => rfl
      simp only [Option.bind_eq_bind, Option.bind_some, comma, further]

section Member

variable {k : String} {v : Json} {after more : List Char}

/-- A quoted name starts with its opening quote. -/
lemma skipBlanks_quote :
    skipBlanks (quote k ++ more) = '"' :: (k.toList.flatMap escape ++ '"' :: more) := by
  have text : quote k ++ more = '"' :: (k.toList.flatMap escape ++ '"' :: more) := by
    simp [quote]
  rw [text]
  rfl

/-- The value after a name is read over the blank before it. -/
lemma readValue_blank (value : readValue fuel (pretty level v ++ after) = some (v, after)) :
    readValue fuel (' ' :: (pretty level v ++ after)) = some (v, after) := by
  rw [← value]
  exact readValue_congr rfl

/-- A last member is read up to the closing brace. -/
lemma readMembers_last (value : readValue fuel (pretty level v ++ after) = some (v, after))
    (brace : skipBlanks after = '}' :: rest) :
    readMembers (fuel + 1) (quote k ++ ':' :: ' ' :: (pretty level v ++ after)) =
      some ([(some k, v)], rest) := by
  have colon : ∀ more, skipBlanks (':' :: more) = ':' :: more := fun _ => rfl
  rw [readMembers, skipBlanks_quote]
  simp only [readText_quote, Option.bind_eq_bind, Option.bind_some, colon,
    readValue_blank value, brace]

/-- A member is read up to its comma, and the others behind it. -/
lemma readMembers_next {members}
    (value : readValue fuel (pretty level v ++ after) = some (v, after))
    (comma : skipBlanks after = ',' :: more)
    (further : readMembers fuel more = some (members, rest)) :
    readMembers (fuel + 1) (quote k ++ ':' :: ' ' :: (pretty level v ++ after)) =
      some ((some k, v) :: members, rest) := by
  have colon : ∀ more, skipBlanks (':' :: more) = ':' :: more := fun _ => rfl
  rw [readMembers, skipBlanks_quote]
  simp only [readText_quote, Option.bind_eq_bind, Option.bind_some, colon,
    readValue_blank value, comma, further]

end Member

/-- Members are read back up to their closing brace, if the value of each of them is. -/
lemma readMembers_prettyMembers {members : List (String × Json)} {closing : Nat}
    (notEmpty : members ≠ [])
    (each : ∀ m ∈ members, ∀ level fuel rest, (pretty level m.2).length ≤ fuel → Delimited rest →
      readValue fuel (pretty level m.2 ++ rest) = some (m.2, rest))
    (enough : (prettyMembers level members).length + 1 ≤ fuel) :
    readMembers fuel (prettyMembers level members ++ newLine closing ++ '}' :: rest) =
      some (members.map fun m => (some m.1, m.2), rest) := by
  induction members generalizing fuel with
  | nil => exact absurd rfl notEmpty
  | cons m members ih =>
    obtain ⟨fuel, rfl⟩ : ∃ n, fuel = n + 1 := ⟨fuel - 1, by omega⟩
    obtain ⟨k, v⟩ := m
    have value (after : List Char) (enough : (pretty level v).length ≤ fuel)
        (stop : Delimited after) :
        readValue fuel (pretty level v ++ after) = some (v, after) :=
      each (k, v) List.mem_cons_self level fuel after enough stop
    -- The last member ends with its line, and any other with a comma.
    cases members with
    | nil =>
      have enough' : (pretty level v).length ≤ fuel := by
        simp [prettyMembers] at enough
        omega
      have text : prettyMembers level [(k, v)] ++ newLine closing ++ '}' :: rest =
          quote k ++ ':' :: ' ' :: (pretty level v ++ (newLine closing ++ '}' :: rest)) := by
        simp [prettyMembers]
      have brace : skipBlanks (newLine closing ++ '}' :: rest) = '}' :: rest := by
        rw [skipBlanks_newLine]
        rfl
      rw [text]
      exact readMembers_last (value _ enough' delimited_newLine) brace
    | cons m members =>
      have shape : prettyMembers level ((k, v) :: m :: members) =
          quote k ++ ':' :: ' ' :: pretty level v ++ ',' :: newLine level ++
            prettyMembers level (m :: members) := rfl
      rw [shape] at enough
      simp only [List.length_append, List.length_cons] at enough
      have further :
          readMembers fuel (prettyMembers level (m :: members) ++ newLine closing ++ '}' :: rest) =
            some ((m :: members).map fun m => (some m.1, m.2), rest) :=
        ih (by simp) (fun m h => each m (List.mem_cons_of_mem _ h)) (by omega)
      rw [← readMembers_congr (skipBlanks_newLine level _)] at further
      have text : prettyMembers level ((k, v) :: m :: members) ++ newLine closing ++ '}' :: rest =
          quote k ++ ':' :: ' ' :: (pretty level v ++ (',' :: (newLine level ++
            (prettyMembers level (m :: members) ++ newLine closing ++ '}' :: rest)))) := by
        simp [shape]
      rw [text]
      exact readMembers_next (value _ (by omega) (delimited_cons (.inl rfl))) rfl further

end Reading

/-- Members that all have a name make an object. -/
lemma ofMembers_named (members : List (String × Json)) :
    ofMembers (members.map fun m => (some m.1, m.2)) = .object members := by
  have named : (members.map fun m => (some m.1, m.2)).mapM
      (fun m : Option String × Json => m.1.map (·, m.2)) = some members := by
    induction members with
    | nil => rfl
    | cons m members ih =>
      rw [List.map_cons, List.mapM_cons, ih]
      rfl
  unfold ofMembers
  split
  case h_1 found same =>
    rw [named] at same
    rw [Option.some.inj same]
  case h_2 same =>
    rw [named] at same
    cases same

/-- Written items start with no blank. -/
lemma Starts.prettyItems {items : List Json} {level : Nat} (notEmpty : items ≠ [])
    (all : ∀ v ∈ items, Plain v) : Starts (prettyItems level items) := by
  cases items with
  | nil => exact absurd rfl notEmpty
  | cons v items =>
    have first := starts_pretty (all v List.mem_cons_self) level
    cases items with
    | nil => exact first
    | cons w items => exact first.append.append

/-- Written members start with no blank. -/
lemma Starts.prettyMembers {members : List (String × Json)} {level : Nat}
    (notEmpty : members ≠ []) :
    Starts (prettyMembers level members) := by
  rcases members with _ | ⟨⟨k, v⟩, _ | ⟨m, members⟩⟩
  · exact absurd rfl notEmpty
  · exact ⟨'"', _, rfl, by decide, by decide, by decide⟩
  · exact ⟨'"', _, rfl, by decide, by decide, by decide⟩

section Nesting

variable {fuel level : Nat} {body : List Char}

/-- An opening bracket on a line of its own begins an array. -/
lemma readValue_bracket (h : Starts body) :
    readValue (fuel + 1) ('[' :: (newLine level ++ body)) =
      (readItems fuel body).map fun p => (.array p.1, p.2) := by
  have bracket : ∀ more, skipBlanks ('[' :: more) = '[' :: more := fun _ => rfl
  have first : skipBlanks (newLine level ++ body) = body := by
    rw [skipBlanks_newLine, h.skipBlanks]
  obtain ⟨c, more, rfl, -, notClosing, -⟩ := h
  rw [readValue, bracket]
  simp only [first]
  split
  case h_1 closing => exact absurd (List.cons.inj closing).1 notClosing
  case h_2 => cases readItems fuel (c :: more) <;> rfl

/-- An opening brace on a line of its own begins an object. -/
lemma readValue_brace (h : Starts body) :
    readValue (fuel + 1) ('{' :: (newLine level ++ body)) =
      (readMembers fuel body).map fun p => (ofMembers p.1, p.2) := by
  have brace : ∀ more, skipBlanks ('{' :: more) = '{' :: more := fun _ => rfl
  have first : skipBlanks (newLine level ++ body) = body := by
    rw [skipBlanks_newLine, h.skipBlanks]
  obtain ⟨c, more, rfl, -, -, notClosing⟩ := h
  rw [readValue, brace]
  simp only [first]
  split
  case h_1 closing => exact absurd (List.cons.inj closing).1 notClosing
  case h_2 => cases readMembers fuel (c :: more) <;> rfl

end Nesting

/-- A value is read back up to what follows it. -/
lemma readValue_pretty {v : Json} (h : Plain v) :
    ∀ level fuel rest, (pretty level v).length ≤ fuel → Delimited rest →
      readValue fuel (pretty level v ++ rest) = some (v, rest) := by
  induction h with
  -- Fuel is never out, as no value is written in no characters.
  | null =>
    rintro level (_ | fuel) rest enough -
    · cases enough
    · rfl
  | @bool b =>
    rintro level (_ | fuel) rest enough -
    · cases b <;> cases enough
    · cases b <;> rfl
  | @integer n fits =>
    rintro level (_ | fuel) rest enough stop
    · obtain ⟨c, more, text, -⟩ := head_integerText n
      have length : (integerText n).length ≤ 0 := enough
      simp [text] at length
    · exact readValue_integer fits stop
  | @string s =>
    rintro level (_ | fuel) rest enough -
    · cases enough
    · exact readValue_string s
  | @array items all ih =>
    rintro level (_ | fuel) rest enough -
    · cases items <;> cases enough
    by_cases empty : items = []
    · subst empty
      rfl
    have shape : pretty level (.array items) = '[' :: newLine (level + 1) ++
        prettyItems (level + 1) items ++ newLine level ++ [']'] := by
      cases items with
      | nil => exact absurd rfl empty
      | cons v items => rfl
    have enough' : (prettyItems (level + 1) items).length + 1 ≤ fuel := by
      simp [shape, newLine] at enough
      omega
    have starts : Starts (prettyItems (level + 1) items ++ newLine level ++ ']' :: rest) :=
      (Starts.prettyItems empty all).append.append
    have text : pretty level (.array items) ++ rest = '[' :: (newLine (level + 1) ++
        (prettyItems (level + 1) items ++ newLine level ++ ']' :: rest)) := by
      simp [shape]
    rw [text, readValue_bracket starts, readItems_prettyItems empty ih enough']
    rfl
  | @object members all ih =>
    rintro level (_ | fuel) rest enough -
    · cases members <;> cases enough
    by_cases empty : members = []
    · subst empty
      rfl
    have shape : pretty level (.object members) = '{' :: newLine (level + 1) ++
        prettyMembers (level + 1) members ++ newLine level ++ ['}'] := by
      cases members with
      | nil => exact absurd rfl empty
      | cons m members => rfl
    have enough' : (prettyMembers (level + 1) members).length + 1 ≤ fuel := by
      simp [shape, newLine] at enough
      omega
    have starts : Starts (prettyMembers (level + 1) members ++ newLine level ++ '}' :: rest) :=
      (Starts.prettyMembers empty).append.append
    have text : pretty level (.object members) ++ rest = '{' :: (newLine (level + 1) ++
        (prettyMembers (level + 1) members ++ newLine level ++ '}' :: rest)) := by
      simp [shape]
    rw [text, readValue_brace starts, readMembers_prettyMembers empty ih enough']
    exact congrArg (fun w => some (w, rest)) (ofMembers_named members)

/-- A written document is read back. -/
theorem ofText?_prettyText {v : Json} (h : Plain v) : ofText? v.prettyText = some v := by
  have chars : v.prettyText.toList = pretty 0 v := String.toList_ofList
  have read := readValue_pretty h 0 (2 * (pretty 0 v).length + 2) [] (by omega)
    (fun _ _ h => by cases h)
  rw [List.append_nil] at read
  rw [ofText?, chars]
  simp only [Option.bind_eq_bind, read, Option.bind_some]
  rfl

end Payout.Json
