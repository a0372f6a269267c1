import Pushdown.Dialect.Builtin
import Pushdown.Proofs.Sql.Token

/-!
# Quoted names with escapes

Between backticks BigQuery reads the same escapes as in a string constant: a backslash takes the
characters behind it, and the name ends at the first backtick that no backslash takes. A backtick in
front of another one ends the name like any other. So doubling the backticks of a name does not keep
them inside, and a backslash is not read as itself. All other names are read back as they are.
-/

namespace Pushdown

namespace Escaped

/-! ## Reading a name -/

/-- The characters that a single character behind a backslash stands for. -/
def single : List (Char × Char) :=
  [('a', '\x07'), ('b', '\x08'), ('f', '\x0c'), ('n', '\n'), ('r', '\r'), ('t', '\t'),
    ('v', '\x0b'), ('\\', '\\'), ('?', '?'), ('"', '"'), ('\'', '\''), ('`', '`')]

/-- The character of a code with so many digits, and what follows them. -/
def coded? (base count : Nat) (cs : List Char) : Option (Char × List Char) :=
  if count ≤ cs.length then
    (Text.readDigits? base (cs.take count)).bind fun code =>
      if code.isValidChar then some (Char.ofNat code, cs.drop count) else none
  else none

/-- What the characters behind a backslash stand for, and what follows them. -/
def escape? : List Char → Option (Char × List Char)
  | [] => none
  | mark :: rest =>
    match single.lookup mark with
    | some c => some (c, rest)
    | none =>
      if mark = 'x' ∨ mark = 'X' then coded? 16 2 rest
      else if mark = 'u' then coded? 16 4 rest
      else if mark = 'U' then coded? 16 8 rest
      else (coded? 8 3 (mark :: rest)).filter (·.1.toNat < 256)

/-- Some characters have been read as another one. They have no backtick unless it is one. -/
structure Takes (cs : List Char) (c : Char) (rest : List Char) (taken : List Char) : Prop where
  split : cs = taken ++ rest
  nonempty : taken ≠ []
  backtick : taken.count '`' ≤ [c].count '`'

theorem backtick_of_readDigits? {base : Nat} {cs : List Char} {n : Nat}
    (read : Text.readDigits? base cs = some n) : '`' ∉ cs := by
  unfold Text.readDigits? at read
  generalize 0 = start at read
  induction cs generalizing start with
  | nil => exact List.not_mem_nil
  | cons c cs ih =>
    rw [List.foldlM_cons] at read
    obtain ⟨next, value, more⟩ := Option.bind_eq_some_iff.mp read
    rintro (_ | ⟨_, later⟩)
    · simp [Text.digitValue?] at value
    · exact ih next more later

theorem takes_of_coded? {base count : Nat} {cs rest : List Char} {c : Char} (positive : 0 < count)
    (read : coded? base count cs = some (c, rest)) : Takes cs c rest (cs.take count) := by
  unfold coded? at read
  split at read
  · rename_i enough
    obtain ⟨code, digits, valid⟩ := Option.bind_eq_some_iff.mp read
    split at valid
    · cases valid
      refine ⟨(List.take_append_drop count cs).symm, ?_, ?_⟩
      · intro empty
        have length := congrArg List.length empty
        rw [List.length_take, List.length_nil] at length
        omega
      · rw [List.count_eq_zero_of_not_mem (backtick_of_readDigits? digits)]
        exact Nat.zero_le _
    · contradiction
  · contradiction

/-- One more character in front, which is no backtick. -/
theorem Takes.behind {cs rest taken : List Char} {c mark : Char} (h : Takes cs c rest taken)
    (plain : mark ≠ '`') : Takes (mark :: cs) c rest (mark :: taken) where
  split := by rw [h.split, List.cons_append]
  nonempty := List.cons_ne_nil mark taken
  backtick := by simpa [List.count_cons, plain] using h.backtick

theorem takes_of_escape? {cs rest : List Char} {c : Char} (read : escape? cs = some (c, rest)) :
    ∃ taken, Takes cs c rest taken := by
  cases cs with
  | nil => contradiction
  | cons mark cs =>
    cases stands : single.lookup mark with
    | some d =>
      simp only [escape?, stands] at read
      cases read
      refine ⟨[mark], rfl, by simp, ?_⟩
      by_cases backtick : mark = '`'
      · subst backtick
        cases stands
        exact Nat.le_refl _
      · simp [List.count_cons, backtick]
    | none =>
      have plain : mark ≠ '`' := by
        rintro rfl
        contradiction
      simp only [escape?, stands] at read
      split at read
      · exact ⟨_, (takes_of_coded? (by decide) read).behind plain⟩
      split at read
      · exact ⟨_, (takes_of_coded? (by decide) read).behind plain⟩
      split at read
      · exact ⟨_, (takes_of_coded? (by decide) read).behind plain⟩
      · exact ⟨_, takes_of_coded? (by decide) (Option.filter_eq_some_iff.mp read).1⟩

/-- The name in front of the closing backtick, and what follows that backtick. -/
def name? : List Char → Option (List Char × List Char)
  | [] => none
  | '`' :: rest => some ([], rest)
  | '\\' :: rest =>
    match _read : escape? rest with
    | none => none
    | some (c, behind) => (name? behind).map fun (name, rest) => (c :: name, rest)
  | c :: rest => (name? rest).map fun (name, rest) => (c :: name, rest)
termination_by cs => cs.length
decreasing_by
  · obtain ⟨taken, split, -, -⟩ := takes_of_escape? ‹_›
    simp only [split, List.length_append, List.length_cons]
    omega
  · simp

/-! ## What a name that is read was written as -/

/-- What the characters of a name were written as. An escape is longer than its character, and every
backtick stands for one of the name. -/
structure Stands (written name : List Char) : Prop where
  backticks : written.count '`' ≤ name.count '`'
  length : name.length ≤ written.length
  shorter : '\\' ∈ written → name.length < written.length

namespace Stands

variable {written name : List Char}

theorem char (h : Stands written name) {c : Char} (backslash : c ≠ '\\') :
    Stands (c :: written) (c :: name) where
  backticks := by simpa [List.count_cons] using h.backticks
  length := by simpa using h.length
  shorter := by simpa [Ne.symm backslash] using h.shorter

theorem escape (h : Stands written name) {cs rest taken : List Char} {c : Char}
    (takes : Takes cs c rest taken) : Stands ('\\' :: (taken ++ written)) (c :: name) where
  backticks := by
    calc ('\\' :: (taken ++ written)).count '`'
      _ = taken.count '`' + written.count '`' := by simp
      _ ≤ [c].count '`' + name.count '`' := Nat.add_le_add takes.backtick h.backticks
      _ = (c :: name).count '`' := by rw [← List.count_append, List.singleton_append]
  length := by
    have others := h.length
    simp only [List.length_cons, List.length_append]
    omega
  shorter _ := by
    have some := List.length_pos_iff.mpr takes.nonempty
    have others := h.length
    simp only [List.length_cons, List.length_append]
    omega

end Stands

theorem exists_of_name? {cs name rest : List Char} (read : name? cs = some (name, rest)) :
    ∃ written, cs = written ++ '`' :: rest ∧ Stands written name := by
  fun_induction name? cs generalizing name with
  | case1 => contradiction
  | case2 behind =>
    cases read
    exact ⟨[], rfl, ⟨Nat.le_refl _, Nat.le_refl _, by simp⟩⟩
  | case3 => contradiction
  | case4 cs c behind escaped ih =>
    obtain ⟨⟨tail, _⟩, more, pair⟩ := Option.map_eq_some_iff.mp read
    cases pair
    obtain ⟨written, rfl, stands⟩ := ih more
    obtain ⟨taken, takes⟩ := takes_of_escape? escaped
    exact ⟨'\\' :: (taken ++ written), by simp [takes.split], stands.escape takes⟩
  | case5 c cs backtick backslash ih =>
    obtain ⟨⟨tail, _⟩, more, pair⟩ := Option.map_eq_some_iff.mp read
    cases pair
    obtain ⟨written, rfl, stands⟩ := ih more
    exact ⟨c :: written, rfl, stands.char backslash⟩

/-! ## Which names are read back -/

theorem name?_of_plain {name : List Char} (backtick : '`' ∉ name) (backslash : '\\' ∉ name)
    (rest : List Char) : name? (name ++ '`' :: rest) = some (name, rest) := by
  induction name with
  | nil => rw [List.nil_append, name?]
  | cons c name ih =>
    rw [List.mem_cons, not_or] at backtick backslash
    rw [List.cons_append, name?, ih backtick.2 backslash.2]
    · rfl
    · exact fun same => backtick.1 same.symm
    · exact fun same => backslash.1 same.symm

theorem doubleMark_of_plain {name : List Char} {mark : Char} (plain : mark ∉ name) :
    doubleMark [mark] 0 name = name := by
  induction name with
  | nil => rfl
  | cons c name ih =>
    rw [List.mem_cons, not_or] at plain
    rw [Lexer.doubleMark_cons_of_ne plain.1, ih plain.2]

theorem count_doubleMark (mark : Char) (name : List Char) :
    (doubleMark [mark] 0 name).count mark = 2 * name.count mark := by
  induction name with
  | nil => rfl
  | cons c name ih =>
    by_cases same : mark = c
    · subst same
      rw [Lexer.doubleMark_cons_self]
      simp only [List.count_cons_self, ih]
      omega
    · rw [Lexer.doubleMark_cons_of_ne same, List.count_cons_of_ne (Ne.symm same),
        List.count_cons_of_ne (Ne.symm same), ih]

/-- A name with its backticks doubled is read back if and only if it has none, and no backslash. -/
theorem name?_doubleMark_iff (name rest : List Char) :
    name? (doubleMark ['`'] 0 name ++ '`' :: rest) = some (name, rest) ↔
      '`' ∉ name ∧ '\\' ∉ name := by
  constructor
  · intro read
    obtain ⟨written, same, stands⟩ := exists_of_name? read
    obtain rfl := List.append_cancel_right same
    have none : '`' ∉ name := by
      have backticks := stands.backticks
      rw [count_doubleMark] at backticks
      exact List.count_eq_zero.mp (by omega)
    rw [doubleMark_of_plain none] at stands
    exact ⟨none, fun escape => Nat.lt_irrefl _ (stands.shorter escape)⟩
  · rintro ⟨backtick, backslash⟩
    rw [doubleMark_of_plain backtick]
    exact name?_of_plain backtick backslash rest

end Escaped

/-- The quoted name at the start of a text, and what follows it, by the rule of BigQuery. -/
def escapedName? (text : String) : Option (String × String) :=
  match text.toList with
  | '`' :: rest =>
    (Escaped.name? rest).map fun (name, rest) => (String.ofList name, String.ofList rest)
  | _ => none

namespace Builtin

theorem bigQuery_write_name (notes : Notes) (always : Bool) (name : String) :
    (Fragment.name name).write (bigQuery.build notes).profile always =
      bigQueryProfile.quotedName name := by
  simp [Fragment.write, Profile.writeName, Profile.needsQuotes, build, bigQueryProfile]

/-- The rule of BigQuery reads a name back, with what follows it left over, if and only if the name
has neither a backtick nor a backslash in it. -/
theorem bigQuery_name_read_back_iff (notes : Notes) (always : Bool) (name rest : String) :
    escapedName? ((Fragment.name name).write (bigQuery.build notes).profile always ++ rest) =
      some (name, rest) ↔ '`' ∉ name.toList ∧ '\\' ∉ name.toList := by
  have written : (bigQueryProfile.quotedName name ++ rest).toList =
      '`' :: (doubleMark ['`'] 0 name.toList ++ '`' :: rest.toList) := by
    simp [Profile.quotedName, bigQueryProfile]
  rw [bigQuery_write_name, escapedName?, written, ← Escaped.name?_doubleMark_iff _ rest.toList]
  constructor
  · intro read
    obtain ⟨⟨chars, behind⟩, found, pair⟩ := Option.map_eq_some_iff.mp read
    cases pair
    simpa using found
  · intro found
    simp [found]

/-- A backslash at the end of a name takes the closing backtick, so the name goes on in the
statement up to the next backtick. -/
theorem bigQuery_name_escapes :
    escapedName? ((Fragment.name "a\\").write (bigQuery.build {}).profile false ++ " FROM `T`") =
      some ("a` FROM ", "T`") := by
  have written :
      ((Fragment.name "a\\").write (bigQuery.build {}).profile false ++ " FROM `T`").toList =
        ['`', 'a', '\\', '`', ' ', 'F', 'R', 'O', 'M', ' ', '`', 'T', '`'] := by
    decide +kernel
  rw [escapedName?, written]
  simp [Escaped.name?, Escaped.escape?, Escaped.single, List.lookup_cons]

end Builtin

end Pushdown
