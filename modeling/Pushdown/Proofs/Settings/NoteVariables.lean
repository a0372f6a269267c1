import Pushdown.Proofs.Dictionary
import Pushdown.Proofs.Outcome
import Pushdown.Settings.Load

/-!
# Notes that variables set

A key in camel case names a variable: its words, divided by underscores and in capital letters,
behind the mark of the notes. The key is read back from that name, so every such key has a variable
of its own. Setting this variable sets the note and leaves all other settings as they are.
-/

namespace Pushdown

namespace Settings

/-! ## Keys and names of variables -/

/-- A key of letters and digits that starts with a small letter. -/
def isCamel (key : String) : Bool :=
  key.toList.head?.any Char.isLower && key.toList.all Char.isAlphanum

/-- An underscore before every capital letter. -/
def divideWords (cs : List Char) : List Char :=
  cs.flatMap fun c => if c.isUpper then ['_', c] else [c]

/-- The key with an underscore before every capital letter, and then all of it in capitals. -/
def upperSnake (key : String) : String := Text.upper (String.ofList (divideWords key.toList))

/-- The variable for the note with a key. -/
def noteVariable (key : String) : String := noteMark ++ upperSnake key

/-- Words of small letters as one text, where every word but the first starts with a capital. -/
def joinWords : List (List Char) → List Char
  | [] => []
  | first :: words => first ++ words.flatMap capitalize

theorem noteKey_eq (name : String) :
    noteKey name = String.ofList (joinWords ((Text.lower name).toList.splitOn '_')) := by
  unfold noteKey
  cases (Text.lower name).toList.splitOn '_' <;> rfl

section

variable {c : Char}

theorem isAscii_of_isAlphanum (alphanumeric : c.isAlphanum) : Text.isAscii c := by
  change (decide ('A'.val ≤ c.val ∧ c.val ≤ 'Z'.val) || ('a'.val ≤ c.val && c.val ≤ 'z'.val) ||
    ('0'.val ≤ c.val && c.val ≤ '9'.val)) = true at alphanumeric
  simp only [Bool.or_eq_true, Bool.and_eq_true, decide_eq_true_eq, UInt32.le_iff_toNat_le]
    at alphanumeric
  have capital : 'Z'.val.toNat = 0x5A := rfl
  have small : 'z'.val.toNat = 0x7A := rfl
  have digit : '9'.val.toNat = 0x39 := rfl
  simp only [Text.isAscii, Char.toNat, decide_eq_true_eq]
  omega

theorem isAlphanum_of_isUpper (capital : c.isUpper) : c.isAlphanum := by
  change (c.isUpper || c.isLower || c.isDigit) = true
  rw [capital]
  rfl

/-- What holds of every ASCII letter and digit can be checked code by code. -/
theorem forall_isAlphanum {P : Char → Prop}
    (all : ∀ n < 0x80, (Char.ofNat n).isAlphanum → P (Char.ofNat n)) (alphanumeric : c.isAlphanum) :
    P c := by
  have ascii := isAscii_of_isAlphanum alphanumeric
  rw [Text.isAscii, decide_eq_true_eq] at ascii
  have checked := all c.toNat ascii
  rw [Char.ofNat_toNat] at checked
  exact checked alphanumeric

theorem isAlphanum_toUpper (alphanumeric : c.isAlphanum) : c.toUpper.isAlphanum :=
  forall_isAlphanum (P := fun c => c.toUpper.isAlphanum) (by decide) alphanumeric

theorem isAlphanum_toLower (alphanumeric : c.isAlphanum) : c.toLower.isAlphanum :=
  forall_isAlphanum (P := fun c => c.toLower.isAlphanum) (by decide) alphanumeric

theorem toLower_toUpper (alphanumeric : c.isAlphanum) : c.toUpper.toLower = c.toLower :=
  forall_isAlphanum (P := fun c => c.toUpper.toLower = c.toLower) (by decide) alphanumeric

theorem toUpper_toLower (capital : c.isUpper) : c.toLower.toUpper = c :=
  forall_isAlphanum (P := fun c => c.isUpper → c.toLower.toUpper = c) (by decide)
    (isAlphanum_of_isUpper capital) capital

theorem toLower_eq_self (alphanumeric : c.isAlphanum) (capital : ¬ c.isUpper) : c.toLower = c :=
  forall_isAlphanum (P := fun c => ¬ c.isUpper → c.toLower = c) (by decide) alphanumeric capital

theorem ne_underscore (alphanumeric : c.isAlphanum) : c ≠ '_' := by
  rintro rfl
  exact absurd alphanumeric (by decide)

theorem lowerChar_upperChar (alphanumeric : c.isAlphanum) :
    Text.lowerChar (Text.upperChar c) = c.toLower := by
  have ascii : Text.isAscii c.toUpper := isAscii_of_isAlphanum (isAlphanum_toUpper alphanumeric)
  rw [Text.upperChar, if_pos (isAscii_of_isAlphanum alphanumeric), Text.lowerChar, if_pos ascii,
    toLower_toUpper alphanumeric]

theorem capitalize_toLower (capital : c.isUpper) (word : List Char) :
    capitalize (c.toLower :: word) = c :: word := by
  have alphanumeric : c.isAlphanum := isAlphanum_of_isUpper capital
  rw [capitalize, if_pos (isAscii_of_isAlphanum (isAlphanum_toLower alphanumeric)),
    toUpper_toLower capital]

end

theorem divideWords_cons (c : Char) (cs : List Char) :
    divideWords (c :: cs) = (if c.isUpper then ['_', c] else [c]) ++ divideWords cs := rfl

theorem lower_upperSnake {key : String} (alphanumeric : ∀ c ∈ key.toList, c.isAlphanum) :
    (Text.lower (upperSnake key)).toList = (divideWords key.toList).map Char.toLower := by
  simp only [upperSnake, Text.lower, Text.upper, String.toList_ofList, List.map_map]
  refine List.map_congr_left fun c member => ?_
  obtain ⟨given, listed, here⟩ := List.mem_flatMap.mp member
  have cases : c = '_' ∨ c = given := by
    split at here
    · simpa using here
    · exact .inr (List.mem_singleton.mp here)
  rcases cases with rfl | rfl
  · rfl
  · exact lowerChar_upperChar (alphanumeric c listed)

/-- A small letter or a digit goes on with the first word, and a capital letter starts another. -/
theorem joinWords_divideWords {cs : List Char} (alphanumeric : ∀ c ∈ cs, c.isAlphanum) :
    joinWords (((divideWords cs).map Char.toLower).splitOn '_') = cs := by
  induction cs with
  | nil => rfl
  | cons c cs ih =>
    obtain ⟨known, others⟩ := List.forall_mem_cons.mp alphanumeric
    have rest := ih others
    obtain ⟨first, words, split⟩ :=
      List.exists_cons_of_ne_nil (List.splitOn_ne_nil '_' ((divideWords cs).map Char.toLower))
    rw [split, joinWords] at rest
    have inWord : (c.toLower == '_') = false :=
      beq_false_of_ne (ne_underscore (isAlphanum_toLower known))
    by_cases capital : c.isUpper
    · have divided : ((divideWords (c :: cs)).map Char.toLower).splitOn '_' =
          [] :: (c.toLower :: first) :: words := by
        rw [divideWords_cons, if_pos capital]
        simp [List.splitOn_cons_eq_if_modifyHead, inWord, split]
      rw [divided, joinWords, List.flatMap_cons, capitalize_toLower capital]
      simp [rest]
    · have divided : ((divideWords (c :: cs)).map Char.toLower).splitOn '_' =
          (c :: first) :: words := by
        have same := toLower_eq_self known capital
        rw [same] at inWord
        rw [divideWords_cons, if_neg capital]
        simp [List.splitOn_cons_eq_if_modifyHead, same, inWord, split]
      rw [divided, joinWords]
      simp [rest]

/-- The name of its variable gives a key back. -/
theorem noteKey_upperSnake {key : String} (alphanumeric : ∀ c ∈ key.toList, c.isAlphanum) :
    noteKey (upperSnake key) = key := by
  rw [noteKey_eq, lower_upperSnake alphanumeric, joinWords_divideWords alphanumeric,
    String.ofList_toList]

/-! ## Settings with one more variable -/

/-- The key of the note that a variable with this name sets, if it sets one. -/
def noteOf? (name : String) : Option String :=
  if noteMark.toList.isPrefixOf name.toList && noteMark.length < name.length then
    some (noteKey (String.ofList (name.toList.drop noteMark.length)))
  else none

theorem environmentNotes_eq (vars : List (String × String)) :
    environmentNotes vars = vars.filterMap fun entry => (noteOf? entry.1).map (·, entry.2) := by
  unfold environmentNotes
  congr 1
  funext entry
  simp only [noteOf?, String.length_toList]
  split <;> rfl

theorem noteOf?_noteVariable {key : String} (camel : isCamel key) :
    noteOf? (noteVariable key) = some key := by
  simp only [isCamel, Bool.and_eq_true, List.all_eq_true] at camel
  obtain ⟨starts, alphanumeric⟩ := camel
  have some : 0 < (upperSnake key).length := by
    cases chars : key.toList with
    | nil => simp [chars] at starts
    | cons c cs =>
      rw [← String.length_toList, upperSnake, Text.upper, String.toList_ofList,
        String.toList_ofList, List.length_map, chars, divideWords_cons, List.length_append]
      split
      all_goals
        simp only [List.length_cons, List.length_nil]
        omega
  have whole : (noteVariable key).toList = noteMark.toList ++ (upperSnake key).toList :=
    String.toList_append
  have longer : noteMark.length < (noteVariable key).length := by
    rw [noteVariable, String.length_append]
    omega
  have behind : (noteVariable key).toList.drop noteMark.length = (upperSnake key).toList := by
    rw [whole, ← String.length_toList, List.drop_left]
  rw [noteOf?, behind, whole, String.ofList_toList, noteKey_upperSnake alphanumeric, if_pos]
  simp [longer]

/-- The sources with a variable in the environment, in place of one of the same name. -/
def Sources.withVariable (sources : Sources) (name value : String) : Sources :=
  { sources with environment := ((Dictionary.mk sources.environment).insert name value).entries }

/-- The variables that count: those of the environment, and those that only the file has. -/
def Sources.inForce (sources : Sources) : List (String × String) :=
  mergeVariables sources.environment ((sources.envFile.map EnvFile.read).getD {})

/-- The variable is one of those that count, and the others are those that counted before. -/
theorem Sources.inForce_withVariable (sources : Sources) (name value : String) :
    ∃ before after, (sources.withVariable name value).inForce = before ++ (name, value) :: after ∧
      sources.inForce.filter (fun entry => !(entry.1 == name)) = before ++ after := by
  let others (entry : String × String) : Bool := !(entry.1 == name)
  let file := ((sources.envFile.map EnvFile.read).getD {}).entries
  refine ⟨sources.environment.filter others, file.filter fun entry => others entry &&
    (isVariable entry.1 entry.2 && (sources.environment.lookup entry.1).isNone), ?_, ?_⟩
  · have replaced (entry : String × String) :
        (isVariable entry.1 entry.2 &&
          ((sources.withVariable name value).environment.lookup entry.1).isNone) =
        (others entry && (isVariable entry.1 entry.2 &&
          (sources.environment.lookup entry.1).isNone)) := by
      have found := (Dictionary.mk sources.environment).get?_insert name entry.1 value
      change (sources.withVariable name value).environment.lookup entry.1 = _ at found
      rw [found]
      simp only [others]
      cases entry.1 == name <;> simp [Dictionary.get?]
    rw [inForce, mergeVariables]
    simp only [replaced]
    simp [withVariable, Dictionary.insert, Dictionary.erase, others, file]
  · rw [inForce, mergeVariables, List.filter_append, List.filter_filter]

theorem lookup_withVariable (sources : Sources) {name other : String} (differ : other ≠ name)
    (value : String) : (sources.withVariable name value).inForce.lookup other =
      sources.inForce.lookup other := by
  obtain ⟨before, after, whole, rest⟩ := sources.inForce_withVariable name value
  have erased := (Dictionary.mk sources.inForce).get?_erase name other
  change (sources.inForce.filter fun entry => !(entry.1 == name)).lookup other = _ at erased
  rw [beq_false_of_ne differ, rest] at erased
  rw [whole, List.lookup_append, List.lookup_cons, beq_false_of_ne differ]
  rwa [List.lookup_append] at erased

section

variable {name key : String} (sets : noteOf? name = some key)

include sets

theorem environmentNotes_filter (vars : List (String × String)) {other : String}
    (differ : other ≠ key) :
    (environmentNotes (vars.filter fun entry => !(entry.1 == name))).lookup other =
      (environmentNotes vars).lookup other := by
  simp only [environmentNotes_eq]
  induction vars with
  | nil => rfl
  | cons entry vars ih =>
    obtain ⟨first, value⟩ := entry
    by_cases same : first = name
    · subst same
      simpa [sets, List.lookup_cons, beq_false_of_ne differ] using ih
    · simp only [same, Bool.not_eq_eq_eq_not, Bool.not_true, beq_eq_false_iff_ne,
        ne_eq, not_false_eq_true, List.filter_cons_of_pos, List.filterMap_cons]
      cases noteOf? first with
      | none => exact ih
      | some note => simp [List.lookup_cons, ih]

/-- The last variable that sets a note counts, wherever it stands among the others. -/
theorem lookup_environmentNotes_reverse {before after : List (String × String)} {value : String}
    (last : ∀ entry ∈ after, noteOf? entry.1 ≠ some key) :
    (environmentNotes (before ++ (name, value) :: after)).reverse.lookup key = some value := by
  have none : (environmentNotes after).reverse.lookup key = none := by
    rw [List.lookup_eq_none_iff]
    rintro ⟨note, given⟩ listed
    rw [List.mem_reverse, environmentNotes_eq, List.mem_filterMap] at listed
    obtain ⟨entry, member, set⟩ := listed
    obtain ⟨other, here, same⟩ := Option.map_eq_some_iff.mp set
    obtain ⟨rfl, -⟩ := Prod.mk.inj same
    refine bne_iff_ne.mpr ?_
    rintro rfl
    exact last entry member here
  rw [environmentNotes_eq] at none ⊢
  simp [sets, List.lookup_append, none]

theorem lookup_environmentNotes_withVariable (sources : Sources) (value : String) {other : String}
    (differ : other ≠ key) :
    (environmentNotes (sources.withVariable name value).inForce).reverse.lookup other =
      (environmentNotes sources.inForce).reverse.lookup other := by
  obtain ⟨before, after, whole, rest⟩ := sources.inForce_withVariable name value
  have dropped (vars : List (String × String)) :
      (environmentNotes (vars.filter fun entry => !(entry.1 == name))).reverse.lookup other =
        (environmentNotes vars).reverse.lookup other := by
    have backwards := environmentNotes_filter sets vars.reverse differ
    rwa [environmentNotes_eq, environmentNotes_eq, List.filter_reverse, List.filterMap_reverse,
      List.filterMap_reverse, ← environmentNotes_eq, ← environmentNotes_eq] at backwards
  rw [← dropped sources.inForce, rest, whole]
  simp [environmentNotes_eq, sets, List.lookup_append, List.lookup_cons, beq_false_of_ne differ]

end

/-- Variables that set no notes decide about everything but the notes. -/
theorem withVariables_congr (s : Settings) {vars others : List (String × String)}
    (same : ∀ name, noteOf? name = none → others.lookup name = vars.lookup name) :
    s.withVariables others =
      ({ (s.withVariables vars).1 with notes := s.notes.insertMany (environmentNotes others) },
        (s.withVariables vars).2) := by
  simp only [withVariables, same "PUSHQL_ENVIRONMENT" rfl, same "PUSHQL_LOG_LEVEL" rfl,
    same "PUSHQL_DIALECT" rfl, same "PUSHQL_CATALOG" rfl, same "PUSHQL_SCHEMA" rfl,
    same "PUSHQL_QUOTE_IDENTIFIERS" rfl, same "PUSHQL_CONCURRENCY" rfl]

/-- What the settings start from: the defaults, with the settings file if there is one. -/
def Sources.base (sources : Sources) : Except LoadError Settings :=
  match sources.file with
  | none => .ok {}
  | some (path, .error e) => .error (.unreadable path e)
  | some (path, .ok text) =>
    match ofFile? {} text with
    | some settings => .ok settings
    | none => .error (.notSettings path)

/-- The settings, if nothing is wrong with them. -/
def checked (settings : Settings) (problems : List Problem) : Except LoadError Settings :=
  match problems ++ settings.problems with
  | [] => .ok settings
  | problems => .error (.invalid problems)

theorem load_eq (sources : Sources) : load sources = sources.base >>= fun base =>
    checked (base.withVariables sources.inForce).1 (base.withVariables sources.inForce).2 := by
  unfold load Sources.base
  match sources.file with
  | none => rfl
  | some (path, .error e) => rfl
  | some (path, .ok text) =>
    dsimp only
    cases ofFile? {} text <;> rfl

theorem load_eq_ok {sources : Sources} {s : Settings} : load sources = .ok s ↔
    ∃ base, sources.base = .ok base ∧ checked (base.withVariables sources.inForce).1
      (base.withVariables sources.inForce).2 = .ok s := by
  rw [load_eq, bind_eq_ok]

theorem checked_withNotes {s t : Settings} {problems : List Problem}
    (sound : checked s problems = .ok t) (notes : Dictionary String String) :
    t = s ∧ checked { s with notes := notes } problems = .ok { s with notes := notes } := by
  unfold checked at sound ⊢
  have same : Settings.problems { s with notes := notes } = s.problems := rfl
  rw [same]
  split at sound
  · exact ⟨(Except.ok.inj sound).symm, rfl⟩
  · exact nomatch sound

/-- A variable that sets a note changes this note and no other setting. -/
theorem load_withVariable {name key : String} (sets : noteOf? name = some key) {sources : Sources}
    {s : Settings} (loads : load sources = .ok s)
    (alone : ∀ entry ∈ sources.inForce, noteOf? entry.1 = some key → entry.1 = name)
    (value : String) :
    ∃ t, load (sources.withVariable name value) = .ok t ∧ t.notes.get? key = some value ∧
      (∀ other ≠ key, t.notes.get? other = s.notes.get? other) ∧ t = { s with notes := t.notes } := by
  obtain ⟨base, read, sound⟩ := load_eq_ok.mp loads
  have others (other : String) (plain : noteOf? other = none) :
      (sources.withVariable name value).inForce.lookup other = sources.inForce.lookup other := by
    refine lookup_withVariable sources ?_ value
    rintro rfl
    rw [plain] at sets
    exact nomatch sets
  let notes := base.notes.insertMany (environmentNotes (sources.withVariable name value).inForce)
  obtain ⟨rfl, sound'⟩ := checked_withNotes sound notes
  refine ⟨{ (base.withVariables sources.inForce).1 with notes := notes }, ?_, ?_, ?_, rfl⟩
  · refine load_eq_ok.mpr ⟨base, read, ?_⟩
    rw [withVariables_congr base others]
    exact sound'
  · obtain ⟨before, after, whole, rest⟩ := sources.inForce_withVariable name value
    have last : ∀ entry ∈ after, noteOf? entry.1 ≠ some key := by
      intro entry member set
      have listed : entry ∈ sources.inForce.filter fun entry => !(entry.1 == name) := by
        rw [rest]
        exact List.mem_append_right before member
      obtain ⟨counted, differs⟩ := List.mem_filter.mp listed
      simp [alone entry counted set] at differs
    rw [Dictionary.get?_insertMany, whole, lookup_environmentNotes_reverse sets last]
    rfl
  · intro other differ
    have given : (base.withVariables sources.inForce).1.notes =
        base.notes.insertMany (environmentNotes sources.inForce) := rfl
    rw [given, Dictionary.get?_insertMany, Dictionary.get?_insertMany,
      lookup_environmentNotes_withVariable sets sources value differ]

/-- The names of variables for notes invert camel case: a key is read back from the name of its
variable, which sets the note and nothing else, and no other key has the same variable. -/
theorem note_variables_invert_camel_case {key : String} (camel : isCamel key) :
    noteKey (upperSnake key) = key ∧
    (∀ (sources : Sources) (s : Settings) (value : String), load sources = .ok s →
      (∀ entry ∈ sources.inForce, noteOf? entry.1 = some key → entry.1 = noteVariable key) →
      ∃ t, load (sources.withVariable (noteVariable key) value) = .ok t ∧
        t.notes.get? key = some value ∧
        (∀ other ≠ key, t.notes.get? other = s.notes.get? other) ∧
        t = { s with notes := t.notes }) ∧
    ∀ other, isCamel other → noteVariable other = noteVariable key → other = key := by
  refine ⟨?_, ?_, ?_⟩
  · simp only [isCamel, Bool.and_eq_true, List.all_eq_true] at camel
    exact noteKey_upperSnake camel.2
  · intro sources s value loads alone
    exact load_withVariable (noteOf?_noteVariable camel) loads alone value
  · intro other camel' same
    have sets := noteOf?_noteVariable camel'
    rw [same, noteOf?_noteVariable camel] at sets
    exact (Option.some.inj sets).symm

/-- A key with single letters and a digit, whose variable takes the place of a former one. -/
theorem note_variables_invert_camel_case_httpPort :
    let sources : Sources := { environment := [("PUSHQL_DIALECT", "MYSQL"),
      ("PUSHQL_NOTE_XML_H_T_T_P_PORT2", "80"), ("PUSHQL_NOTE_CATALOG_SEPARATOR", ".")] }
    noteVariable "xmlHTTPPort2" = "PUSHQL_NOTE_XML_H_T_T_P_PORT2" ∧
      noteKey "XML_H_T_T_P_PORT2" = "xmlHTTPPort2" ∧
      ∃ t, load (sources.withVariable (noteVariable "xmlHTTPPort2") "8080") = .ok t ∧
        t.notes.get? "xmlHTTPPort2" = some "8080" ∧
        t.notes.get? "catalogSeparator" = some "." ∧ t.dialect = "MYSQL" := by
  intro sources
  obtain ⟨inverted, set, -⟩ := @note_variables_invert_camel_case "xmlHTTPPort2" (by decide)
  let s : Settings := { dialect := "MYSQL"
                        notes := .ofList [("xmlHTTPPort2", "80"), ("catalogSeparator", ".")] }
  have given : withVariables {} sources.inForce = (s, []) := rfl
  have sound : s.problems = [] := by decide
  have loads : load sources = .ok s := by
    refine load_eq_ok.mpr ⟨{}, rfl, ?_⟩
    simp [given, checked, sound]
  obtain ⟨t, loads', found, others, same⟩ := set sources s "8080" loads (by decide)
  refine ⟨by decide, inverted, t, loads', found, ?_, ?_⟩
  · rw [others _ (by decide)]
    rfl
  · rw [same]

end Settings

end Pushdown
