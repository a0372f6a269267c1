import Pushdown.Proofs.Dialect.Readable
import Pushdown.Proofs.Text.Case

/-!
# Names read back as written

A name between quotes ends at the first closing mark that is not doubled. Closing marks inside of
the name are doubled when it is written, but marks of several characters could still overlap with
the mark at the end. They do not if no part of the mark is both its beginning and its end; then
every name is read back, whatever it consists of. A name without quotes stands for itself only if
the dialect neither reserves it nor folds it to another case.
-/

namespace Pushdown

/-! ## Reading a name between quotes -/

/-- The name in front of the first closing mark that is not doubled, and what follows that mark. A
doubled mark stands for a single one. -/
def undouble? (mark : List Char) : List Char → Option (List Char × List Char)
  | [] => none
  | c :: cs =>
    if mark.isPrefixOf (c :: cs) then
      let behind := cs.drop (mark.length - 1)
      if mark.isPrefixOf behind then
        (undouble? mark (behind.drop mark.length)).map fun (name, rest) => (mark ++ name, rest)
      else some ([], behind)
    else (undouble? mark cs).map fun (name, rest) => (c :: name, rest)
termination_by cs => cs.length

/-- The name at the start of a text, from its opening to its closing mark, and what follows. -/
def Profile.unquote? (p : Profile) (text : String) : Option (String × String) :=
  if p.quoteOpen.toList.isPrefixOf text.toList then
    (undouble? p.quoteClose.toList (text.toList.drop p.quoteOpen.toList.length)).map
      fun (name, rest) => (String.ofList name, String.ofList rest)
  else none

/-- No part of the mark but the whole is both its beginning and its end. -/
structure Borderless (mark : List Char) : Prop where
  nonempty : mark ≠ []
  whole : ∀ part, part ≠ [] → part <+: mark → part <:+ mark → part = mark

section

variable {mark : List Char}

/-! One equation for each way to go on in a text: with a doubled mark, with a mark that ends the
name, and with any other character. -/

theorem undouble?_mark_mark (nonempty : mark ≠ []) (cs : List Char) :
    undouble? mark (mark ++ (mark ++ cs)) =
      (undouble? mark cs).map fun (name, rest) => (mark ++ name, rest) := by
  obtain ⟨c, tail, rfl⟩ := List.exists_cons_of_ne_nil nonempty
  rw [List.cons_append, undouble?]
  simp

theorem undouble?_mark (nonempty : mark ≠ []) {rest : List Char} (ends : ¬ mark <+: rest) :
    undouble? mark (mark ++ rest) = some ([], rest) := by
  obtain ⟨c, tail, rfl⟩ := List.exists_cons_of_ne_nil nonempty
  rw [List.cons_append, undouble?]
  simp [ends]

theorem undouble?_cons {c : Char} {cs : List Char} (other : ¬ mark <+: c :: cs) :
    undouble? mark (c :: cs) = (undouble? mark cs).map fun (name, rest) => (c :: name, rest) := by
  rw [undouble?]
  simp [other]

theorem doubleMark_skip (skip : Nat) (cs : List Char) :
    doubleMark mark skip cs = doubleMark mark 0 (cs.drop skip) := by
  induction skip generalizing cs with
  | zero => rfl
  | succ skip ih =>
    cases cs with
    | nil => simp [doubleMark]
    | cons c cs => rw [doubleMark, ih, List.drop_succ_cons]

theorem doubleMark_mark (nonempty : mark ≠ []) (cs : List Char) :
    doubleMark mark 0 (mark ++ cs) = mark ++ (mark ++ doubleMark mark 0 cs) := by
  obtain ⟨c, tail, rfl⟩ := List.exists_cons_of_ne_nil nonempty
  rw [List.cons_append, doubleMark, doubleMark_skip]
  simp

theorem doubleMark_cons {c : Char} {cs : List Char} (other : ¬ mark <+: c :: cs) :
    doubleMark mark 0 (c :: cs) = c :: doubleMark mark 0 cs := by
  rw [doubleMark]
  simp [other]

/-- A written name starts with characters of the name, up to a mark: the first one of the name, or
the closing one. -/
theorem exists_front {name : List Char} (nonempty : name ≠ []) (marked : mark ≠ [])
    (other : ¬ mark <+: name) (rest : List Char) :
    ∃ front behind, front ≠ [] ∧ front <+: name ∧
      doubleMark mark 0 name ++ (mark ++ rest) = front ++ (mark ++ behind) := by
  induction name with
  | nil => contradiction
  | cons c cs ih =>
    rw [doubleMark_cons other]
    by_cases last : cs = []
    · subst last
      exact ⟨[c], rest, by simp, List.prefix_rfl, rfl⟩
    by_cases next : mark <+: cs
    · obtain ⟨more, rfl⟩ := next
      rw [doubleMark_mark marked]
      exact ⟨[c], mark ++ doubleMark mark 0 more ++ (mark ++ rest), by simp, by simp, by simp⟩
    · obtain ⟨front, behind, -, ⟨more, rfl⟩, same⟩ := ih last next
      exact ⟨c :: front, behind, by simp, by simp, by simp [same]⟩

/-- A mark does not start earlier than where the first mark stands. -/
theorem Borderless.not_prefix (borderless : Borderless mark) {name front : List Char}
    (other : ¬ mark <+: name) (nonempty : front ≠ []) (inside : front <+: name)
    (behind : List Char) : ¬ mark <+: front ++ (mark ++ behind) := by
  rintro ⟨after, same⟩
  rcases List.append_eq_append_iff.mp same with ⟨more, split, -⟩ | ⟨part, split, starts⟩
  · exact other (List.IsPrefix.trans ⟨more, split.symm⟩ inside)
  -- The mark would reach into the next one: what it takes from there is a border.
  have shorter : part.length < mark.length := by
    have := List.length_pos_iff.mpr nonempty
    have := congrArg List.length split
    rw [List.length_append] at this
    omega
  have begins : part <+: mark := by
    apply List.prefix_of_prefix_length_le ⟨after, starts.symm⟩ (List.prefix_append ..)
    exact Nat.le_of_lt shorter
  by_cases none : part = []
  · subst none
    rw [List.append_nil] at split
    exact other (split ▸ inside)
  · have ends : part <:+ mark := ⟨front, split.symm⟩
    have same := borderless.whole part none begins ends
    rw [same] at shorter
    exact absurd shorter (Nat.lt_irrefl _)

/-- A written name is read back, and so is what stands behind it. -/
theorem undouble?_doubleMark (borderless : Borderless mark) (name : List Char)
    {rest : List Char} (ends : ¬ mark <+: rest) :
    undouble? mark (doubleMark mark 0 name ++ (mark ++ rest)) = some (name, rest) := by
  have marked := borderless.nonempty
  by_cases doubled : mark <+: name
  · obtain ⟨more, split⟩ := doubled
    have shorter : more.length < name.length := by
      have := List.length_pos_iff.mpr marked
      rw [← split, List.length_append]
      omega
    have later := undouble?_doubleMark borderless more ends
    rw [← split, doubleMark_mark marked, List.append_assoc, List.append_assoc,
      undouble?_mark_mark marked, later]
    rfl
  cases name with
  | nil => exact undouble?_mark marked ends
  | cons c cs =>
    have later := undouble?_doubleMark borderless cs ends
    obtain ⟨front, behind, nonempty, inside, same⟩ :=
      exists_front (List.cons_ne_nil c cs) marked doubled rest
    have inName := borderless.not_prefix doubled nonempty inside behind
    rw [← same, doubleMark_cons doubled, List.cons_append] at inName
    rw [doubleMark_cons doubled, List.cons_append, undouble?_cons inName, later]
    rfl
termination_by name.length
decreasing_by
  · exact shorter
  · exact Nat.lt_succ_self _

theorem length_le_doubleMark (nonempty : mark ≠ []) (name : List Char) :
    name.length ≤ (doubleMark mark 0 name).length := by
  by_cases doubled : mark <+: name
  · obtain ⟨more, split⟩ := doubled
    have := List.length_pos_iff.mpr nonempty
    have shorter : more.length < name.length := by
      rw [← split, List.length_append]
      omega
    have later := length_le_doubleMark nonempty more
    simp only [← split, doubleMark_mark nonempty, List.length_append]
    omega
  cases name with
  | nil => exact Nat.le_refl _
  | cons c cs =>
    have later := length_le_doubleMark nonempty cs
    rw [doubleMark_cons doubled]
    exact Nat.succ_le_succ later
termination_by name.length
decreasing_by
  · exact shorter
  · exact Nat.lt_succ_self _

end

namespace Profile

variable {p : Profile}

theorem unquote?_quotedName (borderless : Borderless p.quoteClose.toList) (name : String)
    {rest : String} (ends : ¬ p.quoteClose.toList <+: rest.toList) :
    p.unquote? (p.quotedName name ++ rest) = some (name, rest) := by
  have text : (p.quotedName name ++ rest).toList = p.quoteOpen.toList ++
      (doubleMark p.quoteClose.toList 0 name.toList ++ (p.quoteClose.toList ++ rest.toList)) := by
    simp [quotedName]
  rw [unquote?, text, if_pos (by simp), List.drop_left, undouble?_doubleMark borderless _ ends]
  simp

theorem quotedName_ne_self (marked : p.quoteClose ≠ "") (name : String) :
    p.quotedName name ≠ name := by
  intro same
  have marked : p.quoteClose.toList ≠ [] := by simpa using marked
  have longer := length_le_doubleMark marked name.toList
  have := List.length_pos_iff.mpr marked
  have lengths := congrArg (·.toList.length) same
  simp only [quotedName, String.toList_append, String.toList_ofList, List.length_append] at lengths
  omega

end Profile

/-! ## Names without quotes -/

/-- A letter followed by letters, digits and underscores, all of them ASCII. -/
def IsWord (name : String) : Prop :=
  ∃ first rest, name.toList = first :: rest ∧ first.isAlpha ∧
    ∀ c ∈ rest, c.isAlphanum ∨ c = '_'

theorem isRegularName_iff {name : String} : isRegularName name.toList ↔ IsWord name := by
  unfold IsWord
  cases name.toList with
  | nil => simp [isRegularName]
  | cons first rest => simp [isRegularName, and_assoc]

namespace Profile

/-- What a name has to be so that it stands for itself without quotes. -/
structure ReadsBare (p : Profile) (name : String) : Prop where
  word : IsWord name
  /-- It is not reserved in any letter case. -/
  free : ∀ reserved ∈ p.reserved, Text.upper reserved ≠ Text.upper name
  caseless : p.identifierCase ≠ .sensitive
  folded : p.fold name = name

variable {p : Profile} {name : String}

theorem needsQuotes_eq_false_iff (capital : ∀ word ∈ p.reserved, Text.upper word = word) :
    p.needsQuotes name = false ↔ p.ReadsBare name := by
  constructor
  · intro bare
    obtain ⟨regular, free, folded⟩ := bare_of_needsQuotes bare
    refine ⟨isRegularName_iff.mp regular, ?_, ?_, folded⟩
    · intro word member same
      rw [capital word member] at same
      exact free (same ▸ member)
    · intro sensitive
      simp [needsQuotes, sensitive] at bare
  · rintro ⟨word, free, caseless, folded⟩
    have regular := isRegularName_iff.mpr word
    have free : Text.upper name ∉ p.reserved := by
      intro member
      exact free _ member (capital _ member)
    unfold fold at folded
    rw [needsQuotes, if_neg (by simp [caseless, regular]), if_neg (by simpa using free)]
    split <;> simp_all

theorem writeName_eq_or (name : String) (always : Bool) :
    p.writeName always name = p.quotedName name ∨ p.writeName always name = name := by
  rw [writeName]
  split
  · exact .inl rfl
  · exact .inr rfl

theorem writeName_eq_self_iff (marked : p.quoteClose ≠ "") (always : Bool) :
    p.writeName always name = name ↔ always = false ∧ p.needsQuotes name = false := by
  rw [writeName]
  split
  · rename_i quoted
    have : ¬ (always = false ∧ p.needsQuotes name = false) := by
      rintro ⟨rfl, bare⟩
      simp [bare] at quoted
    simp only [quotedName_ne_self marked, this]
  · rename_i bare
    simpa using bare

end Profile

namespace Builtin

variable (b : Builtin) (notes : Notes)

theorem quoteClose_ne_empty : (b.build notes).profile.quoteClose ≠ "" := by
  cases b with
  | generic =>
    simp only [build, genericProfile]
    split
    · decide
    · rename_i named
      intro empty
      rw [empty] at named
      exact named (by decide)
  | bigQuery | mySql => exact (by decide : String.singleton (Char.ofNat 0x60) ≠ "")
  | sqlServer => exact (by decide : "]" ≠ "")
  | exasol | oracle | postgreSql | sqlite => exact (by decide : "\"" ≠ "")

theorem standardReserved_capital : ∀ word ∈ standardReserved, Text.upper word = word := by
  have letters : standardReserved.all fun word =>
      word.toList.all fun c => Text.upperChar c == c := by decide +kernel
  intro word member
  refine Text.upper_of_forall fun c inside => ?_
  exact eq_of_beq (List.all_eq_true.mp (List.all_eq_true.mp letters word member) c inside)

theorem reservedWords_capital {extra : List String}
    (ascii : extra.all fun word => word.toList.all Text.isAscii) :
    ∀ word ∈ reservedWords extra, Text.upper word = word := by
  intro word member
  rw [reservedWords, List.mem_eraseDups, List.mem_append, List.mem_map] at member
  rcases member with member | ⟨given, member, rfl⟩
  · exact standardReserved_capital word member
  · have letters := List.all_eq_true.mp (List.all_eq_true.mp ascii given member)
    rw [Text.upperFully_of_ascii letters, Text.upper_upper]

/-- Reserved words are listed in capital letters. -/
theorem reserved_capital : ∀ word ∈ (b.build notes).profile.reserved, Text.upper word = word := by
  cases b with
  | bigQuery | exasol | generic => exact standardReserved_capital
  | mySql | oracle | postgreSql | sqlite | sqlServer =>
    simp only [build, mySqlProfile, oracleProfile, postgreSqlProfile, sqliteProfile,
      sqlServerProfile]
    exact reservedWords_capital (by decide +kernel)

theorem writeName_eq_self_iff (always : Bool) (name : String) :
    let p := (b.build notes).profile
    p.writeName always name = name ↔ always = false ∧ p.ReadsBare name := by
  intro p
  rw [Profile.writeName_eq_self_iff (b.quoteClose_ne_empty notes),
    Profile.needsQuotes_eq_false_iff (b.reserved_capital notes)]

end Builtin

/-- Names read back as they are written. Whatever a name consists of, it is read back from between
its quotes, if the closing quote cannot overlap with itself. A built-in dialect writes each name
between quotes or as it is, and as it is only where the dialect reads it as itself. -/
theorem names_read_back :
    (∀ (p : Profile) (name rest : String), Borderless p.quoteClose.toList →
      ¬ p.quoteClose.toList <+: rest.toList →
      p.unquote? (p.quotedName name ++ rest) = some (name, rest)) ∧
    ∀ (b : Builtin) (notes : Notes) (always : Bool) (name : String),
      let p := (b.build notes).profile
      (p.writeName always name = p.quotedName name ∨ p.writeName always name = name) ∧
      (p.writeName always name = name ↔ always = false ∧ p.ReadsBare name) := by
  constructor
  · intro p name rest borderless ends
    exact Profile.unquote?_quotedName borderless name ends
  · intro b notes always name
    exact ⟨Profile.writeName_eq_or name always, b.writeName_eq_self_iff notes always name⟩

/-- A profile whose marks have two characters. -/
def arrowQuotes : Profile := { quoteOpen := "<!", quoteClose := "!>" }

theorem arrowQuotes_borderless : Borderless arrowQuotes.quoteClose.toList := by
  refine ⟨by decide, fun part nonempty begins ends => ?_⟩
  change part <+: ['!', '>'] at begins
  simp only [List.prefix_cons_iff, List.prefix_nil] at begins
  rcases begins with rfl | ⟨_, rfl, rfl | ⟨_, rfl, rfl⟩⟩
  · contradiction
  · exact absurd ends (by decide)
  · rfl

/-- A name made of marks, with half a mark at its end and behind it. -/
theorem names_read_back_between_arrows :
    Borderless arrowQuotes.quoteClose.toList ∧ ¬ arrowQuotes.quoteClose.toList <+: "! x".toList ∧
      arrowQuotes.quotedName "!>!>a!" = "<!!>!>!>!>a!!>" ∧
      arrowQuotes.unquote? (arrowQuotes.quotedName "!>!>a!" ++ "! x") = some ("!>!>a!", "! x") :=
  ⟨arrowQuotes_borderless, by decide, rfl,
    names_read_back.1 arrowQuotes "!>!>a!" "! x" arrowQuotes_borderless (by decide)⟩

end Pushdown
