import Mathlib.Data.List.SplitBy
import Pushdown.Proofs.Request.Meaning
import Pushdown.Proofs.Text.Decimal

/-!
# Places in a document

A path is followed from a document through the members of objects and the elements of arrays. It
points into the document if each of its steps is taken from a value that has a place for it: the
last step may name a member that is missing, but no other step may. The text of a path reads back
as its steps.
-/

namespace Pushdown

/-! ## Values on the way -/

namespace Json

/-- The value one step inside a value. Of several members of one name the last counts. -/
def step? (s : Source) : Step → Option Source
  | .member name => if isNull s then none else (members? s).bind (·.reverse.lookup name)
  | .index position => if isNull s then none else (elements? s).bind (·[position]?)

/-- The value at the end of a path. -/
def at? (s : Source) (path : Path) : Option Source := path.foldlM step? s

/-- The value has a place for the step: an object for every member, an array for its elements. -/
def HasPlace (s : Source) : Step → Prop
  | .member _ => ∃ members, IsObject s members
  | .index position => ∃ elements, IsArray s elements ∧ position < elements.length

/-- Every step of the path is taken from a value that has a place for it. -/
def PointsInto (document : Source) (path : Path) : Prop :=
  ∀ front step behind, path = front ++ step :: behind →
    ∃ v, at? document front = some v ∧ HasPlace v step

variable {document s v : Source} {path : Path} {step : Step}

theorem at?_concat : at? document (path ++ [step]) = (at? document path).bind (step? · step) := by
  simp only [at?, List.foldlM_append, List.foldlM_cons, List.foldlM_nil, bind_pure]
  rfl

theorem IsObject.step? {members : List (String × Source)} (h : IsObject s members) (name : String) :
    step? s (.member name) = members.reverse.lookup name := by
  simp [Json.step?, h.1, h.2]

theorem IsArray.step? {elements : List Source} (h : IsArray s elements) (position : Nat) :
    step? s (.index position) = elements[position]? := by
  simp [Json.step?, h.1, h.2]

theorem PointsInto.nil : PointsInto document [] := by
  intro front step behind same
  simp at same

/-- A path goes on from the value at its end. -/
theorem PointsInto.concat (h : PointsInto document path) (found : at? document path = some v)
    (place : HasPlace v step) : PointsInto document (path ++ [step]) := by
  intro front other behind same
  rcases List.eq_nil_or_concat behind with rfl | ⟨behind, last, rfl⟩
  · obtain ⟨rfl, rfl⟩ := List.append_inj' same rfl |>.imp_right List.singleton_inj.mp
    exact ⟨v, found, place⟩
  · rw [List.concat_eq_append, ← List.cons_append, ← List.append_assoc] at same
    exact h front other behind (List.append_inj' same rfl).1

/-- A document that is not an object has no place for a member. -/
theorem not_pointsInto_of_isNull (null : isNull document) {name : String} :
    ¬ PointsInto document [.member name] := by
  intro h
  obtain ⟨v, found, members, object⟩ := h [] _ [] rfl
  obtain rfl := Option.some.inj found
  exact absurd null (by simp [object.1])

end Json

/-! ## Texts of paths -/

namespace Path

/-- The characters that a step starts with, where it is not the first one. -/
def isMark (c : Char) : Bool := c == '.' || c == '['

/-- A step from its characters. -/
def readStep? : List Char → Option Step
  | '.' :: name => if name.isEmpty then none else some (.member (String.ofList name))
  | '[' :: position =>
    match position.reverse with
    | ']' :: digits =>
      if digits.isEmpty then none else (Text.readDigits? 10 digits.reverse).map .index
    | _ => none
  | _ => none

/-- The text of a path with a mark in front of its first step too. -/
def marked : List Char → List Char
  | [] => []
  | c :: rest => if c == '[' then c :: rest else '.' :: c :: rest

/-- A path from its text. A new step starts at every mark. -/
def read? (text : String) : Option Path :=
  ((marked text.toList).splitBy fun _ c => !isMark c).mapM readStep?

end Path

/-- The name of a member, if it is one, has no mark in it. -/
def Step.isPlain : Step → Bool
  | .member name => !name.toList.isEmpty && name.toList.all fun c => !Path.isMark c
  | .index _ => true

namespace Path

variable {path : Path} {step : Step}

/-- The characters of a step behind another one. -/
def chars (step : Step) : List Char := (stepText false step).toList

theorem chars_member (name : String) : chars (.member name) = '.' :: name.toList := by
  simp [chars, stepText]

theorem chars_index (position : Nat) :
    chars (.index position) = '[' :: (Nat.toDigits 10 position ++ [']']) := by
  simp [chars, stepText, toString, Nat.toList_repr]

theorem isDigit_of_mem {position : Nat} {c : Char} (member : c ∈ Nat.toDigits 10 position) :
    c.isDigit :=
  Nat.isDigit_of_mem_toDigits (by decide) (by decide) member

/-- A step starts with a mark and has no other one. -/
theorem exists_chars_eq (plain : step.isPlain) :
    ∃ mark cs, chars step = mark :: cs ∧ isMark mark ∧ ∀ c ∈ cs, isMark c = false := by
  cases step with
  | member name =>
    simp only [Step.isPlain, Bool.and_eq_true, List.all_eq_true, Bool.not_eq_true'] at plain
    exact ⟨'.', name.toList, chars_member name, rfl, plain.2⟩
  | index position =>
    refine ⟨'[', _, chars_index position, rfl, fun c member => ?_⟩
    rcases List.mem_append.mp member with digit | closing
    · have digit := isDigit_of_mem digit
      by_contra mark
      simp only [isMark, Bool.not_eq_false, Bool.or_eq_true, beq_iff_eq] at mark
      rcases mark with rfl | rfl <;> simp at digit
    · simp [List.mem_singleton.mp closing, isMark]

theorem readStep?_chars (plain : step.isPlain) : readStep? (chars step) = some step := by
  cases step with
  | member name =>
    simp only [Step.isPlain, Bool.and_eq_true, Bool.not_eq_true'] at plain
    simp [chars_member, readStep?, plain.1]
  | index position =>
    have value := Text.readDigits?_eq fun c member => @isDigit_of_mem position c member
    simp [chars_index, readStep?, value, Nat.ofDigitChars_toDigits]

theorem toList_text (first : Step) (rest : Path) :
    (text (first :: rest)).toList =
      (stepText true first).toList ++ (rest.map chars).flatten := by
  simp only [text, String.toList_append, String.toList_join, List.flatMap_map]
  rfl

/-- A step starts at every mark. -/
theorem splitBy_chars (plain : ∀ step ∈ path, step.isPlain) :
    ((path.map chars).flatten.splitBy fun _ c => !isMark c) = path.map chars := by
  have starts : ∀ cs ∈ path.map chars, ∃ mark rest, cs = mark :: rest ∧ isMark mark ∧
      ∀ c ∈ rest, isMark c = false := by
    intro cs listed
    obtain ⟨step, member, rfl⟩ := List.mem_map.mp listed
    exact exists_chars_eq (plain step member)
  refine List.splitBy_flatten (fun empty => ?_) (fun cs listed => ?_) ?_
  · obtain ⟨mark, rest, same, -⟩ := starts [] empty
    simp at same
  · obtain ⟨mark, rest, rfl, -, others⟩ := starts cs listed
    refine List.Pairwise.isChain (List.pairwise_cons.mpr ⟨fun c member => ?_, ?_⟩)
    · simp [others c member]
    · exact List.pairwise_of_forall_mem_list fun _ _ c member => by simp [others c member]
  · refine List.Pairwise.isChain (List.pairwise_of_forall_mem_list fun cs listed ds listed' => ?_)
    obtain ⟨mark, rest, rfl, -⟩ := starts cs listed
    obtain ⟨mark', rest', rfl, marked, -⟩ := starts ds listed'
    exact ⟨by simp, by simp, by simp [marked]⟩

theorem mapM_readStep? (plain : ∀ step ∈ path, step.isPlain) :
    (path.map chars).mapM readStep? = some path := by
  induction path with
  | nil => rfl
  | cons step path ih =>
    obtain ⟨first, others⟩ := List.forall_mem_cons.mp plain
    simp [readStep?_chars first, ih others]

theorem marked_text (plain : ∀ step ∈ path, step.isPlain) :
    marked path.text.toList = (path.map chars).flatten := by
  cases path with
  | nil => rfl
  | cons first rest =>
    rw [toList_text, List.map_cons, List.flatten_cons]
    cases first with
    | member name =>
      have plainName := plain _ (List.mem_cons_self ..)
      simp only [Step.isPlain, Bool.and_eq_true, List.all_eq_true, Bool.not_eq_true'] at plainName
      obtain ⟨full, unmarked⟩ := plainName
      cases same : name.toList with
      | nil => simp [same] at full
      | cons c cs =>
        have other : c ≠ '[' := by
          rintro rfl
          simpa [isMark] using unmarked '[' (by simp [same])
        simp [stepText, chars_member, same, marked, other]
    | index position => simp [stepText, chars_index, toString, Nat.toList_repr, marked]

/-- The text of a path with plain steps tells its steps. -/
theorem read?_text (plain : ∀ step ∈ path, step.isPlain) : read? path.text = some path := by
  rw [read?, marked_text plain, splitBy_chars plain, mapM_readStep? plain]

end Path

end Pushdown
