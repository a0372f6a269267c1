import Mathlib.Data.List.TakeWhile
import Mathlib.Logic.Relation
import Pushdown.Proofs.Dictionary
import Pushdown.Proofs.Request.Agreement

/-!
# What a request means

`Edit` lists what may be changed in the text of a request without a change of what the request says:
the order of members, members that do not count, members that are `null`, and whether an object of
texts is written as such or as a string that holds it. The members of an edited object agree with
those before, so the object reads the same, and with it everything around it.
-/

namespace Pushdown

/-! ## Texts of objects and arrays -/

namespace Json

/-- The text is that of an object with these members. -/
def IsObject (s : Source) (members : List (String × Source)) : Prop :=
  isNull s = false ∧ members? s = some members

instance {s : Source} {members : List (String × Source)} : Decidable (IsObject s members) :=
  inferInstanceAs (Decidable (_ ∧ _))

/-- A document that is given by its characters. -/
theorem IsObject.ofList {text : String} {cs : List Char} {members : List (String × Source)}
    (same : text = String.ofList cs)
    (object : IsObject (cs.takeWhile (· != Char.ofNat 0)) members) :
    IsObject (content text) members := by
  simpa [content, same] using object

theorem IsObject.read {s : Source} {members : List (String × Source)} (h : IsObject s members)
    (path : Path) : Object.read path s = .ok ⟨path, .ofList members⟩ :=
  Object.read_eq_ok.mpr ⟨members, h.1, h.2, rfl⟩

/-- The text is that of an array with these elements. -/
def IsArray (s : Source) (elements : List Source) : Prop :=
  isNull s = false ∧ elements? s = some elements

end Json

/-- Something stands in the slot that cannot be read there. -/
def Slot.Misfit (slot : Slot) (s : Json.Source) : Prop :=
  Json.isNull s = false ∧
    match slot with
    | scalar => Json.NoScalar s
    | texts => Json.texts? s = none
    | one _ => Json.members? s = none
    | many _ => Json.elements? s = none

/-- The object with these members, wherever it stands. -/
def Object.holding (members : List (String × Json.Source)) : Object := { members := .ofList members }

/-! ## Edits -/

/-- The second text differs from the first, in the slot, by a change that does not count. -/
inductive Edit : Slot → Json.Source → Json.Source → Prop
  /-- Members change places, except those of one name among each other. -/
  | reorder {role : Role} {s t : Json.Source} {ms ms' : List (String × Json.Source)}
      (left : Json.IsObject s ms) (right : Json.IsObject t ms')
      (same : ∀ member ∈ ms ++ ms', ms.filter (·.1 = member.1) = ms'.filter (·.1 = member.1)) :
      Edit (.one role) s t
  /-- Members that do not count are added, removed or replaced. -/
  | unknown {role : Role} {s t : Json.Source} {before old new after : List (String × Json.Source)}
      (left : Json.IsObject s (before ++ old ++ after))
      (right : Json.IsObject t (before ++ new ++ after))
      (unknown : ∀ member ∈ (Object.holding (before ++ old ++ after)).membersAs role,
        ∀ other ∈ old ++ new, other.1 ≠ member.1) : Edit (.one role) s t
  /-- A member is added that is `null`, and takes the place of no other. -/
  | null {role : Role} {s t v : Json.Source} {name : String}
      {before after : List (String × Json.Source)} (left : Json.IsObject s (before ++ after))
      (right : Json.IsObject t (before ++ (name, v) :: after))
      (null : Json.isNull v) (fresh : ∀ member ∈ before, member.1 ≠ name) : Edit (.one role) s t
  /-- A member is edited, in the slot that it has. -/
  | member {role : Role} {s t v v' : Json.Source} {key : String} {slot : Slot}
      {before after : List (String × Json.Source)}
      (left : Json.IsObject s (before ++ (key, v) :: after))
      (right : Json.IsObject t (before ++ (key, v') :: after))
      (only : ∀ member ∈ (Object.holding (before ++ (key, v) :: after)).membersAs role,
        member.1 = key → member.2 = slot)
      (inner : Edit slot v v') : Edit (.one role) s t
  /-- An element of an array is edited. -/
  | element {role : Role} {s t e e' : Json.Source} {before after : List Json.Source}
      (left : Json.IsArray s (before ++ e :: after)) (right : Json.IsArray t (before ++ e' :: after))
      (inner : Edit (.one role) e e') : Edit (.many role) s t
  /-- A string that holds an object is replaced by the object. -/
  | held {s t : Json.Source} {text : String} (left : Json.string? s = some text)
      (right : text.toList = t) (object : t.head? = some '{') : Edit .texts s t
  /-- What cannot be read is replaced by something else that cannot be read. -/
  | misfit {slot : Slot} {s t : Json.Source} (left : slot.Misfit s) (right : slot.Misfit t) :
      Edit slot s t

/-! ## Members of an object -/

namespace Json

theorem isNull_cons {c : Char} {cs : List Char} (visible : Text.isBlank c = false) (other : c ≠ 'n') :
    isNull (c :: cs) = false := by
  have trimmed : ∃ rest, Text.trimChars (c :: cs) = c :: rest := by
    unfold Text.trimChars Text.trimWhile
    rw [List.dropWhile_cons_of_neg (by simp [visible]), List.reverse_cons, List.dropWhile_append]
    split
    · exact ⟨[], by simp [visible]⟩
    · exact ⟨(cs.reverse.dropWhile Text.isBlank).reverse, by simp⟩
  obtain ⟨rest, trimmed⟩ := trimmed
  simp [isNull, trimmed, other]

theorem exists_cons_of_string? {s : Source} {text : String} (h : string? s = some text) :
    ∃ rest, s = '"' :: rest := by
  unfold string? at h
  split at h
  · exact ⟨_, rfl⟩
  · simp at h

end Json

/-- What is edited is present before and after. -/
theorem Edit.present {slot : Slot} {s t : Json.Source} (h : Edit slot s t) :
    Json.isNull s = false ∧ Json.isNull t = false := by
  cases h with
  | reorder left right | unknown left right | null left right | member left right
  | element left right | misfit left right => exact ⟨left.1, right.1⟩
  | held left right object =>
    obtain ⟨rest, rfl⟩ := Json.exists_cons_of_string? left
    obtain ⟨rest', rfl⟩ := List.head?_eq_some_iff.mp object
    exact ⟨Json.isNull_cons rfl (by decide), Json.isNull_cons rfl (by decide)⟩

namespace Object

theorem source?_holding (members : List (String × Json.Source)) (key : String) :
    (holding members).source? key =
      (members.reverse.lookup key).filter fun source => !Json.isNull source := by
  rw [← Dictionary.get?_ofList]
  rfl

end Object

/-! ## Edits do not change what is read -/

theorem Role.Agree.refl (role : Role) (o : Object) : role.Agree o o := by
  cases role with
  | request | schema | table | column | dataType | frame | bound => rfl
  | statement | expression | sortKey => exact fun _ _ _ => rfl
  | fromItem => exact fun _ _ _ _ => rfl
  | selectItem => exact ⟨fun _ _ _ => rfl, rfl⟩
  | limit => exact ⟨.rfl, rfl, rfl⟩

theorem Role.AgreeIn.refl (role : Role) (s : Json.Source) : role.AgreeIn s s := by
  intro path
  unfold Read.Both
  cases (Object.read path s).toOption with
  | none => exact .none
  | some o => exact .some (Role.Agree.refl role o)

theorem Slot.Agree.refl (slot : Slot) (s : Json.Source) : slot.Agree s s := by
  cases slot with
  | scalar => exact .inl rfl
  | texts => rfl
  | one role => exact Role.AgreeIn.refl role s
  | many role =>
    unfold Slot.Agree
    cases Json.elements? s with
    | none => exact .none
    | some elements => exact .some (List.forall₂_same.mpr fun e _ => Role.AgreeIn.refl role e)

/-- Texts of objects agree if the members that count do. -/
theorem Role.agreeIn_of_members {role : Role} {s t : Json.Source}
    {ms ms' : List (String × Json.Source)} (left : Json.IsObject s ms) (right : Json.IsObject t ms')
    (each : ∀ key slot, (key, slot) ∈ (Object.holding ms).membersAs role →
      Option.Rel slot.Agree ((Object.holding ms).source? key) ((Object.holding ms').source? key)) :
    role.AgreeIn s t := by
  intro path
  rw [left.read path, right.read path]
  refine .some (Role.agree_of_members (Object.agree_iff.mpr ?_))
  exact fun (key, slot) listed => ⟨rfl, each key slot listed⟩

theorem Object.rel_of_source? {slot : Slot} {o o' : Object} {key : String}
    (same : o.source? key = o'.source? key) :
    Option.Rel slot.Agree (o.source? key) (o'.source? key) := by
  rw [same]
  cases o'.source? key with
  | none => exact .none
  | some s => exact .some (Slot.Agree.refl slot s)

section

variable {α : Type} {l : List (String × α)} {key : String}

theorem lookup_eq_head?_filter : l.lookup key = (l.filter (·.1 = key)).head?.map (·.2) := by
  induction l with
  | nil => rfl
  | cons entry l ih =>
    obtain ⟨name, value⟩ := entry
    by_cases same : name = key
    · simp [same]
    · simp [same, List.lookup_cons, beq_false_of_ne (Ne.symm same), ih]

theorem lookup_reverse_of_ne (other : ∀ entry ∈ l, entry.1 ≠ key) :
    l.reverse.lookup key = none := by
  rw [List.lookup_eq_none_iff]
  intro entry listed
  simpa using (other entry (List.mem_reverse.mp listed)).symm

end

/-- A member of another name in between does not matter. -/
theorem Object.source?_between {before after : List (String × Json.Source)} {name key : String}
    {v : Json.Source} (other : key ≠ name) :
    (holding (before ++ (name, v) :: after)).source? key = (holding (before ++ after)).source? key := by
  simp [source?_holding, List.lookup_append, List.lookup_cons, beq_false_of_ne other]

/-- A member is found unless one of its name comes behind it. -/
theorem Object.source?_last {before after : List (String × Json.Source)} {key : String}
    {v : Json.Source} (last : after.reverse.lookup key = none) :
    (holding (before ++ (key, v) :: after)).source? key =
      if Json.isNull v then none else some v := by
  cases null : Json.isNull v <;> simp [source?_holding, List.lookup_append, last, null]

theorem Object.source?_hidden {before after : List (String × Json.Source)} {key : String}
    {s : Json.Source} (later : after.reverse.lookup key = some s) :
    (holding (before ++ after)).source? key = if Json.isNull s then none else some s := by
  cases null : Json.isNull s <;> simp [source?_holding, List.lookup_append, later, null]

/-- What is edited reads as before. -/
theorem Edit.agree {slot : Slot} {s t : Json.Source} (h : Edit slot s t) : slot.Agree s t := by
  induction h with
  | @reorder role s t ms ms' left right same =>
    refine Role.agreeIn_of_members left right fun key slot _ => Object.rel_of_source? ?_
    have named : ms.filter (·.1 = key) = ms'.filter (·.1 = key) := by
      by_cases found : ∃ member ∈ ms ++ ms', member.1 = key
      · obtain ⟨member, listed, rfl⟩ := found
        exact same member listed
      · have none (member : String × Json.Source) (listed : member ∈ ms ++ ms') : member.1 ≠ key :=
          fun named => found ⟨member, listed, named⟩
        rw [List.filter_eq_nil_iff.mpr fun member listed => ?_,
          List.filter_eq_nil_iff.mpr fun member listed => ?_]
        · simpa using none member (List.mem_append_right ms listed)
        · simpa using none member (List.mem_append_left ms' listed)
    rw [Object.source?_holding, Object.source?_holding, lookup_eq_head?_filter,
      lookup_eq_head?_filter, List.filter_reverse, List.filter_reverse, named]
  | @unknown role s t before old new after left right unknown =>
    refine Role.agreeIn_of_members left right fun key slot listed => Object.rel_of_source? ?_
    have other := unknown _ listed
    have hidden := lookup_reverse_of_ne fun entry among => other entry (List.mem_append_left new among)
    have hidden' := lookup_reverse_of_ne fun entry among => other entry (List.mem_append_right old among)
    simp [Object.source?_holding, List.lookup_append, hidden, hidden']
  | @null role s t v name before after left right null fresh =>
    refine Role.agreeIn_of_members left right fun key slot listed => Object.rel_of_source? ?_
    by_cases same : key = name
    · subst same
      cases later : after.reverse.lookup key with
      | some s =>
        rw [List.append_cons, Object.source?_hidden later, Object.source?_hidden later]
      | none =>
        rw [Object.source?_last later, if_pos null, Object.source?_holding]
        simp [List.lookup_append, later, lookup_reverse_of_ne fresh]
    · exact (Object.source?_between same).symm
  | @member role s t v v' key slot before after left right only inner ih =>
    refine Role.agreeIn_of_members left right fun key' slot' listed => ?_
    by_cases same : key' = key
    · subst same
      obtain rfl : slot' = slot := only _ listed rfl
      cases later : after.reverse.lookup key' with
      | some s =>
        refine Object.rel_of_source? ?_
        rw [List.append_cons, Object.source?_hidden later, List.append_cons,
          Object.source?_hidden later]
      | none =>
        rw [Object.source?_last later, Object.source?_last later, inner.present.1, inner.present.2]
        exact .some ih
    · refine Object.rel_of_source? ?_
      rw [Object.source?_between same, Object.source?_between same]
  | @element role s t e e' before after left right inner ih =>
    have refl (elements : List Json.Source) : List.Forall₂ role.AgreeIn elements elements :=
      List.forall₂_same.mpr fun e _ => Role.AgreeIn.refl role e
    unfold Slot.Agree
    rw [left.2, right.2]
    exact .some (List.rel_append (refl before) (.cons ih (refl after)))
  | @held s t text left right object =>
    obtain ⟨rest, rfl⟩ := Json.exists_cons_of_string? left
    have filled : text ≠ "" := by
      rintro rfl
      simp [← right] at object
    have plain : t.head? ≠ some '"' := by simp [object]
    simp [Slot.Agree, Json.texts?, left, filled, right, plain]
  | @misfit slot s t left right =>
    cases slot with
    | scalar => exact .inr ⟨left.2, right.2⟩
    | texts => exact left.2.trans right.2.symm
    | one role =>
      intro path
      simp only [Object.read, left.1, right.1, left.2, right.2]
      exact .none
    | many role =>
      unfold Slot.Agree
      rw [left.2, right.2]
      exact .none

/-! ## Documents -/

theorem mem_dropWhile_or {p : Char → Bool} {cs : List Char} {c : Char} (member : c ∈ cs) :
    p c ∨ c ∈ cs.dropWhile p := by
  rw [← List.takeWhile_append_dropWhile (p := p) (l := cs)] at member
  exact (List.mem_append.mp member).imp_left List.mem_takeWhile_imp

theorem mem_trimChars_or {cs : List Char} {c : Char} (member : c ∈ cs) :
    Text.isBlank c ∨ c ∈ Text.trimChars cs := by
  rcases mem_dropWhile_or member with blank | member
  · exact .inl blank
  · refine (mem_dropWhile_or (List.mem_reverse.mpr member)).imp_right fun member => ?_
    exact List.mem_reverse.mpr member

/-- The word `null` has no end in it. -/
theorem Json.isNull_content {text : String} (null : isNull text.toList) : isNull (content text) := by
  have whole : content text = text.toList := by
    refine List.takeWhile_eq_self_iff.mpr fun c member => ?_
    have known : c ∈ "null".toList ∨ Text.isBlank c := by
      unfold isNull at null
      rcases mem_trimChars_or member with blank | member
      · exact .inr blank
      · simp only [Bool.or_eq_true, List.isEmpty_iff, beq_iff_eq] at null
        rcases null with empty | word
        · simp [empty] at member
        · exact .inl (word ▸ member)
    have other : ∀ d, d ∈ "null".toList ∨ Text.isBlank d → d ≠ Char.ofNat 0 := by
      rintro d h rfl
      revert h
      decide
    simpa using other c known
  rw [whole]
  exact null

theorem Object.readDocument_eq {text : String} (present : Json.isNull (Json.content text) = false) :
    readDocument text = read [] (Json.content text) := by
  have present' : Json.isNull text.toList = false := by
    cases null : Json.isNull text.toList with
    | false => rfl
    | true => exact (Json.isNull_content null).symm.trans present
  simp [readDocument, read, present, present']

/-- Documents that differ by edits, one after the other and in either direction. -/
def Request.SameMeaning (text text' : String) : Prop :=
  Relation.EqvGen (fun a b => Edit (.one .request) (Json.content a) (Json.content b)) text text'

/-- A document says the same after any edits: both documents are read as the same request, or both
are refused. -/
theorem Request.read_of_sameMeaning {text text' : String} (same : SameMeaning text text') :
    (read text).toOption = (read text').toOption := by
  induction same with
  | rel a b edit =>
    unfold read
    rw [Object.readDocument_eq edit.present.1, Object.readDocument_eq edit.present.2]
    exact Read.Same.behind (edit.agree []) fun o o' agree => agree
  | refl a => rfl
  | symm a b _ ih => exact ih.symm
  | trans a b c _ _ ih ih' => exact ih.trans ih'

set_option maxRecDepth 10000 in
/-- The properties are given as an object instead of a string, members are added that are `null` or
unknown, and the members of the request change places. -/
theorem Request.read_after_edits :
    let text := "\x7b\"type\":\"pushdown\",
      \"schemaMetadataInfo\":\x7b\"properties\":\"\x7b\\\"K\\\":1\x7d\"\x7d,
      \"pushdownRequest\":\x7b\"type\":\"select\"\x7d\x7d"
    let edited := "\x7b\"pushdownRequest\":\x7b\"type\":\"select\",\"filter\":null\x7d,
      \"x\":0,\"schemaMetadataInfo\":\x7b\"properties\":\x7b\"K\":1\x7d\x7d,
      \"type\":\"pushdown\"\x7d"
    SameMeaning text edited ∧ (read text).toOption = (read edited).toOption ∧
      ((read text).toOption.bind (·.pushdown)).isSome := by
  intro text edited
  let asObject := "\x7b\"type\":\"pushdown\",
    \"schemaMetadataInfo\":\x7b\"properties\":\x7b\"K\":1\x7d\x7d,
    \"pushdownRequest\":\x7b\"type\":\"select\"\x7d\x7d"
  let withNull := "\x7b\"type\":\"pushdown\",
    \"schemaMetadataInfo\":\x7b\"properties\":\x7b\"K\":1\x7d\x7d,
    \"pushdownRequest\":\x7b\"type\":\"select\",\"filter\":null\x7d\x7d"
  let withMore := "\x7b\"type\":\"pushdown\",
    \"schemaMetadataInfo\":\x7b\"properties\":\x7b\"K\":1\x7d\x7d,\"x\":0,
    \"pushdownRequest\":\x7b\"type\":\"select\",\"filter\":null\x7d\x7d"
  let type := ("type", "\"pushdown\"".toList)
  let held := "\x7b\"properties\":\"\x7b\\\"K\\\":1\x7d\"\x7d".toList
  let schema := "\x7b\"properties\":\x7b\"K\":1\x7d\x7d".toList
  let plain := "\x7b\"type\":\"select\"\x7d".toList
  let select := "\x7b\"type\":\"select\",\"filter\":null\x7d".toList
  have first : Json.IsObject (Json.content text)
      [type, ("schemaMetadataInfo", held), ("pushdownRequest", plain)] :=
    .ofList rfl (by decide +kernel)
  have second : Json.IsObject (Json.content asObject)
      [type, ("schemaMetadataInfo", schema), ("pushdownRequest", plain)] :=
    .ofList rfl (by decide +kernel)
  have third : Json.IsObject (Json.content withNull)
      [type, ("schemaMetadataInfo", schema), ("pushdownRequest", select)] :=
    .ofList rfl (by decide +kernel)
  have fourth : Json.IsObject (Json.content withMore)
      [type, ("schemaMetadataInfo", schema), ("x", ['0']), ("pushdownRequest", select)] :=
    .ofList rfl (by decide +kernel)
  have last : Json.IsObject (Json.content edited)
      [("pushdownRequest", select), ("x", ['0']), ("schemaMetadataInfo", schema), type] :=
    .ofList rfl (by decide +kernel)
  have same : SameMeaning text edited := by
    refine .trans _ _ _ (.rel _ asObject ?_) (.trans _ _ _ (.rel _ withNull ?_)
      (.trans _ _ _ (.rel _ withMore ?_) (.rel _ _ ?_)))
    · refine @Edit.member .request _ _ held schema "schemaMetadataInfo" (.one .schema) [type]
        [("pushdownRequest", plain)] first second (by decide +kernel) ?_
      refine @Edit.member .schema _ _ "\"\x7b\\\"K\\\":1\x7d\"".toList "\x7b\"K\":1\x7d".toList
        "properties" .texts [] [] (by decide +kernel) (by decide +kernel) (by decide +kernel) ?_
      exact @Edit.held _ _ "\x7b\"K\":1\x7d" (by decide +kernel) rfl (by decide +kernel)
    · refine @Edit.member .request _ _ plain select "pushdownRequest" (.one .statement)
        [type, ("schemaMetadataInfo", schema)] [] second third (by decide +kernel) ?_
      exact @Edit.null .statement _ _ "null".toList "filter" [("type", "\"select\"".toList)] []
        (by decide +kernel) (by decide +kernel) (by decide +kernel) (by decide +kernel)
    · exact @Edit.unknown .request _ _ [type, ("schemaMetadataInfo", schema)] [] [("x", ['0'])]
        [("pushdownRequest", select)] third fourth (by decide +kernel)
    · exact .reorder fourth last (by decide +kernel)
  refine ⟨same, read_of_sameMeaning same, ?_⟩
  rw [read, Object.readDocument_eq first.1, first.read]
  decide +kernel

end Pushdown
