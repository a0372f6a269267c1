import Pushdown.Proofs.Dialect.Report
import Pushdown.Proofs.Request.Reading
import Pushdown.Proofs.Service.Answer

/-!
# Questions about capabilities

The schema of a request chooses the dialect, whether the request asks for the capabilities or for a
pushdown. So the answer to the first is what the second can rely on.
-/

namespace Pushdown

/-- The pushdown of a request is for the schema of the request. -/
theorem Request.schema_of_pushdown {text : String} {r : Request} (read : Request.read text = .ok r)
    (type : r.type = .pushdown) : ∃ p, r.pushdown = some p ∧ p.schema = r.schema := by
  rcases Request.read_eq_ok read with ⟨-, root, p, given, pushdownRead⟩ | ⟨other, -⟩
  · simp only [PushdownRequest.read, bind_eq_ok, pure_eq_ok] at pushdownRead
    obtain ⟨_, _, _, _, _, _, _, _, rfl⟩ := pushdownRead
    exact ⟨_, given, rfl⟩
  · exact absurd type other

namespace Service

variable {s : Service}

/-- A pushdown is generated with the dialect of its schema. -/
theorem target_dialect {p : PushdownRequest} {t : Target} (chosen : s.target p = .ok t) :
    s.dialect p.schema = .ok t.dialect := by
  simp only [target, bind_eq_ok, pure_eq_ok] at chosen
  obtain ⟨d, known, -, -, rfl⟩ := chosen
  exact known

/-- What a pushdown that succeeds was generated from. -/
theorem pushdown_eq_ok {p : PushdownRequest} {g : Generated}
    (succeeded : (s.pushdown false (some p)).result = .ok g) :
    ∃ t statement, s.target p = .ok t ∧ g.dialect = t.dialect.id ∧
      t.dialect.generate t.context (some (.select statement)) = .ok g.sql := by
  simp only [pushdown, Bool.false_eq_true, if_false] at succeeded
  split at succeeded
  · contradiction
  · rename_i t chosen
    split at succeeded
    · contradiction
    · rename_i sql generated
      cases succeeded
      cases given : p.statement with
      | none => simp [generate, given] at generated
      | some statement =>
        simp only [generate, given, mapError_eq_ok] at generated
        exact ⟨t, statement, chosen, rfl, generated⟩

theorem respond_to_capabilities {canceled : Bool} {text : String} {r : Request}
    (read : Request.read text = .ok r) (type : r.type = .getCapabilities) :
    (s.respond canceled text).result =
      (fun d => { type := .getCapabilities, capabilities := d.profile.names }) <$>
        s.dialect r.schema := by
  simp only [respond, read, type, capabilities]
  cases s.dialect r.schema <;> rfl

theorem respond_to_pushdown {canceled : Bool} {text : String} {r : Request}
    (read : Request.read text = .ok r) (type : r.type = .pushdown) :
    (s.respond canceled text).result =
      (fun g => { type := .pushdown, sql := g.sql, dialect := g.dialect }) <$>
        (s.pushdown canceled r.pushdown).result := by
  simp only [respond, read, type, Answer.bind_result, Answer.pure_result]
  cases (s.pushdown canceled r.pushdown).result <;> rfl

/-- A pushdown for a schema without a dialect fails as the question about its capabilities does. -/
theorem pushdown_of_unknown {p : PushdownRequest} {f : Failure}
    (unknown : s.dialect p.schema = .error f) : (s.pushdown false (some p)).result = .error f := by
  have untargeted : s.target p = .error f := by
    rw [target, unknown]
    rfl
  simp only [pushdown, Bool.false_eq_true, if_false, untargeted]
  rfl

theorem exists_builtin {schema : Schema} {d : Dialect} (known : s.dialect schema = .ok d) :
    ∃ b : Builtin, d = b.build (s.notes schema) := by
  simp only [dialect, mapError_eq_ok, Registry.resolve] at known
  split at known
  · rename_i b _
    exact ⟨b, (Except.ok.inj known).symm⟩
  · contradiction

/-- The report of a built-in dialect is in ascending order without duplicates, and says what the
generator accepts: which functions, aggregates and window functions, and which features of nodes.
The report that answers a question is that of the dialect with which a pushdown for the same schema
is generated. -/
theorem capabilities_match_generator :
    (∀ (b : Builtin) (notes : Notes) (ctx : Context),
      (b.build notes).profile.names.Pairwise (· < ·) ∧
      (∀ name, "FN_" ++ name ∈ (b.build notes).profile.names ↔ ∃ columns : List Column,
        (b.build notes).Renders ctx (.function name (columns.map .column))) ∧
      (∀ name distinct c, "AGG_" ++ name ∈ (b.build notes).profile.names ↔
        (b.build notes).Renders ctx (.aggregate name distinct [.column c] none)) ∧
      (∀ name c, "WIN_" ++ name ∈ (b.build notes).profile.names ↔
        (b.build notes).Renders ctx (.window name [.column c] [] none none)) ∧
      ∀ c ∈ Capability.gates,
        (c.name ∈ (b.build notes).profile.names ↔
          ∃ n : Node, n.WellFormed ∧ n.uses c ∧ (b.build notes).Renders ctx n) ∧
        ∀ n : Node, n.WellFormed → n.uses c → ((b.build notes).gaining c).Renders ctx n →
          ((b.build notes).Renders ctx n ↔ c.name ∈ (b.build notes).profile.names)) ∧
    ∀ (s : Service) (question document : String) (asked request : Request),
      Request.read question = .ok asked → asked.type = .getCapabilities →
      Request.read document = .ok request → request.type = .pushdown →
      request.schema = asked.schema →
      (∀ reply, (s.respond false question).result = .ok reply →
        ∃ (b : Builtin) (d : Dialect) (p : PushdownRequest), d = b.build (s.notes asked.schema) ∧
          reply.capabilities = d.profile.names ∧ request.pushdown = some p ∧
          (∀ t, s.target p = .ok t → t.dialect = d) ∧
          ∀ answer, (s.respond false document).result = .ok answer → answer.dialect = d.id ∧
            ∃ ctx statement, d.generate ctx (some (.select statement)) = .ok answer.sql) ∧
      ∀ f, (s.respond false question).result = .error f →
        (s.respond false document).result = .error f := by
  refine ⟨fun b notes ctx => ?_, ?_⟩
  · have lossless := b.lossless notes
    exact ⟨(b.distinct notes).names_pairwise, Dialect.function_reported_iff lossless,
      Dialect.aggregate_reported_iff lossless.unmarked,
      Dialect.window_reported_iff lossless.unmarked,
      fun c gate => ⟨b.feature_reported_iff notes ctx gate,
        fun n rules uses otherwise => b.renders_iff_reported notes ctx gate rules uses otherwise⟩⟩
  · intro s question document asked request readQuestion asks readDocument pushes same
    obtain ⟨p, pushdown, schema⟩ := Request.schema_of_pushdown readDocument pushes
    rw [respond_to_capabilities readQuestion asks, respond_to_pushdown readDocument pushes,
      pushdown, ← same, ← schema]
    refine ⟨fun reply answered => ?_, fun f refused => ?_⟩
    · obtain ⟨d, known, rfl⟩ := map_eq_ok.mp answered
      obtain ⟨b, built⟩ := exists_builtin known
      have chosen (t : Target) (targeted : s.target p = .ok t) : t.dialect = d :=
        Except.ok.inj ((target_dialect targeted).symm.trans known)
      refine ⟨b, d, p, built, rfl, rfl, chosen, fun answer generated => ?_⟩
      obtain ⟨g, succeeded, rfl⟩ := map_eq_ok.mp generated
      obtain ⟨t, statement, targeted, named, generated⟩ := pushdown_eq_ok succeeded
      rw [chosen t targeted] at named generated
      exact ⟨named, t.context, statement, generated⟩
    · rw [pushdown_of_unknown (map_eq_error.mp refused)]
      rfl

set_option maxRecDepth 10000 in
/-- Window functions came with version 8 of MySQL. The report for an older one lacks them, and a
ranking is refused, though nothing else is missing. -/
theorem mySql_without_windows :
    let question := "\x7b\"type\":\"getCapabilities\",\"schemaMetadataInfo\":\x7b
      \"properties\":\x7b\"SQL_DIALECT\":\"MYSQL\"\x7d,
      \"adapterNotes\":\x7b\"databaseProductVersion\":\"5.7.1\"\x7d\x7d\x7d"
    let document := "\x7b\"type\":\"pushdown\",\"schemaMetadataInfo\":\x7b
      \"properties\":\x7b\"SQL_DIALECT\":\"MYSQL\"\x7d,
      \"adapterNotes\":\x7b\"databaseProductVersion\":\"5.7.1\"\x7d\x7d,
      \"pushdownRequest\":\x7b\"type\":\"select\"\x7d\x7d"
    let ranking : Node := .window "RANK" [.column { table := "T", name := "A" }] [] none none
    ∃ reply request p t, (respond {} false question).result = .ok reply ∧
      Request.read document = .ok request ∧ request.pushdown = some p ∧ target {} p = .ok t ∧
      reply.capabilities = t.dialect.profile.names ∧ "WIN_RANK" ∉ reply.capabilities ∧
      Capability.windowFunctions.name ∉ reply.capabilities ∧ ¬ t.dialect.Renders {} ranking ∧
      (t.dialect.gaining .windowFunctions).Renders {} ranking := by
  intro question document ranking
  let old : Schema :=
    { notes := ⟨[("databaseProductVersion", "5.7.1")]⟩, properties := ⟨[("SQL_DIALECT", "MYSQL")]⟩ }
  let p : PushdownRequest :=
    { statement := some { list := { star := true, items := [] } }, schema := old }
  have asked : Request.read question = .ok { type := .getCapabilities, schema := old } := by
    have same : question = String.ofList _ := rfl
    rw [same, Request.read, Object.readDocument_ofList]
    rfl
  have pushed : Request.read document =
      .ok { type := .pushdown, schema := old, pushdown := some p } := by
    have same : document = String.ofList _ := rfl
    rw [same, Request.read, Object.readDocument_ofList]
    rfl
  let d := Builtin.mySql.build old.notes
  have known : dialect {} old = .ok d := by
    have found : Registry.standard.find? "MYSQL" = some .mySql := by decide +kernel
    have chosen : property old.properties "SQL_DIALECT" ({} : Service).settings.dialect =
        "MYSQL" := by decide +kernel
    rw [dialect, chosen, Registry.resolve, found]
    rfl
  have targeted : target {} p = .ok { dialect := d, context := {} } := by
    rw [target, known]
    rfl
  have answered : (respond {} false question).result =
      .ok { type := .getCapabilities, capabilities := d.profile.names } := by
    rw [respond_to_capabilities asked rfl, known]
    rfl
  have otherwise : (d.gaining .windowFunctions).Renders {} ranking :=
    (Render.renders_window_iff rfl "RANK" _).mpr (by decide +kernel)
  have lacks : Capability.windowFunctions.name ∉ d.profile.names := by
    rw [Profile.mem_names_capability]
    decide +kernel
  have wellFormed : ranking.WellFormed := by
    intro m member
    simp only [ranking, Node.nodes_eq, Node.children, List.mem_cons, List.flatMap_cons,
      List.flatMap_nil, List.append_nil, List.not_mem_nil, or_false, Option.map_none,
      Option.toList_none] at member
    rcases member with rfl | rfl
    · exact ⟨⟨"RANK", by decide +kernel⟩, by rintro ⟨⟩, by rintro _ ⟨⟩⟩
    · exact ⟨by decide, by decide⟩
  obtain ⟨-, -, -, windows, features⟩ := capabilities_match_generator.1 .mySql old.notes {}
  have refused : ¬ d.Renders {} ranking := fun renders =>
    lacks (((features .windowFunctions (by decide)).2 ranking wellFormed rfl otherwise).mp renders)
  obtain ⟨-, _, q, -, report, pushdown, chosen, -⟩ := (capabilities_match_generator.2 {} question
    document _ _ asked rfl pushed rfl rfl).1 _ answered
  obtain rfl : p = q := Option.some.inj pushdown
  exact ⟨_, _, p, _, answered, pushed, rfl, targeted, report.trans (by rw [chosen _ targeted]),
    fun reported => refused ((windows "RANK" _).mp reported), lacks, refused, otherwise⟩

end Service

end Pushdown
