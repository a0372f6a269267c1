import Pushdown.Dialect.Dialect
import Pushdown.Text.Blank

/-!
# The built-in dialects

Eight databases as differences from the standard profile. Some features depend on the version
that the notes name, and the generic dialect takes its quoting, case and sorting rules from
the notes altogether.
-/

namespace Pushdown

/-- A dialect that comes with the library. -/
inductive Builtin where
  | bigQuery | exasol | generic | mySql | oracle | postgreSql | sqlite | sqlServer
deriving DecidableEq, Inhabited

namespace Builtin

def all : List Builtin :=
  [bigQuery, exasol, generic, mySql, oracle, postgreSql, sqlite, sqlServer]

def id : Builtin → String
  | bigQuery => "BIGQUERY"
  | exasol => "EXASOL"
  | generic => "GENERIC"
  | mySql => "MYSQL"
  | oracle => "ORACLE"
  | postgreSql => "POSTGRESQL"
  | sqlite => "SQLITE"
  | sqlServer => "SQLSERVER"

private def anyCall (name : String) : String × FunctionSpec := (name, { name, arity := -1 })

/-- Every kind of node can be written, so nothing is refused; names are always quoted. -/
def exasolProfile : Profile :=
  { identifierCase := .sensitive
    qualifyCatalog := false
    regexp := ⟨"REGEXP_LIKE", .operator, 2⟩
    types := standardTypes.insertMany [
      (.double, { name := "DOUBLE" }),
      (.timestamp, { name := "TIMESTAMP", localTimeZone := "TIMESTAMP WITH LOCAL TIME ZONE" }),
      (.geometry, { name := "GEOMETRY", noParams := true }),
      (.hashtype, { name := "HASHTYPE", noParams := true })]
    aggregates := standardAggregates.insertMany [
      ("MEDIAN", "MEDIAN"), ("FIRST_VALUE", "FIRST_VALUE"), ("LAST_VALUE", "LAST_VALUE")]
    windowFunctions := standardWindowFunctions.insertMany [
      ("MEDIAN", "MEDIAN"), ("RATIO_TO_REPORT", "RATIO_TO_REPORT")]
    functions := standardFunctions.insertMany [
      anyCall "ADD_DAYS", anyCall "ADD_MONTHS", anyCall "ADD_YEARS", anyCall "DAYS_BETWEEN",
      anyCall "MONTHS_BETWEEN", anyCall "TO_CHAR", anyCall "TO_DATE", anyCall "TO_NUMBER",
      ("DIV", ⟨"DIV", .call, 2⟩)] }

/-- The first of some flags that the notes set decides. -/
def firstFlag {α : Type} (notes : Notes) (default : α) (flags : List (String × α)) : α :=
  ((flags.find? fun flag => notes.flag flag.1).map (·.2)).getD default

/-- What the metadata of an unknown database says, and only features that most have. -/
def genericProfile (notes : Notes) : Profile :=
  let quote := notes.text "identifierQuoteString"
  let separator := notes.text "catalogSeparator"
  { supported := CapabilitySet.full.without [.aggregateFilter, .groupConcat, .groupConcatOrderBy,
      .regexpLike, .intervalLiterals, .nullsOrdering]
    quoteOpen := if Text.trim quote = "" then "\"" else quote
    quoteClose := if Text.trim quote = "" then "\"" else quote
    qualifyCatalog := separator = "" || separator = "."
    identifierCase := firstFlag notes .upper [
      ("storesUpperCaseIdentifiers", .upper), ("storesLowerCaseIdentifiers", .lower),
      ("supportsMixedCaseIdentifiers", .insensitive),
      ("storesMixedCaseIdentifiers", .insensitive)]
    nullSorting := firstFlag notes .high [
      ("nullsAreSortedAtEnd", .atEnd), ("nullsAreSortedAtStart", .atStart),
      ("nullsAreSortedLow", .low), ("nullsAreSortedHigh", .high)] }

def bigQueryProfile : Profile :=
  { supported := CapabilitySet.full.without [.nullsOrdering, .aggregateFilter, .intervalLiterals]
    quoteOpen := "`"
    quoteClose := "`"
    identifierCase := .sensitive
    stringEscape := .backslash
    nullSorting := .low
    omitAscending := true
    timestampLiteral := "DATETIME %s"
    regexp := ⟨"REGEXP_CONTAINS", .call, 2⟩
    types := ⟨[
      (.decimal, { name := "NUMERIC" }), (.double, { name := "FLOAT64" }),
      (.varchar, { name := "STRING", noParams := true }),
      (.char, { name := "STRING", noParams := true }), (.date, { name := "DATE" }),
      (.timestamp, { name := "DATETIME", localTimeZone := "TIMESTAMP" }),
      (.boolean, { name := "BOOL" }), (.geometry, { name := "GEOGRAPHY", noParams := true })]⟩
    functions := standardFunctions.insertMany [
      ("POWER", ⟨"POW", .call, 2⟩), ("FLOAT_DIV", ⟨"IEEE_DIVIDE", .call, 2⟩),
      ("TRUNC", ⟨"TRUNC", .call, 1⟩)] }

def postgreSqlProfile : Profile :=
  { identifierCase := .lower
    castStyle := .doubleColon
    reserved := reservedWords [
      "ANALYSE", "ANALYZE", "ARRAY", "ASYMMETRIC", "CONCURRENTLY", "FREEZE", "ILIKE", "ISNULL",
      "LATERAL", "NOTNULL", "OFFSET", "OVERLAPS", "PLACING", "RETURNING", "SIMILAR", "VARIADIC",
      "VERBOSE", "WINDOW"]
    regexp := ⟨"~", .operator, 2⟩
    types := standardTypes.insertMany [
      (.timestamp, { name := "TIMESTAMP", localTimeZone := "TIMESTAMPTZ" }),
      (.geometry, { name := "GEOMETRY", noParams := true })]
    functions := standardFunctions.insertMany [
      ("CONCAT", ⟨"||", .operator, -1⟩), ("MOD", ⟨"%", .operator, 2⟩)] }

def mySqlProfile (notes : Notes) : Profile :=
  { supported := (CapabilitySet.full.without [.nullsOrdering, .fullOuterJoin, .aggregateFilter,
      .intervalLiterals]).without (if notes.atLeast "v8.0.0" then [] else [.windowFunctions])
    quoteOpen := "`"
    quoteClose := "`"
    identifierCase := .insensitive
    stringEscape := .doubledBackslash
    nullSorting := .low
    qualifyCatalog := false
    reserved := reservedWords [
      "ACCESSIBLE", "DATABASE", "DATABASES", "DIV", "DUAL", "KEY", "KEYS", "KILL", "LOCK",
      "MATCH", "RANK", "READ", "REGEXP", "RLIKE", "SCHEMA", "SHOW", "TRIGGER", "USAGE", "WRITE",
      "XOR"]
    regexp := ⟨"REGEXP", .operator, 2⟩
    types := ((standardTypes.insertMany [
      (.varchar, { name := "CHAR" }), (.double, { name := "DOUBLE" }),
      (.timestamp, { name := "DATETIME" })]).erase .boolean).erase .interval
    functions := standardFunctions.insertMany [
      ("TRUNC", ⟨"TRUNCATE", .call, 2⟩), ("DIV", ⟨"DIV", .operator, 2⟩)] }

def sqlServerProfile : Profile :=
  { supported := CapabilitySet.full.without [.limitWithOffset, .booleanLiterals, .nullsOrdering,
      .aggregateFilter, .intervalLiterals, .regexpLike]
    quoteOpen := "["
    quoteClose := "]"
    identifierCase := .insensitive
    limitStyle := .top
    nullSorting := .low
    reserved := reservedWords [
      "BACKUP", "BROWSE", "BULK", "CLUSTERED", "DATABASE", "DBCC", "DENY", "DUMP", "FILE",
      "IDENTITY", "KEY", "NOCHECK", "NONCLUSTERED", "OPENQUERY", "PERCENT", "PIVOT", "PLAN",
      "PROC", "PROCEDURE", "TOP", "TRAN", "UNPIVOT"]
    dateLiteral := "CAST(%s AS DATE)"
    timestampLiteral := "CAST(%s AS DATETIME2)"
    types := (standardTypes.insertMany [
      (.double, { name := "FLOAT" }),
      (.timestamp, { name := "DATETIME2", localTimeZone := "DATETIMEOFFSET" }),
      (.boolean, { name := "BIT" })]).erase .interval
    functions :=
      ["TRUNC", "GREATEST", "LEAST", "CURRENT_DATE", "LPAD", "RPAD"].foldl (·.erase ·)
        (standardFunctions.insertMany [
          ("LENGTH", ⟨"LEN", .call, 1⟩), ("SUBSTR", ⟨"SUBSTRING", .call, 3⟩),
          ("CEIL", ⟨"CEILING", .call, 1⟩), ("LN", ⟨"LOG", .call, 1⟩),
          ("MOD", ⟨"%", .operator, 2⟩), ("CONCAT", ⟨"CONCAT", .call, -1⟩)])
    aggregates := standardAggregates.insertMany [
      ("STDDEV", "STDEV"), ("STDDEV_SAMP", "STDEV"), ("STDDEV_POP", "STDEVP"),
      ("VARIANCE", "VAR"), ("VAR_SAMP", "VAR"), ("VAR_POP", "VARP")] }

def oracleProfile (notes : Notes) : Profile :=
  { supported := (CapabilitySet.full.without [.booleanLiterals, .aggregateFilter]).without
      (if notes.atLeast "v12.0.0" then [] else [.limit, .limitWithOffset])
    limitStyle := .fetchFirst
    dummyTable := "DUAL"
    tableAliasKeyword := false
    qualifyCatalog := false
    reserved := reservedWords [
      "ACCESS", "AUDIT", "CLUSTER", "COMMENT", "COMPRESS", "CONNECT", "EXCLUSIVE", "IDENTIFIED",
      "LEVEL", "LOCK", "MINUS", "MODE", "NOWAIT", "NUMBER", "PRIOR", "RAW", "RESOURCE", "ROWID",
      "ROWNUM", "SHARE", "SIZE", "START", "SYNONYM", "SYSDATE", "UID", "VARCHAR2"]
    types := ⟨[
      (.decimal, { name := "NUMBER" }), (.double, { name := "BINARY_DOUBLE" }),
      (.varchar, { name := "VARCHAR2" }), (.char, { name := "CHAR" }), (.date, { name := "DATE" }),
      (.timestamp, { name := "TIMESTAMP", localTimeZone := "TIMESTAMP WITH LOCAL TIME ZONE" }),
      (.interval, { name := "INTERVAL" })]⟩
    functions := standardFunctions.insert "CONCAT" ⟨"||", .operator, -1⟩
    aggregates := standardAggregates.insert "MEDIAN" "MEDIAN"
    windowFunctions := standardWindowFunctions.insertMany [
      ("MEDIAN", "MEDIAN"), ("RATIO_TO_REPORT", "RATIO_TO_REPORT")] }

/-- The features that came with later releases, each with its release. -/
def sqliteReleases : List (String × List Capability) := [
  ("v3.25.0", [.windowFunctions]), ("v3.30.0", [.nullsOrdering]), ("v3.30.0", [.aggregateFilter]),
  ("v3.39.0", [.rightOuterJoin, .fullOuterJoin]), ("v3.44.0", [.groupConcatOrderBy])]

/-- The standard functions that SQLite has under the same name. -/
def sqliteFunctions : List String := [
  "ADD", "SUB", "MULT", "FLOAT_DIV", "NEG", "ABS", "ROUND", "SIGN", "SUBSTR", "UPPER", "LOWER",
  "LENGTH", "TRIM", "LTRIM", "RTRIM", "REPLACE", "COALESCE", "NULLIF", "CURRENT_DATE",
  "CURRENT_TIMESTAMP"]

def sqliteProfile (notes : Notes) : Profile :=
  { supported := (CapabilitySet.full.without [.intervalLiterals, .regexpLike]).without
      ((sqliteReleases.filter fun release => !notes.atLeast release.1).flatMap (·.2))
    identifierCase := .insensitive
    nullSorting := .low
    qualifyCatalog := false
    dateLiteral := "DATE(%s)"
    timestampLiteral := "%s"
    reserved := reservedWords [
      "ABORT", "ATTACH", "AUTOINCREMENT", "DETACH", "GLOB", "INDEXED", "ISNULL", "NOTNULL",
      "PRAGMA", "RAISE", "REGEXP", "REINDEX", "VACUUM"]
    types := ⟨[
      (.decimal, { name := "NUMERIC", noParams := true }), (.double, { name := "REAL" }),
      (.varchar, { name := "TEXT", noParams := true }),
      (.char, { name := "TEXT", noParams := true }), (.boolean, { name := "INTEGER" })]⟩
    functions :=
      (Dictionary.mk (standardFunctions.entries.filter fun f => sqliteFunctions.contains f.1)
        |>.insertMany [
          ("CONCAT", ⟨"||", .operator, -1⟩), ("MOD", ⟨"%", .operator, 2⟩),
          ("GREATEST", ⟨"MAX", .call, -1⟩), ("LEAST", ⟨"MIN", .call, -1⟩)])
    aggregates := sameSpelling ["COUNT", "SUM", "MIN", "MAX", "AVG"] }

/-- The dialect for the database that the notes describe. -/
def build (b : Builtin) (notes : Notes) : Dialect :=
  match b with
  | exasol => { id := b.id, profile := exasolProfile, notes }
  | generic => { id := b.id, profile := genericProfile notes, notes }
  | bigQuery => { id := b.id, profile := bigQueryProfile, notes, concatStyle := .stringAgg }
  | postgreSql =>
    { id := b.id, profile := postgreSqlProfile, notes, concatStyle := .stringAggSeparator }
  | mySql => { id := b.id, profile := mySqlProfile notes, notes }
  | sqlServer =>
    { id := b.id, profile := sqlServerProfile, notes, extractStyle := .datePart
      concatStyle := .stringAggWithin }
  | oracle =>
    { id := b.id, profile := oracleProfile notes, notes, concatStyle := .listagg "v19.0.0" }
  | sqlite =>
    { id := b.id, profile := sqliteProfile notes, notes, extractStyle := .strftime
      concatStyle := .groupConcatArgument }

end Builtin

end Pushdown
