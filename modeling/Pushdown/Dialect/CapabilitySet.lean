/-!
# Capabilities of a dialect

The features that a database may lack, numbered from zero, and sets of them as words of 64
bits. A number beyond the word changes nothing, and a bit beyond the last known capability is
kept but never counts as a member.
-/

namespace Pushdown

/-- A feature that a dialect may or may not have. -/
inductive Capability where
  | windowFunctions | fullOuterJoin | rightOuterJoin | limit | limitWithOffset | booleanLiterals
  | nullsOrdering | aggregateFilter | simpleCase | inSubquery | derivedTables | intervalLiterals
  | extract | groupConcat | groupConcatOrderBy | regexpLike
deriving DecidableEq, Inhabited

namespace Capability

/-- All capabilities in ascending order of their numbers. -/
def all : List Capability :=
  [windowFunctions, fullOuterJoin, rightOuterJoin, limit, limitWithOffset, booleanLiterals,
    nullsOrdering, aggregateFilter, simpleCase, inSubquery, derivedTables, intervalLiterals,
    extract, groupConcat, groupConcatOrderBy, regexpLike]

/-- The place of the capability in the declaration. -/
def number (c : Capability) : Nat := c.ctorIdx

def name : Capability → String
  | windowFunctions => "WINDOW_FUNCTIONS"
  | fullOuterJoin => "FULL_OUTER_JOIN"
  | rightOuterJoin => "RIGHT_OUTER_JOIN"
  | limit => "LIMIT"
  | limitWithOffset => "LIMIT_WITH_OFFSET"
  | booleanLiterals => "BOOLEAN_LITERALS"
  | nullsOrdering => "NULLS_ORDERING"
  | aggregateFilter => "AGGREGATE_FILTER"
  | simpleCase => "SIMPLE_CASE"
  | inSubquery => "IN_SUBQUERY"
  | derivedTables => "DERIVED_TABLES"
  | intervalLiterals => "INTERVAL_LITERALS"
  | extract => "EXTRACT"
  | groupConcat => "GROUP_CONCAT"
  | groupConcatOrderBy => "GROUP_CONCAT_ORDER_BY"
  | regexpLike => "REGEXP_LIKE"

/-- The name that belongs to a number. -/
def nameOf (number : Nat) : String := ((all[number]?).map name).getD "UNKNOWN"

end Capability

/-- A set of capability numbers. -/
structure CapabilitySet where
  bits : BitVec 64 := 0
deriving DecidableEq, Inhabited

namespace CapabilitySet

/-- The word in which only the given number is set; numbers from 64 on leave it empty. -/
def bit (number : Nat) : BitVec 64 := 1#64 <<< number

/-- The set of every known capability. -/
def full : CapabilitySet := ⟨(1#64 <<< Capability.all.length) - 1⟩

/-- Add the given numbers. -/
def insertAll (s : CapabilitySet) (numbers : List Nat) : CapabilitySet :=
  numbers.foldl (fun s n => ⟨s.bits ||| bit n⟩) s

/-- Remove the given numbers. -/
def eraseAll (s : CapabilitySet) (numbers : List Nat) : CapabilitySet :=
  numbers.foldl (fun s n => ⟨s.bits &&& ~~~ bit n⟩) s

/-- Whether the number is that of a known capability in the set. -/
def hasNumber (s : CapabilitySet) (number : Nat) : Bool :=
  number < Capability.all.length && s.bits &&& bit number != 0

def has (s : CapabilitySet) (c : Capability) : Bool := s.hasNumber c.number

/-- The members in ascending order. -/
def toList (s : CapabilitySet) : List Capability := Capability.all.filter s.has

/-- The set without the given capabilities. -/
def without (s : CapabilitySet) (cs : List Capability) : CapabilitySet :=
  s.eraseAll (cs.map (·.number))

end CapabilitySet

end Pushdown
