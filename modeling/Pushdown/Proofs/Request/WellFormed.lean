import Pushdown.Proofs.Request.Reading

/-!
# Requests describe well-formed trees

Every statement, FROM item and expression that is read is a well-formed tree, in which values and
conditions stand where they are expected.
-/

namespace Pushdown

/-- What is read is well-formed, whatever the scopes are. -/
def Reading.wellPlaced : Reading where
  node _ n := n.WellPlaced
  fromItem _ _ n _ := n.WellPlaced

theorem Reading.wellPlaced_closed (catalog : Catalog) : Reading.wellPlaced.Closed catalog where
  part built _ operands parts := by
    refine built.wellPlaced (fun c member => (operands c member).2) fun c member => ?_
    rcases List.mem_append.mp member with operand | part
    · exact (operands c operand).1
    · exact parts c part
  column rules _ _ := .column rules
  statement rules _ sourced list after operands := by
    refine Node.wellPlaced_iff.mpr ⟨⟨rules, operands⟩, fun c child => ?_⟩
    rcases Node.mem_children_select.mp child with rfl | item | clause
    · exact list
    · exact sourced c item
    · exact after c clause
  table rules _ := Node.wellPlaced_iff.mpr
    ⟨⟨rules, by simp [Node.Placed, Node.operands, Node.children]⟩, by simp [Node.children]⟩
  join rules left right condition := by
    refine Node.wellPlaced_iff.mpr ⟨⟨rules, ?_⟩, ?_⟩
    · simpa [Node.Placed, Node.operands] using condition.2
    · simpa [Node.children] using ⟨left, right, condition.1⟩
  subSelect rules statement _ := by
    refine Node.wellPlaced_iff.mpr ⟨⟨rules, by simp [Node.Placed, Node.operands]⟩, ?_⟩
    simp only [Node.children, List.mem_singleton, forall_eq]
    exact statement

/-- The statement of a request that has been read is a well-formed tree. -/
theorem Request.readPushdown_wellPlaced {text : String} {r : PushdownRequest}
    (h : Request.readPushdown text = .ok r) :
    ∃ s, r.statement = some s ∧ (Node.select s).WellPlaced :=
  (Reading.wellPlaced_closed r.catalog).readPushdown_node h

end Pushdown
